import Mathlib.Data.List.Forall2
import Mathlib.Tactic.MkIffOfInductiveProp
import Remapping.Proofs.Layout.Rows

/-!
# Dropped lines

Every line after the header that is not blank becomes a class, a field, a method or a warning,
and only one of them. Read `length_filledLines` first: the numbers of the four add up to the
number of these lines. `forall₂_warnings` says which lines the warnings are about.
-/

namespace Remapping.Yarn

/-- A line that is dropped: it is not blank, and describes neither a class nor a member. -/
@[mk_iff isDropped_iff_and]
structure IsDropped (line : Text) : Prop where
  filled : ¬ line.all Text.isBlank = true
  no_class : class? line = none
  no_field : member? .fieldRow line = none
  no_method : member? .methodRow line = none

instance (line : Text) : Decidable (IsDropped line) := decidable_of_iff' _ (isDropped_iff_and line)

/-- The dropped lines of a text after the first, with their numbers counted from one. -/
def droppedLines (t : Text) : List (Text × Nat) :=
  ((Text.lines t).tail.zipIdx 2).filter (IsDropped ·.1)

/-- The lines of a text after the first that are not blank. -/
def filledLines (t : Text) : List Text := (Text.lines t).tail.filter (!·.all Text.isBlank)

/-- A warning about a line with a number: it holds the line, and says why the line is not a row. -/
def WarnsOf (w : RowWarning) (line : Text × Nat) : Prop :=
  ∃ fault, readRow line.2 line.1 = .error fault ∧
    w = { lineNumber := line.2, message := fault.message, line := line.1 }

/-! ## One line -/

/-- A member that is read is a field or a method. -/
theorem kind_of_readRow {n : Nat} {line : Text} {e : MemberEntry}
    (h : readRow n line = .ok (.ofMember e)) : e.kind = .fieldRow ∨ e.kind = .methodRow := by
  obtain ⟨kind, columns, -, hrow⟩ := readRow_eq_ok_iff.mp h
  obtain ⟨hkind, rfl, -⟩ := ofColumns?_eq_ofMember_iff.mp hrow
  cases hcases : e.kind with
  | classRow => exact absurd hcases hkind
  | fieldRow => exact .inl rfl
  | methodRow => exact .inr rfl

/-- A line is dropped exactly if it is not blank and not a row. -/
theorem isDropped_iff (n : Nat) {line : Text} : IsDropped line ↔
    ¬ line.all Text.isBlank = true ∧ ∃ fault, readRow n line = .error fault := by
  have hclass : class? line = none ↔ Reading.class? ⟨n, line, readRow n line⟩ = none := by
    rw [class?_readRow]
  have hmember {kind : RowKind} (hkind : kind ≠ .classRow) : member? kind line = none ↔
      Reading.member? kind ⟨n, line, readRow n line⟩ = none := by
    rw [← member?_readRow hkind n, Option.map_eq_none_iff]
  rw [isDropped_iff_and, hclass, hmember (by decide), hmember (by decide)]
  cases hrow : readRow n line with
  | error fault => simp [Reading.class?, Reading.member?]
  | ok row =>
      cases row with
      | ofClass entry => simp [Reading.class?]
      | ofMember e =>
          rcases kind_of_readRow hrow with hkind | hkind <;> simp [Reading.member?, hkind]

/-! ## Counts -/

/-- A reading is one of the four: a class, a field, a method or a warning. -/
theorem count_reading {r : Reading} (h : r.row = readRow r.lineNumber r.line) :
    (if (Reading.class? r).isSome = true then 1 else 0) +
      (if (Reading.member? .fieldRow r).isSome = true then 1 else 0) +
      (if (Reading.member? .methodRow r).isSome = true then 1 else 0) +
      (if (Reading.warning? r).isSome = true then 1 else 0) = 1 := by
  cases hrow : r.row with
  | error fault => simp [Reading.class?, Reading.member?, Reading.warning?, hrow]
  | ok row =>
      cases row with
      | ofClass entry => simp [Reading.class?, Reading.member?, Reading.warning?, hrow]
      | ofMember e =>
          rcases kind_of_readRow (h.symm.trans hrow) with hkind | hkind
          · simp [Reading.class?, Reading.member?, Reading.warning?, hrow, hkind]
          · simp [Reading.class?, Reading.member?, Reading.warning?, hrow, hkind]

/-- Readings are counted once each: as classes, as fields, as methods, or as warnings. -/
theorem length_readings {readings : List Reading}
    (h : ∀ r ∈ readings, r.row = readRow r.lineNumber r.line) :
    readings.length = (readings.filterMap Reading.class?).length +
      (readings.filterMap (Reading.member? .fieldRow)).length +
      (readings.filterMap (Reading.member? .methodRow)).length +
      (readings.filterMap Reading.warning?).length := by
  simp only [List.length_filterMap_eq_countP]
  induction readings with
  | nil => rfl
  | cons r readings ih =>
      obtain ⟨hr, h⟩ := List.forall_mem_cons.mp h
      have hone := count_reading hr
      simp only [List.length_cons, List.countP_cons, ih h]
      omega

/-- There are as many readings as lines that are not blank. -/
theorem length_readBody (first : Nat) (body : List Text) :
    (readBody first body).length = (body.filter (!·.all Text.isBlank)).length := by
  have hline : (fun entry : Text × Nat => (if entry.1.all Text.isBlank then none
      else some (⟨entry.2, entry.1, readRow entry.2 entry.1⟩ : Reading)).isSome) =
        (!·.all Text.isBlank) ∘ Prod.fst := by
    funext entry
    cases hblank : entry.1.all Text.isBlank <;> simp [hblank]
  rw [readBody, List.length_filterMap_eq_countP]
  show (body.zipIdx first).countP (fun entry => (if entry.1.all Text.isBlank then none
      else some (⟨entry.2, entry.1, readRow entry.2 entry.1⟩ : Reading)).isSome) = _
  rw [hline, ← List.countP_map, List.zipIdx_map_fst, List.countP_eq_length_filter]

/-- The lines of a text that are not blank are counted once each: as rows of the set that is read,
or as warnings. -/
theorem length_filledLines {version t : Text} {m : MappingSet} {warnings : List RowWarning}
    (h : readText version t = .ok (m, warnings)) :
    (filledLines t).length = m.rowCount + warnings.length := by
  obtain ⟨header, body, hlines, -, rfl, rfl⟩ := readText_eq_ok_iff.mp h
  have hread : ∀ r ∈ readBody 2 body, r.row = readRow r.lineNumber r.line := by
    intro r hr
    obtain ⟨entry, -, hentry⟩ := List.mem_filterMap.mp hr
    obtain ⟨-, hr⟩ := Option.ite_none_left_eq_some.mp hentry
    obtain rfl := Option.some.inj hr
    rfl
  rw [filledLines, hlines, List.tail_cons, ← length_readBody 2, length_readings hread]
  rfl

/-! ## Warnings -/

/-- The warnings are about the dropped lines, in their order. -/
theorem forall₂_warnings {version t : Text} {m : MappingSet} {warnings : List RowWarning}
    (h : readText version t = .ok (m, warnings)) :
    List.Forall₂ WarnsOf warnings (droppedLines t) := by
  obtain ⟨header, body, hlines, -, -, rfl⟩ := readText_eq_ok_iff.mp h
  rw [readWarnings, filterMap_readBody_zipIdx, droppedLines, hlines, List.tail_cons]
  induction body.zipIdx 2 with
  | nil => exact .nil
  | cons entry entries ih =>
      rw [List.filterMap_cons, List.filter_cons]
      by_cases hdropped : IsDropped entry.1
      · obtain ⟨hfilled, fault, hfault⟩ := (isDropped_iff entry.2).mp hdropped
        rw [if_neg hfilled, if_pos (decide_eq_true hdropped), Reading.warning?, hfault]
        exact .cons ⟨fault, hfault, rfl⟩ ih
      · have hnone : (if entry.1.all Text.isBlank then none
            else Reading.warning? ⟨entry.2, entry.1, readRow entry.2 entry.1⟩) = none := by
          split
          · rfl
          · next hfilled =>
            cases hrow : readRow entry.2 entry.1 with
            | ok row => rfl
            | error fault =>
                exact absurd ((isDropped_iff entry.2).mpr ⟨hfilled, fault, hrow⟩) hdropped
        rw [hnone, if_neg (by simpa using hdropped)]
        exact ih

end Remapping.Yarn
