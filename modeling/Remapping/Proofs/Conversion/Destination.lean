import Mathlib.Data.List.Nodup
import Remapping.Conversion.Output
import Remapping.Proofs.Files.Shape
import Remapping.Proofs.Mapping.Shown

/-!
# Destinations

Whether a tiny file can be written depends on its rows and on the shape of the files around it,
and on nothing that other files hold. Read `snd_write_eq` first. The temporary file is the first
candidate that stands for no file yet; there always is one, because there are more candidates
than files (`exists_free`), and so its name depends on the shape alone (`temporary_eq`).
-/

namespace Remapping.Output

open Files

variable {files other : Files} {places : List Location} {p : Path}

/-! ## The temporary file -/

/-- The decimal digits of a number, filled up with zeros, are those of no other number. -/
theorem padLeft_ofNat_injective (width : Nat) :
    Function.Injective fun n => Text.padLeft width '0' (Text.ofNat n) := by
  let filled (n : Nat) : List Char :=
    List.replicate (width - (Nat.toDigits 10 n).length) '0' ++ Nat.toDigits 10 n
  have htext (n : Nat) : Text.padLeft width '0' (Text.ofNat n) = (filled n).map .char := by
    simp [filled, Text.padLeft, Text.ofNat, Text.inBase]
  have hread (n : Nat) : Nat.ofDigitChars 10 (filled n) 0 = n := by
    rw [Nat.ofDigitChars_append, Nat.ofDigitChars_replicate_zero, Nat.mul_zero,
      Nat.ofDigitChars_ten_toDigits]
  intro n m h
  have hsame : filled n = filled m := by
    refine (List.map_inj_right fun _ _ hchar => CodePoint.char.inj hchar).mp ?_
    exact (htext n).symm.trans (h.trans (htext m))
  rw [← hread n, ← hread m, hsame]

/-- Different candidates stand for different places. -/
theorem names_candidate_injective (files : Files) (p : Path) :
    Function.Injective fun n => (candidate files p n).names := by
  intro n m h
  have hname := List.append_cancel_left (h : _ ++ [_] = _ ++ [_])
  simp only [List.cons.injEq, List.append_assoc, List.cons_append, List.append_cancel_left_eq,
    List.append_cancel_right_eq, and_true, true_and] at hname
  exact padLeft_ofNat_injective 8 hname

/-- The places where something stands are listed, but for the root. -/
theorem mem_places_of_node? {place : Location} (hplace : place ≠ [])
    (h : files.node? place ≠ none) : place ∈ files.nodes.map (·.1) := by
  rw [node?, if_neg hplace, ne_eq, Option.map_eq_none_iff, List.find?_eq_none] at h
  simpa using h

/-- Among more candidates than files, one stands for no file. -/
theorem exists_free (files : Files) (p : Path) :
    ∃ n < files.nodes.length + 1, files.kind? (candidate files p n).names = none := by
  by_contra hnone
  have htaken : ∀ n < files.nodes.length + 1,
      (candidate files p n).names ∈ files.nodes.map (·.1) := by
    intro n hn
    refine mem_places_of_node? (List.concat_ne_nil _ _) fun hfree => hnone ⟨n, hn, ?_⟩
    rw [kind?, hfree]
    rfl
  have hnodup : ((List.range (files.nodes.length + 1)).map
      fun n => (candidate files p n).names).Nodup :=
    List.nodup_range.map (names_candidate_injective files p)
  have hsubset : (List.range (files.nodes.length + 1)).map (fun n => (candidate files p n).names) ⊆
      files.nodes.map (·.1) := by
    intro place hplace
    obtain ⟨n, hn, rfl⟩ := List.mem_map.mp hplace
    exact htaken n (List.mem_range.mp hn)
  have hcount := hnodup.length_le_of_subset hsubset
  rw [List.length_map, List.length_range, List.length_map] at hcount
  omega

/-- The temporary file is the first candidate that stands for no file. -/
theorem exists_temporary_eq (files : Files) (p : Path) :
    ∃ n, temporary files p = candidate files p n ∧
      files.kind? (candidate files p n).names = none ∧
      ∀ k < n, files.kind? (candidate files p k).names ≠ none := by
  have hfree (n : Nat) : (files.node? (candidate files p n).names).isNone = true ↔
      files.kind? (candidate files p n).names = none := by
    rw [← isNone_kind?, Option.isNone_iff_eq_none]
  obtain ⟨n, hn, hnone⟩ := exists_free files p
  cases hfind : (List.range (files.nodes.length + 1)).find? fun n =>
      (files.node? (candidate files p n).names).isNone with
  | none =>
      have htaken := List.find?_range_eq_none.mp hfind n hn
      rw [(hfree n).mpr hnone] at htaken
      cases htaken
  | some first =>
      obtain ⟨hfirst, -, hbefore⟩ := List.find?_range_eq_some.mp hfind
      refine ⟨first, ?_, (hfree first).mp hfirst, fun k hk hkfree => ?_⟩
      · rw [temporary, hfind]
        rfl
      · have htaken := hbefore k hk
        rw [(hfree k).mpr hkfree] at htaken
        cases htaken

/-- The candidates depend on the working directory alone. -/
theorem candidate_eq (h : SameShape places files other) (p : Path) (n : Nat) :
    candidate other p n = candidate files p n := by
  rw [candidate, candidate, h.1]

/-- The temporary file depends on the shape of the files alone. -/
theorem temporary_eq (h : SameShape places files other)
    (hcandidates : ∀ n, (candidate files p n).names ∉ places) :
    temporary other p = temporary files p := by
  have hkind (n : Nat) : other.kind? (candidate other p n).names =
      files.kind? (candidate files p n).names := by
    rw [candidate_eq h]
    exact h.2 _ (hcandidates n)
  obtain ⟨n, htemporary, hfree, hbefore⟩ := exists_temporary_eq files p
  obtain ⟨m, htemporary', hfree', hbefore'⟩ := exists_temporary_eq other p
  simp only [hkind] at hfree' hbefore'
  -- Both are the first candidate of the same kind.
  obtain rfl : m = n := by
    rcases Nat.lt_trichotomy m n with hlt | heq | hlt
    · exact absurd hfree' (hbefore m hlt)
    · exact heq
    · exact absurd hfree (hbefore' n hlt)
  rw [htemporary, htemporary', candidate_eq h]

/-! ## Writing -/

variable {place : Location} {setting : EncodingSetting} {rows : List Text}

/-- Whether rows can be written depends on the rows and the setting alone. -/
theorem snd_fill_eq (files other : Files) (place place' : Location) (setting : EncodingSetting)
    (rows : List Text) :
    (fill other place' setting rows).2 = (fill files place setting rows).2 := by
  cases setting <;> rfl

/-- Rows written to the same place keep the shape the same. -/
theorem sameShape_fill (h : SameShape places files other) (place : Location)
    (setting : EncodingSetting) (rows : List Text) :
    SameShape places (fill files place setting rows).1 (fill other place setting rows).1 := by
  cases setting with
  | notAName => exact h
  | unknown => exact h.put place _
  | known codec => exact h.put place _

/-- Rows written where nothing stood make no directory. -/
theorem sameDirectories_fill (hfresh : files.node? place = none) (setting : EncodingSetting)
    (rows : List Text) : SameDirectories files (fill files place setting rows).1 := by
  have hplace : files.node? place ≠ some .directory := by simp [hfresh]
  cases setting with
  | notAName => exact ⟨rfl, fun _ => Iff.rfl⟩
  | unknown => exact (written_put hplace _).sameDirectories hplace
  | known codec => exact (written_put hplace _).sameDirectories hplace

/-- A path to write to, and what may stand around it: the path and the candidates for a temporary
file keep off some places. -/
structure Apart (places : List Location) (files : Files) (p : Path) : Prop where
  path : files.Apart places p
  names : ∀ n, (candidate files p n).names ∉ places
  candidates : ∀ n, files.Apart places (candidate files p n)

/-- Everything keeps off no places. -/
theorem apart_nil (files : Files) (p : Path) : Apart [] files p :=
  ⟨files.apart_nil p, fun _ => List.not_mem_nil, fun _ => files.apart_nil _⟩

/-- The rows can be written in place, or the same failure keeps them from that. -/
theorem snd_writeInPlace_eq (h : SameShape places files other) (hp : Apart places files p) :
    (writeInPlace other p setting rows).2 = (writeInPlace files p setting rows).2 := by
  unfold writeInPlace
  rw [h.writePlace_eq hp.path]
  cases setting with
  | notAName => rfl
  | unknown | known codec => cases files.writePlace p <;> rfl

/-- A write through a temporary file meets the first failure of three: its path is not fresh, the
rows cannot be written to it, or it cannot be renamed. -/
theorem snd_writeAtomically (files : Files) (p : Path) (setting : EncodingSetting)
    (rows : List Text) :
    (writeAtomically files p setting rows).2 =
      match files.freshPlace (temporary files p) with
      | .error fault => .error (failed p { fault, path := (temporary files p).toText })
      | .ok place =>
        match (fill files place setting rows).2,
          ((fill files place setting rows).1.rename place p).map fun _ => () with
        | .error failure, _ => .error failure
        | .ok (), .error fault =>
          .error (failed p
            { fault, path := (temporary files p).toText, target := some p.toText })
        | .ok (), .ok () => .ok () := by
  unfold writeAtomically
  dsimp only
  cases files.freshPlace (temporary files p) with
  | error fault => rfl
  | ok place =>
      dsimp only
      cases fill files place setting rows with
      | mk filled outcome =>
          cases outcome with
          | error failure => rfl
          | ok written =>
              cases written
              dsimp only
              cases filled.rename place p <;> rfl

/-- The rows can be written through a temporary file, or the same failure keeps them from that. -/
theorem snd_writeAtomically_eq (h : SameShape places files other) (hp : Apart places files p) :
    (writeAtomically other p setting rows).2 = (writeAtomically files p setting rows).2 := by
  obtain ⟨n, htemporary, -, -⟩ := exists_temporary_eq files p
  have happart : files.Apart places (temporary files p) := htemporary ▸ hp.candidates n
  rw [snd_writeAtomically, snd_writeAtomically, temporary_eq h hp.names, h.freshPlace_eq happart]
  cases hfresh : files.freshPlace (temporary files p) with
  | error fault => rfl
  | ok place =>
      obtain ⟨hlocate, hnode⟩ := freshPlace_eq_ok_iff.mp hfresh
      -- The rename takes place after the temporary file was put into both.
      have htarget := (sameDirectories_fill hnode setting rows).apart hp.path
      have hrename := (sameShape_fill h place setting rows).rename_eq htarget
        (happart.not_mem_of_locate hlocate)
      simp only [snd_fill_eq files other place place, hrename]

/-- A mapping set can be written, or the same failure keeps it from that, whatever the files hold
and whatever of the set is not shown. -/
theorem snd_write_eq (h : SameShape places files other) (hp : Apart places files p)
    (atomic : Bool) (setting : EncodingSetting) {m m' : MappingSet} (hm : m'.shown = m.shown) :
    (write other p atomic setting m').2 = (write files p atomic setting m).2 := by
  have hwriter : ((if atomic then writeAtomically else writeInPlace) other p setting
      (Tiny.rows m)).2 =
      ((if atomic then writeAtomically else writeInPlace) files p setting (Tiny.rows m)).2 := by
    cases atomic with
    | true => exact snd_writeAtomically_eq h hp
    | false => exact snd_writeInPlace_eq h hp
  unfold write
  rw [h.isDirectory_eq hp.path, Tiny.rows_of_shown_eq hm, MappingSet.rowCount_of_shown_eq hm]
  cases files.isDirectory p with
  | error e => rfl
  | ok directory =>
      cases directory with
      | true => rfl
      | false =>
          cases hwritten : (if atomic then writeAtomically else writeInPlace) files p setting
              (Tiny.rows m) with
          | mk written outcome =>
              cases hwritten' : (if atomic then writeAtomically else writeInPlace) other p setting
                  (Tiny.rows m) with
              | mk written' outcome' =>
                  rw [hwritten, hwritten'] at hwriter
                  obtain rfl : outcome' = outcome := hwriter
                  dsimp only
                  rw [hwritten, hwritten']
                  cases outcome' <;> rfl

end Remapping.Output
