import Mathlib.Data.List.Forall2
import Remapping.Proofs.Layout.Dropped

/-!
# What each line contributes

A line after the header contributes a class, a field, a method or a warning, or nothing if it is
blank. `Contributes` tells which by the columns of the line and its number alone, and
`contributes_iff` shows that the reader agrees. Read `Classified` first: it says what a file is
read as, line by line. `readBody_append` is the reason why no line depends on another one: the
lines behind some others are read as if they came first, only with higher numbers.
-/

namespace Remapping

/-- A member as it is read some lines further down. -/
def MemberEntry.lowered (k : Nat) (e : MemberEntry) : MemberEntry :=
  { e with lineNumber := e.lineNumber + k }

/-- A warning about a line some lines further down. -/
def RowWarning.lowered (k : Nat) (w : RowWarning) : RowWarning :=
  { w with lineNumber := w.lineNumber + k }

namespace MappingSet

/-- A set as it is read some lines further down. -/
def lowered (k : Nat) (m : MappingSet) : MappingSet :=
  { m with fields := m.fields.map (·.lowered k), methods := m.methods.map (·.lowered k) }

/-- The rows of a set with those of another one behind them. -/
def followedBy (m next : MappingSet) : MappingSet where
  version := m.version
  namespaces := m.namespaces
  classes := m.classes ++ next.classes
  fields := m.fields ++ next.fields
  methods := m.methods ++ next.methods

end MappingSet

namespace Yarn

/-- What a line can contribute. -/
inductive Contribution
  | ofClass (entry : ClassEntry)
  | ofField (e : MemberEntry)
  | ofMethod (e : MemberEntry)
  | ofWarning (w : RowWarning)

namespace Contribution

/-- A contributed class. -/
def class? : Contribution → Option ClassEntry
  | ofClass entry => some entry
  | _ => none

/-- A contributed field. -/
def field? : Contribution → Option MemberEntry
  | ofField e => some e
  | _ => none

/-- A contributed method. -/
def method? : Contribution → Option MemberEntry
  | ofMethod e => some e
  | _ => none

/-- A contributed warning. -/
def warning? : Contribution → Option RowWarning
  | ofWarning w => some w
  | _ => none

end Contribution

/-- What the line with a number contributes, told by its columns. -/
inductive Contributes (n : Nat) (line : Text) : Option Contribution → Prop
  | blank : line.all Text.isBlank = true → Contributes n line none
  | ofClass (obfuscated intermediate readable : Text) (extra : List Text) :
      line.splitOn (.char '\t') =
        "CLASS".toText :: obfuscated :: intermediate :: readable :: extra →
      Contributes n line (some (.ofClass { obfuscated, intermediate, readable }))
  | ofField (owner descriptor obfuscated intermediate readable : Text) (extra : List Text) :
      line.splitOn (.char '\t') =
        "FIELD".toText :: owner :: descriptor :: obfuscated :: intermediate :: readable :: extra →
      Contributes n line (some (.ofField {
        kind := .fieldRow
        owner
        descriptor
        obfuscated
        intermediate
        readable
        lineNumber := n }))
  | ofMethod (owner descriptor obfuscated intermediate readable : Text) (extra : List Text) :
      line.splitOn (.char '\t') =
        "METHOD".toText :: owner :: descriptor :: obfuscated :: intermediate :: readable :: extra →
      Contributes n line (some (.ofMethod {
        kind := .methodRow
        owner
        descriptor
        obfuscated
        intermediate
        readable
        lineNumber := n }))
  | unknown (tag : Text) (columns : List Text) :
      ¬ line.all Text.isBlank = true → line.splitOn (.char '\t') = tag :: columns →
      tag ∉ ["CLASS".toText, "FIELD".toText, "METHOD".toText] →
      Contributes n line (some (.ofWarning {
        lineNumber := n
        message := (RowFault.unknownTag tag).message
        line }))
  | shortClass (columns : List Text) :
      line.splitOn (.char '\t') = "CLASS".toText :: columns → columns.length + 1 < 4 →
      Contributes n line (some (.ofWarning {
        lineNumber := n
        message := (RowFault.tooFewColumns (columns.length + 1) 4).message
        line }))
  | shortMember (tag : Text) (columns : List Text) :
      tag ∈ ["FIELD".toText, "METHOD".toText] → line.splitOn (.char '\t') = tag :: columns →
      columns.length + 1 < 6 →
      Contributes n line (some (.ofWarning {
        lineNumber := n
        message := (RowFault.tooFewColumns (columns.length + 1) 6).message
        line }))

/-! ## One line -/

/-- What the reader takes from a line: nothing from a blank one, and what it reads otherwise. -/
def contribution? (n : Nat) (line : Text) : Option Contribution :=
  if line.all Text.isBlank then none
  else match readRow n line with
    | .ok (.ofClass entry) => some (.ofClass entry)
    | .ok (.ofMember e) => some (if e.kind = .fieldRow then .ofField e else .ofMethod e)
    | .error fault =>
      some (.ofWarning { lineNumber := n, message := fault.message, line })

/-- A tag names no kind exactly if it is none of the three. -/
theorem ofTag?_eq_none_iff {tag : Text} :
    RowKind.ofTag? tag = none ↔ tag ∉ ["CLASS".toText, "FIELD".toText, "METHOD".toText] := by
  simp only [RowKind.ofTag?, List.find?_eq_none, List.mem_cons, List.not_mem_nil, or_false,
    decide_eq_true_eq, forall_eq_or_imp, forall_eq, not_or]
  exact ⟨fun ⟨h, h', h''⟩ => ⟨Ne.symm h, Ne.symm h', Ne.symm h''⟩,
    fun ⟨h, h', h''⟩ => ⟨Ne.symm h, Ne.symm h', Ne.symm h''⟩⟩

/-- Columns make no row exactly if they are too few. -/
theorem ofColumns?_eq_none_iff {n : Nat} {kind : RowKind} {columns : List Text} :
    Row.ofColumns? n kind columns = none ↔ columns.length + 1 < requiredColumns kind := by
  cases kind with
  | classRow =>
      rcases columns with _ | ⟨a, _ | ⟨b, _ | ⟨c, rest⟩⟩⟩ <;>
        simp [Row.ofColumns?, requiredColumns]
  | fieldRow | methodRow =>
      rcases columns with _ | ⟨a, _ | ⟨b, _ | ⟨c, _ | ⟨d, _ | ⟨e, rest⟩⟩⟩⟩⟩ <;>
        simp [Row.ofColumns?, requiredColumns]

/-- A line is read as no row exactly if its tag is unknown or its columns are too few. -/
theorem readRow_eq_error_iff {n : Nat} {line : Text} {fault : RowFault} :
    readRow n line = .error fault ↔ ∃ tag columns, line.splitOn (.char '\t') = tag :: columns ∧
      ((RowKind.ofTag? tag = none ∧ fault = .unknownTag tag) ∨
        ∃ kind, tag = RowKind.tag kind ∧ columns.length + 1 < requiredColumns kind ∧
          fault = .tooFewColumns (columns.length + 1) (requiredColumns kind)) := by
  cases hcolumns : line.splitOn (.char '\t') with
  | nil => exact absurd hcolumns (List.splitOn_ne_nil _ _)
  | cons tag columns =>
      simp only [readRow, hcolumns, List.headD_cons, List.tail_cons, List.length_cons]
      constructor
      · intro h
        refine ⟨tag, columns, rfl, ?_⟩
        split at h
        · next hkind => exact .inl ⟨hkind, (Except.error.inj h).symm⟩
        · next kind hkind =>
          split at h
          · cases h
          · next hrow =>
            exact .inr ⟨kind, ofTag?_eq_some_iff.mp hkind, ofColumns?_eq_none_iff.mp hrow,
              (Except.error.inj h).symm⟩
      · intro h
        obtain ⟨_, _, heq, h⟩ := h
        obtain ⟨rfl, rfl⟩ := List.cons.inj heq
        rcases h with ⟨hkind, rfl⟩ | ⟨kind, rfl, hshort, rfl⟩
        · simp only [hkind]
        · simp only [ofTag?_eq_some_iff.mpr rfl, ofColumns?_eq_none_iff.mpr hshort]

/-- What a line contributes, the reader takes from it. -/
theorem contribution?_of_contributes {n : Nat} {line : Text} {c : Option Contribution}
    (h : Contributes n line c) : contribution? n line = c := by
  have hrow {columns : List Text} {row : Row} (kind : RowKind)
      (hcolumns : line.splitOn (.char '\t') = kind.tag :: columns)
      (hof : Row.ofColumns? n kind columns = some row) :
      ¬ line.all Text.isBlank = true ∧ readRow n line = .ok row :=
    ⟨not_blank_of_tag hcolumns, readRow_eq_ok_iff.mpr ⟨kind, columns, hcolumns, hof⟩⟩
  have hshort {columns : List Text} (kind : RowKind)
      (hcolumns : line.splitOn (.char '\t') = kind.tag :: columns)
      (hlength : columns.length + 1 < requiredColumns kind) :
      ¬ line.all Text.isBlank = true ∧ readRow n line =
        .error (.tooFewColumns (columns.length + 1) (requiredColumns kind)) :=
    ⟨not_blank_of_tag hcolumns, readRow_eq_error_iff.mpr
      ⟨kind.tag, columns, hcolumns, .inr ⟨kind, rfl, hlength, rfl⟩⟩⟩
  cases h with
  | blank hblank => exact if_pos hblank
  | ofClass _ _ _ _ hcolumns =>
      obtain ⟨hfilled, hread⟩ := hrow .classRow hcolumns rfl
      rw [contribution?, if_neg hfilled, hread]
  | ofField _ _ _ _ _ _ hcolumns =>
      obtain ⟨hfilled, hread⟩ := hrow .fieldRow hcolumns rfl
      rw [contribution?, if_neg hfilled, hread]
      rfl
  | ofMethod _ _ _ _ _ _ hcolumns =>
      obtain ⟨hfilled, hread⟩ := hrow .methodRow hcolumns rfl
      rw [contribution?, if_neg hfilled, hread]
      rfl
  | unknown tag columns hfilled hcolumns htag =>
      have hread : readRow n line = .error (.unknownTag tag) := readRow_eq_error_iff.mpr
        ⟨tag, columns, hcolumns, .inl ⟨ofTag?_eq_none_iff.mpr htag, rfl⟩⟩
      rw [contribution?, if_neg hfilled, hread]
  | shortClass columns hcolumns hlength =>
      obtain ⟨hfilled, hread⟩ := hshort .classRow hcolumns hlength
      rw [contribution?, if_neg hfilled, hread]
      rfl
  | shortMember tag columns htag hcolumns hlength =>
      simp only [List.mem_cons, List.not_mem_nil, or_false] at htag
      rcases htag with rfl | rfl
      · obtain ⟨hfilled, hread⟩ := hshort .fieldRow hcolumns hlength
        rw [contribution?, if_neg hfilled, hread]
        rfl
      · obtain ⟨hfilled, hread⟩ := hshort .methodRow hcolumns hlength
        rw [contribution?, if_neg hfilled, hread]
        rfl

/-- A line that is read as a row contributes this row. -/
theorem contributes_row {n : Nat} {line : Text} {row : Row} (h : readRow n line = .ok row) :
    Contributes n line (contribution? n line) := by
  have hfilled : ¬ line.all Text.isBlank = true := by
    obtain ⟨kind, columns, hcolumns, -⟩ := readRow_eq_ok_iff.mp h
    exact not_blank_of_tag hcolumns
  obtain ⟨kind, columns, hcolumns, hof⟩ := readRow_eq_ok_iff.mp h
  rw [contribution?, if_neg hfilled, h]
  cases row with
  | ofClass entry =>
      obtain ⟨rfl, rest, rfl⟩ := ofColumns?_eq_ofClass_iff.mp hof
      exact .ofClass _ _ _ rest hcolumns
  | ofMember e =>
      obtain ⟨hkind, hself, hnumber, rest, rfl⟩ := ofColumns?_eq_ofMember_iff.mp hof
      obtain ⟨memberKind, owner, obfuscated, intermediate, readable, descriptor, lineNumber⟩ := e
      obtain rfl : memberKind = kind := hself
      obtain rfl : lineNumber = n := hnumber
      cases memberKind with
      | classRow => exact absurd rfl hkind
      | fieldRow => exact .ofField _ _ _ _ _ rest hcolumns
      | methodRow => exact .ofMethod _ _ _ _ _ rest hcolumns

/-- A line that is neither blank nor read as a row contributes a warning. -/
theorem contributes_warning {n : Nat} {line : Text} {fault : RowFault}
    (hfilled : ¬ line.all Text.isBlank = true) (h : readRow n line = .error fault) :
    Contributes n line (contribution? n line) := by
  rw [contribution?, if_neg hfilled, h]
  obtain ⟨tag, columns, hcolumns, ⟨htag, rfl⟩ | ⟨kind, rfl, hlength, rfl⟩⟩ :=
    readRow_eq_error_iff.mp h
  · exact .unknown tag columns hfilled hcolumns (ofTag?_eq_none_iff.mp htag)
  · cases kind with
    | classRow => exact .shortClass columns hcolumns hlength
    | fieldRow => exact .shortMember _ columns (by decide) hcolumns hlength
    | methodRow => exact .shortMember _ columns (by decide) hcolumns hlength

/-- What the reader takes from a line is what the line contributes, and nothing else is. -/
theorem contributes_iff {n : Nat} {line : Text} {c : Option Contribution} :
    Contributes n line c ↔ contribution? n line = c := by
  refine ⟨contribution?_of_contributes, ?_⟩
  rintro rfl
  by_cases hblank : line.all Text.isBlank = true
  · rw [contribution?, if_pos hblank]
    exact .blank hblank
  · cases hread : readRow n line with
    | ok row => exact contributes_row hread
    | error fault => exact contributes_warning hblank hread

/-! ## The lines of a file -/

/-- Lines with their numbers, the first of which is the second line of its file. -/
def numberedLines (body : List Text) : List (Text × Nat) := body.zipIdx 2

/-- What is taken from the readings of lines is taken from what each line contributes. -/
theorem filterMap_readBody_contribution {α : Type} {g : Reading → Option α}
    {f : Contribution → Option α}
    (h : ∀ n line, ¬ line.all Text.isBlank = true →
      g ⟨n, line, readRow n line⟩ = (contribution? n line).bind f) (body : List Text) :
    (readBody 2 body).filterMap g =
      ((numberedLines body).map fun entry => contribution? entry.2 entry.1).filterMap
        (·.bind f) := by
  rw [filterMap_readBody_zipIdx, List.filterMap_map]
  refine congrArg (List.filterMap · _) (funext fun entry => ?_)
  split
  · next hblank =>
    have hnone : contribution? entry.2 entry.1 = none := if_pos hblank
    rw [Function.comp_apply, hnone]
    rfl
  · next hfilled => exact h _ _ hfilled

/-- The reading of a line gives a class, a field, a method or a warning as the line contributes
it. -/
theorem reading_contribution {n : Nat} {line : Text} (hfilled : ¬ line.all Text.isBlank = true) :
    Reading.class? ⟨n, line, readRow n line⟩ = (contribution? n line).bind Contribution.class? ∧
      Reading.member? .fieldRow ⟨n, line, readRow n line⟩ =
        (contribution? n line).bind Contribution.field? ∧
      Reading.member? .methodRow ⟨n, line, readRow n line⟩ =
        (contribution? n line).bind Contribution.method? ∧
      Reading.warning? ⟨n, line, readRow n line⟩ =
        (contribution? n line).bind Contribution.warning? := by
  rw [contribution?, if_neg hfilled]
  cases hread : readRow n line with
  | error fault => exact ⟨rfl, rfl, rfl, rfl⟩
  | ok row =>
      cases row with
      | ofClass entry => exact ⟨rfl, rfl, rfl, rfl⟩
      | ofMember e =>
          rcases kind_of_readRow hread with hkind | hkind
          · simp [Reading.class?, Reading.member?, Reading.warning?, Contribution.class?,
              Contribution.field?, Contribution.method?, Contribution.warning?, hkind]
          · simp [Reading.class?, Reading.member?, Reading.warning?, Contribution.class?,
              Contribution.field?, Contribution.method?, Contribution.warning?, hkind]

/-- What is taken from numbered lines, each with the number of its line, is numbered upwards. -/
theorem pairwise_filterMap_zipIdx {α : Type} {number : α → Int} {f : Text × Nat → Option α}
    (h : ∀ entry a, f entry = some a → number a = entry.2) (first : Nat) (lines : List Text) :
    ((lines.zipIdx first).filterMap f).Pairwise fun a b => number a < number b := by
  have hnumbers : (lines.zipIdx first).Pairwise fun entry next => entry.2 < next.2 := by
    rw [← List.pairwise_map, List.zipIdx_map_snd]
    exact List.pairwise_lt_range'
  refine List.pairwise_filterMap.mpr (hnumbers.imp fun hlt a ha b hb => ?_)
  rw [h _ a ha, h _ b hb]
  exact Int.ofNat_lt.mpr hlt

/-! ## Lines behind other lines -/

/-- A row as it is read some lines further down. -/
def Row.lowered (k : Nat) : Row → Row
  | ofClass entry => .ofClass entry
  | ofMember e => .ofMember (e.lowered k)

/-- A line as it is read some lines further down. -/
def Reading.lowered (k : Nat) (r : Reading) : Reading :=
  ⟨r.lineNumber + k, r.line, r.row.map (·.lowered k)⟩

/-- The number of a line is all that its row has of its place. -/
theorem ofColumns?_add (n k : Nat) (kind : RowKind) (columns : List Text) :
    Row.ofColumns? (n + k) kind columns = (Row.ofColumns? n kind columns).map (·.lowered k) := by
  unfold Row.ofColumns?
  split
  · rfl
  · rfl
  · simp [Row.lowered, MemberEntry.lowered]
  · rfl

/-- A line is read in the same way wherever it stands. -/
theorem readRow_add (n k : Nat) (line : Text) :
    readRow (n + k) line = (readRow n line).map (·.lowered k) := by
  unfold readRow
  dsimp only
  split
  · rfl
  · rw [ofColumns?_add]
    cases Row.ofColumns? n _ (line.splitOn (.char '\t')).tail with
    | none => rfl
    | some row => rfl

/-- Lines further down are read as the same lines with higher numbers. -/
theorem readBody_add (first k : Nat) (lines : List Text) :
    readBody (first + k) lines = (readBody first lines).map (·.lowered k) := by
  rw [readBody, readBody, Nat.add_comm, ← List.map_snd_add_zipIdx_eq_zipIdx, List.filterMap_map,
    List.map_filterMap]
  refine congrArg (List.filterMap · _) (funext fun entry => ?_)
  dsimp only [Function.comp_apply, Prod.map, id]
  split
  · rfl
  · rw [readRow_add]
    rfl

/-- Lines behind others are read as if they came first, with numbers raised by those before. -/
theorem readBody_append (first : Nat) (xs ys : List Text) :
    readBody first (xs ++ ys) =
      readBody first xs ++ (readBody first ys).map (·.lowered xs.length) := by
  rw [← readBody_add, readBody, List.zipIdx_append, List.filterMap_append, ← readBody, ← readBody]

namespace Reading

/-- A class has no place. -/
theorem class?_lowered (k : Nat) (r : Reading) : class? (r.lowered k) = class? r := by
  obtain ⟨n, line, row⟩ := r
  cases row with
  | error fault => rfl
  | ok row => cases row <;> rfl

/-- A member is lowered with its line. -/
theorem member?_lowered (k : Nat) (kind : RowKind) (r : Reading) :
    member? kind (r.lowered k) = (member? kind r).map (·.lowered k) := by
  obtain ⟨n, line, row⟩ := r
  cases row with
  | error fault => rfl
  | ok row =>
      cases row with
      | ofClass entry => rfl
      | ofMember e =>
          show (if e.kind = kind then some (e.lowered k) else none) =
            (if e.kind = kind then some e else none).map (·.lowered k)
          split
          · rfl
          · rfl

/-- A warning is lowered with its line. -/
theorem warning?_lowered (k : Nat) (r : Reading) :
    warning? (r.lowered k) = (warning? r).map (·.lowered k) := by
  obtain ⟨n, line, row⟩ := r
  cases row with
  | error fault => rfl
  | ok row => rfl

end Reading

/-- What is taken from readings and those of lines behind them. -/
theorem filterMap_readBody_append {α : Type} {g : Reading → Option α} (raise : Nat → α → α)
    (h : ∀ k r, g (r.lowered k) = (g r).map (raise k)) (first : Nat) (xs ys : List Text) :
    (readBody first (xs ++ ys)).filterMap g =
      (readBody first xs).filterMap g ++
        ((readBody first ys).filterMap g).map (raise xs.length) := by
  have hg : g ∘ (·.lowered xs.length) = fun r => (g r).map (raise xs.length) :=
    funext fun r => h xs.length r
  rw [readBody_append, List.filterMap_append, List.filterMap_map, hg, List.map_filterMap]

/-- The set that is read from lines and lines behind them. -/
theorem readSet_append (version header : Text) (xs ys : List Text) :
    readSet version header (xs ++ ys) =
      (readSet version header xs).followedBy ((readSet version header ys).lowered xs.length) := by
  have hclasses := filterMap_readBody_append (fun _ entry => entry)
    (fun k r => (Reading.class?_lowered k r).trans Option.map_id'.symm) 2 xs ys
  have hfields := filterMap_readBody_append MemberEntry.lowered
    (fun k r => Reading.member?_lowered k .fieldRow r) 2 xs ys
  have hmethods := filterMap_readBody_append MemberEntry.lowered
    (fun k r => Reading.member?_lowered k .methodRow r) 2 xs ys
  rw [readSet, hclasses, hfields, hmethods, List.map_id']
  rfl

/-- The warnings about lines and lines behind them. -/
theorem readWarnings_append (xs ys : List Text) :
    readWarnings (xs ++ ys) =
      readWarnings xs ++ (readWarnings ys).map (·.lowered xs.length) :=
  filterMap_readBody_append RowWarning.lowered Reading.warning?_lowered 2 xs ys

/-! ## A file -/

/-- The first line has to start with the version; the other ones are read one by one, without the
terminators at their ends. -/
theorem readLines_eq (version : Text) (lines : List Text) :
    readLines version lines = match lines.map Text.dropLineEnd with
      | [] => .error ⟨[], version⟩
      | header :: body =>
        if version <+: header then .ok (readSet version header body, readWarnings body)
        else .error ⟨header, version⟩ := by
  unfold readLines
  cases lines.map Text.dropLineEnd with
  | nil => rfl
  | cons header body =>
      simp only [← List.isPrefixOf_iff_prefix]
      rfl

/-- What a file is read as, line by line. -/
structure Classified (version : Text) (lines : List Text) (m : MappingSet)
    (warnings : List RowWarning) : Prop where
  /-- The first line starts with the version. -/
  header : ∃ first ∈ lines.head?, version <+: Text.dropLineEnd first
  /-- Each of the others contributes what its columns and its number say, and nothing else is
  read; the four lists keep the order of the lines. -/
  rows : ∃ contributions, List.Forall₂ (fun entry c => Contributes entry.2 entry.1 c)
      (numberedLines (lines.tail.map Text.dropLineEnd)) contributions ∧
    m.classes = contributions.filterMap (·.bind Contribution.class?) ∧
    m.fields = contributions.filterMap (·.bind Contribution.field?) ∧
    m.methods = contributions.filterMap (·.bind Contribution.method?) ∧
    warnings = contributions.filterMap (·.bind Contribution.warning?)
  /-- The numbers of the lines go upwards in each list that has them. -/
  fields : m.fields.Pairwise (·.lineNumber < ·.lineNumber)
  methods : m.methods.Pairwise (·.lineNumber < ·.lineNumber)
  warnings : warnings.Pairwise (·.lineNumber < ·.lineNumber)

/-- What a line contributes has the number of the line, if it has a number. -/
theorem number_of_contribution? {n : Nat} {line : Text} :
    (∀ e, (contribution? n line).bind Contribution.field? = some e → e.lineNumber = n) ∧
      (∀ e, (contribution? n line).bind Contribution.method? = some e → e.lineNumber = n) ∧
      ∀ w, (contribution? n line).bind Contribution.warning? = some w → w.lineNumber = n := by
  have hline : Contributes n line (contribution? n line) := contributes_iff.mpr rfl
  cases hc : contribution? n line with
  | none => exact ⟨nofun, nofun, nofun⟩
  | some c =>
      rw [hc] at hline
      cases hline with
      | ofClass => exact ⟨nofun, nofun, nofun⟩
      | ofField =>
          refine ⟨fun e h => ?_, nofun, nofun⟩
          obtain rfl := Option.some.inj h
          rfl
      | ofMethod =>
          refine ⟨nofun, fun e h => ?_, nofun⟩
          obtain rfl := Option.some.inj h
          rfl
      | unknown | shortClass | shortMember =>
          refine ⟨nofun, nofun, fun w h => ?_⟩
          obtain rfl := Option.some.inj h
          rfl

/-- What is contributed by lines and has a number is numbered upwards. -/
theorem pairwise_contributions {α : Type} {number : α → Int} {f : Contribution → Option α}
    (h : ∀ n line a, (contribution? n line).bind f = some a → number a = n) (body : List Text) :
    (((numberedLines body).map fun entry => contribution? entry.2 entry.1).filterMap
      (·.bind f)).Pairwise fun a b => number a < number b := by
  rw [List.filterMap_map]
  exact pairwise_filterMap_zipIdx (fun entry a => h entry.2 entry.1 a) 2 body

/-- A file that is read is classified line by line. -/
theorem classified_of_readLines {version : Text} {lines : List Text} {m : MappingSet}
    {warnings : List RowWarning} (h : readLines version lines = .ok (m, warnings)) :
    Classified version lines m warnings := by
  rw [readLines_eq] at h
  cases lines with
  | nil => cases h
  | cons first rest =>
      simp only [List.map_cons] at h
      split at h
      · next hversion =>
        obtain ⟨rfl, rfl⟩ := Prod.mk.inj (Except.ok.inj h)
        have hclasses := filterMap_readBody_contribution
          (fun _ _ hfilled => (reading_contribution hfilled).1) (rest.map Text.dropLineEnd)
        have hfields := filterMap_readBody_contribution
          (fun _ _ hfilled => (reading_contribution hfilled).2.1) (rest.map Text.dropLineEnd)
        have hmethods := filterMap_readBody_contribution
          (fun _ _ hfilled => (reading_contribution hfilled).2.2.1) (rest.map Text.dropLineEnd)
        have hwarnings := filterMap_readBody_contribution
          (fun _ _ hfilled => (reading_contribution hfilled).2.2.2) (rest.map Text.dropLineEnd)
        constructor
        case header => exact ⟨first, rfl, hversion⟩
        case rows =>
          refine ⟨_, ?_, hclasses, hfields, hmethods, hwarnings⟩
          exact List.forall₂_map_right_iff.mpr
            (List.forall₂_same.mpr fun entry _ => contributes_iff.mpr rfl)
        case fields =>
          rw [readSet, hfields]
          exact pairwise_contributions (fun _ _ => number_of_contribution?.1) _
        case methods =>
          rw [readSet, hmethods]
          exact pairwise_contributions (fun _ _ => number_of_contribution?.2.1) _
        case warnings =>
          rw [readWarnings, hwarnings]
          exact pairwise_contributions (fun _ _ => number_of_contribution?.2.2) _
      · cases h

/-- A file is refused exactly if it has no first line that starts with the version. -/
theorem exists_readLines_eq_error_iff {version : Text} {lines : List Text} :
    (∃ e, readLines version lines = .error e) ↔
      ∀ first ∈ lines.head?, ¬ version <+: Text.dropLineEnd first := by
  rw [readLines_eq]
  cases lines with
  | nil => simp
  | cons first rest =>
      by_cases hversion : version <+: Text.dropLineEnd first
      · simp [hversion]
      · simp [hversion]

/-- A file with more lines at its end is read as two files with the same first line, the rows of
the second one behind those of the first and with higher numbers. -/
theorem readLines_append (version header : Text) (xs ys : List Text) :
    readLines version (header :: (xs ++ ys)) = do
      let (m, warnings) ← readLines version (header :: xs)
      let (next, more) ← readLines version (header :: ys)
      return (m.followedBy (next.lowered xs.length),
        warnings ++ more.map (·.lowered xs.length)) := by
  simp only [readLines_eq, List.map_cons, List.map_append]
  by_cases hversion : version <+: Text.dropLineEnd header
  · simp only [if_pos hversion, readSet_append, readWarnings_append, List.length_map]
    rfl
  · simp only [if_neg hversion]
    rfl

/-- A line makes a warning exactly if it is not blank, and its first column is no tag or it has
too few columns. -/
theorem exists_warning_iff {n : Nat} {line : Text} :
    (∃ w, Contributes n line (some (.ofWarning w))) ↔
      ¬ line.all Text.isBlank = true ∧ ∃ tag columns, line.splitOn (.char '\t') = tag :: columns ∧
        (tag ∉ ["CLASS".toText, "FIELD".toText, "METHOD".toText] ∨
          tag = "CLASS".toText ∧ columns.length + 1 < 4 ∨
          tag ∈ ["FIELD".toText, "METHOD".toText] ∧ columns.length + 1 < 6) := by
  constructor
  · intro h
    obtain ⟨w, h⟩ := h
    have hfilled : ¬ line.all Text.isBlank = true := by
      intro hblank
      have hnone : contribution? n line = none := if_pos hblank
      rw [contributes_iff.mp h] at hnone
      cases hnone
    cases h with
    | unknown tag columns _ hcolumns htag =>
        exact ⟨hfilled, tag, columns, hcolumns, .inl htag⟩
    | shortClass columns hcolumns hlength =>
        exact ⟨hfilled, _, columns, hcolumns, .inr (.inl ⟨rfl, hlength⟩)⟩
    | shortMember tag columns htag hcolumns hlength =>
        exact ⟨hfilled, tag, columns, hcolumns, .inr (.inr ⟨htag, hlength⟩)⟩
  · intro h
    obtain ⟨hfilled, tag, columns, hcolumns, htag | ⟨rfl, hlength⟩ | ⟨htag, hlength⟩⟩ := h
    · exact ⟨_, .unknown tag columns hfilled hcolumns htag⟩
    · exact ⟨_, .shortClass columns hcolumns hlength⟩
    · exact ⟨_, .shortMember tag columns htag hcolumns hlength⟩

/-- A file is read line by line. It is refused exactly if its first line does not start with the
version; otherwise each other line contributes one thing, told by its columns, or nothing if it is
blank, and a warning exactly if it is no row. No line depends on another one: with more lines at its
end a file is read as before, and these lines as if they followed the header. -/
theorem readLines_classifies (version : Text) :
    (∀ lines, (∃ e, readLines version lines = .error e) ↔
        ∀ first ∈ lines.head?, ¬ version <+: Text.dropLineEnd first) ∧
      (∀ lines m warnings, readLines version lines = .ok (m, warnings) →
        Classified version lines m warnings) ∧
      (∀ n line, (∃! c, Contributes n line c) ∧
        (Contributes n line none ↔ line.all Text.isBlank = true)) ∧
      (∀ n line, (∃ w, Contributes n line (some (.ofWarning w))) ↔
        ¬ line.all Text.isBlank = true ∧ ∃ tag columns, line.splitOn (.char '\t') = tag :: columns ∧
          (tag ∉ ["CLASS".toText, "FIELD".toText, "METHOD".toText] ∨
            tag = "CLASS".toText ∧ columns.length + 1 < 4 ∨
            tag ∈ ["FIELD".toText, "METHOD".toText] ∧ columns.length + 1 < 6)) ∧
      ∀ header xs ys, readLines version (header :: (xs ++ ys)) = do
        let (m, warnings) ← readLines version (header :: xs)
        let (next, more) ← readLines version (header :: ys)
        return (m.followedBy (next.lowered xs.length),
          warnings ++ more.map (·.lowered xs.length)) := by
  refine ⟨fun lines => exists_readLines_eq_error_iff, fun lines m warnings =>
    classified_of_readLines, fun n line => ⟨?_, ?_, ?_⟩, fun n line => exists_warning_iff,
    readLines_append version⟩
  · exact ⟨_, contributes_iff.mpr rfl, fun c hc => (contributes_iff.mp hc).symm⟩
  · intro h
    cases h with
    | blank hblank => exact hblank
  · exact .blank

/-- Lines of all sorts, two of them with terminators: a class with a further column, a blank line, a
short field, a method, an unknown tag, and a field. -/
def mixedLines : List Text :=
  ["v1\tofficial\n", "CLASS\ta\tC_1\tMain\tmore", " \t\u2028", "FIELD\ta\tI\tx\tf_1",
    "METHOD\ta\t()V\tb\tm_1\trun\r\n", "class\ta\tC_1\tMain", "FIELD\ta\tI\tx\tf_1\tsize"]

/-- The set in the mixed lines: its method stands in the fifth line, its field in the last one. -/
def mixedSet : MappingSet where
  version := "v1"
  namespaces := ["official"]
  classes := [⟨"a", "C_1", "Main"⟩]
  fields := [⟨.fieldRow, "a", "x", "f_1", "size", "I", 7⟩]
  methods := [⟨.methodRow, "a", "b", "m_1", "run", "()V", 5⟩]

/-- The warnings about the mixed lines. -/
def mixedWarnings : List RowWarning :=
  [⟨4, "Column count mismatch, got 5 while expected at least 6", "FIELD\ta\tI\tx\tf_1"⟩,
    ⟨6, "Unknown mapping type 'class'", "class\ta\tC_1\tMain"⟩]

/-- The mixed lines are read, and classified; with another version they are refused. -/
theorem readLines_classifies_mixed :
    readLines "v1" mixedLines = .ok (mixedSet, mixedWarnings) ∧
      Classified "v1" mixedLines mixedSet mixedWarnings ∧
      (∃ first ∈ mixedLines.head?, ¬ ("v2" : Text) <+: Text.dropLineEnd first) ∧
      ∃ e, readLines "v2" mixedLines = .error e := by
  have hread : readLines "v1" mixedLines = .ok (mixedSet, mixedWarnings) := by rfl
  have hrefused : ∀ first ∈ mixedLines.head?, ¬ ("v2" : Text) <+: Text.dropLineEnd first := by
    decide
  exact ⟨hread, (readLines_classifies "v1").2.1 _ _ _ hread, ⟨_, rfl, hrefused _ rfl⟩,
    ((readLines_classifies "v2").1 _).mpr hrefused⟩

end Yarn
end Remapping
