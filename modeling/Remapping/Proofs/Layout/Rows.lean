import Remapping.Layout.Yarn
import Remapping.Proofs.Text.Lines

/-!
# The rows of a yarn file, line by line

Which lines describe a class or a member, said by one pattern over the columns of a line, and
what the reader of a file makes of its lines. Read `readText_ok` first: the classes, fields and
methods of a file are what its lines describe one by one, in the order of the lines.
-/

namespace Remapping.Yarn

/-! ## One line -/

/-- The class that a line describes: the tag of a class, three names, and any columns after. -/
def class? (line : Text) : Option ClassEntry :=
  match line.splitOn (.char '\t') with
  | tag :: obfuscated :: intermediate :: readable :: _ =>
    if tag = RowKind.classRow.tag then some { obfuscated, intermediate, readable } else none
  | _ => none

/-- The member that a line describes: the tag of its kind, its owner, its type, three names, and
any columns after. The number of the line is left open. -/
def member? (kind : RowKind) (line : Text) : Option MemberEntry :=
  match line.splitOn (.char '\t') with
  | tag :: owner :: descriptor :: obfuscated :: intermediate :: readable :: _ =>
    if tag = kind.tag then
      some { kind, owner, descriptor, obfuscated, intermediate, readable }
    else none
  | _ => none

/-- A kind is read from its own tag. -/
theorem ofTag?_eq_some_iff {tag : Text} {kind : RowKind} :
    RowKind.ofTag? tag = some kind ↔ tag = kind.tag := by
  constructor
  · intro h
    unfold RowKind.ofTag? at h
    have htag := List.find?_some h
    exact (of_decide_eq_true htag).symm
  · rintro rfl
    cases kind <;> decide

/-- A line with the tag of a row is not blank. -/
theorem not_blank_of_tag {line : Text} {kind : RowKind} {columns : List Text}
    (h : line.splitOn (.char '\t') = kind.tag :: columns) : ¬ line.all Text.isBlank = true := by
  intro hblank
  have hletter : ∃ c ∈ kind.tag, Text.isBlank c = false := by
    cases kind with
    | classRow => exact ⟨'C', List.mem_cons_self, rfl⟩
    | fieldRow => exact ⟨'F', List.mem_cons_self, rfl⟩
    | methodRow => exact ⟨'M', List.mem_cons_self, rfl⟩
  obtain ⟨c, hc, hvisible⟩ := hletter
  have hmem := Text.of_mem_splitOn (h ▸ List.mem_cons_self) hc
  have := List.all_eq_true.mp hblank c hmem.1
  simp [hvisible] at this

/-- A blank line describes no class. -/
theorem class?_of_blank {line : Text} (hblank : line.all Text.isBlank = true) :
    class? line = none := by
  unfold class?
  split
  · next hcolumns =>
    refine if_neg fun htag => ?_
    exact not_blank_of_tag (htag ▸ hcolumns) hblank
  · rfl

/-- A blank line describes no member. -/
theorem member?_of_blank (kind : RowKind) {line : Text}
    (hblank : line.all Text.isBlank = true) : member? kind line = none := by
  unfold member?
  split
  · next hcolumns =>
    refine if_neg fun htag => ?_
    exact not_blank_of_tag (htag ▸ hcolumns) hblank
  · rfl

/-- A member as it is apart from the line it was read from. -/
def unnumbered (e : MemberEntry) : MemberEntry := { e with lineNumber := 0 }

/-- Columns make a class exactly if the kind is that of a class and three names come first. -/
theorem ofColumns?_eq_ofClass_iff {n : Nat} {kind : RowKind} {columns : List Text}
    {entry : ClassEntry} :
    Row.ofColumns? n kind columns = some (.ofClass entry) ↔
      kind = .classRow ∧ ∃ rest,
        columns = entry.obfuscated :: entry.intermediate :: entry.readable :: rest := by
  constructor
  · intro h
    unfold Row.ofColumns? at h
    split at h
    · simp only [Option.some.injEq, Row.ofClass.injEq] at h
      subst h
      exact ⟨rfl, _, rfl⟩
    all_goals simp at h
  · intro h
    obtain ⟨rfl, rest, rfl⟩ := h
    rfl

/-- Columns make a member exactly if the kind is not that of a class, and an owner, a type and
three names come first. -/
theorem ofColumns?_eq_ofMember_iff {n : Nat} {kind : RowKind} {columns : List Text}
    {e : MemberEntry} :
    Row.ofColumns? n kind columns = some (.ofMember e) ↔
      kind ≠ .classRow ∧ e.kind = kind ∧ e.lineNumber = n ∧ ∃ rest,
        columns =
          e.owner :: e.descriptor :: e.obfuscated :: e.intermediate :: e.readable :: rest := by
  constructor
  · intro h
    unfold Row.ofColumns? at h
    split at h
    · simp at h
    · simp at h
    · next hkind =>
      simp only [Option.some.injEq, Row.ofMember.injEq] at h
      subst h
      refine ⟨?_, rfl, rfl, _, rfl⟩
      exact fun hclass => hkind hclass
    · simp at h
  · intro h
    obtain ⟨hkind, rfl, hnumber, rest, rfl⟩ := h
    cases e with
    | mk kind owner obfuscated intermediate readable descriptor lineNumber =>
        cases kind with
        | classRow => exact absurd rfl hkind
        | fieldRow => simpa [Row.ofColumns?] using hnumber.symm
        | methodRow => simpa [Row.ofColumns?] using hnumber.symm

/-- A line is read as a row exactly if it starts with the tag of a kind and its columns after
the tag make a row of that kind. -/
theorem readRow_eq_ok_iff {n : Nat} {line : Text} {row : Row} :
    readRow n line = .ok row ↔ ∃ kind columns,
      line.splitOn (.char '\t') = RowKind.tag kind :: columns ∧
        Row.ofColumns? n kind columns = some row := by
  cases hcolumns : line.splitOn (.char '\t') with
  | nil => exact absurd hcolumns (List.splitOn_ne_nil _ _)
  | cons tag columns =>
      simp only [readRow, hcolumns, List.headD_cons, List.tail_cons, List.cons.injEq]
      constructor
      · intro h
        split at h
        · simp at h
        · next kind hkind =>
          split at h
          · next hrow =>
            obtain rfl := Except.ok.inj h
            exact ⟨kind, columns, ⟨ofTag?_eq_some_iff.mp hkind, rfl⟩, hrow⟩
          · simp at h
      · intro h
        obtain ⟨kind, _, ⟨rfl, rfl⟩, hrow⟩ := h
        simp only [ofTag?_eq_some_iff.mpr rfl, hrow]

/-- The class that a line describes, by its columns. -/
theorem class?_eq_some_iff {line : Text} {entry : ClassEntry} :
    class? line = some entry ↔ ∃ rest, line.splitOn (.char '\t') =
      RowKind.classRow.tag :: entry.obfuscated :: entry.intermediate :: entry.readable :: rest := by
  constructor
  · intro h
    unfold class? at h
    split at h
    · next hcolumns =>
      rw [Option.ite_none_right_eq_some] at h
      obtain ⟨rfl, hentry⟩ := h
      obtain rfl := Option.some.inj hentry
      exact ⟨_, hcolumns⟩
    · simp at h
  · intro h
    obtain ⟨rest, h⟩ := h
    simp [class?, h]

/-- The member that a line describes, by its columns. -/
theorem member?_eq_some_iff {kind : RowKind} {line : Text} {e : MemberEntry} :
    member? kind line = some e ↔ e.kind = kind ∧ e.lineNumber = 0 ∧ ∃ rest,
      line.splitOn (.char '\t') = kind.tag :: e.owner :: e.descriptor :: e.obfuscated ::
        e.intermediate :: e.readable :: rest := by
  constructor
  · intro h
    unfold member? at h
    split at h
    · next hcolumns =>
      rw [Option.ite_none_right_eq_some] at h
      obtain ⟨rfl, he⟩ := h
      obtain rfl := Option.some.inj he
      exact ⟨rfl, rfl, _, hcolumns⟩
    · simp at h
  · intro h
    obtain ⟨rfl, hnumber, rest, h⟩ := h
    simp [member?, h, ← hnumber]

/-- The class read from a line is the class that the line describes. -/
theorem class?_readRow (n : Nat) (line : Text) :
    Reading.class? ⟨n, line, readRow n line⟩ = class? line := by
  ext entry
  have hread : Reading.class? ⟨n, line, readRow n line⟩ = some entry ↔
      readRow n line = .ok (.ofClass entry) := by
    unfold Reading.class?
    split <;> simp_all
  rw [hread, readRow_eq_ok_iff, class?_eq_some_iff]
  constructor
  · intro h
    obtain ⟨kind, columns, hcolumns, hrow⟩ := h
    obtain ⟨rfl, rest, rfl⟩ := ofColumns?_eq_ofClass_iff.mp hrow
    exact ⟨rest, hcolumns⟩
  · intro h
    obtain ⟨rest, hcolumns⟩ := h
    exact ⟨_, _, hcolumns, ofColumns?_eq_ofClass_iff.mpr ⟨rfl, rest, rfl⟩⟩

/-- The member of a kind read from a line is, apart from its line number, the member that the
line describes. -/
theorem member?_readRow {kind : RowKind} (hkind : kind ≠ .classRow) (n : Nat) (line : Text) :
    (Reading.member? kind ⟨n, line, readRow n line⟩).map unnumbered = member? kind line := by
  have hread (e : MemberEntry) : Reading.member? kind ⟨n, line, readRow n line⟩ = some e ↔
      readRow n line = .ok (.ofMember e) ∧ e.kind = kind := by
    unfold Reading.member?
    split
    · next e' hrow =>
      change readRow n line = .ok (.ofMember e') at hrow
      rw [hrow, Option.ite_none_right_eq_some, Option.some.injEq, Except.ok.injEq,
        Row.ofMember.injEq]
      constructor
      · intro h
        obtain ⟨hkind, rfl⟩ := h
        exact ⟨rfl, hkind⟩
      · intro h
        obtain ⟨rfl, hkind⟩ := h
        exact ⟨hkind, rfl⟩
    · simp_all
  ext e
  rw [Option.map_eq_some_iff, member?_eq_some_iff]
  constructor
  · intro h
    obtain ⟨e', he', rfl⟩ := h
    obtain ⟨hrow, rfl⟩ := (hread e').mp he'
    obtain ⟨kind', columns, hcolumns, hmember⟩ := readRow_eq_ok_iff.mp hrow
    obtain ⟨-, rfl, -, rest, rfl⟩ := ofColumns?_eq_ofMember_iff.mp hmember
    exact ⟨rfl, rfl, rest, hcolumns⟩
  · intro h
    obtain ⟨rfl, hnumber, rest, hcolumns⟩ := h
    refine ⟨{ e with lineNumber := n }, (hread _).mpr ⟨?_, rfl⟩, ?_⟩
    · exact readRow_eq_ok_iff.mpr
        ⟨_, _, hcolumns, ofColumns?_eq_ofMember_iff.mpr ⟨hkind, rfl, rfl, rest, rfl⟩⟩
    · rw [unnumbered, ← hnumber]

/-! ## A file -/

/-- What is taken from the lines after the header is taken from each line that is not blank, read
with its number. -/
theorem filterMap_readBody_zipIdx {α : Type} (g : Reading → Option α) (first : Nat)
    (lines : List Text) :
    (readBody first lines).filterMap g = (lines.zipIdx first).filterMap fun entry =>
      if entry.1.all Text.isBlank then none
      else g ⟨entry.2, entry.1, readRow entry.2 entry.1⟩ := by
  rw [readBody, List.filterMap_filterMap]
  refine congrArg (List.filterMap · _) (funext fun entry => ?_)
  dsimp only
  split <;> rfl

/-- What is read from the lines after the header is what each line gives by itself, if a blank
line gives nothing. -/
theorem filterMap_readBody {α : Type} {g : Reading → Option α} {f : Text → Option α}
    (hrow : ∀ n line, g ⟨n, line, readRow n line⟩ = f line)
    (hblank : ∀ line, line.all Text.isBlank = true → f line = none) (first : Nat)
    (lines : List Text) : (readBody first lines).filterMap g = lines.filterMap f := by
  -- The reader drops blank lines before it makes rows; here they are looked at like the others.
  have hline (entry : Text × Nat) :
      (if entry.1.all Text.isBlank then none
        else g ⟨entry.2, entry.1, readRow entry.2 entry.1⟩) = f entry.1 := by
    split
    · next hline => exact (hblank _ hline).symm
    · exact hrow _ _
  calc (readBody first lines).filterMap g
      = (lines.zipIdx first).filterMap (f ∘ Prod.fst) := by
        rw [filterMap_readBody_zipIdx]
        exact congrArg (List.filterMap · _) (funext hline)
    _ = lines.filterMap f := by rw [← List.filterMap_map, List.zipIdx_map_fst]

/-- The set that is read from a header line and the lines after it. -/
def readSet (version header : Text) (body : List Text) : MappingSet where
  version
  namespaces := headerNamespaces header
  classes := (readBody 2 body).filterMap Reading.class?
  fields := (readBody 2 body).filterMap (Reading.member? .fieldRow)
  methods := (readBody 2 body).filterMap (Reading.member? .methodRow)

/-- The warnings about the lines after a header line. -/
def readWarnings (body : List Text) : List RowWarning :=
  (readBody 2 body).filterMap Reading.warning?

/-- The first line of a text has to start with the version; it is the header then, and the other
lines are read one by one. -/
theorem readText_eq (version t : Text) :
    readText version t = match Text.lines t with
      | [] => .error ⟨[], version⟩
      | header :: body =>
        if version <+: header then .ok (readSet version header body, readWarnings body)
        else .error ⟨header, version⟩ := by
  unfold readText readLines
  rw [Text.map_dropLineEnd_lines]
  cases Text.lines t with
  | nil => rfl
  | cons header body =>
      simp only [← List.isPrefixOf_iff_prefix]
      rfl

/-- A text is read exactly if its first line starts with the version. -/
theorem readText_eq_ok_iff {version t : Text} {m : MappingSet} {warnings : List RowWarning} :
    readText version t = .ok (m, warnings) ↔ ∃ header body, Text.lines t = header :: body ∧
      version <+: header ∧ m = readSet version header body ∧ warnings = readWarnings body := by
  rw [readText_eq]
  constructor
  · intro h
    split at h
    · cases h
    · next header body hlines =>
      split at h
      · next hversion =>
        obtain ⟨rfl, rfl⟩ := Prod.mk.inj (Except.ok.inj h)
        exact ⟨header, body, hlines, hversion, rfl, rfl⟩
      · cases h
  · intro h
    obtain ⟨header, body, hlines, hversion, rfl, rfl⟩ := h
    rw [hlines]
    exact if_pos hversion

/-- A text that is read has a header line with the version. Its classes, its fields and its
methods are, in the order of the lines, those that the lines after the header describe. -/
theorem readText_ok {version t : Text} {m : MappingSet} {warnings : List RowWarning}
    (h : readText version t = .ok (m, warnings)) :
    ∃ header body, Text.lines t = header :: body ∧ version <+: header ∧
      m.version = version ∧ m.namespaces = headerNamespaces header ∧
      m.classes = body.filterMap class? ∧
      m.fields.map unnumbered = body.filterMap (member? .fieldRow) ∧
      m.methods.map unnumbered = body.filterMap (member? .methodRow) := by
  obtain ⟨header, body, hlines, hversion, rfl, -⟩ := readText_eq_ok_iff.mp h
  refine ⟨header, body, hlines, hversion, rfl, rfl, ?_, ?_, ?_⟩
  · exact filterMap_readBody class?_readRow (fun _ => class?_of_blank) 2 body
  · rw [readSet, List.map_filterMap]
    exact filterMap_readBody (member?_readRow (by decide)) (fun _ => member?_of_blank _) 2 body
  · rw [readSet, List.map_filterMap]
    exact filterMap_readBody (member?_readRow (by decide)) (fun _ => member?_of_blank _) 2 body

/-- A text is read if its first line starts with the version. -/
theorem exists_readText {version t header : Text} {body : List Text}
    (hlines : Text.lines t = header :: body) (hversion : version <+: header) :
    ∃ m warnings, readText version t = .ok (m, warnings) :=
  ⟨_, _, readText_eq_ok_iff.mpr ⟨header, body, hlines, hversion, rfl, rfl⟩⟩

end Remapping.Yarn
