import Remapping.Proofs.Layout.Rows
import Remapping.Proofs.Mapping.Shown

/-!
# Texts with the same rows

Two mapping files can hold the same rows in different orders, as long as the rows of one kind
come in the same order, and between lines that are not rows at all. `SameRows` says that of two
texts, line by line. Read `readText_of_sameRows` first: such texts are read as sets that show the
same, or refused for the same header.
-/

namespace Remapping.Yarn

/-- Two texts with the same first line and, after it, with the same classes, the same fields and
the same methods. The rows of different kinds can stand in any order, and other lines anywhere
between them. -/
structure SameRows (t u : Text) : Prop where
  header : (Text.lines u).head? = (Text.lines t).head?
  classes : (Text.lines u).tail.filterMap class? = (Text.lines t).tail.filterMap class?
  fields : (Text.lines u).tail.filterMap (member? .fieldRow) =
    (Text.lines t).tail.filterMap (member? .fieldRow)
  methods : (Text.lines u).tail.filterMap (member? .methodRow) =
    (Text.lines t).tail.filterMap (member? .methodRow)

/-- A text is refused exactly if it has no first line that starts with the version, and the error
tells the first line. -/
theorem readText_eq_error_iff {version t : Text} {e : UnsupportedVersion} :
    readText version t = .error e ↔
      (∀ header ∈ (Text.lines t).head?, ¬ version <+: header) ∧
        e = ⟨(Text.lines t).head?.getD [], version⟩ := by
  rw [readText_eq]
  cases Text.lines t with
  | nil => simp [eq_comm]
  | cons header body =>
      by_cases hversion : version <+: header
      · simp [hversion]
      · simp [hversion, eq_comm]

/-- Members that differ in the lines they were read from show the same. -/
theorem map_shown_of_unnumbered {es es' : List MemberEntry}
    (h : es'.map unnumbered = es.map unnumbered) :
    es'.map MemberEntry.shown = es.map MemberEntry.shown := by
  have hshown : MemberEntry.shown ∘ unnumbered = MemberEntry.shown := rfl
  have hmap := congrArg (List.map MemberEntry.shown) h
  rwa [List.map_map, List.map_map, hshown] at hmap

/-- Texts with the same rows are read as sets that show the same, or refused with the same
error. -/
theorem readText_of_sameRows {t u : Text} (h : SameRows t u) (version : Text) :
    match readText version t with
    | .ok (m, _) => ∃ m' warnings', readText version u = .ok (m', warnings') ∧
        m'.shown = m.shown
    | .error e => readText version u = .error e := by
  cases hread : readText version t with
  | error e =>
      rw [readText_eq_error_iff] at hread
      exact readText_eq_error_iff.mpr (h.header.symm ▸ hread)
  | ok loaded =>
      obtain ⟨m, warnings⟩ := loaded
      obtain ⟨header, body, hlines, hversion, rfl, hnamespaces, hclasses, hfields, hmethods⟩ :=
        readText_ok hread
      have hheader := h.header
      rw [hlines] at hheader
      obtain ⟨body', hlines'⟩ := List.head?_eq_some_iff.mp hheader
      obtain ⟨m', warnings', hread'⟩ := exists_readText hlines' hversion
      refine ⟨m', warnings', hread', ?_⟩
      obtain ⟨_, _, hsplit, -, hversion', hnamespaces', hclasses', hfields', hmethods'⟩ :=
        readText_ok hread'
      obtain ⟨rfl, rfl⟩ := List.cons.inj (hlines'.symm.trans hsplit)
      have hrows := h.classes
      have hfieldRows := h.fields
      have hmethodRows := h.methods
      simp only [hlines, hlines', List.tail_cons] at hrows hfieldRows hmethodRows
      rw [MappingSet.shown, MappingSet.shown, hversion', hnamespaces, hnamespaces', hclasses,
        hclasses', hrows,
        map_shown_of_unnumbered (hfields'.trans (hfieldRows.trans hfields.symm)),
        map_shown_of_unnumbered (hmethods'.trans (hmethodRows.trans hmethods.symm))]

end Remapping.Yarn
