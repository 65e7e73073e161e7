import Remapping.Layout.Tiny
import Remapping.Proofs.Descriptor.Renaming
import Remapping.Proofs.Layout.Rows
import Remapping.Proofs.Mapping.FirstRow
import Remapping.Proofs.Mapping.Remapping

/-!
# The translation of a text

What a conversion means, as one function from the text of a yarn file to the text of a tiny
file that knows no stages: `Translation.rows` looks at the lines one by one, names every class
by the first row that describes it, and rewrites descriptors by substitution. `Conforms` says
which texts have a translation. Read `translation_of_remap` first: reading, indexing, remapping
and formatting together give the translation.
-/

namespace Remapping

namespace Translation

/-- The header: the version, and the names in the other columns after the first if there are
at least three of them. -/
def headerRow (version header : Text) : Text :=
  let names := (header.splitOn (.char '\t')).tail.filter (· ≠ [])
  if names.length < 3 then version else List.intercalate [.char '\t'] (version :: names.tail)

/-- The row of a class: its intermediate and its readable name. -/
def classRow (entry : ClassEntry) : Text :=
  List.intercalate [.char '\t'] ["CLASS", entry.intermediate, entry.readable]

/-- The type of a field: one that refers to a class, alone or in arrays, gets the other name. -/
def fieldType (rename : Text → Text) (d : Text) : Text :=
  if Descriptor.isObjectDescriptor d then Descriptor.substitute rename d else d

/-- The type of a method: one that holds the letter of a class reference gets the other names. -/
def methodType (rename : Text → Text) (d : Text) : Text :=
  if .char 'L' ∈ d then Descriptor.substitute rename d else d

/-- The row of a member: its owner and its type with the other names, its intermediate and its
readable name. -/
def memberRow (tag : Text) (owner type : Text → Text) (e : MemberEntry) : Text :=
  List.intercalate [.char '\t'] [tag, owner e.owner, type e.descriptor, e.intermediate, e.readable]

/-- The rows for a header line and the lines after it: classes, then fields, then methods. -/
def rowsOf (version header : Text) (body : List Text) : List Text :=
  let classes := body.filterMap Yarn.class?
  let rename := firstIntermediate classes
  headerRow version header :: classes.map classRow ++
    (body.filterMap (Yarn.member? .fieldRow)).map
      (memberRow "FIELD" rename (fieldType rename)) ++
    (body.filterMap (Yarn.member? .methodRow)).map
      (memberRow "METHOD" rename (methodType rename))

/-- The rows of the translation of a text. -/
def rows (version t : Text) : List Text :=
  match Text.lines t with
  | [] => []
  | header :: body => rowsOf version header body

/-- The translation of a text: its rows, each with a line feed. -/
def text (version t : Text) : Text := (rows version t).flatMap (· ++ [.char '\n'])

/-- A text has a translation if its first line starts with the version, and the grammar derives
the types in which classes are looked for. -/
def Conforms (version t : Text) : Prop :=
  match Text.lines t with
  | [] => False
  | header :: body => version <+: header ∧
    (∀ e ∈ body.filterMap (Yarn.member? .fieldRow),
      Descriptor.isObjectDescriptor e.descriptor = true →
        Descriptor.Grammar.Parameter e.descriptor) ∧
    ∀ e ∈ body.filterMap (Yarn.member? .methodRow),
      .char 'L' ∈ e.descriptor → Descriptor.Grammar.Method e.descriptor

/-- A translation has a header row at least. -/
theorem rows_ne_nil {version t : Text} (h : Conforms version t) : rows version t ≠ [] := by
  unfold Conforms at h
  unfold rows
  split
  · next hlines => rw [hlines] at h; exact h.elim
  · exact List.cons_ne_nil _ _

end Translation

/-! ## Descriptors -/

/-- A field descriptor can be renamed if it mentions a class exactly if the grammar derives it
if it refers to a class. -/
theorem renamable_field_iff {rename : Text → Text} {d : Text} :
    (mentionsClass d = true → ∃ d', Descriptor.renameField rename d = .ok d') ↔
      (Descriptor.isObjectDescriptor d = true → Descriptor.Grammar.Parameter d) := by
  by_cases hobject : Descriptor.isObjectDescriptor d = true
  · constructor
    · intro h _
      obtain ⟨d', hd'⟩ := h (mentionsClass_of_isObjectDescriptor hobject)
      obtain ⟨t, rfl, -⟩ := Descriptor.exists_tree_of_renameField hobject hd'
      exact t.parameter
    · intro h _
      obtain ⟨t, rfl⟩ := Descriptor.exists_tree_of_parameter (h hobject)
      exact ⟨_, Descriptor.renameField_text rename t⟩
  · constructor
    · exact fun _ h => absurd h hobject
    · exact fun _ _ => ⟨d, by rw [Descriptor.renameField, if_neg hobject]⟩

/-- A method descriptor can be renamed if it mentions a class exactly if the grammar derives it
if it does. -/
theorem renamable_method_iff {rename : Text → Text} {d : Text} :
    (mentionsClass d = true → ∃ d', Descriptor.renameMethod rename d = .ok d') ↔
      (.char 'L' ∈ d → Descriptor.Grammar.Method d) := by
  rw [mentionsClass_iff]
  constructor
  · intro h hmem
    obtain ⟨d', hd'⟩ := h hmem
    obtain ⟨m, rfl, -⟩ := Descriptor.renameMethod_eq_ok_iff.mp hd'
    exact m.method
  · intro h hmem
    obtain ⟨m, rfl⟩ := Descriptor.exists_tree_of_method (h hmem)
    exact ⟨_, Descriptor.renameMethod_text rename m⟩

/-- A renamed field descriptor reads as in the translation. -/
theorem renamedWhere_field {rename : Text → Text} {d : Text}
    (h : mentionsClass d = true → ∃ d', Descriptor.renameField rename d = .ok d') :
    renamedWhere mentionsClass (Descriptor.renameField rename) d =
      Translation.fieldType rename d := by
  by_cases hobject : Descriptor.isObjectDescriptor d = true
  · have hmentions := mentionsClass_of_isObjectDescriptor hobject
    obtain ⟨d', hd'⟩ := h hmentions
    obtain ⟨t, rfl, rfl⟩ := Descriptor.exists_tree_of_renameField hobject hd'
    have hsubstitute := Descriptor.substitute_text rename t []
    rw [List.append_nil, Descriptor.substitute, List.append_nil] at hsubstitute
    rw [renamedWhere, if_pos hmentions, hd', Translation.fieldType, if_pos hobject, hsubstitute]
    rfl
  · -- A descriptor can mention a class without referring to one; then the renamer keeps it.
    have hkept : Descriptor.renameField rename d = .ok d := by
      rw [Descriptor.renameField, if_neg hobject]
    rw [renamedWhere, hkept, Translation.fieldType, if_neg hobject]
    exact ite_self _

/-- A renamed method descriptor reads as in the translation. -/
theorem renamedWhere_method {rename : Text → Text} {d : Text}
    (h : mentionsClass d = true → ∃ d', Descriptor.renameMethod rename d = .ok d') :
    renamedWhere mentionsClass (Descriptor.renameMethod rename) d =
      Translation.methodType rename d := by
  by_cases hmem : .char 'L' ∈ d
  · have hmentions : mentionsClass d = true := mentionsClass_iff.mpr hmem
    obtain ⟨d', hd'⟩ := h hmentions
    obtain ⟨m, rfl, rfl⟩ := Descriptor.renameMethod_eq_ok_iff.mp hd'
    rw [renamedWhere, if_pos hmentions, hd', Translation.methodType, if_pos hmem,
      Descriptor.substitute_method]
    rfl
  · have hmentions : ¬ mentionsClass d = true := fun h => hmem (mentionsClass_iff.mp h)
    rw [renamedWhere, if_neg hmentions, Translation.methodType, if_neg hmem]

/-! ## Rows -/

/-- Members read from some lines and then translated have the rows of the translation. -/
theorem map_memberRow_translate (owner : Text → Text) {type type' : Text → Text}
    {kind : RowKind} {body : List Text} {members : List MemberEntry}
    (hmembers : members.map Yarn.unnumbered = body.filterMap (Yarn.member? kind))
    (htype : ∀ e ∈ members, type e.descriptor = type' e.descriptor) :
    (members.map (MemberEntry.translate owner type)).map Tiny.memberRow =
      (body.filterMap (Yarn.member? kind)).map (Translation.memberRow kind.tag owner type') := by
  rw [← hmembers, List.map_map, List.map_map]
  refine List.map_congr_left fun e he => ?_
  have hread : Yarn.unnumbered e ∈ body.filterMap (Yarn.member? kind) :=
    hmembers ▸ List.mem_map_of_mem he
  obtain ⟨line, -, hline⟩ := List.mem_filterMap.mp hread
  have hkind : e.kind = kind := (Yarn.member?_eq_some_iff.mp hline).1
  show List.intercalate [.char '\t'] [e.kind.tag, _, _, _, _] = _
  rw [hkind, MemberEntry.translate, htype e he]
  rfl

/-- What holds of the descriptors that were read holds of those in the lines. -/
theorem forall_descriptor_iff {kind : RowKind} {body : List Text} {members : List MemberEntry}
    (hmembers : members.map Yarn.unnumbered = body.filterMap (Yarn.member? kind))
    (P : Text → Prop) :
    (∀ e ∈ members, P e.descriptor) ↔
      ∀ e ∈ body.filterMap (Yarn.member? kind), P e.descriptor := by
  rw [← hmembers, List.forall_mem_map]
  exact Iff.rfl

section Read

variable {version t : Text} {m : MappingSet} {warnings : List RowWarning}

/-- A text that is read has a translation exactly if the rows read from it can be renamed. -/
theorem conforms_iff_renamable (hread : Yarn.readText version t = .ok (m, warnings))
    (rename : Text → Text) : Translation.Conforms version t ↔ m.Renamable rename := by
  obtain ⟨header, body, hlines, hversion, -, -, -, hfields, hmethods⟩ := Yarn.readText_ok hread
  have hfield (d : Text) := @renamable_field_iff rename d
  have hmethod (d : Text) := @renamable_method_iff rename d
  simp only [Translation.Conforms, hlines, hversion, true_and, MappingSet.Renamable, hfield,
    hmethod]
  have hfieldsIff := forall_descriptor_iff hfields fun d =>
    Descriptor.isObjectDescriptor d = true → Descriptor.Grammar.Parameter d
  have hmethodsIff := forall_descriptor_iff hmethods fun d =>
    .char 'L' ∈ d → Descriptor.Grammar.Method d
  exact and_congr hfieldsIff.symm hmethodsIff.symm

/-- The rows read from a text, renamed by the first rows of its classes and then formatted, are
those of the translation of the text. -/
theorem rows_renamed (hread : Yarn.readText version t = .ok (m, warnings))
    (hrenamable : m.Renamable (firstIntermediate m.classes)) :
    Tiny.rows (m.renamed (firstIntermediate m.classes)) = Translation.rows version t := by
  obtain ⟨header, body, hlines, -, rfl, hnamespaces, hclasses, hfields, hmethods⟩ :=
    Yarn.readText_ok hread
  have hfieldRows := map_memberRow_translate (firstIntermediate m.classes) hfields
    fun e he => renamedWhere_field (hrenamable.1 e he)
  have hmethodRows := map_memberRow_translate (firstIntermediate m.classes) hmethods
    fun e he => renamedWhere_method (hrenamable.2 e he)
  have hheader : Tiny.header (m.renamed (firstIntermediate m.classes)) =
      Translation.headerRow m.version header := by
    simp only [Tiny.header, MappingSet.renamed, hnamespaces]
    rfl
  rw [Tiny.rows, hheader, MappingSet.members, List.map_append, MappingSet.renamed,
    hfieldRows, hmethodRows, Translation.rows, hlines]
  simp only [Translation.rowsOf]
  rw [← hclasses, ← List.append_assoc]
  rfl

/-- Reading a text, indexing its classes, remapping its members and formatting the rows gives
the rows of the translation of the text, which then has one. -/
theorem translation_of_remap {m' : MappingSet} {r : Remapper}
    (hread : Yarn.readText version t = .ok (m, warnings))
    (hremap : m.remap (SymbolTable.ofList m.classes) = (m', .ok r)) :
    Translation.Conforms version t ∧ Tiny.rows m' = Translation.rows version t := by
  obtain ⟨rfl, hrenamable⟩ := MappingSet.remap_cases hremap
  rw [SymbolTable.resolve_ofList] at hrenamable ⊢
  exact ⟨(conforms_iff_renamable hread _).mpr hrenamable, rows_renamed hread hrenamable⟩

/-- If a text has a translation, then remapping the rows read from it meets no fault. -/
theorem remap_of_conforms (hread : Yarn.readText version t = .ok (m, warnings))
    (hconforms : Translation.Conforms version t) :
    ∃ m' r, m.remap (SymbolTable.ofList m.classes) = (m', .ok r) := by
  cases hremap : m.remap (SymbolTable.ofList m.classes) with
  | mk m' outcome =>
      cases outcome with
      | ok r => exact ⟨m', r, rfl⟩
      | error fault =>
          exact absurd ((conforms_iff_renamable hread _).mp hconforms)
            (MappingSet.remap_cases hremap)

end Read

end Remapping
