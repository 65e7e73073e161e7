import Remapping.Proofs.Conversion.Outcome
import Remapping.Proofs.Mapping.References
import Remapping.Proofs.Mapping.RenamedTables
import Remapping.Proofs.Mapping.Shown

/-!
# Other obfuscated names

Obfuscated names change with every release of a program; what becomes of its rows must not
depend on them. `MappingSet.reobfuscate` gives a set other obfuscated names and
`MappingSet.Reobfuscation` says which functions mix up none of its names. Read
`remap_reobfuscate` first: only the duplicates show which names a set had.
-/

namespace Remapping

open Descriptor

/-! ## Descriptors -/

section Descriptors

variable {f g h : Text → Text} (hf : ∀ n, IsClassName n → IsClassName (f n))

include hf

/-- A field descriptor is that of a type, and with other class names it is that of the renamed
type. -/
theorem exists_type_substitute_field {d : Text} (hd : Grammar.Parameter d) :
    ∃ t : FieldType, IsFieldType t ∧ IsFieldType (t.rename f) ∧ t.descriptor = d ∧
      substitute f d = (t.rename f).descriptor := by
  obtain ⟨t, ht, rfl⟩ := parameter_iff_exists_type.mp hd
  exact ⟨t, ht, (isFieldType_rename_iff ht).mpr fun c hc => hf c (ht.isClassName c hc), rfl,
    substitute_fieldDescriptor f ht⟩

/-- A method descriptor is that of a type, and with other class names it is that of the renamed
type. -/
theorem exists_type_substitute_method {d : Text} (hd : Grammar.Method d) :
    ∃ m : MethodType, IsMethodType m ∧ IsMethodType (m.rename f) ∧ m.descriptor = d ∧
      substitute f d = (m.rename f).descriptor := by
  obtain ⟨m, hm, rfl⟩ := method_iff_exists_type.mp hd
  exact ⟨m, hm, (isMethodType_rename_iff hm).mpr fun c hc => hf c (hm.isClassName c hc), rfl,
    substitute_methodDescriptor f hm⟩

/-- A field descriptor with other class names is a field descriptor. -/
theorem parameter_substitute {d : Text} (hd : Grammar.Parameter d) :
    Grammar.Parameter (substitute f d) := by
  obtain ⟨t, -, hrenamed, -, hsubstitute⟩ := exists_type_substitute_field hf hd
  exact parameter_iff_exists_type.mpr ⟨_, hrenamed, hsubstitute.symm⟩

/-- A method descriptor with other class names is a method descriptor. -/
theorem method_substitute {d : Text} (hd : Grammar.Method d) :
    Grammar.Method (substitute f d) := by
  obtain ⟨m, -, hrenamed, -, hsubstitute⟩ := exists_type_substitute_method hf hd
  exact method_iff_exists_type.mpr ⟨_, hrenamed, hsubstitute.symm⟩

/-- A field descriptor with other class names refers to these. -/
theorem fieldReferences_substitute {d : Text} (hd : Grammar.Parameter d) :
    fieldReferences (substitute f d) = (fieldReferences d).map f := by
  obtain ⟨t, ht, hrenamed, rfl, hsubstitute⟩ := exists_type_substitute_field hf hd
  rw [hsubstitute, fieldReferences_descriptor hrenamed, fieldReferences_descriptor ht]
  exact Option.toList_map

/-- A method descriptor with other class names refers to these. -/
theorem methodReferences_substitute {d : Text} (hd : Grammar.Method d) :
    methodReferences (substitute f d) = (methodReferences d).map f := by
  obtain ⟨m, hm, hrenamed, rfl, hsubstitute⟩ := exists_type_substitute_method hf hd
  rw [hsubstitute, methodReferences_descriptor hrenamed, methodReferences_descriptor hm,
    MethodType.classNames_rename]

/-- Renaming the other class names in a field descriptor like the first ones gives the same. -/
theorem renamedWhere_substitute_field {d : Text} (hd : Grammar.Parameter d)
    (hnames : ∀ c ∈ fieldReferences d, h (f c) = g c) :
    renamedWhere mentionsClass (renameField h) (substitute f d) =
      renamedWhere mentionsClass (renameField g) d := by
  obtain ⟨t, ht, hrenamed, rfl, hsubstitute⟩ := exists_type_substitute_field hf hd
  rw [fieldReferences_descriptor ht] at hnames
  have hsame : t.rename (h ∘ f) = t.rename g :=
    FieldType.rename_eq_rename_iff.mpr fun c hc => hnames c (Option.mem_toList.mpr hc)
  rw [hsubstitute, renamedWhere_fieldDescriptor h hrenamed, renamedWhere_fieldDescriptor g ht,
    FieldType.rename_rename, hsame]

/-- Renaming the other class names in a method descriptor like the first ones gives the same. -/
theorem renamedWhere_substitute_method {d : Text} (hd : Grammar.Method d)
    (hnames : ∀ c ∈ methodReferences d, h (f c) = g c) :
    renamedWhere mentionsClass (renameMethod h) (substitute f d) =
      renamedWhere mentionsClass (renameMethod g) d := by
  obtain ⟨m, hm, hrenamed, rfl, hsubstitute⟩ := exists_type_substitute_method hf hd
  rw [methodReferences_descriptor hm] at hnames
  have hsame : m.rename (h ∘ f) = m.rename g := MethodType.rename_eq_rename_iff.mpr hnames
  rw [hsubstitute, renamedWhere_methodDescriptor h hrenamed, renamedWhere_methodDescriptor g hm,
    MethodType.rename_rename, hsame]

end Descriptors

/-! ## Mapping sets -/

namespace MappingSet

/-- The grammar derives all types of fields and methods. -/
structure WellTyped (m : MappingSet) : Prop where
  fields : ∀ e ∈ m.fields, Grammar.Parameter e.descriptor
  methods : ∀ e ∈ m.methods, Grammar.Method e.descriptor

/-- The obfuscated names that have a class row. -/
def keys (m : MappingSet) : List Text := m.classes.map (·.obfuscated)

/-- The owners of fields and methods. -/
def owners (m : MappingSet) : List Text := m.members.map (·.owner)

/-- A set with other obfuscated names of classes: in class rows, in the owners of members, and in
their types. -/
def reobfuscate (f : Text → Text) (m : MappingSet) : MappingSet :=
  { m with
    classes := m.classes.map (.withKey f)
    fields := m.fields.map (.translate f (substitute f))
    methods := m.methods.map (.translate f (substitute f)) }

/-- A function that takes the obfuscated names of a set to others: it mixes up no names that
occur, it takes class names to class names, and it leaves a name alone that has no class row and
therefore stays in the rows as it is. -/
structure Reobfuscation (m : MappingSet) (f : Text → Text) : Prop where
  injOn : Set.InjOn f {n | n ∈ m.keys ∨ n ∈ m.owners ∨ n ∈ m.references}
  isClassName : ∀ n, IsClassName n → IsClassName (f n)
  fixes : ∀ n, n ∈ m.owners ∨ n ∈ m.references → n ∉ m.keys → f n = n

variable {m : MappingSet} {f g h : Text → Text}

/-- The descriptors of a well-typed set can be given other class names. -/
theorem WellTyped.renamable (hm : m.WellTyped) (f : Text → Text) : m.Renamable f := by
  refine ⟨fun e he _ => ?_, fun e he _ => ?_⟩
  · obtain ⟨t, ht, hd⟩ := parameter_iff_exists_type.mp (hm.fields e he)
    exact ⟨_, hd ▸ renameField_descriptor f ht⟩
  · obtain ⟨t, ht, hd⟩ := method_iff_exists_type.mp (hm.methods e he)
    exact ⟨_, hd ▸ renameMethod_descriptor f ht⟩

/-- A well-typed set is well-typed with other obfuscated names if these are class names. -/
theorem WellTyped.reobfuscate (hm : m.WellTyped) (hf : ∀ n, IsClassName n → IsClassName (f n)) :
    (m.reobfuscate f).WellTyped where
  fields := List.forall_mem_map.mpr fun e he => parameter_substitute hf (hm.fields e he)
  methods := List.forall_mem_map.mpr fun e he => method_substitute hf (hm.methods e he)

/-- A set with other obfuscated names refers to these. -/
theorem references_reobfuscate (hm : m.WellTyped) (hf : ∀ n, IsClassName n → IsClassName (f n)) :
    (m.reobfuscate f).references = m.references.map f := by
  have hfields : m.fields.flatMap (fun e => fieldReferences (substitute f e.descriptor)) =
      m.fields.flatMap fun e => (fieldReferences e.descriptor).map f :=
    List.flatMap_congr fun e he => fieldReferences_substitute hf (hm.fields e he)
  have hmethods : m.methods.flatMap (fun e => methodReferences (substitute f e.descriptor)) =
      m.methods.flatMap fun e => (methodReferences e.descriptor).map f :=
    List.flatMap_congr fun e he => methodReferences_substitute hf (hm.methods e he)
  rw [references, references, List.map_append, List.map_flatMap, List.map_flatMap, ← hfields,
    ← hmethods, reobfuscate, List.flatMap_map, List.flatMap_map]
  rfl

/-- Renaming the other obfuscated names like the first ones gives the same members. -/
theorem members_renamed_reobfuscate (hm : m.WellTyped)
    (hf : ∀ n, IsClassName n → IsClassName (f n))
    (hnames : ∀ n, n ∈ m.owners ∨ n ∈ m.references → h (f n) = g n) :
    ((m.reobfuscate f).renamed h).members = (m.renamed g).members := by
  have howner (e : MemberEntry) (he : e ∈ m.members) : h (f e.owner) = g e.owner :=
    hnames _ (.inl (List.mem_map_of_mem he))
  have hfield (e : MemberEntry) (he : e ∈ m.fields) (c : Text)
      (hc : c ∈ fieldReferences e.descriptor) : h (f c) = g c :=
    hnames c (.inr (List.mem_append_left _ (List.mem_flatMap_of_mem he hc)))
  have hmethod (e : MemberEntry) (he : e ∈ m.methods) (c : Text)
      (hc : c ∈ methodReferences e.descriptor) : h (f c) = g c :=
    hnames c (.inr (List.mem_append_right _ (List.mem_flatMap_of_mem he hc)))
  have hfields : ((m.reobfuscate f).renamed h).fields = (m.renamed g).fields := by
    simp only [renamed, reobfuscate, List.map_map]
    refine List.map_congr_left fun e he => ?_
    simp only [Function.comp_apply, MemberEntry.translate,
      howner e (List.mem_append_left _ he),
      renamedWhere_substitute_field hf (hm.fields e he) (hfield e he)]
  have hmethods : ((m.reobfuscate f).renamed h).methods = (m.renamed g).methods := by
    simp only [renamed, reobfuscate, List.map_map]
    refine List.map_congr_left fun e he => ?_
    simp only [Function.comp_apply, MemberEntry.translate,
      howner e (List.mem_append_right _ he),
      renamedWhere_substitute_method hf (hm.methods e he) (hmethod e he)]
  rw [members, members, hfields, hmethods]

/-- The rows of a set do not hold the obfuscated names of its classes. -/
theorem rows_eq_of_members {m m' : MappingSet} (hversion : m'.version = m.version)
    (hnamespaces : m'.namespaces = m.namespaces)
    (hclasses : m'.classes = m.classes.map (.withKey f)) (hmembers : m'.members = m.members) :
    Tiny.rows m' = Tiny.rows m := by
  have hrow : Tiny.classRow ∘ ClassEntry.withKey f = Tiny.classRow := rfl
  rw [Tiny.rows, Tiny.rows, Tiny.header, Tiny.header, hversion, hnamespaces, hclasses, hmembers,
    List.map_map, hrow]

end MappingSet

/-! ## Two runs -/

variable {m m' : MappingSet} {f : Text → Text}

/-- The tables of a set and of the same set with other obfuscated names hold the same rows. -/
theorem MappingSet.Reobfuscation.renamed_table (hf : m.Reobfuscation f) :
    (SymbolTable.ofList m.classes).Renamed f
      {n | n ∈ m.keys ∨ n ∈ m.owners ∨ n ∈ m.references}
      (SymbolTable.ofList (m.reobfuscate f).classes) :=
  SymbolTable.renamed_ofList hf.injOn fun _ hentry => .inl (List.mem_map_of_mem hentry)

/-- A name that occurs in a member and is not in the table stays as it is. -/
theorem MappingSet.Reobfuscation.fixes_of_not_contains (hf : m.Reobfuscation f) {n : Text}
    (hn : n ∈ m.owners ∨ n ∈ m.references)
    (hunknown : (SymbolTable.ofList m.classes).contains n = false) : f n = n := by
  refine hf.fixes n hn fun hkey => ?_
  rw [SymbolTable.contains_ofList.mpr hkey] at hunknown
  cases hunknown

/-- A well-typed set and the same set with other obfuscated names are remapped to the same rows,
and the same names are noted meanwhile. -/
theorem MappingSet.remap_reobfuscate (hm : m.WellTyped) (hf : m.Reobfuscation f) :
    ∃ done done' r r', m.remap (.ofList m.classes) = (done, .ok r) ∧
      (m.reobfuscate f).remap (.ofList (m.reobfuscate f).classes) = (done', .ok r') ∧
      Tiny.rows done' = Tiny.rows done ∧ r'.unresolved = r.unresolved := by
  have htables := hf.renamed_table
  have hresolve (n : Text) (hn : n ∈ m.owners ∨ n ∈ m.references) :
      (SymbolTable.ofList (m.reobfuscate f).classes).resolve (f n) =
        (SymbolTable.ofList m.classes).resolve n :=
    htables.resolve_eq (.inr hn) (hf.fixes_of_not_contains hn)
  refine ⟨_, _, _, _, remap_of_renamable (hm.renamable _),
    remap_of_renamable ((hm.reobfuscate hf.isClassName).renamable _), ?_, ?_⟩
  · exact rows_eq_of_members rfl rfl rfl
      (members_renamed_reobfuscate hm hf.isClassName hresolve)
  · rw [references_reobfuscate hm hf.isClassName]
    have hnotes : Remapper.SameNotes f _ { table := .ofList m.classes }
        { table := .ofList (m.reobfuscate f).classes } := ⟨htables, rfl⟩
    exact (hnotes.foldl_note fun n hn =>
      ⟨.inr (.inr hn), hf.fixes_of_not_contains (.inr hn)⟩).unresolved

open Conversion in
/-- Let the grammar derive all types of a set, and let another set be the same set with other
obfuscated names, whatever its members are called and wherever its rows were read. Then both are
remapped to the same rows, with the same unresolved names; the duplicates of the second one are
those of the first one under their other names. -/
theorem remap_reobfuscated (hm : m.WellTyped) (hf : m.Reobfuscation f)
    (hm' : m'.shown = (m.reobfuscate f).shown) (s s' : Session) :
    ∃ table table' indexed indexed' done done' r r',
      buildTable m s = (table, indexed) ∧ (remap table m indexed).1 = (done, .ok r) ∧
      buildTable m' s' = (table', indexed') ∧ (remap table' m' indexed').1 = (done', .ok r') ∧
      Tiny.rows done' = Tiny.rows done ∧ r'.unresolved = r.unresolved ∧
      table'.duplicates = table.duplicates.map f := by
  obtain ⟨hclasses, -⟩ := MappingSet.counts_of_shown_eq hm'
  obtain ⟨done, done', r, r', hremap, hremap', hrows, hunresolved⟩ :=
    MappingSet.remap_reobfuscate hm hf
  have htables := hf.renamed_table
  rw [← hclasses] at hremap' htables
  obtain ⟨hshown, houtcome⟩ := MappingSet.remap_of_shown_eq hm' (.ofList m'.classes)
  rw [hremap'] at houtcome hshown
  exact ⟨.ofList m.classes, .ofList m'.classes, _, _, done, _, r, r', rfl,
    remap_fst_eq_ok_iff.mpr hremap, rfl, remap_fst_eq_ok_iff.mpr (Prod.ext rfl houtcome),
    (Tiny.rows_of_shown_eq hshown).trans hrows, hunresolved, htables.duplicates⟩

/-- A set with two rows of its first class, and with an owner and a reference without a row. -/
def sharedSet (first second field method : Text) : MappingSet where
  classes := [⟨first, "C_1", "Main"⟩, ⟨second, "C_2", "Tree"⟩, ⟨first, "C_3", "Late"⟩]
  fields := [{
    kind := .fieldRow
    owner := first
    obfuscated := field
    intermediate := "f_1"
    readable := "leaves"
    descriptor := "[L" ++ second ++ ";" }]
  methods := [{
    kind := .methodRow
    owner := "q"
    obfuscated := method
    intermediate := "m_1"
    readable := "run"
    descriptor := "(L" ++ first ++ ";I)Lz;" }]

/-- The rows of that set after remapping. -/
def sharedRows : List Text :=
  ["v1".toText, "CLASS\tC_1\tMain".toText, "CLASS\tC_2\tTree".toText,
    "CLASS\tC_3\tLate".toText, "FIELD\tC_1\t[LC_2;\tf_1\tleaves".toText,
    "METHOD\tq\t(LC_1;I)Lz;\tm_1\trun".toText]

/-- The grammar derives the types of the set. -/
theorem sharedSet_wellTyped : (sharedSet "a" "b" "x" "y").WellTyped where
  fields := List.forall_mem_singleton.mpr
    (ParameterTree.array (.object "b" (by decide))).parameter
  methods := List.forall_mem_singleton.mpr
    (MethodTree.mk [.object "a" (by decide), .base 'I' (by decide)]
      (.value (.object "z" (by decide)))).method

/-- The names of the two classes can be exchanged. -/
theorem sharedSet_reobfuscation :
    (sharedSet "a" "b" "x" "y").Reobfuscation (Equiv.swap "a".toText "b".toText) where
  injOn := (Equiv.swap "a".toText "b".toText).injective.injOn
  isClassName n hn := by
    rw [Equiv.swap_apply_def]
    split_ifs
    · decide
    · decide
    · exact hn
  fixes n _ hn := by
    have hkeys : (sharedSet "a" "b" "x" "y").keys = ["a".toText, "b".toText, "a".toText] := rfl
    rw [hkeys] at hn
    simp only [List.mem_cons, not_or] at hn
    exact Equiv.swap_apply_of_ne_of_ne hn.1 hn.2.1

/-- Remapping the set gives its rows, notes the class without a row, and finds one duplicate. -/
theorem sharedSet_remap {done : MappingSet} {r : Remapper}
    (h : (sharedSet "a" "b" "x" "y").remap (.ofList (sharedSet "a" "b" "x" "y").classes) =
      (done, .ok r)) :
    Tiny.rows done = sharedRows ∧ r.unresolved = ["z".toText] ∧
      (SymbolTable.ofList (sharedSet "a" "b" "x" "y").classes).duplicates = ["a".toText] := by
  refine ⟨?_, ?_, ?_⟩
  · rw [(MappingSet.remap_cases h).1, SymbolTable.resolve_ofList]
    decide +kernel
  · have hnoted := MappingSet.remap_of_renamable (sharedSet_wellTyped.renamable
      (SymbolTable.ofList (sharedSet "a" "b" "x" "y").classes).resolve)
    obtain rfl := Except.ok.inj (Prod.mk.inj (h.symm.trans hnoted)).2
    have hreferences : (sharedSet "a" "b" "x" "y").references =
        ["b".toText, "a".toText, "z".toText] := by
      decide +kernel
    rw [hreferences]
    simp [Remapper.note, SymbolTable.contains_eq_isSome_lookup, SymbolTable.lookup_ofList,
      sharedSet]
  · simp [SymbolTable.ofList, SymbolTable.duplicates_insert,
      SymbolTable.contains_eq_isSome_lookup, SymbolTable.lookup_insert, sharedSet]

open Conversion in
/-- With the names of its classes exchanged and with other names of its members, the set is
remapped to the same rows with the same class noted, and the duplicate is the name that the first
class has now. -/
theorem remap_reobfuscated_exchange :
    ∃ table indexed done r,
      buildTable (sharedSet "b" "a" "k" "l") ⟨{}, ⟨"converter", 20, none, none⟩, {}⟩ =
        (table, indexed) ∧
      (remap table (sharedSet "b" "a" "k" "l") indexed).1 = (done, .ok r) ∧
      Tiny.rows done = sharedRows ∧ r.unresolved = ["z".toText] ∧
      table.duplicates = ["b".toText] := by
  have hshown : (sharedSet "b" "a" "k" "l").shown =
      ((sharedSet "a" "b" "x" "y").reobfuscate (Equiv.swap "a".toText "b".toText)).shown := by
    simp only [MappingSet.shown, MappingSet.mk.injEq]
    decide +kernel
  obtain ⟨table, table', indexed, indexed', done, done', r, r', htable, hremap, htable', hremap',
    hrows, hunresolved, hduplicates⟩ :=
    remap_reobfuscated sharedSet_wellTyped sharedSet_reobfuscation hshown
      ⟨{}, ⟨"converter", 20, none, none⟩, {}⟩ ⟨{}, ⟨"converter", 20, none, none⟩, {}⟩
  obtain rfl := (Prod.mk.inj htable).1
  obtain ⟨hfirst, hnoted, hrepeated⟩ := sharedSet_remap (remap_fst_eq_ok_iff.mp hremap)
  refine ⟨table', indexed', done', r', htable', hremap', hrows.trans hfirst,
    hunresolved.trans hnoted, hduplicates.trans ?_⟩
  rw [hrepeated, List.map_singleton, Equiv.swap_apply_left]

end Remapping
