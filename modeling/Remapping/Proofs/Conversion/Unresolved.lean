import Mathlib.Data.List.Forall2
import Remapping.Proofs.Conversion.EndToEnd
import Remapping.Proofs.Conversion.Trace
import Remapping.Proofs.Mapping.References
import Remapping.Proofs.Mapping.RenamedTables
import Remapping.Proofs.Mapping.Runs

/-!
# Unresolved classes

Which classes a report lists as unresolved. The remapper notes names one by one as it looks them
up; here the list is said of the rows alone, by the readers of types and the class rows. Read
`unresolved_of_remap` first; `convert_unresolved` says it of the report of a conversion, and that
the names that are listed stand in the types that are written as they stood in those that were
read.
-/

namespace Remapping

open Descriptor

/-! ## The names in types -/

/-- The class name in the type of a field, if the type is a class or an array of one. -/
def fieldTypeNames (d : Text) : List Text :=
  if isObjectDescriptor d then ((parseField d).map (·.className.toList)).toOption.getD [] else []

/-- The class names in the type of a method, if the type holds the letter in front of one: those
of the parameters, and then that of the result. -/
def methodTypeNames (s : Text) : List Text :=
  if .char 'L' ∈ s then (classNames s).toOption.getD [] else []

/-- Renaming a field descriptor looks up the name in the type. -/
theorem fieldReferences_eq_fieldTypeNames (d : Text) : fieldReferences d = fieldTypeNames d := by
  unfold fieldTypeNames
  split
  · exact fieldReferences_eq d
  · next hobject => rw [fieldReferences, if_neg hobject]

/-- Renaming a method descriptor looks up the names in the type. -/
theorem methodReferences_eq_methodTypeNames (s : Text) :
    methodReferences s = methodTypeNames s := by
  unfold methodTypeNames
  split
  · exact methodReferences_eq s
  · next hmem =>
    refine methodReferences_of_not_mentionsClass ?_
    rw [← Bool.not_eq_true, mentionsClass_iff]
    exact hmem

/-- A name in the type of a field that keeps its name is referred to in the renamed type. -/
theorem reference_infix_renamed_field {f : Text → Text} {d name : Text}
    (hname : name ∈ fieldTypeNames d) (hkept : f name = name) :
    .char 'L' :: name ++ [.char ';'] <:+: renamedWhere mentionsClass (renameField f) d := by
  rw [← fieldReferences_eq_fieldTypeNames, fieldReferences_eq] at hname
  cases hparse : parseField d with
  | error fault =>
      rw [hparse] at hname
      cases hname
  | ok t =>
      rw [hparse] at hname
      obtain ⟨tree, rfl, rfl⟩ := exists_tree_of_parseField hparse
      have hrenamed : name ∈ (tree.type.rename f).className :=
        Option.mem_map.mpr ⟨name, Option.mem_toList.mp hname, hkept⟩
      rw [← tree.descriptor_type, renamedWhere_fieldDescriptor f tree.isFieldType]
      exact reference_infix_fieldDescriptor hrenamed

/-- A name in the type of a method that keeps its name is referred to in the renamed type. -/
theorem reference_infix_renamed_method {f : Text → Text} {s name : Text}
    (hname : name ∈ methodTypeNames s) (hkept : f name = name) :
    .char 'L' :: name ++ [.char ';'] <:+: renamedWhere mentionsClass (renameMethod f) s := by
  rw [← methodReferences_eq_methodTypeNames] at hname
  cases hparse : parseMethod s with
  | error fault =>
      rw [methodReferences, hparse] at hname
      cases hname
  | ok m =>
      obtain ⟨hm, rfl⟩ := descriptor_of_parseMethod hparse
      rw [methodReferences_descriptor hm] at hname
      have hrenamed : name ∈ (m.rename f).classNames := by
        rw [MethodType.classNames_rename]
        exact List.mem_map.mpr ⟨name, hname, hkept⟩
      rw [renamedWhere_methodDescriptor f hm]
      exact reference_infix_methodDescriptor hrenamed

/-- A field descriptor that refers to a class and can be renamed is read, and has a class name. -/
theorem exists_parseField_of_renameField {f : Text → Text} {d : Text}
    (hobject : isObjectDescriptor d = true) (h : ∃ d', renameField f d = .ok d') :
    ∃ t name, parseField d = .ok t ∧ t.className = some name := by
  obtain ⟨d', hd'⟩ := h
  obtain ⟨tree, rfl, -⟩ := exists_tree_of_renameField hobject hd'
  obtain ⟨name, hname⟩ : ∃ name, referencedName tree.text = .ok name := by
    rcases tree.text_cases with ⟨hnone, -⟩ | ⟨name, valid, helement, -⟩
    · simp [hobject] at hnone
    · exact ⟨name, (referencedName_eq_ok_iff hobject).mpr ⟨valid, helement⟩⟩
  refine ⟨tree.type, name, parseField_text tree, ?_⟩
  have hreferences := fieldReferences_descriptor tree.isFieldType
  rw [tree.descriptor_type, fieldReferences, if_pos hobject, hname] at hreferences
  exact Option.mem_toList.mp (hreferences ▸ List.mem_singleton_self name)

/-- A method descriptor that can be renamed has class names that are read. -/
theorem exists_classNames_of_renameMethod {f : Text → Text} {s : Text}
    (h : ∃ s', renameMethod f s = .ok s') : ∃ names, classNames s = .ok names := by
  obtain ⟨s', hs'⟩ := h
  obtain ⟨m, rfl, -⟩ := renameMethod_eq_ok_iff.mp hs'
  rw [← m.descriptor_type]
  exact ⟨_, classNames_descriptor m.isMethodType⟩

namespace MappingSet

/-! ## The names in a set -/

/-- The class names in the types of a set: those of its fields in the order of the rows, and then
those of its methods. -/
def typeNames (m : MappingSet) : List Text :=
  m.fields.flatMap (fieldTypeNames ·.descriptor) ++ m.methods.flatMap (methodTypeNames ·.descriptor)

/-- Every type of a set in which class names are looked for is read. -/
structure TypesRead (m : MappingSet) : Prop where
  fields : ∀ e ∈ m.fields, isObjectDescriptor e.descriptor = true →
    ∃ t name, parseField e.descriptor = .ok t ∧ t.className = some name
  methods : ∀ e ∈ m.methods, .char 'L' ∈ e.descriptor → ∃ names, classNames e.descriptor = .ok names

/-- A list holds exactly the names in the types of a set that have no class row, each once, in the
order in which they occur first. Owners have no say in it. -/
structure ListsMissing (m : MappingSet) (names : List Text) : Prop where
  eq_eraseDups : names =
    (m.typeNames.filter fun name => name ∉ m.classes.map (·.obfuscated)).eraseDups
  nodup : names.Nodup
  mem_iff : ∀ name, name ∈ names ↔
    name ∈ m.typeNames ∧ ∀ entry ∈ m.classes, entry.obfuscated ≠ name

/-- Member by member, what some names of classes are in the types of a set, they are in the types
of another one. -/
structure KeepsReferences (names : List Text) (m m' : MappingSet) : Prop where
  fields : List.Forall₂ (fun e e' => ∀ name ∈ names, name ∈ fieldTypeNames e.descriptor →
    .char 'L' :: name ++ [.char ';'] <:+: e'.descriptor) m.fields m'.fields
  methods : List.Forall₂ (fun e e' => ∀ name ∈ names, name ∈ methodTypeNames e.descriptor →
    .char 'L' :: name ++ [.char ';'] <:+: e'.descriptor) m.methods m'.methods

/-- Remapping a set looks up the names in its types. -/
theorem references_eq_typeNames (m : MappingSet) : m.references = m.typeNames := by
  simp only [references, typeNames, fieldReferences_eq_fieldTypeNames,
    methodReferences_eq_methodTypeNames]

/-- The types of a set that can be renamed are read. -/
theorem Renamable.typesRead {f : Text → Text} {m : MappingSet} (h : m.Renamable f) :
    m.TypesRead where
  fields e he hobject := exists_parseField_of_renameField hobject
    (h.1 e he (mentionsClass_of_isObjectDescriptor hobject))
  methods e he hmem := exists_classNames_of_renameMethod (h.2 e he (mentionsClass_iff.mpr hmem))

/-- Names that a function leaves alone stay in the types of a set that it renames. -/
theorem keepsReferences_renamed {f : Text → Text} {names : List Text} (m : MappingSet)
    (h : ∀ name ∈ names, f name = name) : KeepsReferences names m (m.renamed f) where
  fields := List.forall₂_map_right_iff.mpr <| List.forall₂_same.mpr fun _ _ name hname hmem =>
    reference_infix_renamed_field hmem (h name hname)
  methods := List.forall₂_map_right_iff.mpr <| List.forall₂_same.mpr fun _ _ name hname hmem =>
    reference_infix_renamed_method hmem (h name hname)

/-- A name is not found in the table of some rows exactly if no row has it. -/
theorem lookup_isNone_eq (entries : List ClassEntry) (name : Text) :
    ((SymbolTable.ofList entries).lookup name).isNone =
      decide (name ∉ entries.map (·.obfuscated)) := by
  rw [Bool.eq_iff_iff, Option.isNone_iff_eq_none, decide_eq_true_eq,
    (SymbolTable.scans_ofList entries).lookup_eq_none_iff]
  simp

/-- If a remapper with the table of the rows notes the references of a set, its list is that of
the missing names. -/
theorem listsMissing_foldl_note (m : MappingSet) :
    m.ListsMissing
      (m.references.foldl Remapper.note { table := .ofList m.classes }).unresolved := by
  have hfollows := (Remapper.Follows.new (.ofList m.classes)).foldl_note m.references
  have hlist := hfollows.unresolved_eq
  simp only [List.nil_append, lookup_isNone_eq] at hlist
  constructor
  case eq_eraseDups => rw [hlist, references_eq_typeNames]
  case nodup => exact hfollows.nodup
  case mem_iff =>
    intro name
    rw [hlist, List.mem_eraseDups, List.mem_filter, references_eq_typeNames]
    simp

/-- Remapping a set without a fault lists the missing names of the set, after all its types have
been read; the names that are listed stay in the types. -/
theorem unresolved_of_remap {m m' : MappingSet} {r : Remapper}
    (h : m.remap (.ofList m.classes) = (m', .ok r)) :
    m.TypesRead ∧ m.ListsMissing r.unresolved ∧ m.KeepsReferences r.unresolved m' := by
  obtain ⟨rfl, hrenamable⟩ := remap_cases h
  obtain ⟨-, hr⟩ := Prod.mk.inj ((remap_of_renamable hrenamable).symm.trans h)
  obtain rfl := Except.ok.inj hr
  have hmissing := m.listsMissing_foldl_note
  refine ⟨hrenamable.typesRead, hmissing, m.keepsReferences_renamed fun name hname => ?_⟩
  have hnone := (SymbolTable.scans_ofList m.classes).lookup_eq_none_iff.mpr
    ((hmissing.mem_iff name).mp hname).2
  rw [SymbolTable.resolve, hnone]

end MappingSet

namespace Conversion

section

variable [Codecs] {settings : ConverterSettings} {input output : Text} {elapsed : Nat}
  {s s' : Session}

/-- The unresolved classes in the report of a conversion are exactly the names without a class row
in the types of the file that was read: those of the fields and then those of the methods, each
once, in the order in which they occur first. Each of them stands in the types that are written
as it stood in those that were read. -/
theorem convert_unresolved {report : Report}
    (h : convert settings input output elapsed s = (.ok report, s')) :
    ∃ tr : Trace, tr.Leads settings input output s s' ∧ tr.rows.TypesRead ∧
      tr.rows.ListsMissing report.unresolved ∧
      tr.rows.KeepsReferences report.unresolved tr.result := by
  obtain ⟨tr, hleads, rfl⟩ := exists_trace h
  exact ⟨tr, hleads, MappingSet.unresolved_of_remap hleads.remaps⟩

end

open scoped Codecs

/-- A mapping file whose types name a class before its row, two classes more than once, and three
classes without a row; the owner of most members has no row either. -/
def missingText : Text :=
  "v1\tofficial\tintermediary\tnamed\n" ++ "METHOD\to\t(Ly;[La;)Lx;\tm\tm_1\trun\n" ++
    "FIELD\to\t[Lx;\tf\tf_1\tleaf\n" ++ "FIELD\tx\tLa;\tg\tf_2\troot\n" ++
    "METHOD\to\t(ILz;J)Ly;\tn\tm_2\tstop\n" ++ "CLASS\ta\tC_1\tMain\n"

/-- The class of the first field comes first, although a method stands before it, and the owner is
not listed. -/
theorem convert_unresolved_missing :
    ∃ report s', convert sampleSettings "in" "out" 0 (sampleSession missingText) =
        (.ok report, s') ∧ report.unresolved = ["x".toText, "y".toText, "z".toText] := by
  have hnames : (Yarn.readText "v1" missingText).map (fun read =>
      (read.1.typeNames.filter fun name => name ∉ read.1.classes.map (·.obfuscated)).eraseDups) =
        .ok ["x".toText, "y".toText, "z".toText] := by
    decide +kernel
  have hbytes : Encoding.latin1.decode true (missingText.map fun c => UInt8.ofNat c.toNat) =
      .ok missingText := by
    decide +kernel
  obtain ⟨report, s', h⟩ := exists_sample_report hbytes (by decide +kernel) (by decide +kernel)
  obtain ⟨tr, hleads, -, hmissing, -⟩ := convert_unresolved h
  obtain ⟨hversion, htext⟩ := hleads.of_sample hbytes
  have hparses := hleads.parses
  rw [hversion, htext] at hparses
  rw [hparses] at hnames
  exact ⟨report, s', h, hmissing.eq_eraseDups.trans (Except.ok.inj hnames)⟩

end Conversion
end Remapping
