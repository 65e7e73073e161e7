import Mathlib.Data.List.Forall2
import Remapping.Proofs.Conversion.Outcome
import Remapping.Proofs.Mapping.References

/-!
# Descriptors that a conversion accepts

Remapping without a fault checks every method descriptor that mentions a class, but of the field
descriptors only those that start like a class or an array of one. Read
`renamedWhere_field_accepted_iff` first: these are accepted before and after, and a field
descriptor that mentions a class further on is not accepted and stays as it is.
-/

namespace Remapping

open Descriptor

/-- Class names are given class names by a table that holds nothing else. -/
theorem SymbolTable.isClassName_resolve_ofList {classes : List ClassEntry}
    (h : ∀ entry ∈ classes, IsClassName entry.intermediate) {name : Text}
    (hname : IsClassName name) : IsClassName ((ofList classes).resolve name) := by
  rw [resolve_ofList, firstIntermediate]
  split
  · next entry hfind => exact h entry (List.mem_of_find?_eq_some hfind)
  · exact hname

namespace Descriptor

/-! ## Field descriptors -/

/-- A derivation that mentions a class refers to it. -/
theorem ParameterTree.isObjectDescriptor_of_mem {t : ParameterTree} (h : .char 'L' ∈ t.text) :
    isObjectDescriptor t.text = true := by
  induction t with
  | base letter valid =>
      exact absurd (List.mem_singleton.mp h).symm (letter_ne_of_mem valid).2.1
  | object name valid => rfl
  | array element ih =>
      rw [text_array, List.mem_cons] at h
      exact ih (h.resolve_left (by decide))

variable {f : Text → Text} {d s : Text}

/-- A field descriptor that mentions a class and can be renamed to class names is accepted exactly
if it starts like a class or an array of one, and so is the renamed one; any other stays as it
is. -/
theorem renamedWhere_field_accepted_iff (hf : ∀ c, IsClassName c → IsClassName (f c))
    (hmem : .char 'L' ∈ d) (h : ∃ d', renameField f d = .ok d') :
    ((∃ t, parseField d = .ok t) ↔ isObjectDescriptor d = true) ∧
      ((∃ t, parseField (renamedWhere mentionsClass (renameField f) d) = .ok t) ↔
        isObjectDescriptor d = true) ∧
      (isObjectDescriptor d = false →
        renamedWhere mentionsClass (renameField f) d = d) := by
  obtain ⟨d', hd'⟩ := h
  have hrenamed : renamedWhere mentionsClass (renameField f) d = d' := by
    rw [renamedWhere, if_pos (mentionsClass_iff.mpr hmem), hd']
    rfl
  rw [hrenamed]
  cases hobject : isObjectDescriptor d with
  | true =>
      obtain ⟨tree, rfl, rfl⟩ := exists_tree_of_renameField hobject hd'
      have htype : IsFieldType (tree.type.rename f) :=
        (isFieldType_rename_iff tree.isFieldType).mpr
          fun c hc => hf c (tree.isFieldType.isClassName c hc)
      have hafter := parseField_descriptor htype
      rw [tree.descriptor_rename] at hafter
      exact ⟨iff_of_true ⟨_, parseField_text tree⟩ rfl, iff_of_true ⟨_, hafter⟩ rfl, by simp⟩
  | false =>
      obtain rfl : d = d' := by
        rw [renameField, if_neg (by simp [hobject])] at hd'
        exact Except.ok.inj hd'
      have hrejected : ¬ ∃ t, parseField d = .ok t := by
        intro hparse
        obtain ⟨t, ht⟩ := hparse
        obtain ⟨tree, rfl, -⟩ := exists_tree_of_parseField ht
        simp [tree.isObjectDescriptor_of_mem hmem] at hobject
      exact ⟨iff_of_false hrejected (by simp), iff_of_false hrejected (by simp), fun _ => rfl⟩

/-! ## Method descriptors -/

/-- A method descriptor that mentions a class and can be renamed to class names is accepted, and
so is the renamed one. -/
theorem renamedWhere_method_accepted (hf : ∀ c, IsClassName c → IsClassName (f c))
    (hmem : .char 'L' ∈ s) (h : ∃ s', renameMethod f s = .ok s') :
    (∃ t, parseMethod s = .ok t) ∧
      ∃ t, parseMethod (renamedWhere mentionsClass (renameMethod f) s) = .ok t := by
  obtain ⟨s', hs'⟩ := h
  have hrenamed : renamedWhere mentionsClass (renameMethod f) s = s' := by
    rw [renamedWhere, if_pos (mentionsClass_iff.mpr hmem), hs']
    rfl
  rw [hrenamed]
  obtain ⟨tree, rfl, rfl⟩ := renameMethod_eq_ok_iff.mp hs'
  have htype : IsMethodType (tree.type.rename f) :=
    (isMethodType_rename_iff tree.isMethodType).mpr
      fun c hc => hf c (tree.isMethodType.isClassName c hc)
  have hafter := parseMethod_descriptor htype
  rw [tree.descriptor_rename] at hafter
  exact ⟨⟨_, parseMethod_text tree⟩, ⟨_, hafter⟩⟩

end Descriptor

namespace Conversion

/-- The stage that remaps, with a table of class names and without a fault. A method descriptor
that mentions a class is accepted before and after. A field descriptor that mentions one is
accepted before, and is accepted after, exactly if it starts like a class or an array of one; any
other stays as it is. -/
theorem remap_accepted {m left : MappingSet} {r : Remapper} {s : Session}
    (hnames : ∀ entry ∈ m.classes, IsClassName entry.intermediate)
    (h : (remap (SymbolTable.ofList m.classes) m s).1 = (left, .ok r)) :
    List.Forall₂ (fun e e' => .char 'L' ∈ e.descriptor →
        ((∃ t, parseField e.descriptor = .ok t) ↔ isObjectDescriptor e.descriptor = true) ∧
        ((∃ t, parseField e'.descriptor = .ok t) ↔ isObjectDescriptor e.descriptor = true) ∧
        (isObjectDescriptor e.descriptor = false → e'.descriptor = e.descriptor))
      m.fields left.fields ∧
    List.Forall₂ (fun e e' => .char 'L' ∈ e.descriptor →
        (∃ t, parseMethod e.descriptor = .ok t) ∧ ∃ t, parseMethod e'.descriptor = .ok t)
      m.methods left.methods := by
  obtain ⟨rfl, hfields, hmethods⟩ := MappingSet.remap_cases (remap_fst_eq_ok_iff.mp h)
  have hresolve (c : Text) (hc : IsClassName c) :=
    SymbolTable.isClassName_resolve_ofList hnames hc
  constructor
  · refine List.forall₂_map_right_iff.mpr (List.forall₂_same.mpr fun e he hmem => ?_)
    exact renamedWhere_field_accepted_iff hresolve hmem (hfields e he (mentionsClass_iff.mpr hmem))
  · refine List.forall₂_map_right_iff.mpr (List.forall₂_same.mpr fun e he hmem => ?_)
    exact renamedWhere_method_accepted hresolve hmem (hmethods e he (mentionsClass_iff.mpr hmem))

/-- A class, a field of an array of it, a field whose type has the class behind a base type, and a
method with the class. -/
def straySet : MappingSet where
  classes := [⟨"a", "C_1", "Main"⟩]
  fields := [⟨.fieldRow, "a", "x", "f_1", "leaves", "[La;", 3⟩,
    ⟨.fieldRow, "a", "y", "f_2", "stray", "ILa;", 4⟩]
  methods := [⟨.methodRow, "a", "z", "m_1", "run", "(La;)V", 5⟩]

/-- The session before anything is converted. -/
def straySession : Session := ⟨{}, ⟨"converter", 20, none, none⟩, {}⟩

/-- What remapping leaves of the set: the stray class keeps its name. -/
def straySetLeft : MappingSet where
  classes := straySet.classes
  fields := [⟨.fieldRow, "C_1", "x", "f_1", "leaves", "[LC_1;", 3⟩,
    ⟨.fieldRow, "C_1", "y", "f_2", "stray", "ILa;", 4⟩]
  methods := [⟨.methodRow, "C_1", "z", "m_1", "run", "(LC_1;)V", 5⟩]

/-- The set is remapped without a fault. -/
theorem straySet_remap :
    ∃ r, (remap (SymbolTable.ofList straySet.classes) straySet straySession).1 =
      (straySetLeft, .ok r) := by
  have hrenamable : straySet.Renamable (SymbolTable.ofList straySet.classes).resolve := by
    constructor
    · refine List.forall_mem_cons.mpr ⟨renamable_field_iff.mpr fun _ => ?_,
        List.forall_mem_singleton.mpr (renamable_field_iff.mpr fun hobject => ?_)⟩
      · exact (ParameterTree.array (.object "a" (by decide))).parameter
      · exact absurd hobject (by decide)
    · refine List.forall_mem_singleton.mpr (renamable_method_iff.mpr fun _ => ?_)
      exact (MethodTree.mk [.object "a" (by decide)] .void).method
  have hleft : straySet.renamed (SymbolTable.ofList straySet.classes).resolve = straySetLeft := by
    rw [SymbolTable.resolve_ofList]
    simp only [MappingSet.renamed, straySetLeft, MappingSet.mk.injEq]
    decide +kernel
  rw [← hleft]
  exact ⟨_, remap_fst_eq_ok_iff.mpr (MappingSet.remap_of_renamable hrenamable)⟩

/-- The names of the set are class names. -/
theorem isClassName_straySet : ∀ entry ∈ straySet.classes, IsClassName entry.intermediate := by
  decide

/-- The array and the method are accepted before and after; the type with the stray class is
neither. -/
theorem remap_accepted_straySet :
    (∃ r, (remap (SymbolTable.ofList straySet.classes) straySet straySession).1 =
      (straySetLeft, .ok r)) ∧
    (∃ t, parseField "[La;" = .ok t) ∧ (∃ t, parseField "[LC_1;" = .ok t) ∧
    (¬ ∃ t, parseField "ILa;" = .ok t) ∧
    (∃ t, parseMethod "(La;)V" = .ok t) ∧ ∃ t, parseMethod "(LC_1;)V" = .ok t := by
  obtain ⟨r, hr⟩ := straySet_remap
  obtain ⟨hfields, hmethods⟩ := remap_accepted isClassName_straySet hr
  obtain ⟨harray, hrest⟩ := List.forall₂_cons.mp hfields
  obtain ⟨hstray, -⟩ := List.forall₂_cons.mp hrest
  obtain ⟨hmethod, -⟩ := List.forall₂_cons.mp hmethods
  obtain ⟨hbefore, hafter, -⟩ := harray (by decide)
  refine ⟨⟨r, hr⟩, hbefore.mpr (by decide), hafter.mpr (by decide), ?_, hmethod (by decide)⟩
  exact fun haccepted => absurd ((hstray (by decide)).1.mp haccepted) (by decide)

/-- A field type that mentions a class and that no reader accepts can be left in a set that is
remapped without a fault. -/
theorem stray_class_survives :
    (∀ entry ∈ straySet.classes, IsClassName entry.intermediate) ∧
      (∃ r, (remap (SymbolTable.ofList straySet.classes) straySet straySession).1 =
        (straySetLeft, .ok r)) ∧
      straySet.fields.map (·.descriptor) = ["[La;".toText, "ILa;".toText] ∧
      straySetLeft.fields.map (·.descriptor) = ["[LC_1;".toText, "ILa;".toText] ∧
      .char 'L' ∈ "ILa;".toText ∧
      parseField "ILa;" = .error
        { position := 1, reason := .afterFieldType, descriptor := "ILa;" } :=
  ⟨isClassName_straySet, straySet_remap, rfl, rfl, by decide, by decide +kernel⟩

end Conversion
end Remapping
