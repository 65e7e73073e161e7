import Mathlib.Data.List.Basic
import Remapping.Proofs.Descriptor.RenamedTypes
import Remapping.Proofs.Mapping.Remapping

/-!
# The references in a mapping set

Which class names remapping looks up, and what comes of a whole run. Read
`MappingSet.remap_of_renamable` first: if every descriptor can be renamed, the run ends with the
renamed set, and the remapper has noted the references of the set one after the other.
-/

namespace Remapping

open Descriptor

/-! ## Descriptors -/

/-- A field descriptor without the letter of a class reference has no references. -/
theorem fieldReferences_of_not_mentionsClass {d : Text} (h : mentionsClass d = false) :
    fieldReferences d = [] := by
  have hobject : ¬ isObjectDescriptor d = true := fun hobject =>
    absurd (mentionsClass_of_isObjectDescriptor hobject) (by simp [h])
  rw [fieldReferences, if_neg hobject]

/-- A method descriptor without the letter of a class reference has no references. -/
theorem methodReferences_of_not_mentionsClass {s : Text} (h : mentionsClass s = false) :
    methodReferences s = [] := by
  cases hparse : parseMethod s with
  | error fault => rw [methodReferences, hparse]
  | ok m =>
      obtain ⟨hm, rfl⟩ := descriptor_of_parseMethod hparse
      rw [methodReferences_descriptor hm]
      refine List.eq_nil_iff_forall_not_mem.mpr fun c hc => ?_
      have hmentions := mentionsClass_iff.mpr (classMarker_mem_methodDescriptor hc)
      exact absurd hmentions (by simp [h])

/-- The descriptor of a field type is renamed also where descriptors that mention no class are
passed over. -/
theorem renamedWhere_fieldDescriptor (f : Text → Text) {t : FieldType} (ht : IsFieldType t) :
    renamedWhere mentionsClass (renameField f) t.descriptor = (t.rename f).descriptor := by
  rw [renamedWhere, renameField_descriptor f ht]
  split
  · rfl
  · next hmentions =>
    have hsame : t.rename f = t.rename id := FieldType.rename_eq_rename_iff.mpr fun c hc =>
      absurd (mentionsClass_iff.mpr (classMarker_mem_fieldDescriptor hc)) hmentions
    rw [hsame, FieldType.rename_id]

/-- The descriptor of a method type is renamed also where descriptors that mention no class are
passed over. -/
theorem renamedWhere_methodDescriptor (f : Text → Text) {m : MethodType} (hm : IsMethodType m) :
    renamedWhere mentionsClass (renameMethod f) m.descriptor = (m.rename f).descriptor := by
  rw [renamedWhere, renameMethod_descriptor f hm]
  split
  · rfl
  · next hmentions =>
    have hsame : m.rename f = m.rename id := MethodType.rename_eq_rename_iff.mpr fun c hc =>
      absurd (mentionsClass_iff.mpr (classMarker_mem_methodDescriptor hc)) hmentions
    rw [hsame, MethodType.rename_id]

/-! ## Runs -/

/-- If every selected descriptor can be renamed, the work on some members ends without a fault:
each has its renamed descriptor, and the remapper has noted the references in order. -/
theorem remapMembers_of_renamable {selected : Text → Bool}
    {step : Remapper → Text → Except DescriptorError Text × Remapper}
    {table : SymbolTable} {rename : Text → Except DescriptorError Text}
    {references : Text → List Text}
    (hstep : ∀ r d d', r.table = table → rename d = .ok d' →
      step r d = (.ok d', (references d).foldl Remapper.note r))
    (hnone : ∀ d, selected d = false → references d = [])
    {es : List MemberEntry}
    (hes : ∀ e ∈ es, selected e.descriptor = true → ∃ d, rename e.descriptor = .ok d)
    (done : List MemberEntry) {r : Remapper} (hr : r.table = table) :
    remapMembers selected step done r es =
      (done.reverse ++ es.map (.translate id (renamedWhere selected rename)),
        .ok ((es.flatMap (references ·.descriptor)).foldl Remapper.note r)) := by
  -- The notes of the members passed so far are in `r`; its table is the invariant.
  induction es generalizing done r with
  | nil => simp [remapMembers]
  | cons e es ih =>
      obtain ⟨he, hes⟩ := List.forall_mem_cons.mp hes
      rw [remapMembers, List.flatMap_cons, List.foldl_append]
      cases hselected : selected e.descriptor with
      | true =>
          obtain ⟨d, hd⟩ := he hselected
          have hnoted : ((references e.descriptor).foldl Remapper.note r).table = table :=
            (Remapper.table_foldl_note _ r).trans hr
          rw [if_pos rfl, hstep r e.descriptor d hr hd]
          dsimp only
          rw [ih hes _ hnoted]
          simp [MemberEntry.translate, renamedWhere, hselected, hd, Except.toOption]
      | false =>
          rw [if_neg (by simp), ih hes _ hr, hnone _ hselected]
          simp [MemberEntry.translate, renamedWhere, hselected]

namespace MappingSet

/-- The class names that the descriptors of a set refer to, those of its fields first. -/
def references (m : MappingSet) : List Text :=
  m.fields.flatMap (fieldReferences ·.descriptor) ++
    m.methods.flatMap (methodReferences ·.descriptor)

/-- A set whose descriptors can be given the names of the table is remapped to the renamed set,
and the remapper has noted its references. -/
theorem remap_of_renamable {table : SymbolTable} {m : MappingSet}
    (h : m.Renamable table.resolve) :
    m.remap table = (m.renamed table.resolve,
      .ok (m.references.foldl Remapper.note { table })) := by
  have hfield (r : Remapper) (d d' : Text) (hr : r.table = table)
      (hd : renameField table.resolve d = .ok d') :
      r.field d = (.ok d', (fieldReferences d).foldl Remapper.note r) := by
    rw [Remapper.field_eq, remapField, hr, hd]
  have hmethod (r : Remapper) (s s' : Text) (hr : r.table = table)
      (hs : renameMethod table.resolve s = .ok s') :
      r.method s = (.ok s', (methodReferences s).foldl Remapper.note r) := by
    rw [Remapper.method_eq, remapMethod, hr, hs]
  have hfields : ∀ e ∈ (m.resolveOwners table).fields, mentionsClass e.descriptor = true →
      ∃ d, renameField table.resolve e.descriptor = .ok d :=
    List.forall_mem_map.mpr fun e he => h.1 e he
  have hmethods : ∀ e ∈ (m.resolveOwners table).methods, mentionsClass e.descriptor = true →
      ∃ d, renameMethod table.resolve e.descriptor = .ok d :=
    List.forall_mem_map.mpr fun e he => h.2 e he
  have hnoted := Remapper.table_foldl_note
    ((m.resolveOwners table).fields.flatMap (fieldReferences ·.descriptor)) { table }
  unfold remap remapWhere
  dsimp only
  rw [remapMembers_of_renamable hfield (fun _ => fieldReferences_of_not_mentionsClass) hfields []
    rfl]
  dsimp only
  rw [remapMembers_of_renamable hmethod (fun _ => methodReferences_of_not_mentionsClass) hmethods
    [] hnoted]
  simp [renamed, resolveOwners, references, MemberEntry.translate, Function.comp_def,
    List.flatMap_map]

end MappingSet
end Remapping
