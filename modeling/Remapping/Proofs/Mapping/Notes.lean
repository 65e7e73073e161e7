import Remapping.Mapping.Remapper
import Remapping.Proofs.Descriptor.RenamedTypes

/-!
# The notes of a remapper

What a remapper does with one descriptor, said with the renamers that remember nothing: it gives
what they give with the names of its table, and it notes the references of the descriptor, unless
there is a fault. Read `Remapper.field_eq` and `Remapper.method_eq` first; later proofs use these
two and never open the remapper.
-/

namespace Remapping.Remapper

open Descriptor

/-! ## Noting names -/

/-- Noting a name does not change the table. -/
@[simp] theorem table_note (r : Remapper) (name : Text) : (r.note name).table = r.table := by
  unfold note
  split <;> rfl

/-- Noting names does not change the table. -/
theorem table_foldl_note (names : List Text) (r : Remapper) :
    (names.foldl note r).table = r.table := by
  induction names generalizing r with
  | nil => rfl
  | cons name names ih => rw [List.foldl_cons, ih, table_note]

/-- A class is given its name in the table, and its own name is noted. -/
theorem resolve_eq (r : Remapper) (name : Text) :
    r.resolve name = (r.table.resolve name, r.note name) := by
  rw [resolve, SymbolTable.resolve]
  cases hlookup : r.table.lookup name with
  | none => rfl
  | some entry =>
      have hcontains : r.table.contains name = true := by
        rw [SymbolTable.contains_eq_isSome_lookup, hlookup]
        rfl
      simp [note, hcontains]

/-! ## Descriptors -/

/-- A remapper gives a field descriptor the names of its table and notes the references of the
descriptor; with a fault it notes nothing. -/
theorem field_eq (r : Remapper) (d : Text) :
    r.field d =
      match remapField r.table d with
      | .error fault => (.error fault, r)
      | .ok renamed => (.ok renamed, (fieldReferences d).foldl note r) := by
  rw [field, remapField, renameField, fieldReferences]
  cases isObjectDescriptor d with
  | false => rfl
  | true =>
      cases referencedName d with
      | error fault => rfl
      | ok name =>
          simp only [if_true, resolve_eq]
          rfl

/-- If every descriptor of a list can be renamed, a remapper gives them the names of its table
and notes their references in order. -/
theorem fields_eq_of_renameFields {ds renamed : List Text} {r : Remapper}
    (h : renameFields r.table.resolve ds = .ok renamed) :
    r.fields ds = (.ok renamed, (ds.flatMap fieldReferences).foldl note r) := by
  induction ds generalizing r renamed with
  | nil =>
      obtain rfl := Except.ok.inj h
      rfl
  | cons d ds ih =>
      rw [renameFields] at h
      cases hd : renameField r.table.resolve d with
      | error fault => simp [hd, bind, Except.bind] at h
      | ok first =>
          cases hds : renameFields r.table.resolve ds with
          | error fault => simp [hd, hds, bind, Except.bind] at h
          | ok rest =>
              simp only [hd, hds, bind, Except.bind, pure, Except.pure, Except.ok.injEq] at h
              obtain rfl := h
              have hnoted := table_foldl_note (fieldReferences d) r
              rw [fields, field_eq, remapField, hd]
              dsimp only
              rw [ih (by rw [hnoted, hds]), List.flatMap_cons, List.foldl_append]

/-- A remapper gives a method descriptor the names of its table and notes the references of the
descriptor; with a fault it notes nothing. -/
theorem method_eq (r : Remapper) (s : Text) :
    r.method s =
      match remapMethod r.table s with
      | .error fault => (.error fault, r)
      | .ok renamed => (.ok renamed, (methodReferences s).foldl note r) := by
  rw [method, remapMethod]
  cases hparse : parseMethod s with
  | error fault => simp [renameMethod, hparse, bind, Except.bind]
  | ok type =>
      -- Once the descriptor is read, no fault is left: its pieces are derived by the grammar.
      obtain ⟨m, rfl, rfl⟩ := exists_tree_of_parseMethod hparse
      have hparameters := renameFields_text r.table.resolve m.parameters
      rw [← m.parameterDescriptors_type] at hparameters
      have hnoted := table_foldl_note (m.type.parameterDescriptors.flatMap fieldReferences) r
      have hresult := renameField_result
        ((m.type.parameterDescriptors.flatMap fieldReferences).foldl note r).table.resolve m.result
      rw [renameMethod_text, methodReferences, hparse]
      dsimp only
      rw [fields_eq_of_renameFields hparameters]
      dsimp only
      rw [field_eq, remapField, m.returnDescriptor_type, hresult, hnoted]
      simp [MethodTree.textWith, List.flatMap_def]

end Remapping.Remapper
