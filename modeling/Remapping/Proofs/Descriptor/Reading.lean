import Remapping.Descriptor.Parse
import Remapping.Proofs.Descriptor.Scanning

/-!
# Reading inverts writing

The types that the readers build from tokens. A derivation has a type, and every well-formed
type is the type of a derivation; the derivation's text is the descriptor of its type. Read
`assemble_tokens` first: it says what the tokens of one type add to the types read so far,
whatever array markers came before. `parse_iff_descriptor` is the main statement.
-/

namespace Remapping.Descriptor

namespace ParameterTree

/-- The field type that is derived. -/
def type : ParameterTree → FieldType
  | base letter _ => { base := some [letter] }
  | object name _ => { className := some name }
  | array element => { element.type with dimensions := element.type.dimensions + 1 }

/-- No derivation has a negative number of array levels. -/
theorem type_dimensions_nonneg (t : ParameterTree) : 0 ≤ t.type.dimensions := by
  induction t with
  | base | object => exact Int.le_refl 0
  | array element ih =>
      show 0 ≤ element.type.dimensions + 1
      omega

/-- A derivation gives a well-formed type. -/
theorem isFieldType (t : ParameterTree) : IsFieldType t.type := by
  refine ⟨t.type_dimensions_nonneg, ?_⟩
  induction t with
  | base letter valid => exact .inl ⟨letter, valid, rfl, rfl⟩
  | object name valid => exact .inr ⟨rfl, name, rfl, valid⟩
  | array element ih => exact ih

/-- The text of a derivation is the descriptor of its type. -/
theorem descriptor_type (t : ParameterTree) : t.type.descriptor = t.text := by
  induction t with
  | base | object => rfl
  | array element ih =>
      have hlevels : (element.type.dimensions + 1).toNat = element.type.dimensions.toNat + 1 := by
        have := element.type_dimensions_nonneg
        omega
      show List.replicate (element.type.dimensions + 1).toNat (.char '[') ++
        element.type.element = _
      rw [hlevels, List.replicate_succ, text_array, ← ih]
      rfl

end ParameterTree

/-- Every well-formed field type has a derivation. -/
theorem exists_tree_of_isFieldType {t : FieldType} (h : IsFieldType t) :
    ∃ tree : ParameterTree, tree.type = t := by
  obtain ⟨dimensions, base, className⟩ := t
  obtain ⟨hdimensions, h⟩ := h
  obtain ⟨levels, rfl⟩ := Int.eq_ofNat_of_zero_le hdimensions
  induction levels with
  | zero =>
      rcases h with ⟨letter, valid, rfl, rfl⟩ | ⟨rfl, name, rfl, valid⟩
      · exact ⟨.base letter valid, rfl⟩
      · exact ⟨.object name valid, rfl⟩
  | succ levels ih =>
      obtain ⟨element, helement⟩ := ih (Int.natCast_nonneg levels) h
      exact ⟨.array element, by simp [ParameterTree.type, helement]⟩

/-- The type of a result. -/
def ResultTree.type : ResultTree → FieldType
  | void => { base := some [voidLetter] }
  | value t => t.type

/-- The text of a derivation is the descriptor of its type. -/
theorem ResultTree.descriptor_type (r : ResultTree) : r.type.descriptor = r.text := by
  cases r with
  | void => rfl
  | value t => exact t.descriptor_type

/-- The method type that is derived. -/
def MethodTree.type (m : MethodTree) : MethodType where
  parameters := m.parameters.map ParameterTree.type
  returnType := m.result.type

/-- The descriptors of the parameters are the texts of their derivations. -/
theorem MethodTree.parameterDescriptors_type (m : MethodTree) :
    m.type.parameterDescriptors = m.parameters.map ParameterTree.text := by
  simp [MethodType.parameterDescriptors, MethodTree.type, Function.comp_def,
    ParameterTree.descriptor_type]

/-- The descriptor of the result is the text of its derivation. -/
theorem MethodTree.returnDescriptor_type (m : MethodTree) :
    m.type.returnDescriptor = m.result.text := m.result.descriptor_type

/-- The text of a derivation is the descriptor of its type. -/
theorem MethodTree.descriptor_type (m : MethodTree) : m.type.descriptor = m.text := by
  rw [MethodType.descriptor, m.parameterDescriptors_type, m.returnDescriptor_type, m.text_eq,
    List.flatMap_def]
  rfl

/-- A derivation gives a well-formed type. -/
theorem MethodTree.isMethodType (m : MethodTree) : IsMethodType m.type := by
  constructor
  · intro t ht
    obtain ⟨tree, -, rfl⟩ := List.mem_map.mp ht
    exact tree.isFieldType
  · cases hr : m.result with
    | void => exact .inr (by rw [MethodTree.type, hr]; rfl)
    | value t => exact .inl (by rw [MethodTree.type, hr]; exact t.isFieldType)

/-- Every well-formed method type has a derivation. -/
theorem exists_tree_of_isMethodType {m : MethodType} (h : IsMethodType m) :
    ∃ tree : MethodTree, tree.type = m := by
  obtain ⟨parameters, returnType⟩ := m
  obtain ⟨hparameters, hreturn⟩ := h
  have hmap : parameters ∈ Set.range (List.map ParameterTree.type) := by
    rw [Set.range_list_map]
    exact fun t ht => exists_tree_of_isFieldType (hparameters t ht)
  obtain ⟨ts, rfl⟩ := hmap
  rcases hreturn with hvalue | rfl
  · obtain ⟨tree, rfl⟩ := exists_tree_of_isFieldType hvalue
    exact ⟨⟨ts, .value tree⟩, rfl⟩
  · exact ⟨⟨ts, .void⟩, rfl⟩

/-! ## From tokens to types -/

/-- A type below some more array levels. -/
def raise (levels : Nat) (t : FieldType) : FieldType :=
  { t with dimensions := t.dimensions + levels }

@[simp] theorem raise_zero (t : FieldType) : raise 0 t = t := by simp [raise]

/-- The tokens of a type put this type, below the array markers met before, in front of the
types on its side, and the count of the markers starts anew. -/
theorem assemble_tokens (t : ParameterTree) (levels : Nat) (inResult : Bool) (pos : Nat)
    (more : List Token) :
    assemble levels inResult (t.tokens pos ++ more) =
      assemble.put inResult (raise levels t.type) (assemble 0 inResult more) := by
  -- A marker counts for the type below it, so the count before the type is left general.
  induction t generalizing levels pos with
  | base | object => simp [ParameterTree.tokens, assemble, ParameterTree.type, raise]
  | array element ih =>
      rw [ParameterTree.tokens, List.cons_append, assemble, ih]
      simp only [raise, ParameterTree.type, Int.natCast_succ, Int.add_assoc, Int.add_comm 1]

/-- The tokens of parameters put their types in front of the parameter types. -/
theorem assemble_parameterTokens (ts : List ParameterTree) (pos : Nat) (more : List Token) :
    assemble 0 false (parameterTokens pos ts ++ more) =
      (ts.map ParameterTree.type ++ (assemble 0 false more).1, (assemble 0 false more).2) := by
  induction ts generalizing pos with
  | nil => rfl
  | cons t ts ih =>
      rw [parameterTokens, List.append_assoc, assemble_tokens, ih]
      simp [assemble.put]

/-- The tokens of a result give one type on the side of the result. -/
theorem assemble_result (r : ResultTree) (pos position : Nat) :
    assemble 0 true (r.tokens pos ++ [⟨position, .finish⟩]) = ([], [r.type]) := by
  cases r with
  | void => rfl
  | value t =>
      rw [ResultTree.tokens, assemble_tokens]
      simp [assemble, assemble.put, ResultTree.type]

/-- The tokens of a derivation give the types of its parameters and one result type. -/
theorem assemble_method (m : MethodTree) :
    assemble 0 false m.tokens = (m.type.parameters, [m.type.returnType]) := by
  simp [MethodTree.tokens, assemble, assemble_parameterTokens, assemble_result, MethodTree.type]

/-! ## The readers -/

/-- The text of a derivation reads as its type. -/
theorem parseMethod_text (m : MethodTree) : parseMethod m.text = .ok m.type := by
  rw [parseMethod, scanMethod_text, Scan.complete]
  simp [Except.map, methodOfTokens, assemble_method]

/-- The tokens of a scan are made into something only if the scan meets no fault. -/
theorem Scan.outcome_of_complete {α : Type} {scan : Scan Unit} {s : Text} {make : List Token → α}
    {a : α} (h : (scan.complete s).map make = .ok a) : scan.outcome = .ok () := by
  unfold Scan.complete at h
  split at h
  · assumption
  · simp [Except.map] at h

/-- Only texts of derivations read as method types. -/
theorem exists_tree_of_parseMethod {s : Text} {m : MethodType} (h : parseMethod s = .ok m) :
    ∃ tree : MethodTree, tree.text = s ∧ tree.type = m := by
  obtain ⟨tree, rfl⟩ := scanMethod_sound (Scan.outcome_of_complete h)
  rw [parseMethod_text] at h
  exact ⟨tree, rfl, Except.ok.inj h⟩

/-- The text of a derivation reads as its type. -/
theorem parseField_text (t : ParameterTree) : parseField t.text = .ok t.type := by
  rw [parseField, scanField_text, Scan.complete]
  simp [Except.map, fieldOfTokens, assemble_tokens, assemble.put]

/-- Only texts of derivations read as field types. -/
theorem exists_tree_of_parseField {s : Text} {t : FieldType} (h : parseField s = .ok t) :
    ∃ tree : ParameterTree, tree.text = s ∧ tree.type = t := by
  obtain ⟨tree, rfl⟩ := scanField_sound (Scan.outcome_of_complete h)
  rw [parseField_text] at h
  exact ⟨tree, rfl, Except.ok.inj h⟩

/-- Reading a descriptor and writing it down are inverse to each other: a text reads as a type
exactly if the type is well formed and the text is its descriptor. -/
theorem parse_iff_descriptor :
    (∀ s m, parseMethod s = .ok m ↔ IsMethodType m ∧ m.descriptor = s) ∧
      (∀ s t, parseField s = .ok t ↔ IsFieldType t ∧ t.descriptor = s) := by
  refine ⟨fun s m => ⟨?_, ?_⟩, fun s t => ⟨?_, ?_⟩⟩
  · intro h
    obtain ⟨tree, rfl, rfl⟩ := exists_tree_of_parseMethod h
    exact ⟨tree.isMethodType, tree.descriptor_type⟩
  · intro h
    obtain ⟨hm, rfl⟩ := h
    obtain ⟨tree, rfl⟩ := exists_tree_of_isMethodType hm
    rw [tree.descriptor_type, parseMethod_text]
  · intro h
    obtain ⟨tree, rfl, rfl⟩ := exists_tree_of_parseField h
    exact ⟨tree.isFieldType, tree.descriptor_type⟩
  · intro h
    obtain ⟨ht, rfl⟩ := h
    obtain ⟨tree, rfl⟩ := exists_tree_of_isFieldType ht
    rw [tree.descriptor_type, parseField_text]

end Remapping.Descriptor
