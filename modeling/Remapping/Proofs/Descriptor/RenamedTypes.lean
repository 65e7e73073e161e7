import Mathlib.Data.List.Basic
import Remapping.Proofs.Descriptor.Renaming

/-!
# Renamed types

Renaming, seen on the types that descriptors describe. A renamer takes the descriptor of a
well-formed type to the descriptor of the renamed type; this one is well formed exactly if the
new names are class names (`isMethodType_rename_iff`), and only then is it read back. Read
`renameMethod_descriptor` first: from there on, statements about renaming texts are statements
about `MethodType.rename`.
-/

namespace Remapping

/-! ## Renaming types -/

namespace FieldType

/-- Renaming twice is renaming once. -/
@[simp] theorem rename_rename (f g : Text → Text) (t : FieldType) :
    (t.rename f).rename g = t.rename (g ∘ f) := by
  simp [rename]

/-- Two renamings of a type differ only if they give its class different names. -/
theorem rename_eq_rename_iff {f g : Text → Text} {t : FieldType} :
    t.rename f = t.rename g ↔ ∀ c ∈ t.className, f c = g c := by
  cases hname : t.className with
  | none => simp [rename, hname]
  | some name => simp [rename, hname]

end FieldType

/-- A renamed field type is well formed exactly if the new name is a class name. -/
theorem isFieldType_rename_iff {f : Text → Text} {t : FieldType} (ht : IsFieldType t) :
    IsFieldType (t.rename f) ↔ ∀ c ∈ t.className, IsClassName (f c) := by
  obtain ⟨hdimensions, ⟨letter, hletter, hbase, hnone⟩ | ⟨hnone, name, hname, -⟩⟩ := ht
  · refine ⟨fun _ c hc => ?_, fun _ => ⟨hdimensions, .inl ⟨letter, hletter, hbase, ?_⟩⟩⟩
    · simp [hnone] at hc
    · simp [FieldType.rename, hnone]
  · simp [IsFieldType, FieldType.rename, hdimensions, hnone, hname]

/-- The name in a well-formed field type is a class name. -/
theorem IsFieldType.isClassName {t : FieldType} (ht : IsFieldType t) :
    ∀ c ∈ t.className, IsClassName c :=
  (isFieldType_rename_iff ht).mp (t.rename_id.symm ▸ ht)

namespace MethodType

/-- Renaming to the same names changes nothing. -/
@[simp] theorem rename_id (m : MethodType) : m.rename id = m := by
  simp [rename]

/-- The class names of a method type, one type after the other. -/
theorem classNames_eq_flatMap (m : MethodType) :
    m.classNames =
      m.parameters.flatMap (·.className.toList) ++ m.returnType.className.toList := by
  rw [classNames, List.filterMap_eq_flatMap_toList, List.flatMap_append, List.flatMap_singleton]

/-- The class names of a method type are those of its parameters and of its result. -/
theorem mem_classNames {m : MethodType} {c : Text} :
    c ∈ m.classNames ↔ (∃ t ∈ m.parameters, c ∈ t.className) ∨ c ∈ m.returnType.className := by
  simp [classNames]

/-- Renaming twice is renaming once. -/
@[simp] theorem rename_rename (f g : Text → Text) (m : MethodType) :
    (m.rename f).rename g = m.rename (g ∘ f) := by
  simp [rename]

/-- Two renamings of a type differ only if they give one of its classes different names. -/
theorem rename_eq_rename_iff {f g : Text → Text} {m : MethodType} :
    m.rename f = m.rename g ↔ ∀ c ∈ m.classNames, f c = g c := by
  constructor
  · intro h
    have hnames := congrArg classNames h
    rw [classNames_rename, classNames_rename] at hnames
    exact List.map_inj_left.mp hnames
  · intro h
    have hparameters : m.parameters.map (·.rename f) = m.parameters.map (·.rename g) :=
      List.map_congr_left fun t ht => FieldType.rename_eq_rename_iff.mpr
        fun c hc => h c (mem_classNames.mpr (.inl ⟨t, ht, hc⟩))
    have hresult : m.returnType.rename f = m.returnType.rename g :=
      FieldType.rename_eq_rename_iff.mpr fun c hc => h c (mem_classNames.mpr (.inr hc))
    rw [rename, rename, hparameters, hresult]

end MethodType

/-- A renamed method type is well formed exactly if the new names are class names. -/
theorem isMethodType_rename_iff {f : Text → Text} {m : MethodType} (hm : IsMethodType m) :
    IsMethodType (m.rename f) ↔ ∀ c ∈ m.classNames, IsClassName (f c) := by
  obtain ⟨hparameters, hresult⟩ := hm
  have hparametersIff : (∀ t ∈ (m.rename f).parameters, IsFieldType t) ↔
      ∀ t ∈ m.parameters, ∀ c ∈ t.className, IsClassName (f c) := by
    rw [MethodType.rename, List.forall_mem_map]
    exact forall₂_congr fun t ht => isFieldType_rename_iff (hparameters t ht)
  have hresultIff : (IsFieldType (m.returnType.rename f) ∨
      m.returnType.rename f = { base := some [voidLetter] }) ↔
        ∀ c ∈ m.returnType.className, IsClassName (f c) := by
    rcases hresult with hvalue | hvoid
    · -- A renamed type can be void only if there is no name in it.
      refine ⟨fun h => ?_, fun h => .inl ((isFieldType_rename_iff hvalue).mpr h)⟩
      rcases h with h | h
      · exact (isFieldType_rename_iff hvalue).mp h
      · have hnone : m.returnType.className = none :=
          Option.map_eq_none_iff.mp (congrArg FieldType.className h)
        simp [hnone]
    · rw [hvoid]
      exact ⟨fun _ c hc => by simp at hc, fun _ => .inr rfl⟩
  rw [IsMethodType, hparametersIff, MethodType.rename, hresultIff]
  simp only [MethodType.mem_classNames]
  constructor
  · intro h c hc
    rcases hc with ⟨t, ht, hc⟩ | hc
    · exact h.1 t ht c hc
    · exact h.2 c hc
  · intro h
    exact ⟨fun t ht c hc => h c (.inl ⟨t, ht, hc⟩), fun c hc => h c (.inr hc)⟩

/-- The names in a well-formed method type are class names. -/
theorem IsMethodType.isClassName {m : MethodType} (hm : IsMethodType m) :
    ∀ c ∈ m.classNames, IsClassName c :=
  (isMethodType_rename_iff hm).mp (m.rename_id.symm ▸ hm)

namespace Descriptor

/-! ## Reading descriptors of types -/

/-- The descriptor of a well-formed method type reads as this type. -/
theorem parseMethod_descriptor {m : MethodType} (hm : IsMethodType m) :
    parseMethod m.descriptor = .ok m := by
  obtain ⟨tree, rfl⟩ := exists_tree_of_isMethodType hm
  rw [tree.descriptor_type, parseMethod_text]

/-- The descriptor of a well-formed field type reads as this type. -/
theorem parseField_descriptor {t : FieldType} (ht : IsFieldType t) :
    parseField t.descriptor = .ok t := by
  obtain ⟨tree, rfl⟩ := exists_tree_of_isFieldType ht
  rw [tree.descriptor_type, parseField_text]

/-- Different well-formed method types have different descriptors. -/
theorem methodDescriptor_inj {m n : MethodType} (hm : IsMethodType m) (hn : IsMethodType n) :
    m.descriptor = n.descriptor ↔ m = n := by
  refine ⟨fun h => ?_, congrArg _⟩
  have hparse := parseMethod_descriptor hm
  rw [h, parseMethod_descriptor hn] at hparse
  exact (Except.ok.inj hparse).symm

/-- Different well-formed field types have different descriptors. -/
theorem fieldDescriptor_inj {t u : FieldType} (ht : IsFieldType t) (hu : IsFieldType u) :
    t.descriptor = u.descriptor ↔ t = u := by
  refine ⟨fun h => ?_, congrArg _⟩
  have hparse := parseField_descriptor ht
  rw [h, parseField_descriptor hu] at hparse
  exact (Except.ok.inj hparse).symm

/-- A text that reads as a method type is the descriptor of a well-formed one. -/
theorem descriptor_of_parseMethod {s : Text} {m : MethodType} (h : parseMethod s = .ok m) :
    IsMethodType m ∧ m.descriptor = s := by
  obtain ⟨tree, rfl, rfl⟩ := exists_tree_of_parseMethod h
  exact ⟨tree.isMethodType, tree.descriptor_type⟩

/-- The grammar derives the descriptors of well-formed field types. -/
theorem parameter_iff_exists_type {d : Text} :
    Grammar.Parameter d ↔ ∃ t : FieldType, IsFieldType t ∧ t.descriptor = d := by
  constructor
  · intro h
    obtain ⟨tree, rfl⟩ := exists_tree_of_parameter h
    exact ⟨tree.type, tree.isFieldType, tree.descriptor_type⟩
  · intro h
    obtain ⟨t, ht, rfl⟩ := h
    obtain ⟨tree, rfl⟩ := exists_tree_of_isFieldType ht
    rw [tree.descriptor_type]
    exact tree.parameter

/-- The grammar derives the descriptors of well-formed method types. -/
theorem method_iff_exists_type {s : Text} :
    Grammar.Method s ↔ ∃ m : MethodType, IsMethodType m ∧ m.descriptor = s := by
  constructor
  · intro h
    obtain ⟨tree, rfl⟩ := exists_tree_of_method h
    exact ⟨tree.type, tree.isMethodType, tree.descriptor_type⟩
  · intro h
    obtain ⟨m, hm, rfl⟩ := h
    obtain ⟨tree, rfl⟩ := exists_tree_of_isMethodType hm
    rw [tree.descriptor_type]
    exact tree.method

/-! ## Renaming descriptors of types -/

/-- The text of a derivation with another class name is the descriptor of the renamed type. -/
theorem ParameterTree.descriptor_rename (f : Text → Text) (t : ParameterTree) :
    (t.type.rename f).descriptor = t.textWith f := by
  induction t with
  | base | object => rfl
  | array element ih =>
      have hlevels : (element.type.dimensions + 1).toNat = element.type.dimensions.toNat + 1 := by
        have := element.type_dimensions_nonneg
        omega
      show List.replicate (element.type.dimensions + 1).toNat (.char '[') ++
        (element.type.rename f).element = _
      rw [hlevels, List.replicate_succ, textWith, ← ih]
      rfl

/-- The text of a derivation with other class names is the descriptor of the renamed type. -/
theorem MethodTree.descriptor_rename (f : Text → Text) (m : MethodTree) :
    (m.type.rename f).descriptor = m.textWith f := by
  have hparameters : (m.type.rename f).parameterDescriptors.flatten =
      m.parameters.flatMap (·.textWith f) := by
    simp [MethodType.parameterDescriptors, MethodType.rename, MethodTree.type, List.flatMap_def,
      Function.comp_def, ParameterTree.descriptor_rename]
  have hresult : (m.type.rename f).returnDescriptor = m.result.textWith f := by
    show (m.result.type.rename f).descriptor = m.result.textWith f
    cases m.result with
    | void => rfl
    | value t => exact t.descriptor_rename f
  rw [MethodType.descriptor, hparameters, hresult, textWith]

/-- Renaming the descriptor of a field type gives the descriptor of the renamed type. -/
theorem renameField_descriptor (f : Text → Text) {t : FieldType} (ht : IsFieldType t) :
    renameField f t.descriptor = .ok (t.rename f).descriptor := by
  obtain ⟨tree, rfl⟩ := exists_tree_of_isFieldType ht
  rw [tree.descriptor_type, renameField_text, tree.descriptor_rename]

/-- Renaming the descriptor of a method type gives the descriptor of the renamed type. -/
theorem renameMethod_descriptor (f : Text → Text) {m : MethodType} (hm : IsMethodType m) :
    renameMethod f m.descriptor = .ok (m.rename f).descriptor := by
  obtain ⟨tree, rfl⟩ := exists_tree_of_isMethodType hm
  rw [tree.descriptor_type, renameMethod_text, tree.descriptor_rename]

/-- The descriptor of a renamed type is read back exactly if the new names are class names. -/
theorem parseMethod_rename_iff {f : Text → Text} {m : MethodType} (hm : IsMethodType m) :
    parseMethod (m.rename f).descriptor = .ok (m.rename f) ↔
      ∀ c ∈ m.classNames, IsClassName (f c) := by
  rw [← isMethodType_rename_iff hm]
  exact ⟨fun h => (descriptor_of_parseMethod h).1, parseMethod_descriptor⟩

/-- Substitution in the descriptor of a field type gives the descriptor of the renamed type. -/
theorem substitute_fieldDescriptor (f : Text → Text) {t : FieldType} (ht : IsFieldType t) :
    substitute f t.descriptor = (t.rename f).descriptor := by
  obtain ⟨tree, rfl⟩ := exists_tree_of_isFieldType ht
  have htext := substitute_text f tree []
  rw [List.append_nil, substitute, List.append_nil] at htext
  rw [tree.descriptor_type, htext, tree.descriptor_rename]

/-- Substitution in the descriptor of a method type gives the descriptor of the renamed type. -/
theorem substitute_methodDescriptor (f : Text → Text) {m : MethodType} (hm : IsMethodType m) :
    substitute f m.descriptor = (m.rename f).descriptor := by
  obtain ⟨tree, rfl⟩ := exists_tree_of_isMethodType hm
  rw [tree.descriptor_type, substitute_method, tree.descriptor_rename]

/-! ## The names in a descriptor -/

/-- The class names among tokens after tokens. -/
@[simp] theorem namesOfTokens_append (tokens more : List Token) :
    namesOfTokens (tokens ++ more) = namesOfTokens tokens ++ namesOfTokens more :=
  List.filterMap_append

/-- The tokens of a type hold its class name. -/
@[simp] theorem ParameterTree.namesOfTokens_tokens (t : ParameterTree) (pos : Nat) :
    namesOfTokens (t.tokens pos) = t.type.className.toList := by
  induction t generalizing pos with
  | base | object => rfl
  | array element ih => exact ih (pos + 1)

/-- The tokens of parameters hold their class names. -/
theorem namesOfTokens_parameterTokens (ts : List ParameterTree) (pos : Nat) :
    namesOfTokens (parameterTokens pos ts) = ts.flatMap (·.type.className.toList) := by
  induction ts generalizing pos with
  | nil => rfl
  | cons t ts ih =>
      rw [parameterTokens, namesOfTokens_append, t.namesOfTokens_tokens, ih, List.flatMap_cons]

/-- The class names of a descriptor are those of its type. -/
theorem classNames_descriptor {m : MethodType} (hm : IsMethodType m) :
    classNames m.descriptor = .ok m.classNames := by
  obtain ⟨tree, rfl⟩ := exists_tree_of_isMethodType hm
  have hresult (pos : Nat) :
      namesOfTokens (tree.result.tokens pos) = tree.result.type.className.toList := by
    cases tree.result with
    | void => rfl
    | value t => exact t.namesOfTokens_tokens pos
  have hnames : namesOfTokens tree.tokens = tree.type.classNames := by
    calc namesOfTokens tree.tokens
        = namesOfTokens (parameterTokens 1 tree.parameters) ++
            namesOfTokens (tree.result.tokens (tree.resultOffset + 1)) := by
          rw [MethodTree.tokens, namesOfTokens_append, namesOfTokens_append]
          exact List.append_nil _
      _ = tree.type.classNames := by
          rw [namesOfTokens_parameterTokens, hresult, MethodType.classNames_eq_flatMap,
            MethodTree.type, List.flatMap_map]
  rw [classNames, tree.descriptor_type, scanMethod_text, Scan.complete, ← hnames]
  rfl

/-- An array marker in front of a descriptor changes nothing about the name in it. -/
theorem fieldReferences_array (d : Text) :
    fieldReferences (.char '[' :: d) = fieldReferences d := by
  have hmarker : isObjectDescriptor (.char '[' :: d) = isObjectDescriptor d := rfl
  unfold fieldReferences
  rw [hmarker]
  split
  · next hobject =>
    -- The offsets in the faults differ, but the names are the same.
    have hname (name : Text) : referencedName (.char '[' :: d) = .ok name ↔
        referencedName d = .ok name :=
      (referencedName_eq_ok_iff (hmarker.trans hobject)).trans
        (referencedName_eq_ok_iff hobject).symm
    cases hd : referencedName d with
    | ok name => rw [(hname name).mpr hd]
    | error fault =>
        cases harray : referencedName (.char '[' :: d) with
        | ok name => cases hd.symm.trans ((hname name).mp harray)
        | error fault => rfl
  · rfl

/-- Renaming the descriptor of a field type looks up the name in the type. -/
theorem fieldReferences_descriptor {t : FieldType} (ht : IsFieldType t) :
    fieldReferences t.descriptor = t.className.toList := by
  obtain ⟨tree, rfl⟩ := exists_tree_of_isFieldType ht
  rw [tree.descriptor_type]
  induction tree with
  | base letter valid =>
      obtain ⟨hbracket, hclass, -, -⟩ := letter_ne_of_mem valid
      simp [fieldReferences, isObjectDescriptor, elementPart, hbracket, hclass,
        ParameterTree.type]
  | object name valid =>
      have hobject : isObjectDescriptor (.char 'L' :: name ++ [.char ';']) = true := rfl
      rw [ParameterTree.text_object, fieldReferences, if_pos hobject,
        (referencedName_eq_ok_iff hobject).mpr ⟨valid, rfl⟩]
      rfl
  | array element ih =>
      rw [ParameterTree.text_array, fieldReferences_array, ih element.isFieldType]
      rfl

/-- Renaming the descriptor of a method type looks up the names in the type. -/
theorem methodReferences_descriptor {m : MethodType} (hm : IsMethodType m) :
    methodReferences m.descriptor = m.classNames := by
  have hparameters : m.parameterDescriptors.flatMap fieldReferences =
      m.parameters.flatMap (·.className.toList) := by
    rw [MethodType.parameterDescriptors, List.flatMap_map]
    exact List.flatMap_congr fun t ht => fieldReferences_descriptor (hm.1 t ht)
  have hresult : fieldReferences m.returnDescriptor = m.returnType.className.toList := by
    rcases hm.2 with hvalue | hvoid
    · exact fieldReferences_descriptor hvalue
    · rw [MethodType.returnDescriptor, hvoid]
      rfl
  rw [methodReferences, parseMethod_descriptor hm, MethodType.classNames_eq_flatMap]
  simp only [List.flatMap_append, List.flatMap_singleton, hparameters, hresult]

/-- Renaming a field descriptor looks up the name that is read in it, and nothing in a text that
is no descriptor. -/
theorem fieldReferences_eq (d : Text) :
    fieldReferences d = ((parseField d).map (·.className.toList)).toOption.getD [] := by
  cases hparse : parseField d with
  | ok t =>
      obtain ⟨tree, rfl, rfl⟩ := exists_tree_of_parseField hparse
      rw [← tree.descriptor_type, fieldReferences_descriptor tree.isFieldType]
      rfl
  | error fault =>
      rw [fieldReferences]
      split
      · next hobject =>
        cases hname : referencedName d with
        | error fault => rfl
        | ok name =>
            -- A name that is found belongs to a derivation, and so the text would be read.
            have hrename : renameField id d =
                .ok (arrayMarkers d ++ .char 'L' :: id name ++ [.char ';']) := by
              rw [renameField, if_pos hobject, hname]
              rfl
            obtain ⟨tree, rfl, -⟩ := exists_tree_of_renameField hobject hrename
            rw [parseField_text] at hparse
            cases hparse
      · rfl

/-- Renaming a method descriptor looks up the names that are read in it, and nothing in a text
that is no descriptor. -/
theorem methodReferences_eq (s : Text) :
    methodReferences s = (classNames s).toOption.getD [] := by
  cases hparse : parseMethod s with
  | ok m =>
      obtain ⟨hm, rfl⟩ := descriptor_of_parseMethod hparse
      rw [methodReferences_descriptor hm, classNames_descriptor hm]
      rfl
  | error fault =>
      rw [methodReferences, hparse, classNames]
      cases hscan : (scanMethod s).complete s with
      | error fault => rfl
      | ok tokens => simp [parseMethod, hscan, Except.map] at hparse

/-- The descriptor of a field type with a class name holds the reference to the class. -/
theorem reference_infix_fieldDescriptor {t : FieldType} {c : Text} (hc : c ∈ t.className) :
    .char 'L' :: c ++ [.char ';'] <:+: t.descriptor := by
  have helement : t.element = .char 'L' :: c ++ [.char ';'] := by
    rw [FieldType.element, Option.mem_def.mp hc]
  rw [FieldType.descriptor, helement]
  exact (List.suffix_append _ _).isInfix

/-- The descriptor of a method type with a class name holds the reference to the class. -/
theorem reference_infix_methodDescriptor {m : MethodType} {c : Text} (hc : c ∈ m.classNames) :
    .char 'L' :: c ++ [.char ';'] <:+: m.descriptor := by
  rcases MethodType.mem_classNames.mp hc with ⟨t, ht, hc⟩ | hc
  · have hparameter : t.descriptor <:+: m.parameterDescriptors.flatten :=
      List.infix_of_mem_flatten (List.mem_map_of_mem ht)
    have hparameters : m.parameterDescriptors.flatten <:+: m.descriptor :=
      ⟨[.char '('], .char ')' :: m.returnDescriptor, rfl⟩
    exact ((reference_infix_fieldDescriptor hc).trans hparameter).trans hparameters
  · have hresult : m.returnDescriptor <:+: m.descriptor :=
      ((List.suffix_cons _ _).trans (List.suffix_append _ _)).isInfix
    exact (reference_infix_fieldDescriptor hc).trans hresult

/-- The descriptor of a field type with a class name holds the letter in front of it. -/
theorem classMarker_mem_fieldDescriptor {t : FieldType} {c : Text} (hc : c ∈ t.className) :
    .char 'L' ∈ t.descriptor :=
  (reference_infix_fieldDescriptor hc).subset List.mem_cons_self

/-- The descriptor of a method type with a class name holds the letter in front of it. -/
theorem classMarker_mem_methodDescriptor {m : MethodType} {c : Text} (hc : c ∈ m.classNames) :
    .char 'L' ∈ m.descriptor :=
  (reference_infix_methodDescriptor hc).subset List.mem_cons_self

end Descriptor
end Remapping
