import Remapping.Proofs.Descriptor.RenamedTypes

/-!
# Where types end

Every semicolon in a method descriptor ends a type, whoever put it there. So if renaming puts
semicolons into a descriptor, the types of the result may be other ones, but they still end where
a renamed type ends. Read `MethodTail.of_semicolon` first; `names_ne_nil_of_parseMethod` is what
comes of it: a descriptor with an empty name is never read again.
-/

namespace Remapping.Descriptor

/-- What stands in a method descriptor from the end of a parameter on: more parameters, the
closing parenthesis and the result. -/
def MethodTail (d : Text) : Prop :=
  ∃ (ts : List ParameterTree) (r : ResultTree),
    d = ts.flatMap ParameterTree.text ++ .char ')' :: r.text

/-- The letter of a base type is no semicolon. -/
theorem semicolon_notMem_valueLetters : .char ';' ∉ valueLetters := by decide

/-! ## Semicolons -/

/-- A semicolon in a descriptor and what follows it ends the descriptor or stands behind it. -/
theorem ParameterTree.end_of_semicolon {t : ParameterTree} {before rest more : Text}
    (h : t.text ++ more = before ++ .char ';' :: rest) :
    rest = more ∨ ∃ between, more = between ++ .char ';' :: rest := by
  induction t generalizing before with
  | base letter valid =>
      cases before with
      | nil =>
          have hletter : letter = ';' := (List.cons.inj h).1
          exact absurd (hletter ▸ valid) semicolon_notMem_valueLetters
      | cons c before => exact .inr ⟨before, (List.cons.inj h).2⟩
  | object name valid =>
      cases before with
      | nil => exact absurd (List.cons.inj h).1 (by decide)
      | cons c before =>
          have hname : name ++ .char ';' :: more = before ++ .char ';' :: rest := by
            simpa using (List.cons.inj h).2
          -- The first semicolon is the one behind the name.
          rcases List.append_eq_append_iff.mp hname with
            ⟨between, rfl, hmore⟩ | ⟨between, rfl, hrest⟩
          · cases between with
            | nil => exact .inl (List.cons.inj hmore).2.symm
            | cons d between => exact .inr ⟨between, (List.cons.inj hmore).2⟩
          · cases between with
            | nil => exact .inl (List.cons.inj hrest).2
            | cons d between =>
                have hd : d = ';' := (List.cons.inj hrest).1.symm
                exact absurd (by simp [hd]) valid.2
  | array element ih =>
      cases before with
      | nil => exact absurd (List.cons.inj h).1 (by decide)
      | cons c before => exact ih (List.cons.inj h).2

/-- Behind a semicolon nothing is left of a method descriptor, or parameters go on. -/
theorem MethodTail.of_semicolon {before rest : Text}
    (h : MethodTail (before ++ .char ';' :: rest)) : rest = [] ∨ MethodTail rest := by
  obtain ⟨ts, r, h⟩ := h
  induction ts generalizing before with
  | nil =>
      cases before with
      | nil => exact absurd (List.cons.inj h).1 (by decide)
      | cons c before =>
          have hresult : before ++ .char ';' :: rest = r.text := (List.cons.inj h).2
          cases r with
          | void =>
              have hmem : .char ';' ∈ ResultTree.void.text := hresult ▸ by simp
              exact absurd hmem (by decide)
          | value t =>
              have htext : t.text ++ [] = before ++ .char ';' :: rest := by
                rw [List.append_nil, hresult, ResultTree.text_value]
              rcases ParameterTree.end_of_semicolon htext with hrest | ⟨between, hnil⟩
              · exact .inl hrest
              · simp at hnil
  | cons t ts ih =>
      rw [List.flatMap_cons, List.append_assoc] at h
      rcases ParameterTree.end_of_semicolon h.symm with hrest | ⟨between, hmore⟩
      · exact .inr ⟨ts, r, hrest⟩
      · exact ih hmore.symm

/-! ## Renamed types -/

/-- The descriptor of a renamed type has its text or ends with a semicolon. -/
theorem ParameterTree.textWith_cases (f : Text → Text) (t : ParameterTree) :
    t.textWith f = t.text ∨ ∃ before, t.textWith f = before ++ [.char ';'] := by
  rcases t.text_cases with ⟨-, htext⟩ | ⟨name, -, -, htext⟩
  · exact .inl (htext f)
  · exact .inr ⟨_, htext f⟩

/-- No renamed type starts with the parenthesis that closes the parameters. -/
theorem ParameterTree.exists_textWith_eq_cons (f : Text → Text) (t : ParameterTree) :
    ∃ c cs, t.textWith f = c :: cs ∧ c ≠ ')' := by
  cases t with
  | base letter valid => exact ⟨letter, [], rfl, (letter_ne_of_mem valid).2.2.1⟩
  | object name valid => exact ⟨'L', f name ++ [.char ';'], rfl, by decide⟩
  | array element => exact ⟨'[', element.textWith f, rfl, by decide⟩

/-- A renamed type starts like a descriptor only if its new name is not empty. -/
theorem ParameterTree.name_ne_nil {f : Text → Text} {t u : ParameterTree} {rest more : Text}
    (h : t.textWith f ++ rest = u.text ++ more) : ∀ c ∈ t.type.className, f c ≠ [] := by
  induction t generalizing u with
  | base => exact fun c hc => by simp [type] at hc
  | object name valid =>
      intro c hc hempty
      obtain rfl : name = c := Option.some.inj hc
      cases u with
      | base other other_valid =>
          exact absurd (List.cons.inj h).1.symm (letter_ne_of_mem other_valid).2.1
      | object other other_valid =>
          -- The name of `u` would have to start with the semicolon.
          obtain ⟨c, other, rfl⟩ := List.exists_cons_of_ne_nil other_valid.1
          have hfirst : ';' = c := by
            have := (List.cons.inj h).2
            rw [hempty] at this
            exact (List.cons.inj this).1
          exact other_valid.2 (hfirst ▸ List.mem_cons_self)
      | array => exact absurd (List.cons.inj h).1 (by decide)
  | array element ih =>
      cases u with
      | base other other_valid =>
          exact absurd (List.cons.inj h).1.symm (letter_ne_of_mem other_valid).1
      | object => exact absurd (List.cons.inj h).1 (by decide)
      | array other => exact ih (List.cons.inj h).2

/-- A renamed result is the descriptor of a result only if its new name is not empty. -/
theorem ResultTree.name_ne_nil {f : Text → Text} {r q : ResultTree}
    (h : r.textWith f = q.text) : ∀ c ∈ r.type.className, f c ≠ [] := by
  cases r with
  | void => exact fun c hc => by simp [type] at hc
  | value t =>
      cases q with
      | value u => exact ParameterTree.name_ne_nil (congrArg (· ++ []) h)
      | void =>
          cases t with
          | base => exact fun c hc => by simp [type, ParameterTree.type] at hc
          | object => exact absurd (List.cons.inj h).1 (by decide)
          | array => exact absurd (List.cons.inj h).1 (by decide)

/-- A renamed parameter that starts the rest of a method descriptor has a new name that is not
empty, and what follows it is nothing or such a rest again. -/
theorem MethodTail.of_textWith {f : Text → Text} {t : ParameterTree} {rest : Text}
    (h : MethodTail (t.textWith f ++ rest)) :
    (∀ c ∈ t.type.className, f c ≠ []) ∧ (rest = [] ∨ MethodTail rest) := by
  obtain ⟨us, r, hus⟩ := id h
  cases us with
  | nil =>
      obtain ⟨c, cs, htext, hc⟩ := t.exists_textWith_eq_cons f
      rw [htext] at hus
      exact absurd (List.cons.inj hus).1 hc
  | cons u us =>
      rw [List.flatMap_cons, List.append_assoc] at hus
      refine ⟨ParameterTree.name_ne_nil hus, ?_⟩
      rcases t.textWith_cases f with htext | ⟨before, hbefore⟩
      · rw [htext] at hus
        exact .inr ⟨us, r, (ParameterTree.text_append_inj hus).2⟩
      · rw [hbefore, List.append_assoc] at h
        exact h.of_semicolon

/-- Renamed parameters up to the closing parenthesis have new names that are not empty, and the
parenthesis closes the parameters. -/
theorem MethodTail.of_parameters {f : Text → Text} {ts : List ParameterTree} {rest : Text}
    (h : MethodTail (ts.flatMap (·.textWith f) ++ .char ')' :: rest)) :
    (∀ t ∈ ts, ∀ c ∈ t.type.className, f c ≠ []) ∧ MethodTail (.char ')' :: rest) := by
  induction ts with
  | nil => exact ⟨by simp, h⟩
  | cons t ts ih =>
      rw [List.flatMap_cons, List.append_assoc] at h
      obtain ⟨hname, hrest⟩ := h.of_textWith
      rcases hrest with hnil | htail
      · simp at hnil
      · obtain ⟨hnames, hresult⟩ := ih htail
        exact ⟨List.forall_mem_cons.mpr ⟨hname, hnames⟩, hresult⟩

/-- If the descriptor of a renamed type is read as any type at all, then no new name is empty. -/
theorem names_ne_nil_of_parseMethod {f : Text → Text} {m n : MethodType} (hm : IsMethodType m)
    (h : parseMethod (m.rename f).descriptor = .ok n) : ∀ c ∈ m.classNames, f c ≠ [] := by
  obtain ⟨tree, rfl⟩ := exists_tree_of_isMethodType hm
  obtain ⟨other, htext, -⟩ := exists_tree_of_parseMethod h
  rw [tree.descriptor_rename, other.text_eq, MethodTree.textWith] at htext
  have htail : MethodTail (tree.parameters.flatMap (·.textWith f) ++
      .char ')' :: tree.result.textWith f) :=
    ⟨other.parameters, other.result, (List.cons.inj htext).2.symm⟩
  obtain ⟨hparameters, us, q, hresult⟩ := htail.of_parameters
  -- No parameter starts with the parenthesis, so the result follows it at once.
  have hnone : [].flatMap ParameterTree.text ++ .char ')' :: tree.result.textWith f =
      us.flatMap ParameterTree.text ++ .char ')' :: q.text := hresult
  have hq : tree.result.textWith f = q.text := (parameters_append_inj hnone).2
  intro c hc
  rcases MethodType.mem_classNames.mp hc with ⟨type, htype, hc⟩ | hc
  · obtain ⟨t, ht, rfl⟩ := List.mem_map.mp htype
    exact hparameters t ht c hc
  · exact ResultTree.name_ne_nil hq c hc

/-! ## Names with semicolons -/

/-- The type of a method with one parameter, which is a class, and without a result. -/
def unaryType (name : Text) : MethodType where
  parameters := [{ className := some name }]
  returnType := { base := some [voidLetter] }

/-- The type of a method with a class for its parameter is well formed if the name is. -/
theorem isMethodType_unaryType {name : Text} (h : IsClassName name) :
    IsMethodType (unaryType name) := by
  refine ⟨fun t ht => ?_, .inr rfl⟩
  obtain rfl := List.mem_singleton.mp ht
  exact ⟨Int.le_refl 0, .inr ⟨rfl, name, rfl, h⟩⟩

/-- If a class gets a name that holds the end of a type and the start of another one, then one
parameter is read again as two. -/
theorem parseMethod_unaryType_rename {f : Text → Text} {c x y : Text} (hx : IsClassName x)
    (hy : IsClassName y) (hc : f c = x ++ .char ';' :: .char 'L' :: y) :
    parseMethod ((unaryType c).rename f).descriptor =
      .ok ⟨[{ className := some x }, { className := some y }],
        { base := some [voidLetter] }⟩ := by
  have htwo : IsMethodType ⟨[{ className := some x }, { className := some y }],
      { base := some [voidLetter] }⟩ := by
    refine ⟨List.forall_mem_cons.mpr ⟨?_, List.forall_mem_singleton.mpr ?_⟩, .inr rfl⟩
    · exact ⟨Int.le_refl 0, .inr ⟨rfl, x, rfl, hx⟩⟩
    · exact ⟨Int.le_refl 0, .inr ⟨rfl, y, rfl, hy⟩⟩
  rw [← parseMethod_descriptor htwo]
  simp [MethodType.descriptor, MethodType.parameterDescriptors, MethodType.returnDescriptor,
    MethodType.rename, unaryType, FieldType.descriptor, FieldType.element, FieldType.rename, hc]

end Remapping.Descriptor
