import Remapping.Descriptor.Rename
import Remapping.Proofs.Descriptor.Reading

/-!
# Renaming is substitution

The renamers of descriptors against the derivations of the grammar. Read `renameField_text` and
`renameMethod_eq_ok_iff` first: a derivation's text is renamed to the text with the other names,
and a descriptor with a class is renamed only if it has a derivation.

`substitute` is the reference that knows no grammar: it reads a text once from left to right.
`substitute_text` and `substitute_method` say that it does to derivations what the renamers do.
-/

namespace Remapping.Descriptor

/-! ## Field descriptors -/

/-- A descriptor that starts like a class or an array of a class names one exactly if a class
name and a semicolon follow the marker. -/
theorem referencedName_eq_ok_iff {d name : Text} (hobject : isObjectDescriptor d = true) :
    referencedName d = .ok name ↔
      IsClassName name ∧ elementPart d = .char 'L' :: name ++ [.char ';'] := by
  obtain ⟨cs, hcs⟩ : ∃ cs, elementPart d = .char 'L' :: cs :=
    List.head?_eq_some_iff.mp (of_decide_eq_true hobject)
  simp only [referencedName, hcs, List.drop_succ_cons, List.drop_zero]
  constructor
  · intro h
    split at h
    · simp at h
    · next hlast =>
      split at h
      · simp at h
      · next hname =>
        split at h
        · simp at h
        · next hsemicolon =>
          obtain rfl := Except.ok.inj h
          refine ⟨⟨hname, hsemicolon⟩, ?_⟩
          obtain ⟨init, hinit⟩ := List.getLast?_eq_some_iff.mp (not_not.mp hlast)
          cases init with
          | nil => exact absurd (List.cons.inj hinit).1 (by decide)
          | cons c init =>
              obtain ⟨rfl, rfl⟩ := List.cons.inj hinit
              simp
  · intro h
    obtain ⟨⟨hname, hsemicolon⟩, h⟩ := h
    obtain rfl : cs = name ++ [.char ';'] := (List.cons.inj h).2
    have hlast : (CodePoint.char 'L' :: (name ++ [.char ';'])).getLast? = some (.char ';') := by
      rw [← List.cons_append, List.getLast?_concat]
    simp [hlast, hname, hsemicolon]

/-- A derivation refers to a class, below its array markers, or has no class to rename. -/
theorem ParameterTree.text_cases (t : ParameterTree) :
    (isObjectDescriptor t.text = false ∧ ∀ f, t.textWith f = t.text) ∨
      ∃ name, IsClassName name ∧ elementPart t.text = .char 'L' :: name ++ [.char ';'] ∧
        ∀ f, t.textWith f = arrayMarkers t.text ++ .char 'L' :: f name ++ [.char ';'] := by
  induction t with
  | base letter valid =>
      obtain ⟨hbracket, hclass, -, -⟩ := letter_ne_of_mem valid
      refine .inl ⟨?_, fun f => rfl⟩
      simp [isObjectDescriptor, elementPart, hbracket, hclass]
  | object name valid => exact .inr ⟨name, valid, rfl, fun f => rfl⟩
  | array element ih =>
      rcases ih with ⟨hobject, htext⟩ | ⟨name, valid, helement, htext⟩
      · exact .inl ⟨hobject, fun f => congrArg (CodePoint.char '[' :: ·) (htext f)⟩
      · exact .inr ⟨name, valid, helement, fun f => congrArg (CodePoint.char '[' :: ·) (htext f)⟩

/-- The text of a derivation is renamed to the text with the other name. -/
theorem renameField_text (f : Text → Text) (t : ParameterTree) :
    renameField f t.text = .ok (t.textWith f) := by
  rcases t.text_cases with ⟨hobject, htext⟩ | ⟨name, valid, helement, htext⟩
  · rw [renameField, if_neg (by simp [hobject]), htext]
  · have hobject : isObjectDescriptor t.text = true := by
      simp [isObjectDescriptor, helement]
    rw [renameField, if_pos hobject,
      (referencedName_eq_ok_iff hobject).mpr ⟨valid, helement⟩, htext]
    rfl

/-- Array markers in front of a derivation belong to a derivation. -/
theorem exists_tree_below {markers : Text} (h : ∀ c ∈ markers, c = '[') (t : ParameterTree) :
    ∃ u : ParameterTree, ∀ f, u.textWith f = markers ++ t.textWith f := by
  induction markers with
  | nil => exact ⟨t, fun f => rfl⟩
  | cons c markers ih =>
      obtain ⟨u, hu⟩ := ih fun c hc => h c (by simp [hc])
      refine ⟨.array u, fun f => ?_⟩
      rw [h c (by simp), ParameterTree.textWith, hu f, List.cons_append]

/-- A descriptor that starts like a class or an array of a class is renamed only if the grammar
derives it. -/
theorem exists_tree_of_renameField {f : Text → Text} {d d' : Text}
    (hobject : isObjectDescriptor d = true) (h : renameField f d = .ok d') :
    ∃ t : ParameterTree, t.text = d ∧ t.textWith f = d' := by
  rw [renameField, if_pos hobject] at h
  cases hname : referencedName d with
  | error fault => simp [hname, Except.map] at h
  | ok name =>
      obtain ⟨valid, helement⟩ := (referencedName_eq_ok_iff hobject).mp hname
      have hmarkers : ∀ c ∈ arrayMarkers d, c = '[' := fun c hc =>
        of_decide_eq_true (List.all_eq_true.mp List.all_takeWhile c hc)
      -- The renamer looks at the element alone; the derivation needs the markers back.
      obtain ⟨t, ht⟩ := exists_tree_below hmarkers (.object name valid)
      refine ⟨t, ?_, ?_⟩
      · rw [ParameterTree.text, ht id]
        conv => rhs; rw [← List.takeWhile_append_dropWhile (p := (· = .char '[')) (l := d)]
        exact congrArg (arrayMarkers d ++ ·) helement.symm
      · simp only [hname, Except.map, Except.ok.injEq] at h
        rw [ht f, ← h]
        simp [ParameterTree.textWith]

/-! ## Method descriptors -/

/-- The descriptors of derived parameters are renamed one by one. -/
theorem renameFields_text (f : Text → Text) (ts : List ParameterTree) :
    renameFields f (ts.map ParameterTree.text) = .ok (ts.map (·.textWith f)) := by
  induction ts with
  | nil => rfl
  | cons t ts ih =>
      simp only [List.map_cons, renameFields, renameField_text, ih]
      rfl

/-- The descriptor of a result is renamed to the text with the other name. -/
theorem renameField_result (f : Text → Text) (r : ResultTree) :
    renameField f r.text = .ok (r.textWith f) := by
  cases r with
  | void => rfl
  | value t => exact renameField_text f t

/-- The text of a derivation is renamed to the text with the other names. -/
theorem renameMethod_text (f : Text → Text) (m : MethodTree) :
    renameMethod f m.text = .ok (m.textWith f) := by
  simp only [renameMethod, parseMethod_text, bind, Except.bind, m.parameterDescriptors_type,
    renameFields_text, m.returnDescriptor_type, renameField_result]
  rfl

/-- A method descriptor is renamed exactly if the grammar derives it, and to the text of its
derivation with the other names. -/
theorem renameMethod_eq_ok_iff {f : Text → Text} {s s' : Text} :
    renameMethod f s = .ok s' ↔ ∃ m : MethodTree, m.text = s ∧ m.textWith f = s' := by
  constructor
  · intro h
    cases hparse : parseMethod s with
    | error fault => simp [renameMethod, hparse, bind, Except.bind] at h
    | ok method =>
        obtain ⟨m, rfl, -⟩ := exists_tree_of_parseMethod hparse
        rw [renameMethod_text] at h
        exact ⟨m, rfl, Except.ok.inj h⟩
  · intro h
    obtain ⟨m, rfl, rfl⟩ := h
    exact renameMethod_text f m

/-! ## Substitution -/

/-- Reads a text from left to right and gives every class reference another name: what stands
between an `L` and the next semicolon. All other characters stay. -/
def substitute (f : Text → Text) : Text → Text
  | [] => []
  | c :: cs =>
    if c = 'L' then
      .char 'L' :: f (cs.takeWhile (· != .char ';')) ++ substitute f (cs.dropWhile (· != .char ';'))
    else c :: substitute f cs
termination_by d => d.length
decreasing_by
  · exact Nat.lt_succ_of_le (List.dropWhile_suffix _).length_le
  · exact Nat.lt_succ_self _

/-- Substitution keeps a character that starts no class reference. -/
theorem substitute_cons_of_ne (f : Text → Text) {c : CodePoint} (hc : c ≠ 'L') (cs : Text) :
    substitute f (c :: cs) = c :: substitute f cs := by
  rw [substitute, if_neg hc]

/-- Substitution gives a derived type its other name and goes on behind it. -/
theorem substitute_text (f : Text → Text) (t : ParameterTree) (rest : Text) :
    substitute f (t.text ++ rest) = t.textWith f ++ substitute f rest := by
  induction t with
  | base letter valid =>
      exact substitute_cons_of_ne f (letter_ne_of_mem valid).2.1 rest
  | object name valid =>
      rw [ParameterTree.text_object, List.append_assoc, List.cons_append, List.singleton_append,
        substitute, if_pos rfl, Text.takeWhile_append_separator valid.2,
        Text.dropWhile_append_separator valid.2, substitute_cons_of_ne f (by decide)]
      simp [ParameterTree.textWith]
  | array element ih =>
      rw [ParameterTree.text_array, List.cons_append, substitute_cons_of_ne f (by decide), ih]
      rfl

/-- Substitution does to a derived method descriptor what the renamer does. -/
theorem substitute_method (f : Text → Text) (m : MethodTree) :
    substitute f m.text = m.textWith f := by
  have hparameters (ts : List ParameterTree) (rest : Text) :
      substitute f (ts.flatMap ParameterTree.text ++ rest) =
        ts.flatMap (·.textWith f) ++ substitute f rest := by
    induction ts with
    | nil => rfl
    | cons t ts ih =>
        rw [List.flatMap_cons, List.append_assoc, substitute_text, ih, List.flatMap_cons,
          List.append_assoc]
  have hresult : substitute f m.result.text = m.result.textWith f := by
    cases m.result with
    | void => simp [substitute, ResultTree.textWith, voidLetter]
    | value t => simpa [substitute, ResultTree.textWith] using substitute_text f t []
  rw [m.text_eq, substitute_cons_of_ne f (by decide), hparameters,
    substitute_cons_of_ne f (by decide), hresult]
  rfl

end Remapping.Descriptor
