import Mathlib.Data.Set.Function
import Remapping.Proofs.Mapping.RemappedDescriptors

/-!
# Distinct descriptors

Remapping keeps different descriptors apart exactly if it keeps the names in them apart. Read
`remap_distinct` first. The names may be infinitely many, and what is needed of them is only that
they are resolved to class names: then a remapped descriptor is a descriptor again, and any way
back on the names is a way back on the descriptors (`remapMethod_undo`).
-/

namespace Remapping

open Descriptor

/-! ## Types -/

/-- A renaming of a field type is undone by one that undoes it on the name in it. -/
theorem FieldType.rename_undo {f g : Text → Text} {t : FieldType}
    (h : ∀ c ∈ t.className, g (f c) = c) : (t.rename f).rename g = t := by
  calc (t.rename f).rename g = t.rename (g ∘ f) := t.rename_rename f g
    _ = t.rename id := FieldType.rename_eq_rename_iff.mpr h
    _ = t := t.rename_id

/-- A renaming of a method type is undone by one that undoes it on the names in it. -/
theorem MethodType.rename_undo {f g : Text → Text} {m : MethodType}
    (h : ∀ c ∈ m.classNames, g (f c) = c) : (m.rename f).rename g = m := by
  calc (m.rename f).rename g = m.rename (g ∘ f) := m.rename_rename f g
    _ = m.rename id := MethodType.rename_eq_rename_iff.mpr h
    _ = m := m.rename_id

/-! ## Descriptors over some names -/

/-- The method descriptors whose class names are among some names. -/
def methodsOver (names : Set Text) : Set Text :=
  {s | ∃ m, parseMethod s = .ok m ∧ ∀ c ∈ m.classNames, c ∈ names}

/-- The field descriptors whose class name, if there is one, is among some names. -/
def fieldsOver (names : Set Text) : Set Text :=
  {d | ∃ t, parseField d = .ok t ∧ ∀ c ∈ t.className, c ∈ names}

/-- What can be undone keeps texts apart. -/
theorem injOn_of_undo {ε : Type} {remap undo : Text → Except ε Text} {texts : Set Text}
    (h : ∀ t ∈ texts, ∃ t', remap t = .ok t' ∧ undo t' = .ok t) : Set.InjOn remap texts := by
  intro t ht u hu heq
  obtain ⟨t', ht', hundo⟩ := h t ht
  obtain ⟨u', hu', hundo'⟩ := h u hu
  rw [ht', hu'] at heq
  cases heq
  exact Except.ok.inj (hundo.symm.trans hundo')

section Over

variable {table : SymbolTable} {names : Set Text}

section Resolved

variable (hresolve : ∀ n ∈ names, IsClassName (table.resolve n))

include hresolve

/-- A renaming that undoes a table on some names undoes it on the method descriptors over them. -/
theorem remapMethod_undo {back : Text → Text} (hback : ∀ n ∈ names, back (table.resolve n) = n) :
    ∀ s ∈ methodsOver names, ∃ s', remapMethod table s = .ok s' ∧ renameMethod back s' = .ok s := by
  intro s hs
  obtain ⟨m, hparse, hover⟩ := hs
  obtain ⟨hm, rfl⟩ := descriptor_of_parseMethod hparse
  have hrenamed := (isMethodType_rename_iff hm).mpr fun c hc => hresolve c (hover c hc)
  refine ⟨_, remapMethod_descriptor table hm, ?_⟩
  rw [renameMethod_descriptor back hrenamed,
    MethodType.rename_undo fun c hc => hback c (hover c hc)]

/-- A renaming that undoes a table on some names undoes it on the field descriptors over them. -/
theorem remapField_undo {back : Text → Text} (hback : ∀ n ∈ names, back (table.resolve n) = n) :
    ∀ d ∈ fieldsOver names, ∃ d', remapField table d = .ok d' ∧ renameField back d' = .ok d := by
  intro d hd
  obtain ⟨t, hparse, hover⟩ := hd
  obtain ⟨tree, rfl, rfl⟩ := exists_tree_of_parseField hparse
  have hrenamed := (isFieldType_rename_iff tree.isFieldType).mpr fun c hc => hresolve c (hover c hc)
  rw [← tree.descriptor_type]
  refine ⟨_, remapField_descriptor table tree.isFieldType, ?_⟩
  rw [renameField_descriptor back hrenamed,
    FieldType.rename_undo fun c hc => hback c (hover c hc)]

/-- A table that keeps some names apart keeps the method descriptors over them apart. -/
theorem injOn_remapMethod (h : Set.InjOn table.resolve names) :
    Set.InjOn (remapMethod table) (methodsOver names) :=
  injOn_of_undo (remapMethod_undo hresolve fun _ hn => h.leftInvOn_invFunOn hn)

/-- A table that keeps some names apart keeps the field descriptors over them apart. -/
theorem injOn_remapField (h : Set.InjOn table.resolve names) :
    Set.InjOn (remapField table) (fieldsOver names) :=
  injOn_of_undo (remapField_undo hresolve fun _ hn => h.leftInvOn_invFunOn hn)

/-- Two method descriptors are remapped to one only if two names in them are resolved to one. -/
theorem exists_same_name {s s' : Text} (hs : s ∈ methodsOver names) (hs' : s' ∈ methodsOver names)
    (hne : s ≠ s') (h : remapMethod table s = remapMethod table s') :
    ∃ used used' a b, classNames s = .ok used ∧ classNames s' = .ok used' ∧
      a ∈ used ++ used' ∧ b ∈ used ++ used' ∧ a ≠ b ∧ table.resolve a = table.resolve b := by
  obtain ⟨m, hparse, hover⟩ := hs
  obtain ⟨m', hparse', hover'⟩ := hs'
  obtain ⟨hm, rfl⟩ := descriptor_of_parseMethod hparse
  obtain ⟨hm', rfl⟩ := descriptor_of_parseMethod hparse'
  by_contra hnone
  -- Otherwise the table keeps the names in the two apart, and so the two.
  have hapart : Set.InjOn table.resolve {c | c ∈ m.classNames ++ m'.classNames} := by
    intro a ha b hb heq
    by_contra hab
    exact hnone ⟨_, _, a, b, classNames_descriptor hm, classNames_descriptor hm', ha, hb, hab, heq⟩
  have hclass : ∀ c ∈ {c | c ∈ m.classNames ++ m'.classNames}, IsClassName (table.resolve c) :=
    fun c hc => hresolve c ((List.mem_append.mp hc).elim (hover c) (hover' c))
  refine hne (injOn_remapMethod hclass hapart ?_ ?_ h)
  · exact ⟨m, hparse, fun c hc => List.mem_append_left _ hc⟩
  · exact ⟨m', hparse', fun c hc => List.mem_append_right _ hc⟩

end Resolved

section ClassNames

variable (hnames : ∀ n ∈ names, IsClassName n)

include hnames

/-- A table that keeps the method descriptors over some class names apart keeps the names apart. -/
theorem injOn_of_remapMethod (h : Set.InjOn (remapMethod table) (methodsOver names)) :
    Set.InjOn table.resolve names := by
  have hover (n : Text) (hn : n ∈ names) : (unaryType n).descriptor ∈ methodsOver names := by
    refine ⟨_, parseMethod_descriptor (isMethodType_unaryType (hnames n hn)), fun c hc => ?_⟩
    obtain rfl := List.mem_singleton.mp hc
    exact hn
  intro a ha b hb heq
  have hunary := isMethodType_unaryType (hnames a ha)
  have hunary' := isMethodType_unaryType (hnames b hb)
  have hrename : (unaryType a).rename table.resolve = (unaryType b).rename table.resolve := by
    simp only [unaryType, MethodType.rename, FieldType.rename, List.map_cons, List.map_nil,
      Option.map_some, heq]
  have hremap : remapMethod table (unaryType a).descriptor =
      remapMethod table (unaryType b).descriptor := by
    rw [remapMethod_descriptor table hunary, remapMethod_descriptor table hunary', hrename]
  have hsame := (methodDescriptor_inj hunary hunary').mp (h (hover a ha) (hover b hb) hremap)
  have hclass := congrArg MethodType.classNames hsame
  exact (List.cons.inj hclass).1

/-- A table that keeps the field descriptors over some class names apart keeps the names apart. -/
theorem injOn_of_remapField (h : Set.InjOn (remapField table) (fieldsOver names)) :
    Set.InjOn table.resolve names := by
  have htype (n : Text) (hn : n ∈ names) : IsFieldType { className := some n } :=
    ⟨Int.le_refl 0, .inr ⟨rfl, n, rfl, hnames n hn⟩⟩
  have hover (n : Text) (hn : n ∈ names) :
      ({ className := some n } : FieldType).descriptor ∈ fieldsOver names := by
    refine ⟨_, parseField_descriptor (htype n hn), fun c hc => ?_⟩
    obtain rfl := Option.some.inj hc
    exact hn
  intro a ha b hb heq
  have hremap : remapField table ({ className := some a } : FieldType).descriptor =
      remapField table ({ className := some b } : FieldType).descriptor := by
    rw [remapField_descriptor table (htype a ha), remapField_descriptor table (htype b hb)]
    simp only [FieldType.rename, Option.map_some, heq]
  have hsame := (fieldDescriptor_inj (htype a ha) (htype b hb)).mp
    (h (hover a ha) (hover b hb) hremap)
  exact Option.some.inj (congrArg FieldType.className hsame)

end ClassNames

/-- For class names that are resolved to class names: a table keeps the method descriptors over
them apart exactly if it keeps the names apart, and the same for field descriptors. A table that
leads back on the names leads back on both kinds of descriptors. Two methods get one descriptor
only if two of the classes in them get one name. -/
theorem remap_distinct (table : SymbolTable) {names : Set Text}
    (hnames : ∀ n ∈ names, IsClassName n) (hresolve : ∀ n ∈ names, IsClassName (table.resolve n)) :
    (Set.InjOn (remapMethod table) (methodsOver names) ↔ Set.InjOn table.resolve names) ∧
      (Set.InjOn (remapField table) (fieldsOver names) ↔ Set.InjOn table.resolve names) ∧
      (∀ back : SymbolTable, (∀ n ∈ names, back.resolve (table.resolve n) = n) →
        (∀ s ∈ methodsOver names, ∃ s', remapMethod table s = .ok s' ∧
          remapMethod back s' = .ok s) ∧
        ∀ d ∈ fieldsOver names, ∃ d', remapField table d = .ok d' ∧ remapField back d' = .ok d) ∧
      ∀ s ∈ methodsOver names, ∀ s' ∈ methodsOver names, s ≠ s' →
        remapMethod table s = remapMethod table s' →
          ∃ used used' a b, classNames s = .ok used ∧ classNames s' = .ok used' ∧
            a ∈ used ++ used' ∧ b ∈ used ++ used' ∧ a ≠ b ∧
            table.resolve a = table.resolve b := by
  refine ⟨⟨injOn_of_remapMethod hnames, injOn_remapMethod hresolve⟩,
    ⟨injOn_of_remapField hnames, injOn_remapField hresolve⟩, ?_, ?_⟩
  · intro back hback
    exact ⟨remapMethod_undo hresolve hback, remapField_undo hresolve hback⟩
  · intro s hs s' hs' hne h
    exact exists_same_name hresolve hs hs' hne h

end Over

/-- A table that leads back from the intermediate names of two classes. -/
def backTable : SymbolTable := .ofList [⟨"b", "a", "First"⟩, ⟨"d", "c", "Second"⟩]

/-- The way back. -/
theorem resolve_backTable (n : Text) : backTable.resolve n =
    if "b".toText = n then "a".toText else if "d".toText = n then "c".toText else n := by
  rw [backTable, SymbolTable.resolve_ofList, firstIntermediate, List.find?_cons, List.find?_cons]
  split_ifs <;> simp_all

/-- The class names but for two. -/
def otherNames : Set Text := {n | IsClassName n ∧ n ≠ "b".toText ∧ n ≠ "d".toText}

/-- Without the two names the way back leads back, for all of the infinitely many others. -/
theorem resolve_backTable_pairTable {n : Text} (hn : n ∈ otherNames) :
    backTable.resolve ((pairTable "c").resolve n) = n := by
  obtain ⟨-, hb, hd⟩ := hn
  rw [resolve_backTable, resolve_pairTable]
  split_ifs <;> simp_all

/-- With two classes renamed to names that no other class has, all methods stay apart, and the way
back leads back. With one of them renamed to a name that another class has, they do not: two
overloads get one descriptor. -/
theorem remap_distinct_pair :
    Set.InjOn (remapMethod (pairTable "c")) (methodsOver otherNames) ∧
      (∃ s', remapMethod (pairTable "c") "(La;[Lc;)Lz;" = .ok s' ∧
        remapMethod backTable s' = .ok "(La;[Lc;)Lz;".toText) ∧
      ¬ Set.InjOn (remapMethod (pairTable "c")) (methodsOver {"a".toText, "b".toText}) ∧
      ¬ Set.InjOn (remapField (pairTable "c")) (fieldsOver {"a".toText, "b".toText}) := by
  have hother : ∀ n ∈ otherNames, IsClassName n := fun n hn => hn.1
  obtain ⟨hmethods, -, hback, -⟩ := remap_distinct (pairTable "c") hother
    fun n hn => isClassName_resolve_pairTable "c" n (hother n hn)
  have hpair : ∀ n ∈ ({"a".toText, "b".toText} : Set Text), IsClassName n := by
    rintro n (rfl | rfl) <;> decide
  obtain ⟨hmethods', hfields', -⟩ := remap_distinct (pairTable "c") hpair
    fun n hn => isClassName_resolve_pairTable "c" n (hpair n hn)
  have hnot : ¬ Set.InjOn (pairTable "c").resolve {"a".toText, "b".toText} := by
    intro h
    refine absurd (h (.inl rfl) (.inr rfl) ?_) (by decide)
    rw [resolve_pairTable, resolve_pairTable]
    rfl
  refine ⟨hmethods.mpr ?_, ?_, mt hmethods'.mp hnot, mt hfields'.mp hnot⟩
  · intro n hn n' hn' h
    rw [← resolve_backTable_pairTable hn, h, resolve_backTable_pairTable hn']
  · have hparse : parseMethod "(La;[Lc;)Lz;" = .ok _ :=
      parseMethod_text ⟨[.object "a" (by decide), .array (.object "c" (by decide))],
        .value (.object "z" (by decide))⟩
    have hover : ∀ c ∈ ["a".toText, "c".toText, "z".toText],
        IsClassName c ∧ c ≠ "b".toText ∧ c ≠ "d".toText := by
      decide
    exact (hback backTable fun n hn => resolve_backTable_pairTable hn).1 _ ⟨_, hparse, hover⟩

end Remapping
