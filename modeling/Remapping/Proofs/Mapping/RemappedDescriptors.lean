import Mathlib.Data.List.TFAE
import Mathlib.Tactic.TFAE
import Remapping.Mapping.Remapper
import Remapping.Proofs.Descriptor.Boundaries
import Remapping.Proofs.Mapping.FirstRow

/-!
# Remapped descriptors

When a remapped descriptor is a descriptor again, and when remapping it again changes nothing.
Both depend on the intermediate names, which nobody checks: `parseMethod_remapMethod` says that
the result has the shape of the original exactly if they are class names, and
`remap_idempotent_tfae` that remapping is idempotent exactly if no intermediate name is itself
remapped to another one.
-/

namespace Remapping

open Descriptor

variable {table : SymbolTable}

/-! ## Shape -/

/-- Remapping the descriptor of a method type gives the descriptor of the type with the
intermediate names. -/
theorem remapMethod_descriptor (table : SymbolTable) {m : MethodType} (hm : IsMethodType m) :
    remapMethod table m.descriptor = .ok (m.rename table.resolve).descriptor :=
  renameMethod_descriptor table.resolve hm

/-- Remapping the descriptor of a field type gives the descriptor of the type with the
intermediate name. -/
theorem remapField_descriptor (table : SymbolTable) {t : FieldType} (ht : IsFieldType t) :
    remapField table t.descriptor = .ok (t.rename table.resolve).descriptor :=
  renameField_descriptor table.resolve ht

/-- A method descriptor is remapped to one of the same shape, with the intermediate names in
place of the others, exactly if these are class names; then they are the class names of the
result, in order. If one of them is empty, the result is no descriptor at all. If one holds the
end of a type and the start of another one, the result can be a descriptor with other parameters:
one parameter becomes two. -/
theorem parseMethod_remapMethod (table : SymbolTable) :
    (∀ s m, parseMethod s = .ok m → ∃ names s',
      classNames s = .ok names ∧ remapMethod table s = .ok s' ∧
        (parseMethod s' = .ok (m.rename table.resolve) ↔
          ∀ c ∈ names, IsClassName (table.resolve c)) ∧
        ((∀ c ∈ names, IsClassName (table.resolve c)) →
          classNames s' = .ok (names.map table.resolve)) ∧
        ((∃ c ∈ names, table.resolve c = []) → ∃ fault, parseMethod s' = .error fault)) ∧
    ∀ c x y, IsClassName c → IsClassName x → IsClassName y →
      table.resolve c = x ++ .char ';' :: .char 'L' :: y →
        ∃ s', remapMethod table (unaryType c).descriptor = .ok s' ∧
          parseMethod s' = .ok ⟨[{ className := some x }, { className := some y }],
            { base := some [voidLetter] }⟩ := by
  constructor
  · intro s m h
    obtain ⟨hm, rfl⟩ := descriptor_of_parseMethod h
    refine ⟨m.classNames, (m.rename table.resolve).descriptor, classNames_descriptor hm,
      remapMethod_descriptor table hm, parseMethod_rename_iff hm, ?_, ?_⟩
    · intro hnames
      rw [classNames_descriptor ((isMethodType_rename_iff hm).mpr hnames),
        MethodType.classNames_rename]
    · intro hempty
      obtain ⟨c, hc, hnil⟩ := hempty
      cases hparse : parseMethod (m.rename table.resolve).descriptor with
      | error fault => exact ⟨fault, rfl⟩
      | ok n => exact absurd hnil (names_ne_nil_of_parseMethod hm hparse c hc)
  · intro c x y hc hx hy hresolve
    exact ⟨_, remapMethod_descriptor table (isMethodType_unaryType hc),
      parseMethod_unaryType_rename hx hy hresolve⟩

/-- A table with a class name, a name that injects a second reference, and an empty name for the
intermediate names of three classes. -/
def injectingTable : SymbolTable :=
  .ofList [⟨"a", "A/B", "Main"⟩, ⟨"b", "x;Ly", "Two"⟩, ⟨"c", "", "None"⟩]

/-- With that table, the first name keeps the shape of a descriptor, the second one makes two
parameters of one, and the third one leaves no descriptor. -/
theorem parseMethod_remapMethod_injecting :
    (∃ s', remapMethod injectingTable "([[La;I)La;" = .ok s' ∧
      parseMethod s' = .ok ⟨[⟨2, none, some "A/B".toText⟩, ⟨0, some "I".toText, none⟩],
        ⟨0, none, some "A/B".toText⟩⟩ ∧ classNames s' = .ok ["A/B".toText, "A/B".toText]) ∧
    (∃ s', remapMethod injectingTable "(Lb;)V" = .ok s' ∧
      parseMethod s' = .ok ⟨[⟨0, none, some "x".toText⟩, ⟨0, none, some "y".toText⟩],
        ⟨0, some "V".toText, none⟩⟩) ∧
    ∃ s' fault, remapMethod injectingTable "(Lc;)V" = .ok s' ∧ parseMethod s' = .error fault := by
  have ha : injectingTable.resolve "a" = "A/B".toText := by
    rw [injectingTable, SymbolTable.resolve_ofList]
    rfl
  have hb : injectingTable.resolve "b" = "x;Ly".toText := by
    rw [injectingTable, SymbolTable.resolve_ofList]
    rfl
  have hc : injectingTable.resolve "c" = [] := by
    rw [injectingTable, SymbolTable.resolve_ofList]
    rfl
  have harray : parseMethod "([[La;I)La;" = .ok ⟨[⟨2, none, some "a".toText⟩,
      ⟨0, some "I".toText, none⟩], ⟨0, none, some "a".toText⟩⟩ :=
    parseMethod_text ⟨[.array (.array (.object "a" (by decide))), .base 'I' (by decide)],
      .value (.object "a" (by decide))⟩
  have hunary : IsMethodType (unaryType "c") := isMethodType_unaryType (by decide)
  obtain ⟨hshape, hinjected⟩ := parseMethod_remapMethod injectingTable
  refine ⟨?_, ?_, ?_⟩
  · obtain ⟨names, s', hnames, hremap, hiff, hclasses, -⟩ := hshape _ _ harray
    obtain ⟨htype, hdescriptor⟩ := descriptor_of_parseMethod harray
    rw [← hdescriptor, classNames_descriptor htype] at hnames
    obtain rfl : ["a".toText, "a".toText] = names := Except.ok.inj hnames
    have hvalid : ∀ c ∈ ["a".toText, "a".toText], IsClassName (injectingTable.resolve c) := by
      simp only [List.forall_mem_cons, ha]
      decide
    refine ⟨s', hremap, ?_, ?_⟩
    · rw [hiff.mpr hvalid]
      simp only [MethodType.rename, FieldType.rename, List.map_cons, List.map_nil,
        Option.map_some, Option.map_none, ha]
    · rw [hclasses hvalid]
      simp only [List.map_cons, List.map_nil, ha]
  · exact hinjected "b" "x" "y" (by decide) (by decide) (by decide) hb
  · obtain ⟨names, s', hnames, hremap, -, -, hempty⟩ := hshape _ _ (parseMethod_descriptor hunary)
    rw [classNames_descriptor hunary] at hnames
    obtain rfl : ["c".toText] = names := Except.ok.inj hnames
    obtain ⟨fault, hfault⟩ := hempty ⟨"c", List.mem_cons_self, hc⟩
    exact ⟨s', fault, hremap, hfault⟩

/-! ## Idempotence -/

section Idempotence

variable (hnames : ∀ n, IsClassName n → IsClassName (table.resolve n))

include hnames

/-- Remapping a remapped method descriptor changes nothing exactly if its class names are resolved
once and for all. -/
theorem remapMethod_idempotent_iff {m : MethodType} (hm : IsMethodType m) :
    (∃ s', remapMethod table m.descriptor = .ok s' ∧ remapMethod table s' = .ok s') ↔
      ∀ c ∈ m.classNames, table.resolve (table.resolve c) = table.resolve c := by
  have hclass : ∀ c ∈ m.classNames, IsClassName (table.resolve c) :=
    fun c hc => hnames c (hm.isClassName c hc)
  have honce := (isMethodType_rename_iff hm).mpr hclass
  have htwice : IsMethodType ((m.rename table.resolve).rename table.resolve) := by
    refine (isMethodType_rename_iff honce).mpr fun c hc => ?_
    exact hnames c (honce.isClassName c hc)
  rw [remapMethod_descriptor table hm]
  calc (∃ s', Except.ok (m.rename table.resolve).descriptor = .ok s' ∧
          remapMethod table s' = .ok s')
      ↔ ((m.rename table.resolve).rename table.resolve).descriptor =
          (m.rename table.resolve).descriptor := by
        simp [remapMethod_descriptor table honce]
    _ ↔ m.rename (table.resolve ∘ table.resolve) = m.rename table.resolve := by
        rw [methodDescriptor_inj htwice honce, MethodType.rename_rename]
    _ ↔ ∀ c ∈ m.classNames, table.resolve (table.resolve c) = table.resolve c :=
        MethodType.rename_eq_rename_iff

/-- Remapping a remapped field descriptor changes nothing exactly if its class name is resolved
once and for all. -/
theorem remapField_idempotent_iff {t : FieldType} (ht : IsFieldType t) :
    (∃ d', remapField table t.descriptor = .ok d' ∧ remapField table d' = .ok d') ↔
      ∀ c ∈ t.className, table.resolve (table.resolve c) = table.resolve c := by
  have hclass : ∀ c ∈ t.className, IsClassName (table.resolve c) :=
    fun c hc => hnames c (ht.isClassName c hc)
  have honce := (isFieldType_rename_iff ht).mpr hclass
  have htwice : IsFieldType ((t.rename table.resolve).rename table.resolve) := by
    refine (isFieldType_rename_iff honce).mpr fun c hc => ?_
    exact hnames c (honce.isClassName c hc)
  rw [remapField_descriptor table ht]
  calc (∃ d', Except.ok (t.rename table.resolve).descriptor = .ok d' ∧
          remapField table d' = .ok d')
      ↔ ((t.rename table.resolve).rename table.resolve).descriptor =
          (t.rename table.resolve).descriptor := by
        simp [remapField_descriptor table honce]
    _ ↔ t.rename (table.resolve ∘ table.resolve) = t.rename table.resolve := by
        rw [fieldDescriptor_inj htwice honce, FieldType.rename_rename]
    _ ↔ ∀ c ∈ t.className, table.resolve (table.resolve c) = table.resolve c :=
        FieldType.rename_eq_rename_iff

end Idempotence

/-- A name is resolved once and for all if its row has an intermediate name without a row of its
own, or with a row of the same intermediate name. -/
theorem resolve_resolve_iff {n : Text} : table.resolve (table.resolve n) = table.resolve n ↔
    ∀ entry other, table.lookup n = some entry → table.lookup entry.intermediate = some other →
      other.intermediate = entry.intermediate := by
  cases hentry : table.lookup n with
  | none => simp [SymbolTable.resolve, hentry]
  | some entry =>
      have hresolve : table.resolve n = entry.intermediate := by
        rw [SymbolTable.resolve, hentry]
      constructor
      · intro h found other hfound hother
        obtain rfl := Option.some.inj hfound
        rw [hresolve, SymbolTable.resolve, hother] at h
        exact h
      · intro h
        rw [hresolve, SymbolTable.resolve]
        split
        · next other hother => exact h entry other rfl hother
        · rfl

/-- Where class names get class names, the following say the same: remapping a remapped method
descriptor, or a remapped field descriptor, changes nothing; no class name is resolved to a name
that is resolved to another one; no intermediate name of a class has a row with another
intermediate name. -/
theorem remap_idempotent_tfae (hnames : ∀ n, IsClassName n → IsClassName (table.resolve n)) :
    List.TFAE [
      ∀ s, Grammar.Method s → ∃ s', remapMethod table s = .ok s' ∧ remapMethod table s' = .ok s',
      ∀ d, Grammar.Parameter d → ∃ d', remapField table d = .ok d' ∧ remapField table d' = .ok d',
      ∀ n, IsClassName n → table.resolve (table.resolve n) = table.resolve n,
      ∀ n entry other, IsClassName n → table.lookup n = some entry →
        table.lookup entry.intermediate = some other →
          other.intermediate = entry.intermediate] := by
  tfae_have 1 → 3 := by
    intro h n hn
    have hunary := isMethodType_unaryType hn
    have hmethod := h _ (method_iff_exists_type.mpr ⟨_, hunary, rfl⟩)
    exact (remapMethod_idempotent_iff hnames hunary).mp hmethod n List.mem_cons_self
  tfae_have 2 → 3 := by
    intro h n hn
    have hobject : IsFieldType { className := some n } :=
      ⟨Int.le_refl 0, .inr ⟨rfl, n, rfl, hn⟩⟩
    have hfield := h _ (parameter_iff_exists_type.mpr ⟨_, hobject, rfl⟩)
    exact (remapField_idempotent_iff hnames hobject).mp hfield n rfl
  tfae_have 3 → 1 := by
    intro h s hs
    obtain ⟨m, hm, rfl⟩ := method_iff_exists_type.mp hs
    exact (remapMethod_idempotent_iff hnames hm).mpr fun c hc => h c (hm.isClassName c hc)
  tfae_have 3 → 2 := by
    intro h d hd
    obtain ⟨t, ht, rfl⟩ := parameter_iff_exists_type.mp hd
    exact (remapField_idempotent_iff hnames ht).mpr fun c hc => h c (ht.isClassName c hc)
  tfae_have 3 ↔ 4 := by
    simp only [resolve_resolve_iff]
    exact ⟨fun h n entry other hn => h n hn entry other,
      fun h n hn entry other => h n entry other hn⟩
  tfae_finish

/-- A table of two classes, with a late row for the first one. The intermediate name of the first
class may be the name of the second one. -/
def pairTable (second : Text) : SymbolTable :=
  .ofList [⟨"a", "b", "First"⟩, ⟨second, "d", "Second"⟩, ⟨"a", second, "Late"⟩]

/-- The first row of each class counts. -/
theorem resolve_pairTable (second n : Text) : (pairTable second).resolve n =
    if "a".toText = n then "b".toText else if second = n then "d".toText else n := by
  rw [pairTable, SymbolTable.resolve_ofList, firstIntermediate, List.find?_cons, List.find?_cons,
    List.find?_cons]
  split_ifs <;> simp_all

/-- The two classes have class names. -/
theorem isClassName_resolve_pairTable (second n : Text) (hn : IsClassName n) :
    IsClassName ((pairTable second).resolve n) := by
  rw [resolve_pairTable]
  split_ifs
  · decide
  · decide
  · exact hn

/-- Remapping twice differs from remapping once if the second class is the intermediate name of
the first one, and not if it is another class, although the late row of the first class leads
to it. -/
theorem remap_idempotent_tfae_pair :
    (¬ ∀ s, Grammar.Method s → ∃ s', remapMethod (pairTable "b") s = .ok s' ∧
      remapMethod (pairTable "b") s' = .ok s') ∧
    ∀ d, Grammar.Parameter d → ∃ d', remapField (pairTable "c") d = .ok d' ∧
      remapField (pairTable "c") d' = .ok d' := by
  constructor
  · intro h
    have hiff := remap_idempotent_tfae (isClassName_resolve_pairTable "b")
    have hresolve : ∀ n, IsClassName n →
        (pairTable "b").resolve ((pairTable "b").resolve n) = (pairTable "b").resolve n :=
      (hiff.out 0 2).mp h
    specialize hresolve "a" (by decide)
    rw [resolve_pairTable, resolve_pairTable] at hresolve
    exact absurd hresolve (by decide)
  · have hiff := remap_idempotent_tfae (isClassName_resolve_pairTable "c")
    refine (hiff.out 1 2).mpr fun n _ => ?_
    simp only [resolve_pairTable]
    split_ifs <;> simp_all

end Remapping
