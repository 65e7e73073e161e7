import Remapping.Mapping.Remapper
import Remapping.Proofs.Descriptor.Faults
import Remapping.Proofs.Descriptor.RenamedTypes
import Remapping.Proofs.Descriptor.Splicing
import Remapping.Proofs.Mapping.FirstRow

/-!
# Remapping agrees with reading

Descriptors are remapped by text functions that look at the ends of a text, and read by a scan
from left to right. Read `remapField_agrees` first: both take the same texts for descriptors of
classes, and remapping is what reading, renaming and writing down again would do.
`remapMethod_splices` says of method descriptors that remapping changes nothing but the class
names, where the scan finds them.
-/

namespace Remapping

open Descriptor

namespace Descriptor

/-! ## Texts that start like a class -/

/-- The text of a derivation starts like a class or an array of a class exactly if its type is
one. -/
theorem ParameterTree.isObjectDescriptor_text (t : ParameterTree) :
    isObjectDescriptor t.text = t.type.isObject := by
  induction t with
  | base letter valid =>
      obtain ⟨hbracket, hclass, -, -⟩ := letter_ne_of_mem valid
      simp [isObjectDescriptor, elementPart, hbracket, hclass, type, FieldType.isObject]
  | object name valid => rfl
  | array element ih => exact ih

/-- A descriptor that starts otherwise stays as it is, whatever names there are. -/
theorem renameField_of_not_object {d : Text} (h : isObjectDescriptor d = false)
    (f : Text → Text) : renameField f d = .ok d := by
  rw [renameField, if_neg (by simp [h])]

/-- A fault in the class name of a descriptor names the descriptor. -/
theorem descriptor_of_referencedName {d : Text} {e : DescriptorError}
    (h : referencedName d = .error e) : e.descriptor = d := by
  simp only [referencedName] at h
  split_ifs at h <;> cases h <;> rfl

/-- A text that starts like a class or an array of a class and is no descriptor cannot be
renamed. -/
theorem exists_error_of_parseField {d : Text} {e : DescriptorError}
    (h : isObjectDescriptor d = true) (hparse : parseField d = .error e) (f : Text → Text) :
    ∃ e', renameField f d = .error e' ∧ e'.descriptor = d := by
  cases hrename : renameField f d with
  | ok d' =>
      obtain ⟨t, rfl, -⟩ := exists_tree_of_renameField h hrename
      cases hparse.symm.trans (parseField_text t)
  | error e' =>
      refine ⟨e', rfl, ?_⟩
      rw [renameField, if_pos h] at hrename
      cases hname : referencedName d with
      | ok name => simp [hname, Except.map] at hrename
      | error fault =>
          rw [hname] at hrename
          obtain rfl : fault = e' := Except.error.inj hrename
          exact descriptor_of_referencedName hname

/-- The pieces of a method descriptor that start like a class or an array of a class hold the name
of one. -/
theorem exists_referencedName {s : Text} {m : MethodType} (h : parseMethod s = .ok m) {d : Text}
    (hd : d ∈ m.parameterDescriptors ++ [m.returnDescriptor])
    (hobject : isObjectDescriptor d = true) :
    ∃ name, IsClassName name ∧ referencedName d = .ok name := by
  obtain ⟨tree, -, rfl⟩ := exists_tree_of_parseMethod h
  have htree : ∃ t : ParameterTree, t.text = d := by
    rw [tree.parameterDescriptors_type, tree.returnDescriptor_type] at hd
    rcases List.mem_append.mp hd with hparameter | hresult
    · obtain ⟨t, -, ht⟩ := List.mem_map.mp hparameter
      exact ⟨t, ht⟩
    · obtain rfl := List.mem_singleton.mp hresult
      cases hr : tree.result with
      | void =>
          rw [hr] at hobject
          cases hobject
      | value t => exact ⟨t, rfl⟩
  obtain ⟨t, rfl⟩ := htree
  rcases t.text_cases with ⟨hplain, -⟩ | ⟨name, valid, helement, -⟩
  · cases hplain.symm.trans hobject
  · exact ⟨name, valid, (referencedName_eq_ok_iff hobject).mpr ⟨valid, helement⟩⟩

/-- The names among the tokens of a method descriptor are class names. -/
theorem isClassName_of_mem_tokens {m : MethodTree} {position : Nat} {name : Text}
    (h : ⟨position, .className name⟩ ∈ m.tokens) : IsClassName name := by
  have hnames : namesOfTokens m.tokens = m.type.classNames := by
    have hclasses := classNames_descriptor m.isMethodType
    rw [m.descriptor_type, classNames, scanMethod_text] at hclasses
    exact Except.ok.inj hclasses
  have hmem : name ∈ namesOfTokens m.tokens := List.mem_filterMap.mpr ⟨_, h, rfl⟩
  rw [hnames] at hmem
  exact m.isMethodType.isClassName name hmem

end Descriptor

/-! ## Main statements -/

/-- The text functions that remap a field descriptor agree with the reader of field types. A text
that reads as a type starts like a class exactly if the type is over one, and then the type with
the intermediate name is what it is remapped to; otherwise it stays. A text that starts like a
class, below its array markers, and reads as no type cannot be remapped. A text that starts
otherwise stays, and no class is looked up. -/
theorem remapField_agrees (table : SymbolTable) (d : Text) :
    (∀ t, parseField d = .ok t →
      isObjectDescriptor d = t.isObject ∧
        remapField table d = .ok (match t.className with
          | some name => (t.withClassName (table.resolve name)).descriptor
          | none => d)) ∧
    ((elementPart d).head? = some (.char 'L') → ∀ e, parseField d = .error e →
      ∃ e', remapField table d = .error e' ∧ e'.descriptor = d) ∧
    ((elementPart d).head? ≠ some (.char 'L') →
      remapField table d = .ok d ∧ (∀ f, renameField f d = .ok d) ∧ fieldReferences d = [] ∧
        ∀ r : Remapper, r.field d = (.ok d, r)) := by
  refine ⟨?_, ?_, ?_⟩
  · intro t h
    obtain ⟨tree, rfl, rfl⟩ := exists_tree_of_parseField h
    refine ⟨tree.isObjectDescriptor_text, ?_⟩
    have hremap := renameField_descriptor table.resolve tree.isFieldType
    rw [tree.descriptor_type] at hremap
    rw [remapField, hremap]
    cases hname : tree.type.className with
    | none =>
        have hsame : tree.type.rename table.resolve = tree.type.rename id :=
          FieldType.rename_eq_rename_iff.mpr (by simp [hname])
        rw [hsame, FieldType.rename_id, tree.descriptor_type]
    | some name => simp [FieldType.rename, FieldType.withClassName, hname]
  · intro hclass e h
    exact exists_error_of_parseField (decide_eq_true hclass) h table.resolve
  · intro hother
    have hobject : isObjectDescriptor d = false := decide_eq_false hother
    refine ⟨renameField_of_not_object hobject _, renameField_of_not_object hobject, ?_, ?_⟩
    · rw [fieldReferences, hobject]
      rfl
    · intro r
      rw [Remapper.field, hobject]
      rfl

/-- A table for class names that are made of the marks of descriptors. -/
def bracketTable : SymbolTable := .ofList [⟨"[L(", "N", "Main"⟩, ⟨"a[L(b", "out)L", "Two"⟩]

/-- With that table: a type over the first class, a text with a semicolon within its name, and a
text that does not start like a class. -/
theorem remapField_agrees_brackets :
    remapField bracketTable "[[L[L(;" = .ok "[[LN;".toText ∧
      (∃ e, remapField bracketTable "Lx;y;" = .error e ∧ e.descriptor = "Lx;y;".toText) ∧
      remapField bracketTable "[(La;" = .ok "[(La;".toText := by
  have hname : bracketTable.resolve "[L(" = "N".toText := by
    rw [bracketTable, SymbolTable.resolve_ofList]
    rfl
  have hparse : parseField "[[L[L(;" = .ok ⟨2, none, some "[L(".toText⟩ :=
    parseField_text (.array (.array (.object "[L(" (by decide))))
  have hfault : parseField "Lx;y;" = .error ⟨⟨3, .afterFieldType⟩, "Lx;y;"⟩ := by decide +kernel
  obtain ⟨hread, -, -⟩ := remapField_agrees bracketTable "[[L[L(;"
  obtain ⟨-, hfails, -⟩ := remapField_agrees bracketTable "Lx;y;"
  obtain ⟨-, -, hstays⟩ := remapField_agrees bracketTable "[(La;"
  refine ⟨?_, hfails (by decide) _ hfault, (hstays (by decide)).1⟩
  rw [(hread _ hparse).2]
  simp only [hname]
  rfl

/-- Remapping a method descriptor fails with the fault of its scan, or succeeds and changes nothing
but the class names: the result is the text with the intermediate name in place of the name of
each class that the scan finds. The name of such a class is all that stands between its marker
and the next semicolon, whatever characters it is made of, and every piece of the descriptor that
starts like a class holds the name of one, so that no fault comes from remapping a piece. -/
theorem remapMethod_splices (table : SymbolTable) (s : Text) :
    match (scanMethod s).complete s with
    | .error e => remapMethod table s = .error e ∧ e.descriptor = s
    | .ok tokens =>
      remapMethod table s = .ok (splice table.resolve s 0 tokens) ∧
        (∀ position name, ⟨position, .className name⟩ ∈ tokens →
          IsClassName name ∧
            s.extract position (position + name.length + 2) = .char 'L' :: name ++ [.char ';']) ∧
        ∃ m, parseMethod s = .ok m ∧
          ∀ d ∈ m.parameterDescriptors ++ [m.returnDescriptor], isObjectDescriptor d = true →
            ∃ name, IsClassName name ∧ referencedName d = .ok name := by
  cases hscan : (scanMethod s).complete s with
  | error e =>
      obtain ⟨fault, -, rfl⟩ := Scan.complete_eq_error hscan
      refine ⟨?_, rfl⟩
      rw [remapMethod, renameMethod_eq, hscan]
      rfl
  | ok tokens =>
      have hparse : parseMethod s = .ok (methodOfTokens tokens) := by
        rw [parseMethod, hscan]
        rfl
      obtain ⟨m, rfl, -⟩ := exists_tree_of_parseMethod hparse
      rw [scanMethod_text] at hscan
      obtain rfl : m.tokens = tokens := Except.ok.inj hscan
      refine ⟨?_, ?_, m.type, parseMethod_text m,
        fun d => exists_referencedName (parseMethod_text m)⟩
      · rw [remapMethod, renameMethod_eq, scanMethod_text]
        rfl
      · intro position name hmem
        refine ⟨isClassName_of_mem_tokens hmem, ?_⟩
        have hlaid : Laid ([] : Text).length m.tokens := m.laid_tokens
        have hextract := extract_of_laid hlaid hmem
        rw [List.nil_append, m.spelled_tokens] at hextract
        simpa [Lexeme.spelling, Nat.add_assoc] using hextract

/-- With the same table: a descriptor whose class names hold the marks of arrays, classes and
parameters, and one with a class name that ends too early. -/
theorem remapMethod_splices_brackets :
    remapMethod bracketTable "([La[L(b;I)L[L(;" = .ok "([Lout)L;I)LN;".toText ∧
      IsClassName "a[L(b" ∧
      remapMethod bracketTable "(La;b)V" = .error ⟨⟨4, .unexpectedCharacter 'b'⟩, "(La;b)V"⟩ := by
  have hfirst : bracketTable.resolve "[L(" = "N".toText := by
    rw [bracketTable, SymbolTable.resolve_ofList]
    rfl
  have hsecond : bracketTable.resolve "a[L(b" = "out)L".toText := by
    rw [bracketTable, SymbolTable.resolve_ofList]
    rfl
  have htokens : (scanMethod "([La[L(b;I)L[L(;").complete "([La[L(b;I)L[L(;" =
      .ok [⟨0, .parameters⟩, ⟨1, .array⟩, ⟨2, .className "a[L(b"⟩, ⟨9, .base 'I'⟩,
        ⟨10, .result⟩, ⟨11, .className "[L("⟩, ⟨16, .finish⟩] := by decide +kernel
  have hfault : (scanMethod "(La;b)V").complete "(La;b)V" =
      .error ⟨⟨4, .unexpectedCharacter 'b'⟩, "(La;b)V"⟩ := by decide +kernel
  have hspliced := remapMethod_splices bracketTable "([La[L(b;I)L[L(;"
  have hfailed := remapMethod_splices bracketTable "(La;b)V"
  rw [htokens] at hspliced
  rw [hfault] at hfailed
  refine ⟨?_, (hspliced.2.1 2 "a[L(b" (by simp)).1, hfailed.1⟩
  rw [hspliced.1]
  simp only [splice, hfirst, hsecond]
  rfl

end Remapping
