import Mathlib.Data.Set.List
import Remapping.Descriptor.Grammar
import Remapping.Descriptor.Scan

/-!
# Derivations of descriptors

The derivations of `Descriptor.Grammar` as data: a tree for each way to produce a descriptor,
with the text that it produces and the tokens that a scan of this text gives. Read
`ParameterTree.text_append_inj` first: no type is the beginning of another one, so a sequence
of types without separators falls apart in one way only.

`textWith` writes the text of a tree with other class names. The new names need not be class
names, so this is a text and not a tree.
-/

namespace Remapping

/-- Up to the first separator stands what was written before it. -/
theorem Text.takeWhile_append_separator {sep : CodePoint} {t : Text} (h : sep ∉ t) (rest : Text) :
    (t ++ sep :: rest).takeWhile (· != sep) = t := by
  rw [List.takeWhile_append_of_pos]
  · simp
  · intro c hc
    simpa using ne_of_mem_of_not_mem hc h

/-- From the first separator on stands what was written from there. -/
theorem Text.dropWhile_append_separator {sep : CodePoint} {t : Text} (h : sep ∉ t) (rest : Text) :
    (t ++ sep :: rest).dropWhile (· != sep) = sep :: rest := by
  rw [List.dropWhile_append_of_pos]
  · simp
  · intro c hc
    simpa using ne_of_mem_of_not_mem hc h

/-- A text with a separator is cut at the first one. -/
theorem Text.cut_of_dropWhile_eq_cons {sep d : CodePoint} {t rest : Text}
    (h : t.dropWhile (· != sep) = d :: rest) :
    sep ∉ t.takeWhile (· != sep) ∧ t = t.takeWhile (· != sep) ++ sep :: rest := by
  constructor
  · intro hmem
    simpa using List.all_eq_true.mp List.all_takeWhile _ hmem
  · have hfirst : d = sep := by
      simpa [h] using List.head?_dropWhile_not (· != sep) t
    rw [hfirst] at h
    rw [← h, List.takeWhile_append_dropWhile]

namespace Descriptor

/-- The letter of a base type is no marker of the grammar, nor the letter of void. -/
theorem letter_ne_of_mem {c : CodePoint} (h : c ∈ valueLetters) :
    c ≠ '[' ∧ c ≠ 'L' ∧ c ≠ ')' ∧ c ≠ voidLetter := by
  have every : ∀ c ∈ valueLetters, c ≠ '[' ∧ c ≠ 'L' ∧ c ≠ ')' ∧ c ≠ voidLetter := by
    decide +kernel
  exact every c h

/-- A derivation of a field type. -/
inductive ParameterTree
  | base (letter : CodePoint) (valid : letter ∈ valueLetters)
  | object (name : Text) (valid : IsClassName name)
  | array (element : ParameterTree)
  deriving DecidableEq

namespace ParameterTree

/-- The descriptor with its class renamed. -/
def textWith (f : Text → Text) : ParameterTree → Text
  | base letter _ => [letter]
  | object name _ => .char 'L' :: f name ++ [.char ';']
  | array element => .char '[' :: element.textWith f

/-- The descriptor that is derived. -/
def text (t : ParameterTree) : Text := t.textWith id

@[simp] theorem text_base {letter : CodePoint} (valid : letter ∈ valueLetters) :
    (base letter valid).text = [letter] := rfl

@[simp] theorem text_object {name : Text} (valid : IsClassName name) :
    (object name valid).text = .char 'L' :: name ++ [.char ';'] := rfl

@[simp] theorem text_array (element : ParameterTree) :
    (array element).text = .char '[' :: element.text := rfl

/-- The tokens of the descriptor when its first character has offset `pos`. -/
def tokens (pos : Nat) : ParameterTree → List Token
  | base letter _ => [⟨pos, .base letter⟩]
  | object name _ => [⟨pos, .className name⟩]
  | array element => ⟨pos, .array⟩ :: element.tokens (pos + 1)

/-- The grammar derives the text of every tree. -/
theorem parameter (t : ParameterTree) : Grammar.Parameter t.text := by
  induction t with
  | base letter valid => exact .base letter valid
  | object name valid => exact .object name valid
  | array element ih => exact .array _ ih

/-- A descriptor does not start with the parenthesis that closes a list of them. -/
theorem exists_text_eq_cons (t : ParameterTree) : ∃ c cs, t.text = c :: cs ∧ c ≠ ')' := by
  cases t with
  | base letter valid => exact ⟨letter, [], rfl, (letter_ne_of_mem valid).2.2.1⟩
  | object name valid => exact ⟨'L', name ++ [.char ';'], rfl, by decide⟩
  | array element => exact ⟨'[', element.text, rfl, by decide⟩

/-- No descriptor of a field type starts another one. -/
theorem text_append_inj {t u : ParameterTree} {rest more : Text}
    (h : t.text ++ rest = u.text ++ more) : t = u ∧ rest = more := by
  induction t generalizing u with
  | base letter valid =>
      obtain ⟨hbracket, hclass, -, -⟩ := letter_ne_of_mem valid
      cases u with
      | base other _ => simpa using h
      | object => exact absurd (List.cons.inj h).1 hclass
      | array => exact absurd (List.cons.inj h).1 hbracket
  | object name valid =>
      cases u with
      | base other other_valid =>
          exact absurd (List.cons.inj h).1.symm (letter_ne_of_mem other_valid).2.1
      | object other other_valid =>
          -- Neither name holds a semicolon, so both texts are cut behind the name at the first.
          simp only [text_object, List.cons_append, List.append_assoc, List.nil_append,
            List.cons.injEq, true_and] at h
          have hname := congrArg (List.takeWhile (· != .char ';')) h
          have hrest := congrArg (List.dropWhile (· != .char ';')) h
          rw [Text.takeWhile_append_separator valid.2,
            Text.takeWhile_append_separator other_valid.2] at hname
          rw [Text.dropWhile_append_separator valid.2,
            Text.dropWhile_append_separator other_valid.2] at hrest
          subst hname
          exact ⟨rfl, (List.cons.inj hrest).2⟩
      | array => exact absurd (List.cons.inj h).1 (by decide)
  | array element ih =>
      cases u with
      | base other other_valid =>
          exact absurd (List.cons.inj h).1.symm (letter_ne_of_mem other_valid).1
      | object => exact absurd (List.cons.inj h).1 (by decide)
      | array other =>
          obtain ⟨rfl, hrest⟩ := ih (List.cons.inj h).2
          exact ⟨rfl, hrest⟩

end ParameterTree

/-- Every descriptor of the grammar has a derivation. -/
theorem exists_tree_of_parameter {d : Text} (h : Grammar.Parameter d) :
    ∃ t : ParameterTree, t.text = d := by
  induction h with
  | base letter valid => exact ⟨.base letter valid, rfl⟩
  | object name valid => exact ⟨.object name valid, rfl⟩
  | array d _ ih =>
      obtain ⟨t, rfl⟩ := ih
      exact ⟨.array t, rfl⟩

/-- A derivation of what a method can return. -/
inductive ResultTree
  | void
  | value (t : ParameterTree)
  deriving DecidableEq

namespace ResultTree

/-- The descriptor with its class renamed. -/
def textWith (f : Text → Text) : ResultTree → Text
  | void => [voidLetter]
  | value t => t.textWith f

/-- The descriptor that is derived. -/
def text (r : ResultTree) : Text := r.textWith id

@[simp] theorem text_void : void.text = [voidLetter] := rfl

@[simp] theorem text_value (t : ParameterTree) : (value t).text = t.text := rfl

/-- The tokens of the descriptor when its first character has offset `pos`. -/
def tokens (pos : Nat) : ResultTree → List Token
  | void => [⟨pos, .base voidLetter⟩]
  | value t => t.tokens pos

/-- Whether the result can stand where void may be forbidden. -/
def Allowed (allowVoid : Bool) : ResultTree → Prop
  | void => allowVoid = true
  | value _ => True

/-- The grammar derives the text of every tree. -/
theorem result (r : ResultTree) : Grammar.Result r.text := by
  cases r with
  | void => exact .void
  | value t => exact .value _ t.parameter

/-- Void is the descriptor of no field type, not even its start. -/
theorem void_append_ne (t : ParameterTree) (rest more : Text) :
    voidLetter :: rest ≠ t.text ++ more := by
  intro h
  cases t with
  | base letter valid => exact (letter_ne_of_mem valid).2.2.2 (List.cons.inj h).1.symm
  | object => exact absurd (List.cons.inj h).1 (by decide)
  | array => exact absurd (List.cons.inj h).1 (by decide)

/-- No descriptor of a result starts another one. -/
theorem text_append_inj {r q : ResultTree} {rest more : Text}
    (h : r.text ++ rest = q.text ++ more) : r = q ∧ rest = more := by
  cases r with
  | void =>
      cases q with
      | void => exact ⟨rfl, (List.cons.inj h).2⟩
      | value u => exact absurd h (void_append_ne u _ _)
  | value t =>
      cases q with
      | void => exact absurd h.symm (void_append_ne t _ _)
      | value u =>
          obtain ⟨rfl, hrest⟩ := ParameterTree.text_append_inj h
          exact ⟨rfl, hrest⟩

end ResultTree

/-- A derivation of a method descriptor. -/
structure MethodTree where
  parameters : List ParameterTree
  result : ResultTree
  deriving DecidableEq

namespace MethodTree

/-- The descriptor with its classes renamed. -/
def textWith (f : Text → Text) (m : MethodTree) : Text :=
  .char '(' :: m.parameters.flatMap (·.textWith f) ++ .char ')' :: m.result.textWith f

/-- The descriptor that is derived. -/
def text (m : MethodTree) : Text := m.textWith id

/-- The text of the parameters stands between the parentheses. -/
theorem text_eq (m : MethodTree) :
    m.text = .char '(' :: (m.parameters.flatMap ParameterTree.text ++ .char ')' :: m.result.text) :=
  rfl

end MethodTree

/-- The tokens of neighbouring parameters, the first of which has offset `pos`. -/
def parameterTokens (pos : Nat) : List ParameterTree → List Token
  | [] => []
  | t :: ts => t.tokens pos ++ parameterTokens (pos + t.text.length) ts

/-- The offset of the parenthesis after the parameters. -/
def MethodTree.resultOffset (m : MethodTree) : Nat :=
  1 + (m.parameters.flatMap ParameterTree.text).length

/-- The tokens of a method descriptor. -/
def MethodTree.tokens (m : MethodTree) : List Token :=
  ⟨0, .parameters⟩ :: parameterTokens 1 m.parameters ++
    ⟨m.resultOffset, .result⟩ :: m.result.tokens (m.resultOffset + 1) ++
      [⟨m.text.length, .finish⟩]

/-- Parameters up to the closing parenthesis can be told apart. -/
theorem parameters_append_inj {ts us : List ParameterTree} {rest more : Text}
    (h : ts.flatMap ParameterTree.text ++ .char ')' :: rest =
      us.flatMap ParameterTree.text ++ .char ')' :: more) : ts = us ∧ rest = more := by
  induction ts generalizing us with
  | nil =>
      cases us with
      | nil => exact ⟨rfl, (List.cons.inj h).2⟩
      | cons u us =>
          obtain ⟨c, cs, hu, hc⟩ := u.exists_text_eq_cons
          rw [List.flatMap_cons, hu] at h
          exact absurd (List.cons.inj h).1.symm hc
  | cons t ts ih =>
      cases us with
      | nil =>
          obtain ⟨c, cs, ht, hc⟩ := t.exists_text_eq_cons
          rw [List.flatMap_cons, ht] at h
          exact absurd (List.cons.inj h).1 hc
      | cons u us =>
          rw [List.flatMap_cons, List.flatMap_cons, List.append_assoc, List.append_assoc] at h
          obtain ⟨rfl, htail⟩ := ParameterTree.text_append_inj h
          obtain ⟨rfl, hrest⟩ := ih htail
          exact ⟨rfl, hrest⟩

/-- Different derivations produce different field descriptors. -/
theorem ParameterTree.text_injective {t u : ParameterTree} (h : t.text = u.text) : t = u :=
  (text_append_inj (congrArg (· ++ []) h)).1

/-- Different derivations produce different method descriptors. -/
theorem MethodTree.text_injective {m n : MethodTree} (h : m.text = n.text) : m = n := by
  obtain ⟨ts, r⟩ := m
  obtain ⟨us, q⟩ := n
  obtain ⟨rfl, hresult⟩ := parameters_append_inj (List.cons.inj h).2
  obtain ⟨rfl, -⟩ := ResultTree.text_append_inj (congrArg (· ++ []) hresult)
  rfl

/-- The grammar derives the text of every method tree. -/
theorem MethodTree.method (m : MethodTree) : Grammar.Method m.text := by
  rw [m.text_eq, List.flatMap_def]
  refine .intro (m.parameters.map ParameterTree.text) m.result.text ?_ m.result.result
  intro d hd
  obtain ⟨t, -, rfl⟩ := List.mem_map.mp hd
  exact t.parameter

/-- Every method descriptor of the grammar has a derivation. -/
theorem exists_tree_of_method {s : Text} (h : Grammar.Method s) :
    ∃ m : MethodTree, m.text = s := by
  obtain ⟨ds, d, hparameters, hresult⟩ := h
  have hds : ds ∈ Set.range (List.map ParameterTree.text) := by
    rw [Set.range_list_map]
    exact fun d hd => exists_tree_of_parameter (hparameters d hd)
  obtain ⟨ts, rfl⟩ := hds
  cases hresult with
  | void => exact ⟨⟨ts, .void⟩, by rw [MethodTree.text_eq, List.flatMap_def]; rfl⟩
  | value d hd =>
      obtain ⟨t, rfl⟩ := exists_tree_of_parameter hd
      exact ⟨⟨ts, .value t⟩, by rw [MethodTree.text_eq, List.flatMap_def]; rfl⟩

end Descriptor
end Remapping
