import Remapping.Proofs.Descriptor.Renaming

/-!
# Renaming in place

A method descriptor is renamed by reading it, writing down its pieces and renaming these one by
one. `splice` does the same in place: it keeps the text and puts the other names where the tokens
of a scan say that the class names stand. Read `Laid` and `splice_laid` first: tokens that follow
each other without a gap can be spliced, whatever text they come from. `renameMethod_eq` is what
comes of it for descriptors.
-/

namespace Remapping.Descriptor

/-! ## Tokens without gaps -/

/-- Tokens that follow each other without a gap, the first of which has offset `pos`. -/
def Laid (pos : Nat) : List Token → Prop
  | [] => True
  | token :: tokens =>
    token.position = pos ∧ Laid (pos + token.lexeme.spelling.length) tokens

/-- The text that tokens stand for. -/
def spelled (tokens : List Token) : Text := tokens.flatMap (·.lexeme.spelling)

/-- Tokens are laid behind others where the text of the others ends. -/
theorem laid_append {pos : Nat} {tokens more : List Token} :
    Laid pos (tokens ++ more) ↔ Laid pos tokens ∧ Laid (pos + (spelled tokens).length) more := by
  induction tokens generalizing pos with
  | nil => simp [Laid, spelled]
  | cons token tokens ih => simp [Laid, spelled, ih, and_assoc, Nat.add_assoc]

/-- What stands between two other parts of a text is found at its offsets. -/
theorem extract_middle (before middle after : Text) :
    (before ++ middle ++ after).extract before.length (before.length + middle.length) =
      middle := by
  simp

/-- The text at the offset of a token is that of the token. -/
theorem extract_of_laid {before : Text} {tokens : List Token} {token : Token}
    (h : Laid before.length tokens) (hmem : token ∈ tokens) :
    (before ++ spelled tokens).extract token.position
      (token.position + token.lexeme.spelling.length) = token.lexeme.spelling := by
  induction tokens generalizing before with
  | nil => cases hmem
  | cons first tokens ih =>
      obtain ⟨hposition, hrest⟩ := h
      rcases List.mem_cons.mp hmem with rfl | hmem
      · rw [hposition, spelled, List.flatMap_cons, ← List.append_assoc, extract_middle]
      · rw [← List.length_append] at hrest
        rw [spelled, List.flatMap_cons, ← List.append_assoc]
        exact ih hrest hmem

/-! ## Splicing -/

/-- The text of a lexeme with another class name. -/
def Lexeme.spellingWith (f : Text → Text) : Lexeme → Text
  | className name => .char 'L' :: f name ++ [.char ';']
  | lexeme => lexeme.spelling

/-- The text that tokens stand for, with other class names. -/
def spelledWith (f : Text → Text) (tokens : List Token) : Text :=
  tokens.flatMap (·.lexeme.spellingWith f)

/-- A text from an offset on, with another name for each class name among some tokens: what
stands behind the marker of the class, as far as the name goes. All that stands between the names
is copied. -/
def splice (f : Text → Text) (s : Text) (start : Nat) : List Token → Text
  | [] => s.drop start
  | ⟨position, .className name⟩ :: tokens =>
    s.extract start (position + 1) ++ f name ++ splice f s (position + 1 + name.length) tokens
  | _ :: tokens => splice f s start tokens

/-- Splicing copies the text up to a class, writes the other name, and goes on behind the name. -/
theorem splice_class (f : Text → Text) (before copied name after : Text) (tokens : List Token) :
    splice f (before ++ copied ++ (.char 'L' :: name ++ after)) before.length
        (⟨before.length + copied.length, .className name⟩ :: tokens) =
      copied ++ .char 'L' :: f name ++ splice f (before ++ copied ++ .char 'L' :: name ++ after)
        (before ++ copied ++ .char 'L' :: name).length tokens := by
  have hmarker : before.length + copied.length + 1 =
      before.length + (copied ++ [CodePoint.char 'L']).length := by
    rw [List.length_append, List.length_singleton, Nat.add_assoc]
  have hbehind : before.length + copied.length + 1 + name.length =
      (before ++ copied ++ .char 'L' :: name).length := by
    simp only [List.length_append, List.length_cons]
    omega
  have hcopied : before ++ copied ++ (.char 'L' :: name ++ after) =
      before ++ (copied ++ [.char 'L']) ++ (name ++ after) := by
    simp
  have hrest : before ++ copied ++ (.char 'L' :: name ++ after) =
      before ++ copied ++ .char 'L' :: name ++ after := by
    simp
  rw [splice, hbehind, ← hrest]
  conv => lhs; rw [hmarker, hcopied, extract_middle, ← hcopied]
  simp

/-- Splicing passes over a token that is no class. -/
theorem splice_cons_of_ne {f : Text → Text} {s : Text} {start : Nat} {token : Token}
    (h : ∀ name, token.lexeme ≠ .className name) (tokens : List Token) :
    splice f s start (token :: tokens) = splice f s start tokens := by
  obtain ⟨position, lexeme⟩ := token
  cases lexeme with
  | className name => exact absurd rfl (h name)
  | _ => rfl

/-- Only a class has another spelling with other names. -/
theorem Lexeme.spellingWith_of_ne {f : Text → Text} {lexeme : Lexeme}
    (h : ∀ name, lexeme ≠ .className name) : lexeme.spellingWith f = lexeme.spelling := by
  cases lexeme with
  | className name => exact absurd rfl (h name)
  | _ => rfl

/-- Splicing tokens that are laid in a text writes them down with the other names. -/
theorem splice_laid (f : Text → Text) {before copied : Text} {tokens : List Token}
    (h : Laid (before.length + copied.length) tokens) :
    splice f (before ++ copied ++ spelled tokens) before.length tokens =
      copied ++ spelledWith f tokens := by
  -- `copied` is the text that splicing has passed over since the last name.
  induction tokens generalizing before copied with
  | nil => simp [splice, spelled, spelledWith]
  | cons token tokens ih =>
      obtain ⟨position, lexeme⟩ := token
      obtain ⟨hposition, hrest⟩ := h
      obtain rfl : before.length + copied.length = position := hposition.symm
      by_cases hclass : ∃ name, lexeme = .className name
      · obtain ⟨name, rfl⟩ := hclass
        have htext : spelled (⟨before.length + copied.length, .className name⟩ :: tokens) =
            .char 'L' :: name ++ ([.char ';'] ++ spelled tokens) := by
          simp [spelled, Lexeme.spelling]
        have hlaid : Laid ((before ++ copied ++ .char 'L' :: name).length +
            [CodePoint.char ';'].length) tokens := by
          simpa [Lexeme.spelling, Nat.add_assoc] using hrest
        rw [htext, splice_class, ← List.append_assoc _ [CodePoint.char ';'], ih hlaid]
        simp [spelledWith, Lexeme.spellingWith]
      · have hne : ∀ name, lexeme ≠ .className name := fun name h => hclass ⟨name, h⟩
        have htext :
            before ++ copied ++ spelled (⟨before.length + copied.length, lexeme⟩ :: tokens) =
              before ++ (copied ++ lexeme.spelling) ++ spelled tokens := by
          simp [spelled]
        rw [Nat.add_assoc, ← List.length_append] at hrest
        rw [splice_cons_of_ne hne, htext, ih hrest]
        simp [spelledWith, Lexeme.spellingWith_of_ne hne]

/-! ## Tokens of derivations -/

/-- With their own names, tokens stand for the text that they stand for. -/
theorem spelledWith_id (tokens : List Token) : spelledWith id tokens = spelled tokens := by
  have hsame : (fun token : Token => token.lexeme.spellingWith id) =
      fun token => token.lexeme.spelling := by
    funext token
    cases token.lexeme <;> rfl
  rw [spelledWith, hsame, spelled]

/-- Tokens after tokens stand for their texts in turn. -/
theorem spelledWith_append (f : Text → Text) (tokens more : List Token) :
    spelledWith f (tokens ++ more) = spelledWith f tokens ++ spelledWith f more :=
  List.flatMap_append

/-- The tokens of a derivation are laid from its offset on. -/
theorem ParameterTree.laid_tokens (t : ParameterTree) (pos : Nat) : Laid pos (t.tokens pos) := by
  induction t generalizing pos with
  | base letter valid => exact ⟨rfl, trivial⟩
  | object name valid => exact ⟨rfl, trivial⟩
  | array element ih => exact ⟨rfl, ih (pos + 1)⟩

/-- The tokens of a derivation with other names stand for its text with these names. -/
theorem ParameterTree.spelledWith_tokens (f : Text → Text) (t : ParameterTree) (pos : Nat) :
    spelledWith f (t.tokens pos) = t.textWith f := by
  induction t generalizing pos with
  | base letter valid => rfl
  | object name valid => exact List.append_nil _
  | array element ih => exact congrArg (CodePoint.char '[' :: ·) (ih (pos + 1))

/-- The tokens of parameters with other names stand for their texts with these names. -/
theorem spelledWith_parameterTokens (f : Text → Text) (ts : List ParameterTree) (pos : Nat) :
    spelledWith f (parameterTokens pos ts) = ts.flatMap (·.textWith f) := by
  induction ts generalizing pos with
  | nil => rfl
  | cons t ts ih =>
      rw [parameterTokens, spelledWith_append, t.spelledWith_tokens, ih, List.flatMap_cons]

/-- The tokens of neighbouring parameters are laid. -/
theorem laid_parameterTokens (ts : List ParameterTree) (pos : Nat) :
    Laid pos (parameterTokens pos ts) := by
  induction ts generalizing pos with
  | nil => trivial
  | cons t ts ih =>
      rw [parameterTokens, laid_append, ← spelledWith_id, t.spelledWith_tokens]
      exact ⟨t.laid_tokens pos, ih _⟩

/-- The tokens of a result with another name stand for its text with this name. -/
theorem ResultTree.spelledWith_tokens (f : Text → Text) (r : ResultTree) (pos : Nat) :
    spelledWith f (r.tokens pos) = r.textWith f := by
  cases r with
  | void => rfl
  | value t => exact t.spelledWith_tokens f pos

/-- The tokens of a result are laid from its offset on. -/
theorem ResultTree.laid_tokens (r : ResultTree) (pos : Nat) : Laid pos (r.tokens pos) := by
  cases r with
  | void => exact ⟨rfl, trivial⟩
  | value t => exact t.laid_tokens pos

namespace MethodTree

/-- The tokens before the end of a method descriptor, with other names, stand for its text with
these names. -/
theorem spelledWith_pieces (f : Text → Text) (m : MethodTree) :
    spelledWith f (⟨0, .parameters⟩ :: parameterTokens 1 m.parameters ++
      ⟨m.resultOffset, .result⟩ :: m.result.tokens (m.resultOffset + 1)) = m.textWith f := by
  rw [textWith, ← spelledWith_parameterTokens f m.parameters 1,
    ← m.result.spelledWith_tokens f (m.resultOffset + 1)]
  simp [spelledWith, Lexeme.spellingWith, Lexeme.spelling]

/-- The tokens of a method descriptor with other names stand for its text with these names. -/
theorem spelledWith_tokens (f : Text → Text) (m : MethodTree) :
    spelledWith f m.tokens = m.textWith f := by
  rw [tokens, spelledWith_append, spelledWith_pieces]
  exact List.append_nil _

/-- The tokens of a method descriptor stand for it. -/
theorem spelled_tokens (m : MethodTree) : spelled m.tokens = m.text := by
  rw [← spelledWith_id, spelledWith_tokens, text]

/-- The tokens of a method descriptor are laid from its start on. -/
theorem laid_tokens (m : MethodTree) : Laid 0 m.tokens := by
  have hopened : 0 + (spelled (⟨0, .parameters⟩ :: parameterTokens 1 m.parameters)).length =
      m.resultOffset := by
    rw [Nat.zero_add, ← spelledWith_id, resultOffset, Nat.add_comm]
    exact congrArg (List.length · + 1) (spelledWith_parameterTokens id m.parameters 1)
  have hend : 0 + (spelled (⟨0, .parameters⟩ :: parameterTokens 1 m.parameters ++
      ⟨m.resultOffset, .result⟩ :: m.result.tokens (m.resultOffset + 1))).length =
        m.text.length := by
    rw [Nat.zero_add, ← spelledWith_id, spelledWith_pieces, text]
  rw [tokens, laid_append, laid_append, hopened, hend]
  exact ⟨⟨⟨rfl, laid_parameterTokens _ _⟩, rfl, m.result.laid_tokens _⟩, rfl, trivial⟩

end MethodTree

/-! ## Method descriptors -/

/-- Renaming the tokens of a method descriptor in place gives its text with the other names. -/
theorem splice_method (f : Text → Text) (m : MethodTree) :
    splice f m.text 0 m.tokens = m.textWith f := by
  have hsplice : splice f ([] ++ [] ++ spelled m.tokens) 0 m.tokens =
      [] ++ spelledWith f m.tokens := splice_laid f m.laid_tokens
  rwa [m.spelled_tokens, m.spelledWith_tokens] at hsplice

/-- A method descriptor is renamed in place, at the class names that its scan finds, or the fault
of the scan is told. -/
theorem renameMethod_eq (f : Text → Text) (s : Text) :
    renameMethod f s = ((scanMethod s).complete s).map (splice f s 0) := by
  cases houtcome : (scanMethod s).outcome with
  | error fault =>
      simp [renameMethod, parseMethod, Scan.complete, houtcome, bind, Except.bind, Except.map]
  | ok finished =>
      obtain ⟨m, rfl⟩ := scanMethod_sound houtcome
      rw [renameMethod_text, scanMethod_text, ← splice_method]
      rfl

end Remapping.Descriptor
