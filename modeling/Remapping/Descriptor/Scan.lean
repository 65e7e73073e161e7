import Remapping.Descriptor.Basic

/-!
# Scanning descriptors into tokens

One forward pass turns a descriptor into tokens with their offsets. A scan keeps the tokens it
has produced when it meets a fault. Read `scanType_shorter` first: scanning one field type
consumes at least one character, which is why the loop over the parameters ends.
-/

namespace Remapping.Descriptor

/-- What a token stands for. -/
inductive Lexeme
  | parameters
  | result
  | array
  | base (letter : CodePoint)
  | className (name : Text)
  | finish
  deriving DecidableEq

/-- The characters that a lexeme stands for. -/
def Lexeme.spelling : Lexeme → Text
  | parameters => [.char '(']
  | result => [.char ')']
  | array => [.char '[']
  | base letter => [letter]
  | className name => .char 'L' :: name ++ [.char ';']
  | finish => []

/-- A lexeme and the offset of its first character. -/
structure Token where
  position : Nat
  lexeme : Lexeme
  deriving DecidableEq

/-- An offset in a text, and the text from there on. -/
structure Cursor where
  offset : Nat
  rest : Text
  deriving DecidableEq

/-- The tokens of a scan, and how the scan ended. -/
structure Scan (α : Type) where
  tokens : List Token
  outcome : Except Fault α

namespace Scan

/-- A scan that stops at a fault. -/
def fail (reason : Reason) (position : Nat) : Scan α := ⟨[], .error ⟨position, reason⟩⟩

/-- A scan that produces nothing more. -/
def done (value : α) : Scan α := ⟨[], .ok value⟩

/-- The scan after the given token. -/
def after (token : Token) (scan : Scan α) : Scan α := ⟨token :: scan.tokens, scan.outcome⟩

/-- Goes on from where a scan ended, unless it met a fault. -/
def andThen (scan : Scan α) (next : α → Scan β) : Scan β :=
  match scan.outcome with
  | .error fault => ⟨scan.tokens, .error fault⟩
  | .ok value => ⟨scan.tokens ++ (next value).tokens, (next value).outcome⟩

end Scan

/-- Scans one field type whose first character has offset `pos`. Void is a type only where
`allowVoid` holds, and never below an array marker. -/
def scanType (allowVoid : Bool) (pos : Nat) : Text → Scan Cursor
  | [] => .fail .unexpectedEnd pos
  | c :: cs =>
    if c = '[' then (scanType false (pos + 1) cs).after ⟨pos, .array⟩
    else if isBaseLetter c then
      if c = voidLetter ∧ allowVoid = false then .fail .misplacedVoid pos
      else (Scan.done ⟨pos + 1, cs⟩).after ⟨pos, .base c⟩
    else if c = 'L' then
      let name := cs.takeWhile (· != .char ';')
      match cs.dropWhile (· != .char ';') with
      | [] => .fail .unterminatedName (pos + 1 + name.length)
      | _ :: rest =>
        if name = [] then .fail .emptyName pos
        else (Scan.done ⟨pos + name.length + 2, rest⟩).after ⟨pos, .className name⟩
    else .fail (.unexpectedCharacter c) pos

/-- A scanned field type leaves less text than there was. -/
theorem scanType_shorter {allowVoid : Bool} {pos : Nat} {cs : Text} {cursor : Cursor}
    (h : (scanType allowVoid pos cs).outcome = .ok cursor) :
    cursor.rest.length < cs.length := by
  induction cs generalizing allowVoid pos with
  | nil => simp [scanType, Scan.fail] at h
  | cons c cs ih =>
    unfold scanType at h
    split at h
    · have := ih h
      simp only [List.length_cons]
      omega
    · split at h
      · split at h
        · simp [Scan.fail] at h
        · simp only [Scan.after, Scan.done, Except.ok.injEq] at h
          subst h
          simp
      · split at h
        · have bound : (cs.dropWhile (· != .char ';')).length ≤ cs.length :=
            (List.dropWhile_suffix _).length_le
          cases hd : cs.dropWhile (· != .char ';') with
          | nil =>
            rw [hd] at h
            simp [Scan.fail] at h
          | cons d rest =>
            rw [hd, List.length_cons] at bound
            rw [hd] at h
            simp only at h
            split at h
            · simp [Scan.fail] at h
            · simp only [Scan.after, Scan.done, Except.ok.injEq] at h
              subst h
              simp only [List.length_cons]
              omega
        · simp [Scan.fail] at h

/-- Scans parameter types up to the closing parenthesis, where the cursor then stands. -/
def scanParameters (pos : Nat) (cs : Text) : Scan Cursor :=
  match cs with
  | [] => .fail .parametersUnclosed pos
  | .char ')' :: _ => .done ⟨pos, cs⟩
  | c :: rest =>
    match _h : (scanType false pos (c :: rest)).outcome with
    | .error fault => ⟨(scanType false pos (c :: rest)).tokens, .error fault⟩
    | .ok cursor =>
      let more := scanParameters cursor.offset cursor.rest
      ⟨(scanType false pos (c :: rest)).tokens ++ more.tokens, more.outcome⟩
termination_by cs.length
decreasing_by exact scanType_shorter _h

/-- The end of a scan: nothing may be left of the text. -/
def scanEnd (reason : Reason) (cursor : Cursor) : Scan Unit :=
  if cursor.rest = [] then (Scan.done ()).after ⟨cursor.offset, .finish⟩
  else .fail reason cursor.offset

/-- Scans the type of the result, from the closing parenthesis on. -/
def scanResult (cursor : Cursor) : Scan Unit :=
  ((scanType true (cursor.offset + 1) (cursor.rest.drop 1)).andThen
    (scanEnd .afterReturnType)).after ⟨cursor.offset, .result⟩

/-- Scans a method descriptor. -/
def scanMethod : Text → Scan Unit
  | .char '(' :: cs => ((scanParameters 1 cs).andThen scanResult).after ⟨0, .parameters⟩
  | _ => .fail .parametersMissing 0

/-- Scans a field descriptor. -/
def scanField (s : Text) : Scan Unit := (scanType false 0 s).andThen (scanEnd .afterFieldType)

end Remapping.Descriptor
