import Remapping.Value.Basic

/-!
# Reading settings files

A reader takes a value off the front of a text, or finds the text malformed. This module holds
the readers of what has no parts: blanks, comments, keys and strings. A key may be bare or
quoted and may have several parts with dots between them; a string is basic, with escapes, or
literal, and either may run over several lines.
-/

namespace Remapping.Toml

/-- A reader takes a value off the front of a text; none if the text is malformed. -/
abbrev Reader := StateT Text Option

/-- The parts of a key. -/
abbrev Key := List Text

/-- Takes a text off the front, if it stands there. -/
def accept (t : Text) : Reader Bool := do
  let rest ← get
  if t.isPrefixOf rest then
    set (rest.drop t.length)
    return true
  else return false

/-- Takes a text off the front, where it has to stand. -/
def expect (t : Text) : Reader Unit := do
  unless ← accept t do failure

/-- A blank within a line. -/
def isSpace (c : CodePoint) : Bool := c = ' ' || c = '\t'

/-- Passes over blanks. -/
def skipSpaces : Reader Unit := modify (·.dropWhile isSpace)

/-- A character that no string and no comment may hold. -/
def isControl (c : CodePoint) : Bool := (c.toNat < 32 && c != '\t') || c.toNat = 127

/-- A character that no string over several lines may hold. -/
def isControlInLines (c : CodePoint) : Bool := isControl c && c != '\n'

/-- Passes over a comment, if one stands here. -/
def skipComment : Reader Unit := do
  if ← accept [.char '#'] then
    let rest ← get
    let comment := rest.takeWhile (· != .char '\n')
    if comment.any isControl then failure
    set (rest.drop comment.length)

/-- Passes over blanks, line ends and comments; `fuel` bounds the number of comments. -/
def skipLines : Nat → Reader Unit
  | 0 => return
  | fuel + 1 => do
    modify (·.dropWhile fun c => isSpace c || c = '\n')
    if (← get).head? = some (.char '#') then
      skipComment
      skipLines fuel

/-- The character whose number is written with exactly `width` hexadecimal digits. -/
def numberedChar? (width : Nat) (t : Text) : Option CodePoint := do
  let digits ← (t.take width).mapM CodePoint.hexValue?
  let n := digits.foldl (fun n d => n * 16 + d) 0
  if digits.length = width ∧ n.isValidChar then return .ofNat n else none

/-- What stands for an escape after its backslash, and how many characters it takes. In a
string over several lines, a backslash before the end of a line takes away all blanks and line
ends that follow. -/
def escape (manyLines : Bool) (t : Text) : Option (Text × Nat) :=
  match t with
  | [] => none
  | c :: rest =>
    if manyLines && (isSpace c || c = '\n') then
      let spaces := t.takeWhile isSpace
      match t.drop spaces.length with
      | [] => some ([], spaces.length)
      | .char '\n' :: _ => some ([], (t.takeWhile fun c => isSpace c || c = '\n').length)
      | _ => none
    else match c with
      | .char 'b' => some ("\x08", 1)
      | .char 't' => some ("\t", 1)
      | .char 'n' => some ("\n", 1)
      | .char 'f' => some ("\x0c", 1)
      | .char 'r' => some ("\r", 1)
      | .char '\x22' => some ("\x22", 1)
      | .char '\\' => some ("\\", 1)
      | .char 'u' => (numberedChar? 4 rest).map fun c => ([c], 5)
      | .char 'U' => (numberedChar? 8 rest).map fun c => ([c], 9)
      | _ => none

/-- The rest of a basic string and what stands after its closing quotes; `read` holds the
characters read before, last first. -/
def basicBody (manyLines : Bool) (read : Text) (t : Text) : Option (Text × Text) :=
  match t with
  | [] => none
  | .char '\x22' :: rest =>
    if !manyLines then some (read.reverse, rest)
    else if List.isPrefixOf "\x22\x22" rest then some (read.reverse, rest.drop 2)
    else basicBody manyLines (.char '\x22' :: read) rest
  | .char '\\' :: rest =>
    match escape manyLines rest with
    | none => none
    | some (replacement, used) =>
      basicBody manyLines (replacement.reverse ++ read) (rest.drop used)
  | c :: rest =>
    if isControl c && !(manyLines && c = '\n') then none
    else basicBody manyLines (c :: read) rest
termination_by t.length
decreasing_by all_goals (simp only [List.length_drop, List.length_cons]; omega)

/-- The characters before `stop` and what stands after it; `read` holds the characters read
before, last first. -/
def literalBody (stop : Text) (illegal : CodePoint → Bool) (read : Text) :
    Text → Option (Text × Text)
  | [] => none
  | c :: rest =>
    if stop.isPrefixOf (c :: rest) then some (read.reverse, (c :: rest).drop stop.length)
    else if illegal c then none
    else literalBody stop illegal (c :: read) rest

/-- Up to two quotes that stand directly before the closing quotes of a string over several
lines belong to the string. -/
def moreQuotes (quote : CodePoint) (t : Text) : Reader Text := do
  unless ← accept [quote] do return t
  unless ← accept [quote] do return t ++ [quote]
  return t ++ [quote, quote]

/-- Reads a string within a line, after its opening quote. -/
def lineString (quote : CodePoint) : Reader Text :=
  if quote = '\x22' then basicBody false []
  else literalBody [quote] isControl []

/-- Reads a string that may run over several lines, after its opening quotes. -/
def linesString (quote : CodePoint) : Reader Text := do
  let _ ← accept [.char '\n']
  let body : Reader Text :=
    if quote = '\x22' then basicBody true []
    else literalBody [quote, quote, quote] isControlInLines []
  moreQuotes quote (← body)

/-- Reads a string. -/
def string (quote : CodePoint) : Reader Text := do
  if ← accept [quote, quote, quote] then linesString quote
  else
    expect [quote]
    lineString quote

/-- A character of a bare key. -/
def isBare (c : CodePoint) : Bool := c.isAlphanum || c = '-' || c = '_'

/-- Reads one part of a key. -/
def keyPart : Reader Text := do
  if ← accept [.char '\x22'] then lineString '\x22'
  else if ← accept [.char '\x27'] then lineString '\x27'
  else
    let rest ← get
    let part := rest.takeWhile isBare
    if part = [] then failure
    set (rest.drop part.length)
    return part

/-- Reads the parts of a key after the first; `fuel` bounds their number. -/
def keyParts : Nat → Reader Key
  | 0 => return []
  | fuel + 1 => do
    skipSpaces
    unless ← accept [.char '.'] do return []
    skipSpaces
    let part ← keyPart
    return part :: (← keyParts fuel)

/-- Reads a key and the blanks after it. -/
def key : Reader Key := do
  let first ← keyPart
  return first :: (← keyParts (← get).length)

end Remapping.Toml
