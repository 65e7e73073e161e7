import Remapping.Text.Blank
import Remapping.Value.Basic

/-!
# Checked reading of records

Records are read from values of documents with every issue found on the way, not the first
alone: `Checked` is an applicative that gathers the issues of all fields.
-/

namespace Remapping

/-- What is wrong with a value. -/
inductive IssueKind
  | missing
  | notText
  | notList
  | notRecord
  | notRowKind
  | notInteger
  /-- A number with a fraction where an integer is needed. -/
  | fractional
  /-- A number without a value, such as infinity, where an integer is needed. -/
  | notFinite
  /-- A text that does not hold an integer. -/
  | unreadableInteger
  | frozen
  | unknownField
  deriving DecidableEq

/-- What is wrong, and the path of keys and indices to it. -/
structure Issue where
  location : List Text
  kind : IssueKind
  deriving DecidableEq

/-- A value that was read, or all issues found in it. -/
inductive Checked (α : Type)
  | ok (value : α)
  | refused (issues : List Issue)

namespace Checked

/-- The issues found. -/
def issues : Checked α → List Issue
  | ok _ => []
  | refused found => found

/-- Applies a function to what was read. -/
def map (f : α → β) : Checked α → Checked β
  | ok value => ok (f value)
  | refused found => refused found

/-- Adds the next field to a record being read. -/
def seq (build : Checked (α → β)) (field : Unit → Checked α) : Checked β :=
  match build, field () with
  | ok f, ok value => ok (f value)
  | build, field => refused (build.issues ++ field.issues)

instance : Applicative Checked where
  pure := ok
  map := map
  seq := seq

/-- One issue at the place being read. -/
def refuse (kind : IssueKind) : Checked α := refused [⟨[], kind⟩]

/-- Puts the issues below a key or an index. -/
def below (key : Text) : Checked α → Checked α
  | ok value => ok value
  | refused found =>
    refused (found.map fun issue => { issue with location := key :: issue.location })

/-- Reads every item of a list. -/
def items (read : Value → Checked α) (values : List Value) : Checked (List α) :=
  (values.zipIdx.map fun (value, index) => below (Text.ofNat index) (read value)).foldr
    (fun item rest => List.cons <$> item <*> rest) (pure [])

end Checked

namespace Value

/-- Reads a text. -/
def readText : Value → Checked Text
  | text t => .ok t
  | _ => .refuse .notText

/-- Reads a list with a reader for its items. -/
def readList (read : Value → Checked α) : Value → Checked (List α)
  | list values => Checked.items read values
  | _ => .refuse .notList

/-- Reads the entries of a record. -/
def readRecord (read : List (Text × Value) → Checked α) : Value → Checked α
  | table entries => read entries
  | _ => .refuse .notRecord

/-- The digits of an integer text without single underscores between them. -/
def joinDigits : Text → Option Text
  | [] => some []
  | .char '_' :: c :: cs => if c.isDigit then (joinDigits cs).map (c :: ·) else none
  | c :: cs => if c.isDigit then (joinDigits cs).map (c :: ·) else none

/-- The integer that a text holds: blanks around it, a sign, underscores between digits and a
fraction of zeros are allowed. -/
def integerOfText? (t : Text) : Option Int :=
  let outer (c : CodePoint) : Bool := Text.isBlank c && !(28 ≤ c.toNat && c.toNat ≤ 31)
  let trimmed := ((t.dropWhile outer).reverse.dropWhile outer).reverse
  let (negative, unsigned) := match trimmed with
    | .char '-' :: cs => (true, cs)
    | .char '+' :: cs => (false, cs)
    | cs => (false, cs)
  let whole := unsigned.takeWhile (· != .char '.')
  let zeros := (unsigned.drop (whole.length + 1)).all (· == .char '0')
  match whole with
  | c :: cs =>
    if c.isDigit && zeros then
      (joinDigits cs).map fun digits =>
        let n := (c :: digits).foldl (fun (n : Nat) d => n * 10 + (d.toNat - 48)) 0
        if negative then -(n : Int) else (n : Int)
    else none
  | [] => none

/-- Reads an integer; switches count as one and zero. -/
def readInteger : Value → Checked Int
  | int n => .ok n
  | bool b => .ok (if b then 1 else 0)
  | float x =>
    match x, x.toInt? with
    | _, some n => .ok n
    | .finite .., none => .refuse .fractional
    | _, none => .refuse .notFinite
  | text t =>
    match integerOfText? t with
    | some n => .ok n
    | none => .refuse .unreadableInteger
  | _ => .refuse .notInteger

/-- Reads the value of a key that a record must have. -/
def required (entries : List (Text × Value)) (key : Text) (read : Value → Checked α) :
    Checked α :=
  Checked.below key <|
    match find? entries key with
    | some value => read value
    | none => .refuse .missing

/-- Reads the value of a key that a record may leave out. -/
def optional (entries : List (Text × Value)) (key : Text) (default : α)
    (read : Value → Checked α) : Checked α :=
  match find? entries key with
  | some value => Checked.below key (read value)
  | none => .ok default

end Value
end Remapping
