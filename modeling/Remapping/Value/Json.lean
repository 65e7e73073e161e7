import Remapping.Number.Shortest
import Remapping.Value.Basic

/-!
# JSON documents

A value as JSON text, on one line or indented by two blanks a level. Strings keep every
character but the quote, the backslash and the controls below the blank, which are escaped.
-/

namespace Remapping.Value

/-- The form of one character in a JSON string. -/
def jsonChar (c : CodePoint) : Text :=
  if c = '\x22' ∨ c = '\\' then [.char '\\', c]
  else if c = '\n' then "\\n"
  else if c = '\r' then "\\r"
  else if c = '\t' then "\\t"
  else if c = '\x08' then "\\b"
  else if c = '\x0c' then "\\f"
  else if c.toNat < 0x20 then .char '\\' :: .char 'u' :: Text.ofHex 4 c.toNat
  else [c]

/-- A JSON string. -/
def jsonString (t : Text) : Text := .char '\x22' :: t.flatMap jsonChar ++ [.char '\x22']

mutual

/-- A value on one line. -/
def json : Value → Text
  | null => "null"
  | bool b => if b then "true" else "false"
  | int n => Text.ofInt n
  | float x => x.render
  | text t => jsonString t
  | moment t => jsonString t
  | list items => .char '[' :: List.intercalate ", " (jsonItems items) ++ [.char ']']
  | table entries => .char '\x7b' :: List.intercalate ", " (jsonEntries entries) ++ [.char '\x7d']

/-- Each item of a list on one line. -/
def jsonItems : List Value → List Text
  | [] => []
  | item :: items => json item :: jsonItems items

/-- Each entry of a table on one line. -/
def jsonEntries : List (Text × Value) → List Text
  | [] => []
  | (key, value) :: entries =>
    (jsonString key ++ ": " ++ json value) :: jsonEntries entries

end

/-- The parts of a list or a table on lines of their own, or the brackets alone. -/
def bracketed (first last : CodePoint) (indent : Nat) (parts : List Text) : Text :=
  let newLine (depth : Nat) : Text := .char '\n' :: List.replicate depth (.char ' ')
  if parts = [] then [first, last]
  else
    first :: newLine (indent + 2) ++
      List.intercalate (.char ',' :: newLine (indent + 2)) parts ++ newLine indent ++ [last]

mutual

/-- A value over several lines, at a depth of `indent` blanks. -/
def jsonIndented (indent : Nat) : Value → Text
  | list items => bracketed '[' ']' indent (indentedItems (indent + 2) items)
  | table entries => bracketed '\x7b' '\x7d' indent (indentedEntries (indent + 2) entries)
  | null => json null
  | bool b => json (bool b)
  | int n => json (int n)
  | float x => json (float x)
  | text t => json (text t)
  | moment t => json (moment t)

/-- Each item of a list at a depth of `indent` blanks. -/
def indentedItems (indent : Nat) : List Value → List Text
  | [] => []
  | item :: items => jsonIndented indent item :: indentedItems indent items

/-- Each entry of a table at a depth of `indent` blanks. -/
def indentedEntries (indent : Nat) : List (Text × Value) → List Text
  | [] => []
  | (key, value) :: entries =>
    (jsonString key ++ ": " ++ jsonIndented indent value) :: indentedEntries indent entries

end

end Remapping.Value
