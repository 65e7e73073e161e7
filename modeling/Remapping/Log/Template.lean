import Remapping.Log.Directive

/-!
# Message templates

A template is a row of pieces: characters that stand for themselves and directives. `fill`
puts values in order in the places of the directives, or, if the values are one table, by key.
It fails if a directive is malformed, if a value does not suit it, or if values are too few or
too many.
-/

namespace Remapping.Template

/-- A piece of a template. -/
inductive Piece
  | literal (c : CodePoint)
  | directive (d : Directive)

/-- The pieces of a template; two percent signs in a row stand for one. -/
def pieces : Text → Option (List Piece)
  | [] => some []
  | c :: t =>
    if c = '%' then
      match t with
      | .char '%' :: t => (pieces t).map (.literal (.char '%') :: ·)
      | t =>
        match _h : Directive.read t with
        | none => none
        | some (d, rest) => (pieces rest).map (.directive d :: ·)
    else (pieces t).map (.literal c :: ·)
termination_by t => t.length
decreasing_by
  · simp only [List.length_cons]
    omega
  · have := Directive.length_read _h
    simp only [List.length_cons] at *
    omega
  · simp

/-- Fills pieces from left to right. A directive with a key has the value of that key for its
only value. All values must have found a place, unless they come from a table. -/
def fillPieces (table : Option Value) (values : List Value) : List Piece → Option Text
  | [] => if values.isEmpty || table.isSome then some [] else none
  | .literal c :: pieces => (fillPieces table values pieces).map (c :: ·)
  | .directive d :: pieces => do
    let values ← match d.key with
      | none => pure values
      | some key => (table.bind (·.get? key)).map ([·])
    let (filled, values) ← d.fill values
    let rest ← fillPieces table values pieces
    return filled ++ rest

/-- Fills a template with values. Without values the template is the message itself. -/
def fill (template : Text) (values : List Value) : Option Text :=
  match values with
  | [] => some template
  | [.table entries] =>
    let table := if entries.isEmpty then none else some (Value.table entries)
    (pieces template).bind (fillPieces table [.table entries])
  | values => (pieces template).bind (fillPieces none values)

end Remapping.Template
