import Remapping.Codec.Basic

/-!
# Domain names

A text is a name whose labels are cut by dots, and every label is written in a form of its own.
A label is not written before its dot is, since it may go on: the text after the last dot of a file
is never written.
-/

namespace Remapping.Codec

namespace Domain

/-- The dots between labels. -/
def isDot (c : CodePoint) : Bool := [0x2e, 0x3002, 0xff0e, 0xff61].contains c.toNat

/-- The form of a label of ASCII is the label. Labels of other characters have forms that come with
tables, which are no part of the library. -/
def writeLabel? (label : Text) : Option Bytes :=
  if label ≠ [] ∧ label.length < 64 then Encoding.ascii.encodeText? label else none

/-- The label of a form; the forms of other characters start with `xn--`. -/
def readLabel? (label : Text) : Option Text :=
  if List.isPrefixOf "xn--" label || 1024 < label.length then none else some label

/-- The labels of a file that has been read so far, the last of which may go on. -/
def labels (bytes : Bytes) : Option (List Text) :=
  if bytes.all (· < 128) then some ((Encoding.single bytes).splitOn (.char '.')) else none

/-- The text of labels. -/
def ofLabels (labels : List Text) : Option Text :=
  (labels.mapM readLabel?).map (List.intercalate [.char '.'])

/-- The bytes that a piece adds: the forms of the labels that are ended by it. -/
def encodeNext (before : List Text) (t : Text) : Option Bytes :=
  let pending := (before.reverse.flatten.reverse.takeWhile (!isDot ·)).reverse
  let ended := ((pending ++ t).splitOnP isDot).dropLast
  (ended.mapM writeLabel?).map fun forms => forms.flatMap (· ++ [0x2e])

end Domain

/-- The codec of domain names. -/
def domain : Codec where
  decode bytes :=
    match (Domain.labels bytes).bind Domain.ofLabels with
    | some t => .ok t
    | none => .error .malformed
  decodePart bytes := (Domain.labels bytes).bind fun labels =>
    (Domain.ofLabels labels.dropLast).map fun t => if 1 < labels.length then t ++ [.char '.'] else t
  encodeNext := Domain.encodeNext

end Remapping.Codec
