import Remapping.Codec.Basic
import Remapping.Failure
import Remapping.Layout.Tiny
import Remapping.Value.Basic

/-!
# Writing tiny files

A mapping set is written in place, or to a temporary file beside the destination that then
takes its name. In place the destination is emptied first and keeps the rows before a row that
cannot be encoded; with a temporary file every failure leaves the destination as it was.
-/

namespace Remapping

/-- What a setting says about an encoding. -/
inductive EncodingSetting
  | known (codec : Codec)
  | unknown
  /-- The setting can be no name: it is not a text, or a text with a NUL or a surrogate. -/
  | notAName

/-- Reads the setting of an encoding; without a value it is UTF-8. -/
def EncodingSetting.ofValue [Codecs] : Value → EncodingSetting
  | .text name =>
    if name.utf8?.isNone || name.contains '\x00' then notAName
    else match Codecs.find? name with
      | some codec => known codec
      | none => unknown
  | .null => known Encoding.utf8.codec
  | _ => notAName

namespace Output

/-- The pieces in which rows are written: each row, and the line feed after it. -/
def pieces (rows : List Text) : List Text := rows.flatMap fun row => [row, [.char '\n']]

/-- The contents of a file of rows, and whether all of them are in it. -/
def contents (codec : Codec) (rows : List Text) : Bytes × Bool :=
  codec.encodePieces [] [] (pieces rows)

/-- The failure of an output that cannot be written. -/
def failed (p : Path) (e : FileError) : Failure :=
  if e.fault = .invalidName then .file e else .conversion (.outputFailed p.toText e)

/-- Writes rows to the file at a place, which is emptied first. -/
def fill (files : Files) (place : Location) (setting : EncodingSetting) (rows : List Text) :
    Files × Except Failure Unit :=
  match setting with
  | .notAName => (files, .error .wrongType)
  | .unknown => (files.put place (.file []), .error .unknownEncoding)
  | .known codec =>
    let (bytes, complete) := contents codec rows
    (files.put place (.file bytes), if complete then .ok () else .error .unencodable)

/-- Writes rows in place. -/
def writeInPlace (files : Files) (p : Path) (setting : EncodingSetting) (rows : List Text) :
    Files × Except Failure Unit :=
  match setting, files.writePlace p with
  | .notAName, _ => (files, .error .wrongType)
  | setting, .ok place => fill files place setting rows
  | _, .error fault => (files, .error (failed p { fault, path := p.toText }))

/-- The path of the n-th candidate for a temporary file beside a destination. -/
def candidate (files : Files) (p : Path) (n : Nat) : Path :=
  Path.ofLocation (p.parent.place files.workingDirectory ++
    [.char '.' :: p.name ++ .char '.' :: Text.padLeft 8 '0' (Text.ofNat n) ++ ".tmp"])

/-- The path of a temporary file beside a destination: the first candidate that does not stand
for a file yet. -/
def temporary (files : Files) (p : Path) : Path :=
  let free := (List.range (files.nodes.length + 1)).find? fun n =>
    (files.node? (candidate files p n).names).isNone
  candidate files p (free.getD 0)

/-- Writes rows to a temporary file, which then takes the name of the destination. -/
def writeAtomically (files : Files) (p : Path) (setting : EncodingSetting) (rows : List Text) :
    Files × Except Failure Unit :=
  let temporary := temporary files p
  match files.freshPlace temporary with
  | .error fault => (files, .error (failed p { fault, path := temporary.toText }))
  | .ok place =>
    match fill files place setting rows with
    | (filled, .error failure) => (filled.remove place, .error failure)
    | (filled, .ok ()) =>
      match filled.rename place p with
      | .ok renamed => (renamed, .ok ())
      | .error fault =>
        (filled.remove place,
          .error (failed p { fault, path := temporary.toText, target := some p.toText }))

/-- Writes a mapping set as a tiny file and counts its rows. -/
def write (files : Files) (p : Path) (atomic : Bool) (setting : EncodingSetting)
    (m : MappingSet) : Files × Except Failure Nat :=
  match files.isDirectory p with
  | .error e => (files, .error (.file e))
  | .ok true => (files, .error (.conversion (.outputIsDirectory p.toText)))
  | .ok false =>
    let writer := if atomic then writeAtomically else writeInPlace
    match writer files p setting (Tiny.rows m) with
    | (written, .ok ()) => (written, .ok m.rowCount)
    | (written, .error failure) => (written, .error failure)

end Output
end Remapping
