import Remapping.Text.Basic

/-!
# Unicode encodings

How texts are kept as bytes in UTF-8, UTF-16 and their subsets. `decode` reads a whole file or the
first bytes of one; `encodeText?` writes a text without the mark that `mark` puts at the start of a
file. No encoding here has bytes for a surrogate that stands by itself.
-/

namespace Remapping

/-- The contents of a file. -/
abbrev Bytes := List UInt8

/-- Why bytes are not a text. -/
inductive DecodeFault
  | malformed
  /-- The bytes end within a character. -/
  | incomplete
  /-- The mark that tells the order of the bytes is missing. -/
  | unmarked
  deriving DecidableEq

/-- The Unicode encodings and their subsets. -/
inductive Encoding
  | utf8
  /-- UTF-8 with a mark at the start of the file. -/
  | utf8Marked
  | ascii
  | latin1
  /-- UTF-16 with a mark that tells the order of the bytes. -/
  | utf16
  | utf16LittleEndian
  | utf16BigEndian
  deriving DecidableEq

namespace Encoding

/-- The text before the bytes of a character that the bytes do not end, which are a fault only if
they are the last. -/
def beforeIncomplete (last : Bool) (t : Text) (incomplete : Bytes) : Except DecodeFault Text :=
  if last && incomplete ≠ [] then .error .incomplete else .ok t

/-! ## UTF-16 -/

/-- The 16-bit unit of two bytes. -/
def unit (bigEndian : Bool) (first second : UInt8) : Nat :=
  if bigEndian then first.toNat * 256 + second.toNat else second.toNat * 256 + first.toNat

/-- The bytes of a 16-bit unit. -/
def unitBytes (bigEndian : Bool) (u : Nat) : Bytes :=
  if bigEndian then [UInt8.ofNat (u / 256), UInt8.ofNat (u % 256)]
  else [UInt8.ofNat (u % 256), UInt8.ofNat (u / 256)]

/-- The 16-bit units of a character: itself, or a pair of surrogates. -/
def units (c : Char) : List Nat :=
  if c.toNat < 0x10000 then [c.toNat]
  else [0xd800 + (c.toNat - 0x10000) / 0x400, 0xdc00 + (c.toNat - 0x10000) % 0x400]

/-- The characters of UTF-16 bytes after the ones in `read`, newest first, and the bytes of an
incomplete character at the end; none if surrogates are not paired. -/
def decodeUnits (bigEndian : Bool) (read : Text) : Bytes → Option (Text × Bytes)
  | a :: b :: rest =>
    let high := unit bigEndian a b
    if high < 0xd800 || 0xe000 ≤ high then
      decodeUnits bigEndian (.char (Char.ofNat high) :: read) rest
    else if 0xdc00 ≤ high then none
    else match rest with
      | c :: d :: rest =>
        let low := unit bigEndian c d
        if 0xdc00 ≤ low && low < 0xe000 then
          decodeUnits bigEndian
            (.char (Char.ofNat (0x10000 + (high - 0xd800) * 0x400 + (low - 0xdc00))) :: read) rest
        else none
      | _ => some (read.reverse, a :: b :: rest)
  | rest => some (read.reverse, rest)

/-- Decodes UTF-16 of a known byte order. -/
def decodeUtf16 (bigEndian last : Bool) (bytes : Bytes) : Except DecodeFault Text :=
  match decodeUnits bigEndian [] bytes with
  | some (t, incomplete) => beforeIncomplete last t incomplete
  | none => .error .malformed

/-- Decodes UTF-16 whose first two bytes tell the byte order. Bytes without the mark count as
little-endian as far as their other faults are concerned. -/
def decodeMarkedUtf16 (last : Bool) : Bytes → Except DecodeFault Text
  | 0xff :: 0xfe :: rest => decodeUtf16 false last rest
  | 0xfe :: 0xff :: rest => decodeUtf16 true last rest
  | bytes =>
    match decodeUnits false [] bytes with
    | some ([], incomplete) => beforeIncomplete last [] incomplete
    | some _ => .error .unmarked
    | none => .error .malformed

/-! ## UTF-8 -/

/-- The mark at the start of a marked UTF-8 file. -/
def utf8Mark : Bytes := [0xef, 0xbb, 0xbf]

/-- Whether a byte can be the second of a character, after its first. -/
def isSecondByte (first second : UInt8) : Bool :=
  (if first = 0xe0 then 0xa0 else if first = 0xf0 then 0x90 else 0x80) ≤ second &&
    second ≤ (if first = 0xed then 0x9f else if first = 0xf4 then 0x8f else 0xbf)

/-- Whether bytes start a character and do not end it. -/
def startsCharacter : Bytes → Bool
  | [a] => 0xc2 ≤ a && a ≤ 0xf4
  | [a, b] => 0xe0 ≤ a && a ≤ 0xf4 && isSecondByte a b
  | [a, b, c] => 0xf0 ≤ a && a ≤ 0xf4 && isSecondByte a b && 0x80 ≤ c && c ≤ 0xbf
  | _ => false

/-- The text of UTF-8 bytes that end with a character. -/
def utf8Text? (bytes : Bytes) : Option Text :=
  bytes.toByteArray.utf8Decode?.map fun cs => cs.toList.map .char

/-- The text of UTF-8 bytes and the bytes of an incomplete character at the end. -/
def splitUtf8? (bytes : Bytes) : Option (Text × Bytes) :=
  [0, 1, 2, 3].findSome? fun count =>
    let (before, incomplete) := bytes.splitAt (bytes.length - count)
    if count = 0 ∨ incomplete.length = count ∧ startsCharacter incomplete then
      (utf8Text? before).map (·, incomplete)
    else none

/-- Decodes UTF-8. -/
def decodeUtf8 (last : Bool) (bytes : Bytes) : Except DecodeFault Text :=
  match splitUtf8? bytes with
  | some (t, incomplete) => beforeIncomplete last t incomplete
  | none => .error .malformed

/-- Decodes UTF-8 and drops one mark at the start; a cut-off mark alone is no text. -/
def decodeMarkedUtf8 (last : Bool) (bytes : Bytes) : Except DecodeFault Text :=
  if bytes.isPrefixOf utf8Mark then .ok []
  else if utf8Mark.isPrefixOf bytes then decodeUtf8 last (bytes.drop utf8Mark.length)
  else decodeUtf8 last bytes

/-! ## All encodings -/

/-- The code points with the numbers of bytes. -/
def single (bytes : Bytes) : Text := bytes.map fun b => .char (Char.ofNat b.toNat)

/-- Reads the bytes of a file: all of them, or the first ones as far as they tell the text. -/
def decode (e : Encoding) (last : Bool) (bytes : Bytes) : Except DecodeFault Text :=
  match e with
  | utf8 => decodeUtf8 last bytes
  | utf8Marked => decodeMarkedUtf8 last bytes
  | ascii => if bytes.all (· < 128) then .ok (single bytes) else .error .malformed
  | latin1 => .ok (single bytes)
  | utf16 => decodeMarkedUtf16 last bytes
  | utf16LittleEndian => decodeUtf16 false last bytes
  | utf16BigEndian => decodeUtf16 true last bytes

/-- The bytes at the start of a file. -/
def mark : Encoding → Bytes
  | utf8Marked => utf8Mark
  | utf16 => [0xff, 0xfe]
  | _ => []

/-- The bytes of a code point, if the encoding has it. -/
def encodeChar? (e : Encoding) : CodePoint → Option Bytes
  | .surrogate _ => none
  | .char c =>
    match e with
    | utf8 | utf8Marked => some (String.utf8EncodeChar c)
    | ascii => if c.toNat < 128 then some [UInt8.ofNat c.toNat] else none
    | latin1 => if c.toNat < 256 then some [UInt8.ofNat c.toNat] else none
    | utf16 | utf16LittleEndian => some ((units c).flatMap (unitBytes false))
    | utf16BigEndian => some ((units c).flatMap (unitBytes true))

/-- The bytes of a text, if the encoding has all its code points. -/
def encodeText? (e : Encoding) (t : Text) : Option Bytes :=
  (t.mapM e.encodeChar?).map List.flatten

/-- The UTF-8 bytes of characters. -/
theorem encodeText?_utf8 (cs : List Char) :
    utf8.encodeText? (cs.map .char) = some (cs.flatMap String.utf8EncodeChar) := by
  have every : (cs.map .char).mapM utf8.encodeChar? = some (cs.map String.utf8EncodeChar) := by
    induction cs with
    | nil => rfl
    | cons c cs ih => simp [List.mapM_cons, ih, encodeChar?]
  rw [encodeText?, every, List.flatMap_def]
  rfl

end Encoding

/-- The UTF-8 bytes of a text without surrogates. -/
def Text.utf8? (t : Text) : Option Bytes := Encoding.utf8.encodeText? t

end Remapping
