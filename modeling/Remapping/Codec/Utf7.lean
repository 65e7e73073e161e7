import Remapping.Codec.Basic

/-!
# UTF-7

Most characters of ASCII stand for themselves. The others are written as UTF-16 units in base 64
between a plus sign and a minus sign, and a plus sign as `+-`. The minus sign is left out where the
next character shows that the base 64 section is over. Every piece of text that is written closes
its own section.
-/

namespace Remapping.Codec

namespace Utf7

/-- The digits of base 64. -/
def alphabet : Text := "ABCDEFGHIJKLMNOPQRSTUVWXYZabcdefghijklmnopqrstuvwxyz0123456789+/"

/-- The value of a digit of base 64. -/
def digit? (b : UInt8) : Option Nat := alphabet.findIdx? (· = .ofNat b.toNat)

/-- The code points that stand for themselves. -/
def isDirect (c : CodePoint) : Bool :=
  let n := c.toNat
  (n = 9 || n = 10 || n = 13 || (32 ≤ n && n ≤ 125)) && c != '+' && c != '\\'

/-! ## Reading -/

/-- A section that is open: what was read in it, last first, the bits left over, and a first
surrogate that waits for the second. -/
structure Section where
  read : Text := []
  bits : Nat := 0
  buffer : Nat := 0
  first : Option Nat := none
  /-- Nothing but the plus sign was read. -/
  fresh : Bool := true

namespace Section

/-- The section after a unit of UTF-16. -/
def unit (s : Section) (u : Nat) : Section :=
  match s.first with
  | some first =>
    if 0xdc00 ≤ u && u < 0xe000 then
      { s with
        read := .ofNat (0x10000 + (first - 0xd800) * 0x400 + (u - 0xdc00)) :: s.read
        first := none }
    else alone { s with read := .ofNat first :: s.read, first := none } u
  | none => alone s u
where
  /-- The section after a unit that is no second surrogate. -/
  alone (s : Section) (u : Nat) : Section :=
    if 0xd800 ≤ u && u < 0xdc00 then { s with first := some u }
    else { s with read := .ofNat u :: s.read }

/-- The section after a digit of base 64. -/
def digit (s : Section) (value : Nat) : Section :=
  let buffer := s.buffer * 64 + value
  let bits := s.bits + 6
  let s := { s with fresh := false }
  if 16 ≤ bits then
    { s with buffer := buffer % (1 <<< (bits - 16)), bits := bits - 16 }.unit
      (buffer >>> (bits - 16))
  else { s with buffer, bits }

/-- The bits left over are filling. -/
def isFilled (s : Section) : Bool := s.bits < 6 && s.buffer = 0

end Section

/-- Reads a byte outside a section, after the code points in `read`, last first. -/
def stepOutside (read : Text) (b : UInt8) : Option (Text × Option Section) :=
  if b = 0x2b then some (read, some {})
  else if b < 128 then some (.ofNat b.toNat :: read, none)
  else none

/-- Reads a byte. -/
def step (read : Text) : Option Section → UInt8 → Option (Text × Option Section)
  | none, b => stepOutside read b
  | some s, b =>
    match digit? b with
    | some value => some (read, s.digit value)
    | none =>
      if s.fresh then if b = 0x2d then some (.char '+' :: read, none) else none
      else if !s.isFilled then none
      else
        let alone : Text := if b < 128 then s.first.toList.map .ofNat else []
        let read := alone ++ s.read ++ read
        if b = 0x2d then some (read, none) else stepOutside read b

/-- Reads bytes from the start of a file. -/
def run (bytes : Bytes) : Option (Text × Option Section) :=
  bytes.foldlM (fun (read, s) b => step read s b) ([], none)

/-- Reads a whole file. -/
def decode (bytes : Bytes) : Except DecodeFault Text :=
  match run bytes with
  | some (read, none) => .ok read.reverse
  | some (read, some s) =>
    if s.isFilled && s.first.isNone then .ok (s.read ++ read).reverse else .error .incomplete
  | none => .error .malformed

/-! ## Writing -/

/-- What was written of a piece, last first, and the bits left over if a section is open. -/
structure Written where
  text : Text := []
  pending : Option (Nat × Nat) := none

namespace Written

/-- Writes digits for all bits but the fewer than six that are left over. -/
def digits (text : Text) (bits buffer : Nat) : Nat → Written
  | 0 => ⟨text, some (bits, buffer)⟩
  | count + 1 =>
    if bits < 6 then ⟨text, some (bits, buffer)⟩
    else digits (alphabet[buffer >>> (bits - 6)]?.getD '+' :: text) (bits - 6)
      (buffer % (1 <<< (bits - 6))) count

/-- Writes a unit of UTF-16. -/
def unit (w : Written) (u : Nat) : Written :=
  let (bits, buffer) := w.pending.getD (0, 0)
  digits w.text (bits + 16) (buffer * 0x10000 + u) 3

/-- Writes the bits left over. -/
def flush (w : Written) : Text :=
  match w.pending with
  | some (bits, buffer) =>
    if bits = 0 then w.text else alphabet[buffer <<< (6 - bits)]?.getD '+' :: w.text
  | none => w.text

/-- Writes a code point that does not stand for itself. -/
def shifted (w : Written) (c : CodePoint) : Written :=
  match c with
  | .char c => (Encoding.units c).foldl unit w
  | .surrogate n => w.unit (0xd800 + n)

/-- Writes a code point. -/
def step (w : Written) (c : CodePoint) : Written :=
  if isDirect c then
    let ends : Text := if w.pending.isSome && (alphabet.contains c || c == '-') then "-" else []
    ⟨c :: ends ++ w.flush, none⟩
  else if w.pending.isNone && c == '+' then ⟨.char '-' :: .char '+' :: w.text, none⟩
  else if w.pending.isNone then shifted ⟨.char '+' :: w.text, some (0, 0)⟩ c
  else w.shifted c

/-- The text that is written at the end of a piece. -/
def finish (w : Written) : Text :=
  (if w.pending.isSome then .char '-' :: w.flush else w.text).reverse

end Written

/-- The bytes of a piece. -/
def encode (t : Text) : Bytes :=
  (t.foldl Written.step {}).finish.map fun c => UInt8.ofNat c.toNat

end Utf7

/-- The codec of UTF-7. -/
def utf7 : Codec where
  decode := Utf7.decode
  decodePart bytes := (Utf7.run bytes).map fun (read, _) => read.reverse
  encodeNext _ t := some (Utf7.encode t)

end Remapping.Codec
