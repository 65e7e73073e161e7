import Remapping.Codec.Basic

/-!
# Texts with escapes

Bytes stand for the code points with their numbers, and an escape, `\u` with four hexadecimal
digits or `\U` with eight, stands for the code point with any other number, also for a surrogate.
A backslash that starts no escape stands for itself.
-/

namespace Remapping.Codec

namespace Escaped

/-- What is open between two bytes. -/
inductive Pending
  | nothing
  | backslash
  /-- The value of the digits of an escape, and how many are missing. -/
  | number (missing value : Nat)

/-- Reads a byte, after the code points in `read`, last first. -/
def step (read : Text) : Pending → UInt8 → Option (Text × Pending)
  | .nothing, b =>
    if b = 0x5c then some (read, .backslash) else some (.ofNat b.toNat :: read, .nothing)
  | .backslash, b =>
    if b = 0x75 then some (read, .number 4 0)
    else if b = 0x55 then some (read, .number 8 0)
    else some (.ofNat b.toNat :: .char '\\' :: read, .nothing)
  | .number missing value, b => do
    let value := value * 16 + (← (CodePoint.ofNat b.toNat).hexValue?)
    if 1 < missing then return (read, .number (missing - 1) value)
    else if value < 0x110000 then return (.ofNat value :: read, .nothing)
    else failure

/-- Reads bytes from the start of a file. -/
def run (bytes : Bytes) : Option (Text × Pending) :=
  bytes.foldlM (fun (read, pending) b => step read pending b) ([], .nothing)

/-- Reads a whole file. -/
def decode (bytes : Bytes) : Except DecodeFault Text :=
  match run bytes with
  | some (read, .nothing) => .ok read.reverse
  | some (read, .backslash) => .ok (.char '\\' :: read).reverse
  | some (_, .number _ _) => .error .incomplete
  | none => .error .malformed

/-- The bytes of a code point. -/
def encodeChar (c : CodePoint) : Bytes :=
  let ascii (t : Text) : Bytes := t.map fun c => UInt8.ofNat c.toNat
  if c.toNat < 0x100 then [UInt8.ofNat c.toNat]
  else if c.toNat < 0x10000 then ascii ("\\u" ++ Text.ofHex 4 c.toNat)
  else ascii ("\\U" ++ Text.ofHex 8 c.toNat)

end Escaped

/-- The codec of texts with escapes. -/
def escaped : Codec where
  decode := Escaped.decode
  decodePart bytes := (Escaped.run bytes).map fun (read, _) => read.reverse
  encodeNext _ t := some (t.flatMap Escaped.encodeChar)

end Remapping.Codec
