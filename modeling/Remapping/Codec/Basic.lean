import Remapping.Encoding

/-!
# Codecs

A codec reads files and writes them piece by piece: what a piece of text adds to a file can hang on
the pieces before it. Which codecs there are and what they are called is not settled here:
`Codecs` says it, and everything that reads or writes mapping files works with any `Codecs`.
-/

namespace Remapping

/-- A way to keep texts as bytes. -/
structure Codec where
  /-- Reads the bytes of a whole file. -/
  decode : Bytes → Except DecodeFault Text
  /-- The text that the first bytes of a longer file tell, if nothing is wrong with them. -/
  decodePart : Bytes → Option Text
  /-- The bytes that a piece adds to a file after the pieces written before, last first, if the
  codec has bytes for it. -/
  encodeNext : List Text → Text → Option Bytes

/-- The codecs that can be asked for by name. -/
class Codecs where
  find? : Text → Option Codec

namespace Codec

/-- How many bytes of a file are decoded at a time. -/
def blockSize : Nat := 8192

/-- The numbers of bytes that are decoded when the next block is asked for. -/
def blockEnds (size : Nat) : List Nat :=
  ((List.range (size / blockSize)).map fun n => (n + 1) * blockSize) ++ [size]

/-- The text of a file that is decoded block by block, up to the block with the first fault. -/
def textBeforeFault (codec : Codec) (bytes : Bytes) : Text :=
  let texts := (blockEnds bytes.length).map fun size => codec.decodePart (bytes.take size)
  ((texts.takeWhile Option.isSome).getLastD none).getD []

/-- The bytes of pieces that are written one after the other, up to the first one that has none,
and whether all of them have; `before` and `done` hold the pieces written before and their bytes,
last first. -/
def encodePieces (codec : Codec) (before : List Text) (done : List Bytes) :
    List Text → Bytes × Bool
  | [] => (done.reverse.flatten, true)
  | piece :: pieces =>
    match codec.encodeNext before piece with
    | some bytes => encodePieces codec (piece :: before) (bytes :: done) pieces
    | none => (done.reverse.flatten, false)

end Codec

/-- The codec of a Unicode encoding. The mark stands before the first piece of a file. -/
def Encoding.codec (e : Encoding) : Codec where
  decode := e.decode true
  decodePart bytes := (e.decode false bytes).toOption
  encodeNext before t := (e.encodeText? t).map ((if before = [] then e.mark else []) ++ ·)

end Remapping
