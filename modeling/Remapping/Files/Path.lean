import Remapping.Encoding

/-!
# Paths

A path is a list of names, absolute or relative to the working directory. Reading a path drops
empty names and single dots, and keeps double dots, which only the file system can follow. Names
are the same if their texts are: that surrogates can spell the bytes of other characters is left
out.
-/

namespace Remapping

/-- The bytes of a code point in a name on the disk. A name is kept in UTF-8, and a surrogate from
U+DC80 to U+DCFF stands for one byte that is no part of a character. The NUL and the other
surrogates stand in no name. -/
def CodePoint.nameBytes : CodePoint → Bytes
  | .char c => if c = '\x00' then [] else String.utf8EncodeChar c
  | .surrogate n => if 0x480 ≤ n.val ∧ n.val < 0x500 then [UInt8.ofNat (n.val - 0x400)] else []

/-- The bytes of a name on the disk. -/
def Text.nameBytes (name : Text) : Bytes := name.flatMap CodePoint.nameBytes

/-- Whether a name on the disk can hold a code point. -/
def CodePoint.isNameable (c : CodePoint) : Bool := c.nameBytes ≠ []

/-- A path without empty names and single dots. -/
structure Path where
  absolute : Bool := false
  names : List Text := []
  deriving DecidableEq

/-- The place of a file or directory: the names from the root of the file system to it. -/
abbrev Location := List Text

namespace Path

/-- The name that leads to the directory above. -/
def up : Text := ".."

/-- The path written as a text. -/
def ofText (t : Text) : Path where
  absolute := t.head? = some (.char '/')
  names := (t.splitOn (.char '/')).filter fun name => name ≠ [] && name ≠ [.char '.']

/-- The text of a path. -/
def toText (p : Path) : Text :=
  if p.absolute then .char '/' :: List.intercalate [.char '/'] p.names
  else if p.names = [] then [.char '.']
  else List.intercalate [.char '/'] p.names

/-- The last name of a path. -/
def name (p : Path) : Text := p.names.getLastD []

/-- The path without its last name. -/
def parent (p : Path) : Path := { p with names := p.names.dropLast }

/-- The place a path names if every double dot takes back the name before it, whatever the file
system holds. -/
def place (workingDirectory : Location) (p : Path) : Location :=
  p.names.foldl (fun place name => if name = up then place.dropLast else place ++ [name])
    (if p.absolute then [] else workingDirectory)

/-- The absolute path to a place. -/
def ofLocation (place : Location) : Path := { absolute := true, names := place }

end Path
end Remapping
