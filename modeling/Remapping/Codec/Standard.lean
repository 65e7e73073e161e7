import Remapping.Codec.Domain
import Remapping.Codec.Escaped
import Remapping.Codec.Utf7

/-!
# The codecs of the program

The names by which the program finds a codec. Names are compared in lower case, with one
underscore for each run of punctuation. Of the codecs that a platform has, these are the Unicode
encodings and their subsets, UTF-7, texts with escapes, and domain names; what is proved holds for
any `Codecs`.
-/

namespace Remapping.Codecs

/-- A name in lower case, with one underscore for each run of punctuation. -/
def normalName (name : Text) : Text :=
  (name.foldl
    (fun (state : Text × Bool) (c : CodePoint) =>
      if c.isAlphanum || c == '.' then
        (c.toLower :: (if state.2 && !state.1.isEmpty then .char '_' :: state.1 else state.1),
          false)
      else (state.1, true))
    ([], false)).1.reverse

/-- A codec with its name and the other names it goes by. -/
structure Named where
  name : String
  aliases : List String := []
  codec : Codec

/-- The codecs with their names. -/
def table : List Named := [
  { name := "utf_8", codec := Encoding.utf8.codec,
    aliases := ["cp65001", "u8", "utf", "utf8", "utf8_ucs2", "utf8_ucs4"] },
  { name := "utf_8_sig", codec := Encoding.utf8Marked.codec },
  { name := "ascii", codec := Encoding.ascii.codec,
    aliases := ["646", "ansi_x3.4_1968", "ansi_x3.4_1986", "ansi_x3_4_1968", "cp367", "csascii",
      "ibm367", "iso646_us", "iso_646.irv_1991", "iso_ir_6", "us", "us_ascii"] },
  { name := "latin_1", codec := Encoding.latin1.codec,
    aliases := ["8859", "cp819", "csisolatin1", "ibm819", "iso8859", "iso8859_1", "iso_8859_1",
      "iso_8859_1_1987", "iso_ir_100", "l1", "latin", "latin1"] },
  { name := "utf_16", codec := Encoding.utf16.codec, aliases := ["u16", "utf16"] },
  { name := "utf_16_le", codec := Encoding.utf16LittleEndian.codec,
    aliases := ["unicodelittleunmarked", "utf_16le"] },
  { name := "utf_16_be", codec := Encoding.utf16BigEndian.codec,
    aliases := ["unicodebigunmarked", "utf_16be"] },
  { name := "utf_7", codec := Codec.utf7, aliases := ["u7", "unicode_1_1_utf_7", "utf7"] },
  { name := "raw_unicode_escape", codec := Codec.escaped },
  { name := "idna", codec := Codec.domain }]

/-- Whether a codec goes by a name in normal form. Other names are also found with points for
their underscores. -/
def Named.goesBy (entry : Named) (name : Text) : Bool :=
  let others : List Text := entry.aliases.map String.toText
  name == entry.name || others.contains name ||
    others.contains (name.map fun c : CodePoint => if c = '.' then .char '_' else c)

/-- The codecs that the program finds. -/
scoped instance standard : Codecs where
  find? name :=
    if name = "locale" then some Encoding.utf8.codec
    else (table.find? (·.goesBy (normalName name))).map Named.codec

end Remapping.Codecs
