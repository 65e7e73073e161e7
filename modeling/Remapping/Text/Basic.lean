/-!
# Text as a list of code points

Every name, descriptor, row and message of the library is a list of code points, so an offset
counts code points and a text function is a recursion on the list. String literals coerce to
texts, and characters to code points. A text is cut and joined with `List.splitOn` and
`List.intercalate`.
-/

namespace Remapping

/-- A code point: a character, or a surrogate that stands by itself. The name of a file that is
no UTF-8 is a text with such surrogates, and an escape can ask for one. -/
inductive CodePoint
  | char (c : Char)
  /-- The surrogate with number `0xd800 + n`. -/
  | surrogate (n : Fin 2048)
  deriving DecidableEq

instance : Coe Char CodePoint := ⟨.char⟩

namespace CodePoint

/-- The number of a code point. -/
def toNat : CodePoint → Nat
  | char c => c.toNat
  | surrogate n => 0xd800 + n

/-- The code point with a number below `0x110000`. -/
def ofNat (n : Nat) : CodePoint :=
  if h : 0xd800 ≤ n ∧ n < 0xe000 then surrogate ⟨n - 0xd800, by omega⟩ else char (Char.ofNat n)

/-- The character of a code point that is one. -/
def toChar? : CodePoint → Option Char
  | char c => some c
  | surrogate _ => none

/-- The code point is a character with a property. -/
def test (p : Char → Bool) : CodePoint → Bool
  | char c => p c
  | surrogate _ => false

/-- Changes a character, and no surrogate. -/
def map (f : Char → Char) : CodePoint → CodePoint
  | char c => char (f c)
  | surrogate n => surrogate n

/-- The code point is a digit. -/
def isDigit : CodePoint → Bool := test Char.isDigit

/-- The code point is a letter or a digit of ASCII. -/
def isAlphanum : CodePoint → Bool := test Char.isAlphanum

/-- The lower-case form of a capital of ASCII. -/
def toLower : CodePoint → CodePoint := map Char.toLower

/-- The capital of a letter of ASCII. -/
def toUpper : CodePoint → CodePoint := map Char.toUpper

/-- The value of a hexadecimal digit. -/
def hexValue? : CodePoint → Option Nat
  | char c =>
    if c.isDigit then some (c.toNat - 48)
    else if 'a' ≤ c ∧ c ≤ 'f' then some (c.toNat - 87)
    else if 'A' ≤ c ∧ c ≤ 'F' then some (c.toNat - 55)
    else none
  | surrogate _ => none

end CodePoint

/-- A text: its code points in order. -/
abbrev Text := List CodePoint

/-- The hash of a text depends on the numbers of its code points alone. -/
instance : Hashable Text := ⟨fun t => t.foldl (fun h c => mixHash h (hash c.toNat)) 7⟩

end Remapping

/-- The text of a string. -/
def String.toText (s : String) : Remapping.Text := s.toList.map .char

@[simp] theorem String.toText_inj {s t : String} : s.toText = t.toText ↔ s = t := by
  rw [toText, toText, List.map_inj_right fun _ _ h => Remapping.CodePoint.char.inj h,
    String.toList_inj]

namespace Remapping

instance : Coe String Text := ⟨String.toText⟩

namespace Text

/-- The string of a text without surrogates. -/
def toString? (t : Text) : Option String := (t.mapM CodePoint.toChar?).map String.ofList

/-- The digits of a number in a base of at most sixteen. -/
def inBase (base n : Nat) : Text := (Nat.toDigits base n).map .char

/-- The decimal digits of a natural number. -/
def ofNat (n : Nat) : Text := inBase 10 n

/-- The decimal digits of an integer, after a minus sign if it is negative. -/
def ofInt : Int → Text
  | .ofNat n => ofNat n
  | .negSucc n => .char '-' :: ofNat (n + 1)

/-- `grouped digits` puts a comma before every third digit from the end. -/
def grouped (digits : Text) : Text :=
  (digits.reverse.foldl
    (fun (state : Text × Nat) digit =>
      if state.2 ≠ 0 ∧ state.2 % 3 = 0 then (digit :: .char ',' :: state.1, state.2 + 1)
      else (digit :: state.1, state.2 + 1))
    ([], 0)).1

/-- An integer with commas between groups of three digits. -/
def ofIntGrouped : Int → Text
  | .ofNat n => grouped (ofNat n)
  | .negSucc n => .char '-' :: grouped (ofNat (n + 1))

/-- `padLeft width fill t` is `t` after as many `fill` as reach `width`. -/
def padLeft (width : Nat) (fill : CodePoint) (t : Text) : Text :=
  List.replicate (width - t.length) fill ++ t

/-- `padRight width fill t` is `t` before as many `fill` as reach `width`. -/
def padRight (width : Nat) (fill : CodePoint) (t : Text) : Text :=
  t ++ List.replicate (width - t.length) fill

/-- A number in lower-case hexadecimal digits, with zeros in front up to `width`. -/
def ofHex (width n : Nat) : Text := padLeft width '0' (inBase 16 n)

end Text
end Remapping
