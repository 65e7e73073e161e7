import Remapping.Encoding

/-!
# Encoded texts are read back

A file holds the mark of its encoding once, at its start, and behind it the bytes of one
character after the other. Read `decode_mark_append` first: the bytes of a text, behind the mark,
are read as this text in every encoding. `decodeUnits_char` is the step of it for the encodings
that may need two units for a character. `isSome_utf8?_iff` says which texts have bytes in UTF-8:
those without surrogates.
-/

namespace Remapping.Encoding

/-! ## Encoding character by character -/

/-- The bytes of two texts after each other. -/
theorem encodeText?_append (e : Encoding) (t u : Text) :
    e.encodeText? (t ++ u) =
      (e.encodeText? t).bind fun a => (e.encodeText? u).map fun b => a ++ b := by
  unfold encodeText?
  rw [List.mapM_append]
  cases t.mapM e.encodeChar? with
  | none => rfl
  | some a =>
      cases u.mapM e.encodeChar? with
      | none => rfl
      | some b => simp

/-- A text is encoded exactly if its first character and the text behind it are. -/
theorem encodeText?_cons_eq_some_iff {e : Encoding} {c : CodePoint} {t : Text} {bytes : Bytes} :
    e.encodeText? (c :: t) = some bytes ↔
      ∃ first rest, e.encodeChar? c = some first ∧ e.encodeText? t = some rest ∧
        bytes = first ++ rest := by
  have hfirst : e.encodeText? [c] = e.encodeChar? c := by
    rw [encodeText?, List.mapM_cons]
    cases e.encodeChar? c with
    | none => rfl
    | some first => simp
  rw [← List.singleton_append, encodeText?_append, hfirst]
  simp only [Option.bind_eq_some_iff, Option.map_eq_some_iff]
  constructor
  · intro h
    obtain ⟨first, hchar, rest, hrest, rfl⟩ := h
    exact ⟨first, rest, hchar, hrest, rfl⟩
  · intro h
    obtain ⟨first, rest, hchar, hrest, rfl⟩ := h
    exact ⟨first, hchar, rest, hrest, rfl⟩

/-- A text cannot be encoded exactly if one of its code points cannot. -/
theorem encodeText?_eq_none_iff {e : Encoding} {t : Text} :
    e.encodeText? t = none ↔ ∃ c ∈ t, e.encodeChar? c = none := by
  induction t with
  | nil => simp [encodeText?]
  | cons c t ih =>
      simp only [List.mem_cons, or_and_right, exists_or, exists_eq_left, ← ih]
      cases hchar : e.encodeChar? c <;> cases hrest : e.encodeText? t <;>
        simp [Option.eq_none_iff_forall_ne_some, encodeText?_cons_eq_some_iff, hchar, hrest]

/-- A text that has bytes in an encoding has no surrogates. -/
theorem exists_chars_of_encodeText {e : Encoding} {t : Text} {bytes : Bytes}
    (h : e.encodeText? t = some bytes) : ∃ cs : List Char, t = cs.map .char := by
  induction t generalizing bytes with
  | nil => exact ⟨[], rfl⟩
  | cons c t ih =>
      obtain ⟨first, rest, hchar, hrest, rfl⟩ := encodeText?_cons_eq_some_iff.mp h
      obtain ⟨cs, rfl⟩ := ih hrest
      cases c with
      | char c => exact ⟨c :: cs, rfl⟩
      | surrogate n => cases hchar

/-! ## One byte for a character -/

/-- Where a character is one byte with its number, the bytes of a text are its characters. -/
theorem chars_of_single {e : Encoding} (limit : Nat) (hlimit : limit ≤ 256)
    (he : ∀ c : Char,
      e.encodeChar? c = if c.toNat < limit then some [UInt8.ofNat c.toNat] else none)
    {t : Text} {bytes : Bytes} (h : e.encodeText? t = some bytes) :
    (∀ b ∈ bytes, b.toNat < limit) ∧ single bytes = t := by
  obtain ⟨cs, rfl⟩ := exists_chars_of_encodeText h
  induction cs generalizing bytes with
  | nil =>
      obtain rfl := Option.some.inj h
      exact ⟨nofun, rfl⟩
  | cons c cs ih =>
      obtain ⟨first, rest, hchar, hrest, rfl⟩ := encodeText?_cons_eq_some_iff.mp h
      rw [he] at hchar
      split at hchar
      · next hc =>
        obtain rfl := Option.some.inj hchar
        obtain ⟨hbound, hchars⟩ := ih hrest
        have hbyte : (UInt8.ofNat c.toNat).toNat = c.toNat := by
          rw [UInt8.toNat_ofNat']
          omega
        refine ⟨List.forall_mem_cons.mpr ⟨hbyte.symm ▸ hc, hbound⟩, ?_⟩
        rw [List.singleton_append, single, List.map_cons, hbyte, Char.ofNat_toNat]
        exact congrArg _ hchars
      · cases hchar

/-! ## Units of two bytes -/

/-- A unit is read back from its bytes, in either order. -/
theorem exists_unitBytes_eq (bigEndian : Bool) {u : Nat} (hu : u < 0x10000) :
    ∃ a b, unitBytes bigEndian u = [a, b] ∧ unit bigEndian a b = u := by
  have hhigh : (UInt8.ofNat (u / 256)).toNat = u / 256 := by
    rw [UInt8.toNat_ofNat']
    omega
  have hlow : (UInt8.ofNat (u % 256)).toNat = u % 256 := by
    rw [UInt8.toNat_ofNat']
    omega
  cases bigEndian with
  | false => exact ⟨_, _, rfl, by simp only [unit, hhigh, hlow]; simp; omega⟩
  | true => exact ⟨_, _, rfl, by simp only [unit, hhigh, hlow]; simp; omega⟩

/-- The number of a character is no surrogate, and not too large. -/
theorem toNat_cases (c : Char) :
    c.toNat < 0xd800 ∨ 0xe000 ≤ c.toNat ∧ c.toNat < 0x110000 := by
  rcases c.valid with h | h
  · exact .inl h
  · exact .inr ⟨h.1, h.2⟩

/-- The units of a character are read as this character, whatever follows. -/
theorem decodeUnits_char (bigEndian : Bool) (c : Char) (read : Text) (rest : Bytes) :
    decodeUnits bigEndian read ((units c).flatMap (unitBytes bigEndian) ++ rest) =
      decodeUnits bigEndian (.char c :: read) rest := by
  have hcases := toNat_cases c
  by_cases hc : c.toNat < 0x10000
  · obtain ⟨a, b, hbytes, hunit⟩ := exists_unitBytes_eq bigEndian hc
    have hplain : (decide (c.toNat < 0xd800) || decide (0xe000 ≤ c.toNat)) = true := by
      simp only [Bool.or_eq_true, decide_eq_true_eq]
      omega
    rw [units, if_pos hc, List.flatMap_singleton, hbytes, List.cons_append, List.cons_append,
      List.nil_append, decodeUnits.eq_def]
    simp only [hunit, hplain, if_true, Char.ofNat_toNat]
  · -- The number above the first 65536 is spread over the low bits of two surrogates.
    have hfirst : 0xd800 + (c.toNat - 0x10000) / 0x400 < 0x10000 := by omega
    have hsecond : 0xdc00 + (c.toNat - 0x10000) % 0x400 < 0x10000 := by omega
    obtain ⟨a, b, hbytes, hunit⟩ := exists_unitBytes_eq bigEndian hfirst
    obtain ⟨a', b', hbytes', hunit'⟩ := exists_unitBytes_eq bigEndian hsecond
    have hsum : 0x10000 + (0xd800 + (c.toNat - 0x10000) / 0x400 - 0xd800) * 0x400 +
        (0xdc00 + (c.toNat - 0x10000) % 0x400 - 0xdc00) = c.toNat := by
      omega
    have hsurrogate : (decide (0xd800 + (c.toNat - 0x10000) / 0x400 < 0xd800) ||
        decide (0xe000 ≤ 0xd800 + (c.toNat - 0x10000) / 0x400)) = false := by
      simp only [Bool.or_eq_false_iff, decide_eq_false_iff_not]
      omega
    have hhigh : ¬ 0xdc00 ≤ 0xd800 + (c.toNat - 0x10000) / 0x400 := by omega
    have hlow : (decide (0xdc00 ≤ 0xdc00 + (c.toNat - 0x10000) % 0x400) &&
        decide (0xdc00 + (c.toNat - 0x10000) % 0x400 < 0xe000)) = true := by
      simp only [Bool.and_eq_true, decide_eq_true_eq]
      omega
    rw [units, if_neg hc, List.flatMap_cons, List.flatMap_singleton, hbytes, hbytes']
    simp only [List.cons_append, List.nil_append, decodeUnits, hunit, hsurrogate, hunit', hlow,
      if_neg hhigh, if_true, hsum, Char.ofNat_toNat, Bool.false_eq_true, if_false]

/-- The units of a text are read as this text, behind what was read before. -/
theorem decodeUnits_text {e : Encoding} {bigEndian : Bool}
    (he : ∀ c : Char, e.encodeChar? c = some ((units c).flatMap (unitBytes bigEndian)))
    {t : Text} {bytes : Bytes} (h : e.encodeText? t = some bytes) (read : Text) :
    decodeUnits bigEndian read bytes = some (read.reverse ++ t, []) := by
  obtain ⟨cs, rfl⟩ := exists_chars_of_encodeText h
  induction cs generalizing bytes read with
  | nil =>
      obtain rfl := Option.some.inj h
      simp [decodeUnits]
  | cons c cs ih =>
      obtain ⟨first, rest, hchar, hrest, rfl⟩ := encodeText?_cons_eq_some_iff.mp h
      rw [he] at hchar
      obtain rfl := Option.some.inj hchar
      rw [decodeUnits_char, ih _ hrest]
      simp

/-- The units of a text are read as this text. -/
theorem decodeUtf16_text {e : Encoding} {bigEndian : Bool}
    (he : ∀ c : Char, e.encodeChar? c = some ((units c).flatMap (unitBytes bigEndian)))
    {t : Text} {bytes : Bytes} (h : e.encodeText? t = some bytes) :
    decodeUtf16 bigEndian true bytes = .ok t := by
  rw [decodeUtf16, decodeUnits_text he h]
  rfl

/-! ## All encodings -/

/-- UTF-8 bytes are read as the text they were written from. -/
theorem decodeUtf8_of_encodeText {t : Text} {bytes : Bytes} (h : utf8.encodeText? t = some bytes) :
    decodeUtf8 true bytes = .ok t := by
  obtain ⟨cs, rfl⟩ := exists_chars_of_encodeText h
  obtain rfl := Option.some.inj ((encodeText?_utf8 cs).symm.trans h)
  have hback : utf8Text? (cs.flatMap String.utf8EncodeChar) = some (cs.map .char) := by
    rw [utf8Text?, ← List.utf8Encode, List.utf8Decode?_utf8Encode]
    rfl
  have hsplit : splitUtf8? (cs.flatMap String.utf8EncodeChar) = some (cs.map .char, []) := by
    rw [splitUtf8?, List.findSome?_cons]
    simp [-List.length_flatMap, List.splitAt_eq, hback]
  rw [decodeUtf8, hsplit]
  rfl

/-- One mark in front of UTF-8 bytes is dropped. -/
theorem decodeMarkedUtf8_mark_append {t : Text} {bytes : Bytes}
    (h : decodeUtf8 true bytes = .ok t) :
    decodeMarkedUtf8 true (utf8Mark ++ bytes) = .ok t := by
  unfold decodeMarkedUtf8
  split
  · next hprefix =>
    -- Nothing longer than the mark starts it, so there is no text behind the mark.
    have hlength := (List.isPrefixOf_iff_prefix.mp hprefix).length_le
    rw [List.length_append] at hlength
    obtain rfl : bytes = [] := List.eq_nil_of_length_eq_zero (by omega)
    exact h
  · have hmark : utf8Mark.isPrefixOf (utf8Mark ++ bytes) = true :=
      List.isPrefixOf_iff_prefix.mpr (List.prefix_append _ _)
    rw [if_pos hmark, List.drop_left, h]

/-- The bytes of a text, behind the mark of the encoding, are read as this text. -/
theorem decode_mark_append {e : Encoding} {t : Text} {bytes : Bytes}
    (h : e.encodeText? t = some bytes) : e.decode true (e.mark ++ bytes) = .ok t := by
  cases e with
  | utf8 => exact decodeUtf8_of_encodeText h
  | utf8Marked => exact decodeMarkedUtf8_mark_append (decodeUtf8_of_encodeText h)
  | ascii =>
      obtain ⟨hbound, hchars⟩ := chars_of_single 128 (by decide) (fun _ => rfl) h
      have hall : bytes.all (· < 128) = true :=
        List.all_eq_true.mpr fun b hb => decide_eq_true (UInt8.lt_iff_toNat_lt.mpr (hbound b hb))
      exact (if_pos hall).trans (congrArg Except.ok hchars)
  | latin1 =>
      obtain ⟨-, hchars⟩ := chars_of_single 256 (by decide) (fun _ => rfl) h
      exact congrArg Except.ok hchars
  | utf16 => exact decodeUtf16_text (fun _ => rfl) h
  | utf16LittleEndian => exact decodeUtf16_text (fun _ => rfl) h
  | utf16BigEndian => exact decodeUtf16_text (fun _ => rfl) h

/-- A text has bytes in UTF-8 exactly if it has no surrogates. -/
theorem isSome_utf8?_iff {t : Text} :
    t.utf8?.isSome = true ↔ ∃ cs : List Char, t = cs.map .char := by
  constructor
  · intro h
    obtain ⟨bytes, hbytes⟩ := Option.isSome_iff_exists.mp h
    exact exists_chars_of_encodeText hbytes
  · intro h
    obtain ⟨cs, rfl⟩ := h
    rw [Text.utf8?, encodeText?_utf8]
    rfl

end Remapping.Encoding
