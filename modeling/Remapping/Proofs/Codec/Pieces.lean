import Remapping.Codec.Basic
import Remapping.Proofs.Text.Encodings

/-!
# Files written in pieces

A codec is given the pieces of a file one after the other and stops at the first one that it has
no bytes for. Read `encodePieces_eq_true_iff` and `encodePieces_eq_false_iff` first: they say what
is in the file then. `Encoding.codec_composes` says that for the Unicode encodings it does not
matter into which pieces a file is cut; for other codecs it can.
-/

namespace Remapping

namespace Codec

variable {codec : Codec} {before pieces : List Text} {done : List Bytes} {bytes : Bytes}

/-- The bytes that pieces add to a file after the pieces written before, last first, if the codec
has bytes for all of them. -/
def added? (codec : Codec) (before : List Text) : List Text → Option Bytes
  | [] => some []
  | piece :: pieces =>
    (codec.encodeNext before piece).bind fun first =>
      (codec.added? (piece :: before) pieces).map (first ++ ·)

/-- The bytes of a file of pieces, if the codec has bytes for all of them. -/
def fileBytes? (codec : Codec) (pieces : List Text) : Option Bytes := codec.added? [] pieces

/-- The codec has no bytes for one of the pieces, and the pieces before the first such one add
these bytes. -/
def StopsAfter (codec : Codec) (before pieces : List Text) (bytes : Bytes) : Prop :=
  ∃ written refused rest, pieces = written ++ refused :: rest ∧
    codec.added? before written = some bytes ∧
    codec.encodeNext (written.reverse ++ before) refused = none

/-- The bytes of a file do not depend on the pieces that it is written in. -/
def Composes (codec : Codec) : Prop :=
  ∀ pieces, pieces ≠ [] → codec.fileBytes? pieces = codec.fileBytes? [pieces.flatten]

/-- The codec has bytes for a line feed, whatever was written before. -/
def EndsLines (codec : Codec) : Prop := ∀ before, codec.encodeNext before [.char '\n'] ≠ none

theorem added?_cons_eq_some_iff {piece : Text} :
    codec.added? before (piece :: pieces) = some bytes ↔
      ∃ first rest, codec.encodeNext before piece = some first ∧
        codec.added? (piece :: before) pieces = some rest ∧ bytes = first ++ rest := by
  simp only [added?, Option.bind_eq_some_iff, Option.map_eq_some_iff, ← exists_and_left,
    eq_comm (a := bytes)]

/-- The codec stops at the first piece, or behind it. -/
theorem stopsAfter_cons_iff {piece : Text} :
    codec.StopsAfter before (piece :: pieces) bytes ↔
      codec.encodeNext before piece = none ∧ bytes = [] ∨
      ∃ first rest, codec.encodeNext before piece = some first ∧
        codec.StopsAfter (piece :: before) pieces rest ∧ bytes = first ++ rest := by
  constructor
  · intro h
    obtain ⟨written, refused, rest, hpieces, hadded, hrefused⟩ := h
    cases written with
    | nil =>
        obtain ⟨rfl, rfl⟩ := List.cons.inj hpieces
        exact .inl ⟨hrefused, (Option.some.inj hadded).symm⟩
    | cons piece' written =>
        obtain ⟨rfl, rfl⟩ := List.cons.inj hpieces
        obtain ⟨first, others, hfirst, hothers, rfl⟩ := added?_cons_eq_some_iff.mp hadded
        rw [List.reverse_cons, List.append_assoc] at hrefused
        exact .inr ⟨first, others, hfirst, ⟨written, refused, rest, rfl, hothers, hrefused⟩, rfl⟩
  · intro h
    rcases h with ⟨hrefused, rfl⟩ | ⟨first, others, hfirst, hstops, rfl⟩
    · exact ⟨[], piece, pieces, rfl, rfl, hrefused⟩
    · obtain ⟨written, refused, rest, rfl, hothers, hrefused⟩ := hstops
      refine ⟨piece :: written, refused, rest, rfl, ?_, ?_⟩
      · exact added?_cons_eq_some_iff.mpr ⟨first, others, hfirst, hothers, rfl⟩
      · rwa [List.reverse_cons, List.append_assoc]

/-- Pieces are written to their end exactly if the codec has bytes for all of them, and then the
file holds these bytes behind those that were in it. -/
theorem encodePieces_eq_true_iff :
    codec.encodePieces before done pieces = (bytes, true) ↔
      ∃ added, codec.added? before pieces = some added ∧
        bytes = done.reverse.flatten ++ added := by
  -- Pieces move from `pieces` to `before` one by one, so both accumulators are left general.
  induction pieces generalizing before done with
  | nil => simp [encodePieces, added?, eq_comm]
  | cons piece pieces ih =>
      rw [encodePieces]
      cases hfirst : codec.encodeNext before piece with
      | none => simp [added?, hfirst]
      | some first =>
          simp only [ih, added?_cons_eq_some_iff, hfirst, Option.some.injEq]
          constructor
          · intro h
            obtain ⟨rest, hrest, hbytes⟩ := h
            exact ⟨first ++ rest, ⟨first, rest, rfl, hrest, rfl⟩, by simp [hbytes]⟩
          · intro h
            obtain ⟨_, ⟨_, rest, rfl, hrest, rfl⟩, hbytes⟩ := h
            exact ⟨rest, hrest, by simp [hbytes]⟩

/-- Pieces are not written to their end exactly if the codec stops at one of them, and then the
file holds the bytes of those before it behind those that were in it. -/
theorem encodePieces_eq_false_iff :
    codec.encodePieces before done pieces = (bytes, false) ↔
      ∃ added, codec.StopsAfter before pieces added ∧
        bytes = done.reverse.flatten ++ added := by
  induction pieces generalizing before done with
  | nil => simp [encodePieces, StopsAfter]
  | cons piece pieces ih =>
      rw [encodePieces]
      cases hfirst : codec.encodeNext before piece with
      | none => simp [stopsAfter_cons_iff, hfirst, eq_comm]
      | some first =>
          simp only [ih, stopsAfter_cons_iff, hfirst, Option.some.injEq, reduceCtorEq, false_and,
            false_or]
          constructor
          · intro h
            obtain ⟨rest, hrest, hbytes⟩ := h
            exact ⟨first ++ rest, ⟨first, rest, rfl, hrest, rfl⟩, by simp [hbytes]⟩
          · intro h
            obtain ⟨_, ⟨_, rest, rfl, hrest, rfl⟩, hbytes⟩ := h
            exact ⟨rest, hrest, by simp [hbytes]⟩

/-- The codec stops if it does not have bytes for all pieces. -/
theorem exists_stopsAfter (h : codec.fileBytes? pieces = none) :
    ∃ bytes, codec.StopsAfter [] pieces bytes := by
  cases hwritten : codec.encodePieces [] [] pieces with
  | mk bytes complete =>
      cases complete with
      | true =>
          obtain ⟨added, hadded, -⟩ := encodePieces_eq_true_iff.mp hwritten
          cases hadded.symm.trans h
      | false =>
          obtain ⟨added, hstops, -⟩ := encodePieces_eq_false_iff.mp hwritten
          exact ⟨added, hstops⟩

/-- The codec stops at one place only. -/
theorem StopsAfter.unique {bytes' : Bytes} (h : codec.StopsAfter before pieces bytes)
    (h' : codec.StopsAfter before pieces bytes') : bytes = bytes' := by
  have hwritten : codec.encodePieces before [] pieces = (bytes, false) :=
    encodePieces_eq_false_iff.mpr ⟨bytes, h, rfl⟩
  have hwritten' : codec.encodePieces before [] pieces = (bytes', false) :=
    encodePieces_eq_false_iff.mpr ⟨bytes', h', rfl⟩
  exact (Prod.mk.inj (hwritten.symm.trans hwritten')).1

/-- A codec that stops does not have bytes for all pieces. -/
theorem StopsAfter.added?_eq_none (h : codec.StopsAfter before pieces bytes) :
    codec.added? before pieces = none := by
  have hstopped : codec.encodePieces before [] pieces = (bytes, false) :=
    encodePieces_eq_false_iff.mpr ⟨bytes, h, rfl⟩
  cases hadded : codec.added? before pieces with
  | none => rfl
  | some added =>
      have hwritten : codec.encodePieces before [] pieces = (added, true) :=
        encodePieces_eq_true_iff.mpr ⟨added, hadded, rfl⟩
      cases hstopped.symm.trans hwritten

end Codec

namespace Encoding

/-- Behind other pieces, pieces add the bytes of their text. -/
theorem added?_codec_of_ne (e : Encoding) {before : List Text} (hbefore : before ≠ [])
    (pieces : List Text) : e.codec.added? before pieces = e.encodeText? pieces.flatten := by
  induction pieces generalizing before with
  | nil => rfl
  | cons piece pieces ih =>
      rw [Codec.added?, ih (List.cons_ne_nil _ _), List.flatten_cons, encodeText?_append]
      simp only [codec, if_neg hbefore, List.nil_append, Option.map_id']

/-- A file in a Unicode encoding holds the mark and the bytes of its text. -/
theorem fileBytes?_codec (e : Encoding) {pieces : List Text} (h : pieces ≠ []) :
    e.codec.fileBytes? pieces = (e.encodeText? pieces.flatten).map (e.mark ++ ·) := by
  obtain ⟨piece, pieces, rfl⟩ := List.exists_cons_of_ne_nil h
  rw [Codec.fileBytes?, Codec.added?, e.added?_codec_of_ne (List.cons_ne_nil _ _),
    List.flatten_cons, encodeText?_append]
  cases hfirst : e.encodeText? piece <;> cases hrest : e.encodeText? pieces.flatten <;>
    simp [codec, hfirst]

/-- In a Unicode encoding it does not matter into which pieces a file is cut. -/
theorem codec_composes (e : Encoding) : e.codec.Composes := by
  intro pieces h
  rw [fileBytes?_codec e h, fileBytes?_codec e (List.cons_ne_nil _ _), List.flatten_singleton]

/-- The Unicode encodings have a line feed. -/
theorem codec_endsLines (e : Encoding) : e.codec.EndsLines := by
  intro before hnone
  have hfeed : e.encodeText? [.char '\n'] = none := Option.map_eq_none_iff.mp hnone
  cases e <;> cases hfeed

end Encoding
end Remapping
