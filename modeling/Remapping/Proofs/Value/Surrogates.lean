import Mathlib.Data.Set.List
import Mathlib.Tactic.SplitIfs
import Remapping.Moment
import Remapping.Proofs.Text.Encodings
import Remapping.Value.Json

/-!
# Surrogates in documents

A text has no bytes in UTF-8 exactly if it has a surrogate, so a document with one cannot be written
down. Read `hasSurrogate_json` and `hasSurrogate_jsonIndented` first: the JSON text of a document
has a surrogate exactly if a text in the document has one. Nothing else in a document can be to
blame, since JSON escapes no surrogate and adds none.
-/

namespace Remapping

namespace Text

/-- A text has a surrogate that stands by itself. -/
def HasSurrogate (t : Text) : Prop := ∃ c ∈ t, c.toChar? = none

instance (t : Text) : Decidable t.HasSurrogate :=
  inferInstanceAs (Decidable (∃ c ∈ t, c.toChar? = none))

@[simp] theorem not_hasSurrogate_nil : ¬ HasSurrogate [] := by simp [HasSurrogate]

@[simp] theorem hasSurrogate_cons {c : CodePoint} {t : Text} :
    HasSurrogate (c :: t) ↔ c.toChar? = none ∨ t.HasSurrogate := by
  simp [HasSurrogate]

@[simp] theorem hasSurrogate_append {t u : Text} :
    HasSurrogate (t ++ u) ↔ t.HasSurrogate ∨ u.HasSurrogate := by
  simp only [HasSurrogate, List.mem_append, or_and_right, exists_or]

@[simp] theorem hasSurrogate_flatMap {α : Type} {f : α → Text} {as : List α} :
    HasSurrogate (as.flatMap f) ↔ ∃ a ∈ as, (f a).HasSurrogate := by
  induction as with
  | nil => simp
  | cons a as ih => simp [ih]

/-- A part of a text has no surrogate that the text does not have. -/
theorem HasSurrogate.of_subset {t u : Text} (h : t.HasSurrogate) (hsubset : t ⊆ u) :
    u.HasSurrogate := by
  obtain ⟨c, hc, hnone⟩ := h
  exact ⟨c, hsubset hc, hnone⟩

@[simp] theorem not_hasSurrogate_replicate {n : Nat} {c : Char} :
    ¬ HasSurrogate (List.replicate n (.char c)) := by
  rintro ⟨d, hd, hnone⟩
  rw [List.eq_of_mem_replicate hd] at hnone
  cases hnone

/-- Characters are no surrogates. -/
@[simp] theorem not_hasSurrogate_map_char (cs : List Char) :
    ¬ HasSurrogate (cs.map .char) := by
  rintro ⟨d, hd, hnone⟩
  obtain ⟨c, -, rfl⟩ := List.mem_map.mp hd
  cases hnone

@[simp] theorem not_hasSurrogate_toText (s : String) : ¬ s.toText.HasSurrogate :=
  not_hasSurrogate_map_char s.toList

@[simp] theorem not_hasSurrogate_ofNat (n : Nat) : ¬ (ofNat n).HasSurrogate :=
  not_hasSurrogate_map_char _

@[simp] theorem not_hasSurrogate_ofInt (n : Int) : ¬ (ofInt n).HasSurrogate := by
  cases n <;> simp [ofInt, CodePoint.toChar?]

@[simp] theorem hasSurrogate_padLeft {width : Nat} {c : Char} {t : Text} :
    HasSurrogate (padLeft width (.char c) t) ↔ t.HasSurrogate := by
  simp [padLeft]

@[simp] theorem hasSurrogate_padRight {width : Nat} {c : Char} {t : Text} :
    HasSurrogate (padRight width (.char c) t) ↔ t.HasSurrogate := by
  simp [padRight]

/-- Texts that are joined by characters have the surrogates that one of them has. -/
theorem hasSurrogate_intercalate {separator : Text} (h : ¬ separator.HasSurrogate)
    {ts : List Text} :
    HasSurrogate (List.intercalate separator ts) ↔ ∃ t ∈ ts, t.HasSurrogate := by
  induction ts with
  | nil => simp
  | cons t ts ih =>
      cases ts with
      | nil => simp
      | cons u ts => simp [ih, h]

/-- A text has no bytes in UTF-8 exactly if it has a surrogate. -/
theorem utf8?_eq_none_iff {t : Text} : t.utf8? = none ↔ t.HasSurrogate := by
  rw [← Option.isNone_iff_eq_none, ← not_iff_not, Bool.not_eq_true, ← Option.not_isSome,
    Bool.not_eq_false', Encoding.isSome_utf8?_iff]
  constructor
  · rintro ⟨cs, rfl⟩
    exact not_hasSurrogate_map_char cs
  · intro h
    have hchars : t ∈ Set.range (List.map CodePoint.char) := by
      rw [Set.range_list_map]
      intro c hc
      cases c with
      | char c => exact ⟨c, rfl⟩
      | surrogate n => exact absurd ⟨_, hc, rfl⟩ h
    obtain ⟨cs, hcs⟩ := hchars
    exact ⟨cs, hcs.symm⟩

end Text

/-! ## Numbers and times -/

namespace Binary64

/-- A power of ten is written in characters. -/
theorem not_hasSurrogate_powerOfTen (power : Int) : ¬ (powerOfTen power).HasSurrogate := by
  unfold powerOfTen
  split <;> simp [CodePoint.toChar?]

/-- The digits and marks of a decimal are characters. -/
theorem not_hasSurrogate_renderDecimal (d : Decimal) : ¬ d.render.HasSurrogate := by
  have hpart {t : Text} (hsubset : t ⊆ Text.ofNat d.digits) : ¬ t.HasSurrogate := fun h =>
    Text.not_hasSurrogate_ofNat _ (h.of_subset hsubset)
  have htake (n : Nat) := hpart (List.take_subset n _)
  have htail := hpart (List.tail_sublist _).subset
  have hdrop (n : Nat) := hpart (List.drop_subset n _)
  unfold Decimal.render
  dsimp only
  split_ifs <;> simp [CodePoint.toChar?, not_hasSurrogate_powerOfTen, htake, hdrop, htail]

/-- A number is written in characters. -/
theorem not_hasSurrogate_render (x : Binary64) : ¬ x.render.HasSurrogate := by
  cases x with
  | nan => exact Text.not_hasSurrogate_toText _
  | infinite negative => cases negative <;> exact Text.not_hasSurrogate_toText _
  | finite negative mantissa exponent =>
      unfold render
      dsimp only
      split_ifs <;> simp [not_hasSurrogate_renderDecimal]

end Binary64

/-- A moment is written in characters. -/
theorem Moment.not_hasSurrogate_precise (m : Moment) : ¬ m.precise.HasSurrogate := by
  unfold precise
  dsimp only
  split <;> simp [dateAndTime, twoDigits, CodePoint.toChar?]

/-! ## Documents -/

namespace Value

mutual

/-- The texts in a document, those of keys with those of values. -/
def texts : Value → List Text
  | text t | moment t => [t]
  | list items => itemTexts items
  | table entries => entryTexts entries
  | null | bool _ | int _ | float _ => []

/-- The texts in the items of a list. -/
def itemTexts : List Value → List Text
  | [] => []
  | item :: items => texts item ++ itemTexts items

/-- The texts in the entries of a table. -/
def entryTexts : List (Text × Value) → List Text
  | [] => []
  | (key, value) :: entries => key :: texts value ++ entryTexts entries

end

/-- The texts in the items of a list that are texts. -/
theorem itemTexts_map_text (ts : List Text) : itemTexts (ts.map .text) = ts := by
  induction ts with
  | nil => rfl
  | cons t ts ih => rw [List.map_cons, itemTexts, texts, ih, List.singleton_append]

/-- A character of a JSON string is a surrogate exactly if it stands for one. -/
theorem hasSurrogate_jsonChar (c : CodePoint) : (jsonChar c).HasSurrogate ↔ c.toChar? = none := by
  cases c with
  | surrogate n =>
      have hbound : ¬ (CodePoint.surrogate n).toNat < 0x20 := by
        simp only [CodePoint.toNat]
        omega
      simp [jsonChar, hbound]
  | char c =>
      refine iff_of_false ?_ (by simp [CodePoint.toChar?])
      unfold jsonChar
      split_ifs
      all_goals simp [CodePoint.toChar?, Text.ofHex, Text.inBase]

/-- A JSON string has the surrogates of its text. -/
theorem hasSurrogate_jsonString {t : Text} : (jsonString t).HasSurrogate ↔ t.HasSurrogate := by
  simp only [jsonString, List.cons_append, Text.hasSurrogate_cons, Text.hasSurrogate_append,
    Text.hasSurrogate_flatMap, hasSurrogate_jsonChar]
  simp [CodePoint.toChar?, Text.HasSurrogate]

mutual

/-- The JSON text of a document has a surrogate exactly if a text in the document has one. -/
theorem hasSurrogate_json : ∀ v : Value, (json v).HasSurrogate ↔ ∃ t ∈ v.texts, t.HasSurrogate
  | null => by simp [json, texts]
  | bool b => by cases b <;> simp [json, texts]
  | int n => by simp [json, texts]
  | float x => by simp [json, texts, x.not_hasSurrogate_render]
  | text t => by simp [json, texts, hasSurrogate_jsonString]
  | moment t => by simp [json, texts, hasSurrogate_jsonString]
  | list items => by
      simp [json, texts, CodePoint.toChar?, Text.hasSurrogate_intercalate,
        exists_hasSurrogate_jsonItems items]
  | table entries => by
      simp [json, texts, CodePoint.toChar?, Text.hasSurrogate_intercalate,
        exists_hasSurrogate_jsonEntries entries]

theorem exists_hasSurrogate_jsonItems : ∀ items : List Value,
    (∃ t ∈ jsonItems items, t.HasSurrogate) ↔ ∃ t ∈ itemTexts items, t.HasSurrogate
  | [] => by simp [jsonItems, itemTexts]
  | item :: items => by
      simp [jsonItems, itemTexts, or_and_right, exists_or, hasSurrogate_json item,
        exists_hasSurrogate_jsonItems items]

theorem exists_hasSurrogate_jsonEntries : ∀ entries : List (Text × Value),
    (∃ t ∈ jsonEntries entries, t.HasSurrogate) ↔ ∃ t ∈ entryTexts entries, t.HasSurrogate
  | [] => by simp [jsonEntries, entryTexts]
  | (key, value) :: entries => by
      simp [jsonEntries, entryTexts, or_and_right, exists_or, or_assoc, hasSurrogate_jsonString,
        hasSurrogate_json value, exists_hasSurrogate_jsonEntries entries]

end

/-- Brackets and blanks around parts are characters. -/
theorem hasSurrogate_bracketed {first last : Char} {indent : Nat} {parts : List Text} :
    (bracketed (.char first) (.char last) indent parts).HasSurrogate ↔
      ∃ t ∈ parts, t.HasSurrogate := by
  unfold bracketed
  dsimp only
  split
  · next hparts => simp [hparts, CodePoint.toChar?]
  · rw [Text.hasSurrogate_append, List.cons_append]
    simp [CodePoint.toChar?, Text.hasSurrogate_intercalate]

mutual

/-- The indented JSON text of a document has a surrogate exactly if a text in the document has
one. -/
theorem hasSurrogate_jsonIndented : ∀ (indent : Nat) (v : Value),
    (v.jsonIndented indent).HasSurrogate ↔ ∃ t ∈ v.texts, t.HasSurrogate
  | _, null | _, bool _ | _, int _ | _, float _ | _, text _ | _, moment _ => by
      rw [jsonIndented, hasSurrogate_json]
  | indent, list items => by
      rw [jsonIndented, hasSurrogate_bracketed, texts, exists_hasSurrogate_indentedItems]
  | indent, table entries => by
      rw [jsonIndented, hasSurrogate_bracketed, texts, exists_hasSurrogate_indentedEntries]

theorem exists_hasSurrogate_indentedItems : ∀ (indent : Nat) (items : List Value),
    (∃ t ∈ indentedItems indent items, t.HasSurrogate) ↔ ∃ t ∈ itemTexts items, t.HasSurrogate
  | _, [] => by simp [indentedItems, itemTexts]
  | indent, item :: items => by
      simp [indentedItems, itemTexts, or_and_right, exists_or,
        hasSurrogate_jsonIndented indent item, exists_hasSurrogate_indentedItems indent items]

theorem exists_hasSurrogate_indentedEntries : ∀ (indent : Nat) (entries : List (Text × Value)),
    (∃ t ∈ indentedEntries indent entries, t.HasSurrogate) ↔
      ∃ t ∈ entryTexts entries, t.HasSurrogate
  | _, [] => by simp [indentedEntries, entryTexts]
  | indent, (key, value) :: entries => by
      simp [indentedEntries, entryTexts, or_and_right, exists_or, or_assoc,
        hasSurrogate_jsonString, hasSurrogate_jsonIndented indent value,
        exists_hasSurrogate_indentedEntries indent entries]

end

end Value
end Remapping
