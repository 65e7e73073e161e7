import Mathlib.Tactic.SplitIfs
import Remapping.Log.Basic
import Remapping.Proofs.Files.Shape
import Remapping.Proofs.Text.Encodings
import Remapping.Proofs.Text.Lines

/-!
# The lines of a log file

A record of texts is one line of JSON, whatever characters the texts hold: read
`isLine_json_ofTexts` first. `append_of_room` says that a log file grows by the line of a record,
as long as it stays below the size from which it is set aside; a line with a surrogate has no
bytes, and the file does not grow by it.
-/

namespace Remapping

open Text (IsLine)

namespace Value

/-- The number of a control character is written in digits. -/
theorem isLine_ofHex : ∀ n < 0x20, IsLine (Text.ofHex 4 n) := by decide

/-- A character of a JSON string ends no line. -/
theorem isLine_jsonChar (c : CodePoint) : IsLine (jsonChar c) := by
  unfold jsonChar
  split_ifs with hquoted hfeed hreturn
  case pos =>
    rcases hquoted with rfl | rfl
    · decide
    · decide
  any_goals decide
  case pos hcontrol =>
    exact (show IsLine [.char '\\', .char 'u'] by decide).append (isLine_ofHex _ hcontrol)
  case neg =>
    simp [IsLine, Text.isLineEnd, hfeed, hreturn]

/-- A JSON string is part of a line. -/
theorem isLine_jsonString (t : Text) : IsLine (jsonString t) := by
  have hchars : IsLine (t.flatMap jsonChar) := fun c hc => by
    obtain ⟨d, -, hd⟩ := List.mem_flatMap.mp hc
    exact isLine_jsonChar d c hd
  exact ((show IsLine [.char '\x22'] by decide).append hchars).append (by decide)

/-- A table of texts. -/
def ofTexts (entries : List (Text × Text)) : Value :=
  .table (entries.map fun entry => (entry.1, .text entry.2))

/-- A table of texts is one line of JSON. -/
theorem isLine_json_ofTexts (entries : List (Text × Text)) : IsLine (json (ofTexts entries)) := by
  have hentries : ∀ entry ∈ jsonEntries (entries.map fun entry => (entry.1, .text entry.2)),
      IsLine entry := by
    induction entries with
    | nil => simp [jsonEntries]
    | cons entry entries ih =>
        rw [List.map_cons, jsonEntries, List.forall_mem_cons]
        refine ⟨?_, ih⟩
        rw [json]
        exact ((isLine_jsonString _).append (by decide)).append (isLine_jsonString _)
  rw [ofTexts, json]
  exact ((show IsLine [.char '\x7b'] by decide).append
    (Text.isLine_intercalate (by decide) hentries)).append (by decide)

end Value

/-- A text has no more code points than bytes. -/
theorem Text.length_le_of_utf8 {t : Text} {bytes : Bytes} (h : t.utf8? = some bytes) :
    t.length ≤ bytes.length := by
  obtain ⟨cs, rfl⟩ := Encoding.exists_chars_of_encodeText h
  obtain rfl := Option.some.inj ((Encoding.encodeText?_utf8 cs).symm.trans h)
  induction cs with
  | nil => exact Nat.le_refl 0
  | cons c cs ih =>
      have hc : 0 < (String.utf8EncodeChar c).length := by
        rw [String.length_utf8EncodeChar]
        exact c.utf8Size_pos
      have hcs := ih (Encoding.encodeText?_utf8 cs)
      rw [List.flatMap_cons, List.length_append, List.map_cons, List.length_cons]
      omega

namespace LogFile

/-- A log file of a size is below the limit from which it is set aside, if it ever is. -/
def HasRoom (file : LogFile) (size : Nat) : Prop :=
  0 < file.maxBytes → 0 < file.backups → (size : Int) < file.maxBytes

/-- A smaller log file is below the limit as well. -/
theorem HasRoom.of_le {file : LogFile} {size size' : Nat} (h : file.HasRoom size)
    (hle : size' ≤ size) : file.HasRoom size' := fun hlimit hbackups => by
  have := h hlimit hbackups
  omega

/-- The room that a line takes: its bytes, and its code points if it has no bytes. -/
def lineSize (line : Text) : Nat := max line.length (lineBytes line).length

/-- A line that has bytes takes the room of its bytes. -/
theorem lineSize_of_utf8 {line : Text} {bytes : Bytes} (h : line.utf8? = some bytes) :
    lineSize line = bytes.length := by
  have hlength := Text.length_le_of_utf8 h
  rw [lineSize, lineBytes, h, Option.getD_some]
  omega

/-- A log file grows by a line that leaves it below the limit. -/
theorem append_of_room {file : LogFile} {files : Files} {bytes : Bytes} {line : Text}
    (hfile : files.node? file.place = some (.file bytes))
    (hroom : file.HasRoom (bytes.length + lineSize line)) :
    file.append files line = files.put file.place (.file (bytes ++ lineBytes line)) := by
  have hcontents : file.contents files = bytes := by rw [contents, hfile]
  -- The limit is compared with bytes and code points.
  have hcharacters : line.length ≤ lineSize line := Nat.le_max_left _ _
  have hbelow : (0 < file.maxBytes && file.maxBytes ≤ (bytes.length + line.length : Nat) &&
      0 < file.backups) = false := by
    rw [Bool.eq_false_iff]
    intro hfull
    simp only [Bool.and_eq_true, decide_eq_true_eq] at hfull
    have := hroom hfull.1.1 hfull.2
    omega
  unfold append
  rw [hcontents]
  simp only [hbelow, Bool.false_eq_true, if_false, hcontents]

end LogFile
end Remapping
