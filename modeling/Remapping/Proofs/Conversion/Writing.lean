import Remapping.Conversion.Output
import Remapping.Proofs.Codec.Pieces
import Remapping.Proofs.Files.Frame

/-!
# Writing all or nothing

What a written tiny file holds, and what a failed write leaves behind. Read `write_eq_ok_iff`
first: it says when a write succeeds, and that it then changes one file, which holds every row.
`write_error_atomic` says that a failed write through a temporary file changes nothing, and
`write_error_in_place` how far a failed write in place can have come.
-/

namespace Remapping

/-- A file has a header row at least. -/
theorem Tiny.rows_ne_nil (m : MappingSet) : rows m ≠ [] := List.cons_ne_nil _ _

namespace Output

/-! ## Rows -/

/-- The text of some rows, each with a line feed. -/
def joined (rows : List Text) : Text := rows.flatMap (· ++ [.char '\n'])

theorem flatten_pieces (rows : List Text) : (pieces rows).flatten = joined rows := by
  rw [pieces, joined, List.flatMap_def, List.flatMap_def, List.flatten_flatten, List.map_map]
  rfl

theorem pieces_ne_nil {rows : List Text} (h : rows ≠ []) : pieces rows ≠ [] := by
  obtain ⟨row, rows, rfl⟩ := List.exists_cons_of_ne_nil h
  exact List.cons_ne_nil _ _

/-- The bytes of a file of rows, if the setting names a codec that has bytes for all of them: the
bytes that the codec gives for the rows and line feeds, one after the other. -/
def fileBytes? (setting : EncodingSetting) (rows : List Text) : Option Bytes :=
  match setting with
  | .known codec => codec.fileBytes? (pieces rows)
  | _ => none

/-- In a Unicode encoding, a file of rows holds the mark and the bytes of their text. -/
theorem fileBytes?_encoding (e : Encoding) {rows : List Text} (h : rows ≠ []) :
    fileBytes? (.known e.codec) rows = (e.encodeText? (joined rows)).map (e.mark ++ ·) := by
  rw [← flatten_pieces]
  exact e.fileBytes?_codec (pieces_ne_nil h)

/-- A file has contents that the codec of a setting gives for some rows, one after the other. If it
does not matter to the codec how a file is cut into pieces, the contents are those that it gives
for the text of all rows. -/
structure FileOf (setting : EncodingSetting) (rows : List Text) (bytes : Bytes) : Prop where
  written : fileBytes? setting rows = some bytes
  whole : ∀ codec : Codec, setting = .known codec → codec.Composes →
    codec.fileBytes? [joined rows] = some bytes

theorem FileOf.of_fileBytes {setting : EncodingSetting} {rows : List Text} {bytes : Bytes}
    (hrows : rows ≠ []) (h : fileBytes? setting rows = some bytes) : FileOf setting rows bytes where
  written := h
  whole codec hsetting hcomposes := by
    subst hsetting
    rw [← flatten_pieces, ← hcomposes _ (pieces_ne_nil hrows)]
    exact h

theorem contents_eq_true_iff {codec : Codec} {rows : List Text} {bytes : Bytes} :
    contents codec rows = (bytes, true) ↔ fileBytes? (.known codec) rows = some bytes := by
  rw [contents, Codec.encodePieces_eq_true_iff, fileBytes?, Codec.fileBytes?]
  simp

theorem contents_eq_false_iff {codec : Codec} {rows : List Text} {bytes : Bytes} :
    contents codec rows = (bytes, false) ↔ codec.StopsAfter [] (pieces rows) bytes := by
  rw [contents, Codec.encodePieces_eq_false_iff]
  simp

/-- A file is filled without a failure exactly if it gets the bytes of all rows. -/
theorem fill_eq_ok_iff {files filled : Files} {place : Location} {setting : EncodingSetting}
    {rows : List Text} : fill files place setting rows = (filled, .ok ()) ↔
      ∃ bytes, fileBytes? setting rows = some bytes ∧ filled = files.put place (.file bytes) := by
  cases setting with
  | notAName => simp [fill, fileBytes?]
  | unknown => simp [fill, fileBytes?]
  | known codec =>
      simp only [← contents_eq_true_iff]
      cases hfilled : contents codec rows with
      | mk bytes complete => cases complete <;> simp [fill, hfilled, eq_comm]

/-- A file that cannot be filled is not touched if the setting is not a name; otherwise it holds
some of the bytes, and the codec is to blame. -/
theorem fill_error {files filled : Files} {place : Location} {setting : EncodingSetting}
    {rows : List Text} {failure : Failure}
    (h : fill files place setting rows = (filled, .error failure)) :
    setting = .notAName ∧ filled = files ∨
      (failure = .unknownEncoding ∨ failure = .unencodable) ∧
        ∃ bytes, filled = files.put place (.file bytes) := by
  cases setting with
  | notAName => exact .inl ⟨rfl, (Prod.mk.inj h).1.symm⟩
  | unknown =>
      obtain ⟨rfl, hfailure⟩ := Prod.mk.inj h
      exact .inr ⟨.inl (Except.error.inj hfailure).symm, [], rfl⟩
  | known codec =>
      rw [fill] at h
      cases hcontents : contents codec rows with
      | mk bytes complete =>
          rw [hcontents] at h
          obtain ⟨rfl, hfailure⟩ := Prod.mk.inj h
          cases complete with
          | false => exact .inr ⟨.inr (Except.error.inj hfailure).symm, bytes, rfl⟩
          | true => cases hfailure

/-! ## In place -/

variable {files written : Files} {p : Path} {setting : EncodingSetting} {rows : List Text}

/-- With a setting that can be a name, rows are written in place where the path leads. -/
theorem writeInPlace_of_ne (hsetting : setting ≠ .notAName) :
    writeInPlace files p setting rows = match files.writePlace p with
      | .ok place => fill files place setting rows
      | .error fault => (files, .error (failed p { fault, path := p.toText })) := by
  cases setting with
  | notAName => exact absurd rfl hsetting
  | unknown | known codec => cases hplace : files.writePlace p <;> simp [writeInPlace, hplace]

/-- A write in place succeeds exactly if the path leads to where a file can be written and the
codec has bytes for all rows, and puts all rows there. -/
theorem writeInPlace_eq_ok_iff : writeInPlace files p setting rows = (written, .ok ()) ↔
    ∃ place bytes, files.writePlace p = .ok place ∧
      fileBytes? setting rows = some bytes ∧
      written = files.put place (.file bytes) := by
  cases setting with
  | notAName => simp [writeInPlace, fileBytes?]
  | unknown | known codec =>
      cases hplace : files.writePlace p with
      | error fault => simp [writeInPlace, hplace]
      | ok place => simp [writeInPlace, hplace, fill_eq_ok_iff]

/-- A write in place that fails changes nothing, unless the file could be opened and the encoding
is to blame: then the file holds some of the bytes. -/
theorem writeInPlace_error {failure : Failure}
    (h : writeInPlace files p setting rows = (written, .error failure)) :
    written = files ∨ (failure = .unknownEncoding ∨ failure = .unencodable) ∧
      ∃ place bytes, files.writePlace p = .ok place ∧
        written = files.put place (.file bytes) := by
  unfold writeInPlace at h
  split at h
  · exact .inl (Prod.mk.inj h).1.symm
  · next place hsetting hplace =>
    rcases fill_error h with ⟨hname, -⟩ | ⟨hfailure, bytes, hfilled⟩
    · exact absurd hname hsetting
    · exact .inr ⟨hfailure, place, bytes, hplace, hfilled⟩
  · exact .inl (Prod.mk.inj h).1.symm

/-! ## Through a temporary file -/

/-- A write through a temporary file succeeds exactly if the temporary file can be made and a
write in place succeeds, and leaves the same files. -/
theorem writeAtomically_eq_ok_iff : writeAtomically files p setting rows = (written, .ok ()) ↔
    (∃ place, files.freshPlace (temporary files p) = .ok place) ∧
      ∃ place bytes, files.writePlace p = .ok place ∧
        fileBytes? setting rows = some bytes ∧
        written = files.put place (.file bytes) := by
  constructor
  · intro h
    unfold writeAtomically at h
    dsimp only at h
    split at h
    · cases (Prod.mk.inj h).2
    · next place htemporary =>
      have hfresh := (Files.freshPlace_eq_ok_iff.mp htemporary).2
      split at h
      · cases (Prod.mk.inj h).2
      · next filled hfill =>
        obtain ⟨bytes, hbytes, rfl⟩ := fill_eq_ok_iff.mp hfill
        split at h
        · next renamed hrename =>
          obtain ⟨rfl, -⟩ := Prod.mk.inj h
          obtain ⟨target, htarget, hput⟩ := (Files.rename_put_eq_ok_iff hfresh).mp hrename
          exact ⟨⟨place, htemporary⟩, target, bytes, htarget, hbytes, hput⟩
        · cases (Prod.mk.inj h).2
  · intro h
    obtain ⟨⟨place, htemporary⟩, target, bytes, htarget, hbytes, rfl⟩ := h
    have hfresh := (Files.freshPlace_eq_ok_iff.mp htemporary).2
    -- The same bytes go to the temporary file first, and the rename puts them at the target.
    have hfill : fill files place setting rows = (files.put place (.file bytes), .ok ()) :=
      fill_eq_ok_iff.mpr ⟨bytes, hbytes, rfl⟩
    have hrename : (files.put place (.file bytes)).rename place p =
        .ok (files.put target (.file bytes)) :=
      (Files.rename_put_eq_ok_iff hfresh).mpr ⟨target, htarget, rfl⟩
    unfold writeAtomically
    simp only [htemporary, hfill, hrename]

/-- A write through a temporary file that fails changes nothing. -/
theorem writeAtomically_error {failure : Failure}
    (h : writeAtomically files p setting rows = (written, .error failure)) : written = files := by
  unfold writeAtomically at h
  dsimp only at h
  split at h
  · exact (Prod.mk.inj h).1.symm
  · next temporary htemporary =>
    -- Both ways to fail from here on remove a file that was put where nothing stood.
    have hfresh := (Files.freshPlace_eq_ok_iff.mp htemporary).2
    split at h
    · next filled _ hfill =>
      obtain ⟨rfl, -⟩ := Prod.mk.inj h
      rcases fill_error hfill with ⟨-, rfl⟩ | ⟨-, bytes, rfl⟩
      · exact Files.remove_of_absent hfresh
      · exact Files.remove_put hfresh _
    · next filled hfill =>
      obtain ⟨bytes, -, rfl⟩ := fill_eq_ok_iff.mp hfill
      split at h
      · cases (Prod.mk.inj h).2
      · obtain ⟨rfl, -⟩ := Prod.mk.inj h
        exact Files.remove_put hfresh _

/-! ## Mapping sets -/

/-- A mapping set is written exactly if the path leads to where a file can be written, the
codec has bytes for all rows, and the temporary file, if there is to be one, can be
made. Then the file at the path holds the rows, and nothing else has changed. -/
theorem write_eq_ok_iff {atomic : Bool} {m : MappingSet} {count : Nat} :
    write files p atomic setting m = (written, .ok count) ↔ count = m.rowCount ∧
      (atomic = true → ∃ place, files.freshPlace (temporary files p) = .ok place) ∧
      ∃ place bytes, files.writePlace p = .ok place ∧
        fileBytes? setting (Tiny.rows m) = some bytes ∧
        written = files.put place (.file bytes) := by
  have hwriter : (if atomic then writeAtomically else writeInPlace) files p setting
      (Tiny.rows m) = (written, .ok ()) ↔
      (atomic = true → ∃ place, files.freshPlace (temporary files p) = .ok place) ∧
        ∃ place bytes, files.writePlace p = .ok place ∧
          fileBytes? setting (Tiny.rows m) = some bytes ∧
          written = files.put place (.file bytes) := by
    cases atomic with
    | true =>
        refine writeAtomically_eq_ok_iff.trans (and_congr_left fun _ => ?_)
        exact ⟨fun h _ => h, fun h => h rfl⟩
    | false =>
        refine writeInPlace_eq_ok_iff.trans ?_
        exact ⟨fun h => ⟨nofun, h⟩, And.right⟩
  rw [← hwriter]
  constructor
  · intro h
    unfold write at h
    split at h
    · cases (Prod.mk.inj h).2
    · cases (Prod.mk.inj h).2
    · dsimp only at h
      split at h
      · next after hwrite =>
        obtain ⟨rfl, hcount⟩ := Prod.mk.inj h
        exact ⟨(Except.ok.inj hcount).symm, hwrite⟩
      · cases (Prod.mk.inj h).2
  · intro h
    obtain ⟨rfl, hwrite⟩ := h
    obtain ⟨-, place, -, hplace, -⟩ := hwriter.mp hwrite
    unfold write
    simp only [Files.isDirectory_of_writePlace hplace, hwrite]

/-- A mapping set is not written if a directory stands at the path, and then nothing has changed,
or if its rows cannot be written. -/
theorem write_error {atomic : Bool} {m : MappingSet} {failure : Failure}
    (h : write files p atomic setting m = (written, .error failure)) : written = files ∨
      (if atomic then writeAtomically else writeInPlace) files p setting (Tiny.rows m) =
        (written, .error failure) := by
  unfold write at h
  split at h
  · exact .inl (Prod.mk.inj h).1.symm
  · exact .inl (Prod.mk.inj h).1.symm
  · dsimp only at h
    split at h
    · cases (Prod.mk.inj h).2
    · next after failure' hwrite =>
      obtain ⟨rfl, hfailure⟩ := Prod.mk.inj h
      obtain rfl := Except.error.inj hfailure
      exact .inr hwrite

/-- A write through a temporary file that fails changes nothing. -/
theorem write_error_atomic {m : MappingSet} {failure : Failure}
    (h : write files p true setting m = (written, .error failure)) : written = files := by
  rcases write_error h with hkept | hwrite
  · exact hkept
  · exact writeAtomically_error hwrite

/-- A write in place that fails changes nothing, unless the file could be opened and the encoding
is to blame: then the file holds some of the bytes. -/
theorem write_error_in_place {m : MappingSet} {failure : Failure}
    (h : write files p false setting m = (written, .error failure)) :
    written = files ∨ (failure = .unknownEncoding ∨ failure = .unencodable) ∧
      ∃ place bytes, files.writePlace p = .ok place ∧
        written = files.put place (.file bytes) := by
  rcases write_error h with hkept | hwrite
  · exact .inl hkept
  · exact writeInPlace_error hwrite

/-- Writing changes nothing, or puts a file where one can be written. -/
theorem write_cases {atomic : Bool} {m : MappingSet} {outcome : Except Failure Nat}
    (h : write files p atomic setting m = (written, outcome)) : written = files ∨
      ∃ place bytes, files.writePlace p = .ok place ∧ written = files.put place (.file bytes) := by
  cases outcome with
  | ok count =>
      obtain ⟨-, -, place, bytes, hplace, -, hput⟩ := write_eq_ok_iff.mp h
      exact .inr ⟨place, bytes, hplace, hput⟩
  | error failure =>
      cases atomic with
      | true => exact .inl (write_error_atomic h)
      | false => exact (write_error_in_place h).imp_right And.right

end Output
end Remapping
