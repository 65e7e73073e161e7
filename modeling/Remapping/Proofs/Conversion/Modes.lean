import Remapping.Codec.Utf7
import Remapping.Proofs.Conversion.Destination
import Remapping.Proofs.Conversion.Writing
import Remapping.Proofs.Files.Rooted

/-!
# In place or through a temporary file

The two ways to write a mapping set end alike: with the same rows in the same file, or with a
failure of the same kind. Read `write_modes_agree` first. The reason is that a temporary file can
be made beside a path exactly if the path leads somewhere (`freshPlace_temporary`), so both ways
meet the same obstacle. They differ in what a failure leaves behind: `write_refused` says how much
has been written in place when the codec has no bytes for a row.
-/

namespace Remapping

/-- The kind of a failure: what is left of it without the paths of the operation on files that was
met by it. -/
def Failure.kind : Failure → Failure
  | .conversion (.outputFailed path cause) =>
    .conversion (.outputFailed path { fault := cause.fault, path := [] })
  | .file cause => .file { fault := cause.fault, path := [] }
  | failure => failure

namespace Output

variable {files : Files} {p : Path} {setting : EncodingSetting} {rows : List Text}

/-! ## Rows that cannot be encoded -/

/-- A file has the contents of the rows before the first one that the codec cannot write behind
them, and nothing of this row. If it does not matter to the codec how a file is cut into pieces, the
contents are those that it gives for the text of the rows before. -/
def StopsAtRow (codec : Codec) (rows : List Text) (bytes : Bytes) : Prop :=
  ∃ before row after, rows = before ++ row :: after ∧
    fileBytes? (.known codec) (before ++ [row]) = none ∧
    fileBytes? (.known codec) before = some bytes ∧
    (before ≠ [] → codec.Composes → codec.fileBytes? [joined before] = some bytes)

/-- A file has the contents of the rows before the first one that a Unicode encoding does not
have. -/
def KeepsRowsBefore (e : Encoding) (rows : List Text) (bytes : Bytes) : Prop :=
  ∃ before row after, rows = before ++ row :: after ∧ e.encodeText? row = none ∧
    fileBytes? (.known e.codec) before = some bytes

/-- A piece of rows that is no line feed is a row, behind the pieces of the rows before it. -/
theorem exists_rows_of_pieces {written rest : List Text} {piece : Text}
    (hpieces : pieces rows = written ++ piece :: rest) (hpiece : piece ≠ [.char '\n']) :
    ∃ before after, rows = before ++ piece :: after ∧ pieces before = written := by
  induction rows generalizing written with
  | nil => cases written <;> cases hpieces
  | cons row rows ih =>
      match written with
      | [] =>
        obtain ⟨rfl, -⟩ := List.cons.inj hpieces
        exact ⟨[], rows, rfl, rfl⟩
      | [_] => exact absurd (List.cons.inj (List.cons.inj hpieces).2).1.symm hpiece
      | _ :: _ :: written =>
        injection hpieces with hrow hpieces
        injection hpieces with hfeed hpieces
        obtain ⟨before, after, rfl, rfl⟩ := ih hpieces
        exact ⟨row :: before, after, rfl, by rw [← hrow, ← hfeed]; rfl⟩

/-- What a codec that ends lines stops at, among rows and line feeds, is a row. -/
theorem exists_row_of_stops {codec : Codec} {bytes : Bytes} (hfeed : codec.EndsLines)
    (h : codec.StopsAfter [] (pieces rows) bytes) :
    ∃ before row after, rows = before ++ row :: after ∧
      fileBytes? (.known codec) before = some bytes ∧
      codec.encodeNext (pieces before).reverse row = none := by
  obtain ⟨written, refused, rest, hpieces, hadded, hrefused⟩ := h
  rw [List.append_nil] at hrefused
  have hrow : refused ≠ [.char '\n'] := by
    rintro rfl
    exact hfeed _ hrefused
  obtain ⟨before, after, hrows, rfl⟩ := exists_rows_of_pieces hpieces hrow
  exact ⟨before, refused, after, hrows, hadded, hrefused⟩

/-- A codec that ends lines leaves the rows before the one that it stops at. -/
theorem stopsAtRow_of_stops {codec : Codec} {bytes : Bytes} (hfeed : codec.EndsLines)
    (h : codec.StopsAfter [] (pieces rows) bytes) : StopsAtRow codec rows bytes := by
  obtain ⟨before, row, after, hrows, hbefore, hrefused⟩ := exists_row_of_stops hfeed h
  have hstops : codec.StopsAfter [] (pieces (before ++ [row])) bytes :=
    ⟨pieces before, row, [[.char '\n']], List.flatMap_append, hbefore,
      (List.append_nil _).symm ▸ hrefused⟩
  exact ⟨before, row, after, hrows, hstops.added?_eq_none, hbefore,
    fun hne hcomposes => (FileOf.of_fileBytes hne hbefore).whole codec rfl hcomposes⟩

/-- A Unicode encoding leaves the rows before the first one that it does not have. -/
theorem keepsRowsBefore_of_stops {e : Encoding} {bytes : Bytes}
    (h : e.codec.StopsAfter [] (pieces rows) bytes) : KeepsRowsBefore e rows bytes := by
  obtain ⟨before, row, after, hrows, hbefore, hrefused⟩ := exists_row_of_stops e.codec_endsLines h
  exact ⟨before, row, after, hrows, Option.map_eq_none_iff.mp hrefused, hbefore⟩

/-- A file of rows has no bytes in a Unicode encoding that does not have one of them. -/
theorem fileBytes?_eq_none {e : Encoding} {row : Text} (hmem : row ∈ rows)
    (hrow : e.encodeText? row = none) : fileBytes? (.known e.codec) rows = none := by
  obtain ⟨c, hc, hchar⟩ := Encoding.encodeText?_eq_none_iff.mp hrow
  have hjoined : e.encodeText? (joined rows) = none :=
    Encoding.encodeText?_eq_none_iff.mpr
      ⟨c, List.mem_flatMap.mpr ⟨row, hmem, List.mem_append_left _ hc⟩, hchar⟩
  rw [fileBytes?_encoding e (List.ne_nil_of_mem hmem), hjoined, Option.map_none]

/-! ## The temporary file -/

/-- The name of the n-th candidate for a temporary file. -/
def temporaryName (p : Path) (n : Nat) : Text :=
  .char '.' :: p.name ++ .char '.' :: Text.padLeft 8 '0' (Text.ofNat n) ++ ".tmp"

/-- The candidates stand beside the destination. -/
theorem candidate_eq_beside (files : Files) (p : Path) (n : Nat) :
    candidate files p n = p.beside files.workingDirectory (temporaryName p n) := rfl

/-- The name of a path beside another one. -/
theorem name_beside (workingDirectory : Location) (p : Path) (other : Text) :
    (p.beside workingDirectory other).name = other := List.getLastD_concat

/-- The name of a temporary file is longer than that of the destination. -/
theorem length_nameBytes_name_le (p : Path) (n : Nat) :
    p.name.nameBytes.length ≤ (temporaryName p n).nameBytes.length := by
  simp only [temporaryName, Text.nameBytes, List.cons_append, List.append_assoc, List.flatMap_cons,
    List.flatMap_append, List.length_append]
  omega

/-- The name of a temporary file leads down. -/
theorem descends_temporaryName (p : Path) (n : Nat) : Path.Descends [temporaryName p n] := by
  intro name hname
  obtain rfl := List.mem_singleton.mp hname
  have hlength : 4 ≤ (temporaryName p n).length := by
    simp only [temporaryName, List.length_append]
    exact Nat.le_add_left 4 _
  refine ⟨?_, ?_, ?_⟩ <;> intro h <;> rw [h] at hlength <;> exact absurd hlength (by decide)

/-- The disk can have the name of a temporary file if it can have that of the destination. -/
theorem unnameable_temporaryName_iff {p : Path} {n : Nat} :
    Text.Unnameable (temporaryName p n) ↔ p.name.Unnameable := by
  have hdigits : ¬ Text.Unnameable (Text.padLeft 8 '0' (Text.ofNat n)) := by
    intro hunnameable
    obtain ⟨c, hmem, hc⟩ := hunnameable
    rcases List.mem_append.mp hmem with hfill | hnumber
    · rw [List.eq_of_mem_replicate hfill] at hc
      exact absurd hc (by decide)
    · obtain ⟨digit, hdigit, rfl⟩ := List.mem_map.mp hnumber
      have hnul : digit ≠ '\x00' := by
        rintro rfl
        have hisDigit := Nat.isDigit_of_mem_toDigits (b := 10) (by decide) (by decide) hdigit
        exact absurd hisDigit (by decide)
      exact absurd (CodePoint.isNameable_char.mpr hnul) (by simp [hc])
  have hdot : ¬ Text.Unnameable [.char '.'] := by decide +kernel
  have htmp : ¬ Text.Unnameable ".tmp" := by decide +kernel
  rw [temporaryName, ← List.singleton_append, ← List.singleton_append (l := Text.padLeft ..)]
  simp only [Text.unnameable_append_iff, hdigits, hdot, htmp, or_false, false_or]

/-- A temporary file can be made beside a path that leads down exactly if the path leads
somewhere, and otherwise meets the same fault. -/
theorem freshPlace_temporary (h : files.Rooted) (hp : Path.Descends p.names) (hne : p.names ≠ [])
    (hlength : (temporary files p).name.nameBytes.length ≤ 255) :
    (files.freshPlace (temporary files p)).map (fun _ => ()) =
      (files.locate p).map fun _ => () := by
  obtain ⟨n, htemporary, hfree, -⟩ := exists_temporary_eq files p
  rw [htemporary, candidate_eq_beside, name_beside] at hlength
  rw [candidate_eq_beside] at hfree
  rw [htemporary, candidate_eq_beside, ← h.locate_beside hp hne
    (Nat.le_trans (length_nameBytes_name_le p n) hlength) hlength unnameable_temporaryName_iff]
  unfold Files.freshPlace
  cases hlocate : files.locate (p.beside files.workingDirectory (temporaryName p n)) with
  | error fault => rfl
  | ok place =>
      have hnode : (files.node? place).isSome = false := by
        rw [h.eq_of_locate_beside hp (descends_temporaryName p n) hlocate,
          ← Option.not_isNone, ← Files.isNone_kind?, hfree]
        rfl
      show Except.map _ (if (files.node? place).isSome = true then _ else _) = _
      rw [hnode]
      rfl

/-! ## Both ways -/

/-- The failure of an operation is of the same kind whatever path it was done on. -/
theorem kind_failed (p : Path) {e e' : FileError} (h : e.fault = e'.fault) :
    (failed p e).kind = (failed p e').kind := by
  rw [failed, failed, h]
  split
  · simp [Failure.kind, h]
  · simp [Failure.kind, h]

/-- Where no directory stands, rows are written to a path that leads down with the same outcome in
both ways, up to the path of a failed operation. -/
theorem writers_agree (h : files.Rooted) (hp : Path.Descends p.names) (hne : p.names ≠ [])
    (hlength : (temporary files p).name.nameBytes.length ≤ 255) (hsetting : setting ≠ .notAName)
    (hdirectory : files.isDirectory p = .ok false) (rows : List Text) :
    (writeAtomically files p setting rows).2.mapError Failure.kind =
      (writeInPlace files p setting rows).2.mapError Failure.kind := by
  have hwritePlace := Files.writePlace_eq_locate hdirectory
  have hfresh := freshPlace_temporary h hp hne hlength
  rw [snd_writeAtomically, writeInPlace_of_ne hsetting, hwritePlace]
  cases hlocate : files.locate p with
  | error fault =>
      rw [hlocate] at hfresh
      cases htemporary : files.freshPlace (temporary files p) with
      | ok beside => rw [htemporary] at hfresh; cases hfresh
      | error fault' =>
          rw [htemporary] at hfresh
          obtain rfl : fault' = fault := Except.error.inj hfresh
          exact congrArg Except.error (kind_failed p rfl)
  | ok place =>
      rw [hlocate] at hfresh hwritePlace
      cases htemporary : files.freshPlace (temporary files p) with
      | error fault => rw [htemporary] at hfresh; cases hfresh
      | ok beside =>
          have hbeside := (Files.freshPlace_eq_ok_iff.mp htemporary).2
          have houtcome := snd_fill_eq files files place beside setting rows
          dsimp only
          rw [← houtcome]
          cases hfill : fill files beside setting rows with
          | mk filled outcome =>
              cases outcome with
              | error failure => rfl
              | ok written =>
                  -- The rows are in the temporary file, which can be renamed to the path.
                  obtain ⟨bytes, -, rfl⟩ := fill_eq_ok_iff.mp hfill
                  have hrename : (files.put beside (.file bytes)).rename beside p =
                      .ok (files.put place (.file bytes)) :=
                    (Files.rename_put_eq_ok_iff hbeside).mpr ⟨place, hwritePlace, rfl⟩
                  rw [hrename]
                  rfl

/-! ## Mapping sets -/

/-- A result that is changed can be told by its failure or by its success first. -/
theorem mapError_map {ε ε' α β : Type} (x : Except ε α) (f : α → β) (g : ε → ε') :
    (x.map f).mapError g = (x.mapError g).map f := by
  cases x <;> rfl

/-- A set is not written where a directory stands or where nobody can look, and otherwise ends as
its rows do. -/
theorem snd_write (files : Files) (p : Path) (atomic : Bool) (setting : EncodingSetting)
    (m : MappingSet) : (write files p atomic setting m).2 =
      match files.isDirectory p with
      | .error e => .error (.file e)
      | .ok true => .error (.conversion (.outputIsDirectory p.toText))
      | .ok false => ((if atomic then writeAtomically else writeInPlace) files p setting
          (Tiny.rows m)).2.map fun _ => m.rowCount := by
  unfold write
  cases files.isDirectory p with
  | error e => rfl
  | ok directory =>
      cases directory with
      | true => rfl
      | false =>
          dsimp only
          cases (if atomic then writeAtomically else writeInPlace) files p setting
              (Tiny.rows m) with
          | mk written outcome => cases outcome <;> rfl

/-- Where a file can be written, a set is written in place as its rows fill the file. -/
theorem write_in_place_eq {place : Location} (hplace : files.writePlace p = .ok place)
    (setting : EncodingSetting) (m : MappingSet) : write files p false setting m =
      ((fill files place setting (Tiny.rows m)).1,
        (fill files place setting (Tiny.rows m)).2.map fun _ => m.rowCount) := by
  have hfill : writeInPlace files p setting (Tiny.rows m) =
      fill files place setting (Tiny.rows m) := by
    cases setting <;> simp [writeInPlace, hplace, fill]
  unfold write
  rw [Files.isDirectory_of_writePlace hplace]
  simp only [Bool.false_eq_true, if_false, hfill]
  cases fill files place setting (Tiny.rows m) with
  | mk written outcome => cases outcome <;> rfl

/-- A set is written in place and through a temporary file with the same outcome, and to the same
bytes: those that the codec gives for the rows and line feeds, one after the other. In a Unicode
encoding they are the mark and the text of all rows. Where the codec has no bytes, it leaves the
former file if there was a temporary file. In place, what was written before is left: the rows
before the first one that it cannot write, if the codec always has a line feed, and nothing if the
codec is unknown. -/
structure ModesAgree (files : Files) (p : Path) (setting : EncodingSetting) (m : MappingSet) :
    Prop where
  outcome : (write files p true setting m).2.mapError Failure.kind =
    (write files p false setting m).2.mapError Failure.kind
  success : ∀ count, (write files p false setting m).2 = .ok count → count = m.rowCount ∧
    (write files p true setting m).1 = (write files p false setting m).1 ∧
    ∃ bytes, FileOf setting (Tiny.rows m) bytes ∧
      (write files p false setting m).1.read p = .ok bytes
  encoded : ∀ count (e : Encoding), (write files p false setting m).2 = .ok count →
    setting = .known e.codec →
    ∃ encoded, e.encodeText? (joined (Tiny.rows m)) = some encoded ∧
      (write files p false setting m).1.read p = .ok (e.mark ++ encoded)
  kept : ∀ failure, (write files p true setting m).2 = .error failure →
    (write files p true setting m).1 = files
  refused : ∀ place codec, files.writePlace p = .ok place → setting = .known codec →
    fileBytes? setting (Tiny.rows m) = none →
      (write files p false setting m).2 = .error .unencodable ∧
      ∃ bytes, codec.StopsAfter [] (pieces (Tiny.rows m)) bytes ∧
        (codec.EndsLines → StopsAtRow codec (Tiny.rows m) bytes) ∧
        (write files p false setting m).1.read p = .ok bytes
  unencodable : ∀ place (e : Encoding), ∀ row ∈ Tiny.rows m, files.writePlace p = .ok place →
    setting = .known e.codec → e.encodeText? row = none →
      (write files p false setting m).2 = .error .unencodable ∧
      ∃ bytes, KeepsRowsBefore e (Tiny.rows m) bytes ∧
        (write files p false setting m).1.read p = .ok bytes
  unknown : ∀ place, files.writePlace p = .ok place → setting = .unknown →
    (write files p false setting m).2 = .error .unknownEncoding ∧
      (write files p false setting m).1.read p = .ok []

/-- A set that is written in place and through a temporary file is the same file in both, with every
row in it. -/
theorem write_success {m : MappingSet} {plain atomic : Files} {count count' : Nat}
    (hplain : write files p false setting m = (plain, .ok count))
    (hatomic : write files p true setting m = (atomic, .ok count')) :
    count = m.rowCount ∧ atomic = plain ∧
      ∃ bytes, FileOf setting (Tiny.rows m) bytes ∧ plain.read p = .ok bytes := by
  obtain ⟨hrows, -, place, bytes, hplace, hbytes, rfl⟩ := write_eq_ok_iff.mp hplain
  obtain ⟨-, -, place', bytes', hplace', hbytes', rfl⟩ := write_eq_ok_iff.mp hatomic
  cases hplace.symm.trans hplace'
  cases hbytes.symm.trans hbytes'
  exact ⟨hrows, rfl, bytes, .of_fileBytes (Tiny.rows_ne_nil m) hbytes,
    (Files.written_of_writePlace hplace bytes).read hplace⟩

/-- In a Unicode encoding, a set that is written is the mark and the text of its rows. -/
theorem write_success_encoding {m : MappingSet} {atomic : Bool} {written : Files} {count : Nat}
    {e : Encoding} (h : write files p atomic (.known e.codec) m = (written, .ok count)) :
    ∃ encoded, e.encodeText? (joined (Tiny.rows m)) = some encoded ∧
      written.read p = .ok (e.mark ++ encoded) := by
  obtain ⟨-, -, place, bytes, hplace, hbytes, rfl⟩ := write_eq_ok_iff.mp h
  rw [fileBytes?_encoding e (Tiny.rows_ne_nil m)] at hbytes
  obtain ⟨encoded, hencoded, rfl⟩ := Option.map_eq_some_iff.mp hbytes
  exact ⟨encoded, hencoded, (Files.written_of_writePlace hplace _).read hplace⟩

/-- In place, the bytes before the piece that the codec has no bytes for are left. -/
theorem write_refused {place : Location} (hplace : files.writePlace p = .ok place)
    {codec : Codec} {m : MappingSet} {bytes : Bytes}
    (hstops : codec.StopsAfter [] (pieces (Tiny.rows m)) bytes) :
    (write files p false (.known codec) m).2 = .error .unencodable ∧
      (write files p false (.known codec) m).1.read p = .ok bytes := by
  have hfill : fill files place (.known codec) (Tiny.rows m) =
      (files.put place (.file bytes), .error .unencodable) := by
    simp only [fill, contents_eq_false_iff.mpr hstops]
    rfl
  rw [write_in_place_eq hplace, hfill]
  exact ⟨rfl, (Files.written_of_writePlace hplace _).read hplace⟩

/-- In place, nothing is left in the file if the codec is unknown. -/
theorem write_unknown {place : Location} (hplace : files.writePlace p = .ok place)
    (m : MappingSet) : (write files p false .unknown m).2 = .error .unknownEncoding ∧
      (write files p false .unknown m).1.read p = .ok [] := by
  rw [write_in_place_eq hplace]
  exact ⟨rfl, (Files.written_of_writePlace hplace _).read hplace⟩

/-- Both ways to write a set to a path that leads down have the same outcome, up to the path of a
failed operation. -/
theorem write_outcomes_agree (h : files.Rooted) (hp : Path.Descends p.names)
    (hlength : (temporary files p).name.nameBytes.length ≤ 255) (hsetting : setting ≠ .notAName)
    (m : MappingSet) : (write files p true setting m).2.mapError Failure.kind =
      (write files p false setting m).2.mapError Failure.kind := by
  rw [snd_write, snd_write]
  cases hdirectory : files.isDirectory p with
  | error e => rfl
  | ok directory =>
      cases directory with
      | true => rfl
      | false =>
          have hne : p.names ≠ [] := fun hnil => by
            cases hdirectory.symm.trans (h.isDirectory_of_names_nil hnil)
          have hwriters := writers_agree h hp hne hlength hsetting hdirectory (Tiny.rows m)
          simp only [mapError_map, if_true, Bool.false_eq_true, if_false, hwriters]

/-- A working directory with a directory in it, and a file there. -/
def formerFiles : Files where
  nodes := [(["home"], .directory), (["home", "maps"], .directory),
    (["home", "maps", "out"], .file [111, 108, 100])]
  workingDirectory := ["home"]

/-- A set with an intermediate name that ASCII does not have, in its second class. -/
def accentedSet : MappingSet where
  classes := [⟨"a", "A", "Main"⟩, ⟨"b", "É", "Other"⟩, ⟨"c", "C", "Last"⟩]

/-- The bytes of characters of ASCII. -/
def asciiBytes (t : Text) : Bytes := t.map fun c => UInt8.ofNat c.toNat

/-- A set with one class, whose readable name ends with a character that UTF-7 keeps in base 64. -/
def cafeSet : MappingSet where
  classes := [⟨"a", "C_1", "Café"⟩]

end Output
end Remapping
