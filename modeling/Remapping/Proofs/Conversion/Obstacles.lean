import Remapping.Codec.Standard
import Remapping.CommandLine.Run
import Remapping.Proofs.Conversion.Modes

/-!
# Obstacles at the destination

What becomes of a mapping set that can be encoded and meets something on the way to its
destination. Read `write_obstacles` first. Every fault that is met while the file is written is told
as an error of the conversion, but the test for a directory comes before, and a name on the path
that is too long for this test ends it with a bare failure (`write_nameTooLong`).
-/

namespace Remapping

/-! ## Faults of single operations -/

namespace Files

variable {f : Files} {p : Path}

/-- Work ends at an invalid name only where it started, if nothing after the start does. -/
theorem eq_invalidName_of_bind {α β : Type} {x : Except FileFault α} {next : α → Except FileFault β}
    (hnext : ∀ a, next a ≠ .error .invalidName) (h : (x >>= next) = .error .invalidName) :
    x = .error .invalidName := by
  cases x with
  | error fault =>
      cases h
      rfl
  | ok a => exact absurd h (hnext a)

/-- A path to write to is refused for its names only if the disk cannot have one of them. -/
theorem unnameable_of_writePlace (h : f.writePlace p = .error .invalidName) : p.Unnameable := by
  refine locate_eq_invalidName_iff.mp (eq_invalidName_of_bind (fun place => ?_) h)
  dsimp only
  split <;> exact nofun

/-- A path of a new file is refused for its names only if the disk cannot have one of them. -/
theorem unnameable_of_freshPlace (h : f.freshPlace p = .error .invalidName) : p.Unnameable := by
  refine locate_eq_invalidName_iff.mp (eq_invalidName_of_bind (fun place => ?_) h)
  dsimp only
  split <;> exact nofun

/-- A path to rename a file to is refused for its names only if the disk cannot have one of
them. -/
theorem unnameable_of_rename {place : Location} (h : f.rename place p = .error .invalidName) :
    p.Unnameable := by
  refine unnameable_of_writePlace (eq_invalidName_of_bind (fun new => ?_) h)
  split <;> exact nofun

end Files

/-! ## Errors of a conversion -/

/-- An error that ends a conversion ends the run with status 1 and its message. -/
theorem CommandLine.Run.convert_of_conversionError [Codecs] {r : CommandLine.Run}
    {error : ConversionError} {s : Session}
    (h : Conversion.stages r.settings.converter r.request.input r.request.output r.session =
      (.error (.conversion error), s)) :
    ∃ o, r.convert = .ended o ∧ o.status = 1 ∧ o.failure = none ∧
      o.shown = .items (r.put [.message .error error.message]).console := by
  rw [CommandLine.Run.convert, h]
  exact ⟨_, rfl, rfl, rfl, rfl⟩

namespace Output

variable {files : Files} {p : Path} {setting : EncodingSetting} {rows : List Text}

/-! ## Ways to write -/

/-- A failure for a fault on the way to a path: it is told as one of the output unless the disk
cannot have one of the names. -/
def Obstructed (p : Path) (failure : Failure) : Prop :=
  ∃ e, failure = failed p e ∧ (e.fault = .invalidName → p.Unnameable)

/-- Rows that can be encoded fill a file. -/
theorem snd_fill_of_fileBytes {bytes : Bytes} (h : fileBytes? setting rows = some bytes)
    (files : Files) (place : Location) : (fill files place setting rows).2 = .ok () :=
  congrArg Prod.snd (fill_eq_ok_iff.mpr ⟨bytes, h, rfl⟩)

/-- Only an obstacle keeps rows that can be encoded from being written in place. -/
theorem obstructed_of_writeInPlace {bytes : Bytes}
    (hbytes : fileBytes? setting rows = some bytes) {failure : Failure}
    (h : (writeInPlace files p setting rows).2 = .error failure) : Obstructed p failure := by
  have hsetting : setting ≠ .notAName := by
    rintro rfl
    cases hbytes
  rw [writeInPlace_of_ne hsetting] at h
  cases hplace : files.writePlace p with
  | ok place =>
      rw [hplace] at h
      cases (snd_fill_of_fileBytes hbytes files place).symm.trans h
  | error fault =>
      rw [hplace] at h
      refine ⟨_, (Except.error.inj h).symm, fun hinvalid => ?_⟩
      exact Files.unnameable_of_writePlace (hplace.trans (congrArg Except.error hinvalid))

/-- The disk can have the names of a temporary file if it can have those of the destination. -/
theorem unnameable_of_temporary (h : files.Rooted) (hnames : (temporary files p).Unnameable) :
    p.Unnameable := by
  obtain ⟨n, htemporary, -, -⟩ := exists_temporary_eq files p
  rw [htemporary, candidate_eq_beside] at hnames
  refine Path.unnameable_of_beside h.nameable_of_mem (fun hmem => ?_) hnames
  have hname := unnameable_temporaryName_iff.mp hmem
  refine ⟨p.name, ?_, hname⟩
  have hne : p.names ≠ [] := fun hnil => by
    obtain ⟨c, hc, -⟩ := hname
    rw [Path.name, hnil] at hc
    cases hc
  rw [Path.names_eq hne]
  exact List.mem_append_right _ List.mem_cons_self

/-- Only an obstacle keeps rows that can be encoded from being written through a temporary file. -/
theorem obstructed_of_writeAtomically (h : files.Rooted) {bytes : Bytes}
    (hbytes : fileBytes? setting rows = some bytes) {failure : Failure}
    (hfails : (writeAtomically files p setting rows).2 = .error failure) :
    Obstructed p failure := by
  rw [snd_writeAtomically] at hfails
  cases hfresh : files.freshPlace (temporary files p) with
  | error fault =>
      rw [hfresh] at hfails
      refine ⟨_, (Except.error.inj hfails).symm, fun hinvalid => unnameable_of_temporary h ?_⟩
      exact Files.unnameable_of_freshPlace (hfresh.trans (congrArg Except.error hinvalid))
  | ok place =>
      simp only [hfresh, snd_fill_of_fileBytes hbytes files place] at hfails
      cases hrename : (fill files place setting rows).1.rename place p with
      | ok renamed =>
          rw [hrename] at hfails
          cases hfails
      | error fault =>
          rw [hrename] at hfails
          refine ⟨_, (Except.error.inj hfails).symm, fun hinvalid => ?_⟩
          exact Files.unnameable_of_rename (hrename.trans (congrArg Except.error hinvalid))

/-! ## Mapping sets -/

/-- The errors of a conversion that cannot be written to a path. -/
inductive OfOutput (p : Path) : ConversionError → Prop
  | isDirectory : OfOutput p (.outputIsDirectory p.toText)
  | failed (cause : FileError) : OfOutput p (.outputFailed p.toText cause)

/-- A name that is too long on the path fails the test for a directory, and the failure is told as
one of the file system. -/
theorem write_nameTooLong (h : files.locate p = .error .nameTooLong) (atomic : Bool)
    (setting : EncodingSetting) (m : MappingSet) : write files p atomic setting m =
      (files, .error (.file { fault := .nameTooLong, path := p.toText })) := by
  have hdirectory : files.isDirectory p =
      .error { fault := .nameTooLong, path := p.toText } := by
    rw [Files.isDirectory_eq_match, h]
  rw [write, hdirectory]

/-- Where no name is too long, a set that can be encoded is written, or an error of the output is
told, or the disk cannot have a name on the path. -/
theorem write_told (h : files.Rooted) {m : MappingSet} {bytes : Bytes}
    (hbytes : fileBytes? setting (Tiny.rows m) = some bytes)
    (hlength : files.locate p ≠ .error .nameTooLong) (atomic : Bool) :
    (write files p atomic setting m).2 = .ok m.rowCount ∨
      (∃ error, OfOutput p error ∧
        (write files p atomic setting m).2 = .error (.conversion error)) ∨
      p.Unnameable ∧ ∃ e, e.fault = .invalidName ∧
        (write files p atomic setting m).2 = .error (.file e) := by
  have hwrite := snd_write files p atomic setting m
  cases hdirectory : files.isDirectory p with
  | error e =>
      rw [Files.isDirectory_eq_match] at hdirectory
      split at hdirectory
      · cases hdirectory
      · next htooLong => exact absurd htooLong hlength
      · cases hdirectory
  | ok directory =>
      rw [hdirectory] at hwrite
      cases directory with
      | true => exact .inr (.inl ⟨_, .isDirectory, hwrite⟩)
      | false =>
          dsimp only at hwrite
          cases houtcome : ((if atomic then writeAtomically else writeInPlace) files p setting
              (Tiny.rows m)).2 with
          | ok written =>
              rw [houtcome] at hwrite
              exact .inl hwrite
          | error failure =>
              rw [houtcome] at hwrite
              have hobstructed : Obstructed p failure := by
                cases atomic with
                | true => exact obstructed_of_writeAtomically h hbytes houtcome
                | false => exact obstructed_of_writeInPlace hbytes houtcome
              obtain ⟨e, rfl, hnames⟩ := hobstructed
              by_cases hfault : e.fault = .invalidName
              · rw [failed, if_pos hfault] at hwrite
                exact .inr (.inr ⟨hnames hfault, e, hfault, hwrite⟩)
              · rw [failed, if_neg hfault] at hwrite
                exact .inr (.inl ⟨_, .failed e, hwrite⟩)

/-- A set that can be encoded is written exactly if its path leads to where a file can be, and a
temporary file can be made if there is to be one. -/
theorem snd_write_eq_ok_iff {m : MappingSet} {bytes : Bytes}
    (hbytes : fileBytes? setting (Tiny.rows m) = some bytes) {atomic : Bool} :
    (write files p atomic setting m).2 = .ok m.rowCount ↔
      (∃ place, files.writePlace p = .ok place) ∧
        (atomic = true → ∃ beside, files.freshPlace (temporary files p) = .ok beside) := by
  constructor
  · intro hok
    have hwrite : write files p atomic setting m =
        ((write files p atomic setting m).1, .ok m.rowCount) := Prod.ext rfl hok
    obtain ⟨-, hbeside, place, -, hplace, -⟩ := write_eq_ok_iff.mp hwrite
    exact ⟨⟨place, hplace⟩, hbeside⟩
  · intro h
    obtain ⟨⟨place, hplace⟩, hbeside⟩ := h
    exact congrArg Prod.snd (write_eq_ok_iff.mpr ⟨rfl, hbeside, place, bytes, hplace, hbytes, rfl⟩)

/-- Writing a set that can be encoded gives the number of its rows exactly if nothing is in the way
of its file. It ends with a bare failure of the file system exactly if a name on the path is too
long to look at what stands there. On any other path of names that the disk can have it ends with
the number of rows or with an error of the output; a run that this error ends has status 1 and tells
it. -/
theorem write_obstacles [Codecs] (h : files.Rooted) {m : MappingSet} {bytes : Bytes}
    (hbytes : fileBytes? setting (Tiny.rows m) = some bytes) (p : Path) (atomic : Bool) :
    ((write files p atomic setting m).2 = .ok m.rowCount ↔
        (∃ place, files.writePlace p = .ok place) ∧
          (atomic = true → ∃ beside, files.freshPlace (temporary files p) = .ok beside)) ∧
      ((∃ e, e.fault ≠ .invalidName ∧ (write files p atomic setting m).2 = .error (.file e)) ↔
        files.locate p = .error .nameTooLong) ∧
      (files.locate p ≠ .error .nameTooLong → ¬ p.Unnameable →
        (write files p atomic setting m).2 = .ok m.rowCount ∨ ∃ error, OfOutput p error ∧
          (write files p atomic setting m).2 = .error (.conversion error)) ∧
      ∀ error, OfOutput p error → ∀ (r : CommandLine.Run) (s : Session),
        Conversion.stages r.settings.converter r.request.input r.request.output r.session =
          (.error (.conversion error), s) →
        ∃ o, r.convert = .ended o ∧ o.status = 1 ∧ o.failure = none ∧
          o.shown = .items (r.put [.message .error error.message]).console := by
  refine ⟨snd_write_eq_ok_iff hbytes, ⟨fun hbare => ?_, fun htooLong => ?_⟩,
    fun hlength hvalid => ?_, fun error _ r s hs => ?_⟩
  · obtain ⟨e, hfault, hwrite⟩ := hbare
    by_contra hlength
    rcases write_told h hbytes hlength atomic with hok | ⟨error, -, htold⟩ | ⟨-, e', hnames, hfile⟩
    · cases hwrite.symm.trans hok
    · cases hwrite.symm.trans htold
    · cases hwrite.symm.trans hfile
      exact hfault hnames
  · exact ⟨_, by simp, congrArg Prod.snd (write_nameTooLong htooLong atomic setting m)⟩
  · rcases write_told h hbytes hlength atomic with hok | htold | ⟨hnames, -⟩
    · exact .inl hok
    · exact .inr htold
    · exact absurd hnames hvalid
  · exact CommandLine.Run.convert_of_conversionError hs

open scoped Codecs

/-- A working directory with a file and a directory in it. -/
def crowdedFiles : Files where
  nodes := [(["home"], .directory), (["home", "maps"], .directory), (["home", "old"], .file [])]
  workingDirectory := ["home"]

/-- The path of a name with a number of letters. -/
def longPath (n : Nat) : Path := .ofText (List.replicate n (.char 'a'))

/-- A directory, a parent that is a file, and a way up from a missing directory, which the
temporary file does not need, are told as errors of the output. -/
theorem write_obstacles_crowded :
    (∃ error, OfOutput (.ofText "maps") error ∧
      (write crowdedFiles (.ofText "maps") true (.known Encoding.utf8.codec) {}).2 =
        .error (.conversion error)) ∧
    (∃ error, OfOutput (.ofText "old/out") error ∧
      (write crowdedFiles (.ofText "old/out") false (.known Encoding.utf8.codec) {}).2 =
        .error (.conversion error)) ∧
    ∃ error, OfOutput (.ofText "missing/../out") error ∧
      (write crowdedFiles (.ofText "missing/../out") true (.known Encoding.utf8.codec) {}).2 =
        .error (.conversion error) := by
  have hrooted : crowdedFiles.Rooted := ⟨by decide +kernel, by decide +kernel⟩
  have hbytes : fileBytes? (.known Encoding.utf8.codec) (Tiny.rows {}) = some [118, 49, 10] := by
    decide +kernel
  have htold (t : Text) (atomic : Bool)
      (hlength : crowdedFiles.locate (.ofText t) ≠ .error .nameTooLong)
      (hvalid : ¬ (Path.ofText t).Unnameable)
      (hfails :
        (write crowdedFiles (.ofText t) atomic (.known Encoding.utf8.codec) {}).2.isOk = false) :
      ∃ error, OfOutput (.ofText t) error ∧
        (write crowdedFiles (.ofText t) atomic (.known Encoding.utf8.codec) {}).2 =
          .error (.conversion error) := by
    obtain ⟨-, -, htold, -⟩ := write_obstacles hrooted hbytes (.ofText t) atomic
    rcases htold hlength hvalid with hok | herror
    · rw [hok] at hfails
      cases hfails
    · exact herror
  refine ⟨htold _ _ ?_ ?_ ?_, htold _ _ ?_ ?_ ?_, htold _ _ ?_ ?_ ?_⟩
  all_goals decide +kernel

/-- A name of 256 letters is no error of the output but a bare failure, whichever way the file is
written. One of 255 letters, for which only the name of the temporary file is too long, is an error
of the output. -/
theorem write_long_name_escapes :
    crowdedFiles.Rooted ∧
      fileBytes? (.known Encoding.utf8.codec) (Tiny.rows {}) = some [118, 49, 10] ∧
      (∀ atomic, (write crowdedFiles (longPath 256) atomic (.known Encoding.utf8.codec) {}).2 =
          .error (.file { fault := .nameTooLong, path := List.replicate 256 (.char 'a') }) ∧
        ¬ ((∃ count, (write crowdedFiles (longPath 256) atomic (.known Encoding.utf8.codec) {}).2 =
            .ok count) ∨
          ∃ error, (write crowdedFiles (longPath 256) atomic (.known Encoding.utf8.codec) {}).2 =
            .error (.conversion error))) ∧
      ∃ cause, cause.fault = .nameTooLong ∧
        (write crowdedFiles (longPath 255) true (.known Encoding.utf8.codec) {}).2 =
          .error (.conversion (.outputFailed (List.replicate 255 (.char 'a')) cause)) := by
  have hbare (atomic : Bool) :
      (write crowdedFiles (longPath 256) atomic (.known Encoding.utf8.codec) {}).2 =
      .error (.file { fault := .nameTooLong, path := List.replicate 256 (.char 'a') }) := by
    have hlocate : crowdedFiles.locate (longPath 256) = .error .nameTooLong := by decide +kernel
    have htext : (longPath 256).toText = List.replicate 256 (.char 'a') := by decide +kernel
    rw [write_nameTooLong hlocate, htext]
  refine ⟨⟨by decide +kernel, by decide +kernel⟩, by decide +kernel, fun atomic => ?_, ?_⟩
  · refine ⟨hbare atomic, ?_⟩
    rw [hbare]
    rintro (⟨count, h⟩ | ⟨error, h⟩)
    · cases h
    · cases Except.error.inj h
  · have htext : (longPath 255).toText = List.replicate 255 (.char 'a') := by decide +kernel
    have hdirectory : crowdedFiles.isDirectory (longPath 255) = .ok false := by decide +kernel
    have hfresh : crowdedFiles.freshPlace (temporary crowdedFiles (longPath 255)) =
        .error .nameTooLong := by
      decide +kernel
    refine ⟨{ fault := .nameTooLong, path := (temporary crowdedFiles (longPath 255)).toText }, rfl,
      ?_⟩
    rw [snd_write, hdirectory, ← htext]
    simp only [if_true, snd_writeAtomically, hfresh]
    rfl

end Output
end Remapping
