import Remapping.Codec.Standard
import Remapping.Proofs.Conversion.Outcome

/-!
# Conversions from end to end

The main statements about a conversion. Read `convert_text` first: a conversion that succeeds
has written the translation of the text that it has read. `convert_all_or_nothing` says what the
files are after any conversion, and that one that fails leaves them as they were. What stands in the
output is what the codec gives for the rows of the translation; `convert_idna_empty` is a conversion
that succeeds with a codec that gives nothing.
-/

namespace Remapping.Conversion

variable {settings : ConverterSettings} {input output : Text} {elapsed : Nat} {s s' : Session}

/-- A conversion that succeeds has read a text that has a translation, and has written the rows of
the translation with the codec of the settings: the output path reads as their bytes. The files that
the text was read from are those at the start, and the files with the translation are those at
the end, but for the places where the log is kept. -/
theorem convert_text [Codecs] {report : Report}
    (h : convert settings input output elapsed s = (.ok report, s')) :
    ∃ (reading written : Files) (version t : Text) (bytes : Bytes),
      s.files.AgreeOutside s.log.places reading ∧
        Reads settings reading input version t ∧ Translation.Conforms version t ∧
        Output.FileOf (EncodingSetting.ofValue settings.outputEncoding)
          (Translation.rows version t) bytes ∧
        written.read (Path.ofText output) = .ok bytes ∧
        written.AgreeOutside s.log.places s'.files := by
  rcases convert_cases h with ⟨_, hfailure, -⟩ | ⟨ready, m, hprepared, hwrite⟩
  · cases hfailure
  rcases hwrite with ⟨_, hfailure, -⟩ | ⟨_, count, written, -, hwrite, hlogs⟩
  · cases hfailure
  obtain ⟨hready, reading, version, t, hreading, hreads, hconforms, hrows⟩ := hprepared
  obtain ⟨houtput, hplaces⟩ := write_ok hwrite
  obtain ⟨-, -, place, bytes, hplace, hbytes, hput⟩ := Output.write_eq_ok_iff.mp houtput
  have hfile := Output.FileOf.of_fileBytes (Tiny.rows_ne_nil m) hbytes
  rw [hrows] at hfile
  have hread : written.files.read (Path.ofText output) = .ok bytes := by
    rw [hput]
    exact (Files.written_of_writePlace hplace bytes).read hplace
  -- The log keeps its places through all stages, so both ends are compared outside the same ones.
  have hend := hlogs.agree
  rw [hplaces, hready.places_eq] at hend
  exact ⟨reading.files, written.files, version, t, bytes, hreading.agree, hreads, hconforms,
    hfile, hread, hend⟩

open scoped Codecs

/-- A session without a log file and with one mapping file, whose characters are its bytes. -/
def sampleSession (t : Text) : Session where
  files := { nodes := [(["in"], .file (t.map fun c => UInt8.ofNat c.toNat))] }
  log := { tool := "converter", threshold := 20 }

/-- A file with a name, beside nothing else. -/
def namedFile (name t : Text) : Files where
  nodes := [([name], .file (t.map fun c => UInt8.ofNat c.toNat))]

/-- A session with a file with a name and no log file. -/
def namedSession (name t : Text) : Session where
  files := namedFile name t
  log := { tool := "converter", threshold := 20 }

/-- The name of a file with a byte that is no UTF-8. -/
def strayName : Text := ("in" : Text) ++ [.surrogate 0x4ff]

/-- Settings that read characters as bytes. -/
def sampleSettings : ConverterSettings := { inputEncoding := .text "latin-1" }

theorem ofValue_latin1 :
    EncodingSetting.ofValue (.text "latin-1") = .known Encoding.latin1.codec := rfl

theorem ofValue_utf8 : EncodingSetting.ofValue (.text "utf-8") = .known Encoding.utf8.codec := rfl

/-- A sample file is read as its text, if the characters of the text are bytes. -/
theorem reads_sample {t : Text}
    (ht : Encoding.latin1.decode true (t.map fun c => UInt8.ofNat c.toNat) = .ok t) :
    Reads sampleSettings (sampleSession t).files "in" "v1" t :=
  ⟨rfl, Encoding.latin1.codec, _, ofValue_latin1, rfl, ht⟩

/-- A mapping file with a method before the row of the class that it refers to. -/
def sampleText : Text :=
  "v1\tofficial\tintermediary\tnamed\n" ++ "METHOD\ta\t([La;)La;\tb\tm_1\trun\n" ++
    "CLASS\ta\tC_1\tMain\n"

/-- What that file is converted to. -/
def sampleTranslation : Text :=
  "v1\tintermediary\tnamed\n" ++ "CLASS\tC_1\tMain\n" ++
    "METHOD\tC_1\t([LC_1;)LC_1;\tm_1\trun\n"

theorem sample_translation : Output.joined (Translation.rows "v1" sampleText) =
    sampleTranslation := by
  decide +kernel

/-- The sample file is read as the sample text. -/
theorem sample_reads : Reads sampleSettings (sampleSession sampleText).files "in" "v1" sampleText :=
  reads_sample (by decide +kernel)

/-- The sample text has a translation. -/
theorem sample_conforms : Translation.Conforms "v1" sampleText := by
  have hlines : Text.lines sampleText = ["v1\tofficial\tintermediary\tnamed".toText,
      "METHOD\ta\t([La;)La;\tb\tm_1\trun".toText, "CLASS\ta\tC_1\tMain".toText] := by
    decide +kernel
  have hname : IsClassName "a" := by decide
  have hmethod := (Descriptor.MethodTree.mk [.array (.object "a" hname)]
    (.value (.object "a" hname))).method
  rw [Translation.Conforms, hlines]
  refine ⟨by decide, ?_, ?_⟩
  · intro e he
    cases he
  · intro e he _
    cases he with
    | head => exact hmethod
    | tail _ he => cases he

/-- The bytes of a file in UTF-8 are those of the text of its rows. -/
theorem fileBytes?_utf8 {rows : List Text} (h : rows ≠ []) :
    Output.fileBytes? (.known Encoding.utf8.codec) rows = (Output.joined rows).utf8? := by
  rw [Output.fileBytes?_encoding _ h]
  exact Option.map_id' ..

/-- A sample file is converted if its characters are bytes, its types can be renamed, and its
translation has no surrogates. -/
theorem exists_sample_report {t : Text}
    (ht : Encoding.latin1.decode true (t.map fun c => UInt8.ofNat c.toNat) = .ok t)
    (h : ∃ read ∈ (Yarn.readText "v1" t).toOption, read.1.Renamable id)
    (hbytes : (Translation.text "v1" t).utf8?.isSome = true) :
    ∃ report s', convert sampleSettings "in" "out" 0 (sampleSession t) = (.ok report, s') := by
  have hplace : (sampleSession t).files.writePlace (Path.ofText "out") = .ok ["out".toText] := rfl
  have hfresh : (sampleSession t).files.freshPlace
      (Output.temporary (sampleSession t).files (Path.ofText "out")) =
        .ok [".out.00000000.tmp".toText] := by
    with_unfolding_all rfl
  obtain ⟨⟨m, warnings⟩, hfound, hrenamable⟩ := h
  have hread : Yarn.readText "v1" t = .ok (m, warnings) := by
    revert hfound
    cases Yarn.readText "v1" t with
    | error fault => exact fun hfound => nomatch hfound
    | ok found => exact fun hfound => congrArg Except.ok (Option.some.inj hfound)
  have hconforms := (conforms_iff_renamable hread id).mpr hrenamable
  obtain ⟨bytes, hbytes⟩ := Option.isSome_iff_exists.mp hbytes
  have hwritten := (fileBytes?_utf8 (Translation.rows_ne_nil hconforms)).trans hbytes
  exact convert_succeeds rfl (reads_sample ht) hconforms (ofValue_utf8 ▸ hwritten) hplace
    fun _ => ⟨_, hfresh⟩

/-- The sample is converted to its translation. -/
theorem convert_text_forward_reference :
    ∃ report s' bytes, convert sampleSettings "in" "out" 0 (sampleSession sampleText) =
        (.ok report, s') ∧ sampleTranslation.utf8? = some bytes ∧
      s'.files.read (Path.ofText "out") = .ok bytes := by
  have hplace : (sampleSession sampleText).files.writePlace (Path.ofText "out") =
      .ok ["out".toText] := by
    decide +kernel
  have hutf8 := fileBytes?_utf8 (Translation.rows_ne_nil sample_conforms)
  rw [sample_translation] at hutf8
  obtain ⟨encoded, hencoded⟩ : ∃ encoded, sampleTranslation.utf8? = some encoded :=
    Option.isSome_iff_exists.mp (by decide +kernel)
  obtain ⟨report, s', h⟩ : ∃ report s', convert sampleSettings "in" "out" 0
      (sampleSession sampleText) = (.ok report, s') :=
    convert_succeeds rfl sample_reads sample_conforms (ofValue_utf8 ▸ hutf8.trans hencoded) hplace
      fun _ => ⟨_, rfl⟩
  obtain ⟨reading, written, version, t, bytes, hreading, hreads, -, hbytes, hread, hwritten⟩ :=
    convert_text h
  obtain ⟨rfl, rfl⟩ := (Reads.of_agree hreading hreads).unique sample_reads
  have hfile : sampleTranslation.utf8? = some bytes :=
    hutf8.symm.trans (ofValue_utf8 ▸ hbytes.written)
  exact ⟨report, s', bytes, h, hfile, (Files.AgreeOutside.read_eq hwritten _).trans hread⟩

/-- Without a log file, a conversion that fails through a temporary file leaves every file as it
was. One that fails in place does so too, unless the whole translation was made, the output was
opened and the codec is to blame; then no other file is touched. A conversion that succeeds changes
the file at the output path and nothing else, and the file holds what the codec gives for the rows
of the whole translation. -/
theorem convert_all_or_nothing [Codecs] (hlog : s.log.file = none)
    {outcome : Except Failure Report}
    (h : convert settings input output elapsed s = (outcome, s')) :
    match outcome with
    | .error failure => s'.files = s.files ∨
        settings.atomicWrite.isTruthy = false ∧
          (failure = .unknownEncoding ∨ failure = .unencodable) ∧
          (∃ version t, Reads settings s.files input version t ∧ Translation.Conforms version t) ∧
          ∃ place bytes, s.files.writePlace (Path.ofText output) = .ok place ∧
            s.files.Written place bytes s'.files
    | .ok _ => ∃ version t place bytes, Reads settings s.files input version t ∧
        Translation.Conforms version t ∧
        Output.FileOf (EncodingSetting.ofValue settings.outputEncoding)
          (Translation.rows version t) bytes ∧
        s.files.writePlace (Path.ofText output) = .ok place ∧
        s.files.Written place bytes s'.files := by
  rcases convert_cases h with ⟨failure, rfl, hlogs⟩ | ⟨ready, m, hprepared, hwrite⟩
  · exact .inl (hlogs.files_eq hlog)
  obtain ⟨hready, reading, version, t, hreading, hreads, hconforms, hrows⟩ := hprepared
  rw [hreading.files_eq hlog] at hreads
  have hfiles : (writing output ready).files = s.files :=
    (hready.trans (logs_writing output ready)).files_eq hlog
  rcases hwrite with ⟨failure, rfl, hwrite⟩ | ⟨report, count, written, rfl, hwrite, hlogs⟩
  · have hfailed := write_error hwrite
    rw [hfiles] at hfailed
    cases hatomic : settings.atomicWrite.isTruthy with
    | true =>
        rw [hatomic] at hfailed
        exact .inl (Output.write_error_atomic hfailed)
    | false =>
        rw [hatomic] at hfailed
        rcases Output.write_error_in_place hfailed with hkept | ⟨hfailure, hopened⟩
        · exact .inl hkept
        · obtain ⟨place, bytes, hplace, hput⟩ := hopened
          refine .inr ⟨rfl, hfailure, ⟨version, t, hreads, hconforms⟩, place, bytes, hplace, ?_⟩
          rw [hput]
          exact Files.written_of_writePlace hplace bytes
  · obtain ⟨hdone, hplaces⟩ := write_ok hwrite
    rw [hfiles] at hdone
    obtain ⟨-, -, place, bytes, hplace, hbytes, hput⟩ := Output.write_eq_ok_iff.mp hdone
    have hfile := Output.FileOf.of_fileBytes (Tiny.rows_ne_nil m) hbytes
    rw [hrows] at hfile
    refine ⟨version, t, place, bytes, hreads, hconforms, hfile, hplace, ?_⟩
    have hnone : written.log.file = none := by
      apply Log.file_eq_none
      rw [hplaces, hready.places_eq, Log.places, hlog]
    rw [hlogs.files_eq hnone, hput]
    exact Files.written_of_writePlace hplace bytes

/-- Two conversions fail after their temporary file was made: one at a header that the encoding
of the output does not have, one because the file cannot be renamed to a path through a missing
directory. Nothing of the file stays. -/
theorem convert_all_or_nothing_late_failures :
    (∃ failure s', convert { sampleSettings with outputEncoding := .text "ascii" } "in" "out" 0
        (sampleSession "v1\ta\té\tb\n") = (.error failure, s') ∧
      s'.files = (sampleSession "v1\ta\té\tb\n").files) ∧
    ∃ failure s', convert sampleSettings "in" "missing/../out" 0
        (sampleSession "v1\ta\tb\tc\n") = (.error failure, s') ∧
      s'.files = (sampleSession "v1\ta\tb\tc\n").files := by
  have hkept {settings : ConverterSettings} {output t : Text}
      (hatomic : settings.atomicWrite.isTruthy = true)
      (hfails : (convert settings "in" output 0 (sampleSession t)).1.isOk = false) :
      ∃ failure s', convert settings "in" output 0 (sampleSession t) = (.error failure, s') ∧
        s'.files = (sampleSession t).files := by
    cases h : convert settings "in" output 0 (sampleSession t) with
    | mk outcome s' =>
        rw [h] at hfails
        cases outcome with
        | ok report => cases hfails
        | error failure =>
            refine ⟨failure, s', rfl, ?_⟩
            rcases convert_all_or_nothing rfl h with hfiles | ⟨hinPlace, -⟩
            · exact hfiles
            · cases hatomic.symm.trans hinPlace
  exact ⟨hkept rfl (by decide +kernel), hkept rfl (by decide +kernel)⟩

/-- Settings that write with a codec of domain names. -/
def domainSettings : ConverterSettings := { sampleSettings with outputEncoding := .text "idna" }

/-- A conversion succeeds and its output is empty, where the translation has a header: the codec
keeps a label back until a dot ends it, and none of this text is ended. -/
theorem convert_idna_empty :
    (convert domainSettings "in" "out" 0 (sampleSession "v1\ta\tb\tc\n")).1.isOk = true ∧
      (convert domainSettings "in" "out" 0 (sampleSession "v1\ta\tb\tc\n")).2.files.read
        (Path.ofText "out") = .ok [] ∧
      Translation.text "v1" "v1\ta\tb\tc\n" = "v1\tb\tc\n" := by
  decide +kernel

end Remapping.Conversion
