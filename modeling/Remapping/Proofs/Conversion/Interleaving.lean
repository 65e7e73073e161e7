import Remapping.Proofs.Conversion.Determined
import Remapping.Proofs.Conversion.EndToEnd
import Remapping.Proofs.Layout.SameRows

/-!
# Rows in another order

A conversion looks at classes, fields and methods one kind after the other. How the rows of
different kinds are mixed in the file, and what stands between them, shows in its warnings and
nowhere else. Read `convert_interleaved` first.
-/

namespace Remapping

/-- Texts with the same rows have the same translation. -/
theorem Translation.rows_of_sameRows {t u : Text} (h : Yarn.SameRows t u) (version : Text) :
    rows version u = rows version t := by
  obtain ⟨hheader, hclasses, hfields, hmethods⟩ := h
  unfold rows
  cases ht : Text.lines t with
  | nil =>
      rw [ht] at hheader
      rw [List.head?_eq_none_iff.mp hheader]
  | cons header body =>
      rw [ht] at hheader hclasses hfields hmethods
      obtain ⟨body', hu⟩ := List.head?_eq_some_iff.mp hheader
      rw [hu] at hclasses hfields hmethods ⊢
      simp only [List.tail_cons] at hclasses hfields hmethods
      simp only [rowsOf, hclasses, hfields, hmethods]

namespace Conversion

section

variable [Codecs] {settings : ConverterSettings} {input input' output : Text}
  {elapsed elapsed' : Nat} {s₁ s₂ s s' : Session} {t u : Text}

/-- The file at the input path holds a text in the codec of the settings. -/
def Holds (settings : ConverterSettings) (files : Files) (input t : Text) : Prop :=
  ∃ codec bytes, EncodingSetting.ofValue settings.inputEncoding = .known codec ∧
    files.read (Path.ofText input) = .ok bytes ∧ codec.decode bytes = .ok t

/-- Bytes of texts with the same rows are read as sets that show the same, or refused with the
same failure. -/
theorem readMappings_of_sameRows {codec : Codec} {bytes bytes' : Bytes}
    (hencoding : EncodingSetting.ofValue settings.inputEncoding = .known codec)
    (ht : codec.decode bytes = .ok t) (hu : codec.decode bytes' = .ok u) (h : Yarn.SameRows t u) :
    match readMappings settings bytes with
    | .ok (m, _) => ∃ m' warnings', readMappings settings bytes' = .ok (m', warnings') ∧
        m'.shown = m.shown
    | .error failure => readMappings settings bytes' = .error failure := by
  unfold readMappings
  rw [hencoding]
  cases settings.supportedVersion with
  | text version =>
      have hread := Yarn.readText_of_sameRows h version
      simp only [ht, hu]
      cases ht' : Yarn.readText version t with
      | error e =>
          rw [ht'] at hread
          rw [hread]
          rfl
      | ok loaded =>
          rw [ht'] at hread
          obtain ⟨m', warnings', hread', hshown⟩ := hread
          exact ⟨m', warnings', by rw [hread']; rfl, hshown⟩
  | _ => rfl

/-- Rows that show the same have the same outcome among files of the same shape. -/
theorem outcome_of_shown_eq {files other : Files} (hshape : files.SameShape [] other)
    {m m' : MappingSet} (hshown : m'.shown = m.shown) (warnings warnings' : List RowWarning) :
    outcome settings input' output elapsed' other (.ok (m', warnings')) =
      (outcome settings input output elapsed files (.ok (m, warnings))).map fun r =>
        { r with inputPath := input', warnings := warnings', duration := some elapsed' } := by
  obtain ⟨hclasses, -⟩ := MappingSet.counts_of_shown_eq hshown
  obtain ⟨hremapped, hresult⟩ := MappingSet.remap_of_shown_eq hshown (.ofList m.classes)
  obtain ⟨hclassCount, hfieldCount, hmethodCount⟩ := MappingSet.counts_of_shown_eq hremapped
  have hwrite := Output.snd_write_eq hshape (Output.apart_nil files (Path.ofText output))
    settings.atomicWrite.isTruthy (EncodingSetting.ofValue settings.outputEncoding) hremapped
  simp only [outcome, hclasses, hresult, hwrite, hclassCount, hfieldCount, hmethodCount, bind,
    Except.bind]
  cases (m.remap (.ofList m.classes)).2 with
  | error fault => rfl
  | ok r =>
      simp only [Except.mapError]
      split <;> rfl

/-- A conversion that succeeds has read a text that has a translation, and its output reads as
the rows of the translation in the codec of the settings, if the log is kept apart. -/
theorem output_of_convert (h : LogApart s input output) {report : Report}
    (hconvert : convert settings input output elapsed s = (.ok report, s')) :
    ∃ version t bytes, Reads settings s.files input version t ∧
      Output.fileBytes? (EncodingSetting.ofValue settings.outputEncoding)
        (Translation.rows version t) = some bytes ∧
      s'.files.read (Path.ofText output) = .ok bytes := by
  rcases convert_cases hconvert with ⟨_, hfailure, -⟩ | ⟨ready, m, hprepared, hwrite⟩
  · cases hfailure
  rcases hwrite with ⟨_, hfailure, -⟩ | ⟨_, count, written, -, hwrite, hlogs⟩
  · cases hfailure
  obtain ⟨hready, reading, version, t, hreading, hreads, -, hrows⟩ := hprepared
  obtain ⟨hversion, codec, read, hencoding, hread, hdecode⟩ := hreads
  rw [h.read_eq hreading] at hread
  obtain ⟨houtput, hplaces⟩ := write_ok hwrite
  obtain ⟨-, -, place, bytes, hplace, hbytes, hput⟩ := Output.write_eq_ok_iff.mp houtput
  rw [hrows] at hbytes
  have hwritten := Files.written_of_writePlace hplace bytes
  rw [← hput] at hwritten
  -- The records after the writing are made at places that the written path keeps off as well.
  have hshape := (hready.trans (logs_writing output ready)).agree.sameShape
  have happart := (hwritten.sameDirectories (Files.writePlace_eq_ok_iff.mp hplace).2).apart
    (hshape.apart h.output.path)
  have hend := hlogs.agree
  rw [hplaces, hready.places_eq] at hend
  exact ⟨version, t, bytes, ⟨hversion, codec, read, hencoding, hread, hdecode⟩, hbytes,
    (hend.read_eq_of_apart happart).trans (hwritten.read hplace)⟩

/-- Only the text in the file can have been read from it. -/
theorem Holds.eq_of_reads {files : Files} {version t' : Text} (h : Holds settings files input t)
    (hreads : Reads settings files input version t') : t' = t := by
  obtain ⟨codec, bytes, hencoding, hread, hdecode⟩ := h
  exact (hreads.unique ⟨hreads.1, codec, bytes, hencoding, hread, hdecode⟩).2

/-! ## Two runs -/

section TwoRuns

variable (hrows : Yarn.SameRows t u)
  (ht : Holds settings s₁.files input t) (hu : Holds settings s₂.files input' u)
  (hlog₁ : LogApart s₁ input output) (hlog₂ : LogApart s₂ input' output)

include hrows ht hu hlog₁ hlog₂

/-- The outcomes of two conversions of the same rows differ in what a report tells of the input
and of the run, and in nothing else. -/
theorem fst_convert_of_sameRows (hshape : s₁.files.SameShape [] s₂.files)
    (elapsed elapsed' : Nat) :
    ∃ warnings, (convert settings input' output elapsed' s₂).1 =
      (convert settings input output elapsed s₁).1.map fun r =>
        { r with inputPath := input', warnings, duration := some elapsed' } := by
  obtain ⟨codec, bytes, hencoding, hread, hdecode⟩ := ht
  obtain ⟨e', bytes', hencoding', hread', hdecode'⟩ := hu
  obtain rfl := EncodingSetting.known.inj (hencoding.symm.trans hencoding')
  have hmappings := readMappings_of_sameRows hencoding hdecode hdecode' hrows
  rw [convert_fst hlog₁ hread, convert_fst hlog₂ hread']
  cases hloaded : readMappings settings bytes with
  | error failure =>
      rw [hloaded] at hmappings
      rw [hmappings]
      exact ⟨[], rfl⟩
  | ok loaded =>
      rw [hloaded] at hmappings
      obtain ⟨m', warnings', hloaded', hshown⟩ := hmappings
      rw [hloaded']
      exact ⟨warnings', outcome_of_shown_eq hshape hshown loaded.2 warnings'⟩

/-- The outputs of two conversions of the same rows that both succeed hold the same bytes. -/
theorem outputs_eq_of_sameRows {r₁ r₂ : Report} {s₁' s₂' : Session}
    (h : convert settings input output elapsed s₁ = (.ok r₁, s₁'))
    (h' : convert settings input' output elapsed' s₂ = (.ok r₂, s₂')) :
    ∃ bytes, s₁'.files.read (Path.ofText output) = .ok bytes ∧
      s₂'.files.read (Path.ofText output) = .ok bytes := by
  obtain ⟨version, t', bytes, hreads, hbytes, hread⟩ := output_of_convert hlog₁ h
  obtain ⟨version', u', bytes', hreads', hbytes', hread'⟩ := output_of_convert hlog₂ h'
  obtain rfl := ht.eq_of_reads hreads
  obtain rfl := hu.eq_of_reads hreads'
  obtain rfl : version = version' := Value.text.inj (hreads.1.symm.trans hreads'.1)
  rw [Translation.rows_of_sameRows hrows, hbytes] at hbytes'
  obtain rfl := Option.some.inj hbytes'
  exact ⟨bytes, hread, hread'⟩

end TwoRuns

/-- Let two texts with the same rows be converted with the same settings to the same path, among
files of the same shape and with logs that are kept apart. Then both conversions succeed, with
the same bytes in the output and with reports that differ in nothing but the input path, the
warnings and the time that was taken; or both fail with the same failure. -/
theorem convert_interleaved (hrows : Yarn.SameRows t u)
    (ht : Holds settings s₁.files input t) (hu : Holds settings s₂.files input' u)
    (hshape : s₁.files.SameShape [] s₂.files)
    (hlog₁ : LogApart s₁ input output) (hlog₂ : LogApart s₂ input' output)
    (elapsed elapsed' : Nat) :
    (∃ r warnings s₁' s₂' bytes,
      convert settings input output elapsed s₁ = (.ok r, s₁') ∧
      convert settings input' output elapsed' s₂ =
        (.ok { r with inputPath := input', warnings, duration := some elapsed' }, s₂') ∧
      s₁'.files.read (Path.ofText output) = .ok bytes ∧
      s₂'.files.read (Path.ofText output) = .ok bytes) ∨
    ∃ failure s₁' s₂',
      convert settings input output elapsed s₁ = (.error failure, s₁') ∧
      convert settings input' output elapsed' s₂ = (.error failure, s₂') := by
  obtain ⟨warnings, houtcome⟩ :=
    fst_convert_of_sameRows hrows ht hu hlog₁ hlog₂ hshape elapsed elapsed'
  cases hfirst : convert settings input output elapsed s₁ with
  | mk first s₁' =>
      cases hsecond : convert settings input' output elapsed' s₂ with
      | mk second s₂' =>
          rw [hfirst, hsecond] at houtcome
          obtain rfl : second = _ := houtcome
          cases first with
          | error failure => exact .inr ⟨failure, s₁', s₂', rfl, rfl⟩
          | ok r =>
              obtain ⟨bytes, hbytes, hbytes'⟩ :=
                outputs_eq_of_sameRows hrows ht hu hlog₁ hlog₂ hfirst hsecond
              exact .inl ⟨r, warnings, s₁', s₂', bytes, rfl, rfl, hbytes, hbytes'⟩

end

/-- The sample file with its rows exchanged, with a column more, and with lines between them that
are no rows. -/
def exchangedText : Text :=
  "v1\tofficial\tintermediary\tnamed\n" ++ "CLASS\ta\tC_1\tMain\tmore\r\n" ++ " \t\n" ++
    "CLASS\tb\n" ++ "NOTE\tx\n" ++ "METHOD\ta\t([La;)La;\tb\tm_1\trun\n"

/-- A mapping file with a method and a field whose types are no descriptors. -/
def faultyText : Text :=
  "v1\n" ++ "METHOD\ta\t(L;)V\tb\tm_1\trun\n" ++ "FIELD\ta\tLx\tc\tf_1\tleaf\n"

/-- The same with the field first and a line that is no row between them. -/
def exchangedFaultyText : Text :=
  "v1\n" ++ "FIELD\ta\tLx\tc\tf_1\tleaf\n" ++ "FIELD\ta\n" ++
    "METHOD\ta\t(L;)V\tb\tm_1\trun\n"

/-- Sessions with one mapping file have files of the same shape. -/
theorem sampleSession_sameShape (t u : Text) :
    (sampleSession t).files.SameShape [] (sampleSession u).files := by
  refine ⟨rfl, fun place _ => ?_⟩
  simp only [Files.kind?, Files.node?, sampleSession, List.find?_cons, List.find?_nil]
  split
  · rfl
  · cases decide (["in".toText] = place) <;> rfl

open scoped Codecs

/-- The file of a sample session holds the text, if its characters are bytes. -/
theorem sampleSession_holds {t : Text}
    (h : Encoding.latin1.decode true (t.map fun c => UInt8.ofNat c.toNat) = .ok t) :
    Holds sampleSettings (sampleSession t).files "in" t :=
  ⟨Encoding.latin1.codec, _, ofValue_latin1, rfl, h⟩

/-- The sample is converted, and its output holds the translation. -/
theorem sample_output : ∃ report s' bytes, convert sampleSettings "in" "out" 0
    (sampleSession sampleText) = (.ok report, s') ∧ sampleTranslation.utf8? = some bytes ∧
      s'.files.read (Path.ofText "out") = .ok bytes := by
  obtain ⟨report, s', h⟩ :=
    exists_sample_report (t := sampleText) (by decide +kernel) (by decide +kernel)
      (by decide +kernel)
  obtain ⟨version, t, bytes, hreads, hbytes, hread⟩ :=
    output_of_convert (logApart_of_no_file rfl) h
  obtain ⟨rfl, rfl⟩ := hreads.unique sample_reads
  have hutf8 := fileBytes?_utf8 (Translation.rows_ne_nil sample_conforms)
  rw [sample_translation] at hutf8
  exact ⟨report, s', bytes, h, hutf8.symm.trans (ofValue_utf8 ▸ hbytes), hread⟩

/-- The sample and its exchanged form are converted to the same bytes. Two files with faults fail
alike: the field is to blame, wherever it stands. -/
theorem convert_interleaved_exchanged :
    (∃ r r' s₁ s₂ bytes,
      convert sampleSettings "in" "out" 0 (sampleSession sampleText) = (.ok r, s₁) ∧
      convert sampleSettings "in" "out" 0 (sampleSession exchangedText) = (.ok r', s₂) ∧
      sampleTranslation.utf8? = some bytes ∧
      s₁.files.read (Path.ofText "out") = .ok bytes ∧
      s₂.files.read (Path.ofText "out") = .ok bytes) ∧
    ∃ s₁ s₂,
      convert sampleSettings "in" "out" 0 (sampleSession faultyText) =
        (.error (.conversion (.descriptor ⟨⟨2, .unterminatedName⟩, "Lx"⟩)), s₁) ∧
      convert sampleSettings "in" "out" 0 (sampleSession exchangedFaultyText) =
        (.error (.conversion (.descriptor ⟨⟨2, .unterminatedName⟩, "Lx"⟩)), s₂) := by
  have hlog (t : Text) : LogApart (sampleSession t) "in" "out" := logApart_of_no_file rfl
  constructor
  · have hrows : Yarn.SameRows sampleText exchangedText := by
      constructor <;> decide +kernel
    obtain ⟨report, s', encoded, hsample, hencoded, houtput⟩ := sample_output
    rcases convert_interleaved hrows (sampleSession_holds (by decide +kernel))
      (sampleSession_holds (by decide +kernel)) (sampleSession_sameShape _ _) (hlog _) (hlog _)
      0 0 with ⟨r, warnings, s₁, s₂, bytes, h, h', hread, hread'⟩ | ⟨failure, s₁, s₂, h, -⟩
    · obtain ⟨-, rfl⟩ := Prod.mk.inj (hsample.symm.trans h)
      obtain rfl := Except.ok.inj (houtput.symm.trans hread)
      exact ⟨r, _, s', s₂, _, h, h', hencoded, hread, hread'⟩
    · cases (Prod.mk.inj (hsample.symm.trans h)).1
  · have hrows : Yarn.SameRows faultyText exchangedFaultyText := by
      constructor <;> decide +kernel
    have hfault : (convert sampleSettings "in" "out" 0 (sampleSession faultyText)).1.map
        (fun _ => ()) =
          .error (.conversion (.descriptor ⟨⟨2, .unterminatedName⟩, "Lx"⟩)) := by
      decide +kernel
    rcases convert_interleaved hrows (sampleSession_holds (by decide +kernel))
      (sampleSession_holds (by decide +kernel)) (sampleSession_sameShape _ _) (hlog _) (hlog _)
      0 0 with ⟨r, warnings, s₁, s₂, bytes, h, -⟩ | ⟨failure, s₁, s₂, h, h'⟩
    · rw [h] at hfault
      cases hfault
    · rw [h] at hfault
      obtain rfl := Except.error.inj hfault
      exact ⟨s₁, s₂, h, h'⟩

end Conversion
end Remapping
