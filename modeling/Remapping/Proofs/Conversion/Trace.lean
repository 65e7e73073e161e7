import Remapping.Proofs.Conversion.EndToEnd

/-!
# The trace of a conversion

What passes from stage to stage of a conversion that succeeds: the text that it reads, the rows
of the text, what is left of them after remapping, and the number that the writer gives. Read
`exists_trace` first: every report comes from a trace, and statements about reports are statements
about the trace from there on.
-/

namespace Remapping.Conversion

section

variable [Codecs]

/-- What passes through the stages of a conversion. -/
structure Trace where
  /-- The version that the header line has to start with. -/
  version : Text
  /-- The text of the input. -/
  text : Text
  /-- The rows that are read from the text. -/
  rows : MappingSet
  /-- The warnings about the other lines. -/
  warnings : List RowWarning
  /-- The remapper after the last row. -/
  remapper : Remapper
  /-- The rows that are written. -/
  result : MappingSet
  /-- The number that the writer gives. -/
  count : Nat

namespace Trace

/-- The text that is written to the output. -/
def output (tr : Trace) : Text := Tiny.text tr.result

/-- The report of a conversion with this trace. -/
def report (tr : Trace) (inputPath outputPath : Text) (elapsed : Nat) : Report where
  inputPath
  outputPath
  classCount := tr.result.classes.length
  fieldCount := tr.result.fields.length
  methodCount := tr.result.methods.length
  warnings := tr.warnings
  unresolved := tr.remapper.unresolved
  duplicates := (SymbolTable.ofList tr.rows.classes).duplicates
  duration := some elapsed

/-- A trace from a session to a later one. Each stage takes what the stage before it gives; the
files that are read are those at the start, and the files that the writer leaves are those at the
end, but for the places where the log is kept. -/
structure Leads (tr : Trace) (settings : ConverterSettings) (inputPath outputPath : Text)
    (s s' : Session) : Prop where
  reads : ∃ reading, s.files.AgreeOutside s.log.places reading ∧
    Reads settings reading inputPath tr.version tr.text
  parses : Yarn.readText tr.version tr.text = .ok (tr.rows, tr.warnings)
  remaps : tr.rows.remap (SymbolTable.ofList tr.rows.classes) = (tr.result, .ok tr.remapper)
  writes : ∃ before written bytes, s.files.AgreeOutside s.log.places before ∧
    Output.write before (Path.ofText outputPath) settings.atomicWrite.isTruthy
      (EncodingSetting.ofValue settings.outputEncoding) tr.result = (written, .ok tr.count) ∧
    Output.FileOf (EncodingSetting.ofValue settings.outputEncoding) (Tiny.rows tr.result) bytes ∧
    written.read (Path.ofText outputPath) = .ok bytes ∧
    written.AgreeOutside s.log.places s'.files

end Trace

variable {settings : ConverterSettings} {input output : Text} {elapsed : Nat} {s s' : Session}

/-- What the stage that writes leaves, seen from a session before it and one after it that differ
in nothing but records. -/
theorem writes_of_logs {m : MappingSet} {count : Nat} {ready done : Session}
    (hready : s.Logs ready) (hwrite : write settings m output ready = (.ok count, done))
    (hdone : done.Logs s') :
    ∃ before written bytes, s.files.AgreeOutside s.log.places before ∧
      Output.write before (Path.ofText output) settings.atomicWrite.isTruthy
        (EncodingSetting.ofValue settings.outputEncoding) m = (written, .ok count) ∧
      Output.FileOf (EncodingSetting.ofValue settings.outputEncoding) (Tiny.rows m) bytes ∧
      written.read (Path.ofText output) = .ok bytes ∧
      written.AgreeOutside s.log.places s'.files := by
  obtain ⟨houtput, hplaces⟩ := write_ok hwrite
  obtain ⟨-, -, place, bytes, hplace, hbytes, hput⟩ := Output.write_eq_ok_iff.mp houtput
  have hread : done.files.read (Path.ofText output) = .ok bytes := by
    rw [hput]
    exact (Files.written_of_writePlace hplace bytes).read hplace
  -- The log keeps its places through all stages, so both ends are compared outside the same ones.
  have hend := hdone.agree
  rw [hplaces, hready.places_eq] at hend
  exact ⟨_, _, bytes, (hready.trans (logs_writing output ready)).agree, houtput,
    .of_fileBytes (Tiny.rows_ne_nil m) hbytes, hread, hend⟩

/-- A conversion that succeeds has a trace, and its report is that of the trace. -/
theorem exists_trace {report : Report}
    (h : convert settings input output elapsed s = (.ok report, s')) :
    ∃ tr : Trace, tr.Leads settings input output s s' ∧
      report = tr.report input output elapsed := by
  rw [convert_eq] at h
  cases hstages : stages settings input output s with
  | mk outcome done =>
      rw [hstages] at h
      cases outcome with
      | error failure => cases h
      | ok unended =>
          have hdone := onlyLogs_complete unended elapsed done
          cases h
          rcases stages_steps hstages with ⟨_, hfails, -⟩ |
            ⟨m, warnings, loaded, m', r, ready, hload, hremap, hready, hends⟩
          · cases hfails
          rcases hends with ⟨_, hfails, -⟩ | ⟨count, hwrite, hreport⟩
          · cases hfails
          cases hreport
          obtain ⟨reading, bytes, hreading, hbytes, hmappings⟩ := load_ok hload
          obtain ⟨codec, version, t, hencoding, hversion, hdecode, hread⟩ :=
            readMappings_eq_ok_iff.mp hmappings
          refine ⟨⟨version, t, m, warnings, r, m', count⟩, ?_, rfl⟩
          have hstarted : s.Logs (s.record .debug (Timing.started (label input))) :=
            .record _ _ .refl
          exact {
            reads := ⟨reading.files, (hstarted.trans hreading).agree, hversion, codec, bytes,
              hencoding, hbytes, hdecode⟩
            parses := hread
            remaps := hremap
            writes := writes_of_logs hready hwrite hdone }

end

open scoped Codecs in
/-- The trace of a sample file starts with its text. -/
theorem Trace.Leads.of_sample {t : Text}
    (ht : Encoding.latin1.decode true (t.map fun c => UInt8.ofNat c.toNat) = .ok t) {tr : Trace}
    {output : Text} {s' : Session} (h : tr.Leads sampleSettings "in" output (sampleSession t) s') :
    tr.version = "v1" ∧ tr.text = t := by
  obtain ⟨reading, hagree, hreads⟩ := h.reads
  exact (Reads.of_agree hagree hreads).unique (reads_sample ht)

end Remapping.Conversion
