import Remapping.Proofs.CommandLine.Running
import Remapping.Proofs.Conversion.EndToEnd

/-!
# What a run tells about its conversion

The exit status, the files and what is shown, seen together. Read `run_verdict` first: a run whose
conversion succeeds ends with status 0, with the converted text in the output and its report where
it was asked for, and a run whose conversion fails ends with status 1 and has changed no file. A
conversion can succeed and its report still be lost: if a path, a dropped line or a class has a
surrogate, the report has no bytes, and a run that is to save it or to print it ends with status 1.
-/

namespace Remapping

/-- A document has the totals of a report, its warnings, and the classes that it lists. -/
structure Report.CarriedBy (r : Report) (document : Value) : Prop where
  rows : document.get? "rows" = some (.table [
    ("classes", .int r.classCount),
    ("fields", .int r.fieldCount),
    ("methods", .int r.methodCount),
    ("total", .int r.rowsConverted)])
  warning_count : document.get? "warning_count" = some (.int r.warningCount)
  warnings : document.get? "warnings" = some (.list (r.warnings.map RowWarning.toValue))
  unresolved : document.get? "unresolved_classes" = some (.list (r.unresolved.map .text))
  duplicates : document.get? "duplicate_classes" = some (.list (r.duplicates.map .text))

/-- The document of a report has what the report tells. -/
theorem Report.carriedBy_toValue (r : Report) (now : Moment) : r.CarriedBy (r.toValue now) :=
  ⟨rfl, rfl, rfl, rfl, rfl⟩

/-- Whether something stands at a path can be told if it can be told whether a directory does. -/
theorem Files.exists_pathExists {f : Files} {p : Path} {directory : Bool}
    (h : f.isDirectory p = .ok directory) : ∃ found, f.pathExists p = .ok found := by
  unfold isDirectory pathExists test at *
  cases hstat : f.stat p with
  | ok node => exact ⟨true, rfl⟩
  | error fault =>
      rw [hstat] at h
      cases fault <;> first | exact ⟨false, rfl⟩ | cases h

namespace CommandLine

/-! ## Failures -/

/-- A run that failed has changed no file and shows no report. -/
structure Outcome.Aborted (q : Request) (files : Files) (o : Outcome) : Prop where
  status : o.status = 1
  files : o.files = files
  silent : (q.quiet || q.json) = true → o.shown = .items []
  no_report : ∀ t, o.shown ≠ .text t

namespace Run

variable {r : Run}

/-- A run that ends with status 1, with its console and the files from before, was aborted. -/
theorem aborted {files : Files} {o : Outcome} (hstatus : o.status = 1)
    (hshown : o.shown = .items r.console) (hfiles : o.files = files) :
    o.Aborted r.request files where
  status := hstatus
  files := hfiles
  silent := fun hsilent => by rw [hshown, console, isSilent, if_pos hsilent]
  no_report := fun t h => by cases hshown.symm.trans h

/-- A run is opened with some items, and is otherwise the same. -/
theorem opened_eq (r : Run) : ∃ items, r.opened = { r with items } := by
  unfold opened
  split <;> exact ⟨_, rfl⟩

variable [Codecs]

/-- A run whose conversion fails ends, and is aborted if the conversion asks for a temporary
file. -/
theorem convert_ends (hlog : r.session.log.file = none) {failure : Failure} {s : Session}
    (h : Conversion.stages r.settings.converter r.request.input r.request.output r.session =
      (.error failure, s)) :
    ∃ o : Outcome, r.convert = .ended o ∧
      (r.settings.converter.atomicWrite.isTruthy = true →
        o.Aborted r.request r.session.files) := by
  have hnone := Conversion.file_stages hlog h
  rw [Run.convert, h]
  cases failure with
  | conversion e =>
      refine ⟨_, rfl, fun hatomic => (r.put [.message .error e.message]).aborted rfl rfl ?_⟩
      exact (Session.files_record hnone _ _).trans (Conversion.stages_error hlog hatomic h)
  | _ => exact ⟨_, rfl, fun hatomic => r.aborted rfl rfl (Conversion.stages_error hlog hatomic h)⟩

/-- A run is aborted before its conversion, and then no file can be written at its output, or it
converts after some messages. -/
theorem begin_cases (r : Run) :
    (∃ o : Outcome, r.begin = .ended o ∧ o.Aborted r.request r.session.files ∧
      ∀ place, r.session.files.writePlace (Path.ofText r.request.output) ≠ .ok place) ∨
    ∃ items, r.begin = ({ r with items } : Run).convert := by
  rw [begin_eq]
  obtain ⟨items, hopened⟩ := r.opened_eq
  rw [hopened]
  have hwrites {place : Location}
      (h : r.session.files.writePlace (Path.ofText r.request.output) = .ok place) :=
    Files.isDirectory_of_writePlace h
  cases hdirectory : r.session.files.isDirectory (Path.ofText r.request.output) with
  | error e =>
      exact .inl ⟨_, rfl, aborted (r := { r with items }) rfl rfl rfl,
        fun place h => nomatch hdirectory.symm.trans (hwrites h)⟩
  | ok directory =>
      obtain ⟨found, hfound⟩ := Files.exists_pathExists hdirectory
      rw [hfound]
      cases directory with
      | true =>
          exact .inl ⟨_, rfl, aborted (r := ({ r with items } : Run).put _) rfl rfl rfl,
            fun place h => nomatch hdirectory.symm.trans (hwrites h)⟩
      | false =>
          cases found with
          | true => exact .inr ⟨_, rfl⟩
          | false => exact .inr ⟨_, rfl⟩

/-- A run whose conversion fails ends at the latest with it. -/
theorem begin_ends (hlog : r.session.log.file = none) {failure : Failure} {s : Session}
    (h : Conversion.stages r.settings.converter r.request.input r.request.output r.session =
      (.error failure, s)) :
    ∃ o : Outcome, r.begin = .ended o ∧
      (r.settings.converter.atomicWrite.isTruthy = true →
        o.Aborted r.request r.session.files) := by
  rcases r.begin_cases with ⟨o, hbegin, haborted, -⟩ | ⟨items, hbegin⟩
  · exact ⟨o, hbegin, fun _ => haborted⟩
  · rw [hbegin]
    exact convert_ends (r := { r with items }) hlog h

/-- A run whose conversion succeeds converts. -/
theorem begin_converted (hlog : r.session.log.file = none) {report : Report} {s : Session}
    (h : Conversion.stages r.settings.converter r.request.input r.request.output r.session =
      (.ok report, s)) :
    ∃ items, r.begin = .converted { r with session := s, items } report := by
  obtain ⟨_, _, place, _, htranslated⟩ := Conversion.stages_ok hlog h
  rcases r.begin_cases with ⟨_, -, -, hnone⟩ | ⟨items, hbegin⟩
  · exact absurd htranslated.writes (hnone place)
  · refine ⟨items, ?_⟩
    rw [hbegin, Run.convert, h]

end Run

/-- What becomes of a request up to the end of its conversion, told by the conversion of its input
in any session with the same files: without a log file, the log of the session makes no
difference. -/
theorem Request.start_cases [Codecs] {q : Request} {files : Files} {home : Location}
    {settings : Settings} (hload : Settings.load files home q.config = .ok settings)
    (htyped : settings.WellTyped) (hlog : settings.shared.logFile = .null) (now : Moment)
    (elapsed : Nat) {s : Session} (hfiles : s.files = files) (hnone : s.log.file = none) :
    match (Conversion.convert settings.converter q.input q.output elapsed s).1 with
    | .ok report => ∃ r unended, q.start files home now = .converted r unended ∧
        report = unended.timed elapsed ∧ r.request = q ∧ r.settings = settings ∧
        r.session.log.file = none ∧ ∃ version t place bytes, Conversion.Translated
          settings.converter q.input q.output files r.session.files version t place bytes
    | .error _ => ∃ o : Outcome, q.start files home now = .ended o ∧
        (settings.converter.atomicWrite.isTruthy = true → o.Aborted q files) := by
  obtain ⟨log, hlogged, hstart⟩ := Request.start_eq hload htyped hlog now
  obtain ⟨hsame, -⟩ := (Conversion.ignoresLog_stages settings.converter q.input q.output).run
    (s := { files, log, now }) ⟨hfiles, hlogged, hnone⟩
  rw [Conversion.fst_convert, hsame, hstart]
  rcases hstages : Conversion.stages settings.converter q.input q.output { files, log, now }
    with ⟨outcome, s'⟩
  cases outcome with
  | error failure =>
      exact Run.begin_ends (r := { request := q, settings, session := { files, log, now } })
        hlogged hstages
  | ok report =>
      obtain ⟨items, hbegin⟩ := Run.begin_converted
        (r := { request := q, settings, session := { files, log, now } }) hlogged hstages
      exact ⟨_, report, hbegin, rfl, rfl, rfl, Conversion.file_stages hlogged hstages,
        Conversion.stages_ok hlogged hstages⟩

/-! ## Main statement -/

/-- The report of a request is to be written down, in a file or as JSON that is shown. -/
def Request.WantsReport (q : Request) : Prop := (∃ path, q.report = some path) ∨ q.json = true

/-- A run has told of its conversion: with status 0, a document of the report in the file of the
report, if there is one, and as JSON, if it is to be shown. -/
structure Outcome.Reported (q : Request) (report : Report) (o : Outcome) : Prop where
  status : o.status = 0
  failure : o.failure = none
  saved : ∀ path ∈ q.report, ∃ document bytes, report.CarriedBy document ∧
    (document.jsonIndented 0).utf8? = some bytes ∧ o.files.read (Path.ofText path) = .ok bytes
  shown : q.json = true → ∃ document, report.CarriedBy document ∧
    o.shown = .text (document.jsonIndented 0 ++ [.char '\n'])

/-- A run has lost its report: it ends with status 1 and shows no JSON, and the file of the report,
if there is one, is empty. -/
structure Outcome.Unreported (q : Request) (o : Outcome) : Prop where
  status : o.status = 1
  failure : o.failure = some .unencodable
  saved : ∀ path ∈ q.report, o.files.read (Path.ofText path) = .ok []
  shown : ∀ t, o.shown ≠ .text t

/-- What a run leaves whose conversion gives a report: the bytes of the translation of the input in
the output, and the report, unless it is to be written down and has a surrogate. -/
structure Outcome.Converted [Codecs] (q : Request) (settings : ConverterSettings) (files : Files)
    (report : Report) (o : Outcome) : Prop where
  output : ∃ version t bytes, Conversion.Reads settings files q.input version t ∧
    Translation.Conforms version t ∧
    Output.FileOf (EncodingSetting.ofValue settings.outputEncoding)
      (Translation.rows version t) bytes ∧
    o.files.read (Path.ofText q.output) = .ok bytes
  reported : ¬ (q.WantsReport ∧ report.HasSurrogate) → o.Reported q report
  unreported : q.WantsReport → report.HasSurrogate → o.Unreported q

/-- A file can be saved at the path of the report of a request, if there is one, and its trail keeps
clear of the place of the output. -/
def Request.ReportSaveable (q : Request) (files : Files) : Prop :=
  ∀ path ∈ q.report, files.Saveable (Path.ofText path) ∧
    ∀ place, files.locate (Path.ofText q.output) = .ok place →
      files.Clear [place] (Path.ofText path)

section Finish

variable {q : Request} {r : Run} {report : Report} {before after : Files} {version t : Text}
  {place : Location} {bytes : Bytes}

/-- A run that ends with its report tells of its conversion, if the report can be read in the files
at the end. -/
theorem Run.Reports.reported {o : Outcome} (h : r.Reports report after o)
    (hsaved : ∀ path ∈ r.request.report, ∃ bytes, (report.toJson r.session.now).utf8? = some bytes ∧
      after.read (Path.ofText path) = .ok bytes) : o.Reported r.request report where
  status := h.status
  failure := h.failure
  saved path hpath := by
    obtain ⟨bytes, hbytes, hread⟩ := hsaved path hpath
    exact ⟨_, bytes, report.carriedBy_toValue _, hbytes, h.files ▸ hread⟩
  shown hjson := ⟨_, report.carriedBy_toValue _, h.shown hjson⟩

/-- A run that fails over its report has lost it, if the file of the report is empty at the end. -/
theorem Run.Fails.unreported {o : Outcome} (h : Run.Fails .unencodable after o)
    (hsaved : ∀ path ∈ q.report, after.read (Path.ofText path) = .ok []) : o.Unreported q where
  status := h.status
  failure := h.failure
  saved path hpath := h.files ▸ hsaved path hpath
  shown t hshown := by
    obtain ⟨items, hitems⟩ := h.shown
    cases hitems.symm.trans hshown

/-- A run that saves no report tells of its conversion, or has lost its report. -/
theorem Run.finish_none (hlog : r.session.log.file = none)
    (hlimit : ∃ n, r.settings.converter.maxWarningsShown = .int n)
    (hreport : r.request.report = none) (report : Report) (elapsed : Nat) :
    (r.finish report elapsed).files = r.session.files ∧
      (¬ (r.request.WantsReport ∧ report.HasSurrogate) →
        (r.finish report elapsed).Reported r.request (report.timed elapsed)) ∧
      (r.request.WantsReport → report.HasSurrogate →
        (r.finish report elapsed).Unreported r.request) := by
  have hnone : ∀ path, ¬ path ∈ r.request.report := by simp [hreport]
  by_cases hlost : r.request.json = true ∧ report.HasSurrogate
  · have hfails := fails_of_none hlog hreport hlost.1 hlost.2 elapsed
    refine ⟨hfails.files, fun hkept => absurd ⟨.inr hlost.1, hlost.2⟩ hkept, fun _ _ => ?_⟩
    exact hfails.unreported fun path hpath => absurd hpath (hnone path)
  · have hreports := reports_of_none hlog hlimit hreport
      (fun hjson hsurrogate => hlost ⟨hjson, hsurrogate⟩) elapsed
    refine ⟨hreports.files, fun _ => ?_, fun hwants hsurrogate => ?_⟩
    · exact hreports.reported fun path hpath => absurd hpath (hnone path)
    · rcases hwants with ⟨path, hpath⟩ | hjson
      · exact absurd hpath (hnone path)
      · exact absurd ⟨hjson, hsurrogate⟩ hlost

/-- A run that saves its report tells of its conversion, or has lost its report. -/
theorem Run.finish_some (hlog : r.session.log.file = none)
    (hlimit : ∃ n, r.settings.converter.maxWarningsShown = .int n) {path : Text}
    (hreport : r.request.report = some path) {made : Files} {target : Location}
    (hmade : r.session.files.makeDirectories (Path.ofText path).parent = (made, .ok ()))
    (htarget : made.writePlace (Path.ofText path) = .ok target) (report : Report) (elapsed : Nat) :
    (∃ contents, (r.finish report elapsed).files = made.put target (.file contents)) ∧
      (¬ (r.request.WantsReport ∧ report.HasSurrogate) →
        (r.finish report elapsed).Reported r.request (report.timed elapsed)) ∧
      (r.request.WantsReport → report.HasSurrogate →
        (r.finish report elapsed).Unreported r.request) := by
  obtain ⟨shown, hsave⟩ := Report.save_eq hmade htarget
  obtain ⟨hlost, hkept⟩ := finish_placed hlog hlimit hreport hsave report elapsed
  have hread (contents : Bytes) := (Files.written_of_writePlace htarget contents).read htarget
  have hpath : ∀ other ∈ r.request.report, other = path := by simp [hreport]
  by_cases hsurrogate : report.HasSurrogate
  · have hfails := hlost hsurrogate
    refine ⟨⟨_, hfails.files⟩, fun hkept => absurd ⟨.inl ⟨path, hreport⟩, hsurrogate⟩ hkept,
      fun _ _ => hfails.unreported fun other hother => ?_⟩
    rw [hpath other hother]
    exact hread []
  · obtain ⟨bytes, hbytes, hreports⟩ := hkept hsurrogate
    refine ⟨⟨_, hreports.files⟩, fun _ => hreports.reported fun other hother => ?_,
      fun _ hlost => absurd hlost hsurrogate⟩
    rw [hpath other hother]
    exact ⟨bytes, hbytes, hread bytes⟩

/-- A run that has converted tells of its conversion, or has lost its report. -/
theorem Run.finish_converted [Codecs] (hlog : r.session.log.file = none)
    (hlimit : ∃ n, r.settings.converter.maxWarningsShown = .int n)
    (hreport : r.request.ReportSaveable before)
    (htranslated : Conversion.Translated r.settings.converter r.request.input r.request.output
      before r.session.files version t place bytes) (report : Report) (elapsed : Nat) :
    (r.finish report elapsed).Converted r.request r.settings.converter before
      (report.timed elapsed) := by
  obtain ⟨hlocate, hnode⟩ := Files.writePlace_eq_ok_iff.mp htranslated.writes
  have hwritten := Files.written_of_writePlace htranslated.writes bytes
  rw [← htranslated.files] at hwritten
  have hread := hwritten.read htranslated.writes
  have hfile : Output.FileOf (EncodingSetting.ofValue r.settings.converter.outputEncoding)
      (Translation.rows version t) bytes :=
    .of_fileBytes (Translation.rows_ne_nil htranslated.conforms) htranslated.encodes
  cases hpath : r.request.report with
  | none =>
      obtain ⟨hfiles, hreported, hunreported⟩ := finish_none hlog hlimit hpath report elapsed
      exact {
        output := ⟨version, t, bytes, htranslated.reads, htranslated.conforms, hfile,
          hfiles ▸ hread⟩
        reported := hreported
        unreported := hunreported }
  | some path =>
      obtain ⟨hsaveable, hclear⟩ := hreport path hpath
      have hshape : before.SameShape [place] r.session.files := by
        rw [htranslated.files]
        exact (Files.AgreeOutside.put (List.mem_singleton_self place) _ _).sameShape
      obtain ⟨made, target, hmade, htarget⟩ := hshape.saveable (hclear place hlocate) hsaveable
      obtain ⟨⟨contents, hfiles⟩, hreported, hunreported⟩ :=
        finish_some hlog hlimit hpath hmade htarget report elapsed
      have hkept := Files.read_of_saved hmade htarget
        ((hwritten.sameDirectories hnode).locate hlocate)
        ((hclear place hlocate).of_workingDirectory hwritten.1) hread contents
      exact {
        output := ⟨version, t, bytes, htranslated.reads, htranslated.conforms, hfile,
          hfiles ▸ hkept⟩
        reported := hreported
        unreported := hunreported }

end Finish

/-- The exit status and the files of a run tell what became of its conversion. Let the settings of
a request have values of their declared types, name no log file and ask for a temporary file, and
let a file be saveable at the path of the report, if there is one, whose trail keeps clear of the
place of the output. If the conversion of the input gives a report, the output holds the converted
text; the run ends with status 0, and the file of the report and the JSON that is shown tell of this
conversion, unless the report is to be written down and has a surrogate: then the run ends with
status 1 and the report is lost. If the conversion fails, the run ends with status 1, every file is
as it was, and no report is shown. -/
theorem run_verdict [Codecs] {q : Request} {files : Files} {home : Location} {settings : Settings}
    (hload : Settings.load files home q.config = .ok settings) (htyped : settings.WellTyped)
    (hlog : settings.shared.logFile = .null) (hatomic : settings.converter.atomicWrite = .bool true)
    (hreport : q.ReportSaveable files) (now : Moment) (elapsed : Nat) {s : Session}
    (hfiles : s.files = files) (hnone : s.log.file = none) :
    match (Conversion.convert settings.converter q.input q.output elapsed s).1 with
    | .ok report => (q.run files home now elapsed).Converted q settings.converter files report
    | .error _ => (q.run files home now elapsed).Aborted q files := by
  have hstart := Request.start_cases hload htyped hlog now elapsed hfiles hnone
  rw [Request.run]
  cases hconvert : (Conversion.convert settings.converter q.input q.output elapsed s).1 with
  | error failure =>
      rw [hconvert] at hstart
      obtain ⟨o, hended, haborted⟩ := hstart
      rw [hended]
      exact haborted (hatomic ▸ rfl)
  | ok report =>
      rw [hconvert] at hstart
      obtain ⟨r, unended, hconverted, rfl, rfl, rfl, hlogged, version, t, place, bytes,
        htranslated⟩ := hstart
      rw [hconverted]
      exact Run.finish_converted hlogged htyped.converter.maxWarningsShown hreport htranslated
        unended elapsed

open Conversion (namedFile namedSession strayName)
open scoped Codecs

/-- A request for a report, both as JSON that is shown and in a directory that is not there yet. -/
def reportedRequest (input : Text) : Request where
  input
  output := "out"
  report := some "logs/report"
  json := true

/-- A file of which nothing is left but its header and a warning. -/
def warnedText : Text := "v1\tofficial\tintermediary\tnamed\n" ++ "CLASS\ta\n"

/-- A file of another version. -/
def futureText : Text := "v2\tofficial\tintermediary\tnamed\n"

/-- The report can be saved beside the file, whether or not its name has a surrogate. -/
theorem reportSaveable_sample {input : Text} (h : input ∈ ["in".toText, strayName]) :
    (reportedRequest input).ReportSaveable (namedFile input warnedText) := by
  rintro _ ⟨⟩
  have hmade : ∀ input ∈ ["in".toText, strayName], ((namedFile input warnedText).makeDirectories
      (Path.ofText "logs/report").parent).2 = .ok () := by
    decide +kernel
  have hplace : ∀ input ∈ ["in".toText, strayName], ((namedFile input warnedText).makeDirectories
      (Path.ofText "logs/report").parent).1.writePlace (Path.ofText "logs/report") =
        .ok ["logs".toText, "report".toText] := by
    decide +kernel
  have houtput : ∀ input ∈ ["in".toText, strayName],
      (namedFile input warnedText).locate (Path.ofText "out") = .ok ["out".toText] := by
    decide +kernel
  refine ⟨⟨_, _, Prod.ext rfl (hmade _ h), hplace _ h⟩, fun place hlocate => ?_⟩
  obtain rfl : ["out".toText] = place := Except.ok.inj ((houtput _ h).symm.trans hlocate)
  unfold Files.Clear
  revert input
  decide

/-- Without a settings file the defaults hold. -/
theorem load_sample {input : Text} (h : input ∈ ["in".toText, strayName]) (t : Text) :
    Settings.load (namedFile input t) [] none = .ok {} := by
  have hmissing : (namedFile input t).pathExists (Settings.homeFile []) = .ok false := by
    rcases List.mem_pair.mp h with rfl | rfl
    · rfl
    · rfl
  rw [Settings.load, Option.map_none, Option.getD_none, hmissing]
  rfl

/-- The file with a warning is converted, with its report in both places, unless the name of the
file has a surrogate: then the report is lost. A file of another version is not converted, and a
quiet run shows nothing of it. -/
theorem run_verdict_sample :
    (∃ report o, o = (reportedRequest "in").run (namedFile "in" warnedText) [] {} 0 ∧
        o.Converted (reportedRequest "in") {} (namedFile "in" warnedText) report ∧
        o.Reported (reportedRequest "in") report) ∧
      (∃ report o, o = (reportedRequest strayName).run (namedFile strayName warnedText) [] {} 0 ∧
        o.Converted (reportedRequest strayName) {} (namedFile strayName warnedText) report ∧
        o.Unreported (reportedRequest strayName)) ∧
      (Request.run { input := "in", output := "out", quiet := true } (namedFile "in" futureText) []
        {} 0).Aborted { input := "in", output := "out", quiet := true }
          (namedFile "in" futureText) := by
  have hreports : ∀ input ∈ ["in".toText, strayName], ∃ report,
      (Conversion.convert {} input "out" 0 (namedSession input warnedText)).1 = .ok report ∧
        (report.HasSurrogate ↔ input = strayName) := by
    have hsurrogate : ∀ input ∈ ["in".toText, strayName],
        ((Conversion.convert {} input "out" 0 (namedSession input warnedText)).1.map
          fun report => decide report.HasSurrogate) = .ok (decide (input = strayName)) := by
      decide +kernel
    intro input h
    have hdecided := hsurrogate input h
    cases hconvert : (Conversion.convert {} input "out" 0 (namedSession input warnedText)).1 with
    | error failure => cases hconvert ▸ hdecided
    | ok report =>
        rw [hconvert] at hdecided
        exact ⟨report, rfl, decide_eq_decide.mp (Except.ok.inj hdecided)⟩
  have hverdict {input : Text} (h : input ∈ ["in".toText, strayName]) : ∃ report o,
      o = (reportedRequest input).run (namedFile input warnedText) [] {} 0 ∧
        (report.HasSurrogate ↔ input = strayName) ∧
        o.Converted (reportedRequest input) {} (namedFile input warnedText) report := by
    obtain ⟨report, hconvert, hsurrogate⟩ := hreports input h
    have hconverted := run_verdict (q := reportedRequest input) (load_sample h warnedText)
      Settings.wellTyped_default rfl rfl (reportSaveable_sample h) {} 0
      (s := namedSession input warnedText) rfl rfl
    rw [reportedRequest, hconvert] at hconverted
    exact ⟨report, _, rfl, hsurrogate, hconverted⟩
  have hplain : "in".toText ∈ ["in".toText, strayName] := List.mem_cons_self
  have hstray : strayName ∈ ["in".toText, strayName] := List.mem_of_mem_tail List.mem_cons_self
  refine ⟨?_, ?_, ?_⟩
  · obtain ⟨report, o, ho, hsurrogate, hconverted⟩ := hverdict hplain
    exact ⟨report, o, ho, hconverted, hconverted.reported fun hlost =>
      absurd (hsurrogate.mp hlost.2) (by decide)⟩
  · obtain ⟨report, o, ho, hsurrogate, hconverted⟩ := hverdict hstray
    exact ⟨report, o, ho, hconverted, hconverted.unreported (.inr rfl) (hsurrogate.mpr rfl)⟩
  · have hfails : (Conversion.convert {} "in" "out" 0
        (namedSession "in" futureText)).1.isOk = false := by
      decide +kernel
    have hverdict := run_verdict (q := { input := "in", output := "out", quiet := true })
      (load_sample hplain futureText) Settings.wellTyped_default rfl rfl
      (fun _ h => nomatch h) {} 0 (s := namedSession "in" futureText) rfl rfl
    revert hverdict hfails
    cases (Conversion.convert {} "in" "out" 0 (namedSession "in" futureText)).1 with
    | ok report => exact fun hfails => nomatch hfails
    | error failure => exact fun _ hverdict => hverdict

end CommandLine
end Remapping
