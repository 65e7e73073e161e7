import Remapping.CommandLine.Run
import Remapping.Proofs.Conversion.Unlogged
import Remapping.Proofs.Files.Making
import Remapping.Proofs.Value.Surrogates

/-!
# How a run ends

What a run of the command line does around its conversion, if the settings have values of their
declared types and name no log file: nothing of it can fail but the loading of the settings, the
look at the output, the saving of the report, and the printing of a report with a surrogate. Read
`Request.start_eq` and `Run.finish_eq` first: they say how a run comes to its conversion and what
it does afterwards.
-/

namespace Remapping

/-! ## Settings -/

/-- The shared settings have values of their declared types. -/
structure SharedSettings.WellTyped (s : SharedSettings) : Prop where
  logLevel : ∃ level, s.logLevel = .text level
  logFile : s.logFile = .null ∨ ∃ path, s.logFile = .text path
  logJson : ∃ b, s.logJson = .bool b
  debug : ∃ b, s.debug = .bool b
  version : ∃ version, s.version = .text version

/-- The settings of the converter have values of their declared types. -/
structure ConverterSettings.WellTyped (s : ConverterSettings) : Prop where
  supportedVersion : ∃ version, s.supportedVersion = .text version
  inputEncoding : ∃ name, s.inputEncoding = .text name
  outputEncoding : ∃ name, s.outputEncoding = .text name
  atomicWrite : ∃ b, s.atomicWrite = .bool b
  maxWarningsShown : ∃ n, s.maxWarningsShown = .int n

/-- All settings have values of their declared types. -/
structure Settings.WellTyped (s : Settings) : Prop where
  shared : s.shared.WellTyped
  converter : s.converter.WellTyped

/-- The defaults have values of their declared types. -/
theorem Settings.wellTyped_default : ({} : Settings).WellTyped where
  shared := ⟨⟨_, rfl⟩, .inl rfl, ⟨_, rfl⟩, ⟨_, rfl⟩, ⟨_, rfl⟩⟩
  converter := ⟨⟨_, rfl⟩, ⟨_, rfl⟩, ⟨_, rfl⟩, ⟨_, rfl⟩, ⟨_, rfl⟩⟩

/-! ## Reports -/

namespace Report

/-- A report tells of a text with a surrogate: a path, a line that was dropped, or a class. -/
def HasSurrogate (r : Report) : Prop :=
  r.inputPath.HasSurrogate ∨ r.outputPath.HasSurrogate ∨
    (∃ w ∈ r.warnings, w.message.HasSurrogate ∨ w.line.HasSurrogate) ∨
    (∃ name ∈ r.unresolved, name.HasSurrogate) ∨ ∃ name ∈ r.duplicates, name.HasSurrogate

instance (r : Report) : Decidable r.HasSurrogate :=
  inferInstanceAs (Decidable (_ ∨ _ ∨ _ ∨ _ ∨ _))

/-- The texts in the elements about warnings are keys, messages and lines. -/
theorem exists_hasSurrogate_warnings (warnings : List RowWarning) :
    (∃ t ∈ Value.itemTexts (warnings.map RowWarning.toValue), t.HasSurrogate) ↔
      ∃ w ∈ warnings, w.message.HasSurrogate ∨ w.line.HasSurrogate := by
  induction warnings with
  | nil => simp [Value.itemTexts]
  | cons w warnings ih =>
      rw [List.map_cons, Value.itemTexts]
      simp [RowWarning.toValue, Value.texts, Value.entryTexts, or_and_right, exists_or, or_assoc,
        ih]

/-- A report has no bytes exactly if it tells of a text with a surrogate. -/
theorem utf8?_toJson_eq_none_iff (r : Report) (now : Moment) :
    (r.toJson now).utf8? = none ↔ r.HasSurrogate := by
  have hduration : r.durationValue.texts = [] := by
    unfold durationValue
    split <;> rfl
  have hversion : ¬ toolkitVersion.HasSurrogate := Text.not_hasSurrogate_toText _
  have hmoment := now.not_hasSurrogate_precise
  rw [Text.utf8?_eq_none_iff, toJson, Value.hasSurrogate_jsonIndented]
  simp [toValue, Value.texts, Value.entryTexts, hduration, Value.itemTexts_map_text, or_and_right,
    exists_or, exists_hasSurrogate_warnings, HasSurrogate, hversion, hmoment]

/-- A report is saved where a file can be written after the directories above it were made. If it
has a surrogate, the file is left empty. -/
theorem save_eq {files made : Files} {p : Path} {place : Location}
    (hmade : files.makeDirectories p.parent = (made, .ok ()))
    (hplace : made.writePlace p = .ok place) :
    ∃ shown, ∀ (r : Report) now, r.save now files p =
      (made.put place (.file ((r.toJson now).utf8?.getD [])),
        if r.HasSurrogate then .error .unencodable else .ok shown) := by
  simp only [save, hmade, Files.write, hplace, Option.isNone_iff_eq_none, utf8?_toJson_eq_none_iff]
  exact ⟨_, fun _ _ => rfl⟩

/-- Whether a report without surrogates can be saved, and where, does not depend on what it says. -/
theorem save_cases (files : Files) (p : Path) :
    (∃ left failure, ∀ (r : Report) now, r.save now files p = (left, .error failure)) ∨
      ∃ (made : Files) (place : Location) (shown : Text), made.writePlace p = .ok place ∧
        ∀ (r : Report) now, r.save now files p =
          (made.put place (.file ((r.toJson now).utf8?.getD [])),
            if r.HasSurrogate then .error .unencodable else .ok shown) := by
  rcases hmade : files.makeDirectories p.parent with ⟨made, outcome⟩
  cases outcome with
  | error e =>
      simp only [save, hmade]
      exact .inl ⟨_, _, fun _ _ => rfl⟩
  | ok _ =>
      cases hplace : made.writePlace p with
      | error fault =>
          simp only [save, hmade, Files.write, hplace]
          exact .inl ⟨_, _, fun _ _ => rfl⟩
      | ok place =>
          obtain ⟨shown, hsave⟩ := save_eq hmade hplace
          exact .inr ⟨made, place, shown, hplace, hsave⟩

/-- A report is shown to its end if the limit on the lines shown is an integer. -/
theorem display_of_int (r : Report) (n : Int) : (r.display (.int n)).2 = none := by
  unfold display
  split <;> rfl

end Report

namespace CommandLine

variable {files : Files} {home : Location} {q : Request} {settings : Settings}

/-- A log level is found if the settings have values of their declared types. -/
theorem exists_logLevel (q : Request) {shared : SharedSettings} (h : shared.WellTyped) :
    ∃ level, logLevel q shared = .ok level := by
  obtain ⟨level, hlevel⟩ := h.logLevel
  unfold logLevel
  rw [hlevel]
  split
  · exact ⟨_, rfl⟩
  · split <;> exact ⟨_, rfl⟩

/-- A run whose settings name no log file comes to look at its output with the files as they
were and a log without a file. -/
theorem Request.start_eq [Codecs] (hload : Settings.load files home q.config = .ok settings)
    (htyped : settings.WellTyped) (hlog : settings.shared.logFile = .null) (now : Moment) :
    ∃ log : Log, log.file = none ∧ q.start files home now =
      Run.begin { request := q, settings, session := { files, log, now } } := by
  obtain ⟨level, hlevel⟩ := exists_logLevel q htyped.shared
  refine ⟨{ tool := program, threshold := threshold level }, rfl, ?_⟩
  simp only [Request.start, hload, hlevel, openLog, hlog]

namespace Run

variable {r : Run} {report : Report} {elapsed : Nat}

/-- A run with its banner, unless it is quiet. -/
def opened (r : Run) : Run :=
  if r.request.quiet then r else r.put [.banner program toolkitVersion]

/-- A run shows its banner and looks at its output. -/
theorem begin_eq [Codecs] (r : Run) : r.begin =
    match r.opened.session.files.isDirectory (Path.ofText r.opened.request.output),
      r.opened.session.files.pathExists (Path.ofText r.opened.request.output) with
    | .error e, _ | _, .error e => .ended (r.opened.abort (.file e))
    | .ok true, _ => .ended (r.opened.fail ("Tiny mappings file is a directory: " ++
        (Path.ofText r.opened.request.output).toText))
    | _, .ok true => (r.opened.put [.message .warning ("Tiny mappings file will be overwritten: " ++
        (Path.ofText r.opened.request.output).toText)]).convert
    | _, .ok false => r.opened.convert := rfl

/-- A run has ended with its report: what it ends with, and the report where it was asked
for as JSON. -/
structure Reports (r : Run) (report : Report) (files : Files) (o : Outcome) : Prop where
  status : o.status = 0
  failure : o.failure = none
  files : o.files = files
  shown : r.request.json = true → o.shown = .text (report.toJson r.session.now ++ [.char '\n'])

/-- A run has ended with a failure that no message covers, and has shown no text. -/
structure Fails (failure : Failure) (files : Files) (o : Outcome) : Prop where
  status : o.status = 1
  failure : o.failure = some failure
  files : o.files = files
  shown : ∃ items, o.shown = .items items

/-- A report is shown without a failure if the limit on the lines shown is an integer, and if it
has no surrogate or is not shown as JSON. -/
theorem reports_showReport (hlimit : ∃ n, r.settings.converter.maxWarningsShown = .int n)
    (hprintable : r.request.json = true → ¬ report.HasSurrogate) :
    r.Reports report r.session.files (r.showReport report) := by
  obtain ⟨n, hn⟩ := hlimit
  have hdisplay := report.display_of_int n
  unfold showReport
  cases hjson : r.request.json with
  | true =>
      have hencoded : (report.toJson r.session.now).utf8?.isNone ≠ true := by
        rw [ne_eq, Option.isNone_iff_eq_none, report.utf8?_toJson_eq_none_iff]
        exact hprintable hjson
      rw [if_pos rfl]
      dsimp only
      rw [if_neg hencoded]
      exact ⟨rfl, rfl, rfl, fun _ => rfl⟩
  | false =>
      rw [hn]
      rcases hshown : report.display (.int n) with ⟨items, failure⟩
      rw [hshown] at hdisplay
      obtain rfl : failure = none := hdisplay
      exact ⟨rfl, rfl, rfl, fun h => by simp [hjson] at h⟩

/-- A report with a surrogate cannot be shown as JSON. -/
theorem fails_showReport (hjson : r.request.json = true) (hsurrogate : report.HasSurrogate) :
    Fails .unencodable r.session.files (r.showReport report) := by
  have hencoded : (report.toJson r.session.now).utf8?.isNone = true :=
    Option.isNone_iff_eq_none.mpr ((report.utf8?_toJson_eq_none_iff _).mpr hsurrogate)
  unfold showReport
  rw [if_pos hjson]
  dsimp only
  rw [if_pos hencoded]
  exact ⟨rfl, rfl, rfl, _, rfl⟩

/-- Without a log file, a run ends by saving and showing the report of its conversion. -/
theorem finish_eq (hlog : r.session.log.file = none) (report : Report) (elapsed : Nat) :
    r.finish report elapsed =
      match r.saveReport (report.timed elapsed) with
      | (r, .ok ()) => r.showReport (report.timed elapsed)
      | (r, .error failure) => r.abort failure := by
  unfold finish
  exact Conversion.complete_of_no_file hlog report elapsed ▸ rfl

section Finish

variable (hlog : r.session.log.file = none)

include hlog

/-- A run whose report cannot be saved fails, and leaves what was made for it. -/
theorem fails_of_unsaved {path : Text} {left : Files} {failure : Failure}
    (hreport : r.request.report = some path)
    (hsave : (report.timed elapsed).save r.session.now r.session.files (Path.ofText path) =
      (left, .error failure)) :
    Fails failure left (r.finish report elapsed) := by
  rw [finish_eq hlog, saveReport, hreport]
  simp only [hsave]
  exact ⟨rfl, rfl, rfl, _, rfl⟩

/-- A run that saves no report fails if it cannot show its report as JSON. -/
theorem fails_of_none (hreport : r.request.report = none) (hjson : r.request.json = true)
    (hsurrogate : report.HasSurrogate) (elapsed : Nat) :
    Fails .unencodable r.session.files (r.finish report elapsed) := by
  rw [finish_eq hlog, saveReport, hreport]
  exact fails_showReport hjson hsurrogate

variable (hlimit : ∃ n, r.settings.converter.maxWarningsShown = .int n)

include hlimit

/-- A run that saves no report ends with the files of its conversion. -/
theorem reports_of_none (hreport : r.request.report = none)
    (hprintable : r.request.json = true → ¬ report.HasSurrogate) (elapsed : Nat) :
    r.Reports (report.timed elapsed) r.session.files (r.finish report elapsed) := by
  rw [finish_eq hlog, saveReport, hreport]
  exact reports_showReport hlimit hprintable

/-- A run that saves its report ends with the files in which it is saved. -/
theorem reports_of_saved {path shown : Text} {saved : Files}
    (hreport : r.request.report = some path) (hprintable : ¬ report.HasSurrogate)
    (hsave : (report.timed elapsed).save r.session.now r.session.files (Path.ofText path) =
      (saved, .ok shown)) :
    r.Reports (report.timed elapsed) saved (r.finish report elapsed) := by
  rw [finish_eq hlog, saveReport, hreport]
  simp only [hsave]
  -- The run that shows the report has other files and one more message, but the same moment.
  obtain ⟨hstatus, hfailure, hfiles, hshown⟩ := reports_showReport
    (r := { r with session := { r.session with files := saved } }.put
      [.message .success ("JSON report saved: " ++ shown)])
    hlimit fun _ => (show ¬ (report.timed elapsed).HasSurrogate from hprintable)
  exact ⟨hstatus, hfailure, hfiles, hshown⟩

/-- A run that finds a place for its report ends with the report in a file there. If the report has
a surrogate, the run fails and the file is empty. -/
theorem finish_placed {path shown : Text} {made : Files} {place : Location}
    (hreport : r.request.report = some path)
    (hsave : ∀ (report : Report) now, report.save now r.session.files (Path.ofText path) =
      (made.put place (.file ((report.toJson now).utf8?.getD [])),
        if report.HasSurrogate then .error .unencodable else .ok shown))
    (report : Report) (elapsed : Nat) :
    (report.HasSurrogate →
        Fails .unencodable (made.put place (.file [])) (r.finish report elapsed)) ∧
      (¬ report.HasSurrogate → ∃ bytes,
        ((report.timed elapsed).toJson r.session.now).utf8? = some bytes ∧
          r.Reports (report.timed elapsed) (made.put place (.file bytes))
            (r.finish report elapsed)) := by
  have htimed : (report.timed elapsed).HasSurrogate ↔ report.HasSurrogate := Iff.rfl
  have hbytes := (report.timed elapsed).utf8?_toJson_eq_none_iff r.session.now
  have hsaved := hsave (report.timed elapsed) r.session.now
  constructor
  · intro hsurrogate
    rw [hbytes.mpr (htimed.mpr hsurrogate), if_pos (htimed.mpr hsurrogate)] at hsaved
    exact fails_of_unsaved hlog hreport hsaved
  · intro hprintable
    obtain ⟨bytes, hjson⟩ := Option.ne_none_iff_exists'.mp
      (hbytes.not.mpr (htimed.not.mpr hprintable))
    rw [hjson, if_neg (htimed.not.mpr hprintable)] at hsaved
    exact ⟨bytes, hjson, reports_of_saved hlog hlimit hreport hprintable hsaved⟩

end Finish

end Run

end CommandLine
end Remapping
