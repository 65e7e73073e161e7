import Remapping.Proofs.CommandLine.Verdict

/-!
# Runs that differ in what they show

The switches for JSON, for more and for fewer messages change what a run shows. `plain` leaves them
out of a request, and `Alike` compares two runs, step by step, of requests that are the same without
them. Read `run_presentation` first: such runs leave the same files, but for the times in the file
of the report, and end with the same status, unless the report has a surrogate and is saved in no
file: then the one that is to print it as JSON ends with status 1.
-/

namespace Remapping

/-! ## Documents up to the time -/

/-- A document in which the values of some keys are blank. -/
def Value.blank (keys : List Text) : Value → Value
  | .table entries =>
    .table (entries.map fun (key, value) => (key, if keys.contains key then .null else value))
  | v => v

/-- The keys in the document of a report whose values tell the time. -/
def Report.timeKeys : List Text := ["generated_at", "duration_seconds"]

/-- Tables with the same keys are the same up to blanks if their values are, but for those of the
blank keys. -/
theorem Value.blank_table {keys : List Text} {entries entries' : List (Text × Value)}
    (h : List.Forall₂ (fun x y => y.1 = x.1 ∧ (keys.contains x.1 ∨ y.2 = x.2)) entries entries') :
    (table entries').blank keys = (table entries).blank keys := by
  refine congrArg table ?_
  induction h with
  | nil => rfl
  | @cons x y _ _ hxy _ ih =>
      obtain ⟨key, value⟩ := x
      obtain ⟨key', value'⟩ := y
      obtain ⟨hkey, hvalue⟩ := hxy
      obtain rfl : key' = key := hkey
      rw [List.map_cons, List.map_cons, ih]
      rcases hvalue with hblank | hvalue
      · dsimp only at hblank ⊢
        rw [if_pos hblank, if_pos hblank]
      · obtain rfl : value' = value := hvalue
        rfl

/-- The documents of a report made at two moments, after conversions of two durations, differ in
nothing but these values. -/
theorem Report.blank_toValue_timed (r : Report) (now now' : Moment) (elapsed elapsed' : Nat) :
    ((r.timed elapsed').toValue now').blank timeKeys =
      ((r.timed elapsed).toValue now).blank timeKeys := by
  refine Value.blank_table ?_
  iterate 2 refine .cons ⟨rfl, .inr rfl⟩ ?_
  refine .cons ⟨rfl, .inl rfl⟩ ?_
  iterate 2 refine .cons ⟨rfl, .inr rfl⟩ ?_
  refine .cons ⟨rfl, .inl rfl⟩ ?_
  iterate 5 refine .cons ⟨rfl, .inr rfl⟩ ?_
  exact .nil

/-- Two file systems are the same, but for the times in the report at a path. -/
def Files.SameButReport (p : Path) (f g : Files) : Prop :=
  ∃ (place : Location) (document document' : Value),
    f.locate p = .ok place ∧ f.AgreeOutside [place] g ∧
    (∃ bytes, (document.jsonIndented 0).utf8? = some bytes ∧ f.read p = .ok bytes) ∧
    (∃ bytes, (document'.jsonIndented 0).utf8? = some bytes ∧ g.read p = .ok bytes) ∧
    document'.blank Report.timeKeys = document.blank Report.timeKeys

namespace CommandLine

/-- A request without the switches that change only what is shown. -/
def Request.plain (q : Request) : Request :=
  { q with json := false, verbose := false, quiet := false }

/-! ## Two runs -/

/-- Two runs of the same request, but for the switches that change only what is shown, with the
same settings, on sessions that are alike. -/
structure Run.Alike (r r' : Run) : Prop where
  request : r'.request.plain = r.request.plain
  settings : r'.settings = r.settings
  limit : ∃ n, r.settings.converter.maxWarningsShown = .int n
  session : r.session.Alike r'.session

/-- Two runs that have come equally far: they ended with the same status and the same files, or
they have both converted and are to save the report at the same path. -/
inductive Progress.Alike (path : Option Text) : Progress → Progress → Prop
  | ended {o o' : Outcome} (status : o'.status = o.status) (files : o'.files = o.files) :
      Alike path (.ended o) (.ended o')
  | converted {r r' : Run} {report : Report} (h : r.Alike r') (hpath : r.request.report = path) :
      Alike path (.converted r report) (.converted r' report)

namespace Run.Alike

variable {r r' : Run}

/-- What is put on the console makes no difference. -/
theorem put (h : r.Alike r') (items items' : List Console.Item) :
    (r.put items).Alike (r'.put items') :=
  ⟨h.request, h.settings, h.limit, h.session⟩

/-- Two runs that are alike are so with their banners. -/
theorem opened (h : r.Alike r') : r.opened.Alike r'.opened := by
  unfold Run.opened
  split <;> split <;> exact ⟨h.request, h.settings, h.limit, h.session⟩

/-- Two runs that are alike convert, or their conversion fails. -/
theorem convert [Codecs] (h : r.Alike r') : r.convert.Alike r.request.report r'.convert := by
  have hinput : r'.request.input = r.request.input := congrArg (·.input) h.request
  have houtput : r'.request.output = r.request.output := congrArg (·.output) h.request
  obtain ⟨hresult, hafter⟩ := (Conversion.ignoresLog_stages r.settings.converter r.request.input
    r.request.output).run h.session
  rw [Run.convert, Run.convert, h.settings, hinput, houtput]
  rcases hfirst : Conversion.stages r.settings.converter r.request.input r.request.output
    r.session with ⟨outcome, s⟩
  rcases hother : Conversion.stages r.settings.converter r.request.input r.request.output
    r'.session with ⟨outcome', s'⟩
  rw [hfirst, hother] at hresult hafter
  obtain rfl : outcome' = outcome := hresult
  cases outcome' with
  | ok report => exact .converted ⟨h.request, rfl, h.limit, hafter⟩ rfl
  | error failure =>
      cases failure with
      | conversion e => exact .ended rfl (hafter.record _ _).files
      | _ => exact .ended rfl hafter.files

/-- Two runs that are alike find the same at the output path. -/
theorem begin [Codecs] (h : r.Alike r') : r.begin.Alike r.request.report r'.begin := by
  have hopened := h.opened
  have hreport : r.opened.request.report = r.request.report := by
    unfold Run.opened
    split <;> rfl
  have houtput : r'.opened.request.output = r.opened.request.output :=
    congrArg (·.output) hopened.request
  rw [Run.begin_eq, Run.begin_eq, houtput, hopened.session.files, ← hreport]
  cases r.opened.session.files.isDirectory (Path.ofText r.opened.request.output) with
  | error e => exact .ended rfl hopened.session.files
  | ok directory =>
      cases r.opened.session.files.pathExists (Path.ofText r.opened.request.output) with
      | error e => cases directory <;> exact .ended rfl hopened.session.files
      | ok found =>
          cases directory with
          | true => exact .ended rfl hopened.session.files
          | false =>
              cases found with
              | true => exact (hopened.put _ _).convert
              | false => exact hopened.convert

end Run.Alike

/-- Two requests that differ in what is shown come equally far. -/
theorem Request.start_alike [Codecs] {files : Files} {home : Location} {q q' : Request}
    (hsame : q'.plain = q.plain)
    (hsettings : ∀ settings, Settings.load files home q.config = .ok settings →
      settings.WellTyped ∧ settings.shared.logFile = .null) (now now' : Moment) :
    (q.start files home now).Alike q.report (q'.start files home now') := by
  have hconfig : q'.config = q.config := congrArg (·.config) hsame
  cases hload : Settings.load files home q.config with
  | error failure =>
      rw [Request.start, Request.start, hconfig, hload]
      exact .ended rfl rfl
  | ok settings =>
      obtain ⟨htyped, hlog⟩ := hsettings settings hload
      obtain ⟨log, hnone, hstart⟩ := Request.start_eq hload htyped hlog now
      obtain ⟨log', hnone', hstart'⟩ := Request.start_eq (hconfig ▸ hload) htyped hlog now'
      rw [hstart, hstart']
      have halike : Run.Alike { request := q, settings, session := { files, log, now } }
          { request := q', settings, session := { files, log := log', now := now' } } :=
        ⟨hsame, rfl, htyped.converter.maxWarningsShown, ⟨rfl, hnone, hnone'⟩⟩
      exact halike.begin

/-- Two file systems are the same but for the times, if two reports that are the same but for them
are saved in the same files. -/
theorem sameButReport_put {made : Files} {p : Path} {place : Location} {document document' : Value}
    {bytes bytes' : Bytes} (hplace : made.writePlace p = .ok place)
    (hbytes : (document.jsonIndented 0).utf8? = some bytes)
    (hbytes' : (document'.jsonIndented 0).utf8? = some bytes')
    (hblank : document'.blank Report.timeKeys = document.blank Report.timeKeys) :
    (made.put place (.file bytes)).SameButReport p (made.put place (.file bytes')) := by
  obtain ⟨hlocate, hnode⟩ := Files.writePlace_eq_ok_iff.mp hplace
  have hwritten (contents : Bytes) := Files.written_of_writePlace hplace contents
  refine ⟨place, document, document', ?_, ⟨rfl, fun other hother => ?_⟩,
    ⟨_, hbytes, (hwritten _).read hplace⟩, ⟨_, hbytes', (hwritten _).read hplace⟩, hblank⟩
  · exact ((hwritten _).sameDirectories hnode).locate hlocate
  · have hne : other ≠ place := fun h => hother (List.mem_singleton.mpr h)
    rw [Files.node?_put_other made _ hne, Files.node?_put_other made _ hne]

/-- The files that two runs leave are the same, but for the times in a report, if there is one. -/
def Outcome.SameFiles (report : Option Text) (o o' : Outcome) : Prop :=
  o'.files = o.files ∨ ∃ path ∈ report, o.files.SameButReport (Path.ofText path) o'.files

section Finish

variable {r r' : Run} (h : r.Alike r') (report : Report) (elapsed elapsed' : Nat)

include h

/-- Two runs that are alike and save no report leave the files of their conversion, and end with the
same status if the report has no surrogate. -/
theorem Run.Alike.finish_none (hreport : r.request.report = none) :
    (r'.finish report elapsed').files = (r.finish report elapsed).files ∧
      (¬ report.HasSurrogate →
        (r'.finish report elapsed').status = (r.finish report elapsed).status) := by
  have hreport' : r'.request.report = none := (congrArg (·.report) h.request).trans hreport
  have hlimit' : ∃ n, r'.settings.converter.maxWarningsShown = .int n := h.settings ▸ h.limit
  obtain ⟨hfiles, hends, -⟩ := Run.finish_none h.session.left h.limit hreport report elapsed
  obtain ⟨hfiles', hends', -⟩ := Run.finish_none h.session.right hlimit' hreport' report elapsed'
  refine ⟨by rw [hfiles, hfiles', h.session.files], fun hprintable => ?_⟩
  exact (hends' fun hlost => hprintable hlost.2).status.trans
    (hends fun hlost => hprintable hlost.2).status.symm

/-- Two runs that are alike and save a report leave the same files, but for the times in it, and end
with the same status. -/
theorem Run.Alike.finish_some {path : Text} (hreport : r.request.report = some path) :
    Outcome.SameFiles (some path) (r.finish report elapsed) (r'.finish report elapsed') ∧
      (r'.finish report elapsed').status = (r.finish report elapsed).status := by
  have hreport' : r'.request.report = some path :=
    (congrArg (·.report) h.request).trans hreport
  have hlimit' : ∃ n, r'.settings.converter.maxWarningsShown = .int n := h.settings ▸ h.limit
  rcases Report.save_cases r.session.files (Path.ofText path) with
    ⟨left, failure, hsave⟩ | ⟨made, place, shown, hplace, hsave⟩
  · have hsave' := hsave
    rw [← h.session.files] at hsave'
    have hfails := fails_of_unsaved h.session.left hreport
      (hsave (report.timed elapsed) r.session.now)
    have hfails' := fails_of_unsaved h.session.right hreport'
      (hsave' (report.timed elapsed') r'.session.now)
    exact ⟨.inl (hfails'.files.trans hfails.files.symm), hfails'.status.trans hfails.status.symm⟩
  · obtain ⟨hlost, hkept⟩ := finish_placed h.session.left h.limit hreport hsave report elapsed
    rw [← h.session.files] at hsave
    obtain ⟨hlost', hkept'⟩ :=
      finish_placed h.session.right hlimit' hreport' hsave report elapsed'
    by_cases hsurrogate : report.HasSurrogate
    · -- Neither report has bytes, so both runs leave an empty file.
      have hfails := hlost hsurrogate
      have hfails' := hlost' hsurrogate
      exact ⟨.inl (hfails'.files.trans hfails.files.symm),
        hfails'.status.trans hfails.status.symm⟩
    · obtain ⟨bytes, hbytes, hreports⟩ := hkept hsurrogate
      obtain ⟨bytes', hbytes', hreports'⟩ := hkept' hsurrogate
      refine ⟨.inr ⟨path, rfl, ?_⟩, hreports'.status.trans hreports.status.symm⟩
      rw [hreports.files, hreports'.files]
      exact sameButReport_put hplace hbytes hbytes' (report.blank_toValue_timed _ _ _ _)

/-- Two runs that are alike leave the same files, but for the times in a report, and end with the
same status, unless the report has a surrogate and is not saved. -/
theorem Run.Alike.finish :
    Outcome.SameFiles r.request.report (r.finish report elapsed) (r'.finish report elapsed') ∧
      (¬ (r.request.report = none ∧ report.HasSurrogate) →
        (r'.finish report elapsed').status = (r.finish report elapsed).status) := by
  cases hreport : r.request.report with
  | none =>
      obtain ⟨hfiles, hstatus⟩ := h.finish_none report elapsed elapsed' hreport
      exact ⟨.inl hfiles, fun hkept => hstatus fun hlost => hkept ⟨rfl, hlost⟩⟩
  | some path =>
      obtain ⟨hfiles, hstatus⟩ := h.finish_some report elapsed elapsed' hreport
      exact ⟨hfiles, fun _ => hstatus⟩

end Finish

/-- A run that is to print a report with a surrogate as JSON ends with status 1, and one that does
not write the report down ends with status 0. -/
theorem Run.status_finish_none {r : Run} (hlog : r.session.log.file = none)
    (hlimit : ∃ n, r.settings.converter.maxWarningsShown = .int n)
    (hreport : r.request.report = none) {report : Report} (hsurrogate : report.HasSurrogate)
    (elapsed : Nat) :
    (r.finish report elapsed).status = if r.request.json then 1 else 0 := by
  obtain ⟨-, hreported, hunreported⟩ := Run.finish_none hlog hlimit hreport report elapsed
  cases hjson : r.request.json with
  | true => exact (hunreported (.inr hjson) hsurrogate).status
  | false =>
      refine (hreported fun hlost => ?_).status
      rcases hlost.1 with ⟨path, hpath⟩ | hwanted
      · cases hreport.symm.trans hpath
      · cases hjson.symm.trans hwanted

/-! ## Main statement -/

/-- The conversion of a request gives a report that has a surrogate and is saved in no file. -/
def Request.Unprintable [Codecs] (q : Request) (files : Files) (home : Location) : Prop :=
  q.report = none ∧ ∃ settings report s, Settings.load files home q.config = .ok settings ∧
    s.files = files ∧ s.log.file = none ∧
    (Conversion.convert settings.converter q.input q.output 0 s).1 = .ok report ∧
    report.HasSurrogate

section Status

variable [Codecs] {q q' : Request} {files : Files} {home : Location}

/-- Whether a report can be printed does not depend on what is to be shown. -/
theorem Request.Unprintable.of_plain (h : q.Unprintable files home) (hsame : q'.plain = q.plain) :
    q'.Unprintable files home := by
  have hinput : q'.input = q.input := congrArg (·.input) hsame
  have houtput : q'.output = q.output := congrArg (·.output) hsame
  have hconfig : q'.config = q.config := congrArg (·.config) hsame
  have hreport : q'.report = q.report := congrArg (·.report) hsame
  unfold Unprintable
  rw [hinput, houtput, hconfig, hreport]
  exact h

variable (hsettings : ∀ settings, Settings.load files home q.config = .ok settings →
  settings.WellTyped ∧ settings.shared.logFile = .null)

include hsettings

/-- A request whose report cannot be printed ends with status 1 if it asks for JSON, and with
status 0 if not. -/
theorem Request.Unprintable.status (h : q.Unprintable files home) (now : Moment) (elapsed : Nat) :
    (q.run files home now elapsed).status = if q.json then 1 else 0 := by
  obtain ⟨hreport, settings, report, s, hload, hfiles, hnone, hconvert, hsurrogate⟩ := h
  obtain ⟨htyped, hlog⟩ := hsettings settings hload
  have hstart := Request.start_cases hload htyped hlog now 0 hfiles hnone
  rw [hconvert] at hstart
  obtain ⟨r, unended, hconverted, rfl, rfl, rfl, hlogged, -⟩ := hstart
  rw [Request.run, hconverted]
  exact Run.status_finish_none hlogged htyped.converter.maxWarningsShown hreport
    (show unended.HasSurrogate from hsurrogate) elapsed

/-- A request that comes to a report with a surrogate and does not save it cannot print it. -/
theorem Request.unprintable_of_start (hreport : q.report = none) {now : Moment} {r : Run}
    {report : Report} (hstart : q.start files home now = .converted r report)
    (hsurrogate : report.HasSurrogate) : q.Unprintable files home := by
  cases hload : Settings.load files home q.config with
  | error failure =>
      rw [Request.start, hload] at hstart
      cases hstart
  | ok settings =>
      obtain ⟨htyped, hlog⟩ := hsettings settings hload
      let s : Session := { files, log := { tool := program, threshold := 0 }, now }
      have hcases := Request.start_cases hload htyped hlog now 0 (s := s) rfl rfl
      cases hconvert : (Conversion.convert settings.converter q.input q.output 0 s).1 with
      | error failure =>
          rw [hconvert] at hcases
          obtain ⟨o, hended, -⟩ := hcases
          cases hended.symm.trans hstart
      | ok found =>
          rw [hconvert] at hcases
          obtain ⟨_, unended, hconverted, rfl, -⟩ := hcases
          cases hconverted.symm.trans hstart
          exact ⟨hreport, settings, _, s, hload, rfl, rfl, hconvert, hsurrogate⟩

end Status

/-- The switches for JSON, for more and for fewer messages do not influence what a run does, if the
settings have values of their declared types and name no log file: two requests that differ only in
these switches leave the same files, also at another moment and after a conversion of another
duration; only the times in the file of the report differ. They end with the same status, unless
the conversion gives a report that has a surrogate and is saved in no file: then a request ends with
status 1 if it asks for JSON, and with status 0 if not. -/
theorem run_presentation [Codecs] {q q' : Request} {files : Files} {home : Location}
    (hsame : q'.plain = q.plain)
    (hsettings : ∀ settings, Settings.load files home q.config = .ok settings →
      settings.WellTyped ∧ settings.shared.logFile = .null)
    (now now' : Moment) (elapsed elapsed' : Nat) :
    Outcome.SameFiles q.report (q.run files home now elapsed) (q'.run files home now' elapsed') ∧
      (¬ q.Unprintable files home →
        (q'.run files home now' elapsed').status = (q.run files home now elapsed).status) ∧
      (q.Unprintable files home →
        (q.run files home now elapsed).status = (if q.json then 1 else 0) ∧
          (q'.run files home now' elapsed').status = if q'.json then 1 else 0) := by
  have hsettings' : ∀ settings, Settings.load files home q'.config = .ok settings →
      settings.WellTyped ∧ settings.shared.logFile = .null :=
    (congrArg (·.config) hsame : q'.config = q.config) ▸ hsettings
  have hprinted : Outcome.SameFiles q.report (q.run files home now elapsed)
      (q'.run files home now' elapsed') ∧ (¬ q.Unprintable files home →
        (q'.run files home now' elapsed').status = (q.run files home now elapsed).status) := by
    have halike := Request.start_alike hsame hsettings now now'
    rw [Request.run, Request.run]
    cases hstart : q.start files home now with
    | ended o =>
        rw [hstart] at halike
        generalize q'.start files home now' = started at halike
        cases halike with
        | ended status files => exact ⟨.inl files, fun _ => status⟩
    | converted r report =>
        rw [hstart] at halike
        generalize q'.start files home now' = started at halike
        cases halike with
        | converted h hpath =>
            obtain ⟨hfiles, hstatus⟩ := h.finish report elapsed elapsed'
            refine ⟨hpath ▸ hfiles, fun hprintable => hstatus fun hlost => hprintable ?_⟩
            exact Request.unprintable_of_start hsettings (hpath.symm.trans hlost.1) hstart hlost.2
  exact ⟨hprinted.1, hprinted.2, fun hlost => ⟨hlost.status hsettings now elapsed,
    (hlost.of_plain hsame).status hsettings' now' elapsed'⟩⟩

open Conversion (sampleSession sampleText namedFile namedSession strayName)
open scoped Codecs

/-- A request for a report in a directory that is not there yet. -/
def savedRequest : Request where
  input := "in"
  output := "out"
  report := some "logs/report"

/-- A request for the conversion of a file whose name has a surrogate. -/
def strayRequest : Request where
  input := strayName
  output := "out"

/-- A request with all switches that change only what is shown. -/
def Request.switched (q : Request) : Request :=
  { q with json := true, verbose := true, quiet := true }

/-- A conversion of the sample file with and without the switches: two seconds pass between the
runs, and the second one takes longer. A file whose name has a surrogate is converted by both runs,
but the one that is to print the report ends with status 1. -/
theorem run_presentation_silenced :
    (∃ o o', o = savedRequest.run (sampleSession sampleText).files [] ⟨0⟩ 1000 ∧
        o' = savedRequest.switched.run (sampleSession sampleText).files [] ⟨2000000⟩ 2500 ∧
        Outcome.SameFiles (some "logs/report") o o' ∧ o'.status = o.status) ∧
      ∃ o o', o = strayRequest.run (namedFile strayName warnedText) [] ⟨0⟩ 1000 ∧
        o' = strayRequest.switched.run (namedFile strayName warnedText) [] ⟨0⟩ 1000 ∧
        Outcome.SameFiles none o o' ∧ o.status = 0 ∧ o'.status = 1 := by
  have hsettings {files : Files} (hload : Settings.load files [] none = .ok {})
      (settings : Settings) (h : Settings.load files [] none = .ok settings) :
      settings.WellTyped ∧ settings.shared.logFile = .null := by
    obtain rfl : {} = settings := Except.ok.inj (hload.symm.trans h)
    exact ⟨Settings.wellTyped_default, rfl⟩
  constructor
  · have hload : Settings.load (sampleSession sampleText).files [] none = .ok {} := rfl
    have hsame : savedRequest.switched.plain = savedRequest.plain := rfl
    obtain ⟨hfiles, hstatus, -⟩ :=
      run_presentation hsame (hsettings hload) ⟨0⟩ ⟨2000000⟩ 1000 2500
    exact ⟨_, _, rfl, rfl, hfiles, hstatus fun hlost => nomatch hlost.1⟩
  · have hload := load_sample (List.mem_of_mem_tail List.mem_cons_self :
      strayName ∈ ["in".toText, strayName]) warnedText
    have hsame : strayRequest.switched.plain = strayRequest.plain := rfl
    have hlost : (Conversion.convert {} strayName "out" 0
        (namedSession strayName warnedText)).1.map (fun report => decide report.HasSurrogate) =
          .ok true := by
      decide +kernel
    obtain ⟨hfiles, -, hstatus⟩ := run_presentation hsame (hsettings hload) ⟨0⟩ ⟨0⟩ 1000 1000
    cases hconvert : (Conversion.convert {} strayName "out" 0
      (namedSession strayName warnedText)).1 with
    | error failure => cases hconvert ▸ hlost
    | ok report =>
        rw [hconvert] at hlost
        obtain ⟨hshown, hprinted⟩ := hstatus ⟨rfl, {}, report, namedSession strayName warnedText,
          hload, rfl, rfl, hconvert, of_decide_eq_true (Except.ok.inj hlost)⟩
        exact ⟨_, _, rfl, rfl, hfiles, hshown, hprinted⟩

end CommandLine
end Remapping
