import Remapping.Proofs.Conversion.Outcome

/-!
# Conversions without a log file

Without a log file, nothing that is logged has a part in a conversion: neither the level of the
log, nor the time. `IgnoresLog` says so of a piece of work, run on two sessions with the same
files; the work is put together from records, and so is the proof. Read `stages_ok` and
`stages_error` first: they say what the files are after the stages of a conversion.
-/

namespace Remapping

variable {α β : Type}

/-- A record of a log without a file changes nothing. -/
theorem Session.record_of_no_file {s : Session} (hlog : s.log.file = none) (severity : Severity)
    (message : Text) : s.record severity message = s := by
  rw [Session.record, Log.emit_of_no_target hlog]

/-- A report with the time that a conversion took. -/
def Report.timed (r : Report) (elapsed : Nat) : Report := { r with duration := some elapsed }

/-- Two sessions with the same files and no log file. -/
structure Session.Alike (s t : Session) : Prop where
  files : t.files = s.files
  left : s.log.file = none
  right : t.log.file = none

/-- Two records on sessions that are alike leave them alike. -/
theorem Session.Alike.record {s t : Session} (h : s.Alike t) (severity : Severity)
    (message : Text) : (s.record severity message).Alike (t.record severity message) := by
  rw [Session.record_of_no_file h.left, Session.record_of_no_file h.right]
  exact h

/-- Sessions that are alike are so in any operation. -/
theorem Session.Alike.inOperation {s t : Session} (h : s.Alike t) (first next : Option Text) :
    (s.inOperation first).Alike (t.inOperation next) :=
  ⟨h.files, h.left, h.right⟩

/-- On sessions that are alike, the work has the same result and leaves them alike. -/
def IgnoresLog (work : StateM Session α) : Prop :=
  ∀ s t : Session, s.Alike t → (work t).1 = (work s).1 ∧ (work s).2.Alike (work t).2

namespace IgnoresLog

/-- Making a record ignores the log. -/
theorem record (severity : Severity) (message : Text) :
    IgnoresLog (Remapping.record severity message) :=
  fun _ _ h => ⟨rfl, h.record severity message⟩

/-- Giving a result ignores the log. -/
theorem pure (a : α) : IgnoresLog (Pure.pure a) := fun _ _ h => ⟨rfl, h⟩

/-- Work after work ignores the log if both do. -/
theorem bind {work : StateM Session α} {next : α → StateM Session β} (h : IgnoresLog work)
    (hnext : ∀ a, IgnoresLog (next a)) : IgnoresLog (work >>= next) := by
  intro s t halike
  obtain ⟨hresult, hafter⟩ := h s t halike
  show (next (work t).1 (work t).2).1 = (next (work s).1 (work s).2).1 ∧
    (next (work s).1 (work s).2).2.Alike (next (work t).1 (work t).2).2
  rw [hresult]
  exact hnext (work s).1 _ _ hafter

/-- Work in an operation ignores the log if the work does. -/
theorem within {work : StateM Session α} (h : IgnoresLog work) (operation : Text) :
    IgnoresLog (within operation work) := by
  intro s t halike
  obtain ⟨hresult, hafter⟩ := h _ _ (halike.inOperation (some operation) (some operation))
  exact ⟨hresult, hafter.inOperation _ _⟩

/-- Steps for the entries of a list ignore the log if each of them does. -/
theorem forIn {step : α → β → StateM Session (ForInStep β)} (h : ∀ a b, IgnoresLog (step a b))
    (as : List α) (b : β) : IgnoresLog (ForIn.forIn as b step) :=
  forIn_closed pure bind h as b

end IgnoresLog

/-! ## Stages -/

namespace Stage

/-- On sessions that are alike, the stage has the same outcome and leaves them alike. -/
def IgnoresLog (work : Stage α) : Prop := Remapping.IgnoresLog work.run

namespace IgnoresLog

/-- A stage that ignores the log, run on two sessions that are alike. -/
theorem run {work : Stage α} (h : IgnoresLog work) {s t : Session} (halike : s.Alike t) :
    (work t).1 = (work s).1 ∧ (work s).2.Alike (work t).2 := h s t halike

/-- Giving a result ignores the log. -/
theorem pure (a : α) : IgnoresLog (Pure.pure a) := fun _ _ h => ⟨rfl, h⟩

/-- A failure ignores the log. -/
theorem throw (failure : Failure) : IgnoresLog (throw failure : Stage α) := fun _ _ h => ⟨rfl, h⟩

/-- An outcome ignores the log. -/
theorem outcome (outcome : Except Failure α) : IgnoresLog (liftM outcome) := fun _ _ h => ⟨rfl, h⟩

/-- Work that ignores the log does so as a stage. -/
theorem lift {work : StateM Session α} (h : Remapping.IgnoresLog work) :
    IgnoresLog (liftM work) := by
  intro s t halike
  obtain ⟨hresult, hafter⟩ := h s t halike
  exact ⟨congrArg Except.ok hresult, hafter⟩

/-- A stage after a stage ignores the log if both do. -/
theorem bind {work : Stage α} {next : α → Stage β} (h : IgnoresLog work)
    (hnext : ∀ a, IgnoresLog (next a)) : IgnoresLog (work >>= next) := by
  intro s t halike
  obtain ⟨hresult, hafter⟩ := h.run halike
  show ((work >>= next) t).1 = ((work >>= next) s).1 ∧
    ((work >>= next) s).2.Alike ((work >>= next) t).2
  rw [bind_apply, bind_apply]
  rcases hs : work s with ⟨outcome, s'⟩
  rcases ht : work t with ⟨outcome', t'⟩
  rw [hs, ht] at hresult hafter
  obtain rfl : outcome' = outcome := hresult
  cases outcome' with
  | ok a => exact hnext a _ _ hafter
  | error failure => exact ⟨rfl, hafter⟩

/-- A stage that looks at the files alone ignores the log if what it does then does. -/
theorem bind_get {next : Session → Stage α} (hfiles : ∀ s t, t.files = s.files → next t = next s)
    (hnext : ∀ s, IgnoresLog (next s)) : IgnoresLog (get >>= next) := by
  intro s t halike
  show (next t t).1 = (next s s).1 ∧ (next s s).2.Alike (next t t).2
  rw [hfiles s t halike.files]
  exact hnext s s t halike

/-- Steps for the entries of a list ignore the log if each of them does. -/
theorem forIn {step : α → β → Stage (ForInStep β)} (h : ∀ a b, IgnoresLog (step a b))
    (as : List α) (b : β) : IgnoresLog (ForIn.forIn as b step) :=
  forIn_closed pure bind h as b

end IgnoresLog

end Stage

namespace Conversion

variable [Codecs] {settings : ConverterSettings} {input output : Text} {elapsed : Nat}
  {s t s' : Session}

/-- Reading a mapping file ignores the log. -/
theorem ignoresLog_ingest (settings : ConverterSettings) (p : Path) :
    (ingest settings p).IgnoresLog := by
  refine .bind (.lift (.record _ _)) fun _ => .bind ?_ fun bytes => ?_
  · refine .bind_get (fun s t h => by rw [h]) fun s => ?_
    split
    · exact .pure _
    · exact .throw _
  · split
    · exact .throw _
    · refine .bind (.forIn (fun w _ => ?_) _ _) fun _ =>
        .bind (.lift (.record _ _)) fun _ => .pure _
      exact .bind (.lift (.record _ _)) fun _ => .pure _

/-- Loading a mapping file ignores the log. -/
theorem ignoresLog_load (settings : ConverterSettings) (input : Text) :
    (load settings input).IgnoresLog := by
  refine .bind_get (fun s t h => by rw [h]) fun s => .bind_get (fun s t h => by rw [h]) fun s' => ?_
  split
  · exact .throw _
  · exact .throw _
  · exact .throw _
  · exact .throw _
  · exact IgnoresLog.within (ignoresLog_ingest settings _) "ingest"

omit [Codecs] in
/-- Building the symbol table ignores the log. -/
theorem ignoresLog_buildTable (m : MappingSet) : IgnoresLog (buildTable m) := by
  refine .bind (.forIn (fun name _ => ?_) _ _) fun _ => .pure _
  exact .bind (.record _ _) fun _ => .pure _

omit [Codecs] in
/-- Remapping ignores the log. -/
theorem ignoresLog_remap (table : SymbolTable) (m : MappingSet) : IgnoresLog (remap table m) := by
  refine .within ?_ "remap"
  split
  · exact .pure _
  · split
    · exact .pure _
    · exact .bind (.record _ _) fun _ => .pure _

omit [Codecs] in
/-- Without a log file there is nothing to note when a file takes the place of another. -/
theorem noteReplaced_of_no_file (hlog : s.log.file = none) (p : Path) : noteReplaced p s = s := by
  rw [noteReplaced, hlog]

/-- Writing ignores the log. -/
theorem ignoresLog_write (settings : ConverterSettings) (m : MappingSet) (output : Text) :
    (write settings m output).IgnoresLog := by
  intro s t halike
  have hwriting : (writing output s).Alike (writing output t) :=
    (halike.inOperation _ _).record _ _
  show (write settings m output t).1 = (write settings m output s).1 ∧
    (write settings m output s).2.Alike (write settings m output t).2
  rw [write_eq, write_eq, hwriting.files]
  rcases Output.write (writing output s).files (Path.ofText output)
    settings.atomicWrite.isTruthy (EncodingSetting.ofValue settings.outputEncoding) m
    with ⟨files, outcome⟩
  have hwritten : (withFiles (writing output s) files).Alike (withFiles (writing output t) files) :=
    ⟨rfl, hwriting.left, hwriting.right⟩
  cases outcome with
  | error failure => exact ⟨rfl, hwritten.inOperation _ _⟩
  | ok count =>
      dsimp only
      rw [noteReplaced_of_no_file hwritten.left, noteReplaced_of_no_file hwritten.right, ite_self,
        ite_self]
      exact ⟨rfl, hwritten.inOperation _ _⟩

/-- The stages of a conversion ignore the log. -/
theorem ignoresLog_stages (settings : ConverterSettings) (input output : Text) :
    (stages settings input output).IgnoresLog := by
  refine .bind (.lift (.record _ _)) fun _ => ?_
  refine .bind (ignoresLog_load settings input) fun loaded => ?_
  refine .bind (.lift (ignoresLog_buildTable loaded.1)) fun table => ?_
  refine .bind (.lift (ignoresLog_remap table loaded.1)) fun remapped => ?_
  refine .bind (.outcome remapped.2) fun r => ?_
  exact .bind (ignoresLog_write settings remapped.1 output) fun _ => .pure _

omit [Codecs] in
/-- Telling how long a conversion took changes nothing but the report. -/
theorem complete_of_no_file (hlog : s.log.file = none) (report : Report) (elapsed : Nat) :
    complete report elapsed s = (report.timed elapsed, s) := by
  show (_, (s.record _ _).record _ _) = _
  rw [Session.record_of_no_file hlog, Session.record_of_no_file hlog]
  rfl

/-- A conversion ends as its stages do, and its report tells how long it took. -/
theorem fst_convert (settings : ConverterSettings) (input output : Text) (elapsed : Nat)
    (s : Session) : (convert settings input output elapsed s).1 =
      (stages settings input output s).1.map (·.timed elapsed) := by
  rw [convert_eq]
  rcases stages settings input output s with ⟨outcome, s'⟩
  cases outcome <;> rfl

/-! ## Files -/

/-- After the stages of a conversion there is still no log file. -/
theorem file_stages (hlog : s.log.file = none) {outcome : Except Failure Report}
    (h : stages settings input output s = (outcome, s')) : s'.log.file = none := by
  obtain ⟨-, hafter⟩ := (ignoresLog_stages settings input output).run ⟨rfl, hlog, hlog⟩
  rw [h] at hafter
  exact hafter.left

/-- A text was read, and a file put at the output path: the bytes of the translation of the text. -/
structure Translated (settings : ConverterSettings) (input output : Text) (before after : Files)
    (version t : Text) (place : Location) (bytes : Bytes) : Prop where
  reads : Reads settings before input version t
  conforms : Translation.Conforms version t
  encodes : Output.fileBytes? (EncodingSetting.ofValue settings.outputEncoding)
    (Translation.rows version t) = some bytes
  writes : before.writePlace (Path.ofText output) = .ok place
  files : after = before.put place (.file bytes)

/-- Stages that succeed have translated the text that they read. -/
theorem stages_ok (hlog : s.log.file = none) {report : Report}
    (h : stages settings input output s = (.ok report, s')) :
    ∃ version t place bytes,
      Translated settings input output s.files s'.files version t place bytes := by
  rcases stages_cases h with ⟨_, hfailure, -⟩ | ⟨ready, m, hprepared, hwrite⟩
  · cases hfailure
  rcases hwrite with ⟨_, hfailure, -⟩ | ⟨_, count, -, hwrite⟩
  · cases hfailure
  obtain ⟨hready, reading, version, t, hreading, hreads, hconforms, hrows⟩ := hprepared
  have houtput := (write_ok hwrite).1
  rw [hreading.files_eq hlog] at hreads
  rw [(hready.trans (logs_writing output ready)).files_eq hlog] at houtput
  obtain ⟨-, -, place, bytes, hplace, hbytes, hput⟩ := Output.write_eq_ok_iff.mp houtput
  rw [hrows] at hbytes
  exact ⟨version, t, place, bytes, hreads, hconforms, hbytes, hplace, hput⟩

/-- Stages that fail leave every file as it was, if the output goes through a temporary file. -/
theorem stages_error (hlog : s.log.file = none) (hatomic : settings.atomicWrite.isTruthy = true)
    {failure : Failure} (h : stages settings input output s = (.error failure, s')) :
    s'.files = s.files := by
  rcases stages_cases h with ⟨_, -, hlogs⟩ | ⟨ready, m, hprepared, hwrite⟩
  · exact hlogs.files_eq hlog
  rcases hwrite with ⟨_, -, hwrite⟩ | ⟨_, _, hreport, -⟩
  · have hfailed := write_error hwrite
    rw [(hprepared.1.trans (logs_writing output ready)).files_eq hlog, hatomic] at hfailed
    exact Output.write_error_atomic hfailed
  · cases hreport

end Conversion
end Remapping
