import Mathlib.Algebra.GroupWithZero.Nat
import Remapping.Proofs.Conversion.EndToEnd
import Remapping.Proofs.Conversion.Events
import Remapping.Proofs.Mapping.Duplicates
import Remapping.Proofs.Value.Surrogates

/-!
# The log of a conversion

What the log file of a conversion holds afterwards. `chronicle` says which events a conversion
records, by what it has read and by what it has come to; `logsTo_convert` that a new log file holds
exactly the lines of these events, however the conversion ends, but for those with a surrogate,
which have no bytes and are dropped. Read `LogsTo.tell` first: it says what any events do to a log
file, one after the other. `convert_chronicled` puts together what the log and the outcome have to
do with each other.
-/

namespace Remapping

open Text (IsLine)

namespace Conversion.Event

/-! ## Lines -/

/-- The fields of the record of an event. -/
def fields (e : Event) (log : Log) (now : Moment) : List (Text × Text) :=
  let entries : List (Text × Text) := [("timestamp", now.precise), ("level", e.severity.word),
    ("logger", log.name), ("message", e.message), ("tool_name", log.tool)]
  let context : List (Text × Text) := match e.operation log with
    | some operation => [("operation", operation)]
    | none => []
  entries ++ context

/-- The line of the record of an event: a table of its fields. -/
def line (e : Event) (log : Log) (now : Moment) : Text :=
  Value.json (Value.ofTexts (e.fields log now))

/-- The lines of the records of events, each with a line feed. -/
def text (events : List Event) (log : Log) (now : Moment) : Text :=
  (events.map (·.line log now)).flatMap (· ++ [.char '\n'])

/-- The record of an event is dropped: what it says has a surrogate, or the names of the log and
of the operation that it carries have one. -/
def Dropped (e : Event) (log : Log) : Prop :=
  e.message.HasSurrogate ∨ log.tool.HasSurrogate ∨ ∃ operation ∈ e.operation log,
    operation.HasSurrogate

instance (e : Event) (log : Log) : Decidable (e.Dropped log) :=
  inferInstanceAs (Decidable (_ ∨ _ ∨ _))

/-- The events whose records are written. -/
def kept (events : List Event) (log : Log) : List Event := events.filter (¬ ·.Dropped log)

/-- The bytes of the records of events, one after the other. -/
def bytes (events : List Event) (log : Log) (now : Moment) : Bytes :=
  events.flatMap fun e => LogFile.lineBytes (e.line log now ++ [.char '\n'])

/-- The room that the records of events take. -/
def size (events : List Event) (log : Log) (now : Moment) : Nat :=
  (events.map fun e => LogFile.lineSize (e.line log now ++ [.char '\n'])).sum

/-- A log writes the line of an event when it records the event. -/
theorem log_line (e : Event) (log : Log) (now : Moment) :
    Log.line { log with operation := e.operation log } true now e.severity e.message none =
      e.line log now ++ [.char '\n'] := by
  unfold Log.line line fields
  cases e.operation log <;> rfl

/-- The line of an event is one line, whatever characters the event holds. -/
theorem isLine_line (e : Event) (log : Log) (now : Moment) : IsLine (e.line log now) :=
  Value.isLine_json_ofTexts _

/-- The line of an event has no bytes exactly if its record is dropped. -/
theorem utf8?_line_eq_none_iff (e : Event) (log : Log) (now : Moment) :
    Text.utf8? (e.line log now ++ [.char '\n']) = none ↔ e.Dropped log := by
  rw [Text.utf8?_eq_none_iff, Text.hasSurrogate_append, line, Value.hasSurrogate_json]
  unfold Dropped fields
  have hseverity : ¬ e.severity.word.HasSurrogate := by cases e.severity <;> decide
  have hprecise := now.not_hasSurrogate_precise
  cases e.operation log
  all_goals
    simp [Value.ofTexts, Value.texts, Value.entryTexts, Log.name, hseverity, hprecise,
      CodePoint.toChar?]
    tauto

/-- The bytes of the records of events are those of the lines that are kept. -/
theorem utf8?_text_kept (events : List Event) (log : Log) (now : Moment) :
    (text (kept events log) log now).utf8? = some (bytes events log now) := by
  induction events with
  | nil => rfl
  | cons e events ih =>
      rw [kept] at ih
      by_cases hdropped : e.Dropped log
      · have hnone := (utf8?_line_eq_none_iff e log now).mpr hdropped
        rw [kept, List.filter_cons_of_neg (by simpa using hdropped), ih, bytes, bytes,
          List.flatMap_cons, LogFile.lineBytes, hnone]
        rfl
      · obtain ⟨encoded, hencoded⟩ := Option.ne_none_iff_exists'.mp
          ((utf8?_line_eq_none_iff e log now).not.mpr hdropped)
        rw [kept, List.filter_cons_of_pos (by simpa using hdropped), bytes, List.flatMap_cons,
          LogFile.lineBytes, hencoded, text, List.map_cons, List.flatMap_cons, Text.utf8?,
          Encoding.encodeText?_append, ← Text.utf8?, hencoded]
        exact congrArg (Option.bind _) (funext fun a => congrArg (Option.map _) ih)

theorem bytes_cons (e : Event) (events : List Event) (log : Log) (now : Moment) :
    bytes (e :: events) log now =
      LogFile.lineBytes (e.line log now ++ [.char '\n']) ++ bytes events log now := rfl

theorem size_cons (e : Event) (events : List Event) (log : Log) (now : Moment) :
    size (e :: events) log now =
      LogFile.lineSize (e.line log now ++ [.char '\n']) + size events log now := rfl

/-- The records of events after events are those of the first, and then those of the others. -/
theorem bytes_append (events more : List Event) (log : Log) (now : Moment) :
    bytes (events ++ more) log now = bytes events log now ++ bytes more log now :=
  List.flatMap_append

/-- Records take room one after the other. -/
theorem size_append (events more : List Event) (log : Log) (now : Moment) :
    size (events ++ more) log now = size events log now + size more log now := by
  rw [size, List.map_append, List.sum_append]
  rfl

/-- Records have no more bytes than they take room. -/
theorem length_bytes_le_size (events : List Event) (log : Log) (now : Moment) :
    (bytes events log now).length ≤ size events log now := by
  induction events with
  | nil => exact Nat.le_refl 0
  | cons e events ih =>
      rw [bytes_cons, size_cons, List.length_append]
      exact Nat.add_le_add (Nat.le_max_right _ _) ih

/-- If no record is dropped, the records take the room of their bytes. -/
theorem size_eq_length_bytes {events : List Event} {log : Log} (h : kept events log = events)
    (now : Moment) : size events log now = (bytes events log now).length := by
  have hall := List.filter_eq_self.mp h
  clear h
  induction events with
  | nil => rfl
  | cons e events ih =>
      obtain ⟨he, hevents⟩ := List.forall_mem_cons.mp hall
      obtain ⟨encoded, hencoded⟩ := Option.ne_none_iff_exists'.mp
        ((utf8?_line_eq_none_iff e log now).not.mpr (of_decide_eq_true he))
      rw [size_cons, bytes_cons, List.length_append, ih hevents, LogFile.lineSize_of_utf8 hencoded,
        LogFile.lineBytes, hencoded, Option.getD_some]

/-- Some events take no more room than more events. -/
theorem size_le {events more : List Event} (h : events <+: more) (log : Log) (now : Moment) :
    size events log now ≤ size more log now := by
  obtain ⟨rest, rfl⟩ := h
  rw [size_append]
  omega

end Conversion.Event

open Conversion (Event)

namespace Session

/-- A session logs every record as JSON, to a file that holds some bytes. -/
structure LogsTo (s : Session) (file : LogFile) (bytes : Bytes) : Prop where
  file_eq : s.log.file = some file
  json : file.json = true
  kept : file.replaced = false
  threshold : s.log.threshold ≤ Severity.debug.rank
  holds : s.files.node? file.place = some (.file bytes)

namespace LogsTo

variable {s : Session} {file : LogFile} {bytes : Bytes}

/-- Recording an event puts its line at the end of the log file. -/
theorem note_files (h : s.LogsTo file bytes) (e : Event)
    (hroom : file.HasRoom (bytes.length + LogFile.lineSize (e.line s.log s.now ++ [.char '\n']))) :
    (s.note e).files = s.files.put file.place
      (.file (bytes ++ LogFile.lineBytes (e.line s.log s.now ++ [.char '\n']))) := by
  have hweight : s.log.threshold ≤ e.severity.rank := by
    refine h.threshold.trans ?_
    cases e.severity <;> decide
  have hemit : (s.note e).files = file.append s.files
      (Log.line { s.log with operation := e.operation s.log } file.json s.now e.severity
        e.message none) := by
    unfold Session.note Session.record Log.emit Session.inOperation
    dsimp only
    rw [h.file_eq]
    exact if_pos ⟨hweight, by simp [h.kept]⟩
  rw [hemit, h.json, Event.log_line, LogFile.append_of_room h.holds hroom]

/-- Recording events puts their bytes at the end of the log file, and leaves all other files alone,
as long as the log file stays below its limit. -/
theorem tell (h : s.LogsTo file bytes) (events : List Event)
    (hroom : file.HasRoom (bytes.length + Event.size events s.log s.now)) :
    (s.tell events).LogsTo file (bytes ++ Event.bytes events s.log s.now) ∧
      s.files.AgreeOutside [file.place] (s.tell events).files := by
  induction events generalizing s bytes with
  | nil => exact ⟨by simpa [Event.bytes] using h, .refl _ _⟩
  | cons e events ih =>
      rw [Event.size_cons] at hroom
      rw [Event.bytes_cons, ← List.append_assoc]
      have hfirst := h.note_files e (hroom.of_le (by omega))
      have hnode : s.files.node? file.place ≠ some .directory := by simp [h.holds]
      have hnoted : (s.note e).LogsTo file
          (bytes ++ LogFile.lineBytes (e.line s.log s.now ++ [.char '\n'])) := by
        refine ⟨h.file_eq, h.json, h.kept, h.threshold, ?_⟩
        rw [hfirst, (Files.written_put hnode _).2, if_pos rfl]
      have hlength : (LogFile.lineBytes (e.line s.log s.now ++ [.char '\n'])).length ≤
          LogFile.lineSize (e.line s.log s.now ++ [.char '\n']) := Nat.le_max_right _ _
      have hrest : file.HasRoom
          ((bytes ++ LogFile.lineBytes (e.line s.log s.now ++ [.char '\n'])).length +
            Event.size events (s.note e).log (s.note e).now) := by
        refine hroom.of_le ?_
        rw [Session.log_note, Session.now_note, List.length_append]
        omega
      obtain ⟨htold, hagree⟩ := ih hnoted hrest
      refine ⟨htold, .trans ?_ hagree⟩
      rw [hfirst]
      exact .put (List.mem_singleton_self _) _ _

/-- Recording events changes no path, and nothing that is read but the log file. -/
theorem tell_kept (h : s.LogsTo file bytes) {events : List Event}
    (hroom : file.HasRoom (bytes.length + Event.size events s.log s.now)) {p : Path}
    (hp : s.files.locate p ≠ .ok file.place) :
    (s.tell events).files.locate p = s.files.locate p ∧
      (s.tell events).files.read p = s.files.read p := by
  obtain ⟨htold, hagree⟩ := h.tell _ hroom
  have hlocate := (hagree.sameShape_of_file h.holds htold.holds).locate_eq (s.files.apart_nil p)
  refine ⟨hlocate, hagree.read_eq_of_locate hlocate fun place hplace => ?_⟩
  rwa [List.mem_singleton.mp hplace]

end LogsTo
end Session

namespace Conversion

open Session (LogsTo)

section

variable [Codecs] {settings : ConverterSettings} {input output : Text} {elapsed : Nat}
  {s s' : Session} {file : LogFile} {bytes : Bytes}

/-! ## Writing -/

omit [Codecs] in
/-- A log whose file stands elsewhere is not replaced. -/
theorem noteReplaced_of_elsewhere (hfile : s.log.file = some file) {p : Path}
    (hp : s.files.locate p ≠ .ok file.place) : noteReplaced p s = s := by
  unfold noteReplaced
  rw [hfile]
  cases hlocate : s.files.locate p with
  | error fault => rfl
  | ok place =>
      have hplace : file.place ≠ place := by
        rintro rfl
        exact hp hlocate
      exact if_neg hplace

/-- Writing an output elsewhere tells its event, and leaves the log file alone. -/
theorem write_tells (h : s.LogsTo file bytes)
    (hroom : file.HasRoom (bytes.length + Event.size [.writing output] s.log s.now))
    (houtput : s.files.locate (Path.ofText output) ≠ .ok file.place) {m : MappingSet}
    {outcome : Except Failure Nat} (hwrite : write settings m output s = (outcome, s')) :
    s'.log = s.log ∧ s'.now = s.now ∧
      s'.LogsTo file (bytes ++ Event.bytes [.writing output] s.log s.now) := by
  have hwriting : writing output s = (s.tell [.writing output]).inOperation (some "write") :=
    s.record_inOperation (e := .writing output) rfl
  obtain ⟨htold, -⟩ := h.tell _ hroom
  rw [← (h.tell_kept hroom houtput).1] at houtput
  rw [write_eq, hwriting] at hwrite
  cases hout : Output.write ((s.tell [.writing output]).inOperation (some "write")).files
      (Path.ofText output) settings.atomicWrite.isTruthy
      (EncodingSetting.ofValue settings.outputEncoding) m with
  | mk files result =>
      have hfiles : files.node? file.place =
            some (.file (bytes ++ Event.bytes [.writing output] s.log s.now)) ∧
          files.locate (Path.ofText output) ≠ .ok file.place := by
        rcases Output.write_cases hout with rfl | ⟨place, contents, hplace, rfl⟩
        · exact ⟨htold.holds, houtput⟩
        · obtain ⟨hlocate, hnode⟩ := Files.writePlace_eq_ok_iff.mp hplace
          have hother : file.place ≠ place := by
            rintro rfl
            exact houtput hlocate
          have hsame := (Files.written_put hnode contents).sameDirectories hnode
          refine ⟨(Files.node?_put_other _ _ hother).trans htold.holds, ?_⟩
          rw [hsame.locate hlocate]
          exact fun heq => hother (Except.ok.inj heq).symm
      have hdone : s' = (withFiles ((s.tell [.writing output]).inOperation (some "write"))
          files).inOperation s.log.operation := by
        rw [hout] at hwrite
        cases result with
        | error failure => exact (Prod.mk.inj hwrite).2.symm
        | ok count =>
            have helsewhere := noteReplaced_of_elsewhere
              (s := withFiles ((s.tell [.writing output]).inOperation (some "write")) files)
              h.file_eq hfiles.2
            dsimp only at hwrite
            rw [helsewhere, ite_self] at hwrite
            exact (Prod.mk.inj hwrite).2.symm
      subst hdone
      exact ⟨rfl, rfl, h.file_eq, h.json, h.kept, h.threshold, hfiles.1⟩

/-! ## All stages -/

/-- The events from the writing on, by the outcome of the conversion. -/
def endEvents (output : Text) (elapsed : Nat) : Except Failure Report → List Event
  | .error _ => [.writing output]
  | .ok report => .writing output :: closingEvents report elapsed

/-- The events of a conversion up to an ending, which it comes to if it comes to write: those of
one stage after the other, by the files that are read, up to the stage that fails. -/
def eventsUpTo (settings : ConverterSettings) (files : Files) (input : Text)
    (ending : List Event) : List Event :=
  .started input :: match files.read (Path.ofText input) with
    | .error _ => []
    | .ok bytes =>
      loadEvents settings (Path.ofText input) bytes ++
        match readMappings settings bytes with
        | .error _ => []
        | .ok (m, _) =>
          tableEvents m ++ (remapEvents (m.remap (SymbolTable.ofList m.classes)).2 ++
            match (m.remap (SymbolTable.ofList m.classes)).2 with
            | .error _ => []
            | .ok _ => ending)

/-- The events of a conversion, by the files that it reads and by its outcome. -/
def chronicle (settings : ConverterSettings) (files : Files) (input output : Text)
    (elapsed : Nat) (outcome : Except Failure Report) : List Event :=
  eventsUpTo settings files input (endEvents output elapsed outcome)

/-- How a conversion ends when the writing has: it fails as the writing does, or tells the last
events and gives its report. -/
def EndsAfter (input : Text) (elapsed : Nat) (result : Except Failure Nat) (done : Session)
    (outcome : Except Failure Report) (s' : Session) : Prop :=
  match result with
  | .error failure => outcome = .error failure ∧ s' = done
  | .ok _ => ∃ report, outcome = .ok report ∧ report.inputPath = input ∧
      s' = done.tell (closingEvents report elapsed)

/-- A conversion fails before it writes, and then it has told its chronicle, or it comes to write
when it has told all but the end of it; what is read must not depend on what has been told. -/
theorem convert_tells {outcome : Except Failure Report}
    (hread : ∀ events, events <+: chronicle settings s.files input output elapsed outcome →
      (s.tell events).files.read (Path.ofText input) = s.files.read (Path.ofText input))
    (h : convert settings input output elapsed s = (outcome, s')) :
    (s' = s.tell (chronicle settings s.files input output elapsed outcome) ∧
        ∃ failure, outcome = .error failure) ∨
      ∃ m result done, chronicle settings s.files input output elapsed outcome =
          eventsUpTo settings s.files input [] ++ endEvents output elapsed outcome ∧
        write settings m output (s.tell (eventsUpTo settings s.files input [])) = (result, done) ∧
        EndsAfter input elapsed result done outcome s' := by
  have hstarted : s.record .debug (Timing.started (label input)) = s.tell [.started input] :=
    s.record_eq_note (e := .started input) rfl
  rw [convert_eq, stages_eq, hstarted] at h
  unfold chronicle eventsUpTo at *
  cases hbytes : s.files.read (Path.ofText input) with
  | error fault =>
      rw [hbytes] at hread
      obtain ⟨failure, hload⟩ := load_of_read_error settings
        (hread _ (List.prefix_refl _))
      rw [hload] at h
      cases h
      exact .inl ⟨rfl, failure, rfl⟩
  | ok bytes =>
      rw [hbytes] at hread
      have hload : load settings input (s.tell [.started input]) = _ := load_tells
        (hread _ ⟨_, rfl⟩) (hread [.started input, .parsing (Path.ofText input)] ⟨_, rfl⟩)
      rw [hload] at h
      dsimp only
      cases hrows : readMappings settings bytes with
      | error failure =>
          rw [hrows] at h
          cases h
          rw [List.append_nil]
          exact .inl ⟨rfl, failure, rfl⟩
      | ok rows =>
          obtain ⟨m, warnings⟩ := rows
          rw [hrows] at h
          dsimp only at h ⊢
          rw [buildTable_tells, remap_tells] at h
          cases hremap : m.remap (SymbolTable.ofList m.classes) with
          | mk m' result =>
              rw [hremap] at h
              cases result with
              | error fault =>
                  cases h
                  refine .inl ⟨?_, _, rfl⟩
                  simp only [List.append_nil, Session.tell_cons, Session.tell_append,
                    Session.tell_nil]
              | ok r =>
                  dsimp only [Except.mapError] at h ⊢
                  cases hwrite : write settings m' output ((((s.tell [.started input]).tell
                      (loadEvents settings (Path.ofText input) bytes)).tell (tableEvents m)).tell
                        (remapEvents (.ok r))) with
                  | mk result done =>
                      rw [hwrite] at h
                      refine .inr ⟨m', result, done, ?_, ?_, ?_⟩
                      · simp only [List.append_nil, List.cons_append, List.append_assoc]
                      · rw [← hwrite]
                        simp only [List.append_nil, Session.tell_cons, Session.tell_append,
                          Session.tell_nil]
                      · cases result with
                        | error failure =>
                            cases h
                            exact ⟨rfl, rfl⟩
                        | ok count =>
                            dsimp only at h
                            rw [complete_tells] at h
                            cases h
                            exact ⟨_, rfl, rfl, rfl⟩

/-- The end of a conversion tells its events after the writing. -/
theorem logsTo_end {ready done : Session} (h : ready.LogsTo file bytes) {m : MappingSet}
    {result : Except Failure Nat} {outcome : Except Failure Report}
    (houtput : ready.files.locate (Path.ofText output) ≠ .ok file.place)
    (hwrite : write settings m output ready = (result, done))
    (hend : EndsAfter input elapsed result done outcome s')
    (hroom : file.HasRoom
      (bytes.length + Event.size (endEvents output elapsed outcome) ready.log ready.now)) :
    s'.LogsTo file
      (bytes ++ Event.bytes (endEvents output elapsed outcome) ready.log ready.now) := by
  cases result with
  | error failure =>
      obtain ⟨rfl, rfl⟩ := hend
      exact (write_tells h hroom houtput hwrite).2.2
  | ok count =>
      obtain ⟨report, rfl, -, rfl⟩ := hend
      rw [endEvents, ← List.singleton_append, Event.size_append] at hroom
      rw [endEvents, ← List.singleton_append, Event.bytes_append, ← List.append_assoc]
      obtain ⟨hlog, hnow, hwritten⟩ :=
        write_tells h (hroom.of_le (by omega)) houtput hwrite
      have hclosed := hwritten.tell (closingEvents report elapsed)
      have hlength := Event.length_bytes_le_size [.writing output] ready.log ready.now
      rw [hlog, hnow, List.length_append] at hclosed
      exact (hclosed (hroom.of_le (by omega))).1

/-- A conversion leaves a new log file with the bytes of its chronicle and nothing else. -/
theorem logsTo_convert (hlog : s.LogsTo file [])
    (hinput : s.files.locate (Path.ofText input) ≠ .ok file.place)
    (houtput : s.files.locate (Path.ofText output) ≠ .ok file.place)
    {outcome : Except Failure Report} (h : convert settings input output elapsed s = (outcome, s'))
    (hroom : file.HasRoom
      (Event.size (chronicle settings s.files input output elapsed outcome) s.log s.now)) :
    s'.LogsTo file
      (Event.bytes (chronicle settings s.files input output elapsed outcome) s.log s.now) := by
  -- What is told on the way is the beginning of the chronicle, so there is room for it.
  have hbefore {events : List Event}
      (hbegin : events <+: chronicle settings s.files input output elapsed outcome) :
      file.HasRoom (([] : Bytes).length + Event.size events s.log s.now) :=
    hroom.of_le (by simpa using Event.size_le hbegin s.log s.now)
  have hread events (hbegin : events <+: chronicle settings s.files input output elapsed outcome) :
      (s.tell events).files.read (Path.ofText input) = s.files.read (Path.ofText input) :=
    (hlog.tell_kept (hbefore hbegin) hinput).2
  rcases convert_tells hread h with ⟨rfl, -⟩ | ⟨m, result, done, hevents, hwrite, hend⟩
  · have htold := (hlog.tell _ (hbefore (List.prefix_refl _))).1
    rwa [List.nil_append] at htold
  · rw [hevents] at hbefore hroom ⊢
    have hfront := hbefore (List.prefix_append _ _)
    have hlocate := (hlog.tell_kept hfront houtput).1
    have hlast := logsTo_end (hlog.tell _ hfront).1 (hlocate ▸ houtput) hwrite hend
    rw [Session.log_tell, Session.now_tell, List.nil_append, ← Event.bytes_append] at hlast
    refine hlast (hroom.of_le ?_)
    rw [Event.size_append]
    exact Nat.add_le_add_right (Event.length_bytes_le_size _ _ _) _

/-! ## The operation -/

/-- Loading leaves the log in the operation that it was in. -/
theorem operation_load (settings : ConverterSettings) (input : Text) (s : Session) :
    (load settings input s).2.log.operation = s.log.operation := by
  cases hread : s.files.read (Path.ofText input) with
  | error fault =>
      obtain ⟨failure, hload⟩ := load_of_read_error settings hread
      rw [hload]
  | ok bytes =>
      rw [load_eq_ingest hread]
      rfl

/-- A conversion leaves the log in the operation that it was in, however it ends. -/
theorem operation_convert (settings : ConverterSettings) (input output : Text) (elapsed : Nat)
    (s : Session) :
    (convert settings input output elapsed s).2.log.operation = s.log.operation := by
  have hload := operation_load settings input (s.record .debug (Timing.started (label input)))
  rw [convert_eq, stages_eq]
  generalize load settings input (s.record .debug (Timing.started (label input))) = loading at *
  rcases loading with ⟨failure | ⟨m, warnings⟩, loaded⟩
  · exact hload
  have hremap : (remap (SymbolTable.ofList m.classes) m
      (buildTable m loaded).2).2.log.operation = s.log.operation := by
    rw [buildTable_tells, remap_tells, Session.log_tell, Session.log_tell]
    exact hload
  dsimp only
  generalize remap (SymbolTable.ofList m.classes) m (buildTable m loaded).2 = remapping at *
  rcases remapping with ⟨⟨m', failure | r⟩, remapped⟩
  · exact hremap
  have hwrite : (write settings m' output remapped).2.log.operation = s.log.operation := hremap
  dsimp only
  generalize write settings m' output remapped = writing at *
  rcases writing with ⟨failure | count, done⟩
  · exact hwrite
  · exact hwrite

/-! ## What the log says -/

/-- If rows are read, the events are those of all stages up to the remapping, and those of the
ending if it succeeds. -/
theorem eventsUpTo_of_rows {files : Files} {m : MappingSet} {warnings : List RowWarning}
    (hbytes : files.read (Path.ofText input) = .ok bytes)
    (hrows : readMappings settings bytes = .ok (m, warnings)) (ending : List Event) :
    ∃ reached, (reached = [] ∨ reached = ending) ∧
      eventsUpTo settings files input ending = .started input ::
        (loadEvents settings (Path.ofText input) bytes ++ (tableEvents m ++
          (remapEvents (m.remap (SymbolTable.ofList m.classes)).2 ++ reached))) := by
  unfold eventsUpTo
  simp only [hbytes, hrows]
  cases (m.remap (SymbolTable.ofList m.classes)).2 with
  | error fault => exact ⟨[], .inl rfl, rfl⟩
  | ok r => exact ⟨ending, .inr rfl, rfl⟩

/-- The events of loading belong to its operation. -/
theorem stage_of_mem_loadEvents {p : Path} {e : Event} (h : e ∈ loadEvents settings p bytes) :
    e.stage = some "ingest" := by
  unfold loadEvents at h
  rcases List.mem_cons.mp h with rfl | h
  · rfl
  · split at h
    · cases h
    · rcases List.mem_append.mp h with h | h
      · obtain ⟨w, -, rfl⟩ := List.mem_map.mp h
        rfl
      · obtain rfl := List.mem_singleton.mp h
        rfl

omit [Codecs] in
/-- The events of the symbol table are about classes with several rows. -/
theorem of_mem_tableEvents {m : MappingSet} {e : Event} (h : e ∈ tableEvents m) :
    ∃ name, e = .repeated name := by
  obtain ⟨name, -, rfl⟩ := List.mem_map.mp h
  exact ⟨name, rfl⟩

omit [Codecs] in
/-- The events of remapping are about classes without a row. -/
theorem of_mem_remapEvents {outcome : Except DescriptorError Remapper} {e : Event}
    (h : e ∈ remapEvents outcome) : ∃ count, e = .unresolved count := by
  cases outcome with
  | error fault => cases h
  | ok r =>
      rw [remapEvents] at h
      split at h
      · cases h
      · exact ⟨_, List.mem_singleton.mp h⟩

/-- The events of a conversion are those of its stages, one stage after the other. -/
theorem eventsUpTo_cases (settings : ConverterSettings) (files : Files) (input : Text)
    (ending : List Event) :
    ∃ loading table remapping reached, eventsUpTo settings files input ending =
        .started input :: (loading ++ (table ++ (remapping ++ reached))) ∧
      (∀ e ∈ loading, e.stage = some "ingest") ∧ (∀ e ∈ table, ∃ name, e = .repeated name) ∧
      (∀ e ∈ remapping, ∃ count, e = .unresolved count) ∧ (reached = [] ∨ reached = ending) := by
  cases hbytes : files.read (Path.ofText input) with
  | error fault =>
      refine ⟨[], [], [], [], ?_, List.forall_mem_nil _, List.forall_mem_nil _,
        List.forall_mem_nil _, .inl rfl⟩
      rw [eventsUpTo, hbytes]
      rfl
  | ok bytes =>
      cases hrows : readMappings settings bytes with
      | error failure =>
          refine ⟨loadEvents settings (Path.ofText input) bytes, [], [], [], ?_,
            fun _ => stage_of_mem_loadEvents, List.forall_mem_nil _, List.forall_mem_nil _,
            .inl rfl⟩
          rw [eventsUpTo, hbytes]
          simp only [hrows, List.append_nil]
      | ok rows =>
          obtain ⟨reached, hreached, hevents⟩ := eventsUpTo_of_rows hbytes hrows ending
          exact ⟨_, _, _, reached, hevents, fun _ => stage_of_mem_loadEvents,
            fun _ => of_mem_tableEvents, fun _ => of_mem_remapEvents, hreached⟩

/-- An event at the end of a conversion is told in the ending. -/
theorem mem_ending_of_isEnd {files : Files} {ending : List Event} {e : Event}
    (h : e ∈ eventsUpTo settings files input ending) (hend : e.IsEnd) : e ∈ ending := by
  obtain ⟨loading, table, remapping, reached, hevents, hloading, htable, hremapping, hreached⟩ :=
    eventsUpTo_cases settings files input ending
  have hstage : e.stage = none := by
    rcases Event.isEnd_iff.mp hend with ⟨_, _, rfl⟩ | ⟨_, rfl⟩
    · rfl
    · rfl
  rw [hevents] at h
  simp only [List.mem_cons, List.mem_append] at h
  rcases h with rfl | h | h | h | h
  · simp [Event.isEnd_iff] at hend
  · cases hstage.symm.trans (hloading e h)
  · obtain ⟨name, rfl⟩ := htable e h
    simp [Event.isEnd_iff] at hend
  · obtain ⟨count, rfl⟩ := hremapping e h
    simp [Event.isEnd_iff] at hend
  · rcases hreached with rfl | rfl
    · cases h
    · exact h

/-- Events that each belong to the stage that tells them, one stage after the other. -/
def Staged (input : Text) (events : List Event) : Prop :=
  ∃ loading table remapping writing closing,
    events = .started input :: (loading ++ (table ++ (remapping ++ (writing ++ closing)))) ∧
      (∀ e ∈ loading, e.stage = some "ingest") ∧ (∀ e ∈ table, e.stage = none) ∧
      (∀ e ∈ remapping, e.stage = some "remap") ∧ (∀ e ∈ writing, e.stage = some "write") ∧
      ∀ e ∈ closing, e.stage = none

/-- A report is told of at the end of the events and nowhere else, and a failure nowhere. -/
def Concludes (input : Text) (elapsed : Nat) (outcome : Except Failure Report)
    (events : List Event) : Prop :=
  match outcome with
  | .ok report => ∃ before, events = before ++ [.completed input elapsed, .written report] ∧
      ∀ e ∈ before, ¬ e.IsEnd
  | .error _ => ∀ e ∈ events, ¬ e.IsEnd

/-- What events have to do with the conversion that tells them. -/
structure Chronicles (settings : ConverterSettings) (files : Files) (input : Text)
    (elapsed : Nat) (outcome : Except Failure Report) (events : List Event) : Prop where
  /-- Each event belongs to the stage that tells it. -/
  stages : Staged input events
  /-- If rows are read, the warnings are those about the lines that were dropped. -/
  warnings : ∀ bytes m warnings, files.read (Path.ofText input) = .ok bytes →
    readMappings settings bytes = .ok (m, warnings) →
      events.filter (·.severity = .warning) = warnings.map .skipped
  /-- If rows are read, each class with several rows is told of once. -/
  duplicates : ∀ bytes m warnings, files.read (Path.ofText input) = .ok bytes →
    readMappings settings bytes = .ok (m, warnings) →
      ∃ names, ListsRepeated (m.classes.map (·.obfuscated)) names ∧
        events.filter (·.IsRepeated) = names.map .repeated
  /-- A report is told of at the end. -/
  ending : Concludes input elapsed outcome events

/-- The events of a conversion belong to its stages. -/
theorem staged_chronicle (settings : ConverterSettings) (files : Files) (input output : Text)
    (elapsed : Nat) (outcome : Except Failure Report) :
    Staged input (chronicle settings files input output elapsed outcome) := by
  obtain ⟨loading, table, remapping, reached, hevents, hloading, htable, hremapping, hreached⟩ :=
    eventsUpTo_cases settings files input (endEvents output elapsed outcome)
  have hend : ∃ writing closing, reached = writing ++ closing ∧
      (∀ e ∈ writing, e.stage = some "write") ∧ ∀ e ∈ closing, e.stage = none := by
    rcases hreached with rfl | rfl
    · exact ⟨[], [], rfl, List.forall_mem_nil _, List.forall_mem_nil _⟩
    · cases outcome with
      | error failure =>
          exact ⟨[.writing output], [], rfl, by simp [Event.stage], List.forall_mem_nil _⟩
      | ok report =>
          exact ⟨[.writing output], closingEvents report elapsed, rfl, by simp [Event.stage],
            by simp [closingEvents, Event.stage]⟩
  obtain ⟨writing, closing, rfl, hwriting, hclosing⟩ := hend
  refine ⟨loading, table, remapping, writing, closing, hevents, hloading, fun e he => ?_,
    fun e he => ?_, hwriting, hclosing⟩
  · obtain ⟨name, rfl⟩ := htable e he
    rfl
  · obtain ⟨count, rfl⟩ := hremapping e he
    rfl

/-- The warnings of a conversion that reads rows. -/
theorem warnings_chronicle {files : Files} {m : MappingSet} {warnings : List RowWarning}
    (hbytes : files.read (Path.ofText input) = .ok bytes)
    (hrows : readMappings settings bytes = .ok (m, warnings)) (output : Text) (elapsed : Nat)
    (outcome : Except Failure Report) :
    (chronicle settings files input output elapsed outcome).filter (·.severity = .warning) =
      warnings.map .skipped := by
  obtain ⟨reached, hreached, hevents⟩ :=
    eventsUpTo_of_rows hbytes hrows (endEvents output elapsed outcome)
  have hskipped : (warnings.map Event.skipped).filter (·.severity = .warning) =
      warnings.map .skipped := by
    rw [List.filter_eq_self]
    intro e he
    obtain ⟨w, -, rfl⟩ := List.mem_map.mp he
    rfl
  have htable : (tableEvents m).filter (·.severity = .warning) = [] := by
    rw [List.filter_eq_nil_iff]
    intro e he
    obtain ⟨name, rfl⟩ := of_mem_tableEvents he
    simp [Event.severity]
  have hremapping : (remapEvents (m.remap (SymbolTable.ofList m.classes)).2).filter
      (·.severity = .warning) = [] := by
    rw [List.filter_eq_nil_iff]
    intro e he
    obtain ⟨count, rfl⟩ := of_mem_remapEvents he
    simp [Event.severity]
  have hend : reached.filter (·.severity = .warning) = [] := by
    rcases hreached with rfl | rfl
    · rfl
    · cases outcome <;> rfl
  rw [chronicle, hevents, loadEvents, hrows]
  simp only [List.filter_cons, List.filter_append, hskipped, htable, hremapping, hend,
    List.append_nil]
  exact List.append_nil _

/-- The classes with several rows that a conversion that reads rows tells of. -/
theorem duplicates_chronicle {files : Files} {m : MappingSet} {warnings : List RowWarning}
    (hbytes : files.read (Path.ofText input) = .ok bytes)
    (hrows : readMappings settings bytes = .ok (m, warnings)) (output : Text) (elapsed : Nat)
    (outcome : Except Failure Report) :
    (chronicle settings files input output elapsed outcome).filter (·.IsRepeated) =
      (SymbolTable.ofList m.classes).duplicates.map .repeated := by
  obtain ⟨reached, hreached, hevents⟩ :=
    eventsUpTo_of_rows hbytes hrows (endEvents output elapsed outcome)
  have hother {events : List Event} (h : ∀ e ∈ events, ∀ name, e ≠ .repeated name) :
      events.filter (·.IsRepeated) = [] := by
    rw [List.filter_eq_nil_iff]
    intro e he hrepeated
    obtain ⟨name, rfl⟩ := Event.isRepeated_iff.mp (of_decide_eq_true hrepeated)
    exact h _ he name rfl
  have hloading : (loadEvents settings (Path.ofText input) bytes).filter (·.IsRepeated) = [] := by
    refine hother fun e he name => ?_
    rintro rfl
    cases stage_of_mem_loadEvents he
  have htable : (tableEvents m).filter (·.IsRepeated) = tableEvents m := by
    rw [List.filter_eq_self]
    intro e he
    exact decide_eq_true (Event.isRepeated_iff.mpr (of_mem_tableEvents he))
  have hremapping : (remapEvents (m.remap (SymbolTable.ofList m.classes)).2).filter
      (·.IsRepeated) = [] := by
    refine hother fun e he name => ?_
    rintro rfl
    obtain ⟨count, h⟩ := of_mem_remapEvents he
    cases h
  have hend : reached.filter (·.IsRepeated) = [] := by
    refine hother fun e he name => ?_
    rcases hreached with rfl | rfl
    · cases he
    · rintro rfl
      cases outcome <;> simp [endEvents, closingEvents] at he
  have hstarted : [Event.started input].filter (·.IsRepeated) = [] :=
    hother (by simp)
  rw [chronicle, hevents, ← List.singleton_append]
  simp only [List.filter_append, hstarted, hloading, htable, hremapping, hend, List.append_nil,
    List.nil_append]
  rfl

/-- How the events of a conversion end. -/
theorem concludes_chronicle {outcome : Except Failure Report}
    (hread : ∀ events, events <+: chronicle settings s.files input output elapsed outcome →
      (s.tell events).files.read (Path.ofText input) = s.files.read (Path.ofText input))
    (h : convert settings input output elapsed s = (outcome, s')) :
    Concludes input elapsed outcome
      (chronicle settings s.files input output elapsed outcome) := by
  have hwriting : ¬ (Event.writing output).IsEnd := by simp [Event.isEnd_iff]
  cases outcome with
  | error failure =>
      intro e he hend
      obtain rfl := List.mem_singleton.mp (mem_ending_of_isEnd he hend)
      exact hwriting hend
  | ok report =>
      rcases convert_tells hread h with ⟨-, failure, hfailure⟩ | ⟨m, result, done, hevents, -, hend⟩
      · cases hfailure
      · have hinput : report.inputPath = input := by
          cases result with
          | error failure =>
              obtain ⟨hfailure, -⟩ := hend
              cases hfailure
          | ok count =>
              obtain ⟨found, hreport, hinput, -⟩ := hend
              exact Except.ok.inj hreport ▸ hinput
        refine ⟨eventsUpTo settings s.files input [] ++ [.writing output], ?_, fun e he hend => ?_⟩
        · rw [hevents, endEvents, closingEvents, hinput, List.append_assoc]
          rfl
        · rcases List.mem_append.mp he with he | he
          · cases mem_ending_of_isEnd he hend
          · exact hwriting (List.mem_singleton.mp he ▸ hend)

/-- The log of a conversion agrees with its outcome, and the log is afterwards in the operation
that it was in before, however the conversion ends. A session that logs every record as JSON to a
new file, which is neither the input nor the output and stays below its limit, has in it afterwards
one line for each event, ended by a line feed, but for the events with a surrogate, whose records
are dropped; if there are none, the room that the records take is the size of the file. The events
tell which lines were dropped, which classes have several rows and whether there is a report. -/
theorem convert_chronicled {outcome : Except Failure Report}
    (h : convert settings input output elapsed s = (outcome, s')) :
    s'.log.operation = s.log.operation ∧
      ∀ file, s.LogsTo file [] → s.files.locate (Path.ofText input) ≠ .ok file.place →
        s.files.locate (Path.ofText output) ≠ .ok file.place →
        let events := chronicle settings s.files input output elapsed outcome
        let kept := Event.kept events s.log
        let text := Event.text kept s.log s.now
        file.HasRoom (Event.size events s.log s.now) →
          (∃ bytes, text.utf8? = some bytes ∧ s'.files.node? file.place = some (.file bytes) ∧
              (kept = events → Event.size events s.log s.now = bytes.length)) ∧
            Text.lines text = kept.map (·.line s.log s.now) ∧
            text.count (.char '\n') = kept.length ∧
            Chronicles settings s.files input elapsed outcome events := by
  refine ⟨?_, ?_⟩
  · have hoperation := operation_convert settings input output elapsed s
    rwa [h] at hoperation
  · intro file hlog hinput houtput events kept text hroom
    have hread told (hbegin : told <+: events) :
        (s.tell told).files.read (Path.ofText input) = s.files.read (Path.ofText input) := by
      have hbefore := hroom.of_le (Event.size_le hbegin s.log s.now)
      rw [← Nat.zero_add (Event.size told _ _)] at hbefore
      exact (hlog.tell_kept hbefore hinput).2
    have hlines : ∀ line ∈ kept.map (·.line s.log s.now), IsLine line := by
      intro line hline
      obtain ⟨e, -, rfl⟩ := List.mem_map.mp hline
      exact e.isLine_line s.log s.now
    refine ⟨⟨_, Event.utf8?_text_kept events s.log s.now,
      (logsTo_convert hlog hinput houtput h hroom).holds,
      fun hkept => Event.size_eq_length_bytes hkept s.now⟩, Text.lines_joined hlines,
      (Text.count_joined hlines).trans (List.length_map _), ?_⟩
    exact {
      stages := staged_chronicle settings s.files input output elapsed outcome
      warnings := fun bytes m warnings hbytes hrows =>
        warnings_chronicle hbytes hrows output elapsed outcome
      duplicates := fun bytes m warnings hbytes hrows =>
        ⟨_, SymbolTable.listsRepeated_ofList m.classes,
          duplicates_chronicle hbytes hrows output elapsed outcome⟩
      ending := concludes_chronicle hread h }

end

open scoped Codecs

/-- The session of a file with a name, with a log that records everything as JSON in a new file, up
to a limit. -/
def loggedSession (name t : Text) (maxBytes : Int) : Session where
  files := (namedFile name t).put ["log"] (.file [])
  log := {
    tool := "converter"
    threshold := 10
    file := some { place := ["log"], json := true, maxBytes } }

/-- The log of this session is one that has just been opened. -/
example (t : Text) (maxBytes : Int) :
    Log.openFile (sampleSession t).files "log" true maxBytes 5 =
      ((loggedSession "in" t maxBytes).files,
        .ok { place := ["log"], json := true, maxBytes }) := by
  with_unfolding_all rfl

/-- The log of a session has got the lines of some events, but for those that are dropped. -/
def HasLogged (s s' : Session) (events : List Event) : Prop :=
  ∃ bytes, (Event.text (Event.kept events s.log) s.log s.now).utf8? = some bytes ∧
    s'.files.node? ["log"] = some (.file bytes)

/-- What the record of an event says. -/
def Event.record (e : Event) : Severity × Option Text × Text := (e.severity, e.stage, e.message)

/-- A mapping file whose only line after the header is no row and holds a quote and a control
character. -/
def droppedText : Text := "v1\tofficial\tintermediary\tnamed\n" ++ "CLASS\t\x22\x07\n"

/-- What a conversion of this file from a path records. -/
def droppedRecords (input : Text) : List (Severity × Option Text × Text) := [
  (.debug, none, "Started: conversion of " ++ input),
  (.info, some "ingest", "Parsing yarn mappings from " ++ input),
  (.warning, some "ingest", "Line 2 skipped: Column count mismatch, got 2 while expected at " ++
    "least 4 [CLASS\t\x22\x07]"),
  (.info, some "ingest", "Parsed 0 lines of yarn mappings (0 classes, 0 fields, 0 methods)"),
  (.info, some "write", "Writing tiny mappings to out"),
  (.info, none, "Completed: conversion of " ++ input ++ " (0.002 sec)"),
  (.info, none, "Written 0 rows of tiny mappings with 1 warnings")]

/-- A mapping file in which one class has two rows, and with a type that cannot be renamed. -/
def brokenText : Text :=
  "v1\tofficial\tintermediary\tnamed\n" ++ "CLASS\ta\tC_1\tMain\n" ++ "CLASS\ta\tC_2\tLeaf\n" ++
    "FIELD\ta\tLb\tf\tf_1\tself\n"

/-- A conversion that gives a report has written a line for each of its events to its log, but for
those with the name of the input if this name has a surrogate. One that fails when it remaps has
told of the class with two rows, and not of an end. -/
theorem convert_chronicled_logged :
    (∀ input ∈ ["in".toText, strayName], ∃ s outcome s' events,
      s = loggedSession input droppedText 10485760 ∧
        convert sampleSettings input "out" 2400 s = (outcome, s') ∧ outcome.isOk = true ∧
        s'.log.operation = none ∧ HasLogged s s' events ∧
        events.map Event.record = droppedRecords input ∧
        (Event.kept events s.log).map Event.record =
          (droppedRecords input).filter (¬ ·.2.2.HasSurrogate)) ∧
      ∃ s outcome s' events, s = loggedSession "in" brokenText 0 ∧
        convert sampleSettings "in" "out" 2400 s = (outcome, s') ∧ outcome.isOk = false ∧
        s'.log.operation = none ∧ HasLogged s s' events ∧
        events.filter (·.IsRepeated) = [.repeated "a"] ∧ ∀ e ∈ events, ¬ e.IsEnd := by
  have hlogs (name t : Text) (maxBytes : Int) : (loggedSession name t maxBytes).LogsTo
      { place := ["log"], json := true, maxBytes } [] :=
    ⟨rfl, rfl, rfl, Nat.le_refl 10, rfl⟩
  have hinput : ∀ input ∈ ["in".toText, strayName], ∀ t ∈ [droppedText, brokenText],
      (loggedSession input t 0).files.locate (Path.ofText input) ≠ .ok ["log"] := by
    decide +kernel
  have houtput : ∀ input ∈ ["in".toText, strayName], ∀ t ∈ [droppedText, brokenText],
      (loggedSession input t 0).files.locate (Path.ofText "out") ≠ .ok ["log"] := by
    decide +kernel
  constructor
  · have htold : ∀ input ∈ ["in".toText, strayName],
        let s := loggedSession input droppedText 10485760
        let outcome := (convert sampleSettings input "out" 2400 s).1
        let events := chronicle sampleSettings s.files input "out" 2400 outcome
        outcome.isOk = true ∧ Event.size events s.log s.now < 10485760 ∧
          events.map Event.record = droppedRecords input ∧
          (Event.kept events s.log).map Event.record =
            (droppedRecords input).filter (¬ ·.2.2.HasSurrogate) := by
      decide +kernel
    intro input hmem
    obtain ⟨hok, hsize, hrecords, hkept⟩ := htold input hmem
    obtain ⟨hoperation, hlogged⟩ := convert_chronicled (Prod.eta (convert sampleSettings input "out"
      2400 (loggedSession input droppedText 10485760))).symm
    obtain ⟨⟨bytes, hbytes, hnode, -⟩, -⟩ := hlogged _ (hlogs _ _ _)
      (hinput _ hmem droppedText (by simp)) (houtput _ hmem droppedText (by simp))
      fun _ _ => Int.ofNat_lt.mpr hsize
    exact ⟨_, _, _, _, rfl, (Prod.eta _).symm, hok, hoperation, ⟨bytes, hbytes, hnode⟩, hrecords,
      hkept⟩
  · have hclasses : (readMappings sampleSettings (brokenText.map fun c => UInt8.ofNat c.toNat)).map
        (fun rows => rows.1.classes.map (·.obfuscated)) = .ok ["a".toText, "a".toText] := by
      decide +kernel
    have hfails : (convert sampleSettings "in" "out" 2400
        (loggedSession "in" brokenText 0)).1.isOk = false := by
      decide +kernel
    cases hrun : convert sampleSettings "in" "out" 2400 (loggedSession "in" brokenText 0) with
    | mk outcome s' =>
        rw [hrun] at hfails
        obtain ⟨hoperation, hlogged⟩ := convert_chronicled hrun
        obtain ⟨⟨bytes, hbytes, hnode, -⟩, -, -, hchronicles⟩ := hlogged _ (hlogs _ _ _)
          (hinput _ (by simp) brokenText (by simp)) (houtput _ (by simp) brokenText (by simp))
          (fun hlimit => absurd hlimit (by decide))
        cases hread : readMappings sampleSettings (brokenText.map fun c => UInt8.ofNat c.toNat) with
        | error failure =>
            rw [hread] at hclasses
            cases hclasses
        | ok rows =>
            obtain ⟨names, hlisted, hrepeated⟩ := hchronicles.duplicates _ _ _ rfl hread
            rw [hread] at hclasses
            have hnamed : rows.1.classes.map (·.obfuscated) = ["a".toText, "a".toText] :=
              Except.ok.inj hclasses
            rw [hnamed] at hlisted
            have hnames : names = ["a".toText] := hlisted.eq_secondOccurrences.trans (by decide)
            rw [hnames] at hrepeated
            cases outcome with
            | ok report => cases hfails
            | error failure =>
                exact ⟨_, _, s', _, rfl, hrun, rfl, hoperation, ⟨bytes, hbytes, hnode⟩, hrepeated,
                  hchronicles.ending⟩

end Conversion
end Remapping
