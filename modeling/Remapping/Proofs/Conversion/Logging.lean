import Remapping.Conversion.Stages
import Remapping.Proofs.Files.Frame

/-!
# Work that only logs

Apart from writing its output, a conversion touches the session through its log. `Session.Logs`
says so of two sessions, `OnlyLogs` of a piece of work; the work is put together from records,
and so is the proof. Read `Logs.files_eq` first: without a log file, such work leaves every file
as it was. `load_ok` says what the one stage that reads files has read.
-/

namespace Remapping

/-! ## The places of a log -/

/-- The places that a log file is kept at: its own, and those of the files set aside. -/
def LogFile.places (file : LogFile) : List Location :=
  file.place :: (List.range file.backups).map fun n => file.backupPlace (n + 1)

/-- The places of the file of a log, if there is one. -/
def Log.places (log : Log) : List Location :=
  match log.file with
  | none => []
  | some file => file.places

/-- A log without places has no file. -/
theorem Log.file_eq_none {log : Log} (h : log.places = []) : log.file = none := by
  unfold places at h
  cases hfile : log.file with
  | none => rfl
  | some file =>
      rw [hfile] at h
      cases h

namespace LogFile

/-- The place of a file set aside is one of the places of the log file. -/
theorem backupPlace_mem_places (file : LogFile) {n : Nat} (hn : n < file.backups) :
    file.backupPlace (n + 1) ∈ file.places :=
  List.mem_cons_of_mem _ (List.mem_map.mpr ⟨n, List.mem_range.mpr hn, rfl⟩)

/-- Moving a node between listed places leaves the other places alone. -/
theorem agree_moveNode {places : List Location} {source target : Location}
    (hsource : source ∈ places) (htarget : target ∈ places) (files : Files) :
    files.AgreeOutside places (moveNode files source target) := by
  unfold moveNode
  split
  · exact (Files.AgreeOutside.remove hsource files).trans (.put htarget _ _)
  · exact .refl places files

/-- Setting a log file aside leaves the places alone that are not its own. -/
theorem agree_setAside (file : LogFile) (hbackups : 0 < file.backups) (files : Files) :
    files.AgreeOutside file.places (file.setAside files) := by
  -- The shifts go up to the last of the places, and never beyond it.
  have hshift (files : Files) (n : Nat) (hn : n ∈ (List.range (file.backups - 1)).reverse) :
      files.AgreeOutside file.places
        (moveNode files (file.backupPlace (n + 1)) (file.backupPlace (n + 2))) := by
    have hbelow : n < file.backups - 1 := List.mem_range.mp (List.mem_reverse.mp hn)
    exact agree_moveNode (file.backupPlace_mem_places (by omega))
      (file.backupPlace_mem_places (by omega)) files
  exact (Files.AgreeOutside.foldl hshift files).trans
    (agree_moveNode List.mem_cons_self (file.backupPlace_mem_places hbackups) _)

/-- Appending a line leaves the places alone that are not those of the log file. -/
theorem agree_append (file : LogFile) (files : Files) (line : Text) :
    files.AgreeOutside file.places (file.append files line) := by
  unfold append
  dsimp only
  split
  · next hfull =>
    have hbackups : 0 < file.backups := by
      simp only [Bool.and_eq_true, decide_eq_true_eq] at hfull
      exact hfull.2
    exact (file.agree_setAside hbackups files).trans (.put List.mem_cons_self _ _)
  · exact .put List.mem_cons_self _ _

end LogFile

/-- A record leaves the places alone that are not those of the log. -/
theorem Log.agree_emit (log : Log) (files : Files) (now : Moment) (severity : Severity)
    (message : Text) (extra : Option Value) :
    files.AgreeOutside log.places (log.emit files now severity message extra) := by
  unfold emit places
  cases log.file with
  | none => exact .refl [] files
  | some file =>
      dsimp only
      split
      · exact file.agree_append files _
      · exact .refl _ files

/-! ## Records -/

variable {α β : Type}

/-- A record of a log without a file changes no file. -/
theorem Session.files_record {s : Session} (hlog : s.log.file = none) (severity : Severity)
    (message : Text) : (s.record severity message).files = s.files :=
  Log.emit_of_no_target hlog s.files s.now severity message none

/-- `s.Logs t` says that `t` is `s` after some records, each made in some operation. -/
inductive Session.Logs (s : Session) : Session → Prop
  | refl : s.Logs s
  | record {t : Session} (severity : Severity) (message : Text) :
      s.Logs t → s.Logs (t.record severity message)
  | inOperation {t : Session} (operation : Option Text) :
      s.Logs t → s.Logs (t.inOperation operation)

namespace Session.Logs

variable {s t u : Session}

/-- Records after records are records. -/
theorem trans (h : s.Logs t) (hnext : t.Logs u) : s.Logs u := by
  induction hnext with
  | refl => exact h
  | record severity message _ ih => exact .record severity message ih
  | inOperation operation _ ih => exact .inOperation operation ih

/-- Records go to the same log file. -/
theorem file_eq (h : s.Logs t) : t.log.file = s.log.file := by
  induction h with
  | refl => rfl
  | record severity message _ ih => exact ih
  | inOperation operation _ ih => exact ih

/-- Records of a log without a file change no file. -/
theorem files_eq (h : s.Logs t) (hlog : s.log.file = none) : t.files = s.files := by
  induction h with
  | refl => rfl
  | record severity message hlogs ih =>
      rw [← ih]
      exact files_record (hlogs.file_eq.trans hlog) severity message
  | inOperation operation _ ih => exact ih

/-- Records go to the same places. -/
theorem places_eq (h : s.Logs t) : t.log.places = s.log.places := by
  rw [Log.places, h.file_eq]
  rfl

/-- Records leave the places alone that are not those of the log. -/
theorem agree (h : s.Logs t) : s.files.AgreeOutside s.log.places t.files := by
  induction h with
  | refl => exact .refl _ _
  | @record t severity message hlogs ih =>
      have hrecord := t.log.agree_emit t.files t.now severity message none
      rw [hlogs.places_eq] at hrecord
      exact ih.trans hrecord
  | inOperation operation _ ih => exact ih

end Session.Logs

/-- What holds of giving a result, and of work after work if it holds of both, holds of steps for
the entries of a list if it holds of each of them. -/
theorem forIn_closed {m : Type → Type} [Monad m] {P : {γ : Type} → m γ → Prop}
    (hpure : ∀ {γ : Type} (c : γ), P (pure c))
    (hbind : ∀ {γ δ : Type} {work : m γ} {next : γ → m δ}, P work → (∀ c, P (next c)) →
      P (work >>= next))
    {step : α → β → m (ForInStep β)} (h : ∀ a b, P (step a b)) (as : List α) (b : β) :
    P (ForIn.forIn as b step) := by
  induction as generalizing b with
  | nil => exact hpure b
  | cons a as ih =>
      rw [List.forIn_cons]
      refine hbind (h a b) fun next => ?_
      cases next with
      | done b => exact hpure b
      | yield b => exact ih b

/-- Making a record gives no result. -/
@[simp] theorem record_apply (severity : Severity) (message : Text) (s : Session) :
    record severity message s = ((), s.record severity message) := rfl

/-- Whatever the session and the result, the work has only logged. -/
def OnlyLogs (work : StateM Session α) : Prop := ∀ s : Session, s.Logs (work s).2

namespace OnlyLogs

/-- A run of work that only logs has only logged. -/
theorem logs {work : StateM Session α} (h : OnlyLogs work) {s s' : Session} {a : α}
    (hwork : work s = (a, s')) : s.Logs s' := by
  have hrun := h s
  rw [hwork] at hrun
  exact hrun

/-- Making a record only logs. -/
theorem record (severity : Severity) (message : Text) :
    OnlyLogs (Remapping.record severity message) :=
  fun _ => .record severity message .refl

/-- Giving a result only logs. -/
theorem pure (a : α) : OnlyLogs (Pure.pure a) := fun _ => .refl

/-- Work after work only logs if both do. -/
theorem bind {work : StateM Session α} {next : α → StateM Session β} (h : OnlyLogs work)
    (hnext : ∀ a, OnlyLogs (next a)) : OnlyLogs (work >>= next) :=
  fun s => (h s).trans (hnext (work s).1 (work s).2)

/-- Work in an operation only logs if the work does. -/
theorem within {work : StateM Session α} (h : OnlyLogs work) (operation : Text) :
    OnlyLogs (within operation work) := by
  intro s
  have hopened : s.Logs (s.inOperation (some operation)) := .inOperation _ .refl
  exact .inOperation _ (hopened.trans (h _))

/-- Steps for the entries of a list only log if each of them does. -/
theorem forIn {step : α → β → StateM Session (ForInStep β)} (h : ∀ a b, OnlyLogs (step a b))
    (as : List α) (b : β) : OnlyLogs (ForIn.forIn as b step) :=
  forIn_closed pure bind h as b

end OnlyLogs

/-! ## Stages -/

namespace Stage

/-- A stage after a stage goes on with its result, and ends with its failure. -/
theorem bind_apply (work : Stage α) (next : α → Stage β) (s : Session) :
    (work >>= next) s = match work s with
      | (.ok a, middle) => next a middle
      | (.error failure, middle) => (.error failure, middle) := by
  show ExceptT.bind work next s = _
  cases hwork : work s with
  | mk outcome middle =>
      show (ExceptT.bindCont next (work s).1) (work s).2 = _
      rw [hwork]
      cases outcome <;> rfl

@[simp] theorem pure_apply (a : α) (s : Session) : (pure a : Stage α) s = (.ok a, s) := rfl

@[simp] theorem get_apply (s : Session) : (get : Stage Session) s = (.ok s, s) := rfl

@[simp] theorem set_apply (t s : Session) : (set t : Stage PUnit) s = (.ok ⟨⟩, t) := rfl

@[simp] theorem lift_apply (work : StateM Session α) (s : Session) :
    (liftM work : Stage α) s = (.ok (work s).1, (work s).2) := rfl

@[simp] theorem outcome_apply (outcome : Except Failure α) (s : Session) :
    (liftM outcome : Stage α) s = (outcome, s) := rfl

/-- Two stages after each other give a result only if each does. -/
theorem bind_ok {work : Stage α} {next : α → Stage β} {s s' : Session} {b : β}
    (h : (work >>= next) s = (.ok b, s')) :
    ∃ a middle, work s = (.ok a, middle) ∧ next a middle = (.ok b, s') := by
  rw [bind_apply] at h
  split at h
  · next a middle hwork => exact ⟨a, middle, hwork, h⟩
  · cases h

/-- Whatever the session and the outcome, the stage has only logged. -/
def OnlyLogs (work : Stage α) : Prop := Remapping.OnlyLogs work.run

namespace OnlyLogs

/-- A run of a stage that only logs has only logged. -/
theorem logs {work : Stage α} (h : OnlyLogs work) {s s' : Session} {outcome : Except Failure α}
    (hwork : work s = (outcome, s')) : s.Logs s' := Remapping.OnlyLogs.logs h hwork

/-- Giving a result only logs. -/
theorem pure (a : α) : OnlyLogs (Pure.pure a) := fun _ => .refl

/-- A failure only logs. -/
theorem throw (failure : Failure) : OnlyLogs (throw failure : Stage α) := fun _ => .refl

/-- Looking at the session only logs. -/
theorem get : OnlyLogs get := fun _ => .refl

/-- Work that only logs does so as a stage. -/
theorem lift {work : StateM Session α} (h : Remapping.OnlyLogs work) :
    OnlyLogs (liftM work) := h

/-- A stage after a stage only logs if both do. -/
theorem bind {work : Stage α} {next : α → Stage β} (h : OnlyLogs work)
    (hnext : ∀ a, OnlyLogs (next a)) : OnlyLogs (work >>= next) := by
  intro s
  show s.Logs ((work >>= next) s).2
  have hfirst : s.Logs (work s).2 := h s
  rw [bind_apply]
  split
  · next a middle hwork =>
    rw [hwork] at hfirst
    exact hfirst.trans (hnext a middle)
  · next failure middle hwork =>
    rw [hwork] at hfirst
    exact hfirst

/-- Steps for the entries of a list only log if each of them does. -/
theorem forIn {step : α → β → Stage (ForInStep β)} (h : ∀ a b, OnlyLogs (step a b))
    (as : List α) (b : β) : OnlyLogs (ForIn.forIn as b step) :=
  forIn_closed pure bind h as b

end OnlyLogs

/-- Making a record for each entry of a list makes them in the order of the list. -/
theorem forIn_record (severity : Severity) (message : α → Text) (as : List α) (s : Session) :
    ForIn.forIn as PUnit.unit (fun a _ => do
      liftM (Remapping.record severity (message a))
      Pure.pure (ForInStep.yield PUnit.unit) : α → PUnit → Stage (ForInStep PUnit)) s =
        (.ok PUnit.unit, as.foldl (fun s a => s.record severity (message a)) s) := by
  induction as generalizing s with
  | nil => rfl
  | cons a as ih =>
      rw [List.forIn_cons]
      simp only [bind_apply, lift_apply, record_apply, pure_apply, ih, List.foldl_cons]

end Stage

namespace Conversion

variable [Codecs]

omit [Codecs] in
/-- Reading a file only logs. -/
theorem onlyLogs_readFile (p : Path) : (readFile p).OnlyLogs := by
  refine .bind .get fun s => ?_
  split
  · exact .pure _
  · exact .throw _

/-- Reading a mapping file only logs. -/
theorem onlyLogs_ingest (settings : ConverterSettings) (p : Path) :
    (ingest settings p).OnlyLogs := by
  refine .bind (.lift (.record _ _)) fun _ => .bind (onlyLogs_readFile p) fun bytes => ?_
  split
  · exact .throw _
  · refine .bind (.forIn (fun w _ => ?_) _ _) fun _ => .bind (.lift (.record _ _)) fun _ => .pure _
    exact .bind (.lift (.record _ _)) fun _ => .pure _

/-- Loading a mapping file only logs. -/
theorem onlyLogs_load (settings : ConverterSettings) (input : Text) :
    (load settings input).OnlyLogs := by
  refine .bind .get fun s => .bind .get fun s' => ?_
  split
  · exact .throw _
  · exact .throw _
  · exact .throw _
  · exact .throw _
  · exact OnlyLogs.within (onlyLogs_ingest settings _) "ingest"

omit [Codecs] in
/-- Building the symbol table only logs. -/
theorem onlyLogs_buildTable (m : MappingSet) : OnlyLogs (buildTable m) := by
  refine .bind (.forIn (fun name _ => ?_) _ _) fun _ => .pure _
  exact .bind (.record _ _) fun _ => .pure _

omit [Codecs] in
/-- Remapping only logs. -/
theorem onlyLogs_remap (table : SymbolTable) (m : MappingSet) : OnlyLogs (remap table m) := by
  refine .within ?_ "remap"
  split
  · exact .pure _
  · split
    · exact .pure _
    · exact .bind (.record _ _) fun _ => .pure _

omit [Codecs] in
/-- Telling how long a conversion took only logs. -/
theorem onlyLogs_complete (r : Report) (elapsed : Nat) : OnlyLogs (complete r elapsed) :=
  .bind (.record _ _) fun _ => .bind (.record _ _) fun _ => .pure _

/-! ## What is read -/

omit [Codecs] in
/-- A file that is read holds the bytes that it is read as. -/
theorem readFile_ok {p : Path} {s s' : Session} {bytes : Bytes}
    (h : readFile p s = (.ok bytes, s')) : s.files.read p = .ok bytes := by
  obtain ⟨_, _, hseen, h⟩ := Stage.bind_ok h
  cases hseen
  cases hread : s.files.read p with
  | error fault =>
      rw [hread] at h
      cases h
  | ok found =>
      rw [hread] at h
      cases h
      rfl

/-- A mapping file that is read holds bytes that the settings can make rows of. -/
theorem ingest_ok {settings : ConverterSettings} {p : Path} {s s' : Session}
    {loaded : MappingSet × List RowWarning} (h : ingest settings p s = (.ok loaded, s')) :
    ∃ reading bytes, s.Logs reading ∧ reading.files.read p = .ok bytes ∧
      readMappings settings bytes = .ok loaded := by
  obtain ⟨_, reading, hrecord, h⟩ := Stage.bind_ok h
  obtain ⟨bytes, _, hbytes, h⟩ := Stage.bind_ok h
  refine ⟨reading, bytes, ?_, readFile_ok hbytes, ?_⟩
  · cases hrecord
    exact .record _ _ .refl
  · cases hmappings : readMappings settings bytes with
    | error failure =>
        rw [hmappings] at h
        cases h
    | ok found =>
        rw [hmappings] at h
        obtain ⟨_, _, -, h⟩ := Stage.bind_ok h
        obtain ⟨_, _, -, h⟩ := Stage.bind_ok h
        cases h
        rfl

/-- The rows that are loaded are what the settings make of the bytes at the path; nothing but
records was made before the bytes were read. -/
theorem load_ok {settings : ConverterSettings} {input : Text} {s s' : Session}
    {loaded : MappingSet × List RowWarning} (h : load settings input s = (.ok loaded, s')) :
    ∃ reading bytes, s.Logs reading ∧ reading.files.read (Path.ofText input) = .ok bytes ∧
      readMappings settings bytes = .ok loaded := by
  obtain ⟨_, _, hseen, h⟩ := Stage.bind_ok h
  cases hseen
  obtain ⟨_, _, hseen, h⟩ := Stage.bind_ok h
  cases hseen
  have hingest : ∃ after, ingest settings (Path.ofText input) (s.inOperation (some "ingest")) =
      (.ok loaded, after) := by
    cases hexists : s.files.pathExists (Path.ofText input) with
    | error e =>
        rw [hexists] at h
        cases h
    | ok found =>
        cases hdirectory : s.files.isDirectory (Path.ofText input) with
        | error e =>
            rw [hexists, hdirectory] at h
            cases found <;> cases h
        | ok directory =>
            rw [hexists, hdirectory] at h
            cases found with
            | false => cases h
            | true =>
                cases directory with
                | true => cases h
                | false =>
                    obtain ⟨houtcome, -⟩ := Prod.mk.inj h
                    exact ⟨_, Prod.ext houtcome rfl⟩
  obtain ⟨after, hingest⟩ := hingest
  obtain ⟨reading, bytes, hlogs, hread, hmappings⟩ := ingest_ok hingest
  have hopened : s.Logs (s.inOperation (some "ingest")) := .inOperation _ .refl
  exact ⟨reading, bytes, hopened.trans hlogs, hread, hmappings⟩

/-- The file that is ingested is read after a first record. There is a record about each line that
is dropped, and one about the rows, if the bytes can be made rows of. -/
theorem ingest_eq {settings : ConverterSettings} {p : Path} {s : Session} {bytes : Bytes}
    (hread : (s.record .info ("Parsing yarn mappings from " ++ p.toText)).files.read p =
      .ok bytes) :
    ingest settings p s = match readMappings settings bytes with
      | .error failure =>
        (.error failure, s.record .info ("Parsing yarn mappings from " ++ p.toText))
      | .ok (m, warnings) =>
        (.ok (m, warnings), (warnings.foldl (fun s w => s.record .warning (skipped w))
          (s.record .info ("Parsing yarn mappings from " ++ p.toText))).record .info
            (parsed m)) := by
  unfold ingest readFile
  simp only [Stage.bind_apply, Stage.lift_apply, record_apply, Stage.get_apply, hread,
    Stage.pure_apply]
  cases readMappings settings bytes with
  | error failure => rfl
  | ok loaded =>
      simp only [Stage.bind_apply, Stage.forIn_record, Stage.lift_apply, record_apply,
        Stage.pure_apply]

/-- A path that can be read is ingested. -/
theorem load_eq_ingest {settings : ConverterSettings} {input : Text} {s : Session} {bytes : Bytes}
    (hread : s.files.read (Path.ofText input) = .ok bytes) :
    load settings input s = within "ingest" (ingest settings (Path.ofText input)) s := by
  obtain ⟨hexists, hdirectory⟩ := Files.test_of_read hread
  unfold load
  simp only [Stage.bind_apply, Stage.get_apply, hexists, hdirectory]

/-- A path that cannot be read is refused, without a record. -/
theorem load_of_read_error (settings : ConverterSettings) {input : Text} {s : Session}
    {fault : FileFault} (hread : s.files.read (Path.ofText input) = .error fault) :
    ∃ failure, load settings input s = (.error failure, s) := by
  have hload (failure : Failure) :
      (throw failure : Stage (MappingSet × List RowWarning)) s = (.error failure, s) := rfl
  unfold load
  simp only [Stage.bind_apply, Stage.get_apply]
  unfold Files.pathExists Files.isDirectory Files.test
  unfold Files.read at hread
  cases hstat : s.files.stat (Path.ofText input) with
  | error fault' => cases fault' <;> exact ⟨_, hload _⟩
  | ok node =>
      cases node with
      | directory => exact ⟨_, hload _⟩
      | file bytes =>
          rw [hstat] at hread
          cases hread

/-- A file that reads the same whatever is logged is loaded as what its bytes are. -/
theorem load_fst {settings : ConverterSettings} {input : Text} {s : Session} {bytes : Bytes}
    (hread : ∀ t, s.Logs t → t.files.read (Path.ofText input) = .ok bytes) :
    (load settings input s).1 = readMappings settings bytes := by
  have hopened : s.Logs (s.inOperation (some "ingest")) := .inOperation _ .refl
  rw [load_eq_ingest (hread s .refl), within, ingest_eq (hread _ (.record _ _ hopened))]
  cases readMappings settings bytes <;> rfl

/-- Bytes at the path that the settings can make rows of are loaded, if the log has no file. -/
theorem load_of_read {settings : ConverterSettings} {input : Text} {s : Session} {bytes : Bytes}
    {loaded : MappingSet × List RowWarning} (hlog : s.log.file = none)
    (hread : s.files.read (Path.ofText input) = .ok bytes)
    (hmappings : readMappings settings bytes = .ok loaded) :
    ∃ s', load settings input s = (.ok loaded, s') := by
  have hload : (load settings input s).1 = readMappings settings bytes :=
    load_fst fun t hlogs => hlogs.files_eq hlog ▸ hread
  exact ⟨_, Prod.ext (hload.trans hmappings) rfl⟩

end Conversion
end Remapping
