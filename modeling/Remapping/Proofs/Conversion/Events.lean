import Remapping.Proofs.Conversion.Outcome
import Remapping.Proofs.Log.Lines

/-!
# The events of a conversion

What a conversion records, as data: an event has the stage that it belongs to, a weight and a
message. `Session.tell` records events, each in its own stage, and leaves the log in the operation
that it was in. There is one lemma for each stage before the writing and one for the end of a
conversion: what the stage does to the session is to tell some events. Read `load_tells` first.
-/

namespace Remapping

/-- Two beginnings of a text begin with the same characters. -/
theorem Text.take_eq_take {a b t : Text} (ha : a <+: t) (hb : b <+: t) {k : Nat}
    (hk : k ≤ a.length) (hk' : k ≤ b.length) : a.take k = b.take k := by
  obtain ⟨x, rfl⟩ := ha
  obtain ⟨y, hy⟩ := hb
  have htake := congrArg (List.take k) hy
  rw [List.take_append_of_le_length hk, List.take_append_of_le_length hk'] at htake
  exact htake.symm

/-- The digits of a number begin with a digit. -/
theorem Text.exists_ofNat_eq_cons (n : Nat) :
    ∃ d digits, ofNat n = d :: digits ∧ d.isDigit = true := by
  cases hdigits : Nat.toDigits 10 n with
  | nil =>
      have hpos : 0 < (Nat.toDigits 10 n).length := Nat.length_toDigits_pos
      rw [hdigits] at hpos
      cases hpos
  | cons d digits =>
      have hmem : d ∈ Nat.toDigits 10 n := hdigits ▸ List.mem_cons_self
      refine ⟨d, digits.map .char, by rw [ofNat, inBase, hdigits]; rfl, ?_⟩
      exact Nat.isDigit_of_mem_toDigits (by decide) (by decide) hmem

namespace Conversion

/-- Something that a conversion records. -/
inductive Event
  | started (input : Text)
  | parsing (p : Path)
  | skipped (w : RowWarning)
  | parsed (m : MappingSet)
  | repeated (name : Text)
  | unresolved (count : Nat)
  | writing (output : Text)
  | completed (input : Text) (elapsed : Nat)
  | written (report : Report)

namespace Event

/-- The operation that an event belongs to, unless it lies between the operations. -/
def stage : Event → Option Text
  | parsing _ | skipped _ | parsed _ => some "ingest"
  | unresolved _ => some "remap"
  | writing _ => some "write"
  | started _ | repeated _ | completed _ _ | written _ => none

/-- The weight of the record of an event. -/
def severity : Event → Severity
  | started _ | repeated _ | unresolved _ => .debug
  | parsing _ | parsed _ | writing _ | completed _ _ | written _ => .info
  | skipped _ => .warning

/-- The message of the record of an event. -/
def message : Event → Text
  | started input => Timing.started (label input)
  | parsing p => "Parsing yarn mappings from " ++ p.toText
  | skipped w => Conversion.skipped w
  | parsed m => Conversion.parsed m
  | repeated name => "Duplicate class row for " ++ name ++ "; first row wins"
  | unresolved count => Text.ofNat count ++ " referenced classes have no class row"
  | writing output => "Writing tiny mappings to " ++ output
  | completed input elapsed => Timing.completed (label input) elapsed
  | written report => "Written " ++ Text.ofInt report.rowsConverted ++
      " rows of tiny mappings with " ++ Text.ofNat report.warningCount ++ " warnings"

/-- The operation that the record of an event carries in a log: its own, or else the one that the
log is in. -/
def operation (e : Event) (log : Log) : Option Text := e.stage.or log.operation

/-- What the message of an event begins with, whatever the event holds but a number in front. -/
def lead : Event → Text
  | started _ => "Started: "
  | parsing _ => "Parsing yarn mappings from "
  | skipped _ => "Line "
  | parsed _ => "Parsed "
  | repeated _ => "Duplicate class row for "
  | unresolved count => Text.ofNat count
  | writing _ => "Writing tiny mappings to "
  | completed _ _ => "Completed: "
  | written _ => "Written "

/-- The message of an event begins with its lead. -/
theorem lead_prefix_message (e : Event) : e.lead <+: e.message := by
  cases e
  all_goals
    repeat
      first
      | exact List.prefix_append _ _
      | apply List.prefix_append_of_prefix

/-- A message does not begin with a text that its lead does not begin like. -/
theorem not_prefix_message {e : Event} {t : Text} (k : Nat) (hk : k ≤ t.length)
    (hk' : k ≤ e.lead.length) (h : t.take k ≠ e.lead.take k) : ¬ t <+: e.message :=
  fun hbegin => h (Text.take_eq_take hbegin e.lead_prefix_message hk hk')

/-- A message that begins with a number does not begin with anything else. -/
theorem not_prefix_unresolved {c : CodePoint} (hc : c.isDigit = false) (t : Text) (count : Nat) :
    ¬ c :: t <+: (unresolved count).message := by
  obtain ⟨d, digits, hdigits, hd⟩ := Text.exists_ofNat_eq_cons count
  have hlead : (unresolved count).lead = d :: digits := hdigits
  refine not_prefix_message 1 (by simp) (by simp [hlead]) ?_
  rw [hlead]
  rintro ⟨⟩
  cases hc.symm.trans hd

/-- The message of an event is about a class with several rows. -/
def IsRepeated (e : Event) : Prop := ("Duplicate class row for " : Text) <+: e.message

instance (e : Event) : Decidable e.IsRepeated := inferInstanceAs (Decidable (_ <+: _))

/-- The message of an event is one of those at the end of a conversion. -/
def IsEnd (e : Event) : Prop :=
  ("Completed: " : Text) <+: e.message ∨ ("Written " : Text) <+: e.message

/-- Only one kind of event is about a class with several rows. -/
theorem isRepeated_iff {e : Event} : e.IsRepeated ↔ ∃ name, e = .repeated name := by
  cases e with
  | repeated name => exact iff_of_true (lead_prefix_message (.repeated name)) ⟨name, rfl⟩
  | unresolved count => exact iff_of_false (not_prefix_unresolved rfl _ count) (by simp)
  | _ =>
      refine iff_of_false (not_prefix_message 1 (by decide) ?_ ?_) (by simp)
      all_goals
        dsimp only [lead]
        decide

/-- Only two kinds of events are at the end of a conversion. -/
theorem isEnd_iff {e : Event} :
    e.IsEnd ↔ (∃ input elapsed, e = .completed input elapsed) ∨ ∃ report, e = .written report := by
  cases e with
  | completed input elapsed =>
      exact iff_of_true (.inl (lead_prefix_message (.completed input elapsed))) (by simp)
  | written report =>
      exact iff_of_true (.inr (lead_prefix_message (.written report))) (by simp)
  | unresolved count =>
      refine iff_of_false ?_ (by simp)
      rintro (h | h)
      · exact not_prefix_unresolved rfl _ count h
      · exact not_prefix_unresolved rfl _ count h
  | _ =>
      refine iff_of_false ?_ (by simp)
      rintro (h | h)
      all_goals
        refine not_prefix_message 5 (by decide) ?_ ?_ h
        all_goals
          dsimp only [lead]
          decide

end Event
end Conversion

open Conversion (Event)

namespace Session

/-- Records an event in its operation. -/
def note (s : Session) (e : Event) : Session :=
  ((s.inOperation (e.operation s.log)).record e.severity e.message).inOperation s.log.operation

/-- Records events one after the other. -/
def tell (s : Session) (events : List Event) : Session := events.foldl note s

variable (s : Session)

@[simp] theorem tell_nil : s.tell [] = s := rfl

@[simp] theorem tell_cons (e : Event) (events : List Event) :
    s.tell (e :: events) = (s.note e).tell events := rfl

theorem tell_append (events more : List Event) :
    s.tell (events ++ more) = (s.tell events).tell more := List.foldl_append

@[simp] theorem log_note (e : Event) : (s.note e).log = s.log := rfl

@[simp] theorem now_note (e : Event) : (s.note e).now = s.now := rfl

@[simp] theorem log_tell (events : List Event) : (s.tell events).log = s.log := by
  induction events generalizing s with
  | nil => rfl
  | cons e events ih => exact ih (s.note e)

@[simp] theorem now_tell (events : List Event) : (s.tell events).now = s.now := by
  induction events generalizing s with
  | nil => rfl
  | cons e events ih => exact ih (s.note e)

/-- A record between the operations tells an event. -/
theorem record_eq_note {e : Event} (h : e.stage = none) :
    s.record e.severity e.message = s.note e := by
  rw [note, Event.operation, h, Option.none_or]
  rfl

/-- A record within an operation tells an event of it. -/
theorem record_inOperation {e : Event} {operation : Text} (h : e.stage = some operation) :
    (s.inOperation (some operation)).record e.severity e.message =
      (s.note e).inOperation (some operation) := by
  rw [note, Event.operation, h, Option.some_or]
  rfl

/-- Records within an operation tell events of it. -/
theorem foldl_record_inOperation {α : Type} (event : α → Event) {severity : Severity}
    {operation : Text}
    (h : ∀ a, (event a).stage = some operation ∧ (event a).severity = severity) (as : List α) :
    as.foldl (fun s a => s.record severity (event a).message) (s.inOperation (some operation)) =
      (s.tell (as.map event)).inOperation (some operation) := by
  induction as generalizing s with
  | nil => rfl
  | cons a as ih =>
      obtain ⟨hstage, hseverity⟩ := h a
      rw [List.foldl_cons, ← hseverity, s.record_inOperation hstage, hseverity, ih]
      rfl

/-- Work that tells events of an operation tells them if it is done in the operation. -/
theorem within_eq_tell {α : Type} {work : StateM Session α} {operation : Text} {a : α}
    {events : List Event}
    (h : work (s.inOperation (some operation)) =
      (a, (s.tell events).inOperation (some operation))) :
    within operation work s = (a, s.tell events) := by
  rw [within, h, ← s.log_tell events]
  rfl

end Session

namespace Conversion

variable [Codecs] {settings : ConverterSettings} {input output : Text} {elapsed : Nat}
  {s s' : Session}

/-! ## The stages -/

/-- The events of loading the bytes at a path. -/
def loadEvents (settings : ConverterSettings) (p : Path) (bytes : Bytes) : List Event :=
  .parsing p :: match readMappings settings bytes with
    | .error _ => []
    | .ok (m, warnings) => warnings.map .skipped ++ [.parsed m]

/-- The events of building the symbol table of a set. -/
def tableEvents (m : MappingSet) : List Event :=
  (SymbolTable.ofList m.classes).duplicates.map .repeated

/-- The events of remapping, told by what it comes to. -/
def remapEvents : Except DescriptorError Remapper → List Event
  | .error _ => []
  | .ok r => if r.unresolved.isEmpty then [] else [.unresolved r.unresolved.length]

/-- The events of the end of a conversion that comes to a report. -/
def closingEvents (report : Report) (elapsed : Nat) : List Event :=
  [.completed report.inputPath elapsed, .written report]

/-- Ingesting tells its events, if the first of them does not change what is read. -/
theorem ingest_tells {p : Path} {bytes : Bytes}
    (hread : (s.tell [.parsing p]).files.read p = .ok bytes) :
    ingest settings p (s.inOperation (some "ingest")) =
      (readMappings settings bytes,
        (s.tell (loadEvents settings p bytes)).inOperation (some "ingest")) := by
  have hparsing : (s.inOperation (some "ingest")).record .info
      ("Parsing yarn mappings from " ++ p.toText) =
        (s.tell [.parsing p]).inOperation (some "ingest") :=
    s.record_inOperation (e := .parsing p) rfl
  have hfirst : ((s.inOperation (some "ingest")).record .info
      ("Parsing yarn mappings from " ++ p.toText)).files.read p = .ok bytes := by
    rw [hparsing]
    exact hread
  rw [ingest_eq hfirst, hparsing, loadEvents]
  cases readMappings settings bytes with
  | error failure => rfl
  | ok loaded =>
      obtain ⟨m, warnings⟩ := loaded
      have hskipped := (s.tell [.parsing p]).foldl_record_inOperation .skipped
        (fun _ => ⟨rfl, rfl⟩) warnings
      have hparsed := ((s.tell [.parsing p]).tell (warnings.map .skipped)).record_inOperation
        (e := .parsed m) rfl
      have htell : s.tell (.parsing p :: (warnings.map .skipped ++ [.parsed m])) =
          ((s.tell [.parsing p]).tell (warnings.map .skipped)).note (.parsed m) := by
        rw [Session.tell_cons, Session.tell_append]
        rfl
      dsimp only
      rw [htell]
      exact Prod.ext rfl ((congrArg (Session.record · _ _) hskipped).trans hparsed)

/-- Loading tells its events, if the first of them does not change what is read. -/
theorem load_tells {bytes : Bytes} (hread : s.files.read (Path.ofText input) = .ok bytes)
    (hkept : (s.tell [.parsing (Path.ofText input)]).files.read (Path.ofText input) = .ok bytes) :
    load settings input s =
      (readMappings settings bytes, s.tell (loadEvents settings (Path.ofText input) bytes)) := by
  rw [load_eq_ingest hread]
  exact s.within_eq_tell (ingest_tells hkept)

omit [Codecs] in
/-- Building the symbol table tells its events. -/
theorem buildTable_tells (m : MappingSet) (s : Session) :
    buildTable m s = (SymbolTable.ofList m.classes, s.tell (tableEvents m)) := by
  have hloop (names : List Text) (s : Session) :
      (ForIn.forIn names PUnit.unit (fun name _ => do
        record .debug ("Duplicate class row for " ++ name ++ "; first row wins")
        pure (ForInStep.yield PUnit.unit)) : StateM Session PUnit) s =
          (PUnit.unit, s.tell (names.map .repeated)) := by
    induction names generalizing s with
    | nil => rfl
    | cons name names ih =>
        have hnote := s.record_eq_note (e := .repeated name) rfl
        rw [List.forIn_cons, List.map_cons, Session.tell_cons, ← hnote]
        exact ih _
  exact congrArg (fun result : PUnit × Session => (SymbolTable.ofList m.classes, result.2))
    (hloop (SymbolTable.ofList m.classes).duplicates s)

omit [Codecs] in
/-- Remapping tells its events. -/
theorem remap_tells (table : SymbolTable) (m : MappingSet) (s : Session) :
    remap table m s = (((m.remap table).1,
      (m.remap table).2.mapError fun fault => .conversion (.descriptor fault)),
      s.tell (remapEvents (m.remap table).2)) := by
  refine s.within_eq_tell ?_
  cases m.remap table with
  | mk remapped outcome =>
      cases outcome with
      | error fault => rfl
      | ok r =>
          have hnote := s.record_inOperation (e := .unresolved r.unresolved.length) rfl
          simp only [remapEvents]
          cases r.unresolved.isEmpty with
          | true => rfl
          | false => exact Prod.ext rfl hnote

omit [Codecs] in
/-- The end of a conversion tells its events. -/
theorem complete_tells (report : Report) (elapsed : Nat) (s : Session) :
    complete report elapsed s = ({ report with duration := some elapsed },
      s.tell (closingEvents { report with duration := some elapsed } elapsed)) := rfl

end Conversion
end Remapping
