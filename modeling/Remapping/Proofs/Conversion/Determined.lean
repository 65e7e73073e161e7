import Remapping.Proofs.Conversion.Destination
import Remapping.Proofs.Conversion.Outcome

/-!
# What determines a conversion

The outcome of a conversion as a function of the bytes that are read and of the shape of the files
that it writes among. The log can be written in between, as long as it is kept apart from the
paths of the conversion. Read `convert_fst` first: `outcome` knows no session.
-/

namespace Remapping.Conversion

variable [Codecs] {settings : ConverterSettings} {input output : Text} {elapsed : Nat}
  {s s' : Session}

/-- The log is kept at places that the conversion does not pass, neither on the way to its input
nor on that to its output or to a temporary file. -/
structure LogApart (s : Session) (input output : Text) : Prop where
  input : s.files.Apart s.log.places (Path.ofText input)
  output : Output.Apart s.log.places s.files (Path.ofText output)

omit [Codecs] in
/-- A log without a file is kept at no place. -/
theorem logApart_of_no_file (hlog : s.log.file = none) : LogApart s input output := by
  have hplaces : s.log.places = [] := by
    rw [Log.places, hlog]
  constructor
  case input => exact hplaces ▸ s.files.apart_nil _
  case output => exact hplaces ▸ Output.apart_nil s.files _

namespace LogApart

omit [Codecs] in
/-- Whatever has been logged, the input reads the same. -/
theorem read_eq (h : LogApart s input output) {t : Session} (hlogs : s.Logs t) :
    t.files.read (Path.ofText input) = s.files.read (Path.ofText input) :=
  hlogs.agree.read_eq_of_apart h.input

omit [Codecs] in
/-- Whatever has been logged, the output can be written, or the same failure keeps it from
that. -/
theorem snd_write_eq (h : LogApart s input output) {t : Session} (hlogs : s.Logs t)
    (atomic : Bool) (setting : EncodingSetting) (m : MappingSet) :
    (Output.write t.files (Path.ofText output) atomic setting m).2 =
      (Output.write s.files (Path.ofText output) atomic setting m).2 :=
  Output.snd_write_eq hlogs.agree.sameShape h.output atomic setting rfl

end LogApart

/-! ## The outcome -/

/-- What becomes of a conversion that has loaded some rows, or has failed to, and writes among
some files. -/
def outcome (settings : ConverterSettings) (input output : Text) (elapsed : Nat) (files : Files)
    (loaded : Except Failure (MappingSet × List RowWarning)) : Except Failure Report := do
  let (m, warnings) ← loaded
  let table := SymbolTable.ofList m.classes
  let remapped := (m.remap table).1
  let r ← (m.remap table).2.mapError fun fault => .conversion (.descriptor fault)
  let _ ← (Output.write files (Path.ofText output) settings.atomicWrite.isTruthy
    (EncodingSetting.ofValue settings.outputEncoding) remapped).2
  return {
    inputPath := input
    outputPath := output
    classCount := remapped.classes.length
    fieldCount := remapped.fields.length
    methodCount := remapped.methods.length
    warnings
    unresolved := r.unresolved
    duplicates := table.duplicates
    duration := some elapsed }

/-- The outcome of a conversion is determined by the bytes of its input and by the files that
were there at the start. -/
theorem convert_fst (h : LogApart s input output) {bytes : Bytes}
    (hread : s.files.read (Path.ofText input) = .ok bytes) :
    (convert settings input output elapsed s).1 =
      outcome settings input output elapsed s.files (readMappings settings bytes) := by
  -- The stages up to the writing only log, so what they read and write is as at the start.
  have hstarted : s.Logs (s.record .debug (Timing.started (label input))) := .record _ _ .refl
  have hload : (load settings input (s.record .debug (Timing.started (label input)))).1 =
      readMappings settings bytes :=
    load_fst fun t hlogs => (h.read_eq (hstarted.trans hlogs)).trans hread
  rw [convert_eq, stages_eq]
  cases hloaded : load settings input (s.record .debug (Timing.started (label input))) with
  | mk loading loaded =>
      rw [hloaded] at hload
      rw [← hload]
      cases loading with
      | error failure => rfl
      | ok rows =>
          obtain ⟨m, warnings⟩ := rows
          have hready : s.Logs (remap (.ofList m.classes) m (buildTable m loaded).2).2 :=
            (hstarted.trans ((onlyLogs_load settings input).logs hloaded)).trans
              ((onlyLogs_buildTable m loaded).trans (onlyLogs_remap (.ofList m.classes) m _))
          have hfst := remap_fst (.ofList m.classes) m (buildTable m loaded).2
          dsimp only
          generalize remap (.ofList m.classes) m (buildTable m loaded).2 = remapping at *
          obtain ⟨result, ready⟩ := remapping
          rw [show result = _ from hfst]
          simp only [outcome, bind, Except.bind]
          cases (m.remap (.ofList m.classes)).2 with
          | error fault => rfl
          | ok r =>
              have hwrite := (write_fst settings (m.remap (.ofList m.classes)).1 output ready).trans
                (h.snd_write_eq (hready.trans (logs_writing output ready)) _ _ _)
              simp only [Except.mapError]
              rw [← hwrite]
              cases write settings (m.remap (.ofList m.classes)).1 output ready with
              | mk writing written => cases writing <;> rfl

end Remapping.Conversion
