import Remapping.Proofs.Conversion.Logging
import Remapping.Proofs.Conversion.Translation
import Remapping.Proofs.Conversion.Writing
import Remapping.Proofs.Files.Shape

/-!
# The outcome of a conversion

The stages of a conversion one after the other. Read `convert_cases` first: a conversion fails
before it writes, and then it has only logged, or it has read a text that has a translation and
comes to write it. `convert_succeeds` is the other direction: nothing else can go wrong.
-/

namespace Remapping.Conversion

variable [Codecs] {settings : ConverterSettings} {input output : Text} {elapsed : Nat}
  {s s' : Session}

/-- The settings read a text at the input path and look for a version in it. -/
def Reads (settings : ConverterSettings) (files : Files) (input version t : Text) : Prop :=
  settings.supportedVersion = .text version ∧
    ∃ codec bytes, EncodingSetting.ofValue settings.inputEncoding = .known codec ∧
      files.read (Path.ofText input) = .ok bytes ∧ codec.decode bytes = .ok t

/-- What is read is determined by the files. -/
theorem Reads.unique {files : Files} {version version' t t' : Text}
    (h : Reads settings files input version t) (h' : Reads settings files input version' t') :
    version = version' ∧ t = t' := by
  obtain ⟨hversion, codec, bytes, hencoding, hbytes, hdecode⟩ := h
  obtain ⟨hversion', codec', bytes', hencoding', hbytes', hdecode'⟩ := h'
  cases hversion.symm.trans hversion'
  cases hencoding.symm.trans hencoding'
  cases hbytes.symm.trans hbytes'
  cases hdecode.symm.trans hdecode'
  exact ⟨rfl, rfl⟩

/-- The same is read from files that agree everywhere. -/
theorem Reads.of_agree {f g : Files} {version t : Text} (hagree : f.AgreeOutside [] g)
    (h : Reads settings g input version t) : Reads settings f input version t := by
  obtain ⟨hversion, codec, bytes, hencoding, hbytes, hdecode⟩ := h
  exact ⟨hversion, codec, bytes, hencoding, hagree.read_eq _ ▸ hbytes, hdecode⟩

/-! ## Reading -/

/-- Bytes are read as rows exactly if they are a text in the codec of the settings, and the
text is read with their version. -/
theorem readMappings_eq_ok_iff {bytes : Bytes} {loaded : MappingSet × List RowWarning} :
    readMappings settings bytes = .ok loaded ↔
      ∃ codec version t, EncodingSetting.ofValue settings.inputEncoding = .known codec ∧
        settings.supportedVersion = .text version ∧ codec.decode bytes = .ok t ∧
        Yarn.readText version t = .ok loaded := by
  constructor
  · intro h
    unfold readMappings at h
    split at h
    · cases h
    · cases h
    · next codec version hencoding hversion =>
      split at h
      · cases h
      · next t hdecode =>
        cases hread : Yarn.readText version t with
        | error fault =>
            rw [hread] at h
            cases h
        | ok found =>
            rw [hread] at h
            cases h
            exact ⟨codec, version, t, hencoding, hversion, hdecode, hread⟩
    · cases h
  · intro h
    obtain ⟨codec, version, t, hencoding, hversion, hdecode, hread⟩ := h
    simp only [readMappings, hencoding, hversion, hdecode, hread, Except.mapError]

/-! ## Writing -/

omit [Codecs] in
/-- Noting that a file was replaced changes no file. -/
theorem files_noteReplaced (p : Path) (s : Session) : (noteReplaced p s).files = s.files := by
  unfold noteReplaced
  split
  · split <;> rfl
  · rfl

omit [Codecs] in
/-- Noting that a file was replaced leaves the places of the log as they are. -/
theorem places_noteReplaced (p : Path) (s : Session) :
    (noteReplaced p s).log.places = s.log.places := by
  unfold noteReplaced
  split
  · next file place hfile _ =>
    split
    · rw [Log.places, Log.places, hfile]
      rfl
    · rfl
  · rfl

/-- A session with other files. -/
def withFiles (s : Session) (files : Files) : Session := { s with files }

/-- The session in which the output is written: a record says so before. -/
def writing (output : Text) (s : Session) : Session :=
  (s.inOperation (some "write")).record .info ("Writing tiny mappings to " ++ output)

omit [Codecs] in
/-- Nothing but a record is made before the output is written. -/
theorem logs_writing (output : Text) (s : Session) : s.Logs (writing output s) :=
  .record _ _ (.inOperation _ .refl)

/-- The stage that writes makes a record, writes once, and notes what has been replaced. -/
theorem write_eq (settings : ConverterSettings) (m : MappingSet) (output : Text) (s : Session) :
    write settings m output s =
      match Output.write (writing output s).files (Path.ofText output)
          settings.atomicWrite.isTruthy (EncodingSetting.ofValue settings.outputEncoding) m with
      | (files, .error failure) =>
        (.error failure, (withFiles (writing output s) files).inOperation s.log.operation)
      | (files, .ok count) =>
        (.ok count, (if settings.atomicWrite.isTruthy then
            noteReplaced (Path.ofText output) (withFiles (writing output s) files)
          else withFiles (writing output s) files).inOperation s.log.operation) := by
  rw [write, within, ExceptT.run]
  simp only [Stage.bind_apply, Stage.lift_apply, record_apply, Stage.get_apply, Stage.set_apply]
  rw [← writing]
  cases hwrite : Output.write (writing output s).files (Path.ofText output)
      settings.atomicWrite.isTruthy (EncodingSetting.ofValue settings.outputEncoding) m with
  | mk files outcome =>
      cases outcome with
      | error failure => rfl
      | ok count => cases settings.atomicWrite.isTruthy <;> rfl

/-- The stage that writes gives what writing gives. -/
theorem write_fst (settings : ConverterSettings) (m : MappingSet) (output : Text) (s : Session) :
    (write settings m output s).1 =
      (Output.write (writing output s).files (Path.ofText output) settings.atomicWrite.isTruthy
        (EncodingSetting.ofValue settings.outputEncoding) m).2 := by
  rw [write_eq]
  cases Output.write (writing output s).files (Path.ofText output) settings.atomicWrite.isTruthy
      (EncodingSetting.ofValue settings.outputEncoding) m with
  | mk files outcome => cases outcome <;> rfl

/-- The stage that writes succeeds only if the output is written, and leaves its files. -/
theorem write_ok {m : MappingSet} {count : Nat} (h : write settings m output s = (.ok count, s')) :
    Output.write (writing output s).files (Path.ofText output) settings.atomicWrite.isTruthy
        (EncodingSetting.ofValue settings.outputEncoding) m = (s'.files, .ok count) ∧
      s'.log.places = s.log.places := by
  rw [write_eq] at h
  split at h
  · cases h
  · next files count' hwrite =>
    obtain ⟨hcount, rfl⟩ := Prod.mk.inj h
    obtain rfl := Except.ok.inj hcount
    rw [hwrite]
    split
    · have hfiles := files_noteReplaced (Path.ofText output) (withFiles (writing output s) files)
      exact ⟨congrArg (·, _) hfiles.symm, places_noteReplaced _ _⟩
    · exact ⟨rfl, rfl⟩

/-- The stage that writes fails only if the output cannot be written, and leaves the files of the
attempt. -/
theorem write_error {m : MappingSet} {failure : Failure}
    (h : write settings m output s = (.error failure, s')) :
    Output.write (writing output s).files (Path.ofText output) settings.atomicWrite.isTruthy
      (EncodingSetting.ofValue settings.outputEncoding) m = (s'.files, .error failure) := by
  rw [write_eq] at h
  split at h
  · next files failure' hwrite =>
    obtain ⟨hfailure, rfl⟩ := Prod.mk.inj h
    obtain rfl := Except.error.inj hfailure
    exact hwrite
  · cases h

/-! ## All stages -/

/-- What the stages before the writing have done: they have only logged, and they have made the
translation of a text that was read meanwhile. -/
def Prepared (settings : ConverterSettings) (input : Text) (s ready : Session)
    (m : MappingSet) : Prop :=
  s.Logs ready ∧ ∃ reading version t, s.Logs reading ∧
    Reads settings reading.files input version t ∧ Translation.Conforms version t ∧
    Tiny.rows m = Translation.rows version t

omit [Codecs] in
/-- The stage that remaps gives what remapping gives. -/
theorem remap_fst (table : SymbolTable) (m : MappingSet) (s : Session) :
    (remap table m s).1 = ((m.remap table).1,
      (m.remap table).2.mapError fun fault => .conversion (.descriptor fault)) := by
  simp only [remap, within]
  cases m.remap table with
  | mk remapped outcome =>
      cases outcome with
      | error fault => rfl
      | ok r =>
          simp only
          cases r.unresolved.isEmpty <;> rfl

omit [Codecs] in
/-- The stage that remaps succeeds exactly with the remapped set. -/
theorem remap_fst_eq_ok_iff {table : SymbolTable} {m m' : MappingSet} {r : Remapper} :
    (remap table m s).1 = (m', .ok r) ↔ m.remap table = (m', .ok r) := by
  rw [remap_fst]
  cases m.remap table with
  | mk remapped outcome => cases outcome <;> simp [Except.mapError]

omit [Codecs] in
/-- The symbol table is that of the classes. -/
theorem buildTable_fst (m : MappingSet) (s : Session) :
    (buildTable m s).1 = SymbolTable.ofList m.classes := rfl

/-- The rows of a file that is loaded, remapped with the table of its classes, are prepared. -/
theorem prepared_of_remap {started loaded ready : Session} {m m' : MappingSet}
    {warnings : List RowWarning} {r : Remapper} (hstarted : s.Logs started)
    (hload : load settings input started = (.ok (m, warnings), loaded))
    (hremap : m.remap (SymbolTable.ofList m.classes) = (m', .ok r))
    (hready : s.Logs ready) : Prepared settings input s ready m' := by
  obtain ⟨reading, bytes, hreading, hbytes, hmappings⟩ := load_ok hload
  obtain ⟨codec, version, t, hencoding, hversion, hdecode, hread⟩ :=
    readMappings_eq_ok_iff.mp hmappings
  refine ⟨hready, reading, version, t, hstarted.trans hreading, ?_,
    translation_of_remap hread hremap⟩
  exact ⟨hversion, codec, bytes, hencoding, hbytes, hdecode⟩

/-- The stages one after the other, each with what the one before it gives. -/
theorem stages_eq (settings : ConverterSettings) (input output : Text) (s : Session) :
    stages settings input output s =
      match load settings input (s.record .debug (Timing.started (label input))) with
      | (.error failure, loaded) => (.error failure, loaded)
      | (.ok (m, warnings), loaded) =>
        match remap (SymbolTable.ofList m.classes) m (buildTable m loaded).2 with
        | ((_, .error failure), remapped) => (.error failure, remapped)
        | ((m', .ok r), remapped) =>
          match write settings m' output remapped with
          | (.error failure, done) => (.error failure, done)
          | (.ok _, done) =>
            (.ok {
              inputPath := input
              outputPath := output
              classCount := m'.classes.length
              fieldCount := m'.fields.length
              methodCount := m'.methods.length
              warnings
              unresolved := r.unresolved
              duplicates := (SymbolTable.ofList m.classes).duplicates }, done) := by
  unfold stages
  simp only [Stage.bind_apply, Stage.lift_apply, record_apply, buildTable_fst]
  cases load settings input (s.record .debug (Timing.started (label input))) with
  | mk outcome loaded =>
      cases outcome with
      | error failure => rfl
      | ok rows =>
          dsimp only
          cases remap (SymbolTable.ofList rows.1.classes) rows.1 (buildTable rows.1 loaded).2 with
          | mk result remapped =>
              obtain ⟨m', outcome⟩ := result
              cases outcome with
              | error failure => rfl
              | ok r =>
                  simp only [Stage.outcome_apply]
                  cases write settings m' output remapped with
                  | mk outcome done => cases outcome <;> rfl

/-- A conversion is its stages, and its end if they come to a report. -/
theorem convert_eq (settings : ConverterSettings) (input output : Text) (elapsed : Nat)
    (s : Session) :
    convert settings input output elapsed s = match stages settings input output s with
      | (.error failure, done) => (.error failure, done)
      | (.ok report, done) =>
        (.ok (complete report elapsed done).1, (complete report elapsed done).2) := by
  unfold convert
  rw [Stage.bind_apply]
  cases stages settings input output s with
  | mk outcome done => cases outcome <;> rfl

/-- Stages fail before they write, and then they have only logged, or they come to write what they
have loaded and remapped and end as the writing does. -/
theorem stages_steps {outcome : Except Failure Report}
    (h : stages settings input output s = (outcome, s')) :
    (∃ failure, outcome = .error failure ∧ s.Logs s') ∨
      ∃ m warnings loaded m' r ready,
        load settings input (s.record .debug (Timing.started (label input))) =
            (.ok (m, warnings), loaded) ∧
          m.remap (SymbolTable.ofList m.classes) = (m', .ok r) ∧ s.Logs ready ∧
          ((∃ failure, outcome = .error failure ∧
              write settings m' output ready = (.error failure, s')) ∨
            ∃ count, write settings m' output ready = (.ok count, s') ∧ outcome = .ok {
              inputPath := input
              outputPath := output
              classCount := m'.classes.length
              fieldCount := m'.fields.length
              methodCount := m'.methods.length
              warnings
              unresolved := r.unresolved
              duplicates := (SymbolTable.ofList m.classes).duplicates }) := by
  have hstarted : s.Logs (s.record .debug (Timing.started (label input))) := .record _ _ .refl
  rw [stages_eq] at h
  -- One case split for each stage; the way that fails carries the records made so far.
  cases hload : load settings input (s.record .debug (Timing.started (label input))) with
  | mk loading loaded =>
      have hloaded := hstarted.trans ((onlyLogs_load settings input).logs hload)
      rw [hload] at h
      cases loading with
      | error failure =>
          cases h
          exact .inl ⟨failure, rfl, hloaded⟩
      | ok rows =>
          obtain ⟨m, warnings⟩ := rows
          have hready := hloaded.trans ((onlyLogs_buildTable m loaded).trans
            (onlyLogs_remap (SymbolTable.ofList m.classes) m _))
          dsimp only at h
          cases hremap : remap (SymbolTable.ofList m.classes) m (buildTable m loaded).2 with
          | mk remapping ready =>
              obtain ⟨m', outcome'⟩ := remapping
              rw [hremap] at h hready
              cases outcome' with
              | error failure =>
                  cases h
                  exact .inl ⟨failure, rfl, hready⟩
              | ok r =>
                  have hremapped := remap_fst_eq_ok_iff.mp (congrArg Prod.fst hremap)
                  refine .inr ⟨m, warnings, loaded, m', r, ready, rfl, hremapped, hready, ?_⟩
                  dsimp only at h
                  cases hwrite : write settings m' output ready with
                  | mk writing done =>
                      rw [hwrite] at h
                      cases writing with
                      | error failure =>
                          cases h
                          exact .inl ⟨failure, rfl, rfl⟩
                      | ok count =>
                          cases h
                          exact .inr ⟨count, rfl, rfl⟩

/-- A conversion fails before it writes, and then it has only logged, or it comes to write a
translation and ends as the writing does. -/
theorem stages_cases {outcome : Except Failure Report}
    (h : stages settings input output s = (outcome, s')) :
    (∃ failure, outcome = .error failure ∧ s.Logs s') ∨
      ∃ ready m, Prepared settings input s ready m ∧
        ((∃ failure, outcome = .error failure ∧
            write settings m output ready = (.error failure, s')) ∨
          ∃ report count, outcome = .ok report ∧
            write settings m output ready = (.ok count, s')) := by
  rcases stages_steps h with hfails | ⟨m, warnings, loaded, m', r, ready, hload, hremap, hready, h⟩
  · exact .inl hfails
  · refine .inr ⟨ready, m', prepared_of_remap (.record _ _ .refl) hload hremap hready, ?_⟩
    rcases h with hfails | ⟨count, hwrite, houtcome⟩
    · exact .inl hfails
    · exact .inr ⟨_, count, houtcome, hwrite⟩

/-- The same for a whole conversion, which makes records after the writing if it succeeds. -/
theorem convert_cases {outcome : Except Failure Report}
    (h : convert settings input output elapsed s = (outcome, s')) :
    (∃ failure, outcome = .error failure ∧ s.Logs s') ∨
      ∃ ready m, Prepared settings input s ready m ∧
        ((∃ failure, outcome = .error failure ∧
            write settings m output ready = (.error failure, s')) ∨
          ∃ report count written, outcome = .ok report ∧
            write settings m output ready = (.ok count, written) ∧ written.Logs s') := by
  rw [convert_eq] at h
  cases hstages : stages settings input output s with
  | mk outcome' written =>
      rw [hstages] at h
      cases outcome' with
      | error failure =>
          cases h
          rcases stages_cases hstages with hfails | ⟨ready, m, hprepared, hwrite⟩
          · exact .inl hfails
          · rcases hwrite with hfails | ⟨_, _, hreport, -⟩
            · exact .inr ⟨ready, m, hprepared, .inl hfails⟩
            · cases hreport
      | ok report =>
          have hlogs := onlyLogs_complete report elapsed written
          cases h
          rcases stages_cases hstages with ⟨_, hfailure, -⟩ | ⟨ready, m, hprepared, hwrite⟩
          · cases hfailure
          · rcases hwrite with ⟨_, hfailure, -⟩ | ⟨_, count, -, hwrite⟩
            · cases hfailure
            · exact .inr ⟨ready, m, hprepared, .inr ⟨_, count, written, rfl, hwrite, hlogs⟩⟩

/-- A text that has a translation is loaded and remapped to rows of the translation, if the log
has no file. -/
theorem exists_prepared (hlog : s.log.file = none) {version t : Text}
    (hreads : Reads settings s.files input version t)
    (hconforms : Translation.Conforms version t) :
    ∃ m warnings loaded m' r, load settings input s = (.ok (m, warnings), loaded) ∧
      m.remap (SymbolTable.ofList m.classes) = (m', .ok r) ∧
      Tiny.rows m' = Translation.rows version t := by
  obtain ⟨hversion, codec, bytes, hencoding, hbytes, hdecode⟩ := hreads
  have hread : ∃ m warnings, Yarn.readText version t = .ok (m, warnings) := by
    cases hlines : Text.lines t with
    | nil =>
        rw [Translation.Conforms, hlines] at hconforms
        exact hconforms.elim
    | cons header body =>
        rw [Translation.Conforms, hlines] at hconforms
        exact Yarn.exists_readText hlines hconforms.1
  obtain ⟨m, warnings, hread⟩ := hread
  have hmappings : readMappings settings bytes = .ok (m, warnings) :=
    readMappings_eq_ok_iff.mpr ⟨codec, version, t, hencoding, hversion, hdecode, hread⟩
  obtain ⟨loaded, hload⟩ := load_of_read hlog hbytes hmappings
  obtain ⟨m', r, hremap⟩ := remap_of_conforms hread hconforms
  exact ⟨m, warnings, loaded, m', r, hload, hremap, (translation_of_remap hread hremap).2⟩

/-- A conversion succeeds if its stages do. -/
theorem convert_of_write {m m' : MappingSet} {warnings : List RowWarning} {r : Remapper}
    {loaded written : Session} {count : Nat}
    (hload : load settings input (s.record .debug (Timing.started (label input))) =
      (.ok (m, warnings), loaded))
    (hremap : m.remap (SymbolTable.ofList m.classes) = (m', .ok r))
    (hwrite : write settings m' output
      (remap (SymbolTable.ofList m.classes) m (buildTable m loaded).2).2 = (.ok count, written)) :
    ∃ report s', convert settings input output elapsed s = (.ok report, s') := by
  have hremapped := Prod.eta (remap (SymbolTable.ofList m.classes) m (buildTable m loaded).2)
  rw [remap_fst_eq_ok_iff.mpr hremap] at hremapped
  rw [convert_eq, stages_eq, hload]
  dsimp only
  rw [← hremapped]
  dsimp only
  rw [hwrite]
  exact ⟨_, _, rfl⟩

/-- Without a log file, a conversion succeeds if it reads a text that has a translation, the
codec of the output has bytes for the rows of the translation, and a file can be written at the
output path and, if the settings say so, at a temporary path beside it. -/
theorem convert_succeeds (hlog : s.log.file = none) {version t : Text} {place : Location}
    {bytes : Bytes} (hreads : Reads settings s.files input version t)
    (hconforms : Translation.Conforms version t)
    (hbytes : Output.fileBytes? (EncodingSetting.ofValue settings.outputEncoding)
      (Translation.rows version t) = some bytes)
    (hplace : s.files.writePlace (Path.ofText output) = .ok place)
    (htemporary : settings.atomicWrite.isTruthy = true →
      ∃ beside, s.files.freshPlace (Output.temporary s.files (Path.ofText output)) = .ok beside) :
    ∃ report s', convert settings input output elapsed s = (.ok report, s') := by
  have hstarted : (s.record .debug (Timing.started (label input))).files = s.files :=
    Session.files_record hlog _ _
  obtain ⟨m, warnings, loaded, m', r, hload, hremap, hrows⟩ :=
    exists_prepared (s := s.record .debug (Timing.started (label input))) hlog
      (hstarted.symm ▸ hreads) hconforms
  have hlogs := ((onlyLogs_load settings input).logs hload).trans
    ((onlyLogs_buildTable m loaded).trans (onlyLogs_remap (SymbolTable.ofList m.classes) m _))
  have hfiles := ((Session.Logs.record _ _ .refl).trans (hlogs.trans
    (logs_writing output _))).files_eq hlog
  have houtput := Output.write_eq_ok_iff.mpr
    ⟨rfl, htemporary, place, bytes, hplace, hrows.symm ▸ hbytes, rfl⟩
  have hwrite : ∃ written, write settings m' output
      (remap (SymbolTable.ofList m.classes) m (buildTable m loaded).2).2 =
        (.ok m'.rowCount, written) := by
    rw [write_eq, hfiles, houtput]
    exact ⟨_, rfl⟩
  obtain ⟨written, hwrite⟩ := hwrite
  exact convert_of_write hload hremap hwrite

end Remapping.Conversion
