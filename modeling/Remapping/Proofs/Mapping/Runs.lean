import Remapping.Proofs.Mapping.FirstRow
import Remapping.Proofs.Mapping.Notes

/-!
# Runs of a remapper

A remapper works on while classes are inserted into its table. Its results and its list of
unresolved names are compared with what each step asks of the table that it finds: `timeline`
pairs the steps of a run with these tables, and `Step.result` and `Step.missed` know nothing of a
remapper. Read `take_eq` first, which is one step; `Follows.take` is what it means for the notes,
and `Follows.run` is the run.
-/

namespace Remapping.Remapper

open Descriptor

/-! ## Steps -/

/-- What is asked of a remapper: to remap a descriptor, or to insert a class into its table. -/
inductive Step where
  | field (d : Text)
  | method (s : Text)
  | insert (entry : ClassEntry)
  deriving DecidableEq

/-- Takes a step; there is a result unless a class is inserted. -/
def take (r : Remapper) : Step → Option (Except DescriptorError Text) × Remapper
  | .field d => let (result, next) := r.field d; (some result, next)
  | .method s => let (result, next) := r.method s; (some result, next)
  | .insert entry => (none, r.insert entry)

/-- Takes steps in order, and lists their results. -/
def run (r : Remapper) : List Step → List (Option (Except DescriptorError Text)) × Remapper
  | [] => ([], r)
  | step :: steps =>
    let (result, next) := r.take step
    let (results, last) := next.run steps
    (result :: results, last)

namespace Step

/-- The result that a step should have with a table. -/
def result (table : SymbolTable) : Step → Option (Except DescriptorError Text)
  | field d => some (remapField table d)
  | method s => some (remapMethod table s)
  | insert _ => none

/-- The table that a step leaves. -/
def tableAfter (table : SymbolTable) : Step → SymbolTable
  | insert entry => table.insert entry
  | _ => table

/-- The class names that are read in the descriptor of a step; a text that is no descriptor has
none. -/
def names : Step → List Text
  | field d => ((parseField d).map (·.className.toList)).toOption.getD []
  | method s => (classNames s).toOption.getD []
  | insert _ => []

/-- The class names without an entry in the table, if the step succeeds. -/
def missed (table : SymbolTable) (step : Step) : List Text :=
  match step.result table with
  | some (.ok _) => step.names.filter fun name => (table.lookup name).isNone
  | _ => []

end Step

/-- The steps of a run, each with the table that it finds. -/
def timeline (table : SymbolTable) : List Step → List (SymbolTable × Step)
  | [] => []
  | step :: steps => (table, step) :: timeline (step.tableAfter table) steps

/-! ## What a remapper remembers -/

/-- A remapper that has this table, and has noted the names of a list in their order, each once. -/
structure Follows (table : SymbolTable) (noted : List Text) (r : Remapper) : Prop where
  table_eq : r.table = table
  unresolved_eq : r.unresolved = noted.eraseDups
  nodup : r.unresolved.Nodup

variable {table : SymbolTable} {noted : List Text} {r : Remapper}

/-- A new remapper has noted nothing. -/
theorem Follows.new (table : SymbolTable) : Follows table [] { table } where
  table_eq := rfl
  unresolved_eq := rfl
  nodup := List.nodup_nil

/-- A name with an entry is not noted, and one without is noted unless it has been before. -/
theorem Follows.note (h : r.Follows table noted) (name : Text) :
    (r.note name).Follows table
      (if (table.lookup name).isNone then noted ++ [name] else noted) := by
  have hcontains : r.table.contains name = (table.lookup name).isSome := by
    rw [h.table_eq, SymbolTable.contains_eq_isSome_lookup]
  have hmem : name ∈ r.unresolved ↔ name ∈ noted := by
    rw [h.unresolved_eq, List.mem_eraseDups]
  cases hlookup : table.lookup name with
  | some entry =>
      have hnote : r.note name = r := by simp [Remapper.note, hcontains, hlookup]
      rw [hnote]
      exact h
  | none =>
      show (r.note name).Follows table (noted ++ [name])
      by_cases hnoted : name ∈ noted
      · have hnote : r.note name = r := by simp [Remapper.note, hmem, hnoted]
        have honce : (noted ++ [name]).eraseDups = noted.eraseDups := by
          simp [List.eraseDups_append, List.removeAll, hnoted]
        rw [hnote]
        exact ⟨h.table_eq, h.unresolved_eq.trans honce.symm, h.nodup⟩
      · have hnote : r.note name = { r with unresolved := r.unresolved ++ [name] } := by
          simp [Remapper.note, hcontains, hlookup, hmem, hnoted]
        have hlast : (noted ++ [name]).eraseDups = noted.eraseDups ++ [name] := by
          simp [List.eraseDups_append, List.removeAll, hnoted, List.eraseDups_cons]
        rw [hnote]
        refine ⟨h.table_eq, ?_, ?_⟩
        · rw [hlast, h.unresolved_eq]
        · exact List.nodup_append.mpr ⟨h.nodup, by simp, by grind⟩

/-- Noting names one after the other notes those without an entry. -/
theorem Follows.foldl_note (h : r.Follows table noted) (names : List Text) :
    (names.foldl Remapper.note r).Follows table
      (noted ++ names.filter fun name => (table.lookup name).isNone) := by
  induction names generalizing r noted with
  | nil => simpa using h
  | cons name names ih =>
      have hnames := ih (h.note name)
      rw [List.foldl_cons, List.filter_cons]
      cases hlookup : (table.lookup name).isNone with
      | true => simpa [hlookup] using hnames
      | false => simpa [hlookup] using hnames

/-! ## Runs -/

/-- What a step does. It has the result that it should have, and it notes the names in its
descriptor, if there is no fault; an insertion changes the table alone. -/
theorem take_eq (r : Remapper) (step : Step) :
    r.take step = (step.result r.table, match step.result r.table with
      | some (.ok _) => step.names.foldl note r
      | some (.error _) => r
      | none => { r with table := step.tableAfter r.table }) := by
  cases step with
  | field d =>
      simp only [take, field_eq, Step.result, Step.names, fieldReferences_eq]
      cases remapField r.table d <;> rfl
  | method s =>
      simp only [take, method_eq, Step.result, Step.names, methodReferences_eq]
      cases remapMethod r.table s <;> rfl
  | insert entry => rfl

/-- A step with a fault changes nothing. -/
theorem take_of_fault {step : Step} {fault : DescriptorError}
    (h : (r.take step).1 = some (.error fault)) : (r.take step).2 = r := by
  rw [take_eq] at h ⊢
  dsimp only at h ⊢
  rw [h]

/-- A step with a result keeps the table. -/
theorem Step.tableAfter_of_result {step : Step} {result : Except DescriptorError Text}
    (h : step.result table = some result) : step.tableAfter table = table := by
  cases step with
  | field | method => rfl
  | insert entry => cases h

/-- A step has the result that it should have, and the names that it misses are noted. -/
theorem Follows.take (h : r.Follows table noted) (step : Step) :
    (r.take step).1 = step.result table ∧
      (r.take step).2.Follows (step.tableAfter table) (noted ++ step.missed table) := by
  obtain rfl := h.table_eq
  rw [take_eq, Step.missed]
  refine ⟨rfl, ?_⟩
  cases hresult : step.result r.table with
  | none =>
      rw [List.append_nil]
      exact ⟨rfl, h.unresolved_eq, h.nodup⟩
  | some result =>
      rw [Step.tableAfter_of_result hresult]
      cases result with
      | ok renamed => exact h.foldl_note step.names
      | error fault =>
          rw [List.append_nil]
          exact h

/-- Every step of a run has the result that it should have with the table that it finds, and the
names that the steps miss are noted. -/
theorem Follows.run (h : r.Follows table noted) (steps : List Step) :
    (r.run steps).1 = (timeline table steps).map (fun found => found.2.result found.1) ∧
      (r.run steps).2.Follows (steps.foldl Step.tableAfter table)
        (noted ++ (timeline table steps).flatMap fun found => found.2.missed found.1) := by
  induction steps generalizing r table noted with
  | nil => exact ⟨rfl, (List.append_nil noted).symm ▸ h⟩
  | cons step steps ih =>
      obtain ⟨hresult, hnext⟩ := h.take step
      obtain ⟨hresults, hlast⟩ := ih hnext
      constructor
      · exact congrArg₂ List.cons hresult hresults
      · rw [List.append_assoc] at hlast
        exact hlast

/-- What has been noted stays at the start of the list. -/
theorem Follows.unresolved_prefix {table' : SymbolTable} {more : List Text} {r' : Remapper}
    (h : r.Follows table noted) (h' : r'.Follows table' (noted ++ more)) :
    r.unresolved <+: r'.unresolved := by
  rw [h.unresolved_eq, h'.unresolved_eq, List.eraseDups_append]
  exact List.prefix_append _ _

/-- A run that goes on is a run from where it was. -/
theorem run_append (r : Remapper) (steps more : List Step) :
    r.run (steps ++ more) =
      ((r.run steps).1 ++ ((r.run steps).2.run more).1, ((r.run steps).2.run more).2) := by
  induction steps generalizing r with
  | nil => rfl
  | cons step steps ih =>
      rw [List.cons_append, Remapper.run, Remapper.run]
      simp only [ih, List.cons_append]

/-- A new remapper on its way through any steps. Each result is that of the table as the step
finds it. The unresolved names are, once each and in the order of their first occurrence, those
that steps without a fault had no entry for at their time; whatever is done later, they stay at
the start of the list, and a fault changes nothing. -/
theorem run_timeline (table : SymbolTable) (steps : List Step) :
    ∃ results r, ({ table } : Remapper).run steps = (results, r) ∧
      results = (timeline table steps).map (fun found => found.2.result found.1) ∧
      r.table = steps.foldl Step.tableAfter table ∧
      r.unresolved =
        ((timeline table steps).flatMap fun found => found.2.missed found.1).eraseDups ∧
      r.unresolved.Nodup ∧
      (∀ more, r.unresolved <+: (({ table } : Remapper).run (steps ++ more)).2.unresolved) ∧
      ∀ step fault, (r.take step).1 = some (.error fault) → (r.take step).2 = r := by
  obtain ⟨hresults, hfollows⟩ := (Follows.new table).run steps
  rw [List.nil_append] at hfollows
  refine ⟨_, _, rfl, hresults, hfollows.table_eq, hfollows.unresolved_eq, hfollows.nodup, ?_, ?_⟩
  · intro more
    rw [run_append]
    exact hfollows.unresolved_prefix (hfollows.run more).2
  · intro step fault hfault
    exact take_of_fault hfault

/-- A class that is in the table from the start. -/
def earlyRow : ClassEntry := ⟨"a", "C_1", "Tree"⟩

/-- A class that is missed before it is inserted. -/
def lateRow : ClassEntry := ⟨"b", "C_2", "Leaf"⟩

/-- A method descriptor with a missing class twice, one with a fault near its end, the insertion
of the class, and descriptors that mention it then. -/
def lateSteps : List Step :=
  [.method "(Lb;[La;Lb;)Lc;", .method "(Ld;)Le", .insert lateRow, .field "[Lb;",
    .method "(Lb;)Ld;"]

/-- The class that is inserted late has its name from then on, and stays on the list. The class
in front of the fault is listed when it is missed again, and a fault later changes nothing. -/
theorem run_timeline_late_insert :
    ∃ r, ({ table := .ofList [earlyRow] } : Remapper).run lateSteps =
        ([some (.ok "(Lb;[LC_1;Lb;)Lc;"),
          some (.error { position := 7, reason := .unterminatedName, descriptor := "(Ld;)Le" }),
          none, some (.ok "[LC_2;"), some (.ok "(LC_2;)Ld;")], r) ∧
      r.unresolved = ["b".toText, "c".toText, "d".toText] ∧
      (r.take (.method "(Lx;)Ly")).2 = r := by
  obtain ⟨results, r, hrun, rfl, -, hunresolved, -, -, hfault⟩ :=
    run_timeline (.ofList [earlyRow]) lateSteps
  have htimeline : timeline (.ofList [earlyRow]) lateSteps =
      [(.ofList [earlyRow], .method "(Lb;[La;Lb;)Lc;"), (.ofList [earlyRow], .method "(Ld;)Le"),
        (.ofList [earlyRow], .insert lateRow), (.ofList [earlyRow, lateRow], .field "[Lb;"),
        (.ofList [earlyRow, lateRow], .method "(Lb;)Ld;")] := rfl
  have hparse : parseMethod "(Lx;)Ly" = .error
      { position := 7, reason := .unterminatedName, descriptor := "(Lx;)Ly" } := by
    decide +kernel
  have htake : (r.take (.method "(Lx;)Ly")).1 = some (.error
      { position := 7, reason := .unterminatedName, descriptor := "(Lx;)Ly" }) := by
    simp only [take, method, hparse]
  refine ⟨r, hrun.trans (congrArg (·, r) ?_), hunresolved.trans ?_, hfault _ _ htake⟩
  · simp only [htimeline, List.map_cons, List.map_nil, Step.result, remapMethod, remapField,
      SymbolTable.resolve_ofList]
    decide +kernel
  · simp only [htimeline, List.flatMap_cons, List.flatMap_nil, Step.missed, Step.result,
      remapMethod, remapField, SymbolTable.resolve_ofList, SymbolTable.lookup_ofList]
    decide +kernel

end Remapping.Remapper
