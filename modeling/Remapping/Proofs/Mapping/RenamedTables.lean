import Mathlib.Data.Set.Function
import Remapping.Proofs.Mapping.FirstRow
import Remapping.Proofs.Mapping.Remapping

/-!
# Tables of renamed classes

Two symbol tables with the same rows, but for the obfuscated names, which a function takes to
each other. The function need not be injective, only so on the names that are looked up: read
`Renamed.lookup` first. `Renamed.insert` is the step and `renamed_ofList` the run; the same
two for the names that a remapper notes are `SameNotes.note` and `SameNotes.foldl_note`.
-/

namespace Remapping

/-- A class row with another obfuscated name. -/
def ClassEntry.withKey (f : Text → Text) (entry : ClassEntry) : ClassEntry :=
  { entry with obfuscated := f entry.obfuscated }

namespace SymbolTable

@[simp] theorem duplicates_empty : empty.duplicates = [] := rfl

/-- A name is listed as a duplicate when it is inserted the second time. -/
theorem duplicates_insert (table : SymbolTable) (entry : ClassEntry) :
    (table.insert entry).duplicates =
      if table.contains entry.obfuscated = true ∧ entry.obfuscated ∉ table.duplicates then
        table.duplicates ++ [entry.obfuscated]
      else table.duplicates := by
  unfold duplicates insert contains
  by_cases hcontains : table.index.contains entry.obfuscated = true
  · by_cases hlisted : entry.obfuscated ∈ table.repeated
    · simp [hcontains, hlisted]
    · simp [hcontains, hlisted]
  · simp [hcontains]

/-- A table and the same table with other names: each name of `names` finds the same row in both,
and the duplicates are the same. -/
structure Renamed (f : Text → Text) (names : Set Text) (table table' : SymbolTable) : Prop where
  lookup : ∀ n ∈ names, table'.lookup (f n) = (table.lookup n).map (.withKey f)
  duplicates : table'.duplicates = table.duplicates.map f
  duplicates_subset : ∀ n ∈ table.duplicates, n ∈ names

namespace Renamed

variable {f : Text → Text} {names : Set Text} {table table' : SymbolTable}

/-- Both tables hold the same names. -/
theorem contains_eq (h : Renamed f names table table') {n : Text} (hn : n ∈ names) :
    table'.contains (f n) = table.contains n := by
  rw [contains_eq_isSome_lookup, contains_eq_isSome_lookup, h.lookup n hn, Option.isSome_map]

/-- Both tables give a name the same intermediate name, if the function leaves the name alone
when they do not hold it. -/
theorem resolve_eq (h : Renamed f names table table') {n : Text} (hn : n ∈ names)
    (hfix : table.contains n = false → f n = n) : table'.resolve (f n) = table.resolve n := by
  rw [resolve, resolve, h.lookup n hn]
  cases hlookup : table.lookup n with
  | some entry => rfl
  | none =>
      refine hfix ?_
      rw [contains_eq_isSome_lookup, hlookup]
      rfl

/-- The empty tables. -/
theorem empty (f : Text → Text) (names : Set Text) : Renamed f names .empty .empty where
  lookup n _ := by simp
  duplicates := rfl
  duplicates_subset n hn := by simp at hn

/-- Inserting the same row into both tables, under the two names. -/
theorem insert (hf : Set.InjOn f names) (h : Renamed f names table table') {entry : ClassEntry}
    (hentry : entry.obfuscated ∈ names) :
    Renamed f names (table.insert entry) (table'.insert (entry.withKey f)) := by
  have hlisted : f entry.obfuscated ∈ table'.duplicates ↔
      entry.obfuscated ∈ table.duplicates := by
    rw [h.duplicates, List.mem_map]
    constructor
    · intro hmem
      obtain ⟨n, hn, heq⟩ := hmem
      exact hf (h.duplicates_subset n hn) hentry heq ▸ hn
    · exact fun hmem => ⟨_, hmem, rfl⟩
  have hkey : (entry.withKey f).obfuscated = f entry.obfuscated := rfl
  constructor
  case lookup =>
    intro n hn
    have hsame : f entry.obfuscated = f n ↔ entry.obfuscated = n := hf.eq_iff hentry hn
    simp only [lookup_insert, h.lookup n hn, hkey, hsame, Option.map_or]
    split <;> rfl
  case duplicates =>
    simp only [duplicates_insert, hkey, h.contains_eq hentry, hlisted]
    rw [h.duplicates]
    split
    · rw [List.map_append, List.map_singleton]
    · rfl
  case duplicates_subset =>
    intro n hn
    rw [duplicates_insert] at hn
    split at hn
    · rcases List.mem_append.mp hn with hn | hn
      · exact h.duplicates_subset n hn
      · exact List.mem_singleton.mp hn ▸ hentry
    · exact h.duplicates_subset n hn

/-- Inserting the same rows into both tables, under the two names. -/
theorem foldl_insert (hf : Set.InjOn f names) {entries : List ClassEntry}
    (hentries : ∀ entry ∈ entries, entry.obfuscated ∈ names) (h : Renamed f names table table') :
    Renamed f names (entries.foldl SymbolTable.insert table)
      ((entries.map (.withKey f)).foldl SymbolTable.insert table') := by
  induction entries generalizing table table' with
  | nil => exact h
  | cons entry entries ih =>
      obtain ⟨hentry, hentries⟩ := List.forall_mem_cons.mp hentries
      exact ih hentries (h.insert hf hentry)

end Renamed

/-- The tables of rows and of the same rows under other names. -/
theorem renamed_ofList {f : Text → Text} {names : Set Text} (hf : Set.InjOn f names)
    {entries : List ClassEntry} (hentries : ∀ entry ∈ entries, entry.obfuscated ∈ names) :
    Renamed f names (ofList entries) (ofList (entries.map (.withKey f))) :=
  (Renamed.empty f names).foldl_insert hf hentries

/-- The table of some rows holds their obfuscated names. -/
theorem contains_ofList {entries : List ClassEntry} {name : Text} :
    (ofList entries).contains name = true ↔ name ∈ entries.map (·.obfuscated) := by
  rw [contains_eq_isSome_lookup, lookup_ofList, List.find?_isSome, List.mem_map]
  simp only [decide_eq_true_eq]

end SymbolTable

namespace Remapper

/-- Two remappers whose tables have the same rows under other names, and which have noted the
same names. -/
structure SameNotes (f : Text → Text) (names : Set Text) (r r' : Remapper) : Prop where
  table : r.table.Renamed f names r'.table
  unresolved : r'.unresolved = r.unresolved

variable {f : Text → Text} {names : Set Text} {r r' : Remapper}

/-- Noting a name that both tables hold, or that is the same for both, keeps the notes the same. -/
theorem SameNotes.note (h : SameNotes f names r r') {n : Text} (hn : n ∈ names)
    (hfix : r.table.contains n = false → f n = n) :
    SameNotes f names (r.note n) (r'.note (f n)) := by
  have hcontains := h.table.contains_eq hn
  cases hknown : r.table.contains n with
  | true =>
      rw [hknown] at hcontains
      rwa [Remapper.note, Remapper.note, if_pos (by simp [hknown]), if_pos (by simp [hcontains])]
  | false =>
      rw [hfix hknown] at hcontains ⊢
      constructor
      case table => simpa using h.table
      case unresolved =>
        unfold Remapper.note
        rw [hcontains, hknown, h.unresolved]
        split
        · exact h.unresolved
        · rfl

/-- Noting names one after the other keeps the notes the same. -/
theorem SameNotes.foldl_note (h : SameNotes f names r r') {ns : List Text}
    (hns : ∀ n ∈ ns, n ∈ names ∧ (r.table.contains n = false → f n = n)) :
    SameNotes f names (ns.foldl Remapper.note r) ((ns.map f).foldl Remapper.note r') := by
  induction ns generalizing r r' with
  | nil => exact h
  | cons n ns ih =>
      obtain ⟨⟨hn, hfix⟩, hns⟩ := List.forall_mem_cons.mp hns
      refine ih (h.note hn hfix) fun n' hn' => ?_
      rw [table_note]
      exact hns n' hn'

end Remapper
end Remapping
