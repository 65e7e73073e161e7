import Mathlib.Data.Finset.Card
import Remapping.Proofs.Mapping.RenamedTables

/-!
# Repeated class rows

Which names a symbol table lists as duplicates. The table puts a name on its list when a second
row of the name is inserted; here the list is said of the names of all rows at once, as those that
stand somewhere for the second time. Read `duplicates_ofList` first. `secondOccurrences_concat` is
the step, and `mem_secondOccurrences_iff` says by counts which names those are.
-/

namespace Remapping

/-! ## Names that stand for the second time -/

/-- The names that stand at some place for the second time, in the order of these places. -/
def secondOccurrences (names : List Text) : List Text :=
  names.zipIdx.filterMap fun (name, i) =>
    if (names.take i).count name = 1 then some name else none

@[simp] theorem secondOccurrences_nil : secondOccurrences [] = [] := rfl

/-- One more name stands for the second time if it stood once before, and changes nothing about
the names before it. -/
theorem secondOccurrences_concat (names : List Text) (name : Text) :
    secondOccurrences (names ++ [name]) =
      secondOccurrences names ++ if names.count name = 1 then [name] else [] := by
  have hbefore : (names.zipIdx.filterMap fun (n, i) =>
      if ((names ++ [name]).take i).count n = 1 then some n else none) =
        secondOccurrences names := by
    refine List.filterMap_congr fun ⟨n, i⟩ hentry => ?_
    have hplace : i < names.length := by
      simpa using List.snd_lt_of_mem_zipIdx hentry
    dsimp only
    rw [List.take_append_of_le_length hplace.le]
  have hlast : ((names ++ [name]).take names.length).count name = names.count name := by
    rw [List.take_left]
  rw [secondOccurrences, List.zipIdx_append, List.filterMap_append, hbefore]
  congr 1
  by_cases honce : names.count name = 1 <;> simp [honce]

/-- A name stands somewhere for the second time exactly if it stands at two places or more. -/
theorem mem_secondOccurrences_iff {names : List Text} {name : Text} :
    name ∈ secondOccurrences names ↔ 2 ≤ names.count name := by
  induction names using List.reverseRecOn with
  | nil => simp
  | append_singleton names last ih =>
      have hadded : name ∈ (if names.count last = 1 then [last] else []) ↔
          names.count last = 1 ∧ name = last := by
        split
        · next honce => simp [honce]
        · next honce => simp [honce]
      rw [secondOccurrences_concat, List.mem_append, ih, hadded, List.count_append]
      by_cases hlast : name = last
      · subst hlast
        rw [List.count_singleton_self, and_iff_left rfl]
        omega
      · rw [List.count_eq_zero_of_not_mem (fun hmem => hlast (List.mem_singleton.mp hmem))]
        simp [hlast]

/-- No name stands for the second time at two places. -/
theorem nodup_secondOccurrences (names : List Text) : (secondOccurrences names).Nodup := by
  induction names using List.reverseRecOn with
  | nil => exact List.nodup_nil
  | append_singleton names last ih =>
      rw [secondOccurrences_concat]
      split
      · next honce =>
        refine List.nodup_append.mpr ⟨ih, List.nodup_singleton _, fun name hname other hother => ?_⟩
        have hcount := mem_secondOccurrences_iff.mp hname
        rintro rfl
        rw [List.mem_singleton.mp hother, honce] at hcount
        omega
      · simpa using ih

/-- A list of the names that stand at two places or more among some names, each once, in the order
in which they stand there for the second time. -/
structure ListsRepeated (names repeated : List Text) : Prop where
  eq_secondOccurrences : repeated = secondOccurrences names
  nodup : repeated.Nodup
  mem_iff : ∀ name, name ∈ repeated ↔ 2 ≤ names.count name

namespace SymbolTable

/-! ## The list of a table -/

/-- The table of some rows lists the names that stand for the second time in one of them. -/
theorem duplicates_ofList (entries : List ClassEntry) :
    (ofList entries).duplicates = secondOccurrences (entries.map (·.obfuscated)) := by
  induction entries using List.reverseRecOn with
  | nil => rfl
  | append_singleton entries entry ih =>
      -- The table knows the name from one row on, and has it on its list from two on.
      have honce : ((ofList entries).contains entry.obfuscated = true ∧
          entry.obfuscated ∉ (ofList entries).duplicates) ↔
            (entries.map (·.obfuscated)).count entry.obfuscated = 1 := by
        rw [contains_ofList, ih, mem_secondOccurrences_iff, ← List.one_le_count_iff]
        omega
      have hinsert : ofList (entries ++ [entry]) = (ofList entries).insert entry := by
        rw [ofList, List.foldl_append]
        rfl
      rw [hinsert, duplicates_insert, List.map_append, List.map_singleton,
        secondOccurrences_concat, ← ih]
      simp only [honce]
      split
      · rfl
      · rw [List.append_nil]

/-- The table of some rows lists the names of two rows or more. -/
theorem listsRepeated_ofList (entries : List ClassEntry) :
    ListsRepeated (entries.map (·.obfuscated)) (ofList entries).duplicates where
  eq_secondOccurrences := duplicates_ofList entries
  nodup := duplicates_ofList entries ▸ nodup_secondOccurrences _
  mem_iff _ := duplicates_ofList entries ▸ mem_secondOccurrences_iff

/-- A table has as many entries as they have names exactly if it lists no duplicates. -/
theorem size_eq_card_iff (entries : List ClassEntry) :
    (ofList entries).size = (entries.map (·.obfuscated)).toFinset.card ↔
      (ofList entries).duplicates = [] := by
  have hnone : (ofList entries).duplicates = [] ↔ (entries.map (·.obfuscated)).Nodup := by
    rw [List.nodup_iff_count_le_one, List.eq_nil_iff_forall_not_mem]
    refine forall_congr' fun name => ?_
    rw [(listsRepeated_ofList entries).mem_iff]
    omega
  rw [hnone, (scans_ofList entries).size_eq, ← List.length_map (f := (·.obfuscated)),
    List.card_toFinset]
  constructor
  · intro hlength
    exact List.dedup_eq_self.mp ((List.dedup_sublist _).eq_of_length hlength.symm)
  · intro hnodup
    rw [List.dedup_eq_self.mpr hnodup]

end SymbolTable
end Remapping
