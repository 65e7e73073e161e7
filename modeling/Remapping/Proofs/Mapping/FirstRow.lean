import Remapping.Mapping.SymbolTable

/-!
# The first row of a class

A symbol table against the list of its entries. The table keeps the list and an index of names;
`Scans` says that both agree, and every insertion keeps it so (`Scans.insert`). Read
`lookup_ofList` first: a lookup gives the first entry with the name, wherever it stands in the
list. `refines_scan` says the same of all that can be asked of a table.
-/

namespace Remapping

/-- The intermediate name in the first of some class rows with an obfuscated name, or the name
itself if there is none. -/
def firstIntermediate (classes : List ClassEntry) (name : Text) : Text :=
  match classes.find? fun entry => entry.obfuscated = name with
  | some entry => entry.intermediate
  | none => name

namespace SymbolTable

/-- A table that holds the entries of a list, and in which a lookup finds what a scan of the list
from its front finds. -/
structure Scans (table : SymbolTable) (entries : List ClassEntry) : Prop where
  toList_eq : table.toList = entries
  lookup_eq : ∀ name, table.lookup name = entries.find? fun entry => entry.obfuscated = name

namespace Scans

variable {table : SymbolTable} {entries : List ClassEntry}

/-- The table without entries. -/
theorem empty : Scans .empty [] where
  toList_eq := rfl
  lookup_eq := lookup_empty

/-- An inserted entry comes last, and is found where no entry before it has the name. -/
theorem insert (h : table.Scans entries) (entry : ClassEntry) :
    (table.insert entry).Scans (entries ++ [entry]) where
  toList_eq := by rw [toList_insert, h.toList_eq]
  lookup_eq name := by
    have hlast : [entry].find? (fun entry => entry.obfuscated = name) =
        if entry.obfuscated = name then some entry else none := by
      rw [List.find?_cons]
      by_cases hname : entry.obfuscated = name
      · simp [hname]
      · simp [hname]
    rw [lookup_insert, h.lookup_eq, List.find?_append, hlast]

/-- Inserting entries in order keeps the table in step with the list. -/
theorem foldl_insert (h : table.Scans entries) (more : List ClassEntry) :
    (more.foldl SymbolTable.insert table).Scans (entries ++ more) := by
  induction more generalizing table entries with
  | nil => simpa using h
  | cons entry more ih => simpa using ih (h.insert entry)

/-- What is found is the first entry with the name. -/
theorem lookup_eq_some_iff (h : table.Scans entries) {name : Text} {entry : ClassEntry} :
    table.lookup name = some entry ↔ entry.obfuscated = name ∧
      ∃ before after, entries = before ++ entry :: after ∧
        ∀ earlier ∈ before, earlier.obfuscated ≠ name := by
  rw [h.lookup_eq, List.find?_eq_some_iff_append]
  simp

/-- Nothing is found exactly if no entry has the name. -/
theorem lookup_eq_none_iff (h : table.Scans entries) {name : Text} :
    table.lookup name = none ↔ ∀ entry ∈ entries, entry.obfuscated ≠ name := by
  rw [h.lookup_eq, List.find?_eq_none]
  simp

/-- A name is in the table exactly if some entry has it. -/
theorem contains_iff (h : table.Scans entries) {name : Text} :
    table.contains name = true ↔ ∃ entry ∈ entries, entry.obfuscated = name := by
  rw [contains_eq_isSome_lookup, h.lookup_eq, List.find?_isSome]
  simp

/-- The table has as many entries as the list. -/
theorem size_eq (h : table.Scans entries) : table.size = entries.length := by
  rw [← h.toList_eq]
  exact Array.length_toList.symm

end Scans

/-- A table agrees with the list of the entries that were inserted into it. -/
theorem scans_ofList (entries : List ClassEntry) : (ofList entries).Scans entries :=
  Scans.empty.foldl_insert entries

/-- A lookup gives the first entry with the name. -/
theorem lookup_ofList (entries : List ClassEntry) (name : Text) :
    (ofList entries).lookup name = entries.find? fun entry => entry.obfuscated = name :=
  (scans_ofList entries).lookup_eq name

/-- A name is resolved by the first row of its class. -/
theorem resolve_ofList (entries : List ClassEntry) :
    (ofList entries).resolve = firstIntermediate entries := by
  funext name
  rw [resolve, lookup_ofList]
  rfl

/-- One more entry is found under its name if the name was not in the table; any other lookup
gives what it gave before. -/
theorem lookup_insert_eq (table : SymbolTable) (entry : ClassEntry) (name : Text) :
    (table.insert entry).lookup name =
      if name = entry.obfuscated ∧ table.contains name = false then some entry
      else table.lookup name := by
  rw [lookup_insert, contains_eq_isSome_lookup]
  cases table.lookup name with
  | some found => simp
  | none => simp [eq_comm]

/-- A table into which entries were inserted one after the other answers as a scan of them from
the front does. A lookup gives the first entry with the name, whose intermediate name the name is
resolved to, and nothing exactly if no entry has the name, which then stands for itself. The table
has these entries in this order, and no other. One more entry changes no lookup but that of its
own name, and that only if it was not in the table. -/
theorem refines_scan (entries : List ClassEntry) :
    ∃ table, entries.foldl insert empty = table ∧ ofList entries = table ∧
      (∀ name, match table.lookup name with
        | some entry => table.resolve name = entry.intermediate ∧ entry.obfuscated = name ∧
            ∃ before after, entries = before ++ entry :: after ∧
              ∀ earlier ∈ before, earlier.obfuscated ≠ name
        | none => table.resolve name = name ∧ ∀ entry ∈ entries, entry.obfuscated ≠ name) ∧
      (∀ name, table.contains name = true ↔ ∃ entry ∈ entries, entry.obfuscated = name) ∧
      table.toList = entries ∧ table.size = entries.length ∧
      ∀ entry name, (table.insert entry).lookup name =
        if name = entry.obfuscated ∧ table.contains name = false then some entry
        else table.lookup name := by
  have h := scans_ofList entries
  refine ⟨ofList entries, rfl, rfl, fun name => ?_, fun name => h.contains_iff, h.toList_eq,
    h.size_eq, lookup_insert_eq (ofList entries)⟩
  cases hlookup : (ofList entries).lookup name with
  | some entry =>
      refine ⟨?_, h.lookup_eq_some_iff.mp hlookup⟩
      rw [resolve, hlookup]
  | none =>
      refine ⟨?_, h.lookup_eq_none_iff.mp hlookup⟩
      rw [resolve, hlookup]

end SymbolTable
end Remapping
