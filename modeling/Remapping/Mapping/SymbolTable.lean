import Std.Data.HashMap
import Remapping.Mapping.Basic

/-!
# The symbol table of classes

Class entries in the order of insertion, with an index from the obfuscated name. The first
entry of a name keeps it: later entries of the same name are listed, but never looked up. Read
`lookup_insert` first: it says what one insertion does to every lookup.
-/

namespace Remapping

/-- Class entries with an index by obfuscated name. -/
structure SymbolTable where
  entries : Array ClassEntry := #[]
  index : Std.HashMap Text ClassEntry := ∅
  repeated : Array Text := #[]

namespace SymbolTable

/-- The table without entries. -/
def empty : SymbolTable := {}

instance : Inhabited SymbolTable := ⟨empty⟩

/-- Appends an entry; an earlier entry of the same name keeps its place in the index. -/
def insert (table : SymbolTable) (entry : ClassEntry) : SymbolTable where
  entries := table.entries.push entry
  index := table.index.insertIfNew entry.obfuscated entry
  repeated :=
    if table.index.contains entry.obfuscated && !table.repeated.contains entry.obfuscated then
      table.repeated.push entry.obfuscated
    else table.repeated

/-- The table of some entries, inserted in order. -/
def ofList (entries : List ClassEntry) : SymbolTable := entries.foldl insert empty

/-- The entries in the order of insertion. -/
def toList (table : SymbolTable) : List ClassEntry := table.entries.toList

/-- The first entry with an obfuscated name. -/
def lookup (table : SymbolTable) (name : Text) : Option ClassEntry := table.index[name]?

/-- Whether some entry has an obfuscated name. -/
def contains (table : SymbolTable) (name : Text) : Bool := table.index.contains name

/-- The intermediate name of a class, or the name itself if the table does not hold it. -/
def resolve (table : SymbolTable) (name : Text) : Text :=
  match table.lookup name with
  | some entry => entry.intermediate
  | none => name

/-- The names inserted more than once, in the order of their second insertion. -/
def duplicates (table : SymbolTable) : List Text := table.repeated.toList

/-- The number of entries. -/
def size (table : SymbolTable) : Nat := table.entries.size

@[simp] theorem toList_empty : empty.toList = [] := rfl

@[simp] theorem toList_insert (table : SymbolTable) (entry : ClassEntry) :
    (table.insert entry).toList = table.toList ++ [entry] := by
  simp [toList, insert]

@[simp] theorem lookup_empty (name : Text) : empty.lookup name = none := by
  simp [lookup, empty]

/-- An insertion changes the lookup of the inserted name alone, and only if it had no entry. -/
theorem lookup_insert (table : SymbolTable) (entry : ClassEntry) (name : Text) :
    (table.insert entry).lookup name =
      (table.lookup name).or (if entry.obfuscated = name then some entry else none) := by
  simp only [lookup, insert, Std.HashMap.getElem?_insertIfNew]
  by_cases same : entry.obfuscated = name
  · subst same
    cases found : table.index[entry.obfuscated]? with
    | none =>
      have absent : ¬ entry.obfuscated ∈ table.index := fun present => by
        have := Std.HashMap.isSome_getElem?_iff_mem.mpr present
        simp [found] at this
      simp [absent]
    | some other =>
      have present : entry.obfuscated ∈ table.index :=
        Std.HashMap.isSome_getElem?_iff_mem.mp (by simp [found])
      simp [present]
  · simp [same]

/-- A name is in the table exactly if it can be looked up. -/
theorem contains_eq_isSome_lookup (table : SymbolTable) (name : Text) :
    table.contains name = (table.lookup name).isSome :=
  Std.HashMap.contains_eq_isSome_getElem?

end SymbolTable
end Remapping
