import Remapping.Descriptor.Rename
import Remapping.Mapping.SymbolTable

/-!
# Remapping descriptors with a symbol table

`remapField` and `remapMethod` give the classes of a descriptor their intermediate names. A
`Remapper` does the same over a whole run and remembers which names its table did not hold.
-/

namespace Remapping

/-- A field descriptor with the intermediate names of a table. -/
def remapField (table : SymbolTable) (d : Text) : Except DescriptorError Text :=
  Descriptor.renameField table.resolve d

/-- A method descriptor with the intermediate names of a table. -/
def remapMethod (table : SymbolTable) (s : Text) : Except DescriptorError Text :=
  Descriptor.renameMethod table.resolve s

/-- A symbol table, and the names that were looked up in it without success. -/
structure Remapper where
  table : SymbolTable
  /-- The names without an entry when they were looked up, each once, oldest first. -/
  unresolved : List Text := []

namespace Remapper

/-- Records a name that has been looked up. -/
def note (r : Remapper) (name : Text) : Remapper :=
  if r.table.contains name || r.unresolved.contains name then r
  else { r with unresolved := r.unresolved ++ [name] }

/-- Looks a class up: its intermediate name, or the name itself, which is then recorded. -/
def resolve (r : Remapper) (name : Text) : Text × Remapper :=
  match r.table.lookup name with
  | some entry => (entry.intermediate, r)
  | none => (name, r.note name)

/-- Remaps a field descriptor. The name is looked up last, so a fault leaves no trace. -/
def field (r : Remapper) (d : Text) : Except DescriptorError Text × Remapper :=
  if Descriptor.isObjectDescriptor d then
    match Descriptor.referencedName d with
    | .error fault => (.error fault, r)
    | .ok name =>
      let (resolved, r) := r.resolve name
      (.ok (Descriptor.arrayMarkers d ++ .char 'L' :: resolved ++ [.char ';']), r)
  else (.ok d, r)

/-- Remaps field descriptors in order, up to the first fault; what was recorded before it stays
recorded. -/
def fields (r : Remapper) : List Text → Except DescriptorError (List Text) × Remapper
  | [] => (.ok [], r)
  | d :: ds =>
    match r.field d with
    | (.error fault, r) => (.error fault, r)
    | (.ok renamed, r) =>
      match r.fields ds with
      | (.error fault, r) => (.error fault, r)
      | (.ok rest, r) => (.ok (renamed :: rest), r)

/-- Remaps a method descriptor: it is read to its end before the first name is looked up. -/
def method (r : Remapper) (s : Text) : Except DescriptorError Text × Remapper :=
  match Descriptor.parseMethod s with
  | .error fault => (.error fault, r)
  | .ok type =>
    match r.fields type.parameterDescriptors with
    | (.error fault, r) => (.error fault, r)
    | (.ok parameters, r) =>
      match r.field type.returnDescriptor with
      | (.error fault, r) => (.error fault, r)
      | (.ok result, r) => (.ok (.char '(' :: parameters.flatten ++ .char ')' :: result), r)

/-- Inserts a class into the table; names noted before stay noted. -/
def insert (r : Remapper) (entry : ClassEntry) : Remapper :=
  { r with table := r.table.insert entry }

end Remapper
end Remapping
