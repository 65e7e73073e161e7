import Remapping.Mapping.Remapper

/-!
# Remapping a mapping set

Every owner is resolved first; then the descriptors of the fields are remapped in order, then
those of the methods. At the first descriptor that cannot be remapped the work stops: what was
remapped before stays so, and the members behind it stay as they are.
-/

namespace Remapping

/-- Whether a descriptor holds the letter that every reference to a class starts with. -/
def mentionsClass (d : Text) : Bool := d.contains 'L'

/-- Remaps the descriptors of members in order, up to the first fault; descriptors that are not
selected stay as they are. `done` holds the members passed so far, last first. -/
def remapMembers (selected : Text → Bool)
    (step : Remapper → Text → Except DescriptorError Text × Remapper) (done : List MemberEntry)
    (r : Remapper) : List MemberEntry → List MemberEntry × Except DescriptorError Remapper
  | [] => (done.reverse, .ok r)
  | e :: es =>
    if selected e.descriptor then
      match step r e.descriptor with
      | (.ok d, r) => remapMembers selected step ({ e with descriptor := d } :: done) r es
      | (.error fault, _) => (done.reverseAux (e :: es), .error fault)
    else remapMembers selected step (e :: done) r es

namespace MappingSet

/-- Gives every member the resolved name of its owner. -/
def resolveOwners (table : SymbolTable) (m : MappingSet) : MappingSet :=
  let resolve (e : MemberEntry) : MemberEntry := { e with owner := table.resolve e.owner }
  { m with fields := m.fields.map resolve, methods := m.methods.map resolve }

/-- Remaps a mapping set, passing over the descriptors that are not selected. The changed set
comes with the remapper, or with the fault that stopped the work. -/
def remapWhere (selected : Text → Bool) (table : SymbolTable) (m : MappingSet) :
    MappingSet × Except DescriptorError Remapper :=
  let m := m.resolveOwners table
  match remapMembers selected Remapper.field [] { table } m.fields with
  | (fields, .error fault) => ({ m with fields }, .error fault)
  | (fields, .ok r) =>
    let (methods, outcome) := remapMembers selected Remapper.method [] r m.methods
    ({ m with fields, methods }, outcome)

/-- Remaps a mapping set; a descriptor that mentions no class is not looked at. -/
def remap (table : SymbolTable) (m : MappingSet) :
    MappingSet × Except DescriptorError Remapper :=
  m.remapWhere mentionsClass table

end MappingSet
end Remapping
