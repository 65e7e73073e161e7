import Remapping.Layout.Tiny
import Remapping.Mapping.Remap

/-!
# What of a member is looked at

The obfuscated name of a member and the line it was read from reach neither the remapper nor the
output. `shown` takes both away; read `MappingSet.remap_shown` and `Tiny.rows_shown` first: sets
that show the same are remapped and written alike.
-/

namespace Remapping

/-- A member without its obfuscated name and its line. -/
def MemberEntry.shown (e : MemberEntry) : MemberEntry :=
  { e with obfuscated := [], lineNumber := 0 }

/-- A mapping set whose members have no obfuscated names and no lines. -/
def MappingSet.shown (m : MappingSet) : MappingSet :=
  { m with fields := m.fields.map .shown, methods := m.methods.map .shown }

/-- Remapping members does not look at what is not shown. -/
theorem remapMembers_shown (selected : Text → Bool)
    (step : Remapper → Text → Except DescriptorError Text × Remapper) (done es : List MemberEntry)
    (r : Remapper) :
    remapMembers selected step (done.map .shown) r (es.map .shown) =
      ((remapMembers selected step done r es).1.map .shown,
        (remapMembers selected step done r es).2) := by
  induction es generalizing done r with
  | nil => simp [remapMembers]
  | cons e es ih =>
      have hdescriptor : e.shown.descriptor = e.descriptor := rfl
      rw [List.map_cons, remapMembers, remapMembers, hdescriptor]
      split
      · split
        · next d next _ => exact ih ({ e with descriptor := d } :: done) next
        · simp [List.reverseAux_eq]
      · exact ih (e :: done) r

namespace MappingSet

/-- Remapping a set does not look at what is not shown. -/
theorem remap_shown (table : SymbolTable) (m : MappingSet) :
    m.shown.remap table = ((m.remap table).1.shown, (m.remap table).2) := by
  have howners : m.shown.resolveOwners table = (m.resolveOwners table).shown := by
    simp [resolveOwners, shown, MemberEntry.shown, Function.comp_def]
  have hfields := remapMembers_shown mentionsClass Remapper.field [] (m.resolveOwners table).fields
    { table }
  have hmethods (r : Remapper) :=
    remapMembers_shown mentionsClass Remapper.method [] (m.resolveOwners table).methods r
  unfold remap remapWhere
  rw [howners]
  simp only [shown, List.map_nil] at hfields hmethods ⊢
  rw [hfields]
  cases remapMembers mentionsClass Remapper.field [] { table } (m.resolveOwners table).fields with
  | mk fields outcome =>
      cases outcome with
      | error fault => rfl
      | ok r => simp only [hmethods r]

/-- Sets that show the same are remapped with the same outcome, and then show the same again. -/
theorem remap_of_shown_eq {m m' : MappingSet} (h : m'.shown = m.shown) (table : SymbolTable) :
    (m'.remap table).1.shown = (m.remap table).1.shown ∧
      (m'.remap table).2 = (m.remap table).2 := by
  have hremap := m'.remap_shown table
  rw [h, m.remap_shown table] at hremap
  obtain ⟨hshown, houtcome⟩ := Prod.mk.inj hremap
  exact ⟨hshown.symm, houtcome.symm⟩

/-- Sets that show the same have the same classes, and as many fields and methods. -/
theorem counts_of_shown_eq {m m' : MappingSet} (h : m'.shown = m.shown) :
    m'.classes = m.classes ∧ m'.fields.length = m.fields.length ∧
      m'.methods.length = m.methods.length := by
  simp only [shown, MappingSet.mk.injEq] at h
  obtain ⟨-, -, hclasses, hfields, hmethods⟩ := h
  exact ⟨hclasses, by simpa using congrArg List.length hfields,
    by simpa using congrArg List.length hmethods⟩

/-- Sets that show the same have as many rows. -/
theorem rowCount_of_shown_eq {m m' : MappingSet} (h : m'.shown = m.shown) :
    m'.rowCount = m.rowCount := by
  obtain ⟨hclasses, hfields, hmethods⟩ := counts_of_shown_eq h
  rw [rowCount, rowCount, hclasses, hfields, hmethods]

end MappingSet

/-- Rows do not hold what is not shown. -/
theorem Tiny.rows_shown (m : MappingSet) : rows m.shown = rows m := by
  have hrow : memberRow ∘ MemberEntry.shown = memberRow := rfl
  have hheader : header m.shown = header m := rfl
  rw [rows, rows, hheader, MappingSet.members, MappingSet.members, List.map_append,
    List.map_append, MappingSet.shown, List.map_map, List.map_map, hrow]

/-- Sets that show the same have the same rows. -/
theorem Tiny.rows_of_shown_eq {m m' : MappingSet} (h : m'.shown = m.shown) :
    rows m' = rows m := by
  rw [← rows_shown, h, rows_shown]

end Remapping
