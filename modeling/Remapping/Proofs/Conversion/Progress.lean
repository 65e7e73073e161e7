import Mathlib.Data.List.Forall2
import Remapping.Proofs.Conversion.Outcome

/-!
# How far remapping comes

The stage that remaps changes a mapping set step by step, and what it has changed stays if it
meets a fault. The descriptors of a set are listed in the order in which they are worked on, each
with what remapping it gives (`MappingSet.work`); a fault cuts this list, and the cut says what is
left of the set. Read `FirstFault.remappedTypes_eq` first.
-/

namespace Remapping

/-! ## The work on a set -/

/-- What is made of a descriptor: one that mentions no class stays as it is. -/
def remapped (rename : Text → Except DescriptorError Text) (d : Text) :
    Except DescriptorError Text :=
  if mentionsClass d then rename d else .ok d

/-- The descriptors of members, each with what is made of it. -/
def remappedTypes (rename : Text → Except DescriptorError Text) (es : List MemberEntry) :
    List (Text × Except DescriptorError Text) :=
  es.map fun e => (e.descriptor, remapped rename e.descriptor)

/-- The descriptors of members, renamed where they can be. -/
def renamedTypes (rename : Text → Except DescriptorError Text) (es : List MemberEntry) :
    List Text :=
  es.map fun e => renamedWhere mentionsClass rename e.descriptor

/-- The descriptors of a set in the order of the work, those of the fields first, each with what
is made of it. -/
def MappingSet.work (table : SymbolTable) (m : MappingSet) :
    List (Text × Except DescriptorError Text) :=
  remappedTypes (remapField table) m.fields ++ remappedTypes (remapMethod table) m.methods

/-- A member whose owner is resolved, and which is otherwise the same but for its descriptor. -/
def MemberEntry.Resolved (table : SymbolTable) (e e' : MemberEntry) : Prop :=
  e' = { e with owner := table.resolve e.owner, descriptor := e'.descriptor }

variable {table : SymbolTable} {rename : Text → Except DescriptorError Text}

/-- What is made of a descriptor if it can be renamed. -/
theorem remapped_eq_ok {d : Text} (h : mentionsClass d = true → ∃ d', rename d = .ok d') :
    remapped rename d = .ok (renamedWhere mentionsClass rename d) := by
  rw [remapped, renamedWhere]
  cases hmentions : mentionsClass d with
  | false => rfl
  | true =>
      obtain ⟨d', hd⟩ := h hmentions
      rw [if_pos rfl, if_pos rfl, hd]
      rfl

/-- What is made of members that can be renamed. -/
theorem map_snd_remappedTypes {es : List MemberEntry}
    (h : ∀ e ∈ es, mentionsClass e.descriptor = true → ∃ d, rename e.descriptor = .ok d) :
    (remappedTypes rename es).map (·.2) = (renamedTypes rename es).map .ok := by
  rw [remappedTypes, renamedTypes, List.map_map, List.map_map]
  exact List.map_congr_left fun e he => remapped_eq_ok (h e he)

/-- What is made of a set that can be renamed. -/
theorem MappingSet.map_snd_work {m : MappingSet} (h : m.Renamable table.resolve) :
    (m.work table).map (·.2) =
      (renamedTypes (remapField table) m.fields ++
        renamedTypes (remapMethod table) m.methods).map .ok := by
  have hfields : (remappedTypes (remapField table) m.fields).map (·.2) =
      (renamedTypes (remapField table) m.fields).map .ok := map_snd_remappedTypes h.1
  have hmethods : (remappedTypes (remapMethod table) m.methods).map (·.2) =
      (renamedTypes (remapMethod table) m.methods).map .ok := map_snd_remappedTypes h.2
  rw [work, List.map_append, hfields, hmethods, List.map_append]

/-- The descriptors of members are listed as they are. -/
theorem map_fst_remappedTypes (es : List MemberEntry) :
    (remappedTypes rename es).map (·.1) = es.map (·.descriptor) := by
  simp [remappedTypes]

/-- The first fault among members cuts the work on them. -/
theorem FirstFault.remappedTypes_eq {es before after : List MemberEntry} {failing : MemberEntry}
    {fault : DescriptorError}
    (h : FirstFault mentionsClass rename es before failing after fault) :
    remappedTypes rename es = remappedTypes rename before ++
      (failing.descriptor, .error fault) :: remappedTypes rename after := by
  have hfailing : remapped rename failing.descriptor = .error fault := by
    rw [remapped, if_pos h.selects, h.faults]
  rw [h.eq_append, remappedTypes, List.map_append, List.map_cons, hfailing]
  rfl

/-- Every member has its owner resolved, before a place and from there on. -/
theorem forall₂_resolved_renamedBefore {es before rest : List MemberEntry}
    (h : es = before ++ rest) :
    List.Forall₂ (MemberEntry.Resolved table) es
      (renamedBefore table.resolve rename before rest) := by
  have hmap (types : Text → Text) (es : List MemberEntry) :
      List.Forall₂ (MemberEntry.Resolved table) es (es.map (.translate table.resolve types)) :=
    List.forall₂_map_right_iff.mpr (List.forall₂_same.mpr fun e _ => rfl)
  rw [h]
  exact List.rel_append (hmap _ before) (hmap _ rest)

/-- The descriptors are the renamed ones before a place, and those that were read from there
on. -/
theorem map_descriptor_renamedBefore (before rest : List MemberEntry) :
    (renamedBefore table.resolve rename before rest).map (·.descriptor) =
      renamedTypes rename before ++ rest.map (·.descriptor) := by
  rw [renamedBefore, List.map_append, List.map_map, List.map_map]
  rfl

/-- The descriptors of a set whose fields and methods are renamed up to a place each. -/
theorem MappingSet.map_descriptor_members (table : SymbolTable) (m : MappingSet)
    (fields fieldRest methods methodRest : List MemberEntry) :
    ({ m with
        fields := renamedBefore table.resolve (remapField table) fields fieldRest
        methods := renamedBefore table.resolve (remapMethod table) methods methodRest
      } : MappingSet).members.map (·.descriptor) =
      renamedTypes (remapField table) fields ++ fieldRest.map (·.descriptor) ++
        (renamedTypes (remapMethod table) methods ++ methodRest.map (·.descriptor)) := by
  rw [members, List.map_append, map_descriptor_renamedBefore, map_descriptor_renamedBefore]

namespace Conversion

/-- What the stage that remaps leaves of a mapping set, with a fault and without one. Every owner
is resolved, and nothing but owners and descriptors differs. Without a fault something is made of
every descriptor, and the set has what is made of them. A fault is that of the first descriptor
of which nothing can be made: the ones before it are remapped, and this one and all later ones are
as they were. -/
theorem remap_leaves (table : SymbolTable) (m : MappingSet) (s : Session) :
    ∃ left outcome, (remap table m s).1 = (left, outcome) ∧
      left = { m with fields := left.fields, methods := left.methods } ∧
      List.Forall₂ (MemberEntry.Resolved table) m.fields left.fields ∧
      List.Forall₂ (MemberEntry.Resolved table) m.methods left.methods ∧
      match outcome with
      | .ok _ => (m.work table).map (·.2) = (left.members.map (·.descriptor)).map .ok
      | .error failure => ∃ before d fault after done,
          failure = .conversion (.descriptor fault) ∧
          m.work table = before ++ (d, .error fault) :: after ∧
          before.map (·.2) = done.map .ok ∧
          left.members.map (·.descriptor) = done ++ d :: after.map (·.1) := by
  rw [remap_fst]
  refine ⟨_, _, rfl, ?_⟩
  have hprogress := m.remap_progress table
  cases hremap : m.remap table with
  | mk left outcome =>
      rw [hremap] at hprogress
      cases outcome with
      | ok r =>
          obtain ⟨rfl, hrenamable⟩ := hprogress
          have hmembers := m.map_descriptor_members table m.fields [] m.methods []
          simp only [List.map_nil, List.append_nil] at hmembers
          rw [MappingSet.renamed_eq_renamedBefore]
          refine ⟨rfl, forall₂_resolved_renamedBefore (List.append_nil _).symm,
            forall₂_resolved_renamedBefore (List.append_nil _).symm,
            (MappingSet.map_snd_work hrenamable).trans ?_⟩
          exact congrArg (List.map Except.ok) hmembers.symm
      | error fault =>
          rcases hprogress with ⟨before, failing, after, hfirst, rfl⟩ |
            ⟨before, failing, after, hfields, hfirst, rfl⟩
          · refine ⟨rfl, forall₂_resolved_renamedBefore hfirst.eq_append,
              forall₂_resolved_renamedBefore (List.nil_append _).symm,
              remappedTypes (remapField table) before, failing.descriptor, fault,
              remappedTypes (remapField table) after ++ remappedTypes (remapMethod table) m.methods,
              renamedTypes (remapField table) before, rfl, ?_,
              map_snd_remappedTypes hfirst.renames, ?_⟩
            · rw [MappingSet.work, hfirst.remappedTypes_eq, List.append_assoc, List.cons_append]
            · rw [List.map_append, map_fst_remappedTypes, map_fst_remappedTypes]
              simpa [renamedTypes] using
                m.map_descriptor_members table before (failing :: after) [] m.methods
          · refine ⟨rfl, forall₂_resolved_renamedBefore (List.append_nil _).symm,
              forall₂_resolved_renamedBefore hfirst.eq_append,
              remappedTypes (remapField table) m.fields ++ remappedTypes (remapMethod table) before,
              failing.descriptor, fault, remappedTypes (remapMethod table) after,
              renamedTypes (remapField table) m.fields ++ renamedTypes (remapMethod table) before,
              rfl, ?_, ?_, ?_⟩
            · rw [MappingSet.work, hfirst.remappedTypes_eq, List.append_assoc]
            · rw [List.map_append, map_snd_remappedTypes hfields,
                map_snd_remappedTypes hfirst.renames, ← List.map_append]
            · rw [map_fst_remappedTypes]
              simpa using m.map_descriptor_members table m.fields [] before (failing :: after)

end Conversion
end Remapping
