import Mathlib.Data.List.Forall2
import Remapping.Proofs.Mapping.FirstRow
import Remapping.Proofs.Mapping.References

/-!
# Descriptors that mention no class

Remapping passes over the descriptors that do not hold the letter of a class reference. Here it is
compared with the work that looks at every descriptor (`MappingSet.remapEvery`). Read
`remapMembers_eq_every` first: passing over a descriptor changes nothing if it would have stayed
as it is. This is so of every field descriptor, and of every method descriptor that the grammar
derives; `remapMembers_insert` says what becomes of the others.
-/

namespace Remapping

open Descriptor

/-- Remaps a mapping set, and looks at every descriptor. -/
def MappingSet.remapEvery (table : SymbolTable) (m : MappingSet) :
    MappingSet × Except DescriptorError Remapper :=
  m.remapWhere (fun _ => true) table

/-! ## One descriptor -/

/-- A descriptor mentions no class exactly if it does not hold the letter of a reference. -/
theorem mentionsClass_eq_false_iff {d : Text} : mentionsClass d = false ↔ .char 'L' ∉ d := by
  rw [← Bool.not_eq_true, mentionsClass_iff]

/-- A remapper leaves a field descriptor that mentions no class as it is, whatever text it is, and
notes nothing. -/
theorem Remapper.field_of_not_mentionsClass {d : Text} (h : mentionsClass d = false)
    (r : Remapper) : r.field d = (.ok d, r) := by
  have hobject : ¬ isObjectDescriptor d = true := fun hobject =>
    absurd (mentionsClass_of_isObjectDescriptor hobject) (by simp [h])
  rw [field, if_neg hobject]

/-- A remapper leaves a method descriptor that mentions no class as it is, and notes nothing. -/
theorem Remapper.method_of_not_mentionsClass {s : Text} (hs : Grammar.Method s)
    (h : mentionsClass s = false) (r : Remapper) : r.method s = (.ok s, r) := by
  obtain ⟨m, rfl⟩ := exists_tree_of_method hs
  have hrenamed := renamedWhere_methodDescriptor r.table.resolve m.isMethodType
  rw [m.descriptor_type, renamedWhere, h, if_neg Bool.false_ne_true] at hrenamed
  have hremap := renameMethod_descriptor r.table.resolve m.isMethodType
  rw [m.descriptor_type, ← hrenamed] at hremap
  rw [method_eq, remapMethod, hremap, methodReferences_of_not_mentionsClass h]
  rfl

/-- A text that the grammar does not derive cannot be remapped as a method descriptor. -/
theorem not_exists_remapMethod {s : Text} (h : ¬ Grammar.Method s) (table : SymbolTable) :
    ¬ ∃ s', remapMethod table s = .ok s' := by
  intro hremap
  obtain ⟨s', hs'⟩ := hremap
  obtain ⟨m, rfl, -⟩ := renameMethod_eq_ok_iff.mp hs'
  exact h m.method

/-! ## Members -/

section Members

variable {selected : Text → Bool} {step : Remapper → Text → Except DescriptorError Text × Remapper}

/-- Members that are passed over may as well be looked at, if the remapper leaves their
descriptors as they are and notes nothing. -/
theorem remapMembers_eq_every {es : List MemberEntry}
    (h : ∀ e ∈ es, selected e.descriptor = false → ∀ r, step r e.descriptor = (.ok e.descriptor, r))
    (done : List MemberEntry) (r : Remapper) :
    remapMembers selected step done r es = remapMembers (fun _ => true) step done r es := by
  induction es generalizing done r with
  | nil => rfl
  | cons e es ih =>
      obtain ⟨he, hes⟩ := List.forall_mem_cons.mp h
      rw [remapMembers, remapMembers, if_pos rfl]
      cases hselected : selected e.descriptor with
      | true =>
          rw [if_pos rfl]
          rcases step r e.descriptor with ⟨outcome, next⟩
          cases outcome with
          | ok d => exact ih hes _ _
          | error fault => rfl
      | false =>
          rw [if_neg Bool.false_ne_true, he hselected r]
          exact ih hes _ _

/-- The members passed so far stay in front of what becomes of the others. -/
theorem remapMembers_eq_append (done : List MemberEntry) (r : Remapper) (es : List MemberEntry) :
    remapMembers selected step done r es =
      (done.reverse ++ (remapMembers selected step [] r es).1,
        (remapMembers selected step [] r es).2) := by
  induction es generalizing done r with
  | nil => simp [remapMembers]
  | cons e es ih =>
      rw [remapMembers, remapMembers]
      split
      · split
        · next d next _ =>
          rw [ih, ih [_]]
          simp
        · simp [List.reverseAux_eq]
      · rw [ih, ih [_]]
        simp

/-- A member that is passed over stays as it is and where it is; the others come out as they would
without it. -/
theorem remapMembers_insert
    (step : Remapper → Text → Except DescriptorError Text × Remapper)
    {e : MemberEntry} (he : selected e.descriptor = false)
    (before after : List MemberEntry) (r : Remapper) :
    ∃ before' after' outcome, before'.length = before.length ∧
      remapMembers selected step [] r (before ++ after) = (before' ++ after', outcome) ∧
      remapMembers selected step [] r (before ++ e :: after) =
        (before' ++ e :: after', outcome) := by
  induction before generalizing r with
  | nil =>
      refine ⟨[], _, _, rfl, rfl, ?_⟩
      rw [List.nil_append, remapMembers, he, if_neg Bool.false_ne_true, remapMembers_eq_append]
      rfl
  | cons first before ih =>
      -- The work goes on behind the first member, whatever it has become.
      have hnext (first' : MemberEntry) (next : Remapper) :
          ∃ before' after' outcome, before'.length = (first :: before).length ∧
            remapMembers selected step [first'] next (before ++ after) =
              (before' ++ after', outcome) ∧
            remapMembers selected step [first'] next (before ++ e :: after) =
              (before' ++ e :: after', outcome) := by
        obtain ⟨before', after', outcome, hlength, hwithout, hwith⟩ := ih next
        refine ⟨first' :: before', after', outcome, by simp [hlength], ?_, ?_⟩
        · rw [remapMembers_eq_append, hwithout]
          rfl
        · rw [remapMembers_eq_append, hwith]
          rfl
      rw [List.cons_append, List.cons_append, remapMembers, remapMembers]
      split
      · split
        · exact hnext _ _
        · exact ⟨first :: before, after, _, rfl, rfl, rfl⟩
      · exact hnext _ _

end Members

/-! ## Mapping sets -/

namespace MappingSet

variable {table : SymbolTable} {m : MappingSet}

/-- The work on fields is the same whether or not the types without a class are looked at. -/
theorem remapMembers_field_eq_every (done : List MemberEntry) (r : Remapper)
    (es : List MemberEntry) :
    remapMembers mentionsClass Remapper.field done r es =
      remapMembers (fun _ => true) Remapper.field done r es :=
  remapMembers_eq_every (fun _ _ h => Remapper.field_of_not_mentionsClass h) done r

/-- The work on methods is the same whether or not the types without a class are looked at, if
they are all well formed. -/
theorem remapMembers_method_eq_every {es : List MemberEntry}
    (h : ∀ e ∈ es, .char 'L' ∉ e.descriptor → Grammar.Method e.descriptor)
    (done : List MemberEntry) (r : Remapper) :
    remapMembers mentionsClass Remapper.method done r es =
      remapMembers (fun _ => true) Remapper.method done r es :=
  remapMembers_eq_every (fun e he hmentions => Remapper.method_of_not_mentionsClass
    (h e he (mentionsClass_eq_false_iff.mp hmentions)) hmentions) done r

/-- A method that is passed over stays as it is, but for its owner, and where it is; the set comes
out as it would without it. -/
theorem remapWhere_insert {selected : Text → Bool} {before after : List MemberEntry}
    {e : MemberEntry} (hm : m.methods = before ++ e :: after) (he : selected e.descriptor = false)
    (table : SymbolTable) :
    ∃ (left : MappingSet) (before' after' : List MemberEntry) (outcome : _),
      before'.length = before.length ∧
      ({ m with methods := before ++ after } : MappingSet).remapWhere selected table =
        ({ left with methods := before' ++ after' }, outcome) ∧
      m.remapWhere selected table =
        ({ left with methods := before' ++ { e with owner := table.resolve e.owner } :: after' },
          outcome) := by
  unfold remapWhere resolveOwners
  dsimp only
  rw [hm, List.map_append, List.map_append, List.map_cons]
  cases remapMembers selected Remapper.field [] { table }
    (m.fields.map fun e => { e with owner := table.resolve e.owner }) with
  | mk fields outcome =>
      cases outcome with
      | error fault => exact ⟨{ m with fields }, _, _, _, List.length_map _, rfl, rfl⟩
      | ok r =>
          obtain ⟨before', after', outcome, hlength, hwithout, hwith⟩ :=
            remapMembers_insert Remapper.method
              (e := { e with owner := table.resolve e.owner }) he
              (before.map fun e => { e with owner := table.resolve e.owner })
              (after.map fun e => { e with owner := table.resolve e.owner }) r
          dsimp only
          rw [hwithout, hwith]
          exact ⟨{ m with fields }, before', after', outcome, hlength.trans (List.length_map _),
            rfl, rfl⟩

/-- What the work on resolved members comes to if every descriptor is looked at: a fault is the
first one among the members, and only the descriptors before it have been remapped. -/
theorem remapMembers_every_cases {rename : Text → Except DescriptorError Text}
    {step : Remapper → Text → Except DescriptorError Text × Remapper}
    (hstep : ∀ r next d result, r.table = table → step r d = (result, next) →
      rename d = result ∧ next.table = table)
    {es es' : List MemberEntry} {r : Remapper} {outcome : Except DescriptorError Remapper}
    (hr : r.table = table)
    (h : remapMembers (fun _ => true) step [] r (es.map (.translate table.resolve id)) =
      (es', outcome)) :
    match outcome with
    | .ok next => (∀ e ∈ es, ∃ d, rename e.descriptor = .ok d) ∧ next.table = table
    | .error fault => ∃ before failing after done,
        FirstFault (fun _ => true) rename es before failing after fault ∧
        before.map (fun e => rename e.descriptor) = done.map .ok ∧
        es'.map (·.descriptor) = done ++ (failing :: after).map (·.descriptor) := by
  have hcases := remapMembers_cases hstep hr h
  cases outcome with
  | ok next =>
      obtain ⟨-, hok, hnext⟩ := hcases
      exact ⟨fun e he => hok (e.translate table.resolve id) (List.mem_map_of_mem he) rfl, hnext⟩
  | error fault =>
      obtain ⟨_, _, _, hfirst, rfl⟩ := hcases
      obtain ⟨before, failing, after, hcut, rfl, hrest⟩ := hfirst.of_map
      refine ⟨before, failing, after,
        before.map fun e => renamedWhere (fun _ => true) rename e.descriptor, hcut, ?_, ?_⟩
      · rw [List.map_map]
        refine List.map_congr_left fun e he => ?_
        obtain ⟨d, hd⟩ := hcut.renames e he rfl
        simp [renamedWhere, hd, Except.toOption]
      · rw [hrest]
        simp [MemberEntry.translate, Function.comp_def]

/-- If every field can be remapped and some method cannot, the work that looks at every descriptor
stops at the first such method: the methods before it are remapped, and this one and all later
ones keep their types. -/
theorem remapEvery_of_fault (hfields : ∀ e ∈ m.fields, ∃ d, remapField table e.descriptor = .ok d)
    {e : MemberEntry} (he : e ∈ m.methods)
    (hfails : ¬ ∃ d, remapMethod table e.descriptor = .ok d) :
    ∃ left before failing after fault done,
      m.remapEvery table = (left, .error fault) ∧
      FirstFault (fun _ => true) (remapMethod table) m.methods before failing after fault ∧
      before.map (fun e => remapMethod table e.descriptor) = done.map .ok ∧
      left.methods.map (·.descriptor) = done ++ (failing :: after).map (·.descriptor) := by
  have howners : m.resolveOwners table = { m with
      fields := m.fields.map (.translate table.resolve id)
      methods := m.methods.map (.translate table.resolve id) } := rfl
  unfold remapEvery remapWhere
  rw [howners]
  dsimp only
  cases hfieldsRun : remapMembers (fun _ => true) Remapper.field [] { table }
      (m.fields.map (.translate table.resolve id)) with
  | mk fields outcome =>
      have hfieldsCases := remapMembers_every_cases Remapper.field_follows rfl hfieldsRun
      cases outcome with
      | error fault =>
          obtain ⟨_, _, _, _, hfirst, -⟩ := hfieldsCases
          exact absurd (fun e he _ => hfields e he) hfirst.not_forall
      | ok middle =>
          obtain ⟨-, htable⟩ := hfieldsCases
          dsimp only
          cases hmethodsRun : remapMembers (fun _ => true) Remapper.method [] middle
              (m.methods.map (.translate table.resolve id)) with
          | mk methods outcome =>
              have hmethodsCases :=
                remapMembers_every_cases Remapper.method_follows htable hmethodsRun
              cases outcome with
              | ok r => exact absurd (hmethodsCases.1 e he) hfails
              | error fault =>
                  obtain ⟨before, failing, after, done, hfirst, hdone, hleft⟩ := hmethodsCases
                  exact ⟨_, before, failing, after, fault, done, rfl, hfirst, hdone, hleft⟩

/-- The fields come out the same, and all that is left is the same if the work on them ends with a
fault, or if the work on the methods is the same. -/
theorem remap_eq_remapEvery_of_methods
    (h : ∀ fields r, remapMembers (fun _ => true) Remapper.field [] { table }
        (m.resolveOwners table).fields = (fields, .ok r) →
      remapMembers mentionsClass Remapper.method [] r (m.resolveOwners table).methods =
        remapMembers (fun _ => true) Remapper.method [] r (m.resolveOwners table).methods) :
    m.remap table = m.remapEvery table := by
  rw [remap, remapEvery, remapWhere, remapWhere]
  simp only [remapMembers_field_eq_every]
  split
  · rfl
  · next fields r hrun => rw [h fields r hrun]

/-- Whatever the types are, the fields come out the same. -/
theorem fields_remap_eq (table : SymbolTable) (m : MappingSet) :
    (m.remap table).1.fields = (m.remapEvery table).1.fields := by
  rw [remap, remapEvery, remapWhere, remapWhere]
  simp only [remapMembers_field_eq_every]
  split <;> rfl

/-- A field type that cannot be remapped ends both ways of the work, before a method is looked
at. -/
theorem remap_eq_remapEvery_of_field {e : MemberEntry} (he : e ∈ m.fields)
    (hfails : ¬ ∃ d, remapField table e.descriptor = .ok d) :
    m.remap table = m.remapEvery table := by
  refine remap_eq_remapEvery_of_methods fun fields r hrun => ?_
  obtain ⟨hok, -⟩ := remapMembers_every_cases Remapper.field_follows rfl hrun
  exact absurd (hok e he) hfails

/-- Passing over the types without the letter of a class, against looking at every type. The work
on the fields is the same, whatever texts their types are, and if it ends with a fault, so is all
that is left. If every method type without the letter is well formed, all is the same: what is
left, the notes, and the fault. A method type without the letter that is malformed stays as it is,
and all else comes out as without this method; but looking at every type ends at the first method
type that cannot be remapped, unless a field type is to blame before. -/
theorem remap_every (table : SymbolTable) (m : MappingSet) :
    (∀ done r, remapMembers mentionsClass Remapper.field done r m.fields =
      remapMembers (fun _ => true) Remapper.field done r m.fields) ∧
    (m.remap table).1.fields = (m.remapEvery table).1.fields ∧
    ((∃ e ∈ m.fields, ¬ ∃ d, remapField table e.descriptor = .ok d) →
      m.remap table = m.remapEvery table) ∧
    ((∀ e ∈ m.methods, .char 'L' ∉ e.descriptor → Grammar.Method e.descriptor) →
      m.remap table = m.remapEvery table) ∧
    ∀ before e after, m.methods = before ++ e :: after → .char 'L' ∉ e.descriptor →
      ¬ Grammar.Method e.descriptor →
      (∃ (left : MappingSet) (before' after' : List MemberEntry) (outcome : _),
        before'.length = before.length ∧
        ({ m with methods := before ++ after } : MappingSet).remap table =
          ({ left with methods := before' ++ after' }, outcome) ∧
        m.remap table =
          ({ left with methods := before' ++ { e with owner := table.resolve e.owner } :: after' },
            outcome)) ∧
      ((∀ e ∈ m.fields, ∃ d, remapField table e.descriptor = .ok d) →
        ∃ left before failing after fault done,
          m.remapEvery table = (left, .error fault) ∧
          m.methods = before ++ failing :: after ∧
          remapMethod table failing.descriptor = .error fault ∧
          before.map (fun e => remapMethod table e.descriptor) = done.map .ok ∧
          left.methods.map (·.descriptor) = done ++ (failing :: after).map (·.descriptor)) := by
  refine ⟨fun done r => remapMembers_field_eq_every done r m.fields, fields_remap_eq table m,
    ?_, ?_, ?_⟩
  · intro hfault
    obtain ⟨e, he, hfails⟩ := hfault
    exact remap_eq_remapEvery_of_field he hfails
  · intro hmethods
    refine remap_eq_remapEvery_of_methods fun _ r _ => remapMembers_method_eq_every ?_ [] r
    exact List.forall_mem_map.mpr hmethods
  · intro before e after hm hletter hmalformed
    refine ⟨remapWhere_insert hm (mentionsClass_eq_false_iff.mpr hletter) table, fun hfields => ?_⟩
    have he : e ∈ m.methods := hm ▸ List.mem_append_right before List.mem_cons_self
    obtain ⟨left, before', failing, after', fault, done, hrun, hfirst, hdone, hleft⟩ :=
      remapEvery_of_fault hfields he (not_exists_remapMethod hmalformed table)
    exact ⟨left, before', failing, after', fault, done, hrun, hfirst.eq_append, hfirst.faults,
      hdone, hleft⟩

/-- A class, a field whose type is no descriptor, and three methods of which the second has a type
that ends too early. -/
def unclosedSet : MappingSet where
  classes := [⟨"a", "C_1", "Main"⟩]
  fields := [⟨.fieldRow, "a", "x", "f_1", "leaf", "]", 3⟩]
  methods := [⟨.methodRow, "a", "y", "m_1", "stay", "()V", 4⟩,
    ⟨.methodRow, "a", "z", "m_2", "stop", "(", 5⟩,
    ⟨.methodRow, "a", "w", "m_3", "run", "(La;)I", 6⟩]

/-- The set without that method. -/
def closedSet : MappingSet :=
  { unclosedSet with methods := [⟨.methodRow, "a", "y", "m_1", "stay", "()V", 4⟩] ++
      [⟨.methodRow, "a", "w", "m_3", "run", "(La;)I", 6⟩] }

/-- What remapping leaves of the set without that method. -/
theorem remap_closedSet :
    ∃ r, closedSet.remap (.ofList closedSet.classes) = ({ closedSet with
      fields := [⟨.fieldRow, "C_1", "x", "f_1", "leaf", "]", 3⟩]
      methods := [⟨.methodRow, "C_1", "y", "m_1", "stay", "()V", 4⟩,
        ⟨.methodRow, "C_1", "w", "m_3", "run", "(LC_1;)I", 6⟩] }, .ok r) := by
  have hrenamable : closedSet.Renamable (SymbolTable.ofList closedSet.classes).resolve := by
    rw [SymbolTable.resolve_ofList]
    decide +kernel
  have hleft : closedSet.renamed (SymbolTable.ofList closedSet.classes).resolve = { closedSet with
      fields := [⟨.fieldRow, "C_1", "x", "f_1", "leaf", "]", 3⟩]
      methods := [⟨.methodRow, "C_1", "y", "m_1", "stay", "()V", 4⟩,
        ⟨.methodRow, "C_1", "w", "m_3", "run", "(LC_1;)I", 6⟩] } := by
    rw [SymbolTable.resolve_ofList]
    simp only [MappingSet.renamed, MappingSet.mk.injEq]
    decide +kernel
  rw [← hleft]
  exact ⟨_, remap_of_renamable hrenamable⟩

/-- Remapping leaves the type that ends too early as it is and comes to an end. Looking at every
type stops there, and the last method keeps its type. -/
theorem remap_every_unclosed :
    (∃ r, (unclosedSet.remap (.ofList unclosedSet.classes)).2 = .ok r) ∧
      (unclosedSet.remap (.ofList unclosedSet.classes)).1.methods.map (·.descriptor) =
        ["()V".toText, "(".toText, "(LC_1;)I".toText] ∧
      ∃ left, unclosedSet.remapEvery (.ofList unclosedSet.classes) =
          (left, .error ⟨⟨1, .parametersUnclosed⟩, "("⟩) ∧
        left.methods.map (·.descriptor) = ["()V".toText, "(".toText, "(La;)I".toText] := by
  have hunclosed (table : SymbolTable) :
      remapMethod table "(" = .error ⟨⟨1, .parametersUnclosed⟩, "("⟩ := by
    have hparse : parseMethod "(" = .error ⟨⟨1, .parametersUnclosed⟩, "("⟩ := by decide +kernel
    rw [remapMethod, renameMethod, hparse]
    rfl
  have hstays (table : SymbolTable) : remapMethod table "()V" = .ok "()V" :=
    renameMethod_text table.resolve ⟨[], .void⟩
  have hmalformed : ¬ Grammar.Method "(" := fun hmethod => by
    obtain ⟨m, hm⟩ := exists_tree_of_method hmethod
    have hremap := renameMethod_text (SymbolTable.empty).resolve m
    rw [hm, ← remapMethod, hunclosed] at hremap
    cases hremap
  obtain ⟨-, -, -, -, hmethods⟩ := remap_every (.ofList unclosedSet.classes) unclosedSet
  obtain ⟨hengine, hevery⟩ := hmethods [_] _ [_] rfl (by decide) hmalformed
  obtain ⟨r, hclosed⟩ := remap_closedSet
  obtain ⟨left, before', after', outcome, hlength, hwithout, hwith⟩ := hengine
  obtain ⟨hleft, rfl⟩ := Prod.mk.inj (hwithout.symm.trans hclosed)
  refine ⟨⟨r, by rw [hwith]⟩, ?_, ?_⟩
  · have hmembers : before' ++ after' = [_] ++ [_] := congrArg MappingSet.methods hleft
    obtain ⟨rfl, rfl⟩ := List.append_inj hmembers hlength
    rw [hwith]
    rfl
  · have hfields : ∀ e ∈ unclosedSet.fields,
        ∃ d, remapField (.ofList unclosedSet.classes) e.descriptor = .ok d :=
      List.forall_mem_singleton.mpr ⟨_, rfl⟩
    obtain ⟨left, before, failing, after, fault, done, hrun, hcut, hfault, hdone, hdescriptors⟩ :=
      hevery hfields
    refine ⟨left, ?_⟩
    -- The first method can be remapped and the second cannot, so the work ends at the second.
    rcases before with _ | ⟨first, _ | ⟨second, before⟩⟩
    · obtain ⟨rfl, -⟩ := List.cons.inj hcut
      cases hfault.symm.trans (hstays _)
    · obtain ⟨rfl, hrest⟩ := List.cons.inj hcut
      obtain ⟨rfl, rfl⟩ := List.cons.inj hrest
      obtain ⟨d, rfl, hd⟩ := List.map_eq_singleton_iff.mp hdone.symm
      obtain rfl := Except.ok.inj (hd.trans (hstays _))
      obtain rfl := Except.error.inj (hfault.symm.trans (hunclosed _))
      exact ⟨hrun, hdescriptors⟩
    · obtain ⟨rfl, hrest⟩ := List.cons.inj hcut
      obtain ⟨rfl, -⟩ := List.cons.inj hrest
      obtain ⟨_, _, -, hd⟩ := List.map_eq_cons_iff.mp hdone.symm
      obtain ⟨_, _, -, hd, -⟩ := List.map_eq_cons_iff.mp hd.2
      cases hd.trans (hunclosed _)

end MappingSet

end Remapping
