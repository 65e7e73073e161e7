import Remapping.Mapping.Remap
import Remapping.Proofs.Mapping.Notes

/-!
# Remapped sets

What remapping a mapping set gives. Read `remapMembers_cases` first: if the work ends without a
fault, then whatever the remapper remembers meanwhile, every member gets its own remapped
descriptor, and no other member has a say in it; a fault is that of the first member that cannot
be renamed, and only those before it have been. `remapMembers_cons_cases` is the step, and
`MappingSet.remap_progress` the same for a whole set.
-/

namespace Remapping

/-- A member with another owner and another descriptor. -/
def MemberEntry.translate (owner descriptor : Text → Text) (e : MemberEntry) : MemberEntry :=
  { e with owner := owner e.owner, descriptor := descriptor e.descriptor }

/-- The descriptor that a renamer gives if it is selected; otherwise, and where the renamer
meets a fault, the descriptor itself. -/
def renamedWhere (selected : Text → Bool) (rename : Text → Except DescriptorError Text)
    (d : Text) : Text :=
  if selected d then (rename d).toOption.getD d else d

/-- A descriptor mentions a class exactly if it holds the letter of a reference. -/
theorem mentionsClass_iff {d : Text} : mentionsClass d = true ↔ .char 'L' ∈ d :=
  List.contains_iff_mem

/-- A descriptor that refers to a class mentions one. -/
theorem mentionsClass_of_isObjectDescriptor {d : Text}
    (h : Descriptor.isObjectDescriptor d = true) : mentionsClass d = true := by
  obtain ⟨cs, hcs⟩ : ∃ cs, Descriptor.elementPart d = .char 'L' :: cs :=
    List.head?_eq_some_iff.mp (of_decide_eq_true h)
  have hmem : .char 'L' ∈ Descriptor.elementPart d := by simp [hcs]
  exact mentionsClass_iff.mpr ((List.dropWhile_suffix _).subset hmem)

/-- A step of a remapper gives what is asked of its table, and keeps the table. -/
theorem Remapper.step_cases {r next : Remapper} {names : List Text}
    {asked result : Except DescriptorError Text}
    (h : (match asked with
      | .error e => (.error e, r)
      | .ok renamed => (.ok renamed, names.foldl note r)) = (result, next)) :
    asked = result ∧ next.table = r.table := by
  cases asked with
  | error e =>
      obtain ⟨rfl, rfl⟩ := Prod.mk.inj h
      exact ⟨rfl, rfl⟩
  | ok renamed =>
      obtain ⟨rfl, rfl⟩ := Prod.mk.inj h
      exact ⟨rfl, table_foldl_note names r⟩

/-- A remapper gives a field descriptor the names of its table, which stays as it is. -/
theorem Remapper.field_cases {r next : Remapper} {d : Text} {result : Except DescriptorError Text}
    (h : r.field d = (result, next)) : remapField r.table d = result ∧ next.table = r.table :=
  step_cases ((field_eq r d).symm.trans h)

/-- A remapper gives a method descriptor the names of its table, which stays as it is. -/
theorem Remapper.method_cases {r next : Remapper} {s : Text}
    {result : Except DescriptorError Text} (h : r.method s = (result, next)) :
    remapMethod r.table s = result ∧ next.table = r.table :=
  step_cases ((method_eq r s).symm.trans h)

/-- The same of any remapper with a table. -/
theorem Remapper.field_follows {table : SymbolTable} (r next : Remapper) (d : Text)
    (result : Except DescriptorError Text) (hr : r.table = table) (h : r.field d = (result, next)) :
    remapField table d = result ∧ next.table = table :=
  hr ▸ field_cases h

/-- The same of any remapper with a table. -/
theorem Remapper.method_follows {table : SymbolTable} (r next : Remapper) (s : Text)
    (result : Except DescriptorError Text) (hr : r.table = table)
    (h : r.method s = (result, next)) :
    remapMethod table s = result ∧ next.table = table :=
  hr ▸ method_cases h

/-- Members cut at the first one whose descriptor is selected and cannot be renamed. -/
structure FirstFault (selected : Text → Bool) (rename : Text → Except DescriptorError Text)
    (es before : List MemberEntry) (failing : MemberEntry) (after : List MemberEntry)
    (fault : DescriptorError) : Prop where
  eq_append : es = before ++ failing :: after
  renames : ∀ e ∈ before, selected e.descriptor = true → ∃ d, rename e.descriptor = .ok d
  selects : selected failing.descriptor = true
  faults : rename failing.descriptor = .error fault

namespace FirstFault

variable {selected : Text → Bool} {rename : Text → Except DescriptorError Text}
  {es before after : List MemberEntry} {e failing : MemberEntry} {fault : DescriptorError}

/-- The first fault among members is the first one behind a member that can be renamed. -/
theorem cons (h : FirstFault selected rename es before failing after fault)
    (he : selected e.descriptor = true → ∃ d, rename e.descriptor = .ok d) :
    FirstFault selected rename (e :: es) (e :: before) failing after fault where
  eq_append := congrArg (e :: ·) h.eq_append
  renames := List.forall_mem_cons.mpr ⟨he, h.renames⟩
  selects := h.selects
  faults := h.faults

/-- Other owners change nothing about the descriptors, and so the first fault stays. -/
theorem of_map {owner : Text → Text}
    (h : FirstFault selected rename (es.map (.translate owner id)) before failing after fault) :
    ∃ before' failing' after', FirstFault selected rename es before' failing' after' fault ∧
      before = before'.map (.translate owner id) ∧
      failing :: after = (failing' :: after').map (.translate owner id) := by
  obtain ⟨before', rest', rfl, rfl, hrest⟩ := List.map_eq_append_iff.mp h.eq_append
  obtain ⟨failing', after', rfl, rfl, rfl⟩ := List.map_eq_cons_iff.mp hrest
  refine ⟨before', failing', after', ?_, rfl, rfl⟩
  exact ⟨rfl, fun e he => h.renames (e.translate owner id) (List.mem_map_of_mem he), h.selects,
    h.faults⟩

/-- Not all members can be renamed. -/
theorem not_forall (h : FirstFault selected rename es before failing after fault) :
    ¬ ∀ e ∈ es, selected e.descriptor = true → ∃ d, rename e.descriptor = .ok d := by
  intro hall
  have hmem : failing ∈ es := h.eq_append ▸ List.mem_append_right before List.mem_cons_self
  obtain ⟨d, hd⟩ := hall failing hmem h.selects
  cases h.faults.symm.trans hd

end FirstFault

section Members

variable {selected : Text → Bool} {step : Remapper → Text → Except DescriptorError Text × Remapper}
  {table : SymbolTable} {rename : Text → Except DescriptorError Text}

/-- The work on one member: it ends there with a fault, or goes on behind the renamed member. -/
theorem remapMembers_cons_cases
    (hstep : ∀ r next d result, r.table = table → step r d = (result, next) →
      rename d = result ∧ next.table = table)
    {r : Remapper} (hr : r.table = table) (done : List MemberEntry) (e : MemberEntry)
    (es : List MemberEntry) :
    (∃ fault, selected e.descriptor = true ∧ rename e.descriptor = .error fault ∧
      remapMembers selected step done r (e :: es) = (done.reverse ++ e :: es, .error fault)) ∨
    ∃ next, next.table = table ∧
      (selected e.descriptor = true → ∃ d, rename e.descriptor = .ok d) ∧
      remapMembers selected step done r (e :: es) =
        remapMembers selected step (e.translate id (renamedWhere selected rename) :: done) next
          es := by
  rw [remapMembers]
  cases hselected : selected e.descriptor with
  | false =>
      have hkept : e.translate id (renamedWhere selected rename) = e := by
        simp [MemberEntry.translate, renamedWhere, hselected]
      rw [hkept]
      exact .inr ⟨r, hr, by simp, rfl⟩
  | true =>
      cases hresult : step r e.descriptor with
      | mk result next =>
          obtain ⟨hrename, hnext⟩ := hstep _ _ _ _ hr hresult
          cases result with
          | error fault => exact .inl ⟨fault, rfl, hrename, by simp [List.reverseAux_eq]⟩
          | ok d =>
              have hrenamed : e.translate id (renamedWhere selected rename) =
                  { e with descriptor := d } := by
                simp [MemberEntry.translate, renamedWhere, hselected, hrename, Except.toOption]
              rw [hrenamed]
              exact .inr ⟨next, hnext, fun _ => ⟨d, hrename⟩, rfl⟩

/-- Where the work on some members ends without a fault, every selected descriptor could be
renamed, and every member has its renamed descriptor. Otherwise the fault is the first one among
the members: those before it have their renamed descriptors, and the others are as they were. -/
theorem remapMembers_cases
    (hstep : ∀ r next d result, r.table = table → step r d = (result, next) →
      rename d = result ∧ next.table = table)
    {done es es' : List MemberEntry} {r : Remapper} {outcome : Except DescriptorError Remapper}
    (hr : r.table = table) (h : remapMembers selected step done r es = (es', outcome)) :
    match outcome with
    | .ok next =>
      es' = done.reverse ++ es.map (.translate id (renamedWhere selected rename)) ∧
        (∀ e ∈ es, selected e.descriptor = true → ∃ d, rename e.descriptor = .ok d) ∧
        next.table = table
    | .error fault =>
      ∃ before failing after, FirstFault selected rename es before failing after fault ∧
        es' = done.reverse ++ before.map (.translate id (renamedWhere selected rename)) ++
          failing :: after := by
  -- What the remapper remembers changes from member to member; its table is the invariant.
  induction es generalizing done r with
  | nil =>
      obtain ⟨rfl, rfl⟩ := Prod.mk.inj h
      exact ⟨by simp, by simp, hr⟩
  | cons e es ih =>
      rcases remapMembers_cons_cases hstep hr done e es with
        ⟨fault, hselected, hfault, heq⟩ | ⟨next, hnext, he, heq⟩
      · obtain ⟨rfl, rfl⟩ := Prod.mk.inj (heq.symm.trans h)
        exact ⟨[], e, es, ⟨rfl, by simp, hselected, hfault⟩, by simp⟩
      · have hes := ih hnext (heq.symm.trans h)
        cases outcome with
        | ok last =>
            obtain ⟨rfl, hok, hlast⟩ := hes
            exact ⟨by simp, List.forall_mem_cons.mpr ⟨he, hok⟩, hlast⟩
        | error fault =>
            obtain ⟨before, failing, after, hfirst, rfl⟩ := hes
            exact ⟨e :: before, failing, after, hfirst.cons he, by simp⟩

end Members

/-- Members with other owners, of which those before a place also have their renamed
descriptors. -/
def renamedBefore (owner : Text → Text) (rename : Text → Except DescriptorError Text)
    (before rest : List MemberEntry) : List MemberEntry :=
  before.map (.translate owner (renamedWhere mentionsClass rename)) ++
    rest.map (.translate owner id)

/-- The same where the owners have been resolved already, and no descriptor yet. -/
theorem remapMembers_resolved_cases
    {step : Remapper → Text → Except DescriptorError Text × Remapper}
    {table : SymbolTable} {rename : Text → Except DescriptorError Text}
    (hstep : ∀ r next d result, r.table = table → step r d = (result, next) →
      rename d = result ∧ next.table = table)
    {owner : Text → Text} {es es' : List MemberEntry} {r : Remapper}
    {outcome : Except DescriptorError Remapper} (hr : r.table = table)
    (h : remapMembers mentionsClass step [] r (es.map (.translate owner id)) = (es', outcome)) :
    match outcome with
    | .ok next =>
      es' = renamedBefore owner rename es [] ∧
        (∀ e ∈ es, mentionsClass e.descriptor = true → ∃ d, rename e.descriptor = .ok d) ∧
        next.table = table
    | .error fault =>
      ∃ before failing after, FirstFault mentionsClass rename es before failing after fault ∧
        es' = renamedBefore owner rename before (failing :: after) := by
  have htranslate (es : List MemberEntry) :
      (es.map (MemberEntry.translate owner id)).map
          (MemberEntry.translate id (renamedWhere mentionsClass rename)) =
        es.map (MemberEntry.translate owner (renamedWhere mentionsClass rename)) := by
    simp [MemberEntry.translate, Function.comp_def]
  have hcases := remapMembers_cases hstep hr h
  cases outcome with
  | ok next =>
      obtain ⟨rfl, hok, hnext⟩ := hcases
      refine ⟨?_, fun e he => hok (e.translate owner id) (List.mem_map_of_mem he), hnext⟩
      rw [htranslate]
      simp [renamedBefore]
  | error fault =>
      obtain ⟨_, _, _, hfirst, rfl⟩ := hcases
      obtain ⟨before, failing, after, hcut, rfl, hrest⟩ := hfirst.of_map
      refine ⟨before, failing, after, hcut, ?_⟩
      rw [hrest, htranslate]
      rfl

namespace MappingSet

/-- A mapping set with other class names: in the owners of its members, and in those of their
descriptors that mention a class. -/
def renamed (rename : Text → Text) (m : MappingSet) : MappingSet :=
  { m with
    fields := m.fields.map
      (.translate rename (renamedWhere mentionsClass (Descriptor.renameField rename)))
    methods := m.methods.map
      (.translate rename (renamedWhere mentionsClass (Descriptor.renameMethod rename))) }

/-- In a renamed set all members are renamed to the end. -/
theorem renamed_eq_renamedBefore (rename : Text → Text) (m : MappingSet) :
    m.renamed rename = { m with
      fields := renamedBefore rename (Descriptor.renameField rename) m.fields []
      methods := renamedBefore rename (Descriptor.renameMethod rename) m.methods [] } := by
  simp only [renamedBefore, List.map_nil, List.append_nil]
  rfl

/-- Whether every descriptor that mentions a class can be given other class names. -/
def Renamable (rename : Text → Text) (m : MappingSet) : Prop :=
  (∀ e ∈ m.fields, mentionsClass e.descriptor = true →
    ∃ d, Descriptor.renameField rename e.descriptor = .ok d) ∧
  ∀ e ∈ m.methods, mentionsClass e.descriptor = true →
    ∃ d, Descriptor.renameMethod rename e.descriptor = .ok d

instance (result : Except DescriptorError Text) : Decidable (∃ d, result = .ok d) :=
  match result with
  | .ok d => isTrue ⟨d, rfl⟩
  | .error _ => isFalse fun ⟨_, h⟩ => nomatch h

instance (rename : Text → Text) (m : MappingSet) : Decidable (m.Renamable rename) :=
  inferInstanceAs (Decidable (_ ∧ _))

/-- What is left of a set, and how. Without a fault every descriptor that mentions a class could
be renamed, and the set is the renamed one. Otherwise the fault is the first one in the order of
the fields and then the methods: all owners are resolved, the descriptors before it are renamed,
and those from there on are as they were. -/
theorem remap_progress (table : SymbolTable) (m : MappingSet) :
    match m.remap table with
    | (m', .ok _) => m' = m.renamed table.resolve ∧ m.Renamable table.resolve
    | (m', .error fault) =>
      (∃ before failing after,
        FirstFault mentionsClass (remapField table) m.fields before failing after fault ∧
        m' = { m with
          fields := renamedBefore table.resolve (remapField table) before (failing :: after)
          methods := renamedBefore table.resolve (remapMethod table) [] m.methods }) ∨
      ∃ before failing after,
        (∀ e ∈ m.fields, mentionsClass e.descriptor = true →
          ∃ d, remapField table e.descriptor = .ok d) ∧
        FirstFault mentionsClass (remapMethod table) m.methods before failing after fault ∧
        m' = { m with
          fields := renamedBefore table.resolve (remapField table) m.fields []
          methods :=
            renamedBefore table.resolve (remapMethod table) before (failing :: after) } := by
  have howners : m.resolveOwners table = { m with
      fields := m.fields.map (.translate table.resolve id)
      methods := m.methods.map (.translate table.resolve id) } := rfl
  unfold remap remapWhere
  rw [howners]
  dsimp only
  cases hfields : remapMembers mentionsClass Remapper.field [] { table }
      (m.fields.map (.translate table.resolve id)) with
  | mk fields outcome =>
      have hfieldsCases := remapMembers_resolved_cases Remapper.field_follows rfl hfields
      cases outcome with
      | error fault =>
          obtain ⟨before, failing, after, hfirst, rfl⟩ := hfieldsCases
          exact .inl ⟨before, failing, after, hfirst, rfl⟩
      | ok middle =>
          obtain ⟨rfl, hfieldsOk, htable⟩ := hfieldsCases
          dsimp only
          cases hmethods : remapMembers mentionsClass Remapper.method [] middle
              (m.methods.map (.translate table.resolve id)) with
          | mk methods outcome =>
              have hmethodsCases :=
                remapMembers_resolved_cases Remapper.method_follows htable hmethods
              cases outcome with
              | error fault =>
                  obtain ⟨before, failing, after, hfirst, rfl⟩ := hmethodsCases
                  exact .inr ⟨before, failing, after, hfieldsOk, hfirst, rfl⟩
              | ok r =>
                  obtain ⟨rfl, hmethodsOk, -⟩ := hmethodsCases
                  exact ⟨(m.renamed_eq_renamedBefore table.resolve).symm, hfieldsOk, hmethodsOk⟩

/-- A set that is remapped without a fault could be renamed with the names of the table, and it
has been; a set that is remapped with a fault could not. -/
theorem remap_cases {table : SymbolTable} {m m' : MappingSet}
    {outcome : Except DescriptorError Remapper} (h : m.remap table = (m', outcome)) :
    match outcome with
    | .ok _ => m' = m.renamed table.resolve ∧ m.Renamable table.resolve
    | .error _ => ¬ m.Renamable table.resolve := by
  have hprogress := m.remap_progress table
  rw [h] at hprogress
  cases outcome with
  | ok r => exact hprogress
  | error fault =>
      rcases hprogress with ⟨_, _, _, hfirst, -⟩ | ⟨_, _, _, -, hfirst, -⟩
      · exact fun hrenamable => hfirst.not_forall hrenamable.1
      · exact fun hrenamable => hfirst.not_forall hrenamable.2

end MappingSet
end Remapping
