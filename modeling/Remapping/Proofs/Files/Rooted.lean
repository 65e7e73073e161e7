import Remapping.Proofs.Files.Shape

/-!
# Paths from the root

A path is followed from the root or from the working directory, but the place of a path is a list
of names from the root. The two agree for paths that only lead down, if the working directory
stands where its own names lead (`Rooted`). Read `Rooted.locate_beside` first: such a path and one
to another name in the same directory meet the same fault or both lead somewhere.
-/

namespace Remapping

/-- Names that each lead from a directory to something in it. -/
def Path.Descends (names : List Text) : Prop :=
  ∀ name ∈ names, name ≠ [] ∧ name ≠ [.char '.'] ∧ name ≠ Path.up

instance (names : List Text) : Decidable (Path.Descends names) := List.decidableBAll _ names

/-- A text with a NUL, or a surrogate that stands for no byte: nothing on the disk is named so. -/
def Text.Unnameable (t : Text) : Prop := ∃ c ∈ t, c.isNameable = false

instance (t : Text) : Decidable t.Unnameable :=
  inferInstanceAs (Decidable (∃ c ∈ t, c.isNameable = false))

/-- A character can stand in a name unless it is the NUL. -/
theorem CodePoint.isNameable_char {c : Char} : isNameable (.char c) = true ↔ c ≠ '\x00' := by
  rw [isNameable, decide_eq_true_eq, nameBytes]
  split
  · next hnul => simp [hnul]
  · next hnul => simp [hnul]

/-- What stands in two texts one after the other stands in one of them. -/
theorem Text.unnameable_append_iff {t u : Text} :
    Text.Unnameable (t ++ u) ↔ Text.Unnameable t ∨ Text.Unnameable u := by
  simp [Text.Unnameable, or_and_right, exists_or]

/-- A path with such a name. -/
def Path.Unnameable (p : Path) : Prop := ∃ name ∈ p.names, Text.Unnameable name

instance (p : Path) : Decidable p.Unnameable :=
  inferInstanceAs (Decidable (∃ name ∈ p.names, Text.Unnameable name))

/-- A path is tested name by name. -/
theorem Path.not_all_isNameable {p : Path} :
    (!p.names.all (·.all CodePoint.isNameable)) = true ↔ p.Unnameable := by
  simp [Unnameable, Text.Unnameable]

/-- The names of a path that is read lead down if none of them leads up. -/
theorem Path.descends_ofText {t : Text} (h : Path.up ∉ (Path.ofText t).names) :
    Path.Descends (Path.ofText t).names := by
  intro name hname
  have hkept := (List.mem_filter.mp hname).2
  rw [Bool.and_eq_true, decide_eq_true_eq, decide_eq_true_eq] at hkept
  exact ⟨hkept.1, hkept.2, fun hup => h (hup ▸ hname)⟩

/-- The place of a path holds no other names than the path and the working directory. -/
theorem Path.mem_place {workingDirectory : Location} {p : Path} {name : Text}
    (h : name ∈ p.place workingDirectory) : name ∈ workingDirectory ∨ name ∈ p.names := by
  have hfold (place : Location) (names : List Text)
      (hmem : name ∈ names.foldl
        (fun place name => if name = Path.up then place.dropLast else place ++ [name]) place) :
      name ∈ place ∨ name ∈ names := by
    induction names generalizing place with
    | nil => exact .inl hmem
    | cons first names ih =>
        rcases ih _ hmem with hplace | hnames
        · dsimp only at hplace
          split at hplace
          · exact .inl (List.dropLast_subset _ hplace)
          · rcases List.mem_append.mp hplace with hplace | hfirst
            · exact .inl hplace
            · exact .inr (List.mem_singleton.mp hfirst ▸ List.mem_cons_self)
        · exact .inr (List.mem_cons_of_mem _ hnames)
  rcases hfold _ _ h with hstart | hnames
  · split at hstart
    · cases hstart
    · exact .inl hstart
  · exact .inr hnames

/-- The place of a path that leads down has all its names. -/
theorem Path.place_eq_append {p : Path} (h : Path.Descends p.names) (workingDirectory : Location) :
    p.place workingDirectory = (if p.absolute then [] else workingDirectory) ++ p.names := by
  have hfold (place : Location) {names : List Text} (hnames : Path.Descends names) :
      names.foldl (fun place name => if name = Path.up then place.dropLast else place ++ [name])
        place = place ++ names := by
    induction names generalizing place with
    | nil => rw [List.append_nil]; rfl
    | cons name names ih =>
        obtain ⟨hname, hnames⟩ := List.forall_mem_cons.mp hnames
        rw [List.foldl_cons, if_neg hname.2.2, ih _ hnames, List.append_assoc,
          List.singleton_append]
  exact hfold _ h

/-- The last name of a path comes after the others. -/
theorem Path.names_eq {p : Path} (h : p.names ≠ []) : p.names = p.names.dropLast ++ [p.name] := by
  obtain ⟨names, last, hlast⟩ := List.eq_nil_or_concat p.names |>.resolve_left h
  rw [name, hlast, List.concat_eq_append, List.dropLast_concat, List.getLastD_concat]

/-- The path from the root to another name in the directory of a path. -/
def Path.beside (workingDirectory : Location) (p : Path) (other : Text) : Path :=
  .ofLocation (p.parent.place workingDirectory ++ [other])

/-- A path has an unnameable name if a path beside it does, the working directory does not, and the
other name is not to blame. -/
theorem Path.unnameable_of_beside {workingDirectory : Location} {p : Path} {other : Text}
    (hworking : ∀ name ∈ workingDirectory, ¬ Text.Unnameable name)
    (hother : Text.Unnameable other → p.Unnameable)
    (h : (p.beside workingDirectory other).Unnameable) : p.Unnameable := by
  obtain ⟨name, hname, hinvalid⟩ := h
  rcases List.mem_append.mp hname with hname | hname
  · rcases Path.mem_place hname with hname | hname
    · exact absurd hinvalid (hworking name hname)
    · exact ⟨name, List.dropLast_subset _ hname, hinvalid⟩
  · exact hother (List.mem_singleton.mp hname ▸ hinvalid)

/-- A path beside one that leads down has its directory. -/
theorem Path.names_beside {p : Path} (h : Path.Descends p.names) (workingDirectory : Location)
    (other : Text) : (p.beside workingDirectory other).names =
      (if p.absolute then [] else workingDirectory) ++ (p.names.dropLast ++ [other]) := by
  have hparent : Path.Descends p.parent.names := fun name hname =>
    h name (List.dropLast_subset _ hname)
  have hplace := Path.place_eq_append hparent workingDirectory
  show p.parent.place workingDirectory ++ [other] = _
  rw [hplace, List.append_assoc]
  rfl

namespace Files

variable {f : Files} {p : Path}

/-! ## Following names -/

/-- Names are followed one part after the other. -/
theorem follow_append (f : Files) (place : Location) (names more : List Text) :
    f.follow place (names ++ more) =
      f.follow place names >>= fun target => f.follow target more := by
  induction names generalizing place with
  | nil => rfl
  | cons name names ih =>
      rw [List.cons_append, follow_cons, follow_cons]
      split
      · rfl
      · rfl
      · split
        · rfl
        · exact ih (lead place name)

/-- Names that lead down lead to the place below that they name. -/
theorem eq_append_of_follow {place target : Location} {names : List Text}
    (hnames : Path.Descends names) (h : f.follow place names = .ok target) :
    target = place ++ names := by
  induction names generalizing place with
  | nil =>
      rw [List.append_nil]
      exact (Except.ok.inj h).symm
  | cons name names ih =>
      obtain ⟨⟨hempty, hdot, hup⟩, hnames⟩ := List.forall_mem_cons.mp hnames
      have hlead : lead place name = place ++ [name] := by
        rw [lead, if_neg (by simp [hempty, hdot]), if_neg hup]
      rw [follow_cons] at h
      split at h
      · cases h
      · cases h
      · split at h
        · cases h
        · rw [ih hnames h, hlead, List.append_assoc, List.singleton_append]

/-- Whether one name can be followed from a place does not depend on the name, but for its
length. -/
theorem follow_singleton_map_eq (f : Files) (place : Location) {name other : Text}
    (hname : name.nameBytes.length ≤ 255) (hother : other.nameBytes.length ≤ 255) :
    (f.follow place [other]).map (fun _ => ()) = (f.follow place [name]).map fun _ => () := by
  rw [follow_cons, follow_cons]
  split
  · rfl
  · rfl
  · rw [if_neg (Nat.not_lt.mpr hname), if_neg (Nat.not_lt.mpr hother)]
    rfl

/-- No names are followed to an invalid name. -/
theorem follow_ne_invalidName (f : Files) (place : Location) (names : List Text) :
    f.follow place names ≠ .error .invalidName := by
  induction names generalizing place with
  | nil => simp [follow]
  | cons name names ih =>
      rw [follow_cons]
      split
      · simp
      · simp
      · split
        · simp
        · exact ih (lead place name)

/-- A path has an invalid name exactly if nothing on the disk has one of its names. -/
theorem locate_eq_invalidName_iff :
    f.locate p = .error .invalidName ↔ p.Unnameable := by
  rw [locate_eq_follow, ← Path.not_all_isNameable]
  split
  · next h => exact iff_of_true rfl h
  · next h => exact iff_of_false (follow_ne_invalidName f _ _) h

/-- A path of names that the disk can have is followed from its start. -/
theorem locate_of_valid (h : ¬ p.Unnameable) :
    f.locate p = f.follow (f.start p) p.names := by
  rw [locate_eq_follow, if_neg (mt Path.not_all_isNameable.mp h)]

/-! ## Where files can be written -/

/-- The test for a directory tells where the path leads and what stands there. -/
theorem isDirectory_eq_match (f : Files) (p : Path) : f.isDirectory p =
    match f.locate p with
    | .ok place => .ok (f.node? place = some .directory)
    | .error .nameTooLong => .error { fault := .nameTooLong, path := p.toText }
    | .error _ => .ok false := by
  unfold isDirectory test stat
  cases f.locate p with
  | error fault => cases fault <;> rfl
  | ok place =>
      simp only [bind, Except.bind]
      cases f.node? place with
      | none => rfl
      | some node => simp [pure, Except.pure]

/-- A path leads to where a file can be written unless it leads to a directory or nowhere. -/
theorem writePlace_eq_locate (h : f.isDirectory p = .ok false) : f.writePlace p = f.locate p := by
  rw [isDirectory_eq_match] at h
  unfold writePlace
  cases hlocate : f.locate p with
  | error fault => rfl
  | ok place =>
      rw [hlocate] at h
      have hnode : ¬ f.node? place = some .directory := by simpa using h
      show (if f.node? place = some .directory then _ else _) = _
      rw [if_neg hnode]
      rfl

/-! ## Rooted file systems -/

/-- The working directory is a directory, and its own names lead to it from the root. -/
structure Rooted (f : Files) : Prop where
  located : f.locate (.ofLocation f.workingDirectory) = .ok f.workingDirectory
  directory : f.node? f.workingDirectory = some .directory

namespace Rooted

/-- The disk can have every name of the working directory. -/
theorem nameable_of_mem (h : f.Rooted) :
    ∀ name ∈ f.workingDirectory, ¬ Text.Unnameable name := by
  intro name hname hinvalid
  have hinvalid : f.locate (.ofLocation f.workingDirectory) = .error .invalidName :=
    locate_eq_invalidName_iff.mpr ⟨name, hname, hinvalid⟩
  cases h.located.symm.trans hinvalid

/-- Whatever is followed from the start of a path can be followed from the root. -/
theorem follow_root (h : f.Rooted) (p : Path) (names : List Text) :
    f.follow [] (f.start p ++ names) = f.follow (f.start p) names := by
  rw [start]
  split
  · rfl
  · have hworking : f.follow [] f.workingDirectory = .ok f.workingDirectory := by
      have hvalid : ¬ (Path.ofLocation f.workingDirectory).Unnameable := fun hinvalid => by
        obtain ⟨name, hname, hinvalid⟩ := hinvalid
        exact h.nameable_of_mem name hname hinvalid
      exact (locate_of_valid hvalid).symm.trans h.located
    rw [follow_append, hworking]
    rfl

/-- A path without names leads to a directory. -/
theorem isDirectory_of_names_nil (h : f.Rooted) (hp : p.names = []) :
    f.isDirectory p = .ok true := by
  have hlocate : f.locate p = .ok (f.start p) := by
    rw [locate_of_valid (by simp [Path.Unnameable, hp]), hp, follow]
  have hnode : f.node? (f.start p) = some .directory := by
    rw [start]
    split
    · rfl
    · exact h.directory
  rw [isDirectory_eq_match, hlocate]
  simp [hnode]

/-- A path beside one that leads down is followed through the same directory. -/
theorem locate_beside_eq (h : f.Rooted) (hp : Path.Descends p.names) {other : Text}
    (hvalid : ¬ (p.beside f.workingDirectory other).Unnameable) :
    f.locate (p.beside f.workingDirectory other) =
      f.follow (f.start p) (p.names.dropLast ++ [other]) := by
  rw [locate_of_valid hvalid, Path.names_beside hp]
  exact h.follow_root p _

/-- A path that leads down, and the path from the root to another name in the same directory, meet
the same fault or both lead somewhere. -/
theorem locate_beside (h : f.Rooted) (hp : Path.Descends p.names) (hne : p.names ≠ [])
    (hlength : p.name.nameBytes.length ≤ 255) {other : Text} (hother : other.nameBytes.length ≤ 255)
    (hsame : Text.Unnameable other ↔ p.name.Unnameable) :
    (f.locate (p.beside f.workingDirectory other)).map (fun _ => ()) =
      (f.locate p).map fun _ => () := by
  have hnames := Path.names_eq hne
  have hboth : (p.beside f.workingDirectory other).Unnameable ↔ p.Unnameable := by
    constructor
    · refine Path.unnameable_of_beside h.nameable_of_mem fun hmem => ⟨p.name, ?_, hsame.mp hmem⟩
      rw [hnames]
      exact List.mem_append_right _ List.mem_cons_self
    · intro hinvalid
      obtain ⟨name, hname, hmem⟩ := hinvalid
      rw [hnames] at hname
      rw [Path.Unnameable, Path.names_beside hp]
      rcases List.mem_append.mp hname with hname | hname
      · exact ⟨name, by simp [hname], hmem⟩
      · exact ⟨other, by simp, hsame.mpr (List.mem_singleton.mp hname ▸ hmem)⟩
  by_cases hvalid : p.Unnameable
  · rw [locate_eq_invalidName_iff.mpr hvalid, locate_eq_invalidName_iff.mpr (hboth.mpr hvalid)]
  · rw [h.locate_beside_eq hp (mt hboth.mp hvalid), locate_of_valid hvalid, hnames,
      List.dropLast_concat, follow_append, follow_append]
    cases f.follow (f.start p) p.names.dropLast with
    | error fault => rfl
    | ok place => exact f.follow_singleton_map_eq place hlength hother

/-- A path beside one that leads down leads to the place that it names. -/
theorem eq_of_locate_beside (h : f.Rooted) (hp : Path.Descends p.names) {other : Text}
    (hother : Path.Descends [other]) {place : Location}
    (hlocate : f.locate (p.beside f.workingDirectory other) = .ok place) :
    place = (p.beside f.workingDirectory other).names := by
  have hvalid : ¬ (p.beside f.workingDirectory other).Unnameable := fun hinvalid => by
    cases hlocate.symm.trans (locate_eq_invalidName_iff.mpr hinvalid)
  rw [h.locate_beside_eq hp hvalid] at hlocate
  rw [Path.names_beside hp]
  refine eq_append_of_follow (fun name hname => ?_) hlocate
  rcases List.mem_append.mp hname with hname | hname
  · exact hp name (List.dropLast_subset _ hname)
  · exact hother name hname

end Rooted
end Files
end Remapping
