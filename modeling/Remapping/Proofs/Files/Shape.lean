import Remapping.Proofs.Files.Frame

/-!
# The shape of files

Paths are followed through directories and lead to files, whatever the files hold. `SameShape`
compares two file systems by what kind of node stands at each place, `way` lists the places
that are looked at on the way along a path, and `Apart` says that a path keeps off some places.
Read `SameShape.locate_eq` first: a path that keeps off the places where two file systems differ
in shape leads to the same place in both, or meets the same fault.
-/

namespace Remapping.Files

/-! ## Shapes -/

/-- Two file systems with the same working directory and nodes of the same kinds at every place
that is not listed. -/
def SameShape (places : List Location) (f g : Files) : Prop :=
  g.workingDirectory = f.workingDirectory ∧ ∀ place ∉ places, g.kind? place = f.kind? place

/-- File systems that agree have the same shape. -/
theorem AgreeOutside.sameShape {places : List Location} {f g : Files}
    (h : AgreeOutside places f g) : SameShape places f g := by
  refine ⟨h.1, fun place hplace => ?_⟩
  rw [kind?, kind?, h.2 place hplace]

/-- File systems that agree outside a place where a file stands in both have the same shape. -/
theorem AgreeOutside.sameShape_of_file {place : Location} {f g : Files} {bytes bytes' : Bytes}
    (h : AgreeOutside [place] f g) (hf : f.node? place = some (.file bytes))
    (hg : g.node? place = some (.file bytes')) : SameShape [] f g := by
  refine ⟨h.1, fun other _ => ?_⟩
  by_cases hother : other = place
  · simp [kind?, hother, hf, hg]
  · rw [kind?, kind?, h.2 other (by simpa using hother)]

/-! ## Ways -/

/-- The places that are looked at when names are followed, up to the first that is no
directory. -/
def way (f : Files) (place : Location) : List Text → List Location
  | [] => [place]
  | name :: names =>
    place :: if f.kind? place = some true then f.way (lead place name) names else []

/-- The place that a path starts from. -/
def start (f : Files) (p : Path) : Location := if p.absolute then [] else f.workingDirectory

/-- A path keeps off some places. -/
def Apart (places : List Location) (f : Files) (p : Path) : Prop :=
  ∀ place ∈ f.way (f.start p) p.names, place ∉ places

/-- A path names the place that its names lead to from its start. -/
theorem locate_eq_follow (f : Files) (p : Path) : f.locate p =
    if !p.names.all (·.all CodePoint.isNameable) then .error .invalidName
    else f.follow (f.start p) p.names := rfl

/-- A path keeps off no places. -/
theorem apart_nil (f : Files) (p : Path) : Apart [] f p := fun _ _ => List.not_mem_nil

/-- Names lead to the last place on their way. -/
theorem mem_way_of_follow {f : Files} {place target : Location} {names : List Text}
    (h : f.follow place names = .ok target) : target ∈ f.way place names := by
  induction names generalizing place with
  | nil =>
      obtain rfl := Except.ok.inj h
      exact List.mem_singleton_self place
  | cons name names ih =>
      rw [follow_cons] at h
      split at h
      · cases h
      · cases h
      · next hkind =>
        split at h
        · cases h
        · rw [way, if_pos hkind]
          exact List.mem_cons_of_mem _ (ih h)

/-- Names are followed the same way in file systems that have the same shape along it. -/
theorem follow_eq_of_way {f g : Files} {place : Location} {names : List Text}
    (h : ∀ other ∈ f.way place names, g.kind? other = f.kind? other) :
    g.follow place names = f.follow place names ∧ g.way place names = f.way place names := by
  induction names generalizing place with
  | nil => exact ⟨rfl, rfl⟩
  | cons name names ih =>
      have hkind : g.kind? place = f.kind? place := h place List.mem_cons_self
      rw [follow_cons, follow_cons, way, way, hkind]
      cases hplace : f.kind? place with
      | none => exact ⟨rfl, rfl⟩
      | some directory =>
          cases directory with
          | false => exact ⟨rfl, rfl⟩
          | true =>
              have hrest : ∀ other ∈ f.way (lead place name) names,
                  g.kind? other = f.kind? other := fun other hother => by
                refine h other ?_
                rw [way, if_pos hplace]
                exact List.mem_cons_of_mem _ hother
              obtain ⟨hfollow, hway⟩ := ih hrest
              rw [hfollow, hway]
              exact ⟨rfl, rfl⟩

/-- The way depends on the directories alone. -/
theorem way_eq_of_sameDirectories {f g : Files} (h : SameDirectories f g) (place : Location)
    (names : List Text) : g.way place names = f.way place names := by
  induction names generalizing place with
  | nil => rfl
  | cons name names ih =>
      have hdirectory : g.kind? place = some true ↔ f.kind? place = some true := by
        rw [kind?_eq_some_true, kind?_eq_some_true]
        exact h.2 place
      simp only [way, ih, hdirectory]

/-- A path keeps off the same places if the directories are the same. -/
theorem SameDirectories.apart {places : List Location} {f g : Files} {p : Path}
    (h : SameDirectories f g) (hp : f.Apart places p) : g.Apart places p := by
  rw [Apart, start, h.1, way_eq_of_sameDirectories h]
  exact hp

/-- A path that keeps off some places leads to none of them. -/
theorem Apart.not_mem_of_locate {places : List Location} {f : Files} {p : Path} {place : Location}
    (hp : f.Apart places p) (hlocate : f.locate p = .ok place) : place ∉ places := by
  rw [locate_eq_follow] at hlocate
  split at hlocate
  · cases hlocate
  · exact hp place (mem_way_of_follow hlocate)

namespace SameShape

variable {places : List Location} {f g : Files} {p : Path}

/-- The same node put at the same place keeps the shape the same. -/
theorem put (h : SameShape places f g) (place : Location) (node : Node) :
    SameShape places (f.put place node) (g.put place node) := by
  refine ⟨h.1, fun other hother => ?_⟩
  by_cases hplace : other = place
  · subst hplace
    simp [kind?, node?, Files.put]
  · rw [kind?, kind?, node?_put_other f node hplace, node?_put_other g node hplace]
    exact h.2 other hother

/-- The shapes are the same on the way of a path that keeps off the places where they differ. -/
theorem kind?_eq_of_way (h : SameShape places f g) (hp : f.Apart places p) :
    ∀ other ∈ f.way (f.start p) p.names, g.kind? other = f.kind? other :=
  fun other hother => h.2 other (hp other hother)

/-- Paths start from the same place. -/
theorem start_eq (h : SameShape places f g) (p : Path) : g.start p = f.start p := by
  rw [start, start, h.1]

/-- A path that keeps off the places where the shapes differ leads to the same place, or meets
the same fault. -/
theorem locate_eq (h : SameShape places f g) (hp : f.Apart places p) :
    g.locate p = f.locate p := by
  rw [locate_eq_follow, locate_eq_follow, h.start_eq, (follow_eq_of_way (h.kind?_eq_of_way hp)).1]

/-- A path keeps off these places in both. -/
theorem apart (h : SameShape places f g) (hp : f.Apart places p) : g.Apart places p := by
  rw [Apart, h.start_eq, (follow_eq_of_way (h.kind?_eq_of_way hp)).2]
  exact hp

/-- What is done with the place of a path and the kind of node there is the same in both. -/
theorem bind_locate_eq {α : Type} (h : SameShape places f g) (hp : f.Apart places p)
    (next : Location → Option Bool → Except FileFault α) :
    (g.locate p >>= fun place => next place (g.kind? place)) =
      f.locate p >>= fun place => next place (f.kind? place) := by
  rw [h.locate_eq hp]
  cases hlocate : f.locate p with
  | error fault => rfl
  | ok place =>
      have hplace := hp.not_mem_of_locate hlocate
      show next place (g.kind? place) = next place (f.kind? place)
      rw [h.2 place hplace]

/-- A file can be written at the same paths. -/
theorem writePlace_eq (h : SameShape places f g) (hp : f.Apart places p) :
    g.writePlace p = f.writePlace p := by
  have hplaces (k : Files) : k.writePlace p = k.locate p >>= fun place =>
      if k.kind? place = some true then .error .isADirectory else .ok place := by
    unfold writePlace
    refine congrArg (k.locate p >>= ·) (funext fun place => ?_)
    simp only [kind?_eq_some_true]
    split <;> rfl
  rw [hplaces, hplaces]
  exact h.bind_locate_eq hp fun place kind =>
    if kind = some true then .error .isADirectory else .ok place

/-- The same paths are fresh. -/
theorem freshPlace_eq (h : SameShape places f g) (hp : f.Apart places p) :
    g.freshPlace p = f.freshPlace p := by
  have hplaces (k : Files) : k.freshPlace p = k.locate p >>= fun place =>
      if (k.kind? place).isSome then .error .alreadyExists else .ok place := by
    unfold freshPlace
    refine congrArg (k.locate p >>= ·) (funext fun place => ?_)
    rw [kind?, Option.isSome_map]
    split <;> rfl
  rw [hplaces, hplaces]
  exact h.bind_locate_eq hp fun place kind =>
    if kind.isSome then .error .alreadyExists else .ok place

/-- Directories stand at the same paths. -/
theorem isDirectory_eq (h : SameShape places f g) (hp : f.Apart places p) :
    g.isDirectory p = f.isDirectory p := by
  unfold isDirectory test stat
  rw [h.locate_eq hp]
  cases hlocate : f.locate p with
  | error fault => rfl
  | ok place =>
      -- The test looks at the node, but at nothing more of it than its kind.
      have hkind := h.2 place (hp.not_mem_of_locate hlocate)
      unfold kind? at hkind
      simp only [bind, Except.bind]
      cases hnode : f.node? place with
      | none =>
          rw [hnode, Option.map_none, Option.map_eq_none_iff] at hkind
          rw [hkind]
      | some node =>
          rw [hnode, Option.map_some, Option.map_eq_some_iff] at hkind
          obtain ⟨node', hnode', hsame⟩ := hkind
          rw [hnode']
          exact congrArg Except.ok hsame

/-- The node at a place can be moved to the same paths, and is kept from others by the same
faults. -/
theorem rename_eq (h : SameShape places f g) (hp : f.Apart places p) {place : Location}
    (hplace : place ∉ places) :
    (g.rename place p).map (fun _ => ()) = (f.rename place p).map fun _ => () := by
  have hrename (k : Files) : (k.rename place p).map (fun _ => ()) =
      k.writePlace p >>= fun _ => (k.kind? place).elim (.error .notFound) fun _ => .ok () := by
    unfold rename kind?
    cases k.writePlace p with
    | error fault => rfl
    | ok target =>
        simp only [bind, Except.bind]
        cases k.node? place <;> rfl
  rw [hrename, hrename, h.writePlace_eq hp, h.2 place hplace]

end SameShape

/-! ## Contents -/

/-- A path that leads to the same place in two file systems, and to none where they differ, reads
the same in both. -/
theorem AgreeOutside.read_eq_of_locate {places : List Location} {f g : Files} {p : Path}
    (h : AgreeOutside places f g) (hsame : g.locate p = f.locate p)
    (hp : ∀ place ∈ places, f.locate p ≠ .ok place) : g.read p = f.read p := by
  unfold read stat
  rw [hsame]
  cases hlocate : f.locate p with
  | error fault => rfl
  | ok place =>
      have hplace : place ∉ places := fun hmem => hp place hmem hlocate
      simp only [bind, Except.bind, h.2 place hplace]

/-- A path that keeps off the places where two file systems differ reads the same in both. -/
theorem AgreeOutside.read_eq_of_apart {places : List Location} {f g : Files} {p : Path}
    (h : AgreeOutside places f g) (hp : f.Apart places p) : g.read p = f.read p :=
  h.read_eq_of_locate (h.sameShape.locate_eq hp)
    fun _ hmem hlocate => hp.not_mem_of_locate hlocate hmem

/-- A path reads the same in file systems that agree everywhere. -/
theorem AgreeOutside.read_eq {f g : Files} (h : AgreeOutside [] f g) (p : Path) :
    g.read p = f.read p :=
  h.read_eq_of_apart (f.apart_nil p)

end Remapping.Files
