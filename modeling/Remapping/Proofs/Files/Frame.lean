import Remapping.Files.Tree

/-!
# What a change of files leaves alone

Paths are followed through directories, so a change of one file moves no path:
`SameDirectories.locate` is that fact for two file systems with the same directories. `Written`
says that two file systems differ in the contents of one file and nowhere else. Read
`Written.read` first: after a file is written, its path reads as what was written.
-/

namespace Remapping.Files

/-! ## Primitive changes -/

/-- A put node changes no other place. -/
theorem node?_put_other (f : Files) {place other : Location} (node : Node)
    (h : other ≠ place) : (f.put place node).node? other = f.node? other := by
  by_cases hroot : other = []
  · simp [node?, hroot]
  · simp [node?, put, hroot, Ne.symm h, find?_other h]

/-- Removing what stands at a place changes no other place. -/
theorem node?_remove_other (f : Files) {place other : Location} (h : other ≠ place) :
    (f.remove place).node? other = f.node? other := by
  by_cases hroot : other = []
  · simp [node?, hroot]
  · simp [node?, remove, hroot, find?_other h]

/-- Where nothing stands there is nothing to remove. -/
theorem remove_of_absent {f : Files} {place : Location} (h : f.node? place = none) :
    f.remove place = f := by
  have hplace : place ≠ [] := by
    rintro rfl
    simp [node?] at h
  have habsent : ∀ entry ∈ f.nodes, entry.1 ≠ place := by
    simpa [node?, hplace] using h
  have hkept : f.nodes.filter (fun entry => entry.1 ≠ place) = f.nodes :=
    List.filter_eq_self.mpr fun entry hentry => decide_eq_true (habsent entry hentry)
  rw [remove, hkept]

/-- Removing a node that was put where nothing stood gives the files from before. -/
theorem remove_put {f : Files} {place : Location} (h : f.node? place = none) (node : Node) :
    (f.put place node).remove place = f := by
  have htwice : (f.put place node).remove place = (f.remove place).remove place := by
    rw [put, remove, remove, List.filter_cons_of_neg (by simp)]
    rfl
  rw [htwice, remove_of_absent h, remove_of_absent h]

/-! ## Agreement -/

/-- Two file systems with the same working directory and the same at every place that is not
listed. -/
def AgreeOutside (places : List Location) (f g : Files) : Prop :=
  g.workingDirectory = f.workingDirectory ∧ ∀ place ∉ places, g.node? place = f.node? place

namespace AgreeOutside

variable {places : List Location} {f g h : Files}

/-- A file system agrees with itself. -/
theorem refl (places : List Location) (f : Files) : AgreeOutside places f f :=
  ⟨rfl, fun _ _ => rfl⟩

/-- What one change and then another leave alone, both together do. -/
theorem trans (hfirst : AgreeOutside places f g) (hnext : AgreeOutside places g h) :
    AgreeOutside places f h :=
  ⟨hnext.1.trans hfirst.1,
    fun place hplace => (hnext.2 place hplace).trans (hfirst.2 place hplace)⟩

/-- A node put at a listed place leaves the other places alone. -/
theorem put {place : Location} (hplace : place ∈ places) (f : Files) (node : Node) :
    AgreeOutside places f (f.put place node) :=
  ⟨rfl, fun _ hother => node?_put_other f node fun h => hother (h ▸ hplace)⟩

/-- Removing what stands at a listed place leaves the other places alone. -/
theorem remove {place : Location} (hplace : place ∈ places) (f : Files) :
    AgreeOutside places f (f.remove place) :=
  ⟨rfl, fun _ hother => node?_remove_other f fun h => hother (h ▸ hplace)⟩

/-- Steps that each leave the other places alone do so one after the other. -/
theorem foldl {α : Type} {step : Files → α → Files} {as : List α}
    (hstep : ∀ f, ∀ a ∈ as, AgreeOutside places f (step f a)) (f : Files) :
    AgreeOutside places f (as.foldl step f) := by
  induction as generalizing f with
  | nil => exact refl places f
  | cons a as ih =>
      have hrest := ih (fun f b hb => hstep f b (List.mem_cons_of_mem a hb)) (step f a)
      exact (hstep f a List.mem_cons_self).trans hrest

end AgreeOutside

/-! ## Steps -/

/-- Whether a directory stands at a place, if anything does. -/
def kind? (f : Files) (place : Location) : Option Bool :=
  (f.node? place).map fun node => decide (node = .directory)

/-- Something stands at a place exactly if it is of some kind. -/
@[simp] theorem isNone_kind? (f : Files) (place : Location) :
    (f.kind? place).isNone = (f.node? place).isNone := by
  rw [kind?, Option.isNone_map]

/-- A directory stands where the kind says so. -/
@[simp] theorem kind?_eq_some_true (f : Files) (place : Location) :
    f.kind? place = some true ↔ f.node? place = some .directory := by
  simp [kind?]

/-- The place that a name leads to from a directory. -/
def lead (place : Location) (name : Text) : Location :=
  if name = [] ∨ name = [.char '.'] then place
  else if name = Path.up then place.dropLast
  else place ++ [name]

/-- Following a name depends on the kind of what stands at the place. -/
theorem follow_cons (f : Files) (place : Location) (name : Text) (names : List Text) :
    f.follow place (name :: names) =
      match f.kind? place with
      | none => .error .notFound
      | some false => .error .notADirectory
      | some true =>
        if 255 < name.nameBytes.length then .error .nameTooLong
        else f.follow (lead place name) names := by
  rw [follow, kind?]
  cases f.node? place with
  | none => rfl
  | some node =>
      cases node with
      | file contents => rfl
      | directory =>
          simp only [Option.map_some, decide_true, lead]
          split
          · next hname =>
            have hshort : ¬ 255 < name.nameBytes.length := by
              rcases hname with rfl | rfl <;> decide
            rw [if_neg hshort]
          · split
            · next hup =>
              have hshort : ¬ 255 < name.nameBytes.length := by
                subst hup
                decide
              rw [if_neg hshort]
            · rfl

/-! ## Paths -/

/-- Two file systems with the same working directory and the same directories. -/
def SameDirectories (f g : Files) : Prop :=
  g.workingDirectory = f.workingDirectory ∧
    ∀ place, g.node? place = some .directory ↔ f.node? place = some .directory

/-- Names lead to the same place if the directories are the same. -/
theorem SameDirectories.follow {f g : Files} (h : SameDirectories f g) {place target : Location}
    {names : List Text} (hfollow : f.follow place names = .ok target) :
    g.follow place names = .ok target := by
  -- Only directories are passed on the way, so files that differ do not matter.
  induction names generalizing place with
  | nil => exact hfollow
  | cons name names ih =>
      rw [follow_cons] at hfollow
      split at hfollow
      · cases hfollow
      · cases hfollow
      · next hkind =>
        rw [kind?_eq_some_true, ← h.2 place, ← kind?_eq_some_true] at hkind
        rw [follow_cons, hkind]
        split at hfollow
        · cases hfollow
        · next hlength =>
          dsimp only
          rw [if_neg hlength, ih hfollow]

/-- A path names the same place if the directories are the same. -/
theorem SameDirectories.locate {f g : Files} (h : SameDirectories f g) {p : Path}
    {place : Location} (hlocate : f.locate p = .ok place) : g.locate p = .ok place := by
  unfold Files.locate locateNames at *
  split at hlocate
  · simp at hlocate
  · next hnames =>
    rw [if_neg hnames, h.1]
    exact h.follow hlocate

/-- The relation holds in both directions. -/
theorem SameDirectories.symm {f g : Files} (h : SameDirectories f g) : SameDirectories g f :=
  ⟨h.1.symm, fun place => (h.2 place).symm⟩

/-- Two computations after each other give a result exactly if each does. -/
theorem bind_eq_ok_iff {ε α β : Type} {x : Except ε α} {f : α → Except ε β} {b : β} :
    x >>= f = .ok b ↔ ∃ a, x = .ok a ∧ f a = .ok b := by
  cases x with
  | error e => simp [bind, Except.bind]
  | ok a => simp [bind, Except.bind]

/-- A file can be written at a path exactly if the path names a place without a directory. -/
theorem writePlace_eq_ok_iff {f : Files} {p : Path} {place : Location} :
    f.writePlace p = .ok place ↔ f.locate p = .ok place ∧ f.node? place ≠ some .directory := by
  unfold writePlace
  rw [bind_eq_ok_iff]
  constructor
  · intro h
    obtain ⟨found, hlocate, h⟩ := h
    split at h
    · cases h
    · next hnode =>
      obtain rfl := Except.ok.inj h
      exact ⟨hlocate, hnode⟩
  · intro h
    obtain ⟨hlocate, hnode⟩ := h
    exact ⟨place, hlocate, by rw [if_neg hnode]; rfl⟩

/-- A path is fresh exactly if it names a place where nothing stands. -/
theorem freshPlace_eq_ok_iff {f : Files} {p : Path} {place : Location} :
    f.freshPlace p = .ok place ↔ f.locate p = .ok place ∧ f.node? place = none := by
  unfold freshPlace
  rw [bind_eq_ok_iff]
  constructor
  · intro h
    obtain ⟨found, hlocate, h⟩ := h
    split at h
    · cases h
    · next hnode =>
      obtain rfl := Except.ok.inj h
      exact ⟨hlocate, Option.not_isSome_iff_eq_none.mp hnode⟩
  · intro h
    obtain ⟨hlocate, hnode⟩ := h
    exact ⟨place, hlocate, by rw [if_neg (by simp [hnode])]; rfl⟩

/-! ## Written files -/

/-- `g` is `f` with a file at `place`: everything else is as it was. -/
def Written (f : Files) (place : Location) (contents : Bytes) (g : Files) : Prop :=
  g.workingDirectory = f.workingDirectory ∧
    ∀ other, g.node? other = if other = place then some (.file contents) else f.node? other

/-- Putting a file anywhere but at a directory writes it. -/
theorem written_put {f : Files} {place : Location} (h : f.node? place ≠ some .directory)
    (contents : Bytes) : f.Written place contents (f.put place (.file contents)) := by
  have hplace : place ≠ [] := by
    rintro rfl
    exact h rfl
  exact ⟨rfl, fun other => node?_put f _ other hplace⟩

/-- Writing a file anywhere but at a directory keeps the directories. -/
theorem Written.sameDirectories {f g : Files} {place : Location} {contents : Bytes}
    (h : f.Written place contents g) (hplace : f.node? place ≠ some .directory) :
    SameDirectories f g := by
  refine ⟨h.1, fun other => ?_⟩
  rw [h.2 other]
  split
  · next hother => simp [hother, hplace]
  · exact Iff.rfl

/-- Putting a file where one can be written writes it. -/
theorem written_of_writePlace {f : Files} {p : Path} {place : Location}
    (h : f.writePlace p = .ok place) (contents : Bytes) :
    f.Written place contents (f.put place (.file contents)) :=
  written_put (writePlace_eq_ok_iff.mp h).2 contents

/-- After a file is written, its path reads as what was written. -/
theorem Written.read {f g : Files} {p : Path} {place : Location} {contents : Bytes}
    (h : f.Written place contents g) (hplace : f.writePlace p = .ok place) :
    g.read p = .ok contents := by
  obtain ⟨hlocate, hnode⟩ := writePlace_eq_ok_iff.mp hplace
  have hfound : g.node? place = some (.file contents) := by rw [h.2 place, if_pos rfl]
  have hlocated := (h.sameDirectories hnode).locate hlocate
  simp only [Files.read, stat, hlocated, hfound, bind, Except.bind, pure, Except.pure]

/-- A file that was put where nothing stood can be renamed exactly to where a file can be
written; nothing stays behind. -/
theorem rename_put_eq_ok_iff {f g : Files} {temporary : Location} {target : Path}
    {contents : Bytes} (hfresh : f.node? temporary = none) :
    (f.put temporary (.file contents)).rename temporary target = .ok g ↔
      ∃ place, f.writePlace target = .ok place ∧ g = f.put place (.file contents) := by
  have hnode : f.node? temporary ≠ some .directory := by simp [hfresh]
  have hput := written_put hnode contents
  have hsame := hput.sameDirectories hnode
  -- The temporary file is no directory, so the target leads to the same place with and without it.
  have hplace (place : Location) :
      (f.put temporary (.file contents)).writePlace target = .ok place ↔
        f.writePlace target = .ok place := by
    rw [writePlace_eq_ok_iff, writePlace_eq_ok_iff, ne_eq, ne_eq, hsame.2 place]
    exact and_congr_left fun _ => ⟨hsame.symm.locate, hsame.locate⟩
  unfold rename
  rw [bind_eq_ok_iff, hput.2 temporary, if_pos rfl, remove_put hfresh]
  constructor
  · intro h
    obtain ⟨place, hok, hmoved⟩ := h
    exact ⟨place, (hplace place).mp hok, (Except.ok.inj hmoved).symm⟩
  · intro h
    obtain ⟨place, hok, rfl⟩ := h
    exact ⟨place, (hplace place).mpr hok, rfl⟩

/-- Where a file can be written there is no directory. -/
theorem isDirectory_of_writePlace {f : Files} {p : Path} {place : Location}
    (h : f.writePlace p = .ok place) : f.isDirectory p = .ok false := by
  obtain ⟨hlocate, hnode⟩ := writePlace_eq_ok_iff.mp h
  unfold isDirectory test stat
  rw [hlocate]
  cases hfound : f.node? place with
  | none =>
      simp only [bind, Except.bind, hfound]
      rfl
  | some node =>
      cases node with
      | directory => exact absurd hfound hnode
      | file contents =>
          simp only [bind, Except.bind, hfound]
          rfl

/-- A path that can be read exists and is no directory. -/
theorem test_of_read {f : Files} {p : Path} {contents : Bytes} (h : f.read p = .ok contents) :
    f.pathExists p = .ok true ∧ f.isDirectory p = .ok false := by
  obtain ⟨node, hstat, hnode⟩ := bind_eq_ok_iff.mp h
  cases node with
  | directory => cases hnode
  | file found => simp [pathExists, isDirectory, test, hstat]

end Remapping.Files
