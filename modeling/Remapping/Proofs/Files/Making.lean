import Remapping.Proofs.Files.Shape

/-!
# Making directories

Directories are made along a path, one below the other, and nothing that stood there before is
touched: `Extends` says so of two file systems, and what could be read before reads the same
afterwards. `trail` lists the places that a path can come by, whatever stands there. Read
`SameShape.saveable` first: a file system in which a file can be saved at a path may differ from
another one off the trail of the path, and a file can be saved at the path there too.
-/

namespace Remapping.Files

/-- A path is read as the contents of the file at its place. -/
theorem read_eq_ok_iff {f : Files} {p : Path} {contents : Bytes} :
    f.read p = .ok contents ↔
      ∃ place, f.locate p = .ok place ∧ f.node? place = some (.file contents) := by
  unfold read stat
  cases hlocate : f.locate p with
  | error fault => simp [bind, Except.bind]
  | ok place =>
      cases hnode : f.node? place with
      | none => simp [bind, Except.bind, hnode, throw, throwThe, MonadExceptOf.throw]
      | some node =>
          cases node <;>
            simp [bind, Except.bind, hnode, pure, Except.pure, throw, throwThe,
              MonadExceptOf.throw]

/-! ## Extended files -/

/-- `g` is `f` with more files and directories: what stands in `f` stands in `g`. -/
def Extends (f g : Files) : Prop :=
  g.workingDirectory = f.workingDirectory ∧
    ∀ place node, f.node? place = some node → g.node? place = some node

namespace Extends

variable {f g h : Files}

/-- A file system extends itself. -/
theorem refl (f : Files) : Extends f f := ⟨rfl, fun _ _ hnode => hnode⟩

/-- One extension after another is an extension. -/
theorem trans (hfirst : Extends f g) (hnext : Extends g h) : Extends f h :=
  ⟨hnext.1.trans hfirst.1, fun place node hnode => hnext.2 place node (hfirst.2 place node hnode)⟩

/-- A node put where nothing stood extends the files. -/
theorem put {place : Location} (habsent : f.node? place = none) (node : Node) :
    Extends f (f.put place node) := by
  refine ⟨rfl, fun other found hfound => ?_⟩
  have hother : other ≠ place := by
    rintro rfl
    cases habsent.symm.trans hfound
  rw [node?_put_other f node hother, hfound]

/-- Names that lead somewhere lead to the same place in extended files. -/
theorem follow (hmore : Extends f g) {place target : Location} {names : List Text}
    (hfollow : f.follow place names = .ok target) : g.follow place names = .ok target := by
  induction names generalizing place with
  | nil => exact hfollow
  | cons name names ih =>
      rw [follow_cons] at hfollow
      split at hfollow
      · cases hfollow
      · cases hfollow
      · next hkind =>
        have hdirectory := hmore.2 place .directory ((kind?_eq_some_true f place).mp hkind)
        rw [follow_cons, (kind?_eq_some_true g place).mpr hdirectory]
        split at hfollow
        · cases hfollow
        · next hlength =>
          dsimp only
          rw [if_neg hlength, ih hfollow]

/-- A path that names a place names the same one in extended files. -/
theorem locate (hmore : Extends f g) {p : Path} {place : Location}
    (hlocate : f.locate p = .ok place) : g.locate p = .ok place := by
  rw [locate_eq_follow] at *
  split at hlocate
  · cases hlocate
  · next hnames =>
    rw [if_neg hnames, start, hmore.1]
    exact hmore.follow hlocate

/-- What can be read reads the same in extended files. -/
theorem read (hmore : Extends f g) {p : Path} {contents : Bytes}
    (hread : f.read p = .ok contents) : g.read p = .ok contents := by
  obtain ⟨place, hlocate, hnode⟩ := read_eq_ok_iff.mp hread
  exact read_eq_ok_iff.mpr ⟨place, hmore.locate hlocate, hmore.2 _ _ hnode⟩

end Extends

/-- A directory is made at a path by putting it at its place, where nothing stands. -/
theorem makeDirectory_eq_ok_iff {f made : Files} {p : Path} :
    f.makeDirectory p = .ok made ↔
      ∃ place, f.freshPlace p = .ok place ∧ made = f.put place .directory := by
  rw [makeDirectory]
  cases f.freshPlace p with
  | error fault => simp [Except.map]
  | ok place => simp [Except.map, eq_comm]

/-- A directory cannot be made at a path if there is no place for it. -/
theorem makeDirectory_eq_error_iff {f : Files} {p : Path} {fault : FileFault} :
    f.makeDirectory p = .error fault ↔ f.freshPlace p = .error fault := by
  rw [makeDirectory]
  cases f.freshPlace p <;> simp [Except.map]

/-- Making a directory extends the files. -/
theorem extends_makeDirectory {f made : Files} {p : Path} (h : f.makeDirectory p = .ok made) :
    Extends f made := by
  obtain ⟨place, hfresh, rfl⟩ := makeDirectory_eq_ok_iff.mp h
  exact .put (freshPlace_eq_ok_iff.mp hfresh).2 .directory

/-- Making a directory unless there is one, and some above it, extends the files. -/
theorem extends_ensureDirectory (f : Files) (n : Nat) (p : Path) :
    Extends f (f.ensureDirectory n p).1 := by
  fun_induction ensureDirectory f n p with
  | case1 f n p made hmade => exact extends_makeDirectory hmade
  | case2 f p n hmissing above habove ihparent ih =>
      rw [habove] at ihparent
      exact ihparent.trans ih
  | case3 f p n hmissing above e habove ihparent =>
      rw [habove] at ihparent
      exact ihparent
  | case4 | case5 => exact .refl _

/-- Making the directories of a path extends the files. -/
theorem extends_makeDirectories {f made : Files} {p : Path} {outcome : Except FileError Unit}
    (h : f.makeDirectories p = (made, outcome)) : Extends f made := by
  have hextends := extends_ensureDirectory f p.names.length p
  rwa [← makeDirectories, h] at hextends

/-! ## Trails -/

/-- The places that names can lead to from a place one after the other, whatever stands there. -/
def trail (place : Location) : List Text → List Location
  | [] => [place]
  | name :: names => place :: trail (lead place name) names

/-- The places that are looked at are on the trail. -/
theorem way_subset_trail (f : Files) (place : Location) (names : List Text) :
    f.way place names ⊆ trail place names := by
  induction names generalizing place with
  | nil => exact List.Subset.refl _
  | cons name names ih =>
      rw [way, trail]
      refine List.cons_subset_cons place ?_
      split
      · exact ih (lead place name)
      · exact List.nil_subset _

/-- A path that ends sooner has no more places on its trail. -/
theorem trail_dropLast_subset (place : Location) (names : List Text) :
    trail place names.dropLast ⊆ trail place names := by
  induction names generalizing place with
  | nil => exact List.Subset.refl _
  | cons name names ih =>
      cases names with
      | nil => exact List.cons_subset_cons place (List.nil_subset _)
      | cons next names => exact List.cons_subset_cons place (ih (lead place name))

/-- A path keeps clear of some places: its trail has none of them. -/
def Clear (places : List Location) (f : Files) (p : Path) : Prop :=
  ∀ place ∈ trail (f.start p) p.names, place ∉ places

namespace Clear

variable {places : List Location} {f g : Files} {p : Path}

/-- A path that keeps clear of some places keeps off them, whatever stands there. -/
theorem apart (h : Clear places f p) : Apart places f p :=
  fun place hplace => h place (way_subset_trail f _ _ hplace)

/-- The path to the directory of a file keeps clear of the same places. -/
theorem parent (h : Clear places f p) : Clear places f p.parent :=
  fun place hplace => h place (trail_dropLast_subset _ _ hplace)

/-- A path keeps clear of the same places from the same working directory. -/
theorem of_workingDirectory (h : Clear places f p)
    (hworking : g.workingDirectory = f.workingDirectory) : Clear places g p := by
  rw [Clear, start, hworking]
  exact h

end Clear

/-! ## Saving files -/

namespace SameShape

variable {places : List Location} {f g : Files} {p : Path}

/-- A directory that is made at a path that keeps off the places where the shapes differ keeps them
the same elsewhere. -/
theorem makeDirectory (h : SameShape places f g) (hp : Apart places f p) {made : Files}
    (hmade : f.makeDirectory p = .ok made) :
    ∃ made', g.makeDirectory p = .ok made' ∧ SameShape places made made' := by
  obtain ⟨place, hfresh, rfl⟩ := makeDirectory_eq_ok_iff.mp hmade
  rw [← h.freshPlace_eq hp] at hfresh
  exact ⟨_, makeDirectory_eq_ok_iff.mpr ⟨place, hfresh, rfl⟩, h.put place .directory⟩

/-- A directory that cannot be made at such a path meets the same fault. -/
theorem makeDirectory_error (h : SameShape places f g) (hp : Apart places f p) {fault : FileFault}
    (hfault : f.makeDirectory p = .error fault) : g.makeDirectory p = .error fault := by
  rw [makeDirectory_eq_error_iff, h.freshPlace_eq hp]
  exact makeDirectory_eq_error_iff.mp hfault

/-- The same directories are made along a path that keeps clear of the places where the shapes
differ, or the same error is met. -/
theorem ensureDirectory (h : SameShape places f g) (hp : Clear places f p) (n : Nat) :
    (g.ensureDirectory n p).2 = (f.ensureDirectory n p).2 ∧
      SameShape places (f.ensureDirectory n p).1 (g.ensureDirectory n p).1 := by
  fun_induction Files.ensureDirectory f n p generalizing g with
  | case1 f n p made hmade =>
      obtain ⟨made', hmade', hsame⟩ := h.makeDirectory hp.apart hmade
      rw [Files.ensureDirectory.eq_1 _ _ _ _ hmade']
      exact ⟨rfl, hsame⟩
  | case2 f p n hmissing above habove ihparent ih =>
      obtain ⟨houtcome, hsame⟩ := ihparent h hp.parent
      rw [habove] at houtcome hsame
      have hworking := (extends_ensureDirectory f n p.parent).1
      rw [habove] at hworking
      rw [Files.ensureDirectory.eq_2 _ _ _ (h.makeDirectory_error hp.apart hmissing),
        ← Prod.eta (g.ensureDirectory n p.parent), houtcome]
      exact ih hsame (hp.of_workingDirectory hworking)
  | case3 f p n hmissing above e habove ihparent =>
      obtain ⟨houtcome, hsame⟩ := ihparent h hp.parent
      rw [habove] at houtcome hsame
      rw [Files.ensureDirectory.eq_2 _ _ _ (h.makeDirectory_error hp.apart hmissing),
        ← Prod.eta (g.ensureDirectory n p.parent), houtcome]
      exact ⟨rfl, hsame⟩
  | case4 f n p fault hfault hdirectory hlast =>
      rw [Files.ensureDirectory.eq_3 _ _ _ _ (h.makeDirectory_error hp.apart hfault) hlast,
        h.isDirectory_eq hp.apart, hdirectory]
      exact ⟨rfl, h⟩
  | case5 f n p fault hfault hlast hdirectory =>
      rw [Files.ensureDirectory.eq_3 _ _ _ _ (h.makeDirectory_error hp.apart hfault) hlast,
        h.isDirectory_eq hp.apart]
      split
      · next hfound => exact (hdirectory hfound).elim
      · exact ⟨rfl, h⟩

end SameShape

/-- A file can be saved at a path: the directories above it can be made, as far as there are none,
and there is no directory in its own place. -/
def Saveable (f : Files) (p : Path) : Prop :=
  ∃ made place, f.makeDirectories p.parent = (made, .ok ()) ∧ made.writePlace p = .ok place

/-- A file can be saved at a path that keeps clear of the places where the shapes differ. -/
theorem SameShape.saveable {places : List Location} {f g : Files} {p : Path}
    (h : SameShape places f g) (hp : Clear places f p) (hsave : f.Saveable p) : g.Saveable p := by
  obtain ⟨made, place, hmade, hplace⟩ := hsave
  obtain ⟨houtcome, hsame⟩ := h.ensureDirectory hp.parent p.parent.names.length
  rw [← makeDirectories, ← makeDirectories, hmade] at houtcome hsame
  have hworking := (extends_makeDirectories hmade).1
  refine ⟨(g.makeDirectories p.parent).1, place, Prod.ext rfl houtcome, ?_⟩
  rw [hsame.writePlace_eq (hp.of_workingDirectory hworking).apart, hplace]

/-- What can be read at a path reads the same after a file was saved at another one that keeps clear
of its place. -/
theorem read_of_saved {f made : Files} {p q : Path} {target place : Location}
    {contents : Bytes} (hmade : f.makeDirectories q.parent = (made, .ok ()))
    (hplace : made.writePlace q = .ok place) (hlocate : f.locate p = .ok target)
    (hclear : Clear [target] f q) (hread : f.read p = .ok contents) (saved : Bytes) :
    (made.put place (.file saved)).read p = .ok contents := by
  have hextends := extends_makeDirectories hmade
  obtain ⟨hfound, hnode⟩ := writePlace_eq_ok_iff.mp hplace
  have hother : target ≠ place := by
    have hnot := (hclear.of_workingDirectory hextends.1).apart.not_mem_of_locate hfound
    exact fun h => hnot (List.mem_singleton.mpr h.symm)
  obtain ⟨_, hsame, hcontents⟩ := read_eq_ok_iff.mp hread
  cases hlocate.symm.trans hsame
  have hwritten := written_put hnode saved
  refine read_eq_ok_iff.mpr ⟨target, ?_, ?_⟩
  · exact (hwritten.sameDirectories hnode).locate (hextends.locate hlocate)
  · rw [node?_put_other made _ hother, hextends.2 _ _ hcontents]

end Remapping.Files
