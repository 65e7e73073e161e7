import Mathlib.Data.List.TakeWhile
import Remapping.Mapping.Remapper
import Remapping.Proofs.Descriptor.Faults
import Remapping.Proofs.Descriptor.Renaming

/-!
# Two diagnoses of a field descriptor

A text that starts like a class or an array of a class is looked at in two ways: the reader of
field types scans it up to its first semicolon, and remapping looks at its last character first.
Both refuse the same texts, but not always for the same reason. `ClassTail` tells the texts apart
by their first semicolon, and there is one statement about each way to look at each kind of text.
Read `field_diagnoses` for the comparison.
-/

namespace Remapping.Descriptor

/-! ## Texts that start like a class -/

/-- What can stand behind the marker of a class: a name and its end, a name without an end, the
end without a name, or a text that goes on behind its first semicolon. -/
inductive ClassTail : Text → Prop
  | complete (name : Text) : IsClassName name → ClassTail (name ++ [.char ';'])
  | unended (name : Text) : .char ';' ∉ name → ClassTail name
  | unnamed : ClassTail [.char ';']
  | trailing (name rest : Text) :
      .char ';' ∉ name → rest ≠ [] → ClassTail (name ++ .char ';' :: rest)

/-- Every text is of one of these kinds. -/
theorem classTail (tail : Text) : ClassTail tail := by
  by_cases hmem : .char ';' ∈ tail
  · obtain ⟨name, rest, rfl, hname⟩ := List.eq_append_cons_of_mem hmem
    cases rest with
    | cons c rest => exact .trailing name (c :: rest) hname (List.cons_ne_nil c rest)
    | nil =>
        cases name with
        | nil => exact .unnamed
        | cons c name => exact .complete (c :: name) ⟨List.cons_ne_nil c name, hname⟩
  · exact .unended tail hmem

/-- A text that starts like a class below some array markers. -/
def classText (depth : Nat) (tail : Text) : Text :=
  List.replicate depth (.char '[') ++ .char 'L' :: tail

/-- The length of a text that starts like a class. -/
theorem length_classText (depth : Nat) (tail : Text) :
    (classText depth tail).length = depth + 1 + tail.length := by
  simp [classText]
  omega

/-- The first semicolon of a text that starts like a class is the one behind the name. -/
theorem idxOf_classText (depth : Nat) {name : Text} (h : .char ';' ∉ name) (rest : Text) :
    (classText depth (name ++ .char ';' :: rest)).idxOf (.char ';') = depth + 1 + name.length := by
  have hmarkers : .char ';' ∉ List.replicate depth (.char '[') ++ .char 'L' :: name := by simp [h]
  have hcut : classText depth (name ++ .char ';' :: rest) =
      (List.replicate depth (.char '[') ++ .char 'L' :: name) ++ .char ';' :: rest := by
    simp [classText]
  rw [hcut, List.idxOf_append, if_neg hmarkers, List.idxOf_cons_self]
  simp
  omega

/-- A text that goes on behind its first semicolon ends as the rest does. -/
theorem getLast?_trailing (name : Text) {rest : Text} (h : rest ≠ []) :
    (.char 'L' :: (name ++ .char ';' :: rest)).getLast? = rest.getLast? := by
  have hcut : .char 'L' :: (name ++ .char ';' :: rest) =
      (.char 'L' :: name ++ [.char ';']) ++ rest := by
    simp
  rw [hcut, List.getLast?_append, List.getLast?_eq_some_getLast h, Option.some_or]

/-! ## The reader -/

/-- Array markers in front of a type move its scan. -/
theorem outcome_scanType_markers (depth pos : Nat) (cs : Text) :
    (scanType false pos (List.replicate depth (.char '[') ++ cs)).outcome =
      (scanType false (pos + depth) cs).outcome := by
  induction depth generalizing pos with
  | zero => rfl
  | succ depth ih =>
      rw [List.replicate_succ, List.cons_append, scanType, if_pos rfl]
      show (scanType false (pos + 1) (List.replicate depth (.char '[') ++ cs)).outcome = _
      rw [ih, Nat.add_assoc, Nat.add_comm 1]

/-- Behind the marker of a class the scan goes on to the first semicolon. -/
theorem outcome_scanType_classText (depth : Nat) (tail : Text) :
    (scanType false 0 (classText depth tail)).outcome =
      match tail.dropWhile (· != .char ';') with
      | [] => .error ⟨depth + 1 + (tail.takeWhile (· != .char ';')).length, .unterminatedName⟩
      | _ :: rest =>
        if tail.takeWhile (· != .char ';') = [] then .error ⟨depth, .emptyName⟩
        else .ok ⟨depth + (tail.takeWhile (· != .char ';')).length + 2, rest⟩ := by
  have hbase : ¬ isBaseLetter 'L' = true := by decide
  rw [classText, outcome_scanType_markers, Nat.zero_add, scanType, if_neg (by decide),
    if_neg hbase, if_pos rfl]
  dsimp only
  cases tail.dropWhile (· != .char ';') with
  | nil => rfl
  | cons c rest =>
      dsimp only
      split <;> rfl

/-- A fault of the scan of a field descriptor is what its reader reports. -/
theorem parseField_of_fault {d : Text} {fault : Fault}
    (h : (scanField d).outcome = .error fault) :
    parseField d = .error { toFault := fault, descriptor := d } := by
  rw [parseField, Scan.complete, h]
  rfl

/-- The reader accepts a name and its end. -/
theorem parseField_complete (depth : Nat) {name : Text} (h : IsClassName name) :
    ∃ t, parseField (classText depth (name ++ [.char ';'])) = .ok t := by
  have hscan : (scanField (classText depth (name ++ [.char ';']))).outcome = .ok () := by
    refine Scan.outcome_andThen_eq_ok.mpr ⟨⟨depth + name.length + 2, []⟩, ?_, rfl⟩
    rw [outcome_scanType_classText, Text.dropWhile_append_separator h.2,
      Text.takeWhile_append_separator h.2]
    exact if_neg h.1
  rw [parseField, Scan.complete, hscan]
  exact ⟨_, rfl⟩

/-- The reader meets the end of a text without a semicolon. -/
theorem parseField_unended (depth : Nat) {name : Text} (h : .char ';' ∉ name) :
    parseField (classText depth name) = .error {
      position := (classText depth name).length
      reason := .unterminatedName
      descriptor := classText depth name } := by
  have hall : ∀ c ∈ name, (c != ';') = true := fun c hc => by
    simpa using ne_of_mem_of_not_mem hc h
  refine parseField_of_fault (Scan.outcome_andThen_eq_error.mpr (.inl ?_))
  rw [outcome_scanType_classText, List.dropWhile_eq_nil_iff.mpr hall,
    List.takeWhile_eq_self_iff.mpr hall, length_classText]

/-- The reader meets the end of a name at its start. -/
theorem parseField_unnamed (depth : Nat) (rest : Text) :
    parseField (classText depth (.char ';' :: rest)) = .error {
      position := depth
      reason := .emptyName
      descriptor := classText depth (.char ';' :: rest) } := by
  refine parseField_of_fault (Scan.outcome_andThen_eq_error.mpr (.inl ?_))
  rw [outcome_scanType_classText]
  rfl

/-- The reader meets more text behind the first semicolon. -/
theorem parseField_trailing (depth : Nat) {name rest : Text} (hname : IsClassName name)
    (hrest : rest ≠ []) :
    parseField (classText depth (name ++ .char ';' :: rest)) = .error {
      position := depth + name.length + 2
      reason := .afterFieldType
      descriptor := classText depth (name ++ .char ';' :: rest) } := by
  refine parseField_of_fault (Scan.outcome_andThen_eq_error.mpr
    (.inr ⟨⟨depth + name.length + 2, rest⟩, ?_, ?_⟩))
  · rw [outcome_scanType_classText, Text.dropWhile_append_separator hname.2,
      Text.takeWhile_append_separator hname.2]
    exact if_neg hname.1
  · rw [scanEnd, if_neg hrest]
    rfl

/-- What the reader finds in a text that goes on behind its first semicolon. -/
theorem parseField_behind (depth : Nat) {name rest : Text} (hname : .char ';' ∉ name)
    (hrest : rest ≠ []) :
    ∃ read, parseField (classText depth (name ++ .char ';' :: rest)) = .error read ∧
      read.descriptor = classText depth (name ++ .char ';' :: rest) ∧
      read.toFault = if name = [] then ⟨depth, .emptyName⟩
        else ⟨depth + name.length + 2, .afterFieldType⟩ := by
  cases name with
  | nil => exact ⟨_, parseField_unnamed depth rest, rfl, rfl⟩
  | cons c name =>
      exact ⟨_, parseField_trailing depth ⟨List.cons_ne_nil c name, hname⟩ hrest, rfl, rfl⟩

/-! ## Remapping -/

/-- The part of the text behind the array markers starts at the marker of the class. -/
theorem elementPart_classText (depth : Nat) (tail : Text) :
    elementPart (classText depth tail) = .char 'L' :: tail ∧
      arrayMarkers (classText depth tail) = List.replicate depth (.char '[') := by
  have hmarkers : ∀ c ∈ List.replicate depth (CodePoint.char '['), decide (c = '[') = true := by
    simp
  rw [elementPart, arrayMarkers, classText, List.dropWhile_append_of_pos hmarkers,
    List.takeWhile_append_of_pos hmarkers]
  simp

/-- The text starts like a class or an array of a class. -/
theorem isObjectDescriptor_classText (depth : Nat) (tail : Text) :
    isObjectDescriptor (classText depth tail) = true := by
  rw [isObjectDescriptor, (elementPart_classText depth tail).1]
  rfl

/-- Remapping looks at the last character of the text before it looks at the name. -/
theorem referencedName_classText (depth : Nat) (tail : Text) :
    referencedName (classText depth tail) =
      if (CodePoint.char 'L' :: tail).getLast? ≠ some (.char ';') then .error {
        position := (classText depth tail).length
        reason := .unterminatedName
        descriptor := classText depth tail }
      else if tail.dropLast = [] then .error {
        position := depth
        reason := .emptyName
        descriptor := classText depth tail }
      else if .char ';' ∈ tail.dropLast then .error {
        position := depth + 1 + tail.dropLast.idxOf (.char ';')
        reason := .afterFieldType
        descriptor := classText depth tail }
      else .ok tail.dropLast := by
  obtain ⟨helement, hmarkers⟩ := elementPart_classText depth tail
  rw [referencedName, helement, hmarkers]
  simp only [List.drop_succ_cons, List.drop_zero, List.length_replicate]

/-- A text that starts like a class is remapped to what its name is given, or fails with the fault
of the name. -/
theorem remapField_classText (table : SymbolTable) {depth : Nat} {tail : Text}
    {e : DescriptorError} (h : referencedName (classText depth tail) = .error e) :
    remapField table (classText depth tail) = .error e := by
  rw [remapField, renameField, if_pos (isObjectDescriptor_classText depth tail), h]
  rfl

/-- A name and its end can be remapped. -/
theorem remapField_complete (table : SymbolTable) (depth : Nat) {name : Text}
    (h : IsClassName name) :
    ∃ d, remapField table (classText depth (name ++ [.char ';'])) = .ok d := by
  have hobject := isObjectDescriptor_classText depth (name ++ [.char ';'])
  have hreferenced : referencedName (classText depth (name ++ [.char ';'])) = .ok name :=
    (referencedName_eq_ok_iff hobject).mpr
      ⟨h, (elementPart_classText depth (name ++ [.char ';'])).1⟩
  rw [remapField, renameField, if_pos hobject, hreferenced]
  exact ⟨_, rfl⟩

/-- A text of which the name does not end is refused for its end. -/
theorem remapField_unended (table : SymbolTable) (depth : Nat) {tail : Text}
    (h : (CodePoint.char 'L' :: tail).getLast? ≠ some (.char ';')) :
    remapField table (classText depth tail) = .error {
      position := (classText depth tail).length
      reason := .unterminatedName
      descriptor := classText depth tail } := by
  refine remapField_classText table ?_
  rw [referencedName_classText, if_pos h]

/-- A class without a name is refused where it starts. -/
theorem remapField_unnamed (table : SymbolTable) (depth : Nat) :
    remapField table (classText depth [.char ';']) = .error {
      position := depth
      reason := .emptyName
      descriptor := classText depth [.char ';'] } := by
  refine remapField_classText table ?_
  rw [referencedName_classText]
  rfl

/-- A text that goes on behind its first semicolon and ends with one is refused at the first. -/
theorem remapField_trailing (table : SymbolTable) (depth : Nat) {name rest : Text}
    (hname : .char ';' ∉ name) (hlast : rest.getLast? = some (.char ';')) :
    remapField table (classText depth (name ++ .char ';' :: rest)) = .error {
      position := depth + 1 + name.length
      reason := .afterFieldType
      descriptor := classText depth (name ++ .char ';' :: rest) } := by
  have hrest : rest ≠ [] := fun hnil => by simp [hnil] at hlast
  have hdrop : (name ++ .char ';' :: rest).dropLast = name ++ .char ';' :: rest.dropLast := by
    rw [List.dropLast_append_of_ne_nil (List.cons_ne_nil _ _), List.dropLast_cons_of_ne_nil hrest]
  have hindex : (name ++ .char ';' :: rest.dropLast).idxOf (.char ';') = name.length := by
    rw [List.idxOf_append, if_neg hname, List.idxOf_cons_self, Nat.zero_add]
  have hends : (CodePoint.char 'L' :: (name ++ .char ';' :: rest)).getLast? = some (.char ';') :=
    (getLast?_trailing name hrest).trans hlast
  refine remapField_classText table ?_
  rw [referencedName_classText, if_neg (not_not.mpr hends), hdrop, if_neg (by simp),
    if_pos (by simp), hindex]

/-! ## The comparison -/

/-- A text that starts like a class below its array markers, and that the reader or remapping
refuses, is refused by both. Remapping finds a name without an end exactly if the text does not end
with a semicolon, and an empty name exactly if nothing stands between the marker and a semicolon at
the end; any other such text has more than a type, and remapping gives the offset of its first
semicolon, one less than the reader if the reader says so too. Both give the same reason at the
same offset exactly if there is no semicolon, or nothing but one behind the marker. -/
theorem field_diagnoses (table : SymbolTable) (depth : Nat) {e d : Text}
    (hclass : e.head? = some (.char 'L')) (hd : d = List.replicate depth (.char '[') ++ e)
    (hrefused :
      (∃ fault, parseField d = .error fault) ∨ ∃ fault, remapField table d = .error fault) :
    ∃ read renamed, parseField d = .error read ∧ remapField table d = .error renamed ∧
      read.descriptor = d ∧ renamed.descriptor = d ∧
      (renamed.toFault = ⟨d.length, .unterminatedName⟩ ↔ e.getLast? ≠ some (.char ';')) ∧
      (renamed.toFault = ⟨depth, .emptyName⟩ ↔ e = [.char 'L', .char ';']) ∧
      (e.getLast? = some (.char ';') → e ≠ [.char 'L', .char ';'] →
        renamed.toFault = ⟨d.idxOf (.char ';'), .afterFieldType⟩ ∧
          (read.reason = .afterFieldType → renamed.position + 1 = read.position)) ∧
      (read.toFault = renamed.toFault ↔ .char ';' ∉ e ∨ e = [.char 'L', .char ';']) := by
  obtain ⟨tail, rfl⟩ := List.head?_eq_some_iff.mp hclass
  obtain rfl : d = classText depth tail := hd
  cases classTail tail with
  | complete name hname =>
      obtain ⟨t, hread⟩ := parseField_complete depth hname
      obtain ⟨d', hremap⟩ := remapField_complete table depth hname
      simp [hread, hremap] at hrefused
  | unended name hname =>
      have hends : (CodePoint.char 'L' :: tail).getLast? ≠ some (.char ';') := fun hlast => by
        have hmem := List.mem_of_getLast? hlast
        simp [hname] at hmem
      have hne : ¬ .char 'L' :: tail = [.char 'L', .char ';'] := fun heq => by
        obtain rfl := (List.cons.inj heq).2
        simp at hname
      refine ⟨_, _, parseField_unended depth hname, remapField_unended table depth hends, rfl, rfl,
        iff_of_true rfl hends, iff_of_false (by simp) hne, fun hlast => absurd hlast hends,
        iff_of_true rfl (.inl ?_)⟩
      simp [hname]
  | unnamed =>
      exact ⟨_, _, parseField_unnamed depth [], remapField_unnamed table depth, rfl, rfl,
        iff_of_false (by simp) (by simp), iff_of_true rfl rfl, fun _ hne => absurd rfl hne,
        iff_of_true rfl (.inr rfl)⟩
  | trailing name rest hname hrest =>
      have hlast := getLast?_trailing name hrest
      have hne : ¬ .char 'L' :: (name ++ .char ';' :: rest) = [.char 'L', .char ';'] := by
        intro heq
        have hlength := congrArg List.length heq
        have hpos := List.length_pos_iff.mpr hrest
        simp at hlength
        omega
      have hmem : .char ';' ∈ .char 'L' :: (name ++ .char ';' :: rest) := by simp
      obtain ⟨read, hread, hdescriptor, hfault⟩ := parseField_behind depth hname hrest
      have hother : ¬ (.char ';' ∉ .char 'L' :: (name ++ .char ';' :: rest) ∨
          .char 'L' :: (name ++ .char ';' :: rest) = [.char 'L', .char ';']) := by
        rintro (hnone | heq)
        · exact hnone hmem
        · exact hne heq
      by_cases hends : rest.getLast? = some (.char ';')
      · refine ⟨_, _, hread, remapField_trailing table depth hname hends, hdescriptor, rfl,
          iff_of_false (by simp) (by simp [hlast, hends]), iff_of_false (by simp) hne,
          fun _ _ => ⟨by rw [idxOf_classText depth hname], ?_⟩, iff_of_false ?_ hother⟩
        · intro hreason
          split_ifs at hfault with hnil
          · simp [hfault] at hreason
          · rw [hfault]
            dsimp only
            omega
        · rw [hfault]
          split_ifs
          · simp
          · simp
            omega
      · refine ⟨_, _, hread, remapField_unended table depth (hlast ▸ hends), hdescriptor, rfl,
          iff_of_true rfl (hlast ▸ hends), iff_of_false (by simp) hne,
          fun h => absurd (hlast ▸ h) hends, iff_of_false ?_ hother⟩
        rw [hfault]
        split_ifs <;> simp

/-- Below two array markers, a text with a semicolon in its middle and one at its end; a text with
one in its middle alone, which the two refuse at different offsets for different reasons; and a
text without one, about which they agree. -/
theorem field_diagnoses_semicolons :
    (∃ read renamed, parseField "[[Lx;y;" = .error read ∧
      remapField .empty "[[Lx;y;" = .error renamed ∧
      renamed.toFault = ⟨4, .afterFieldType⟩ ∧ read.position = 5) ∧
    (∃ read renamed, parseField "Lx;y" = .error read ∧ remapField .empty "Lx;y" = .error renamed ∧
      renamed.toFault = ⟨4, .unterminatedName⟩ ∧ read.toFault ≠ renamed.toFault) ∧
    ∃ read renamed, parseField "[Lxy" = .error read ∧ remapField .empty "[Lxy" = .error renamed ∧
      read.toFault = renamed.toFault := by
  have hmiddle : parseField "[[Lx;y;" = .error ⟨⟨5, .afterFieldType⟩, "[[Lx;y;"⟩ := by
    decide +kernel
  have hopen : parseField "Lx;y" = .error ⟨⟨3, .afterFieldType⟩, "Lx;y"⟩ := by decide +kernel
  have hnone : parseField "[Lxy" = .error ⟨⟨4, .unterminatedName⟩, "[Lxy"⟩ := by decide +kernel
  refine ⟨?_, ?_, ?_⟩
  · obtain ⟨read, renamed, hread, hremap, -, -, -, -, hother, -⟩ :=
      field_diagnoses .empty 2 (e := "Lx;y;") rfl rfl (.inl ⟨_, hmiddle⟩)
    obtain rfl := Except.error.inj (hmiddle.symm.trans hread)
    exact ⟨_, renamed, hread, hremap, (hother rfl (by decide)).1, rfl⟩
  · obtain ⟨read, renamed, hread, hremap, -, -, hunended, -, -, hsame⟩ :=
      field_diagnoses .empty 0 (e := "Lx;y") rfl rfl (.inl ⟨_, hopen⟩)
    exact ⟨read, renamed, hread, hremap, hunended.mpr (by decide),
      fun heq => absurd (hsame.mp heq) (by decide)⟩
  · obtain ⟨read, renamed, hread, hremap, -, -, -, -, -, hsame⟩ :=
      field_diagnoses .empty 1 (e := "Lxy") rfl rfl (.inl ⟨_, hnone⟩)
    exact ⟨read, renamed, hread, hremap, hsame.mpr (.inl (by decide))⟩

end Remapping.Descriptor
