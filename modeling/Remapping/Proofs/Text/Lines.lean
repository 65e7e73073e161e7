import Remapping.Text.Basic
import Remapping.Text.Lines

/-!
# Lines and columns

What a text is cut into: lines at their terminators, and a line into columns at its tabs. Read
`lines_joined` first: rows that are written one a line are cut apart where they were joined, as
columns with tabs between them are. Nothing but a tab, a line feed and a carriage return can
stand in the way.
-/

namespace Remapping.Text

/-- A text without a character of a line terminator. -/
def IsLine (t : Text) : Prop := ∀ c ∈ t, isLineEnd c = false

instance (t : Text) : Decidable (IsLine t) := List.decidableBAll _ t

/-- A text without a tab and without a character of a line terminator. -/
def IsColumn (t : Text) : Prop := ∀ c ∈ t, c ≠ '\t' ∧ isLineEnd c = false

instance (t : Text) : Decidable (IsColumn t) := List.decidableBAll _ t

/-! ## Columns -/

/-- A column is a line. -/
theorem IsColumn.isLine {t : Text} (h : IsColumn t) : IsLine t := fun c hc => (h c hc).2

/-- A column holds no tab. -/
theorem IsColumn.tab_notMem {t : Text} (h : IsColumn t) : .char '\t' ∉ t :=
  fun hc => (h _ hc).1 rfl

/-- A text of characters of columns is a column. -/
theorem IsColumn.of_subset {t u : Text} (h : IsColumn u) (hsubset : t ⊆ u) : IsColumn t :=
  fun c hc => h c (hsubset hc)

/-- A character in front of a column, if it ends neither a column nor a line. -/
theorem IsColumn.cons {c : CodePoint} {t : Text} (hc : c ≠ '\t' ∧ isLineEnd c = false)
    (ht : IsColumn t) : IsColumn (c :: t) :=
  List.forall_mem_cons.mpr ⟨hc, ht⟩

/-- Columns one after the other, without tabs, are a column. -/
theorem IsColumn.append {t u : Text} (ht : IsColumn t) (hu : IsColumn u) : IsColumn (t ++ u) :=
  fun c hc => (List.mem_append.mp hc).elim (ht c) (hu c)

/-- Lines one after the other, without terminators, are a line. -/
theorem IsLine.append {t u : Text} (ht : IsLine t) (hu : IsLine u) : IsLine (t ++ u) :=
  fun c hc => (List.mem_append.mp hc).elim (ht c) (hu c)

/-- Lines with something between them that ends no line are a line. -/
theorem isLine_intercalate {sep : Text} (hsep : IsLine sep) {pieces : List Text}
    (h : ∀ piece ∈ pieces, IsLine piece) : IsLine (List.intercalate sep pieces) := by
  induction pieces with
  | nil => simp [IsLine]
  | cons piece pieces ih =>
      obtain ⟨hpiece, hpieces⟩ := List.forall_mem_cons.mp h
      cases pieces with
      | nil => rwa [List.intercalate_singleton]
      | cons next rest =>
          rw [List.intercalate_cons_cons]
          exact (hpiece.append hsep).append (ih hpieces)

/-- A row starts with the column that is written first, if another one follows it. -/
theorem head?_splitOn_intercalate {first next : Text} (h : .char '\t' ∉ first) (rest : List Text) :
    ((List.intercalate [.char '\t'] (first :: next :: rest)).splitOn (.char '\t')).head? =
      some first := by
  rw [List.intercalate_cons_cons, List.append_assoc, List.singleton_append,
    List.splitOn_append_cons_self_of_not_mem h, List.head?_cons]

/-- A piece of a cut text holds code points of the text, and no separator. -/
theorem of_mem_splitOn {sep : CodePoint} {t piece : Text} (h : piece ∈ t.splitOn sep)
    {c : CodePoint} (hc : c ∈ piece) : c ∈ t ∧ c ≠ sep := by
  induction t generalizing piece with
  | nil =>
      rw [List.splitOn_nil, List.mem_singleton] at h
      simp [h] at hc
  | cons first cs ih =>
      rw [List.splitOn_cons_eq_if_modifyHead] at h
      split at h
      · rcases List.mem_cons.mp h with rfl | h
        · cases hc
        · exact (ih h hc).imp_left (List.mem_cons_of_mem _)
      · next hfirst =>
        obtain ⟨next, pieces, hcs⟩ := List.exists_cons_of_ne_nil (List.splitOn_ne_nil sep cs)
        rw [hcs] at ih h
        rcases List.mem_cons.mp h with rfl | h
        · rcases List.mem_cons.mp hc with rfl | hc
          · exact ⟨List.mem_cons_self, by simpa using hfirst⟩
          · exact (ih List.mem_cons_self hc).imp_left (List.mem_cons_of_mem _)
        · exact (ih (List.mem_cons_of_mem _ h) hc).imp_left (List.mem_cons_of_mem _)

/-- The pieces of a line between its tabs are columns. -/
theorem IsLine.isColumn_of_mem_splitOn {line piece : Text} (h : IsLine line)
    (hpiece : piece ∈ line.splitOn (.char '\t')) : IsColumn piece := fun c hc =>
  have hmem := of_mem_splitOn hpiece hc
  ⟨hmem.2, h c hmem.1⟩

/-! ## Lines -/

/-- No line of a split holds a character of a terminator. -/
def LineSplit.Clean (s : LineSplit) : Prop :=
  (∀ line ∈ s.closed, IsLine line) ∧ IsLine s.current

/-- Ending the open line keeps the lines clean. -/
theorem LineSplit.Clean.close {s : LineSplit} (h : s.Clean) (afterReturn : Bool) :
    (s.close afterReturn).Clean := by
  refine ⟨?_, by simp [LineSplit.close, IsLine]⟩
  intro line hline c hc
  rcases List.mem_cons.mp hline with rfl | hline
  · exact h.2 c (List.mem_reverse.mp hc)
  · exact h.1 line hline c hc

/-- Reading a character keeps the lines clean. -/
theorem LineSplit.Clean.step {s : LineSplit} (h : s.Clean) (c : CodePoint) : (s.step c).Clean := by
  unfold LineSplit.step
  split
  · split
    · exact h
    · exact h.close false
  · next hfeed =>
    split
    · exact h.close true
    · next hreturn =>
      refine ⟨h.1, fun d hd => ?_⟩
      rcases List.mem_cons.mp hd with rfl | hd
      · simp [isLineEnd, hfeed, hreturn]
      · exact h.2 d hd

/-- Reading a text keeps the lines clean. -/
theorem LineSplit.Clean.foldl {s : LineSplit} (h : s.Clean) (t : Text) :
    (t.foldl LineSplit.step s).Clean := by
  induction t generalizing s with
  | nil => exact h
  | cons c t ih => exact ih (h.step c)

/-- No line of a text holds a character of a terminator. -/
theorem isLine_of_mem_lines {t line : Text} (hline : line ∈ lines t) : IsLine line := by
  have hempty : LineSplit.Clean {} := ⟨by simp, by simp [IsLine]⟩
  have hfinal := hempty.foldl t
  unfold lines LineSplit.finish at hline
  rw [List.mem_reverse] at hline
  split at hline
  · exact hfinal.1 line hline
  · exact (hfinal.close false).1 line hline

/-- A line has no terminator to remove. -/
theorem IsLine.dropLineEnd_eq {t : Text} (h : IsLine t) : dropLineEnd t = t := by
  have hhead : t.reverse.dropWhile isLineEnd = t.reverse := by
    cases ht : t.reverse with
    | nil => rfl
    | cons c cs =>
        have hc : c ∈ t := List.mem_reverse.mp (ht ▸ List.mem_cons_self)
        rw [List.dropWhile_cons_of_neg (by simp [h c hc])]
  rw [dropLineEnd, hhead, List.reverse_reverse]

/-- The lines of a text have no terminators to remove. -/
theorem map_dropLineEnd_lines (t : Text) : (lines t).map dropLineEnd = lines t := by
  conv => rhs; rw [← List.map_id (lines t)]
  exact List.map_congr_left fun line hline => (isLine_of_mem_lines hline).dropLineEnd_eq

/-- The characters of a line go to the open line. -/
theorem LineSplit.foldl_step_line (closed : List Text) (current : Text) {line : Text}
    (h : IsLine line) :
    line.foldl step ⟨closed, current, false⟩ = ⟨closed, line.reverse ++ current, false⟩ := by
  induction line generalizing current with
  | nil => rfl
  | cons c cs ih =>
      obtain ⟨hc, hcs⟩ := List.forall_mem_cons.mp h
      have hstep : step ⟨closed, current, false⟩ c = ⟨closed, c :: current, false⟩ := by
        simp only [isLineEnd, Bool.or_eq_false_iff, decide_eq_false_iff_not] at hc
        simp [step, hc]
      rw [List.foldl_cons, hstep, ih _ hcs]
      simp

/-- Rows with a line feed after each of them are closed one after the other. -/
theorem LineSplit.foldl_step_rows (closed : List Text) {rows : List Text}
    (h : ∀ row ∈ rows, IsLine row) :
    (rows.flatMap (· ++ [.char '\n'])).foldl step ⟨closed, [], false⟩ =
      ⟨rows.reverse ++ closed, [], false⟩ := by
  induction rows generalizing closed with
  | nil => rfl
  | cons row rows ih =>
      obtain ⟨hrow, hrows⟩ := List.forall_mem_cons.mp h
      have hend : step ⟨closed, row.reverse ++ [], false⟩ '\n' = ⟨row :: closed, [], false⟩ := by
        simp [step, close]
      rw [List.flatMap_cons, List.foldl_append, List.foldl_append, foldl_step_line _ _ hrow,
        List.foldl_cons, List.foldl_nil, hend, ih _ hrows]
      simp

/-- The lines of rows with a line feed after each of them are the rows. -/
theorem lines_joined {rows : List Text} (h : ∀ row ∈ rows, IsLine row) :
    lines (rows.flatMap (· ++ [.char '\n'])) = rows := by
  rw [lines, LineSplit.foldl_step_rows [] h]
  simp [LineSplit.finish]

/-- Rows with a line feed after each of them hold as many line feeds as there are rows. -/
theorem count_joined {rows : List Text} (h : ∀ row ∈ rows, IsLine row) :
    (rows.flatMap (· ++ [.char '\n'])).count (.char '\n') = rows.length := by
  induction rows with
  | nil => rfl
  | cons row rows ih =>
      obtain ⟨hrow, hrows⟩ := List.forall_mem_cons.mp h
      have hnone : row.count (.char '\n') = 0 :=
        List.count_eq_zero.mpr fun hmem => absurd (hrow '\n' hmem) (by decide)
      rw [List.flatMap_cons, List.count_append, List.count_append, hnone, ih hrows,
        List.length_cons, List.count_singleton_self]
      omega

/-- Rows with a line feed after each of them end with a line feed. -/
theorem getLast?_joined {rows : List Text} (hrows : rows ≠ []) :
    (rows.flatMap (· ++ [.char '\n'])).getLast? = some (.char '\n') := by
  obtain ⟨init, last, rfl⟩ : ∃ init last, rows = init ++ [last] :=
    ⟨_, _, (List.dropLast_concat_getLast hrows).symm⟩
  rw [List.flatMap_append, List.flatMap_singleton, ← List.append_assoc, List.getLast?_concat]

/-- Rows with a line feed after each of them hold no carriage return. -/
theorem return_notMem_joined {rows : List Text} (h : ∀ row ∈ rows, IsLine row) :
    .char '\r' ∉ rows.flatMap (· ++ [.char '\n']) := by
  intro hmem
  obtain ⟨row, hrow, hmem⟩ := List.mem_flatMap.mp hmem
  rcases List.mem_append.mp hmem with hmem | hmem
  · exact absurd (h row hrow '\r' hmem) (by decide)
  · exact absurd hmem (by decide)

end Remapping.Text
