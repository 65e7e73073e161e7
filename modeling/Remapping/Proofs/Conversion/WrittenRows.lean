import Remapping.Layout.Tiny
import Remapping.Proofs.Conversion.Translation
import Remapping.Proofs.Layout.Tabular

/-!
# Rows that are written

What becomes of a set of columns when it is remapped and written: it is renamed to a set of
columns, and each of its rows is one line with the tag of its kind. Read `Tabular.of_remap` and
`Tiny.countTag_text` first; the rows of a kind can be counted in the text of a file.
-/

namespace Remapping

open Text (IsLine IsColumn)

/-! ## Renamed sets -/

/-- A member of columns with another owner and another type, if both are columns. -/
theorem MemberEntry.Tabular.translate {kind : RowKind} {e : MemberEntry} (h : e.Tabular kind)
    {owner descriptor : Text → Text} (howner : IsColumn (owner e.owner))
    (hdescriptor : IsColumn (descriptor e.descriptor)) :
    (e.translate owner descriptor).Tabular kind :=
  ⟨h.kind_eq, howner, hdescriptor, h.obfuscated, h.intermediate, h.readable⟩

section Renamed

variable {f : Text → Text} (hf : ∀ n, IsColumn n → IsColumn (f n))

include hf

/-- A column in which columns are substituted is a column. -/
theorem isColumn_substitute {d : Text} (hd : IsColumn d) :
    IsColumn (Descriptor.substitute f d) := by
  -- The induction follows the substitution: at a class reference it goes on behind the name.
  induction d using Descriptor.substitute.induct with
  | case1 =>
      rw [Descriptor.substitute]
      exact hd
  | case2 cs ih =>
      obtain ⟨-, hcs⟩ := List.forall_mem_cons.mp hd
      have hname : IsColumn (cs.takeWhile (· != .char ';')) :=
        IsColumn.of_subset hcs (List.takeWhile_prefix _).subset
      have hrest : IsColumn (cs.dropWhile (· != .char ';')) :=
        IsColumn.of_subset hcs (List.dropWhile_suffix _).subset
      rw [Descriptor.substitute, if_pos rfl]
      exact (IsColumn.cons (by decide) (hf _ hname)).append (ih hrest)
  | case3 c cs hclass ih =>
      obtain ⟨hc, hcs⟩ := List.forall_mem_cons.mp hd
      rw [Descriptor.substitute_cons_of_ne f hclass]
      exact .cons hc (ih hcs)

/-- A set of columns with other class names that are columns is a set of columns. -/
theorem MappingSet.Tabular.renamed {m : MappingSet} (hm : m.Tabular) (hrenamable : m.Renamable f) :
    (m.renamed f).Tabular := by
  constructor
  case namespaces => exact hm.namespaces
  case classes => exact hm.classes
  case fields =>
    refine List.forall_mem_map.mpr fun e he => ?_
    have hcolumns := hm.fields e he
    refine hcolumns.translate (hf _ hcolumns.owner) ?_
    rw [renamedWhere_field (hrenamable.1 e he), Translation.fieldType]
    split
    · exact isColumn_substitute hf hcolumns.descriptor
    · exact hcolumns.descriptor
  case methods =>
    refine List.forall_mem_map.mpr fun e he => ?_
    have hcolumns := hm.methods e he
    refine hcolumns.translate (hf _ hcolumns.owner) ?_
    rw [renamedWhere_method (hrenamable.2 e he), Translation.methodType]
    split
    · exact isColumn_substitute hf hcolumns.descriptor
    · exact hcolumns.descriptor

end Renamed

/-- The first row of a class gives a column. -/
theorem isColumn_firstIntermediate {classes : List ClassEntry}
    (h : ∀ entry ∈ classes, entry.Tabular) {n : Text} (hn : IsColumn n) :
    IsColumn (firstIntermediate classes n) := by
  unfold firstIntermediate
  split
  · next entry hfind => exact (h entry (List.mem_of_find?_eq_some hfind)).intermediate
  · exact hn

/-- A set of columns that is remapped without a fault is still one of columns. -/
theorem MappingSet.Tabular.of_remap {m m' : MappingSet} {r : Remapper} (hm : m.Tabular)
    (h : m.remap (.ofList m.classes) = (m', .ok r)) : m'.Tabular := by
  obtain ⟨rfl, hrenamable⟩ := MappingSet.remap_cases h
  rw [SymbolTable.resolve_ofList] at hrenamable ⊢
  exact hm.renamed (fun _ => isColumn_firstIntermediate hm.classes) hrenamable

/-! ## Rows that are written -/

namespace Tiny

variable {m : MappingSet}

/-- The header of a set of columns is a line. -/
theorem isLine_header (hversion : IsLine m.version) (hm : m.Tabular) : IsLine (header m) := by
  unfold header
  split
  · exact hversion
  · refine Text.isLine_intercalate (by decide)
      (List.forall_mem_cons.mpr ⟨hversion, fun name hname => ?_⟩)
    exact (hm.namespaces name (List.mem_of_mem_tail hname)).1.isLine

/-- The row of a class of columns is a line. -/
theorem isLine_classRow {entry : ClassEntry} (h : entry.Tabular) : IsLine (classRow entry) := by
  refine Text.isLine_intercalate (by decide) ?_
  simp only [List.forall_mem_cons, List.not_mem_nil, false_implies, implies_true, and_true]
  exact ⟨by decide, h.intermediate.isLine, h.readable.isLine⟩

/-- The row of a member of columns is a line. -/
theorem isLine_memberRow {kind : RowKind} {e : MemberEntry} (h : e.Tabular kind) :
    IsLine (memberRow e) := by
  have htag : IsLine e.kind.tag := by cases e.kind <;> decide
  refine Text.isLine_intercalate (by decide) ?_
  simp only [List.forall_mem_cons, List.not_mem_nil, false_implies, implies_true, and_true]
  exact ⟨htag, h.owner.isLine, h.descriptor.isLine, h.intermediate.isLine, h.readable.isLine⟩

/-- Every row of a set of columns is a line. -/
theorem isLine_of_mem_rows (hversion : IsLine m.version) (hm : m.Tabular) :
    ∀ row ∈ rows m, IsLine row := by
  intro row hrow
  rw [rows, List.cons_append, List.mem_cons, List.mem_append, MappingSet.members, List.map_append,
    List.mem_append] at hrow
  rcases hrow with rfl | hrow | hrow | hrow
  · exact isLine_header hversion hm
  · obtain ⟨entry, hentry, rfl⟩ := List.mem_map.mp hrow
    exact isLine_classRow (hm.classes entry hentry)
  · obtain ⟨e, he, rfl⟩ := List.mem_map.mp hrow
    exact isLine_memberRow (hm.fields e he)
  · obtain ⟨e, he, rfl⟩ := List.mem_map.mp hrow
    exact isLine_memberRow (hm.methods e he)

/-- A line whose first column is the tag of a kind. -/
def HasTag (kind : RowKind) (line : Text) : Prop :=
  (line.splitOn (.char '\t')).head? = some kind.tag

instance (kind : RowKind) (line : Text) : Decidable (HasTag kind line) :=
  inferInstanceAs (Decidable (_ = _))

/-- The lines after the first with the tag of a kind. -/
def linesWithTag (kind : RowKind) (u : Text) : List Text :=
  (Text.lines u).tail.filter (HasTag kind ·)

/-- The number of lines after the first with the tag of a kind. -/
def countTag (kind : RowKind) (u : Text) : Nat := (Text.lines u).tail.countP (HasTag kind ·)

/-- A kind is told by its tag. -/
theorem tag_inj {kind kind' : RowKind} : kind.tag = kind'.tag ↔ kind = kind' := by
  cases kind <;> cases kind' <;> decide

/-- No tag holds a tab. -/
theorem tab_notMem_tag (kind : RowKind) : .char '\t' ∉ kind.tag := by
  cases kind <;> decide

/-- Rows that start with one tag have no other tag. -/
theorem filter_hasTag {α : Type} {row : α → Text} {tagged : RowKind} {entries : List α}
    (h : ∀ entry ∈ entries, HasTag tagged (row entry)) (kind : RowKind) :
    (entries.map row).filter (HasTag kind ·) = if tagged = kind then entries.map row else [] := by
  have htag : ∀ line ∈ entries.map row, (HasTag kind line ↔ tagged = kind) := by
    refine List.forall_mem_map.mpr fun entry hentry => ?_
    rw [HasTag, h entry hentry, Option.some.injEq, tag_inj]
  split
  · next heq =>
    exact List.filter_eq_self.mpr fun line hline => decide_eq_true ((htag line hline).mpr heq)
  · next hne =>
    refine List.filter_eq_nil_iff.mpr fun line hline => ?_
    rw [decide_eq_true_eq, htag line hline]
    exact hne

/-- A set of columns is written with the row of each class, of each field and of each method, in
this order, on lines of their own. -/
theorem linesWithTag_text (hversion : IsLine m.version) (hm : m.Tabular) (kind : RowKind) :
    linesWithTag kind (text m) = match kind with
      | .classRow => m.classes.map classRow
      | .fieldRow => m.fields.map memberRow
      | .methodRow => m.methods.map memberRow := by
  have hclasses : ∀ entry ∈ m.classes, HasTag .classRow (classRow entry) := fun entry _ =>
    Text.head?_splitOn_intercalate (tab_notMem_tag .classRow) _
  have hmembers {tagged : RowKind} (members : List MemberEntry)
      (h : ∀ e ∈ members, e.Tabular tagged) : ∀ e ∈ members, HasTag tagged (memberRow e) := by
    intro e he
    rw [← (h e he).kind_eq]
    exact Text.head?_splitOn_intercalate (tab_notMem_tag e.kind) _
  have hrows : (rows m).tail =
      m.classes.map classRow ++ (m.fields.map memberRow ++ m.methods.map memberRow) := by
    rw [rows, List.cons_append, List.tail_cons, MappingSet.members, List.map_append]
  rw [linesWithTag, text, Text.lines_joined (isLine_of_mem_rows hversion hm), hrows,
    List.filter_append, List.filter_append, filter_hasTag hclasses,
    filter_hasTag (hmembers m.fields hm.fields), filter_hasTag (hmembers m.methods hm.methods)]
  cases kind <;> simp

/-- A set of columns is written with a row for each class, each field and each method. -/
theorem countTag_text (hversion : IsLine m.version) (hm : m.Tabular) (kind : RowKind) :
    countTag kind (text m) = match kind with
      | .classRow => m.classes.length
      | .fieldRow => m.fields.length
      | .methodRow => m.methods.length := by
  have hlines := congrArg List.length (linesWithTag_text hversion hm kind)
  rw [linesWithTag, ← List.countP_eq_length_filter] at hlines
  rw [countTag, hlines]
  cases kind <;> exact List.length_map _

end Tiny

end Remapping
