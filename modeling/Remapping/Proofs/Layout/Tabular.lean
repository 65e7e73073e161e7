import Mathlib.Tactic.MkIffOfInductiveProp
import Remapping.Proofs.Layout.Rows

/-!
# Tabular sets

The mapping sets that can be written in rows and columns: no name, no type and no namespace holds
a character that ends a column or a line. Read `tabular_of_readText` first: the sets that are
read are of this kind, so whatever is written of them falls apart where it was put together.
-/

namespace Remapping

open Text (IsLine IsColumn)

/-- A class whose names are columns. -/
@[mk_iff]
structure ClassEntry.Tabular (entry : ClassEntry) : Prop where
  obfuscated : IsColumn entry.obfuscated
  intermediate : IsColumn entry.intermediate
  readable : IsColumn entry.readable

/-- A member of a kind, whose owner, type and names are columns. -/
@[mk_iff]
structure MemberEntry.Tabular (kind : RowKind) (e : MemberEntry) : Prop where
  kind_eq : e.kind = kind
  owner : IsColumn e.owner
  descriptor : IsColumn e.descriptor
  obfuscated : IsColumn e.obfuscated
  intermediate : IsColumn e.intermediate
  readable : IsColumn e.readable

/-- A mapping set of columns. Its namespaces are not empty, and its fields and its methods carry
their own kinds. -/
@[mk_iff]
structure MappingSet.Tabular (m : MappingSet) : Prop where
  namespaces : ∀ name ∈ m.namespaces, IsColumn name ∧ name ≠ []
  classes : ∀ entry ∈ m.classes, entry.Tabular
  fields : ∀ e ∈ m.fields, e.Tabular .fieldRow
  methods : ∀ e ∈ m.methods, e.Tabular .methodRow

instance (entry : ClassEntry) : Decidable entry.Tabular := decidable_of_iff' _ entry.tabular_iff

instance (kind : RowKind) (e : MemberEntry) : Decidable (e.Tabular kind) :=
  decidable_of_iff' _ (e.tabular_iff kind)

instance (m : MappingSet) : Decidable m.Tabular := decidable_of_iff' _ m.tabular_iff

namespace Yarn

/-- The namespaces that a header line lists are columns. -/
theorem isColumn_of_mem_headerNamespaces {header name : Text} (h : IsLine header)
    (hname : name ∈ headerNamespaces header) : IsColumn name ∧ name ≠ [] := by
  obtain ⟨hcolumn, hne⟩ := List.mem_filter.mp hname
  exact ⟨h.isColumn_of_mem_splitOn (List.mem_of_mem_tail hcolumn), of_decide_eq_true hne⟩

/-- The class that a line describes is one of columns. -/
theorem tabular_of_class? {line : Text} {entry : ClassEntry} (h : IsLine line)
    (hentry : class? line = some entry) : entry.Tabular := by
  obtain ⟨rest, hcolumns⟩ := class?_eq_some_iff.mp hentry
  have hcolumn (t : Text) (ht : t ∈ [entry.obfuscated, entry.intermediate, entry.readable]) :
      IsColumn t := by
    refine h.isColumn_of_mem_splitOn ?_
    rw [hcolumns]
    exact List.mem_cons_of_mem _ (List.mem_append_left rest ht)
  exact ⟨hcolumn _ (by simp), hcolumn _ (by simp), hcolumn _ (by simp)⟩

/-- The member that a line describes is one of columns. -/
theorem tabular_of_member? {kind : RowKind} {line : Text} {e : MemberEntry} (h : IsLine line)
    (he : member? kind line = some e) : e.Tabular kind := by
  obtain ⟨hkind, -, rest, hcolumns⟩ := member?_eq_some_iff.mp he
  have hcolumn (t : Text)
      (ht : t ∈ [e.owner, e.descriptor, e.obfuscated, e.intermediate, e.readable]) :
      IsColumn t := by
    refine h.isColumn_of_mem_splitOn ?_
    rw [hcolumns]
    exact List.mem_cons_of_mem _ (List.mem_append_left rest ht)
  exact ⟨hkind, hcolumn _ (by simp), hcolumn _ (by simp), hcolumn _ (by simp),
    hcolumn _ (by simp), hcolumn _ (by simp)⟩

/-- The members that were read from some lines are of columns. -/
theorem tabular_of_map_unnumbered {kind : RowKind} {body : List Text} {members : List MemberEntry}
    (hbody : ∀ line ∈ body, IsLine line)
    (hmembers : members.map unnumbered = body.filterMap (member? kind)) :
    ∀ e ∈ members, e.Tabular kind := by
  intro e he
  have hread : unnumbered e ∈ body.filterMap (member? kind) := hmembers ▸ List.mem_map_of_mem he
  obtain ⟨line, hline, he⟩ := List.mem_filterMap.mp hread
  have := tabular_of_member? (hbody line hline) he
  exact ⟨this.kind_eq, this.owner, this.descriptor, this.obfuscated, this.intermediate,
    this.readable⟩

/-- A set that is read is one of columns. -/
theorem tabular_of_readText {version t : Text} {m : MappingSet} {warnings : List RowWarning}
    (h : readText version t = .ok (m, warnings)) : m.Tabular := by
  obtain ⟨header, body, hlines, -, -, hnamespaces, hclasses, hfields, hmethods⟩ := readText_ok h
  have hline : ∀ line ∈ header :: body, IsLine line :=
    fun line hline => Text.isLine_of_mem_lines (hlines ▸ hline)
  obtain ⟨hheader, hbody⟩ := List.forall_mem_cons.mp hline
  constructor
  case namespaces =>
    intro name hname
    exact isColumn_of_mem_headerNamespaces hheader (hnamespaces ▸ hname)
  case classes =>
    intro entry hentry
    rw [hclasses] at hentry
    obtain ⟨line, hline, hentry⟩ := List.mem_filterMap.mp hentry
    exact tabular_of_class? (hbody line hline) hentry
  case fields => exact tabular_of_map_unnumbered hbody hfields
  case methods => exact tabular_of_map_unnumbered hbody hmethods

end Yarn
end Remapping
