import Mathlib.Data.List.Basic
import Remapping.Proofs.Layout.Tabular

/-!
# Reading what was laid out

A mapping set is laid out as its header line and then its rows, in any order that keeps the order
of each kind, with blank lines between them and further columns behind them. Read
`readText_laidOut` first: the reader gives the set back, with the numbers of the lines, and drops
nothing. `readBody_map_text` is the reason: every line is read as the row that it was made of.
-/

namespace Remapping.Yarn

open Text (IsLine IsColumn)

/-! ## Lines of a layout -/

/-- A line after the header: a blank one, or one with a row and further columns. -/
inductive BodyLine
  | blank (line : Text)
  | ofClass (entry : ClassEntry) (extra : List Text)
  | ofField (e : MemberEntry) (extra : List Text)
  | ofMethod (e : MemberEntry) (extra : List Text)

namespace BodyLine

/-- A line without a row. -/
def blank? : BodyLine → Option Text
  | blank line => some line
  | _ => none

/-- The class in a line. -/
def class? : BodyLine → Option ClassEntry
  | ofClass entry _ => some entry
  | _ => none

/-- The field in a line. -/
def field? : BodyLine → Option MemberEntry
  | ofField e _ => some e
  | _ => none

/-- The method in a line. -/
def method? : BodyLine → Option MemberEntry
  | ofMethod e _ => some e
  | _ => none

/-- The columns after those of the row. -/
def extra : BodyLine → List Text
  | blank _ => []
  | ofClass _ extra | ofField _ extra | ofMethod _ extra => extra

/-- A row with further columns. -/
def withExtra (row : Text) (extra : List Text) : Text := row ++ extra.flatMap (.char '\t' :: ·)

/-- The characters of a line. -/
def text : BodyLine → Text
  | blank line => line
  | ofClass entry extra => withExtra (classLine entry) extra
  | ofField e extra | ofMethod e extra => withExtra (memberLine e) extra

/-- The row in a line with a number. -/
def row? (n : Nat) : BodyLine → Option Row
  | blank _ => none
  | ofClass entry _ => some (.ofClass entry)
  | ofField e _ | ofMethod e _ => some (.ofMember { e with lineNumber := n })

/-- What is taken from the reading of a line with a number, which is that of its row. -/
def taken {α : Type} (g : Reading → Option α) (line : BodyLine) (n : Nat) : Option α :=
  (line.row? n).bind fun row => g ⟨n, line.text, .ok row⟩

/-- A line that ends where it should, and can be taken for nothing else: a blank one is blank, and
a row is one of columns. -/
structure Faithful (line : BodyLine) : Prop where
  blank? : ∀ t ∈ line.blank?, IsLine t ∧ t.all Text.isBlank = true
  class? : ∀ entry ∈ line.class?, entry.Tabular
  field? : ∀ e ∈ line.field?, e.Tabular .fieldRow
  method? : ∀ e ∈ line.method?, e.Tabular .methodRow
  extra : ∀ column ∈ line.extra, IsLine column

end BodyLine

/-- Lines that hold the rows of a set. The order within each kind is that of the set, and nothing
but blank lines stands between the rows. -/
@[mk_iff]
structure LaysOut (m : MappingSet) (body : List BodyLine) : Prop where
  classes : body.filterMap BodyLine.class? = m.classes
  fields : body.filterMap BodyLine.field? = m.fields
  methods : body.filterMap BodyLine.method? = m.methods
  blank : ∀ line ∈ body, ∀ t ∈ line.blank?, IsLine t ∧ t.all Text.isBlank = true
  extra : ∀ line ∈ body, ∀ column ∈ line.extra, IsLine column

instance (m : MappingSet) (body : List BodyLine) : Decidable (LaysOut m body) :=
  decidable_of_iff' _ (laysOut_iff m body)

/-- The text of a set that is laid out: the header line and the others, each with a line feed. -/
def laidOut (m : MappingSet) (body : List BodyLine) : Text :=
  (headerLine m :: body.map BodyLine.text).flatMap (· ++ [.char '\n'])

/-- The members in some lines, each with the number of its line; the first line is the second one
of its file. -/
def numbered (member? : BodyLine → Option MemberEntry) (body : List BodyLine) :
    List MemberEntry :=
  (body.zipIdx 2).filterMap fun (line, n) => (member? line).map ({ · with lineNumber := n })

/-! ## Reading a line -/

/-- Further columns come after those of the row. -/
theorem exists_splitOn_withExtra (row : Text) (extra : List Text) :
    ∃ rest, (BodyLine.withExtra row extra).splitOn (.char '\t') =
      row.splitOn (.char '\t') ++ rest := by
  cases extra with
  | nil => exact ⟨[], by simp [BodyLine.withExtra]⟩
  | cons column extra =>
      refine ⟨(column ++ extra.flatMap (.char '\t' :: ·)).splitOn (.char '\t'), ?_⟩
      exact List.splitOn_append_cons_self row _

/-- A row with further columns is a line. -/
theorem isLine_withExtra {row : Text} {extra : List Text} (hrow : IsLine row)
    (hextra : ∀ column ∈ extra, IsLine column) : IsLine (BodyLine.withExtra row extra) := by
  refine hrow.append fun c hc => ?_
  obtain ⟨column, hcolumn, hc⟩ := List.mem_flatMap.mp hc
  rcases List.mem_cons.mp hc with rfl | hc
  · rfl
  · exact hextra column hcolumn c hc

/-- The texts of a class row are columns. -/
theorem isColumn_of_mem_classLine {entry : ClassEntry} (h : entry.Tabular) :
    ∀ t ∈ [RowKind.classRow.tag, entry.obfuscated, entry.intermediate, entry.readable],
      IsColumn t := by
  simp only [List.forall_mem_cons, List.not_mem_nil, false_implies, implies_true, and_true]
  exact ⟨by decide, h.obfuscated, h.intermediate, h.readable⟩

/-- The texts of a member row are columns. -/
theorem isColumn_of_mem_memberLine {kind : RowKind} {e : MemberEntry} (h : e.Tabular kind) :
    ∀ t ∈ [e.kind.tag, e.owner, e.descriptor, e.obfuscated, e.intermediate, e.readable],
      IsColumn t := by
  have htag : IsColumn e.kind.tag := by cases e.kind <;> decide
  simp only [List.forall_mem_cons, List.not_mem_nil, false_implies, implies_true, and_true]
  exact ⟨htag, h.owner, h.descriptor, h.obfuscated, h.intermediate, h.readable⟩

/-- The row of a class is a line. -/
theorem isLine_classLine {entry : ClassEntry} (h : entry.Tabular) : IsLine (classLine entry) :=
  Text.isLine_intercalate (by decide) fun t ht => (isColumn_of_mem_classLine h t ht).isLine

/-- The row of a member is a line. -/
theorem isLine_memberLine {kind : RowKind} {e : MemberEntry} (h : e.Tabular kind) :
    IsLine (memberLine e) :=
  Text.isLine_intercalate (by decide) fun t ht => (isColumn_of_mem_memberLine h t ht).isLine

/-- The row of a class is read as this class. -/
theorem readRow_classLine {entry : ClassEntry} (h : entry.Tabular) (n : Nat)
    (extra : List Text) :
    readRow n (BodyLine.withExtra (classLine entry) extra) = .ok (.ofClass entry) := by
  obtain ⟨rest, hrest⟩ := exists_splitOn_withExtra (classLine entry) extra
  rw [classLine, List.splitOn_intercalate _
    (fun t ht => (isColumn_of_mem_classLine h t ht).tab_notMem) (List.cons_ne_nil _ _)] at hrest
  exact readRow_eq_ok_iff.mpr ⟨_, _, hrest, ofColumns?_eq_ofClass_iff.mpr ⟨rfl, rest, rfl⟩⟩

/-- The row of a member is read as this member, with the number of the line. -/
theorem readRow_memberLine {kind : RowKind} (hkind : kind ≠ .classRow) {e : MemberEntry}
    (h : e.Tabular kind) (n : Nat) (extra : List Text) :
    readRow n (BodyLine.withExtra (memberLine e) extra) =
      .ok (.ofMember { e with lineNumber := n }) := by
  obtain ⟨rest, hrest⟩ := exists_splitOn_withExtra (memberLine e) extra
  rw [memberLine, List.splitOn_intercalate _
    (fun t ht => (isColumn_of_mem_memberLine h t ht).tab_notMem) (List.cons_ne_nil _ _)] at hrest
  exact readRow_eq_ok_iff.mpr ⟨_, _, hrest,
    ofColumns?_eq_ofMember_iff.mpr ⟨h.kind_eq ▸ hkind, rfl, rfl, rest, rfl⟩⟩

namespace BodyLine.Faithful

variable {line : BodyLine}

/-- A faithful line is one line. -/
theorem isLine (h : line.Faithful) : IsLine line.text := by
  cases line with
  | blank t => exact (h.blank? t rfl).1
  | ofClass entry extra => exact isLine_withExtra (isLine_classLine (h.class? entry rfl)) h.extra
  | ofField e extra => exact isLine_withExtra (isLine_memberLine (h.field? e rfl)) h.extra
  | ofMethod e extra => exact isLine_withExtra (isLine_memberLine (h.method? e rfl)) h.extra

/-- A faithful line is read as its row, unless it is blank. -/
theorem readRow_eq (h : line.Faithful) (n : Nat) :
    match line.row? n with
    | some row => readRow n line.text = .ok row
    | none => line.text.all Text.isBlank = true := by
  cases line with
  | blank t => exact (h.blank? t rfl).2
  | ofClass entry extra => exact readRow_classLine (h.class? entry rfl) n extra
  | ofField e extra => exact readRow_memberLine (by decide) (h.field? e rfl) n extra
  | ofMethod e extra => exact readRow_memberLine (by decide) (h.method? e rfl) n extra

/-- The class, the field or the method in a faithful line is taken from its reading, a member with
the number of the line, and nothing else is. -/
theorem taken_eq (h : line.Faithful) (n : Nat) :
    line.taken Reading.class? n = line.class? ∧
      line.taken (Reading.member? .fieldRow) n =
        line.field?.map ({ · with lineNumber := n }) ∧
      line.taken (Reading.member? .methodRow) n =
        line.method?.map ({ · with lineNumber := n }) ∧
      line.taken Reading.warning? n = none := by
  cases line with
  | blank | ofClass => exact ⟨rfl, rfl, rfl, rfl⟩
  | ofField e extra =>
      have hkind := (h.field? e rfl).kind_eq
      exact ⟨rfl, if_pos hkind, if_neg (by simp [hkind]), rfl⟩
  | ofMethod e extra =>
      have hkind := (h.method? e rfl).kind_eq
      exact ⟨rfl, if_neg (by simp [hkind]), if_pos hkind, rfl⟩

end BodyLine.Faithful

/-- A line that is read as a row is not blank. -/
theorem not_blank_of_readRow {n : Nat} {line : Text} {row : Row} (h : readRow n line = .ok row) :
    ¬ line.all Text.isBlank = true := by
  obtain ⟨kind, columns, hcolumns, -⟩ := readRow_eq_ok_iff.mp h
  exact not_blank_of_tag hcolumns

/-! ## Reading a text -/

/-- Every line of a layout is read as the row that it was made of; blank ones are passed over. -/
theorem readBody_map_text {body : List BodyLine} (h : ∀ line ∈ body, line.Faithful)
    (first : Nat) :
    readBody first (body.map BodyLine.text) = (body.zipIdx first).filterMap fun entry =>
      (entry.1.row? entry.2).map fun row => ⟨entry.2, entry.1.text, .ok row⟩ := by
  rw [readBody, List.zipIdx_map, List.filterMap_map]
  refine List.filterMap_congr fun entry hmem => ?_
  have hread := (h entry.1 (List.fst_mem_of_mem_zipIdx hmem)).readRow_eq entry.2
  simp only [Function.comp_apply, Prod.map_fst, Prod.map_snd, id_eq]
  cases hrow : entry.1.row? entry.2 with
  | none =>
      rw [hrow] at hread
      rw [if_pos hread]
      rfl
  | some row =>
      rw [hrow] at hread
      rw [if_neg (not_blank_of_readRow hread), hread]
      rfl

/-- What is taken from the readings of a layout is taken from each of its lines. -/
theorem filterMap_readBody_map_text {α : Type} {g : Reading → Option α}
    {f : BodyLine → Nat → Option α} {body : List BodyLine}
    (h : ∀ line ∈ body, line.Faithful)
    (hf : ∀ line n, line.Faithful → line.taken g n = f line n) :
    (readBody 2 (body.map BodyLine.text)).filterMap g =
      (body.zipIdx 2).filterMap fun entry => f entry.1 entry.2 := by
  rw [readBody_map_text h, List.filterMap_filterMap]
  refine List.filterMap_congr fun entry hmem => ?_
  exact Option.bind_map.trans (hf entry.1 entry.2 (h entry.1 (List.fst_mem_of_mem_zipIdx hmem)))

/-- The lines of a layout are faithful if the set is one of columns. -/
theorem LaysOut.faithful {m : MappingSet} {body : List BodyLine} (h : LaysOut m body)
    (hm : m.Tabular) : ∀ line ∈ body, line.Faithful := by
  intro line hline
  constructor
  case blank? => exact h.blank line hline
  case class? =>
    exact fun entry hentry =>
      hm.classes entry (h.classes ▸ List.mem_filterMap.mpr ⟨line, hline, hentry⟩)
  case field? =>
    exact fun e he => hm.fields e (h.fields ▸ List.mem_filterMap.mpr ⟨line, hline, he⟩)
  case method? =>
    exact fun e he => hm.methods e (h.methods ▸ List.mem_filterMap.mpr ⟨line, hline, he⟩)
  case extra => exact h.extra line hline

/-- The header line lists the namespaces of the set, behind the version. -/
theorem headerLine_spec {m : MappingSet} (hversion : IsColumn m.version) (hm : m.Tabular) :
    IsLine (headerLine m) ∧ m.version <+: headerLine m ∧
      headerNamespaces (headerLine m) = m.namespaces := by
  have hcolumns : ∀ t ∈ m.version :: m.namespaces, IsColumn t :=
    List.forall_mem_cons.mpr ⟨hversion, fun name hname => (hm.namespaces name hname).1⟩
  refine ⟨Text.isLine_intercalate (by decide) fun t ht => (hcolumns t ht).isLine, ?_, ?_⟩
  · unfold headerLine
    cases m.namespaces with
    | nil => simp
    | cons name names =>
        rw [List.intercalate_cons_cons, List.append_assoc]
        exact List.prefix_append _ _
  · rw [headerNamespaces, headerLine, List.splitOn_intercalate _
      (fun t ht => (hcolumns t ht).tab_notMem) (List.cons_ne_nil _ _)]
    exact List.filter_eq_self.mpr fun name hname => decide_eq_true (hm.namespaces name hname).2

/-- Numbering members changes nothing else about them. -/
theorem map_unnumbered_numbered (member? : BodyLine → Option MemberEntry)
    (body : List BodyLine) :
    (numbered member? body).map unnumbered = (body.filterMap member?).map unnumbered := by
  have hline : (fun entry : BodyLine × Nat => ((member? entry.1).map
      ({ · with lineNumber := (entry.2 : Int) })).map unnumbered) =
        (fun line => (member? line).map unnumbered) ∘ Prod.fst := by
    funext entry
    rw [Option.map_map]
    rfl
  rw [numbered, List.map_filterMap, List.map_filterMap, hline, ← List.filterMap_map,
    List.zipIdx_map_fst]

/-- A set of columns is read back from any layout of its rows, and no line is dropped. The members
have the numbers of their lines, and are otherwise the same. -/
theorem readText_laidOut {m : MappingSet} {body : List BodyLine} (hversion : IsColumn m.version)
    (hm : m.Tabular) (hbody : LaysOut m body) :
    readText m.version (laidOut m body) = .ok ({ m with
        fields := numbered BodyLine.field? body
        methods := numbered BodyLine.method? body }, []) ∧
      (numbered BodyLine.field? body).map unnumbered = m.fields.map unnumbered ∧
      (numbered BodyLine.method? body).map unnumbered = m.methods.map unnumbered := by
  have hfaithful := hbody.faithful hm
  obtain ⟨hheader, hstart, hnamespaces⟩ := headerLine_spec hversion hm
  have hlines : Text.lines (laidOut m body) = headerLine m :: body.map BodyLine.text := by
    refine Text.lines_joined (List.forall_mem_cons.mpr ⟨hheader, ?_⟩)
    exact List.forall_mem_map.mpr fun line hline => (hfaithful line hline).isLine
  have hclasses := filterMap_readBody_map_text hfaithful fun _ n hline => (hline.taken_eq n).1
  have hfields := filterMap_readBody_map_text hfaithful fun _ n hline => (hline.taken_eq n).2.1
  have hmethods := filterMap_readBody_map_text hfaithful fun _ n hline => (hline.taken_eq n).2.2.1
  have hwarnings := filterMap_readBody_map_text hfaithful fun _ n hline => (hline.taken_eq n).2.2.2
  have hclassRows : (body.zipIdx 2).filterMap (fun entry => entry.1.class?) = m.classes := by
    rw [← hbody.classes]
    conv => rhs; rw [← List.zipIdx_map_fst 2 body, List.filterMap_map]
    rfl
  refine ⟨readText_eq_ok_iff.mpr ⟨_, _, hlines, hstart, ?_, ?_⟩, ?_, ?_⟩
  · rw [readSet, hnamespaces, hclasses, hfields, hmethods, hclassRows]
    rfl
  · rw [readWarnings, hwarnings, List.filterMap_none]
  · rw [map_unnumbered_numbered, hbody.fields]
  · rw [map_unnumbered_numbered, hbody.methods]

/-- A field with empty names, and names of white space that is neither a tab nor ends a line. -/
def separatorField : MemberEntry where
  kind := .fieldRow
  owner := ""
  descriptor := "La;"
  obfuscated := " "
  intermediate := "\u000b"
  readable := ""

/-- A method whose last name is of white space. -/
def separatorMethod : MemberEntry where
  kind := .methodRow
  owner := "a"
  descriptor := "()V"
  obfuscated := "b"
  intermediate := "\u0085"
  readable := "\u3000"

/-- A set with empty names and names of separators. -/
def separatorSet : MappingSet where
  version := "v1"
  namespaces := ["official", " ", "named"]
  classes := [⟨"a", " ", ""⟩, ⟨"", "\u2028", "\u001c"⟩]
  fields := [separatorField]
  methods := [separatorMethod]

/-- Its method first, its field last, blank lines between, and further columns. -/
def separatorBody : List BodyLine :=
  [.ofMethod separatorMethod [], .blank " \t\u2029", .ofClass ⟨"a", " ", ""⟩ ["", "more\tcolumns"],
    .blank "", .ofClass ⟨"", "\u2028", "\u001c"⟩ [], .ofField separatorField []]

/-- The set of separators is read back, its method from the second line and its field from the
seventh. -/
theorem readText_laidOut_separators :
    IsColumn separatorSet.version ∧ separatorSet.Tabular ∧ LaysOut separatorSet separatorBody ∧
      readText "v1" (laidOut separatorSet separatorBody) = .ok ({ separatorSet with
        fields := [{ separatorField with lineNumber := 7 }]
        methods := [{ separatorMethod with lineNumber := 2 }] }, []) := by
  have hversion : IsColumn separatorSet.version := by decide
  have hset : separatorSet.Tabular := by decide +kernel
  have hbody : LaysOut separatorSet separatorBody := by decide +kernel
  exact ⟨hversion, hset, hbody, (readText_laidOut hversion hset hbody).1⟩

end Remapping.Yarn
