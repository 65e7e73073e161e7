import Remapping.Codec.Standard
import Remapping.Proofs.Conversion.Outcome
import Remapping.Proofs.Conversion.WrittenRows
import Remapping.Proofs.Mapping.References

/-!
# Written files are read back

Nothing is escaped in a tiny file, so what is read from it depends on what its columns hold. Read
`write_reads_back` first: of a set that was read and remapped, the file falls apart into the
columns that were written. `Tiny.cells_text` is the reason for the text of the file, and
`Encoding.decode_mark_append` for its bytes.
-/

namespace Remapping

open Text (IsLine IsColumn)

/-! ## Cells -/

namespace Text

/-- What a reader of rows makes of a text: the columns of each line. -/
def cells (t : Text) : List (List Text) :=
  (lines t).map fun line => (dropLineEnd line).splitOn (.char '\t')

/-- A table of columns comes back from the text of its rows. -/
theorem cells_joined {table : List (List Text)}
    (h : ∀ row ∈ table, row ≠ [] ∧ ∀ column ∈ row, IsColumn column) :
    cells ((table.map (List.intercalate [.char '\t'])).flatMap (· ++ [.char '\n'])) = table := by
  have hline : ∀ line ∈ table.map (List.intercalate [.char '\t']), IsLine line :=
    List.forall_mem_map.mpr fun row hrow =>
      isLine_intercalate (by decide) fun column hcolumn => ((h row hrow).2 column hcolumn).isLine
  have hrow : ∀ row ∈ table,
      (dropLineEnd (List.intercalate [.char '\t'] row)).splitOn (.char '\t') = row := by
    intro row hrow
    rw [(hline _ (List.mem_map_of_mem hrow)).dropLineEnd_eq]
    exact List.splitOn_intercalate _
      (fun column hcolumn => ((h row hrow).2 column hcolumn).tab_notMem) (h row hrow).1
  calc cells ((table.map (List.intercalate [.char '\t'])).flatMap (· ++ [.char '\n']))
      = table.map ((fun line => (dropLineEnd line).splitOn (.char '\t')) ∘
          List.intercalate [.char '\t']) := by
        rw [cells, lines_joined hline, List.map_map]
    _ = table.map id := List.map_congr_left hrow
    _ = table := List.map_id table

end Text

/-! ## The table of a set -/

namespace Tiny

/-- The columns of the header: the version, and the namespaces after the first if there are at
least three. -/
def headerColumns (m : MappingSet) : List Text :=
  if m.namespaces.length < 3 then [m.version] else m.version :: m.namespaces.tail

/-- The columns of a class. -/
def classColumns (entry : ClassEntry) : List Text :=
  [RowKind.classRow.tag, entry.intermediate, entry.readable]

/-- The columns of a member of a kind. -/
def memberColumns (kind : RowKind) (e : MemberEntry) : List Text :=
  [kind.tag, e.owner, e.descriptor, e.intermediate, e.readable]

/-- The columns of the header, the classes, the fields and the methods. -/
def table (m : MappingSet) : List (List Text) :=
  headerColumns m :: (m.classes.map classColumns ++
    (m.fields.map (memberColumns .fieldRow) ++ m.methods.map (memberColumns .methodRow)))

variable {m : MappingSet}

/-- The rows of a set of columns are the rows of its table. -/
theorem rows_eq_map_table (hm : m.Tabular) :
    rows m = (table m).map (List.intercalate [.char '\t']) := by
  have hheader : header m = List.intercalate [.char '\t'] (headerColumns m) := by
    unfold header headerColumns
    split
    · exact List.intercalate_singleton.symm
    · rfl
  have hmember {kind : RowKind} {members : List MemberEntry}
      (h : ∀ e ∈ members, e.Tabular kind) : members.map memberRow =
        members.map fun e => List.intercalate [.char '\t'] (memberColumns kind e) :=
    List.map_congr_left fun e he => by rw [memberRow, memberColumns, (h e he).kind_eq]
  rw [rows, table, MappingSet.members, List.map_cons, List.map_append, List.map_append,
    List.map_append, List.map_map, List.map_map, List.map_map, hheader, hmember hm.fields,
    hmember hm.methods]
  rfl

/-- The table of a set of columns is one of columns. -/
theorem isColumn_of_mem_table (hversion : IsColumn m.version) (hm : m.Tabular) :
    ∀ row ∈ table m, row ≠ [] ∧ ∀ column ∈ row, IsColumn column := by
  have htag (kind : RowKind) : IsColumn kind.tag := by cases kind <;> decide
  have hmember {kind : RowKind} {e : MemberEntry} (h : e.Tabular kind) :
      memberColumns kind e ≠ [] ∧ ∀ column ∈ memberColumns kind e, IsColumn column := by
    simp only [memberColumns, ne_eq, List.cons_ne_nil, not_false_eq_true, true_and,
      List.forall_mem_cons, List.not_mem_nil, false_implies, implies_true, and_true]
    exact ⟨htag kind, h.owner, h.descriptor, h.intermediate, h.readable⟩
  intro row hrow
  rw [table, List.mem_cons, List.mem_append, List.mem_append] at hrow
  rcases hrow with rfl | hrow | hrow | hrow
  · unfold headerColumns
    split
    · exact ⟨List.cons_ne_nil _ _, List.forall_mem_singleton.mpr hversion⟩
    · refine ⟨List.cons_ne_nil _ _, List.forall_mem_cons.mpr ⟨hversion, fun name hname => ?_⟩⟩
      exact (hm.namespaces name (List.mem_of_mem_tail hname)).1
  · obtain ⟨entry, hentry, rfl⟩ := List.mem_map.mp hrow
    have hentry := hm.classes entry hentry
    simp only [classColumns, ne_eq, List.cons_ne_nil, not_false_eq_true, true_and,
      List.forall_mem_cons, List.not_mem_nil, false_implies, implies_true, and_true]
    exact ⟨htag .classRow, hentry.intermediate, hentry.readable⟩
  · obtain ⟨e, he, rfl⟩ := List.mem_map.mp hrow
    exact hmember (hm.fields e he)
  · obtain ⟨e, he, rfl⟩ := List.mem_map.mp hrow
    exact hmember (hm.methods e he)

/-- The text of a set of columns falls apart into its table. -/
theorem cells_text (hversion : IsColumn m.version) (hm : m.Tabular) :
    Text.cells (text m) = table m := by
  rw [text, rows_eq_map_table hm]
  exact Text.cells_joined (isColumn_of_mem_table hversion hm)

end Tiny

/-! ## Sets that were read -/

/-- A set that was read with a version, from a text or from the bytes of a file. -/
inductive MappingSet.IsRead [Codecs] (version : Text) : MappingSet → Prop
  | ofText {t : Text} {m : MappingSet} {warnings : List RowWarning}
      (h : Yarn.readText version t = .ok (m, warnings)) : IsRead version m
  | ofBytes {settings : ConverterSettings} {bytes : Bytes} {m : MappingSet}
      {warnings : List RowWarning} (hversion : settings.supportedVersion = .text version)
      (h : Conversion.readMappings settings bytes = .ok (m, warnings)) : IsRead version m

namespace MappingSet

variable [Codecs] {version : Text} {m m' : MappingSet} {r : Remapper}

/-- A set that was read from bytes was read from their text. -/
theorem IsRead.exists_text (h : m.IsRead version) :
    ∃ t warnings, Yarn.readText version t = .ok (m, warnings) := by
  cases h with
  | ofText h => exact ⟨_, _, h⟩
  | ofBytes hversion h =>
      obtain ⟨codec, version', t, -, hversion', -, hread⟩ :=
        Conversion.readMappings_eq_ok_iff.mp h
      cases hversion.symm.trans hversion'
      exact ⟨t, _, hread⟩

/-- A set that was read and remapped has the version it was read with, and is one of columns. -/
theorem IsRead.remapped (h : m.IsRead version)
    (hremap : m.remap (.ofList m.classes) = (m', .ok r)) : m'.version = version ∧ m'.Tabular := by
  obtain ⟨t, warnings, hread⟩ := h.exists_text
  refine ⟨?_, (Yarn.tabular_of_readText hread).of_remap hremap⟩
  obtain ⟨_, _, -, -, hversion, -⟩ := Yarn.readText_ok hread
  rw [(remap_cases hremap).1, renamed, hversion]

end MappingSet

/-! ## Files -/

namespace Output

/-- What the bytes of a written set are good for. They are what every success of writing leaves at
the path, and a set is written wherever a file can be, and a temporary one beside it if there is to
be one. They are a text, and this text falls apart into the table of the set. -/
structure ReadsBack (e : Encoding) (m : MappingSet) (bytes : Bytes) : Prop where
  contents : contents e.codec (Tiny.rows m) = (bytes, true)
  written : ∀ files p atomic after count,
    write files p atomic (.known e.codec) m = (after, .ok count) → after.read p = .ok bytes
  writes : ∀ files p atomic place, files.writePlace p = .ok place →
    (atomic = true → ∃ beside, files.freshPlace (temporary files p) = .ok beside) →
      ∃ after, write files p atomic (.known e.codec) m = (after, .ok m.rowCount)
  cells : ∃ t, e.decode true bytes = .ok t ∧ Text.cells t = Tiny.table m

/-- A set of columns is read back if the encoding has its code points. -/
theorem readsBack_of_tabular {e : Encoding} {m : MappingSet} (hversion : IsColumn m.version)
    (hm : m.Tabular) {encoded : Bytes} (h : e.encodeText? (Tiny.text m) = some encoded) :
    ReadsBack e m (e.mark ++ encoded) := by
  have hbytes : fileBytes? (.known e.codec) (Tiny.rows m) = some (e.mark ++ encoded) := by
    rw [fileBytes?_encoding e (Tiny.rows_ne_nil m), joined, ← Tiny.text, h, Option.map_some]
  constructor
  case contents => exact contents_eq_true_iff.mpr hbytes
  case written =>
    intro files p atomic after count hwrite
    obtain ⟨-, -, place, bytes, hplace, hfilled, rfl⟩ := write_eq_ok_iff.mp hwrite
    obtain rfl := Option.some.inj (hbytes.symm.trans hfilled)
    exact (Files.written_of_writePlace hplace _).read hplace
  case writes =>
    intro files p atomic place hplace hbeside
    exact ⟨_, write_eq_ok_iff.mpr ⟨rfl, hbeside, place, _, hplace, hbytes, rfl⟩⟩
  case cells =>
    exact ⟨_, Encoding.decode_mark_append h, Tiny.cells_text hversion hm⟩

/-- A set that was read and remapped is read back from the file it is written to, in every encoding
that has its code points. -/
theorem write_reads_back [Codecs] {version : Text} {m m' : MappingSet} {r : Remapper}
    (hversion : IsColumn version) (hread : m.IsRead version)
    (hremap : m.remap (.ofList m.classes) = (m', .ok r)) {e : Encoding}
    (hencodable : (e.encodeText? (Tiny.text m')).isSome = true) :
    ∃ bytes, ReadsBack e m' bytes := by
  obtain ⟨hsame, htabular⟩ := hread.remapped hremap
  obtain ⟨encoded, hencoded⟩ := Option.isSome_iff_exists.mp hencodable
  exact ⟨_, readsBack_of_tabular (hsame ▸ hversion) htabular hencoded⟩

open scoped Codecs

/-- A file with a method before its class. Their names hold a mark, and separators that end no
line. -/
def markedText : Text :=
  "v1\tofficial\tintermediary\tnamed\n" ++ "METHOD\tb\t(ILa;)La;\tm\tm_1\u2028\truns\u000b\r" ++
    "CLASS\ta\t\ufeffC\u0085\tMain\n"

/-- What is read from that file. -/
def markedSet : MappingSet where
  namespaces := ["official", "intermediary", "named"]
  classes := [⟨"a", "\ufeffC\u0085", "Main"⟩]
  methods := [⟨.methodRow, "b", "m", "m_1\u2028", "runs\u000b", "(ILa;)La;", 2⟩]

/-- The columns that are written of that set. -/
def markedTable : List (List Text) :=
  [["v1", "intermediary", "named"], ["CLASS", "\ufeffC\u0085", "Main"],
    ["METHOD", "b", "(IL\ufeffC\u0085;)L\ufeffC\u0085;", "m_1\u2028", "runs\u000b"]]

/-- In two encodings with a mark of their own, the file of this set falls apart into the columns of
its header, its class and its method. -/
theorem write_reads_back_marked : ∃ m' r marked wide t u,
    markedSet.remap (.ofList markedSet.classes) = (m', .ok r) ∧
      contents Encoding.utf8Marked.codec (Tiny.rows m') = (marked, true) ∧
      Encoding.utf8Marked.decode true marked = .ok t ∧ Text.cells t = markedTable ∧
      contents Encoding.utf16.codec (Tiny.rows m') = (wide, true) ∧
      Encoding.utf16.decode true wide = .ok u ∧ Text.cells u = markedTable := by
  have hparse : Yarn.readText "v1" markedText = .ok (markedSet, []) := rfl
  have hrenamable : markedSet.Renamable (SymbolTable.ofList markedSet.classes).resolve := by
    rw [SymbolTable.resolve_ofList]
    decide +kernel
  have hremap := MappingSet.remap_of_renamable hrenamable
  rw [SymbolTable.resolve_ofList] at hremap
  have hencodable : ∀ e ∈ [Encoding.utf8Marked, .utf16], (e.encodeText? (Tiny.text
      (markedSet.renamed (firstIntermediate markedSet.classes)))).isSome = true := by
    decide +kernel
  have htable : Tiny.table (markedSet.renamed (firstIntermediate markedSet.classes)) =
      markedTable := by
    decide +kernel
  obtain ⟨marked, hmarked⟩ := write_reads_back (by decide) (.ofText hparse) hremap
    (hencodable .utf8Marked (by decide))
  obtain ⟨wide, hwide⟩ := write_reads_back (by decide) (.ofText hparse) hremap
    (hencodable .utf16 (by decide))
  obtain ⟨t, ht, hcells⟩ := hmarked.cells
  obtain ⟨u, hu, hcells'⟩ := hwide.cells
  exact ⟨_, _, marked, wide, t, u, hremap, hmarked.contents, ht, hcells.trans htable,
    hwide.contents, hu, hcells'.trans htable⟩

end Output
end Remapping
