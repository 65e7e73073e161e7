import Remapping.Proofs.Conversion.Trace
import Remapping.Proofs.Conversion.WrittenRows
import Remapping.Proofs.Layout.Dropped
import Remapping.Report.Document

/-!
# The accounts of a conversion

The totals of a report against the lines of the text that was read and of the text that was
written. Read `convert_accounts` first: no line is lost or counted twice on the way from the one
to the other, and the document of the report says the same.
-/

namespace Remapping

open Text (IsLine)

/-- The totals of a report are those of a text that was read and of a text that was written. Each
line after the first that is not blank was either converted or warned about; the text that was
written has as many rows of each kind as the report says, each on a line of its own, and nothing
but line feeds ends its lines. -/
structure Report.Accounts (r : Report) (t u : Text) : Prop where
  lines_read : (Yarn.filledLines t).length = r.rowsConverted + r.warningCount
  classes_written : r.classCount = Tiny.countTag .classRow u
  fields_written : r.fieldCount = Tiny.countTag .fieldRow u
  methods_written : r.methodCount = Tiny.countTag .methodRow u
  line_feeds : u.count (.char '\n') = r.rowsConverted + 1
  last_line_feed : u.getLast? = some (.char '\n')
  no_return : .char '\r' ∉ u

/-- A document has the totals of a report, and one element about each of some lines, in their
order. -/
structure Report.Documented (r : Report) (dropped : List (Text × Nat)) (document : Value) :
    Prop where
  rows : document.get? "rows" = some (.table [
    ("classes", .int r.classCount),
    ("fields", .int r.fieldCount),
    ("methods", .int r.methodCount),
    ("total", .int r.rowsConverted)])
  warning_count : document.get? "warning_count" = some (.int r.warningCount)
  warnings : ∃ items, document.get? "warnings" = some (.list items) ∧
    List.Forall₂ (fun item line => ∃ fault, Yarn.readRow line.2 line.1 = .error fault ∧
      item = .table [
        ("line_number", .int line.2),
        ("message", .text fault.message),
        ("line", .text line.1)]) items dropped

/-- The document of a report has its totals, and one element about each line that a warning is
about. -/
theorem Report.documented {r : Report} {dropped : List (Text × Nat)}
    (h : List.Forall₂ Yarn.WarnsOf r.warnings dropped) (now : Moment) :
    r.Documented dropped (r.toValue now) where
  rows := rfl
  warning_count := rfl
  warnings := by
    refine ⟨_, rfl, List.forall₂_map_left_iff.mpr (h.imp fun w line hw => ?_)⟩
    obtain ⟨fault, hfault, rfl⟩ := hw
    exact ⟨fault, hfault, rfl⟩

namespace Conversion

section

variable [Codecs] {settings : ConverterSettings} {input output : Text} {elapsed : Nat}
  {s s' : Session}

namespace Trace.Leads

variable {tr : Trace} (h : tr.Leads settings input output s s')

include h

/-- As many classes, fields and methods are written as were read. -/
theorem lengths_result : tr.result.classes.length = tr.rows.classes.length ∧
    tr.result.fields.length = tr.rows.fields.length ∧
    tr.result.methods.length = tr.rows.methods.length := by
  obtain ⟨hresult, -⟩ := MappingSet.remap_cases h.remaps
  rw [hresult]
  simp [MappingSet.renamed]

/-- The version of the rows that are written is part of a line. -/
theorem isLine_version : IsLine tr.result.version := by
  obtain ⟨header, body, hlines, hstart, hversion, -⟩ := Yarn.readText_ok h.parses
  obtain ⟨hresult, -⟩ := MappingSet.remap_cases h.remaps
  have hheader : IsLine header :=
    Text.isLine_of_mem_lines (hlines.symm ▸ List.mem_cons_self)
  intro c hc
  rw [hresult, MappingSet.renamed, hversion] at hc
  exact hheader c (hstart.subset hc)

/-- The report of a trace accounts for the text that was read and the text that was written. -/
theorem accounts : (tr.report input output elapsed).Accounts tr.text tr.output := by
  have hversion := h.isLine_version
  have htabular := (Yarn.tabular_of_readText h.parses).of_remap h.remaps
  have hrows := Tiny.isLine_of_mem_rows hversion htabular
  obtain ⟨hclasses, hfields, hmethods⟩ := h.lengths_result
  have hcount := Tiny.countTag_text hversion htabular
  constructor
  case lines_read =>
    have hread := Yarn.length_filledLines h.parses
    simp only [Report.rowsConverted, Report.warningCount, Trace.report, hclasses, hfields,
      hmethods, hread, MappingSet.rowCount]
    push_cast
    rfl
  case classes_written => exact congrArg Int.ofNat (hcount .classRow).symm
  case fields_written => exact congrArg Int.ofNat (hcount .fieldRow).symm
  case methods_written => exact congrArg Int.ofNat (hcount .methodRow).symm
  case line_feeds =>
    rw [Trace.output, Tiny.text, Text.count_joined hrows]
    simp only [Tiny.rows, MappingSet.members, Report.rowsConverted, Trace.report,
      List.length_append, List.length_cons, List.length_map]
    omega
  case last_line_feed => exact Text.getLast?_joined (List.cons_ne_nil _ _)
  case no_return => exact Text.return_notMem_joined hrows

end Trace.Leads

/-- A conversion that succeeds accounts for all lines. Those after the first that are not blank
are as many as the rows that it converts and the warnings that it gives; the rows that it writes
are as many as the report and the writer say, of each kind, and each of them is one line. The
document of the report has the same totals, and one warning about each line that was dropped, in
the order of the lines. -/
theorem convert_accounts {report : Report}
    (h : convert settings input output elapsed s = (.ok report, s')) :
    ∃ tr : Trace, tr.Leads settings input output s s' ∧ report.Accounts tr.text tr.output ∧
      report.rowsConverted = tr.count ∧
      ∀ now, report.Documented (Yarn.droppedLines tr.text) (report.toValue now) := by
  obtain ⟨tr, hleads, rfl⟩ := exists_trace h
  obtain ⟨before, written, bytes, -, hwrite, -⟩ := hleads.writes
  obtain ⟨hcount, -⟩ := Output.write_eq_ok_iff.mp hwrite
  refine ⟨tr, hleads, hleads.accounts, ?_, fun now => ?_⟩
  · rw [hcount, MappingSet.rowCount]
    push_cast
    rfl
  · exact Report.documented (Yarn.forall₂_warnings hleads.parses) now

end

open scoped Codecs

/-- A mapping file with all three line ends and no line end after its last line. One line is blank,
the third and the sixth are no rows, and a field has separators in it that end no line. -/
def mixedText : Text :=
  "v1 beta\tofficial\r" ++ "CLASS\ta\tC_1\tMain\r\n" ++ "CLASS\ta\n" ++ "\u0085 \u000b\n" ++
    "FIELD\ta\tI\u000b\tf\tf_1\tx\u001cy\r" ++ " CLASS\tb\tC_2\tLeaf\n" ++
    "METHOD\ta\t()V\tm\tm_1\trun"

/-- Five lines of the mixed file are converted or warned about, and two of them are warned
about. -/
theorem convert_accounts_mixed :
    ∃ report s', convert sampleSettings "in" "out" 0 (sampleSession mixedText) =
        (.ok report, s') ∧ report.rowsConverted + report.warningCount = 5 ∧
      ∃ items, (report.toValue {}).get? "warnings" = some (.list items) ∧ items.length = 2 := by
  have hbytes : Encoding.latin1.decode true (mixedText.map fun c => UInt8.ofNat c.toNat) =
      .ok mixedText := by
    decide +kernel
  have hfilled : (Yarn.filledLines mixedText).length = 5 := by decide +kernel
  have hdropped : Yarn.droppedLines mixedText =
      [("CLASS\ta".toText, 3), (" CLASS\tb\tC_2\tLeaf".toText, 6)] := by
    decide +kernel
  obtain ⟨report, s', h⟩ := exists_sample_report hbytes (by decide +kernel) (by decide +kernel)
  obtain ⟨tr, hleads, haccounts, -, hdocumented⟩ := convert_accounts h
  obtain ⟨-, htext⟩ := hleads.of_sample hbytes
  rw [htext] at haccounts hdocumented
  obtain ⟨items, hitems, hwarnings⟩ := (hdocumented {}).warnings
  refine ⟨report, s', h, ?_, items, hitems, ?_⟩
  · rw [← haccounts.lines_read, hfilled]
    rfl
  · rw [hwarnings.length_eq, hdropped]
    rfl

end Conversion
end Remapping
