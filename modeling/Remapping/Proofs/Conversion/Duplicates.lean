import Remapping.Proofs.Conversion.Accounting
import Remapping.Proofs.Mapping.Duplicates

/-!
# Repeated class rows of a conversion

A class may have more than one row. The first one gives it its name, the report lists it as a
duplicate, and all of its rows are written. Read `duplicates_reported`: it says which names a table
lists, whatever was inserted into it, and what a conversion makes of the class rows of a file.
-/

namespace Remapping

/-- The classes that the lines of a text after the first describe. -/
def Yarn.classRows (t : Text) : List ClassEntry := (Text.lines t).tail.filterMap class?

namespace Conversion

section

variable [Codecs] {settings : ConverterSettings} {input output : Text} {elapsed : Nat}
  {s s' : Session}

namespace Trace.Leads

variable {tr : Trace} (h : tr.Leads settings input output s s')

include h

/-- The classes that are read are those that the lines describe. -/
theorem classes_rows : tr.rows.classes = Yarn.classRows tr.text := by
  obtain ⟨header, body, hlines, -, -, -, hclasses, -⟩ := Yarn.readText_ok h.parses
  rw [hclasses, Yarn.classRows, hlines, List.tail_cons]

/-- Remapping leaves the classes as they are. -/
theorem classes_result : tr.result.classes = Yarn.classRows tr.text := by
  obtain ⟨hresult, -⟩ := MappingSet.remap_cases h.remaps
  rw [hresult, ← h.classes_rows]
  rfl

/-- The class rows of the text that is written are those of the classes that were read. -/
theorem linesWithTag_output :
    Tiny.linesWithTag .classRow tr.output = (Yarn.classRows tr.text).map Tiny.classRow := by
  have htabular := (Yarn.tabular_of_readText h.parses).of_remap h.remaps
  rw [Trace.output, Tiny.linesWithTag_text h.isLine_version htabular .classRow, h.classes_result]

end Trace.Leads

/-- The names that a symbol table lists as duplicates are exactly those that were inserted twice or
more, each once, in the order of their second insertions; there are none of them exactly if the
table has as many entries as different names. A conversion that succeeds reports these names for
the class rows of its file. Each of the rows is counted and written, in the order of the file,
whether or not there are others of its name. -/
theorem duplicates_reported :
    (∀ entries : List ClassEntry, ∃ table, entries.foldl SymbolTable.insert .empty = table ∧
      ListsRepeated (entries.map (·.obfuscated)) table.duplicates ∧
      (table.size = (entries.map (·.obfuscated)).toFinset.card ↔ table.duplicates = [])) ∧
    ∀ (settings : ConverterSettings) (input output : Text) (elapsed : Nat) (s s' : Session)
      (report : Report), convert settings input output elapsed s = (.ok report, s') →
      ∃ tr : Trace, tr.Leads settings input output s s' ∧
        ListsRepeated ((Yarn.classRows tr.text).map (·.obfuscated)) report.duplicates ∧
        report.classCount = (Yarn.classRows tr.text).length ∧
        Tiny.linesWithTag .classRow tr.output =
          (Yarn.classRows tr.text).map Tiny.classRow := by
  constructor
  · intro entries
    exact ⟨_, rfl, SymbolTable.listsRepeated_ofList entries, SymbolTable.size_eq_card_iff entries⟩
  · intro settings input output elapsed s s' report h
    obtain ⟨tr, hleads, rfl⟩ := exists_trace h
    refine ⟨tr, hleads, ?_, ?_, hleads.linesWithTag_output⟩
    · rw [← hleads.classes_rows]
      exact SymbolTable.listsRepeated_ofList tr.rows.classes
    · rw [← hleads.classes_result]
      rfl

end

open scoped Codecs

/-- A mapping file in which one class has three rows and another one two that are equal; a line
between them is no row. -/
def repeatedText : Text :=
  "v1\tofficial\tintermediary\tnamed\n" ++ "CLASS\tb\tC_1\tMain\n" ++ "CLASS\ta\tC_2\tLeaf\n" ++
    "CLASS\ta\n" ++ "CLASS\ta\tC_3\tRoot\n" ++ "FIELD\ta\tLa;\tf\tf_1\tself\n" ++
    "CLASS\tb\tC_1\tMain\n" ++ "CLASS\ta\tC_4\tStem\n"

/-- The class whose second row comes first is listed first, and all five rows are written. -/
theorem duplicates_reported_repeated :
    ∃ report s', convert sampleSettings "in" "out" 0 (sampleSession repeatedText) =
        (.ok report, s') ∧ report.duplicates = ["a".toText, "b".toText] ∧
      report.classCount = 5 ∧
      ∃ tr : Trace, tr.Leads sampleSettings "in" "out" (sampleSession repeatedText) s' ∧
        Tiny.linesWithTag .classRow tr.output = ["CLASS\tC_1\tMain".toText,
          "CLASS\tC_2\tLeaf".toText, "CLASS\tC_3\tRoot".toText, "CLASS\tC_1\tMain".toText,
          "CLASS\tC_4\tStem".toText] := by
  have hrows : Yarn.classRows repeatedText = [⟨"b", "C_1", "Main"⟩, ⟨"a", "C_2", "Leaf"⟩,
      ⟨"a", "C_3", "Root"⟩, ⟨"b", "C_1", "Main"⟩, ⟨"a", "C_4", "Stem"⟩] := by
    decide +kernel
  have hbytes : Encoding.latin1.decode true (repeatedText.map fun c => UInt8.ofNat c.toNat) =
      .ok repeatedText := by
    decide +kernel
  obtain ⟨report, s', h⟩ := exists_sample_report hbytes (by decide +kernel) (by decide +kernel)
  obtain ⟨tr, hleads, hlisted, hcount, hwritten⟩ := duplicates_reported.2 _ _ _ _ _ _ _ h
  obtain ⟨-, htext⟩ := hleads.of_sample hbytes
  rw [htext, hrows] at hlisted hcount hwritten
  refine ⟨report, s', h, hlisted.eq_secondOccurrences.trans (by decide), hcount, tr, hleads,
    hwritten.trans (by decide)⟩

end Conversion
end Remapping
