import Remapping.Number.Binary64
import Remapping.Record.Mapping

/-!
# Conversion reports

What one conversion did: how many rows it wrote, which lines it dropped, which classes it could
not resolve, which class names were given twice, and how long it took.
-/

namespace Remapping

/-- The outcome of a conversion. -/
structure Report where
  inputPath : Text
  outputPath : Text
  classCount : Int := 0
  fieldCount : Int := 0
  methodCount : Int := 0
  warnings : List RowWarning := []
  unresolved : List Text := []
  duplicates : List Text := []
  /-- The microseconds between start and end, if the conversion has ended. -/
  duration : Option Int := none

namespace Report

/-- The number of rows written. -/
def rowsConverted (r : Report) : Int := r.classCount + r.fieldCount + r.methodCount

/-- The number of lines dropped. -/
def warningCount (r : Report) : Nat := r.warnings.length

/-- The seconds between start and end. -/
def durationSeconds (r : Report) : Option Binary64 :=
  r.duration.map fun us => Binary64.ofRatio (us < 0) us.natAbs 1000000

/-- Reads a report; the duration is no field of the record. -/
def ofValue : Value → Checked Report :=
  Value.readRecord fun entries =>
    (fun inputPath outputPath classCount fieldCount methodCount warnings unresolved duplicates =>
      { inputPath, outputPath, classCount, fieldCount, methodCount, warnings, unresolved,
        duplicates : Report }) <$>
      Value.required entries "input_path" Value.readText <*>
      Value.required entries "output_path" Value.readText <*>
      Value.optional entries "class_count" 0 Value.readInteger <*>
      Value.optional entries "field_count" 0 Value.readInteger <*>
      Value.optional entries "method_count" 0 Value.readInteger <*>
      Value.optional entries "warnings" [] (Value.readList RowWarning.ofValue) <*>
      Value.optional entries "unresolved_classes" [] (Value.readList Value.readText) <*>
      Value.optional entries "duplicate_classes" [] (Value.readList Value.readText)

end Report
end Remapping
