import Remapping.Console.Item
import Remapping.Failure
import Remapping.Number.Shortest
import Remapping.Report.Basic

/-!
# Reports on a console

A report is shown as a heading, a table of the rows written, a table of the lines dropped if
there are any, remarks on classes, and a closing message. The limit on the lines shown is a
setting: a negative one leaves out that many at the end.
-/

namespace Remapping.Report

open Console

/-- The table of the rows written. -/
def countsTable (r : Report) : Console.Table where
  title := "Rows written"
  columns := ["Kind", "Rows"]
  rows := [
    [.text "CLASS", .text (Text.ofIntGrouped r.classCount)],
    [.text "FIELD", .text (Text.ofIntGrouped r.fieldCount)],
    [.text "METHOD", .text (Text.ofIntGrouped r.methodCount)],
    [.text "Total", .text (Text.ofIntGrouped r.rowsConverted)]]
  styles := ["bold", "bright_white"]

/-- The first lines that were dropped, up to a limit. -/
def shownWarnings (r : Report) (limit : Int) : List RowWarning :=
  match limit with
  | .ofNat n => r.warnings.take n
  | .negSucc n => r.warnings.take (r.warnings.length - (n + 1))

/-- The table of the lines dropped. -/
def warningsTable (r : Report) (limit : Int) : Console.Table :=
  let shown := r.shownWarnings limit
  { title := "Skipped rows"
    columns := ["Line", "Reason"]
    rows := shown.map fun w => [.int w.lineNumber, .text w.message]
    caption :=
      if shown.length < r.warningCount then
        .line (Text.ofNat (r.warningCount - shown.length) ++ " more not shown")
      else .blank
    styles := ["dim", "yellow"] }

/-- The milliseconds between start and end; none have passed while the conversion runs. -/
def milliseconds (r : Report) : Text :=
  match r.durationSeconds with
  | some seconds => if seconds.isZero then [.char '0'] else (seconds.scaleBy 1000).renderWhole
  | none => [.char '0']

/-- The remarks on classes and the closing message. -/
def closing (r : Report) : List Item :=
  let unresolved : List Item :=
    if r.unresolved.isEmpty then []
    else [.message .info (Text.ofNat r.unresolved.length ++
      " referenced classes have no class row and were kept unchanged")]
  let duplicates : List Item :=
    if r.duplicates.isEmpty then []
    else [.message .warning (Text.ofNat r.duplicates.length ++
      " obfuscated class names appear more than once; the first row was used")]
  let sign : Sign := if r.warningCount = 0 then .success else .warning
  unresolved ++ duplicates ++ [.message sign (
    "Converted " ++ Text.ofIntGrouped r.rowsConverted ++ " rows with " ++
      Text.ofNat r.warningCount ++ " warnings in " ++ r.milliseconds ++ " ms")]

/-- The limit that a setting gives; without a value there is none. -/
def limitOf (r : Report) : Value → Option Int
  | .int n => some n
  | .bool b => some (if b then 1 else 0)
  | .null => some r.warnings.length
  | _ => none

/-- What a report shows, and the failure that cuts it short: the limit has to be an integer if
there are lines dropped. -/
def display (r : Report) (limit : Value) : List Item × Option Failure :=
  let counts := [.heading "Tiny Mappings", .table r.countsTable]
  if r.warnings.isEmpty then (counts ++ r.closing, none)
  else match r.limitOf limit with
    | some n => (counts ++ .table (r.warningsTable n) :: r.closing, none)
    | none => (counts, some .wrongType)

end Remapping.Report
