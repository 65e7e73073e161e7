import Remapping.Console.Item

/-!
# A console as text

Every item becomes lines of text, each with a line feed: a banner in a box, a heading in a rule
as wide as the console, a message after its sign, a table in a grid. A line is as wide as its
characters are many.
-/

namespace Remapping.Console

/-- The width of a console. -/
def width : Nat := 120

/-- A character that a console does not show. -/
def isSilent (c : CodePoint) : Bool := [7, 8, 11, 12, 13].contains c.toNat

/-- A text as a console shows it: silent characters are left out, and a single backslash at the
end is doubled. -/
def literal (t : Text) : Text :=
  let single := t.getLast? = some (.char '\\') && t.dropLast.getLast? != some (.char '\\')
  (if single then t ++ [.char '\\'] else t).filter fun c => !isSilent c

/-- A line in which every tab is filled up with blanks to the next multiple of eight. -/
def expandTabs (line : Text) : Text :=
  line.foldl
    (fun (done : Text) (c : CodePoint) =>
      if c = '\t' then Text.padRight (done.length + (8 - done.length % 8)) ' ' done
      else done ++ [c])
    []

/-- The lines of a text. -/
def linesOf (t : Text) : List Text := (t.splitOn (.char '\n')).map expandTabs

/-- The width of the widest of some lines. -/
def widest (lines : List Text) : Nat := lines.foldl (fun n line => max n line.length) 0

/-- Lines with a line feed each. -/
def ended (lines : List Text) : Text := lines.flatMap (· ++ [.char '\n'])

/-! ## Messages, headings and banners -/

/-- The sign in front of a message. -/
def Sign.mark : Sign → Text
  | success => "[✔] SUCCESS: "
  | warning => "[⚠] WARNING: "
  | error => "[✘] ERROR: "
  | info => "[ℹ] INFO: "

/-- A message after its sign. -/
def message (sign : Sign) (t : Text) : Text := ended (linesOf (sign.mark ++ literal t))

/-- A heading in the middle of a rule. -/
def heading (title : Text) : Text :=
  let oneLine : Text := (literal title).map fun c : CodePoint => if c = '\n' then .char ' ' else c
  let t : Text := " " ++ expandTabs ("  " ++ oneLine ++ "  ") ++ " "
  let left := (width - t.length) / 2
  ended [Text.padRight width '─' (Text.padLeft (left + t.length) '─' t)]

/-- The second line of a banner. -/
def tagline (version : Text) : Text :=
  "Obfuscation mapping conversion toolkit  |  Version: " ++ version

/-- A text before the mark that ends its style: of several backslashes there, two stand for
one, and an odd one takes the mark for text. -/
def beforeMark (mark t : Text) : Text :=
  let count := (t.reverse.takeWhile (· == .char '\\')).length
  if count ≤ 1 then t
  else t.take (t.length - count) ++ Text.padRight (count / 2) '\\' [] ++
    (if count % 2 = 1 then mark else [])

/-- A banner: the tool and the version in a box. -/
def banner (tool version : Text) : Text :=
  let body := beforeMark "[/remap.banner]" tool ++
    .char '\n' :: beforeMark "[/remap.dim]" (tagline version)
  let lines := List.splitOn (.char '\n') (body.filter fun c => !isSilent c)
  let inner := widest lines
  let rule := Text.padRight (inner + 4) '─' []
  let sides : List Text := lines.map fun line => "│  " ++ Text.padRight inner ' ' line ++ "  │"
  ended (["╭" ++ rule ++ "╮"] ++ sides ++ ["╰" ++ rule ++ "╯"])

/-! ## Lines of words -/

/-- A text cut into pieces of a width. -/
def pieces (width : Nat) (t : Text) : List Text :=
  if width = 0 ∨ t.length ≤ width then [t] else t.take width :: pieces width (t.drop width)
termination_by t.length
decreasing_by simp only [List.length_drop]; omega

/-- The words of a text, each with the blanks after it, and the first with the blanks before. -/
def words (t : Text) : List Text :=
  let step (done : List Text) (c : CodePoint) : List Text :=
    match done with
    | [] => [[c]]
    | word :: before =>
      if c != ' ' && word.head? = some (.char ' ') && word.any (· != .char ' ') then
        [c] :: word :: before
      else (c :: word) :: before
  (t.foldl step []).reverse.map List.reverse

/-- A text without the blanks at its end. -/
def trimEnd (t : Text) : Text := (t.reverse.dropWhile (· == .char ' ')).reverse

/-- Puts words on lines of a width; a word that is wider by itself is cut. -/
def wrap (width : Nat) (t : Text) : List Text :=
  let step (state : List Text × Text) (word : Text) : List Text × Text :=
    let (done, line) := state
    let needed := (trimEnd word).length
    if line.length + needed ≤ width then (done, line ++ word)
    else
      let done := if line = [] then done else line :: done
      if width < needed then
        let cut := pieces width word
        (cut.dropLast.reverse ++ done, cut.getLastD [])
      else (done, word)
  let (done, line) := (words t).foldl step ([], [])
  (line :: done).reverse

/-- Lines of words in the middle of a width. -/
def centred (width : Nat) (t : Text) : List Text :=
  (linesOf t).flatMap fun line => (wrap width line).map fun line =>
    let line := trimEnd line
    Text.padRight width ' ' (Text.padLeft ((width - line.length) / 2 + line.length) ' ' line)

/-! ## Tables -/

/-- The characters of a grid line. -/
structure Edge where
  left : CodePoint
  fill : CodePoint
  between : CodePoint
  right : CodePoint

/-- A grid line over columns of some widths. -/
def Edge.line (e : Edge) (widths : List Nat) : Text :=
  e.left :: List.intercalate [e.between] (widths.map fun w => List.replicate (w + 2) e.fill) ++
    [e.right]

/-- One line of cells. -/
def cellLine (left between right : CodePoint) (widths : List Nat) (cells : List Text) : Text :=
  let filled := (widths.zip cells).map fun (w, cell) =>
    [.char ' '] ++ Text.padRight w ' ' cell ++ [.char ' ']
  left :: List.intercalate [between] filled ++ [right]

/-- The lines of a row whose cells may have several lines each. -/
def rowLines (left between right : CodePoint) (atEnd : Bool) (widths : List Nat)
    (cells : List (List Text)) : List Text :=
  let height := cells.foldl (fun n lines => max n lines.length) 1
  let level (lines : List Text) : List Text :=
    let blank := List.replicate (height - lines.length) []
    if atEnd then blank ++ lines else lines ++ blank
  (List.range height).map fun n =>
    cellLine left between right widths (cells.map fun lines => (level lines).getD n [])

/-- The cells of a row, with empty ones up to a number. -/
def fillCells (count : Nat) (cells : List (List Text)) : List (List Text) :=
  cells ++ List.replicate (count - cells.length) [[]]

/-- A table in a grid, its title above and its caption below. -/
def table (t : Table) : Text :=
  let header := t.columns.map linesOf
  let rows := t.rows.map fun row => row.map fun cell => linesOf (literal cell.shown)
  let count := (header :: rows).foldl (fun n cells => max n cells.length) 0
  if count = 0 then [.char '\n']
  else
    let header := fillCells count header
    let rows := rows.map (fillCells count)
    let widths := (List.range count).map fun n =>
      (header :: rows).foldl (fun w cells => max w (widest (cells.getD n []))) 0
    let across := widths.foldl (· + · + 3) 1
    let aside (text : Text) : List Text := if text = [] then [] else centred across text
    ended (
      aside t.title ++
      [Edge.line ⟨'┏', '━', '┳', '┓'⟩ widths] ++
      rowLines '┃' '┃' '┃' true widths header ++
      [Edge.line ⟨'┡', '━', '╇', '┩'⟩ widths] ++
      rows.flatMap (rowLines '│' '│' '│' false widths) ++
      [Edge.line ⟨'└', '─', '┴', '┘'⟩ widths] ++
      aside t.caption.text)

/-- The text of an item. -/
def Item.render : Item → Text
  | banner tool version => Console.banner tool version
  | heading title => Console.heading title
  | message sign text => Console.message sign text
  | table t => Console.table t

/-- The text of a console. -/
def render (items : List Item) : Text := items.flatMap Item.render

end Remapping.Console
