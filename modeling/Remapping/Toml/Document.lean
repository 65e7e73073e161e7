import Remapping.Toml.Number

/-!
# Settings files

A settings file is a sequence of statements: a key with its value, the opening of a table, or
the opening of one more table of a list. A table is opened at most once, and what was given as
an inline value cannot be extended. `parse` gives the entries of the whole file.
-/

namespace Remapping.Toml

/-- The entries of a table. -/
abbrev Entries := List (Text × Value)

/-- Replaces the value of a key. -/
def replace (entries : Entries) (name : Text) (value : Value) : Entries :=
  entries.map fun entry => if entry.1 = name then (name, value) else entry

/-- Changes the table that a key leads to; tables on the way that do not exist are made, and a
list of tables stands for its last one. -/
def changeAt (change : Entries → Option Entries) : Key → Entries → Option Entries
  | [], entries => change entries
  | name :: key, entries =>
    match Value.find? entries name with
    | none => (changeAt change key []).map fun inner => entries ++ [(name, .table inner)]
    | some (.table inner) =>
      (changeAt change key inner).map fun inner => replace entries name (.table inner)
    | some (.list items) =>
      match items.getLast? with
      | some (.table inner) =>
        (changeAt change key inner).map fun inner =>
          replace entries name (.list (items.dropLast ++ [.table inner]))
      | _ => none
    | some _ => none

/-- Adds an entry whose name is new. -/
def addEntry (name : Text) (value : Value) (entries : Entries) : Option Entries :=
  if (Value.find? entries name).isSome then none else some (entries ++ [(name, value)])

/-- Adds an empty table to the list of a name, or starts the list. -/
def addTable (name : Text) (entries : Entries) : Option Entries :=
  match Value.find? entries name with
  | none => some (entries ++ [(name, .list [.table []])])
  | some (.list items) => some (replace entries name (.list (items ++ [.table []])))
  | some _ => none

/-- A part of a file that has been read. -/
structure Draft where
  entries : Entries := []
  /-- The key of the open table. -/
  header : Key := []
  /-- The keys of the tables that cannot be opened any more. -/
  closed : List Key := []
  /-- The keys that are closed when the next table is opened. -/
  pending : List Key := []
  /-- The keys of inline values, below which nothing can be added. -/
  inline : List Key := []

namespace Draft

/-- Whether a key leads to an inline value or below one. -/
def isInline (d : Draft) (key : Key) : Bool := d.inline.any (·.isPrefixOf key)

/-- Adds a key with its value to the open table. -/
def assign (d : Draft) (key : Key) (value : Value) : Option Draft := do
  let path := key.dropLast
  let above := (List.range path.length).map fun n => d.header ++ path.take (n + 1)
  if above.any d.closed.contains || d.isInline (d.header ++ path) then none
  let entries ← changeAt (addEntry (key.getLastD []) value) (d.header ++ path) d.entries
  let inline := match value with
    | .table _ | .list _ => (d.header ++ key) :: d.inline
    | _ => d.inline
  return { d with entries, inline, pending := above ++ d.pending }

/-- Closes the pending keys. -/
def settle (d : Draft) : Draft := { d with closed := d.pending ++ d.closed, pending := [] }

/-- Opens a table. -/
def openTable (d : Draft) (key : Key) : Option Draft := do
  if d.closed.contains key || d.isInline key then none
  let entries ← changeAt some key d.entries
  return { d with entries, header := key, closed := key :: d.closed }

/-- Opens one more table of a list; what stood below the key before does not bind it. -/
def openListItem (d : Draft) (key : Key) : Option Draft := do
  if d.isInline key then none
  let entries ← changeAt (addTable (key.getLastD [])) key.dropLast d.entries
  let elsewhere (k : Key) : Bool := !key.isPrefixOf k
  return { d with
    entries
    header := key
    closed := key :: d.closed.filter elsewhere
    inline := d.inline.filter elsewhere }

end Draft

mutual

/-- Reads a value; `fuel` bounds the depth and the number of parts. -/
def value : Nat → Reader Value
  | 0 => failure
  | fuel + 1 => do
    let rest ← get
    match rest with
    | .char '\x22' :: _ => return .text (← string '\x22')
    | .char '\x27' :: _ => return .text (← string '\x27')
    | .char 't' :: _ =>
      expect "true"
      return .bool true
    | .char 'f' :: _ =>
      expect "false"
      return .bool false
    | .char '[' :: rest =>
      set rest
      return .list (← items fuel)
    | .char '\x7b' :: rest =>
      set rest
      skipSpaces
      if ← accept [.char '\x7d'] then return .table []
      return .table (← fields fuel {})
    | _ => moment <|> number

/-- Reads the items of a list up to its closing bracket. -/
def items : Nat → Reader (List Value)
  | 0 => failure
  | fuel + 1 => do
    skipLines (← get).length
    if ← accept [.char ']'] then return []
    let item ← value fuel
    skipLines (← get).length
    if ← accept [.char ','] then return item :: (← items fuel)
    expect [.char ']']
    return [item]

/-- Reads the fields of an inline table up to its closing brace. -/
def fields : Nat → Draft → Reader Entries
  | 0, _ => failure
  | fuel + 1, d => do
    let path ← key
    expect [.char '=']
    skipSpaces
    let field ← value fuel
    match d.assign path field with
    | none => failure
    | some d =>
      skipSpaces
      if ← accept [.char '\x7d'] then return d.entries
      expect [.char ',']
      skipSpaces
      fields fuel d

end

/-- Reads a statement. -/
def statement (d : Draft) : Reader Draft := do
  if ← accept "[[" then
    skipSpaces
    let path ← key
    expect "]]"
    d.settle.openListItem path
  else if ← accept [.char '['] then
    skipSpaces
    let path ← key
    expect [.char ']']
    d.settle.openTable path
  else
    let path ← key
    expect [.char '=']
    skipSpaces
    let field ← value (2 * (← get).length + 2)
    d.assign path field

/-- Reads statements up to the end; `fuel` bounds the number of lines. -/
def statements : Nat → Draft → Reader Draft
  | 0, d => return d
  | fuel + 1, d => do
    skipSpaces
    let start := (← get).head?
      let isOver := start = none || start = some (.char '\n') || start = some (.char '#')
      let d ← if isOver then pure d else statement d
    skipSpaces
    skipComment
    if (← get).isEmpty then return d
    expect [.char '\n']
    statements fuel d

/-- Every line ends with a line feed alone. -/
def joinLineEnds : Text → Text
  | .char '\r' :: .char '\n' :: rest => .char '\n' :: joinLineEnds rest
  | c :: rest => c :: joinLineEnds rest
  | [] => []

/-- The entries of a settings file. -/
def parse (t : Text) : Option Entries :=
  let t := joinLineEnds t
  (statements (t.length + 1) {} t).map fun (d, _) => d.entries

end Remapping.Toml
