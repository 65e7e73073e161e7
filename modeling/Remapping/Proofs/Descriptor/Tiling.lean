import Mathlib.Algebra.GroupWithZero.Nat
import Mathlib.Computability.RegularExpressions
import Remapping.Proofs.Descriptor.Splicing

/-!
# Tokens tile the text

The tokens of a scan follow each other from the start of the text on, without a gap, and each of
them stands for the characters at its offset. Read `Scan.Tiles` first: it says this of a part of a
scan that may also meet a fault, and where the fault is told; each scan is shown to keep it.
`tokens_tile` is what comes of it for whole texts, accepted or not.
-/

namespace Remapping.Descriptor

/-! ## Kinds and widths -/

/-- What a token is, apart from the letter or the name that it holds. -/
inductive Kind
  | parameters
  | result
  | array
  | base
  | className
  | finish
  deriving DecidableEq

/-- The kind of a lexeme. -/
def Lexeme.kind : Lexeme → Kind
  | parameters => .parameters
  | result => .result
  | array => .array
  | base _ => .base
  | className _ => .className
  | finish => .finish

/-- How many characters a lexeme stands for: the name of a class stands between two others, and
the end of a text is no character. -/
def Lexeme.width : Lexeme → Nat
  | className name => name.length + 2
  | finish => 0
  | parameters | result | array | base _ => 1

@[simp] theorem Lexeme.length_spelling (lexeme : Lexeme) :
    lexeme.spelling.length = lexeme.width := by
  cases lexeme with
  | className name => simp [spelling, width]
  | _ => rfl

namespace Token

/-- The offset behind the characters of a token. -/
def stop (token : Token) : Nat := token.position + token.lexeme.width

/-- The characters of a text that a token stands for. -/
def span (s : Text) (token : Token) : Text := s.extract token.position token.stop

end Token

/-- How many characters the tokens of a scan stand for. -/
def Scan.extent {α : Type} (scan : Scan α) : Nat := (scan.tokens.map (·.lexeme.width)).sum

/-- The text of tokens is as long as they are wide together. -/
theorem length_spelled (tokens : List Token) :
    (spelled tokens).length = (tokens.map (·.lexeme.width)).sum := by
  rw [spelled, List.length_flatMap]
  simp only [Lexeme.length_spelling]

/-! ## Laid tokens in a text -/

/-- Laid tokens stand one behind the other: each starts where the one before it stops. -/
theorem Laid.isChain {pos : Nat} {tokens : List Token} (h : Laid pos tokens) :
    tokens.IsChain fun token next => next.position = token.stop := by
  induction tokens generalizing pos with
  | nil => exact .nil
  | cons token tokens ih =>
      obtain ⟨hposition, hrest⟩ := h
      cases tokens with
      | nil => exact .singleton _
      | cons next tokens =>
          refine .cons_cons ?_ (ih hrest)
          rw [hrest.1, Token.stop, hposition, Lexeme.length_spelling]

/-- Laid tokens stop where their text ends, or before. -/
theorem Laid.stop_le {pos : Nat} {tokens : List Token} {token : Token} (h : Laid pos tokens)
    (hmem : token ∈ tokens) : token.stop ≤ pos + (spelled tokens).length := by
  induction tokens generalizing pos with
  | nil => cases hmem
  | cons first tokens ih =>
      obtain ⟨hposition, hrest⟩ := h
      rw [spelled, List.flatMap_cons, List.length_append, ← Nat.add_assoc]
      rcases List.mem_cons.mp hmem with rfl | hmem
      · rw [Token.stop, hposition, Lexeme.length_spelling]
        exact Nat.le_add_right _ _
      · exact ih hrest hmem

/-- Laid tokens read back from any text that starts with theirs. -/
theorem span_of_laid {tokens : List Token} {token : Token} (h : Laid 0 tokens)
    (hmem : token ∈ tokens) (rest : Text) :
    token.span (spelled tokens ++ rest) = token.lexeme.spelling := by
  have hstop : token.stop ≤ (spelled tokens).length := by
    simpa using h.stop_le hmem
  have hread : ([] ++ spelled tokens).extract token.position
      (token.position + token.lexeme.spelling.length) = token.lexeme.spelling :=
    extract_of_laid h hmem
  rw [List.nil_append, Lexeme.length_spelling] at hread
  have hstart : token.position ≤ (spelled tokens).length :=
    Nat.le_trans (Nat.le_add_right _ _) hstop
  rw [Token.span, List.extract_eq_take_drop, List.drop_append_of_le_length hstart,
    List.take_append_of_le_length, ← List.extract_eq_take_drop]
  · exact hread
  · rw [List.length_drop]
    omega

/-! ## Scans that tile -/

/-- Tokens from one cursor to another one: they are laid between the two, and stand for the text
between the two. -/
structure Covers (start : Cursor) (tokens : List Token) (stop : Cursor) : Prop where
  laid : Laid start.offset tokens
  rest : start.rest = spelled tokens ++ stop.rest
  offset : stop.offset = start.offset + (spelled tokens).length

/-- Without tokens the cursor stays. -/
theorem Covers.nil (cursor : Cursor) : Covers cursor [] cursor := ⟨trivial, rfl, rfl⟩

/-- A token moves the cursor over its characters. -/
theorem Covers.singleton (pos : Nat) (lexeme : Lexeme) (rest : Text) :
    Covers ⟨pos, lexeme.spelling ++ rest⟩ [⟨pos, lexeme⟩] ⟨pos + lexeme.width, rest⟩ := by
  refine ⟨⟨rfl, trivial⟩, ?_, ?_⟩
  · simp [spelled]
  · simp [spelled]

/-- Tokens up to a cursor and tokens from there on cover the text together. -/
theorem Covers.append {start middle stop : Cursor} {tokens more : List Token}
    (h : Covers start tokens middle) (hmore : Covers middle more stop) :
    Covers start (tokens ++ more) stop := by
  constructor
  case laid => exact laid_append.mpr ⟨h.laid, h.offset ▸ hmore.laid⟩
  case rest =>
    rw [h.rest, hmore.rest, spelled, spelled, spelled, List.flatMap_append, List.append_assoc]
  case offset =>
    rw [hmore.offset, h.offset, spelled, spelled, spelled, List.flatMap_append,
      List.length_append, Nat.add_assoc]

/-- A fault that is found at a cursor. It is told at the offset of the cursor; only the fault of a
name without an end is told at the end of the text, and then the cursor is at its marker. -/
inductive FoundAt (cursor : Cursor) : Fault → Prop
  | here (reason : Reason) :
      reason ≠ .unterminatedName → FoundAt cursor ⟨cursor.offset, reason⟩
  | atEnd (name : Text) :
      cursor.rest = .char 'L' :: name →
        FoundAt cursor ⟨cursor.offset + cursor.rest.length, .unterminatedName⟩

/-- A scan from a cursor on whose tokens cover the text up to where it stops: there it has found a
fault, or it ends with a value as `Ends` says. -/
def Scan.Tiles {α : Type} (start : Cursor) (scan : Scan α) (Ends : Cursor → α → Prop) : Prop :=
  ∃ stop, Covers start scan.tokens stop ∧
    match scan.outcome with
    | .ok value => Ends stop value
    | .error fault => FoundAt stop fault

namespace Scan.Tiles

variable {α β : Type} {start : Cursor}

/-- A scan can fail where it starts. -/
theorem fail (start : Cursor) {Ends : Cursor → α → Prop} {reason : Reason}
    (h : reason ≠ .unterminatedName) : Tiles start (Scan.fail reason start.offset) Ends :=
  ⟨start, .nil start, .here reason h⟩

/-- A token in front of a scan that tiles. -/
theorem after (lexeme : Lexeme) {Ends : Cursor → α → Prop} {scan : Scan α} {pos : Nat}
    {rest : Text} (h : Tiles ⟨pos + lexeme.width, rest⟩ scan Ends) :
    Tiles ⟨pos, lexeme.spelling ++ rest⟩ (scan.after ⟨pos, lexeme⟩) Ends := by
  obtain ⟨stop, hcovers, hend⟩ := h
  exact ⟨stop, (Covers.singleton pos lexeme rest).append hcovers, hend⟩

/-- Where one scan ends the next one goes on. -/
theorem andThen {Ends : Cursor → α → Prop} {Ends' : Cursor → β → Prop} {scan : Scan α}
    {next : α → Scan β} (h : Tiles start scan Ends)
    (hnext : ∀ stop value, scan.outcome = .ok value → Ends stop value →
      Tiles stop (next value) Ends') : Tiles start (scan.andThen next) Ends' := by
  obtain ⟨tokens, outcome⟩ := scan
  obtain ⟨middle, hcovers, hend⟩ := h
  cases outcome with
  | error fault => exact ⟨middle, hcovers, hend⟩
  | ok value =>
      obtain ⟨stop, hmore, hend⟩ := hnext middle value rfl hend
      exact ⟨stop, hcovers.append hmore, hend⟩

end Scan.Tiles

/-- A scan of a class tiles the text: over the class, or not at all. -/
theorem tiles_scanType_class (allowVoid : Bool) (pos : Nat) (cs : Text) :
    (scanType allowVoid pos (.char 'L' :: cs)).Tiles ⟨pos, .char 'L' :: cs⟩ fun stop cursor =>
      cursor = stop := by
  have hbase : ¬ isBaseLetter 'L' = true := by decide
  rw [scanType, if_neg (by decide), if_neg hbase, if_pos rfl]
  cases hd : cs.dropWhile (· != .char ';') with
  | nil =>
      have hname : cs.takeWhile (· != .char ';') = cs := by
        simpa [hd] using List.takeWhile_append_dropWhile (p := (· != .char ';')) (l := cs)
      have hend : pos + 1 + cs.length = pos + (.char 'L' :: cs).length := by
        rw [List.length_cons, Nat.add_assoc, Nat.add_comm 1]
      simp only [hname, hend]
      exact ⟨_, .nil _, .atEnd cs rfl⟩
  | cons d rest =>
      obtain ⟨-, hcs⟩ := Text.cut_of_dropWhile_eq_cons hd
      dsimp only
      split
      · exact .fail ⟨pos, .char 'L' :: cs⟩ (by decide)
      · have htext : .char 'L' :: cs =
            (Lexeme.className (cs.takeWhile (· != .char ';'))).spelling ++ rest := by
          rw [Lexeme.spelling, List.append_assoc, List.cons_append]
          exact congrArg (CodePoint.char 'L' :: ·) hcs
        rw [htext]
        exact Scan.Tiles.after (.className _) ⟨_, .nil _, rfl⟩

/-- A scan of a field type tiles the text. -/
theorem tiles_scanType (allowVoid : Bool) (pos : Nat) (cs : Text) :
    (scanType allowVoid pos cs).Tiles ⟨pos, cs⟩ fun stop cursor => cursor = stop := by
  induction cs generalizing allowVoid pos with
  | nil => exact .fail ⟨pos, []⟩ (by decide)
  | cons c cs ih =>
      by_cases hclass : c = 'L'
      · subst hclass
        exact tiles_scanType_class allowVoid pos cs
      unfold scanType
      split
      · -- Below an array marker the element tiles the rest.
        next hbracket =>
        subst hbracket
        exact Scan.Tiles.after .array (ih false (pos + 1))
      · split
        · split
          · exact .fail ⟨pos, c :: cs⟩ (by decide)
          · exact Scan.Tiles.after (.base c) ⟨_, .nil _, rfl⟩
        · exact .fail ⟨pos, c :: cs⟩ (by simp)

/-- The loop over the parameters tiles the text up to the closing parenthesis. -/
theorem tiles_scanParameters (pos : Nat) (cs : Text) :
    (scanParameters pos cs).Tiles ⟨pos, cs⟩ fun stop cursor =>
      cursor = stop ∧ ∃ rest, stop.rest = .char ')' :: rest := by
  -- The loop goes on behind a whole type, not behind one character: induction on the length.
  induction hn : cs.length using Nat.strongRecOn generalizing pos cs with
  | ind n ih =>
      cases cs with
      | nil =>
          rw [scanParameters]
          exact .fail ⟨pos, []⟩ (by decide)
      | cons c cs =>
          by_cases hc : c = ')'
          · subst hc
            rw [scanParameters]
            exact ⟨_, .nil _, rfl, cs, rfl⟩
          · rw [scanParameters_eq_andThen hc]
            refine (tiles_scanType false pos (c :: cs)).andThen fun stop cursor hcursor hstop => ?_
            subst hstop
            exact ih _ (hn ▸ scanType_shorter hcursor) cursor.offset cursor.rest rfl

/-- The end of a scan tiles what is left if this is nothing. -/
theorem tiles_scanEnd {reason : Reason} (h : reason ≠ .unterminatedName) (cursor : Cursor) :
    (scanEnd reason cursor).Tiles cursor fun stop _ => stop.rest = [] := by
  unfold scanEnd
  split
  · next hrest =>
    refine ⟨cursor, ⟨⟨rfl, trivial⟩, ?_, ?_⟩, hrest⟩
    · rfl
    · rfl
  · exact .fail cursor h

/-- From the closing parenthesis on, the scan of the result tiles the text. -/
theorem tiles_scanResult (pos : Nat) (rest : Text) :
    (scanResult ⟨pos, .char ')' :: rest⟩).Tiles ⟨pos, .char ')' :: rest⟩
      fun stop _ => stop.rest = [] := by
  refine Scan.Tiles.after .result ?_
  refine (tiles_scanType true (pos + 1) rest).andThen fun stop cursor _ hstop => ?_
  subst hstop
  exact tiles_scanEnd (by decide) cursor

/-- The scan of a method descriptor tiles its text. -/
theorem tiles_scanMethod (s : Text) :
    (scanMethod s).Tiles ⟨0, s⟩ fun stop _ => stop.rest = [] := by
  unfold scanMethod
  split
  · next cs =>
    refine Scan.Tiles.after .parameters ?_
    refine (tiles_scanParameters 1 cs).andThen fun stop cursor _ hstop => ?_
    obtain ⟨rfl, rest, hrest⟩ := hstop
    obtain ⟨offset, _⟩ := cursor
    subst hrest
    exact tiles_scanResult offset rest
  · exact .fail ⟨0, s⟩ (by decide)

/-- The scan of a field descriptor tiles its text. -/
theorem tiles_scanField (s : Text) :
    (scanField s).Tiles ⟨0, s⟩ fun stop _ => stop.rest = [] := by
  refine (tiles_scanType false 0 s).andThen fun stop cursor _ hstop => ?_
  subst hstop
  exact tiles_scanEnd (by decide) cursor

/-! ## The shape of a complete scan -/

/-- The kinds of tokens, one for each token. -/
def kinds (tokens : List Token) : List Kind := tokens.map (·.lexeme.kind)

/-- The kinds of the tokens of one type: array markers, then a base type or a class. -/
def typeShape : RegularExpression Kind := .star (.char .array) * (.char .base + .char .className)

/-- The kinds of the tokens of a field descriptor. -/
def fieldShape : RegularExpression Kind := typeShape * .char .finish

/-- The kinds of the tokens of a method descriptor. -/
def methodShape : RegularExpression Kind :=
  .char .parameters * .star typeShape * .char .result * typeShape * .char .finish

/-- A word of one kind has the shape of this kind. -/
theorem singleton_mem_char (kind : Kind) : [kind] ∈ (RegularExpression.char kind).matches' := rfl

/-- A word in front of words of a shape is one more of them. -/
theorem append_mem_star {shape : RegularExpression Kind} {word words : List Kind}
    (h : word ∈ shape.matches') (hwords : words ∈ shape.star.matches') :
    word ++ words ∈ shape.star.matches' := by
  obtain ⟨parts, rfl, hparts⟩ := Language.mem_kstar.mp hwords
  exact Language.mem_kstar.mpr ⟨word :: parts, rfl, List.forall_mem_cons.mpr ⟨h, hparts⟩⟩

/-- Words of two shapes after each other. -/
theorem append_mem_mul {shape shape' : RegularExpression Kind} {word word' : List Kind}
    (h : word ∈ shape.matches') (h' : word' ∈ shape'.matches') :
    word ++ word' ∈ (shape * shape').matches' :=
  Language.append_mem_mul h h'

/-- A type without array markers has the shape of a type. -/
theorem element_mem_typeShape {kind : Kind} (h : kind = .base ∨ kind = .className) :
    [kind] ∈ typeShape.matches' := by
  refine Language.mem_mul.mpr ⟨[], Language.nil_mem_kstar _, [kind], ?_, rfl⟩
  rcases h with rfl | rfl
  · exact .inl rfl
  · exact .inr rfl

/-- The tokens of a derivation have the shape of a type. -/
theorem ParameterTree.kinds_mem (t : ParameterTree) (pos : Nat) :
    kinds (t.tokens pos) ∈ typeShape.matches' := by
  induction t generalizing pos with
  | base => exact element_mem_typeShape (.inl rfl)
  | object => exact element_mem_typeShape (.inr rfl)
  | array element ih =>
      obtain ⟨markers, hmarkers, last, hlast, hword⟩ := Language.mem_mul.mp (ih (pos + 1))
      have hmore := append_mem_star (singleton_mem_char .array) hmarkers
      have hkinds : kinds ((array element).tokens pos) = [.array] ++ markers ++ last := by
        rw [List.append_assoc, hword]
        rfl
      exact hkinds ▸ append_mem_mul hmore hlast

/-- The tokens of a result have the shape of a type. -/
theorem ResultTree.kinds_mem (r : ResultTree) (pos : Nat) :
    kinds (r.tokens pos) ∈ typeShape.matches' := by
  cases r with
  | void => exact element_mem_typeShape (.inl rfl)
  | value t => exact t.kinds_mem pos

/-- The tokens of parameters have the shape of types one after the other. -/
theorem kinds_parameterTokens_mem (ts : List ParameterTree) (pos : Nat) :
    kinds (parameterTokens pos ts) ∈ typeShape.star.matches' := by
  induction ts generalizing pos with
  | nil => exact Language.nil_mem_kstar _
  | cons t ts ih =>
      rw [parameterTokens, kinds, List.map_append]
      exact append_mem_star (t.kinds_mem pos) (ih _)

/-- The tokens of a method descriptor have the shape of one. -/
theorem MethodTree.kinds_mem (m : MethodTree) : kinds m.tokens ∈ methodShape.matches' := by
  have hopened := append_mem_mul (singleton_mem_char .parameters)
    (kinds_parameterTokens_mem m.parameters 1)
  have hclosed := append_mem_mul hopened (singleton_mem_char .result)
  have hresult := append_mem_mul hclosed (m.result.kinds_mem (m.resultOffset + 1))
  have hkinds : kinds m.tokens = [.parameters] ++ kinds (parameterTokens 1 m.parameters) ++
      [.result] ++ kinds (m.result.tokens (m.resultOffset + 1)) ++ [.finish] := by
    simp [kinds, MethodTree.tokens, Lexeme.kind]
  exact hkinds ▸ append_mem_mul hresult (singleton_mem_char .finish)

/-! ## Whole texts -/

/-- What the tokens of a scan say about the text `s`, also if the scan meets a fault. -/
structure Tiling (s : Text) (scan : Scan Unit) (shape : RegularExpression Kind) : Prop where
  /-- The first token starts with the text, -/
  first : ∀ token ∈ scan.tokens.head?, token.position = 0
  /-- each token starts where the one before it stops, -/
  next : scan.tokens.IsChain fun token next => next.position = token.stop
  /-- and each reads back from its place in the text. -/
  spans : ∀ token ∈ scan.tokens, token.span s = token.lexeme.spelling
  /-- So the tokens together are a start of the text. -/
  covered : scan.tokens.flatMap (·.span s) = s.take scan.extent
  extent_le : scan.extent ≤ s.length
  /-- If the scan completes, they are the whole text and have the shape of a descriptor. -/
  complete : scan.outcome = .ok () →
    scan.extent = s.length ∧ kinds scan.tokens ∈ shape.matches'
  /-- The fault of a scan is told where the tokens end; only that of a name without an end is told
  at the end of the text, and then the tokens end at the marker of the class. -/
  fault : ∀ fault, scan.outcome = .error fault →
    if fault.reason = .unterminatedName then
      fault.position = s.length ∧ s[scan.extent]? = some (.char 'L')
    else fault.position = scan.extent

/-- A scan that tiles a text is a tiling of it, if what completes has the shape. -/
theorem Scan.Tiles.tiling {s : Text} {scan : Scan Unit} {shape : RegularExpression Kind}
    (h : scan.Tiles ⟨0, s⟩ fun stop _ => stop.rest = [])
    (hshape : scan.outcome = .ok () → kinds scan.tokens ∈ shape.matches') :
    Tiling s scan shape := by
  obtain ⟨⟨offset, rest⟩, ⟨hlaid, htext, hoffset⟩, hend⟩ := h
  have hs : s = spelled scan.tokens ++ rest := htext
  have hextent : (spelled scan.tokens).length = scan.extent := length_spelled _
  have hstop : offset = scan.extent := by
    rw [← hextent]
    exact hoffset.trans (Nat.zero_add _)
  have hlength : s.length = scan.extent + rest.length := by
    rw [hs, List.length_append, hextent]
  have hspans : ∀ token ∈ scan.tokens, token.span s = token.lexeme.spelling := by
    intro token hmem
    rw [hs]
    exact span_of_laid hlaid hmem rest
  constructor
  case first =>
    intro token hmem
    obtain ⟨tokens, htokens⟩ := List.head?_eq_some_iff.mp hmem
    rw [htokens] at hlaid
    exact hlaid.1
  case next => exact hlaid.isChain
  case spans => exact hspans
  case covered =>
    rw [List.flatMap_congr hspans]
    conv => rhs; rw [hs, ← hextent, List.take_left]
    rfl
  case extent_le => exact hlength ▸ Nat.le_add_right _ _
  case complete =>
    intro houtcome
    rw [houtcome] at hend
    have hrest : rest = [] := hend
    refine ⟨?_, hshape houtcome⟩
    rw [hlength, hrest, List.length_nil, Nat.add_zero]
  case fault =>
    intro fault houtcome
    rw [houtcome] at hend
    cases hend with
    | here reason hreason => exact (if_neg hreason).symm ▸ hstop
    | atEnd name hrest =>
        have hmarker : rest = .char 'L' :: name := hrest
        refine ⟨?_, ?_⟩
        · show offset + rest.length = s.length
          rw [hstop, hlength]
        · rw [hs, ← hextent, List.getElem?_append_right (Nat.le_refl _), Nat.sub_self, hmarker]
          rfl

/-- The tokens of a scan tile the text, whether it is a descriptor or not: they follow each other
without a gap from its start on, and each reads back from its place. A complete scan tiles the
whole text, with tokens of the kinds that make a descriptor; any other one stops at its fault. -/
theorem tokens_tile (s : Text) :
    Tiling s (scanMethod s) methodShape ∧ Tiling s (scanField s) fieldShape := by
  constructor
  · refine (tiles_scanMethod s).tiling fun houtcome => ?_
    obtain ⟨m, rfl⟩ := scanMethod_sound houtcome
    rw [scanMethod_text]
    exact m.kinds_mem
  · refine (tiles_scanField s).tiling fun houtcome => ?_
    obtain ⟨t, rfl⟩ := scanField_sound houtcome
    rw [scanField_text, kinds, List.map_append]
    exact append_mem_mul (t.kinds_mem 0) (singleton_mem_char .finish)

/-- The tokens in front of a name without an end stop at its marker, the fault is told behind it. -/
example : (scanMethod "(I[Lab").extent = 3 ∧
    (scanMethod "(I[Lab").outcome = .error ⟨6, .unterminatedName⟩ := by
  decide +kernel

end Remapping.Descriptor
