import Remapping.Proofs.Descriptor.Scanning

/-!
# One type in a text

The scan of one type, seen from the whole text that the type stands in. It succeeds exactly if a
type starts at the offset, and then it has looked at this type only: wherever the same characters
stand, the scan goes as far and gives the same tokens. Read `scanType_drop_eq_ok_iff` first; all
that is said here about one type comes from there.

The loop over the parameters goes over one type in each turn. `Turn` is one turn and `LoopRun` a
run of the loop, said without the loop itself. Each turn goes forward, so every run ends.
`scan_type_local` puts both together.
-/

namespace Remapping.Descriptor

/-! ## The descriptors of one type -/

/-- The descriptor of one type: of a field type, or of void where it is allowed. -/
def OneType (allowVoid : Bool) (d : Text) : Prop :=
  Grammar.Parameter d ∨ allowVoid = true ∧ d = [voidLetter]

/-- The descriptors of one type are the texts of the derivations that are allowed. -/
theorem oneType_iff_exists_tree {allowVoid : Bool} {d : Text} :
    OneType allowVoid d ↔ ∃ r : ResultTree, r.Allowed allowVoid ∧ r.text = d := by
  constructor
  · rintro (hparameter | ⟨hallowed, rfl⟩)
    · obtain ⟨t, rfl⟩ := exists_tree_of_parameter hparameter
      exact ⟨.value t, trivial, rfl⟩
    · exact ⟨.void, hallowed, rfl⟩
  · rintro ⟨r, hallowed, rfl⟩
    cases r with
    | void => exact .inr ⟨hallowed, rfl⟩
    | value t => exact .inl t.parameter

/-- No descriptor of one type goes on to that of another one. -/
theorem OneType.eq_nil_of_append {allowVoid : Bool} {d more : Text} (h : OneType allowVoid d)
    (hlonger : OneType allowVoid (d ++ more)) : more = [] := by
  obtain ⟨r, -, rfl⟩ := oneType_iff_exists_tree.mp h
  obtain ⟨q, -, hq⟩ := oneType_iff_exists_tree.mp hlonger
  have htext : r.text ++ more = q.text ++ [] := by rw [List.append_nil, hq]
  exact (ResultTree.text_append_inj htext).2

/-! ## One type at an offset -/

/-- From an offset on stand a slice of the text and what follows the slice. -/
theorem drop_eq_extract_append (s : Text) (pos length : Nat) :
    s.drop pos = s.extract pos (pos + length) ++ s.drop (pos + length) := by
  rw [List.extract_eq_take_drop, Nat.add_sub_cancel_left, ← List.drop_drop,
    List.take_append_drop]

/-- A slice is as long as its offsets and the text allow. -/
theorem length_extract (s : Text) (start stop : Nat) :
    (s.extract start stop).length = min (stop - start) (s.length - start) := by
  rw [List.extract_eq_take_drop, List.length_take, List.length_drop]

/-- Where the text of a derivation is a slice of a text, the scan gives its tokens and goes to the
end of the slice. -/
theorem scanType_of_extract {allowVoid : Bool} {r : ResultTree} (hallowed : r.Allowed allowVoid)
    {s : Text} {pos : Nat} (h : s.extract pos (pos + r.text.length) = r.text) :
    scanType allowVoid pos (s.drop pos) =
      ⟨r.tokens pos, .ok ⟨pos + r.text.length, s.drop (pos + r.text.length)⟩⟩ := by
  rw [drop_eq_extract_append s pos r.text.length, h, scanType_result hallowed]

/-- The scan at an offset succeeds exactly if the text of a derivation is the slice from there to
where the scan ends. -/
theorem scanType_drop_eq_ok_iff {allowVoid : Bool} {s : Text} {pos : Nat} {cursor : Cursor} :
    (scanType allowVoid pos (s.drop pos)).outcome = .ok cursor ↔
      ∃ r : ResultTree, r.Allowed allowVoid ∧
        s.extract pos (pos + r.text.length) = r.text ∧
        cursor = ⟨pos + r.text.length, s.drop (pos + r.text.length)⟩ := by
  constructor
  · intro h
    obtain ⟨r, hallowed, htext⟩ := scanType_sound h
    have hslice : s.extract pos (pos + r.text.length) = r.text := by
      rw [List.extract_eq_take_drop, Nat.add_sub_cancel_left, htext, List.take_left]
    rw [scanType_of_extract hallowed hslice] at h
    exact ⟨r, hallowed, hslice, (Except.ok.inj h).symm⟩
  · rintro ⟨r, hallowed, hslice, rfl⟩
    rw [scanType_of_extract hallowed hslice]

/-- One type of a text stands between two offsets in it. -/
structure Spans (allowVoid : Bool) (s : Text) (start stop : Nat) : Prop where
  lt : start < stop
  le : stop ≤ s.length
  type : OneType allowVoid (s.extract start stop)

/-- The scan at an offset succeeds exactly if a type starts there, and it goes to the end of the
type. -/
theorem scanType_eq_ok_iff_spans {allowVoid : Bool} {s rest : Text} {pos stop : Nat} :
    (scanType allowVoid pos (s.drop pos)).outcome = .ok ⟨stop, rest⟩ ↔
      Spans allowVoid s pos stop ∧ rest = s.drop stop := by
  constructor
  · intro h
    have hshorter : rest.length < (s.drop pos).length := scanType_shorter h
    obtain ⟨r, hallowed, hslice, hcursor⟩ := scanType_drop_eq_ok_iff.mp h
    obtain ⟨rfl, rfl⟩ := Cursor.mk.inj hcursor
    have hlength := congrArg List.length hslice
    rw [length_extract] at hlength
    rw [List.length_drop, List.length_drop] at hshorter
    refine ⟨⟨?lt, ?le, ?type⟩, rfl⟩
    case lt => omega
    case le => omega
    case type => exact oneType_iff_exists_tree.mpr ⟨r, hallowed, hslice.symm⟩
  · rintro ⟨⟨hlt, hle, htype⟩, rfl⟩
    obtain ⟨r, hallowed, hslice⟩ := oneType_iff_exists_tree.mp htype
    have hlength := congrArg List.length hslice
    rw [length_extract] at hlength
    obtain rfl : stop = pos + r.text.length := by omega
    exact scanType_drop_eq_ok_iff.mpr ⟨r, hallowed, hslice.symm, rfl⟩

/-! ## The same type at another offset -/

/-- The same lexeme at an offset that differs by the given distance. -/
structure Token.Moved (distance : Int) (token moved : Token) : Prop where
  position : (moved.position : Int) = token.position + distance
  lexeme : moved.lexeme = token.lexeme

/-- A lexeme moves by the distance of its offsets. -/
theorem Token.moved (pos pos' : Nat) (lexeme : Lexeme) :
    Token.Moved (pos' - pos) ⟨pos, lexeme⟩ ⟨pos', lexeme⟩ := by
  refine ⟨?_, rfl⟩
  show (pos' : Int) = pos + (pos' - pos)
  omega

/-- The tokens of a derivation move with the offset of its text. -/
theorem ParameterTree.tokens_moved (t : ParameterTree) (pos pos' : Nat) :
    List.Forall₂ (Token.Moved (pos' - pos)) (t.tokens pos) (t.tokens pos') := by
  induction t generalizing pos pos' with
  | base | object => exact .cons (Token.moved pos pos' _) .nil
  | array element ih =>
      -- The element starts one character later in both texts, so the distance is the same.
      have hdistance : ((pos' + 1 : Nat) : Int) - (pos + 1 : Nat) = pos' - pos := by omega
      exact .cons (Token.moved pos pos' _) (hdistance ▸ ih (pos + 1) (pos' + 1))

/-- The tokens of a result move with the offset of its text. -/
theorem ResultTree.tokens_moved (r : ResultTree) (pos pos' : Nat) :
    List.Forall₂ (Token.Moved (pos' - pos)) (r.tokens pos) (r.tokens pos') := by
  cases r with
  | void => exact .cons (Token.moved pos pos' _) .nil
  | value t => exact t.tokens_moved pos pos'

/-- The scan of a type that stands in `s` from `pos` to `stop` does the same at `pos'` in `s'`: it
goes as far, and it gives the same tokens at the other offsets. -/
structure RunsAlike (allowVoid : Bool) (s : Text) (pos stop : Nat) (s' : Text) (pos' : Nat) :
    Prop where
  outcome : (scanType allowVoid pos' (s'.drop pos')).outcome =
    .ok ⟨pos' + (stop - pos), s'.drop (pos' + (stop - pos))⟩
  tokens : List.Forall₂ (Token.Moved (pos' - pos)) (scanType allowVoid pos (s.drop pos)).tokens
    (scanType allowVoid pos' (s'.drop pos')).tokens

/-- The scan of a type depends on the characters of the type alone. -/
theorem runsAlike_of_extract_eq {allowVoid : Bool} {s rest s' : Text} {pos stop pos' : Nat}
    (h : (scanType allowVoid pos (s.drop pos)).outcome = .ok ⟨stop, rest⟩)
    (hsame : s'.extract pos' (pos' + (stop - pos)) = s.extract pos stop) :
    RunsAlike allowVoid s pos stop s' pos' := by
  obtain ⟨r, hallowed, hslice, hcursor⟩ := scanType_drop_eq_ok_iff.mp h
  obtain ⟨rfl, rfl⟩ := Cursor.mk.inj hcursor
  rw [Nat.add_sub_cancel_left, hslice] at hsame
  constructor
  case outcome => rw [scanType_of_extract hallowed hsame, Nat.add_sub_cancel_left]
  case tokens =>
    rw [scanType_of_extract hallowed hslice, scanType_of_extract hallowed hsame]
    exact r.tokens_moved pos pos'

/-! ## The loop over the parameters -/

/-- One turn of the loop over the parameters of `s`: no parenthesis closes them at `pos`, and the
scan of a field type goes from there to `next`. -/
structure Turn (s : Text) (pos next : Nat) : Prop where
  unclosed : s[pos]? ≠ some (.char ')')
  scanned : ∃ rest, (scanType false pos (s.drop pos)).outcome = .ok ⟨next, rest⟩

/-- A turn goes over one field type. -/
theorem Turn.spans {s : Text} {pos next : Nat} (h : Turn s pos next) :
    Spans false s pos next := by
  obtain ⟨rest, hscan⟩ := h.scanned
  exact (scanType_eq_ok_iff_spans.mp hscan).1

/-- There is no endless sequence of turns. -/
theorem wellFounded_turn (s : Text) : WellFounded fun next pos => Turn s pos next := by
  refine Subrelation.wf (fun {next pos} hturn => ?_) (measure fun pos => s.length - pos).wf
  have hlt := hturn.spans.lt
  have hle := hturn.spans.le
  show s.length - next < s.length - pos
  omega

/-- A run of the loop over the parameters of `s` from an offset on, the number of its turns, and
the scan that it gives. It ends at the closing parenthesis, with a fault at the end of the text, and
with the fault of a field type. -/
inductive LoopRun (s : Text) : Nat → Nat → Scan Cursor → Prop
  | closed (pos : Nat) : s[pos]? = some (.char ')') → LoopRun s pos 0 (.done ⟨pos, s.drop pos⟩)
  | unclosed (pos : Nat) : s[pos]? = none → LoopRun s pos 0 (.fail .parametersUnclosed pos)
  | fault (pos : Nat) (c : CodePoint) (fault : Fault) : s[pos]? = some c → c ≠ ')' →
      (scanType false pos (s.drop pos)).outcome = .error fault →
      LoopRun s pos 0 (scanType false pos (s.drop pos))
  | turn (pos next turns : Nat) (scan : Scan Cursor) : Turn s pos next →
      LoopRun s next turns scan →
      LoopRun s pos (turns + 1)
        ⟨(scanType false pos (s.drop pos)).tokens ++ scan.tokens, scan.outcome⟩

/-- At a character of the text the rest of the text starts with it. -/
theorem exists_drop_eq_cons {s : Text} {pos : Nat} {c : CodePoint} (h : s[pos]? = some c) :
    ∃ cs, s.drop pos = c :: cs := by
  rw [← List.head?_drop] at h
  exact List.head?_eq_some_iff.mp h

/-- At any character but the closing parenthesis, the loop scans a type and goes on behind it. -/
theorem scanParameters_drop {s : Text} {pos : Nat} {c : CodePoint} (h : s[pos]? = some c)
    (hc : c ≠ ')') :
    scanParameters pos (s.drop pos) = (scanType false pos (s.drop pos)).andThen
      fun cursor => scanParameters cursor.offset cursor.rest := by
  obtain ⟨cs, hcs⟩ := exists_drop_eq_cons h
  rw [hcs, scanParameters_eq_andThen hc]

/-- A scan with a fault does not go on. -/
theorem Scan.andThen_of_fault {α : Type} {scan : Scan α} {next : α → Scan α} {fault : Fault}
    (h : scan.outcome = .error fault) : scan.andThen next = scan := by
  obtain ⟨tokens, outcome⟩ := scan
  obtain rfl : outcome = .error fault := h
  rfl

/-- A turn starts at a character of the text. -/
theorem Turn.exists_character {s : Text} {pos next : Nat} (h : Turn s pos next) :
    ∃ c, s[pos]? = some c ∧ c ≠ ')' := by
  have hlength : pos < s.length := Nat.lt_of_lt_of_le h.spans.lt h.spans.le
  have hcharacter : s[pos]? = some s[pos] := List.getElem?_eq_getElem hlength
  refine ⟨s[pos], hcharacter, fun hc => h.unclosed ?_⟩
  rw [hcharacter, hc]

namespace LoopRun

variable {s : Text} {pos turns : Nat} {scan : Scan Cursor}

/-- Every run gives the scan of the parameters. -/
theorem scan_eq (h : LoopRun s pos turns scan) : scan = scanParameters pos (s.drop pos) := by
  induction h with
  | closed pos hclosed =>
      obtain ⟨cs, hcs⟩ := exists_drop_eq_cons hclosed
      rw [hcs, scanParameters]
  | unclosed pos hend =>
      have hdrop : s.drop pos = [] := List.drop_eq_nil_of_le (List.getElem?_eq_none_iff.mp hend)
      rw [hdrop, scanParameters]
  | fault pos c fault hcharacter hc hfault =>
      rw [scanParameters_drop hcharacter hc, Scan.andThen_of_fault hfault]
  | turn pos next turns scan hturn _ ih =>
      obtain ⟨c, hcharacter, hc⟩ := hturn.exists_character
      have hscan := scanType_eq_ok_iff_spans.mpr ⟨hturn.spans, rfl⟩
      rw [scanParameters_drop hcharacter hc, Scan.andThen, hscan, ih]

/-- A run has no more turns than there are characters. -/
theorem turns_le (h : LoopRun s pos turns scan) : turns ≤ s.length - pos := by
  induction h with
  | closed | unclosed | fault => exact Nat.zero_le _
  | turn pos next turns scan hturn _ ih =>
      have hlt := hturn.spans.lt
      have hle := hturn.spans.le
      omega

end LoopRun

/-- From every offset there is a run of the loop to its end. -/
theorem exists_loopRun (s : Text) (pos : Nat) :
    ∃ turns, LoopRun s pos turns (scanParameters pos (s.drop pos)) := by
  suffices hrun : ∃ turns scan, LoopRun s pos turns scan by
    obtain ⟨turns, scan, hrun⟩ := hrun
    exact ⟨turns, hrun.scan_eq ▸ hrun⟩
  -- Induction on the turns: from the offset behind a turn on, the rest of the run is given.
  induction pos using (wellFounded_turn s).induction with
  | h pos ih =>
      cases hcharacter : s[pos]? with
      | none => exact ⟨0, _, .unclosed pos hcharacter⟩
      | some c =>
          by_cases hc : c = ')'
          · exact ⟨0, _, .closed pos (hc ▸ hcharacter)⟩
          cases houtcome : (scanType false pos (s.drop pos)).outcome with
          | error fault => exact ⟨0, _, .fault pos c fault hcharacter hc houtcome⟩
          | ok cursor =>
              have hturn : Turn s pos cursor.offset :=
                ⟨by simpa [hcharacter] using hc, cursor.rest, houtcome⟩
              obtain ⟨turns, scan, hrun⟩ := ih cursor.offset hturn
              exact ⟨turns + 1, _, .turn pos cursor.offset turns scan hturn hrun⟩

/-! ## Locality and progress -/

/-- The loop over the parameters of `s`, with which the scan of a method descriptor goes on behind
the opening parenthesis, goes forward and ends: there is no endless sequence of turns, and from
every offset on there is a run to the end. All such runs give the scan of the parameters, and none
has more turns than there are characters. -/
structure LoopEnds (s : Text) : Prop where
  method : s.head? = some (.char '(') →
    scanMethod s = ((scanParameters 1 (s.drop 1)).andThen scanResult).after ⟨0, .parameters⟩
  forward : ∀ pos next, Turn s pos next → pos < next ∧ next ≤ s.length
  wellFounded : WellFounded fun next pos => Turn s pos next
  run : ∀ pos, ∃ turns, LoopRun s pos turns (scanParameters pos (s.drop pos))
  unique : ∀ pos turns scan, LoopRun s pos turns scan →
    scan = scanParameters pos (s.drop pos) ∧ turns ≤ s.length - pos

/-- The scan of one type is local and makes progress. It succeeds at an offset exactly if a type
starts there, and goes forward to the end of the type; wherever the same characters stand in
another text, it goes as far and gives the same tokens, moved to their offsets there. No type
starts or continues another one, and the loop over the parameters goes forward and ends. -/
theorem scan_type_local (allowVoid : Bool) (s : Text) (pos : Nat) :
    (∀ stop rest, (scanType allowVoid pos (s.drop pos)).outcome = .ok ⟨stop, rest⟩ ↔
      Spans allowVoid s pos stop ∧ rest = s.drop stop) ∧
    (∀ stop rest, (scanType allowVoid pos (s.drop pos)).outcome = .ok ⟨stop, rest⟩ →
      ∀ (s' : Text) (pos' : Nat),
        s'.extract pos' (pos' + (stop - pos)) = s.extract pos stop →
        RunsAlike allowVoid s pos stop s' pos') ∧
    (∀ d more, OneType allowVoid d → OneType allowVoid (d ++ more) → more = []) ∧
    LoopEnds s := by
  refine ⟨fun stop rest => scanType_eq_ok_iff_spans, fun stop rest hscan s' pos' hsame => ?_,
    fun d more htype hlonger => htype.eq_nil_of_append hlonger, ?_⟩
  · exact runsAlike_of_extract_eq hscan hsame
  · constructor
    case method =>
      intro hopened
      obtain ⟨cs, rfl⟩ := List.head?_eq_some_iff.mp hopened
      rfl
    case forward => exact fun pos next hturn => ⟨hturn.spans.lt, hturn.spans.le⟩
    case wellFounded => exact wellFounded_turn s
    case run => exact exists_loopRun s
    case unique => exact fun pos turns scan hrun => ⟨hrun.scan_eq, hrun.turns_le⟩

/-- A method descriptor with an array of a class whose name holds a parenthesis. -/
def parenthesizedMethod : Text := "(I[La(b;J)V"

/-- The same array among characters that are no types. -/
def parenthesizedArray : Text := ")));[La(b;L"

/-- The array is scanned alike in the two texts, cannot go on, and is one of three parameters. -/
theorem scan_type_local_parenthesized :
    ((scanType false 2 (parenthesizedMethod.drop 2)).outcome = .ok ⟨8, "J)V"⟩ ∧
      Spans false parenthesizedMethod 2 8) ∧
    (parenthesizedArray.extract 4 10 = parenthesizedMethod.extract 2 8 ∧
      RunsAlike false parenthesizedMethod 2 8 parenthesizedArray 4) ∧
    (OneType false (parenthesizedMethod.extract 2 8) ∧
      ¬ OneType false (parenthesizedMethod.extract 2 8 ++ "I")) ∧
    (Turn parenthesizedMethod 2 8 ∧ 2 < 8 ∧ 8 ≤ parenthesizedMethod.length) ∧
    ∃ scan, LoopRun parenthesizedMethod 1 3 scan ∧ 3 ≤ parenthesizedMethod.length - 1 ∧
      scanMethod parenthesizedMethod = (scan.andThen scanResult).after ⟨0, .parameters⟩ := by
  obtain ⟨hspans, hlocal, hwhole, hloop⟩ := scan_type_local false parenthesizedMethod 2
  have hscan : (scanType false 2 (parenthesizedMethod.drop 2)).outcome = .ok ⟨8, "J)V"⟩ := by
    decide +kernel
  have hsame : parenthesizedArray.extract 4 10 = parenthesizedMethod.extract 2 8 := by
    decide +kernel
  have htype := ((hspans 8 _).mp hscan).1
  have hfirst : Turn parenthesizedMethod 1 2 := ⟨by decide, "[La(b;J)V", by decide +kernel⟩
  have hturn : Turn parenthesizedMethod 2 8 := ⟨by decide, "J)V", hscan⟩
  have hlast : Turn parenthesizedMethod 8 9 := ⟨by decide, ")V", by decide +kernel⟩
  have hrun : LoopRun parenthesizedMethod 1 3 _ :=
    .turn 1 2 2 _ hfirst (.turn 2 8 1 _ hturn (.turn 8 9 0 _ hlast (.closed 9 (by decide +kernel))))
  obtain ⟨hparameters, hturns⟩ := hloop.unique 1 3 _ hrun
  refine ⟨⟨hscan, htype⟩, ⟨hsame, hlocal 8 _ hscan _ 4 hsame⟩, ⟨htype.type, fun hlonger => ?_⟩,
    ⟨hturn, hloop.forward 2 8 hturn⟩, ⟨_, hrun, hturns, ?_⟩⟩
  · exact absurd (hwhole _ _ htype.type hlonger) (by decide)
  · rw [hparameters]
    exact hloop.method (by decide)

end Remapping.Descriptor
