import Mathlib.Data.List.Chain
import Remapping.Proofs.Conversion.EndToEnd
import Remapping.Proofs.Text.Encodings
import Remapping.Proofs.Text.Lines

/-!
# The style of line ends

Line by line, a text may use a line feed, a carriage return or the two together, and its last line
may have no end at all. Read `readText_ended` first: a mapping file is read as its bare lines,
whatever style each of them has. One pair of neighbours is excluded, since it can not be told from
a single line end: a carriage return, and the line feed of an empty line behind it. Any text is
made of such lines, so nothing else ends one.
-/

namespace Remapping.Text

/-- How a line ends. -/
inductive LineEnd
  | feed
  | returnFeed
  | carriageReturn
  deriving DecidableEq

/-- The characters of a line end. -/
def LineEnd.text : LineEnd → Text
  | feed => [.char '\n']
  | returnFeed => [.char '\r', .char '\n']
  | carriageReturn => [.char '\r']

/-- Lines with their ends, and the last line if it has no end; there is none if it is empty. -/
structure EndedLines where
  ended : List (Text × LineEnd) := []
  rest : Text := []

namespace EndedLines

/-- The lines with their ends, one after the other. -/
def text (ls : EndedLines) : Text :=
  ls.ended.flatMap (fun line => line.1 ++ line.2.text) ++ ls.rest

/-- The lines without their ends. -/
def bare (ls : EndedLines) : List Text :=
  ls.ended.map Prod.fst ++ if ls.rest = [] then [] else [ls.rest]

/-- Two neighbours whose ends are read as one: a carriage return, and the line feed of an empty
line. -/
def Merges (line next : Text × LineEnd) : Prop :=
  line.2 = .carriageReturn ∧ next = ([], .feed)

instance (line next : Text × LineEnd) : Decidable (Merges line next) :=
  inferInstanceAs (Decidable (_ ∧ _))

/-- The lines can be told apart: none of them holds a character of a line end, and no two ends are
read as one. -/
@[mk_iff]
structure Separate (ls : EndedLines) : Prop where
  lines : ∀ line ∈ ls.ended, IsLine line.1
  rest : IsLine ls.rest
  ends : ls.ended.IsChain fun line next => ¬ Merges line next

instance (ls : EndedLines) : Decidable ls.Separate :=
  decidable_of_iff _ (separate_iff ls).symm

end EndedLines

open EndedLines (Merges)

/-! ## Ended lines are split where they end -/

namespace LineSplit

/-- A character that ends no line goes to the open line, whatever was before it. -/
theorem step_inside (s : LineSplit) {c : CodePoint} (hc : isLineEnd c = false) :
    s.step c = ⟨s.closed, c :: s.current, false⟩ := by
  simp only [isLineEnd, Bool.or_eq_false_iff, decide_eq_false_iff_not] at hc
  simp [step, hc]

/-- The end of a line closes the open line. -/
theorem foldl_step_end (closed : List Text) (current : Text) (lineEnd : LineEnd) :
    lineEnd.text.foldl step ⟨closed, current, false⟩ =
      ⟨current.reverse :: closed, [], lineEnd = .carriageReturn⟩ := by
  cases lineEnd <;> rfl

/-- A line is closed by its end. Only the line feed of an empty line could complete a carriage
return before it. -/
theorem foldl_step_ended_line (closed : List Text) {afterReturn : Bool} {line : Text × LineEnd}
    (hline : IsLine line.1) (hfirst : afterReturn = true → line ≠ ([], .feed)) :
    (line.1 ++ line.2.text).foldl step ⟨closed, [], afterReturn⟩ =
      ⟨line.1 :: closed, [], line.2 = .carriageReturn⟩ := by
  obtain ⟨line, lineEnd⟩ := line
  cases line with
  | nil =>
      cases afterReturn with
      | false => exact foldl_step_end closed [] lineEnd
      | true =>
          cases lineEnd with
          | feed => exact absurd rfl (hfirst rfl)
          | returnFeed | carriageReturn => rfl
  | cons c cs =>
      obtain ⟨hc, hcs⟩ := List.forall_mem_cons.mp hline
      rw [List.foldl_append, List.foldl_cons, step_inside _ hc, foldl_step_line _ _ hcs,
        foldl_step_end]
      simp

/-- Lines with separate ends are closed one after the other. -/
theorem foldl_step_ended (closed : List Text) (afterReturn : Bool)
    {ended : List (Text × LineEnd)} (hlines : ∀ line ∈ ended, IsLine line.1)
    (hends : ended.IsChain fun line next => ¬ Merges line next)
    (hfirst : afterReturn = true → ([], .feed) ∉ ended.head?) :
    ∃ afterLast, (ended.flatMap fun line => line.1 ++ line.2.text).foldl step
        ⟨closed, [], afterReturn⟩ =
      ⟨(ended.map Prod.fst).reverse ++ closed, [], afterLast⟩ := by
  induction ended generalizing closed afterReturn with
  | nil => exact ⟨afterReturn, rfl⟩
  | cons line ended ih =>
      obtain ⟨hline, hlines⟩ := List.forall_mem_cons.mp hlines
      obtain ⟨hneighbour, hends⟩ := List.isChain_cons.mp hends
      have hother : afterReturn = true → line ≠ ([], .feed) := fun hreturn heq =>
        hfirst hreturn (congrArg some heq)
      have hnext : decide (line.2 = .carriageReturn) = true → ([], .feed) ∉ ended.head? :=
        fun hreturn hmem => hneighbour _ hmem ⟨of_decide_eq_true hreturn, rfl⟩
      obtain ⟨afterLast, hrun⟩ := ih (line.1 :: closed) _ hlines hends hnext
      refine ⟨afterLast, ?_⟩
      rw [List.flatMap_cons, List.foldl_append, foldl_step_ended_line closed hline hother, hrun]
      simp

/-- A text behind closed lines is one more line, unless it is empty. -/
theorem finish_foldl_step_rest (closed : List Text) (afterReturn : Bool) {rest : Text}
    (hrest : IsLine rest) :
    (rest.foldl step ⟨closed, [], afterReturn⟩).finish =
      closed.reverse ++ if rest = [] then [] else [rest] := by
  cases rest with
  | nil => simp [finish]
  | cons c cs =>
      obtain ⟨hc, hcs⟩ := List.forall_mem_cons.mp hrest
      rw [List.foldl_cons, step_inside _ hc, foldl_step_line _ _ hcs]
      simp [finish]

end LineSplit

/-- The lines of ended lines are the bare lines, whatever ends each of them has. -/
theorem lines_text {ls : EndedLines} (h : ls.Separate) : lines ls.text = ls.bare := by
  obtain ⟨afterLast, hended⟩ := LineSplit.foldl_step_ended [] false h.lines h.ends nofun
  have hstart : lines ls.text = (ls.text.foldl LineSplit.step ⟨[], [], false⟩).finish := rfl
  rw [hstart, EndedLines.text, List.foldl_append, hended,
    LineSplit.finish_foldl_step_rest _ _ h.rest, EndedLines.bare]
  simp

/-- The excluded neighbours are one line end. -/
example : lines (EndedLines.mk [("a", .carriageReturn), ("", .feed)] []).text = ["a".toText] := by
  decide

/-! ## Any text is made of ended lines -/

namespace EndedLines

/-- A character in front of ended lines. A carriage return in front of the line feed of an empty
line becomes part of its end. -/
def push (c : CodePoint) (ls : EndedLines) : EndedLines :=
  if c = '\n' then { ls with ended := ([], .feed) :: ls.ended }
  else if c = '\r' then
    match ls.ended with
    | ([], .feed) :: ended => { ls with ended := ([], .returnFeed) :: ended }
    | ended => { ls with ended := ([], .carriageReturn) :: ended }
  else
    match ls.ended with
    | [] => { ls with rest := c :: ls.rest }
    | (line, lineEnd) :: ended => { ls with ended := (c :: line, lineEnd) :: ended }

/-- The ended lines that a text is made of. -/
def ofText (t : Text) : EndedLines := t.foldr push {}

/-- A character that is pushed stands in front of the text. -/
theorem text_push (c : CodePoint) (ls : EndedLines) : (ls.push c).text = c :: ls.text := by
  unfold push
  split
  · next hfeed =>
    subst hfeed
    rfl
  · split
    · next hreturn =>
      subst hreturn
      split
      · next ended hended =>
        simp [text, hended, LineEnd.text]
      · rfl
    · split
      · next hended => simp [text, hended]
      · next line lineEnd ended hended => simp [text, hended]

/-- A character that is pushed keeps the lines separate. -/
theorem Separate.push {ls : EndedLines} (h : ls.Separate) (c : CodePoint) :
    (ls.push c).Separate := by
  obtain ⟨hlines, hrest, hends⟩ := h
  unfold EndedLines.push
  split
  · refine ⟨List.forall_mem_cons.mpr ⟨nofun, hlines⟩, hrest, hends.cons fun next _ hmerges => ?_⟩
    cases hmerges.1
  · next hfeed =>
    split
    · split
      · next ended hended =>
        rw [hended] at hlines hends
        refine ⟨List.forall_mem_cons.mpr ⟨nofun, (List.forall_mem_cons.mp hlines).2⟩, hrest,
          hends.tail.cons fun next _ hmerges => ?_⟩
        cases hmerges.1
      · next hother =>
        refine ⟨List.forall_mem_cons.mpr ⟨nofun, hlines⟩, hrest,
          hends.cons fun next hnext hmerges => ?_⟩
        exact hother _ (hmerges.2 ▸ List.eq_cons_of_mem_head? hnext)
    · next hreturn =>
      have hc : isLineEnd c = false := by simp [isLineEnd, hfeed, hreturn]
      split
      · next hended =>
        exact ⟨hlines, List.forall_mem_cons.mpr ⟨hc, hrest⟩, hends⟩
      · next line lineEnd ended hended =>
        rw [hended] at hlines hends
        obtain ⟨hline, hlines⟩ := List.forall_mem_cons.mp hlines
        obtain ⟨hneighbour, hends⟩ := List.isChain_cons.mp hends
        exact ⟨List.forall_mem_cons.mpr ⟨List.forall_mem_cons.mpr ⟨hc, hline⟩, hlines⟩, hrest,
          hends.cons hneighbour⟩

/-- A text is made of separate ended lines. -/
theorem ofText_text (t : Text) : (ofText t).Separate ∧ (ofText t).text = t := by
  induction t with
  | nil => exact ⟨by decide, rfl⟩
  | cons c t ih => exact ⟨ih.1.push c, (text_push c _).trans (congrArg (c :: ·) ih.2)⟩

end EndedLines
end Remapping.Text

/-! ## Reading rows whatever ends the lines -/

namespace Remapping.Conversion

open Text (EndedLines)

/-- The style of line ends does not matter. Lines that can be told apart are read with their ends
as they are read bare, to the same rows, numbers and warnings or to the same fault. Every text is
made of such lines, and is cut into them, so no character but those of the line ends ends a line.
What is read from the bytes of a file is what is read from the text that they are decoded to,
also where the file is loaded from its path. -/
theorem readText_ended [Codecs] (version : Text) :
    (∀ ls : EndedLines, ls.Separate →
      Yarn.readText version ls.text = Yarn.readLines version ls.bare) ∧
    (∀ t : Text, ∃ ls : EndedLines, ls.Separate ∧ ls.text = t ∧ Text.lines t = ls.bare) ∧
    ∀ (settings : ConverterSettings) (codec : Codec) (bytes : Bytes) (t : Text),
      EncodingSetting.ofValue settings.inputEncoding = .known codec →
      settings.supportedVersion = .text version → codec.decode bytes = .ok t →
      readMappings settings bytes = (Yarn.readText version t).mapError
          (fun fault => .conversion (.unsupportedVersion fault)) ∧
        ∀ (input : Text) (s : Session),
          (∀ s', s.Logs s' → s'.files.read (Path.ofText input) = .ok bytes) →
          (load settings input s).1 = (Yarn.readText version t).mapError
            fun fault => .conversion (.unsupportedVersion fault) := by
  refine ⟨fun ls h => ?_, fun t => ?_, fun settings codec bytes t hencoding hversion hdecode => ?_⟩
  · rw [Yarn.readText, Text.lines_text h]
  · obtain ⟨hseparate, htext⟩ := EndedLines.ofText_text t
    exact ⟨_, hseparate, htext, (congrArg Text.lines htext).symm.trans (Text.lines_text hseparate)⟩
  · have hfile : readMappings settings bytes = (Yarn.readText version t).mapError
        fun fault => .conversion (.unsupportedVersion fault) := by
      simp only [readMappings, hencoding, hversion, hdecode]
    exact ⟨hfile, fun input s hread => (load_fst hread).trans hfile⟩

/-- Lines with all three ends and one without an end. Some are blank, the fourth is no row, and
there are separators in them that end no line. -/
def mixedLines : EndedLines where
  ended := [
    ("v1\tofficial\u000b", .carriageReturn),
    ("CLASS\ta\tC_1\tMain\u2028", .returnFeed),
    ("", .feed),
    ("CLASS\ta\u0085", .carriageReturn),
    ("", .carriageReturn),
    ("FIELD\ta\tI\tf\tf_1\tx\u001c\u001d\u001ey", .feed)]
  rest := "METHOD\ta\t()V\tm\tm_1\trun\u000c\u2029"

/-- A session without a log file and with some bytes in a file. -/
def mixedSession (bytes : Bytes) : Session where
  files := { nodes := [(["in"], .file bytes)] }
  log := { tool := "converter", threshold := 20 }

open scoped Codecs in
/-- The rows of the mixed lines have the numbers of their lines, also when they are loaded from a
file in UTF-8. -/
theorem readText_ended_mixed :
    ∃ m warnings bytes, Yarn.readText "v1" mixedLines.text = .ok (m, warnings) ∧
      mixedLines.text.utf8? = some bytes ∧
      (load {} "in" (mixedSession bytes)).1 = .ok (m, warnings) ∧
      m.classes.length = 1 ∧ m.fields.map (·.lineNumber) = [6] ∧
      m.methods.map (·.lineNumber) = [7] ∧ warnings.map (·.lineNumber) = [4] := by
  obtain ⟨htext, -, hfile⟩ := readText_ended "v1"
  have hseparate : mixedLines.Separate := by decide +kernel
  obtain ⟨bytes, hbytes⟩ : ∃ bytes, mixedLines.text.utf8? = some bytes :=
    Option.isSome_iff_exists.mp (by decide +kernel)
  have hdecode : Encoding.utf8.decode true bytes = .ok mixedLines.text :=
    Encoding.decode_mark_append hbytes
  obtain ⟨m, warnings, hbare, hrows⟩ : ∃ m warnings,
      Yarn.readLines "v1" mixedLines.bare = .ok (m, warnings) ∧
      m.classes.length = 1 ∧ m.fields.map (·.lineNumber) = [6] ∧
      m.methods.map (·.lineNumber) = [7] ∧ warnings.map (·.lineNumber) = [4] :=
    ⟨_, _, rfl, by decide +kernel⟩
  have hread := (htext _ hseparate).trans hbare
  have hload := (hfile {} _ _ _ ofValue_utf8 rfl hdecode).2 "in" (mixedSession bytes)
    fun s' hlogs => (congrArg (Files.read · (Path.ofText "in")) (hlogs.files_eq rfl)).trans rfl
  rw [hread] at hload
  exact ⟨m, warnings, bytes, hread, hbytes, hload, hrows⟩

end Remapping.Conversion
