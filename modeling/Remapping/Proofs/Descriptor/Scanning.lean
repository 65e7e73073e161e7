import Mathlib.Logic.ExistsUnique
import Remapping.Proofs.Descriptor.Derivation

/-!
# What the scanner accepts

The scanner against the derivations of the grammar. Read `scanType_text` and `scanType_sound`
first: in any surroundings, scanning a field type consumes the text of one tree and gives the
tokens of this tree, and it succeeds on nothing else. The loop over the parameters and the scan
of a whole method descriptor follow, and with them `scan_iff_grammar`.
-/

namespace Remapping.Descriptor

/-! ## Scans one after the other -/

/-- After a scan without a fault come the tokens and the outcome of the next one. -/
@[simp] theorem Scan.andThen_ok {α β : Type} (tokens : List Token) (value : α)
    (next : α → Scan β) : (Scan.mk tokens (.ok value)).andThen next =
      ⟨tokens ++ (next value).tokens, (next value).outcome⟩ := rfl

/-- A sequence of scans succeeds if both of them do. -/
theorem Scan.outcome_andThen_eq_ok {α β : Type} {scan : Scan α} {next : α → Scan β} {b : β} :
    (scan.andThen next).outcome = .ok b ↔
      ∃ a, scan.outcome = .ok a ∧ (next a).outcome = .ok b := by
  unfold Scan.andThen
  cases scan.outcome with
  | error fault => simp
  | ok a => simp

/-- A scan ends without a fault if nothing is left of the text. -/
theorem outcome_scanEnd_eq_ok {reason : Reason} {cursor : Cursor} :
    (scanEnd reason cursor).outcome = .ok () ↔ cursor.rest = [] := by
  unfold scanEnd
  split
  · next h => simp [h, Scan.after, Scan.done]
  · next h => simp [h, Scan.fail]

/-! ## One field type -/

/-- Scanning the descriptor of a field type gives its tokens, whatever follows it. -/
theorem scanType_text (allowVoid : Bool) (t : ParameterTree) (pos : Nat) (rest : Text) :
    scanType allowVoid pos (t.text ++ rest) =
      ⟨t.tokens pos, .ok ⟨pos + t.text.length, rest⟩⟩ := by
  induction t generalizing allowVoid pos with
  | base letter valid =>
      obtain ⟨hbracket, -, -, hvoid⟩ := letter_ne_of_mem valid
      have hbase : isBaseLetter letter = true := by simp [isBaseLetter, valid]
      simp [scanType, hbracket, hvoid, hbase, Scan.done, Scan.after, ParameterTree.tokens]
  | object name valid =>
      have hbase : isBaseLetter 'L' = false := by decide
      simp [scanType, hbase, Text.takeWhile_append_separator valid.2,
        Text.dropWhile_append_separator valid.2, valid.1, Scan.done, Scan.after,
        ParameterTree.tokens]
      omega
  | array element ih =>
      rw [ParameterTree.text_array, List.cons_append, scanType, if_pos rfl, ih]
      simp only [Scan.after, ParameterTree.tokens, List.length_cons, Nat.add_assoc,
        Nat.add_comm 1]

/-- Scanning the descriptor of a result gives its tokens where the result is allowed. -/
theorem scanType_result {allowVoid : Bool} {r : ResultTree} (h : r.Allowed allowVoid)
    (pos : Nat) (rest : Text) :
    scanType allowVoid pos (r.text ++ rest) =
      ⟨r.tokens pos, .ok ⟨pos + r.text.length, rest⟩⟩ := by
  cases r with
  | void =>
      obtain rfl : allowVoid = true := h
      rfl
  | value t => exact scanType_text allowVoid t pos rest

/-- Behind the marker of a class stand a class name and a semicolon if the scan succeeds. -/
theorem scanType_class_sound {allowVoid : Bool} {pos : Nat} {cs : Text} {cursor : Cursor}
    (h : (scanType allowVoid pos (.char 'L' :: cs)).outcome = .ok cursor) :
    ∃ name, IsClassName name ∧ cs = name ++ .char ';' :: cursor.rest := by
  have hbase : isBaseLetter 'L' = false := by decide
  simp only [scanType, hbase, CodePoint.char.injEq, Char.reduceEq, Bool.false_eq_true, if_false,
    if_true] at h
  cases hd : cs.dropWhile (· != .char ';') with
  | nil => simp [hd, Scan.fail] at h
  | cons d rest =>
      obtain ⟨hsemicolon, hcs⟩ := Text.cut_of_dropWhile_eq_cons hd
      simp only [hd] at h
      split at h
      · simp [Scan.fail] at h
      · next hname =>
        simp only [Scan.after, Scan.done, Except.ok.injEq] at h
        subst h
        exact ⟨cs.takeWhile (· != .char ';'), ⟨hname, hsemicolon⟩, hcs⟩

/-- Where the scan of a field type succeeds, it has read the text of a derivation. -/
theorem scanType_sound {allowVoid : Bool} {pos : Nat} {cs : Text} {cursor : Cursor}
    (h : (scanType allowVoid pos cs).outcome = .ok cursor) :
    ∃ r : ResultTree, r.Allowed allowVoid ∧ cs = r.text ++ cursor.rest := by
  induction cs generalizing allowVoid pos with
  | nil => simp [scanType, Scan.fail] at h
  | cons c cs ih =>
      -- A class is read up to its semicolon at once; only array markers use the induction.
      by_cases hclass : c = 'L'
      · subst hclass
        obtain ⟨name, hname, rfl⟩ := scanType_class_sound h
        exact ⟨.value (.object name hname), trivial, by simp⟩
      unfold scanType at h
      split at h
      · -- Below an array marker the scan goes on where void is forbidden.
        next hbracket =>
        obtain ⟨r, hallowed, rfl⟩ := ih (by simpa only [Scan.after] using h)
        cases r with
        | void => exact absurd hallowed (by simp [ResultTree.Allowed])
        | value t => exact ⟨.value (.array t), trivial, by rw [hbracket]; rfl⟩
      · split at h
        · next hbase =>
          split at h
          · simp [Scan.fail] at h
          · next hvoid =>
            simp only [Scan.after, Scan.done, Except.ok.injEq] at h
            subst h
            by_cases hletter : c = voidLetter
            · refine ⟨.void, ?_, by rw [hletter]; rfl⟩
              simpa [hletter, ResultTree.Allowed] using hvoid
            · have hvalid : c ∈ valueLetters := by simpa [isBaseLetter, hletter] using hbase
              exact ⟨.value (.base c hvalid), trivial, rfl⟩
        · simp [Scan.fail] at h

/-- The scan of a field type succeeds on the text of a derivation and nothing else, and its
tokens and its end are those of the derivation. -/
theorem scanType_eq_ok_iff {allowVoid : Bool} {pos : Nat} {cs : Text} {cursor : Cursor} :
    (scanType allowVoid pos cs).outcome = .ok cursor ↔
      ∃ r : ResultTree, r.Allowed allowVoid ∧ cs = r.text ++ cursor.rest ∧
        cursor.offset = pos + r.text.length ∧
          (scanType allowVoid pos cs).tokens = r.tokens pos := by
  constructor
  · intro h
    obtain ⟨r, hallowed, hcs⟩ := scanType_sound h
    rw [hcs, scanType_result hallowed] at h
    have hcursor := Except.ok.inj h
    exact ⟨r, hallowed, hcs, by rw [← hcursor], by rw [hcs, scanType_result hallowed]⟩
  · intro h
    obtain ⟨r, hallowed, hcs, hoffset, -⟩ := h
    rw [hcs, scanType_result hallowed, ← hoffset]

/-- A field type is scanned where void is forbidden. -/
theorem exists_tree_of_scanType {pos : Nat} {cs : Text} {cursor : Cursor}
    (h : (scanType false pos cs).outcome = .ok cursor) :
    ∃ t : ParameterTree, cs = t.text ++ cursor.rest ∧ cursor.offset = pos + t.text.length ∧
      (scanType false pos cs).tokens = t.tokens pos := by
  obtain ⟨r, hallowed, hr⟩ := scanType_eq_ok_iff.mp h
  cases r with
  | void => exact absurd hallowed (by simp [ResultTree.Allowed])
  | value t => exact ⟨t, hr⟩

/-! ## The parameters -/

/-- Before anything but the closing parenthesis, the loop scans one field type and goes on. -/
theorem scanParameters_eq_andThen {c : CodePoint} (hc : c ≠ ')') (pos : Nat) (cs : Text) :
    scanParameters pos (c :: cs) = (scanType false pos (c :: cs)).andThen
      fun cursor => scanParameters cursor.offset cursor.rest := by
  -- The loop stands on both sides, and only the left one is to be opened.
  conv => lhs; unfold scanParameters
  split
  · next h => exact absurd h (by simp)
  · next h => exact absurd (List.cons.inj h).1 hc
  · next d ds _ h =>
    obtain ⟨rfl, rfl⟩ := List.cons.inj h
    unfold Scan.andThen
    split
    · next _ hfault => simp only [hfault]
    · next _ hcursor => simp only [hcursor]

/-- The loop over the parameters takes one field type at a time. -/
theorem scanParameters_cons (t : ParameterTree) (pos : Nat) (rest : Text) :
    scanParameters pos (t.text ++ rest) =
      ⟨t.tokens pos ++ (scanParameters (pos + t.text.length) rest).tokens,
        (scanParameters (pos + t.text.length) rest).outcome⟩ := by
  obtain ⟨c, cs, htext, hc⟩ := t.exists_text_eq_cons
  have hscan := scanType_text false t pos rest
  rw [htext, List.cons_append] at hscan ⊢
  rw [scanParameters_eq_andThen hc, hscan]
  rfl

/-- Scanning parameters gives their tokens and stops at the closing parenthesis. -/
theorem scanParameters_text (ts : List ParameterTree) (pos : Nat) (rest : Text) :
    scanParameters pos (ts.flatMap ParameterTree.text ++ .char ')' :: rest) =
      ⟨parameterTokens pos ts,
        .ok ⟨pos + (ts.flatMap ParameterTree.text).length, .char ')' :: rest⟩⟩ := by
  induction ts generalizing pos with
  | nil =>
      rw [List.flatMap_nil, List.nil_append, scanParameters]
      rfl
  | cons t ts ih =>
      rw [List.flatMap_cons, List.append_assoc, scanParameters_cons, ih, parameterTokens,
        List.length_append, Nat.add_assoc]

/-- Where the scan of parameters succeeds, it has read derivations up to a parenthesis. -/
theorem scanParameters_sound {pos : Nat} {cs : Text} {cursor : Cursor}
    (h : (scanParameters pos cs).outcome = .ok cursor) :
    ∃ (ts : List ParameterTree) (rest : Text),
      cs = ts.flatMap ParameterTree.text ++ .char ')' :: rest := by
  -- The loop goes on behind a whole type, not behind one character: induction on the length.
  induction hn : cs.length using Nat.strongRecOn generalizing pos cs with
  | ind n ih =>
      cases cs with
      | nil => simp [scanParameters, Scan.fail] at h
      | cons c cs =>
          by_cases hc : c = ')'
          · exact ⟨[], cs, by rw [hc]; rfl⟩
          · rw [scanParameters_eq_andThen hc, Scan.outcome_andThen_eq_ok] at h
            obtain ⟨middle, hmiddle, h⟩ := h
            obtain ⟨t, hcs, -⟩ := exists_tree_of_scanType hmiddle
            have hshorter := scanType_shorter hmiddle
            obtain ⟨ts, rest, hrest⟩ := ih _ (hn ▸ hshorter) h rfl
            refine ⟨t :: ts, rest, ?_⟩
            rw [hcs, hrest, List.flatMap_cons, List.append_assoc]

/-! ## Whole descriptors -/

/-- The scan of a method descriptor gives the tokens of its derivation. -/
theorem scanMethod_text (m : MethodTree) : scanMethod m.text = ⟨m.tokens, .ok ()⟩ := by
  have hresult : scanResult ⟨m.resultOffset, .char ')' :: m.result.text⟩ =
      ⟨⟨m.resultOffset, .result⟩ :: m.result.tokens (m.resultOffset + 1) ++
        [⟨m.text.length, .finish⟩], .ok ()⟩ := by
    have hallowed : m.result.Allowed true := by
      cases m.result with
      | void => rfl
      | value => trivial
    have hlength : m.text.length = m.resultOffset + 1 + m.result.text.length := by
      rw [m.text_eq]
      simp only [MethodTree.resultOffset, List.length_cons, List.length_append]
      omega
    have hscan := scanType_result hallowed (m.resultOffset + 1) []
    rw [List.append_nil] at hscan
    simp [scanResult, hscan, scanEnd, Scan.after, Scan.done, hlength]
  rw [m.text_eq, scanMethod, scanParameters_text, ← MethodTree.resultOffset, Scan.andThen_ok,
    hresult]
  simp [Scan.after, MethodTree.tokens]

/-- The scan of a method descriptor succeeds on texts of derivations alone. -/
theorem scanMethod_sound {s : Text} (h : (scanMethod s).outcome = .ok ()) :
    ∃ m : MethodTree, m.text = s := by
  unfold scanMethod at h
  split at h
  · next cs =>
    obtain ⟨cursor, hparameters, h⟩ := Scan.outcome_andThen_eq_ok.mp h
    obtain ⟨ts, rest, rfl⟩ := scanParameters_sound hparameters
    rw [scanParameters_text] at hparameters
    obtain rfl := Except.ok.inj hparameters
    obtain ⟨finish, hresult, h⟩ := Scan.outcome_andThen_eq_ok.mp h
    obtain ⟨r, -, hrest⟩ := scanType_sound hresult
    rw [outcome_scanEnd_eq_ok.mp h, List.append_nil] at hrest
    exact ⟨⟨ts, r⟩, by rw [MethodTree.text_eq, ← hrest]; rfl⟩
  · simp [Scan.fail] at h

/-- The scan of a field descriptor gives the tokens of its derivation. -/
theorem scanField_text (t : ParameterTree) :
    scanField t.text = ⟨t.tokens 0 ++ [⟨t.text.length, .finish⟩], .ok ()⟩ := by
  have hscan := scanType_text false t 0 []
  rw [List.append_nil] at hscan
  simp [scanField, hscan, scanEnd, Scan.after, Scan.done]

/-- The scan of a field descriptor succeeds on texts of derivations alone. -/
theorem scanField_sound {s : Text} (h : (scanField s).outcome = .ok ()) :
    ∃ t : ParameterTree, t.text = s := by
  obtain ⟨cursor, hscan, hend⟩ := Scan.outcome_andThen_eq_ok.mp h
  obtain ⟨t, hs, -⟩ := exists_tree_of_scanType hscan
  rw [outcome_scanEnd_eq_ok.mp hend, List.append_nil] at hs
  exact ⟨t, hs.symm⟩

/-- A scan of `s` that meets no fault and whose last token is the end of `s`. -/
def Scan.RunsToEnd (s : Text) (scan : Scan Unit) : Prop :=
  scan.outcome = .ok () ∧ scan.tokens.getLast? = some ⟨s.length, .finish⟩

/-- The scanners run to the end of a text exactly if the grammar derives it, and then it has
one derivation only. -/
theorem scan_iff_grammar (s : Text) :
    ((scanMethod s).RunsToEnd s ↔ Grammar.Method s) ∧
      ((scanField s).RunsToEnd s ↔ Grammar.Parameter s) ∧
      (Grammar.Method s ↔ ∃! m : MethodTree, m.text = s) ∧
      (Grammar.Parameter s ↔ ∃! t : ParameterTree, t.text = s) := by
  refine ⟨⟨?_, ?_⟩, ⟨?_, ?_⟩, ⟨?_, ?_⟩, ⟨?_, ?_⟩⟩
  · intro h
    obtain ⟨houtcome, -⟩ := h
    obtain ⟨m, rfl⟩ := scanMethod_sound houtcome
    exact m.method
  · intro h
    obtain ⟨m, rfl⟩ := exists_tree_of_method h
    rw [scanMethod_text]
    exact ⟨rfl, List.getLast?_concat⟩
  · intro h
    obtain ⟨houtcome, -⟩ := h
    obtain ⟨t, rfl⟩ := scanField_sound houtcome
    exact t.parameter
  · intro h
    obtain ⟨t, rfl⟩ := exists_tree_of_parameter h
    rw [scanField_text]
    exact ⟨rfl, List.getLast?_concat⟩
  · intro h
    obtain ⟨m, hm⟩ := exists_tree_of_method h
    exact ⟨m, hm, fun n hn => MethodTree.text_injective (hn.trans hm.symm)⟩
  · intro h
    obtain ⟨m, rfl, -⟩ := h
    exact m.method
  · intro h
    obtain ⟨t, ht⟩ := exists_tree_of_parameter h
    exact ⟨t, ht, fun u hu => ParameterTree.text_injective (hu.trans ht.symm)⟩
  · intro h
    obtain ⟨t, rfl, -⟩ := h
    exact t.parameter

end Remapping.Descriptor
