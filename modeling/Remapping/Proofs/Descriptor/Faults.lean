import Mathlib.Order.Bounds.Defs
import Remapping.Descriptor.Parse
import Remapping.Proofs.Descriptor.Scanning

/-!
# Where descriptors go wrong

A scan that fails gives an offset into the text. Up to there the text can still become a
descriptor. If it ends there, it is only cut off; otherwise the next character cannot be mended,
whatever follows it. Read `Located` first: it says this of a part of a scan, and `Located.within`
carries it from a part to the whole. `error_position` is what comes of it for whole descriptors.
-/

namespace Remapping.Descriptor

/-- What stands between the offset of a fault and the first character that is wrong: the fault of
an empty name is given at the marker of the class, all others where they are found. -/
def Reason.marker : Reason → Text
  | emptyName => [.char 'L']
  | _ => []

/-- Nothing stands there, or the marker of a class does. -/
theorem Reason.length_marker (reason : Reason) :
    reason.marker.length = if reason = .emptyName then 1 else 0 := by
  cases reason <;> rfl

/-- A fault that a scan finds in a text whose first character has offset `pos`: up to there the
text is `Viable`, and then it ends, or it goes on with a character that makes all more text
meaningless. -/
inductive Located {α : Type} (scan : Text → Scan α) (Viable : Text → Prop) (pos : Nat) :
    Text → Fault → Prop
  | truncated (cs : Text) (reason : Reason) :
      reason.marker = [] → Viable cs → Located scan Viable pos cs ⟨pos + cs.length, reason⟩
  | corrupt (before : Text) (reason : Reason) (c : CodePoint) (after : Text) :
      Viable (before ++ reason.marker) →
      (∀ more, scan (before ++ reason.marker ++ c :: more) =
        scan (before ++ reason.marker ++ c :: after)) →
      Located scan Viable pos (before ++ reason.marker ++ c :: after)
        ⟨pos + before.length, reason⟩

/-- A fault that is located in a part of a text is located in the whole, if the scan of the whole
depends on the rest of the text through the scan of the part. -/
theorem Located.within {α β : Type} {scan : Text → Scan α} {scan' : Text → Scan β}
    {Viable Viable' : Text → Prop} {pos : Nat} {cs : Text} {fault : Fault} (d : Text)
    (wrap : Scan α → Scan β) (hscan : ∀ x, x.head? = cs.head? → scan' (d ++ x) = wrap (scan x))
    (hviable : ∀ x, Viable x → Viable' (d ++ x))
    (h : Located scan Viable (pos + d.length) cs fault) :
    Located scan' Viable' pos (d ++ cs) fault := by
  cases h with
  | truncated _ reason hreason hcs =>
      rw [Nat.add_assoc, ← List.length_append]
      exact .truncated _ reason hreason (hviable cs hcs)
  | corrupt before reason c after hbefore hmore =>
      have hfirst (more : Text) : (before ++ reason.marker ++ c :: more).head? =
          (before ++ reason.marker ++ c :: after).head? := by
        cases before ++ reason.marker <;> rfl
      have hassoc (more : Text) : d ++ before ++ reason.marker ++ c :: more =
          d ++ (before ++ reason.marker ++ c :: more) := by
        simp only [List.append_assoc]
      rw [Nat.add_assoc, ← List.length_append, ← hassoc]
      refine .corrupt _ reason c after ?_ fun more => ?_
      · rw [List.append_assoc]
        exact hviable _ hbefore
      · rw [hassoc, hassoc, hscan _ (hfirst more), hscan _ rfl, hmore]

/-- A sequence of scans meets a fault in the first one or in the second one. -/
theorem Scan.outcome_andThen_eq_error {α β : Type} {scan : Scan α} {next : α → Scan β}
    {fault : Fault} : (scan.andThen next).outcome = .error fault ↔
      scan.outcome = .error fault ∨
        ∃ a, scan.outcome = .ok a ∧ (next a).outcome = .error fault := by
  unfold Scan.andThen
  cases scan.outcome with
  | error fault => simp
  | ok a => simp

/-! ## One field type -/

/-- A text that can be completed to the descriptor of a type. -/
def TypeStart (allowVoid : Bool) (cs : Text) : Prop :=
  ∃ (more : Text) (r : ResultTree), r.Allowed allowVoid ∧ cs ++ more = r.text

/-- Every type starts with the empty text. -/
theorem typeStart_nil (allowVoid : Bool) : TypeStart allowVoid [] :=
  ⟨[.char 'I'], .value (.base 'I' (by decide)), trivial, rfl⟩

/-- The marker of a class starts a type, also with the start of a name behind it. -/
theorem typeStart_class (allowVoid : Bool) {name : Text} (h : .char ';' ∉ name) :
    TypeStart allowVoid (.char 'L' :: name) := by
  -- One more character makes a class name also of the empty text.
  have hname : IsClassName (name ++ [.char 'x']) := by simp [IsClassName, h]
  exact ⟨[.char 'x', .char ';'], .value (.object _ hname), trivial, by simp⟩

/-- An array marker can stand before the start of a type, but not before void. -/
theorem TypeStart.array (allowVoid : Bool) {cs : Text} (h : TypeStart false cs) :
    TypeStart allowVoid (.char '[' :: cs) := by
  obtain ⟨more, r, hallowed, hr⟩ := h
  cases r with
  | void => exact absurd hallowed (by simp [ResultTree.Allowed])
  | value t => exact ⟨more, .value (.array t), trivial, congrArg (CodePoint.char '[' :: ·) hr⟩

/-- The fault of a scan of a class is located in the text: the name has no end, or it is empty. -/
theorem located_scanType_class {allowVoid : Bool} {pos : Nat} {cs : Text} {fault : Fault}
    (h : (scanType allowVoid pos (.char 'L' :: cs)).outcome = .error fault) :
    Located (scanType allowVoid pos) (TypeStart allowVoid) pos (.char 'L' :: cs) fault := by
  have hbase : ¬ isBaseLetter 'L' = true := by decide
  rw [scanType, if_neg (by decide), if_neg hbase, if_pos rfl] at h
  cases hd : cs.dropWhile (· != .char ';') with
  | nil =>
      have hname : cs.takeWhile (· != .char ';') = cs := by
        simpa [hd] using List.takeWhile_append_dropWhile (p := (· != .char ';')) (l := cs)
      have hsemicolon : .char ';' ∉ cs := by
        intro hmem
        rw [← hname] at hmem
        simpa using List.all_eq_true.mp List.all_takeWhile _ hmem
      simp only [hd, hname, Scan.fail, Except.error.injEq] at h
      subst h
      rw [Nat.add_assoc, Nat.add_comm 1]
      exact .truncated (.char 'L' :: cs) _ rfl (typeStart_class allowVoid hsemicolon)
  | cons d rest =>
      obtain ⟨-, hcs⟩ := Text.cut_of_dropWhile_eq_cons hd
      simp only [hd] at h
      split at h
      · next hempty =>
        obtain rfl := Except.error.inj h
        rw [hempty, List.nil_append] at hcs
        subst hcs
        have hmarker : TypeStart allowVoid [.char 'L'] := typeStart_class allowVoid (by simp)
        refine .corrupt [] .emptyName ';' rest hmarker fun more => ?_
        simp [Reason.marker, scanType, hbase]
      · simp [Scan.after, Scan.done] at h

/-- The fault of a scan of a field type is located in the text. -/
theorem located_scanType {allowVoid : Bool} {pos : Nat} {cs : Text} {fault : Fault}
    (h : (scanType allowVoid pos cs).outcome = .error fault) :
    Located (scanType allowVoid pos) (TypeStart allowVoid) pos cs fault := by
  induction cs generalizing allowVoid pos with
  | nil =>
      obtain rfl := Except.error.inj h
      exact .truncated [] _ rfl (typeStart_nil allowVoid)
  | cons c cs ih =>
      by_cases hclass : c = 'L'
      · subst hclass
        exact located_scanType_class h
      unfold scanType at h
      split at h
      · -- Below an array marker the fault is that of the element.
        next hbracket =>
        subst hbracket
        exact (ih h).within [.char '['] (Scan.after ⟨pos, .array⟩) (fun x _ => by simp [scanType])
          fun x hx => hx.array allowVoid
      · next hbracket =>
        split at h
        · next hbase =>
          split at h
          · next hvoid =>
            obtain rfl := Except.error.inj h
            refine .corrupt [] .misplacedVoid c cs (typeStart_nil allowVoid) fun more => ?_
            simp only [Reason.marker, List.nil_append, scanType, if_neg hbracket, if_pos hbase,
              if_pos hvoid]
          · simp [Scan.after, Scan.done] at h
        · next hbase =>
          obtain rfl : (⟨pos, .unexpectedCharacter c⟩ : Fault) = fault := by
            simpa [hclass, Scan.fail] using h
          refine .corrupt [] (.unexpectedCharacter c) c cs (typeStart_nil allowVoid)
            fun more => ?_
          simp [Reason.marker, scanType, hbracket, hbase, hclass]

/-- The fault of a scan of one type that must end the text is located in the text. -/
theorem located_scanType_scanEnd {allowVoid : Bool} {reason : Reason} (hreason : reason.marker = [])
    {pos : Nat} {cs : Text} {fault : Fault}
    (h : ((scanType allowVoid pos cs).andThen (scanEnd reason)).outcome = .error fault) :
    Located (fun x => (scanType allowVoid pos x).andThen (scanEnd reason)) (TypeStart allowVoid)
      pos cs fault := by
  rcases Scan.outcome_andThen_eq_error.mp h with h | ⟨cursor, hcursor, h⟩
  · exact (located_scanType h).within [] (·.andThen (scanEnd reason)) (fun _ _ => rfl)
      fun _ hx => hx
  · obtain ⟨r, hallowed, hcs, hoffset, -⟩ := scanType_eq_ok_iff.mp hcursor
    unfold scanEnd at h
    split at h
    · simp [Scan.after, Scan.done] at h
    · next hrest =>
      -- Behind a whole type any character is one too many.
      obtain ⟨c, after, hrest⟩ := List.exists_cons_of_ne_nil hrest
      obtain rfl := Except.error.inj h
      have hmarker : r.text ++ reason.marker = r.text := by rw [hreason, List.append_nil]
      have htext : r.text ++ c :: after = r.text ++ reason.marker ++ c :: after := by rw [hmarker]
      rw [hcs, hoffset, hrest, htext]
      refine .corrupt r.text reason c after ?_ fun more => ?_
      · exact ⟨[], r, hallowed, by rw [hmarker, List.append_nil]⟩
      · simp [hreason, scanType_result hallowed, scanEnd, Scan.fail]

/-! ## The parameters -/

/-- A text that can be completed to the descriptors of parameters and the closing parenthesis. -/
def ParametersStart (cs : Text) : Prop :=
  ∃ (more : Text) (ts : List ParameterTree),
    cs ++ more = ts.flatMap ParameterTree.text ++ [.char ')']

/-- Parameters can start with the start of a type. -/
theorem TypeStart.parameters {cs : Text} (h : TypeStart false cs) : ParametersStart cs := by
  obtain ⟨more, r, hallowed, hr⟩ := h
  cases r with
  | void => exact absurd hallowed (by simp [ResultTree.Allowed])
  | value t => exact ⟨more ++ [.char ')'], [t], by simp [← List.append_assoc, hr]⟩

/-- Parameters can go on behind a type. -/
theorem ParametersStart.cons {cs : Text} (t : ParameterTree) (h : ParametersStart cs) :
    ParametersStart (t.text ++ cs) := by
  obtain ⟨more, ts, hts⟩ := h
  exact ⟨more, t :: ts, by rw [List.append_assoc, hts, List.flatMap_cons, List.append_assoc]⟩

/-- The fault of a scan of parameters is located in the text. -/
theorem located_scanParameters {pos : Nat} {cs : Text} {fault : Fault}
    (h : (scanParameters pos cs).outcome = .error fault) :
    Located (scanParameters pos) ParametersStart pos cs fault := by
  -- The loop goes on behind a whole type, not behind one character: induction on the length.
  induction hn : cs.length using Nat.strongRecOn generalizing pos cs with
  | ind n ih =>
      cases cs with
      | nil =>
          rw [scanParameters] at h
          obtain rfl := Except.error.inj h
          exact .truncated [] _ rfl ⟨[.char ')'], [], rfl⟩
      | cons c cs =>
          have hc : c ≠ ')' := by
            intro hc
            subst hc
            simp [scanParameters, Scan.done] at h
          rw [scanParameters_eq_andThen hc] at h
          rcases Scan.outcome_andThen_eq_error.mp h with h | ⟨cursor, hcursor, h⟩
          · refine (located_scanType h).within [] (·.andThen fun cursor =>
              scanParameters cursor.offset cursor.rest) (fun x hx => ?_) fun x hx => hx.parameters
            -- Only texts with the same first character are scanned alike.
            obtain ⟨xs, rfl⟩ := List.head?_eq_some_iff.mp hx
            exact scanParameters_eq_andThen hc pos xs
          · have hshorter := scanType_shorter hcursor
            obtain ⟨t, hcs, hoffset, -⟩ := exists_tree_of_scanType hcursor
            rw [hoffset] at h
            have hlocated := ih _ (hn ▸ hshorter) h rfl
            rw [hcs]
            exact hlocated.within t.text
              (fun scan => ⟨t.tokens pos ++ scan.tokens, scan.outcome⟩)
              (fun x _ => scanParameters_cons t pos x) fun x hx => hx.cons t

/-! ## Whole descriptors -/

/-- A text that some more text makes one that the scan accepts. -/
def Completable (scan : Text → Scan Unit) (t : Text) : Prop :=
  ∃ more, (scan (t ++ more)).outcome = .ok ()

/-- What stands before a text that can be completed can be completed. -/
theorem Completable.of_append {scan : Text → Scan Unit} {t more : Text}
    (h : Completable scan (t ++ more)) : Completable scan t := by
  obtain ⟨rest, h⟩ := h
  exact ⟨more ++ rest, by rwa [← List.append_assoc]⟩

/-- The start of a type is that of a field descriptor. -/
theorem TypeStart.completable {cs : Text} (h : TypeStart false cs) :
    Completable scanField cs := by
  obtain ⟨more, r, hallowed, hr⟩ := h
  cases r with
  | void => exact absurd hallowed (by simp [ResultTree.Allowed])
  | value t => exact ⟨more, by rw [hr, ResultTree.text_value, scanField_text]⟩

/-- Behind parentheses with parameters between them, the start of a type is that of a result. -/
theorem TypeStart.completable_result {cs : Text} (ts : List ParameterTree)
    (h : TypeStart true cs) :
    Completable scanMethod (.char '(' :: ts.flatMap ParameterTree.text ++ [.char ')'] ++ cs) := by
  obtain ⟨more, r, -, hr⟩ := h
  have htext : .char '(' :: ts.flatMap ParameterTree.text ++ [.char ')'] ++ cs ++ more =
      (MethodTree.mk ts r).text := by
    simp [MethodTree.text_eq, hr]
  exact ⟨more, by rw [htext, scanMethod_text]⟩

/-- Behind the opening parenthesis the start of parameters is that of a method descriptor. -/
theorem ParametersStart.completable {cs : Text} (h : ParametersStart cs) :
    Completable scanMethod (.char '(' :: cs) := by
  obtain ⟨more, ts, hts⟩ := h
  have hresult := (typeStart_nil true).completable_result ts
  rw [List.append_nil, List.cons_append, ← hts, ← List.cons_append] at hresult
  exact hresult.of_append

/-- The fault of a scan of a field descriptor is located in it. -/
theorem located_scanField {t : Text} {fault : Fault} (h : (scanField t).outcome = .error fault) :
    Located scanField (Completable scanField) 0 t fault :=
  (located_scanType_scanEnd rfl h).within [] id (fun _ _ => rfl) fun _ hx => hx.completable

/-- The fault of a scan of a method descriptor is located in it. -/
theorem located_scanMethod {t : Text} {fault : Fault}
    (h : (scanMethod t).outcome = .error fault) :
    Located scanMethod (Completable scanMethod) 0 t fault := by
  have hnil : Completable scanMethod [] :=
    ⟨[.char '(', .char ')', .char 'V'], congrArg Scan.outcome (scanMethod_text ⟨[], .void⟩)⟩
  cases t with
  | nil =>
      obtain rfl := Except.error.inj h
      exact .truncated [] _ rfl hnil
  | cons c cs =>
      by_cases hc : c = '('
      · subst hc
        rcases Scan.outcome_andThen_eq_error.mp h with h | ⟨cursor, hcursor, h⟩
        · exact (located_scanParameters h).within [.char '(']
            (fun scan => (scan.andThen scanResult).after ⟨0, .parameters⟩) (fun _ _ => rfl)
            fun x hx => hx.completable
        · obtain ⟨ts, rest, rfl⟩ := scanParameters_sound hcursor
          rw [scanParameters_text] at hcursor
          obtain rfl := Except.ok.inj hcursor
          have hlength : 1 + (ts.flatMap ParameterTree.text).length + 1 =
              0 + (CodePoint.char '(' :: ts.flatMap ParameterTree.text ++
                [CodePoint.char ')']).length := by
            simp only [List.length_append, List.length_cons, List.length_nil]
            omega
          have hlocated := located_scanType_scanEnd rfl h
          rw [hlength] at hlocated
          have htext : CodePoint.char '(' :: (ts.flatMap ParameterTree.text ++ .char ')' :: rest) =
              .char '(' :: ts.flatMap ParameterTree.text ++ [.char ')'] ++ rest := by simp
          rw [htext]
          refine hlocated.within _ (fun scan => ⟨⟨0, .parameters⟩ :: parameterTokens 1 ts ++
            ⟨1 + (ts.flatMap ParameterTree.text).length, .result⟩ :: scan.tokens, scan.outcome⟩)
            (fun x _ => ?_) fun x hx => hx.completable_result ts
          rw [← hlength]
          simp [scanMethod, scanParameters_text, scanResult, Scan.after]
      · have hfail (more : Text) : scanMethod (c :: more) = .fail .parametersMissing 0 := by
          unfold scanMethod
          split
          · next heq => exact absurd (List.cons.inj heq).1 hc
          · rfl
        rw [hfail] at h
        obtain rfl := Except.error.inj h
        refine .corrupt [] .parametersMissing c cs hnil fun more => ?_
        exact (hfail more).trans (hfail cs).symm

/-- What the error `e` of a text `t` that a scan rejects says about the text. -/
structure Explains (scan : Text → Scan Unit) (t : Text) (e : DescriptorError) : Prop where
  descriptor : e.descriptor = t
  position_le : e.position ≤ t.length
  /-- Up to the fault, the text can become a descriptor. -/
  before : Completable scan (t.take e.position)
  /-- A text with its fault at the end is only cut off. -/
  truncated : e.position = t.length → Completable scan t
  /-- Any other text stays rejected, and in the same way, whatever follows it. -/
  corrupt : e.position < t.length → ∀ more,
    (scan (t ++ more)).outcome = .error e.toFault ∧ (scan (t ++ more)).tokens = (scan t).tokens
  /-- The longest part that can become a descriptor ends at the fault, except that the fault of an
  empty name is given as the marker before the name. -/
  longest : IsGreatest {n | ∃ q, q <+: t ∧ Completable scan q ∧ q.length = n}
    (if e.reason = .emptyName then e.position + 1 else e.position)
  marker : e.reason = .emptyName → t[e.position]? = some (.char 'L')

/-- No start of a text that is rejected in the same way whatever follows it is so long that it
holds what it is rejected for. -/
theorem Completable.length_lt {scan : Text → Scan Unit} {t d q : Text} {fault : Fault}
    (ht : (scan t).outcome = .error fault) (hd : d <+: t)
    (hmore : ∀ more, scan (d ++ more) = scan t) (hq : q <+: t) (h : Completable scan q) :
    q.length < d.length := by
  by_contra hlength
  obtain ⟨between, rfl⟩ := List.prefix_of_prefix_length_le hd hq (Nat.le_of_not_lt hlength)
  obtain ⟨more, h⟩ := h
  rw [List.append_assoc, hmore, ht] at h
  cases h

/-- If a text is rejected in the same way whatever follows one of its characters, and can become a
descriptor up to there, then no longer start of it can. -/
theorem Completable.isGreatest {scan : Text → Scan Unit} {d after : Text} {c : CodePoint}
    {fault : Fault} (hd : Completable scan d) (ht : (scan (d ++ c :: after)).outcome = .error fault)
    (hmore : ∀ more, scan (d ++ c :: more) = scan (d ++ c :: after)) :
    IsGreatest {n | ∃ q, q <+: d ++ c :: after ∧ Completable scan q ∧ q.length = n} d.length := by
  refine ⟨⟨d, List.prefix_append _ _, hd, rfl⟩, ?_⟩
  rintro n ⟨q, hq, hcompletable, rfl⟩
  have hwrong : d ++ [c] <+: d ++ c :: after := ⟨after, by simp⟩
  have hlt := hcompletable.length_lt ht hwrong
    (fun more => by rw [List.append_assoc, List.singleton_append, hmore]) hq
  rw [List.length_append, List.length_singleton] at hlt
  exact Nat.le_of_lt_succ hlt

/-- A located fault explains the error that is made of it. -/
theorem Located.explains {scan : Text → Scan Unit} {t : Text} {fault : Fault}
    (h : Located scan (Completable scan) 0 t fault) (ht : (scan t).outcome = .error fault) :
    Explains scan t { toFault := fault, descriptor := t } := by
  cases h with
  | truncated _ reason hreason hcs =>
      have hname : reason ≠ .emptyName := by
        rintro rfl
        cases hreason
      rw [Nat.zero_add]
      constructor
      case descriptor => rfl
      case position_le => exact Nat.le_refl _
      case before => rwa [List.take_length]
      case truncated => exact fun _ => hcs
      case corrupt => exact fun hlt => absurd hlt (Nat.lt_irrefl _)
      case longest =>
        rw [if_neg hname]
        refine ⟨⟨t, List.prefix_refl t, hcs, rfl⟩, ?_⟩
        rintro n ⟨q, hq, -, rfl⟩
        exact hq.length_le
      case marker => exact fun h => absurd h hname
  | corrupt before reason c after hbefore hmore =>
      have hlength : (before ++ reason.marker ++ c :: after).length =
          before.length + reason.marker.length + after.length + 1 := by
        simp only [List.length_append, List.length_cons, Nat.add_assoc]
      rw [Nat.zero_add] at ht ⊢
      constructor
      case descriptor => rfl
      case position_le =>
        show before.length ≤ _
        omega
      case before =>
        rw [List.append_assoc, List.take_left]
        exact hbefore.of_append
      case truncated =>
        intro heq
        have hposition : before.length = _ := heq
        omega
      case corrupt =>
        intro _ more
        rw [List.append_assoc, List.cons_append, hmore (after ++ more), ht]
        exact ⟨rfl, rfl⟩
      case longest =>
        have hend : (if reason = .emptyName then before.length + 1 else before.length) =
            (before ++ reason.marker).length := by
          rw [List.length_append, reason.length_marker]
          split <;> rfl
        show IsGreatest _ (if reason = .emptyName then before.length + 1 else before.length)
        rw [hend]
        exact hbefore.isGreatest ht hmore
      case marker =>
        rintro rfl
        simp [Reason.marker]

/-- The error of a scan is that of its fault. -/
theorem Scan.complete_eq_error {scan : Scan Unit} {t : Text} {e : DescriptorError}
    (h : scan.complete t = .error e) :
    ∃ fault, scan.outcome = .error fault ∧ e = { toFault := fault, descriptor := t } := by
  unfold Scan.complete at h
  split at h
  · cases h
  · next fault hfault => exact ⟨fault, hfault, (Except.error.inj h).symm⟩

/-- The error of a rejected method or field descriptor tells a text that is only cut off from one
that is wrong: up to its position the text can still become a descriptor. If this is the end of
the text, the text itself can; otherwise every text that goes on like it is rejected in the same
way, after the same tokens. No longer part of the text can become a descriptor, except that the
error of an empty class name is given at the marker before the name. -/
theorem error_position (t : Text) (e : DescriptorError) :
    ((scanMethod t).complete t = .error e → Explains scanMethod t e) ∧
      ((scanField t).complete t = .error e → Explains scanField t e) := by
  constructor
  · intro h
    obtain ⟨fault, hfault, rfl⟩ := Scan.complete_eq_error h
    exact (located_scanMethod hfault).explains hfault
  · intro h
    obtain ⟨fault, hfault, rfl⟩ := Scan.complete_eq_error h
    exact (located_scanField hfault).explains hfault

/-- A method descriptor that is cut off within a name, one with an empty name, and a field
descriptor with too much behind it. -/
theorem error_position_samples :
    ((scanMethod "(I[Lab").complete "(I[Lab" = .error ⟨⟨6, .unterminatedName⟩, "(I[Lab"⟩ ∧
      Explains scanMethod "(I[Lab" ⟨⟨6, .unterminatedName⟩, "(I[Lab"⟩) ∧
    ((scanMethod "([L;I)V").complete "([L;I)V" = .error ⟨⟨2, .emptyName⟩, "([L;I)V"⟩ ∧
      Explains scanMethod "([L;I)V" ⟨⟨2, .emptyName⟩, "([L;I)V"⟩) ∧
    ((scanField "Lx;y").complete "Lx;y" = .error ⟨⟨3, .afterFieldType⟩, "Lx;y"⟩ ∧
      Explains scanField "Lx;y" ⟨⟨3, .afterFieldType⟩, "Lx;y"⟩) := by
  have hcut : (scanMethod "(I[Lab").complete "(I[Lab" =
      .error ⟨⟨6, .unterminatedName⟩, "(I[Lab"⟩ := by decide +kernel
  have hempty : (scanMethod "([L;I)V").complete "([L;I)V" =
      .error ⟨⟨2, .emptyName⟩, "([L;I)V"⟩ := by decide +kernel
  have htrailing : (scanField "Lx;y").complete "Lx;y" =
      .error ⟨⟨3, .afterFieldType⟩, "Lx;y"⟩ := by decide +kernel
  exact ⟨⟨hcut, (error_position _ _).1 hcut⟩, ⟨hempty, (error_position _ _).1 hempty⟩,
    htrailing, (error_position _ _).2 htrailing⟩

end Remapping.Descriptor
