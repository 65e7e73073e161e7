import Remapping.Proofs.Descriptor.Faults
import Remapping.Proofs.Descriptor.RenamedTypes
import Remapping.Proofs.Descriptor.Tiling

/-!
# The readers of tokens agree

A text is checked, read and searched for class names by three readers of its tokens, which take a
scan as a whole. `readMethod` reads the same with less trust: it takes one token after the other up
to the end token, and stops where it has no use for a token, where the scan meets its fault, or
where no type is there to be taken. Read `collect_complete` and `collect_unfinished` first;
`readers_agree` says that only a fault of the scan ever stops it, and that all readers then tell
the same fault.
-/

namespace Remapping.Descriptor

/-! ## Collecting types token by token -/

/-- The letter or the name in a lexeme. -/
def Lexeme.value : Lexeme → Text
  | base letter => [letter]
  | className name => name
  | parameters | result | array | finish => []

/-- Why types can not be collected. -/
inductive CollectFault
  /-- The text is no descriptor. -/
  | descriptor (e : DescriptorError)
  /-- A token of a kind that stands for nothing here. -/
  | unhandled (kind : Kind)
  /-- The first type is asked for, and there is none. -/
  | missing
  deriving DecidableEq

/-- The types collected so far on both sides of the closing parenthesis, whether it has been
passed, and the array markers met since the last type. -/
structure Collection where
  parameters : List FieldType := []
  results : List FieldType := []
  inResult : Bool := false
  dimensions : Nat := 0

namespace Collection

/-- Adds a type behind those on its side, and starts to count array markers anew. -/
def add (c : Collection) (t : FieldType) : Collection :=
  if c.inResult then { c with results := c.results ++ [t], dimensions := 0 }
  else { c with parameters := c.parameters ++ [t], dimensions := 0 }

/-- Takes one token. -/
def step (c : Collection) (token : Token) : Except CollectFault Collection :=
  let kind := token.lexeme.kind
  let value := token.lexeme.value
  if kind = .parameters then .ok { c with inResult := false }
  else if kind = .result then .ok { c with inResult := true }
  else if kind = .array then .ok { c with dimensions := c.dimensions + 1 }
  else if kind = .base then .ok (c.add { dimensions := c.dimensions, base := some value })
  else if kind = .className then
    .ok (c.add { dimensions := c.dimensions, className := some value })
  else .error (.unhandled kind)

end Collection

/-- Collects the types in tokens of a scan of `s`, one token at a time. The end token ends it, and
what stands behind is not looked at; the fault of the scan is met where the tokens end. -/
def collect (s : Text) (outcome : Except Fault Unit) (c : Collection) :
    List Token → Except CollectFault Collection
  | [] =>
    match outcome with
    | .ok () => .ok c
    | .error fault => .error (.descriptor { toFault := fault, descriptor := s })
  | token :: tokens =>
    if token.lexeme.kind = .finish then .ok c
    else c.step token >>= fun c => collect s outcome c tokens

/-- The first of some types, which has to be there. -/
def firstType : List FieldType → Except CollectFault FieldType
  | [] => .error .missing
  | t :: _ => .ok t

/-- Reads a method descriptor token by token. -/
def readMethod (s : Text) : Except CollectFault MethodType := do
  let c ← collect s (scanMethod s).outcome {} (scanMethod s).tokens
  return ⟨c.parameters, ← firstType c.results⟩

/-- Reads a field descriptor token by token. -/
def readField (s : Text) : Except CollectFault FieldType := do
  let c ← collect s (scanField s).outcome {} (scanField s).tokens
  firstType c.parameters

/-! ## Complete scans -/

/-- A type that is added stands in front of the types that come after it on its side. -/
theorem Collection.add_append (c : Collection) (t : FieldType)
    (types : List FieldType × List FieldType) :
    ((c.add t).parameters ++ types.1, (c.add t).results ++ types.2) =
      (c.parameters ++ (assemble.put c.inResult t types).1,
        c.results ++ (assemble.put c.inResult t types).2) := by
  unfold add assemble.put
  cases c.inResult with
  | false => simp
  | true => simp

/-- What comes after a type does not count its array markers and stands on its side. -/
theorem Collection.add_assemble (c : Collection) (t : FieldType) (tokens : List Token) :
    assemble (c.add t).dimensions (c.add t).inResult tokens = assemble 0 c.inResult tokens := by
  unfold add
  cases c.inResult with
  | false => rfl
  | true => rfl

/-- Collecting the types of a complete scan puts them behind those that are there. -/
theorem collect_complete (s : Text) (c : Collection) (tokens : List Token) :
    ∃ c', collect s (.ok ()) c tokens = .ok c' ∧
      (c'.parameters, c'.results) =
        (c.parameters ++ (assemble c.dimensions c.inResult tokens).1,
          c.results ++ (assemble c.dimensions c.inResult tokens).2) := by
  induction tokens generalizing c with
  | nil => exact ⟨c, rfl, by simp [assemble]⟩
  | cons token tokens ih =>
      obtain ⟨position, lexeme⟩ := token
      cases lexeme with
      | finish => exact ⟨c, rfl, by simp [assemble]⟩
      | parameters => exact ih { c with inResult := false }
      | result => exact ih { c with inResult := true }
      | array => exact ih { c with dimensions := c.dimensions + 1 }
      | base letter =>
          obtain ⟨c', hcollect, htypes⟩ :=
            ih (c.add { dimensions := c.dimensions, base := some [letter] })
          refine ⟨c', hcollect, ?_⟩
          rw [htypes, Collection.add_assemble, Collection.add_append]
          rfl
      | className name =>
          obtain ⟨c', hcollect, htypes⟩ :=
            ih (c.add { dimensions := c.dimensions, className := some name })
          refine ⟨c', hcollect, ?_⟩
          rw [htypes, Collection.add_assemble, Collection.add_append]
          rfl

/-! ## Scans that meet a fault -/

/-- Tokens without the end of a text among them. -/
def Unfinished (tokens : List Token) : Prop := ∀ token ∈ tokens, token.lexeme ≠ .finish

/-- Without tokens the end is not among them. -/
theorem unfinished_nil : Unfinished [] := fun _ h => by cases h

/-- Collecting the types of a scan that meets its fault before an end token tells this fault. -/
theorem collect_unfinished {tokens : List Token} (h : Unfinished tokens) (s : Text)
    (fault : Fault) (c : Collection) :
    collect s (.error fault) c tokens =
      .error (.descriptor { toFault := fault, descriptor := s }) := by
  induction tokens generalizing c with
  | nil => rfl
  | cons token tokens ih =>
      obtain ⟨hfirst, hrest⟩ := List.forall_mem_cons.mp h
      obtain ⟨position, lexeme⟩ := token
      cases lexeme with
      | finish => exact absurd rfl hfirst
      | parameters | result | array | base | className => exact ih hrest _

/-- A scan of a field type does not come to the end of a text. -/
theorem unfinished_scanType (allowVoid : Bool) (pos : Nat) (cs : Text) :
    Unfinished (scanType allowVoid pos cs).tokens := by
  have hcons {token : Token} {tokens : List Token} (h : token.lexeme ≠ .finish)
      (hrest : Unfinished tokens) : Unfinished (token :: tokens) :=
    List.forall_mem_cons.mpr ⟨h, hrest⟩
  induction cs generalizing allowVoid pos with
  | nil => exact unfinished_nil
  | cons c cs ih =>
      unfold scanType
      split
      · exact hcons (by simp) (ih false (pos + 1))
      · split
        · split
          · exact unfinished_nil
          · exact hcons (by simp) unfinished_nil
        · split
          · dsimp only
            split
            · exact unfinished_nil
            · split
              · exact unfinished_nil
              · exact hcons (by simp) unfinished_nil
          · exact unfinished_nil

/-- The loop over the parameters does not come to the end of a text. -/
theorem unfinished_scanParameters (pos : Nat) (cs : Text) :
    Unfinished (scanParameters pos cs).tokens := by
  induction hn : cs.length using Nat.strongRecOn generalizing pos cs with
  | ind n ih =>
      cases cs with
      | nil =>
          rw [scanParameters]
          exact unfinished_nil
      | cons c cs =>
          by_cases hc : c = ')'
          · subst hc
            rw [scanParameters]
            exact unfinished_nil
          · have hfirst := unfinished_scanType false pos (c :: cs)
            rw [scanParameters_eq_andThen hc, Scan.andThen]
            split
            · exact hfirst
            · next cursor hcursor =>
              have hrest := ih _ (hn ▸ scanType_shorter hcursor) cursor.offset cursor.rest rfl
              exact List.forall_mem_append.mpr ⟨hfirst, hrest⟩

/-- A scan has no end token if it meets a fault. -/
def Scan.FinishesLast {α : Type} (scan : Scan α) : Prop :=
  ∀ fault, scan.outcome = .error fault → Unfinished scan.tokens

namespace Scan.FinishesLast

variable {α β : Type}

/-- Any token but the end token can come first. -/
theorem after {token : Token} {scan : Scan α} (htoken : token.lexeme ≠ .finish)
    (h : scan.FinishesLast) : (scan.after token).FinishesLast := fun fault hfault =>
  List.forall_mem_cons.mpr ⟨htoken, h fault hfault⟩

/-- A scan without an end token can come first. -/
theorem andThen {scan : Scan α} {next : α → Scan β} (h : Unfinished scan.tokens)
    (hnext : ∀ a, (next a).FinishesLast) : (scan.andThen next).FinishesLast := by
  obtain ⟨tokens, outcome⟩ := scan
  intro fault hfault
  cases outcome with
  | error => exact h
  | ok a => exact List.forall_mem_append.mpr ⟨h, hnext a fault hfault⟩

/-- The end token comes last, if nothing is left of the text. -/
theorem scanEnd (reason : Reason) (cursor : Cursor) :
    (scanEnd reason cursor).FinishesLast := by
  intro fault hfault
  unfold Descriptor.scanEnd at hfault ⊢
  split at hfault
  · cases hfault
  · next hrest =>
    rw [if_neg hrest]
    exact unfinished_nil

/-- The scan of a method descriptor has its end token last. -/
theorem scanMethod (s : Text) : (scanMethod s).FinishesLast := by
  unfold Descriptor.scanMethod
  split
  · refine after (by simp) (andThen (unfinished_scanParameters _ _) fun cursor => ?_)
    exact after (by simp) (andThen (unfinished_scanType _ _ _) (scanEnd _))
  · exact fun _ _ => unfinished_nil

/-- The scan of a field descriptor has its end token last. -/
theorem scanField (s : Text) : (scanField s).FinishesLast :=
  andThen (unfinished_scanType _ _ _) (scanEnd _)

end Scan.FinishesLast

/-- The types in a scan that meets a fault are not collected; the fault is told. -/
theorem collect_of_fault {scan : Scan Unit} (h : scan.FinishesLast) {fault : Fault}
    (hfault : scan.outcome = .error fault) (s : Text) :
    collect s scan.outcome {} scan.tokens =
      .error (.descriptor { toFault := fault, descriptor := s }) := by
  rw [hfault]
  exact collect_unfinished (h fault hfault) s fault {}

/-! ## Agreement -/

/-- Every text is a method descriptor for all readers or for none. Where it is one, it is valid,
its class names are those of its parameters and then of its result, and collecting its types gives
the parameters and one result; where it is none, all readers tell the same fault. Reading token by
token finds a use for every token and a type where one is taken, also in a field descriptor. -/
theorem readers_agree (s : Text) :
    (match parseMethod s with
      | .ok m => isMethodDescriptor s = true ∧
          classNames s = .ok ((m.parameters ++ [m.returnType]).filterMap FieldType.className) ∧
          (∃ c, collect s (scanMethod s).outcome {} (scanMethod s).tokens = .ok c ∧
            c.parameters = m.parameters ∧ c.results = [m.returnType]) ∧
          readMethod s = .ok m
      | .error e => isMethodDescriptor s = false ∧ classNames s = .error e ∧
          readMethod s = .error (.descriptor e)) ∧
      match parseField s with
      | .ok t => readField s = .ok t
      | .error e => readField s = .error (.descriptor e) := by
  constructor
  · cases houtcome : (scanMethod s).outcome with
    | error fault =>
        have hscan : (scanMethod s).complete s = .error { toFault := fault, descriptor := s } := by
          rw [Scan.complete, houtcome]
        have hcollect := collect_of_fault (.scanMethod s) houtcome s
        rw [parseMethod, isMethodDescriptor, classNames, readMethod, hscan, hcollect]
        exact ⟨rfl, rfl, rfl⟩
    | ok finished =>
        obtain ⟨m, rfl⟩ := scanMethod_sound houtcome
        have hvalid : isMethodDescriptor m.text = true := by
          rw [isMethodDescriptor, scanMethod_text]
          rfl
        have hnames : classNames m.text = .ok m.type.classNames :=
          m.descriptor_type ▸ classNames_descriptor m.isMethodType
        obtain ⟨c, hcollect, htypes⟩ := collect_complete m.text {} m.tokens
        rw [assemble_method] at htypes
        obtain ⟨hparameters, hresults⟩ := Prod.mk.inj htypes
        rw [parseMethod_text, readMethod, scanMethod_text, hcollect]
        refine ⟨hvalid, hnames, ⟨c, rfl, hparameters, hresults⟩, ?_⟩
        show (firstType c.results).map (MethodType.mk c.parameters) = .ok m.type
        rw [hparameters, hresults]
        rfl
  · cases houtcome : (scanField s).outcome with
    | error fault =>
        have hscan : (scanField s).complete s = .error { toFault := fault, descriptor := s } := by
          rw [Scan.complete, houtcome]
        have hcollect := collect_of_fault (.scanField s) houtcome s
        rw [parseField, readField, hscan, hcollect]
        rfl
    | ok finished =>
        obtain ⟨t, rfl⟩ := scanField_sound houtcome
        obtain ⟨c, hcollect, htypes⟩ :=
          collect_complete t.text {} (t.tokens 0 ++ [⟨t.text.length, .finish⟩])
        rw [assemble_tokens] at htypes
        have hparameters : c.parameters = [raise 0 t.type] := (Prod.mk.inj htypes).1
        rw [parseField_text, readField, scanField_text, hcollect]
        show firstType c.parameters = .ok t.type
        rw [hparameters, raise_zero]
        rfl

end Remapping.Descriptor
