import Remapping.Descriptor.Scan

/-!
# Reading descriptors

The readers fold the tokens of a descriptor: into a method type or a field type, or into the
list of class names. A reader fails exactly when the scan does, with the fault of the scan.
-/

namespace Remapping.Descriptor

/-- The tokens of a complete scan of `s`, or the fault of the scan. -/
def Scan.complete (s : Text) (scan : Scan Unit) : Except DescriptorError (List Token) :=
  match scan.outcome with
  | .ok () => .ok scan.tokens
  | .error fault => .error { toFault := fault, descriptor := s }

/-- The parameter types and the result types among tokens, given the array markers met since
the last type and whether the closing parenthesis has been passed. -/
def assemble (dimensions : Nat) (inResult : Bool) : List Token → List FieldType × List FieldType
  | [] => ([], [])
  | token :: tokens =>
    match token.lexeme with
    | .parameters => assemble dimensions false tokens
    | .result => assemble dimensions true tokens
    | .array => assemble (dimensions + 1) inResult tokens
    | .base letter => put { dimensions, base := some [letter] } (assemble 0 inResult tokens)
    | .className name => put { dimensions, className := some name } (assemble 0 inResult tokens)
    | .finish => ([], [])
where
  /-- Adds a type in front of the ones on its side of the closing parenthesis. -/
  put (type : FieldType) (types : List FieldType × List FieldType) :
      List FieldType × List FieldType :=
    if inResult then (types.1, type :: types.2) else (type :: types.1, types.2)

/-- The method type that tokens describe. -/
def methodOfTokens (tokens : List Token) : MethodType :=
  let types := assemble 0 false tokens
  ⟨types.1, types.2.headD {}⟩

/-- The field type that tokens describe. -/
def fieldOfTokens (tokens : List Token) : FieldType := (assemble 0 false tokens).1.headD {}

/-- The class names among tokens, in order. -/
def namesOfTokens (tokens : List Token) : List Text :=
  tokens.filterMap fun token =>
    match token.lexeme with
    | .className name => some name
    | _ => none

/-- Reads a method descriptor. -/
def parseMethod (s : Text) : Except DescriptorError MethodType :=
  ((scanMethod s).complete s).map methodOfTokens

/-- Reads a field descriptor. -/
def parseField (s : Text) : Except DescriptorError FieldType :=
  ((scanField s).complete s).map fieldOfTokens

/-- Whether a text is a method descriptor. -/
def isMethodDescriptor (s : Text) : Bool := ((scanMethod s).complete s).toBool

/-- The class names in a method descriptor, in order. -/
def classNames (s : Text) : Except DescriptorError (List Text) :=
  ((scanMethod s).complete s).map namesOfTokens

end Remapping.Descriptor
