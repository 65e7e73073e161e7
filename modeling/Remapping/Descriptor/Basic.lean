import Remapping.Text.Quoted

/-!
# Type descriptors of class files

A field type is an array depth over a base type, written as one letter, or over a class name
between `L` and `;`. A method type is a list of field types in parentheses before the type of
the result. `descriptor` writes a type down; the types are kept as loose as the descriptors
that can be written with them, and `IsFieldType` and `IsMethodType` say which are well formed.
-/

namespace Remapping

/-- The letters of the base types a field can have. -/
def valueLetters : Text := "ZCBSIFJD"

/-- The letter of the result type of a method without a result. -/
def voidLetter : CodePoint := 'V'

/-- Whether a character is the letter of a base type. -/
def isBaseLetter (c : CodePoint) : Bool := valueLetters.contains c || c == voidLetter

/-- A class name as a descriptor can hold it: some characters, none of them a semicolon. -/
def IsClassName (name : Text) : Prop := name ≠ [] ∧ .char ';' ∉ name

instance (name : Text) : Decidable (IsClassName name) := by
  unfold IsClassName; infer_instance

/-- A field type: `dimensions` array levels over a class or a base type. -/
structure FieldType where
  dimensions : Int := 0
  base : Option Text := none
  className : Option Text := none
  deriving DecidableEq, Inhabited

namespace FieldType

/-- Whether the type refers to a class. -/
def isObject (t : FieldType) : Bool := t.className.isSome

/-- The part of the descriptor after the array markers. -/
def element (t : FieldType) : Text :=
  match t.className with
  | some name => .char 'L' :: name ++ [.char ';']
  | none => t.base.getD "None"

/-- The descriptor: one array marker per dimension, then the element. -/
def descriptor (t : FieldType) : Text :=
  List.replicate t.dimensions.toNat (CodePoint.char '[') ++ t.element

/-- The same type over another class. -/
def withClassName (t : FieldType) (name : Text) : FieldType := { t with className := some name }

/-- The same type with its class renamed, if it has one. -/
def rename (f : Text → Text) (t : FieldType) : FieldType :=
  { t with className := t.className.map f }

/-- Renaming to the same name changes nothing. -/
@[simp] theorem rename_id (t : FieldType) : t.rename id = t := by
  simp [rename]

end FieldType

/-- The field types the grammar of descriptors admits. -/
def IsFieldType (t : FieldType) : Prop :=
  0 ≤ t.dimensions ∧
    ((∃ letter ∈ valueLetters, t.base = some [letter] ∧ t.className = none) ∨
      (t.base = none ∧ ∃ name, t.className = some name ∧ IsClassName name))

/-- A method type: the types of the parameters in order, and the type of the result. -/
structure MethodType where
  parameters : List FieldType
  returnType : FieldType
  deriving DecidableEq, Inhabited

namespace MethodType

/-- The descriptors of the parameters. -/
def parameterDescriptors (m : MethodType) : List Text := m.parameters.map FieldType.descriptor

/-- The descriptor of the result. -/
def returnDescriptor (m : MethodType) : Text := m.returnType.descriptor

/-- The descriptor: the parameters in parentheses, then the result. -/
def descriptor (m : MethodType) : Text :=
  .char '(' :: m.parameterDescriptors.flatten ++ .char ')' :: m.returnDescriptor

/-- The names of the classes in the type, in the order of the descriptor. -/
def classNames (m : MethodType) : List Text :=
  (m.parameters ++ [m.returnType]).filterMap FieldType.className

/-- The same type with its classes renamed. -/
def rename (f : Text → Text) (m : MethodType) : MethodType where
  parameters := m.parameters.map (·.rename f)
  returnType := m.returnType.rename f

/-- Renaming the classes of a type renames the list of its class names. -/
@[simp] theorem classNames_rename (f : Text → Text) (m : MethodType) :
    (m.rename f).classNames = m.classNames.map f := by
  have renamed : (m.rename f).parameters ++ [(m.rename f).returnType] =
      (m.parameters ++ [m.returnType]).map (·.rename f) := by
    simp [rename]
  rw [classNames, renamed, List.filterMap_map, classNames, List.map_filterMap]
  rfl

end MethodType

/-- The method types the grammar of descriptors admits: only a result may be void. -/
def IsMethodType (m : MethodType) : Prop :=
  (∀ t ∈ m.parameters, IsFieldType t) ∧
    (IsFieldType m.returnType ∨ m.returnType = { base := some [voidLetter] })

namespace Descriptor

/-- Why a text is not a descriptor. -/
inductive Reason
  | unexpectedEnd
  | misplacedVoid
  | unterminatedName
  | emptyName
  | unexpectedCharacter (c : CodePoint)
  | parametersMissing
  | parametersUnclosed
  | afterReturnType
  | afterFieldType
  deriving DecidableEq

/-- The words of a reason. -/
def Reason.message : Reason → Text
  | unexpectedEnd => "unexpected end of descriptor"
  | misplacedVoid => "void is only valid as a return type"
  | unterminatedName => "unterminated class name"
  | emptyName => "empty class name"
  | unexpectedCharacter c => "unexpected character " ++ Text.quoted [c]
  | parametersMissing => "expected '('"
  | parametersUnclosed => "missing ')'"
  | afterReturnType => "trailing characters after return type"
  | afterFieldType => "trailing characters after field type"

/-- A reason and the offset it is found at. -/
structure Fault where
  position : Nat
  reason : Reason
  deriving DecidableEq

end Descriptor

/-- A descriptor that cannot be mapped, and the fault found in it. -/
structure DescriptorError extends Descriptor.Fault where
  descriptor : Text
  deriving DecidableEq

/-- The sentence that reports a descriptor, given the words of the reason and the offset. -/
def DescriptorError.sentence (descriptor reason : Text) (position : Int) : Text :=
  "Cannot map descriptor " ++ Text.quoted descriptor ++ ": " ++ reason ++ " at offset " ++
    Text.ofInt position

/-- The message of a descriptor error. -/
def DescriptorError.message (e : DescriptorError) : Text :=
  sentence e.descriptor e.reason.message e.position

end Remapping
