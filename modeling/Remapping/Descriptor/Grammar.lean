import Remapping.Descriptor.Basic

/-!
# The grammar of descriptors

The descriptors as an inductive grammar, said without a scanner: `Parameter` for field types,
`Result` for what may follow the closing parenthesis, `Method` for whole method descriptors.
-/

namespace Remapping.Descriptor.Grammar

/-- The descriptor of a type that a field or a parameter can have. -/
inductive Parameter : Text → Prop
  | base (letter : CodePoint) : letter ∈ valueLetters → Parameter [letter]
  | object (name : Text) : IsClassName name → Parameter (.char 'L' :: name ++ [.char ';'])
  | array (d : Text) : Parameter d → Parameter (.char '[' :: d)

/-- The descriptor of a type that a method can return. -/
inductive Result : Text → Prop
  | void : Result [voidLetter]
  | value (d : Text) : Parameter d → Result d

/-- The descriptor of a method with parameters `ds`. -/
inductive Method : Text → Prop
  | intro (ds : List Text) (result : Text) :
      (∀ d ∈ ds, Parameter d) → Result result →
      Method (.char '(' :: ds.flatten ++ .char ')' :: result)

end Remapping.Descriptor.Grammar
