import Remapping.Descriptor.Parse

/-!
# Renaming the classes in a descriptor

`renameField` and `renameMethod` replace the class names of a descriptor and keep everything
else. A field descriptor is looked at from its ends and only if it refers to a class; a method
descriptor is read and its pieces are renamed one by one.
-/

namespace Remapping.Descriptor

/-- The array markers at the start of a descriptor. -/
def arrayMarkers (d : Text) : Text := d.takeWhile (· = .char '[')

/-- A descriptor without its array markers. -/
def elementPart (d : Text) : Text := d.dropWhile (· = .char '[')

/-- Whether a descriptor starts like a class or an array of a class. -/
def isObjectDescriptor (d : Text) : Bool := (elementPart d).head? = some (.char 'L')

/-- The class name in a descriptor that starts like a class or an array of a class. -/
def referencedName (d : Text) : Except DescriptorError Text :=
  let element := elementPart d
  let name := (element.drop 1).dropLast
  let depth := (arrayMarkers d).length
  if element.getLast? ≠ some (.char ';') then
    .error { descriptor := d, position := d.length, reason := .unterminatedName }
  else if name = [] then
    .error { descriptor := d, position := depth, reason := .emptyName }
  else if .char ';' ∈ name then
    .error {
      descriptor := d
      position := depth + 1 + name.idxOf (.char ';')
      reason := .afterFieldType }
  else .ok name

/-- Renames the class of a field descriptor; a descriptor without a class stays as it is. -/
def renameField (rename : Text → Text) (d : Text) : Except DescriptorError Text :=
  if isObjectDescriptor d then
    (referencedName d).map fun name => arrayMarkers d ++ .char 'L' :: rename name ++ [.char ';']
  else .ok d

/-- Renames field descriptors in order, up to the first fault. -/
def renameFields (rename : Text → Text) : List Text → Except DescriptorError (List Text)
  | [] => .ok []
  | d :: ds => do
    let renamed ← renameField rename d
    let rest ← renameFields rename ds
    return renamed :: rest

/-- Renames every class of a method descriptor. -/
def renameMethod (rename : Text → Text) (s : Text) : Except DescriptorError Text := do
  let method ← parseMethod s
  let parameters ← renameFields rename method.parameterDescriptors
  let result ← renameField rename method.returnDescriptor
  return .char '(' :: parameters.flatten ++ .char ')' :: result

/-- The class names that renaming a field descriptor looks up. -/
def fieldReferences (d : Text) : List Text :=
  if isObjectDescriptor d then
    match referencedName d with
    | .ok name => [name]
    | .error _ => []
  else []

/-- The class names that renaming a method descriptor looks up, in order. -/
def methodReferences (s : Text) : List Text :=
  match parseMethod s with
  | .ok method =>
    (method.parameterDescriptors ++ [method.returnDescriptor]).flatMap fieldReferences
  | .error _ => []

end Remapping.Descriptor
