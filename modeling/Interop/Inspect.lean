import Interop.Registry
import Interop.Render

/-
  This file defines how values, types and functions are
  shown to programmers: every part is named, texts are
  quoted, and nothing is left out. Boxes show the address of
  their object.

  Key definitions include:
    * `Value.inspect`
    * `Signature.inspect`
    * `Registry.inspect`
    * `Callable.inspect`
    * `Fault.inspect`
-/

namespace Interop

namespace Inspect

/-
  Numbers from a ten-thousandth up to below ten to the
  sixteenth are written positionally, with a zero after the
  point of whole numbers; a half goes up.
-/
def number : Layout where
  plainFrom := some (-4)
  plainBelow := some 16
  pointZero := true
  plusSign := false
  tie := .up

/- A named part of a whole. -/
def part (name text : String) : String :=
  name ++ ": " ++ text

/- A whole with named parts. -/
def parts
    (name : String)
    (texts : List String) : String :=
  name ++ " \x7b " ++ ", ".intercalate texts ++ " \x7d"

/- A whole with one part that has no name. -/
def around (name text : String) : String :=
  name ++ "(" ++ text ++ ")"

/- Texts in brackets. -/
def bracketed (texts : List String) : String :=
  "[" ++ ", ".intercalate texts ++ "]"

/- Numbers in brackets. -/
def numbers (ns : List Nat) : String :=
  bracketed (ns.map Nat.repr)

/- The address of an object. -/
def address (h : Handle) : String :=
  "0x" ++ String.ofList (Nat.toDigits 16 h.index)

end Inspect

open Inspect

------------------------------------------------------------
-- Values
------------------------------------------------------------

/- A scalar with its kind. -/
def Scalar.inspect : Scalar → String
| .int i => around "Int" (toString i.toInt)
| .float x => around "Float" (Inspect.number.text x)
| .complex re im =>
    around "Complex"
      (parts "Complex"
        [part "re" (Inspect.number.text re),
          part "im" (Inspect.number.text im)])
| .str t => around "Str" (Text.quoted t)

/- A type with the mark of a type. -/
def HostType.inspect
    (s : Schema)
    (t : HostType) : String :=
  around "HostTy" (t.text s)

/- A box with its type, object and path. -/
def Box.inspect
    (s : Schema)
    (b : Box) : String :=
  parts "BoxedValue"
    [part "ty" (b.type.inspect s),
      part "handle" (address b.handle),
      part "path" (numbers b.path)]

namespace Value

mutual

/- A value with all its parts. -/
def inspect (s : Schema) : Value → String
| .scalar a => around "Scalar" a.inspect
| .array shape values =>
    around "Array"
      (parts "ValueArray"
        [part "shape" (numbers shape),
          part "values" (bracketed (inspectAll s values))])
| .list values =>
    around "List"
      (parts "ValueList"
        [part "values" (bracketed (inspectAll s values))])
| .boxed b => around "Boxed" (b.inspect s)
| .function _ f =>
    around "Function" (around "ValueFunction" (f.text s))
| .any _ e => around "Any" (around "ValueAny" e.typeName)

/- Values with all their parts. -/
def inspectAll (s : Schema) : List Value → List String
| [] => []
| v :: rest => v.inspect s :: inspectAll s rest

end

end Value

------------------------------------------------------------
-- Declarations
------------------------------------------------------------

/- A signature with all its parts. -/
def Signature.inspect
    (s : Schema)
    (sig : Signature) : String :=
  parts "Signature"
    [part "params"
        (bracketed (sig.params.map (·.inspect s))),
      part "returns"
        (bracketed (sig.returns.map (·.inspect s))),
      part "fallible"
        (if sig.fallible then "true" else "false")]

/- A method with its signature. -/
def Method.inspect
    (s : Schema)
    (m : Method) : String :=
  parts "Method" [part "sig" (m.sig.inspect s)]

/- A field with its type. -/
def Field.inspect
    (s : Schema)
    (f : Field) : String :=
  parts "FieldDef"
    [part "name" (Text.quoted f.name),
      part "ty" (f.type.inspect s)]

/- A record type with its fields and method names. -/
def Registry.inspect
    (reg : Registry)
    (id : RecordId) : String :=
  let s := reg.schema
  parts "RecordType"
    [part "name" (Text.quoted (s.name id)),
      part "fields"
        (bracketed ((s.fields id).map (·.inspect s))),
      part "methods"
        (Text.quoted
          (", ".intercalate (reg.methodNames id)))]

/- A callable with its signature. -/
def Callable.inspect
    (s : Schema)
    (c : Callable) : String :=
  parts "Callable"
    [part "name" (Text.quoted c.name),
      part "sig" (c.sig.text s)]

/- A fault with what it shows. -/
def Fault.inspect (f : Fault) : String :=
  around "HostFault" (Text.quoted f.text)

end Interop
