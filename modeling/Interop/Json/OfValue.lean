import Interop.Json.Document
import Interop.Render

/-
  This file writes values of the interpreter as JSON. Arrays
  become objects that carry the shape, lists become plain
  arrays. What has no data of its own (boxes, functions and
  domain values) cannot be written; the first such value is
  the failure.

  Key definitions include:
    * `Value.toJson`
-/

namespace Interop

/- A scalar as a document. -/
def Scalar.toJson : Scalar → Json
| .int i => .int i.toInt
| .float x => .ofFloat x
| .complex re im => .array [.ofFloat re, .ofFloat im]
| .str s => .str s

namespace Value

/- A shape and a buffer as a document. -/
def shapedJson
    (shape : List Nat)
    (items : List Json) : Json :=
  .object
    [("shape", .array (shape.map fun (n : Nat) => .int n)),
      ("values", .array items)]

mutual

/- A value as a document. -/
def toJson (s : Schema) : Value → Except Error Json
| .scalar a => .ok a.toJson
| .array shape values => do
    let items ← allToJson s values
    pure (shapedJson shape items)
| .list values => do
    let items ← allToJson s values
    pure (.array items)
| .boxed b => .error (.noJson ("boxed " ++ b.type.text s))
| .function _ f => .error (.noJson ("function " ++ f.text s))
| .any _ e => .error (.noJson e.typeName)

/- Values as documents, from left to right. -/
def allToJson (s : Schema) :
    List Value → Except Error (List Json)
| [] => .ok []
| v :: rest => do
    let item ← v.toJson s
    let items ← allToJson s rest
    pure (item :: items)

end

end Value

end Interop
