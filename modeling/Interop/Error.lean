import Interop.Host.Value

/-
  This file defines the failures that operations report, and
  the wording of each.

  Wrappers say where a failure happened: `argument` counts
  parameters from one, `element` counts the elements of a
  flat buffer from zero.

  Key definitions include:
    * `Json.Problem`
    * `Error`
    * `Error.message`
    * `Error.root`
-/

namespace Interop

/-
  Why a JSON text is refused: it is not JSON, it is JSON of
  another form than asked for, or it ends too early.
-/
inductive Json.Problem where
| malformed : Json.Problem
| unsuited : Json.Problem
| truncated : Json.Problem
deriving DecidableEq, Repr

/- The failures of operations, by cause. -/
inductive Error where
| rankTooHigh (rank : Nat) : Error
| count (expected got : Nat) : Error
| argument (index : Nat) (source : Error) : Error
| element (index : Nat) (source : Error) : Error
| conversion (got want : String) : Error
| unsupported (kind : String) : Error
| host (fault : Fault) : Error
| noSuchField (name : String) : Error
| notARecord (type : String) : Error
| notConstructible (type : String) : Error
| returnMismatch (callee : String) (expected got : Nat) : Error
| borrowed (type : String) : Error
| shapeMismatch (shape : List Nat) (needed got : Nat) : Error
| fieldCount (record : String) (declared got : Nat) : Error
| fieldMismatch (record field want got : String) : Error
| noFieldAt (record : String) (index : Nat) : Error
| noJson (what : String) : Error
| json (problem : Json.Problem) : Error
| notAnInteger (variableName quoted : String) : Error
| other (message : String) : Error
deriving DecidableEq, Repr

namespace Error

/- Numbers in brackets, as a shape is shown. -/
def shapeText (shape : List Nat) : String :=
  "[" ++ ", ".intercalate (shape.map Nat.repr) ++ "]"

/- What users are told about a failure. -/
def message : Error → String
| .rankTooHigh rank =>
    "arity error: rank too high: positional arguments " ++
      "need a vector, got rank " ++ rank.repr
| .count expected got =>
    "arity error: expected " ++ expected.repr ++ ", got " ++
      got.repr
| .argument index source =>
    "argument " ++ index.repr ++ ": " ++ source.message
| .element index source =>
    "element " ++ index.repr ++ ": " ++ source.message
| .conversion got want =>
    "cannot convert " ++ got ++ " to " ++ want
| .unsupported kind =>
    "unsupported conversion for kind " ++ kind
| .host fault => fault.text
| .noSuchField name => "no such field: " ++ name
| .notARecord type => "not a record: " ++ type
| .notConstructible type =>
    "type " ++ type ++ " is not constructible"
| .returnMismatch callee expected got =>
    callee ++ " returned " ++ got.repr ++
      " values, expected " ++ expected.repr
| .borrowed type =>
    "host object " ++ type ++ " is already borrowed"
| .shapeMismatch shape needed got =>
    "shape " ++ shapeText shape ++ " needs " ++ needed.repr ++
      " elements, got " ++ got.repr
| .fieldCount record declared got =>
    "record " ++ record ++ " has " ++ declared.repr ++
      " fields, got " ++ got.repr ++ " values"
| .fieldMismatch record field want got =>
    "field " ++ record ++ "." ++ field ++ " expects " ++ want ++
      ", got " ++ got
| .noFieldAt record index =>
    "record " ++ record ++ " has no field #" ++ index.repr
| .noJson what => "cannot convert " ++ what ++ " to json"
| .json .malformed => "malformed JSON"
| .json .unsuited => "JSON of another form"
| .json .truncated => "JSON that ends too early"
| .notAnInteger variableName quoted =>
    variableName ++ " must be an integer, got " ++ quoted
| .other message => message

/- The failure below all wrappers. -/
def root : Error → Error
| .argument _ source | .element _ source => source.root
| e => e

/- A failure below wrappers is not wrapped itself. -/
theorem root_root
    (e : Error) :
    e.root.root = e.root := by
  induction e with
  | argument index source ih => exact ih
  | element index source ih => exact ih
  | _ => rfl

end Error

end Interop
