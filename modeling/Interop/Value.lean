import Interop.Host.State
import Interop.NameMap
import Interop.Place

/-
  This file defines the values of the array interpreter:
  scalars, arrays, lists, boxed host objects, functions, and
  domain values that present themselves to the host.

  An array is a flat row-major buffer with a shape. Functions
  and domain values have identities, by which they are
  compared.

  Key definitions include:
    * `Scalar`
    * `Callable`
    * `Function`
    * `Value`
    * `Value.array?`
    * `Value.equal`
    * `Value.describe`
-/

namespace Interop

------------------------------------------------------------
-- Scalars
------------------------------------------------------------

/- Values without parts, complex numbers counted as one. -/
inductive Scalar where
| int (i : Int64) : Scalar
| float (x : Binary64) : Scalar
| complex (re im : Binary64) : Scalar
| str (s : String) : Scalar
deriving DecidableEq

namespace Scalar

/- The kind of a scalar, named in conversion errors. -/
def kindName : Scalar → String
| .int _ => "integer"
| .float _ => "float"
| .complex _ _ => "complex"
| .str _ => "string"

/- Equality of scalars; numbers are compared as numbers. -/
def equal : Scalar → Scalar → Bool
| .int i, .int j => i == j
| .float x, .float y => x.numEq y
| .complex a b, .complex c d => a.numEq c && b.numEq d
| .str s, .str t => s == t
| _, _ => false

end Scalar

------------------------------------------------------------
-- Functions
------------------------------------------------------------

/-
  What a callable runs: a free host function, or a method on
  the object that a box stands for.
-/
inductive Target where
| free (body : HostFunction) : Target
| bound (body : HostMethod) (receiver : Box) : Target

/- A host function presented to the interpreter. -/
structure Callable where
  name : String
  sig : Signature
  target : Target

namespace Callable

/- A method bound to its receiver. -/
def bind
    (name : String)
    (m : Method)
    (receiver : Box) : Callable :=
  ⟨name, m.sig, .bound m.body receiver⟩

end Callable

/-
  What the interpreter can apply to operands: a host
  function, the allocation of a fresh host object of a type,
  or the named primitive that lists its operands.
-/
inductive Function where
| callable (c : Callable) : Function
| constructor (type : HostType) : Function
| pairing (name : String) : Function

------------------------------------------------------------
-- Values
------------------------------------------------------------

/- The values of the interpreter. -/
inductive Value where
| scalar (s : Scalar) : Value
| array (shape : List Nat) (values : List Value) : Value
| list (values : List Value) : Value
| boxed (b : Box) : Value
| function (id : Nat) (f : Function) : Value
| any (id : Nat) (e : Exportable) : Value

namespace Value

/- An integer. -/
abbrev int (i : Int64) : Value :=
  .scalar (.int i)

/- A floating point number. -/
abbrev float (x : Binary64) : Value :=
  .scalar (.float x)

/- A complex number. -/
abbrev complex (re im : Binary64) : Value :=
  .scalar (.complex re im)

/- A text. -/
abbrev str (s : String) : Value :=
  .scalar (.str s)

/- An array of rank one. -/
def vector (values : List Value) : Value :=
  .array [values.length] values

/- The explicit empty result: a vector of length zero. -/
def empty : Value :=
  .array [0] []

/- The count of elements that a shape needs. -/
def shapeSize (shape : List Nat) : Nat :=
  shape.foldl (· * ·) 1

/- An array from a buffer that fills its shape. -/
def array?
    (shape : List Nat)
    (values : List Value) : Except Error Value :=
  if shapeSize shape = values.length then
    .ok (.array shape values)
  else
    .error
      (.shapeMismatch shape (shapeSize shape) values.length)

/- An array without elements, of any shape. -/
def isEmpty : Value → Bool
| .array _ values => values.isEmpty
| _ => false

/- A value as a scalar. -/
def asScalar? : Value → Option Scalar
| .scalar s => some s
| _ => none

/- A value as a boxed host object. -/
def asBox? : Value → Option Box
| .boxed b => some b
| _ => none

/- A value as a function. -/
def asFunction? : Value → Option Function
| .function _ f => some f
| _ => none

/- What a value is, named in conversion errors. -/
def describe (s : Schema) : Value → String
| .scalar a => a.kindName
| .array shape _ =>
    if shape.length = 1 then
      "vector"
    else
      "rank-" ++ shape.length.repr ++ " array"
| .list _ => "list"
| .boxed b => "boxed " ++ b.type.text s
| .function _ _ => "function"
| .any _ e => e.typeName

mutual

/-
  Equality of values. Arrays need equal shapes; boxes are
  equal when they denote the same object; functions and
  domain values are equal to themselves only.
-/
def equal : Value → Value → Bool
| .scalar a, .scalar b => a.equal b
| .array shape vs, .array shape' ws =>
    shape == shape' && equalAll vs ws
| .list vs, .list ws => equalAll vs ws
| .boxed b, .boxed c => b.sameObject c
| .function i _, .function j _ => i == j
| .any i _, .any j _ => i == j
| _, _ => false

/- Equality of value lists, element by element. -/
def equalAll : List Value → List Value → Bool
| [], [] => true
| v :: vs, w :: ws => v.equal w && equalAll vs ws
| _, _ => false

end

end Value

end Interop
