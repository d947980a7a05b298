import Interop.Error
import Interop.Heap

/-
  This file defines places: a handle, and the field
  positions that lead from its object down to a record held
  by value inside it. A box is a place with a type tag; all
  boxes with one place read and write the same value.

  Reading needs an object that may be read, writing one that
  nobody has; a path that leads nowhere is not a record.

  Key definitions include:
    * `HostValue.at?`
    * `HostValue.replaceAt`
    * `Box`
    * `Box.read`
    * `Box.update`
    * `Box.write`
    * `Box.putField`
-/

namespace Interop

------------------------------------------------------------
-- Paths
------------------------------------------------------------

namespace HostValue

/- The value at the end of a path of field positions. -/
def at? : List Nat → HostValue → Option HostValue
| [], v => some v
| i :: path, .record _ values => (values[i]?).bind (at? path)
| _ :: _, _ => none

/-
  The value with `new` at the end of a path; a path that
  leads nowhere changes nothing.
-/
def replaceAt : List Nat → HostValue → HostValue → HostValue
| [], new, _ => new
| i :: path, new, .record id values =>
    .record id (values.modify i (replaceAt path new))
| _ :: _, _, v => v

/- What was put at the end of a path is found there. -/
theorem at?_replaceAt
    {path : List Nat}
    {v old new : HostValue}
    (hAt : v.at? path = some old) :
    (replaceAt path new v).at? path = some new := by
  induction path generalizing v with
  | nil => rfl
  | cons i path ih =>
      cases v with
      | record id values =>
          simp only [at?] at hAt
          cases hGet : values[i]? with
          | none => simp [hGet] at hAt
          | some w =>
              simp only [hGet, Option.bind_some] at hAt
              simp [replaceAt, at?, hGet, ih hAt]
      | _ => simp [at?] at hAt

/- A path continued is followed from where it leads. -/
theorem at?_append
    (path rest : List Nat)
    (v : HostValue) :
    v.at? (path ++ rest) =
      (v.at? path).bind fun w => w.at? rest := by
  induction path generalizing v with
  | nil => rfl
  | cons i path ih =>
      cases v with
      | record id values =>
          simp only [List.cons_append, at?]
          cases values[i]? with
          | none => rfl
          | some w => simpa using ih w
      | _ => rfl

end HostValue

------------------------------------------------------------
-- Boxes
------------------------------------------------------------

/-
  A reference to a host object with the type it is taken
  for. The path is empty when the box stands for the whole
  object.
-/
structure Box where
  handle : Handle
  path : List Nat
  type : HostType
deriving DecidableEq, Repr

namespace Box

/- The box of a whole object. -/
def whole
    (h : Handle)
    (t : HostType) : Box :=
  ⟨h, [], t⟩

/- The field at a position, addressed in place. -/
def project
    (b : Box)
    (index : Nat)
    (t : HostType) : Box :=
  ⟨b.handle, b.path ++ [index], t⟩

/- The box stands for a field inside an object. -/
def isProjection (b : Box) : Bool :=
  !b.path.isEmpty

/- Boxes denote the same object, whatever their tags. -/
def sameObject (b c : Box) : Bool :=
  b.handle == c.handle && b.path == c.path

/- The record type that a box is tagged with. -/
def record? (b : Box) : Option RecordId :=
  match b.type with
  | .record id => some id
  | _ => none

/- The value that a box stands for. -/
def read
    (s : Schema)
    (heap : Heap)
    (b : Box) : Except Error HostValue :=
  if heap.isReadable b.handle then
    match (heap.content b.handle).at? b.path with
    | some v => .ok v
    | none => .error (.notARecord (b.type.text s))
  else
    .error (.borrowed (b.type.text s))

/-
  Change the value that a box stands for, unless the change
  fails.
-/
def update
    (s : Schema)
    (heap : Heap)
    (b : Box)
    (change : HostValue → Except Error HostValue) :
    Except Error Heap :=
  if heap.isWritable b.handle then
    let content := heap.content b.handle
    match content.at? b.path with
    | some old =>
        match change old with
        | .ok new =>
            .ok (heap.store b.handle
              (.replaceAt b.path new content))
        | .error e => .error e
    | none => .error (.notARecord (b.type.text s))
  else
    .error (.borrowed (b.type.text s))

/- Replace the value that a box stands for. -/
def write
    (s : Schema)
    (heap : Heap)
    (b : Box)
    (v : HostValue) : Except Error Heap :=
  b.update s heap fun _ => .ok v

/- Replace the field at a position of the boxed record. -/
def putField
    (s : Schema)
    (heap : Heap)
    (b : Box)
    (index : Nat)
    (v : HostValue) : Except Error Heap :=
  b.update s heap fun old =>
    match old with
    | .record id values =>
        if index < values.length then
          .ok (.record id (values.set index v))
        else
          .error (.noFieldAt (s.name id) index)
    | _ => .error (.notARecord (b.type.text s))

end Box

end Interop
