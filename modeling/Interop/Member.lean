import Interop.Convert.Export
import Interop.Convert.Import
import Interop.Registry
import Interop.Text.Capital

/-
  This file gives access to the members of boxed records by
  name. Host members have capital names, so the first letter
  of a name is capitalized before it is looked up. A method
  hides a field of the same name.

  Key definitions include:
    * `Box.fieldNames`
    * `Box.field`
    * `Box.set`
-/

namespace Interop

namespace Box

/- The declared field names, in order. -/
def fieldNames
    (s : Schema)
    (b : Box) : List String :=
  match b.record? with
  | some id => (s.fields id).map (·.name)
  | none => []

/- The value of the field at a position of the boxed record. -/
def readField
    (s : Schema)
    (heap : Heap)
    (b : Box)
    (index : Nat) : Except Error HostValue :=
  match b.read s heap with
  | .ok (.record _ values) =>
      match values[index]? with
      | some v => .ok v
      | none => .error (.notARecord (b.type.text s))
  | .ok _ => .error (.notARecord (b.type.text s))
  | .error e => .error e

/-
  A field of the boxed record. A record held by value is
  addressed in place, so that writing to it reaches this
  object; other fields are converted.
-/
def fieldAt
    (s : Schema)
    (b : Box)
    (index : Nat)
    (t : HostType) : Action Value :=
  match t with
  | .record id => pure (.boxed (b.project index (.record id)))
  | t => do
      let v ← Action.fromHeap fun heap => b.readField s heap index
      Action.onHeap (t.importAs s v)

/-
  The member with a name: a method bound to this object, a
  field, or nothing.
-/
def field
    (reg : Registry)
    (b : Box)
    (name : String) : Action (Option Value) :=
  let s := reg.schema
  match b.record? with
  | none => pure none
  | some id =>
      let member := Text.capitalize name
      match reg.method? id member with
      | some m => do
          let identity ← Action.fresh
          let bound :=
            Callable.bind (s.name id ++ "." ++ member) m b
          pure (some (.function identity (.callable bound)))
      | none =>
          match s.fieldIndex? id member with
          | none => pure none
          | some index =>
              match (s.fields id)[index]? with
              | none => pure none
              | some f => some <$> b.fieldAt s index f.type

/-
  Convert a value to the type of a field and write it. The
  value may denote the object that is written, so it is
  converted before the object is taken for writing.
-/
def set
    (s : Schema)
    (b : Box)
    (name : String)
    (v : Value) : Action Unit :=
  match b.record? with
  | none => Action.fail (.notARecord (b.type.text s))
  | some id =>
      let member := Text.capitalize name
      match s.fieldIndex? id member with
      | none => Action.fail (.noSuchField member)
      | some index =>
          match (s.fields id)[index]? with
          | none => Action.fail (.noSuchField member)
          | some f => do
              let converted ← f.type.exportAs s v
              Action.changeHeap fun heap =>
                b.putField s heap index converted

end Box

end Interop
