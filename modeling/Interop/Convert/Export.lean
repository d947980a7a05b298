import Interop.Action
import Interop.Host.Conformance

/-
  This file converts values of the interpreter into host
  values of a given type.

  Integers must lie in the range of their kind and are
  stored by its signedness; floating point numbers are
  rounded to the width of theirs. Sequences are built from
  arrays of any shape. A record by value is copied out of
  the box it is in; a reference shares the boxed object. A
  domain value presents its own host form first, under the
  same range checks and rounding.

  Key definitions include:
    * `HostType.storeInt`
    * `HostType.fit`
    * `HostType.offered`
    * `HostType.exportPlain`
    * `HostType.exportAs`
-/

namespace Interop

namespace HostType

/-
  An integer in the storage of a kind, if it is in range.
-/
def storeInt
    (kind : IntKind)
    (i : Int) : Option HostValue :=
  if kind.contains i then
    some
      (if kind.isUnsigned then
        .uint (.ofNat i.toNat)
      else
        .int (.ofInt i))
  else
    none

------------------------------------------------------------
-- Host Forms of Domain Values
------------------------------------------------------------

/-
  Fit a host value into a type, with range checks and
  rounding for numbers at any depth of sequences.
-/
def fit
    (heap : Heap) : HostType → HostValue → Option HostValue
| .int kind, .int i => storeInt kind i.toInt
| .int kind, .uint n => storeInt kind n.toNat
| .float kind, .float x => some (.float (kind.narrow x))
| .complex kind, .complex re im =>
    some (.complex (kind.narrow re) (kind.narrow im))
| .seq elem, .seq items =>
    (items.mapM fun item => elem.fit heap item).map .seq
| t, v => if t.admits heap v then some v else none

/-
  The host form of a domain value, if it has one that fits.
  A form that does not fit is logged.
-/
def offered
    (s : Schema)
    (t : HostType) : Value → Action (Option HostValue)
| .any _ e => do
    match ← Action.onHost e.produce with
    | none => pure none
    | some v =>
        match ← Action.fromHeap fun heap => .ok (t.fit heap v) with
        | some fitted => pure (some fitted)
        | none =>
            Action.emit
              (.misfit e.typeName v.kindName (t.text s))
            pure none
| _ => pure none

------------------------------------------------------------
-- Conversion by Type
------------------------------------------------------------

/-
  The copy of a boxed record that a slot by value gets.
-/
def exportRecord
    (s : Schema)
    (heap : Heap)
    (id : RecordId)
    (v : Value) : Except Error HostValue :=
  let misfit := Error.conversion (v.describe s) ("record " ++ s.name id)
  match v with
  | .boxed b =>
      match b.read s heap with
      | .ok content =>
          if content.isRecordOf id then
            .ok content
          else
            .error misfit
      | .error e => .error e
  | _ => .error misfit

/-
  The reference to a boxed object. A record inside another
  has no handle to share; the empty value is the nil
  reference.
-/
def exportRef
    (s : Schema)
    (heap : Heap)
    (id : RecordId)
    (v : Value) : Except Error HostValue :=
  let want := (HostType.ref id).text s
  match v with
  | .boxed b =>
      if b.isProjection then
        .error
          (.conversion (v.describe s ++ " held in a record field")
            want)
      else
        match b.read s heap with
        | .ok content =>
            if content.isRecordOf id then
              .ok (.ref b.handle)
            else
              .error (.conversion (v.describe s) want)
        | .error e => .error e
  | _ =>
      if v.isEmpty then
        .ok .nil
      else
        .error (.conversion (v.describe s) want)

/-
  Convert a value by the rule of a type, the elements of
  sequences left aside.
-/
def exportPlain
    (s : Schema)
    (heap : Heap)
    (t : HostType)
    (v : Value) : Except Error HostValue :=
  let misfit := Error.conversion (v.describe s) (t.text s)
  match t, v with
  | .bool, .scalar (.int i) =>
      if i = 0 then
        .ok (.bool false)
      else if i = 1 then
        .ok (.bool true)
      else
        .error
          (.conversion ("integer " ++ toString i.toInt) (t.text s))
  | .int kind, .scalar (.int i) =>
      match storeInt kind i.toInt with
      | some stored => .ok stored
      | none =>
          .error
            (.conversion ("integer " ++ toString i.toInt)
              (t.text s))
  | .float kind, .scalar (.float x) =>
      .ok (.float (kind.narrow x))
  | .complex kind, .scalar (.complex re im) =>
      .ok (.complex (kind.narrow re) (kind.narrow im))
  | .str, .scalar (.str text) => .ok (.str text)
  | .record id, v => exportRecord s heap id v
  | .ref id, v => exportRef s heap id v
  | t, _ =>
      .error
        (if t.isUnsupported then
          .unsupported (t.text s)
        else
          misfit)

/- Convert a value into a host value of a type. -/
def exportAs (s : Schema) : HostType → Value → Action HostValue
| .seq elem, v => do
    match ← offered s (.seq elem) v with
    | some fitted => pure fitted
    | none =>
        match v with
        | .array _ values => do
            let items ←
              each
                (fun i item =>
                  Action.mapError (.element i)
                    (elem.exportAs s item))
                values
            pure (.seq items)
        | _ =>
            Action.fail
              (.conversion (v.describe s)
                ((HostType.seq elem).text s))
| t, v => do
    match ← offered s t v with
    | some fitted => pure fitted
    | none => Action.fromHeap fun heap => t.exportPlain s heap v

end HostType

end Interop
