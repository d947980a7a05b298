import Interop.Error
import Interop.Heap

/-
  This file defines when a host value can stand in a slot of
  a host type as it is, and the records that are built from
  values that can.

  A record conforms by its type alone and is not looked
  into; a reference conforms when its object may be read and
  is a record of the target type.

  Key definitions include:
    * `HostType.admits`
    * `HostRecord.build`
-/

namespace Interop

/- A value can stand in a slot of a type as it is. -/
def HostType.admits
    (heap : Heap) : HostType → HostValue → Bool
| .bool, .bool _ => true
| .int kind, .int i =>
    !kind.isUnsigned && kind.contains i.toInt
| .int kind, .uint n =>
    kind.isUnsigned && kind.contains n.toNat
| .float _, .float _ => true
| .complex _, .complex _ _ => true
| .str, .str _ => true
| .seq elem, .seq items =>
    items.all fun item => elem.admits heap item
| .record id, .record own _ => own == id
| .ref _, .nil => true
| .ref id, .ref h =>
    heap.isReadable h && (heap.content h).isRecordOf id
| .map _ _, .nil => true
| .chan _, .nil => true
| .interface _, .nil => true
| .error, .error _ => true
| _, _ => false

namespace HostRecord

/- The first field whose value does not fit it, if any. -/
def firstMisfit
    (heap : Heap) :
    List Field → List HostValue → Option (Field × HostValue)
| f :: fields, v :: values =>
    if f.type.admits heap v then
      firstMisfit heap fields values
    else
      some (f, v)
| _, _ => none

/-
  A record from one value for each declared field, each of
  the type that is declared.
-/
def build
    (s : Schema)
    (heap : Heap)
    (id : RecordId)
    (values : List HostValue) : Except Error HostRecord :=
  let fields := s.fields id
  if values.length ≠ fields.length then
    .error
      (.fieldCount (s.name id) fields.length values.length)
  else
    match firstMisfit heap fields values with
    | some (f, v) =>
        .error
          (.fieldMismatch (s.name id) f.name (f.type.text s)
            v.kindName)
    | none => .ok ⟨id, values⟩

end HostRecord

end Interop
