import Interop.Action

/-
  This file converts host values declared with a type into
  values of the interpreter.

  Sequences become vectors. A record by value moves into a
  fresh object and arrives in its box; a reference arrives
  as a box of the very object. A conversion that fails adds
  no objects.

  Key definitions include:
    * `HostType.importAs`
-/

namespace Interop

namespace HostType

/- Changes of the objects that have a result. -/
abbrev Import :=
  StateT Heap (Except Error)

/- A conversion that fails. -/
def refuse
    (got want : String) : Import Value :=
  throw (.conversion got want)

/- A record in the box of a fresh object. -/
def importRecord
    (id : RecordId)
    (v : HostValue) : Import Value :=
  fun heap =>
    let (h, heap') := heap.alloc v
    .ok (.boxed (.whole h (.record id)), heap')

/- The box of an object that is referred to. -/
def importRef
    (s : Schema)
    (id : RecordId)
    (h : Handle) : Import Value :=
  fun heap =>
    if heap.isReadable h && (heap.content h).isRecordOf id then
      .ok (.boxed (.whole h (.record id)), heap)
    else
      .error (.conversion "reference" ((HostType.ref id).text s))

/- Convert a host value that is declared with a type. -/
def importAs (s : Schema) :
    HostType → HostValue → Import Value
| .bool, .bool b => pure (.int (if b then 1 else 0))
| .int _, .int i => pure (.int i)
| .int _, .uint n =>
    if IntKind.i64.contains n.toNat then
      pure (.int (.ofNat n.toNat))
    else
      refuse ("unsigned " ++ n.toNat.repr) "integer"
| .float _, .float x => pure (.float x)
| .complex _, .complex re im => pure (.complex re im)
| .str, .str text => pure (.str text)
| .seq elem, .seq items => do
    let values ←
      each
        (fun i item heap =>
          (elem.importAs s item heap).mapError (.element i))
        items
    pure (.vector values)
| .record id, .record own values =>
    if own = id then
      importRecord id (.record own values)
    else
      refuse "host record" ((HostType.record id).text s)
| .ref id, .ref h => importRef s id h
| .ref _, .nil => pure .empty
| t, v =>
    if t.isUnsupported then
      throw (.unsupported (t.text s))
    else
      refuse ("host " ++ v.kindName) (t.text s)

end HostType

end Interop
