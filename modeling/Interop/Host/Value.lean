import Interop.Host.Type

/-
  This file defines host values, the records among them, and
  the zero value of every type.

  Objects are referred to by handles; the heap that gives
  handles their content is defined on top of this file.

  Key definitions include:
    * `Report`
    * `Fault`
    * `HostValue`
    * `HostRecord`
    * `HostType.zero`
-/

namespace Interop

------------------------------------------------------------
-- Faults
------------------------------------------------------------

/-
  A failure report: what is shown, and what lies beneath it,
  outermost first.
-/
structure Report where
  message : String
  causes : List String
deriving DecidableEq, Repr

namespace Report

/- A report of one message. -/
def ofMessage (message : String) : Report :=
  ⟨message, []⟩

/- A report put into a context, which is then what shows. -/
def wrap
    (r : Report)
    (context : String) : Report :=
  ⟨context, r.message :: r.causes⟩

end Report

/-
  A failure that a host function reports. Faults with equal
  reports are still told apart by their identity.
-/
structure Fault where
  id : Nat
  report : Report
deriving DecidableEq, Repr

namespace Fault

/- A fault shows the outermost message of its report. -/
def text (f : Fault) : String :=
  f.report.message

end Fault

------------------------------------------------------------
-- Values
------------------------------------------------------------

/- The name of a host object. -/
structure Handle where
  index : Nat
deriving DecidableEq, Repr

/-
  The values of the host. Integers are stored apart by
  signedness. An `error` is the trailing slot of a function
  that may fail; without a fault it means success.
-/
inductive HostValue where
| nil : HostValue
| bool (b : Bool) : HostValue
| int (i : Int64) : HostValue
| uint (n : UInt64) : HostValue
| float (x : Binary64) : HostValue
| complex (re im : Binary64) : HostValue
| str (s : String) : HostValue
| seq (items : List HostValue) : HostValue
| record (id : RecordId) (values : List HostValue) : HostValue
| ref (handle : Handle) : HostValue
| error (fault : Option Fault) : HostValue

instance : Inhabited HostValue := ⟨.nil⟩

/- A record: its type, and one value for each field. -/
structure HostRecord where
  id : RecordId
  values : List HostValue

namespace HostValue

/- The kind of a value, named in conversion errors. -/
def kindName : HostValue → String
| .nil => "nil"
| .bool _ => "bool"
| .int _ => "int"
| .uint _ => "uint"
| .float _ => "float"
| .complex .. => "complex"
| .str _ => "string"
| .seq _ => "sequence"
| .record .. => "record"
| .ref _ => "reference"
| .error _ => "error"

/- A value as a signed integer, if it is one that fits. -/
def asInt64? : HostValue → Option Int64
| .int i => some i
| .uint n =>
    if IntKind.i64.contains n.toNat then
      some (.ofNat n.toNat)
    else
      none
| _ => none

/- A value as a floating point number. -/
def asFloat? : HostValue → Option Binary64
| .float x => some x
| _ => none

/- A value as a text. -/
def asText? : HostValue → Option String
| .str s => some s
| _ => none

/- A value as a record. -/
def asRecord? : HostValue → Option HostRecord
| .record id values => some ⟨id, values⟩
| _ => none

/- A value is a record of the given type. -/
def isRecordOf (id : RecordId) : HostValue → Bool
| .record own _ => own == id
| _ => false

/- Only records of a type are records of that type. -/
theorem isRecordOf_iff
    {id : RecordId}
    {v : HostValue} :
    v.isRecordOf id = true ↔
      ∃ values, v = .record id values := by
  cases v with
  | record own values => simp [isRecordOf]
  | _ => simp [isRecordOf]

end HostValue

namespace HostRecord

/- A record as a value. -/
def toValue (r : HostRecord) : HostValue :=
  .record r.id r.values

/- The value of the first field with a name. -/
def get?
    (s : Schema)
    (r : HostRecord)
    (field : String) : Option HostValue :=
  (s.fieldIndex? r.id field).bind (r.values[·]?)

/- The value of the field at a position. -/
def at?
    (r : HostRecord)
    (index : Nat) : Option HostValue :=
  r.values[index]?

/- Overwrite the field at a position. -/
def put?
    (r : HostRecord)
    (index : Nat)
    (v : HostValue) : Option HostRecord :=
  if index < r.values.length then
    some { r with values := r.values.set index v }
  else
    none

end HostRecord

------------------------------------------------------------
-- Zero Values
------------------------------------------------------------

namespace HostType

/-
  The zero value of a type that mentions record types before
  `rank` only. What refers to something starts out nil.
-/
def zeroBelow (s : Schema) : Nat → HostType → HostValue
| _, .bool => .bool false
| _, .int kind => if kind.isUnsigned then .uint 0 else .int 0
| _, .float _ => .float .zero
| _, .complex _ => .complex .zero .zero
| _, .str => .str ""
| _, .seq _ => .seq []
| 0, .record id => .record id []
| rank + 1, .record id =>
    .record id
      ((s.fields id).map fun f => zeroBelow s rank f.type)
| _, .ref _ | _, .map .. | _, .chan _ | _, .interface _ => .nil
| _, .error => .error none

/- The value that a fresh slot of a type holds. -/
def zero
    (s : Schema)
    (t : HostType) : HostValue :=
  t.zeroBelow s s.size

/- The rank does not matter once it is large enough. -/
theorem zeroBelow_eq
    {s : Schema}
    {m n : Nat}
    {t : HostType}
    (hm : t.Below m)
    (hn : t.Below n) :
    t.zeroBelow s m = t.zeroBelow s n := by
  induction m generalizing n t with
  | zero =>
      cases t with
      | record id => exact absurd hm (Nat.not_lt_zero id.index)
      | _ => simp [zeroBelow]
  | succ m ih =>
      cases t with
      | record id =>
          cases n with
          | zero => exact absurd hn (Nat.not_lt_zero id.index)
          | succ n =>
              simp only [zeroBelow, HostValue.record.injEq,
                true_and]
              apply List.map_congr_left
              intro f hMem
              have hField := Schema.below_of_mem_fields hMem
              exact ih
                (hField.mono (Nat.le_of_lt_succ hm))
                (hField.mono (Nat.le_of_lt_succ hn))
      | _ => simp [zeroBelow]

/- The zero value of a record has zero values for fields. -/
theorem zero_record
    (s : Schema)
    (id : RecordId) :
    zero s (.record id) =
      .record id ((s.fields id).map fun f => f.type.zero s) := by
  by_cases hId : id.index < s.size
  · obtain ⟨rank, hRank⟩ :=
      Nat.exists_eq_succ_of_ne_zero
        (Nat.ne_of_gt (Nat.zero_lt_of_lt hId))
    simp only [zero, hRank, zeroBelow, HostValue.record.injEq,
      true_and]
    apply List.map_congr_left
    intro f hMem
    have hField := Schema.below_of_mem_fields hMem
    exact zeroBelow_eq
      (hField.mono (by omega))
      (hField.mono (by omega))
  · have hNone : s.fields id = [] := by
      have hGet : s.records[id.index]? = none :=
        List.getElem?_eq_none (Nat.le_of_not_lt hId)
      simp [Schema.fields, hGet]
    simp only [zero, hNone, List.map_nil]
    cases s.size <;> simp [zeroBelow, hNone]

end HostType

/- A record whose fields hold their zero values. -/
def HostRecord.zeroed
    (s : Schema)
    (id : RecordId) : HostRecord where
  id := id
  values := (s.fields id).map fun f => f.type.zero s

end Interop
