import Interop.Host.Kind

/-
  This file defines the types of host values, the record
  types that a host declares, and the signatures of host
  functions.

  A record type is known by its position in the schema, so
  two declarations with equal names and fields are still
  different types. The field types of a declaration mention
  earlier declarations only, which the schema records.

  Key definitions include:
    * `HostType`
    * `HostType.Below`
    * `RecordDecl`
    * `Schema`
    * `Schema.declare`
    * `HostType.text`
    * `Signature`
-/

namespace Interop

------------------------------------------------------------
-- Host Types
------------------------------------------------------------

/- A record type, by its position in the schema. -/
structure RecordId where
  index : Nat
deriving DecidableEq, Repr

/-
  The types of host values. `record` holds a record by
  value, `ref` refers to one. `interface` has no values of
  its own. `error` is the slot that follows the results of a
  function that may fail.
-/
inductive HostType where
| bool : HostType
| int (kind : IntKind) : HostType
| float (kind : FloatKind) : HostType
| complex (kind : FloatKind) : HostType
| str : HostType
| seq (elem : HostType) : HostType
| record (id : RecordId) : HostType
| ref (id : RecordId) : HostType
| map (key value : HostType) : HostType
| chan (elem : HostType) : HostType
| interface (name : String) : HostType
| error : HostType
deriving DecidableEq, Repr

namespace HostType

/- The record type that a type holds or refers to. -/
def record? : HostType → Option RecordId
| .record id | .ref id => some id
| _ => none

/- Maps, channels, interfaces and errors do not convert. -/
def isUnsupported : HostType → Bool
| .map .. | .chan _ | .interface _ | .error => true
| _ => false

/- Only values of these types can be allocated. -/
def isConstructible (t : HostType) : Bool :=
  !t.isUnsupported

/- Every record type mentioned comes before `n`. -/
def Below (n : Nat) : HostType → Prop
| .seq elem | .chan elem => elem.Below n
| .map key value => key.Below n ∧ value.Below n
| .record id | .ref id => id.index < n
| _ => True

instance decidableBelow
    (n : Nat) :
    (t : HostType) → Decidable (t.Below n)
| .bool | .int _ | .float _ | .complex _ | .str
| .interface _ | .error => isTrue trivial
| .record id | .ref id => inferInstanceAs (Decidable (id.index < n))
| .seq elem | .chan elem => decidableBelow n elem
| .map key value =>
    @instDecidableAnd _ _
      (decidableBelow n key) (decidableBelow n value)

/- A larger bound admits the same types. -/
theorem Below.mono
    {m n : Nat}
    {t : HostType}
    (hBelow : t.Below m)
    (hLe : m ≤ n) :
    t.Below n := by
  induction t with
  | seq elem ih | chan elem ih => exact ih hBelow
  | map key value ihKey ihValue =>
      exact ⟨ihKey hBelow.1, ihValue hBelow.2⟩
  | record id | ref id => exact Nat.lt_of_lt_of_le hBelow hLe
  | _ => trivial

end HostType

------------------------------------------------------------
-- Record Types
------------------------------------------------------------

/- A named field of a record type. -/
structure Field where
  name : String
  type : HostType
deriving DecidableEq, Repr

/- The declaration of a record type, fields in order. -/
structure RecordDecl where
  name : String
  fields : List Field
deriving DecidableEq, Repr

/-
  The record types of a host in the order of declaration.
  Field types mention earlier record types only.
-/
structure Schema where
  records : List RecordDecl
  fields_below : ∀ (id : RecordId) (decl : RecordDecl),
    records[id.index]? = some decl →
      ∀ f ∈ decl.fields, f.type.Below id.index

namespace Schema

/- No record types at all. -/
def empty : Schema where
  records := []
  fields_below := by simp

/- The next declaration's position. -/
def size (s : Schema) : Nat :=
  s.records.length

/- Declare one more record type. -/
def declare
    (s : Schema)
    (decl : RecordDecl)
    (hBelow : ∀ f ∈ decl.fields, f.type.Below s.size) :
    Schema where
  records := s.records ++ [decl]
  fields_below := by
    intro id d hGet f hMem
    by_cases hOld : id.index < s.records.length
    · rw [List.getElem?_append_left hOld] at hGet
      exact s.fields_below id d hGet f hMem
    · rw [List.getElem?_append_right (Nat.le_of_not_lt hOld)]
        at hGet
      have hLast : id.index - s.records.length = 0 := by
        cases hDiff : id.index - s.records.length with
        | zero => rfl
        | succ k => simp [hDiff] at hGet
      simp only [hLast, List.getElem?_cons_zero,
        Option.some.injEq] at hGet
      subst hGet
      have hEq : id.index = s.size := by
        simp only [size]
        omega
      rw [hEq]
      exact hBelow f hMem

/-
  Declare one more record type, if its fields mention
  earlier types only.
-/
def declare?
    (s : Schema)
    (decl : RecordDecl) : Option Schema :=
  if hBelow : ∀ f ∈ decl.fields, f.type.Below s.size then
    some (s.declare decl hBelow)
  else
    none

/- The fields of a record type; none if undeclared. -/
def fields
    (s : Schema)
    (id : RecordId) : List Field :=
  match s.records[id.index]? with
  | some decl => decl.fields
  | none => []

/- The name of a record type; empty if undeclared. -/
def name
    (s : Schema)
    (id : RecordId) : String :=
  match s.records[id.index]? with
  | some decl => decl.name
  | none => ""

/- The position of the first field with a name. -/
def fieldIndex?
    (s : Schema)
    (id : RecordId)
    (field : String) : Option Nat :=
  (s.fields id).findIdx? (·.name == field)

/- Fields mention earlier record types only. -/
theorem below_of_mem_fields
    {s : Schema}
    {id : RecordId}
    {f : Field}
    (hMem : f ∈ s.fields id) :
    f.type.Below id.index := by
  unfold fields at hMem
  split at hMem
  · rename_i decl hGet
    exact s.fields_below id decl hGet f hMem
  · simp at hMem

end Schema

------------------------------------------------------------
-- Texts of Types
------------------------------------------------------------

/- The name of a type, as users see it. -/
def HostType.text (s : Schema) : HostType → String
| .bool => "bool"
| .int kind => kind.text
| .float kind => kind.text
| .complex kind => "Complex<" ++ kind.text ++ ">"
| .str => "String"
| .seq elem => "Vec<" ++ elem.text s ++ ">"
| .record id => s.name id
| .ref id => "&" ++ s.name id
| .map key value =>
    "HashMap<" ++ key.text s ++ ", " ++ value.text s ++ ">"
| .chan elem => "Receiver<" ++ elem.text s ++ ">"
| .interface name => "dyn " ++ name
| .error => "error"

------------------------------------------------------------
-- Signatures
------------------------------------------------------------

/-
  How a host function is called: the types of its parameters
  and results, and whether an error slot follows the
  results.
-/
structure Signature where
  params : List HostType
  returns : List HostType
  fallible : Bool
deriving DecidableEq, Repr

namespace Signature

/- The count of parameters. -/
def arity (sig : Signature) : Nat :=
  sig.params.length

/- The count of values handed back, error slot included. -/
def outputSlots (sig : Signature) : Nat :=
  sig.returns.length + (if sig.fallible then 1 else 0)

/- A signature as users see it. -/
def text
    (s : Schema)
    (sig : Signature) : String :=
  let params := sig.params.map (·.text s)
  let returns :=
    sig.returns.map (·.text s) ++
      (if sig.fallible then ["error"] else [])
  "fn(" ++ ", ".intercalate params ++ ")" ++
    (match returns with
    | [] => ""
    | [t] => " -> " ++ t
    | _ => " -> (" ++ ", ".intercalate returns ++ ")")

end Signature

end Interop
