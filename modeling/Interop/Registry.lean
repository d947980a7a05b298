import Interop.Host.State
import Interop.NameMap

/-
  This file defines what a host registers before its code is
  used: the record types, and the methods of each. Methods
  are attached after a type is declared, so that their
  signatures can mention the type.

  Key definitions include:
    * `Registry`
    * `Registry.defineMethod`
    * `Registry.method?`
-/

namespace Interop

/- The record types of a host and their methods. -/
structure Registry where
  schema : Schema
  methods : RecordId → NameMap Method

namespace Registry

/- The record types of a schema, without methods. -/
def ofSchema (s : Schema) : Registry :=
  ⟨s, fun _ => []⟩

/- Attach a method to a record type, or replace it. -/
def defineMethod
    (reg : Registry)
    (id : RecordId)
    (name : String)
    (m : Method) : Registry :=
  { reg with
    methods := fun other =>
      if other = id then
        (reg.methods id).insert name m
      else
        reg.methods other }

/- The method of a record type with a name. -/
def method?
    (reg : Registry)
    (id : RecordId)
    (name : String) : Option Method :=
  (reg.methods id).find? name

/- The names of the methods of a record type, in order. -/
def methodNames
    (reg : Registry)
    (id : RecordId) : List String :=
  (reg.methods id).names

/- A method just attached is found. -/
theorem method?_defineMethod_self
    (reg : Registry)
    (id : RecordId)
    (name : String)
    (m : Method) :
    (reg.defineMethod id name m).method? id name = some m := by
  simp [method?, defineMethod, NameMap.find?_insert_self]

end Registry

end Interop
