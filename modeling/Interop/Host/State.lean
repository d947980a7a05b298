import Interop.Heap

/-
  This file defines what host code can see and change: the
  objects on the heap, the global variables of the host, and
  a count of the faults raised so far, from which the next
  fault gets its identity.

  Host functions are arbitrary functions on that state. They
  see host values only, never values of the interpreter.

  Key definitions include:
    * `Host`
    * `Host.raise`
    * `HostFunction`
    * `HostMethod`
    * `Method`
    * `Exportable`
-/

namespace Interop

/- The state of the host. -/
structure Host where
  heap : Heap
  globals : List (String × HostValue)
  faults : Nat

namespace Host

/- A host that has run nothing yet. -/
def initial : Host :=
  ⟨.empty, [], 0⟩

/- The value of a global variable. -/
def global?
    (host : Host)
    (name : String) : Option HostValue :=
  host.globals.lookup name

/- The host without a global variable. -/
def unsetGlobal
    (host : Host)
    (name : String) : Host :=
  { host with globals := host.globals.filter (·.1 != name) }

/- Assign a global variable. -/
def setGlobal
    (host : Host)
    (name : String)
    (v : HostValue) : Host :=
  let rest := host.unsetGlobal name
  { rest with globals := (name, v) :: rest.globals }

/- A fault that differs from all faults raised before. -/
def raise
    (host : Host)
    (report : Report) : Fault × Host :=
  (⟨host.faults, report⟩, { host with faults := host.faults + 1 })

/- Add an object to the heap. -/
def alloc
    (host : Host)
    (v : HostValue) : Handle × Host :=
  let (h, heap) := host.heap.alloc v
  (h, { host with heap })

end Host

/-
  A host function takes positional arguments and hands back
  its results, followed by the error slot if it may fail.
-/
abbrev HostFunction :=
  List HostValue → Host → List HostValue × Host

/- A method is given the handle of its receiver first. -/
abbrev HostMethod :=
  Handle → HostFunction

/- A callable member of a record type. -/
structure Method where
  sig : Signature
  body : HostMethod

/-
  A value of the application domain that knows how to
  present itself to the host. It may have no host form, and
  finding it may run host code.
-/
structure Exportable where
  typeName : String
  display : String
  produce : Host → Option HostValue × Host

end Interop
