import Interop.Call

/-
  This file defines packages: the functions, constructors
  and constants that a host offers under one name. An entry
  is known to users as `package.name`; registering a name
  again replaces its entry.

  Key definitions include:
    * `Package`
    * `Package.register`
    * `Package.function`
    * `Package.constructor`
    * `Package.constant`
    * `Package.qualified`
-/

namespace Interop

/- The entries of a host package, by name. -/
structure Package where
  name : String
  entries : NameMap Value

namespace Package

/- A package without entries. -/
def named (name : String) : Package :=
  ⟨name, []⟩

/- The name under which users know an entry. -/
def qualify
    (p : Package)
    (name : String) : String :=
  p.name ++ "." ++ name

/- The entry with a name. -/
def get?
    (p : Package)
    (name : String) : Option Value :=
  p.entries.find? name

/- The count of entries. -/
def size (p : Package) : Nat :=
  p.entries.length

/- The entries under their qualified names, in order. -/
def qualified (p : Package) : List (String × Value) :=
  p.entries.map fun entry => (p.qualify entry.1, entry.2)

/-
  Set an entry. Each registration is logged; one that
  replaces an entry is logged with a warning besides.
-/
def register
    (p : Package)
    (name : String)
    (v : Value) : Action Package := do
  Action.emit (.registering p.name name)
  if (p.get? name).isSome then
    Action.emit (.redefined p.name name)
  pure { p with entries := p.entries.insert name v }

/- Register a host function. -/
def function
    (p : Package)
    (name : String)
    (sig : Signature)
    (body : HostFunction) : Action Package := do
  let identity ← Action.fresh
  let c : Callable := ⟨p.qualify name, sig, .free body⟩
  p.register name (.function identity (.callable c))

/- Register the constructor of a type. -/
def constructor
    (p : Package)
    (name : String)
    (t : HostType) : Action Package := do
  let identity ← Action.fresh
  p.register name (.function identity (.constructor t))

/- Register a host value, converted once and for all. -/
def constant
    (s : Schema)
    (p : Package)
    (name : String)
    (v : HostValue)
    (t : HostType) : Action Package := do
  let converted ← Action.onHeap (t.importAs s v)
  p.register name converted

end Package

end Interop
