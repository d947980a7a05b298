import Interop.Convert.Export
import Interop.Convert.Import
import Interop.Render

/-
  This file calls functions: operands are arranged into a
  row and exported as positional arguments, the host code
  runs, and its results are imported.

  A method runs on the object its receiver stands for. A
  receiver inside another object has no handle of its own;
  the method then runs on a copy, which is stored back if it
  still fits the receiver's type.

  Key definitions include:
    * `Callable.operandRow`
    * `Callable.marshal`
    * `Callable.runTarget`
    * `Callable.unmarshal`
    * `Callable.invoke`
    * `HostType.construct`
    * `Function.apply`
-/

namespace Interop

------------------------------------------------------------
-- Arguments
------------------------------------------------------------

namespace Callable

/- A row with one operand for each parameter. -/
def counted
    (arity : Nat)
    (row : List Value) : Except Error (List Value) :=
  if row.length = arity then
    .ok row
  else
    .error (.count arity row.length)

/-
  The operands in the order of the parameters they are for.
  An operand that is no array counts as one element.
-/
def operandRow
    (arity : Nat)
    (left : Option Value)
    (right : Value) : Except Error (List Value) :=
  match Arrangement.select arity left.isSome, left with
  | .nullary, _ => .ok []
  | .monadic, _ => .ok [right]
  | .dyadic, some l => .ok [right, l]
  | _, _ =>
      match right with
      | .array shape values =>
          if 1 < shape.length then
            .error (.rankTooHigh shape.length)
          else
            counted arity values
      | v => counted arity [v]

/-
  Export operands into the parameters they stand for. A
  failure names the parameter, counted from one.
-/
def exportRow
    (s : Schema)
    (params : List HostType)
    (row : List Value) : Action (List HostValue) :=
  each
    (fun i (p : HostType × Value) =>
      Action.mapError (.argument (i + 1))
        (p.1.exportAs s p.2))
    (params.zip row)

/- Export the operands of a call into arguments. -/
def marshal
    (s : Schema)
    (options : Options)
    (c : Callable)
    (left : Option Value)
    (right : Value) : Action (List HostValue) := do
  let arity := c.sig.arity
  Action.emit
    (.marshalling c.name
      (Arrangement.select arity left.isSome) arity)
  let row ← Action.ofExcept (operandRow arity left right)
  let args ← exportRow s c.sig.params row
  if options.traceArguments then
    let texts ← Action.fromHeap fun heap =>
      .ok (args.map (·.text s options.displayLimit heap))
    Action.emit (.arguments c.name (", ".intercalate texts))
  pure args

------------------------------------------------------------
-- Running Host Code
------------------------------------------------------------

/-
  Run a method on a copy of the record that the receiver
  stands for, then store the copy back.
-/
def runOnCopy
    (s : Schema)
    (body : HostMethod)
    (receiver : Box)
    (args : List HostValue) : Action (List HostValue) := do
  let content ← Action.fromHeap (receiver.read s ·)
  let scratch ← Action.onHost (·.alloc content)
  let outputs ← Action.onHost (body scratch args)
  let updated ← Action.fromHeap fun heap =>
    match heap.read? scratch with
    | none => .error (.borrowed (receiver.type.text s))
    | some v =>
        if receiver.type.admits heap v then
          .ok v
        else
          .error
            (.conversion ("host " ++ v.kindName)
              (receiver.type.text s))
  Action.changeHeap (receiver.write s · updated)
  pure outputs

/- Run the host code of a callable. -/
def runTarget
    (s : Schema)
    (target : Target)
    (args : List HostValue) : Action (List HostValue) :=
  match target with
  | .free body => Action.onHost (body args)
  | .bound body receiver =>
      if receiver.isProjection then
        runOnCopy s body receiver args
      else
        Action.onHost (body receiver.handle args)

------------------------------------------------------------
-- Results
------------------------------------------------------------

/-
  What the error slot says: the outputs before it count, or
  the call has failed.
-/
def settle
    (c : Callable)
    (outputs : List HostValue) : Action (List HostValue) :=
  if c.sig.fallible then
    match outputs.getLast? with
    | some (.error none) => pure outputs.dropLast
    | some (.error (some fault)) => do
        Action.emit (.hostFailed c.name fault.text)
        Action.fail (.host fault)
    | some other =>
        Action.fail
          (.conversion ("host " ++ other.kindName) "error")
    | none =>
        Action.fail (.returnMismatch c.name c.sig.outputSlots 0)
  else
    pure outputs

/- Convert outputs by the types they are declared with. -/
def importOutputs
    (s : Schema)
    (returns : List HostType)
    (outputs : List HostValue) : HostType.Import (List Value) :=
  each
    (fun _ (p : HostType × HostValue) => p.1.importAs s p.2)
    (returns.zip outputs)

/-
  The results as one value: nothing is the empty value, one
  result is itself, several are a list.
-/
def gather : List Value → Value
| [] => .empty
| [v] => v
| vs => .list vs

/- Turn what host code handed back into one value. -/
def unmarshal
    (s : Schema)
    (c : Callable)
    (outputs : List HostValue) : Action Value :=
  if outputs.length = c.sig.outputSlots then do
    let results ← c.settle outputs
    let values ←
      Action.onHeap (importOutputs s c.sig.returns results)
    pure (gather values)
  else
    Action.fail
      (.returnMismatch c.name c.sig.outputSlots outputs.length)

/- Run the host code on arguments and import its results. -/
def invoke
    (s : Schema)
    (c : Callable)
    (args : List HostValue) : Action Value := do
  let outputs ← runTarget s c.target args
  c.unmarshal s outputs

/- Call a host function on operands. -/
def call
    (s : Schema)
    (options : Options)
    (c : Callable)
    (left : Option Value)
    (right : Value) : Action Value := do
  let args ← c.marshal s options left right
  c.invoke s args

end Callable

------------------------------------------------------------
-- Constructors
------------------------------------------------------------

/- Allocate the zero value of a type and box it. -/
def HostType.construct
    (s : Schema)
    (t : HostType) : Action Box :=
  if t.isConstructible then do
    let target := t.allocated
    Action.emit (.allocating (target.text s))
    let h ← Action.onHost (·.alloc (target.zero s))
    pure (.whole h target)
  else
    Action.fail (.notConstructible (t.text s))

------------------------------------------------------------
-- Functions
------------------------------------------------------------

/- Apply a function to its operands. -/
def Function.apply
    (s : Schema)
    (options : Options)
    (f : Function)
    (left : Option Value)
    (right : Value) : Action Value :=
  match f with
  | .callable c => c.call s options left right
  | .constructor t => .boxed <$> t.construct s
  | .pairing _ => pure (.list [left.getD .empty, right])

end Interop
