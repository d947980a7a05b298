/-
  This file defines the events that operations log, and how
  an event is written: its level, its message, and its named
  details.

  Key definitions include:
    * `Arrangement`
    * `Event`
    * `Event.message`
    * `Event.details`
-/

namespace Interop

------------------------------------------------------------
-- Arrangements of Operands
------------------------------------------------------------

/-
  How the operands of a call map onto parameters. Without
  parameters nothing is passed on; one parameter takes the
  right operand; two take the right and then the left one;
  otherwise the right operand holds one element for each.
-/
inductive Arrangement where
| nullary : Arrangement
| monadic : Arrangement
| dyadic : Arrangement
| splat : Arrangement
deriving DecidableEq, Repr

namespace Arrangement

/- The arrangement for a count of parameters. -/
def select
    (arity : Nat)
    (hasLeft : Bool) : Arrangement :=
  match arity, hasLeft with
  | 0, _ => .nullary
  | 1, _ => .monadic
  | 2, true => .dyadic
  | _, _ => .splat

/- The name of an arrangement. -/
def text : Arrangement → String
| .nullary => "Nullary"
| .monadic => "Monadic"
| .dyadic => "Dyadic"
| .splat => "Splat"

end Arrangement

------------------------------------------------------------
-- Events
------------------------------------------------------------

/- How much an event matters. -/
inductive Level where
| trace : Level
| debug : Level
| warn : Level
deriving DecidableEq, Repr

/- What operations log. -/
inductive Event where
| marshalling
    (callee : String)
    (arrangement : Arrangement)
    (arity : Nat) : Event
| arguments (callee text : String) : Event
| misfit (typeName kind type : String) : Event
| hostFailed (callee fault : String) : Event
| allocating (type : String) : Event
| registering (package name : String) : Event
| redefined (package name : String) : Event
| optionsIgnored (reason : String) : Event
deriving DecidableEq, Repr

namespace Event

/- The level of an event. -/
def level : Event → Level
| .marshalling .. | .arguments .. | .misfit ..
| .allocating _ => .trace
| .hostFailed .. | .registering .. => .debug
| .redefined .. | .optionsIgnored _ => .warn

/- The message of an event. -/
def message : Event → String
| .marshalling .. => "marshalling host call"
| .arguments _ text => "arguments: " ++ text
| .misfit typeName kind type =>
    typeName ++ " exported a " ++ kind ++
      ", which does not fit " ++ type
| .hostFailed _ fault => "host call failed: " ++ fault
| .allocating type => "allocating zeroed " ++ type
| .registering _ name => "registering " ++ name
| .redefined package name =>
    name ++ " redefined in package " ++ package
| .optionsIgnored reason =>
    "ignoring bridge options from environment: " ++ reason

/- The named details of an event, in order. -/
def details : Event → List (String × String)
| .marshalling callee arrangement arity =>
    [("callee", callee), ("layout", arrangement.text),
      ("arity", arity.repr)]
| .arguments callee _ | .hostFailed callee _ =>
    [("callee", callee)]
| .registering package _ => [("package", package)]
| _ => []

/- The event renders the arguments of a call. -/
def isArguments : Event → Bool
| .arguments .. => true
| _ => false

end Event

end Interop
