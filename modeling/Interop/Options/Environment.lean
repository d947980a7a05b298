import Interop.Event
import Interop.Options.Reading
import Interop.Text.Blank
import Interop.Text.Quoted
import Interop.Text.Unsigned

/-
  This file reads options from environment variables. One
  variable holds options as JSON; two more override single
  options. When a variable cannot be read, the defaults are
  taken and a warning is logged.

  Key definitions include:
    * `Environment`
    * `Options.ofEnvironment`
    * `Options.orDefault`
-/

namespace Interop

/- The values of environment variables, if they are set. -/
abbrev Environment :=
  String → Option String

namespace Environment

/- Options as JSON. -/
def optionsName : String :=
  "FERROBRIDGE_OPTIONS"

/- Whether arguments are logged. -/
def traceArgumentsName : String :=
  "FERROBRIDGE_TRACE_ARGS"

/- How many elements are displayed. -/
def displayLimitName : String :=
  "FERROBRIDGE_DISPLAY_LIMIT"

/- A switch is on unless it is blank, zero or false. -/
def isOn (value : String) : Bool :=
  let switchedOff := ["", "0", "false", "FALSE", "False"]
  !switchedOff.contains (Text.trim value)

end Environment

namespace Options

/- The options that a JSON variable holds, if not blank. -/
def ofVariable : Option String → Except Error Options
| none => .ok default
| some source =>
    if (Text.trim source).isEmpty then
      .ok default
    else
      ofJson source

/- The display limit that a variable sets, if it is set. -/
def limitOfVariable :
    Option String → Except Error (Option Nat)
| none => .ok none
| some value =>
    match Text.readUnsigned (Text.trim value) with
    | some limit => .ok (some limit)
    | none =>
        .error
          (.notAnInteger Environment.displayLimitName
            (Text.quoted value))

/-
  The options that an environment sets: single variables
  before JSON, JSON before the defaults.
-/
def ofEnvironment
    (env : Environment) : Except Error Options := do
  let base ← ofVariable (env Environment.optionsName)
  let limit ←
    limitOfVariable (env Environment.displayLimitName)
  let trace :=
    (env Environment.traceArgumentsName).map Environment.isOn
  pure
    { traceArguments := trace.getD base.traceArguments
      displayLimit := limit.getD base.displayLimit }

/-
  The options to work with, and what is logged when they are
  only the defaults because the environment is unusable.
-/
def orDefault (env : Environment) : Options × List Event :=
  match ofEnvironment env with
  | .ok options => (options, [])
  | .error e => (default, [.optionsIgnored e.message])

end Options

end Interop
