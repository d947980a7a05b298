import Interop.Json.Scan
import Interop.Json.Skip
import Interop.Options

/-
  This file reads options from JSON, and writes them.

  Options are an object, whose members may be in any order,
  or an array of the options in order. What is missing has
  its default; members with other names are skipped; no
  option may be given twice.

  Key definitions include:
    * `Options.ofJson`
    * `Options.jsonText`
-/

namespace Interop

namespace Options

open Json

/- The name of the option that logs arguments. -/
def traceArgumentsName : String :=
  "trace_arguments"

/- The name of the option that limits what is displayed. -/
def displayLimitName : String :=
  "display_limit"

------------------------------------------------------------
-- Arrays
------------------------------------------------------------

/-
  Whether one more element follows in an array; the text is
  left where that element begins, or before the bracket.
-/
def scanMoreElements (isFirst : Bool) : Scan Bool :=
  fun input =>
    match skipBlanks input with
    | [] => .error .truncated
    | b :: rest =>
        if b = byte ']' then
          .ok (false, b :: rest)
        else if isFirst then
          .ok (true, b :: rest)
        else if b = byte ',' then
          match skipBlanks rest with
          | [] => .error .truncated
          | c :: more =>
              if c = byte ']' then
                .error .malformed
              else
                .ok (true, c :: more)
        else
          .error .malformed

/- Scan the options in order, as many as there are. -/
def scanElements : Scan Options :=
  fun input => do
    let (hasTrace, input) ← scanMoreElements true input
    if hasTrace then
      let (traceArguments, input) ← scanBool input
      let (hasLimit, input) ← scanMoreElements false input
      if hasLimit then
        let (displayLimit, input) ← scanSize input
        pure (⟨traceArguments, displayLimit⟩, input)
      else
        pure ({ default with traceArguments }, input)
    else
      pure (default, input)

------------------------------------------------------------
-- Objects
------------------------------------------------------------

/-
  The name of the next member of an object, if there is one;
  the text is left after the name, or before the brace.
-/
def scanMemberName (isFirst : Bool) :
    Scan (Option (List UInt8)) :=
  fun input =>
    match skipBlanks input with
    | [] => .error .truncated
    | b :: rest =>
        if b = byte '\x7d' then
          .ok (none, b :: rest)
        else if isFirst then
          if b = byte '"' then
            (scanString rest).map fun r => (some r.1, r.2)
          else
            .error .malformed
        else if b = byte ',' then
          match expectMark '"' rest with
          | .ok quoted =>
              (scanString quoted).map fun r => (some r.1, r.2)
          | .error p => .error p
        else
          .error .malformed

/- The options found so far in an object. -/
structure Found where
  traceArguments : Option Bool
  displayLimit : Option Nat

namespace Found

/- The options found, the others with their defaults. -/
def options (found : Found) : Options where
  traceArguments :=
    found.traceArguments.getD default.traceArguments
  displayLimit :=
    found.displayLimit.getD default.displayLimit

end Found

/- Scan the value of a member, after its name. -/
def scanMember
    (found : Found)
    (name : List UInt8) : Scan Found :=
  fun input =>
    if name = Text.bytes traceArgumentsName then
      if found.traceArguments.isSome then
        .error .unsuited
      else do
        let input ← expectMark ':' input
        let (b, input) ← scanBool input
        pure ({ found with traceArguments := some b }, input)
    else if name = Text.bytes displayLimitName then
      if found.displayLimit.isSome then
        .error .unsuited
      else do
        let input ← expectMark ':' input
        let (n, input) ← scanSize input
        pure ({ found with displayLimit := some n }, input)
    else do
      let input ← expectMark ':' input
      let input ← skipValue input
      pure (found, input)

/-
  Scan the members of an object. Each takes at least one
  byte of the text.
-/
def scanMembers : Nat → Bool → Found → Scan Found
| 0, _, _ => fun _ => .error .truncated
| fuel + 1, isFirst, found => fun input => do
    let (name, input) ← scanMemberName isFirst input
    match name with
    | none => pure (found, input)
    | some name =>
        let (found, input) ← scanMember found name input
        scanMembers fuel false found input

------------------------------------------------------------
-- Documents
------------------------------------------------------------

/- Scan options in either form. -/
def scan : Scan Options :=
  fun input =>
    match skipBlanks input with
    | [] => .error .truncated
    | b :: rest =>
        if b = byte '[' then do
          let (options, input) ← scanElements rest
          let input ← expectMark ']' input
          pure (options, input)
        else if b = byte '\x7b' then do
          let (found, input) ←
            scanMembers (rest.length + 1) true ⟨none, none⟩ rest
          let input ← expectMark '\x7d' input
          pure (found.options, input)
        else
          .error (refusal (b :: rest))

/- Read options from a JSON text. -/
def ofJson (source : String) : Except Error Options :=
  match scan (Text.bytes source) with
  | .error p => .error (.json p)
  | .ok (options, rest) =>
      match expectEnd rest with
      | .ok _ => .ok options
      | .error p => .error (.json p)

/- The options as an object, in order and without blanks. -/
def jsonText (options : Options) : String :=
  "\x7b\"" ++ traceArgumentsName ++ "\":" ++
    (if options.traceArguments then "true" else "false") ++
    ",\"" ++ displayLimitName ++ "\":" ++
    options.displayLimit.repr ++ "\x7d"

end Options

end Interop
