import Interop.Host.Kind
import Interop.Json.Document
import Interop.Json.Scan

/-
  This file reads and writes the kinds of numbers as JSON. A
  kind is a string with its name in capitals, or an object
  whose one member has that name and holds nothing.

  Key definitions include:
    * `Json.scanChoice`
    * `IntKind.ofJson`
    * `FloatKind.ofJson`
-/

namespace Interop

namespace Json

/- The choice that a name stands for. -/
def chosen
    {α : Type}
    (choices : List (String × α))
    (name : List UInt8) : Except Problem α :=
  match choices.find? (Text.bytes ·.1 == name) with
  | some (_, a) => .ok a
  | none => .error .unsuited

/- Scan one of several named choices. -/
def scanChoice
    {α : Type}
    (choices : List (String × α)) : Scan α :=
  fun input =>
    match skipBlanks input with
    | [] => .error .truncated
    | b :: rest =>
        if b = byte '"' then do
          let (name, input) ← scanString rest
          let a ← chosen choices name
          pure (a, input)
        else if b = byte '\x7b' then do
          let input ← expectMark '"' rest
          let (name, input) ← scanString input
          let a ← chosen choices name
          let input ← expectMark ':' input
          let (_, input) ← scanNull input
          let input ← expectMark '\x7d' input
          pure (a, input)
        else
          .error .malformed

/- Read one of several named choices. -/
def readChoice
    {α : Type}
    (choices : List (String × α))
    (source : String) : Except Error α :=
  match scanChoice choices (Text.bytes source) with
  | .error p => .error (.json p)
  | .ok (a, rest) =>
      match expectEnd rest with
      | .ok _ => .ok a
      | .error p => .error (.json p)

end Json

namespace IntKind

/- The name of a kind in JSON. -/
def jsonName (k : IntKind) : String :=
  k.text.toUpper

/- Read a kind from a JSON text. -/
def ofJson (source : String) : Except Error IntKind :=
  Json.readChoice (all.map fun k => (k.jsonName, k)) source

/- A kind as a JSON text. -/
def jsonText (k : IntKind) : String :=
  Json.stringText k.jsonName

end IntKind

namespace FloatKind

/- The name of a kind in JSON. -/
def jsonName (k : FloatKind) : String :=
  k.text.toUpper

/- Read a kind from a JSON text. -/
def ofJson (source : String) : Except Error FloatKind :=
  Json.readChoice (all.map fun k => (k.jsonName, k)) source

/- A kind as a JSON text. -/
def jsonText (k : FloatKind) : String :=
  Json.stringText k.jsonName

end FloatKind

end Interop
