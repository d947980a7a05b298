import Interop.Decimal.Layout
import Interop.Text.Quoted
import Interop.Options
import Interop.Value

/-
  This file defines how values are displayed. Sequences and
  arrays show as many elements as the display limit allows,
  and a mark for the rest; references show the object they
  refer to.

  A reference is followed at most as often as there are
  objects, which suffices on every heap in which no object
  refers back to itself.

  Key definitions include:
    * `Render.elided`
    * `HostValue.textWith`
    * `HostValue.text`
    * `Box.text`
    * `Function.text`
    * `Value.text`
-/

namespace Interop

namespace Render

------------------------------------------------------------
-- Parts
------------------------------------------------------------

/-
  Numbers are displayed with all their places and no point
  after whole numbers; a half goes up.
-/
def number : Layout where
  plainFrom := none
  plainBelow := none
  pointZero := false
  plusSign := false
  tie := .up

/-
  A complex number. The sign of the imaginary part joins the
  parts; a negative zero keeps its own sign besides.
-/
def complexText (re im : Binary64) : String :=
  let part (x : Binary64) : String :=
    number.text (if x.isBelowZero then x.abs else x)
  (if re.isBelowZero then "-" else "") ++ part re ++
    (if im.isBelowZero then "-" else "+") ++ part im ++ "i"

/-
  The elements shown of a sequence, with a mark when there
  are more than the limit.
-/
def elided
    (limit : Nat)
    (separator : String)
    (shown : List String)
    (total : Nat) : String :=
  separator.intercalate shown ++
    (if limit < total then separator ++ "…" else "")

end Render

------------------------------------------------------------
-- Host Values
------------------------------------------------------------

namespace HostValue

mutual

/-
  The text of a host value, given the texts of references.
-/
def textWith
    (s : Schema)
    (limit : Nat)
    (refText : Handle → String) : HostValue → String
| .nil => "nil"
| .bool b => if b then "true" else "false"
| .int i => toString i.toInt
| .uint n => Nat.repr n.toNat
| .float x => Render.number.text x
| .complex re im => Render.complexText re im
| .str t => Text.quoted t
| .seq items =>
    "[" ++
      Render.elided limit ", "
        (itemTexts s limit refText limit items)
        items.length ++
      "]"
| .record id values =>
    "\x7b" ++
      ", ".intercalate
        (fieldTexts s limit refText (s.fields id) values) ++
      "\x7d"
| .ref h => refText h
| .error none => "nil"
| .error (some fault) => fault.text

/- The texts of the first elements. -/
def itemTexts
    (s : Schema)
    (limit : Nat)
    (refText : Handle → String) :
    Nat → List HostValue → List String
| 0, _ => []
| _, [] => []
| n + 1, v :: rest =>
    v.textWith s limit refText ::
      itemTexts s limit refText n rest

/- The texts of the fields, each after its name. -/
def fieldTexts
    (s : Schema)
    (limit : Nat)
    (refText : Handle → String) :
    List Field → List HostValue → List String
| f :: fields, v :: values =>
    (f.name ++ ": " ++ v.textWith s limit refText) ::
      fieldTexts s limit refText fields values
| _, _ => []

end

end HostValue

/-
  The text of a reference when references are followed at
  most `depth` times.
-/
def Heap.refText
    (s : Schema)
    (limit : Nat)
    (heap : Heap) : Nat → Handle → String
| 0, _ => "&…"
| depth + 1, h =>
    match heap.read? h with
    | some v => "&" ++ v.textWith s limit (heap.refText s limit depth)
    | none => "&<borrowed>"

/- The text of a host value. -/
def HostValue.text
    (s : Schema)
    (limit : Nat)
    (heap : Heap)
    (v : HostValue) : String :=
  v.textWith s limit (heap.refText s limit (heap.size + 1))

------------------------------------------------------------
-- Values of the Interpreter
------------------------------------------------------------

/- The text of a scalar. -/
def Scalar.text : Scalar → String
| .int i => toString i.toInt
| .float x => Render.number.text x
| .complex re im => Render.complexText re im
| .str t => t

/-
  The text of a box: its type, and what it stands for unless
  that cannot be read.
-/
def Box.text
    (s : Schema)
    (limit : Nat)
    (heap : Heap)
    (b : Box) : String :=
  b.type.text s ++ " " ++
    (match b.read s heap with
    | .ok v => v.text s limit heap
    | .error _ => "<borrowed>")

/-
  The type that a constructor allocates: constructing a
  reference allocates the record it refers to.
-/
def HostType.allocated : HostType → HostType
| .ref id => .record id
| t => t

/- The name of a function. -/
def Function.text (s : Schema) : Function → String
| .callable c => c.name
| .constructor type => "new " ++ type.allocated.text s
| .pairing name => name

namespace Value

/- The shape in front of an array, unless it is a vector. -/
def shapePrefix (shape : List Nat) : String :=
  if shape.length = 1 then
    ""
  else
    " ".intercalate (shape.map Nat.repr) ++ "⍴"

mutual

/- The text of a value. -/
def text
    (s : Schema)
    (limit : Nat)
    (heap : Heap) : Value → String
| .scalar a => a.text
| .array shape values =>
    if values.isEmpty then
      "⍬"
    else
      shapePrefix shape ++
        Render.elided limit " "
          (firstTexts s limit heap limit values)
          values.length
| .list values =>
    "(" ++
      "; ".intercalate
        (firstTexts s limit heap values.length values) ++
      ")"
| .boxed b => b.text s limit heap
| .function _ f => f.text s
| .any _ e => e.display

/- The texts of the first values. -/
def firstTexts
    (s : Schema)
    (limit : Nat)
    (heap : Heap) : Nat → List Value → List String
| 0, _ => []
| _, [] => []
| n + 1, v :: rest =>
    v.text s limit heap :: firstTexts s limit heap n rest

end

end Value

end Interop
