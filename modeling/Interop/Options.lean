/-
  This file defines the options of the bridge. They change
  what is rendered into events and displayed texts, never
  what an operation does.

  Key definitions include:
    * `Options`
-/

namespace Interop

/-
  Whether calls log their arguments, and how many elements
  of a sequence or an array are displayed.
-/
structure Options where
  traceArguments : Bool
  displayLimit : Nat
deriving DecidableEq, Repr

namespace Options

/- The options when nothing is configured. -/
def default : Options where
  traceArguments := false
  displayLimit := 16

instance : Inhabited Options := ⟨default⟩

end Options

end Interop
