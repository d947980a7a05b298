/-
  This file defines texts as bytes, and the order of texts
  that compares their bytes. Different texts have different
  bytes, so the order is total.

  Key definitions include:
    * `Text.bytes`
    * `Text.Precedes`
-/

namespace Interop

namespace Text

/- The bytes that encode a text. -/
def bytes (s : String) : List UInt8 :=
  s.toUTF8.data.toList

/- The bytes of one text come before those of another. -/
def Precedes (s t : String) : Prop :=
  bytes s < bytes t

instance
    (s t : String) :
    Decidable (Precedes s t) := by
  unfold Precedes
  infer_instance

/- Texts with the same bytes are the same. -/
theorem bytes_injective
    {s t : String}
    (hBytes : bytes s = bytes t) :
    s = t := by
  apply String.toByteArray_inj.mp
  apply ByteArray.ext
  exact Array.toList_inj.mp hBytes

/- Texts are joined by joining their bytes. -/
theorem bytes_append
    (s t : String) :
    bytes (s ++ t) = bytes s ++ bytes t := by
  simp [bytes]

/- No text precedes itself. -/
theorem not_precedes_self
    (s : String) :
    ¬Precedes s s :=
  List.lt_irrefl (bytes s)

/- The order of texts is transitive. -/
theorem Precedes.trans
    {s t u : String}
    (hFirst : Precedes s t)
    (hSecond : Precedes t u) :
    Precedes s u :=
  List.lt_trans hFirst hSecond

/- Of two different texts one precedes the other. -/
theorem precedes_of_not_precedes
    {s t : String}
    (hNot : ¬Precedes s t)
    (hNe : s ≠ t) :
    Precedes t s := by
  apply Decidable.byContradiction
  intro hNeither
  apply hNe
  apply bytes_injective
  exact List.le_antisymm
    (List.not_lt.mp hNeither)
    (List.not_lt.mp hNot)

end Text

end Interop
