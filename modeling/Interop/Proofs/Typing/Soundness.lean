import Interop.Proofs.Freed
import Interop.Proofs.Plane
import Interop.Proofs.Typing.State

/-
  Sound heaps, whoever has the objects. Every record that is
  stored anywhere fits; what a reference slot may hold is
  asked of the objects as they are when all are given back,
  so that loans make no difference. Nothing is said of boxes:
  a box may be tagged with any type, and lead anywhere.

  Main declarations:
    * `Heap.IsSound`
    * `Heap.Retains`
    * `Heap.Retains.admits`
    * `Heap.Retains.recordsFit`
    * `Heap.IsSound.alloc`
    * `Heap.IsSound.putAt`
-/

namespace Interop

variable {s : Schema} {before after heap : Heap}
variable {h : Handle} {v new : HostValue}

------------------------------------------------------------
-- Definitions
------------------------------------------------------------

/- All records that are stored fit, loans aside. -/
def Heap.IsSound
    (s : Schema)
    (heap : Heap) : Prop :=
  ∀ h, (heap.content h).RecordsFit s heap.freed

/-
  Objects that hold records of a type go on to hold such
  records, and objects that may be read still may be.
-/
structure Heap.Retains (before after : Heap) : Prop where
  readable : ∀ h, before.isReadable h = true →
    after.isReadable h = true
  records : ∀ h id,
    (before.content h).isRecordOf id = true →
      (after.content h).isRecordOf id = true

namespace Heap

------------------------------------------------------------
-- Conformance in Later Heaps
------------------------------------------------------------

namespace Retains

theorem refl (heap : Heap) : Retains heap heap :=
  ⟨fun _ hReadable => hReadable, fun _ _ hRecord => hRecord⟩

theorem trans
    {mid : Heap}
    (hFirst : Retains before mid)
    (hSecond : Retains mid after) :
    Retains before after where
  readable h hReadable :=
    hSecond.readable h (hFirst.readable h hReadable)
  records h id hRecord :=
    hSecond.records h id (hFirst.records h id hRecord)

/- What conforms goes on to. -/
theorem admits
    {t : HostType}
    (hRetains : Retains before after)
    (hAdmits : t.admits before v = true) :
    t.admits after v = true := by
  refine HostType.admits_of_refs ?_ hAdmits
  intro h id hReadable hRecord
  exact ⟨hRetains.readable h hReadable,
    hRetains.records h id hRecord⟩

/- So it does, loans aside. -/
theorem freed
    (hRetains : Retains before after) :
    Retains before.freed after.freed where
  readable h hReadable := isReadable_freed after h
  records h id hRecord := by
    rw [content_freed] at hRecord ⊢
    exact hRetains.records h id hRecord

/- What conforms does so with everything given back. -/
theorem to_freed (heap : Heap) : Retains heap heap.freed where
  readable h hReadable := isReadable_freed heap h
  records h id hRecord := by
    rw [content_freed]
    exact hRecord

/- Records that fit go on to fit. -/
theorem recordsFit
    (hRetains : Retains before after)
    (hFit : v.RecordsFit s before) :
    v.RecordsFit s after := by
  intro id values hWithin
  apply List.Forall₂.imp _ (hFit id values hWithin)
  intro f u hAdmits
  exact hRetains.admits hAdmits

/- What conforms at every depth goes on to. -/
theorem admitsDeeply
    {t : HostType}
    (hRetains : Retains before after)
    (hDeep : t.AdmitsDeeply s before v) :
    t.AdmitsDeeply s after v :=
  ⟨hRetains.admits hDeep.shallow, hRetains.recordsFit hDeep.records⟩

/- Adding an object changes no other object. -/
theorem alloc
    (heap : Heap)
    (v : HostValue) :
    Retains heap (heap.alloc v).2 where
  readable h hReadable := by
    rw [isReadable, loan_alloc]
    exact hReadable
  records h id hRecord := by
    rw [content_alloc_of_lt (lt_size_of_isRecordOf hRecord)]
    exact hRecord

/- Objects may be changed if whole objects keep their types. -/
theorem of_isRecordOf_eq
    (hReadable : ∀ h, before.isReadable h = true →
      after.isReadable h = true)
    (hSame : ∀ h id, (after.content h).isRecordOf id =
      (before.content h).isRecordOf id) :
    Retains before after where
  readable := hReadable
  records h id hRecord := by
    rw [hSame]
    exact hRecord

end Retains

/- Changing a field keeps the types of whole objects. -/
theorem isRecordOf_putAt
    {path : List Nat}
    (hPath : path ≠ [])
    (hIn : h.index < heap.size)
    (k : Handle)
    (id : RecordId) :
    ((heap.putAt h path new).content k).isRecordOf id =
      (heap.content k).isRecordOf id := by
  by_cases hEq : k = h
  · subst hEq
    rw [content_putAt_self hIn,
      HostValue.isRecordOf_replaceAt hPath]
  · rw [content, cell_putAt_of_ne hEq, ← content]

------------------------------------------------------------
-- Changes of Sound Heaps
------------------------------------------------------------

/- With everything given back, a sound heap is well typed. -/
theorem IsSound.wellTyped
    (hSound : heap.IsSound s) :
    heap.freed.WellTyped s fun _ => False where
  idle := isIdle_freed heap
  fits h := by
    rw [content_freed]
    exact hSound h
  boxes b hHeld := hHeld.elim

/- A heap is sound if it is when everything is given back. -/
theorem isSound_of_freed
    (hFits : ∀ h, (heap.freed.content h).RecordsFit s heap.freed) :
    heap.IsSound s := by
  intro h
  rw [← content_freed]
  exact hFits h

/- Without objects there is nothing to fit. -/
theorem isSound_empty
    (s : Schema) :
    Heap.empty.IsSound s := by
  intro h
  exact HostValue.recordsFit_of_no_parts
    (by simp [content, cell, empty, Cell.free])
    (by simp [content, cell, empty, Cell.free])

namespace IsSound

/- An object may be added whose records fit. -/
theorem alloc
    (hSound : heap.IsSound s)
    (hFit : v.RecordsFit s heap.freed) :
    (heap.alloc v).2.IsSound s := by
  apply isSound_of_freed
  rw [alloc_freed]
  exact (hSound.wellTyped.evolves_alloc hFit).fits

/-
  A record may be replaced by one of its type that fits, at
  any depth.
-/
theorem putAt
    {path : List Nat}
    {old : HostValue}
    {id : RecordId}
    (hSound : heap.IsSound s)
    (hAt : (heap.content h).at? path = some old)
    (hOld : old.isRecordOf id = true)
    (hNew : new.isRecordOf id = true)
    (hFit : new.RecordsFit s heap.freed) :
    (heap.putAt h path new).IsSound s := by
  rcases HostValue.isRecordOf_of_at? hAt hOld with ⟨root, hRoot⟩
  rcases (hSound h).replaceAt hAt hOld hNew hFit with
    ⟨hRootFit, hKind⟩
  have hRootNew :
      (HostValue.replaceAt path new (heap.content h)).isRecordOf
        root = true := by
    rw [hKind]
    exact hRoot
  have hRootOld : (heap.freed.content h).isRecordOf root = true := by
    rw [content_freed]
    exact hRoot
  apply isSound_of_freed
  rw [Heap.putAt, store_freed]
  exact (hSound.wellTyped.evolves_store hRootOld hRootNew
    hRootFit).fits

end IsSound

end Heap

------------------------------------------------------------
-- Points and Segments
------------------------------------------------------------

/- Points fit, whatever their coordinates. -/
theorem HostValue.recordsFit_point
    (x y : Int64) :
    (HostValue.point x y).RecordsFit .plane heap := by
  have hCoordinate : ∀ i : Int64,
      (HostType.int .i64).admits heap (.int i) = true := by
    intro i
    have hLow := Int64.le_toInt i
    have hHigh := Int64.toInt_lt i
    simp only [HostType.admits, IntKind.isUnsigned, Bool.not_false,
      Bool.true_and, IntKind.contains_iff, IntKind.lowest,
      IntKind.highest]
    omega
  apply recordsFit_record_iff.mpr
  refine ⟨.cons (hCoordinate x) (.cons (hCoordinate y) .nil), ?_⟩
  intro v hMem
  simp only [List.mem_cons, List.not_mem_nil, or_false] at hMem
  rcases hMem with rfl | rfl <;>
    exact recordsFit_of_no_parts (by simp) (by simp)

/- Segments between points fit. -/
theorem HostValue.recordsFit_segment
    (a b c d : Int64) :
    (HostValue.record ⟨1⟩ [.point a b, .point c d]).RecordsFit
      .plane heap := by
  apply recordsFit_record_iff.mpr
  refine ⟨.cons rfl (.cons rfl .nil), ?_⟩
  intro v hMem
  simp only [List.mem_cons, List.not_mem_nil, or_false] at hMem
  rcases hMem with rfl | rfl <;> exact recordsFit_point _ _

/- The heap with one segment is sound. -/
theorem World.isSound_withSegment :
    World.withSegment.heap.IsSound .plane :=
  (Heap.isSound_empty .plane).alloc
    (HostValue.recordsFit_segment 1 2 3 4)

end Interop
