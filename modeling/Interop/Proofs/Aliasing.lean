import Interop.Member
import Interop.Proofs.Convert.Export
import Interop.Proofs.Place
import Interop.Proofs.Plane

/-
  What boxes see of a field that is set. A set changes one
  slot of one object; all boxes that lead to that slot, from
  above or from below, see the new value there, and no other
  box sees a change.

  Main declarations:
    * `Box.set_eq_ok`
    * `Heap.SlotChange`
    * `Heap.slotChange_putAt`
    * `Box.set_changes_one_slot`
-/

namespace Interop

------------------------------------------------------------
-- A Changed Slot
------------------------------------------------------------

/-
  Two heaps differ in one slot that was there before: the
  one at the end of a path inside an object, which now holds
  `new`. The last three fields say what boxes see of that.
-/
structure Heap.SlotChange
    (s : Schema)
    (before after : Heap)
    (h : Handle)
    (path : List Nat)
    (new : HostValue) : Prop where
  slot : ((before.content h).at? path).isSome = true
  content :
    after.content h = .replaceAt path new (before.content h)
  size : after.size = before.size
  loans : ∀ k, after.loan k = before.loan k
  elsewhere : ∀ k, k ≠ h → after.cell k = before.cell k
  apart : ∀ c : Box,
    c.handle ≠ h ∨ Part path c.path →
      c.read s after = c.read s before
  above : ∀ (c : Box) (rest : List Nat),
    c.handle = h → path = c.path ++ rest →
      c.read s after =
        (c.read s before).map (HostValue.replaceAt rest new)
  below : ∀ (c : Box) (rest : List Nat),
    c.handle = h → c.path = path ++ rest →
      c.read s after = c.outcome s (new.at? rest)

/- Putting a value into an existing slot changes that slot. -/
theorem Heap.slotChange_putAt
    {s : Schema}
    {heap : Heap}
    {h : Handle}
    {path : List Nat}
    {old new : HostValue}
    (hIn : h.index < heap.size)
    (hReadable : heap.isReadable h = true)
    (hAt : (heap.content h).at? path = some old) :
    heap.SlotChange s (heap.putAt h path new) h path new where
  slot := by simp [hAt]
  content := content_putAt_self hIn
  size := size_putAt heap h path new
  loans k := loan_putAt heap h k path new
  elsewhere k hNe := cell_putAt_of_ne hNe
  apart c hApart := Box.read_putAt_of_part hApart hIn
  above c rest hHandle hPath := by
    subst hHandle hPath
    exact Box.read_putAt_above hIn
  below c rest hHandle hPath := by
    subst hHandle
    exact Box.read_putAt_below hPath hIn hReadable hAt

/-
  A place that could be read before objects were added is one
  slot of the heap with them.
-/
theorem Heap.slotChange_of_isPrefix
    {s : Schema}
    {before later : Heap}
    {b : Box}
    {old : HostValue}
    (hPrefix : before.cells <+: later.cells)
    (hLive : b.handle.index < before.size)
    (hRead : b.read s before = .ok old)
    (new : HostValue) :
    later.SlotChange s (later.putAt b.handle b.path new)
      b.handle b.path new := by
  rcases Box.read_eq_ok_iff.mp hRead with ⟨hReadable, hAt⟩
  have hLiveLater : b.handle.index < later.size :=
    Nat.lt_of_lt_of_le hLive hPrefix.length_le
  have hReadableLater : later.isReadable b.handle = true := by
    rw [isReadable, loan_of_isPrefix hPrefix hLive]
    exact hReadable
  rw [← content_of_isPrefix hPrefix hLive] at hAt
  exact slotChange_putAt hLiveLater hReadableLater hAt

------------------------------------------------------------
-- Setting a Field
------------------------------------------------------------

namespace Box

variable {s : Schema} {b : Box} {name : String}
variable {v : Value} {w w' : World}

/-
  A set that succeeds found a field with the name, exported
  the value to the field's type, and put it into the record.
-/
theorem set_eq_ok
    (hSet : b.set s name v w = (.ok (), w')) :
    ∃ id index f new w₁ heap,
      b.record? = some id ∧
      s.fieldIndex? id (Text.capitalize name) = some index ∧
      (s.fields id)[index]? = some f ∧
      f.type.exportAs s v w = (.ok new, w₁) ∧
      b.putField s w₁.heap index new = .ok heap ∧
      w' = w₁.withHeap heap := by
  unfold set at hSet
  cases hRecord : b.record? with
  | none => simp [hRecord] at hSet
  | some id =>
      simp only [hRecord] at hSet
      cases hIndex :
          s.fieldIndex? id (Text.capitalize name) with
      | none => simp [hIndex] at hSet
      | some index =>
          simp only [hIndex] at hSet
          cases hField : (s.fields id)[index]? with
          | none => simp [hField] at hSet
          | some f =>
              simp only [hField] at hSet
              rcases Action.bind_eq_ok_iff.mp hSet with
                ⟨new, w₁, hExport, hPut⟩
              rcases Action.changeHeap_eq_ok_iff.mp hPut with
                ⟨heap, hOk, hWorld⟩
              exact ⟨id, index, f, new, w₁, heap, rfl, hIndex,
                hField, hExport, hOk, hWorld⟩

/- A field that was put is read through any such box. -/
theorem readField_of_read
    {heap : Heap}
    {id : RecordId}
    {values : List HostValue}
    {index : Nat}
    {u : HostValue}
    (hRead : b.read s heap = .ok (.record id values))
    (hGet : values[index]? = some u) :
    b.readField s heap index = .ok u := by
  simp [readField, hRead, hGet]

/-
  Setting a field changes one slot: the field's position
  after the path of the box, which then holds the value
  exported to the field's type. The export runs first, in the
  world before the set; it leaves the heap as it was unless a
  domain value in the operand changes objects itself. Boxes
  of the same place observe each other's writes.
-/
theorem set_changes_one_slot
    (hSet : b.set s name v w = (.ok (), w')) :
    ∃ id index f new w₁,
      b.record? = some id ∧
      s.fieldIndex? id (Text.capitalize name) = some index ∧
      (s.fields id)[index]? = some f ∧
      f.type.exportAs s v w = (.ok new, w₁) ∧
      ((∀ n e, Value.Within (.any n e) v → e.LeavesObjects) →
        w₁.heap = w.heap) ∧
      w' = w₁.withHeap w'.heap ∧
      w₁.heap.SlotChange s w'.heap b.handle
        (b.path ++ [index]) new ∧
      ∀ c : Box, c.sameObject b = true →
        c.readField s w'.heap index = .ok new := by
  rcases set_eq_ok hSet with
    ⟨id, index, f, new, w₁, heap, hRecord, hIndex, hField,
      hExport, hPut, hWorld⟩
  rcases putField_eq_ok hPut with
    ⟨own, values, hWritable, hAt, hLength, hHeap⟩
  subst hWorld
  have hSlot :
      (w₁.heap.content b.handle).at? (b.path ++ [index]) =
        some values[index] := by
    rw [HostValue.at?_append_of_at? hAt]
    simp [HostValue.at?, hLength]
  have hReadable : w₁.heap.isReadable b.handle = true :=
    Heap.isReadable_of_isWritable hWritable
  have hChange :
      w₁.heap.SlotChange s heap b.handle
        (b.path ++ [index]) new := by
    rw [hHeap]
    exact Heap.slotChange_putAt
      (Heap.lt_size_of_at? hSlot (by simp)) hReadable hSlot
  refine ⟨id, index, f, new, w₁, hRecord, hIndex, hField,
    hExport, ?_, rfl, hChange, ?_⟩
  · intro hLeaves
    have hHeapKept := HostType.heap_exportAs hLeaves w
      (s := s) (t := f.type)
    rwa [hExport] at hHeapKept
  · intro c hSame
    simp only [sameObject, Bool.and_eq_true, beq_iff_eq]
      at hSame
    have hBefore : c.read s w₁.heap = .ok (.record own values) := by
      rw [read_eq_ok_iff, hSame.1, hSame.2]
      exact ⟨hReadable, hAt⟩
    have hAfter :=
      hChange.above c [index] hSame.1 (by rw [hSame.2])
    rw [hBefore] at hAfter
    change _ = Except.ok (HostValue.replaceAt [index] new _)
      at hAfter
    rw [HostValue.replaceAt_singleton] at hAfter
    exact readField_of_read hAfter (by simp [hLength])

/- Moving the finish of a segment is seen on the segment. -/
theorem set_changes_one_slot_plane :
    ∃ w',
      Box.finish.set .plane "y" (.int 9) .withSegment =
        (.ok (), w') ∧
      Box.segment.read .plane w'.heap =
        .ok (.record ⟨1⟩ [.point 1 2, .point 3 9]) := by
  let w' : World :=
    (Box.finish.set .plane "y" (.int 9) .withSegment).2
  have hSet :
      Box.finish.set .plane "y" (.int 9) .withSegment =
        (.ok (), w') := rfl
  refine ⟨w', hSet, ?_⟩
  rcases set_changes_one_slot hSet with
    ⟨id, index, f, new, w₁, hRecord, hIndex, hField, hExport,
      hQuiet, hWorld, hChange, hSame⟩
  cases hRecord
  have hFound :
      Schema.plane.fieldIndex? ⟨0⟩ (Text.capitalize "y") =
        some 1 := by
    decide
  cases hFound.symm.trans hIndex
  cases hField
  cases hExport
  exact hChange.above Box.segment [1, 1] rfl rfl

end Box

end Interop
