import Interop.Proofs.Aliasing
import Interop.Proofs.Conflict
import Interop.Proofs.Typing.Exports

/-
  Writes to fields and soundness. A box may be stale: host
  code may have put a record of another type in its place.
  Setting a field looks up the position and the type of the
  field by the tag of the box, and writes to whatever record
  is there. So the heap is still sound exactly if the value
  is also of the type that this record declares for the field
  at that position, which it is if the tag is right. When it
  fails, a set leaves sound heaps sound.

  Main declarations:
    * `Heap.isSound_putAt_field_iff`
    * `Box.HasSet`
    * `Box.IsStale`
    * `Box.isSound_of_set_error`
    * `Box.isSound_of_set`
    * `Box.isSound_of_set_current`
-/

namespace Interop

variable {s : Schema}

------------------------------------------------------------
-- Fields of Stored Records
------------------------------------------------------------

namespace Heap

variable {heap : Heap} {h : Handle} {path : List Nat}
variable {id : RecordId} {values : List HostValue}
variable {index : Nat} {new : HostValue}

/- A changed field of a record is found in its place. -/
theorem at?_putAt_field
    (hAt : (heap.content h).at? path = some (.record id values)) :
    ((heap.putAt h (path ++ [index]) new).content h).at? path =
      some (.record id (values.set index new)) := by
  rw [content_putAt_self (lt_size_of_record hAt),
    HostValue.at?_replaceAt_above, hAt, Option.map_some,
    HostValue.replaceAt_singleton]

/- Then the same values conform as before, loans aside. -/
theorem admits_putAt_field_iff
    {t : HostType}
    {v : HostValue}
    (hIn : h.index < heap.size) :
    t.admits (heap.putAt h (path ++ [index]) new).freed v = true ↔
      t.admits heap.freed v = true := by
  have hPath : path ++ [index] ≠ [] := by simp
  have hKind : ∀ k id,
      ((heap.putAt h (path ++ [index]) new).content k).isRecordOf
        id = (heap.content k).isRecordOf id :=
    isRecordOf_putAt hPath hIn
  constructor
  · apply Retains.admits
    refine .of_isRecordOf_eq ?_ ?_
    · exact fun k _ => isReadable_freed heap k
    · intro k id
      rw [content_freed, content_freed]
      exact (hKind k id).symm
  · apply Retains.admits
    refine .of_isRecordOf_eq ?_ ?_
    · exact fun k _ => isReadable_freed _ k
    · intro k id
      rw [content_freed, content_freed]
      exact hKind k id

/-
  After a field was changed, the heap is sound exactly if the
  record declares the field with a type that the new value
  conforms to.
-/
theorem isSound_putAt_field_iff
    (hSound : heap.IsSound s)
    (hAt : (heap.content h).at? path = some (.record id values))
    (hIndex : index < values.length)
    (hFit : new.RecordsFit s heap.freed) :
    (heap.putAt h (path ++ [index]) new).IsSound s ↔
      ∃ f, (s.fields id)[index]? = some f ∧
        f.type.admits heap.freed new = true := by
  have hIn := lt_size_of_record hAt
  constructor
  · intro hAfter
    have hRecords := (hAfter h).at? (at?_putAt_field hAt)
    have hFits := (HostValue.recordsFit_record_iff.mp hRecords).1
    have hGet : (values.set index new)[index]? = some new := by
      simp [hIndex]
    rcases hFits.field hGet with ⟨f, hField, hAdmits⟩
    exact ⟨f, hField, (admits_putAt_field_iff hIn).mp hAdmits⟩
  · rintro ⟨f, hField, hAdmits⟩
    have hOld : (HostValue.record id values).isRecordOf id = true := by
      simp [HostValue.isRecordOf]
    have hNew :
        (HostValue.record id (values.set index new)).isRecordOf id =
          true := by
      simp [HostValue.isRecordOf]
    have hRecords := ((hSound h).at? hAt).set hField ⟨hAdmits, hFit⟩
    rw [putAt_field hAt]
    exact hSound.putAt hAt hOld hNew hRecords

end Heap

------------------------------------------------------------
-- Setting a Field
------------------------------------------------------------

/-
  A field was set through a box that is tagged with `id`. Its
  place holds a record of type `own`, with the new value at
  the position that the tag gives to the field, and this
  value is of the type that the tag declares.
-/
structure Box.HasSet
    (s : Schema)
    (b : Box)
    (name : String)
    (heap : Heap)
    (id own : RecordId)
    (index : Nat)
    (new : HostValue) : Prop where
  tag : b.record? = some id
  position :
    s.fieldIndex? id (Text.capitalize name) = some index
  declared : ∃ f, (s.fields id)[index]? = some f ∧
    f.type.admits heap.freed new = true
  stored : ∃ values,
    (heap.content b.handle).at? b.path =
        some (.record own values) ∧
      values[index]? = some new

/-
  A box is stale if its place holds what does not conform to
  its tag.
-/
def Box.IsStale
    (heap : Heap)
    (b : Box) : Prop :=
  ∃ v, (heap.content b.handle).at? b.path = some v ∧
    b.type.admits heap.freed v = false

namespace Box

variable {b : Box} {name : String} {v : Value} {w w' : World}

/- What is in the place of a box that is not stale conforms. -/
theorem admits_of_not_isStale
    {heap : Heap}
    {u : HostValue}
    (hCurrent : ¬ b.IsStale heap)
    (hAt : (heap.content b.handle).at? b.path = some u) :
    b.type.admits heap.freed u = true := by
  rw [← Bool.not_eq_false]
  exact fun hMisfit => hCurrent ⟨u, hAt, hMisfit⟩

/- A set that fails leaves sound heaps sound. -/
theorem isSound_of_set_error
    {e : Error}
    (hSound : w.heap.IsSound s)
    (hFaithful : v.IsFaithful s)
    (hSet : b.set s name v w = (.error e, w')) :
    w'.heap.IsSound s := by
  rcases set_cases s b name v with
    ⟨cause, hError, hEq⟩ | ⟨index, t, hEq⟩
  · rw [hEq] at hSet
    cases hSet
    exact hSound
  · rw [hEq] at hSet
    rcases Action.bind_eq_error_iff.mp hSet with
      hExport | ⟨new, w₁, hExport, hPut⟩
    · exact HostType.isSound_of_exportAs hFaithful hSound hExport
    · rcases Action.changeHeap_eq_error_iff.mp hPut with
        ⟨hFails, rfl⟩
      exact HostType.isSound_of_exportAs hFaithful hSound hExport

/- A set that succeeds changes a field of a record. -/
theorem set_eq_ok_field
    (hSet : b.set s name v w = (.ok (), w')) :
    ∃ id own index f values new w₁,
      b.record? = some id ∧
      s.fieldIndex? id (Text.capitalize name) = some index ∧
      (s.fields id)[index]? = some f ∧
      f.type.exportAs s v w = (.ok new, w₁) ∧
      (w₁.heap.content b.handle).at? b.path =
        some (.record own values) ∧
      index < values.length ∧
      w' = w₁.withHeap
        (w₁.heap.putAt b.handle (b.path ++ [index]) new) := by
  rcases set_eq_ok hSet with
    ⟨id, index, f, new, w₁, heap, hTag, hPosition, hField,
      hExport, hPut, rfl⟩
  rcases putField_eq_ok hPut with
    ⟨own, values, hWritable, hAt, hIndex, rfl⟩
  exact ⟨id, own, index, f, values, new, w₁, hTag, hPosition,
    hField, hExport, hAt, hIndex, rfl⟩

/- What a set that succeeds has done to a sound heap. -/
theorem isSound_of_set_ok
    (hSound : w.heap.IsSound s)
    (hFaithful : v.IsFaithful s)
    (hSet : b.set s name v w = (.ok (), w')) :
    ∃ id own index new,
      b.HasSet s name w'.heap id own index new ∧
      (w'.heap.IsSound s ↔
        ∃ f, (s.fields own)[index]? = some f ∧
          f.type.admits w'.heap.freed new = true) := by
  rcases set_eq_ok_field hSet with
    ⟨id, own, index, f, values, new, w₁, hTag, hPosition, hField,
      hExport, hAt, hIndex, rfl⟩
  have hMid := HostType.isSound_of_exportAs hFaithful hSound hExport
  have hDeep := HostType.admitsDeeply_exportAs hFaithful hSound hExport
  have hIn := Heap.lt_size_of_record hAt
  refine ⟨id, own, index, new, ?_, ?_⟩
  · exact {
      tag := hTag
      position := hPosition
      declared := ⟨f, hField,
        (Heap.admits_putAt_field_iff hIn).mpr hDeep.shallow⟩
      stored := ⟨_, Heap.at?_putAt_field hAt, by simp [hIndex]⟩ }
  · rw [World.heap_withHeap,
      Heap.isSound_putAt_field_iff hMid hAt hIndex hDeep.records]
    simp only [Heap.admits_putAt_field_iff hIn]

/-
  Setting a field and soundness. If the set fails, the heap
  is still sound. If it succeeds, the heap is sound exactly
  if the value is of the type that the record in the place of
  the box declares at that position; if the box is tagged
  with the type of this record, it always is.
-/
theorem isSound_of_set
    (hSound : w.heap.IsSound s)
    (hFaithful : v.IsFaithful s)
    (b : Box)
    (name : String) :
    (∀ e w', b.set s name v w = (.error e, w') →
      w'.heap.IsSound s) ∧
    ∀ w', b.set s name v w = (.ok (), w') →
      ∃ id own index new,
        b.HasSet s name w'.heap id own index new ∧
        (w'.heap.IsSound s ↔
          ∃ f, (s.fields own)[index]? = some f ∧
            f.type.admits w'.heap.freed new = true) ∧
        (own = id → w'.heap.IsSound s) := by
  constructor
  · intro e w' hSet
    exact isSound_of_set_error hSound hFaithful hSet
  · intro w' hSet
    rcases isSound_of_set_ok hSound hFaithful hSet with
      ⟨id, own, index, new, hHasSet, hIff⟩
    refine ⟨id, own, index, new, hHasSet, hIff, ?_⟩
    rintro rfl
    exact hIff.mpr hHasSet.declared

/-
  A set through a box that is not stale once the value was
  exported leaves sound heaps sound.
-/
theorem isSound_of_set_current
    (hSound : w.heap.IsSound s)
    (hFaithful : v.IsFaithful s)
    (hCurrent : ∀ t : HostType,
      ¬ b.IsStale (t.exportAs s v w).2.heap)
    (hSet : b.set s name v w = (.ok (), w')) :
    w'.heap.IsSound s := by
  rcases set_eq_ok_field hSet with
    ⟨id, own, index, f, values, new, w₁, hTag, hPosition, hField,
      hExport, hAt, hIndex, rfl⟩
  have hHere := hCurrent f.type
  rw [hExport] at hHere
  have hOwn := admits_of_not_isStale hHere hAt
  rw [type_of_record? hTag, HostType.admits_record] at hOwn
  have hSame : own = id := by
    simpa [HostValue.isRecordOf] using hOwn
  subst hSame
  have hMid := HostType.isSound_of_exportAs hFaithful hSound hExport
  have hDeep := HostType.admitsDeeply_exportAs hFaithful hSound hExport
  exact (Heap.isSound_putAt_field_iff hMid hAt hIndex
    hDeep.records).mpr ⟨f, hField, hDeep.shallow⟩

/- The finish is moved, and all records still fit. -/
theorem isSound_of_set_finish :
    World.withSegment.heap.IsSound .plane ∧
    (Value.int 9).IsFaithful .plane ∧
    (Box.finish.set .plane "y" (.int 9)
      .withSegment).2.heap.IsSound .plane := by
  have hPlain : (Value.int 9).IsFaithful .plane := by
    intro id e hWithin
    cases hWithin
  rcases (isSound_of_set World.isSound_withSegment hPlain .finish
      "y").2 _ rfl with
    ⟨id, own, index, new, hHasSet, hIff, hSound⟩
  refine ⟨World.isSound_withSegment, hPlain, hSound ?_⟩
  cases hHasSet.tag
  rcases hHasSet.stored with ⟨values, hAt, hValue⟩
  cases hAt
  rfl

end Box

------------------------------------------------------------
-- A Stale Box
------------------------------------------------------------

/- A world with one object, the point 1, 2. -/
def World.withPoint : World :=
  World.initial.withHeap ⟨[.free (.point 1 2)]⟩

/- The point. -/
def Box.spot : Box :=
  .whole ⟨0⟩ (.record ⟨0⟩)

/- A box of the point that is tagged as a segment. -/
def Box.stale : Box :=
  .whole ⟨0⟩ (.record ⟨1⟩)

/-
  Through it, the start is set to a point. That is the first
  field of a segment, but the first coordinate of the point.
-/
theorem Box.not_isSound_of_set_stale :
    World.withPoint.heap.IsSound .plane ∧
    (Value.boxed spot).IsFaithful .plane ∧
    (stale.set .plane "start" (.boxed spot) .withPoint).1 =
      .ok () ∧
    ¬ (stale.set .plane "start" (.boxed spot)
      .withPoint).2.heap.IsSound .plane := by
  refine ⟨?_, ?_, rfl, ?_⟩
  · exact (Heap.isSound_empty .plane).alloc
      (HostValue.recordsFit_point 1 2)
  · intro id e hWithin
    cases hWithin
  · intro hSound
    have hFits :=
      (HostValue.recordsFit_record_iff.mp (hSound ⟨0⟩)).1
    rcases hFits.field (i := 0) rfl with ⟨f, hField, hAdmits⟩
    cases hField
    cases hAdmits

end Interop
