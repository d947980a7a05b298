import Interop.Proofs.Typing.Places

/-
  Well typed heaps. Nobody has an object, every record that
  is stored anywhere fits, and each box that the interpreter
  holds leads to what its tag says.

  A heap may evolve: objects are added and contents change,
  but objects that hold records keep their types. A box of a
  record then stays good, wherever it leads, since its place
  is fixed by the type of the object; boxes of anything else
  stand for whole objects, whose contents must be seen to.

  Main declarations:
    * `Box.Typed`
    * `Heap.WellTyped`
    * `Heap.Evolves`
    * `Heap.WellTyped.of_evolves`
    * `Heap.WellTyped.evolves_alloc`
    * `Heap.WellTyped.evolves_store`
    * `Heap.WellTyped.evolves_putAt`
-/

namespace Interop

------------------------------------------------------------
-- Definitions
------------------------------------------------------------

/-
  A box leads to an object that exists, and reads what
  conforms deeply to its tag. Only records are held inside
  other objects, and no box is tagged as a reference.
-/
structure Box.Typed
    (s : Schema)
    (heap : Heap)
    (b : Box) : Prop where
  live : b.handle.index < heap.size
  reads : ∃ v, b.read s heap = .ok v ∧
    b.type.AdmitsDeeply s heap v
  not_ref : ∀ id, b.type ≠ .ref id
  whole : b.record? = none → b.path = []

/-
  A heap with the boxes that are held: nobody has an object,
  all records fit, and the boxes are as good as their tags.
-/
structure Heap.WellTyped
    (s : Schema)
    (held : Box → Prop)
    (heap : Heap) : Prop where
  idle : heap.IsIdle
  fits : ∀ h, (heap.content h).RecordsFit s heap
  boxes : ∀ b, held b → b.Typed s heap

/-
  What happens to a heap while boxes are held: objects keep
  their record types, all objects are given back, contents
  fit again, and objects that are no records still hold what
  their boxes say.
-/
structure Heap.Evolves
    (s : Schema)
    (held : Box → Prop)
    (before after : Heap) : Prop where
  grows : before.Grows after
  idle : after.IsIdle
  fits : ∀ h, (after.content h).RecordsFit s after
  others : ∀ b, held b → b.record? = none → b.Typed s after

------------------------------------------------------------
-- Boxes in a Later Heap
------------------------------------------------------------

/- The record type of a box is its tag. -/
theorem Box.type_of_record?
    {b : Box}
    {id : RecordId}
    (hRecord : b.record? = some id) :
    b.type = .record id := by
  unfold record? at hRecord
  split at hRecord
  · rename_i own hType
    cases hRecord
    exact hType
  · cases hRecord

namespace Box.Typed

variable {s : Schema} {before after : Heap} {b : Box}

/- A typed box of a record leads to a record of that type. -/
theorem at?_of_record
    {heap : Heap}
    {id : RecordId}
    (hTyped : b.Typed s heap)
    (hType : b.type = .record id) :
    ∃ values,
      (heap.content b.handle).at? b.path =
        some (.record id values) ∧
      (HostValue.record id values).RecordsFit s heap := by
  rcases hTyped.reads with ⟨v, hRead, hDeep⟩
  have hShallow := hDeep.shallow
  rw [hType, HostType.admits_record] at hShallow
  rcases HostValue.isRecordOf_iff.mp hShallow with ⟨values, rfl⟩
  exact ⟨values, (read_eq_ok_iff.mp hRead).2, hDeep.records⟩

/-
  A box of a record stays good when objects keep their
  record types.
-/
theorem of_grows
    {id : RecordId}
    (hTyped : b.Typed s before)
    (hType : b.type = .record id)
    (hGrows : before.Grows after)
    (hIdle : after.IsIdle)
    (hFitsBefore :
      (before.content b.handle).RecordsFit s before)
    (hFits : (after.content b.handle).RecordsFit s after) :
    b.Typed s after := by
  rcases hTyped.at?_of_record hType with ⟨values, hAt, hRecords⟩
  have hEnd : (HostValue.record id values).isRecordOf id = true := by
    simp [HostValue.isRecordOf]
  rcases HostValue.isRecordOf_of_at? hAt hEnd with ⟨root, hRoot⟩
  have hRootAfter := hGrows.isRecordOf hRoot
  rcases hFitsBefore.same_place hFits hRoot hRootAfter hAt hEnd with
    ⟨u, hAtAfter, hRecord⟩
  exact {
    live := Nat.lt_of_lt_of_le hTyped.live hGrows.size
    reads := by
      refine ⟨u, ?_, ?_, hFits.at? hAtAfter⟩
      · exact read_eq_ok_iff.mpr
          ⟨hIdle.isReadable b.handle, hAtAfter⟩
      · rw [hType, HostType.admits_record]
        exact hRecord
    not_ref := hTyped.not_ref
    whole := hTyped.whole }

/- An object has a good box of any type it conforms to. -/
theorem of_whole
    {heap : Heap}
    {h : Handle}
    {t : HostType}
    (hLive : h.index < heap.size)
    (hReadable : heap.isReadable h = true)
    (hDeep : t.AdmitsDeeply s heap (heap.content h))
    (hNotRef : ∀ id, t ≠ .ref id) :
    (Box.whole h t).Typed s heap where
  live := hLive
  reads :=
    ⟨heap.content h, read_eq_ok_iff.mpr ⟨hReadable, rfl⟩, hDeep⟩
  not_ref := hNotRef
  whole := fun _ => rfl

/- A box of an object that holds what it held stays good. -/
theorem of_content_eq
    (hTyped : b.Typed s before)
    (hGrows : before.Grows after)
    (hIdle : after.IsIdle)
    (hSame : after.content b.handle = before.content b.handle) :
    b.Typed s after := by
  rcases hTyped.reads with ⟨v, hRead, hDeep⟩
  exact {
    live := Nat.lt_of_lt_of_le hTyped.live hGrows.size
    reads := by
      refine ⟨v, ?_, hDeep.mono hGrows hIdle⟩
      rw [read_eq_ok_iff, hSame]
      exact ⟨hIdle.isReadable b.handle,
        (read_eq_ok_iff.mp hRead).2⟩
    not_ref := hTyped.not_ref
    whole := hTyped.whole }

/- A field that holds a record by value has a good box. -/
theorem project
    {heap : Heap}
    {id inner : RecordId}
    {index : Nat}
    {f : Field}
    (hTyped : b.Typed s heap)
    (hType : b.type = .record id)
    (hField : (s.fields id)[index]? = some f)
    (hInner : f.type = .record inner) :
    (b.project index (.record inner)).Typed s heap := by
  rcases hTyped.at?_of_record hType with ⟨values, hAt, hRecords⟩
  rcases HostValue.recordsFit_record_iff.mp hRecords with
    ⟨hSelf, hValues⟩
  rcases hSelf.value hField with ⟨v, hValue, hAdmits⟩
  rcases hTyped.reads with ⟨u, hRead, hDeep⟩
  have hAtField :
      (heap.content b.handle).at? (b.path ++ [index]) = some v := by
    rw [HostValue.at?_append_of_at? hAt]
    simp [HostValue.at?, hValue]
  exact {
    live := hTyped.live
    reads := by
      refine ⟨v, ?_, ?_, hValues v (List.mem_of_getElem? hValue)⟩
      · exact read_eq_ok_iff.mpr
          ⟨(read_eq_ok_iff.mp hRead).1, hAtField⟩
      · rw [← hInner]
        exact hAdmits
    not_ref := by simp [Box.project]
    whole := by simp [Box.project, Box.record?] }

end Box.Typed

------------------------------------------------------------
-- Evolution
------------------------------------------------------------

namespace Heap

variable {s : Schema} {held : Box → Prop}
variable {before after heap : Heap}

/- A well typed heap is well typed after it evolved. -/
theorem WellTyped.of_evolves
    (hBefore : before.WellTyped s held)
    (hEvolves : Evolves s held before after) :
    after.WellTyped s held where
  idle := hEvolves.idle
  fits := hEvolves.fits
  boxes b hHeld := by
    cases hRecord : b.record? with
    | none => exact hEvolves.others b hHeld hRecord
    | some id =>
        exact (hBefore.boxes b hHeld).of_grows
          (Box.type_of_record? hRecord) hEvolves.grows
          hEvolves.idle (hBefore.fits b.handle)
          (hEvolves.fits b.handle)

theorem WellTyped.evolves_refl
    (hTyped : heap.WellTyped s held) :
    Evolves s held heap heap where
  grows := .refl heap
  idle := hTyped.idle
  fits := hTyped.fits
  others b hHeld _ := hTyped.boxes b hHeld

theorem Evolves.trans
    {mid : Heap}
    (hFirst : Evolves s held before mid)
    (hSecond : Evolves s held mid after) :
    Evolves s held before after where
  grows := hFirst.grows.trans hSecond.grows
  idle := hSecond.idle
  fits := hSecond.fits
  others := hSecond.others

/- Fewer boxes make fewer demands. -/
theorem Evolves.forget
    {held' : Box → Prop}
    (hEvolves : Evolves s held before after)
    (hFewer : ∀ b, held' b → held b) :
    Evolves s held' before after where
  grows := hEvolves.grows
  idle := hEvolves.idle
  fits := hEvolves.fits
  others b hHeld := hEvolves.others b (hFewer b hHeld)

/- Another box may be held if it is good. -/
theorem WellTyped.hold
    {more : Box → Prop}
    (hTyped : heap.WellTyped s held)
    (hMore : ∀ b, more b → b.Typed s heap) :
    heap.WellTyped s fun b => held b ∨ more b where
  idle := hTyped.idle
  fits := hTyped.fits
  boxes b hHeld := by
    rcases hHeld with hOld | hNew
    · exact hTyped.boxes b hOld
    · exact hMore b hNew

/- Adding a conforming value evolves the heap. -/
theorem WellTyped.evolves_alloc
    {v : HostValue}
    (hTyped : heap.WellTyped s held)
    (hFit : v.RecordsFit s heap) :
    Evolves s held heap (heap.alloc v).2 := by
  have hGrows : heap.Grows (heap.alloc v).2 :=
    .of_isPrefix (cells_prefix_alloc heap v)
  have hIdle := hTyped.idle.alloc v
  exact {
    grows := hGrows
    idle := hIdle
    fits := by
      intro h
      apply HostValue.RecordsFit.mono hGrows hIdle
      rcases Nat.lt_trichotomy h.index heap.size with
        hOld | hNew | hNone
      · rw [content_alloc_of_lt hOld]
        exact hTyped.fits h
      · rw [eq_next_of_index_eq hNew, content_alloc_next]
        exact hFit
      · rw [content, cell_alloc_of_gt hNone]
        exact HostValue.recordsFit_of_no_parts
          (by simp [Cell.free]) (by simp [Cell.free])
    others := by
      intro b hHeld hPlain
      have hBox := hTyped.boxes b hHeld
      exact hBox.of_content_eq hGrows hIdle
        (content_alloc_of_lt hBox.live) }

/- The object that is added conforms to what its value did. -/
theorem WellTyped.admitsDeeply_next
    {t : HostType}
    {v : HostValue}
    (hTyped : heap.WellTyped s held)
    (hDeep : t.AdmitsDeeply s heap v) :
    heap.next.index < (heap.alloc v).2.size ∧
      t.AdmitsDeeply s (heap.alloc v).2
        ((heap.alloc v).2.content heap.next) := by
  have hEvolves := hTyped.evolves_alloc hDeep.records
  rw [size_alloc, content_alloc_next]
  exact ⟨Nat.lt_succ_self heap.size,
    hDeep.mono hEvolves.grows hEvolves.idle⟩

/-
  Storing a conforming record in the place of one of its
  type evolves the heap. A box that is not of a record stands
  for another object.
-/
theorem WellTyped.evolves_store
    {h : Handle}
    {id : RecordId}
    {new : HostValue}
    (hTyped : heap.WellTyped s held)
    (hOld : (heap.content h).isRecordOf id = true)
    (hNew : new.isRecordOf id = true)
    (hFit : new.RecordsFit s heap) :
    Evolves s held heap (heap.store h new) := by
  have hIn : h.index < heap.size := lt_size_of_isRecordOf hOld
  have hKind : ∀ own,
      new.isRecordOf own = (heap.content h).isRecordOf own := by
    rcases HostValue.isRecordOf_iff.mp hNew with ⟨vs, rfl⟩
    rcases HostValue.isRecordOf_iff.mp hOld with ⟨ws, hContent⟩
    rw [hContent]
    exact fun own => rfl
  have hGrows : heap.Grows (heap.store h new) :=
    .of_store hIn hKind
  have hIdle := hTyped.idle.store h new
  exact {
    grows := hGrows
    idle := hIdle
    fits := by
      intro k
      apply HostValue.RecordsFit.mono hGrows hIdle
      by_cases hEq : k = h
      · rw [hEq, content_store_self hIn]
        exact hFit
      · rw [content_store_of_ne hEq]
        exact hTyped.fits k
    others := by
      intro b hHeld hPlain
      have hBox := hTyped.boxes b hHeld
      apply hBox.of_content_eq hGrows hIdle
      apply content_store_of_ne
      rintro rfl
      rcases hBox.reads with ⟨v, hRead, hDeep⟩
      have hAt := (Box.read_eq_ok_iff.mp hRead).2
      rw [hBox.whole hPlain] at hAt
      cases hAt
      have hType :=
        HostType.eq_record_of_admits hDeep.shallow hOld
      simp [Box.record?, hType] at hPlain }

/-
  Replacing what a good box of a record stands for by another
  conforming record of its type evolves the heap, at any
  depth.
-/
theorem WellTyped.evolves_putAt
    {b : Box}
    {id : RecordId}
    {new : HostValue}
    (hTyped : heap.WellTyped s held)
    (hBox : b.Typed s heap)
    (hType : b.type = .record id)
    (hNew : new.isRecordOf id = true)
    (hFit : new.RecordsFit s heap) :
    Evolves s held heap (heap.putAt b.handle b.path new) := by
  rcases hBox.at?_of_record hType with ⟨values, hAt, hOldFit⟩
  have hOld : (HostValue.record id values).isRecordOf id = true := by
    simp [HostValue.isRecordOf]
  rcases HostValue.isRecordOf_of_at? hAt hOld with ⟨root, hRoot⟩
  rcases (hTyped.fits b.handle).replaceAt hAt hOld hNew hFit with
    ⟨hRootFit, hKind⟩
  apply hTyped.evolves_store hRoot _ hRootFit
  rw [hKind]
  exact hRoot

end Heap

end Interop
