import Interop.Call
import Interop.Proofs.Member
import Interop.Proofs.Typing.Conversion

/-
  Operations on objects keep heaps well typed. Each is taken
  apart once, with what holds between its steps; boxes that
  it makes are as good as their tags.

  Main declarations:
    * `HostType.alloc_keeps`
    * `HostType.importAs_keeps`
    * `HostType.construct_keeps`
    * `Box.read_keeps`
    * `Box.update_keeps`
    * `Box.field_keeps`
    * `Box.set_keeps`
-/

namespace Interop

variable {s : Schema} {held : Box → Prop}

------------------------------------------------------------
-- Objects That Are Added
------------------------------------------------------------

namespace HostType

/-
  A value that conforms deeply is added as an object that
  does. What evolution does not undo still holds.
-/
theorem alloc_keeps
    {t : HostType}
    {v : HostValue}
    {p : Heap → Prop}
    (hStable : Action.IsStable s held p) :
    Action.Keeps s held
      (fun heap => p heap ∧ t.AdmitsDeeply s heap v)
      (Action.onHost (·.alloc v))
      fun h heap => p heap ∧ h.index < heap.size ∧
        t.AdmitsDeeply s heap (heap.content h) := by
  apply Action.Keeps.onHost
  rintro host hTyped ⟨hStart, hDeep⟩
  have hEvolves := hTyped.evolves_alloc hDeep.records
  exact ⟨hEvolves, hStable hEvolves hStart,
    hTyped.admitsDeeply_next hDeep⟩

/- An import keeps heaps well typed and makes good boxes. -/
theorem importAs_keeps
    (t : HostType)
    (h : HostValue) :
    Action.Keeps s held (h.RecordsFit s)
      (Action.onHeap (t.importAs s h)) (Value.IsTyped s) := by
  apply Action.Keeps.onHeap
  intro heap heap' v hTyped hFit hOk
  exact importAs_isSound t h hTyped hFit hOk

------------------------------------------------------------
-- Constructors
------------------------------------------------------------

/- Nothing allocated is a reference. -/
theorem allocated_ne_ref
    (t : HostType)
    (id : RecordId) :
    t.allocated ≠ .ref id := by
  cases t <;> simp [allocated]

/- A constructor makes a good box. -/
theorem construct_keeps
    (t : HostType) :
    Action.Keeps s held (fun _ => True) (t.construct s)
      fun b heap => b.Typed s heap := by
  unfold construct
  split
  · refine Action.Keeps.bind (Action.Keeps.emit _) ?_
    intro u
    have hAlloc :
        Action.Keeps s held (fun _ => True)
          (Action.onHost (·.alloc (t.allocated.zero s)))
          fun h heap => h.index < heap.size ∧
            t.allocated.AdmitsDeeply s heap (heap.content h) := by
      apply (alloc_keeps (p := fun _ => True)
        fun _ _ => trivial).weaken
      · exact fun heap hStart =>
          ⟨hStart, admitsDeeply_zero t.allocated⟩
      · exact fun h heap hMade => hMade.2
    refine Action.Keeps.bind hAlloc ?_
    intro h
    apply Action.Keeps.pure
    rintro heap hTyped ⟨hLive, hDeep⟩
    exact .of_whole hLive (hTyped.idle.isReadable h) hDeep
      (allocated_ne_ref t)
  · exact Action.Keeps.fail _

end HostType

------------------------------------------------------------
-- Reading and Updating Boxes
------------------------------------------------------------

namespace Box

variable {b : Box}

/- A held box reads what conforms deeply to its tag. -/
theorem read_keeps
    {pre : Heap → Prop}
    (hHeld : held b) :
    Action.Keeps s held pre (Action.fromHeap (b.read s ·))
      fun v heap => pre heap ∧ b.type.AdmitsDeeply s heap v := by
  apply Action.Keeps.fromHeap
  intro heap v hTyped hStart hOk
  rcases (hTyped.boxes b hHeld).reads with ⟨u, hRead, hDeep⟩
  cases hRead.symm.trans hOk
  exact ⟨hStart, hDeep⟩

/-
  Updating a held box of a record keeps heaps well typed, if
  the change leads from records of its type that fit to such
  records.
-/
theorem update_keeps
    {id : RecordId}
    {pre : Heap → Prop}
    {change : HostValue → Except Error HostValue}
    (hHeld : held b)
    (hType : b.type = .record id)
    (hChange : ∀ heap values new, pre heap →
      (HostValue.record id values).RecordsFit s heap →
        change (.record id values) = .ok new →
          new.isRecordOf id = true ∧ new.RecordsFit s heap) :
    Action.Keeps s held pre
      (Action.changeHeap fun heap => b.update s heap change)
      fun _ _ => True := by
  apply Action.Keeps.changeHeap
  intro heap heap' hTyped hStart hUpdate
  have hBox := hTyped.boxes b hHeld
  rcases hBox.at?_of_record hType with ⟨values, hAt, hFit⟩
  rcases update_eq_ok hUpdate with
    ⟨old, new, hWritable, hOld, hNew, hHeap⟩
  cases hAt.symm.trans hOld
  rcases hChange heap values new hStart hFit hNew with
    ⟨hRecord, hNewFit⟩
  rw [hHeap]
  exact ⟨hTyped.evolves_putAt hBox hType hRecord hNewFit, trivial⟩

/- A record that fits may replace a held one of its type. -/
theorem write_keeps
    {id : RecordId}
    (hHeld : held b)
    (hType : b.type = .record id)
    (new : HostValue) :
    Action.Keeps s held
      (fun heap => new.isRecordOf id = true ∧
        new.RecordsFit s heap)
      (Action.changeHeap (b.write s · new)) fun _ _ => True := by
  unfold write
  apply update_keeps hHeld hType
  rintro heap values changed hFits hOldFit hSame
  cases hSame
  exact hFits

------------------------------------------------------------
-- Fields
------------------------------------------------------------

/- A declared field of a good box reads what conforms deeply. -/
theorem Typed.readField
    {heap : Heap}
    {id : RecordId}
    {index : Nat}
    {f : Field}
    (hBox : b.Typed s heap)
    (hType : b.type = .record id)
    (hField : (s.fields id)[index]? = some f) :
    ∃ v, b.readField s heap index = .ok v ∧
      f.type.AdmitsDeeply s heap v := by
  rcases hBox.at?_of_record hType with ⟨values, hAt, hFit⟩
  rcases HostValue.recordsFit_record_iff.mp hFit with
    ⟨hSelf, hValues⟩
  rcases hSelf.value hField with ⟨v, hValue, hAdmits⟩
  rcases hBox.reads with ⟨u, hRead, hDeep⟩
  cases hAt.symm.trans (read_eq_ok_iff.mp hRead).2
  refine ⟨v, ?_, hAdmits, hValues v (List.mem_of_getElem? hValue)⟩
  simp [Box.readField, hRead, hValue]

/- A declared field of a good box can be written. -/
theorem Typed.putField
    {heap : Heap}
    {id : RecordId}
    {index : Nat}
    {f : Field}
    (hBox : b.Typed s heap)
    (hWritable : heap.isWritable b.handle = true)
    (hType : b.type = .record id)
    (hField : (s.fields id)[index]? = some f)
    (new : HostValue) :
    ∃ heap', b.putField s heap index new = .ok heap' := by
  rcases hBox.readField hType hField with ⟨v, hRead, hDeep⟩
  exact ⟨_, putField_eq_ok_iff.mpr ⟨hWritable, ⟨v, hRead⟩, rfl⟩⟩

/- A field is projected or imported. -/
theorem fieldAt_keeps
    {id : RecordId}
    {index : Nat}
    {f : Field}
    (hHeld : held b)
    (hType : b.type = .record id)
    (hField : (s.fields id)[index]? = some f) :
    Action.Keeps s held (fun _ => True)
      (b.fieldAt s index f.type) (Value.IsTyped s) := by
  have hImported :
      Action.Keeps s held (fun _ => True)
        (do
          let v ← Action.fromHeap fun heap =>
            b.readField s heap index
          Action.onHeap (f.type.importAs s v))
        (Value.IsTyped s) := by
    have hRead :
        Action.Keeps s held (fun _ => True)
          (Action.fromHeap fun heap => b.readField s heap index)
          fun v heap => v.RecordsFit s heap := by
      apply Action.Keeps.fromHeap
      intro heap v hTyped hStart hOk
      rcases (hTyped.boxes b hHeld).readField hType hField with
        ⟨u, hFound, hDeep⟩
      cases hFound.symm.trans hOk
      exact hDeep.records
    refine Action.Keeps.bind hRead ?_
    intro v
    exact HostType.importAs_keeps f.type v
  cases hInner : f.type with
  | record inner =>
      apply Action.Keeps.pure
      intro heap hTyped hStart c hHolds
      rw [Value.holdsBox_boxed hHolds]
      exact (hTyped.boxes b hHeld).project hType hField hInner
  | _ =>
      rw [hInner] at hImported
      exact hImported

/- A member of a held box has good boxes only. -/
theorem field_keeps
    {reg : Registry}
    (hHeld : held b)
    (name : String) :
    Action.Keeps reg.schema held (fun _ => True)
      (b.field reg name)
      fun found heap =>
        ∀ v, found = some v → v.IsTyped reg.schema heap := by
  have hNothing :
      Action.Keeps reg.schema held (fun _ => True)
        (pure none : Action (Option Value))
        fun found heap =>
          ∀ v, found = some v → v.IsTyped reg.schema heap := by
    apply Action.Keeps.pure
    intro heap hTyped hStart v hSome
    cases hSome
  unfold field
  cases hRecord : b.record? with
  | none => exact hNothing
  | some id =>
      simp only
      split
      · refine Action.Keeps.bind Action.Keeps.fresh ?_
        intro n
        apply Action.Keeps.pure
        intro heap hTyped hStart v hSome c hHolds
        cases hSome
        cases hHolds with
        | boxed hWithin => cases hWithin
        | receiver hWithin hTarget =>
            cases hWithin
            cases hTarget
            exact hTyped.boxes b hHeld
      · split
        · exact hNothing
        · split
          · exact hNothing
          · rename_i index hIndex f hField
            apply Action.Keeps.map
            have hFieldAt :=
              fieldAt_keeps hHeld (type_of_record? hRecord) hField
            apply hFieldAt.weaken (fun heap h => h)
            intro v heap hBoxes u hSome
            cases hSome
            exact hBoxes

/-
  Setting a field of a held box keeps heaps well typed: the
  value is converted to the declared type of the field.
-/
theorem set_keeps
    {v : Value}
    (hHeld : held b)
    (hHonest : v.IsHonest s held)
    (name : String) :
    Action.Keeps s held (fun _ => True) (b.set s name v)
      fun _ _ => True := by
  unfold set
  cases hRecord : b.record? with
  | none => exact Action.Keeps.fail _
  | some id =>
      simp only
      split
      · exact Action.Keeps.fail _
      · split
        · exact Action.Keeps.fail _
        · rename_i index hIndex f hField
          refine Action.Keeps.bind
            (HostType.exportAs_keeps f.type hHonest) ?_
          intro new
          unfold putField
          apply update_keeps hHeld (type_of_record? hRecord)
          intro heap values changed hNew hFit hChange
          simp only at hChange
          split at hChange
          · cases hChange
            exact ⟨by simp [HostValue.isRecordOf],
              hFit.set hField hNew⟩
          · cases hChange

end Box

end Interop
