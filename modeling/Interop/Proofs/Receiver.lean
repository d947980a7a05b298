import Interop.Proofs.Marshalling
import Interop.Proofs.Member
import Interop.Proofs.Projection
import Interop.Proofs.Running

/-
  Methods that return their receiver. On an object of its own
  such a method hands back the receiver's own box. On a record
  inside another object it hands back the box of the copy that
  it ran on: right after the call both hold the same content,
  but what is set through one is not seen through the other.

  Main declarations:
    * `Box.Shows`
    * `Box.Misses`
    * `HostMethod.ReturnsReceiver`
    * `Callable.unmarshal_ref_eq_ok`
    * `Callable.call_of_receiver`
-/

namespace Interop

------------------------------------------------------------
-- What Is Seen of a Set
------------------------------------------------------------

namespace Box

variable {s : Schema} {b c : Box}

/-
  The first box shows what is set through the second one: a
  field that was set is read as the value exported to it.
-/
def Shows
    (s : Schema)
    (b c : Box) : Prop :=
  ∀ name v w w',
    c.set s name v w = (.ok (), w') →
      ∃ id index f new w₁,
        c.record? = some id ∧
        s.fieldIndex? id (Text.capitalize name) = some index ∧
        (s.fields id)[index]? = some f ∧
        f.type.exportAs s v w = (.ok new, w₁) ∧
        b.readField s w'.heap index = .ok new

/-
  The first box misses what is set through the second one: it
  reads what it read before. Domain values in the operand must
  not change objects themselves.
-/
def Misses
    (s : Schema)
    (b c : Box) : Prop :=
  ∀ name v w w',
    c.set s name v w = (.ok (), w') →
    (∀ id e, Value.Within (.any id e) v → e.LeavesObjects) →
      b.read s w'.heap = b.read s w.heap

/- Boxes of one place show what is set through either. -/
theorem shows_of_sameObject
    (hSame : b.sameObject c = true) :
    b.Shows s c := by
  intro name v w w' hSet
  simp only [sameObject, Bool.and_eq_true, beq_iff_eq] at hSame
  rcases set_eq_ok hSet with
    ⟨id, index, f, new, w₁, heap, hRecord, hIndex, hField,
      hExport, hPut, rfl⟩
  refine ⟨id, index, f, new, w₁, hRecord, hIndex, hField,
    hExport, ?_⟩
  rw [World.heap_withHeap, readField_eq_ok_iff, hSame.1, hSame.2]
  exact readField_eq_ok_iff.mp (readField_of_putField hPut)

/- A box on another object misses what is set. -/
theorem misses_of_handle_ne
    (hNe : b.handle ≠ c.handle) :
    b.Misses s c := by
  intro name v w w' hSet hLeaves
  rcases set_eq_ok hSet with
    ⟨id, index, f, new, w₁, heap, hRecord, hIndex, hField,
      hExport, hPut, rfl⟩
  rcases putField_eq_ok hPut with
    ⟨own, values, hWritable, hAt, hLength, hHeap⟩
  have hKept : w₁.heap = w.heap := by
    have hHeapKept := HostType.heap_exportAs hLeaves w
      (s := s) (t := f.type)
    rwa [hExport] at hHeapKept
  have hOther : heap.cell b.handle = w.heap.cell b.handle := by
    rw [hHeap, Heap.cell_putAt_of_ne hNe, hKept]
  exact read_congr hOther

/- A whole object is read as its content. -/
theorem read_whole_eq_ok_iff
    {heap : Heap}
    {h : Handle}
    {t : HostType}
    {v : HostValue} :
    (whole h t).read s heap = .ok v ↔ heap.read? h = some v := by
  rw [read_eq_ok_iff]
  simp only [whole, HostValue.at?, Heap.read?]
  by_cases hReadable : heap.isReadable h = true
  · simp [hReadable]
  · simp [hReadable]

end Box

------------------------------------------------------------
-- Methods That Return Their Receiver
------------------------------------------------------------

/- No parameters, and a reference as the only result. -/
def Signature.ofReceiver (id : RecordId) : Signature :=
  ⟨[], [.ref id], false⟩

/- The method hands back the handle it was given. -/
def HostMethod.ReturnsReceiver (body : HostMethod) : Prop :=
  ∀ h args host, (body h args host).1 = [.ref h]

namespace Callable

variable {s : Schema} {options : Options} {c : Callable}
variable {body : HostMethod} {b : Box} {id : RecordId}
variable {left : Option Value} {right v : Value}
variable {w w' : World}

/- Without parameters no operand is looked at. -/
theorem marshal_nullary
    (hNone : c.sig.params = [])
    (left : Option Value)
    (right : Value)
    (w : World) :
    ∃ w₁, c.marshal s options left right w = (.ok [], w₁) ∧
      w₁.heap = w.heap := by
  have hRow : operandRow c.sig.arity left right = .ok [] := by
    rw [Signature.arity, hNone]
    rfl
  have hExport :
      exportRow s c.sig.params [] (announced c left w) =
        (.ok [], announced c left w) := by
    rw [hNone]
    rfl
  exact ⟨_, marshal_of_export_ok hRow hExport, rfl⟩

/- A reference that is imported is the box of its object. -/
theorem unmarshal_ref_eq_ok
    {h : Handle}
    (hSig : c.sig = .ofReceiver id)
    (hDone : c.unmarshal s [.ref h] w = (.ok v, w')) :
    v = .boxed (.whole h (.record id)) ∧
      w'.heap = w.heap := by
  have hSlots : [HostValue.ref h].length = c.sig.outputSlots := by
    rw [hSig]
    rfl
  have hSettle : c.settle [.ref h] = pure [.ref h] := by
    simp [settle, hSig, Signature.ofReceiver]
  unfold unmarshal at hDone
  rw [if_pos hSlots, hSettle, pure_bind, hSig] at hDone
  rcases Action.bind_eq_ok_iff.mp hDone with
    ⟨values, w₁, hImport, hLast⟩
  cases hLast
  rcases Action.onHeap_eq_ok_iff.mp hImport with
    ⟨heap, hEach, rfl⟩
  -- there is one result, which is declared as a reference
  have hOne :
      each (fun _ (p : HostType × HostValue) =>
          p.1.importAs s p.2)
        [(.ref id, .ref h)] w.heap = .ok (values, heap) :=
    hEach
  rcases HostType.Import.eachFrom_cons_eq_ok_iff.mp hOne with
    ⟨first, rest, mid, hRef, hNone, rfl⟩
  cases hNone
  rcases HostType.importRef_eq_ok_iff.mp hRef with
    ⟨hReadable, hRecord, rfl, rfl⟩
  exact ⟨rfl, rfl⟩

/-
  On an object of its own the method returns the receiver's
  own box.
-/
theorem call_of_receiver_whole
    {name : String}
    {m : Method}
    (hWhole : b.isProjection = false)
    (hTag : b.type = .record id)
    (hSig : m.sig = .ofReceiver id)
    (hReturns : m.body.ReturnsReceiver)
    (hCall :
      call s options (bind name m b) left right w =
        (.ok v, w')) :
    v = .boxed b := by
  rcases Action.bind_eq_ok_iff.mp hCall with
    ⟨args, w₁, hMarshal, hInvoke⟩
  rcases Action.bind_eq_ok_iff.mp hInvoke with
    ⟨outputs, w₂, hRun, hDone⟩
  have hHost :
      Action.onHost (m.body b.handle args) w₁ =
        (.ok outputs, w₂) := by
    simpa [bind, runTarget, hWhole] using hRun
  have hOutputs : outputs = [.ref b.handle] := by
    rw [← hReturns b.handle args w₁.host]
    cases hHost
    rfl
  subst hOutputs
  have hPath : b.path = [] := by
    simpa [Box.isProjection] using hWhole
  rw [(unmarshal_ref_eq_ok hSig hDone).1, ← hTag, Box.whole,
    ← hPath]

/-
  On a record inside another object the method returns the box
  of the copy that it ran on, which then holds what the
  receiver's place does.
-/
theorem call_of_receiver_projection
    {name : String}
    {m : Method}
    (hInside : b.isProjection = true)
    (hTag : b.type = .record id)
    (hSig : m.sig = .ofReceiver id)
    (hReturns : m.body.ReturnsReceiver)
    (hCall :
      call s options (bind name m b) left right w =
        (.ok v, w')) :
    let copy := Box.whole w.heap.next b.type
    v = .boxed copy ∧
      copy.handle ≠ b.handle ∧
      ∃ u, copy.read s w'.heap = .ok u ∧
        b.read s w'.heap = .ok u := by
  intro copy
  rcases Action.bind_eq_ok_iff.mp hCall with
    ⟨args, w₁, hMarshal, hInvoke⟩
  have hNoParams : (bind name m b).sig.params = [] := by
    change m.sig.params = []
    rw [hSig]
    rfl
  rcases marshal_nullary hNoParams left right w with
    ⟨w₂, hNone, hHeap⟩
  rw [hNone] at hMarshal
  cases hMarshal
  rcases Action.bind_eq_ok_iff.mp hInvoke with
    ⟨outputs, w₃, hRun, hDone⟩
  have hCopy :
      runOnCopy s m.body b [] w₁ = (.ok outputs, w₃) := by
    simpa [bind, runTarget, hInside] using hRun
  rcases runOnCopy_eq_ok_iff.mp hCopy with
    ⟨hRead, hRan, hBack, hFits, hWrite⟩
  rename_i content updated ran heap
  rw [hHeap] at hRead hBack
  have hOutputs : outputs = [.ref w.heap.next] := by
    rw [← hHeap, ← hReturns w₁.heap.next [] _]
    exact (congrArg Prod.fst hRan).symm
  subst hOutputs
  rcases unmarshal_ref_eq_ok hSig hDone with ⟨hBox, hLast⟩
  have hPath : b.path ≠ [] := by
    simpa [Box.isProjection] using hInside
  have hNew : copy.handle ≠ b.handle := by
    intro hEq
    have hOld : b.handle.index < w.heap.size :=
      Heap.lt_size_of_at? (Box.read_eq_ok_iff.mp hRead).2 hPath
    rw [← hEq] at hOld
    exact Nat.lt_irrefl _ hOld
  rcases Box.update_eq_ok hWrite with
    ⟨old, new, hWritable, hAt, hChange, hStored⟩
  cases hChange
  have hIn : b.handle.index < ran.heap.size :=
    Heap.lt_size_of_at? hAt hPath
  have hReadable : ran.heap.isReadable b.handle = true :=
    Heap.isReadable_of_isWritable hWritable
  have hEnd : w'.heap = ran.heap.putAt b.handle b.path updated := by
    rw [hLast, ← hStored]
    rfl
  refine ⟨?_, hNew, updated, ?_, ?_⟩
  · rw [hBox, ← hTag]
  · rw [hEnd, Box.read_putAt_of_part (.inl hNew) hIn]
    exact Box.read_whole_eq_ok_iff.mpr hBack
  · rw [hEnd,
      Box.read_putAt_below (List.append_nil _).symm hIn hReadable
        hAt]
    rfl

/-
  A call of a method that returns its receiver gives a box of
  the receiver's type. When the receiver is an object of its
  own, it is the receiver's box, and either shows what is set
  through the other. When the receiver is a record inside
  another object, however deep, the box is that of an object
  which the call has added: the copy that the method ran on.
  Right after the call both read the same content; from then
  on neither sees what is set through the other.
-/
theorem call_of_receiver
    {name : String}
    {m : Method}
    (hTag : b.type = .record id)
    (hSig : m.sig = .ofReceiver id)
    (hReturns : m.body.ReturnsReceiver)
    (hCall :
      call s options (bind name m b) left right w =
        (.ok v, w')) :
    ∃ r, v = .boxed r ∧ r.type = b.type ∧
      (b.isProjection = false →
        r.sameObject b = true ∧ r.Shows s b ∧ b.Shows s r) ∧
      (b.isProjection = true →
        r = .whole w.heap.next b.type ∧
        r.sameObject b = false ∧
        (∃ u, r.read s w'.heap = .ok u ∧
          b.read s w'.heap = .ok u) ∧
        r.Misses s b ∧ b.Misses s r) := by
  cases hInside : b.isProjection with
  | false =>
      have hBox : v = .boxed b :=
        call_of_receiver_whole hInside hTag hSig hReturns hCall
      have hSame : b.sameObject b = true := by
        simp [Box.sameObject]
      refine ⟨b, hBox, rfl, ?_, by simp⟩
      intro _
      exact ⟨hSame, Box.shows_of_sameObject hSame,
        Box.shows_of_sameObject hSame⟩
  | true =>
      rcases call_of_receiver_projection hInside hTag hSig
          hReturns hCall with
        ⟨hBox, hNew, hAgree⟩
      refine ⟨_, hBox, rfl, by simp, ?_⟩
      intro _
      refine ⟨rfl, ?_, hAgree, Box.misses_of_handle_ne hNew,
        Box.misses_of_handle_ne (Ne.symm hNew)⟩
      simp only [Box.sameObject, beq_eq_false_iff_ne.mpr hNew,
        Bool.false_and]

/-
  A method on the finish of a segment returns another point:
  moving that one does not move the finish.
-/
theorem call_of_receiver_finish :
    World.withSegment.heap.IsIdle ∧
    HostMethod.itself.ReturnsReceiver ∧
    ∃ r w' w'',
      call .plane .default
        (bind "Point.Itself" ⟨.ofReceiver ⟨0⟩, .itself⟩ .finish)
        none .empty .withSegment = (.ok (.boxed r), w') ∧
      r.set .plane "y" (.int 9) w' = (.ok (), w'') ∧
      r.readField .plane w''.heap 1 = .ok (.int 9) ∧
      Box.finish.readField .plane w''.heap 1 = .ok (.int 4) :=
  ⟨World.isIdle_withSegment, fun _ _ _ => rfl,
    _, _, _, rfl, rfl, rfl, rfl⟩

/-
  A method on the whole segment returns the segment; one on
  its finish returns the object that the call has added.
-/
theorem call_of_receiver_plane :
    HostMethod.itself.ReturnsReceiver ∧
    (∃ r w',
      call .plane .default
        (bind "Segment.Itself" ⟨.ofReceiver ⟨1⟩, .itself⟩
          .segment)
        none .empty .withSegment = (.ok (.boxed r), w') ∧
      r.Shows .plane .segment ∧ Box.segment.Shows .plane r) ∧
    ∃ r w',
      call .plane .default
        (bind "Point.Itself" ⟨.ofReceiver ⟨0⟩, .itself⟩ .finish)
        none .empty .withSegment = (.ok (.boxed r), w') ∧
      r = .whole ⟨1⟩ (.record ⟨0⟩) ∧
      r.Misses .plane .finish ∧ Box.finish.Misses .plane r := by
  have hReturns : HostMethod.itself.ReturnsReceiver :=
    fun _ _ _ => rfl
  refine ⟨hReturns, ?_, ?_⟩
  · let m : Method := ⟨.ofReceiver ⟨1⟩, .itself⟩
    have hCall :
        call .plane .default (bind "Segment.Itself" m .segment)
          none .empty .withSegment = (.ok _, _) := rfl
    rcases call_of_receiver rfl rfl hReturns hCall with
      ⟨r, hBox, hType, hWhole, hInside⟩
    rw [hBox] at hCall
    rcases hWhole rfl with ⟨hSame, hShows, hShown⟩
    exact ⟨r, _, hCall, hShows, hShown⟩
  · let m : Method := ⟨.ofReceiver ⟨0⟩, .itself⟩
    have hCall :
        call .plane .default (bind "Point.Itself" m .finish)
          none .empty .withSegment = (.ok _, _) := rfl
    rcases call_of_receiver rfl rfl hReturns hCall with
      ⟨r, hBox, hType, hWhole, hInside⟩
    rw [hBox] at hCall
    rcases hInside rfl with ⟨hNew, hOther, hAgree, hMiss, hMissed⟩
    exact ⟨r, _, hCall, hNew, hMiss, hMissed⟩

end Callable

end Interop
