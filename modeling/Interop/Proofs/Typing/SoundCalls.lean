import Interop.Proofs.Typing.Calls
import Interop.Proofs.Typing.SoundActions

/-
  Calls on sound heaps, whoever has the objects. Host code is
  faithful if it keeps sound heaps sound and hands out
  records that fit, given arguments that conform and, for a
  method, an object that conforms to the tag of the receiver.
  A call of faithful host code ends soundly, unless its
  receiver is stale.

  A method on a record inside an object runs on a copy that
  is stored back. So it must not leave the place of its
  receiver stale either.

  Main declarations:
    * `HostFunction.IsFaithful`
    * `HostMethod.IsFaithful`
    * `Target.IsFaithful`
    * `Callable.marshal_endsSound`
    * `Callable.runTarget_endsSound`
    * `Callable.unmarshal_endsSound`
    * `Callable.call_endsSound`
-/

namespace Interop

------------------------------------------------------------
-- Faithful Host Code
------------------------------------------------------------

/- Host code that may be called with conforming values. -/
def HostFunction.IsFaithful
    (s : Schema)
    (sig : Signature)
    (body : HostFunction) : Prop :=
  ∀ (host : Host) (args : List HostValue),
    host.heap.IsSound s →
    sig.Takes s args host.heap.freed →
      let r := body args host
      r.2.heap.IsSound s ∧ HandsOutFit s r.1 r.2.heap.freed

/- The place of a box holds what conforms to its tag. -/
def Box.IsCurrent
    (heap : Heap)
    (b : Box) : Prop :=
  ∃ v, (heap.content b.handle).at? b.path = some v ∧
    b.type.admits heap.freed v = true

/-
  A method that may be called, with conforming values, on an
  object that conforms to the tag of the receiver. If this
  object is a copy, the method does not put something else in
  the place that it is stored back to.
-/
def HostMethod.IsFaithful
    (s : Schema)
    (sig : Signature)
    (receiver : Box)
    (body : HostMethod) : Prop :=
  ∀ (host : Host) (h : Handle) (args : List HostValue),
    host.heap.IsSound s →
    receiver.type.admits host.heap.freed (host.heap.content h) =
      true →
    sig.Takes s args host.heap.freed →
      let r := body h args host
      r.2.heap.IsSound s ∧
      HandsOutFit s r.1 r.2.heap.freed ∧
      (receiver.isProjection = true →
        receiver.IsCurrent host.heap → ¬ receiver.IsStale r.2.heap)

/-
  Faithful host code. Boxes of places inside objects are
  boxes of records.
-/
def Target.IsFaithful
    (s : Schema)
    (sig : Signature) : Target → Prop
| .free body => body.IsFaithful s sig
| .bound body receiver =>
    body.IsFaithful s sig receiver ∧
      (receiver.isProjection = true →
        ∃ id, receiver.type = .record id)

/- A method is about to run on a stale receiver. -/
def Target.IsStale (heap : Heap) : Target → Prop
| .free _ => False
| .bound _ receiver => receiver.IsStale heap

variable {s : Schema}

/- Conforming arguments go on to conform. -/
theorem Heap.Retains.takes
    {before after : Heap}
    {sig : Signature}
    {args : List HostValue}
    (hRetains : before.Retains after)
    (hTakes : sig.Takes s args before) :
    sig.Takes s args after := by
  apply List.Forall₂.imp _ hTakes
  intro t h hDeep
  exact hRetains.admitsDeeply hDeep

/- What was handed out goes on to fit. -/
theorem Heap.Retains.handsOutFit
    {before after : Heap}
    {outputs : List HostValue}
    (hRetains : before.Retains after)
    (hOut : HandsOutFit s outputs before) :
    HandsOutFit s outputs after := by
  intro h hMem
  exact hRetains.recordsFit (hOut h hMem)

/- The place of a box inside an object is not a new object. -/
theorem Box.IsCurrent.alloc
    {heap : Heap}
    {b : Box}
    (hCurrent : b.IsCurrent heap)
    (hInside : b.isProjection = true)
    (v : HostValue) :
    b.IsCurrent (heap.alloc v).2 := by
  rcases hCurrent with ⟨u, hAt, hAdmits⟩
  have hIn := Heap.lt_size_of_at? hAt (isProjection_iff.mp hInside)
  refine ⟨u, ?_, (Heap.Retains.alloc heap v).freed.admits hAdmits⟩
  rw [Heap.content_alloc_of_lt hIn]
  exact hAt

namespace Callable

variable {w : World}

------------------------------------------------------------
-- Arguments
------------------------------------------------------------

/- Exported rows conform deeply to the parameters. -/
theorem exportRow_endsSound
    {sig : Signature}
    {row : List Value}
    (hLength : row.length = sig.arity)
    (hFaithful : ∀ v ∈ row, v.IsFaithful s)
    (hSound : w.heap.IsSound s) :
    Action.EndsSound s (exportRow s sig.params row) w
      fun args heap => sig.Takes s args heap.freed := by
  have hEach :
      Action.EndsSound s (exportRow s sig.params row) w
        fun args heap =>
          List.Forall₂
            (fun p h => p.1.AdmitsDeeply s heap.freed h)
            (sig.params.zip row) args := by
    refine Action.EndsSound.eachFrom ?_ ?_ ?_ 0 hSound
    · rintro i ⟨t, v⟩ hMem w₁ hStart
      exact (HostType.exportAs_endsSound t
        (hFaithful v (List.of_mem_zip hMem).2) hStart).mapError
    · rintro i ⟨t, v⟩ hMem
      exact (HostType.retains_exportAs
        (hFaithful v (List.of_mem_zip hMem).2).isSteady).mapError
    · intro p h before after hRetains hDeep
      exact hRetains.freed.admitsDeeply hDeep
  apply hEach.weaken
  intro args heap hAfter hArgs
  exact takes_of_row hLength hArgs

/- Arguments conform deeply to the parameters. -/
theorem marshal_endsSound
    {c : Callable}
    {left : Option Value}
    {right : Value}
    (options : Options)
    (hLeft : ∀ v, left = some v → v.IsFaithful s)
    (hRight : right.IsFaithful s)
    (hSound : w.heap.IsSound s) :
    Action.EndsSound s (c.marshal s options left right) w
      fun args heap => c.sig.Takes s args heap.freed := by
  unfold marshal
  refine Action.EndsSound.bind (.emit _ hSound) ?_
  intro u w₁ hEmit hStart hDone
  have hRow :
      Action.EndsSound s
        (Action.ofExcept (operandRow c.sig.arity left right)) w₁
        fun row _ => row.length = c.sig.arity ∧
          ∀ v ∈ row, v.IsFaithful s := by
    apply Action.EndsSound.ofExcept hStart
    intro row hOk
    rcases operandRow_eq_ok hOk with ⟨hLength, hParts⟩
    refine ⟨hLength, ?_⟩
    intro v hMem
    rcases hParts v hMem with hIsLeft | hWithin
    · exact hLeft v hIsLeft
    · exact hRight.of_within hWithin
  refine Action.EndsSound.bind hRow ?_
  rintro row w₂ hRun hMid ⟨hLength, hFaithful⟩
  refine Action.EndsSound.bind
    (exportRow_endsSound hLength hFaithful hMid) ?_
  intro args w₃ hExport hAfter hTakes
  dsimp only
  split
  · -- the trace of the arguments changes the log only
    refine Action.EndsSound.look hAfter ?_
    intro texts hLook
    have hEmit :
        Action.EndsSound s
          (Action.emit (.arguments c.name (", ".intercalate texts)))
          w₃ fun _ heap => c.sig.Takes s args heap.freed :=
      .of_heap_eq hAfter rfl fun _ _ => hTakes
    refine Action.EndsSound.bind hEmit ?_
    intro u w₄ hLog hLast hEnd
    exact Action.EndsSound.pure hLast hEnd
  · exact Action.EndsSound.pure hAfter hTakes

------------------------------------------------------------
-- Runs
------------------------------------------------------------

/-
  A copy is stored back to a place that is not stale. What
  was handed out goes on to fit.
-/
theorem storeCopy_endsSound
    {receiver : Box}
    {id : RecordId}
    {updated : HostValue}
    {outputs : List HostValue}
    (hInside : receiver.isProjection = true)
    (hType : receiver.type = .record id)
    (hCurrent : ¬ receiver.IsStale w.heap)
    (hRecord : updated.isRecordOf id = true)
    (hFit : updated.RecordsFit s w.heap.freed)
    (hOut : HandsOutFit s outputs w.heap.freed)
    (hSound : w.heap.IsSound s) :
    Action.EndsSound s
      (Action.changeHeap (receiver.write s · updated)) w
      fun _ heap => HandsOutFit s outputs heap.freed := by
  apply Action.EndsSound.changeHeap hSound
  intro heap hWrite
  rcases Box.update_eq_ok hWrite with
    ⟨old, new, hWritable, hAt, hSame, rfl⟩
  cases hSame
  have hOld := Box.admits_of_not_isStale hCurrent hAt
  rw [hType, HostType.admits_record] at hOld
  refine ⟨hSound.putAt hAt hOld hRecord hFit, ?_⟩
  have hPath := Box.isProjection_iff.mp hInside
  have hIn := Heap.lt_size_of_at? hAt hPath
  have hRetains :
      w.heap.Retains
        (w.heap.putAt receiver.handle receiver.path updated) := by
    refine .of_isRecordOf_eq ?_ (Heap.isRecordOf_putAt hPath hIn)
    intro k hReadable
    rw [Heap.isReadable_putAt]
    exact hReadable
  exact hRetains.freed.handsOutFit hOut

/-
  A method on a record inside another object. The copy holds
  a record of the receiver's type when the method starts; if
  it still does when it is done, it is stored back.
-/
theorem runOnCopy_endsSound
    {sig : Signature}
    {body : HostMethod}
    {receiver : Box}
    {id : RecordId}
    {args : List HostValue}
    (hInside : receiver.isProjection = true)
    (hType : receiver.type = .record id)
    (hFaithful : body.IsFaithful s sig receiver)
    (hCurrent : ¬ receiver.IsStale w.heap)
    (hTakes : sig.Takes s args w.heap.freed)
    (hSound : w.heap.IsSound s) :
    Action.EndsSound s (runOnCopy s body receiver args) w
      fun outputs heap => HandsOutFit s outputs heap.freed := by
  refine Action.EndsSound.look hSound ?_
  intro content hRead
  have hAt := (Box.read_eq_ok_iff.mp hRead).2
  have hTag := Box.admits_of_not_isStale hCurrent hAt
  have hContent := (hSound receiver.handle).at? hAt
  -- the method runs on a fresh object with this content
  have hAlloc :
      Action.EndsSound s (Action.onHost (·.alloc content)) w
        fun _ _ => True :=
    ⟨hSound.alloc hContent, fun _ _ => trivial⟩
  refine Action.EndsSound.bind hAlloc ?_
  intro scratch w₂ hRun hStart hDone
  have hRetains : w.heap.Retains w₂.heap := by
    cases hRun
    exact .alloc w.heap content
  have hScratch : w₂.heap.content scratch = content := by
    cases hRun
    exact Heap.content_alloc_next w.heap content
  have hPlace : receiver.IsCurrent w₂.heap := by
    cases hRun
    exact .alloc ⟨content, hAt, hTag⟩ hInside content
  rcases hFaithful w₂.host scratch args hStart
      (hScratch ▸ hRetains.freed.admits hTag)
      (hRetains.freed.takes hTakes) with
    ⟨hAfter, hOut, hKeeps⟩
  have hBody :
      Action.EndsSound s (Action.onHost (body scratch args)) w₂
        fun outputs heap => HandsOutFit s outputs heap.freed ∧
          ¬ receiver.IsStale heap := by
    refine ⟨hAfter, ?_⟩
    intro outputs hOk
    cases hOk
    exact ⟨hOut, hKeeps hInside hPlace⟩
  refine Action.EndsSound.bind hBody ?_
  rintro outputs w₃ hRun hEnd ⟨hOutputs, hStill⟩
  refine Action.EndsSound.look hEnd ?_
  intro updated hOk
  have hBack : updated.isRecordOf id = true ∧
      updated.RecordsFit s w₃.heap.freed := by
    split at hOk
    · cases hOk
    · rename_i v hCopy
      split at hOk
      · rename_i hAdmits
        cases hOk
        rw [hType, HostType.admits_record] at hAdmits
        rw [← Heap.content_of_read? hCopy] at hAdmits ⊢
        exact ⟨hAdmits, hEnd scratch⟩
      · cases hOk
  refine Action.EndsSound.bind
    (storeCopy_endsSound hInside hType hStill hBack.1 hBack.2
      hOutputs hEnd) ?_
  intro u w₅ hRun hLast hFinal
  exact Action.EndsSound.pure hLast hFinal

/- Faithful host code hands out what fits. -/
theorem runTarget_endsSound
    {sig : Signature}
    {target : Target}
    {args : List HostValue}
    (hFaithful : target.IsFaithful s sig)
    (hCurrent : ¬ target.IsStale w.heap)
    (hTakes : sig.Takes s args w.heap.freed)
    (hSound : w.heap.IsSound s) :
    Action.EndsSound s (runTarget s target args) w
      fun outputs heap => HandsOutFit s outputs heap.freed := by
  cases target with
  | free body =>
      rcases hFaithful w.host args hSound hTakes with ⟨hAfter, hOut⟩
      refine ⟨hAfter, ?_⟩
      intro outputs hOk
      cases hOk
      exact hOut
  | bound body receiver =>
      rcases hFaithful with ⟨hBody, hInner⟩
      simp only [runTarget]
      split
      · rename_i hInside
        rcases hInner hInside with ⟨id, hType⟩
        exact runOnCopy_endsSound hInside hType hBody hCurrent
          hTakes hSound
      · rename_i hWhole
        have hPath : receiver.path = [] := by
          simpa [Box.isProjection] using hWhole
        have hAt :
            (w.heap.content receiver.handle).at? receiver.path =
              some (w.heap.content receiver.handle) := by
          rw [hPath]
          rfl
        rcases hBody w.host receiver.handle args hSound
            (Box.admits_of_not_isStale hCurrent hAt) hTakes with
          ⟨hAfter, hOut, hKeeps⟩
        refine ⟨hAfter, ?_⟩
        intro outputs hOk
        cases hOk
        exact hOut

------------------------------------------------------------
-- Results
------------------------------------------------------------

/- The error slot is dropped, or the call fails. -/
theorem settle_endsSound
    {c : Callable}
    {outputs : List HostValue}
    (hOut : HandsOutFit s outputs w.heap.freed)
    (hSound : w.heap.IsSound s) :
    Action.EndsSound s (c.settle outputs) w
      fun results heap => HandsOutFit s results heap.freed := by
  unfold settle
  split
  · cases hLast : outputs.getLast? with
    | none => exact Action.EndsSound.fail hSound
    | some v =>
        cases v with
        | error fault =>
            cases fault with
            | none =>
                apply Action.EndsSound.pure hSound
                intro h hMem
                exact hOut h (List.dropLast_subset outputs hMem)
            | some fault =>
                refine Action.EndsSound.bind (.emit _ hSound) ?_
                intro u w₁ hRun hSame hDone
                exact Action.EndsSound.fail hSame
        | _ => exact Action.EndsSound.fail hSound
  · exact Action.EndsSound.pure hSound hOut

/- Results are imported into boxes that conform. -/
theorem unmarshal_endsSound
    {c : Callable}
    {outputs : List HostValue}
    (hOut : HandsOutFit s outputs w.heap.freed)
    (hSound : w.heap.IsSound s) :
    Action.EndsSound s (c.unmarshal s outputs) w
      fun v heap => v.Conforms heap := by
  unfold unmarshal
  split
  · refine Action.EndsSound.bind (settle_endsSound hOut hSound) ?_
    intro results w₁ hSettle hStart hFit
    have hImport :
        Action.EndsSound s
          (Action.onHeap (importOutputs s c.sig.returns results)) w₁
          fun values heap =>
            ∀ v ∈ values, v.IsTyped s heap.freed := by
      refine HostType.Import.endsSound
        (fun (values : List Value) heap =>
          ∀ v ∈ values, v.IsTyped s heap)
        ?_ hStart ?_
      · apply HostType.Import.GoesFreed.eachFrom
        intro i p hMem
        exact HostType.importAs_goesFreed p.1 p.2
      · intro values heap hRun
        exact importOutputs_isSound hStart.wellTyped hFit hRun
    refine Action.EndsSound.bind hImport ?_
    intro values w₂ hRun hAfter hTyped
    apply Action.EndsSound.pure hAfter
    exact (isTyped_gather hTyped).conforms
  · exact Action.EndsSound.fail hSound

------------------------------------------------------------
-- Calls
------------------------------------------------------------

/-
  A call of faithful host code ends soundly, unless there is
  a receiver and it is stale when the arguments are ready.
-/
theorem call_endsSound
    {c : Callable}
    {left : Option Value}
    {right : Value}
    {options : Options}
    (hLeft : ∀ v, left = some v → v.IsFaithful s)
    (hRight : right.IsFaithful s)
    (hFaithful : c.target.IsFaithful s c.sig)
    (hCurrent :
      ¬ c.target.IsStale (c.marshal s options left right w).2.heap)
    (hSound : w.heap.IsSound s) :
    Action.EndsSound s (c.call s options left right) w
      fun v heap => v.Conforms heap := by
  refine Action.EndsSound.bind
    (marshal_endsSound options hLeft hRight hSound) ?_
  intro args w₁ hRun hStart hTakes
  rw [hRun] at hCurrent
  refine Action.EndsSound.bind
    (runTarget_endsSound hFaithful hCurrent hTakes hStart) ?_
  intro outputs w₂ hRun hMid hOut
  exact unmarshal_endsSound hOut hMid

end Callable

end Interop
