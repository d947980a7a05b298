import Interop.Call
import Interop.Proofs.Aliasing
import Interop.Proofs.Convert.Import
import Interop.Proofs.Plane
import Interop.Proofs.Typing.Conformance

/-
  Methods on records inside other objects. Such a method
  runs on a copy of its receiver, which is stored back. It
  ends as it does on an object of its own, and the record
  inside becomes what that object becomes.

  Main declarations:
    * `HostMethod.IsConfined`
    * `Callable.unmarshal_store`
    * `Callable.invoke_projection`
-/

namespace Interop

------------------------------------------------------------
-- Confined Methods
------------------------------------------------------------

/-
  A method changes no object that was there before but its
  receiver, and gives its receiver back. It may add objects
  and change these as it likes, and change the rest of the
  host.
-/
def HostMethod.IsConfined (body : HostMethod) : Prop :=
  ∀ (host : Host) (h : Handle) (args : List HostValue),
    h.index < host.heap.size →
    host.heap.loan h = .readers 0 →
      let after := (body h args host).2.heap
      host.heap.size ≤ after.size ∧
        after.loan h = .readers 0 ∧
        ∀ k : Handle, k.index < host.heap.size → k ≠ h →
          after.cell k = host.heap.cell k

/-
  Run on a fresh object, a confined method only adds objects
  to those that were there before, the receiver among them.
-/
theorem HostMethod.IsConfined.run_on_fresh
    {body : HostMethod}
    (hConfined : body.IsConfined)
    (host : Host)
    (v : HostValue)
    (args : List HostValue) :
    let after := (body host.heap.next args (host.alloc v).2).2.heap
    host.heap.cells <+: after.cells ∧
      host.heap.next.index < after.size ∧
      after.loan host.heap.next = .readers 0 := by
  intro after
  let start : Heap := (host.heap.alloc v).2
  have hGrown : start.size = host.heap.size + 1 :=
    Heap.size_alloc host.heap v
  have hScratch : host.heap.next.index < start.size := by
    rw [hGrown]
    exact Nat.lt_succ_self host.heap.size
  have hFree : start.loan host.heap.next = .readers 0 := by
    simp [start, Heap.loan, Heap.cell_alloc_next, Cell.free]
  rcases hConfined (host.alloc v).2 host.heap.next args hScratch
      hFree with
    ⟨hSize, hLoan, hOthers⟩
  refine ⟨?_, Nat.lt_of_lt_of_le hScratch hSize, hLoan⟩
  have hLe : start.size ≤ after.size := hSize
  apply Heap.prefix_of_cell_eq
  · omega
  · intro k hOld
    have hNe : k ≠ host.heap.next := by
      intro hEq
      rw [hEq] at hOld
      exact Nat.lt_irrefl _ hOld
    have hOldToo : k.index < start.size := by omega
    rw [hOthers k hOldToo hNe]
    exact Heap.cell_alloc_of_lt hOld

------------------------------------------------------------
-- Importing Results
------------------------------------------------------------

namespace HostType.Import.IsLocal

variable {α : Type}
variable {x : StateT Heap (Except Error) α}

/- As an action, a local import adds objects only. -/
theorem onHeap_adds
    (hLocal : IsLocal x)
    (w : World) :
    w.heap.cells <+: (Action.onHeap x w).2.heap.cells := by
  cases hRun : x w.heap with
  | error e => simp [Action.onHeap_of_error hRun]
  | ok found =>
      rw [Action.onHeap_of_ok hRun]
      exact hLocal.adds hRun

/- It may run before or after a record is replaced. -/
theorem onHeap_store
    (hLocal : IsLocal x)
    {w : World}
    {h : Handle}
    {new : HostValue}
    (hIn : h.index < w.heap.size)
    (hKind :
      ∀ id, new.isRecordOf id = (w.heap.content h).isRecordOf id) :
    Action.onHeap x (w.withHeap (w.heap.store h new)) =
      ((Action.onHeap x w).1,
        (Action.onHeap x w).2.withHeap
          ((Action.onHeap x w).2.heap.store h new)) := by
  have hStore := hLocal.store hIn hKind
  cases hRun : x w.heap with
  | error e =>
      rw [hRun] at hStore
      rw [Action.onHeap_of_error hRun,
        Action.onHeap_of_error hStore]
  | ok found =>
      rw [hRun] at hStore
      rw [Action.onHeap_of_ok hRun, Action.onHeap_of_ok hStore]
      rfl

end HostType.Import.IsLocal

namespace Callable

variable {s : Schema} {c : Callable}
variable {outputs : List HostValue}

/-
  The error slot is read without looking at the world, and
  reading it changes the log only.
-/
theorem settle_logs
    (c : Callable)
    (outputs : List HostValue) :
    ∃ (r : Except Error (List HostValue)) (more : List Event),
      ∀ w, c.settle outputs w =
        (r, { w with log := w.log ++ more }) := by
  have hQuiet : ∀ r : Except Error (List HostValue),
      ∃ r' more, ∀ w : World,
        (r, w) = (r', { w with log := w.log ++ more }) := by
    intro r
    exact ⟨r, [], fun w => by simp⟩
  unfold settle
  split
  · cases hLast : outputs.getLast? with
    | none => exact hQuiet _
    | some v =>
        cases v with
        | error fault =>
            cases fault with
            | none => exact hQuiet _
            | some fault => exact ⟨_, [_], fun w => rfl⟩
        | _ => exact hQuiet _
  · exact hQuiet _

/- The results of a call are imported as values are. -/
theorem importOutputs_isLocal
    (returns : List HostType)
    (outputs : List HostValue) :
    HostType.Import.IsLocal
      (importOutputs s returns outputs) := by
  apply HostType.Import.IsLocal.eachFrom
  intro i p hMem
  exact HostType.importAs_isLocal p.1 p.2

/-
  What follows a run of host code: events, and one import.
-/
theorem unmarshal_eq_onHeap
    (s : Schema)
    (c : Callable)
    (outputs : List HostValue) :
    ∃ (x : HostType.Import Value) (more : List Event),
      HostType.Import.IsLocal x ∧
        ∀ w, c.unmarshal s outputs w =
          Action.onHeap x { w with log := w.log ++ more } := by
  unfold unmarshal
  split
  · rcases settle_logs c outputs with ⟨r, more, hSettle⟩
    cases r with
    | error e =>
        refine ⟨fun heap => .error e, more, ?_, ?_⟩
        · exact .of_const (.error e) fun heap => rfl
        · intro w
          rw [Action.bind_apply, hSettle]
          rfl
    | ok results =>
        refine ⟨do
          let values ← importOutputs s c.sig.returns results
          pure (gather values), more, ?_, ?_⟩
        · refine .bind (importOutputs_isLocal _ _) ?_
          intro values
          exact .of_const (.ok (gather values)) fun heap => rfl
        · intro w
          rw [Action.bind_apply, hSettle]
          exact Action.onHeap_map gather _ _
  · let e : Error :=
      .returnMismatch c.name c.sig.outputSlots outputs.length
    refine ⟨fun heap => .error e, [], ?_, ?_⟩
    · exact .of_const (.error e) fun heap => rfl
    · intro w
      simp [Action.onHeap, e]

/-
  Results are imported into the objects there are. Importing
  adds objects only.
-/
theorem unmarshal_adds
    (c : Callable)
    (outputs : List HostValue)
    (w : World) :
    w.heap.cells <+: (c.unmarshal s outputs w).2.heap.cells := by
  rcases unmarshal_eq_onHeap s c outputs with
    ⟨x, more, hLocal, hEq⟩
  rw [hEq]
  exact hLocal.onHeap_adds { w with log := w.log ++ more }

/- An object that nobody has stays as the run has left it. -/
theorem read_unmarshal
    {w : World}
    {h : Handle}
    {t : HostType}
    (hIn : h.index < w.heap.size)
    (hLoan : w.heap.loan h = .readers 0) :
    let last := (c.unmarshal s outputs w).2.heap
    last.content h = w.heap.content h ∧
      (Box.whole h t).read s last = .ok (last.content h) := by
  intro last
  have hAdds : w.heap.cells <+: last.cells :=
    unmarshal_adds c outputs w
  refine ⟨Heap.content_of_isPrefix hAdds hIn, ?_⟩
  apply Box.read_eq_ok_iff.mpr
  refine ⟨?_, rfl⟩
  simp [Box.whole, Heap.isReadable,
    Heap.loan_of_isPrefix hAdds hIn, hLoan]

/-
  Storing another record of one type before the results are
  imported does not change what they are.
-/
theorem unmarshal_store
    {w : World}
    {h : Handle}
    {new : HostValue}
    (hIn : h.index < w.heap.size)
    (hKind :
      ∀ id, new.isRecordOf id = (w.heap.content h).isRecordOf id) :
    c.unmarshal s outputs (w.withHeap (w.heap.store h new)) =
      ((c.unmarshal s outputs w).1,
        (c.unmarshal s outputs w).2.withHeap
          ((c.unmarshal s outputs w).2.heap.store h new)) := by
  rcases unmarshal_eq_onHeap s c outputs with
    ⟨x, more, hLocal, hEq⟩
  rw [hEq, hEq]
  let logged : World := { w with log := w.log ++ more }
  exact hLocal.onHeap_store (w := logged) hIn hKind

------------------------------------------------------------
-- Running on a Copy
------------------------------------------------------------

section

variable {body : HostMethod} {b : Box} {id : RecordId}
variable {r : HostValue} {args : List HostValue} {w : World}

/-
  A receiver inside another object has the method run on a
  copy. What the copy has become is stored back, if it still
  has the type of the receiver.
-/
theorem runOnCopy_eq
    {ran : World}
    (hRead : b.read s w.heap = .ok r)
    (hRan :
      Action.onHost (body w.heap.next args)
        (w.withHeap (w.heap.alloc r).2) = (.ok outputs, ran))
    (hLoan : ran.heap.loan w.heap.next = .readers 0) :
    runOnCopy s body b args w =
      if b.type.admits ran.heap
          (ran.heap.content w.heap.next) then
        (do
          Action.changeHeap
            (b.write s · (ran.heap.content w.heap.next))
          pure outputs) ran
      else
        (.error
          (.conversion
            ("host " ++ (ran.heap.content w.heap.next).kindName)
            (b.type.text s)), ran) := by
  have hBack :
      ran.heap.read? w.heap.next =
        some (ran.heap.content w.heap.next) := by
    simp [Heap.read?, Heap.isReadable, hLoan]
  have hAlloc :
      Action.onHost (·.alloc r) w =
        (.ok w.heap.next, w.withHeap (w.heap.alloc r).2) := rfl
  simp only [runOnCopy, Action.bind_apply, Action.fromHeap_apply,
    hRead, hAlloc, hRan, hBack]
  by_cases hFits :
      b.type.admits ran.heap (ran.heap.content w.heap.next) = true
  · simp only [hFits, if_true]
  · simp only [hFits, if_false, Bool.false_eq_true]

/-
  The call fails after the run when what the copy has become
  does not fit the receiver.
-/
theorem invoke_of_misfit
    {ran : World}
    {name : String}
    {sig : Signature}
    (hInside : b.isProjection = true)
    (hTag : b.type = .record id)
    (hRead : b.read s w.heap = .ok r)
    (hRan :
      Action.onHost (body w.heap.next args)
        (w.withHeap (w.heap.alloc r).2) = (.ok outputs, ran))
    (hLoan : ran.heap.loan w.heap.next = .readers 0)
    (hMisfit :
      (ran.heap.content w.heap.next).isRecordOf id = false) :
    invoke s ⟨name, sig, .bound body b⟩ args w =
      (.error
        (.conversion
          ("host " ++ (ran.heap.content w.heap.next).kindName)
          ((HostType.record id).text s)), ran) := by
  have hFailed := runOnCopy_eq hRead hRan hLoan
  rw [hTag, HostType.admits_record, if_neg (by simp [hMisfit])]
    at hFailed
  simp only [invoke, runTarget, hInside, if_true,
    Action.bind_apply, hFailed]

/-
  When it fits, the results are imported as they are after
  the run, and it fills the receiver's place: importing adds
  objects, so the place may as well be filled at the end.
-/
theorem invoke_of_fits
    {ran : World}
    {name : String}
    {sig : Signature}
    (hInside : b.isProjection = true)
    (hTag : b.type = .record id)
    (hRead : b.read s w.heap = .ok r)
    (hWritable : w.heap.isWritable b.handle = true)
    (hRan :
      Action.onHost (body w.heap.next args)
        (w.withHeap (w.heap.alloc r).2) = (.ok outputs, ran))
    (hLoan : ran.heap.loan w.heap.next = .readers 0)
    (hKept : w.heap.cells <+: ran.heap.cells)
    (hLive : b.handle.index < w.heap.size)
    (hFits :
      (ran.heap.content w.heap.next).isRecordOf id = true) :
    let c : Callable := ⟨name, sig, .bound body b⟩
    let done := (c.unmarshal s outputs ran).2
    invoke s c args w =
      ((c.unmarshal s outputs ran).1,
        done.withHeap
          (done.heap.putAt b.handle b.path
            (ran.heap.content w.heap.next))) := by
  intro c done
  have hFree : ran.heap.isWritable b.handle = true := by
    rw [Heap.isWritable, Heap.loan_of_isPrefix hKept hLive]
    exact hWritable
  have hAt : (ran.heap.content b.handle).at? b.path = some r := by
    rw [Heap.content_of_isPrefix hKept hLive]
    exact (Box.read_eq_ok_iff.mp hRead).2
  have hLiveRan : b.handle.index < ran.heap.size :=
    Nat.lt_of_lt_of_le hLive hKept.length_le
  have hWrite :
      b.write s ran.heap (ran.heap.content w.heap.next) =
        .ok (ran.heap.putAt b.handle b.path
          (ran.heap.content w.heap.next)) :=
    Box.update_of_at? hFree hAt rfl
  have hStored := runOnCopy_eq hRead hRan hLoan
  rw [hTag, HostType.admits_record, if_pos hFits,
    Action.bind_apply, Action.changeHeap_of_ok hWrite] at hStored
  have hPath : b.path ≠ [] := by
    simpa [Box.isProjection] using hInside
  have hAdds : ran.heap.cells <+: done.heap.cells :=
    unmarshal_adds c outputs ran
  rw [Heap.putAt, Heap.content_of_isPrefix hAdds hLiveRan]
  simp only [c, invoke, runTarget, hInside, if_true,
    Action.bind_apply, hStored]
  exact unmarshal_store hLiveRan
    (HostValue.isRecordOf_replaceAt hPath _ _)

/-
  A method called on a record inside another object ends as
  it does on an object of its own that holds a copy of the
  record: with the same result or the same failure. If what
  that object holds in the end is still of the receiver's
  type, it replaces the record in its place, and nothing
  else changes but for objects that are new. Otherwise the
  call fails and no object that was there before changes.

  What the method reads does not matter, since it finds the
  same objects in both calls.
-/
theorem invoke_projection
    (name : String)
    (sig : Signature)
    (args : List HostValue)
    (hInside : b.isProjection = true)
    (hTag : b.type = .record id)
    (hRead : b.read s w.heap = .ok r)
    (hWritable : w.heap.isWritable b.handle = true)
    (hConfined : body.IsConfined) :
    let own := Box.whole w.heap.next (.record id)
    let alone :=
      invoke s ⟨name, sig, .bound body own⟩ args
        (w.withHeap (w.heap.alloc r).2)
    let inside := invoke s ⟨name, sig, .bound body b⟩ args w
    let last := alone.2.heap
    let r' := last.content w.heap.next
    w.heap.cells <+: last.cells ∧
    own.read s last = .ok r' ∧
    (r'.isRecordOf id = true →
      inside =
        (alone.1,
          alone.2.withHeap (last.putAt b.handle b.path r')) ∧
      last.SlotChange s inside.2.heap b.handle b.path r') ∧
    (r'.isRecordOf id = false →
      inside.1 =
        .error
          (.conversion ("host " ++ r'.kindName)
            ((HostType.record id).text s)) ∧
      w.heap.cells <+: inside.2.heap.cells) := by
  intro own alone inside last r'
  let start := w.withHeap (w.heap.alloc r).2
  let outputs := (body w.heap.next args start.host).1
  let ran : World :=
    { start with host := (body w.heap.next args start.host).2 }
  have hRan :
      Action.onHost (body w.heap.next args) start =
        (.ok outputs, ran) := rfl
  have hAlone :
      alone =
        unmarshal s ⟨name, sig, .bound body b⟩ outputs ran := rfl
  rcases hConfined.run_on_fresh w.host r args with
    ⟨hKept, hIn, hLoan⟩
  have hAdds : ran.heap.cells <+: last.cells := by
    rw [show last = alone.2.heap from rfl, hAlone]
    exact unmarshal_adds _ _ _
  have hEnd : r' = ran.heap.content w.heap.next :=
    (read_unmarshal (s := s) (t := .record id) hIn hLoan).1
  have hOwn : own.read s last = .ok r' :=
    (read_unmarshal hIn hLoan).2
  have hGrown : w.heap.cells <+: last.cells := hKept.trans hAdds
  refine ⟨hGrown, hOwn, ?_, ?_⟩
  · intro hFits
    rw [hEnd] at hFits
    have hPath : b.path ≠ [] := by
      simpa [Box.isProjection] using hInside
    have hLive : b.handle.index < w.heap.size :=
      Heap.lt_size_of_at? (Box.read_eq_ok_iff.mp hRead).2 hPath
    have hCalled :
        inside =
          (alone.1,
            alone.2.withHeap (last.putAt b.handle b.path r')) := by
      rw [hEnd, show last = alone.2.heap from rfl, hAlone]
      exact invoke_of_fits hInside hTag hRead hWritable hRan hLoan
        hKept hLive hFits
    refine ⟨hCalled, ?_⟩
    rw [hCalled]
    exact Heap.slotChange_of_isPrefix hGrown hLive hRead r'
  · intro hMisfit
    rw [hEnd] at hMisfit ⊢
    have hCalled :
        inside =
          (.error
            (.conversion
              ("host " ++
                (ran.heap.content w.heap.next).kindName)
              ((HostType.record id).text s)), ran) :=
      invoke_of_misfit hInside hTag hRead hRan hLoan hMisfit
    rw [hCalled]
    exact ⟨rfl, hKept⟩

/- Transposing the finish of a segment is seen on it. -/
theorem invoke_projection_plane :
    HostMethod.transpose.IsConfined ∧
    ∃ w',
      invoke .plane
        ⟨"Point.Transpose", ⟨[], [.int .i64], false⟩,
          .bound .transpose .finish⟩ [] .withSegment =
        (.ok (.int 3), w') ∧
      Box.segment.read .plane w'.heap =
        .ok (.record ⟨1⟩ [.point 1 2, .point 4 3]) := by
  have hConfined : HostMethod.transpose.IsConfined := by
    intro host h args hIn hLoan
    simp only [HostMethod.transpose]
    split
    · refine ⟨?_, ?_, ?_⟩
      · simp
      · simp [hLoan]
      · intro k hOld hNe
        exact Heap.cell_store_of_ne hNe
    · exact ⟨Nat.le_refl _, hLoan, fun k hOld hNe => rfl⟩
  rcases invoke_projection "Point.Transpose"
      ⟨[], [.int .i64], false⟩ []
      (s := .plane) (b := .finish) (r := .point 3 4)
      (w := .withSegment) rfl rfl rfl rfl hConfined with
    ⟨hGrown, hOwn, hFits, hMisfit⟩
  rcases hFits rfl with ⟨hCalled, hChange⟩
  exact ⟨hConfined, _, hCalled,
    hChange.above Box.segment [1] rfl rfl⟩

end

end Callable

end Interop
