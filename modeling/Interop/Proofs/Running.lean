import Interop.Call
import Interop.Proofs.Action

/-
  How a run of host code ends. Code that runs on the host as
  it is always hands back outputs. A method on a record inside
  another object runs on a copy of the record, and hands back
  outputs only if the copy is stored back; what may go wrong
  with the copy is all that makes a run fail.

  Both ends are described apart from the run, and a run has
  an end exactly if the description has it.

  Main declarations:
    * `HostFunction.ranIn`
    * `HostMethod.ranOnCopy`
    * `Callable.CopyFails`
    * `Callable.CopyStored`
    * `Callable.HandsBack`
    * `Callable.runOnCopy_eq_error_iff`
    * `Callable.runOnCopy_eq_ok_iff`
    * `Callable.runTarget_eq_error_iff`
    * `Callable.runTarget_eq_ok_iff`
-/

namespace Interop

------------------------------------------------------------
-- Host Code in a World
------------------------------------------------------------

/- What host code hands back, and the world that it leaves. -/
def HostFunction.ranIn
    (body : HostFunction)
    (args : List HostValue)
    (w : World) : List HostValue × World :=
  let ended := body args w.host
  (ended.1, { w with host := ended.2 })

/- The same of a method on a fresh object with a content. -/
def HostMethod.ranOnCopy
    (body : HostMethod)
    (args : List HostValue)
    (content : HostValue)
    (w : World) : List HostValue × World :=
  let copied := w.withHeap (w.heap.alloc content).2
  HostFunction.ranIn (body w.heap.next) args copied

namespace Callable

variable {s : Schema} {body : HostMethod} {b : Box}
variable {args outputs : List HostValue}
variable {w w' : World} {e : Error}

------------------------------------------------------------
-- Runs on a Copy
------------------------------------------------------------

/-
  How a method on a record inside another object may fail,
  and in which world: the record cannot be read, or after the
  run the copy is lent to a writer, is no record that fits
  the receiver, or fits but cannot be stored back.
-/
inductive CopyFails
    (s : Schema)
    (body : HostMethod)
    (b : Box)
    (args : List HostValue)
    (w : World) : Error → World → Prop where
| unread
    {e : Error}
    (hRead : b.read s w.heap = .error e) :
    CopyFails s body b args w e w
| lent
    {content : HostValue}
    {outputs : List HostValue}
    {ran : World}
    (hRead : b.read s w.heap = .ok content)
    (hRan : body.ranOnCopy args content w = (outputs, ran))
    (hLent : ran.heap.read? w.heap.next = none) :
    CopyFails s body b args w (.borrowed (b.type.text s)) ran
| misfit
    {content updated : HostValue}
    {outputs : List HostValue}
    {ran : World}
    (hRead : b.read s w.heap = .ok content)
    (hRan : body.ranOnCopy args content w = (outputs, ran))
    (hBack : ran.heap.read? w.heap.next = some updated)
    (hMisfit : b.type.admits ran.heap updated = false) :
    CopyFails s body b args w
      (.conversion ("host " ++ updated.kindName)
        (b.type.text s))
      ran
| unwritten
    {content updated : HostValue}
    {outputs : List HostValue}
    {ran : World}
    {e : Error}
    (hRead : b.read s w.heap = .ok content)
    (hRan : body.ranOnCopy args content w = (outputs, ran))
    (hBack : ran.heap.read? w.heap.next = some updated)
    (hFits : b.type.admits ran.heap updated = true)
    (hWrite : b.write s ran.heap updated = .error e) :
    CopyFails s body b args w e ran

/-
  How such a method hands back outputs: after the run the
  copy may be read, fits the receiver, and is stored back.
-/
inductive CopyStored
    (s : Schema)
    (body : HostMethod)
    (b : Box)
    (args : List HostValue)
    (w : World) : List HostValue → World → Prop where
| stored
    {content updated : HostValue}
    {outputs : List HostValue}
    {ran : World}
    {heap : Heap}
    (hRead : b.read s w.heap = .ok content)
    (hRan : body.ranOnCopy args content w = (outputs, ran))
    (hBack : ran.heap.read? w.heap.next = some updated)
    (hFits : b.type.admits ran.heap updated = true)
    (hWrite : b.write s ran.heap updated = .ok heap) :
    CopyStored s body b args w outputs (ran.withHeap heap)

/-
  A run on a copy comes to what is done after the method, if
  there is something to copy.
-/
theorem runOnCopy_of_read
    {content : HostValue}
    {ran : World}
    {rest : Handle → List HostValue → Action (List HostValue)}
    (hRead : b.read s w.heap = .ok content)
    (hRan : body.ranOnCopy args content w = (outputs, ran)) :
    (do
      let content ← Action.fromHeap (b.read s ·)
      let scratch ← Action.onHost (·.alloc content)
      let outputs ← Action.onHost (body scratch args)
      rest scratch outputs) w =
      rest w.heap.next outputs ran := by
  -- neither the copying nor the method itself can fail
  have hCopied :
      Action.onHost (·.alloc content) w =
        (.ok w.heap.next, w.withHeap (w.heap.alloc content).2) :=
    rfl
  have hEnded :
      Action.onHost (body w.heap.next args)
          (w.withHeap (w.heap.alloc content).2) =
        (.ok (body.ranOnCopy args content w).1,
          (body.ranOnCopy args content w).2) := rfl
  rw [hRan] at hEnded
  simp only [Action.bind_apply, Action.fromHeap_apply, hRead,
    hCopied, hEnded]

/- A run with a copy that fails so ends so. -/
theorem CopyFails.run
    (hFails : CopyFails s body b args w e w') :
    runOnCopy s body b args w = (.error e, w') := by
  cases hFails with
  | unread hRead =>
      simp only [runOnCopy, Action.bind_apply,
        Action.fromHeap_apply, hRead]
  | lent hRead hRan hLent =>
      rw [runOnCopy, runOnCopy_of_read hRead hRan]
      simp only [Action.bind_apply, Action.fromHeap_apply, hLent]
  | misfit hRead hRan hBack hMisfit =>
      rw [runOnCopy, runOnCopy_of_read hRead hRan]
      simp only [Action.bind_apply, Action.fromHeap_apply, hBack,
        hMisfit, if_false, Bool.false_eq_true]
  | unwritten hRead hRan hBack hFits hWrite =>
      rename_i content updated outputs
      have hStore :
          Action.changeHeap (b.write s · updated) w' =
            (.error e, w') :=
        Action.changeHeap_of_error hWrite
      rw [runOnCopy, runOnCopy_of_read hRead hRan]
      simp only [Action.bind_apply, Action.fromHeap_apply, hBack,
        hFits, if_true, hStore]

/- So does one with a copy that is stored back. -/
theorem CopyStored.run
    (hStored : CopyStored s body b args w outputs w') :
    runOnCopy s body b args w = (.ok outputs, w') := by
  cases hStored with
  | stored hRead hRan hBack hFits hWrite =>
      rename_i content updated ran heap
      have hStore :
          Action.changeHeap (b.write s · updated) ran =
            (.ok (), ran.withHeap heap) :=
        Action.changeHeap_of_ok hWrite
      rw [runOnCopy, runOnCopy_of_read hRead hRan]
      simp only [Action.bind_apply, Action.fromHeap_apply, hBack,
        hFits, if_true, hStore, Action.pure_apply]

/- There is no other end: each question has two answers. -/
theorem copyFails_or_copyStored
    (s : Schema)
    (body : HostMethod)
    (b : Box)
    (args : List HostValue)
    (w : World) :
    (∃ e w', CopyFails s body b args w e w') ∨
      ∃ outputs w', CopyStored s body b args w outputs w' := by
  cases hRead : b.read s w.heap with
  | error e => exact .inl ⟨e, w, .unread hRead⟩
  | ok content =>
      rcases hRan : body.ranOnCopy args content w with
        ⟨outputs, ran⟩
      cases hBack : ran.heap.read? w.heap.next with
      | none => exact .inl ⟨_, _, .lent hRead hRan hBack⟩
      | some updated =>
          cases hFits : b.type.admits ran.heap updated with
          | false =>
              exact .inl ⟨_, _, .misfit hRead hRan hBack hFits⟩
          | true =>
              cases hWrite : b.write s ran.heap updated with
              | error e =>
                  exact .inl
                    ⟨e, ran, .unwritten hRead hRan hBack hFits
                      hWrite⟩
              | ok heap =>
                  exact .inr
                    ⟨outputs, _, .stored hRead hRan hBack hFits
                      hWrite⟩

/- A run on a copy fails exactly as the copy does. -/
theorem runOnCopy_eq_error_iff :
    runOnCopy s body b args w = (.error e, w') ↔
      CopyFails s body b args w e w' := by
  refine ⟨?_, CopyFails.run⟩
  intro hRun
  -- the run has the end that it is described to have, so no other
  rcases copyFails_or_copyStored s body b args w with
    ⟨e', w₁, hFails⟩ | ⟨outputs, w₁, hStored⟩
  · cases hRun.symm.trans hFails.run
    exact hFails
  · cases hRun.symm.trans hStored.run

/- It hands back outputs exactly if the copy is stored back. -/
theorem runOnCopy_eq_ok_iff :
    runOnCopy s body b args w = (.ok outputs, w') ↔
      CopyStored s body b args w outputs w' := by
  refine ⟨?_, CopyStored.run⟩
  intro hRun
  rcases copyFails_or_copyStored s body b args w with
    ⟨e, w₁, hFails⟩ | ⟨outputs', w₁, hStored⟩
  · cases hRun.symm.trans hFails.run
  · cases hRun.symm.trans hStored.run
    exact hStored

------------------------------------------------------------
-- Runs of Host Code
------------------------------------------------------------

variable {target : Target}

/-
  What host code of each kind hands back, and in which world:
  a free function and a method on an object of its own what
  they give, a method on a record inside another object what
  it gives if the copy is stored back.
-/
inductive HandsBack
    (s : Schema)
    (args : List HostValue)
    (w : World) :
    Target → List HostValue → World → Prop where
| free
    {body : HostFunction}
    {outputs : List HostValue}
    {ran : World}
    (hRan : body.ranIn args w = (outputs, ran)) :
    HandsBack s args w (.free body) outputs ran
| whole
    {body : HostMethod}
    {b : Box}
    {outputs : List HostValue}
    {ran : World}
    (hWhole : b.isProjection = false)
    (hRan :
      HostFunction.ranIn (body b.handle) args w =
        (outputs, ran)) :
    HandsBack s args w (.bound body b) outputs ran
| copy
    {body : HostMethod}
    {b : Box}
    {outputs : List HostValue}
    {last : World}
    (hInside : b.isProjection = true)
    (hStored : CopyStored s body b args w outputs last) :
    HandsBack s args w (.bound body b) outputs last

/- Code on the host as it is ends in the world it leaves. -/
theorem onHost_eq_ranIn
    (body : HostFunction)
    (args : List HostValue)
    (w : World) :
    Action.onHost (body args) w =
      (.ok (body.ranIn args w).1, (body.ranIn args w).2) := rfl

/- A run fails exactly if it is on a copy that fails so. -/
theorem runTarget_eq_error_iff :
    runTarget s target args w = (.error e, w') ↔
      ∃ body b, target = .bound body b ∧
        b.isProjection = true ∧
        CopyFails s body b args w e w' := by
  cases target with
  | free body =>
      refine iff_of_false (fun hRun => by cases hRun) ?_
      rintro ⟨own, b, hTarget, -⟩
      cases hTarget
  | bound body b =>
      simp only [runTarget]
      cases hInside : b.isProjection with
      | false =>
          refine iff_of_false (fun hRun => by cases hRun) ?_
          rintro ⟨own, b', hTarget, hInside', -⟩
          cases hTarget
          cases hInside.symm.trans hInside'
      | true =>
          rw [if_pos rfl, runOnCopy_eq_error_iff]
          constructor
          · intro hFails
            exact ⟨body, b, rfl, hInside, hFails⟩
          · rintro ⟨own, b', hTarget, -, hFails⟩
            cases hTarget
            exact hFails

/- Otherwise it hands back outputs, as its kind does. -/
theorem runTarget_eq_ok_iff :
    runTarget s target args w = (.ok outputs, w') ↔
      HandsBack s args w target outputs w' := by
  cases target with
  | free body =>
      rw [runTarget, onHost_eq_ranIn, Prod.mk.injEq,
        Except.ok.injEq]
      constructor
      · intro hEnd
        exact .free (Prod.ext hEnd.1 hEnd.2)
      · rintro ⟨hRan⟩
        rw [hRan]
        exact ⟨rfl, rfl⟩
  | bound body b =>
      simp only [runTarget]
      cases hInside : b.isProjection with
      | false =>
          rw [if_neg Bool.false_ne_true, onHost_eq_ranIn,
            Prod.mk.injEq, Except.ok.injEq]
          constructor
          · intro hEnd
            exact .whole hInside (Prod.ext hEnd.1 hEnd.2)
          · intro hBack
            cases hBack with
            | whole hWhole hRan =>
                rw [hRan]
                exact ⟨rfl, rfl⟩
            | copy hInside' hStored =>
                cases hInside.symm.trans hInside'
      | true =>
          rw [if_pos rfl, runOnCopy_eq_ok_iff]
          constructor
          · exact .copy hInside
          · intro hBack
            cases hBack with
            | whole hWhole hRan => cases hInside.symm.trans hWhole
            | copy hInside' hStored => exact hStored

end Callable

end Interop
