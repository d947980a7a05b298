import Interop.Proofs.Action
import Interop.Proofs.Heap

/-
  Objects and actions when all objects are given back. An
  action that takes objects runs as it would then, or it
  fails in a way that tells of the loans; the rules here
  carry this through sequences and lists of steps.

  Main declarations:
    * `Heap.freed`
    * `Action.RunsFreed`
    * `Action.FailsForLoans`
    * `Action.RunsFreed.bind`
    * `Action.RunsFreed.eachFrom`
-/

namespace Interop

------------------------------------------------------------
-- Giving Everything Back
------------------------------------------------------------

namespace Heap

/- The objects as they are when all are given back. -/
def freed (heap : Heap) : Heap :=
  ⟨heap.cells.map fun c => .free c.content⟩

theorem cell_freed
    (heap : Heap)
    (h : Handle) :
    heap.freed.cell h = .free (heap.content h) := by
  simp only [cell, content, freed, List.getElem?_map]
  cases heap.cells[h.index]? <;> rfl

@[simp] theorem content_freed
    (heap : Heap)
    (h : Handle) :
    heap.freed.content h = heap.content h := by
  simp [content, cell_freed, Cell.free]

/- Then nobody has any object. -/
theorem isIdle_freed
    (heap : Heap) :
    heap.freed.IsIdle := by
  intro h
  simp [loan, cell_freed, Cell.free]

@[simp] theorem isReadable_freed
    (heap : Heap)
    (h : Handle) :
    heap.freed.isReadable h = true :=
  (isIdle_freed heap).isReadable h

/- Storing a content does not depend on loans. -/
theorem store_freed
    (heap : Heap)
    (h : Handle)
    (v : HostValue) :
    (heap.store h v).freed = heap.freed.store h v := by
  have hLoan := isIdle_freed heap h
  simp only [store, setCell, freed] at hLoan ⊢
  rw [hLoan]
  simp [List.map_set, Cell.free]

/- The next object does not either. -/
@[simp] theorem next_freed
    (heap : Heap) :
    heap.freed.next = heap.next := by
  simp [next, size, freed]

/- Nor does adding an object. -/
theorem alloc_freed
    (heap : Heap)
    (v : HostValue) :
    (heap.alloc v).2.freed = (heap.freed.alloc v).2 := by
  simp [alloc, freed, Cell.free]

end Heap

/- The host when all objects are given back. -/
def Host.freed (host : Host) : Host :=
  { host with heap := host.heap.freed }

/- The world when all objects are given back. -/
def World.freed (w : World) : World :=
  { w with host := w.host.freed }

@[simp] theorem World.heap_freed
    (w : World) :
    w.freed.heap = w.heap.freed := rfl

------------------------------------------------------------
-- Actions When All Is Free
------------------------------------------------------------

namespace Action

variable {α β : Type} {P Q : Error → Prop} {w : World}

/-
  The action runs as it would if all objects had been given
  back first, or it fails in one of certain ways.
-/
def RunsFreed
    (P : Error → Prop)
    (x : Action α)
    (w : World) : Prop :=
  x w.freed = ((x w).1, (x w).2.freed) ∨
    ∃ e, (x w).1 = .error e ∧ P e

/- The action fails, but would not if all objects were free. -/
def FailsForLoans
    (x : Action α)
    (w : World)
    (e : Error) : Prop :=
  (x w).1 = .error e ∧ ∃ a, (x w.freed).1 = .ok a

/- Finishing a result does not fail. -/
theorem FailsForLoans.of_map
    {f : α → β}
    {x : Action α}
    {e : Error}
    (hFails : FailsForLoans (f <$> x) w e) :
    FailsForLoans x w e := by
  rcases hFails with ⟨hError, b, hOk⟩
  rw [map_apply] at hError hOk
  refine ⟨?_, ?_⟩
  · cases hRun : (x w).1 with
    | ok a => simp [hRun, Except.map] at hError
    | error cause => simpa [hRun, Except.map] using hError
  · cases hRun : (x w.freed).1 with
    | ok a => exact ⟨a, rfl⟩
    | error cause => simp [hRun, Except.map] at hOk

namespace RunsFreed

variable {x : Action α}

/- Then only these failures are due to loans. -/
theorem of_failsForLoans
    {e : Error}
    (hRuns : RunsFreed P x w)
    (hFails : FailsForLoans x w e) :
    P e := by
  rcases hFails with ⟨hError, a, hFree⟩
  rcases hRuns with hSame | ⟨cause, hCause, hP⟩
  · rw [hSame, hError] at hFree
    cases hFree
  · cases hCause.symm.trans hError
    exact hP

theorem mono
    (hRuns : RunsFreed P x w)
    (hImplies : ∀ e, P e → Q e) :
    RunsFreed Q x w := by
  rcases hRuns with hSame | ⟨e, hFails, hP⟩
  · exact .inl hSame
  · exact .inr ⟨e, hFails, hImplies e hP⟩

theorem pure
    (a : α) :
    RunsFreed P (pure a) w :=
  .inl rfl

theorem fail
    (e : Error) :
    RunsFreed P (Action.fail e : Action α) w :=
  .inl rfl

theorem fromHeap
    {f : Heap → Except Error α}
    (hLook :
      f w.heap.freed = f w.heap ∨
        ∃ e, f w.heap = .error e ∧ P e) :
    RunsFreed P (Action.fromHeap f) w := by
  rcases hLook with hSame | hFails
  · left
    rw [fromHeap_apply, World.heap_freed, hSame]
    rfl
  · exact .inr hFails

theorem changeHeap
    {f : Heap → Except Error Heap}
    (hChange :
      f w.heap.freed = (f w.heap).map Heap.freed ∨
        ∃ e, f w.heap = .error e ∧ P e) :
    RunsFreed P (Action.changeHeap f) w := by
  rcases hChange with hSame | ⟨e, hFails, hP⟩
  · left
    cases hRun : f w.heap with
    | ok heap =>
        rw [hRun] at hSame
        rw [changeHeap_of_ok hRun, changeHeap_of_ok hSame]
        rfl
    | error e =>
        rw [hRun] at hSame
        rw [changeHeap_of_error hRun, changeHeap_of_error hSame]
  · right
    rw [changeHeap_of_error hFails]
    exact ⟨e, rfl, hP⟩

/- The second part starts when nothing has failed. -/
theorem bind
    {f : α → Action β}
    (hFirst : RunsFreed P x w)
    (hRest : ∀ a w', x w = (.ok a, w') → RunsFreed P (f a) w') :
    RunsFreed P (x >>= f) w := by
  unfold RunsFreed at hFirst ⊢
  rw [bind_apply, bind_apply]
  rcases hRun : x w with ⟨outcome, w'⟩
  rw [hRun] at hFirst
  cases outcome with
  | ok a =>
      rcases hFirst with hSame | ⟨e, hFails, hP⟩
      · rw [hSame]
        exact hRest a w' hRun
      · cases hFails
  | error cause =>
      rcases hFirst with hSame | ⟨e, hFails, hP⟩
      · rw [hSame]
        exact .inl rfl
      · cases hFails
        exact .inr ⟨cause, rfl, hP⟩

theorem mapError
    {wrap : Error → Error}
    (hWrap : ∀ e, P e → P (wrap e))
    (hRuns : RunsFreed P x w) :
    RunsFreed P (Action.mapError wrap x) w := by
  unfold RunsFreed Action.mapError at *
  rcases hRun : x w with ⟨outcome, w'⟩
  rw [hRun] at hRuns
  rcases hRuns with hSame | ⟨e, hFails, hP⟩
  · left
    rw [hSame]
    cases outcome <;> rfl
  · right
    cases hFails
    exact ⟨wrap e, rfl, hWrap e hP⟩

/- Steps over a list, none of which changes the host. -/
theorem eachFrom
    {f : Nat → α → Action β}
    {items : List α}
    {host : Host}
    (hItems : ∀ i, ∀ a ∈ items, ∀ w, w.host = host →
      RunsFreed P (f i a) w)
    (hLeaves : ∀ i, ∀ a ∈ items,
      Steps (fun w w' => w'.host = w.host) (f i a))
    (start : Nat)
    (hHost : w.host = host) :
    RunsFreed P (Interop.eachFrom f start items) w := by
  induction items generalizing start w with
  | nil => exact pure []
  | cons a rest ih =>
      have hHere : a ∈ a :: rest := List.mem_cons_self
      unfold Interop.eachFrom
      refine bind (hItems start a hHere w hHost) ?_
      intro b w' hRun
      have hStep := hLeaves start a hHere w
      rw [hRun] at hStep
      refine bind ?_ ?_
      · apply ih
        · intro i x hMem
          exact hItems i x (List.mem_cons_of_mem a hMem)
        · intro i x hMem
          exact hLeaves i x (List.mem_cons_of_mem a hMem)
        · exact hStep.trans hHost
      · intro bs w'' hRest
        exact pure _

end RunsFreed

end Action

end Interop
