import Interop.Proofs.Action
import Interop.Proofs.Typing.State

/-
  Actions that keep heaps well typed. Started on a well typed
  heap of which `pre` holds, the action lets the heap evolve,
  whatever its outcome; if it succeeds, `post` holds of the
  result and the heap that it leaves.

  Main declarations:
    * `Action.Keeps`
    * `Action.Keeps.bind`
    * `Action.Keeps.frame`
    * `Action.Keeps.eachFrom`
-/

namespace Interop

namespace Action

variable {α β : Type}

/- The heap stays well typed for the boxes that are held. -/
def Keeps
    (s : Schema)
    (held : Box → Prop)
    (pre : Heap → Prop)
    (x : Action α)
    (post : α → Heap → Prop) : Prop :=
  ∀ w : World, w.heap.WellTyped s held → pre w.heap →
    Heap.Evolves s held w.heap (x w).2.heap ∧
      ∀ a, (x w).1 = .ok a → post a (x w).2.heap

/- A property of heaps that evolution does not undo. -/
def IsStable
    (s : Schema)
    (held : Box → Prop)
    (p : Heap → Prop) : Prop :=
  ∀ {before after : Heap},
    Heap.Evolves s held before after → p before → p after

namespace Keeps

variable {s : Schema} {held : Box → Prop}
variable {pre pre' : Heap → Prop}
variable {post post' : α → Heap → Prop}
variable {x : Action α}

------------------------------------------------------------
-- Primitive Actions
------------------------------------------------------------

/- What changes no object keeps heaps as they are. -/
theorem of_heap_eq
    (hSame : ∀ w, (x w).2.heap = w.heap)
    (hPost : ∀ w a, w.heap.WellTyped s held → pre w.heap →
      (x w).1 = .ok a → post a w.heap) :
    Keeps s held pre x post := by
  intro w hTyped hPre
  rw [hSame]
  refine ⟨hTyped.evolves_refl, ?_⟩
  intro a hOk
  exact hPost w a hTyped hPre hOk

theorem pure
    {a : α}
    (hPost : ∀ heap, heap.WellTyped s held → pre heap →
      post a heap) :
    Keeps s held pre (pure a) post := by
  apply of_heap_eq
  · exact fun w => rfl
  · intro w b hTyped hPre hOk
    cases hOk
    exact hPost w.heap hTyped hPre

theorem fail
    (e : Error) :
    Keeps s held pre (Action.fail e : Action α) post := by
  apply of_heap_eq
  · exact fun w => rfl
  · intro w a hTyped hPre hOk
    cases hOk

/- Looking at the objects changes none. -/
theorem fromHeap
    {f : Heap → Except Error α}
    (hPost : ∀ heap a, heap.WellTyped s held → pre heap →
      f heap = .ok a → post a heap) :
    Keeps s held pre (Action.fromHeap f) post := by
  apply of_heap_eq
  · exact fun w => rfl
  · intro w a hTyped hPre hOk
    exact hPost w.heap a hTyped hPre hOk

/- An outcome that is known already. -/
theorem ofExcept
    {r : Except Error α}
    (hPost : ∀ heap a, pre heap → r = .ok a → post a heap) :
    Keeps s held pre (Action.ofExcept r) post := by
  apply of_heap_eq
  · exact fun w => rfl
  · intro w a hTyped hPre hOk
    exact hPost w.heap a hPre hOk

/- Events and identities are no objects. -/
theorem emit
    (e : Event) :
    Keeps s held pre (Action.emit e) fun _ => pre := by
  apply of_heap_eq
  · exact fun w => rfl
  · intro w a hTyped hPre hOk
    exact hPre

theorem fresh :
    Keeps s held pre Action.fresh fun _ => pre := by
  apply of_heap_eq
  · exact fun w => rfl
  · intro w a hTyped hPre hOk
    exact hPre

/- Host code that lets the heap evolve. -/
theorem onHost
    {f : Host → α × Host}
    (hStep : ∀ host : Host,
      host.heap.WellTyped s held → pre host.heap →
        Heap.Evolves s held host.heap (f host).2.heap ∧
          post (f host).1 (f host).2.heap) :
    Keeps s held pre (Action.onHost f) post := by
  intro w hTyped hPre
  rcases hStep w.host hTyped hPre with ⟨hEvolves, hPost⟩
  refine ⟨hEvolves, ?_⟩
  intro a hOk
  cases hOk
  exact hPost

/- A change of the objects that lets the heap evolve. -/
theorem onHeap
    {f : Heap → Except Error (α × Heap)}
    (hStep : ∀ {heap heap' a},
      heap.WellTyped s held → pre heap →
        f heap = .ok (a, heap') →
          Heap.Evolves s held heap heap' ∧ post a heap') :
    Keeps s held pre (Action.onHeap f) post := by
  intro w hTyped hPre
  cases hRun : f w.heap with
  | error e =>
      rw [onHeap_of_error hRun]
      refine ⟨hTyped.evolves_refl, ?_⟩
      intro a hOk
      cases hOk
  | ok r =>
      rcases r with ⟨a, heap⟩
      rw [onHeap_of_ok hRun]
      rcases hStep hTyped hPre hRun with ⟨hEvolves, hPost⟩
      refine ⟨hEvolves, ?_⟩
      intro b hOk
      cases hOk
      exact hPost

theorem changeHeap
    {f : Heap → Except Error Heap}
    {final : Unit → Heap → Prop}
    (hStep : ∀ {heap heap'},
      heap.WellTyped s held → pre heap → f heap = .ok heap' →
        Heap.Evolves s held heap heap' ∧ final () heap') :
    Keeps s held pre (Action.changeHeap f) final := by
  apply onHeap
  intro heap heap' u hTyped hPre hOk
  cases hRun : f heap with
  | error e => simp [hRun, Except.map] at hOk
  | ok changed =>
      simp only [hRun, Except.map, Except.ok.injEq,
        Prod.mk.injEq, true_and] at hOk
      subst hOk
      exact hStep hTyped hPre hRun

------------------------------------------------------------
-- Composition
------------------------------------------------------------

theorem weaken
    (hKeeps : Keeps s held pre x post)
    (hPre : ∀ heap, pre' heap → pre heap)
    (hPost : ∀ a heap, post a heap → post' a heap) :
    Keeps s held pre' x post' := by
  intro w hTyped hStart
  rcases hKeeps w hTyped (hPre w.heap hStart) with
    ⟨hEvolves, hEnd⟩
  refine ⟨hEvolves, ?_⟩
  intro a hOk
  exact hPost a _ (hEnd a hOk)

/- Go on with what holds of the first result. -/
theorem bind
    {f : α → Action β}
    {final : β → Heap → Prop}
    (hFirst : Keeps s held pre x post)
    (hRest : ∀ a, Keeps s held (post a) (f a) final) :
    Keeps s held pre (x >>= f) final := by
  intro w hTyped hPre
  rcases hFirst w hTyped hPre with ⟨hEvolves, hPost⟩
  rw [bind_apply]
  rcases hRun : x w with ⟨outcome, w₁⟩
  rw [hRun] at hEvolves hPost
  cases outcome with
  | error e =>
      refine ⟨hEvolves, ?_⟩
      intro b hOk
      cases hOk
  | ok a =>
      have hMid := hTyped.of_evolves hEvolves
      rcases hRest a w₁ hMid (hPost a rfl) with
        ⟨hThen, hFinal⟩
      exact ⟨hEvolves.trans hThen, hFinal⟩

theorem map
    {f : α → β}
    {final : β → Heap → Prop}
    (hKeeps : Keeps s held pre x fun a => final (f a)) :
    Keeps s held pre (f <$> x) final := by
  rw [map_eq_pure_bind]
  apply bind hKeeps
  intro a
  exact pure fun heap hTyped hPost => hPost

/- What evolution does not undo may be kept in mind. -/
theorem frame
    {p : Heap → Prop}
    (hKeeps : Keeps s held pre x post)
    (hStable : IsStable s held p) :
    Keeps s held (fun heap => pre heap ∧ p heap) x
      fun a heap => post a heap ∧ p heap := by
  intro w hTyped hStart
  rcases hKeeps w hTyped hStart.1 with ⟨hEvolves, hPost⟩
  refine ⟨hEvolves, ?_⟩
  intro a hOk
  exact ⟨hPost a hOk, hStable hEvolves hStart.2⟩

theorem mapError
    {wrap : Error → Error}
    (hKeeps : Keeps s held pre x post) :
    Keeps s held pre (Action.mapError wrap x) post := by
  intro w hTyped hPre
  have hRest := hKeeps w hTyped hPre
  unfold Action.mapError
  rcases hRun : x w with ⟨outcome, w₁⟩
  rw [hRun] at hRest
  cases outcome with
  | ok a => exact hRest
  | error e =>
      refine ⟨hRest.1, ?_⟩
      intro a hOk
      cases hOk

/-
  Steps over a list relate each element to its result, and
  later steps do not undo that.
-/
theorem eachFrom
    {f : Nat → α → Action β}
    {r : α → β → Heap → Prop}
    {items : List α}
    (hPre : IsStable s held pre)
    (hStable : ∀ a b, IsStable s held (r a b))
    (hItems : ∀ i, ∀ a ∈ items,
      Keeps s held pre (f i a) (r a))
    (start : Nat) :
    Keeps s held pre (Interop.eachFrom f start items)
      fun bs heap =>
        List.Forall₂ (fun a b => r a b heap) items bs := by
  induction items generalizing start with
  | nil =>
      apply pure
      intro heap hTyped hStart
      exact .nil
  | cons a rest ih =>
      have hHead := hItems start a (by simp)
      have hTail : ∀ i, ∀ b ∈ rest,
          Keeps s held pre (f i b) (r b) := by
        intro i b hMem
        exact hItems i b (List.mem_cons_of_mem a hMem)
      have hStep :
          Keeps s held pre (f start a)
            fun b heap => r a b heap ∧ pre heap := by
        have hFramed := hHead.frame hPre
        exact hFramed.weaken (fun heap h => ⟨h, h⟩)
          (fun b heap h => h)
      refine bind hStep ?_
      intro b
      have hRest := (ih hTail (start + 1)).frame (hStable a b)
      refine bind (hRest.weaken (fun heap h => h.symm)
        (fun bs heap h => h)) ?_
      intro bs
      apply pure
      rintro heap hTyped ⟨hOthers, hFirst⟩
      exact .cons hFirst hOthers

end Keeps

end Action

end Interop
