import Interop.Action

/-
  Reasoning about actions: what a successful sequence went
  through, and relations between worlds that every step of
  an action respects.

  Main declarations:
    * `Action.bind_eq_ok_iff`
    * `Action.bind_eq_error_iff`
    * `Action.mapError_eq_ok_iff`
    * `Action.mapError_eq_error_iff`
    * `Action.eachFrom_eq_error_iff`
    * `Action.Steps`
    * `Action.Steps.bind`
    * `Action.Steps.eachFrom`
-/

namespace Interop

------------------------------------------------------------
-- Outcomes
------------------------------------------------------------

namespace World

@[simp] theorem heap_withHeap
    (w : World)
    (heap : Heap) :
    (w.withHeap heap).heap = heap := rfl

end World

namespace Action

variable {α β : Type}

/- A sequence succeeds when both of its parts do. -/
theorem bind_eq_ok_iff
    {x : Action α}
    {f : α → Action β}
    {w w' : World}
    {b : β} :
    (x >>= f) w = (.ok b, w') ↔
      ∃ a w₁, x w = (.ok a, w₁) ∧ f a w₁ = (.ok b, w') := by
  rw [bind_apply]
  constructor
  · intro hRun
    cases hFirst : x w with
    | mk outcome w₁ =>
        cases outcome with
        | ok a =>
            rw [hFirst] at hRun
            exact ⟨a, w₁, rfl, hRun⟩
        | error e => simp [hFirst] at hRun
  · rintro ⟨a, w₁, hFirst, hRest⟩
    rw [hFirst]
    exact hRest

/- A sequence fails in its first part or after it. -/
theorem bind_eq_error_iff
    {x : Action α}
    {f : α → Action β}
    {w w' : World}
    {e : Error} :
    (x >>= f) w = (.error e, w') ↔
      x w = (.error e, w') ∨
        ∃ a w₁, x w = (.ok a, w₁) ∧ f a w₁ = (.error e, w') := by
  rw [bind_apply]
  rcases hFirst : x w with ⟨outcome, w₁⟩
  cases outcome with
  | error cause => simp
  | ok a =>
      constructor
      · intro hRest
        exact .inr ⟨a, w₁, rfl, hRest⟩
      · rintro (hFails | ⟨a', w₂, hSame, hRest⟩)
        · cases hFails
        · cases hSame
          exact hRest

/- A failure that is wrapped does not become a success. -/
theorem mapError_eq_ok_iff
    {wrap : Error → Error}
    {x : Action α}
    {w w' : World}
    {a : α} :
    mapError wrap x w = (.ok a, w') ↔ x w = (.ok a, w') := by
  unfold mapError
  rcases x w with ⟨_ | _, _⟩ <;> simp

/- A wrapped failure is there when its cause is. -/
theorem mapError_eq_error_iff
    {wrap : Error → Error}
    {x : Action α}
    {w w' : World}
    {e : Error} :
    mapError wrap x w = (.error e, w') ↔
      ∃ cause, x w = (.error cause, w') ∧ e = wrap cause := by
  unfold mapError
  rcases x w with ⟨_ | _, _⟩
  · simp [and_right_comm, eq_comm]
  · simp

theorem map_apply
    (f : α → β)
    (x : Action α)
    (w : World) :
    (f <$> x) w = ((x w).1.map f, (x w).2) := by
  rw [map_eq_pure_bind, bind_apply]
  rcases x w with ⟨_ | _, _⟩ <;> rfl

theorem fromHeap_apply
    (f : Heap → Except Error α)
    (w : World) :
    fromHeap f w = (f w.heap, w) := rfl

/- A change of the objects that succeeds. -/
theorem onHeap_of_ok
    {f : Heap → Except Error (α × Heap)}
    {w : World}
    {a : α}
    {heap : Heap}
    (hChange : f w.heap = .ok (a, heap)) :
    onHeap f w = (.ok a, w.withHeap heap) := by
  simp [onHeap, hChange]

/- A change of the objects that fails. -/
theorem onHeap_of_error
    {f : Heap → Except Error (α × Heap)}
    {w : World}
    {e : Error}
    (hChange : f w.heap = .error e) :
    onHeap f w = (.error e, w) := by
  simp [onHeap, hChange]

theorem onHeap_eq_ok_iff
    {f : Heap → Except Error (α × Heap)}
    {w w' : World}
    {a : α} :
    onHeap f w = (.ok a, w') ↔
      ∃ heap, f w.heap = .ok (a, heap) ∧
        w' = w.withHeap heap := by
  cases hChange : f w.heap with
  | ok r =>
      rcases r with ⟨b, heap⟩
      rw [onHeap_of_ok hChange]
      constructor
      · intro hEq
        cases hEq
        exact ⟨heap, rfl, rfl⟩
      · rintro ⟨heap', hOk, rfl⟩
        cases hOk
        rfl
  | error e =>
      rw [onHeap_of_error hChange]
      simp

theorem onHeap_eq_error_iff
    {f : Heap → Except Error (α × Heap)}
    {w w' : World}
    {e : Error} :
    onHeap f w = (.error e, w') ↔
      f w.heap = .error e ∧ w' = w := by
  cases hChange : f w.heap with
  | ok r =>
      rcases r with ⟨a, heap⟩
      rw [onHeap_of_ok hChange]
      simp
  | error cause =>
      simp only [onHeap_of_error hChange, Prod.mk.injEq,
        Except.error.injEq, eq_comm]

/- What is done with the result changes nothing. -/
theorem onHeap_map
    (f : α → β)
    (x : StateT Heap (Except Error) α)
    (w : World) :
    (onHeap x >>= fun a => pure (f a)) w =
      onHeap (x >>= fun a => pure (f a)) w := by
  rw [bind_apply]
  simp only [onHeap, bind, StateT.bind, Except.bind]
  rcases x w.heap with _ | ⟨a, heap⟩ <;> rfl

theorem changeHeap_of_ok
    {f : Heap → Except Error Heap}
    {w : World}
    {heap : Heap}
    (hChange : f w.heap = .ok heap) :
    changeHeap f w = (.ok (), w.withHeap heap) :=
  onHeap_of_ok (by simp [hChange, Except.map])

theorem changeHeap_of_error
    {f : Heap → Except Error Heap}
    {w : World}
    {e : Error}
    (hChange : f w.heap = .error e) :
    changeHeap f w = (.error e, w) :=
  onHeap_of_error (by simp [hChange, Except.map])

theorem changeHeap_eq_ok_iff
    {f : Heap → Except Error Heap}
    {w w' : World} :
    changeHeap f w = (.ok (), w') ↔
      ∃ heap, f w.heap = .ok heap ∧
        w' = w.withHeap heap := by
  unfold changeHeap
  rw [onHeap_eq_ok_iff]
  cases hChange : f w.heap with
  | ok heap => simp [Except.map]
  | error e => simp [Except.map]

theorem changeHeap_eq_error_iff
    {f : Heap → Except Error Heap}
    {w w' : World}
    {e : Error} :
    changeHeap f w = (.error e, w') ↔
      f w.heap = .error e ∧ w' = w := by
  unfold changeHeap
  rw [onHeap_eq_error_iff]
  cases hChange : f w.heap with
  | ok heap => simp [Except.map]
  | error cause => simp [Except.map]

/-
  Steps over a list fail where the first of them does: the
  steps before it succeed, and it fails in the world that
  they leave.
-/
theorem eachFrom_eq_error_iff
    {f : Nat → α → Action β}
    {items : List α}
    {i : Nat}
    {w w' : World}
    {e : Error} :
    Interop.eachFrom f i items w = (.error e, w') ↔
      ∃ k a bs mid,
        items[k]? = some a ∧
        Interop.eachFrom f i (items.take k) w = (.ok bs, mid) ∧
        f (i + k) a mid = (.error e, w') := by
  induction items generalizing i w with
  | nil =>
      refine iff_of_false (fun hRun => by cases hRun) ?_
      rintro ⟨k, a, bs, mid, hAt, -⟩
      simp at hAt
  | cons a rest ih =>
      rw [Interop.eachFrom, bind_eq_error_iff]
      constructor
      · rintro (hFirst | ⟨b, mid, hFirst, hRest⟩)
        · exact ⟨0, a, [], w, rfl, rfl, hFirst⟩
        · rcases bind_eq_error_iff.mp hRest with
            hFails | ⟨bs, last, -, hLast⟩
          · rcases ih.mp hFails with
              ⟨k, item, bs, before, hAt, hBefore, hItem⟩
            refine ⟨k + 1, item, b :: bs, before, hAt, ?_, ?_⟩
            · rw [List.take_succ_cons, Interop.eachFrom,
                bind_eq_ok_iff]
              refine ⟨b, mid, hFirst, ?_⟩
              exact bind_eq_ok_iff.mpr ⟨bs, before, hBefore, rfl⟩
            · rwa [← Nat.add_assoc, Nat.add_right_comm]
          · cases hLast
      · rintro ⟨k, item, bs, before, hAt, hBefore, hItem⟩
        cases k with
        | zero =>
            cases hAt
            cases hBefore
            exact .inl hItem
        | succ k =>
            rw [List.take_succ_cons, Interop.eachFrom] at hBefore
            rcases bind_eq_ok_iff.mp hBefore with
              ⟨b, mid, hFirst, hOthers⟩
            rcases bind_eq_ok_iff.mp hOthers with
              ⟨bs', before', hOthers, hLast⟩
            cases hLast
            refine .inr ⟨b, mid, hFirst, bind_eq_error_iff.mpr ?_⟩
            refine .inl (ih.mpr ?_)
            refine ⟨k, item, bs', before, hAt, hOthers, ?_⟩
            rwa [← Nat.add_assoc, Nat.add_right_comm] at hItem

/- Steps that succeed come to an end before one that fails. -/
theorem le_of_eachFrom_eq_ok
    {f : Nat → α → Action β}
    {items : List α}
    {i j k : Nat}
    {a : α}
    {w w' mid last : World}
    {bs cs : List β}
    {e : Error}
    (hAt : items[k]? = some a)
    (hBefore :
      Interop.eachFrom f i (items.take k) w = (.ok bs, mid))
    (hFails : f (i + k) a mid = (.error e, w'))
    (hRun :
      Interop.eachFrom f i (items.take j) w = (.ok cs, last)) :
    j ≤ k := by
  apply Nat.le_of_not_lt
  intro hBelow
  have hAt' : (items.take j)[k]? = some a := by
    rwa [List.getElem?_take_of_lt hBelow]
  have hBefore' :
      Interop.eachFrom f i ((items.take j).take k) w =
        (.ok bs, mid) := by
    rwa [List.take_take, Nat.min_eq_left (Nat.le_of_lt hBelow)]
  have hStops :
      Interop.eachFrom f i (items.take j) w = (.error e, w') :=
    eachFrom_eq_error_iff.mpr ⟨k, a, bs, mid, hAt', hBefore', hFails⟩
  cases hStops.symm.trans hRun

/-
  Steps that succeed respect what each of them respects when
  it succeeds.
-/
theorem eachFrom_of_ok
    {R : World → World → Prop}
    {f : Nat → α → Action β}
    {items : List α}
    {i : Nat}
    {w w' : World}
    {bs : List β}
    (hRefl : ∀ w, R w w)
    (hTrans : ∀ u v w, R u v → R v w → R u w)
    (hItems : ∀ i, ∀ a ∈ items, ∀ w w' b,
      f i a w = (.ok b, w') → R w w')
    (hRun : Interop.eachFrom f i items w = (.ok bs, w')) :
    R w w' := by
  induction items generalizing i w bs with
  | nil =>
      cases hRun
      exact hRefl _
  | cons a rest ih =>
      rw [Interop.eachFrom] at hRun
      rcases bind_eq_ok_iff.mp hRun with ⟨b, mid, hFirst, hOthers⟩
      rcases bind_eq_ok_iff.mp hOthers with
        ⟨bs', last, hOthers, hLast⟩
      cases hLast
      have hStep : R w mid :=
        hItems i a List.mem_cons_self w mid b hFirst
      refine hTrans _ _ _ hStep (ih ?_ hOthers)
      intro j c hMem
      exact hItems j c (List.mem_cons_of_mem a hMem)

------------------------------------------------------------
-- Respected Relations
------------------------------------------------------------

/-
  Whatever its outcome, the action ends in a world that is
  related to the one it started in.
-/
def Steps
    (R : World → World → Prop)
    (x : Action α) : Prop :=
  ∀ w, R w (x w).2

namespace Steps

variable {R : World → World → Prop}

/- What changes nothing respects a reflexive relation. -/
theorem of_unchanged
    (hRefl : ∀ w, R w w)
    {x : Action α}
    (hSame : ∀ w, (x w).2 = w) :
    Steps R x := by
  intro w
  rw [hSame]
  exact hRefl w

theorem bind
    (hTrans : ∀ u v w, R u v → R v w → R u w)
    {x : Action α}
    {f : α → Action β}
    (hFirst : Steps R x)
    (hRest : ∀ a, Steps R (f a)) :
    Steps R (x >>= f) := by
  intro w
  have hStep := hFirst w
  rw [bind_apply]
  rcases hRun : x w with ⟨outcome, w₁⟩
  rw [hRun] at hStep
  cases outcome with
  | ok a => exact hTrans _ _ _ hStep (hRest a w₁)
  | error e => exact hStep

theorem mapError
    {wrap : Error → Error}
    {x : Action α}
    (hSteps : Steps R x) :
    Steps R (Action.mapError wrap x) := by
  intro w
  have hStep := hSteps w
  unfold Action.mapError
  rcases hRun : x w with ⟨outcome, w₁⟩
  rw [hRun] at hStep
  cases outcome <;> exact hStep

/- A list of steps respects what each step does. -/
theorem eachFrom
    (hRefl : ∀ w, R w w)
    (hTrans : ∀ u v w, R u v → R v w → R u w)
    {f : Nat → α → Action β}
    {items : List α}
    (hItems : ∀ i, ∀ a ∈ items, Steps R (f i a))
    (start : Nat) :
    Steps R (Interop.eachFrom f start items) := by
  induction items generalizing start with
  | nil => exact of_unchanged hRefl fun w => rfl
  | cons a rest ih =>
      unfold Interop.eachFrom
      refine bind hTrans (hItems start a (by simp)) ?_
      intro b
      refine bind hTrans ?_ ?_
      · apply ih
        intro i x hMem
        exact hItems i x (List.mem_cons_of_mem a hMem)
      · intro bs
        exact of_unchanged hRefl fun w => rfl

end Steps

end Action

end Interop
