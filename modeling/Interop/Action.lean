import Interop.Event
import Interop.Value

/-
  This file defines operations that change the world: the
  host, the log, and the supply of identities for functions
  and domain values. An operation ends with a result or a
  failure; either way what it changed stays changed.

  Key definitions include:
    * `World`
    * `Action`
    * `Action.fail`
    * `Action.onHeap`
    * `Action.emit`
    * `Action.fresh`
    * `eachFrom`
-/

namespace Interop

------------------------------------------------------------
-- World
------------------------------------------------------------

/- Everything that operations change. -/
structure World where
  host : Host
  log : List Event
  identities : Nat

namespace World

/- Nothing has happened yet. -/
def initial : World :=
  ⟨.initial, [], 0⟩

/- The objects of the host. -/
abbrev heap (w : World) : Heap :=
  w.host.heap

/- The world with other objects. -/
def withHeap
    (w : World)
    (heap : Heap) : World :=
  { w with host := { w.host with heap } }

end World

------------------------------------------------------------
-- Actions
------------------------------------------------------------

/- A change of the world that ends in a result or failure. -/
def Action (α : Type) : Type :=
  World → Except Error α × World

namespace Action

variable {α β : Type}

/- Run an action. -/
def run
    (x : Action α)
    (w : World) : Except Error α × World :=
  x w

/- Succeed and change nothing. -/
protected def pure (a : α) : Action α :=
  fun w => (.ok a, w)

/- Go on with the result; a failure ends the action. -/
protected def bind
    (x : Action α)
    (f : α → Action β) : Action β :=
  fun w =>
    match x w with
    | (.ok a, w') => f a w'
    | (.error e, w') => (.error e, w')

instance : Monad Action where
  pure := Action.pure
  bind := Action.bind

/- Fail and change nothing. -/
def fail (e : Error) : Action α :=
  fun w => (.error e, w)

/- Say more about a failure. -/
def mapError
    (wrap : Error → Error)
    (x : Action α) : Action α :=
  fun w =>
    match x w with
    | (.ok a, w') => (.ok a, w')
    | (.error e, w') => (.error (wrap e), w')

/- The outcome of something that changes nothing. -/
def ofExcept (r : Except Error α) : Action α :=
  fun w => (r, w)

/- The outcome of looking at the objects. -/
def fromHeap (f : Heap → Except Error α) : Action α :=
  fun w => (f w.heap, w)

/- A change of the objects; a failing one changes none. -/
def onHeap
    (f : Heap → Except Error (α × Heap)) : Action α :=
  fun w =>
    match f w.heap with
    | .ok (a, heap) => (.ok a, w.withHeap heap)
    | .error e => (.error e, w)

/- A change of the objects that has no result. -/
def changeHeap
    (f : Heap → Except Error Heap) : Action Unit :=
  onHeap fun heap => (f heap).map fun heap' => ((), heap')

/- Run host code. -/
def onHost (f : Host → α × Host) : Action α :=
  fun w =>
    let (a, host) := f w.host
    (.ok a, { w with host })

/- Log an event. -/
def emit (e : Event) : Action Unit :=
  fun w => (.ok (), { w with log := w.log ++ [e] })

/- An identity that nothing has yet. -/
def fresh : Action Nat :=
  fun w =>
    (.ok w.identities,
      { w with identities := w.identities + 1 })

------------------------------------------------------------
-- Running Composed Actions
------------------------------------------------------------

@[simp] theorem pure_apply
    (a : α)
    (w : World) :
    (pure a : Action α) w = (.ok a, w) := rfl

@[simp] theorem bind_apply
    (x : Action α)
    (f : α → Action β)
    (w : World) :
    (x >>= f) w =
      match x w with
      | (.ok a, w') => f a w'
      | (.error e, w') => (.error e, w') := rfl

@[simp] theorem fail_apply
    (e : Error)
    (w : World) :
    (fail e : Action α) w = (.error e, w) := rfl

/- Mapping the identity over an outcome changes nothing. -/
theorem map_id_apply
    (x : Action α)
    (w : World) :
    (id <$> x) w = x w := by
  change (match x w with
    | (.ok a, w') => (.ok a, w')
    | (.error e, w') => (.error e, w')) = x w
  rcases x w with ⟨_ | _, _⟩ <;> rfl

/- Sequencing may be regrouped. -/
theorem bind_assoc_apply
    {γ : Type}
    (x : Action α)
    (f : α → Action β)
    (g : β → Action γ)
    (w : World) :
    (x >>= f >>= g) w = (x >>= fun a => f a >>= g) w := by
  simp only [bind_apply]
  rcases x w with ⟨_ | _, _⟩ <;> rfl

instance : LawfulMonad Action :=
  LawfulMonad.mk' Action
    (fun x => funext (map_id_apply x))
    (fun _ _ => rfl)
    (fun x f g => funext (bind_assoc_apply x f g))

end Action

------------------------------------------------------------
-- Lists of Steps
------------------------------------------------------------

/-
  Run a step for each element of a list, from left to right,
  counting from `i`. The first failing step ends the run.
-/
def eachFrom
    {m : Type → Type}
    [Monad m]
    {α β : Type}
    (f : Nat → α → m β) :
    Nat → List α → m (List β)
| _, [] => pure []
| i, a :: rest => do
    let b ← f i a
    let bs ← eachFrom f (i + 1) rest
    pure (b :: bs)

/- Run a step for each element, counting from zero. -/
abbrev each
    {m : Type → Type}
    [Monad m]
    {α β : Type}
    (f : Nat → α → m β)
    (items : List α) : m (List β) :=
  eachFrom f 0 items

end Interop
