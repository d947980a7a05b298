import Interop.Convert.Export
import Interop.Proofs.Action

/-
  Worlds that differ in hidden events only, and pairs of
  actions that cannot tell such worlds apart: they end with
  the same outcome, and in worlds that again differ in
  hidden events only. Which events are hidden is left open.

  An action that agrees with itself reads neither the log
  nor anything that depends on it.

  Main declarations:
    * `World.Alike`
    * `Action.Agree`
    * `Action.Agree.bind`
    * `Action.Agree.eachFrom`
    * `HostType.exportAs_agree`
-/

namespace Interop

------------------------------------------------------------
-- Worlds
------------------------------------------------------------

namespace World

/- The log without the events that are hidden. -/
def shown
    (hidden : Event → Bool)
    (w : World) : List Event :=
  w.log.filter fun e => !hidden e

/- The world after some more events. -/
def logging
    (w : World)
    (more : List Event) : World :=
  { w with log := w.log ++ more }

/- Worlds that differ in hidden events only. -/
structure Alike
    (hidden : Event → Bool)
    (w w' : World) : Prop where
  host : w.host = w'.host
  identities : w.identities = w'.identities
  shown : w.shown hidden = w'.shown hidden

namespace Alike

variable {hidden : Event → Bool} {u v w w' : World}

theorem refl
    (w : World) :
    Alike hidden w w :=
  ⟨rfl, rfl, rfl⟩

theorem symm
    (hAlike : Alike hidden w w') :
    Alike hidden w' w :=
  ⟨hAlike.host.symm, hAlike.identities.symm,
    hAlike.shown.symm⟩

theorem trans
    (hFirst : Alike hidden u v)
    (hSecond : Alike hidden v w) :
    Alike hidden u w :=
  ⟨hFirst.host.trans hSecond.host,
    hFirst.identities.trans hSecond.identities,
    hFirst.shown.trans hSecond.shown⟩

/- Alike worlds have the same objects, loans included. -/
theorem heap
    (hAlike : Alike hidden w w') :
    w.heap = w'.heap :=
  congrArg Host.heap hAlike.host

/- The same events may be added to both worlds. -/
theorem logging
    (hAlike : Alike hidden w w')
    (more : List Event) :
    Alike hidden (w.logging more) (w'.logging more) where
  host := hAlike.host
  identities := hAlike.identities
  shown := by
    have hShown := hAlike.shown
    simp only [World.shown] at hShown
    simp only [World.shown, World.logging, List.filter_append,
      hShown]

/- Hidden events make no difference. -/
theorem logging_hidden
    {e : Event}
    (hHidden : hidden e = true)
    (w : World) :
    Alike hidden w (w.logging [e]) where
  host := rfl
  identities := rfl
  shown := by
    simp [World.shown, World.logging, hHidden]

end Alike

end World

------------------------------------------------------------
-- Actions
------------------------------------------------------------

namespace Action

variable {α β : Type} {hidden : Event → Bool}

/-
  Started in alike worlds, the actions have the same outcome
  and end in alike worlds.
-/
def Agree
    (hidden : Event → Bool)
    (x y : Action α) : Prop :=
  ∀ w w', World.Alike hidden w w' →
    (x w).1 = (y w').1 ∧
      World.Alike hidden (x w).2 (y w').2

namespace Agree

variable {x y : Action α}

/- What looks at the host only agrees with itself. -/
theorem of_host
    (f : Host → Except Error α × Host)
    (hHost : ∀ w, x w =
      ((f w.host).1, { w with host := (f w.host).2 })) :
    Agree hidden x x := by
  intro w w' hAlike
  rw [hHost, hHost, hAlike.host]
  exact ⟨rfl, rfl, hAlike.identities, hAlike.shown⟩

theorem pure
    (a : α) :
    Agree hidden (pure a) (pure a) :=
  of_host (fun host => (.ok a, host)) fun _ => rfl

theorem fail
    (e : Error) :
    Agree hidden (Action.fail e : Action α) (Action.fail e) :=
  of_host (fun host => (.error e, host)) fun _ => rfl

theorem ofExcept
    (r : Except Error α) :
    Agree hidden (Action.ofExcept r) (Action.ofExcept r) :=
  of_host (fun host => (r, host)) fun _ => rfl

theorem fromHeap
    (f : Heap → Except Error α) :
    Agree hidden (Action.fromHeap f) (Action.fromHeap f) :=
  of_host (fun host => (f host.heap, host)) fun _ => rfl

theorem onHost
    (f : Host → α × Host) :
    Agree hidden (Action.onHost f) (Action.onHost f) :=
  of_host (fun host => (.ok (f host).1, (f host).2))
    fun _ => rfl

theorem onHeap
    (f : Heap → Except Error (α × Heap)) :
    Agree hidden (Action.onHeap f) (Action.onHeap f) := by
  intro w w' hAlike
  have hHeap := hAlike.heap
  cases hRun : f w.heap with
  | error e =>
      rw [onHeap_of_error hRun, onHeap_of_error (hHeap ▸ hRun)]
      exact ⟨rfl, hAlike⟩
  | ok r =>
      rcases r with ⟨a, heap⟩
      rw [onHeap_of_ok hRun, onHeap_of_ok (hHeap ▸ hRun)]
      refine ⟨rfl, ?_, hAlike.identities, hAlike.shown⟩
      simp only [World.withHeap, hAlike.host]

theorem changeHeap
    (f : Heap → Except Error Heap) :
    Agree hidden (Action.changeHeap f) (Action.changeHeap f) :=
  onHeap _

theorem emit
    (e : Event) :
    Agree hidden (Action.emit e) (Action.emit e) := by
  intro w w' hAlike
  exact ⟨rfl, hAlike.logging [e]⟩

theorem fresh :
    Agree hidden Action.fresh Action.fresh := by
  intro w w' hAlike
  have hNext := hAlike.identities
  simp only [Action.fresh, hNext]
  exact ⟨trivial, hAlike.host, rfl, hAlike.shown⟩

/- Sequences agree when their parts do. -/
theorem bind
    {f g : α → Action β}
    (hFirst : Agree hidden x y)
    (hRest : ∀ a, Agree hidden (f a) (g a)) :
    Agree hidden (x >>= f) (y >>= g) := by
  intro w w' hAlike
  rcases hFirst w w' hAlike with ⟨hSame, hThen⟩
  rw [bind_apply, bind_apply]
  rcases hRun : x w with ⟨outcome, w₁⟩
  rcases hRun' : y w' with ⟨outcome', w₁'⟩
  rw [hRun, hRun'] at hSame hThen
  cases hSame
  cases outcome with
  | ok a => exact hRest a w₁ w₁' hThen
  | error e => exact ⟨rfl, hThen⟩

theorem map
    {f : α → β}
    (hAgree : Agree hidden x y) :
    Agree hidden (f <$> x) (f <$> y) := by
  rw [map_eq_pure_bind, map_eq_pure_bind]
  exact bind hAgree fun a => pure (f a)

theorem mapError
    {wrap : Error → Error}
    (hAgree : Agree hidden x y) :
    Agree hidden (Action.mapError wrap x)
      (Action.mapError wrap y) := by
  intro w w' hAlike
  rcases hAgree w w' hAlike with ⟨hSame, hThen⟩
  unfold Action.mapError
  rcases hRun : x w with ⟨outcome, w₁⟩
  rcases hRun' : y w' with ⟨outcome', w₁'⟩
  rw [hRun, hRun'] at hSame hThen
  cases hSame
  cases outcome <;> exact ⟨rfl, hThen⟩

/- Lists of steps agree when the steps do. -/
theorem eachFrom
    {f g : Nat → α → Action β}
    {items : List α}
    (hItems : ∀ i, ∀ a ∈ items, Agree hidden (f i a) (g i a))
    (start : Nat) :
    Agree hidden (Interop.eachFrom f start items)
      (Interop.eachFrom g start items) := by
  induction items generalizing start with
  | nil => exact pure []
  | cons a rest ih =>
      unfold Interop.eachFrom
      refine bind (hItems start a (by simp)) ?_
      intro b
      refine bind ?_ ?_
      · apply ih
        intro i x hMem
        exact hItems i x (List.mem_cons_of_mem a hMem)
      · intro bs
        exact pure (b :: bs)

end Agree

end Action

------------------------------------------------------------
-- Exports
------------------------------------------------------------

namespace HostType

variable {s : Schema} {hidden : Event → Bool}

/- A domain value does not see the log. -/
theorem offered_agree
    (t : HostType)
    (v : Value) :
    Action.Agree hidden (t.offered s v) (t.offered s v) := by
  cases v with
  | any id e =>
      refine Action.Agree.bind (.onHost e.produce) ?_
      intro form
      cases form with
      | none => exact .pure none
      | some h =>
          refine Action.Agree.bind (.fromHeap _) ?_
          intro fitted
          cases fitted with
          | some k => exact .pure (some k)
          | none =>
              refine Action.Agree.bind (.emit _) ?_
              intro u
              exact .pure none
  | _ => exact .pure none

/- An export does not depend on what was logged before. -/
theorem exportAs_agree
    (t : HostType)
    (v : Value) :
    Action.Agree hidden (t.exportAs s v) (t.exportAs s v) := by
  induction t generalizing v with
  | seq elem ih =>
      refine Action.Agree.bind (offered_agree _ v) ?_
      intro fitted
      cases fitted with
      | some h => exact .pure h
      | none =>
          cases v with
          | array shape values =>
              refine Action.Agree.bind ?_ ?_
              · apply Action.Agree.eachFrom
                intro i item hMem
                exact (ih item).mapError
              · intro items
                exact .pure (HostValue.seq items)
          | _ => exact .fail _
  | _ =>
      refine Action.Agree.bind (offered_agree _ v) ?_
      intro fitted
      cases fitted with
      | some h => exact .pure h
      | none => exact .fromHeap _

end HostType

end Interop
