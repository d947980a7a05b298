import Interop.Proofs.Convert.Export
import Interop.Proofs.Place

/-
  Actions that have nothing to do with an object. They leave
  the object alone, and they do not see what record it holds:
  whatever record of the same type is there, they run alike.

  An export is such an action if its operand has no box of
  the object, and no domain value that looks at it.

  Main declarations:
    * `World.storing`
    * `Action.Spares`
    * `Action.Spares.putAt`
    * `Value.Ignores`
    * `HostType.exportAs_spares`
-/

namespace Interop

------------------------------------------------------------
-- Other Contents
------------------------------------------------------------

/- The world in which an object has another content. -/
def World.storing
    (w : World)
    (h : Handle)
    (new : HostValue) : World :=
  w.withHeap (w.heap.store h new)

/- Storing a record of the old type keeps all record types. -/
theorem Heap.isRecordOf_store
    {heap : Heap}
    {h k : Handle}
    {id own : RecordId}
    {new : HostValue}
    (hOld : (heap.content h).isRecordOf id = true)
    (hNew : new.isRecordOf id = true) :
    ((heap.store h new).content k).isRecordOf own =
      (heap.content k).isRecordOf own := by
  by_cases hEq : k = h
  · rw [hEq, content_store_self (lt_size_of_isRecordOf hOld)]
    rcases HostValue.isRecordOf_iff.mp hNew with ⟨values, rfl⟩
    rcases HostValue.isRecordOf_iff.mp hOld with ⟨old, hContent⟩
    rw [hContent]
    rfl
  · rw [content_store_of_ne hEq]

namespace HostType

variable {s : Schema} {heap : Heap} {h : Handle}
variable {id : RecordId} {new : HostValue}

/- Fitting looks at the record types of objects only. -/
theorem fit_store
    (hOld : (heap.content h).isRecordOf id = true)
    (hNew : new.isRecordOf id = true)
    (t : HostType)
    (form : HostValue) :
    t.fit (heap.store h new) form = t.fit heap form := by
  induction t generalizing form with
  | seq elem ih =>
      cases form with
      | seq items => simp only [fit, ih]
      | _ => rfl
  | ref own =>
      cases form with
      | ref k =>
          have hAdmits :
              (HostType.ref own).admits (heap.store h new)
                  (.ref k) =
                (HostType.ref own).admits heap (.ref k) := by
            simp only [admits, Heap.isReadable_store,
              Heap.isRecordOf_store hOld hNew]
          simp only [fit]
          rw [hAdmits]
      | _ => rfl
  | _ => cases form <;> rfl

/- The rules of a type look at the boxed object only. -/
theorem exportPlain_store
    {v : Value}
    (hApart : ∀ b, v = .boxed b → b.handle ≠ h)
    (t : HostType) :
    t.exportPlain s (heap.store h new) v =
      t.exportPlain s heap v := by
  cases v with
  | boxed b =>
      have hRead : b.read s (heap.store h new) = b.read s heap :=
        Box.read_congr (Heap.cell_store_of_ne (hApart b rfl))
      cases t <;>
        simp only [exportPlain, exportRecord, exportRef, hRead]
  | scalar a => cases t <;> cases a <;> rfl
  | _ => cases t <;> rfl

end HostType

------------------------------------------------------------
-- Actions Apart from an Object
------------------------------------------------------------

namespace Action

variable {α β : Type} {h : Handle} {id : RecordId}

/-
  The action has nothing to do with an object that holds a
  record of a type: it leaves the object as it is, and it
  does the same if another such record is there.
-/
structure Spares
    (h : Handle)
    (id : RecordId)
    (x : Action α) : Prop where
  keeps : ∀ w, (w.heap.content h).isRecordOf id = true →
    (x w).2.heap.cell h = w.heap.cell h
  blind : ∀ w new, (w.heap.content h).isRecordOf id = true →
    new.isRecordOf id = true →
      x (w.storing h new) = ((x w).1, (x w).2.storing h new)

namespace Spares

theorem pure
    (a : α) :
    Spares h id (pure a : Action α) :=
  ⟨fun _ _ => rfl, fun _ _ _ _ => rfl⟩

theorem fail
    (e : Error) :
    Spares h id (Action.fail e : Action α) :=
  ⟨fun _ _ => rfl, fun _ _ _ _ => rfl⟩

theorem emit
    (e : Event) :
    Spares h id (Action.emit e) :=
  ⟨fun _ _ => rfl, fun _ _ _ _ => rfl⟩

theorem fromHeap
    {f : Heap → Except Error α}
    (hBlind : ∀ (heap : Heap) (new : HostValue),
      (heap.content h).isRecordOf id = true →
      new.isRecordOf id = true →
        f (heap.store h new) = f heap) :
    Spares h id (Action.fromHeap f) where
  keeps _ _ := rfl
  blind w new hOld hNew := by
    rw [fromHeap_apply, fromHeap_apply,
      ← hBlind w.heap new hOld hNew]
    rfl

/- The object is still there for the second part. -/
theorem bind
    {x : Action α}
    {f : α → Action β}
    (hFirst : Spares h id x)
    (hRest : ∀ a, Spares h id (f a)) :
    Spares h id (x >>= f) where
  keeps w hOld := by
    have hKeeps := hFirst.keeps w hOld
    rw [bind_apply]
    rcases hRun : x w with ⟨outcome, w₁⟩
    rw [hRun] at hKeeps
    cases outcome with
    | error e => exact hKeeps
    | ok a =>
        have hStill : (w₁.heap.content h).isRecordOf id = true := by
          rw [Heap.content, hKeeps]
          exact hOld
        exact ((hRest a).keeps w₁ hStill).trans hKeeps
  blind w new hOld hNew := by
    have hKeeps := hFirst.keeps w hOld
    rw [bind_apply, bind_apply, hFirst.blind w new hOld hNew]
    rcases hRun : x w with ⟨outcome, w₁⟩
    rw [hRun] at hKeeps
    cases outcome with
    | error e => rfl
    | ok a =>
        have hStill : (w₁.heap.content h).isRecordOf id = true := by
          rw [Heap.content, hKeeps]
          exact hOld
        exact (hRest a).blind w₁ new hStill hNew

theorem mapError
    {wrap : Error → Error}
    {x : Action α}
    (hSpares : Spares h id x) :
    Spares h id (Action.mapError wrap x) where
  keeps w hOld := by
    have hKeeps := hSpares.keeps w hOld
    unfold Action.mapError
    rcases hRun : x w with ⟨outcome, w₁⟩
    rw [hRun] at hKeeps
    cases outcome <;> exact hKeeps
  blind w new hOld hNew := by
    unfold Action.mapError
    rw [hSpares.blind w new hOld hNew]
    rcases x w with ⟨_ | _, _⟩ <;> rfl

/- A list of steps has as little to do with it as each step. -/
theorem eachFrom
    {f : Nat → α → Action β}
    {items : List α}
    (hItems : ∀ i, ∀ a ∈ items, Spares h id (f i a))
    (start : Nat) :
    Spares h id (Interop.eachFrom f start items) := by
  induction items generalizing start with
  | nil => exact pure []
  | cons a rest ih =>
      unfold Interop.eachFrom
      refine bind (hItems start a List.mem_cons_self) ?_
      intro b
      refine bind ?_ ?_
      · apply ih
        intro i x hMem
        exact hItems i x (List.mem_cons_of_mem a hMem)
      · intro bs
        exact pure (b :: bs)

/-
  Such an action and a change inside the object may change
  places, whatever record the object holds.
-/
theorem putAt
    {x : Action α}
    {w : World}
    {path : List Nat}
    {old : HostValue}
    (hSpares : ∀ id, Spares h id x)
    (hPath : path ≠ [])
    (hAt : (w.heap.content h).at? path = some old)
    (new : HostValue) :
    (x w).2.heap.cell h = w.heap.cell h ∧
      x (w.withHeap (w.heap.putAt h path new)) =
        ((x w).1,
          (x w).2.withHeap ((x w).2.heap.putAt h path new)) := by
  rcases HostValue.exists_isRecordOf_of_at? hPath hAt with
    ⟨root, hRoot⟩
  have hKeeps := (hSpares root).keeps w hRoot
  have hKind :
      (HostValue.replaceAt path new (w.heap.content h)).isRecordOf
        root = true := by
    rw [HostValue.isRecordOf_replaceAt hPath]
    exact hRoot
  have hContent : (x w).2.heap.content h = w.heap.content h := by
    rw [Heap.content, hKeeps, Heap.content]
  refine ⟨hKeeps, ?_⟩
  rw [Heap.putAt, Heap.putAt, hContent]
  exact (hSpares root).blind w _ hRoot hKind

end Spares

end Action

------------------------------------------------------------
-- Exports Apart from an Object
------------------------------------------------------------

/-
  Finding the host form has nothing to do with an object,
  whatever type of record it holds.
-/
def Exportable.Ignores
    (h : Handle)
    (e : Exportable) : Prop :=
  ∀ id, (Action.onHost e.produce).Spares h id

/-
  The value does not refer to an object: no box in it is one
  of the object, and no domain value looks at it.
-/
structure Value.Ignores
    (h : Handle)
    (v : Value) : Prop where
  boxes : ∀ b, Within (.boxed b) v → b.handle ≠ h
  forms : ∀ id e, Within (.any id e) v → e.Ignores h

/- What occurs in such a value does not refer to it either. -/
theorem Value.Ignores.of_within
    {h : Handle}
    {u v : Value}
    (hIgnores : v.Ignores h)
    (hWithin : Within u v) :
    u.Ignores h where
  boxes b hInside := hIgnores.boxes b (hInside.trans hWithin)
  forms id e hInside := hIgnores.forms id e (hInside.trans hWithin)

namespace HostType

variable {s : Schema} {h : Handle} {id : RecordId}

/- Offering a host form does what finding it does. -/
theorem offered_spares
    {v : Value}
    (hIgnores : v.Ignores h)
    (t : HostType) :
    (t.offered s v).Spares h id := by
  cases v with
  | any n e =>
      refine .bind (hIgnores.forms n e (.self _) id) ?_
      intro form
      cases form with
      | none => exact .pure none
      | some k =>
          refine .bind (.fromHeap ?_) ?_
          · intro heap new hOld hNew
            rw [fit_store hOld hNew]
          · intro fitted
            cases fitted with
            | some u => exact .pure (some u)
            | none => exact .bind (.emit _) fun _ => .pure none
  | _ => exact .pure none

/-
  An export of a value that does not refer to an object has
  nothing to do with it. The induction follows the type.
-/
theorem exportAs_spares
    {v : Value}
    (hIgnores : v.Ignores h)
    (t : HostType) :
    (t.exportAs s v).Spares h id := by
  induction t generalizing v with
  | seq elem ih =>
      refine .bind (offered_spares hIgnores _) ?_
      intro fitted
      cases fitted with
      | some k => exact .pure k
      | none =>
          cases v with
          | array shape values =>
              refine .bind (.eachFrom ?_ 0) ?_
              · intro i item hMem
                exact (ih (hIgnores.of_within
                  (.arrayItem hMem (.self _)))).mapError
              · intro items
                exact .pure (HostValue.seq items)
          | _ => exact .fail _
  | _ =>
      refine .bind (offered_spares hIgnores _) ?_
      intro fitted
      cases fitted with
      | some k => exact .pure k
      | none =>
          apply Action.Spares.fromHeap
          intro heap new hOld hNew
          apply exportPlain_store
          rintro b rfl
          exact hIgnores.boxes b (.self _)

end HostType

end Interop
