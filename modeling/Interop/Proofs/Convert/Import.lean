import Interop.Convert.Import
import Interop.Proofs.Heap

/-
  Imports step by step: which values a type takes, what a
  list of imports goes through, and what an import does to
  the objects. An import adds objects only, and it looks at
  the old ones for their record types alone, so that it runs
  the same when another record of one type is stored first.

  Main declarations:
    * `HostType.Import.eachFrom_cons_eq_ok_iff`
    * `HostType.Import.eachFrom_cons_eq_error_iff`
    * `HostType.importAs_seq_eq_ok_iff`
    * `HostType.importAs_seq_eq_error_iff`
    * `HostType.importRef_eq_ok_iff`
    * `HostType.importRef_eq_error_iff`
    * `HostType.importAs_goes`
    * `HostType.importAs_eq_error_at_once`
    * `HostType.Import.IsLocal`
    * `HostType.importAs_isLocal`
-/

namespace Interop

namespace HostType

namespace Import

variable {α β : Type}

/- Steps over a list succeed when each of them does. -/
theorem eachFrom_cons_eq_ok_iff
    {f : Nat → α → StateT Heap (Except Error) β}
    {i : Nat}
    {a : α}
    {rest : List α}
    {heap heap' : Heap}
    {results : List β} :
    eachFrom f i (a :: rest) heap = .ok (results, heap') ↔
      ∃ b bs mid,
        f i a heap = .ok (b, mid) ∧
        eachFrom f (i + 1) rest mid = .ok (bs, heap') ∧
        results = b :: bs := by
  simp only [eachFrom, bind, StateT.bind, Except.bind]
  cases hFirst : f i a heap with
  | error e => simp
  | ok r =>
      rcases r with ⟨b, mid⟩
      simp only
      cases hRest : eachFrom f (i + 1) rest mid with
      | error e => simp [hRest]
      | ok r =>
          rcases r with ⟨bs, last⟩
          change Except.ok (b :: bs, last) = .ok (results, heap') ↔ _
          simp only [Except.ok.injEq, Prod.mk.injEq]
          constructor
          · rintro ⟨rfl, rfl⟩
            exact ⟨b, bs, mid, ⟨rfl, rfl⟩, hRest, rfl⟩
          · rintro ⟨b', bs', mid', ⟨rfl, rfl⟩, hRest', rfl⟩
            rw [hRest] at hRest'
            cases hRest'
            exact ⟨rfl, rfl⟩

/- A sequence fails in its first part or after it. -/
theorem bind_eq_error_iff
    {x : StateT Heap (Except Error) α}
    {f : α → StateT Heap (Except Error) β}
    {heap : Heap}
    {e : Error} :
    (x >>= f) heap = .error e ↔
      x heap = .error e ∨
        ∃ a mid, x heap = .ok (a, mid) ∧ f a mid = .error e := by
  simp only [bind, StateT.bind, Except.bind]
  cases hFirst : x heap with
  | error cause => simp
  | ok r =>
      rcases r with ⟨a, mid⟩
      constructor
      · intro hFails
        exact .inr ⟨a, mid, rfl, hFails⟩
      · rintro (hFails | ⟨a', mid', hSame, hFails⟩)
        · cases hFails
        · cases hSame
          exact hFails

/- Finishing a result does not fail. -/
theorem map_eq_error_iff
    {x : StateT Heap (Except Error) α}
    {f : α → β}
    {heap : Heap}
    {e : Error} :
    (x >>= fun a => pure (f a)) heap = .error e ↔
      x heap = .error e := by
  rw [bind_eq_error_iff, or_iff_left]
  rintro ⟨a, mid, hFirst, hFails⟩
  cases hFails

/- Steps over a list fail with the first that fails. -/
theorem eachFrom_cons_eq_error_iff
    {f : Nat → α → StateT Heap (Except Error) β}
    {i : Nat}
    {a : α}
    {rest : List α}
    {heap : Heap}
    {e : Error} :
    eachFrom f i (a :: rest) heap = .error e ↔
      f i a heap = .error e ∨
        ∃ b mid,
          f i a heap = .ok (b, mid) ∧
          eachFrom f (i + 1) rest mid = .error e := by
  simp only [eachFrom, bind_eq_error_iff (x := f i a),
    map_eq_error_iff]

/- A failure that is wrapped does not become a success. -/
theorem mapError_eq_ok_iff
    {r : Except Error α}
    {wrap : Error → Error}
    {a : α} :
    r.mapError wrap = .ok a ↔ r = .ok a := by
  cases r with
  | error e =>
      constructor
      · intro hWrapped
        cases hWrapped
      · intro hFails
        cases hFails
  | ok b => exact Iff.rfl

/- A wrapped failure is there when its cause is. -/
theorem mapError_eq_error_iff
    {r : Except Error α}
    {wrap : Error → Error}
    {e : Error} :
    r.mapError wrap = .error e ↔
      ∃ cause, r = .error cause ∧ e = wrap cause := by
  cases r with
  | error cause =>
      constructor
      · intro hWrapped
        cases hWrapped
        exact ⟨cause, rfl, rfl⟩
      · rintro ⟨same, hFails, rfl⟩
        cases hFails
        rfl
  | ok b =>
      constructor
      · intro hWrapped
        cases hWrapped
      · rintro ⟨cause, hFails, hWrap⟩
        cases hFails

end Import

variable {s : Schema} {heap heap' : Heap}

/- Importing one element of a sequence. -/
abbrev importItem
    (s : Schema)
    (elem : HostType)
    (i : Nat)
    (item : HostValue) : Import Value :=
  fun heap => (elem.importAs s item heap).mapError (.element i)

/- A sequence arrives as the vector of its elements. -/
theorem importAs_seq_eq_ok_iff
    {elem : HostType}
    {items : List HostValue}
    {v : Value} :
    (HostType.seq elem).importAs s (.seq items) heap =
        .ok (v, heap') ↔
      ∃ values,
        each (importItem s elem) items heap =
          .ok (values, heap') ∧
        v = .vector values := by
  simp only [importAs, bind, StateT.bind, Except.bind]
  cases hEach : each (importItem s elem) items heap with
  | error e => simp
  | ok r =>
      rcases r with ⟨values, last⟩
      change Except.ok (Value.vector values, last) =
        .ok (v, heap') ↔ _
      simp only [Except.ok.injEq, Prod.mk.injEq]
      constructor
      · rintro ⟨rfl, rfl⟩
        exact ⟨values, ⟨rfl, rfl⟩, rfl⟩
      · rintro ⟨values', ⟨rfl, rfl⟩, rfl⟩
        exact ⟨rfl, rfl⟩

/- A sequence fails to arrive as its elements do. -/
theorem importAs_seq_eq_error_iff
    {elem : HostType}
    {items : List HostValue}
    {e : Error} :
    (HostType.seq elem).importAs s (.seq items) heap = .error e ↔
      each (importItem s elem) items heap = .error e :=
  Import.map_eq_error_iff

/- A reference arrives as the box of its record. -/
theorem importRef_eq_ok_iff
    {id : RecordId}
    {h : Handle}
    {v : Value} :
    importRef s id h heap = .ok (v, heap') ↔
      heap.isReadable h = true ∧
        (heap.content h).isRecordOf id = true ∧
        v = .boxed (.whole h (.record id)) ∧
        heap' = heap := by
  unfold importRef
  split
  · rename_i hCheck
    simp only [Bool.and_eq_true] at hCheck
    simp only [Except.ok.injEq, Prod.mk.injEq, hCheck,
      true_and]
    constructor
    · rintro ⟨rfl, rfl⟩
      exact ⟨rfl, rfl⟩
    · rintro ⟨rfl, rfl⟩
      exact ⟨rfl, rfl⟩
  · rename_i hCheck
    simp only [Bool.and_eq_true] at hCheck
    simp only [reduceCtorEq, false_iff]
    intro hAll
    exact hCheck ⟨hAll.1, hAll.2.1⟩

/- It does not if a writer has the object, or it is another. -/
theorem importRef_eq_error_iff
    {id : RecordId}
    {h : Handle}
    {e : Error} :
    importRef s id h heap = .error e ↔
      ¬ (heap.isReadable h = true ∧
        (heap.content h).isRecordOf id = true) ∧
      e = .conversion "reference" ((HostType.ref id).text s) := by
  rw [← Bool.and_eq_true, importRef]
  by_cases hCheck :
      (heap.isReadable h && (heap.content h).isRecordOf id) = true
  · simp [hCheck]
  · simp only [hCheck, if_false, Bool.false_eq_true,
      not_false_eq_true, true_and, Except.error.injEq]
    exact eq_comm

/-
  How a host value is imported at once, without elements
  being imported first: as a scalar, as the empty value, as a
  record in a fresh object, as the box of an object, or not
  at all.
-/
inductive Import.Goes
    (s : Schema)
    (t : HostType)
    (v : HostValue) : Import Value → Prop where
| scalar
    (a : Scalar) :
    Goes s t v (pure (.scalar a))
| empty :
    Goes s t v (pure .empty)
| record
    {id : RecordId}
    (hType : t = .record id)
    (hRecord : v.isRecordOf id = true) :
    Goes s t v (importRecord id v)
| ref
    {id : RecordId}
    {h : Handle}
    (hType : t = .ref id)
    (hValue : v = .ref h) :
    Goes s t v (importRef s id h)
| refused
    (e : Error) :
    Goes s t v (throw e)

/- All but sequences of a sequence type is imported at once. -/
theorem importAs_goes
    {t : HostType}
    {v : HostValue}
    (hNoElements : ∀ elem items, t = .seq elem → v ≠ .seq items) :
    Import.Goes s t v (t.importAs s v) := by
  cases t with
  | seq elem =>
      cases v with
      | seq items => exact absurd rfl (hNoElements elem items rfl)
      | _ => exact .refused _
  | int kind =>
      cases v with
      | int i => exact .scalar _
      | uint n =>
          simp only [importAs]
          split
          · exact .scalar _
          · exact .refused _
      | _ => exact .refused _
  | record id =>
      cases v with
      | record own values =>
          simp only [importAs]
          split
          · rename_i hOwn
            exact .record rfl (by simp [HostValue.isRecordOf, hOwn])
          · exact .refused _
      | _ => exact .refused _
  | ref id =>
      cases v with
      | nil => exact .empty
      | ref h => exact .ref rfl rfl
      | _ => exact .refused _
  | _ =>
      cases v <;>
        first
        | exact .scalar _
        | exact .refused _

/- An import that fails at once does not find what fits. -/
theorem importAs_eq_error_at_once
    {t : HostType}
    {v : HostValue}
    {e : Error}
    (hNoElements : ∀ elem items, t = .seq elem → v ≠ .seq items)
    (hImport : t.importAs s v heap = .error e) :
    (∃ got want, e = .conversion got want) ∨
      ∃ kind, e = .unsupported kind := by
  cases t with
  | seq elem =>
      cases v with
      | seq items => exact absurd rfl (hNoElements elem items rfl)
      | _ =>
          cases hImport
          exact .inl ⟨_, _, rfl⟩
  | int kind =>
      cases v with
      | int i => cases hImport
      | uint n =>
          simp only [importAs] at hImport
          split at hImport
          · cases hImport
          · cases hImport
            exact .inl ⟨_, _, rfl⟩
      | _ =>
          cases hImport
          exact .inl ⟨_, _, rfl⟩
  | record id =>
      cases v with
      | record own values =>
          simp only [importAs] at hImport
          split at hImport
          · cases hImport
          · cases hImport
            exact .inl ⟨_, _, rfl⟩
      | _ =>
          cases hImport
          exact .inl ⟨_, _, rfl⟩
  | ref id =>
      cases v with
      | nil => cases hImport
      | ref h =>
          exact .inl ⟨_, _, (importRef_eq_error_iff.mp hImport).2⟩
      | _ =>
          cases hImport
          exact .inl ⟨_, _, rfl⟩
  | _ =>
      cases v <;>
        first
        | (cases hImport; exact .inl ⟨_, _, rfl⟩)
        | (cases hImport; exact .inr ⟨_, rfl⟩)
        | cases hImport

------------------------------------------------------------
-- Effects of Imports
------------------------------------------------------------

namespace Import

variable {α β : Type}

/-
  An import adds objects only. It ends the same way when an
  object holds another record of its type, and what it adds
  is the same.
-/
structure IsLocal
    (x : StateT Heap (Except Error) α) : Prop where
  adds : ∀ {heap heap' : Heap} {a : α},
    x heap = .ok (a, heap') → heap.cells <+: heap'.cells
  store : ∀ {heap : Heap} {h : Handle} {new : HostValue},
    h.index < heap.size →
    (∀ id, new.isRecordOf id = (heap.content h).isRecordOf id) →
      x (heap.store h new) =
        (x heap).map fun r => (r.1, r.2.store h new)

namespace IsLocal

/- What looks at no object is local. -/
theorem of_const
    {x : StateT Heap (Except Error) α}
    (r : Except Error α)
    (hConst : ∀ heap, x heap = r.map fun a => (a, heap)) :
    IsLocal x where
  adds {heap heap' a} hRun := by
    rw [hConst] at hRun
    cases r with
    | error e => simp [Except.map] at hRun
    | ok b =>
        cases hRun
        exact List.prefix_refl _
  store {heap h new} hIn hKind := by
    rw [hConst, hConst]
    cases r <;> rfl

theorem bind
    {x : StateT Heap (Except Error) α}
    {f : α → StateT Heap (Except Error) β}
    (hFirst : IsLocal x)
    (hRest : ∀ a, IsLocal (f a)) :
    IsLocal (x >>= f) where
  adds {heap heap' b} hRun := by
    simp only [Bind.bind, StateT.bind, Except.bind] at hRun
    cases hMid : x heap with
    | error e => simp [hMid] at hRun
    | ok r =>
        rcases r with ⟨a, mid⟩
        simp only [hMid] at hRun
        exact (hFirst.adds hMid).trans ((hRest a).adds hRun)
  store {heap h new} hIn hKind := by
    simp only [Bind.bind, StateT.bind, Except.bind]
    rw [hFirst.store hIn hKind]
    cases hMid : x heap with
    | error e => rfl
    | ok r =>
        rcases r with ⟨a, mid⟩
        -- the first step added objects, which keeps the old one
        have hAdds := hFirst.adds hMid
        have hCell := Heap.cell_of_isPrefix hAdds hIn
        have hStill : h.index < mid.size :=
          Nat.lt_of_lt_of_le hIn hAdds.length_le
        apply (hRest a).store hStill
        intro id
        rw [Heap.content, hCell]
        exact hKind id

theorem mapError
    {x : StateT Heap (Except Error) α}
    (hLocal : IsLocal x)
    (wrap : Error → Error) :
    IsLocal fun heap => (x heap).mapError wrap where
  adds hRun := hLocal.adds (mapError_eq_ok_iff.mp hRun)
  store {heap h new} hIn hKind := by
    simp only [hLocal.store hIn hKind]
    cases x heap <;> rfl

theorem eachFrom
    {f : Nat → α → StateT Heap (Except Error) β}
    {items : List α}
    (hItems : ∀ i, ∀ a ∈ items, IsLocal (f i a))
    (start : Nat) :
    IsLocal (Interop.eachFrom f start items) := by
  induction items generalizing start with
  | nil => exact of_const (.ok []) fun heap => rfl
  | cons a rest ih =>
      refine bind (hItems start a (by simp)) ?_
      intro b
      refine bind ?_ ?_
      · apply ih
        intro i x hMem
        exact hItems i x (List.mem_cons_of_mem a hMem)
      · intro bs
        exact of_const (.ok (b :: bs)) fun heap => rfl

end IsLocal

end Import

/- Moving a record into a fresh object is local. -/
theorem importRecord_isLocal
    (id : RecordId)
    (v : HostValue) :
    Import.IsLocal (importRecord id v) where
  adds {heap heap' a} hRun := by
    cases hRun
    exact Heap.cells_prefix_alloc heap v
  store {heap h new} hIn hKind := by
    have hNext :
        ((heap.store h new).alloc v).1 = (heap.alloc v).1 :=
      Heap.next_store heap h new
    simp only [importRecord, hNext, Heap.alloc_store hIn]
    rfl

/- A reference is followed to the type of its record only. -/
theorem importRef_isLocal
    (id : RecordId)
    (k : Handle) :
    Import.IsLocal (importRef s id k) where
  adds {heap heap' a} hRun := by
    rcases importRef_eq_ok_iff.mp hRun with
      ⟨hReadable, hRecord, hBox, hSame⟩
    subst hSame
    exact List.prefix_refl _
  store {heap h new} hIn hKind := by
    have hType :
        ((heap.store h new).content k).isRecordOf id =
          (heap.content k).isRecordOf id := by
      by_cases hEq : k = h
      · rw [hEq, Heap.content_store_self hIn]
        exact hKind id
      · rw [Heap.content_store_of_ne hEq]
    simp only [importRef, Heap.isReadable_store, hType]
    split <;> rfl

/- What is imported at once is local. -/
theorem Import.Goes.isLocal
    {t : HostType}
    {v : HostValue}
    {x : Import Value}
    (hGoes : Goes s t v x) :
    IsLocal x := by
  cases hGoes with
  | scalar a => exact .of_const (.ok (.scalar a)) fun heap => rfl
  | empty => exact .of_const (.ok .empty) fun heap => rfl
  | record hType hRecord => exact importRecord_isLocal _ v
  | ref hType hValue => exact importRef_isLocal _ _
  | refused e => exact .of_const (.error e) fun heap => rfl

/- Every import is local. -/
theorem importAs_isLocal
    (t : HostType)
    (v : HostValue) :
    Import.IsLocal (t.importAs s v) := by
  induction t generalizing v with
  | seq elem ih =>
      cases v with
      | seq items =>
          refine Import.IsLocal.bind ?_ ?_
          · apply Import.IsLocal.eachFrom
            intro i item hMem
            exact (ih item).mapError _
          · intro values
            exact .of_const (.ok (.vector values)) fun heap => rfl
      | _ => exact (importAs_goes (by simp)).isLocal
  | _ => exact (importAs_goes (by simp)).isLocal

end HostType

end Interop
