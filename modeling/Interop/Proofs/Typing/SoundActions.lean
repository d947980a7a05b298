import Interop.Proofs.Display
import Interop.Proofs.Typing.Operations
import Interop.Proofs.Typing.Writing

/-
  Actions on sound heaps, whoever has the objects. An action
  ends soundly if the heap that it leaves is sound, also when
  it fails, and something holds of its result. Constructors,
  conversions and accesses to members end soundly, and the
  boxes in what they give conform.

  Main declarations:
    * `Action.EndsSound`
    * `Action.EndsSound.bind`
    * `HostType.Import.GoesFreed`
    * `HostType.importAs_endsSound`
    * `HostType.construct_endsSound`
    * `Box.field_endsSound`
    * `Box.set_endsSound`
-/

namespace Interop

------------------------------------------------------------
-- Actions That End Soundly
------------------------------------------------------------

namespace Action

variable {α β : Type}

/-
  Started here, the action leaves a sound heap, and if it
  succeeds, `post` holds of the result and that heap.
-/
def EndsSound
    (s : Schema)
    (x : Action α)
    (w : World)
    (post : α → Heap → Prop) : Prop :=
  (x w).2.heap.IsSound s ∧
    ∀ a, (x w).1 = .ok a → post a (x w).2.heap

namespace EndsSound

variable {s : Schema} {x : Action α} {w : World}
variable {post : α → Heap → Prop}

/- What changes no object leaves the heap as it is. -/
theorem of_heap_eq
    (hSound : w.heap.IsSound s)
    (hSame : (x w).2.heap = w.heap)
    (hPost : ∀ a, (x w).1 = .ok a → post a w.heap) :
    EndsSound s x w post := by
  unfold EndsSound
  rw [hSame]
  exact ⟨hSound, hPost⟩

theorem pure
    {a : α}
    (hSound : w.heap.IsSound s)
    (hPost : post a w.heap) :
    EndsSound s (pure a) w post := by
  refine of_heap_eq hSound rfl ?_
  intro b hOk
  cases hOk
  exact hPost

theorem fail
    {e : Error}
    (hSound : w.heap.IsSound s) :
    EndsSound s (Action.fail e : Action α) w post := by
  refine of_heap_eq hSound rfl ?_
  intro a hOk
  cases hOk

theorem ofExcept
    {r : Except Error α}
    (hSound : w.heap.IsSound s)
    (hPost : ∀ a, r = .ok a → post a w.heap) :
    EndsSound s (Action.ofExcept r) w post :=
  of_heap_eq hSound rfl hPost

theorem emit
    (event : Event)
    (hSound : w.heap.IsSound s) :
    EndsSound s (Action.emit event) w fun _ _ => True :=
  of_heap_eq hSound rfl fun _ _ => trivial

theorem fresh
    (hSound : w.heap.IsSound s) :
    EndsSound s Action.fresh w fun _ _ => True :=
  of_heap_eq hSound rfl fun _ _ => trivial

/- A change of the objects that fails changes none. -/
theorem onHeap
    {f : Heap → Except Error (α × Heap)}
    (hSound : w.heap.IsSound s)
    (hChange : ∀ a heap, f w.heap = .ok (a, heap) →
      heap.IsSound s ∧ post a heap) :
    EndsSound s (Action.onHeap f) w post := by
  cases hRun : f w.heap with
  | error e =>
      have hApply := onHeap_of_error hRun
      refine of_heap_eq hSound (by rw [hApply]) ?_
      intro a hOk
      rw [hApply] at hOk
      cases hOk
  | ok r =>
      rcases r with ⟨a, heap⟩
      rcases hChange a heap hRun with ⟨hAfter, hPost⟩
      unfold EndsSound
      rw [onHeap_of_ok hRun]
      refine ⟨hAfter, ?_⟩
      intro b hOk
      cases hOk
      exact hPost

theorem changeHeap
    {f : Heap → Except Error Heap}
    {post : Unit → Heap → Prop}
    (hSound : w.heap.IsSound s)
    (hChange : ∀ heap, f w.heap = .ok heap →
      heap.IsSound s ∧ post () heap) :
    EndsSound s (Action.changeHeap f) w post := by
  apply onHeap hSound
  intro u heap hRun
  cases hOk : f w.heap with
  | error e =>
      rw [hOk] at hRun
      cases hRun
  | ok later =>
      rw [hOk] at hRun
      cases hRun
      exact hChange heap hOk

/- The second part starts where the first one has ended. -/
theorem bind
    {f : α → Action β}
    {final : β → Heap → Prop}
    (hFirst : EndsSound s x w post)
    (hRest : ∀ a w', x w = (.ok a, w') → w'.heap.IsSound s →
      post a w'.heap → EndsSound s (f a) w' final) :
    EndsSound s (x >>= f) w final := by
  unfold EndsSound at hFirst ⊢
  rw [bind_apply]
  rcases hRun : x w with ⟨outcome, w'⟩
  rw [hRun] at hFirst
  cases outcome with
  | error e =>
      refine ⟨hFirst.1, ?_⟩
      intro b hOk
      cases hOk
  | ok a => exact hRest a w' hRun hFirst.1 (hFirst.2 a rfl)

/- After a look at the objects, the rest starts where it did. -/
theorem look
    {f : Heap → Except Error α}
    {rest : α → Action β}
    {final : β → Heap → Prop}
    (hSound : w.heap.IsSound s)
    (hRest : ∀ a, f w.heap = .ok a →
      EndsSound s (rest a) w final) :
    EndsSound s (Action.fromHeap f >>= rest) w final := by
  have hLook :
      EndsSound s (Action.fromHeap f) w fun _ _ => True :=
    of_heap_eq hSound rfl fun _ _ => trivial
  refine bind hLook ?_
  intro a w' hRun hSame hDone
  rw [fromHeap_apply, Prod.mk.injEq] at hRun
  rcases hRun with ⟨hOk, rfl⟩
  exact hRest a hOk

theorem map
    {f : α → β}
    {final : β → Heap → Prop}
    (hEnds : EndsSound s x w fun a => final (f a)) :
    EndsSound s (f <$> x) w final := by
  rw [map_eq_pure_bind]
  refine bind hEnds ?_
  intro a w' hRun hSound hPost
  exact pure hSound hPost

theorem mapError
    {wrap : Error → Error}
    (hEnds : EndsSound s x w post) :
    EndsSound s (Action.mapError wrap x) w post := by
  unfold EndsSound Action.mapError at *
  rcases hRun : x w with ⟨outcome, w'⟩
  rw [hRun] at hEnds
  cases outcome with
  | ok a => exact hEnds
  | error e =>
      refine ⟨hEnds.1, ?_⟩
      intro a hOk
      cases hOk

/-
  Steps over a list, if none of them changes the type of a
  record: each element is related to its result, and later
  steps do not undo that.
-/
theorem eachFrom
    {f : Nat → α → Action β}
    {r : α → β → Heap → Prop}
    {items : List α}
    (hItems : ∀ i, ∀ a ∈ items, ∀ w : World, w.heap.IsSound s →
      EndsSound s (f i a) w (r a))
    (hSteps : ∀ i, ∀ a ∈ items,
      (f i a).Steps fun w w' => w.heap.Retains w'.heap)
    (hStable : ∀ a b before after, Heap.Retains before after →
      r a b before → r a b after)
    (start : Nat)
    (hSound : w.heap.IsSound s) :
    EndsSound s (Interop.eachFrom f start items) w
      fun bs heap =>
        List.Forall₂ (fun a b => r a b heap) items bs := by
  induction items generalizing start w with
  | nil => exact pure hSound .nil
  | cons a rest ih =>
      have hTailItems : ∀ i, ∀ b ∈ rest, ∀ w : World,
          w.heap.IsSound s → EndsSound s (f i b) w (r b) := by
        intro i b hMem
        exact hItems i b (List.mem_cons_of_mem a hMem)
      have hTailSteps : ∀ i, ∀ b ∈ rest,
          (f i b).Steps fun w w' => w.heap.Retains w'.heap := by
        intro i b hMem
        exact hSteps i b (List.mem_cons_of_mem a hMem)
      refine bind (hItems start a List.mem_cons_self w hSound) ?_
      intro b w₁ hFirst hMid hRelated
      refine bind (ih hTailItems hTailSteps (start + 1) hMid) ?_
      intro bs w₂ hRest hEnd hOthers
      have hRetains := Action.Steps.eachFrom
        (R := fun w w' => w.heap.Retains w'.heap)
        (fun w => .refl w.heap) (fun _ _ _ => .trans)
        hTailSteps (start + 1) w₁
      rw [hRest] at hRetains
      exact pure hEnd
        (.cons (hStable a b _ _ hRetains hRelated) hOthers)

theorem weaken
    {final : α → Heap → Prop}
    (hEnds : EndsSound s x w post)
    (hImplies : ∀ a heap, heap.IsSound s → post a heap →
      final a heap) :
    EndsSound s x w final := by
  refine ⟨hEnds.1, ?_⟩
  intro a hOk
  exact hImplies a _ hEnds.1 (hEnds.2 a hOk)

end EndsSound

end Action

------------------------------------------------------------
-- Conversions
------------------------------------------------------------

/- Boxes that are good once all is given back conform. -/
theorem Value.IsTyped.conforms
    {s : Schema}
    {heap : Heap}
    {v : Value}
    (hTyped : v.IsTyped s heap.freed) :
    v.Conforms heap := by
  intro b hWithin u hAt
  rcases (hTyped b (.boxed hWithin)).reads with
    ⟨content, hRead, hDeep⟩
  have hFound := (Box.read_eq_ok_iff.mp hRead).2
  rw [Heap.content_freed, hAt] at hFound
  cases hFound
  exact ⟨b.type, hDeep.shallow⟩

namespace HostType

variable {s : Schema} {w : World}

/- An export ends soundly, with what conforms deeply. -/
theorem exportAs_endsSound
    {v : Value}
    (t : HostType)
    (hFaithful : v.IsFaithful s)
    (hSound : w.heap.IsSound s) :
    Action.EndsSound s (t.exportAs s v) w
      fun h heap => t.AdmitsDeeply s heap.freed h := by
  refine ⟨isSound_exportAs hFaithful w hSound, ?_⟩
  intro h hOk
  exact admitsDeeply_exportAs hFaithful hSound
    (Prod.ext hOk rfl)

/-
  What succeeds does so when all objects are given back
  first, and leaves the same objects.
-/
def Import.GoesFreed
    {α : Type}
    (x : StateT Heap (Except Error) α) : Prop :=
  ∀ ⦃heap heap' : Heap⦄ ⦃a : α⦄,
    x heap = .ok (a, heap') →
      x heap.freed = .ok (a, heap'.freed)

namespace Import.GoesFreed

variable {α β : Type}

theorem mapError
    {x : StateT Heap (Except Error) α}
    (hGoes : GoesFreed x)
    (wrap : Error → Error) :
    GoesFreed fun heap => (x heap).mapError wrap := by
  intro heap heap' a hRun
  exact mapError_eq_ok_iff.mpr (hGoes (mapError_eq_ok_iff.mp hRun))

theorem eachFrom
    {f : Nat → α → StateT Heap (Except Error) β}
    {items : List α}
    (hItems : ∀ i, ∀ a ∈ items, GoesFreed (f i a))
    (start : Nat) :
    GoesFreed (Interop.eachFrom f start items) := by
  induction items generalizing start with
  | nil =>
      intro heap heap' a hRun
      cases hRun
      rfl
  | cons a rest ih =>
      intro heap heap' results hRun
      rcases eachFrom_cons_eq_ok_iff.mp hRun with
        ⟨b, bs, mid, hFirst, hRest, hBoth⟩
      have hTail : ∀ i, ∀ a ∈ rest, GoesFreed (f i a) := by
        intro i x hMem
        exact hItems i x (List.mem_cons_of_mem a hMem)
      exact eachFrom_cons_eq_ok_iff.mpr
        ⟨b, bs, mid.freed,
          hItems start a List.mem_cons_self hFirst,
          ih hTail (start + 1) hRest, hBoth⟩

end Import.GoesFreed

/- So does what is imported at once. -/
theorem Import.Goes.goesFreed
    {t : HostType}
    {h : HostValue}
    {x : Import Value}
    (hGoes : Goes s t h x) :
    GoesFreed x := by
  intro heap heap' v hRun
  cases hGoes with
  | scalar a =>
      cases hRun
      rfl
  | empty =>
      cases hRun
      rfl
  | record hType hRecord =>
      cases hRun
      change
        Except.ok (Value.boxed (.whole heap.freed.next _),
          (heap.freed.alloc h).2) =
        Except.ok (Value.boxed (.whole heap.next _),
          (heap.alloc h).2.freed)
      rw [Heap.next_freed, Heap.alloc_freed]
  | ref hType hValue =>
      rcases importRef_eq_ok_iff.mp hRun with
        ⟨hReadable, hRecord, rfl, rfl⟩
      exact importRef_eq_ok_iff.mpr
        ⟨Heap.isReadable_freed _ _, by simpa using hRecord, rfl, rfl⟩
  | refused e => cases hRun

/- So does every import. -/
theorem importAs_goesFreed
    (t : HostType)
    (h : HostValue) :
    Import.GoesFreed (t.importAs s h) := by
  induction t generalizing h with
  | seq elem ih =>
      cases h with
      | seq items =>
          intro heap heap' v hRun
          rcases importAs_seq_eq_ok_iff.mp hRun with
            ⟨values, hEach, hVector⟩
          have hItems : ∀ i, ∀ item ∈ items,
              Import.GoesFreed (importItem s elem i item) := by
            intro i item hMem
            exact (ih item).mapError _
          exact importAs_seq_eq_ok_iff.mpr
            ⟨values, Import.GoesFreed.eachFrom hItems 0 hEach,
              hVector⟩
      | _ => exact (importAs_goes (by simp)).goesFreed
  | _ => exact (importAs_goes (by simp)).goesFreed

/-
  An import ends soundly if it is well typed when all objects
  are given back.
-/
theorem Import.endsSound
    {α : Type}
    {x : StateT Heap (Except Error) α}
    (post : α → Heap → Prop)
    (hGoes : GoesFreed x)
    (hSound : w.heap.IsSound s)
    (hTyped : ∀ a heap, x w.heap.freed = .ok (a, heap) →
      Heap.Evolves s (fun _ => False) w.heap.freed heap ∧
        post a heap) :
    Action.EndsSound s (Action.onHeap x) w
      fun a heap => post a heap.freed := by
  apply Action.EndsSound.onHeap hSound
  intro a heap hRun
  rcases hTyped a heap.freed (hGoes hRun) with ⟨hEvolves, hPost⟩
  exact ⟨Heap.isSound_of_freed hEvolves.fits, hPost⟩

/- An import of records that fit makes boxes that conform. -/
theorem importAs_endsSound
    {h : HostValue}
    (t : HostType)
    (hSound : w.heap.IsSound s)
    (hFit : h.RecordsFit s w.heap.freed) :
    Action.EndsSound s (Action.onHeap (t.importAs s h)) w
      fun v heap => v.Conforms heap := by
  have hEnds :
      Action.EndsSound s (Action.onHeap (t.importAs s h)) w
        fun v heap => v.IsTyped s heap.freed := by
    apply Import.endsSound (·.IsTyped s) (importAs_goesFreed t h)
      hSound
    intro v heap hRun
    exact importAs_isSound t h hSound.wellTyped hFit hRun
  exact hEnds.weaken fun v heap hAfter hTyped => hTyped.conforms

------------------------------------------------------------
-- Constructors
------------------------------------------------------------

/- A constructor makes a box that conforms. -/
theorem construct_endsSound
    (t : HostType)
    (hSound : w.heap.IsSound s) :
    Action.EndsSound s (t.construct s) w
      fun b heap => b.Conforms heap := by
  unfold construct
  split
  · refine Action.EndsSound.bind (.emit _ hSound) ?_
    intro u w₁ hEmit hStart hDone
    have hDeep : t.allocated.AdmitsDeeply s w₁.heap.freed
        (t.allocated.zero s) := admitsDeeply_zero t.allocated
    have hAlloc :
        Action.EndsSound s
          (Action.onHost (·.alloc (t.allocated.zero s))) w₁
          fun h heap =>
            heap.content h = t.allocated.zero s := by
      refine ⟨hStart.alloc hDeep.records, ?_⟩
      intro h hOk
      cases hOk
      exact Heap.content_alloc_next w₁.heap _
    refine Action.EndsSound.bind hAlloc ?_
    intro h w₂ hRun hAfter hContent
    apply Action.EndsSound.pure hAfter
    apply Box.conforms_of_content (t := t.allocated) hAfter
    rw [Box.whole, hContent]
    exact admits_zero t.allocated
  · exact Action.EndsSound.fail hSound

end HostType

------------------------------------------------------------
-- Members
------------------------------------------------------------

namespace Box

variable {s : Schema} {b : Box} {w : World}

/- A field of a stored record has records that fit. -/
theorem recordsFit_of_readField
    {heap : Heap}
    {index : Nat}
    {v : HostValue}
    (hSound : heap.IsSound s)
    (hRead : b.readField s heap index = .ok v) :
    v.RecordsFit s heap.freed := by
  unfold readField at hRead
  split at hRead
  · rename_i id values hRecord
    split at hRead
    · rename_i hGet
      cases hRead
      have hWhole := (hSound b.handle).at?
        (read_eq_ok_iff.mp hRecord).2
      exact (HostValue.recordsFit_record_iff.mp hWhole).2 v
        (List.mem_of_getElem? hGet)
    · cases hRead
  · cases hRead
  · cases hRead

/- A field is projected or imported. -/
theorem fieldAt_endsSound
    (index : Nat)
    (t : HostType)
    (hSound : w.heap.IsSound s) :
    Action.EndsSound s (b.fieldAt s index t) w
      fun v heap => v.Conforms heap := by
  have hImported :
      Action.EndsSound s
        (do
          let v ← Action.fromHeap fun heap =>
            b.readField s heap index
          Action.onHeap (t.importAs s v)) w
        fun v heap => v.Conforms heap := by
    refine Action.EndsSound.look hSound ?_
    intro v hOk
    exact HostType.importAs_endsSound t hSound
      (recordsFit_of_readField hSound hOk)
  cases t with
  | record id =>
      apply Action.EndsSound.pure hSound
      intro c hWithin
      cases hWithin
      apply conforms_of_path_ne_nil hSound
      simp [project]
  | _ => exact hImported

/- A member of any box ends soundly; its boxes conform. -/
theorem field_endsSound
    {reg : Registry}
    (b : Box)
    (name : String)
    (hSound : w.heap.IsSound reg.schema) :
    Action.EndsSound reg.schema (b.field reg name) w
      fun found heap => ∀ v, found = some v → v.Conforms heap := by
  have hNothing :
      Action.EndsSound reg.schema
        (pure none : Action (Option Value)) w
        fun found heap =>
          ∀ v, found = some v → v.Conforms heap := by
    apply Action.EndsSound.pure hSound
    intro v hSome
    cases hSome
  unfold field
  cases b.record? with
  | none => exact hNothing
  | some id =>
      simp only
      split
      · refine Action.EndsSound.bind (.fresh hSound) ?_
        intro n w₁ hRun hSame hDone
        apply Action.EndsSound.pure hSame
        intro v hSome c hWithin
        cases hSome
        cases hWithin
      · split
        · exact hNothing
        · split
          · exact hNothing
          · rename_i f hField
            apply Action.EndsSound.map
            apply (fieldAt_endsSound _ f.type hSound).weaken
            intro v heap hAfter hConforms u hSome
            cases hSome
            exact hConforms

/- A set ends soundly unless the box is stale. -/
theorem set_endsSound
    {v : Value}
    (name : String)
    (hFaithful : v.IsFaithful s)
    (hCurrent : ∀ t : HostType,
      ¬ b.IsStale (t.exportAs s v w).2.heap)
    (hSound : w.heap.IsSound s) :
    Action.EndsSound s (b.set s name v) w fun _ _ => True := by
  refine ⟨?_, fun _ _ => trivial⟩
  rcases hRun : b.set s name v w with ⟨outcome, w'⟩
  cases outcome with
  | error e => exact isSound_of_set_error hSound hFaithful hRun
  | ok u =>
      exact isSound_of_set_current hSound hFaithful hCurrent hRun

end Box

end Interop
