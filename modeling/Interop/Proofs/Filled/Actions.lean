import Interop.Proofs.Filled.Records
import Interop.Proofs.Marshalling
import Interop.Proofs.Member
import Interop.Proofs.Typing.Calls

/-
  Actions on filled hosts. An action keeps a host filled when
  it leaves a filled one, also when it fails, and something
  holds of its result. All operations of the bridge do, on
  any boxes, values and signatures, if the host code that they
  run does: what they store comes from objects, from zero
  values, or from what host code has handed to them.

  Main declarations:
    * `Action.KeepsFilled`
    * `Action.KeepsFilled.bind`
    * `Exportable.KeepsFilled`
    * `HostFunction.KeepsFilled`
    * `HostType.exportAs_keepsFilled`
    * `HostType.importAs_keepsFilled`
    * `Box.set_keepsFilled`
    * `Callable.call_keepsFilled`
-/

namespace Interop

------------------------------------------------------------
-- Actions
------------------------------------------------------------

namespace Action

variable {α β : Type}

/-
  Started on a filled host, the action leaves a filled one,
  and if it succeeds, `post` holds of the result.
-/
def KeepsFilled
    (s : Schema)
    (x : Action α)
    (post : α → Prop) : Prop :=
  ∀ w, w.host.IsFilled s →
    (x w).2.host.IsFilled s ∧
      ∀ a, (x w).1 = .ok a → post a

namespace KeepsFilled

variable {s : Schema} {x : Action α} {post : α → Prop}

/- What leaves the host alone keeps it filled. -/
theorem of_host_eq
    (hSame : ∀ w, (x w).2.host = w.host)
    (hPost : ∀ w, w.host.IsFilled s →
      ∀ a, (x w).1 = .ok a → post a) :
    KeepsFilled s x post := by
  intro w hFilled
  rw [hSame w]
  exact ⟨hFilled, hPost w hFilled⟩

theorem pure
    {a : α}
    (hPost : post a) :
    KeepsFilled s (pure a) post := by
  refine of_host_eq (fun _ => rfl) ?_
  intro w hFilled b hOk
  cases hOk
  exact hPost

theorem fail
    (e : Error) :
    KeepsFilled s (Action.fail e : Action α) post := by
  refine of_host_eq (fun _ => rfl) ?_
  intro w hFilled a hOk
  cases hOk

theorem ofExcept
    {r : Except Error α}
    (hPost : ∀ a, r = .ok a → post a) :
    KeepsFilled s (Action.ofExcept r) post :=
  of_host_eq (fun _ => rfl) fun _ _ => hPost

theorem fromHeap
    {f : Heap → Except Error α}
    (hPost : ∀ heap : Heap, heap.IsFilled s →
      ∀ a, f heap = .ok a → post a) :
    KeepsFilled s (Action.fromHeap f) post :=
  of_host_eq (fun _ => rfl) fun w hFilled =>
    hPost w.heap hFilled.heap

theorem emit
    (event : Event) :
    KeepsFilled s (Action.emit event) fun _ => True :=
  of_host_eq (fun _ => rfl) fun _ _ _ _ => trivial

theorem fresh :
    KeepsFilled s Action.fresh fun _ => True :=
  of_host_eq (fun _ => rfl) fun _ _ _ _ => trivial

/- Less may be said about the result. -/
theorem weaken
    {final : α → Prop}
    (hKeeps : KeepsFilled s x post)
    (hPost : ∀ a, post a → final a) :
    KeepsFilled s x final := by
  intro w hFilled
  rcases hKeeps w hFilled with ⟨hAfter, hResult⟩
  exact ⟨hAfter, fun a hOk => hPost a (hResult a hOk)⟩

/- Host code keeps the host filled if it does by itself. -/
theorem onHost
    {f : Host → α × Host}
    (hCode : ∀ host : Host, host.IsFilled s →
      (f host).2.IsFilled s ∧ post (f host).1) :
    KeepsFilled s (Action.onHost f) post := by
  intro w hFilled
  rcases hCode w.host hFilled with ⟨hAfter, hPost⟩
  refine ⟨hAfter, ?_⟩
  intro a hOk
  cases hOk
  exact hPost

/- A change of the objects that fails changes none. -/
theorem onHeap
    {f : Heap → Except Error (α × Heap)}
    (hChange : ∀ heap : Heap, heap.IsFilled s →
      ∀ a heap', f heap = .ok (a, heap') →
        heap'.IsFilled s ∧ post a) :
    KeepsFilled s (Action.onHeap f) post := by
  intro w hFilled
  cases hRun : f w.heap with
  | error e =>
      rw [onHeap_of_error hRun]
      refine ⟨hFilled, ?_⟩
      intro a hOk
      cases hOk
  | ok r =>
      rcases r with ⟨a, heap'⟩
      rcases hChange w.heap hFilled.heap a heap' hRun with
        ⟨hAfter, hPost⟩
      rw [onHeap_of_ok hRun]
      refine ⟨hFilled.withHeap hAfter, ?_⟩
      intro b hOk
      cases hOk
      exact hPost

theorem changeHeap
    {f : Heap → Except Error Heap}
    (hChange : ∀ heap : Heap, heap.IsFilled s →
      ∀ heap', f heap = .ok heap' → heap'.IsFilled s) :
    KeepsFilled s (Action.changeHeap f) fun _ => True := by
  apply onHeap
  intro heap hFilled u heap' hRun
  cases hOk : f heap with
  | error e =>
      rw [hOk] at hRun
      cases hRun
  | ok later =>
      rw [hOk] at hRun
      cases hRun
      exact ⟨hChange heap hFilled heap' hOk, trivial⟩

/- Go on with what holds of the first result. -/
theorem bind
    {f : α → Action β}
    {final : β → Prop}
    (hFirst : KeepsFilled s x post)
    (hRest : ∀ a, post a → KeepsFilled s (f a) final) :
    KeepsFilled s (x >>= f) final := by
  intro w hFilled
  have hStep := hFirst w hFilled
  rw [bind_apply]
  rcases hRun : x w with ⟨outcome, w'⟩
  rw [hRun] at hStep
  cases outcome with
  | error e =>
      refine ⟨hStep.1, ?_⟩
      intro b hOk
      cases hOk
  | ok a => exact hRest a (hStep.2 a rfl) w' hStep.1

theorem map
    {f : α → β}
    {final : β → Prop}
    (hKeeps : KeepsFilled s x fun a => final (f a)) :
    KeepsFilled s (f <$> x) final := by
  rw [map_eq_pure_bind]
  exact bind hKeeps fun a hPost => pure hPost

theorem mapError
    {wrap : Error → Error}
    (hKeeps : KeepsFilled s x post) :
    KeepsFilled s (Action.mapError wrap x) post := by
  intro w hFilled
  have hStep := hKeeps w hFilled
  unfold Action.mapError
  rcases hRun : x w with ⟨outcome, w'⟩
  rw [hRun] at hStep
  cases outcome with
  | ok a => exact hStep
  | error e =>
      refine ⟨hStep.1, ?_⟩
      intro a hOk
      cases hOk

/- What holds of the result of each step holds of all. -/
theorem eachFrom
    {f : Nat → α → Action β}
    {items : List α}
    {post : β → Prop}
    (hItems : ∀ i, ∀ a ∈ items, KeepsFilled s (f i a) post)
    (start : Nat) :
    KeepsFilled s (Interop.eachFrom f start items)
      fun bs => ∀ b ∈ bs, post b := by
  induction items generalizing start with
  | nil => exact pure (by simp)
  | cons a rest ih =>
      refine bind (hItems start a List.mem_cons_self) ?_
      intro b hFirst
      have hTail : ∀ i, ∀ a ∈ rest, KeepsFilled s (f i a) post := by
        intro i c hMem
        exact hItems i c (List.mem_cons_of_mem a hMem)
      refine bind (ih hTail (start + 1)) ?_
      intro bs hOthers
      exact pure (List.forall_mem_cons.mpr ⟨hFirst, hOthers⟩)

end KeepsFilled

end Action

------------------------------------------------------------
-- Host Code
------------------------------------------------------------

/- All values in a list are filled. -/
def AllFilled
    (s : Schema)
    (values : List HostValue) : Prop :=
  ∀ v ∈ values, v.IsFilled s

/- No values are all filled. -/
theorem allFilled_nil
    (s : Schema) :
    AllFilled s [] := by
  simp [AllFilled]

/- Finding the host form keeps hosts filled, and so is it. -/
def Exportable.KeepsFilled
    (s : Schema)
    (e : Exportable) : Prop :=
  ∀ host : Host, host.IsFilled s →
    (e.produce host).2.IsFilled s ∧
      ∀ v, (e.produce host).1 = some v → v.IsFilled s

/- On filled arguments, host code keeps hosts filled. -/
def HostFunction.KeepsFilled
    (s : Schema)
    (body : HostFunction) : Prop :=
  ∀ (args : List HostValue) (host : Host),
    AllFilled s args → host.IsFilled s →
      (body args host).2.IsFilled s ∧
        AllFilled s (body args host).1

/- A domain value occurs in a value. -/
def Value.Carries
    (v : Value)
    (e : Exportable) : Prop :=
  ∃ id, Within (.any id e) v

/- The host code that may run, on whatever receiver. -/
def Target.MayRun : Target → HostFunction → Prop
| .free own, body => body = own
| .bound own _, body => ∃ h, body = own h

variable {s : Schema}

------------------------------------------------------------
-- Conversions
------------------------------------------------------------

namespace HostType

/- What a domain value offers is filled. -/
theorem offered_keepsFilled
    {v : Value}
    (t : HostType)
    (hCode : ∀ e, v.Carries e → e.KeepsFilled s) :
    Action.KeepsFilled s (t.offered s v)
      fun found => ∀ h, found = some h → h.IsFilled s := by
  have hNothing :
      Action.KeepsFilled s (pure none)
        fun found : Option HostValue =>
          ∀ h, found = some h → h.IsFilled s :=
    .pure (by simp)
  cases v with
  | any id e =>
      have hProduce :
          Action.KeepsFilled s (Action.onHost e.produce)
            fun form => ∀ v, form = some v → v.IsFilled s :=
        .onHost (hCode e ⟨id, .self _⟩)
      refine .bind hProduce ?_
      intro form hForm
      cases form with
      | none => exact hNothing
      | some v =>
          have hFits :
              Action.KeepsFilled s
                (Action.fromHeap fun heap => .ok (t.fit heap v))
                fun found => ∀ h, found = some h → h.IsFilled s := by
            apply Action.KeepsFilled.fromHeap
            intro heap hHeap found hOk h hFound
            cases hOk
            intro r hWithin
            exact hForm v rfl r (within_of_fit hFound hWithin)
          refine .bind hFits ?_
          intro fitted hFitted
          cases fitted with
          | some h => exact .pure hFitted
          | none => exact .bind (.emit _) fun _ _ => hNothing
  | _ => exact hNothing

/-
  An export keeps hosts filled, and what it makes is filled.
  The induction follows the type, since elements are exported
  at smaller types.
-/
theorem exportAs_keepsFilled
    (t : HostType)
    {v : Value}
    (hCode : ∀ e, v.Carries e → e.KeepsFilled s) :
    Action.KeepsFilled s (t.exportAs s v) (·.IsFilled s) := by
  induction t generalizing v with
  | seq elem ih =>
      refine .bind (offered_keepsFilled _ hCode) ?_
      intro fitted hFitted
      cases fitted with
      | some h => exact .pure (hFitted h rfl)
      | none =>
          cases v with
          | array shape values =>
              have hEach :
                  Action.KeepsFilled s
                    (each (exportItem s elem) values)
                    (AllFilled s) := by
                apply Action.KeepsFilled.eachFrom
                intro i item hMem
                apply Action.KeepsFilled.mapError
                apply ih
                rintro e ⟨id, hWithin⟩
                exact hCode e ⟨id, .arrayItem hMem hWithin⟩
              refine .bind hEach ?_
              intro items hItems
              exact .pure (HostValue.isFilled_seq_iff.mpr hItems)
          | _ => exact .fail _
  | _ =>
      rw [exportAs_of_ne_seq (by simp)]
      refine .bind (offered_keepsFilled _ hCode) ?_
      intro fitted hFitted
      cases fitted with
      | some h => exact .pure (hFitted h rfl)
      | none =>
          apply Action.KeepsFilled.fromHeap
          intro heap hHeap h hExport r hWithin
          rcases exists_content_of_stores
              (stores_of_exportPlain hExport) hWithin with
            ⟨k, hInside⟩
          exact hHeap.content k r hInside

/- Steps that each keep heaps filled do so in a row. -/
theorem Import.isFilled_of_eachFrom
    {α β : Type}
    {f : Nat → α → StateT Heap (Except Error) β}
    {items : List α}
    {i : Nat}
    {heap heap' : Heap}
    {bs : List β}
    (hItems : ∀ i, ∀ a ∈ items, ∀ (heap heap' : Heap) b,
      heap.IsFilled s → f i a heap = .ok (b, heap') →
        heap'.IsFilled s)
    (hHeap : heap.IsFilled s)
    (hRun : eachFrom f i items heap = .ok (bs, heap')) :
    heap'.IsFilled s := by
  induction items generalizing i heap bs with
  | nil =>
      cases hRun
      exact hHeap
  | cons a rest ih =>
      rcases eachFrom_cons_eq_ok_iff.mp hRun with
        ⟨b, bs', mid, hFirst, hRest, -⟩
      have hMid :=
        hItems i a List.mem_cons_self heap mid b hHeap hFirst
      refine ih ?_ hMid hRest
      intro j c hMem
      exact hItems j c (List.mem_cons_of_mem a hMem)

/- What is imported at once adds the operand, if anything. -/
theorem Import.Goes.isFilled
    {t : HostType}
    {h : HostValue}
    {x : Import Value}
    {heap heap' : Heap}
    {v : Value}
    (hGoes : Import.Goes s t h x)
    (hValue : h.IsFilled s)
    (hHeap : heap.IsFilled s)
    (hRun : x heap = .ok (v, heap')) :
    heap'.IsFilled s := by
  cases hGoes with
  | scalar a =>
      cases hRun
      exact hHeap
  | empty =>
      cases hRun
      exact hHeap
  | record hType hRecord =>
      cases hRun
      exact hHeap.alloc hValue
  | ref hType hRef =>
      rcases importRef_eq_ok_iff.mp hRun with ⟨-, -, -, rfl⟩
      exact hHeap
  | refused e => cases hRun

/- The objects that an import adds hold parts of its operand. -/
theorem isFilled_of_importAs
    {t : HostType}
    {h : HostValue}
    {heap heap' : Heap}
    {v : Value}
    (hValue : h.IsFilled s)
    (hHeap : heap.IsFilled s)
    (hImport : t.importAs s h heap = .ok (v, heap')) :
    heap'.IsFilled s := by
  induction t generalizing h heap heap' v with
  | seq elem ih =>
      by_cases hSeq : ∃ items, h = .seq items
      · rcases hSeq with ⟨items, rfl⟩
        rcases importAs_seq_eq_ok_iff.mp hImport with
          ⟨values, hEach, -⟩
        refine Import.isFilled_of_eachFrom ?_ hHeap hEach
        intro i item hMem heap heap' b hStart hItem
        exact ih (HostValue.isFilled_seq_iff.mp hValue item hMem)
          hStart (Import.mapError_eq_ok_iff.mp hItem)
      · have hNoElements :
            ∀ own items, HostType.seq elem = .seq own →
              h ≠ .seq items :=
          fun _ items _ hItems => hSeq ⟨items, hItems⟩
        exact (importAs_goes hNoElements).isFilled hValue hHeap
          hImport
  | _ =>
      exact (importAs_goes (by simp)).isFilled hValue hHeap hImport

/- So an import keeps hosts filled. -/
theorem importAs_keepsFilled
    {h : HostValue}
    (t : HostType)
    (hValue : h.IsFilled s) :
    Action.KeepsFilled s (Action.onHeap (t.importAs s h))
      fun _ => True := by
  apply Action.KeepsFilled.onHeap
  intro heap hHeap v heap' hImport
  exact ⟨isFilled_of_importAs hValue hHeap hImport, trivial⟩

/- A constructor adds an object with a zero value. -/
theorem construct_keepsFilled
    (t : HostType) :
    Action.KeepsFilled s (t.construct s) fun _ => True := by
  have hAlloc :
      Action.KeepsFilled s
        (Action.onHost (·.alloc (t.allocated.zero s)))
        fun _ => True := by
    apply Action.KeepsFilled.onHost
    intro host hHost
    exact ⟨hHost.alloc (isFilled_zero s t.allocated), trivial⟩
  unfold construct
  split
  · refine .bind (.emit _) fun _ _ => ?_
    exact .bind hAlloc fun _ _ => .pure trivial
  · exact .fail _

end HostType

------------------------------------------------------------
-- Members
------------------------------------------------------------

namespace Box

variable {b : Box} {heap : Heap}

/- What a box reads is a part of an object. -/
theorem isFilled_of_read
    {v : HostValue}
    (hHeap : heap.IsFilled s)
    (hRead : b.read s heap = .ok v) :
    v.IsFilled s :=
  (hHeap.content b.handle).at? (read_eq_ok_iff.mp hRead).2

/- What is written to a box is put into its place. -/
theorem isFilled_of_write
    {v : HostValue}
    {heap' : Heap}
    (hHeap : heap.IsFilled s)
    (hValue : v.IsFilled s)
    (hWrite : b.write s heap v = .ok heap') :
    heap'.IsFilled s := by
  rcases update_eq_ok hWrite with
    ⟨old, new, -, -, hChange, rfl⟩
  cases hChange
  exact hHeap.putAt hValue b.handle b.path

/- A field that is put fills its slot, whatever the value. -/
theorem isFilled_of_putField
    {index : Nat}
    {v : HostValue}
    {heap' : Heap}
    (hHeap : heap.IsFilled s)
    (hValue : v.IsFilled s)
    (hPut : b.putField s heap index v = .ok heap') :
    heap'.IsFilled s := by
  rcases putField_eq_ok hPut with ⟨id, values, -, -, -, rfl⟩
  exact hHeap.putAt hValue b.handle (b.path ++ [index])

/- Looking up a member adds what an import adds. -/
theorem field_keepsFilled
    {reg : Registry}
    (hSchema : reg.schema = s)
    (b : Box)
    (name : String) :
    Action.KeepsFilled s (b.field reg name) fun _ => True := by
  subst hSchema
  have hAt (index : Nat) (t : HostType) :
      Action.KeepsFilled reg.schema (b.fieldAt reg.schema index t)
        fun _ => True := by
    have hImport :
        Action.KeepsFilled reg.schema
          (Action.fromHeap (b.readField reg.schema · index) >>=
            fun v => Action.onHeap (t.importAs reg.schema v))
          fun _ => True := by
      refine .bind (.fromHeap ?_)
        fun v hValue => t.importAs_keepsFilled hValue
      intro heap hHeap v hRead
      exact (hHeap.content b.handle).at?
        (readField_eq_ok_iff.mp hRead).2
    cases t with
    | record id => exact .pure trivial
    | _ => exact hImport
  unfold field
  cases b.record? with
  | none => exact .pure trivial
  | some id =>
      dsimp only
      cases reg.method? id (Text.capitalize name) with
      | some m => exact .bind .fresh fun _ _ => .pure trivial
      | none =>
          dsimp only
          cases reg.schema.fieldIndex? id (Text.capitalize name) with
          | none => exact .pure trivial
          | some index =>
              dsimp only
              cases (reg.schema.fields id)[index]? with
              | none => exact .pure trivial
              | some f => exact .map (hAt index f.type)

/- Setting one fills a slot with what has been exported. -/
theorem set_keepsFilled
    {v : Value}
    (b : Box)
    (name : String)
    (hCode : ∀ e, v.Carries e → e.KeepsFilled s) :
    Action.KeepsFilled s (b.set s name v) fun _ => True := by
  unfold set
  cases b.record? with
  | none => exact .fail _
  | some id =>
      dsimp only
      cases s.fieldIndex? id (Text.capitalize name) with
      | none => exact .fail _
      | some index =>
          dsimp only
          cases (s.fields id)[index]? with
          | none => exact .fail _
          | some f =>
              refine .bind (f.type.exportAs_keepsFilled hCode) ?_
              intro converted hValue
              apply Action.KeepsFilled.changeHeap
              intro heap hHeap heap' hPut
              exact isFilled_of_putField hHeap hValue hPut

end Box

------------------------------------------------------------
-- Calls
------------------------------------------------------------

namespace Callable

/- The operands of a call are exported to filled values. -/
theorem marshal_keepsFilled
    {left : Option Value}
    {right : Value}
    (options : Options)
    (c : Callable)
    (hLeft : ∀ v, left = some v →
      ∀ e, v.Carries e → e.KeepsFilled s)
    (hRight : ∀ e, right.Carries e → e.KeepsFilled s) :
    Action.KeepsFilled s (c.marshal s options left right)
      (AllFilled s) := by
  have hRow :
      Action.KeepsFilled s
        (Action.ofExcept (operandRow c.sig.arity left right))
        fun row => ∀ v ∈ row,
          ∀ e, v.Carries e → e.KeepsFilled s := by
    apply Action.KeepsFilled.ofExcept
    rintro row hOk v hMem e ⟨id, hWithin⟩
    rcases (operandRow_eq_ok hOk).2 v hMem with hIsLeft | hInside
    · exact hLeft v hIsLeft e ⟨id, hWithin⟩
    · exact hRight e ⟨id, hWithin.trans hInside⟩
  rw [marshal_eq]
  refine .bind (.emit _) fun _ _ => .bind hRow ?_
  intro row hOperands
  have hExport :
      Action.KeepsFilled s (exportRow s c.sig.params row)
        (AllFilled s) := by
    apply Action.KeepsFilled.eachFrom
    intro i p hMem
    apply Action.KeepsFilled.mapError
    exact p.1.exportAs_keepsFilled
      (hOperands p.2 (List.of_mem_zip hMem).2)
  refine .bind hExport ?_
  intro args hArgs
  refine .of_host_eq (fun w => ?_) fun w hFilled args' hOk => ?_
  · rw [traced_apply]
    rfl
  · rw [traced_apply] at hOk
    cases hOk
    exact hArgs

/-
  A copy of the receiver is filled, so the method leaves it
  filled, and it may be stored back.
-/
theorem runOnCopy_keepsFilled
    {body : HostMethod}
    {args : List HostValue}
    (receiver : Box)
    (hCode : ∀ h, (body h).KeepsFilled s)
    (hArgs : AllFilled s args) :
    Action.KeepsFilled s (runOnCopy s body receiver args)
      (AllFilled s) := by
  have hRead :
      Action.KeepsFilled s (Action.fromHeap (receiver.read s ·))
        (·.IsFilled s) :=
    .fromHeap fun heap hHeap v => Box.isFilled_of_read hHeap
  refine .bind hRead ?_
  intro content hContent
  have hAlloc :
      Action.KeepsFilled s (Action.onHost (·.alloc content))
        fun _ => True :=
    .onHost fun host hHost => ⟨hHost.alloc hContent, trivial⟩
  refine .bind hAlloc fun scratch _ => ?_
  have hRun :
      Action.KeepsFilled s (Action.onHost (body scratch args))
        (AllFilled s) :=
    .onHost fun host => hCode scratch args host hArgs
  refine .bind hRun ?_
  intro outputs hOutputs
  have hStore (updated : HostValue) (hValue : updated.IsFilled s) :
      Action.KeepsFilled s
        (do
          Action.changeHeap (receiver.write s · updated)
          pure outputs)
        (AllFilled s) := by
    refine .bind (.changeHeap ?_) fun _ _ => .pure hOutputs
    intro heap hHeap heap' hWrite
    exact Box.isFilled_of_write hHeap hValue hWrite
  refine .bind (.fromHeap ?_) hStore
  intro heap hHeap updated hBack
  split at hBack
  · cases hBack
  · rename_i found hScratch
    split at hBack
    · cases hBack
      rw [← Heap.content_of_read? hScratch]
      exact hHeap.content scratch
    · cases hBack

/- Host code is run on filled arguments. -/
theorem runTarget_keepsFilled
    {target : Target}
    {args : List HostValue}
    (hCode : ∀ body, target.MayRun body → body.KeepsFilled s)
    (hArgs : AllFilled s args) :
    Action.KeepsFilled s (runTarget s target args)
      (AllFilled s) := by
  cases target with
  | free body =>
      exact .onHost fun host => hCode body rfl args host hArgs
  | bound body receiver =>
      have hBody (h : Handle) : (body h).KeepsFilled s :=
        hCode (body h) ⟨h, rfl⟩
      simp only [runTarget]
      split
      · exact runOnCopy_keepsFilled receiver hBody hArgs
      · exact .onHost fun host =>
          hBody receiver.handle args host hArgs

/- The results are among the outputs. -/
theorem settle_keepsFilled
    {outputs : List HostValue}
    (c : Callable)
    (hOutputs : AllFilled s outputs) :
    Action.KeepsFilled s (c.settle outputs) (AllFilled s) := by
  unfold settle
  split
  · cases outputs.getLast? with
    | none => exact .fail _
    | some last =>
        cases last with
        | error fault =>
            cases fault with
            | none =>
                apply Action.KeepsFilled.pure
                intro v hMem
                exact hOutputs v (List.dropLast_subset outputs hMem)
            | some fault =>
                exact .bind (.emit _) fun _ _ => .fail _
        | _ => exact .fail _
  · exact .pure hOutputs

/- Filled outputs are imported into filled objects. -/
theorem unmarshal_keepsFilled
    {outputs : List HostValue}
    (c : Callable)
    (hOutputs : AllFilled s outputs) :
    Action.KeepsFilled s (c.unmarshal s outputs)
      fun _ => True := by
  unfold unmarshal
  split
  · refine .bind (settle_keepsFilled c hOutputs) ?_
    intro results hResults
    have hImport :
        Action.KeepsFilled s
          (Action.onHeap (importOutputs s c.sig.returns results))
          fun _ => True := by
      apply Action.KeepsFilled.onHeap
      intro heap hHeap values heap' hRun
      refine ⟨HostType.Import.isFilled_of_eachFrom ?_ hHeap hRun,
        trivial⟩
      intro i p hMem before after v hBefore hStep
      exact HostType.isFilled_of_importAs
        (hResults p.2 (List.of_mem_zip hMem).2) hBefore hStep
    exact .bind hImport fun _ _ => .pure trivial
  · exact .fail _

theorem invoke_keepsFilled
    {args : List HostValue}
    (c : Callable)
    (hCode : ∀ body, c.target.MayRun body → body.KeepsFilled s)
    (hArgs : AllFilled s args) :
    Action.KeepsFilled s (c.invoke s args) fun _ => True :=
  .bind (runTarget_keepsFilled hCode hArgs)
    fun _ hOutputs => unmarshal_keepsFilled c hOutputs

/- A call is made of these steps. -/
theorem call_keepsFilled
    {left : Option Value}
    {right : Value}
    (options : Options)
    (c : Callable)
    (hCode : ∀ body, c.target.MayRun body → body.KeepsFilled s)
    (hLeft : ∀ v, left = some v →
      ∀ e, v.Carries e → e.KeepsFilled s)
    (hRight : ∀ e, right.Carries e → e.KeepsFilled s) :
    Action.KeepsFilled s (c.call s options left right)
      fun _ => True :=
  .bind (marshal_keepsFilled options c hLeft hRight)
    fun _ hArgs => invoke_keepsFilled c hCode hArgs

end Callable

end Interop
