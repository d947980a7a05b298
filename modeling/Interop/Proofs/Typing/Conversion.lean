import Interop.Proofs.Convert.Import
import Interop.Proofs.Typing.Fitting
import Interop.Proofs.Typing.Keeps

/-
  Conversions of well typed heaps. An export makes values
  that conform deeply to its type, whatever its operand, and
  an import makes boxes that are as good as their tags, from
  any host value whose records fit. Domain values are host
  code, so they have to be honest.

  Main declarations:
    * `Exportable.IsHonest`
    * `Value.HoldsBox`
    * `HostType.exportAs_keeps`
    * `HostType.importAs_isSound`
-/

namespace Interop

------------------------------------------------------------
-- Honest Domain Values
------------------------------------------------------------

/-
  A domain value lets a well typed heap evolve while it finds
  its host form, and all records of that form fit.
-/
def Exportable.IsHonest
    (s : Schema)
    (held : Box → Prop)
    (e : Exportable) : Prop :=
  ∀ host : Host, host.heap.WellTyped s held →
    Heap.Evolves s held host.heap (e.produce host).2.heap ∧
      ∀ v, (e.produce host).1 = some v →
        v.RecordsFit s (e.produce host).2.heap

/- All domain values that occur in a value are honest. -/
def Value.IsHonest
    (s : Schema)
    (held : Box → Prop)
    (v : Value) : Prop :=
  ∀ n e, Within (.any n e) v → e.IsHonest s held

/- What occurs in an honest value is honest. -/
theorem Value.IsHonest.of_within
    {s : Schema}
    {held : Box → Prop}
    {u v : Value}
    (hHonest : v.IsHonest s held)
    (hWithin : Within u v) :
    u.IsHonest s held := by
  intro n e hInside
  exact hHonest n e (hInside.trans hWithin)

------------------------------------------------------------
-- Boxes in Values
------------------------------------------------------------

/-
  The boxes in a value: boxed objects, and the receivers of
  methods that are bound to objects.
-/
inductive Value.HoldsBox
    (v : Value) : Box → Prop where
| boxed
    {b : Box}
    (hWithin : Within (.boxed b) v) :
    HoldsBox v b
| receiver
    {n : Nat}
    {c : Callable}
    {body : HostMethod}
    {b : Box}
    (hWithin : Within (.function n (.callable c)) v)
    (hTarget : c.target = .bound body b) :
    HoldsBox v b

namespace Value

variable {b c : Box}

/- A boxed object has one box. -/
theorem holdsBox_boxed
    (hHolds : (Value.boxed c).HoldsBox b) :
    b = c := by
  cases hHolds with
  | boxed hWithin =>
      cases hWithin
      rfl
  | receiver hWithin hTarget => cases hWithin

/- The boxes of an array are those of its elements. -/
theorem holdsBox_array
    {shape : List Nat}
    {values : List Value}
    (hHolds : (Value.array shape values).HoldsBox b) :
    ∃ v ∈ values, v.HoldsBox b := by
  cases hHolds with
  | boxed hWithin =>
      cases hWithin with
      | arrayItem hMem hInside => exact ⟨_, hMem, .boxed hInside⟩
  | receiver hWithin hTarget =>
      cases hWithin with
      | arrayItem hMem hInside =>
          exact ⟨_, hMem, .receiver hInside hTarget⟩

/- The boxes of a list are those of its elements. -/
theorem holdsBox_list
    {values : List Value}
    (hHolds : (Value.list values).HoldsBox b) :
    ∃ v ∈ values, v.HoldsBox b := by
  cases hHolds with
  | boxed hWithin =>
      cases hWithin with
      | listItem hMem hInside => exact ⟨_, hMem, .boxed hInside⟩
  | receiver hWithin hTarget =>
      cases hWithin with
      | listItem hMem hInside =>
          exact ⟨_, hMem, .receiver hInside hTarget⟩

/- All boxes in a value are as good as their tags. -/
def IsTyped
    (s : Schema)
    (v : Value)
    (heap : Heap) : Prop :=
  ∀ b, v.HoldsBox b → b.Typed s heap

/- A scalar has no boxes to be good. -/
theorem isTyped_scalar
    {s : Schema}
    {heap : Heap}
    (a : Scalar) :
    (Value.scalar a).IsTyped s heap := by
  intro b hHolds
  cases hHolds with
  | boxed hWithin => cases hWithin
  | receiver hWithin hTarget => cases hWithin

/- The empty value has no boxes either. -/
theorem isTyped_empty
    {s : Schema}
    {heap : Heap} :
    Value.empty.IsTyped s heap := by
  intro b hHolds
  rcases holdsBox_array hHolds with ⟨v, hMem, hInside⟩
  cases hMem

end Value

------------------------------------------------------------
-- Host Forms That Fit
------------------------------------------------------------

namespace HostType

variable {s : Schema} {held : Box → Prop} {heap : Heap}

/- A sequence conforms deeply when its elements do. -/
theorem admitsDeeply_seq
    {elem : HostType}
    {items : List HostValue}
    (hItems : ∀ v ∈ items, elem.AdmitsDeeply s heap v) :
    (HostType.seq elem).AdmitsDeeply s heap (.seq items) where
  shallow := by
    simp only [admits, List.all_eq_true]
    intro v hMem
    exact (hItems v hMem).shallow
  records := by
    apply HostValue.recordsFit_seq_iff.mpr
    intro v hMem
    exact (hItems v hMem).records

/- A host form that was fitted conforms deeply. -/
theorem admitsDeeply_fit
    {t : HostType}
    {v u : HostValue}
    (hRecords : v.RecordsFit s heap)
    (hFit : t.fit heap v = some u) :
    t.AdmitsDeeply s heap u :=
  ⟨admits_fit hFit, recordsFit_fit hRecords hFit⟩

------------------------------------------------------------
-- Exports
------------------------------------------------------------

/- If there is a value, it conforms deeply to the type. -/
def AdmitsAny
    (s : Schema)
    (t : HostType)
    (found : Option HostValue)
    (heap : Heap) : Prop :=
  ∀ h, found = some h → t.AdmitsDeeply s heap h

/- What a domain value offers conforms deeply. -/
theorem offered_keeps
    {v : Value}
    (t : HostType)
    (hHonest : v.IsHonest s held) :
    Action.Keeps s held (fun _ => True) (t.offered s v)
      (t.AdmitsAny s) := by
  have hNothing : ∀ pre : Heap → Prop,
      Action.Keeps s held pre (pure none) (t.AdmitsAny s) := by
    intro pre
    apply Action.Keeps.pure
    intro heap hTyped hStart h hSome
    cases hSome
  cases v with
  | any n e =>
      have hProduce :
          Action.Keeps s held (fun _ => True)
            (Action.onHost e.produce)
            fun form heap =>
              ∀ v, form = some v → v.RecordsFit s heap := by
        apply Action.Keeps.onHost
        intro host hTyped hStart
        exact hHonest n e (.self _) host hTyped
      refine Action.Keeps.bind hProduce ?_
      intro form
      cases form with
      | none => exact hNothing _
      | some v =>
          have hFits :
              Action.Keeps s held
                (fun heap => ∀ u, some v = some u →
                  u.RecordsFit s heap)
                (Action.fromHeap fun heap => .ok (t.fit heap v))
                (t.AdmitsAny s) := by
            apply Action.Keeps.fromHeap
            intro heap fitted hTyped hFound hFit h hSome
            cases hFit
            exact admitsDeeply_fit (hFound v rfl) hSome
          refine Action.Keeps.bind hFits ?_
          intro fitted
          cases fitted with
          | some h =>
              apply Action.Keeps.pure
              intro heap hTyped hFitted
              exact hFitted
          | none =>
              refine Action.Keeps.bind (Action.Keeps.emit _) ?_
              intro u
              exact hNothing _
  | _ => exact hNothing _

/- Values other than arrays export to what conforms deeply. -/
theorem admitsDeeply_of_exportPlain
    {t : HostType}
    {v : Value}
    {h : HostValue}
    (hTyped : heap.WellTyped s held)
    (hExport : t.exportPlain s heap v = .ok h) :
    t.AdmitsDeeply s heap h :=
  have hStores := stores_of_exportPlain hExport
  ⟨admits_of_stores hStores,
    recordsFit_of_stores hTyped.fits hStores⟩

/- Conforming deeply is not undone. -/
theorem isStable_admitsDeeply
    (t : HostType)
    (h : HostValue) :
    Action.IsStable s held fun heap => t.AdmitsDeeply s heap h := by
  intro before after hEvolves hDeep
  exact hDeep.mono hEvolves.grows hEvolves.idle

/-
  An export keeps heaps well typed, and what it makes
  conforms deeply to the type. The induction follows the
  type, since elements are exported at smaller types.
-/
theorem exportAs_keeps
    (t : HostType)
    {v : Value}
    (hHonest : v.IsHonest s held) :
    Action.Keeps s held (fun _ => True) (t.exportAs s v)
      fun h heap => t.AdmitsDeeply s heap h := by
  induction t generalizing v with
  | seq elem ih =>
      refine Action.Keeps.bind (offered_keeps _ hHonest) ?_
      intro fitted
      cases fitted with
      | some h =>
          apply Action.Keeps.pure
          intro heap hTyped hFitted
          exact hFitted h rfl
      | none =>
          cases v with
          | array shape values =>
              refine Action.Keeps.bind
                (Action.Keeps.eachFrom
                  (r := fun v h heap => elem.AdmitsDeeply s heap h)
                  ?_ ?_ ?_ 0) ?_
              · intro before after hEvolves hStart h hSome
                cases hSome
              · intro v h
                exact isStable_admitsDeeply elem h
              · intro i item hMem
                apply Action.Keeps.mapError
                refine (ih ?_).weaken (fun _ _ => trivial)
                  (fun _ _ h => h)
                intro n e hWithin
                exact hHonest n e (.arrayItem hMem hWithin)
              · intro items
                apply Action.Keeps.pure
                intro heap hTyped hItems
                apply admitsDeeply_seq
                intro h hMem
                rcases exists_of_mem_forall₂ hItems hMem with
                  ⟨v, hIn, hDeep⟩
                exact hDeep
          | _ => exact Action.Keeps.fail _
  | _ =>
      rw [exportAs_of_ne_seq (by simp)]
      refine Action.Keeps.bind (offered_keeps _ hHonest) ?_
      intro fitted
      cases fitted with
      | some h =>
          apply Action.Keeps.pure
          intro heap hTyped hFitted
          exact hFitted h rfl
      | none =>
          apply Action.Keeps.fromHeap
          intro heap h hTyped hNone hExport
          exact admitsDeeply_of_exportPlain hTyped hExport

------------------------------------------------------------
-- Imports
------------------------------------------------------------

/-
  An import of a host value: if the records of that value
  fit, then the heap evolves, whatever boxes are held, and
  the boxes in the result are good.
-/
def Import.IsSound
    (s : Schema)
    (h : HostValue)
    (x : Import Value) : Prop :=
  ∀ ⦃held : Box → Prop⦄ ⦃heap heap' : Heap⦄ ⦃v : Value⦄,
    heap.WellTyped s held →
    h.RecordsFit s heap →
    x heap = .ok (v, heap') →
      Heap.Evolves s held heap heap' ∧ v.IsTyped s heap'

namespace Import.IsSound

variable {h : HostValue}

/- A result whose boxes are good at once. -/
theorem of_pure
    {v : Value}
    (hBoxes : ∀ heap, v.IsTyped s heap) :
    IsSound s h (pure v) := by
  intro held heap heap' u hTyped hFit hOk
  cases hOk
  exact ⟨hTyped.evolves_refl, hBoxes heap⟩

/- A failure has no result. -/
theorem of_throw
    (e : Error) :
    IsSound s h (throw e) := by
  intro held heap heap' v hTyped hFit hOk
  cases hOk

theorem mapError
    {x : Import Value}
    (hSound : IsSound s h x)
    (wrap : Error → Error) :
    IsSound s h fun heap => (x heap).mapError wrap := by
  intro held heap heap' v hTyped hFit hOk
  exact hSound hTyped hFit (mapError_eq_ok_iff.mp hOk)

/-
  A list of sound imports is sound. While the rest is
  imported, the boxes of the first result are held as well.
-/
theorem eachFrom
    {α : Type}
    {f : Nat → α → Import Value}
    {part : α → HostValue}
    {items : List α}
    {held : Box → Prop}
    {heap heap' : Heap}
    {values : List Value}
    {start : Nat}
    (hItems : ∀ i, ∀ a ∈ items, IsSound s (part a) (f i a))
    (hTyped : heap.WellTyped s held)
    (hFit : ∀ a ∈ items, (part a).RecordsFit s heap)
    (hRun : Interop.eachFrom f start items heap =
      .ok (values, heap')) :
    Heap.Evolves s held heap heap' ∧
      ∀ v ∈ values, v.IsTyped s heap' := by
  induction items generalizing heap values start held with
  | nil =>
      cases hRun
      exact ⟨hTyped.evolves_refl, by simp⟩
  | cons a rest ih =>
      rcases eachFrom_cons_eq_ok_iff.mp hRun with
        ⟨v, vs, mid, hFirst, hRest, rfl⟩
      rcases hItems start a (by simp) hTyped
          (hFit a (by simp)) hFirst with
        ⟨hEvolves, hBoxes⟩
      have hMid := (hTyped.of_evolves hEvolves).hold hBoxes
      have hTail : ∀ b ∈ rest, (part b).RecordsFit s mid := by
        intro b hMem
        exact (hFit b (List.mem_cons_of_mem a hMem)).mono
          hEvolves.grows hEvolves.idle
      have hTailItems :
          ∀ i, ∀ b ∈ rest, IsSound s (part b) (f i b) := by
        intro i b hMem
        exact hItems i b (List.mem_cons_of_mem a hMem)
      rcases ih hTailItems hMid hTail hRest with
        ⟨hThen, hOthers⟩
      have hEnd := hMid.of_evolves hThen
      refine ⟨hEvolves.trans (hThen.forget fun b => .inl), ?_⟩
      intro u hMem b hHolds
      rcases List.mem_cons.mp hMem with rfl | hIn
      · exact hEnd.boxes b (.inr hHolds)
      · exact hOthers u hIn b hHolds

end Import.IsSound

/- A record by value arrives in a good box. -/
theorem importRecord_isSound
    {id : RecordId}
    {h : HostValue}
    (hRecord : h.isRecordOf id = true) :
    Import.IsSound s h (importRecord id h) := by
  intro held heap heap' v hTyped hFit hOk
  cases hOk
  have hEvolves := hTyped.evolves_alloc hFit
  refine ⟨hEvolves, ?_⟩
  intro b hHolds
  rw [Value.holdsBox_boxed hHolds]
  have hDeep : (HostType.record id).AdmitsDeeply s heap h := by
    refine ⟨?_, hFit⟩
    rw [admits_record]
    exact hRecord
  rcases hTyped.admitsDeeply_next hDeep with ⟨hLive, hNext⟩
  exact .of_whole hLive (hEvolves.idle.isReadable _) hNext
    (by simp)

/- A reference arrives as a good box of its object. -/
theorem importRef_isSound
    {id : RecordId}
    {k : Handle} :
    Import.IsSound s (.ref k) (importRef s id k) := by
  intro held heap heap' v hTyped hFit hOk
  rcases importRef_eq_ok_iff.mp hOk with
    ⟨hReadable, hRecord, rfl, rfl⟩
  refine ⟨hTyped.evolves_refl, ?_⟩
  intro b hHolds
  rw [Value.holdsBox_boxed hHolds]
  have hLive : k.index < heap'.size :=
    Heap.lt_size_of_isRecordOf hRecord
  have hDeep :
      (HostType.record id).AdmitsDeeply s heap'
        (heap'.content k) := by
    refine ⟨?_, hTyped.fits k⟩
    rw [admits_record]
    exact hRecord
  exact .of_whole hLive hReadable hDeep (by simp)

/- What is imported at once is imported soundly. -/
theorem Import.Goes.isSound
    {t : HostType}
    {h : HostValue}
    {x : Import Value}
    (hGoes : Goes s t h x) :
    IsSound s h x := by
  cases hGoes with
  | scalar a => exact .of_pure fun heap => Value.isTyped_scalar a
  | empty => exact .of_pure fun heap => Value.isTyped_empty
  | record hType hRecord => exact importRecord_isSound hRecord
  | ref hType hValue =>
      subst hValue
      exact importRef_isSound
  | refused e => exact .of_throw e

/-
  Every import is sound. The induction follows the type,
  since elements are imported at smaller types.
-/
theorem importAs_isSound
    (t : HostType)
    (h : HostValue) :
    Import.IsSound s h (t.importAs s h) := by
  induction t generalizing h with
  | seq elem ih =>
      cases h with
      | seq items =>
          intro held heap heap' v hTyped hFit hOk
          rcases importAs_seq_eq_ok_iff.mp hOk with
            ⟨values, hEach, rfl⟩
          have hItems : ∀ i, ∀ item ∈ items,
              Import.IsSound s item (importItem s elem i item) := by
            intro i item hMem
            exact (ih item).mapError _
          rcases Import.IsSound.eachFrom hItems hTyped
              (HostValue.recordsFit_seq_iff.mp hFit) hEach with
            ⟨hEvolves, hBoxes⟩
          refine ⟨hEvolves, ?_⟩
          intro b hHolds
          rcases Value.holdsBox_array hHolds with
            ⟨u, hMem, hInside⟩
          exact hBoxes u hMem b hInside
      | _ => exact (importAs_goes (by simp)).isSound
  | _ => exact (importAs_goes (by simp)).isSound

end HostType

end Interop
