import Interop.Convert.Export
import Interop.Proofs.Action
import Mathlib.Data.List.Forall2

/-
  What an export does to the world: nothing, but for the
  host code of the domain values that it meets.

  Main declarations:
    * `Value.Within`
    * `Exportable.LeavesObjects`
    * `HostType.exportAs_of_plain`
    * `HostType.Stores`
    * `HostType.stores_of_exportPlain`
    * `HostType.refuses_of_exportPlain`
    * `HostType.fit_seq_eq_some`
    * `HostType.yields_of_exportAs`
    * `HostType.exportAs_any_eq_ok_iff`
    * `HostType.exportAs_steps`
    * `HostType.heap_exportAs`
    * `HostType.world_exportAs`
-/

namespace Interop

------------------------------------------------------------
-- Values Inside Values
------------------------------------------------------------

/- The first value occurs in the second one. -/
inductive Value.Within : Value → Value → Prop where
| self
    (v : Value) :
    Within v v
| arrayItem
    {u v : Value}
    {shape : List Nat}
    {values : List Value}
    (hMem : v ∈ values)
    (hWithin : Within u v) :
    Within u (.array shape values)
| listItem
    {u v : Value}
    {values : List Value}
    (hMem : v ∈ values)
    (hWithin : Within u v) :
    Within u (.list values)

/- What occurs in a part occurs in the whole. -/
theorem Value.Within.trans
    {u v w : Value}
    (hFirst : Within u v)
    (hSecond : Within v w) :
    Within u w := by
  induction hSecond with
  | self => exact hFirst
  | arrayItem hMem hInside ih => exact .arrayItem hMem ih
  | listItem hMem hInside ih => exact .listItem hMem ih

/- No domain value occurs in the value. -/
def Value.IsPlain (v : Value) : Prop :=
  ∀ id e, ¬ Within (.any id e) v

namespace Value.IsPlain

variable {v : Value}

/- The elements of a plain array are plain. -/
theorem of_mem_array
    {shape : List Nat}
    {values : List Value}
    (hPlain : (Value.array shape values).IsPlain)
    (hMem : v ∈ values) :
    v.IsPlain := by
  intro id e hWithin
  exact hPlain id e (.arrayItem hMem hWithin)

/- Scalars are plain. -/
theorem of_scalar
    (a : Scalar) :
    (Value.scalar a).IsPlain := by
  intro id e hWithin
  cases hWithin

/- An array of plain elements is plain. -/
theorem of_elements
    {shape : List Nat}
    {values : List Value}
    (hElements : ∀ v ∈ values, v.IsPlain) :
    (Value.array shape values).IsPlain := by
  intro id e hWithin
  cases hWithin with
  | arrayItem hMem hInside => exact hElements _ hMem id e hInside

/- A plain value is no domain value. -/
theorem ne_any
    (hPlain : v.IsPlain)
    (id : Nat)
    (e : Exportable) :
    v ≠ .any id e := by
  intro hEq
  exact hPlain id e (hEq ▸ .self _)

end Value.IsPlain

/- Finding the host form changes no object of the host. -/
def Exportable.LeavesObjects (e : Exportable) : Prop :=
  ∀ host, (e.produce host).2.heap = host.heap

------------------------------------------------------------
-- Equations of Exports
------------------------------------------------------------

namespace HostType

variable {s : Schema}

/- Only domain values offer a host form. -/
theorem offered_of_ne_any
    {t : HostType}
    {v : Value}
    (hNe : ∀ id e, v ≠ .any id e) :
    t.offered s v = pure none := by
  cases v with
  | any id e => exact absurd rfl (hNe id e)
  | _ => rfl

/- Types other than sequences convert by one rule. -/
theorem exportAs_of_ne_seq
    {t : HostType}
    (hNe : ∀ elem, t ≠ .seq elem)
    (v : Value) :
    t.exportAs s v = (do
      match ← offered s t v with
      | some fitted => pure fitted
      | none => Action.fromHeap fun heap => t.exportPlain s heap v) := by
  cases t with
  | seq elem => exact absurd rfl (hNe elem)
  | _ => rfl

/- What is no domain value converts by the rule of its type. -/
theorem exportAs_of_ne_any
    {t : HostType}
    {v : Value}
    (hNe : ∀ elem, t ≠ .seq elem)
    (hNotAny : ∀ id e, v ≠ .any id e) :
    t.exportAs s v =
      Action.fromHeap fun heap => t.exportPlain s heap v := by
  rw [exportAs_of_ne_seq hNe, offered_of_ne_any hNotAny,
    pure_bind]

/- A plain value converts by the rule of its type. -/
theorem exportAs_of_plain
    {t : HostType}
    {v : Value}
    (hNe : ∀ elem, t ≠ .seq elem)
    (hPlain : v.IsPlain) :
    t.exportAs s v =
      Action.fromHeap fun heap => t.exportPlain s heap v :=
  exportAs_of_ne_any hNe hPlain.ne_any

/- Exporting one element of an array. -/
abbrev exportItem
    (s : Schema)
    (elem : HostType)
    (i : Nat)
    (item : Value) : Action HostValue :=
  Action.mapError (.element i) (elem.exportAs s item)

/- An array converts to a sequence element by element. -/
theorem exportAs_seq_array
    {elem : HostType}
    {shape : List Nat}
    {values : List Value} :
    (HostType.seq elem).exportAs s (.array shape values) = (do
      let items ← each (exportItem s elem) values
      pure (.seq items)) := rfl

/- A domain value has no elements of its own to convert. -/
theorem exportAs_seq_any
    {elem : HostType}
    {id : Nat}
    {e : Exportable} :
    (HostType.seq elem).exportAs s (.any id e) = (do
      match ← offered s (.seq elem) (.any id e) with
      | some fitted => pure fitted
      | none =>
          Action.fail
            (.conversion e.typeName
              ((HostType.seq elem).text s))) := rfl

------------------------------------------------------------
-- Exports That Succeed
------------------------------------------------------------

/- Integers in range are stored by the sign of the kind. -/
theorem storeInt_eq_some_iff
    {kind : IntKind}
    {i : Int}
    {h : HostValue} :
    storeInt kind i = some h ↔
      kind.contains i = true ∧
        h =
          if kind.isUnsigned then
            .uint (.ofNat i.toNat)
          else
            .int (.ofInt i) := by
  unfold storeInt
  by_cases hIn : kind.contains i = true
  · simp only [hIn, if_true, Option.some.injEq, true_and]
    exact eq_comm
  · simp [hIn]

/- A record by value is copied out of a box of that type. -/
theorem exportRecord_eq_ok
    {heap : Heap}
    {id : RecordId}
    {v : Value}
    {h : HostValue}
    (hExport : exportRecord s heap id v = .ok h) :
    ∃ b,
      v = .boxed b ∧
      b.read s heap = .ok h ∧
      h.isRecordOf id = true := by
  cases v with
  | boxed b =>
      simp only [exportRecord] at hExport
      cases hRead : b.read s heap with
      | error e => simp [hRead] at hExport
      | ok content =>
          simp only [hRead] at hExport
          split at hExport
          · rename_i hRecord
            cases hExport
            exact ⟨b, rfl, hRead, hRecord⟩
          · simp at hExport
  | _ => simp [exportRecord] at hExport

/-
  A reference shares the object of a box that owns it, or it
  is nil for an array without elements.
-/
theorem exportRef_eq_ok
    {heap : Heap}
    {id : RecordId}
    {v : Value}
    {h : HostValue}
    (hExport : exportRef s heap id v = .ok h) :
    (∃ b content,
      v = .boxed b ∧
      b.path = [] ∧
      b.read s heap = .ok content ∧
      content.isRecordOf id = true ∧
      h = .ref b.handle) ∨
    ∃ shape, v = .array shape [] ∧ h = .nil := by
  cases v with
  | boxed b =>
      simp only [exportRef] at hExport
      split at hExport
      · simp at hExport
      · rename_i hWhole
        have hPath : b.path = [] := by
          simpa [Box.isProjection] using hWhole
        cases hRead : b.read s heap with
        | error e => simp [hRead] at hExport
        | ok content =>
            simp only [hRead] at hExport
            split at hExport
            · rename_i hRecord
              cases hExport
              exact .inl ⟨b, content, rfl, hPath, hRead,
                hRecord, rfl⟩
            · simp at hExport
  | array shape values =>
      cases values with
      | nil =>
          simp only [exportRef, Value.isEmpty, List.isEmpty_nil,
            if_true, Except.ok.injEq] at hExport
          exact .inr ⟨shape, rfl, hExport.symm⟩
      | cons x xs => simp [exportRef, Value.isEmpty] at hExport
  | _ => simp [exportRef, Value.isEmpty] at hExport

/-
  The values that types other than sequences take, and how
  each is stored. Boxes are resolved in the heap.
-/
inductive Stores (s : Schema) (heap : Heap) :
    HostType → Value → HostValue → Prop where
| bool
    (b : Bool) :
    Stores s heap .bool (.int (if b then 1 else 0)) (.bool b)
| int
    {kind : IntKind}
    {i : Int64}
    {h : HostValue}
    (hStore : storeInt kind i.toInt = some h) :
    Stores s heap (.int kind) (.int i) h
| float
    (kind : FloatKind)
    (x : Binary64) :
    Stores s heap (.float kind) (.float x)
      (.float (kind.narrow x))
| complex
    (kind : FloatKind)
    (re im : Binary64) :
    Stores s heap (.complex kind) (.complex re im)
      (.complex (kind.narrow re) (kind.narrow im))
| str
    (text : String) :
    Stores s heap .str (.str text) (.str text)
| record
    {id : RecordId}
    {b : Box}
    {content : HostValue}
    (hRead : b.read s heap = .ok content)
    (hRecord : content.isRecordOf id = true) :
    Stores s heap (.record id) (.boxed b) content
| ref
    {id : RecordId}
    {b : Box}
    {content : HostValue}
    (hPath : b.path = [])
    (hRead : b.read s heap = .ok content)
    (hRecord : content.isRecordOf id = true) :
    Stores s heap (.ref id) (.boxed b) (.ref b.handle)
| nil
    (id : RecordId)
    (shape : List Nat) :
    Stores s heap (.ref id) (.array shape []) .nil

/- A conversion by one rule stores what the rule says. -/
theorem stores_of_exportPlain
    {heap : Heap}
    {t : HostType}
    {v : Value}
    {h : HostValue}
    (hExport : t.exportPlain s heap v = .ok h) :
    t.Stores s heap v h := by
  unfold exportPlain at hExport
  split at hExport
  · split at hExport
    · rename_i hZero
      cases hExport
      subst hZero
      exact .bool false
    · split at hExport
      · rename_i hOne
        cases hExport
        subst hOne
        exact .bool true
      · simp at hExport
  · split at hExport
    · rename_i hStore
      cases hExport
      exact .int hStore
    · simp at hExport
  · cases hExport
    exact .float _ _
  · cases hExport
    exact .complex _ _ _
  · cases hExport
    exact .str _
  · rcases exportRecord_eq_ok hExport with
      ⟨b, rfl, hRead, hRecord⟩
    exact .record hRead hRecord
  · rcases exportRef_eq_ok hExport with
      ⟨b, content, rfl, hPath, hRead, hRecord, rfl⟩ |
        ⟨shape, rfl, rfl⟩
    · exact .ref hPath hRead hRecord
    · exact .nil _ shape
  · simp at hExport

/-
  Why the rule of a type refuses a value: it is no value of
  the type, the type has none, or it is a box that cannot be
  read.
-/
inductive Refuses
    (s : Schema)
    (heap : Heap)
    (v : Value) : Error → Prop where
| misfit
    (got want : String) :
    Refuses s heap v (.conversion got want)
| unsupported
    (kind : String) :
    Refuses s heap v (.unsupported kind)
| unread
    {b : Box}
    {e : Error}
    (hValue : v = .boxed b)
    (hRead : b.read s heap = .error e) :
    Refuses s heap v e

/- A record is not copied for one of these reasons. -/
theorem refuses_of_exportRecord
    {heap : Heap}
    {id : RecordId}
    {v : Value}
    {e : Error}
    (hExport : exportRecord s heap id v = .error e) :
    Refuses s heap v e := by
  cases v with
  | boxed b =>
      simp only [exportRecord] at hExport
      split at hExport
      · split at hExport
        · cases hExport
        · cases hExport
          exact .misfit _ _
      · rename_i cause hFails
        cases hExport
        exact .unread rfl hFails
  | _ =>
      cases hExport
      exact .misfit _ _

/- An object is not referred to for one of these reasons. -/
theorem refuses_of_exportRef
    {heap : Heap}
    {id : RecordId}
    {v : Value}
    {e : Error}
    (hExport : exportRef s heap id v = .error e) :
    Refuses s heap v e := by
  unfold exportRef at hExport
  simp only at hExport
  split at hExport
  · split at hExport
    · cases hExport
      exact .misfit _ _
    · split at hExport
      · split at hExport
        · cases hExport
        · cases hExport
          exact .misfit _ _
      · rename_i cause hFails
        cases hExport
        exact .unread rfl hFails
  · split at hExport
    · cases hExport
    · cases hExport
      exact .misfit _ _

/- A conversion by one rule fails for one of these reasons. -/
theorem refuses_of_exportPlain
    {heap : Heap}
    {t : HostType}
    {v : Value}
    {e : Error}
    (hExport : t.exportPlain s heap v = .error e) :
    Refuses s heap v e := by
  unfold exportPlain at hExport
  simp only at hExport
  split at hExport
  · split at hExport
    · cases hExport
    · split at hExport
      · cases hExport
      · cases hExport
        exact .misfit _ _
  · split at hExport
    · cases hExport
    · cases hExport
      exact .misfit _ _
  · cases hExport
  · cases hExport
  · cases hExport
  · exact refuses_of_exportRecord hExport
  · exact refuses_of_exportRef hExport
  · split at hExport
    · cases hExport
      exact .unsupported _
    · cases hExport
      exact .misfit _ _

/- The element steps of an export that succeeds. -/
theorem eachFrom_exportAs_cons_eq_ok
    {elem : HostType}
    {i : Nat}
    {v : Value}
    {rest : List Value}
    {hs : List HostValue}
    {w w' : World}
    (hEach :
      eachFrom (exportItem s elem) i (v :: rest) w = (.ok hs, w')) :
    ∃ h hs' w₁,
      elem.exportAs s v w = (.ok h, w₁) ∧
      eachFrom (exportItem s elem) (i + 1) rest w₁ = (.ok hs', w') ∧
      hs = h :: hs' := by
  unfold eachFrom at hEach
  rcases Action.bind_eq_ok_iff.mp hEach with
    ⟨h, w₁, hFirst, hRest⟩
  rcases Action.bind_eq_ok_iff.mp hRest with
    ⟨hs', w₂, hOthers, hLast⟩
  cases hLast
  exact ⟨h, hs', w₁, Action.mapError_eq_ok_iff.mp hFirst, hOthers,
    rfl⟩

------------------------------------------------------------
-- Host Forms That Are Fitted
------------------------------------------------------------

/- Steps that all succeed relate elements to results. -/
theorem forall₂_of_mapM
    {α β : Type}
    {f : α → Option β}
    {as : List α}
    {bs : List β}
    (hMap : as.mapM f = some bs) :
    List.Forall₂ (fun a b => f a = some b) as bs := by
  induction as generalizing bs with
  | nil =>
      cases hMap
      exact .nil
  | cons a rest ih =>
      simp only [List.mapM_cons, Option.bind_eq_bind,
        Option.bind_eq_some_iff] at hMap
      rcases hMap with ⟨b, hFirst, others, hOthers, hLast⟩
      cases hLast
      exact .cons hFirst (ih hOthers)

/- Each result of related lists comes from an element. -/
theorem exists_of_mem_forall₂
    {α β : Type}
    {R : α → β → Prop}
    {as : List α}
    {bs : List β}
    {b : β}
    (hLists : List.Forall₂ R as bs)
    (hMem : b ∈ bs) :
    ∃ a ∈ as, R a b := by
  induction hLists with
  | nil => cases hMem
  | @cons x y xs ys hHead hTail ih =>
      rcases List.mem_cons.mp hMem with rfl | hOther
      · exact ⟨x, by simp, hHead⟩
      · rcases ih hOther with ⟨a, hIn, hRelated⟩
        exact ⟨a, List.mem_cons_of_mem x hIn, hRelated⟩

/- A sequence is fitted element by element. -/
theorem fit_seq_eq_some
    {heap : Heap}
    {elem : HostType}
    {form h : HostValue}
    (hFit : (HostType.seq elem).fit heap form = some h) :
    ∃ items fitted,
      form = .seq items ∧
      h = .seq fitted ∧
      List.Forall₂
        (fun item k => elem.fit heap item = some k)
        items fitted := by
  cases form with
  | seq items =>
      simp only [fit, Option.map_eq_some_iff] at hFit
      rcases hFit with ⟨fitted, hItems, hSeq⟩
      exact ⟨items, fitted, rfl, hSeq.symm,
        forall₂_of_mapM hItems⟩
  | _ => cases hFit

------------------------------------------------------------
-- How Exports Succeed
------------------------------------------------------------

/- Offering a host form never fails. -/
theorem isOk_offered
    (t : HostType)
    (v : Value)
    (w : World) :
    ∃ found, (t.offered s v w).1 = .ok found := by
  cases v with
  | any id e =>
      simp only [offered, Action.bind_apply, Action.onHost]
      cases (e.produce w.host).1 with
      | none => exact ⟨none, rfl⟩
      | some h =>
          simp only [Action.bind_apply, Action.fromHeap_apply]
          cases t.fit (e.produce w.host).2.heap h with
          | some fitted => exact ⟨some fitted, rfl⟩
          | none => exact ⟨none, rfl⟩
  | _ => exact ⟨none, rfl⟩

/- What is offered is the host form of a domain value. -/
theorem offered_eq_some
    {t : HostType}
    {v : Value}
    {h : HostValue}
    {w w' : World}
    (hOffer : t.offered s v w = (.ok (some h), w')) :
    ∃ id e form,
      v = .any id e ∧
      (e.produce w.host).1 = some form ∧
      t.fit (e.produce w.host).2.heap form = some h ∧
      w' = { w with host := (e.produce w.host).2 } := by
  cases v with
  | any id e =>
      simp only [offered, Action.bind_apply, Action.onHost]
        at hOffer
      cases hForm : (e.produce w.host).1 with
      | none =>
          rw [hForm] at hOffer
          cases hOffer
      | some form =>
          simp only [hForm, Action.bind_apply,
            Action.fromHeap_apply] at hOffer
          cases hFit : t.fit (e.produce w.host).2.heap form with
          | none =>
              simp only [hFit] at hOffer
              cases hOffer
          | some fitted =>
              simp only [hFit] at hOffer
              cases hOffer
              exact ⟨id, e, form, rfl, hForm, hFit, rfl⟩
  | _ => cases hOffer

/- A domain value is stored in no other form. -/
theorem not_stores_any
    {heap : Heap}
    {t : HostType}
    {id : Nat}
    {e : Exportable}
    {h : HostValue} :
    ¬ t.Stores s heap (.any id e) h := by
  intro hStores
  cases hStores

/-
  How an export succeeds, and the world it leaves: a domain
  value has a host form that fits, an array is exported
  element by element, or a value is stored by the rule of its
  type.
-/
inductive Yields
    (s : Schema)
    (t : HostType)
    (v : Value)
    (w : World) : HostValue → World → Prop where
| offered
    {id : Nat}
    {e : Exportable}
    {form h : HostValue}
    (hValue : v = .any id e)
    (hForm : (e.produce w.host).1 = some form)
    (hFit : t.fit (e.produce w.host).2.heap form = some h) :
    Yields s t v w h { w with host := (e.produce w.host).2 }
| items
    {elem : HostType}
    {shape : List Nat}
    {values : List Value}
    {hs : List HostValue}
    {w' : World}
    (hType : t = .seq elem)
    (hValue : v = .array shape values)
    (hEach :
      each
        (fun i item =>
          Action.mapError (.element i) (elem.exportAs s item))
        values w = (.ok hs, w')) :
    Yields s t v w (.seq hs) w'
| plain
    {h : HostValue}
    (hNe : ∀ elem, t ≠ .seq elem)
    (hStores : t.Stores s w.heap v h) :
    Yields s t v w h w

/- An export that succeeds does so in one of these ways. -/
theorem yields_of_exportAs
    {t : HostType}
    {v : Value}
    {h : HostValue}
    {w w' : World}
    (hExport : t.exportAs s v w = (.ok h, w')) :
    Yields s t v w h w' := by
  by_cases hSeq : ∃ elem, t = .seq elem
  · rcases hSeq with ⟨elem, rfl⟩
    rcases Action.bind_eq_ok_iff.mp hExport with
      ⟨fitted, w₁, hOffer, hRest⟩
    cases fitted with
    | some k =>
        cases hRest
        rcases offered_eq_some hOffer with
          ⟨id, e, form, hValue, hForm, hFit, rfl⟩
        exact .offered hValue hForm hFit
    | none =>
        cases v with
        | array shape values =>
            cases hOffer
            rcases Action.bind_eq_ok_iff.mp hRest with
              ⟨hs, w₂, hEach, hLast⟩
            cases hLast
            exact .items rfl rfl hEach
        | _ => cases hRest
  · have hNe : ∀ elem, t ≠ .seq elem := by
      intro elem hEq
      exact hSeq ⟨elem, hEq⟩
    rw [exportAs_of_ne_seq hNe] at hExport
    rcases Action.bind_eq_ok_iff.mp hExport with
      ⟨fitted, w₁, hOffer, hRest⟩
    cases fitted with
    | some k =>
        cases hRest
        rcases offered_eq_some hOffer with
          ⟨id, e, form, hValue, hForm, hFit, rfl⟩
        exact .offered hValue hForm hFit
    | none =>
        change (t.exportPlain s w₁.heap v, w₁) = (.ok h, w')
          at hRest
        rw [Prod.mk.injEq] at hRest
        rcases hRest with ⟨hPlain, rfl⟩
        have hStores := stores_of_exportPlain hPlain
        cases v with
        | any id e => exact absurd hStores not_stores_any
        | _ =>
            cases hOffer
            exact .plain hNe hStores

/- A host form that fits is what a domain value exports to. -/
theorem exportAs_any_of_fit
    {t : HostType}
    {id : Nat}
    {e : Exportable}
    {h k : HostValue}
    {w : World}
    (hForm : (e.produce w.host).1 = some h)
    (hFit : t.fit (e.produce w.host).2.heap h = some k) :
    (t.exportAs s (.any id e) w).1 = .ok k := by
  have hOffer :
      t.offered s (.any id e) w =
        (.ok (some k),
          { w with host := (e.produce w.host).2 }) := by
    simp only [offered, Action.bind_apply, Action.onHost, hForm,
      Action.fromHeap_apply, hFit, Action.pure_apply]
  by_cases hSeq : ∃ elem, t = .seq elem
  · rcases hSeq with ⟨elem, rfl⟩
    rw [exportAs_seq_any, Action.bind_apply, hOffer]
    rfl
  · rw [exportAs_of_ne_seq (not_exists.mp hSeq),
      Action.bind_apply, hOffer]
    rfl

/-
  A domain value exports exactly when its host form fits: to
  a form that does not there is no alternative.
-/
theorem exportAs_any_eq_ok_iff
    {t : HostType}
    {id : Nat}
    {e : Exportable}
    {h k : HostValue}
    {w : World}
    (hForm : (e.produce w.host).1 = some h) :
    (t.exportAs s (.any id e) w).1 = .ok k ↔
      t.fit (e.produce w.host).2.heap h = some k := by
  constructor
  · intro hOk
    rcases hRun : t.exportAs s (.any id e) w with ⟨outcome, w'⟩
    rw [hRun] at hOk
    subst hOk
    cases yields_of_exportAs hRun with
    | offered hValue hOwn hFit =>
        cases hValue
        cases hForm.symm.trans hOwn
        exact hFit
    | items hType hValue hEach => cases hValue
    | plain hNe hStores => exact absurd hStores not_stores_any
  · exact exportAs_any_of_fit hForm

/-
  The elements of an array that is exported, each with the
  worlds before and after its own export. What every export
  of an element respects relates them to the whole.
-/
theorem forall₂_of_exportEach
    {R : World → World → Prop}
    {elem : HostType}
    {i : Nat}
    {values : List Value}
    {hs : List HostValue}
    {w w' : World}
    (hRefl : ∀ w, R w w)
    (hTrans : ∀ u v w, R u v → R v w → R u w)
    (hSteps : ∀ item ∈ values, (elem.exportAs s item).Steps R)
    (hEach :
      eachFrom (exportItem s elem) i values w = (.ok hs, w')) :
    R w w' ∧
      List.Forall₂
        (fun item h => ∃ w₁ w₂,
          R w w₁ ∧
          elem.exportAs s item w₁ = (.ok h, w₂) ∧
          R w₂ w') values hs := by
  induction values generalizing i w hs with
  | nil =>
      cases hEach
      exact ⟨hRefl _, .nil⟩
  | cons v rest ih =>
      rcases eachFrom_exportAs_cons_eq_ok hEach with
        ⟨h, hs', w₁, hFirst, hRest, rfl⟩
      have hStep : R w w₁ := by
        have hOwn := hSteps v List.mem_cons_self w
        rwa [hFirst] at hOwn
      have hOthers : ∀ item ∈ rest,
          (elem.exportAs s item).Steps R := by
        intro item hMem
        exact hSteps item (List.mem_cons_of_mem v hMem)
      rcases ih hOthers hRest with ⟨hTail, hItems⟩
      refine ⟨hTrans _ _ _ hStep hTail, .cons ?_ ?_⟩
      · exact ⟨w, w₁, hRefl w, hFirst, hTail⟩
      · refine List.Forall₂.imp ?_ hItems
        rintro item h' ⟨w₂, w₃, hBefore, hItem, hAfter⟩
        exact ⟨w₂, w₃, hTrans _ _ _ hStep hBefore, hItem, hAfter⟩

------------------------------------------------------------
-- Effects of Exports
------------------------------------------------------------

/-
  An export does what the domain values in its operand do:
  it respects each relation that offering them respects.
-/
theorem exportAs_steps
    {R : World → World → Prop}
    (hRefl : ∀ w, R w w)
    (hTrans : ∀ u v w, R u v → R v w → R u w)
    (t : HostType)
    {v : Value}
    (hOffer :
      ∀ id e, Value.Within (.any id e) v →
        ∀ t : HostType, (t.offered s (.any id e)).Steps R) :
    (t.exportAs s v).Steps R := by
  induction t generalizing v with
  | seq elem ih =>
      have hFirst : ((HostType.seq elem).offered s v).Steps R := by
        cases v with
        | any id e => exact hOffer id e (.self _) _
        | _ => exact .of_unchanged hRefl fun w => rfl
      refine Action.Steps.bind hTrans hFirst ?_
      intro fitted
      cases fitted with
      | some h => exact .of_unchanged hRefl fun w => rfl
      | none =>
          cases v with
          | array shape values =>
              refine Action.Steps.bind hTrans ?_ ?_
              · apply Action.Steps.eachFrom hRefl hTrans
                intro i item hMem
                apply Action.Steps.mapError
                apply ih
                intro id e hWithin
                exact hOffer id e (.arrayItem hMem hWithin)
              · intro items
                exact .of_unchanged hRefl fun w => rfl
          | _ => exact .of_unchanged hRefl fun w => rfl
  | _ =>
      rw [exportAs_of_ne_seq (by simp)]
      refine Action.Steps.bind hTrans ?_ ?_
      · cases v with
        | any id e => exact hOffer id e (.self _) _
        | _ => exact .of_unchanged hRefl fun w => rfl
      · intro fitted
        cases fitted <;>
          exact .of_unchanged hRefl fun w => rfl

/- Offering changes what the domain value itself changes. -/
theorem offered_steps
    {R : World → World → Prop}
    {t : HostType}
    {id : Nat}
    {e : Exportable}
    (hRefl : ∀ w, R w w)
    (hTrans : ∀ u v w, R u v → R v w → R u w)
    (hHost : (Action.onHost e.produce).Steps R)
    (hEmit : ∀ event, (Action.emit event).Steps R) :
    (t.offered s (.any id e)).Steps R := by
  refine Action.Steps.bind hTrans hHost ?_
  intro form
  cases form with
  | none => exact .of_unchanged hRefl fun w => rfl
  | some v =>
      refine Action.Steps.bind hTrans ?_ ?_
      · exact .of_unchanged hRefl fun w => rfl
      · intro fitted
        cases fitted with
        | some h => exact .of_unchanged hRefl fun w => rfl
        | none =>
            refine Action.Steps.bind hTrans (hEmit _) ?_
            intro u
            exact .of_unchanged hRefl fun w => rfl

/-
  Exporting leaves the objects of the host alone when the
  domain values in the operand do.
-/
theorem heap_exportAs
    {t : HostType}
    {v : Value}
    (hLeaves :
      ∀ id e, Value.Within (.any id e) v → e.LeavesObjects)
    (w : World) :
    (t.exportAs s v w).2.heap = w.heap := by
  let R : World → World → Prop := fun w w' => w'.heap = w.heap
  have hRefl : ∀ w, R w w := fun w => rfl
  have hTrans : ∀ u v w, R u v → R v w → R u w := by
    intro u v w hFirst hSecond
    exact hSecond.trans hFirst
  have hSteps : (t.exportAs s v).Steps R := by
    apply exportAs_steps hRefl hTrans
    intro id e hWithin t
    apply offered_steps hRefl hTrans
    · intro w
      exact hLeaves id e hWithin w.host
    · intro event w
      exact hRefl w
  exact hSteps w

/- Exporting a plain value changes nothing at all. -/
theorem world_exportAs
    {t : HostType}
    {v : Value}
    (hPlain : v.IsPlain)
    (w : World) :
    (t.exportAs s v w).2 = w := by
  have hSteps : (t.exportAs s v).Steps Eq := by
    apply exportAs_steps Eq.refl
    · intro u v w
      exact Eq.trans
    · intro id e hWithin
      exact absurd hWithin (hPlain id e)
  exact (hSteps w).symm

end HostType

end Interop
