import Interop.Host.Conformance
import Interop.Proofs.Convert.Import
import Interop.Proofs.Plane

/-
  Which host values an import takes, and how that compares
  with conformance. An import looks at the kind of a value
  and follows references, but it takes an integer of either
  storage and of any range, as long as 64 signed bits hold
  it. What it takes conforms but for such integers.

  The elements of a sequence are imported one after another,
  each in the heap that the ones before it have left. That
  makes no difference: an import at a type either adds no
  objects, or it looks at none. An import that fails does so
  for one reason in all heaps with the objects that the value
  refers to.

  Main declarations:
    * `HostValue.Element`
    * `HostType.accepts`
    * `HostType.adds_or_looks`
    * `HostType.isOk_importAs_iff`
    * `HostType.importAs_fails_alike`
    * `HostType.IntegersFit`
    * `HostType.admits_iff_of_importAs`
-/

namespace Interop

------------------------------------------------------------
-- Elements
------------------------------------------------------------

/-
  The first value is the second one or, at any depth of
  sequences, an element of it. Records are not looked into.
-/
inductive HostValue.Element (u : HostValue) : HostValue → Prop where
| self :
    Element u u
| item
    {v : HostValue}
    {items : List HostValue}
    (hMem : v ∈ items)
    (hElement : Element u v) :
    Element u (.seq items)

/- What the value and its elements refer to exists. -/
def HostValue.RefersWithin
    (heap : Heap)
    (v : HostValue) : Prop :=
  ∀ h, Element (.ref h) v → h.index < heap.size

namespace HostType

variable {s : Schema} {heap : Heap}

------------------------------------------------------------
-- What Imports Take
------------------------------------------------------------

/- An import at the type takes the value. -/
def accepts
    (heap : Heap) : HostType → HostValue → Bool
| .bool, .bool _ => true
| .int _, .int _ => true
| .int _, .uint n => IntKind.i64.contains n.toNat
| .float _, .float _ => true
| .complex _, .complex _ _ => true
| .str, .str _ => true
| .seq elem, .seq items =>
    items.all fun item => elem.accepts heap item
| .record id, .record own _ => own == id
| .ref _, .nil => true
| .ref id, .ref h =>
    heap.isReadable h && (heap.content h).isRecordOf id
| _, _ => false

/- Only records are moved into fresh objects. -/
theorem Import.Goes.adds_none
    {t : HostType}
    {v : HostValue}
    {x : Import Value}
    {heap' : Heap}
    {a : Value}
    (hNoRecord : ∀ id, t ≠ .record id)
    (hGoes : Goes s t v x)
    (hRun : x heap = .ok (a, heap')) :
    heap' = heap := by
  cases hGoes with
  | scalar b =>
      cases hRun
      rfl
  | empty =>
      cases hRun
      rfl
  | record hType hRecord => exact absurd hType (hNoRecord _)
  | ref hType hValue =>
      exact (importRef_eq_ok_iff.mp hRun).2.2.2
  | refused e => cases hRun

/- Steps that add no objects add none together. -/
theorem Import.eachFrom_adds_none
    {α β : Type}
    {f : Nat → α → StateT Heap (Except Error) β}
    {items : List α}
    {start : Nat}
    {heap' : Heap}
    {results : List β}
    (hItem : ∀ {i a b before after},
      f i a before = .ok (b, after) → after = before)
    (hRun : eachFrom f start items heap = .ok (results, heap')) :
    heap' = heap := by
  induction items generalizing start heap results with
  | nil =>
      cases hRun
      rfl
  | cons a rest ih =>
      rcases eachFrom_cons_eq_ok_iff.mp hRun with
        ⟨b, bs, mid, hFirst, hRest, hBoth⟩
      rw [ih hRest, hItem hFirst]

/- The one that fails does so on the objects of the start. -/
theorem Import.eachFrom_fails_here
    {α β : Type}
    {f : Nat → α → StateT Heap (Except Error) β}
    {items : List α}
    {start : Nat}
    {e : Error}
    (hItem : ∀ {i a b before after},
      f i a before = .ok (b, after) → after = before)
    (hRun : eachFrom f start items heap = .error e) :
    ∃ i, ∃ a ∈ items, f i a heap = .error e := by
  induction items generalizing start with
  | nil => cases hRun
  | cons a rest ih =>
      rcases eachFrom_cons_eq_error_iff.mp hRun with
        hHere | ⟨b, mid, hFirst, hRest⟩
      · exact ⟨start, a, List.mem_cons_self, hHere⟩
      · rw [hItem hFirst] at hRest
        rcases ih hRest with ⟨i, x, hMem, hFails⟩
        exact ⟨i, x, List.mem_cons_of_mem a hMem, hFails⟩

/- Elements add none when their imports add none. -/
theorem importItem_adds_none
    {elem : HostType}
    (hAddsNone : ∀ {v heap heap' a},
      elem.importAs s v heap = .ok (a, heap') → heap' = heap)
    {i : Nat}
    {item : HostValue}
    {a : Value}
    {before after : Heap}
    (hItem : importItem s elem i item before = .ok (a, after)) :
    after = before :=
  hAddsNone (Import.mapError_eq_ok_iff.mp hItem)

/- So do sequences of them. -/
theorem importSeq_adds_none
    {elem : HostType}
    (hAddsNone : ∀ {v heap heap' a},
      elem.importAs s v heap = .ok (a, heap') → heap' = heap)
    {v : HostValue}
    {a : Value}
    {before after : Heap}
    (hImport :
      (HostType.seq elem).importAs s v before = .ok (a, after)) :
    after = before := by
  cases v with
  | seq items =>
      rcases importAs_seq_eq_ok_iff.mp hImport with
        ⟨values, hEach, hVector⟩
      exact Import.eachFrom_adds_none
        (importItem_adds_none hAddsNone) hEach
  | _ => cases hImport

/-
  An import at a type adds no objects, or what it takes does
  not depend on the objects there are: records are added and
  references followed, but no type has both.
-/
theorem adds_or_looks
    (s : Schema)
    (t : HostType) :
    (∀ {v heap heap' a},
      t.importAs s v heap = .ok (a, heap') → heap' = heap) ∨
    ∀ heap heap' v, t.accepts heap v = t.accepts heap' v := by
  induction t with
  | seq elem ih =>
      rcases ih with hAddsNone | hLooksAtNone
      · exact .inl (importSeq_adds_none hAddsNone)
      · right
        intro heap heap' v
        cases v with
        | seq items => simp only [accepts, hLooksAtNone heap heap']
        | _ => rfl
  | record id =>
      right
      intro heap heap' v
      cases v <;> rfl
  | _ =>
      left
      intro v heap heap' a hImport
      exact (importAs_goes (by simp)).adds_none (by simp) hImport

/- What an import takes is the same after another import. -/
theorem accepts_of_importAs
    {t : HostType}
    {u : HostValue}
    {a : Value}
    {mid : Heap}
    (hImport : t.importAs s u heap = .ok (a, mid))
    (v : HostValue) :
    t.accepts mid v = t.accepts heap v := by
  rcases adds_or_looks s t with hAddsNone | hLooksAtNone
  · rw [hAddsNone hImport]
  · exact hLooksAtNone mid heap v

/- A list of values is imported when each of them is taken. -/
theorem isOk_importItems_iff
    {elem : HostType}
    {items : List HostValue}
    {i : Nat}
    (hElem : ∀ v heap,
      (∃ r, elem.importAs s v heap = .ok r) ↔
        elem.accepts heap v = true) :
    (∃ r, eachFrom (importItem s elem) i items heap = .ok r) ↔
      ∀ v ∈ items, elem.accepts heap v = true := by
  induction items generalizing i heap with
  | nil => exact ⟨by simp, fun _ => ⟨_, rfl⟩⟩
  | cons item rest ih =>
      constructor
      · rintro ⟨⟨results, last⟩, hRun⟩
        rcases Import.eachFrom_cons_eq_ok_iff.mp hRun with
          ⟨b, bs, mid, hFirst, hRest, hBoth⟩
        have hImport := Import.mapError_eq_ok_iff.mp hFirst
        have hOthers := ih.mp ⟨_, hRest⟩
        intro v hMem
        rcases List.mem_cons.mp hMem with rfl | hTail
        · exact (hElem v heap).mp ⟨_, hImport⟩
        · rw [← accepts_of_importAs hImport]
          exact hOthers v hTail
      · intro hAll
        rcases (hElem item heap).mpr (hAll item (by simp)) with
          ⟨⟨b, mid⟩, hImport⟩
        have hRest : ∀ v ∈ rest, elem.accepts mid v = true := by
          intro v hMem
          rw [accepts_of_importAs hImport]
          exact hAll v (List.mem_cons_of_mem item hMem)
        rcases ih.mpr hRest with ⟨⟨bs, last⟩, hRun⟩
        refine ⟨(b :: bs, last), ?_⟩
        apply Import.eachFrom_cons_eq_ok_iff.mpr
        exact ⟨b, bs, mid,
          Import.mapError_eq_ok_iff.mpr hImport, hRun, rfl⟩

/- A value that is known at once is imported. -/
theorem Import.isOk_pure
    (a : Value) :
    ∃ r, (pure a : Import Value) heap = .ok r :=
  ⟨_, rfl⟩

/- What is refused is not. -/
theorem Import.not_isOk_throw
    (e : Error) :
    ¬ ∃ r, (throw e : Import Value) heap = .ok r := by
  rintro ⟨r, hRun⟩
  cases hRun

/- An import succeeds on the values that its type accepts. -/
theorem isOk_importAs_iff
    (s : Schema)
    (t : HostType)
    (v : HostValue)
    (heap : Heap) :
    (∃ r, t.importAs s v heap = .ok r) ↔
      t.accepts heap v = true := by
  induction t generalizing v heap with
  | seq elem ih =>
      cases v with
      | seq items =>
          rw [accepts, List.all_eq_true,
            ← isOk_importItems_iff (i := 0) ih]
          constructor
          · rintro ⟨⟨a, last⟩, hImport⟩
            rcases importAs_seq_eq_ok_iff.mp hImport with
              ⟨values, hEach, hVector⟩
            exact ⟨_, hEach⟩
          · rintro ⟨⟨values, last⟩, hEach⟩
            exact ⟨_, importAs_seq_eq_ok_iff.mpr
              ⟨values, hEach, rfl⟩⟩
      | _ =>
          exact iff_of_false (Import.not_isOk_throw _)
            Bool.false_ne_true
  | int kind =>
      cases v with
      | int i => exact iff_of_true (Import.isOk_pure _) rfl
      | uint n =>
          simp only [importAs, accepts]
          split
          · rename_i hFits
            exact iff_of_true (Import.isOk_pure _) hFits
          · rename_i hWide
            exact iff_of_false (Import.not_isOk_throw _) hWide
      | _ =>
          exact iff_of_false (Import.not_isOk_throw _)
            Bool.false_ne_true
  | record id =>
      cases v with
      | record own values =>
          simp only [importAs, accepts, beq_iff_eq]
          split
          · rename_i hOwn
            exact iff_of_true ⟨_, rfl⟩ hOwn
          · rename_i hOther
            exact iff_of_false (Import.not_isOk_throw _) hOther
      | _ =>
          exact iff_of_false (Import.not_isOk_throw _)
            Bool.false_ne_true
  | ref id =>
      cases v with
      | nil => exact iff_of_true (Import.isOk_pure _) rfl
      | ref h =>
          simp only [importAs, accepts, Bool.and_eq_true]
          constructor
          · rintro ⟨⟨a, last⟩, hImport⟩
            have hCheck := importRef_eq_ok_iff.mp hImport
            exact ⟨hCheck.1, hCheck.2.1⟩
          · rintro ⟨hReadable, hRecord⟩
            exact ⟨_, importRef_eq_ok_iff.mpr
              ⟨hReadable, hRecord, rfl, rfl⟩⟩
      | _ =>
          exact iff_of_false (Import.not_isOk_throw _)
            Bool.false_ne_true
  | _ =>
      cases v <;>
        first
        | exact iff_of_true (Import.isOk_pure _) rfl
        | exact iff_of_false (Import.not_isOk_throw _)
            Bool.false_ne_true

------------------------------------------------------------
-- Failures in Other Heaps
------------------------------------------------------------

section

variable {start before after : Heap}

/- What is imported at once fails on the same objects. -/
theorem Import.Goes.fails_alike
    {t : HostType}
    {v : HostValue}
    {x : Import Value}
    {e : Error}
    (hGoes : Goes s t v x)
    (hRefers : v.RefersWithin start)
    (hBefore : start.cells <+: before.cells)
    (hAfter : start.cells <+: after.cells)
    (hFails : x before = .error e) :
    x after = .error e := by
  cases hGoes with
  | scalar a => cases hFails
  | empty => cases hFails
  | record hType hRecord => cases hFails
  | @ref id h hType hValue =>
      have hOld : h.index < start.size :=
        hRefers h (hValue ▸ .self)
      have hCell : after.cell h = before.cell h := by
        rw [Heap.cell_of_isPrefix hAfter hOld,
          Heap.cell_of_isPrefix hBefore hOld]
      rw [importRef_eq_error_iff] at hFails ⊢
      simpa only [Heap.isReadable, Heap.loan, Heap.content, hCell]
        using hFails
  | refused cause => exact hFails

/-
  So do elements, on heaps that are related in a way that
  imports keep. Those before the first failing one are
  imported in both heaps: else they would fail in both.
-/
theorem importItems_fail_alike
    {R : Heap → Heap → Prop}
    {elem : HostType}
    {items : List HostValue}
    {i : Nat}
    {e : Error}
    (hElem : ∀ v ∈ items, ∀ before after e,
      R before after →
      elem.importAs s v before = .error e →
        elem.importAs s v after = .error e)
    (hSymm : ∀ {before after}, R before after → R after before)
    (hGrown : ∀ {before after mid last : Heap},
      R before after →
      before.cells <+: mid.cells →
      after.cells <+: last.cells → R mid last)
    (hRelated : R before after)
    (hFails :
      eachFrom (importItem s elem) i items before = .error e) :
    eachFrom (importItem s elem) i items after = .error e := by
  induction items generalizing i before after with
  | nil => cases hFails
  | cons v rest ih =>
      have hHead := hElem v List.mem_cons_self
      have hTail := fun u (hMem : u ∈ rest) =>
        hElem u (List.mem_cons_of_mem v hMem)
      rw [Import.eachFrom_cons_eq_error_iff] at hFails ⊢
      rcases hFails with hFirst | ⟨a, mid, hFirst, hRest⟩
      · left
        rcases Import.mapError_eq_error_iff.mp hFirst with
          ⟨cause, hCause, hWrap⟩
        exact Import.mapError_eq_error_iff.mpr
          ⟨cause, hHead _ _ _ hRelated hCause, hWrap⟩
      · right
        have hImport := Import.mapError_eq_ok_iff.mp hFirst
        have hMid := (importAs_isLocal elem v).adds hImport
        cases hOther : elem.importAs s v after with
        | error cause =>
            rw [hHead _ _ _ (hSymm hRelated) hOther] at hImport
            cases hImport
        | ok r =>
            rcases r with ⟨b, last⟩
            have hLast := (importAs_isLocal elem v).adds hOther
            exact ⟨b, last, Import.mapError_eq_ok_iff.mpr hOther,
              ih hTail (hGrown hRelated hMid hLast) hRest⟩

/-
  A failing import fails for the same reason in every heap
  with the objects that the value refers to.
-/
theorem importAs_fails_alike
    {t : HostType}
    {v : HostValue}
    {e : Error}
    (hRefers : v.RefersWithin start)
    (hBefore : start.cells <+: before.cells)
    (hAfter : start.cells <+: after.cells)
    (hFails : t.importAs s v before = .error e) :
    t.importAs s v after = .error e := by
  induction t generalizing v before after e with
  | seq elem ih =>
      cases v with
      | seq items =>
          rw [importAs_seq_eq_error_iff] at hFails ⊢
          refine importItems_fail_alike
            (R := fun before after =>
              start.cells <+: before.cells ∧
                start.cells <+: after.cells)
            ?_ And.symm ?_ ⟨hBefore, hAfter⟩ hFails
          · intro v hMem before after e hExtend
            refine ih ?_ hExtend.1 hExtend.2
            exact fun h hElement => hRefers h (.item hMem hElement)
          · intro before after mid last hExtend hMid hLast
            exact ⟨hExtend.1.trans hMid, hExtend.2.trans hLast⟩
      | _ =>
          exact (importAs_goes (by simp)).fails_alike hRefers
            hBefore hAfter hFails
  | _ =>
      exact (importAs_goes (by simp)).fails_alike hRefers
        hBefore hAfter hFails

/-
  An import at a type adds no objects, or it fails for the
  same reason whatever objects there are.
-/
theorem adds_or_fails_alike
    (s : Schema)
    (t : HostType) :
    (∀ {v heap heap' a},
      t.importAs s v heap = .ok (a, heap') → heap' = heap) ∨
    ∀ {v before after e},
      t.importAs s v before = .error e →
        t.importAs s v after = .error e := by
  induction t with
  | seq elem ih =>
      rcases ih with hAddsNone | hAlike
      · exact .inl (importSeq_adds_none hAddsNone)
      · right
        intro v before after e hFails
        cases v with
        | seq items =>
            rw [importAs_seq_eq_error_iff] at hFails ⊢
            exact importItems_fail_alike
              (R := fun _ _ => True)
              (fun v hMem before after e hRelated => hAlike)
              id (fun _ _ _ => trivial) trivial hFails
        | _ => exact hFails
  | record id =>
      right
      intro v before after e hFails
      cases v with
      | record own values =>
          simp only [importAs] at hFails ⊢
          split at hFails
          · cases hFails
          · rename_i hOther
            rw [if_neg hOther]
            exact hFails
      | _ => exact hFails
  | _ =>
      left
      intro v heap heap' a hImport
      exact (importAs_goes (by simp)).adds_none (by simp) hImport

/- Elements fail as they did before another was imported. -/
theorem importItems_fail_after_iff
    {elem : HostType}
    {u : HostValue}
    {a : Value}
    {mid : Heap}
    (hImport : elem.importAs s u heap = .ok (a, mid))
    {items : List HostValue}
    {i : Nat}
    {e : Error} :
    eachFrom (importItem s elem) i items mid = .error e ↔
      eachFrom (importItem s elem) i items heap = .error e := by
  rcases adds_or_fails_alike s elem with hAddsNone | hAlike
  · rw [hAddsNone hImport]
  · constructor <;>
      exact importItems_fail_alike
        (R := fun _ _ => True)
        (fun v hMem before after e hRelated => hAlike)
        id (fun _ _ _ => trivial) trivial

end

------------------------------------------------------------
-- Conformance of What Was Imported
------------------------------------------------------------

/-
  The integers that stand for some of an integer kind are in
  its range and stored by its signedness.
-/
def IntegersFit : HostType → HostValue → Prop
| .int kind, .int i =>
    kind.isUnsigned = false ∧ kind.contains i.toInt = true
| .int kind, .uint n =>
    kind.isUnsigned = true ∧ kind.contains n.toNat = true
| .seq elem, .seq items => ∀ item ∈ items, elem.IntegersFit item
| _, _ => True

/- What is accepted conforms when its integers fit. -/
theorem admits_iff_of_accepts
    {t : HostType}
    {v : HostValue}
    (hAccepts : t.accepts heap v = true) :
    t.admits heap v = true ↔ t.IntegersFit v := by
  induction t generalizing v with
  | seq elem ih =>
      cases v with
      | seq items =>
          simp only [accepts, List.all_eq_true] at hAccepts
          simp only [admits, List.all_eq_true, IntegersFit]
          constructor
          · intro hAdmits item hMem
            exact (ih (hAccepts item hMem)).mp (hAdmits item hMem)
          · intro hFit item hMem
            exact (ih (hAccepts item hMem)).mpr (hFit item hMem)
      | _ => exact absurd hAccepts Bool.false_ne_true
  | int kind => cases v <;> simp_all [accepts, admits, IntegersFit]
  | _ =>
      cases v <;>
        first
        | exact iff_of_true hAccepts trivial
        | exact absurd hAccepts Bool.false_ne_true

/-
  A host value that was imported conforms to the type it was
  imported at exactly when the integers in it fit: an import
  checks all else that conformance asks for, at any depth of
  sequences, but neither the range of an integer nor how it
  is stored.
-/
theorem admits_iff_of_importAs
    {t : HostType}
    {v : HostValue}
    {r : Value × Heap}
    (hImport : t.importAs s v heap = .ok r) :
    t.admits heap v = true ↔ t.IntegersFit v :=
  admits_iff_of_accepts
    ((isOk_importAs_iff s t v heap).mp ⟨r, hImport⟩)

/-
  Two references to segments, one of them nil, are imported
  and conform. Numbers are imported as bytes and do not.
-/
theorem admits_iff_of_importAs_plane :
    (let segments : HostType := .seq (.ref ⟨1⟩)
    let v : HostValue := .seq [.ref ⟨0⟩, .nil]
    let heap := World.withSegment.heap
    (∃ r, segments.importAs .plane v heap = .ok r) ∧
      segments.admits heap v = true) ∧
    (let bytes : HostType := .seq (.seq (.int .u8))
    let v : HostValue := .seq [.seq [.uint 255], .seq [.int 300]]
    (∃ r, bytes.importAs .plane v .empty = .ok r) ∧
      bytes.admits .empty v ≠ true) := by
  constructor
  · refine ⟨⟨_, rfl⟩, ?_⟩
    apply (admits_iff_of_importAs (s := .plane) rfl).mpr
    exact fun _ _ => trivial
  · refine ⟨⟨_, rfl⟩, ?_⟩
    intro hAdmits
    have hFit :=
      (admits_iff_of_importAs (s := .plane) rfl).mp hAdmits
    have hLast : (HostType.int .u8).IntegersFit (.int 300) :=
      hFit (.seq [.int 300]) (by simp) (.int 300) (by simp)
    exact absurd hLast.1 (by decide)

/-
  The number 300 is handed over as a byte; so is, inside of a
  sequence, a number that is stored with a sign.
-/
theorem importAs_beyond_kind :
    (HostType.int .u8).importAs .empty (.int 300) .empty =
        .ok (.int 300, .empty) ∧
      (HostType.int .u8).admits .empty (.int 300) = false ∧
      (HostType.seq (.int .u8)).importAs .empty (.seq [.int 7])
          .empty = .ok (.vector [.int 7], .empty) ∧
      (HostType.seq (.int .u8)).admits .empty (.seq [.int 7]) =
        false :=
  ⟨rfl, rfl, rfl, rfl⟩

end HostType

end Interop
