import Interop.Proofs.Convert.Acceptance
import Interop.Proofs.RoundTrip
import Interop.Proofs.Typing.Conformance

/-
  Exporting undoes importing. A host value that conforms to a
  type of convertible parts is imported at that type, unless
  it holds an unsigned integer that 64 signed bits do not
  hold; what arrives exports to the very value again, with
  its numbers rounded to the widths of the type. Records by
  value are not rounded: they are copied as they are.

  Main declarations:
    * `HostType.Converts`
    * `HostType.narrowed`
    * `HostValue.IsBeyondSigned`
    * `HostType.accepts_iff_of_admits`
    * `HostType.goesBack_of_accepts`
    * `HostType.exportAs_importAs`
-/

namespace Interop

------------------------------------------------------------
-- What Is Taken
------------------------------------------------------------

/- An unsigned integer that 64 signed bits do not hold. -/
def HostValue.IsBeyondSigned (v : HostValue) : Prop :=
  ∃ n : UInt64, v = .uint n ∧ IntKind.i64.highest < n.toNat

/- The others lie in the range of the signed integers. -/
theorem HostValue.not_isBeyondSigned_uint_iff
    {n : UInt64} :
    ¬ (HostValue.uint n).IsBeyondSigned ↔
      IntKind.i64.contains n.toNat = true := by
  simp only [IsBeyondSigned, uint.injEq, exists_eq_left',
    IntKind.contains_iff, IntKind.lowest, IntKind.highest]
  omega

/- A number in that range is the same signed or not. -/
theorem IntKind.toInt_ofNat
    {n : Nat}
    (hFits : IntKind.i64.contains n = true) :
    (Int64.ofNat n).toInt = n := by
  have hUpper := ((IntKind.contains_iff _ _).mp hFits).2
  apply Int64.toInt_ofNat_of_lt
  simp only [IntKind.highest] at hUpper
  omega

namespace HostType

variable {s : Schema} {heap : Heap}

/- No part of the type is a map, channel, interface or error. -/
def Converts : HostType → Prop
| .seq elem => elem.Converts
| t => t.isUnsupported = false

/-
  A conforming value is accepted unless some element of it
  is an unsigned integer that is too large.
-/
theorem accepts_iff_of_admits
    {t : HostType}
    {v : HostValue}
    (hConverts : t.Converts)
    (hAdmits : t.admits heap v = true) :
    t.accepts heap v = true ↔
      ∀ u, HostValue.Element u v → ¬ u.IsBeyondSigned := by
  have hNotUint (u : HostValue) (hNe : ∀ n, u ≠ .uint n) :
      ¬ u.IsBeyondSigned := by
    rintro ⟨n, hUint, hLarge⟩
    exact hNe n hUint
  induction t generalizing v with
  | seq elem ih =>
      cases v with
      | seq items =>
          simp only [admits, List.all_eq_true] at hAdmits
          simp only [accepts, List.all_eq_true]
          constructor
          · intro hAccepts u hElement
            cases hElement with
            | self => exact hNotUint _ (by simp)
            | item hMem hInside =>
                exact (ih hConverts (hAdmits _ hMem)).mp
                  (hAccepts _ hMem) u hInside
          · intro hSmall item hMem
            apply (ih hConverts (hAdmits item hMem)).mpr
            intro u hInside
            exact hSmall u (.item hMem hInside)
      | _ => exact absurd hAdmits Bool.false_ne_true
  | int kind =>
      cases v with
      | int i =>
          refine iff_of_true rfl ?_
          intro u hElement
          cases hElement
          exact hNotUint _ (by simp)
      | uint n =>
          rw [accepts, ← HostValue.not_isBeyondSigned_uint_iff]
          constructor
          · intro hSmall u hElement
            cases hElement
            exact hSmall
          · intro hSmall
            exact hSmall _ .self
      | _ => exact absurd hAdmits Bool.false_ne_true
  | map key value | chan elem | interface name | error =>
      exact absurd hConverts (by simp [Converts, isUnsupported])
  | _ =>
      cases v <;>
        first
        | exact absurd hAdmits Bool.false_ne_true
        | (refine iff_of_true hAdmits ?_
           intro u hElement
           cases hElement
           exact hNotUint _ (by simp))

------------------------------------------------------------
-- What Goes Back
------------------------------------------------------------

/-
  The value with the numbers in its floating point slots
  rounded to the widths of the type. Records keep theirs.
-/
def narrowed : HostType → HostValue → HostValue
| .float kind, .float x => .float (kind.narrow x)
| .complex kind, .complex re im =>
    .complex (kind.narrow re) (kind.narrow im)
| .seq elem, .seq items =>
    .seq (items.map fun item => elem.narrowed item)
| _, v => v

/-
  A host value that is imported at a type goes back as it
  came: objects are added only, and as long as they are kept
  the imported value exports to the narrowed host value.
-/
def GoesBack
    (s : Schema)
    (start : Heap)
    (t : HostType)
    (h : HostValue) : Prop :=
  ∃ v after,
    t.importAs s h start = .ok (v, after) ∧
    start.cells <+: after.cells ∧
    ∀ w : World, after.cells <+: w.heap.cells →
      t.exportAs s v w = (.ok (t.narrowed h), w)

/- A value without elements goes back by the type's rule. -/
theorem goesBack_of_exportPlain
    {t : HostType}
    {h : HostValue}
    {v : Value}
    {after : Heap}
    (hNe : ∀ elem, t ≠ .seq elem)
    (hNotAny : ∀ id e, v ≠ .any id e)
    (hImport : t.importAs s h heap = .ok (v, after))
    (hExport : ∀ later : Heap, after.cells <+: later.cells →
      t.exportPlain s later v = .ok (t.narrowed h)) :
    GoesBack s heap t h := by
  refine ⟨v, after, hImport, (importAs_isLocal t h).adds hImport,
    ?_⟩
  intro w hKept
  rw [exportAs_of_ne_any hNe hNotAny, Action.fromHeap_apply,
    hExport w.heap hKept]

/- A record that a box reads is copied from it. -/
theorem exportRecord_of_read
    {id : RecordId}
    {b : Box}
    {content : HostValue}
    (hRead : b.read s heap = .ok content)
    (hRecord : content.isRecordOf id = true) :
    exportRecord s heap id (.boxed b) = .ok content := by
  simp [exportRecord, hRead, hRecord]

/- An object that holds a record is referred to. -/
theorem exportRef_of_read
    {id : RecordId}
    {h : Handle}
    {content : HostValue}
    (hRead :
      (Box.whole h (.record id)).read s heap = .ok content)
    (hRecord : content.isRecordOf id = true) :
    exportRef s heap id (.boxed (.whole h (.record id))) =
      .ok (.ref h) := by
  simp only [exportRef, hRead, hRecord, if_true]
  rfl

/- A record goes back from the object it was moved into. -/
theorem goesBack_record
    {id : RecordId}
    {h : HostValue}
    (hRecord : h.isRecordOf id = true) :
    GoesBack s heap (.record id) h := by
  refine goesBack_of_exportPlain (by simp) (by simp)
    (importAs_record_of_isRecordOf hRecord) ?_
  intro later hKept
  have hNew : heap.next.index < (heap.alloc h).2.size := by
    rw [Heap.size_alloc]
    exact Nat.lt_succ_self heap.size
  have hCell : later.cell heap.next = .free h := by
    rw [Heap.cell_of_isPrefix hKept hNew, Heap.cell_alloc_next]
  have hRead :
      (Box.whole heap.next (.record id)).read s later =
        .ok h := by
    apply Box.read_eq_ok_iff.mpr
    simp [Box.whole, HostValue.at?, Heap.isReadable, Heap.loan,
      Heap.content, hCell, Cell.free]
  rcases HostValue.isRecordOf_iff.mp hRecord with ⟨values, rfl⟩
  exact exportRecord_of_read hRead hRecord

/- A reference goes back to the object that it came for. -/
theorem goesBack_ref
    {id : RecordId}
    {h : Handle}
    (hReadable : heap.isReadable h = true)
    (hRecord : (heap.content h).isRecordOf id = true) :
    GoesBack s heap (.ref id) (.ref h) := by
  refine goesBack_of_exportPlain (by simp) (by simp)
    (importRef_eq_ok_iff.mpr ⟨hReadable, hRecord, rfl, rfl⟩) ?_
  intro later hKept
  have hOld := Heap.lt_size_of_isRecordOf hRecord
  have hContent := Heap.content_of_isPrefix hKept hOld
  have hRead :
      (Box.whole h (.record id)).read s later =
        .ok (heap.content h) := by
    apply Box.read_eq_ok_iff.mpr
    refine ⟨?_, congrArg some hContent⟩
    rw [Heap.isReadable, Box.whole,
      Heap.loan_of_isPrefix hKept hOld]
    exact hReadable
  exact exportRef_of_read hRead hRecord

/- An integer that was stored by its kind is stored so again. -/
theorem goesBack_int
    {kind : IntKind}
    {h : HostValue}
    (hAdmits : (HostType.int kind).admits heap h = true)
    (hAccepts : (HostType.int kind).accepts heap h = true) :
    GoesBack s heap (.int kind) h := by
  cases h with
  | int i =>
      simp only [admits, Bool.and_eq_true, Bool.not_eq_true']
        at hAdmits
      refine goesBack_of_exportPlain (by simp) (by simp) rfl ?_
      intro later hKept
      have hStore :
          storeInt kind i.toInt = some (.int i) := by
        apply storeInt_eq_some_iff.mpr
        simp [hAdmits]
      simp only [exportPlain, hStore]
      rfl
  | uint n =>
      simp only [admits, Bool.and_eq_true] at hAdmits
      have hFits : IntKind.i64.contains n.toNat = true := hAccepts
      have hImport :
          (HostType.int kind).importAs s (.uint n) heap =
            .ok (.int (.ofNat n.toNat), heap) := by
        simp only [importAs, hFits, if_true]
        rfl
      refine goesBack_of_exportPlain (by simp) (by simp)
        hImport ?_
      intro later hKept
      have hStore :
          storeInt kind (Int64.ofNat n.toNat).toInt =
            some (.uint n) := by
        apply storeInt_eq_some_iff.mpr
        simp [IntKind.toInt_ofNat hFits, hAdmits]
      simp only [exportPlain, hStore]
      rfl
  | _ => exact absurd hAdmits Bool.false_ne_true

/-
  The elements of a sequence go back in order. The heap grows
  from one import to the next, which neither makes a value
  nonconforming nor keeps it from being accepted.
-/
theorem goesBack_items
    {elem : HostType}
    (hElem : ∀ {h start},
      elem.admits start h = true →
      elem.accepts start h = true →
        GoesBack s start elem h)
    {items : List HostValue}
    {i : Nat}
    (hAdmits : ∀ h ∈ items, elem.admits heap h = true)
    (hAccepts : ∀ h ∈ items, elem.accepts heap h = true) :
    ∃ values after,
      eachFrom (importItem s elem) i items heap =
        .ok (values, after) ∧
      heap.cells <+: after.cells ∧
      ∀ w : World, after.cells <+: w.heap.cells →
        eachFrom (exportItem s elem) i values w =
          (.ok (items.map fun h => elem.narrowed h), w) := by
  induction items generalizing i heap with
  | nil =>
      exact ⟨[], heap, rfl, List.prefix_refl _, fun _ _ => rfl⟩
  | cons h rest ih =>
      rcases hElem (hAdmits h (by simp)) (hAccepts h (by simp))
        with ⟨v, mid, hImport, hMid, hBack⟩
      have hRestAdmits : ∀ u ∈ rest, elem.admits mid u = true := by
        intro u hMem
        exact admits_of_isPrefix hMid
          (hAdmits u (List.mem_cons_of_mem h hMem))
      have hRestAccepts :
          ∀ u ∈ rest, elem.accepts mid u = true := by
        intro u hMem
        rw [accepts_of_importAs hImport]
        exact hAccepts u (List.mem_cons_of_mem h hMem)
      rcases ih (i := i + 1) hRestAdmits hRestAccepts with
        ⟨values, after, hImports, hAfter, hBacks⟩
      refine ⟨v :: values, after, ?_, hMid.trans hAfter, ?_⟩
      · apply Import.eachFrom_cons_eq_ok_iff.mpr
        exact ⟨v, values, mid,
          Import.mapError_eq_ok_iff.mpr hImport, hImports, rfl⟩
      · intro w hKept
        have hHead := hBack w (hAfter.trans hKept)
        have hTail := hBacks w hKept
        simp only [eachFrom, Action.bind_apply, Action.mapError,
          hHead, hTail, Action.pure_apply, List.map_cons]

/-
  What conforms and is accepted goes back. The induction
  follows the type: elements are imported at smaller types.
-/
theorem goesBack_of_accepts
    {t : HostType}
    {h : HostValue}
    (hAdmits : t.admits heap h = true)
    (hAccepts : t.accepts heap h = true) :
    GoesBack s heap t h := by
  induction t generalizing h heap with
  | seq elem ih =>
      cases h with
      | seq items =>
          simp only [admits, List.all_eq_true] at hAdmits
          simp only [accepts, List.all_eq_true] at hAccepts
          rcases goesBack_items (i := 0) ih hAdmits hAccepts with
            ⟨values, after, hImport, hAfter, hBack⟩
          refine ⟨.vector values, after, ?_, hAfter, ?_⟩
          · exact importAs_seq_eq_ok_iff.mpr
              ⟨values, hImport, rfl⟩
          · intro w hKept
            rw [Value.vector, exportAs_seq_array]
            simp only [Action.bind_apply, each, hBack w hKept]
            rfl
      | _ => exact absurd hAdmits Bool.false_ne_true
  | bool =>
      cases h with
      | bool b =>
          refine goesBack_of_exportPlain (by simp) (by simp) rfl ?_
          intro later hKept
          cases b <;> rfl
      | _ => exact absurd hAdmits Bool.false_ne_true
  | int kind => exact goesBack_int hAdmits hAccepts
  | record id =>
      rw [admits_record] at hAdmits
      exact goesBack_record hAdmits
  | ref id =>
      cases h with
      | nil =>
          exact goesBack_of_exportPlain (by simp) (by simp [Value.empty])
            rfl fun _ _ => rfl
      | ref h =>
          simp only [admits, Bool.and_eq_true] at hAdmits
          exact goesBack_ref hAdmits.1 hAdmits.2
      | _ => exact absurd hAdmits Bool.false_ne_true
  | _ =>
      cases h <;>
        first
        | exact absurd hAdmits Bool.false_ne_true
        | exact absurd hAccepts Bool.false_ne_true
        | exact goesBack_of_exportPlain (by simp) (by simp)
            rfl fun _ _ => rfl

/-
  Exporting undoes importing. A host value that conforms to a
  type without unsupported parts is imported unless it is, or
  has among its elements, an unsigned integer beyond the
  signed ones; then the import fails. What is imported exports
  at the type, in the heap that the import leaves, to the host
  value narrowed along the type; the export changes nothing,
  and the import has only added objects.
-/
theorem exportAs_importAs
    {t : HostType}
    {h : HostValue}
    {w : World}
    (hConverts : t.Converts)
    (hAdmits : t.admits w.heap h = true) :
    ((∀ u, HostValue.Element u h → ¬ u.IsBeyondSigned) →
      ∃ v after,
        t.importAs s h w.heap = .ok (v, after) ∧
        w.heap.cells <+: after.cells ∧
        t.exportAs s v (w.withHeap after) =
          (.ok (t.narrowed h), w.withHeap after)) ∧
    ((∃ u, HostValue.Element u h ∧ u.IsBeyondSigned) →
      ∃ e, t.importAs s h w.heap = .error e) := by
  have hTaken := accepts_iff_of_admits hConverts hAdmits
  constructor
  · intro hSmall
    rcases goesBack_of_accepts hAdmits (hTaken.mpr hSmall) with
      ⟨v, after, hImport, hAfter, hBack⟩
    exact ⟨v, after, hImport, hAfter,
      hBack (w.withHeap after) (List.prefix_refl _)⟩
  · rintro ⟨u, hElement, hLarge⟩
    cases hRun : t.importAs s h w.heap with
    | error e => exact ⟨e, rfl⟩
    | ok r =>
        have hAccepts := (isOk_importAs_iff s t h w.heap).mp ⟨r, hRun⟩
        exact absurd hLarge (hTaken.mp hAccepts u hElement)

/-
  Two points go back from the objects they were moved into. A
  number of 64 unsigned bits is imported up to the greatest
  signed one.
-/
theorem exportAs_importAs_plane :
    (let points : HostType := .seq (.record ⟨0⟩)
    let h : HostValue := .seq [.point 3 4, .point 1 2]
    points.admits World.withSegment.heap h = true ∧
      ∃ v after,
        points.importAs .plane h World.withSegment.heap =
          .ok (v, after) ∧
        points.exportAs .plane v (World.withSegment.withHeap after) =
          (.ok h, World.withSegment.withHeap after)) ∧
    (let numbers : HostType := .seq (.int .u64)
    let h : HostValue := .seq [.uint 7, .uint 9223372036854775808]
    numbers.admits World.withSegment.heap h = true ∧
      ∃ e,
        numbers.importAs .plane h World.withSegment.heap =
          .error e) := by
  constructor
  · have hConverts : (HostType.seq (.record ⟨0⟩)).Converts := rfl
    have hAdmits :
        (HostType.seq (.record ⟨0⟩)).admits World.withSegment.heap
          (.seq [.point 3 4, .point 1 2]) = true := rfl
    have hSmall := (accepts_iff_of_admits hConverts hAdmits).mp rfl
    rcases (exportAs_importAs (s := .plane) hConverts hAdmits).1
        hSmall with
      ⟨v, after, hImport, hAfter, hExport⟩
    exact ⟨hAdmits, v, after, hImport, hExport⟩
  · have hConverts : (HostType.seq (.int .u64)).Converts := rfl
    have hAdmits :
        (HostType.seq (.int .u64)).admits World.withSegment.heap
          (.seq [.uint 7, .uint 9223372036854775808]) = true := rfl
    have hLarge :
        (HostValue.uint 9223372036854775808).IsBeyondSigned :=
      ⟨_, rfl, by decide⟩
    refine ⟨hAdmits, ?_⟩
    exact (exportAs_importAs (s := .plane) hConverts hAdmits).2
      ⟨_, .item (by simp) .self, hLarge⟩

end HostType

end Interop
