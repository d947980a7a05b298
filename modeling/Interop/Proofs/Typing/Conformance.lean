import Interop.Host.Conformance
import Interop.Proofs.Heap
import Mathlib.Data.List.Forall2

/-
  Conformance at every depth. A value conforms to a type as
  it is, and each record that occurs anywhere inside it has
  one conforming value for each declared field. References
  are followed to the record type of their object only; what
  that object holds is the heap's concern.

  Main declarations:
    * `HostValue.Within`
    * `HostValue.Within.trans`
    * `HostRecord.Fits`
    * `HostValue.RecordsFit`
    * `HostType.AdmitsDeeply`
    * `Heap.Grows`
    * `HostType.admits_of_refs`
    * `HostType.AdmitsDeeply.mono`
    * `HostType.admitsDeeply_zero`
-/

namespace Interop

------------------------------------------------------------
-- Values Inside Values
------------------------------------------------------------

/- The first value occurs in the second one. -/
inductive HostValue.Within (u : HostValue) : HostValue → Prop where
| self :
    Within u u
| item
    {v : HostValue}
    {items : List HostValue}
    (hMem : v ∈ items)
    (hWithin : Within u v) :
    Within u (.seq items)
| field
    {v : HostValue}
    {id : RecordId}
    {values : List HostValue}
    (hMem : v ∈ values)
    (hWithin : Within u v) :
    Within u (.record id values)

namespace HostValue

/- What occurs in a part occurs in the whole. -/
theorem Within.trans
    {u v w : HostValue}
    (hFirst : Within u v)
    (hSecond : Within v w) :
    Within u w := by
  induction hSecond with
  | self => exact hFirst
  | item hMem hInside ih => exact .item hMem ih
  | field hMem hInside ih => exact .field hMem ih

/- Only a value without parts itself occurs in it. -/
theorem eq_of_within
    {u v : HostValue}
    (hNoSeq : ∀ items, v ≠ .seq items)
    (hNoRecord : ∀ id values, v ≠ .record id values)
    (hWithin : Within u v) :
    u = v := by
  cases hWithin with
  | self => rfl
  | item hMem hInside => exact absurd rfl (hNoSeq _)
  | field hMem hInside => exact absurd rfl (hNoRecord _ _)

end HostValue

------------------------------------------------------------
-- Records That Fit
------------------------------------------------------------

/-
  A record has one value for each declared field, and each
  of them conforms to the type of its field.
-/
def HostRecord.Fits
    (s : Schema)
    (heap : Heap)
    (r : HostRecord) : Prop :=
  List.Forall₂
    (fun (f : Field) v => f.type.admits heap v = true)
    (s.fields r.id) r.values

/- Every record that occurs in a value fits. -/
def HostValue.RecordsFit
    (s : Schema)
    (heap : Heap)
    (v : HostValue) : Prop :=
  ∀ id values, Within (.record id values) v →
    HostRecord.Fits s heap ⟨id, values⟩

/- A value conforms to a type all the way down. -/
structure HostType.AdmitsDeeply
    (s : Schema)
    (heap : Heap)
    (t : HostType)
    (v : HostValue) : Prop where
  shallow : t.admits heap v = true
  records : v.RecordsFit s heap

namespace HostValue

variable {s : Schema} {heap : Heap}

/- No record occurs in a value without parts. -/
theorem recordsFit_of_no_parts
    {v : HostValue}
    (hNoSeq : ∀ items, v ≠ .seq items)
    (hNoRecord : ∀ id values, v ≠ .record id values) :
    v.RecordsFit s heap := by
  intro id values hWithin
  have hSame := eq_of_within hNoSeq hNoRecord hWithin
  exact absurd hSame.symm (hNoRecord id values)

/- The records of a sequence are those of its elements. -/
theorem recordsFit_seq_iff
    {items : List HostValue} :
    (HostValue.seq items).RecordsFit s heap ↔
      ∀ v ∈ items, v.RecordsFit s heap := by
  constructor
  · intro hFit v hMem id values hWithin
    exact hFit id values (.item hMem hWithin)
  · intro hItems id values hWithin
    cases hWithin with
    | item hMem hInside => exact hItems _ hMem id values hInside

/- A record adds itself to the records of its fields. -/
theorem recordsFit_record_iff
    {id : RecordId}
    {values : List HostValue} :
    (HostValue.record id values).RecordsFit s heap ↔
      HostRecord.Fits s heap ⟨id, values⟩ ∧
        ∀ v ∈ values, v.RecordsFit s heap := by
  constructor
  · intro hFit
    refine ⟨hFit id values .self, ?_⟩
    intro v hMem own vs hWithin
    exact hFit own vs (.field hMem hWithin)
  · rintro ⟨hSelf, hValues⟩ own vs hWithin
    cases hWithin with
    | self => exact hSelf
    | field hMem hInside => exact hValues _ hMem own vs hInside

end HostValue

namespace HostType

variable {heap : Heap}

/- Records conform by their type. -/
theorem admits_record
    (heap : Heap)
    (id : RecordId)
    (v : HostValue) :
    (HostType.record id).admits heap v = v.isRecordOf id := by
  cases v <;> rfl

/- Only its own type takes a record. -/
theorem eq_record_of_admits
    {t : HostType}
    {id : RecordId}
    {v : HostValue}
    (hAdmits : t.admits heap v = true)
    (hRecord : v.isRecordOf id = true) :
    t = .record id := by
  rcases HostValue.isRecordOf_iff.mp hRecord with ⟨values, rfl⟩
  cases t with
  | record own =>
      rw [admits_record] at hAdmits
      simp only [HostValue.isRecordOf, beq_iff_eq] at hAdmits
      rw [hAdmits]
  | _ => simp [admits] at hAdmits

end HostType

------------------------------------------------------------
-- Growing Heaps
------------------------------------------------------------

/-
  Objects are added, and the old ones go on holding records
  of their types.
-/
structure Heap.Grows (before after : Heap) : Prop where
  size : before.size ≤ after.size
  records : ∀ (h : Handle) (id : RecordId),
    h.index < before.size →
      (after.content h).isRecordOf id =
        (before.content h).isRecordOf id

namespace Heap.Grows

variable {before after : Heap}

theorem refl (heap : Heap) : Grows heap heap :=
  ⟨Nat.le_refl _, fun _ _ _ => rfl⟩

theorem trans
    {mid : Heap}
    (hFirst : Grows before mid)
    (hSecond : Grows mid after) :
    Grows before after where
  size := Nat.le_trans hFirst.size hSecond.size
  records h id hOld := by
    have hMid : h.index < mid.size :=
      Nat.lt_of_lt_of_le hOld hFirst.size
    rw [hSecond.records h id hMid, hFirst.records h id hOld]

/- A heap grows when objects are added. -/
theorem of_isPrefix
    (hPrefix : before.cells <+: after.cells) :
    Grows before after where
  size := hPrefix.length_le
  records h id hOld := by
    rw [content_of_isPrefix hPrefix hOld]

/- A heap grows when a record replaces one of its type. -/
theorem of_store
    {heap : Heap}
    {h : Handle}
    {new : HostValue}
    (hIn : h.index < heap.size)
    (hKind : ∀ id,
      new.isRecordOf id = (heap.content h).isRecordOf id) :
    Grows heap (heap.store h new) where
  size := Nat.le_of_eq (size_store heap h new).symm
  records k id hOld := by
    by_cases hEq : k = h
    · rw [hEq, content_store_self hIn, hKind id]
    · rw [content_store_of_ne hEq]

/- An object that holds a record still holds one. -/
theorem isRecordOf
    {h : Handle}
    {id : RecordId}
    (hGrows : Grows before after)
    (hRecord : (before.content h).isRecordOf id = true) :
    (after.content h).isRecordOf id = true := by
  rw [hGrows.records h id (lt_size_of_isRecordOf hRecord)]
  exact hRecord

end Heap.Grows

------------------------------------------------------------
-- Conformance in a Later Heap
------------------------------------------------------------

section

variable {s : Schema} {before after : Heap}

/-
  What conforms goes on to, if readable records of a type
  stay readable records of that type.
-/
theorem HostType.admits_of_refs
    {t : HostType}
    {v : HostValue}
    (hRefs : ∀ (h : Handle) (id : RecordId),
      before.isReadable h = true →
      (before.content h).isRecordOf id = true →
        after.isReadable h = true ∧
          (after.content h).isRecordOf id = true)
    (hAdmits : t.admits before v = true) :
    t.admits after v = true := by
  induction t generalizing v with
  | seq elem ih =>
      cases v with
      | seq items =>
          simp only [admits, List.all_eq_true] at hAdmits ⊢
          intro item hMem
          exact ih (hAdmits item hMem)
      | _ => simp [admits] at hAdmits
  | ref id =>
      cases v with
      | nil => rfl
      | ref h =>
          simp only [admits, Bool.and_eq_true] at hAdmits ⊢
          exact hRefs h id hAdmits.1 hAdmits.2
      | _ => simp [admits] at hAdmits
  | _ => cases v <;> exact hAdmits

/- So it does in a grown heap, if nobody has objects then. -/
theorem HostType.admits_mono
    {t : HostType}
    {v : HostValue}
    (hGrows : before.Grows after)
    (hIdle : after.IsIdle)
    (hAdmits : t.admits before v = true) :
    t.admits after v = true := by
  refine admits_of_refs ?_ hAdmits
  intro h id hReadable hRecord
  exact ⟨hIdle.isReadable h, hGrows.isRecordOf hRecord⟩

/- So it does when objects were only added. -/
theorem HostType.admits_of_isPrefix
    {t : HostType}
    {v : HostValue}
    (hPrefix : before.cells <+: after.cells)
    (hAdmits : t.admits before v = true) :
    t.admits after v = true := by
  refine admits_of_refs ?_ hAdmits
  intro h id hReadable hRecord
  have hOld : h.index < before.size :=
    Heap.lt_size_of_isRecordOf hRecord
  refine ⟨?_, (Heap.Grows.of_isPrefix hPrefix).isRecordOf hRecord⟩
  rw [Heap.isReadable, Heap.loan_of_isPrefix hPrefix hOld]
  exact hReadable

theorem HostRecord.Fits.mono
    {r : HostRecord}
    (hGrows : before.Grows after)
    (hIdle : after.IsIdle)
    (hFits : r.Fits s before) :
    r.Fits s after := by
  apply List.Forall₂.imp _ hFits
  intro f v hAdmits
  exact HostType.admits_mono hGrows hIdle hAdmits

theorem HostValue.RecordsFit.mono
    {v : HostValue}
    (hGrows : before.Grows after)
    (hIdle : after.IsIdle)
    (hFit : v.RecordsFit s before) :
    v.RecordsFit s after := by
  intro id values hWithin
  exact (hFit id values hWithin).mono hGrows hIdle

theorem HostType.AdmitsDeeply.mono
    {t : HostType}
    {v : HostValue}
    (hGrows : before.Grows after)
    (hIdle : after.IsIdle)
    (hDeep : t.AdmitsDeeply s before v) :
    t.AdmitsDeeply s after v :=
  ⟨admits_mono hGrows hIdle hDeep.shallow,
    hDeep.records.mono hGrows hIdle⟩

end

------------------------------------------------------------
-- Zero Values
------------------------------------------------------------

namespace HostType

variable {s : Schema} {heap : Heap}

/- A fresh slot of a type holds a value of that type. -/
theorem admits_zero
    (t : HostType) :
    t.admits heap (t.zero s) = true := by
  cases t with
  | int kind =>
      have hZero :
          zero s (.int kind) =
            if kind.isUnsigned then .uint 0 else .int 0 := by
        simp [zero, zeroBelow]
      rw [hZero]
      cases kind <;> rfl
  | record id =>
      rw [zero_record, admits_record]
      simp [HostValue.isRecordOf]
  | _ => simp [zero, zeroBelow, admits]

/- The zero values of types other than records hold none. -/
theorem recordsFit_zero_of_ne_record
    {t : HostType}
    (hNe : ∀ id, t ≠ .record id) :
    (t.zero s).RecordsFit s heap := by
  cases t with
  | record id => exact absurd rfl (hNe id)
  | seq elem =>
      simp [zero, zeroBelow, HostValue.recordsFit_seq_iff]
  | int kind =>
      simp only [zero, zeroBelow]
      split <;> exact HostValue.recordsFit_of_no_parts (by simp) (by simp)
  | _ =>
      simp only [zero, zeroBelow]
      exact HostValue.recordsFit_of_no_parts (by simp) (by simp)

/-
  The fields of a record mention earlier records, so the
  induction is on the bound of what a type mentions.
-/
theorem recordsFit_zero_of_below
    {n : Nat}
    {t : HostType}
    (hBelow : t.Below n) :
    (t.zero s).RecordsFit s heap := by
  induction n generalizing t with
  | zero =>
      apply recordsFit_zero_of_ne_record
      rintro id rfl
      exact Nat.not_lt_zero _ hBelow
  | succ n ih =>
      by_cases hRecord : ∃ id, t = .record id
      · rcases hRecord with ⟨id, rfl⟩
        rw [zero_record, HostValue.recordsFit_record_iff]
        constructor
        · simp only [HostRecord.Fits, List.forall₂_map_right_iff,
            List.forall₂_same]
          intro f hMem
          exact admits_zero f.type
        · intro v hMem
          rcases List.mem_map.mp hMem with ⟨f, hField, rfl⟩
          have hEarlier := Schema.below_of_mem_fields hField
          exact ih (hEarlier.mono (Nat.le_of_lt_succ hBelow))
      · apply recordsFit_zero_of_ne_record
        intro id hEq
        exact hRecord ⟨id, hEq⟩

/- A fresh slot of a type holds what conforms deeply. -/
theorem admitsDeeply_zero
    (t : HostType) :
    t.AdmitsDeeply s heap (t.zero s) where
  shallow := admits_zero t
  records := by
    by_cases hRecord : ∃ id, t = .record id
    · rcases hRecord with ⟨id, rfl⟩
      exact recordsFit_zero_of_below (Nat.lt_succ_self id.index)
    · apply recordsFit_zero_of_ne_record
      intro id hEq
      exact hRecord ⟨id, hEq⟩

end HostType

end Interop
