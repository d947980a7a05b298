import Interop.Proofs.Typing.Soundness
import Mathlib.Logic.Relation
import Mathlib.Order.WellFounded

/-
  References between objects. The fields of a record type
  mention earlier record types only, so on a sound heap a
  reference leads from a record to one of an earlier type.
  Hence following references comes to an end: no chain of
  them is infinite, and none returns to where it started.

  Main declarations:
    * `HostType.exists_below`
    * `HostType.refers_below`
    * `Heap.Refers`
    * `Heap.rank`
    * `Heap.IsSound.rank_lt`
    * `Heap.IsAcyclic`
    * `Heap.IsSound.isAcyclic`
-/

namespace Interop

------------------------------------------------------------
-- References in Conforming Values
------------------------------------------------------------

/- The record types that a type mentions come before some. -/
theorem HostType.exists_below
    (t : HostType) :
    ∃ n, t.Below n := by
  induction t with
  | seq elem ih | chan elem ih => exact ih
  | map key value ihKey ihValue =>
      rcases ihKey with ⟨m, hKey⟩
      rcases ihValue with ⟨n, hValue⟩
      exact ⟨max m n, hKey.mono (Nat.le_max_left m n),
        hValue.mono (Nat.le_max_right m n)⟩
  | record id | ref id =>
      exact ⟨id.index + 1, Nat.lt_succ_self id.index⟩
  | _ => exact ⟨0, trivial⟩

/- Each value of a record that fits conforms to some field. -/
theorem HostRecord.Fits.exists_field
    {s : Schema}
    {heap : Heap}
    {r : HostRecord}
    {v : HostValue}
    (hFits : r.Fits s heap)
    (hMem : v ∈ r.values) :
    ∃ f ∈ s.fields r.id, f.type.admits heap v = true := by
  rcases List.getElem?_of_mem hMem with ⟨i, hGet⟩
  rcases hFits.field hGet with ⟨f, hField, hAdmits⟩
  exact ⟨f, List.mem_of_getElem? hField, hAdmits⟩

/-
  A reference in a value leads to a record whose type the
  type of the value, or that of a field in it, mentions. The
  induction is on how the reference occurs: inside a record
  the bound becomes the record's own place in the schema.
-/
theorem HostType.refers_below
    {s : Schema}
    {heap : Heap}
    {n : Nat}
    {t : HostType}
    {v : HostValue}
    {h : Handle}
    (hBelow : t.Below n)
    (hDeep : t.AdmitsDeeply s heap v)
    (hWithin : HostValue.Within (.ref h) v) :
    ∃ id, id.index < n ∧
      (heap.content h).isRecordOf id = true := by
  rcases hDeep with ⟨hAdmits, hFit⟩
  induction hWithin generalizing t n with
  | self =>
      cases t with
      | ref id =>
          simp only [admits, Bool.and_eq_true] at hAdmits
          exact ⟨id, hBelow, hAdmits.2⟩
      | _ => cases hAdmits
  | item hMem hInside ih =>
      cases t with
      | seq elem =>
          simp only [admits, List.all_eq_true] at hAdmits
          have hElem : elem.Below n := hBelow
          exact ih hElem (hAdmits _ hMem)
            (HostValue.recordsFit_seq_iff.mp hFit _ hMem)
      | _ => cases hAdmits
  | @field w own values hMem hInside ih =>
      have hOwn : (HostValue.record own values).isRecordOf own =
          true := by
        simp [HostValue.isRecordOf]
      have hType := eq_record_of_admits hAdmits hOwn
      subst hType
      rcases HostValue.recordsFit_record_iff.mp hFit with
        ⟨hFits, hValues⟩
      rcases hFits.exists_field hMem with ⟨f, hField, hInner⟩
      rcases ih (Schema.below_of_mem_fields hField) hInner
          (hValues _ hMem) with
        ⟨id, hEarlier, hRecord⟩
      exact ⟨id, Nat.lt_trans hEarlier hBelow, hRecord⟩

------------------------------------------------------------
-- References Between Objects
------------------------------------------------------------

namespace Heap

/- An object holds a record with a reference to another one. -/
def Refers
    (heap : Heap)
    (a b : Handle) : Prop :=
  (∃ id, (heap.content a).isRecordOf id = true) ∧
    HostValue.Within (.ref b) (heap.content a)

/- The place in the schema of the record type of an object. -/
def rank
    (heap : Heap)
    (h : Handle) : Nat :=
  match heap.content h with
  | .record id _ => id.index
  | _ => 0

theorem rank_of_isRecordOf
    {heap : Heap}
    {h : Handle}
    {id : RecordId}
    (hRecord : (heap.content h).isRecordOf id = true) :
    heap.rank h = id.index := by
  rcases HostValue.isRecordOf_iff.mp hRecord with ⟨values, hContent⟩
  rw [rank, hContent]

/-
  Following references comes to an end: there is no infinite
  chain of records that refer to the next one, and no record
  is reached from itself.
-/
structure IsAcyclic (heap : Heap) : Prop where
  no_chain : ∀ chain : Nat → Handle,
    ∃ n, ¬ heap.Refers (chain n) (chain (n + 1))
  no_cycle : ∀ h, ¬ Relation.TransGen heap.Refers h h

variable {s : Schema} {heap : Heap} {a b : Handle}

namespace IsSound

/- What a stored record refers to has an earlier type. -/
theorem refers_earlier
    {id : RecordId}
    (hSound : heap.IsSound s)
    (hRecord : (heap.content a).isRecordOf id = true)
    (hWithin : HostValue.Within (.ref b) (heap.content a)) :
    ∃ own, own.index < id.index ∧
      (heap.content b).isRecordOf own = true := by
  rcases HostValue.isRecordOf_iff.mp hRecord with ⟨values, hContent⟩
  have hFit := hSound a
  rw [hContent] at hFit hWithin
  rcases HostValue.recordsFit_record_iff.mp hFit with
    ⟨hFits, hValues⟩
  cases hWithin with
  | field hMem hInside =>
      rcases hFits.exists_field hMem with ⟨f, hField, hAdmits⟩
      have hBelow := Schema.below_of_mem_fields hField
      rcases HostType.refers_below hBelow
          ⟨hAdmits, hValues _ hMem⟩ hInside with
        ⟨own, hEarlier, hOwn⟩
      rw [content_freed] at hOwn
      exact ⟨own, hEarlier, hOwn⟩

/- Following a reference leads down in the schema. -/
theorem rank_lt
    (hSound : heap.IsSound s)
    (hRefers : heap.Refers a b) :
    heap.rank b < heap.rank a := by
  rcases hRefers with ⟨⟨id, hRecord⟩, hWithin⟩
  rcases hSound.refers_earlier hRecord hWithin with
    ⟨own, hEarlier, hOwn⟩
  rw [rank_of_isRecordOf hOwn, rank_of_isRecordOf hRecord]
  exact hEarlier

/- So it does after any number of them. -/
theorem rank_lt_of_transGen
    (hSound : heap.IsSound s)
    (hChain : Relation.TransGen heap.Refers a b) :
    heap.rank b < heap.rank a := by
  induction hChain with
  | single hRefers => exact hSound.rank_lt hRefers
  | tail hBefore hRefers ih =>
      exact Nat.lt_trans (hSound.rank_lt hRefers) ih

/- On a sound heap, following references comes to an end. -/
theorem isAcyclic
    (hSound : heap.IsSound s) :
    heap.IsAcyclic where
  no_chain chain := by
    rcases WellFounded.not_rel_apply_succ (r := (· < ·))
        fun n => heap.rank (chain n) with
      ⟨n, hNot⟩
    exact ⟨n, fun hRefers => hNot (hSound.rank_lt hRefers)⟩
  no_cycle h hCycle :=
    Nat.lt_irrefl _ (hSound.rank_lt_of_transGen hCycle)

end IsSound

end Heap

end Interop
