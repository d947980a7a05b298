import Interop.Proofs.Convert.Export
import Interop.Proofs.Typing.Places

/-
  What conversions make conforms to the type that it is for,
  whether a host form was fitted or a value was stored by the
  rule of its type. The records inside it are those of the
  host form, or those of the objects that were read; whether
  they fit may be asked of another heap.

  Main declarations:
    * `HostType.admits_storeInt`
    * `HostType.admits_fit`
    * `HostType.recordsFit_fit`
    * `HostType.admits_of_stores`
    * `HostType.recordsFit_of_stores`
-/

namespace Interop

namespace HostType

variable {s : Schema} {heap heap' : Heap} {t : HostType}
variable {form h : HostValue}

------------------------------------------------------------
-- Integers
------------------------------------------------------------

/- An integer in the storage of a kind conforms to it. -/
theorem admits_storeInt
    {kind : IntKind}
    {i : Int}
    (hStore : storeInt kind i = some h) :
    (HostType.int kind).admits heap h = true := by
  rcases storeInt_eq_some_iff.mp hStore with ⟨hRange, rfl⟩
  have hBounds := (kind.contains_iff i).mp hRange
  cases hSign : kind.isUnsigned with
  | true =>
      have hUpper : kind.highest < 2 ^ 64 := by
        cases kind <;> simp [IntKind.highest]
      rw [IntKind.lowest_eq_zero hSign] at hBounds
      have hBack : ((UInt64.ofNat i.toNat).toNat : Int) = i := by
        rw [UInt64.toNat_ofNat_of_lt']
        · omega
        · simp only [UInt64.size]
          omega
      simp only [admits, hSign, hBack, hRange, if_true,
        Bool.and_self]
  | false =>
      have hWidth :
          -2 ^ 63 ≤ kind.lowest ∧ kind.highest < 2 ^ 63 := by
        cases kind with
        | u8 | u16 | u32 | u64 => cases hSign
        | _ => simp [IntKind.lowest, IntKind.highest]
      have hBack : (Int64.ofInt i).toInt = i := by
        apply Int64.toInt_ofInt_of_le <;> omega
      simp [admits, hSign, hBack, hRange]

/- No record is in it. -/
theorem not_within_of_storeInt
    {kind : IntKind}
    {i : Int}
    {id : RecordId}
    {values : List HostValue}
    (hStore : storeInt kind i = some h) :
    ¬ HostValue.Within (.record id values) h := by
  rcases storeInt_eq_some_iff.mp hStore with ⟨-, rfl⟩
  intro hWithin
  split at hWithin <;> cases hWithin

------------------------------------------------------------
-- Host Forms
------------------------------------------------------------

/- What passes a check of conformance is left as it is. -/
theorem eq_of_checked
    (hChecked :
      (if t.admits heap form then some form else none) = some h) :
    h = form ∧ t.admits heap form = true := by
  split at hChecked
  · rename_i hAdmits
    cases hChecked
    exact ⟨rfl, hAdmits⟩
  · cases hChecked

/- So it conforms. -/
theorem admits_of_checked
    (hChecked :
      (if t.admits heap form then some form else none) = some h) :
    t.admits heap h = true := by
  rcases eq_of_checked hChecked with ⟨rfl, hAdmits⟩
  exact hAdmits

/- A host form that was fitted conforms. -/
theorem admits_fit
    (hFit : t.fit heap form = some h) :
    t.admits heap h = true := by
  induction t generalizing form h with
  | int kind =>
      cases form with
      | int i => exact admits_storeInt hFit
      | uint n => exact admits_storeInt hFit
      | _ => exact admits_of_checked hFit
  | float kind =>
      cases form with
      | float x =>
          cases hFit
          rfl
      | _ => exact admits_of_checked hFit
  | complex kind =>
      cases form with
      | complex re im =>
          cases hFit
          rfl
      | _ => exact admits_of_checked hFit
  | seq elem ih =>
      rcases fit_seq_eq_some hFit with
        ⟨items, fitted, rfl, rfl, hItems⟩
      simp only [admits, List.all_eq_true]
      intro k hMem
      rcases exists_of_mem_forall₂ hItems hMem with
        ⟨item, hIn, hItem⟩
      exact ih hItem
  | _ => cases form <;> exact admits_of_checked hFit

/- Its records are those of the form that was offered. -/
theorem within_of_fit
    {id : RecordId}
    {values : List HostValue}
    (hFit : t.fit heap form = some h)
    (hWithin : HostValue.Within (.record id values) h) :
    HostValue.Within (.record id values) form := by
  induction t generalizing form h with
  | int kind =>
      cases form with
      | int i => exact absurd hWithin (not_within_of_storeInt hFit)
      | uint n => exact absurd hWithin (not_within_of_storeInt hFit)
      | _ => exact (eq_of_checked hFit).1 ▸ hWithin
  | float kind =>
      cases form with
      | float x =>
          cases hFit
          cases hWithin
      | _ => exact (eq_of_checked hFit).1 ▸ hWithin
  | complex kind =>
      cases form with
      | complex re im =>
          cases hFit
          cases hWithin
      | _ => exact (eq_of_checked hFit).1 ▸ hWithin
  | seq elem ih =>
      rcases fit_seq_eq_some hFit with
        ⟨items, fitted, rfl, rfl, hItems⟩
      cases hWithin with
      | item hMem hInside =>
          rcases exists_of_mem_forall₂ hItems hMem with
            ⟨item, hIn, hItem⟩
          exact .item hIn (ih hItem hInside)
  | _ => cases form <;> exact (eq_of_checked hFit).1 ▸ hWithin

/- So they go on to fit. -/
theorem recordsFit_fit
    (hRecords : form.RecordsFit s heap')
    (hFit : t.fit heap form = some h) :
    h.RecordsFit s heap' := by
  intro id values hWithin
  exact hRecords id values (within_of_fit hFit hWithin)

------------------------------------------------------------
-- Values That Are Stored
------------------------------------------------------------

/- A value is stored in a form that conforms. -/
theorem admits_of_stores
    {v : Value}
    (hStores : t.Stores s heap v h) :
    t.admits heap h = true := by
  cases hStores with
  | int hStore => exact admits_storeInt hStore
  | record hRead hRecord =>
      rw [admits_record]
      exact hRecord
  | ref hPath hRead hRecord =>
      rcases Box.read_eq_ok_iff.mp hRead with ⟨hReadable, hAt⟩
      rw [hPath] at hAt
      cases hAt
      simp only [admits, hReadable, hRecord, Bool.and_self]
  | _ => rfl

/- Its records were read from objects. -/
theorem exists_content_of_stores
    {v : Value}
    {id : RecordId}
    {values : List HostValue}
    (hStores : t.Stores s heap v h)
    (hWithin : HostValue.Within (.record id values) h) :
    ∃ k, HostValue.Within (.record id values) (heap.content k) := by
  cases hStores with
  | int hStore => exact absurd hWithin (not_within_of_storeInt hStore)
  | record hRead hRecord =>
      have hPart :=
        HostValue.within_of_at? (Box.read_eq_ok_iff.mp hRead).2
      exact ⟨_, hWithin.trans hPart⟩
  | _ => cases hWithin

/- So they fit when the objects do. -/
theorem recordsFit_of_stores
    {v : Value}
    (hObjects : ∀ k, (heap.content k).RecordsFit s heap')
    (hStores : t.Stores s heap v h) :
    h.RecordsFit s heap' := by
  intro id values hWithin
  rcases exists_content_of_stores hStores hWithin with ⟨k, hInside⟩
  exact hObjects k id values hInside

end HostType

end Interop
