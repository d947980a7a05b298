import Interop.Proofs.Place
import Interop.Proofs.Typing.Conformance

/-
  Places in conforming values. Where a path leads to a
  record is a matter of the root's record type alone: the
  declared field types say so, level by level. Hence a place
  for a record stays one when contents are replaced, as long
  as roots keep their types, and a record may be replaced by
  any conforming one of its type at any depth.

  Main declarations:
    * `HostRecord.Fits.value`
    * `HostRecord.Fits.set`
    * `HostValue.RecordsFit.at?`
    * `HostValue.RecordsFit.same_place`
    * `HostValue.RecordsFit.replaceAt`
-/

namespace Interop

------------------------------------------------------------
-- Fields of Records That Fit
------------------------------------------------------------

/- Related lists have related elements at each position. -/
theorem forall₂_getElem?
    {α β : Type}
    {R : α → β → Prop}
    {as : List α}
    {bs : List β}
    {i : Nat}
    (hLists : List.Forall₂ R as bs) :
    (as[i]? = none ∧ bs[i]? = none) ∨
      ∃ a b, as[i]? = some a ∧ bs[i]? = some b ∧ R a b := by
  induction hLists generalizing i with
  | nil => exact .inl ⟨rfl, rfl⟩
  | cons hHead hTail ih =>
      cases i with
      | zero => exact .inr ⟨_, _, rfl, rfl, hHead⟩
      | succ i => simpa using ih

/- A related element may take the place of another one. -/
theorem forall₂_set
    {α β : Type}
    {R : α → β → Prop}
    {as : List α}
    {bs : List β}
    {i : Nat}
    {a : α}
    {b : β}
    (hLists : List.Forall₂ R as bs)
    (hGet : as[i]? = some a)
    (hRelated : R a b) :
    List.Forall₂ R as (bs.set i b) := by
  induction hLists generalizing i with
  | nil => exact .nil
  | cons hHead hTail ih =>
      cases i with
      | zero =>
          cases hGet
          exact .cons hRelated hTail
      | succ i => exact .cons hHead (ih hGet)

namespace HostRecord.Fits

variable {s : Schema} {heap : Heap} {r : HostRecord}
variable {i : Nat} {f : Field} {v : HostValue}

/- Each declared field has a conforming value. -/
theorem value
    (hFits : r.Fits s heap)
    (hField : (s.fields r.id)[i]? = some f) :
    ∃ v, r.values[i]? = some v ∧ f.type.admits heap v = true := by
  rcases forall₂_getElem? (i := i) hFits with
    ⟨hNone, hEnd⟩ | ⟨g, v, hDeclared, hValue, hAdmits⟩
  · simp [hNone] at hField
  · cases hField.symm.trans hDeclared
    exact ⟨v, hValue, hAdmits⟩

/- Each value belongs to a declared field. -/
theorem field
    (hFits : r.Fits s heap)
    (hValue : r.values[i]? = some v) :
    ∃ f, (s.fields r.id)[i]? = some f ∧
      f.type.admits heap v = true := by
  rcases forall₂_getElem? (i := i) hFits with
    ⟨hNone, hEnd⟩ | ⟨f, u, hDeclared, hOwn, hAdmits⟩
  · simp [hEnd] at hValue
  · cases hValue.symm.trans hOwn
    exact ⟨f, hDeclared, hAdmits⟩

/- A field may be given any value that conforms. -/
theorem set
    (hFits : r.Fits s heap)
    (hField : (s.fields r.id)[i]? = some f)
    (hAdmits : f.type.admits heap v = true) :
    HostRecord.Fits s heap ⟨r.id, r.values.set i v⟩ :=
  forall₂_set hFits hField hAdmits

end HostRecord.Fits

------------------------------------------------------------
-- Places
------------------------------------------------------------

namespace HostValue

/- A record has one type. -/
theorem isRecordOf_unique
    {v : HostValue}
    {id own : RecordId}
    (hRecord : v.isRecordOf id = true)
    (hOwn : v.isRecordOf own = true) :
    own = id := by
  rcases isRecordOf_iff.mp hRecord with ⟨values, rfl⟩
  exact (by simpa [isRecordOf] using hOwn : id = own).symm

/- What leads to a record is a record. -/
theorem isRecordOf_of_at?
    {path : List Nat}
    {v u : HostValue}
    {id : RecordId}
    (hAt : v.at? path = some u)
    (hRecord : u.isRecordOf id = true) :
    ∃ own, v.isRecordOf own = true := by
  cases path with
  | nil =>
      cases hAt
      exact ⟨id, hRecord⟩
  | cons i path => exact exists_isRecordOf_of_at? (by simp) hAt

/- The end of a path is a part. -/
theorem within_of_at?
    {path : List Nat}
    {v u : HostValue}
    (hAt : v.at? path = some u) :
    Within u v := by
  induction path generalizing v with
  | nil =>
      cases hAt
      exact .self
  | cons i path ih =>
      rcases isRecord_of_at?_cons hAt with
        ⟨id, values, w, rfl, hGet, hRest⟩
      exact .field (List.mem_of_getElem? hGet) (ih hRest)

namespace RecordsFit

variable {s : Schema} {heap heap' : Heap}
variable {path : List Nat} {v v' u old new : HostValue}
variable {id target : RecordId}

/- The records inside a part are those of the whole. -/
theorem at?
    (hFit : v.RecordsFit s heap)
    (hAt : v.at? path = some u) :
    u.RecordsFit s heap := by
  intro id values hWithin
  exact hFit id values (hWithin.trans (within_of_at? hAt))

/-
  In another value with a root of the same type, the path to
  a record leads to a record of the same type.
-/
theorem same_place
    (hFit : v.RecordsFit s heap)
    (hFit' : v'.RecordsFit s heap')
    (hRoot : v.isRecordOf id = true)
    (hRoot' : v'.isRecordOf id = true)
    (hAt : v.at? path = some u)
    (hTarget : u.isRecordOf target = true) :
    ∃ u', v'.at? path = some u' ∧
      u'.isRecordOf target = true := by
  induction path generalizing v v' id with
  | nil =>
      cases hAt
      rw [isRecordOf_unique hRoot hTarget]
      exact ⟨v', rfl, hRoot'⟩
  | cons i path ih =>
      rcases isRecord_of_at?_cons hAt with
        ⟨own, values, w, rfl, hGet, hRest⟩
      rcases isRecordOf_iff.mp hRoot' with ⟨values', rfl⟩
      have hOwn : own = id := by
        simpa [isRecordOf] using hRoot
      subst hOwn
      rcases recordsFit_record_iff.mp hFit with
        ⟨hSelf, hValues⟩
      rcases recordsFit_record_iff.mp hFit' with
        ⟨hSelf', hValues'⟩
      -- the declared field type carries the record type over
      rcases hSelf.field hGet with ⟨f, hField, hAdmits⟩
      rcases hSelf'.value hField with ⟨w', hGet', hAdmits'⟩
      rcases isRecordOf_of_at? hRest hTarget with ⟨inner, hInner⟩
      have hType := HostType.eq_record_of_admits hAdmits hInner
      rw [hType, HostType.admits_record] at hAdmits'
      rcases ih (hValues w (List.mem_of_getElem? hGet))
          (hValues' w' (List.mem_of_getElem? hGet'))
          hInner hAdmits' hRest with
        ⟨u', hAt', hTarget'⟩
      refine ⟨u', ?_, hTarget'⟩
      simp [HostValue.at?, hGet', hAt']

/- A field may be given any deeply conforming value. -/
theorem set
    {values : List HostValue}
    {i : Nat}
    {f : Field}
    (hFit : (HostValue.record id values).RecordsFit s heap)
    (hField : (s.fields id)[i]? = some f)
    (hNew : f.type.AdmitsDeeply s heap new) :
    (HostValue.record id (values.set i new)).RecordsFit s heap := by
  rcases recordsFit_record_iff.mp hFit with ⟨hSelf, hValues⟩
  apply recordsFit_record_iff.mpr
  refine ⟨hSelf.set hField hNew.shallow, ?_⟩
  intro w hMem
  rcases List.mem_or_eq_of_mem_set hMem with hOld | rfl
  · exact hValues w hOld
  · exact hNew.records

/-
  A record at the end of a path may be replaced by any
  conforming record of its type.
-/
theorem replaceAt
    (hFit : v.RecordsFit s heap)
    (hAt : v.at? path = some old)
    (hOld : old.isRecordOf id = true)
    (hNew : new.isRecordOf id = true)
    (hNewFit : new.RecordsFit s heap) :
    (HostValue.replaceAt path new v).RecordsFit s heap ∧
      ∀ own, (HostValue.replaceAt path new v).isRecordOf own =
        v.isRecordOf own := by
  induction path generalizing v with
  | nil =>
      cases hAt
      refine ⟨hNewFit, ?_⟩
      rcases isRecordOf_iff.mp hOld with ⟨values, rfl⟩
      rcases isRecordOf_iff.mp hNew with ⟨values', rfl⟩
      exact fun own => rfl
  | cons i path ih =>
      refine ⟨?_, isRecordOf_replaceAt (by simp) new v⟩
      rcases isRecord_of_at?_cons hAt with
        ⟨own, values, w, rfl, hGet, hRest⟩
      rcases recordsFit_record_iff.mp hFit with
        ⟨hSelf, hValues⟩
      rcases ih (hValues w (List.mem_of_getElem? hGet)) hRest with
        ⟨hInnerFit, hInnerKind⟩
      rcases hSelf.field hGet with ⟨f, hField, hAdmits⟩
      rcases isRecordOf_of_at? hRest hOld with ⟨inner, hInner⟩
      have hType := HostType.eq_record_of_admits hAdmits hInner
      have hAdmitsNew :
          f.type.admits heap (HostValue.replaceAt path new w) =
            true := by
        rw [hType, HostType.admits_record, hInnerKind]
        exact hInner
      rw [replaceAt_cons_of_getElem? hGet]
      exact hFit.set hField ⟨hAdmitsNew, hInnerFit⟩

end RecordsFit

end HostValue

end Interop
