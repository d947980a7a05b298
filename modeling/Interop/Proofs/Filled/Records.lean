import Interop.Proofs.Construction
import Interop.Proofs.Typing.Places

/-
  Records that are filled: each holds as many values as its
  type declares fields, whatever these values are. A value is
  filled when all records in it are, and a host when all the
  values that it stores are.

  Unlike a record that fits, a filled one stays filled when
  any other value is put into one of its fields. So all that
  can be done to a filled host with filled values leaves it
  filled, whether the values are of the declared types or not.

  Main declarations:
    * `HostValue.IsFilled`
    * `HostValue.IsFilled.replaceAt`
    * `HostType.isFilled_zero`
    * `HostRecord.IsFilled.get?_eq`
    * `Heap.IsFilled`
    * `Heap.IsFilled.putAt`
    * `Host.IsFilled`
-/

namespace Interop

------------------------------------------------------------
-- Values
------------------------------------------------------------

/- A record has as many values as its type declares fields. -/
def HostRecord.IsFilled
    (s : Schema)
    (r : HostRecord) : Prop :=
  r.values.length = (s.fields r.id).length

namespace HostValue

/- Every record that occurs in a value is filled. -/
def IsFilled
    (s : Schema)
    (v : HostValue) : Prop :=
  ∀ r : HostRecord, Within r.toValue v → r.IsFilled s

variable {s : Schema} {u v new : HostValue} {path : List Nat}

/- No record occurs in a value without parts. -/
theorem isFilled_of_no_parts
    (hNoSeq : ∀ items, v ≠ .seq items)
    (hNoRecord : ∀ id values, v ≠ .record id values) :
    v.IsFilled s := by
  intro r hWithin
  have hSame := eq_of_within hNoSeq hNoRecord hWithin
  exact absurd hSame.symm (hNoRecord r.id r.values)

/- The records of a sequence are those of its elements. -/
theorem isFilled_seq_iff
    {items : List HostValue} :
    (HostValue.seq items).IsFilled s ↔
      ∀ v ∈ items, v.IsFilled s := by
  constructor
  · intro hFilled v hMem r hWithin
    exact hFilled r (.item hMem hWithin)
  · intro hItems r hWithin
    cases hWithin with
    | item hMem hInside => exact hItems _ hMem r hInside

/- A record adds itself to the records of its fields. -/
theorem isFilled_record_iff
    {id : RecordId}
    {values : List HostValue} :
    (HostValue.record id values).IsFilled s ↔
      values.length = (s.fields id).length ∧
        ∀ v ∈ values, v.IsFilled s := by
  constructor
  · intro hFilled
    refine ⟨hFilled ⟨id, values⟩ .self, ?_⟩
    intro v hMem r hWithin
    exact hFilled r (.field hMem hWithin)
  · rintro ⟨hSelf, hValues⟩ r hWithin
    cases hWithin with
    | self => exact hSelf
    | field hMem hInside => exact hValues _ hMem r hInside

/- Records that fit are filled. -/
theorem RecordsFit.isFilled
    {heap : Heap}
    (hFit : v.RecordsFit s heap) :
    v.IsFilled s := by
  intro r hWithin
  exact (hFit r.id r.values hWithin).length_eq.symm

/- The end of a path is a part. -/
theorem IsFilled.at?
    (hFilled : v.IsFilled s)
    (hAt : v.at? path = some u) :
    u.IsFilled s := by
  intro r hWithin
  exact hFilled r (hWithin.trans (within_of_at? hAt))

/- A record keeps its length when a part of it is replaced. -/
theorem IsFilled.replaceAt
    (hFilled : v.IsFilled s)
    (hNew : new.IsFilled s) :
    (HostValue.replaceAt path new v).IsFilled s := by
  induction path generalizing v with
  | nil => exact hNew
  | cons i path ih =>
      cases v with
      | record id values =>
          rcases isFilled_record_iff.mp hFilled with
            ⟨hLength, hValues⟩
          apply isFilled_record_iff.mpr
          refine ⟨by rw [List.length_modify, hLength], ?_⟩
          intro w hMem
          rcases List.mem_iff_getElem?.mp hMem with ⟨j, hGet⟩
          rw [List.getElem?_modify] at hGet
          rcases Option.map_eq_some_iff.mp hGet with
            ⟨old, hOld, rfl⟩
          have hPart := hValues old (List.mem_of_getElem? hOld)
          split
          · exact ih hPart
          · exact hPart
      | _ => exact hFilled

end HostValue

/- The zero values of all types are filled. -/
theorem HostType.isFilled_zero
    (s : Schema)
    (t : HostType) :
    (t.zero s).IsFilled s :=
  have hDeep : t.AdmitsDeeply s Heap.empty (t.zero s) :=
    admitsDeeply_zero t
  hDeep.records.isFilled

------------------------------------------------------------
-- Records
------------------------------------------------------------

/- A name stands for the position of a field that has it. -/
theorem Schema.exists_field_of_fieldIndex?
    {s : Schema}
    {id : RecordId}
    {name : String}
    {index : Nat}
    (hIndex : s.fieldIndex? id name = some index) :
    ∃ f, (s.fields id)[index]? = some f ∧ f.name = name := by
  rcases List.findIdx?_eq_some_iff_getElem.mp hIndex with
    ⟨hIn, hName, -⟩
  exact ⟨_, List.getElem?_eq_getElem hIn, beq_iff_eq.mp hName⟩

namespace HostRecord

variable {s : Schema} {r r' : HostRecord} {index : Nat}

/- A field that is declared is one that can be looked up. -/
theorem IsFilled.get?_eq
    {name : String}
    (hFilled : r.IsFilled s)
    (hIndex : s.fieldIndex? r.id name = some index) :
    ∃ v, r.values[index]? = some v ∧ r.get? s name = some v := by
  rcases Schema.exists_field_of_fieldIndex? hIndex with
    ⟨f, hDeclared, -⟩
  have hIn : index < r.values.length := by
    rw [hFilled]
    exact (List.getElem?_eq_some_iff.mp hDeclared).1
  have hGet := List.getElem?_eq_getElem hIn
  refine ⟨r.values[index], hGet, ?_⟩
  rw [get?, hIndex, Option.bind_some, hGet]

/- A record that is built has been counted. -/
theorem isFilled_of_build
    {heap : Heap}
    {id : RecordId}
    {values : List HostValue}
    (hBuild : build s heap id values = .ok r)
    (hValues : ∀ v ∈ values, v.IsFilled s) :
    r.toValue.IsFilled s := by
  rcases build_eq_ok_iff.mp hBuild with ⟨rfl, hFits⟩
  exact HostValue.isFilled_record_iff.mpr
    ⟨hFits.length_eq.symm, hValues⟩

/- The zero value of each field is counted. -/
theorem isFilled_zeroed
    (s : Schema)
    (id : RecordId) :
    (zeroed s id).toValue.IsFilled s := by
  have hSame :
      (zeroed s id).toValue = HostType.zero s (.record id) :=
    (HostType.zero_record s id).symm
  rw [hSame]
  exact HostType.isFilled_zero s (.record id)

/- Any value may be put at any position that there is. -/
theorem isFilled_of_put?
    {v : HostValue}
    (hFilled : r.toValue.IsFilled s)
    (hValue : v.IsFilled s)
    (hPut : r.put? index v = some r') :
    r'.toValue.IsFilled s := by
  rcases HostValue.isFilled_record_iff.mp hFilled with
    ⟨hLength, hValues⟩
  unfold put? at hPut
  split at hPut
  · cases hPut
    apply HostValue.isFilled_record_iff.mpr
    refine ⟨by rw [List.length_set, hLength], ?_⟩
    intro u hMem
    rcases List.mem_or_eq_of_mem_set hMem with hOld | rfl
    · exact hValues u hOld
    · exact hValue
  · cases hPut

end HostRecord

------------------------------------------------------------
-- Heaps
------------------------------------------------------------

/- All objects hold what is filled. -/
def Heap.IsFilled
    (s : Schema)
    (heap : Heap) : Prop :=
  ∀ c ∈ heap.cells, c.content.IsFilled s

namespace Heap

variable {s : Schema} {heap : Heap} {v : HostValue}

/- There are no records without objects. -/
theorem isFilled_empty
    (s : Schema) :
    Heap.empty.IsFilled s := by
  simp [IsFilled, empty]

namespace IsFilled

/- What is behind a handle is filled, if it is only nil. -/
theorem content
    (hHeap : heap.IsFilled s)
    (h : Handle) :
    (heap.content h).IsFilled s := by
  unfold Heap.content cell
  cases hGet : heap.cells[h.index]? with
  | none =>
      exact HostValue.isFilled_of_no_parts (by simp [Cell.free])
        (by simp [Cell.free])
  | some c => exact hHeap c (List.mem_of_getElem? hGet)

/- An object with a filled value may be added. -/
theorem alloc
    (hHeap : heap.IsFilled s)
    (hValue : v.IsFilled s) :
    (heap.alloc v).2.IsFilled s := by
  intro c hMem
  rcases List.mem_append.mp hMem with hOld | hNew
  · exact hHeap c hOld
  · rw [List.mem_singleton] at hNew
    rw [hNew]
    exact hValue

/- An object may be replaced by one with a filled value. -/
theorem setCell
    {c : Cell}
    (hHeap : heap.IsFilled s)
    (hCell : c.content.IsFilled s)
    (h : Handle) :
    (heap.setCell h c).IsFilled s := by
  intro d hMem
  rcases List.mem_or_eq_of_mem_set hMem with hOld | rfl
  · exact hHeap d hOld
  · exact hCell

/- To whom an object is lent does not matter. -/
theorem setLoan
    (hHeap : heap.IsFilled s)
    (h : Handle)
    (l : Loan) :
    (heap.setLoan h l).IsFilled s :=
  have hCell : (Cell.mk (heap.content h) l).content.IsFilled s :=
    hHeap.content h
  hHeap.setCell hCell h

/- A part of an object may be replaced by a filled value. -/
theorem putAt
    (hHeap : heap.IsFilled s)
    (hValue : v.IsFilled s)
    (h : Handle)
    (path : List Nat) :
    (heap.putAt h path v).IsFilled s :=
  hHeap.setCell ((hHeap.content h).replaceAt hValue) h

end IsFilled

end Heap

------------------------------------------------------------
-- Hosts
------------------------------------------------------------

/- All that a host stores is filled. -/
structure Host.IsFilled
    (s : Schema)
    (host : Host) : Prop where
  heap : host.heap.IsFilled s
  globals : ∀ entry ∈ host.globals, entry.2.IsFilled s

namespace Host.IsFilled

variable {s : Schema} {host : Host} {v : HostValue}

/- A host that has run nothing stores nothing. -/
theorem initial
    (s : Schema) :
    Host.initial.IsFilled s where
  heap := Heap.isFilled_empty s
  globals := by simp [Host.initial]

/- The objects may be exchanged for filled ones. -/
theorem withHeap
    {heap : Heap}
    (hHost : host.IsFilled s)
    (hHeap : heap.IsFilled s) :
    ({ host with heap } : Host).IsFilled s :=
  ⟨hHeap, hHost.globals⟩

/- An object with a filled value may be added. -/
theorem alloc
    (hHost : host.IsFilled s)
    (hValue : v.IsFilled s) :
    (host.alloc v).2.IsFilled s :=
  hHost.withHeap (hHost.heap.alloc hValue)

/- A global variable holds what was assigned to it. -/
theorem global?
    {name : String}
    (hHost : host.IsFilled s)
    (hGlobal : host.global? name = some v) :
    v.IsFilled s := by
  rcases List.lookup_eq_some_iff.mp hGlobal with
    ⟨before, after, hSplit, -⟩
  exact hHost.globals (name, v) (by simp [hSplit])

/- Fewer variables hold fewer values. -/
theorem unsetGlobal
    (hHost : host.IsFilled s)
    (name : String) :
    (host.unsetGlobal name).IsFilled s := by
  refine ⟨hHost.heap, ?_⟩
  intro entry hMem
  exact hHost.globals entry (List.mem_of_mem_filter hMem)

/- Any filled value may be assigned. -/
theorem setGlobal
    (hHost : host.IsFilled s)
    (hValue : v.IsFilled s)
    (name : String) :
    (host.setGlobal name v).IsFilled s := by
  refine ⟨hHost.heap, ?_⟩
  intro entry hMem
  rcases List.mem_cons.mp hMem with rfl | hOld
  · exact hValue
  · exact (hHost.unsetGlobal name).globals entry hOld

end Host.IsFilled

end Interop
