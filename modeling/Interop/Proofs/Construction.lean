import Interop.Call
import Interop.Proofs.Member
import Interop.Proofs.Typing.Conformance

/-
  Fresh objects. The zero value of every type conforms to it,
  records inside it included, so a record can be built from
  the zero values of its fields. A constructor adds an object
  with the zero value of its type and boxes it; no other
  object changes. The fields of a fresh record read as the
  zero values of their types.

  Main declarations:
    * `HostRecord.build_eq_ok_iff`
    * `HostRecord.build_zeroed`
    * `HostType.importAs_zero`
    * `HostType.Delivers`
    * `Box.FieldOfZero`
    * `Box.field_of_zero`
    * `HostType.construct_delivers`
-/

namespace Interop

------------------------------------------------------------
-- Building Records
------------------------------------------------------------

namespace HostRecord

variable {s : Schema} {heap : Heap}

/- No value is a misfit when all conform to their fields. -/
theorem firstMisfit_eq_none_iff
    (heap : Heap)
    {fields : List Field}
    {values : List HostValue}
    (hLength : values.length = fields.length) :
    firstMisfit heap fields values = none ↔
      List.Forall₂
        (fun (f : Field) v => f.type.admits heap v = true)
        fields values := by
  induction fields generalizing values with
  | nil =>
      rw [List.length_nil, List.length_eq_zero_iff] at hLength
      subst hLength
      exact iff_of_true rfl .nil
  | cons f fields ih =>
      cases values with
      | nil => simp at hLength
      | cons v values =>
          have hRest : values.length = fields.length := by
            simpa using hLength
          rw [firstMisfit, List.forall₂_cons, ← ih hRest]
          by_cases hAdmits : f.type.admits heap v = true
          · simp [hAdmits]
          · simp [hAdmits]

/- A record is built from values that fit its fields. -/
theorem build_eq_ok_iff
    {id : RecordId}
    {values : List HostValue}
    {r : HostRecord} :
    build s heap id values = .ok r ↔
      r = ⟨id, values⟩ ∧ r.Fits s heap := by
  by_cases hLength : values.length = (s.fields id).length
  · have hMisfit := firstMisfit_eq_none_iff heap hLength
    simp only [build, hLength, ne_eq, not_true, if_false]
    cases hFound : firstMisfit heap (s.fields id) values with
    | none =>
        simp only [Except.ok.injEq]
        constructor
        · rintro rfl
          exact ⟨rfl, hMisfit.mp hFound⟩
        · exact fun hBoth => hBoth.1.symm
    | some misfit =>
        refine iff_of_false (by simp) ?_
        rintro ⟨rfl, hFits⟩
        rw [hMisfit.mpr hFits] at hFound
        cases hFound
  · simp only [build, ne_eq, hLength, not_false_eq_true, if_true]
    refine iff_of_false (by simp) ?_
    rintro ⟨rfl, hFits⟩
    exact hLength hFits.length_eq.symm

/- A record can be built from the zero values of its fields. -/
theorem build_zeroed
    (s : Schema)
    (heap : Heap)
    (id : RecordId) :
    build s heap id (zeroed s id).values = .ok (zeroed s id) := by
  have hZero : (HostType.zero s (.record id)).RecordsFit s heap :=
    (HostType.admitsDeeply_zero (.record id)).records
  rw [HostType.zero_record] at hZero
  exact build_eq_ok_iff.mpr ⟨rfl, hZero id _ .self⟩

end HostRecord

------------------------------------------------------------
-- Importing Zero Values
------------------------------------------------------------

namespace HostType

variable {s : Schema}

/-
  The zero value of a type that converts is imported without
  looking at an object, unless it is a record.
-/
theorem importAs_zero
    {t : HostType}
    (hSupported : t.isUnsupported = false)
    (hNoRecord : ∀ id, t ≠ .record id)
    (heap : Heap) :
    ∃ v, t.importAs s (t.zero s) heap = .ok (v, heap) := by
  cases t with
  | int kind =>
      simp only [zero, zeroBelow]
      cases kind.isUnsigned <;> exact ⟨_, rfl⟩
  | record id => exact absurd rfl (hNoRecord id)
  | map key value | chan elem | interface name | error =>
      cases hSupported
  | _ =>
      simp only [zero, zeroBelow]
      exact ⟨_, rfl⟩

/- At the other types there is no import. -/
theorem importAs_zero_unsupported
    {t : HostType}
    (hUnsupported : t.isUnsupported = true)
    (heap : Heap) :
    t.importAs s (t.zero s) heap =
      .error (.unsupported (t.text s)) := by
  cases t with
  | map key value | chan elem | interface name | error => rfl
  | _ => cases hUnsupported

end HostType

------------------------------------------------------------
-- Fields of Fresh Records
------------------------------------------------------------

/-
  What a field of a fresh record is: a box that addresses it
  in place if it holds a record by value, otherwise its zero
  value as it is imported. At some types nothing is.
-/
inductive Box.FieldOfZero
    (s : Schema)
    (heap : Heap)
    (b : Box)
    (index : Nat)
    (t : HostType) : Except Error (Option Value) → Prop where
| projected
    {inner : RecordId}
    (hInner : t = .record inner) :
    FieldOfZero s heap b index t
      (.ok (some (.boxed (b.project index t))))
| imported
    {v : Value}
    (hNoRecord : ∀ inner, t ≠ .record inner)
    (hImport : t.importAs s (t.zero s) heap = .ok (v, heap)) :
    FieldOfZero s heap b index t (.ok (some v))
| unsupported
    (hUnsupported : t.isUnsupported = true) :
    FieldOfZero s heap b index t
      (.error (.unsupported (t.text s)))

namespace Box

/- A box of a zero value has fields that are zero values. -/
theorem field_of_zero
    {reg : Registry}
    {b : Box}
    {name : String}
    {id : RecordId}
    {index : Nat}
    {f : Field}
    {w : World}
    (hField : b.HasField reg name id index f)
    (hRead :
      b.read reg.schema w.heap =
        .ok (HostType.zero reg.schema (.record id))) :
    ∃ outcome,
      b.field reg name w = (outcome, w) ∧
      FieldOfZero reg.schema w.heap b index f.type outcome := by
  by_cases hInner : ∃ inner, f.type = .record inner
  · rcases hInner with ⟨inner, hInner⟩
    exact ⟨_, hField.field_of_record hInner w, .projected hInner⟩
  · have hNoRecord : ∀ inner, f.type ≠ .record inner :=
      not_exists.mp hInner
    have hSlot :
        b.readField reg.schema w.heap index =
          .ok (f.type.zero reg.schema) := by
      rw [HostType.zero_record] at hRead
      apply readField_of_read hRead
      rw [List.getElem?_map, hField.declared, Option.map_some]
    rw [hField.field_of_read hNoRecord hSlot, Action.map_apply]
    cases hKind : f.type.isUnsupported with
    | false =>
        rcases HostType.importAs_zero (s := reg.schema) hKind
            hNoRecord w.heap with ⟨v, hImport⟩
        rw [Action.onHeap_of_ok hImport]
        exact ⟨_, rfl, .imported hNoRecord hImport⟩
    | true =>
        have hFails :=
          HostType.importAs_zero_unsupported (s := reg.schema)
            hKind w.heap
        rw [Action.onHeap_of_error hFails]
        exact ⟨_, rfl, .unsupported hKind⟩

end Box

------------------------------------------------------------
-- Constructors
------------------------------------------------------------

/-
  A constructor has made a box between two worlds. Its handle
  is new, and the other objects are as they were. The box is
  tagged with the type that was asked for, or with the record
  type that this refers to, and holds the zero value of its
  tag, which conforms at every depth.
-/
structure HostType.Delivers
    (s : Schema)
    (t : HostType)
    (w : World)
    (b : Box)
    (w' : World) : Prop where
  absent : w.heap.size ≤ b.handle.index
  present : b.handle.index < w'.heap.size
  others : w.heap.cells <+: w'.heap.cells
  whole : b.isProjection = false
  tag : (∀ id, t ≠ .ref id) → b.type = t
  tag_ref : ∀ id, t = .ref id → b.type = .record id
  content : b.read s w'.heap = .ok (b.type.zero s)
  conforms : b.type.AdmitsDeeply s w'.heap (b.type.zero s)

namespace HostType

variable {s : Schema}

/- A constructor adds one object, with a zero value. -/
theorem construct_of_isConstructible
    {t : HostType}
    (hConstructible : t.isConstructible = true)
    (w : World) :
    ∃ w',
      t.construct s w =
        (.ok (.whole w.heap.next t.allocated), w') ∧
      w'.heap = (w.heap.alloc (t.allocated.zero s)).2 := by
  simp only [construct, hConstructible, if_true,
    Action.bind_apply]
  exact ⟨_, rfl, rfl⟩

/- What it returns is the box of that object. -/
theorem delivers_of_alloc
    (t : HostType)
    {w w' : World}
    (hHeap : w'.heap = (w.heap.alloc (t.allocated.zero s)).2) :
    t.Delivers s w (.whole w.heap.next t.allocated) w' where
  absent := Nat.le_refl _
  present := by
    rw [hHeap, Heap.size_alloc]
    exact Nat.lt_succ_self w.heap.size
  others := by
    rw [hHeap]
    exact Heap.cells_prefix_alloc _ _
  whole := rfl
  tag hNoRef := by
    cases t with
    | ref id => exact absurd rfl (hNoRef id)
    | _ => rfl
  tag_ref id hRef := by
    rw [hRef]
    rfl
  content := by
    apply Box.read_eq_ok_iff.mpr
    simp [hHeap, Box.whole, HostValue.at?, Heap.isReadable,
      Heap.loan, Heap.content, Heap.cell_alloc_next, Cell.free]
  conforms := admitsDeeply_zero _

/-
  Zero values conform, and constructors deliver them. The
  zero value of each type conforms to it at every depth, in
  every heap, and each record type takes those of its fields.

  A constructor of a type that can be allocated succeeds with
  a new box of a zero value. If this is a record, each field
  that is the first of its name, where the name has its
  capital form and is not that of a method, can be had by its
  name, unless its type is one that does not convert.
-/
theorem construct_delivers
    (reg : Registry) :
    (∀ (t : HostType) (heap : Heap),
      t.AdmitsDeeply reg.schema heap (t.zero reg.schema)) ∧
    (∀ (id : RecordId) (heap : Heap),
      HostRecord.build reg.schema heap id
          (HostRecord.zeroed reg.schema id).values =
        .ok (HostRecord.zeroed reg.schema id)) ∧
    ∀ (t : HostType) (w : World), t.isConstructible = true →
      ∃ b w',
        t.construct reg.schema w = (.ok b, w') ∧
        t.Delivers reg.schema w b w' ∧
        ∀ (id : RecordId) (index : Nat) (f : Field),
          b.type = .record id →
          (reg.schema.fields id)[index]? = some f →
          reg.schema.fieldIndex? id f.name = some index →
          Text.capitalize f.name = f.name →
          reg.method? id f.name = none →
            ∃ outcome,
              b.field reg f.name w' = (outcome, w') ∧
              b.FieldOfZero reg.schema w'.heap index f.type
                outcome := by
  refine ⟨fun t heap => admitsDeeply_zero t,
    fun id heap => HostRecord.build_zeroed _ heap id, ?_⟩
  intro t w hConstructible
  rcases construct_of_isConstructible (s := reg.schema)
      hConstructible w with ⟨w', hRun, hHeap⟩
  have hMade := delivers_of_alloc t hHeap
  refine ⟨_, w', hRun, hMade, ?_⟩
  intro id index f hType hDeclared hFirst hName hMethod
  have hField :
      (Box.whole w.heap.next t.allocated).HasField reg f.name id
        index f := {
    tag := by rw [Box.record?, hType]
    method := by rw [hName, hMethod]
    first := by rw [hName, hFirst]
    declared := hDeclared }
  apply Box.field_of_zero hField
  rw [← hType]
  exact hMade.content

/- A new segment has its start in place. -/
theorem construct_delivers_plane :
    (HostType.ref ⟨1⟩).isConstructible = true ∧
    ∃ b w',
      (HostType.ref ⟨1⟩).construct .plane .withSegment =
        (.ok b, w') ∧
      (HostType.ref ⟨1⟩).Delivers .plane .withSegment b w' ∧
      ∃ outcome,
        b.field (.ofSchema .plane) "Start" w' = (outcome, w') ∧
        b.FieldOfZero .plane w'.heap 0 (.record ⟨0⟩) outcome := by
  rcases construct_delivers (.ofSchema .plane) with
    ⟨hZero, hBuild, hConstruct⟩
  rcases hConstruct (.ref ⟨1⟩) .withSegment rfl with
    ⟨b, w', hRun, hMade, hFields⟩
  exact ⟨rfl, b, w', hRun, hMade,
    hFields ⟨1⟩ 0 ⟨"Start", .record ⟨0⟩⟩ (hMade.tag_ref _ rfl)
      rfl (by decide) (by decide) rfl⟩

end HostType

end Interop
