import Interop.Proofs.Aliasing
import Interop.Proofs.Convert.Import

/-
  Fields by name. Where a name stands for a field, getting it
  reads the slot of the field, and setting it writes there;
  the name itself no longer matters.

  Main declarations:
    * `Box.readField_eq_ok_iff`
    * `Box.putField_eq_ok_iff`
    * `Box.HasField`
    * `Box.HasField.field_eq`
    * `Box.HasField.field_of_record`
    * `Box.HasField.field_of_read`
    * `Box.HasField.set_eq_ok_iff`
-/

namespace Interop

namespace Box

------------------------------------------------------------
-- Slots of Fields
------------------------------------------------------------

section

variable {s : Schema} {heap : Heap} {b : Box}
variable {index : Nat} {t : HostType}

/- A field is what stands one step below the box. -/
theorem readField_eq_ok_iff
    {v : HostValue} :
    b.readField s heap index = .ok v ↔
      heap.isReadable b.handle = true ∧
        (heap.content b.handle).at? (b.path ++ [index]) =
          some v := by
  constructor
  · intro hField
    unfold readField at hField
    split at hField
    · rename_i id values hRead
      split at hField
      · rename_i u hGet
        cases hField
        rcases read_eq_ok_iff.mp hRead with ⟨hReadable, hPath⟩
        refine ⟨hReadable, ?_⟩
        rw [HostValue.at?_append_of_at? hPath]
        simp [HostValue.at?, hGet]
      · cases hField
    · cases hField
    · cases hField
  · rintro ⟨hReadable, hAt⟩
    rw [HostValue.at?_append, Option.bind_eq_some_iff] at hAt
    rcases hAt with ⟨u, hPath, hSlot⟩
    rcases HostValue.isRecord_of_at?_cons hSlot with
      ⟨id, values, w, rfl, hGet, hSame⟩
    cases hSame
    exact readField_of_read
      (read_eq_ok_iff.mpr ⟨hReadable, hPath⟩) hGet

/- The box of a field reads the same. -/
theorem read_project_eq_ok_iff
    {v : HostValue} :
    (b.project index t).read s heap = .ok v ↔
      b.readField s heap index = .ok v := by
  rw [readField_eq_ok_iff]
  exact read_eq_ok_iff

/- Fields are read from one object and its loan only. -/
theorem readField_congr
    {heap' : Heap}
    (hCell : heap'.cell b.handle = heap.cell b.handle) :
    b.readField s heap' index = b.readField s heap index := by
  simp only [readField, read_congr hCell]

/-
  A field can be put where one can be read and nobody has the
  object. This fills the slot of the field.
-/
theorem putField_eq_ok_iff
    {new : HostValue}
    {heap' : Heap} :
    b.putField s heap index new = .ok heap' ↔
      heap.isWritable b.handle = true ∧
        (∃ old, b.readField s heap index = .ok old) ∧
        heap' = heap.putAt b.handle (b.path ++ [index]) new := by
  constructor
  · intro hPut
    rcases putField_eq_ok hPut with
      ⟨id, values, hWritable, hAt, hIndex, hHeap⟩
    have hRead : b.read s heap = .ok (.record id values) :=
      read_eq_ok_iff.mpr
        ⟨Heap.isReadable_of_isWritable hWritable, hAt⟩
    exact ⟨hWritable, ⟨values[index], readField_of_read hRead
      (List.getElem?_eq_getElem hIndex)⟩, hHeap⟩
  · rintro ⟨hWritable, ⟨old, hField⟩, rfl⟩
    rcases readField_eq_ok_iff.mp hField with ⟨hReadable, hSlot⟩
    rw [HostValue.at?_append, Option.bind_eq_some_iff] at hSlot
    rcases hSlot with ⟨u, hAt, hStep⟩
    rcases HostValue.isRecord_of_at?_cons hStep with
      ⟨id, values, w, rfl, hGet, hSame⟩
    have hIndex : index < values.length :=
      (List.getElem?_eq_some_iff.mp hGet).1
    rw [Heap.putAt_field hAt]
    apply update_of_at? hWritable hAt
    simp [hIndex]

/- A field that was put is read again. -/
theorem readField_of_putField
    {new : HostValue}
    {heap' : Heap}
    (hPut : b.putField s heap index new = .ok heap') :
    b.readField s heap' index = .ok new := by
  rcases putField_eq_ok_iff.mp hPut with
    ⟨hWritable, ⟨old, hOld⟩, rfl⟩
  rcases readField_eq_ok_iff.mp hOld with ⟨hReadable, hAt⟩
  have hIn : b.handle.index < heap.size :=
    Heap.lt_size_of_at? hAt (by simp)
  apply readField_eq_ok_iff.mpr
  refine ⟨by simpa using hReadable, ?_⟩
  rw [Heap.content_putAt_self hIn]
  exact HostValue.at?_replaceAt hAt

end

/-
  A name stands for a field of a boxed record: in its capital
  form, it is the name of no method, and this is the first
  field with that name.
-/
structure HasField
    (reg : Registry)
    (b : Box)
    (name : String)
    (id : RecordId)
    (index : Nat)
    (f : Field) : Prop where
  tag : b.record? = some id
  method : reg.method? id (Text.capitalize name) = none
  first :
    reg.schema.fieldIndex? id (Text.capitalize name) = some index
  declared : (reg.schema.fields id)[index]? = some f

namespace HasField

variable {reg : Registry} {b : Box} {name : String}
variable {id : RecordId} {index : Nat} {f : Field}

------------------------------------------------------------
-- Getting
------------------------------------------------------------

/- The member with the name is the field. -/
theorem field_eq
    (hField : b.HasField reg name id index f) :
    b.field reg name =
      some <$> b.fieldAt reg.schema index f.type := by
  simp only [field, hField.tag, hField.method, hField.first,
    hField.declared]

/- A record held by value is addressed in place. -/
theorem field_of_record
    {inner : RecordId}
    (hField : b.HasField reg name id index f)
    (hInner : f.type = .record inner)
    (w : World) :
    b.field reg name w =
      (.ok (some (.boxed (b.project index f.type))), w) := by
  rw [hField.field_eq, hInner]
  rfl

/- Anything else is imported from its slot. -/
theorem field_of_read
    {content : HostValue}
    {w : World}
    (hField : b.HasField reg name id index f)
    (hNoRecord : ∀ inner, f.type ≠ .record inner)
    (hRead :
      b.readField reg.schema w.heap index = .ok content) :
    b.field reg name w =
      (some <$> Action.onHeap
        (f.type.importAs reg.schema content)) w := by
  rw [hField.field_eq, Action.map_apply, Action.map_apply]
  cases hType : f.type with
  | record inner => exact absurd hType (hNoRecord inner)
  | _ =>
      simp only [fieldAt, Action.bind_apply,
        Action.fromHeap_apply, hRead]

------------------------------------------------------------
-- Setting
------------------------------------------------------------

/- What is set is exported first and then put into its slot. -/
theorem set_eq_ok_iff
    {v : Value}
    {w w' : World}
    (hField : b.HasField reg name id index f) :
    b.set reg.schema name v w = (.ok (), w') ↔
      ∃ new w₁ heap,
        f.type.exportAs reg.schema v w = (.ok new, w₁) ∧
        b.putField reg.schema w₁.heap index new = .ok heap ∧
        w' = w₁.withHeap heap := by
  simp only [set, hField.tag, hField.first, hField.declared,
    Action.bind_eq_ok_iff, Action.changeHeap_eq_ok_iff]
  constructor
  · rintro ⟨new, w₁, hExport, heap, hPut, hWorld⟩
    exact ⟨new, w₁, heap, hExport, hPut, hWorld⟩
  · rintro ⟨new, w₁, heap, hExport, hPut, hWorld⟩
    exact ⟨new, w₁, hExport, heap, hPut, hWorld⟩

end HasField

end Box

end Interop
