import Interop.Proofs.Independence
import Interop.Proofs.Member
import Interop.Proofs.Reexport
import Interop.Proofs.Typing.Operations
import Interop.Proofs.Typing.Soundness
import Interop.Proofs.Untouched

/-
  Setting and getting a field of a boxed record. What was set
  is what is got, in its normal form along the field's type;
  setting what was got changes nothing but the widths of
  numbers; and of two values that are set, the second stays.

  A record held by value is got as a box of its slot, so what
  was got may stand in the very slot that is set then. Other
  fields are imported, which may add objects before the field
  is set again. Yet none of this is seen in the slot.

  Main declarations:
    * `HostType.importAs_putAt`
    * `Box.Returns`
    * `Box.returns_of_set`
    * `Box.exportAs_of_field`
    * `Box.set_of_field`
    * `Box.set_of_set`
    * `Box.IsLens`
    * `Box.isLens_of_hasField`
-/

namespace Interop

/-
  An import does not see what is in a slot inside an object:
  it comes to the same if something else was put there.
-/
theorem HostType.importAs_putAt
    {s : Schema}
    {t : HostType}
    {heap after : Heap}
    {h : Handle}
    {path : List Nat}
    {content old : HostValue}
    {u : Value}
    (hPath : path ≠ [])
    (hAt : (heap.content h).at? path = some old)
    (hImport : t.importAs s content heap = .ok (u, after))
    (new : HostValue) :
    t.importAs s content (heap.putAt h path new) =
      .ok (u, after.putAt h path new) := by
  have hIn : h.index < heap.size := Heap.lt_size_of_at? hAt hPath
  have hLocal := importAs_isLocal (s := s) t content
  have hContent : after.content h = heap.content h :=
    Heap.content_of_isPrefix (hLocal.adds hImport) hIn
  rw [Heap.putAt, Heap.putAt, hContent,
    hLocal.store hIn (HostValue.isRecordOf_replaceAt hPath _ _),
    hImport]
  rfl

namespace Box

variable {reg : Registry} {b : Box} {name : String}
variable {id : RecordId} {index : Nat} {f : Field}

------------------------------------------------------------
-- Getting What Was Set
------------------------------------------------------------

/-
  A field gives back what was set. A record by value is
  addressed in its slot, which holds what the box that was
  set held when it was. Anything else is the normal form of
  the value along the type; if it has records, they are in
  objects that are added.
-/
inductive Returns
    (s : Schema)
    (b : Box)
    (index : Nat)
    (t : HostType)
    (start : World)
    (v : Value)
    (w : World) : Value → World → Prop where
| projected
    {inner : RecordId}
    {c : Box}
    {content : HostValue}
    (hInner : t = .record inner)
    (hValue : v = .boxed c)
    (hBefore : c.read s start.heap = .ok content)
    (hAfter : (b.project index t).read s w.heap = .ok content) :
    Returns s b index t start v w (.boxed (b.project index t)) w
| imported
    {u : Value}
    {w' : World}
    (hNoRecord : ∀ inner, t ≠ .record inner)
    (hGrown : w.heap.cells <+: w'.heap.cells)
    (hBack :
      Value.ComesBack s start.heap w'.heap t v u
        w.heap.size w'.heap.size) :
    Returns s b index t start v w u w'

/- A record that was copied into its slot is found there. -/
theorem returns_projected
    {v : Value}
    {w : World}
    {inner : RecordId}
    {new : HostValue}
    {heap : Heap}
    (hField : b.HasField reg name id index f)
    (hPlain : v.IsPlain)
    (hInner : f.type = .record inner)
    (hExport : f.type.exportAs reg.schema v w = (.ok new, w))
    (hPut : b.putField reg.schema w.heap index new = .ok heap) :
    ∃ u w'',
      b.field reg name (w.withHeap heap) = (.ok (some u), w'') ∧
      Returns reg.schema b index f.type w v (w.withHeap heap) u
        w'' := by
  refine ⟨_, _, hField.field_of_record hInner _, ?_⟩
  rw [HostType.exportAs_of_plain (by simp [hInner]) hPlain,
    hInner] at hExport
  have hCopy :
      (HostType.record inner).exportPlain reg.schema w.heap v =
        .ok new :=
    congrArg Prod.fst hExport
  cases HostType.stores_of_exportPlain hCopy with
  | record hRead hRecord =>
      exact .projected hInner rfl hRead
        (read_project_eq_ok_iff.mpr (readField_of_putField hPut))

/- Anything else is imported as it would be before the put. -/
theorem returns_imported
    {v : Value}
    {w : World}
    {new : HostValue}
    {heap : Heap}
    (hField : b.HasField reg name id index f)
    (hPlain : v.IsPlain)
    (hNoRecord : ∀ inner, f.type ≠ .record inner)
    (hExport : f.type.exportAs reg.schema v w = (.ok new, w))
    (hPut : b.putField reg.schema w.heap index new = .ok heap) :
    ∃ u w'',
      b.field reg name (w.withHeap heap) = (.ok (some u), w'') ∧
      Returns reg.schema b index f.type w v (w.withHeap heap) u
        w'' := by
  rcases putField_eq_ok_iff.mp hPut with
    ⟨hWritable, ⟨old, hOld⟩, rfl⟩
  have hAt := (readField_eq_ok_iff.mp hOld).2
  have hIn : b.handle.index < w.heap.size :=
    Heap.lt_size_of_at? hAt (by simp)
  rcases HostType.readsBack_of_exportAs hPlain hExport w.heap
      (List.prefix_refl _) with
    ⟨u, after, hImport, hAfter, hBack⟩
  let w₁ : World :=
    w.withHeap (w.heap.putAt b.handle (b.path ++ [index]) new)
  let w₂ : World :=
    w.withHeap (after.putAt b.handle (b.path ++ [index]) new)
  have hSlot : b.readField reg.schema w₁.heap index = .ok new :=
    readField_of_putField hPut
  have hStored :
      f.type.importAs reg.schema new w₁.heap = .ok (u, w₂.heap) :=
    HostType.importAs_putAt (by simp) hAt hImport new
  refine ⟨u, w₂, ?_, .imported hNoRecord ?_ ?_⟩
  · rw [hField.field_of_read hNoRecord hSlot, Action.map_apply,
      Action.onHeap_of_ok hStored]
    rfl
  · exact (HostType.importAs_isLocal f.type new).adds hStored
  · simp only [w₂, World.heap_withHeap, Heap.size_putAt]
    apply (hBack after (List.prefix_refl _)).congr
    -- copies are in new objects, which the put left alone
    intro k hNew
    apply Heap.cell_putAt_of_ne
    rintro rfl
    omega

/- A plain value that was set is what the field returns. -/
theorem returns_of_set
    {v : Value}
    {w w' : World}
    (hField : b.HasField reg name id index f)
    (hPlain : v.IsPlain)
    (hSet : b.set reg.schema name v w = (.ok (), w')) :
    ∃ u w'',
      b.field reg name w' = (.ok (some u), w'') ∧
      Returns reg.schema b index f.type w v w' u w'' := by
  rcases hField.set_eq_ok_iff.mp hSet with
    ⟨new, w₁, heap, hExport, hPut, rfl⟩
  have hWorld : w₁ = w := by
    have hSame :=
      HostType.world_exportAs (s := reg.schema) (t := f.type)
        hPlain w
    rwa [hExport] at hSame
  subst hWorld
  by_cases hInner : ∃ inner, f.type = .record inner
  · rcases hInner with ⟨inner, hInner⟩
    exact returns_projected hField hPlain hInner hExport hPut
  · exact returns_imported hField hPlain (not_exists.mp hInner)
      hExport hPut

------------------------------------------------------------
-- Setting What Was Got
------------------------------------------------------------

/-
  What a field returned exports to what its slot holds, with
  numbers of the type's width. The box of a record reads the
  slot itself, which is not written yet.
-/
theorem exportAs_of_field
    {u : Value}
    {w w₁ : World}
    {old : HostValue}
    (hField : b.HasField reg name id index f)
    (hRead : b.readField reg.schema w.heap index = .ok old)
    (hAdmits : f.type.admits w.heap old = true)
    (hGet : b.field reg name w = (.ok (some u), w₁)) :
    w.heap.cells <+: w₁.heap.cells ∧
      f.type.exportAs reg.schema u w₁ =
        (.ok (f.type.narrowed old), w₁) := by
  by_cases hInner : ∃ inner, f.type = .record inner
  · rcases hInner with ⟨inner, hInner⟩
    rw [hField.field_of_record hInner] at hGet
    cases hGet
    refine ⟨List.prefix_refl _, ?_⟩
    rw [hInner, HostType.admits_record] at hAdmits
    rw [HostType.exportAs_of_ne_any (by simp [hInner]) (by simp),
      Action.fromHeap_apply, hInner]
    exact congrArg (·, w)
      (HostType.exportRecord_of_read
        (read_project_eq_ok_iff.mpr hRead) hAdmits)
  · rw [hField.field_of_read (not_exists.mp hInner) hRead,
      Action.map_apply] at hGet
    cases hImport : f.type.importAs reg.schema old w.heap with
    | error e =>
        rw [Action.onHeap_of_error hImport] at hGet
        cases hGet
    | ok r =>
        rcases r with ⟨v, after⟩
        rw [Action.onHeap_of_ok hImport] at hGet
        cases hGet
        have hAccepts :=
          (HostType.isOk_importAs_iff _ _ _ _).mp ⟨_, hImport⟩
        rcases HostType.goesBack_of_accepts (s := reg.schema)
            hAdmits hAccepts with
          ⟨v', after', hSame, hAfter, hBack⟩
        cases hImport.symm.trans hSame
        exact ⟨hAfter, hBack _ (List.prefix_refl _)⟩

/-
  What a field of a good box returned can be set. The slot
  then holds what it held, with numbers of its type's width.
-/
theorem set_of_field
    {u : Value}
    {w w₁ : World}
    (hIdle : w.heap.IsIdle)
    (hBox : b.Typed reg.schema w.heap)
    (hField : b.HasField reg name id index f)
    (hGet : b.field reg name w = (.ok (some u), w₁)) :
    ∃ old w₂,
      b.readField reg.schema w.heap index = .ok old ∧
      b.set reg.schema name u w₁ = (.ok (), w₂) ∧
      w.heap.cells <+: w₁.heap.cells ∧
      w₁.heap.SlotChange reg.schema w₂.heap b.handle
        (b.path ++ [index]) (f.type.narrowed old) ∧
      (f.type.narrowed old = old → w₂ = w₁) := by
  rcases hBox.readField (type_of_record? hField.tag)
      hField.declared with ⟨old, hOld, hDeep⟩
  rcases exportAs_of_field hField hOld hDeep.shallow hGet with
    ⟨hGrown, hExport⟩
  have hCell : w₁.heap.cell b.handle = w.heap.cell b.handle :=
    Heap.cell_of_isPrefix hGrown hBox.live
  have hStill :
      b.readField reg.schema w₁.heap index = .ok old := by
    rw [readField_congr hCell, hOld]
  rcases readField_eq_ok_iff.mp hStill with ⟨hReadable, hAt⟩
  have hWritable : w₁.heap.isWritable b.handle = true := by
    have hFree := hIdle.isWritable b.handle
    simp only [Heap.isWritable, Heap.loan] at hFree ⊢
    rw [hCell, hFree]
  refine ⟨old, _, hOld, hField.set_eq_ok_iff.mpr
    ⟨_, w₁, _, hExport, putField_eq_ok_iff.mpr
      ⟨hWritable, ⟨old, hStill⟩, rfl⟩, rfl⟩, hGrown, ?_, ?_⟩
  · exact Heap.slotChange_putAt
      (Heap.lt_size_of_at? hAt (by simp)) hReadable hAt
  · intro hSame
    rw [hSame, Heap.putAt_of_at? hAt]
    rfl

------------------------------------------------------------
-- Setting Twice
------------------------------------------------------------

/-
  A value that is set after another one, and does not refer
  to the object, leaves the world that it leaves if the first
  one is exported only.
-/
theorem set_of_set
    {v₁ v₂ : Value}
    {w w₁ w₂ : World}
    (hField : b.HasField reg name id index f)
    (hIgnores : v₂.Ignores b.handle)
    (hFirst : b.set reg.schema name v₁ w = (.ok (), w₁))
    (hSecond : b.set reg.schema name v₂ w₁ = (.ok (), w₂)) :
    ∃ new w₀,
      f.type.exportAs reg.schema v₁ w = (.ok new, w₀) ∧
      b.set reg.schema name v₂ w₀ = (.ok (), w₂) := by
  rcases hField.set_eq_ok_iff.mp hFirst with
    ⟨old, w₀, heap, hExport, hPut, rfl⟩
  rcases hField.set_eq_ok_iff.mp hSecond with
    ⟨new, w₃, heap₂, hExport₂, hPut₂, rfl⟩
  rcases putField_eq_ok_iff.mp hPut with
    ⟨hWritable, ⟨before, hBefore⟩, rfl⟩
  rcases putField_eq_ok_iff.mp hPut₂ with ⟨-, -, rfl⟩
  -- the second export does not see what the first set put
  have hAt := (readField_eq_ok_iff.mp hBefore).2
  rcases Action.Spares.putAt
      (fun root => HostType.exportAs_spares (s := reg.schema)
        hIgnores f.type)
      (by simp) hAt old with
    ⟨hKeeps, hCommutes⟩
  rcases hRun : f.type.exportAs reg.schema v₂ w₀ with
    ⟨outcome, w₄⟩
  rw [hRun] at hKeeps hCommutes
  cases hExport₂.symm.trans hCommutes
  have hSlot : b.readField reg.schema w₄.heap index = .ok before :=
    (readField_congr hKeeps).trans hBefore
  have hAt₄ := (readField_eq_ok_iff.mp hSlot).2
  refine ⟨old, w₀, hExport, hField.set_eq_ok_iff.mpr
    ⟨new, w₄, _, hRun, putField_eq_ok_iff.mpr
      ⟨?_, ⟨before, hSlot⟩, rfl⟩, ?_⟩⟩
  · rw [← hWritable]
    simp only [Heap.isWritable, Heap.loan, hKeeps]
  · rw [World.heap_withHeap,
      Heap.putAt_putAt (Heap.lt_size_of_at? hAt₄ (by simp))]
    rfl

------------------------------------------------------------
-- Both Ways
------------------------------------------------------------

/-
  A field of a boxed record is a lens. Values without domain
  values that are set are returned. Values that are returned
  can be set, which keeps the content but for the widths of
  its numbers. Of two values that are set, the first one does
  not matter if the second does not refer to the object: but
  for what host code did to export it, the host is the same
  as without it.
-/
structure IsLens
    (reg : Registry)
    (b : Box)
    (name : String)
    (index : Nat)
    (f : Field)
    (w : World) : Prop where
  field_set : ∀ v w', v.IsPlain →
    b.set reg.schema name v w = (.ok (), w') →
      ∃ u w'',
        b.field reg name w' = (.ok (some u), w'') ∧
        Returns reg.schema b index f.type w v w' u w''
  set_field : ∀ u w₁,
    b.field reg name w = (.ok (some u), w₁) →
      ∃ old w₂,
        b.readField reg.schema w.heap index = .ok old ∧
        b.set reg.schema name u w₁ = (.ok (), w₂) ∧
        w.heap.cells <+: w₁.heap.cells ∧
        w₁.heap.SlotChange reg.schema w₂.heap b.handle
          (b.path ++ [index]) (f.type.narrowed old) ∧
        (f.type.narrowed old = old → w₂ = w₁)
  set_set : ∀ v₁ v₂ w₁ w₂, v₂.Ignores b.handle →
    b.set reg.schema name v₁ w = (.ok (), w₁) →
    b.set reg.schema name v₂ w₁ = (.ok (), w₂) →
      (∃ new w₀,
        f.type.exportAs reg.schema v₁ w = (.ok new, w₀) ∧
        b.set reg.schema name v₂ w₀ = (.ok (), w₂)) ∧
      ((∀ n e, Value.Within (.any n e) v₁ → e.LeavesHost) →
        ∃ w₃,
          b.set reg.schema name v₂ w = (.ok (), w₃) ∧
          w₃.host = w₂.host)

/-
  Setting and getting a field form a lens: on each well typed
  heap, for each box of a record that is held, at any depth,
  and each name that stands for one of its fields.
-/
theorem isLens_of_hasField
    {held : Box → Prop}
    {w : World}
    (hTyped : w.heap.WellTyped reg.schema held)
    (hHeld : held b)
    (hField : b.HasField reg name id index f) :
    b.IsLens reg name index f w where
  field_set v w' hPlain hSet := returns_of_set hField hPlain hSet
  set_field u w₁ hGet :=
    set_of_field hTyped.idle (hTyped.boxes b hHeld) hField hGet
  set_set v₁ v₂ w₁ w₂ hIgnores hFirst hSecond := by
    rcases set_of_set hField hIgnores hFirst hSecond with
      ⟨new, w₀, hExport, hAlone⟩
    refine ⟨⟨new, w₀, hExport, hAlone⟩, ?_⟩
    intro hLeaves
    have hAlike : World.Alike (fun _ => true) w w₀ := by
      have hSteps := HostType.alike_exportAs (s := reg.schema)
        (t := f.type) hLeaves w
      rwa [hExport] at hSteps
    rcases set_agree reg.schema b name v₂ w w₀ hAlike with
      ⟨hSame, hThen⟩
    rcases hRun : b.set reg.schema name v₂ w with ⟨outcome, w₃⟩
    rw [hRun, hAlone] at hSame hThen
    cases hSame
    exact ⟨w₃, rfl, hThen.host⟩

end Box

/- The finish of the segment leads to a point that fits. -/
theorem World.wellTyped_withSegment :
    World.withSegment.heap.WellTyped .plane (· = .finish) where
  idle := isIdle_withSegment
  fits h := by
    rcases h with ⟨index⟩
    cases index with
    | zero => exact HostValue.recordsFit_segment 1 2 3 4
    | succ n =>
        have hNil : World.withSegment.heap.content ⟨n + 1⟩ = .nil :=
          rfl
        rw [hNil]
        exact HostValue.recordsFit_of_no_parts (by simp) (by simp)
  boxes b hHeld := by
    subst hHeld
    have hSegment :
        Box.segment.Typed .plane World.withSegment.heap := by
      apply Box.Typed.of_whole
      · decide
      · rfl
      · exact ⟨rfl, HostValue.recordsFit_segment 1 2 3 4⟩
      · simp
    have hFinish :
        (Schema.plane.fields ⟨1⟩)[1]? =
          some ⟨"Finish", .record ⟨0⟩⟩ := rfl
    exact hSegment.project rfl hFinish rfl

/- The height of the finish can be set and got. -/
theorem Box.isLens_of_hasField_plane :
    World.withSegment.heap.WellTyped .plane (· = .finish) ∧
    Box.finish.HasField (.ofSchema .plane) "y" ⟨0⟩ 1
      ⟨"Y", .int .i64⟩ ∧
    Box.finish.IsLens (.ofSchema .plane) "y" 1 ⟨"Y", .int .i64⟩
      .withSegment := by
  have hField :
      Box.finish.HasField (.ofSchema .plane) "y" ⟨0⟩ 1
        ⟨"Y", .int .i64⟩ :=
    ⟨rfl, rfl, by decide, rfl⟩
  exact ⟨World.wellTyped_withSegment, hField,
    isLens_of_hasField World.wellTyped_withSegment rfl hField⟩

end Interop
