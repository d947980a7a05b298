import Interop.Proofs.Filled.Runs
import Interop.Proofs.Plane
import Interop.Proofs.Settling

/-
  Positions are in range. Where host code and the bridge take
  an element by its position without asking whether there is
  one, there is one: records have the fields that their types
  declare, names stand for declared fields, arrangements are
  chosen by the count of parameters, and outputs are counted
  before the error slot is taken off. Where a position comes
  from outside, it is asked for, and reported if it is gone.

  Main declarations:
    * `HostRecord.FindsFields`
    * `Box.FindsDescriptors`
    * `Callable.FindsParameters`
    * `Callable.FindsResults`
    * `Box.ReportsDangling`
    * `Scene.accesses_in_range`
-/

namespace Interop

variable {s : Schema}

------------------------------------------------------------
-- Fields and Descriptors
------------------------------------------------------------

/-
  A record has a value for each field that is declared, and
  each name of a field finds one.
-/
def HostRecord.FindsFields
    (s : Schema)
    (r : HostRecord) : Prop :=
  r.values.length = (s.fields r.id).length ∧
    ∀ name index, s.fieldIndex? r.id name = some index →
      ∃ v, r.values[index]? = some v ∧ r.get? s name = some v

/-
  The position that the tag of a box gives to a name is that
  of a declared field, by whose type the field is read and
  set.
-/
def Box.FindsDescriptors
    (reg : Registry)
    (b : Box) : Prop :=
  ∀ id name index,
    b.record? = some id →
    reg.schema.fieldIndex? id (Text.capitalize name) =
      some index →
    ∃ f, (reg.schema.fields id)[index]? = some f ∧
      f.name = Text.capitalize name ∧
      (reg.method? id (Text.capitalize name) = none →
        b.field reg name =
          some <$> b.fieldAt reg.schema index f.type) ∧
      ∀ v, b.set reg.schema name v = (do
        let converted ← f.type.exportAs reg.schema v
        Action.changeHeap
          (b.putField reg.schema · index converted))

/- All boxes do, since positions are looked up there. -/
theorem Box.findsDescriptors
    (reg : Registry)
    (b : Box) :
    b.FindsDescriptors reg := by
  intro id name index hTag hIndex
  rcases Schema.exists_field_of_fieldIndex? hIndex with
    ⟨f, hDeclared, hName⟩
  refine ⟨f, hDeclared, hName, ?_, ?_⟩
  · intro hMethod
    exact HasField.field_eq ⟨hTag, hMethod, hIndex, hDeclared⟩
  · intro v
    simp only [set, hTag, hIndex, hDeclared]

------------------------------------------------------------
-- Parameters and Results
------------------------------------------------------------

namespace Callable

/-
  The parameters that an arrangement names are there, with
  the left operand where it is passed on, and each operand of
  a row has a parameter.
-/
def FindsParameters (c : Callable) : Prop :=
  ∀ left : Option Value,
    (Arrangement.select c.sig.arity left.isSome = .monadic →
      ∃ t, c.sig.params = [t]) ∧
    (Arrangement.select c.sig.arity left.isSome = .dyadic →
      ∃ t u l, c.sig.params = [t, u] ∧ left = some l) ∧
    ∀ right row,
      operandRow c.sig.arity left right = .ok row →
        row.length = c.sig.params.length

/-
  Of outputs in the right number, the error slot can be taken
  off, if there is one. What is left is a result for each
  declared type, and so are the imported values: if there is
  only one, it can be taken out.
-/
def FindsResults
    (s : Schema)
    (c : Callable) : Prop :=
  ∀ outputs, outputs.length = c.sig.outputSlots →
    (c.sig.fallible = true →
      ∃ last, outputs.getLast? = some last) ∧
    ∀ w results w', c.settle outputs w = (.ok results, w') →
      results.length = c.sig.returns.length ∧
      ∀ heap values heap',
        importOutputs s c.sig.returns results heap =
            .ok (values, heap') →
          values.length = c.sig.returns.length ∧
          (values.length = 1 →
            ∃ v, values = [v] ∧ gather values = v)

/- Two operands are passed on only if there are two. -/
theorem isSome_of_select_dyadic
    {arity : Nat}
    {hasLeft : Bool}
    (hSelect : Arrangement.select arity hasLeft = .dyadic) :
    hasLeft = true := by
  rcases arity with _ | _ | _ | n <;> cases hasLeft <;>
    first | rfl | cases hSelect

/- The count of parameters is what selects. -/
theorem findsParameters (c : Callable) :
    c.FindsParameters := by
  intro left
  have hArity := arity_of_select c.sig.arity left.isSome
  refine ⟨?_, ?_, ?_⟩
  · intro hSelect
    rw [hSelect] at hArity
    exact List.length_eq_one_iff.mp hArity
  · intro hSelect
    have hLeft := isSome_of_select_dyadic hSelect
    rw [hSelect] at hArity
    rcases List.length_eq_two.mp hArity with ⟨t, u, hParams⟩
    rcases Option.isSome_iff_exists.mp hLeft with ⟨l, hSome⟩
    exact ⟨t, u, l, hParams, hSome⟩
  · intro right row hRow
    exact (operandRow_eq_ok hRow).1

variable {c : Callable} {outputs results : List HostValue}

/- The slot of a function that may fail is the last output. -/
theorem exists_last_of_fallible
    (hCount : outputs.length = c.sig.outputSlots)
    (hFallible : c.sig.fallible = true) :
    ∃ last, outputs.getLast? = some last := by
  have hSome : outputs ≠ [] := by
    rintro rfl
    simp [Signature.outputSlots, hFallible] at hCount
  exact ⟨_, List.getLast?_eq_some_getLast hSome⟩

/- Settling takes off the slot and nothing else. -/
theorem length_of_settle
    {w w' : World}
    (hCount : outputs.length = c.sig.outputSlots)
    (hSettle : c.settle outputs w = (.ok results, w')) :
    results.length = c.sig.returns.length := by
  unfold settle at hSettle
  split at hSettle
  · rename_i hFallible
    cases hLast : outputs.getLast? with
    | none =>
        rw [hLast] at hSettle
        cases hSettle
    | some last =>
        rw [hLast] at hSettle
        cases last with
        | error fault =>
            cases fault with
            | none =>
                cases hSettle
                rw [List.length_dropLast, hCount]
                simp [Signature.outputSlots, hFallible]
            | some fault => cases hSettle
        | _ => cases hSettle
  · rename_i hNot
    cases hSettle
    rw [hCount]
    simp [Signature.outputSlots, hNot]

/- Imported is one value for each declared type. -/
theorem length_of_importOutputs
    {returns : List HostType}
    {heap heap' : Heap}
    {values : List Value}
    (hLength : results.length = returns.length)
    (hImport :
      importOutputs s returns results heap =
        .ok (values, heap')) :
    values.length = returns.length := by
  have hOutcomes :
      importOutcomes s (returns.zip results) heap =
        values.map Except.ok :=
    importFrom_eq_ok_iff.mp ⟨heap', hImport⟩
  have hCounts := congrArg List.length hOutcomes
  rw [length_importOutcomes, List.length_zip, List.length_map,
    hLength, Nat.min_self] at hCounts
  exact hCounts.symm

/- Outputs are counted, so their results are. -/
theorem findsResults
    (s : Schema)
    (c : Callable) :
    c.FindsResults s := by
  intro outputs hCount
  refine ⟨exists_last_of_fallible hCount, ?_⟩
  intro w results w' hSettle
  have hResults := length_of_settle hCount hSettle
  refine ⟨hResults, ?_⟩
  intro heap values heap' hImport
  refine ⟨length_of_importOutputs hResults hImport, ?_⟩
  intro hOne
  rcases List.length_eq_one_iff.mp hOne with ⟨v, rfl⟩
  exact ⟨v, rfl, rfl⟩

end Callable

------------------------------------------------------------
-- Dangling Places
------------------------------------------------------------

/- Nothing stands at the end of a path in an object. -/
def Heap.Lacks
    (heap : Heap)
    (h : Handle)
    (path : List Nat) : Prop :=
  (heap.content h).at? path = none

namespace Box

/-
  Why a field cannot be put that is not there: the record at
  the place of the box has no such position, or there is no
  record.
-/
def missing
    (s : Schema)
    (heap : Heap)
    (b : Box)
    (index : Nat) : Error :=
  match (heap.content b.handle).at? b.path with
  | some (.record id _) => .noFieldAt (s.name id) index
  | _ => .notARecord (b.type.text s)

/-
  A box reports that its place is gone, or the slot of a
  field in it, if the loans of its object let it look there.
-/
structure ReportsDangling
    (reg : Registry)
    (w : World)
    (b : Box) : Prop where
  read :
    w.heap.isReadable b.handle = true →
    w.heap.Lacks b.handle b.path →
      b.read reg.schema w.heap =
        .error (.notARecord (b.type.text reg.schema))
  write :
    w.heap.isWritable b.handle = true →
    w.heap.Lacks b.handle b.path →
      ∀ v, b.write reg.schema w.heap v =
        .error (.notARecord (b.type.text reg.schema))
  readField : ∀ index,
    w.heap.isReadable b.handle = true →
    w.heap.Lacks b.handle (b.path ++ [index]) →
      b.readField reg.schema w.heap index =
        .error (.notARecord (b.type.text reg.schema))
  putField : ∀ index,
    w.heap.isWritable b.handle = true →
    w.heap.Lacks b.handle (b.path ++ [index]) →
      ∀ v, b.putField reg.schema w.heap index v =
        .error (b.missing reg.schema w.heap index)
  field : ∀ name id index f,
    b.HasField reg name id index f →
    (∀ inner, f.type ≠ .record inner) →
    w.heap.isReadable b.handle = true →
    w.heap.Lacks b.handle (b.path ++ [index]) →
      b.field reg name w =
        (.error (.notARecord (b.type.text reg.schema)), w)
  set : ∀ name id index f v new w',
    b.record? = some id →
    reg.schema.fieldIndex? id (Text.capitalize name) =
      some index →
    (reg.schema.fields id)[index]? = some f →
    f.type.exportAs reg.schema v w = (.ok new, w') →
    w'.heap.isWritable b.handle = true →
    w'.heap.Lacks b.handle (b.path ++ [index]) →
      b.set reg.schema name v w =
        (.error (b.missing reg.schema w'.heap index), w')

variable {heap : Heap} {b : Box} {index : Nat}

/- Reading follows the path. -/
theorem read_of_lacks
    (hReadable : heap.isReadable b.handle = true)
    (hLacks : heap.Lacks b.handle b.path) :
    b.read s heap = .error (.notARecord (b.type.text s)) := by
  rw [read_of_isReadable hReadable, hLacks]
  rfl

/- Writing follows it before anything is changed. -/
theorem write_of_lacks
    (hWritable : heap.isWritable b.handle = true)
    (hLacks : heap.Lacks b.handle b.path)
    (v : HostValue) :
    b.write s heap v = .error (.notARecord (b.type.text s)) := by
  unfold Heap.Lacks at hLacks
  simp only [write, update, hWritable, if_true, hLacks]

/- A record without the position lacks the slot. -/
theorem le_of_lacks
    {id : RecordId}
    {values : List HostValue}
    (hLacks : heap.Lacks b.handle (b.path ++ [index]))
    (hAt :
      (heap.content b.handle).at? b.path =
        some (.record id values)) :
    values.length ≤ index := by
  unfold Heap.Lacks at hLacks
  rw [HostValue.at?_append_of_at? hAt] at hLacks
  apply List.getElem?_eq_none_iff.mp
  cases hGet : values[index]? with
  | none => rfl
  | some v => simp [HostValue.at?, hGet] at hLacks

/- A field is read from a record that has it. -/
theorem readField_of_lacks
    (hReadable : heap.isReadable b.handle = true)
    (hLacks : heap.Lacks b.handle (b.path ++ [index])) :
    b.readField s heap index =
      .error (.notARecord (b.type.text s)) := by
  unfold readField
  rw [read_of_isReadable hReadable]
  cases hAt : (heap.content b.handle).at? b.path with
  | none => rfl
  | some found =>
      cases found with
      | record id values =>
          have hGone : values[index]? = none :=
            List.getElem?_eq_none_iff.mpr
              (le_of_lacks hLacks hAt)
          simp only [outcome, hGone]
      | _ => rfl

/- A field is put into a record that has it. -/
theorem putField_of_lacks
    (hWritable : heap.isWritable b.handle = true)
    (hLacks : heap.Lacks b.handle (b.path ++ [index]))
    (v : HostValue) :
    b.putField s heap index v = .error (b.missing s heap index) := by
  simp only [putField, update, hWritable, if_true, missing]
  cases hAt : (heap.content b.handle).at? b.path with
  | none => rfl
  | some found =>
      cases found with
      | record id values =>
          have hGone : ¬ index < values.length :=
            Nat.not_lt.mpr (le_of_lacks hLacks hAt)
          simp only [if_neg hGone]
      | _ => rfl

/- All boxes report what dangles, whatever was done before. -/
theorem reportsDangling
    (reg : Registry)
    (w : World)
    (b : Box) :
    b.ReportsDangling reg w where
  read := read_of_lacks
  write := write_of_lacks
  readField := fun _ => readField_of_lacks
  putField := fun _ => putField_of_lacks
  field := by
    intro name id index f hField hNoRecord hReadable hLacks
    have hRead :
        b.readField reg.schema w.heap index =
          .error (.notARecord (b.type.text reg.schema)) :=
      readField_of_lacks hReadable hLacks
    rw [hField.field_eq, Action.map_apply]
    cases hType : f.type with
    | record inner => exact absurd hType (hNoRecord inner)
    | _ =>
        simp only [fieldAt, Action.bind_apply,
          Action.fromHeap_apply, hRead]
        rfl
  set := by
    intro name id index f v new w' hTag hIndex hDeclared hExport
      hWritable hLacks
    have hPut :
        b.putField reg.schema w'.heap index new =
          .error (b.missing reg.schema w'.heap index) :=
      putField_of_lacks hWritable hLacks new
    simp only [set, hTag, hIndex, hDeclared, Action.bind_apply,
      hExport]
    exact Action.changeHeap_of_error hPut

end Box

/- Positions that a record lacks are neither read nor put. -/
theorem HostRecord.position_of_le
    {r : HostRecord}
    {index : Nat}
    (hPast : r.values.length ≤ index) :
    r.at? index = none ∧ ∀ v, r.put? index v = none := by
  refine ⟨List.getElem?_eq_none_iff.mpr hPast, ?_⟩
  intro v
  exact if_neg (Nat.not_lt.mpr hPast)

------------------------------------------------------------
-- Runs
------------------------------------------------------------

namespace Scene

/-
  A record occurs in a value at hand, in the content of an
  object or in a global variable, at any depth.
-/
def Has
    (scene : Scene)
    (r : HostRecord) : Prop :=
  (∃ v ∈ scene.held, HostValue.Within r.toValue v) ∨
  (∃ h, HostValue.Within r.toValue (scene.host.heap.content h)) ∨
  ∃ entry ∈ scene.host.globals,
    HostValue.Within r.toValue entry.2

/- All records of a filled scene are filled. -/
theorem IsFilled.of_has
    {scene : Scene}
    {r : HostRecord}
    (hFilled : scene.IsFilled s)
    (hHas : scene.Has r) :
    r.IsFilled s := by
  rcases hHas with ⟨v, hMem, hWithin⟩ | ⟨h, hWithin⟩ |
    ⟨entry, hMem, hWithin⟩
  · exact hFilled.held v hMem r hWithin
  · exact hFilled.host.heap.content h r hWithin
  · exact hFilled.host.globals entry hMem r hWithin

/-
  No access by position is ever out of range. Whatever host
  code and requests have done, records have the values that
  their types declare, so names of fields find them; and
  descriptors, parameters and results are there when they are
  taken. Positions from outside that lead nowhere are told.
-/
theorem accesses_in_range
    {scene : Scene}
    (hReached : Becomes s initial scene) :
    (∀ r, scene.Has r → r.FindsFields s) ∧
    (∀ (reg : Registry) (b : Box), b.FindsDescriptors reg) ∧
    (∀ c : Callable, c.FindsParameters ∧ c.FindsResults s) ∧
    (∀ (r : HostRecord) index, r.values.length ≤ index →
      r.at? index = none ∧ ∀ v, r.put? index v = none) ∧
    ∀ (reg : Registry) (w : World) (b : Box),
      b.ReportsDangling reg w := by
  have hFilled := hReached.isFilled (isFilled_initial s)
  refine ⟨?_, Box.findsDescriptors, ?_, ?_, Box.reportsDangling⟩
  · intro r hHas
    have hRecord := hFilled.of_has hHas
    exact ⟨hRecord, fun name index => hRecord.get?_eq⟩
  · exact fun c => ⟨c.findsParameters, c.findsResults s⟩
  · exact fun r index => HostRecord.position_of_le

------------------------------------------------------------
-- A Run in the Plane
------------------------------------------------------------

/-
  Transposing is host code: it clones the point and both of
  its coordinates, puts them the other way round, and
  overwrites the point.
-/
theorem transpose_isHostCode
    (held : List HostValue)
    (h : Handle) :
    (HostMethod.transpose h).IsHostCode .plane held := by
  intro args host
  unfold HostMethod.transpose
  split
  · rename_i x y hContent
    let point : HostRecord := ⟨⟨0⟩, [x, y]⟩
    let between : HostRecord := ⟨⟨0⟩, [y, y]⟩
    let swapped : HostRecord := ⟨⟨0⟩, [y, x]⟩
    let start := args ++ held
    have hPoint :
        Becomes .plane ⟨host, start⟩
          ⟨host, point.toValue :: start⟩ := by
      have hClone :=
        (Becomes.rest ⟨host, start⟩).step
          (.hold (s := .plane) (.content h))
      rw [hContent] at hClone
      exact hClone
    have hX :
        Becomes .plane ⟨host, start⟩
          ⟨host, x :: point.toValue :: start⟩ :=
      hPoint.step
        (.hold (.field List.mem_cons_self
          (show point.at? 0 = some x from rfl)))
    have hY :
        Becomes .plane ⟨host, start⟩
          ⟨host, y :: x :: point.toValue :: start⟩ :=
      hX.step
        (.hold (.field
          (List.mem_cons_of_mem x List.mem_cons_self)
          (show point.at? 1 = some y from rfl)))
    have hBetween :
        Becomes .plane ⟨host, start⟩
          ⟨host, between.toValue :: y :: x :: point.toValue ::
            start⟩ :=
      hY.step
        (.hold (.put
          (List.mem_cons_of_mem y
            (List.mem_cons_of_mem x List.mem_cons_self))
          List.mem_cons_self
          (show point.put? 0 y = some between from rfl)))
    have hSwapped :
        Becomes .plane ⟨host, start⟩
          ⟨host, swapped.toValue :: between.toValue :: y :: x ::
            point.toValue :: start⟩ :=
      hBetween.step
        (.hold (.put List.mem_cons_self
          (List.mem_cons_of_mem _
            (List.mem_cons_of_mem y List.mem_cons_self))
          (show between.put? 1 x = some swapped from rfl)))
    refine ⟨_, hSwapped.step (.overwrite h [] List.mem_cons_self),
      rfl, ?_⟩
    intro v hMem
    rw [List.mem_singleton] at hMem
    rw [hMem]
    simp [Scene.withHeap]
  · exact ⟨_, .rest _, rfl, by simp⟩

/- What a request leaves in the plane. -/
def asked
    (scene : Scene)
    (request : Request) : Scene :=
  scene.after
    (request.run (.ofSchema .plane) .default
      (scene.world [] 0))

/-
  A segment is made, its finish is moved, and a method is
  called on the finish.
-/
def withTransposed : Scene :=
  ((initial.asked (.construct (.record ⟨1⟩))).asked
    (.set .finish "y" (.int 9))).asked
      (.call
        (.callable
          ⟨"Point.Transpose", ⟨[], [.int .i64], false⟩,
            .bound .transpose .finish⟩)
        none .empty)

/- Host code then writes nil where the start has been. -/
def withoutStart : Scene where
  host :=
    { withTransposed.host with
      heap := withTransposed.host.heap.putAt ⟨0⟩ [0] .nil }
  held := .nil :: withTransposed.held

/- Without domain values in operands, nothing is presented. -/
theorem becomes_asked
    {scene : Scene}
    (request : Request)
    (hBefore : Becomes .plane initial scene)
    (hBridge : ∀ change, request ≠ .host change)
    (hHanded : request.handed = [])
    (hPlain : ∀ v ∈ request.operands, v.IsPlain)
    (hCode : ∀ body, request.Calls body →
      body.IsHostCode .plane scene.held) :
    Becomes .plane initial (scene.asked request) := by
  apply hBefore.ask .default [] 0 rfl hBridge
  · simp [hHanded]
  · rintro e ⟨v, hMem, id, hWithin⟩
    exact absurd hWithin (hPlain v hMem id e)
  · exact hCode

/- The scene without a start is one of a run. -/
theorem becomes_withoutStart :
    Becomes .plane initial withoutStart := by
  have hMade :=
    becomes_asked (.construct (.record ⟨1⟩)) (.rest initial)
      (by simp) rfl (by simp [Request.operands])
      (by rintro body ⟨⟩)
  have hMoved :=
    becomes_asked (.set .finish "y" (.int 9)) hMade (by simp) rfl
      (by simpa [Request.operands] using Value.IsPlain.of_scalar _)
      (by rintro body ⟨⟩)
  have hTransposed : Becomes .plane initial withTransposed := by
    have hEmpty : Value.empty.IsPlain := .of_elements (by simp)
    apply becomes_asked _ hMoved (by simp) rfl
    · simpa [Request.operands] using hEmpty
    · rintro body ⟨h, rfl⟩
      exact transpose_isHostCode _ h
  have hNil :
      Becomes .plane initial
        { withTransposed with
          held := .nil :: withTransposed.held } :=
    hTransposed.step (.hold (.plain (by simp) (by simp)))
  have hWrite :
      Box.start.write .plane withTransposed.host.heap .nil =
        .ok withoutStart.host.heap := rfl
  exact hNil.step (.write List.mem_cons_self hWrite)

/-
  The segment has no start any more, but still two values.
  The start can be found by its name; reading on in it fails.
-/
theorem accesses_in_range_plane :
    Becomes .plane initial withoutStart ∧
    withoutStart.host.heap.content ⟨0⟩ =
      .record ⟨1⟩ [.nil, .point 9 0] ∧
    (∃ v, HostRecord.get? .plane
      ⟨⟨1⟩, [.nil, .point 9 0]⟩ "Start" = some v) ∧
    Box.start.readField .plane withoutStart.host.heap 0 =
      .error (.notARecord "Point") := by
  rcases accesses_in_range becomes_withoutStart with
    ⟨hRecords, hDescriptors, hCalls, hPositions, hDangling⟩
  have hSegment :
      withoutStart.Has ⟨⟨1⟩, [.nil, .point 9 0]⟩ :=
    .inr (.inl ⟨⟨0⟩, .self⟩)
  refine ⟨becomes_withoutStart, rfl, ?_, ?_⟩
  · rcases (hRecords _ hSegment).2 "Start" 0 rfl with
      ⟨v, hAt, hGet⟩
    exact ⟨v, hGet⟩
  · exact (hDangling (.ofSchema .plane)
      (withoutStart.world [] 0) .start).readField 0 rfl rfl

end Scene

end Interop
