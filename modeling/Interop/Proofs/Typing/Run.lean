import Interop.Proofs.Plane
import Interop.Proofs.Typing.Calls

/-
  Type soundness. A session starts without objects and
  performs operations in any order; it keeps all values that
  they give, with the boxes inside, and all host values that
  were exported. As long as host code is honest, every
  session that can be reached is well typed, and then the
  declared fields of held boxes can be read and written.

  Main declarations:
    * `Session`
    * `Operation.run`
    * `Operation.IsAllowed`
    * `Session.WellTyped`
    * `Session.wellTyped_perform`
    * `Session.Reached`
    * `Session.wellTyped_of_reached`
-/

namespace Interop

------------------------------------------------------------
-- Sessions
------------------------------------------------------------

/-
  What the interpreter works with: the world, the values that
  it was given, and the host values that it exported.
-/
structure Session where
  world : World
  values : List Value
  hosted : List HostValue

/- A box that occurs in a value of the session. -/
def Session.Holds
    (σ : Session)
    (b : Box) : Prop :=
  ∃ v ∈ σ.values, v.HoldsBox b

/- What the interpreter can ask for. -/
inductive Operation where
| construct (t : HostType) : Operation
| exportAs (t : HostType) (v : Value) : Operation
| importAs (t : HostType) (h : HostValue) : Operation
| field (b : Box) (name : String) : Operation
| set (b : Box) (name : String) (v : Value) : Operation
| call (c : Callable) (left : Option Value) (right : Value) :
    Operation

namespace Operation

/- The values and the host values that an operation gives. -/
def run
    (reg : Registry)
    (options : Options) :
    Operation → Action (List Value × List HostValue)
| .construct t =>
    (fun b => ([.boxed b], [])) <$> t.construct reg.schema
| .exportAs t v =>
    (fun h => ([], [h])) <$> t.exportAs reg.schema v
| .importAs t h =>
    (fun v => ([v], [])) <$>
      Action.onHeap (t.importAs reg.schema h)
| .field b name =>
    (fun found => (found.toList, [])) <$> b.field reg name
| .set b name v =>
    (fun _ => ([], [])) <$> b.set reg.schema name v
| .call c left right =>
    (fun v => ([v], [])) <$>
      c.call reg.schema options left right

/-
  Boxes that are asked for members are held, host values were
  exported before or fit, and host code is honest.
-/
def IsAllowed
    (s : Schema)
    (σ : Session) : Operation → Prop
| .construct _ => True
| .exportAs _ v => v.IsHonest s σ.Holds
| .importAs _ h => h ∈ σ.hosted ∨ h.RecordsFit s σ.world.heap
| .field b _ => σ.Holds b
| .set b _ v => σ.Holds b ∧ v.IsHonest s σ.Holds
| .call c left right =>
    c.target.IsHonest s σ.Holds c.sig ∧
      (∀ v, left = some v → v.IsHonest s σ.Holds) ∧
      right.IsHonest s σ.Holds

end Operation

namespace Session

/-
  Perform an operation. What it gives is kept; when it fails,
  what it has changed stays changed.
-/
def perform
    (reg : Registry)
    (options : Options)
    (σ : Session)
    (op : Operation) : Session :=
  match op.run reg options σ.world with
  | (.ok (vs, hs), w) => ⟨w, vs ++ σ.values, hs ++ σ.hosted⟩
  | (.error _, w) => { σ with world := w }

/- The sessions that start without objects. -/
inductive Reached
    (reg : Registry)
    (options : Options) : Session → Prop where
| start
    {w : World}
    (hEmpty : w.heap = .empty) :
    Reached reg options ⟨w, [], []⟩
| step
    {σ : Session}
    {op : Operation}
    (hReached : Reached reg options σ)
    (hAllowed : op.IsAllowed reg.schema σ) :
    Reached reg options (σ.perform reg options op)

/-
  A well typed session: so is its heap with the boxes that
  are held, and exported host values still fit.
-/
structure WellTyped
    (s : Schema)
    (σ : Session) : Prop where
  heap : σ.world.heap.WellTyped s σ.Holds
  hosted : ∀ h ∈ σ.hosted, h.RecordsFit s σ.world.heap

end Session

------------------------------------------------------------
-- One Operation
------------------------------------------------------------

/- What an operation gives is typed and fits. -/
def Operation.GivesTyped
    (s : Schema)
    (given : List Value × List HostValue)
    (heap : Heap) : Prop :=
  (∀ v ∈ given.1, v.IsTyped s heap) ∧
    ∀ h ∈ given.2, h.RecordsFit s heap

/- One value is given if its boxes are good. -/
theorem Operation.givesTyped_value
    {s : Schema}
    {v : Value}
    {heap : Heap}
    (hBoxes : v.IsTyped s heap) :
    GivesTyped s ([v], []) heap := by
  refine ⟨?_, by simp⟩
  intro u hMem
  rw [List.mem_singleton] at hMem
  rw [hMem]
  exact hBoxes

/- An operation that is allowed keeps heaps well typed. -/
theorem Operation.run_keeps
    {reg : Registry}
    {σ : Session}
    {op : Operation}
    (options : Options)
    (hAllowed : op.IsAllowed reg.schema σ) :
    Action.Keeps reg.schema σ.Holds
      (fun heap => ∀ t h, op = .importAs t h →
        h.RecordsFit reg.schema heap)
      (op.run reg options) (GivesTyped reg.schema) := by
  cases op with
  | construct t =>
      apply Action.Keeps.map
      apply (HostType.construct_keeps t).weaken
      · exact fun heap hStart => trivial
      · intro b heap hBox
        apply givesTyped_value
        intro c hHolds
        rw [Value.holdsBox_boxed hHolds]
        exact hBox
  | exportAs t v =>
      apply Action.Keeps.map
      apply (HostType.exportAs_keeps t hAllowed).weaken
      · exact fun heap hStart => trivial
      · intro h heap hDeep
        refine ⟨by simp, ?_⟩
        intro k hMem
        rw [List.mem_singleton] at hMem
        rw [hMem]
        exact hDeep.records
  | importAs t h =>
      apply Action.Keeps.map
      apply (HostType.importAs_keeps t h).weaken
      · exact fun heap hStart => hStart t h rfl
      · exact fun v heap hBoxes => givesTyped_value hBoxes
  | field b name =>
      apply Action.Keeps.map
      apply (Box.field_keeps hAllowed name).weaken
      · exact fun heap hStart => trivial
      · intro found heap hBoxes
        refine ⟨?_, by simp⟩
        intro v hMem
        exact hBoxes v (Option.mem_toList.mp hMem)
  | set b name v =>
      apply Action.Keeps.map
      apply (Box.set_keeps hAllowed.1 hAllowed.2 name).weaken
      · exact fun heap hStart => trivial
      · intro u heap hDone
        exact ⟨by simp, by simp⟩
  | call c left right =>
      rcases hAllowed with ⟨hTarget, hLeft, hRight⟩
      apply Action.Keeps.map
      apply (Callable.call_keeps options hTarget hLeft
        hRight).weaken
      · exact fun heap hStart => trivial
      · exact fun v heap hBoxes => givesTyped_value hBoxes

namespace Session

variable {reg : Registry} {options : Options} {σ : Session}

/-
  An operation that is allowed leads from a well typed
  session to a well typed one.
-/
theorem wellTyped_perform
    {op : Operation}
    (hTyped : σ.WellTyped reg.schema)
    (hAllowed : op.IsAllowed reg.schema σ) :
    (σ.perform reg options op).WellTyped reg.schema := by
  have hReady : ∀ t h, op = .importAs t h →
      h.RecordsFit reg.schema σ.world.heap := by
    rintro t h rfl
    rcases hAllowed with hExported | hFit
    · exact hTyped.hosted h hExported
    · exact hFit
  rcases Operation.run_keeps options hAllowed σ.world hTyped.heap
      hReady with
    ⟨hEvolves, hGives⟩
  have hHosted : ∀ h ∈ σ.hosted, h.RecordsFit reg.schema
      (op.run reg options σ.world).2.heap := by
    intro h hMem
    exact (hTyped.hosted h hMem).mono hEvolves.grows
      hEvolves.idle
  have hAfter := hTyped.heap.of_evolves hEvolves
  unfold perform
  rcases hRun : op.run reg options σ.world with ⟨outcome, w⟩
  rw [hRun] at hGives hHosted hAfter
  cases outcome with
  | error e => exact ⟨hAfter, hHosted⟩
  | ok given =>
      rcases hGives given rfl with ⟨hValues, hNew⟩
      constructor
      · refine ⟨hAfter.idle, hAfter.fits, ?_⟩
        rintro b ⟨v, hMem, hHolds⟩
        rcases List.mem_append.mp hMem with hGiven | hOld
        · exact hValues v hGiven b hHolds
        · exact hAfter.boxes b ⟨v, hOld, hHolds⟩
      · intro h hMem
        rcases List.mem_append.mp hMem with hGiven | hOld
        · exact hNew h hGiven
        · exact hHosted h hOld

------------------------------------------------------------
-- Whole Sessions
------------------------------------------------------------

/- Without objects there is nothing to type. -/
theorem wellTyped_start
    {s : Schema}
    {w : World}
    (hEmpty : w.heap = .empty) :
    WellTyped s ⟨w, [], []⟩ where
  heap := by
    rw [hEmpty]
    exact {
      idle := fun h => rfl
      fits := by
        intro h
        exact HostValue.recordsFit_of_no_parts
          (by simp [Heap.content, Heap.cell, Heap.empty,
            Cell.free])
          (by simp [Heap.content, Heap.cell, Heap.empty,
            Cell.free])
      boxes := by
        rintro b ⟨v, hMem, hHolds⟩
        cases hMem }
  hosted := by simp

/-
  Type soundness: each session that can be reached is well
  typed, so that the declared fields of held boxes read what
  conforms deeply to their types, and can be written.
-/
theorem wellTyped_of_reached
    (hReached : Reached reg options σ) :
    σ.WellTyped reg.schema ∧
    ∀ b id index f,
      σ.Holds b → b.record? = some id →
      (reg.schema.fields id)[index]? = some f →
        (∃ v,
          b.readField reg.schema σ.world.heap index = .ok v ∧
          f.type.AdmitsDeeply reg.schema σ.world.heap v) ∧
        ∀ new, ∃ heap,
          b.putField reg.schema σ.world.heap index new =
            .ok heap := by
  have hTyped : σ.WellTyped reg.schema := by
    induction hReached with
    | start hEmpty => exact wellTyped_start hEmpty
    | step hBefore hAllowed ih => exact wellTyped_perform ih hAllowed
  refine ⟨hTyped, ?_⟩
  intro b id index f hHeld hRecord hField
  have hBox := hTyped.heap.boxes b hHeld
  have hType := Box.type_of_record? hRecord
  refine ⟨hBox.readField hType hField, ?_⟩
  intro new
  exact hBox.putField (hTyped.heap.idle.isWritable b.handle)
    hType hField new

/- A session that has made a segment and found its finish. -/
def withFinish : Session :=
  ((Session.mk .initial [] []).perform (.ofSchema .plane) .default
    (.construct (.record ⟨1⟩))).perform (.ofSchema .plane) .default
      (.field .segment "finish")

/- The finish is moved, and a method is called on it. -/
def withTransposed : Session :=
  (withFinish.perform (.ofSchema .plane) .default
    (.set .finish "y" (.int 9))).perform (.ofSchema .plane) .default
      (.call
        ⟨"Point.Transpose", ⟨[], [.int .i64], false⟩,
          .bound .transpose .finish⟩ none .empty)

/- Transposing a point is honest, whatever is held. -/
theorem transpose_isHonest
    (held : Box → Prop) :
    HostMethod.transpose.IsHonest .plane held
      ⟨[], [.int .i64], false⟩ (.record ⟨0⟩) := by
  intro host h args hTyped hLive hDeep hTakes
  have hRecord := hDeep.shallow
  rw [HostType.admits_record] at hRecord
  rcases HostValue.isRecordOf_iff.mp hRecord with
    ⟨values, hContent⟩
  have hFit := hDeep.records
  rw [hContent] at hFit
  rcases HostValue.recordsFit_record_iff.mp hFit with
    ⟨hSelf, hValues⟩
  cases hSelf with
  | @cons _ x _ _ hX hRest =>
      cases hRest with
      | @cons _ y _ _ hY hEnd =>
          cases hEnd
          have hSwapped :
              (HostValue.record ⟨0⟩ [y, x]).RecordsFit .plane
                host.heap := by
            apply HostValue.recordsFit_record_iff.mpr
            refine ⟨.cons hY (.cons hX .nil), ?_⟩
            intro v hMem
            apply hValues v
            simp only [List.mem_cons, List.not_mem_nil, or_false]
              at hMem ⊢
            exact hMem.symm
          have hStillPoint :
              (HostValue.record ⟨0⟩ [y, x]).isRecordOf ⟨0⟩ = true :=
            rfl
          have hEvolves :=
            hTyped.evolves_store hRecord hStillPoint hSwapped
          simp only [HostMethod.transpose, hContent]
          refine ⟨hEvolves, ?_⟩
          intro v hMem
          rw [List.mem_singleton] at hMem
          rw [hMem]
          exact (hValues x (by simp)).mono hEvolves.grows
            hEvolves.idle

/- The session with a transposed finish is well typed. -/
theorem wellTyped_of_reached_plane :
    Reached (.ofSchema .plane) .default withTransposed ∧
    withTransposed.world.heap.content ⟨0⟩ =
      .record ⟨1⟩ [.point 0 0, .point 9 0] ∧
    withTransposed.WellTyped .plane ∧
    ∃ v,
      Box.finish.readField .plane withTransposed.world.heap 0 =
        .ok v ∧
      (HostType.int .i64).AdmitsDeeply .plane
        withTransposed.world.heap v := by
  have hPlain : ∀ held, (Value.int 9).IsHonest .plane held := by
    intro held n e hWithin
    cases hWithin
  have hEmpty : ∀ held, Value.empty.IsHonest .plane held := by
    intro held n e hWithin
    cases hWithin with
    | arrayItem hMem hInside => cases hMem
  have hFinish : withFinish.Holds .finish :=
    ⟨.boxed .finish, List.mem_cons_self, .boxed (.self _)⟩
  have hFound : Reached (.ofSchema .plane) .default withFinish := by
    refine .step (.step (.start rfl) trivial) ?_
    exact ⟨.boxed .segment, List.mem_cons_self, .boxed (.self _)⟩
  have hMoved :
      Reached (.ofSchema .plane) .default
        (withFinish.perform (.ofSchema .plane) .default
          (.set .finish "y" (.int 9))) :=
    .step hFound ⟨hFinish, hPlain _⟩
  have hReached :
      Reached (.ofSchema .plane) .default withTransposed := by
    refine .step hMoved ⟨⟨hFinish, transpose_isHonest _⟩, ?_, hEmpty _⟩
    intro v hSome
    cases hSome
  rcases wellTyped_of_reached hReached with ⟨hTyped, hFields⟩
  refine ⟨hReached, rfl, hTyped, ?_⟩
  have hHeld : withTransposed.Holds .finish :=
    ⟨.boxed .finish, List.mem_cons_of_mem _ List.mem_cons_self,
      .boxed (.self _)⟩
  exact (hFields .finish ⟨0⟩ 0 ⟨"X", .int .i64⟩ hHeld rfl rfl).1

end Session

end Interop
