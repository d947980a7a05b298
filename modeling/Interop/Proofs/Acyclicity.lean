import Interop.Proofs.Typing.Run
import Interop.Proofs.Typing.SoundCalls

/-
  No cycles of references. From a world with a sound heap,
  operations in any order lead to sound heaps again, as long
  as host code is faithful and nothing is done to a stale
  box. So in every world that can be reached, following
  references comes to an end, and so do displays, also those
  of what an operation gives.

  A stale box defeats this: setting a field through one can
  make a record refer to itself, and then displaying it has
  no end.

  Main declarations:
    * `Operation.IsSafe`
    * `Operation.GivesConforming`
    * `Operation.run_endsSound`
    * `World.Reaches`
    * `Heap.DisplaysAll`
    * `World.isSound_of_reaches`
    * `World.acyclic_of_reaches`
-/

namespace Interop

------------------------------------------------------------
-- One Operation
------------------------------------------------------------

namespace Operation

/-
  Host code is faithful, host values that are imported have
  records that fit, no field is set through a stale box, and
  no method is called on one.
-/
def IsSafe
    (s : Schema)
    (options : Options)
    (w : World) : Operation → Prop
| .construct _ => True
| .exportAs _ v => v.IsFaithful s
| .importAs _ h => h.RecordsFit s w.heap.freed
| .field _ _ => True
| .set b _ v =>
    v.IsFaithful s ∧
      ∀ t : HostType, ¬ b.IsStale (t.exportAs s v w).2.heap
| .call c left right =>
    c.target.IsFaithful s c.sig ∧
      (∀ v, left = some v → v.IsFaithful s) ∧
      right.IsFaithful s ∧
      ¬ c.target.IsStale (c.marshal s options left right w).2.heap

/-
  The boxes in what an operation gives conform, and so do the
  host values, at every depth.
-/
def GivesConforming
    (s : Schema)
    (given : List Value × List HostValue)
    (heap : Heap) : Prop :=
  (∀ v ∈ given.1, v.Conforms heap) ∧
    ∀ h ∈ given.2, ∃ t : HostType, t.AdmitsDeeply s heap.freed h

/- One value is given if its boxes conform. -/
theorem givesConforming_value
    {s : Schema}
    {v : Value}
    {heap : Heap}
    (hConforms : v.Conforms heap) :
    GivesConforming s ([v], []) heap :=
  ⟨List.forall_mem_singleton.mpr hConforms, by simp⟩

/-
  An operation that is safe ends soundly, also if it fails,
  and gives what conforms.
-/
theorem run_endsSound
    {reg : Registry}
    {options : Options}
    {w : World}
    {op : Operation}
    (hSafe : op.IsSafe reg.schema options w)
    (hSound : w.heap.IsSound reg.schema) :
    Action.EndsSound reg.schema (op.run reg options) w
      (GivesConforming reg.schema) := by
  cases op with
  | construct t =>
      apply Action.EndsSound.map
      apply (HostType.construct_endsSound t hSound).weaken
      intro b heap hAfter hConforms
      apply givesConforming_value
      intro c hWithin
      cases hWithin
      exact hConforms
  | exportAs t v =>
      apply Action.EndsSound.map
      apply (HostType.exportAs_endsSound t hSafe hSound).weaken
      intro h heap hAfter hDeep
      exact ⟨by simp, List.forall_mem_singleton.mpr ⟨t, hDeep⟩⟩
  | importAs t h =>
      apply Action.EndsSound.map
      apply (HostType.importAs_endsSound t hSound hSafe).weaken
      exact fun v heap hAfter hConforms =>
        givesConforming_value hConforms
  | field b name =>
      apply Action.EndsSound.map
      apply (b.field_endsSound name hSound).weaken
      intro found heap hAfter hConforms
      refine ⟨?_, by simp⟩
      intro v hMem
      exact hConforms v (Option.mem_toList.mp hMem)
  | set b name v =>
      rcases hSafe with ⟨hFaithful, hCurrent⟩
      apply Action.EndsSound.map
      apply (Box.set_endsSound name hFaithful hCurrent
        hSound).weaken
      exact fun u heap hAfter hDone => ⟨by simp, by simp⟩
  | call c left right =>
      rcases hSafe with ⟨hTarget, hLeft, hRight, hCurrent⟩
      apply Action.EndsSound.map
      apply (Callable.call_endsSound hLeft hRight hTarget hCurrent
        hSound).weaken
      exact fun v heap hAfter hConforms =>
        givesConforming_value hConforms

end Operation

------------------------------------------------------------
-- Runs
------------------------------------------------------------

/- The worlds that safe operations lead to, from some world. -/
inductive World.Reaches
    (reg : Registry)
    (options : Options)
    (start : World) : World → Prop where
| refl :
    Reaches reg options start start
| step
    {w : World}
    (op : Operation)
    (hReaches : Reaches reg options start w)
    (hSafe : op.IsSafe reg.schema options w) :
    Reaches reg options start (op.run reg options w).2

/-
  Displaying comes to an end, with the text of what is
  displayed, for all host values that conform at every depth
  and for all boxes and values that conform.
-/
structure Heap.DisplaysAll
    (s : Schema)
    (heap : Heap) : Prop where
  hosted : ∀ (t : HostType) v limit text,
    t.AdmitsDeeply s heap.freed v →
      (v.Displays s limit heap text ↔ text = v.text s limit heap)
  boxes : ∀ (b : Box) limit text, b.Conforms heap →
    (b.Displays s limit heap text ↔ text = b.text s limit heap)
  values : ∀ (v : Value) limit text, v.Conforms heap →
    (v.Displays s limit heap text ↔ text = v.text s limit heap)

/- On a sound heap all displays come to an end. -/
theorem Heap.IsSound.displaysAll
    {s : Schema}
    {heap : Heap}
    (hSound : heap.IsSound s) :
    heap.DisplaysAll s where
  hosted _ _ _ _ hDeep := HostValue.displays_iff hSound hDeep
  boxes _ _ _ hConforms := Box.displays_iff hSound hConforms
  values _ _ _ hConforms := Value.displays_iff hSound hConforms

namespace World

variable {reg : Registry} {options : Options} {start w : World}

/- Safe operations lead from sound heaps to sound heaps. -/
theorem isSound_of_reaches
    (hSound : start.heap.IsSound reg.schema)
    (hReaches : Reaches reg options start w) :
    w.heap.IsSound reg.schema := by
  induction hReaches with
  | refl => exact hSound
  | step op hBefore hSafe ih =>
      exact (Operation.run_endsSound hSafe ih).1

/-
  There are no cycles of references. Fields mention earlier
  record types; in each world that is reached, all records
  fit, following references comes to an end, and so do
  displays; and what the next operation gives conforms, so
  that displaying it comes to an end as well.
-/
theorem acyclic_of_reaches
    (hSound : start.heap.IsSound reg.schema)
    (hReaches : Reaches reg options start w) :
    (∀ id, ∀ f ∈ reg.schema.fields id, f.type.Below id.index) ∧
    w.heap.IsSound reg.schema ∧
    w.heap.IsAcyclic ∧
    w.heap.DisplaysAll reg.schema ∧
    ∀ (op : Operation) given w',
      op.IsSafe reg.schema options w →
      op.run reg options w = (.ok given, w') →
        Operation.GivesConforming reg.schema given w'.heap ∧
        w'.heap.DisplaysAll reg.schema := by
  have hHere := isSound_of_reaches hSound hReaches
  refine ⟨?_, hHere, hHere.isAcyclic, hHere.displaysAll, ?_⟩
  · exact fun id f hMem => Schema.below_of_mem_fields hMem
  · intro op given w' hSafe hRun
    rcases Operation.run_endsSound hSafe hHere with
      ⟨hAfter, hGives⟩
    rw [hRun] at hAfter hGives
    exact ⟨hGives given rfl, hAfter.displaysAll⟩

end World

------------------------------------------------------------
-- Cells and Links
------------------------------------------------------------

/- Cells that hold a number, and links to cells. -/
def Schema.chain : Schema :=
  (Schema.empty.declare
    ⟨"Cell", [⟨"Next", .int .i64⟩]⟩
    (by decide)).declare
    ⟨"Link", [⟨"Next", .ref ⟨0⟩⟩]⟩
    (by decide)

/- Turn a link into a cell, and return a reference to it. -/
def HostMethod.close : HostMethod :=
  fun h _ host =>
    match host.heap.content h with
    | .record ⟨1⟩ _ =>
        ([.ref h],
          { host with
            heap := host.heap.store h (.record ⟨0⟩ [.int 0]) })
    | _ => ([], host)

/- What conforms to a field goes on to if cells stay cells. -/
theorem Schema.admits_of_mem_chain
    {before after : Heap}
    {id : RecordId}
    {f : Field}
    {v : HostValue}
    (hCells : ∀ k, (before.content k).isRecordOf ⟨0⟩ = true →
      (after.content k).isRecordOf ⟨0⟩ = true)
    (hMem : f ∈ Schema.chain.fields id)
    (hAdmits : f.type.admits before.freed v = true) :
    f.type.admits after.freed v = true := by
  rcases id with ⟨_ | _ | n⟩
  · cases List.mem_singleton.mp hMem
    cases v <;> exact hAdmits
  · cases List.mem_singleton.mp hMem
    cases v with
    | ref k =>
        simp only [HostType.admits, Heap.isReadable_freed,
          Heap.content_freed, Bool.true_and] at hAdmits ⊢
        exact hCells k hAdmits
    | _ => exact hAdmits
  · cases hMem

/-
  A link may be turned into a cell: fields refer to cells,
  and nothing refers to a link.
-/
theorem Heap.IsSound.store_cell
    {heap : Heap}
    {h : Handle}
    (hSound : heap.IsSound .chain)
    (hLink : (heap.content h).isRecordOf ⟨1⟩ = true) :
    (heap.store h (.record ⟨0⟩ [.int 0])).IsSound .chain := by
  have hCells : ∀ k, (heap.content k).isRecordOf ⟨0⟩ = true →
      ((heap.store h (.record ⟨0⟩ [.int 0])).content
        k).isRecordOf ⟨0⟩ = true := by
    intro k hCell
    have hNe : k ≠ h := by
      rintro rfl
      cases HostValue.isRecordOf_unique hLink hCell
    rw [content_store_of_ne hNe]
    exact hCell
  intro k
  by_cases hEq : k = h
  · rw [hEq, content_store_self (lt_size_of_isRecordOf hLink)]
    apply HostValue.recordsFit_record_iff.mpr
    refine ⟨.cons rfl .nil, ?_⟩
    intro v hMem
    cases List.mem_singleton.mp hMem
    exact HostValue.recordsFit_of_no_parts (by simp) (by simp)
  · rw [content_store_of_ne hEq]
    intro id values hWithin
    have hFits :=
      List.forall₂_iff_zip.mp (hSound k id values hWithin)
    refine List.forall₂_iff_zip.mpr ⟨hFits.1, ?_⟩
    intro f v hPair
    exact Schema.admits_of_mem_chain hCells
      (List.of_mem_zip hPair).1 (hFits.2 hPair)

/- Turning links into cells is faithful, on whole objects. -/
theorem HostMethod.close_isFaithful
    {receiver : Box}
    (hWhole : receiver.isProjection = false)
    (sig : Signature) :
    HostMethod.close.IsFaithful .chain sig receiver := by
  intro host h args hSound hReceiver hTakes
  have hOuter : ¬ receiver.isProjection = true := by
    simp [hWhole]
  unfold close
  split
  · rename_i values hContent
    have hLink : (host.heap.content h).isRecordOf ⟨1⟩ = true := by
      rw [hContent]
      rfl
    refine ⟨hSound.store_cell hLink, ?_, fun hIn => absurd hIn hOuter⟩
    intro v hMem
    cases List.mem_singleton.mp hMem
    exact HostValue.recordsFit_of_no_parts (by simp) (by simp)
  · refine ⟨hSound, ?_, fun hIn => absurd hIn hOuter⟩
    intro v hMem
    cases hMem

/- A link in the first object, whatever is there by now. -/
def Box.oldLink : Box :=
  .whole ⟨0⟩ (.record ⟨1⟩)

/- The cell that it was turned into. -/
def Box.cell : Box :=
  .whole ⟨0⟩ (.record ⟨0⟩)

/- A link in the second object. -/
def Box.link : Box :=
  .whole ⟨1⟩ (.record ⟨1⟩)

/- The method that turns a link into a cell. -/
def Callable.close : Callable :=
  ⟨"Link.Close", ⟨[], [.ref ⟨0⟩], false⟩,
    .bound .close .oldLink⟩

namespace World

/- A link was made and turned into a cell. -/
def withCell : World :=
  let made := (Operation.construct (.record ⟨1⟩)).run
    (.ofSchema .chain) .default .initial
  ((Operation.call .close none .empty).run
    (.ofSchema .chain) .default made.2).2

/- Another link was made that refers to the cell. -/
def withLink : World :=
  let made := (Operation.construct (.record ⟨1⟩)).run
    (.ofSchema .chain) .default withCell
  ((Operation.set .link "next" (.boxed .cell)).run
    (.ofSchema .chain) .default made.2).2

/- The first link is turned into a cell safely. -/
theorem reaches_withCell :
    Reaches (.ofSchema .chain) .default .initial withCell := by
  refine .step _ (.step (.construct (.record ⟨1⟩)) .refl trivial) ?_
  refine ⟨⟨HostMethod.close_isFaithful rfl _, ?_⟩, ?_, ?_, ?_⟩
  · intro hInside
    cases hInside
  · intro v hSome
    cases hSome
  · intro id e hWithin
    cases hWithin with
    | arrayItem hMem hInside => cases hMem
  · rintro ⟨v, hAt, hMisfit⟩
    cases hAt
    cases hMisfit

/- The second link is made and set safely. -/
theorem reaches_withLink :
    Reaches (.ofSchema .chain) .default .initial withLink := by
  refine .step _
    (.step (.construct (.record ⟨1⟩)) reaches_withCell trivial) ?_
  have hPlain : (Value.boxed .cell).IsPlain := by
    intro id e hWithin
    cases hWithin
  refine ⟨fun id e hWithin => absurd hWithin (hPlain id e), ?_⟩
  intro t
  rw [HostType.world_exportAs hPlain]
  rintro ⟨v, hAt, hMisfit⟩
  cases hAt
  cases hMisfit

/-
  The link refers to the cell that a link was turned into,
  and its display comes to an end.
-/
theorem acyclic_of_reaches_chain :
    World.initial.heap.IsSound .chain ∧
    Reaches (.ofSchema .chain) .default .initial withLink ∧
    withLink.heap.Refers ⟨1⟩ ⟨0⟩ ∧
    withLink.heap.IsAcyclic ∧
    Box.link.Displays .chain 10 withLink.heap
      "Link \x7bNext: &\x7bNext: 0\x7d\x7d" := by
  have hStart :
      World.initial.heap.IsSound (Registry.ofSchema .chain).schema :=
    Heap.isSound_empty .chain
  rcases acyclic_of_reaches hStart reaches_withLink with
    ⟨hEarlier, hSound, hAcyclic, hDisplays, hNext⟩
  have hRefers : withLink.heap.Refers ⟨1⟩ ⟨0⟩ :=
    ⟨⟨⟨1⟩, rfl⟩, .field List.mem_cons_self .self⟩
  have hLink : Box.link.Conforms withLink.heap := by
    apply Box.conforms_of_content (t := .record ⟨1⟩) hSound
    rfl
  refine ⟨hStart, reaches_withLink, hRefers, hAcyclic, ?_⟩
  exact (hDisplays.boxes .link 10 _ hLink).mpr (by rfl)

/-
  Through the box of the link that was turned into a cell,
  the cell is made to refer to itself. No text comes out when
  it is displayed.
-/
theorem not_acyclic_of_set_stale :
    Reaches (.ofSchema .chain) .default .initial withCell ∧
    (Value.boxed .cell).IsFaithful .chain ∧
    (Box.oldLink.set .chain "next" (.boxed .cell) withCell).1 =
      .ok () ∧
    let after :=
      (Box.oldLink.set .chain "next" (.boxed .cell) withCell).2.heap
    after.Refers ⟨0⟩ ⟨0⟩ ∧
    ¬ after.IsAcyclic ∧
    ∀ limit text, ¬ Box.cell.Displays .chain limit after text := by
  have hRefers :
      (Box.oldLink.set .chain "next" (.boxed .cell)
        withCell).2.heap.Refers ⟨0⟩ ⟨0⟩ :=
    ⟨⟨⟨0⟩, rfl⟩, .field List.mem_cons_self .self⟩
  refine ⟨reaches_withCell, ?_, rfl, hRefers, ?_, ?_⟩
  · intro id e hWithin
    cases hWithin
  · intro hAcyclic
    exact hAcyclic.no_cycle ⟨0⟩ (.single hRefers)
  · intro limit text hDisplays
    have hSelf :
        (HostValue.record ⟨0⟩ [.ref ⟨0⟩]).Mentions .chain limit ⟨0⟩ :=
      .field (f := ⟨"Next", .int .i64⟩) List.mem_cons_self .ref
    cases hDisplays with
    | lent hRead => cases hRead
    | content hRead hText =>
        cases hRead
        rcases hText with ⟨texts, hTexts, -⟩
        exact (hTexts ⟨0⟩ hSelf).not_mentions_self rfl hSelf

end World

end Interop
