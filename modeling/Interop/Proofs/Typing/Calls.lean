import Interop.Call
import Interop.Proofs.Typing.Operations

/-
  Calls keep heaps well typed when the host code that they
  run is honest: given a well typed heap and arguments that
  conform deeply to the parameters, it lets the heap evolve
  and hands out records that fit. A method may count on its
  receiver conforming deeply, whether it runs on an object or
  on the copy of a record inside one.

  Main declarations:
    * `Signature.Takes`
    * `HostFunction.IsHonest`
    * `HostMethod.IsHonest`
    * `Callable.marshal_keeps`
    * `Callable.runTarget_keeps`
    * `Callable.unmarshal_keeps`
    * `Callable.call_keeps`
-/

namespace Interop

------------------------------------------------------------
-- Honest Host Code
------------------------------------------------------------

/- One argument for each parameter, conforming deeply. -/
def Signature.Takes
    (s : Schema)
    (sig : Signature)
    (args : List HostValue)
    (heap : Heap) : Prop :=
  List.Forall₂ (fun t h => t.AdmitsDeeply s heap h)
    sig.params args

/- All records in a list of host values fit. -/
def HandsOutFit
    (s : Schema)
    (outputs : List HostValue)
    (heap : Heap) : Prop :=
  ∀ h ∈ outputs, h.RecordsFit s heap

/- A host function that may be called with conforming values. -/
def HostFunction.IsHonest
    (s : Schema)
    (held : Box → Prop)
    (sig : Signature)
    (body : HostFunction) : Prop :=
  ∀ (host : Host) (args : List HostValue),
    host.heap.WellTyped s held →
    sig.Takes s args host.heap →
      let r := body args host
      Heap.Evolves s held host.heap r.2.heap ∧
        HandsOutFit s r.1 r.2.heap

/-
  A method that may be called, with conforming values, on an
  object that conforms deeply to a type.
-/
def HostMethod.IsHonest
    (s : Schema)
    (held : Box → Prop)
    (sig : Signature)
    (t : HostType)
    (body : HostMethod) : Prop :=
  ∀ (host : Host) (h : Handle) (args : List HostValue),
    host.heap.WellTyped s held →
    h.index < host.heap.size →
    t.AdmitsDeeply s host.heap (host.heap.content h) →
    sig.Takes s args host.heap →
      let r := body h args host
      Heap.Evolves s held host.heap r.2.heap ∧
        HandsOutFit s r.1 r.2.heap

/- Honest host code, on a receiver that is held. -/
def Target.IsHonest
    (s : Schema)
    (held : Box → Prop)
    (sig : Signature) : Target → Prop
| .free body => body.IsHonest s held sig
| .bound body receiver =>
    held receiver ∧ body.IsHonest s held sig receiver.type

variable {s : Schema} {held : Box → Prop}

/- Conforming arguments go on to conform. -/
theorem isStable_takes
    (sig : Signature)
    (args : List HostValue) :
    Action.IsStable s held (sig.Takes s args) := by
  intro before after hEvolves hTakes
  apply List.Forall₂.imp _ hTakes
  intro t h hDeep
  exact hDeep.mono hEvolves.grows hEvolves.idle

/- What was handed out goes on to fit. -/
theorem isStable_handsOutFit
    (outputs : List HostValue) :
    Action.IsStable s held (HandsOutFit s outputs) := by
  intro before after hEvolves hFit h hMem
  exact (hFit h hMem).mono hEvolves.grows hEvolves.idle

namespace Callable

------------------------------------------------------------
-- Arguments
------------------------------------------------------------

/- A row is counted before it is used. -/
theorem counted_eq_ok
    {arity : Nat}
    {row row' : List Value}
    (hCounted : counted arity row = .ok row') :
    row' = row ∧ row.length = arity := by
  unfold counted at hCounted
  split at hCounted
  · rename_i hLength
    cases hCounted
    exact ⟨rfl, hLength⟩
  · cases hCounted

/- Arrangements without counting have a count of their own. -/
theorem arity_of_select
    (arity : Nat)
    (hasLeft : Bool) :
    match Arrangement.select arity hasLeft with
    | .nullary => arity = 0
    | .monadic => arity = 1
    | .dyadic => arity = 2
    | .splat => True := by
  rcases arity with _ | _ | _ | n <;> cases hasLeft <;> trivial

/-
  A row has one operand for each parameter. The operands are
  the left one and what occurs in the right one.
-/
theorem operandRow_eq_ok
    {arity : Nat}
    {left : Option Value}
    {right : Value}
    {row : List Value}
    (hRow : operandRow arity left right = .ok row) :
    row.length = arity ∧
      ∀ v ∈ row, left = some v ∨ Value.Within v right := by
  have hArity := arity_of_select arity left.isSome
  unfold operandRow at hRow
  split at hRow
  · rename_i hSelect
    rw [hSelect] at hArity
    cases hRow
    exact ⟨hArity.symm, by simp⟩
  · rename_i hSelect
    rw [hSelect] at hArity
    cases hRow
    refine ⟨hArity.symm, ?_⟩
    intro v hMem
    rw [List.mem_singleton] at hMem
    exact .inr (hMem ▸ .self right)
  · rename_i l hSelect
    rw [hSelect] at hArity
    cases hRow
    refine ⟨hArity.symm, ?_⟩
    intro v hMem
    rcases List.mem_cons.mp hMem with rfl | hLast
    · exact .inr (.self v)
    · rw [List.mem_singleton] at hLast
      exact .inl (by rw [hLast])
  · split at hRow
    · rename_i shape values
      split at hRow
      · cases hRow
      · rcases counted_eq_ok hRow with ⟨rfl, hLength⟩
        refine ⟨hLength, ?_⟩
        intro v hMem
        exact .inr (.arrayItem hMem (.self v))
    · rcases counted_eq_ok hRow with ⟨rfl, hLength⟩
      refine ⟨hLength, ?_⟩
      intro v hMem
      rw [List.mem_singleton] at hMem
      exact .inr (hMem ▸ .self right)

/- A row is as long as the list of parameters. -/
theorem takes_of_row
    {sig : Signature}
    {row : List Value}
    {args : List HostValue}
    {heap : Heap}
    (hLength : row.length = sig.arity)
    (hArgs :
      List.Forall₂
        (fun (p : HostType × Value) h =>
          p.1.AdmitsDeeply s heap h)
        (sig.params.zip row) args) :
    sig.Takes s args heap := by
  have hParams : (sig.params.zip row).map Prod.fst = sig.params := by
    apply List.map_fst_zip
    rw [hLength]
    exact Nat.le_refl _
  unfold Signature.Takes
  rw [← hParams, List.forall₂_map_left_iff]
  exact hArgs

/- Exported rows conform deeply to the parameters. -/
theorem exportRow_keeps
    {sig : Signature}
    {row : List Value}
    (hLength : row.length = sig.arity)
    (hHonest : ∀ v ∈ row, v.IsHonest s held) :
    Action.Keeps s held (fun _ => True)
      (exportRow s sig.params row) (sig.Takes s) := by
  have hEach :
      Action.Keeps s held (fun _ => True)
        (exportRow s sig.params row)
        fun args heap =>
          List.Forall₂ (fun p h => p.1.AdmitsDeeply s heap h)
            (sig.params.zip row) args := by
    apply Action.Keeps.eachFrom
    · intro before after hEvolves hStart
      exact hStart
    · intro p h
      exact HostType.isStable_admitsDeeply p.1 h
    · rintro i ⟨t, v⟩ hMem
      apply Action.Keeps.mapError
      exact HostType.exportAs_keeps t
        (hHonest v (List.of_mem_zip hMem).2)
  apply hEach.weaken (fun heap h => h)
  intro args heap hArgs
  exact takes_of_row hLength hArgs

/- Arguments conform deeply to the parameters. -/
theorem marshal_keeps
    {c : Callable}
    {left : Option Value}
    {right : Value}
    (options : Options)
    (hLeft : ∀ v, left = some v → v.IsHonest s held)
    (hRight : right.IsHonest s held) :
    Action.Keeps s held (fun _ => True)
      (c.marshal s options left right) (c.sig.Takes s) := by
  have hRow :
      Action.Keeps s held (fun _ => True)
        (Action.ofExcept (operandRow c.sig.arity left right))
        fun row _ => row.length = c.sig.arity ∧
          ∀ v ∈ row, v.IsHonest s held := by
    apply Action.Keeps.ofExcept
    intro heap row hStart hOk
    rcases operandRow_eq_ok hOk with ⟨hLength, hParts⟩
    refine ⟨hLength, ?_⟩
    intro v hMem
    rcases hParts v hMem with hIsLeft | hWithin
    · exact hLeft v hIsLeft
    · exact hRight.of_within hWithin
  unfold marshal
  refine Action.Keeps.bind (Action.Keeps.emit _) ?_
  intro u
  refine Action.Keeps.bind hRow ?_
  intro row
  have hExport :
      Action.Keeps s held
        (fun _ => row.length = c.sig.arity ∧
          ∀ v ∈ row, v.IsHonest s held)
        (exportRow s c.sig.params row) (c.sig.Takes s) := by
    intro w hTyped hStart
    exact exportRow_keeps hStart.1 hStart.2 w hTyped trivial
  refine Action.Keeps.bind hExport ?_
  intro args
  have hDone :
      Action.Keeps s held (c.sig.Takes s args) (pure args)
        (c.sig.Takes s) := by
    apply Action.Keeps.pure
    intro heap hTyped hTakes
    exact hTakes
  -- the trace of the arguments changes the log only
  have hTexts :
      Action.Keeps s held (c.sig.Takes s args)
        (Action.fromHeap fun heap =>
          .ok (args.map (·.text s options.displayLimit heap)))
        fun _ => c.sig.Takes s args := by
    apply Action.Keeps.fromHeap
    intro heap texts hTyped hTakes hOk
    exact hTakes
  dsimp only
  split
  · refine Action.Keeps.bind hTexts ?_
    intro texts
    refine Action.Keeps.bind (Action.Keeps.emit _) ?_
    intro u
    exact hDone
  · exact hDone

------------------------------------------------------------
-- Runs
------------------------------------------------------------

/-
  A method on a record inside another object. The copy holds
  a record of the receiver's type before and after the run,
  so it conforms and may be stored back.
-/
theorem runOnCopy_keeps
    {sig : Signature}
    {body : HostMethod}
    {receiver : Box}
    {id : RecordId}
    (args : List HostValue)
    (hHeld : held receiver)
    (hType : receiver.type = .record id)
    (hHonest : body.IsHonest s held sig receiver.type) :
    Action.Keeps s held (sig.Takes s args)
      (runOnCopy s body receiver args) (HandsOutFit s) := by
  refine Action.Keeps.bind (Box.read_keeps hHeld) ?_
  intro content
  refine Action.Keeps.bind
    (HostType.alloc_keeps (isStable_takes sig args)) ?_
  intro scratch
  have hRun :
      Action.Keeps s held
        (fun heap => sig.Takes s args heap ∧
          scratch.index < heap.size ∧
          receiver.type.AdmitsDeeply s heap
            (heap.content scratch))
        (Action.onHost (body scratch args))
        fun outputs heap => HandsOutFit s outputs heap ∧
          (heap.content scratch).isRecordOf id = true := by
    apply Action.Keeps.onHost
    rintro host hTyped ⟨hTakes, hLive, hDeep⟩
    rcases hHonest host scratch args hTyped hLive hDeep hTakes with
      ⟨hEvolves, hFit⟩
    have hRecord := hDeep.shallow
    rw [hType, HostType.admits_record] at hRecord
    exact ⟨hEvolves, hFit, hEvolves.grows.isRecordOf hRecord⟩
  refine Action.Keeps.bind hRun ?_
  intro outputs
  have hStore (updated : HostValue) :
      Action.Keeps s held
        (fun heap => (updated.isRecordOf id = true ∧
          updated.RecordsFit s heap) ∧ HandsOutFit s outputs heap)
        (do
          Action.changeHeap (receiver.write s · updated)
          pure outputs)
        (HandsOutFit s) := by
    have hWrite := Box.write_keeps (s := s) hHeld hType updated
    refine Action.Keeps.bind
      (hWrite.frame (isStable_handsOutFit outputs)) ?_
    intro u
    apply Action.Keeps.pure
    rintro heap hTyped ⟨-, hOut⟩
    exact hOut
  -- no loan is left, so the copy can be read and has kept its type
  refine Action.Keeps.bind ?_ hStore
  apply Action.Keeps.fromHeap
  rintro heap updated hTyped ⟨hOut, hRecord⟩ hOk
  have hRead : heap.read? scratch = some (heap.content scratch) := by
    simp [Heap.read?, hTyped.idle.isReadable scratch]
  simp only [hRead, hType, HostType.admits_record, hRecord,
    if_true, Except.ok.injEq] at hOk
  subst hOk
  exact ⟨⟨hRecord, hTyped.fits scratch⟩, hOut⟩

/- Honest host code hands out what fits. -/
theorem runTarget_keeps
    {sig : Signature}
    {target : Target}
    (args : List HostValue)
    (hHonest : target.IsHonest s held sig) :
    Action.Keeps s held (sig.Takes s args)
      (runTarget s target args) (HandsOutFit s) := by
  cases target with
  | free body =>
      apply Action.Keeps.onHost
      intro host hTyped hTakes
      exact hHonest host args hTyped hTakes
  | bound body receiver =>
      rcases hHonest with ⟨hHeld, hBody⟩
      simp only [runTarget]
      split
      · rename_i hInside
        -- only records are held inside other objects
        cases hRecord : receiver.record? with
        | some id =>
            exact runOnCopy_keeps args hHeld
              (Box.type_of_record? hRecord) hBody
        | none =>
            intro w hTyped hTakes
            have hBox := hTyped.boxes receiver hHeld
            simp [Box.isProjection, hBox.whole hRecord] at hInside
      · rename_i hOwn
        apply Action.Keeps.onHost
        intro host hTyped hTakes
        have hBox := hTyped.boxes receiver hHeld
        rcases hBox.reads with ⟨v, hRead, hDeep⟩
        have hPath : receiver.path = [] := by
          simpa [Box.isProjection] using hOwn
        have hAt := (Box.read_eq_ok_iff.mp hRead).2
        rw [hPath] at hAt
        cases hAt
        exact hBody host receiver.handle args hTyped hBox.live
          hDeep hTakes

------------------------------------------------------------
-- Results
------------------------------------------------------------

/- The error slot is dropped, or the call fails. -/
theorem settle_keeps
    (c : Callable)
    (outputs : List HostValue) :
    Action.Keeps s held (HandsOutFit s outputs)
      (c.settle outputs) (HandsOutFit s) := by
  have hAll :
      Action.Keeps s held (HandsOutFit s outputs)
        (pure outputs) (HandsOutFit s) := by
    apply Action.Keeps.pure
    intro heap hTyped hOut
    exact hOut
  unfold settle
  split
  · cases hLast : outputs.getLast? with
    | none => exact Action.Keeps.fail _
    | some v =>
        cases v with
        | error fault =>
            cases fault with
            | none =>
                apply Action.Keeps.pure
                intro heap hTyped hOut h hMem
                exact hOut h (List.dropLast_subset outputs hMem)
            | some fault =>
                refine Action.Keeps.bind (Action.Keeps.emit _) ?_
                intro u
                exact Action.Keeps.fail _
        | _ => exact Action.Keeps.fail _
  · exact hAll

/- Gathered results have the boxes of the results. -/
theorem isTyped_gather
    {values : List Value}
    {heap : Heap}
    (hValues : ∀ v ∈ values, v.IsTyped s heap) :
    (gather values).IsTyped s heap := by
  unfold gather
  split
  · exact Value.isTyped_empty
  · exact hValues _ (by simp)
  · intro b hHolds
    rcases Value.holdsBox_list hHolds with ⟨v, hMem, hInside⟩
    exact hValues v hMem b hInside

/- Results that fit are imported soundly. -/
theorem importOutputs_isSound
    {returns : List HostType}
    {results : List HostValue}
    {heap heap' : Heap}
    {values : List Value}
    (hTyped : heap.WellTyped s held)
    (hFit : HandsOutFit s results heap)
    (hRun :
      importOutputs s returns results heap = .ok (values, heap')) :
    Heap.Evolves s held heap heap' ∧
      ∀ v ∈ values, v.IsTyped s heap' := by
  have hEach : ∀ (i : Nat), ∀ p ∈ returns.zip results,
      HostType.Import.IsSound s p.2 (p.1.importAs s p.2) := by
    intro i p hMem
    exact HostType.importAs_isSound p.1 p.2
  have hFits : ∀ p ∈ returns.zip results,
      p.2.RecordsFit s heap := by
    intro p hMem
    exact hFit p.2 (List.of_mem_zip hMem).2
  exact HostType.Import.IsSound.eachFrom hEach hTyped hFits hRun

/- Results are imported into good boxes. -/
theorem unmarshal_keeps
    (c : Callable)
    (outputs : List HostValue) :
    Action.Keeps s held (HandsOutFit s outputs)
      (c.unmarshal s outputs) (Value.IsTyped s) := by
  unfold unmarshal
  split
  · refine Action.Keeps.bind (settle_keeps c outputs) ?_
    intro results
    have hImport :
        Action.Keeps s held (HandsOutFit s results)
          (Action.onHeap
            (importOutputs s c.sig.returns results))
          fun values heap => ∀ v ∈ values, v.IsTyped s heap := by
      apply Action.Keeps.onHeap
      intro heap heap' values hTyped hFit hOk
      exact importOutputs_isSound hTyped hFit hOk
    refine Action.Keeps.bind hImport ?_
    intro values
    apply Action.Keeps.pure
    intro heap hTyped hValues
    exact isTyped_gather hValues
  · exact Action.Keeps.fail _

------------------------------------------------------------
-- Calls
------------------------------------------------------------

/- A call of honest host code makes good boxes. -/
theorem call_keeps
    {c : Callable}
    {left : Option Value}
    {right : Value}
    (options : Options)
    (hTarget : c.target.IsHonest s held c.sig)
    (hLeft : ∀ v, left = some v → v.IsHonest s held)
    (hRight : right.IsHonest s held) :
    Action.Keeps s held (fun _ => True)
      (c.call s options left right) (Value.IsTyped s) := by
  refine Action.Keeps.bind (marshal_keeps options hLeft hRight) ?_
  intro args
  refine Action.Keeps.bind (runTarget_keeps args hTarget) ?_
  intro outputs
  exact unmarshal_keeps c outputs

end Callable

end Interop
