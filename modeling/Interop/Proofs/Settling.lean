import Interop.Proofs.Convert.Acceptance
import Interop.Proofs.Marshalling
import Interop.Proofs.Projection
import Interop.Proofs.Running

/-
  What the outputs of host code make of a call. They are
  counted first; then the error slot, if there is one, is
  read; only then the results before it are imported, one by
  one, and the first import that fails ends the call.

  Outputs are looked at when there are any. A method on a
  record inside another object runs on a copy, and when the
  record cannot be copied or the copy cannot be stored back,
  the call fails with that, whatever the method handed back.

  Main declarations:
    * `Callable.Gathers`
    * `Callable.importOutcomes`
    * `Callable.SlotIsClear`
    * `Callable.importFrom_eq_error_iff`
    * `Callable.invoke_settles`
-/

namespace Interop

namespace Callable

variable {s : Schema} {c : Callable} {w w' : World}

------------------------------------------------------------
-- Importing Results
------------------------------------------------------------

/-
  The results of a call as one value: the empty value, the
  only result, or a list of all.
-/
inductive Gathers : List Value → Value → Prop where
| none :
    Gathers [] .empty
| one
    (v : Value) :
    Gathers [v] v
| several
    {values : List Value}
    (hMany : 2 ≤ values.length) :
    Gathers values (.list values)

/- Results are gathered in one way. -/
theorem gathers_iff
    {values : List Value}
    {v : Value} :
    Gathers values v ↔ v = gather values := by
  constructor
  · intro hGathers
    cases hGathers with
    | none => rfl
    | one v => rfl
    | several hMany =>
        rcases values with _ | ⟨a, _ | ⟨b, rest⟩⟩
        · exact absurd hMany (by decide)
        · exact absurd hMany (by simp)
        · rfl
  · rintro rfl
    rcases values with _ | ⟨a, _ | ⟨b, rest⟩⟩
    · exact .none
    · exact .one a
    · exact .several (by simp)

/- Import one output by the type that it is declared with. -/
abbrev importOutput
    (s : Schema)
    (_ : Nat)
    (p : HostType × HostValue) : HostType.Import Value :=
  p.1.importAs s p.2

/-
  What the import of each output comes to, in the heap that
  the imports before it have left. A failing import leaves
  the heap as it was.
-/
def importOutcomes
    (s : Schema) :
    List (HostType × HostValue) → Heap →
      List (Except Error Value)
| [], _ => []
| p :: rest, heap =>
    match p.1.importAs s p.2 heap with
    | .ok (v, heap') => .ok v :: importOutcomes s rest heap'
    | .error e => .error e :: importOutcomes s rest heap

variable {heap : Heap} {pairs : List (HostType × HostValue)}

/- There is one outcome for each output. -/
theorem length_importOutcomes
    (s : Schema)
    (pairs : List (HostType × HostValue))
    (heap : Heap) :
    (importOutcomes s pairs heap).length = pairs.length := by
  induction pairs generalizing heap with
  | nil => rfl
  | cons p rest ih =>
      unfold importOutcomes
      split <;> simp [ih]

/- All outputs are imported when no outcome is a failure. -/
theorem importFrom_eq_ok_iff
    {i : Nat}
    {values : List Value} :
    (∃ heap', eachFrom (importOutput s) i pairs heap =
        .ok (values, heap')) ↔
      importOutcomes s pairs heap = values.map Except.ok := by
  induction pairs generalizing i heap values with
  | nil =>
      constructor
      · rintro ⟨heap', hRun⟩
        cases hRun
        rfl
      · intro hOutcomes
        cases values with
        | nil => exact ⟨heap, rfl⟩
        | cons v rest => cases hOutcomes
  | cons p rest ih =>
      simp only [HostType.Import.eachFrom_cons_eq_ok_iff]
      unfold importOutcomes
      cases hFirst : p.1.importAs s p.2 heap with
      | error e =>
          simp only [hFirst, reduceCtorEq, false_and, exists_false,
            false_iff]
          cases values <;> simp
      | ok r =>
          rcases r with ⟨v, mid⟩
          constructor
          · rintro ⟨heap', b, bs, mid', hSame, hRest, rfl⟩
            cases hFirst.symm.trans hSame
            simp only [List.map_cons]
            rw [ih.mp ⟨heap', hRest⟩]
          · intro hOutcomes
            cases values with
            | nil => cases hOutcomes
            | cons b bs =>
                simp only [List.map_cons, List.cons.injEq,
                  Except.ok.injEq] at hOutcomes
                rcases hOutcomes with ⟨rfl, hRest⟩
                rcases ih.mpr hRest with ⟨heap', hRun⟩
                exact ⟨heap', v, bs, mid, hFirst, hRun, rfl⟩

/- Otherwise the first failure is the one that counts. -/
theorem importFrom_eq_error_iff
    {i : Nat}
    {e : Error} :
    eachFrom (importOutput s) i pairs heap = .error e ↔
      ∃ k, FirstFailure (importOutcomes s pairs heap) k e := by
  induction pairs generalizing i heap with
  | nil =>
      constructor
      · intro hRun
        cases hRun
      · rintro ⟨k, hAt, hBefore⟩
        cases hAt
  | cons p rest ih =>
      rw [HostType.Import.eachFrom_cons_eq_error_iff]
      unfold importOutcomes
      cases hFirst : p.1.importAs s p.2 heap with
      | error cause =>
          have hOutput : importOutput s i p heap = .error cause :=
            hFirst
          simp only [hOutput, FirstFailure.cons_error_iff,
            reduceCtorEq, false_and, exists_false, or_false,
            exists_eq_left, Except.error.injEq]
          exact eq_comm
      | ok r =>
          rcases r with ⟨v, mid⟩
          have hOutput : importOutput s i p heap = .ok (v, mid) :=
            hFirst
          simp only [hOutput, FirstFailure.cons_ok_iff,
            reduceCtorEq, false_or, Except.ok.injEq,
            Prod.mk.injEq]
          constructor
          · rintro ⟨b, mid', ⟨rfl, rfl⟩, hRest⟩
            rcases ih.mp hRest with ⟨k, hFails⟩
            exact ⟨k + 1, k, rfl, hFails⟩
          · rintro ⟨k, j, rfl, hFails⟩
            exact ⟨v, mid, ⟨rfl, rfl⟩, ih.mpr ⟨j, hFails⟩⟩

/-
  What the imports of other outputs have added does not
  matter to the import of an output that refers to objects
  the host code has left.
-/
theorem importOutcomes_alone
    {k : Nat}
    {p : HostType × HostValue}
    {e : Error}
    (hAt : pairs[k]? = some p)
    (hRefers : p.2.RefersWithin heap) :
    (importOutcomes s pairs heap)[k]? = some (.error e) ↔
      p.1.importAs s p.2 heap = .error e := by
  suffices hLater : ∀ later : Heap, heap.cells <+: later.cells →
      ((importOutcomes s pairs later)[k]? = some (.error e) ↔
        p.1.importAs s p.2 heap = .error e) from
    hLater heap (List.prefix_refl _)
  induction pairs generalizing k with
  | nil => cases hAt
  | cons q rest ih =>
      intro later hGrown
      have hSame :
          p.1.importAs s p.2 later = .error e ↔
            p.1.importAs s p.2 heap = .error e :=
        ⟨HostType.importAs_fails_alike hRefers hGrown
            (List.prefix_refl _),
          HostType.importAs_fails_alike hRefers
            (List.prefix_refl _) hGrown⟩
      unfold importOutcomes
      cases k with
      | zero =>
          cases hAt
          rw [← hSame]
          cases hFirst : p.1.importAs s p.2 later with
          | error cause => simp
          | ok r => simp
      | succ k =>
          have hRest : rest[k]? = some p := hAt
          cases hFirst : q.1.importAs s q.2 later with
          | error cause => exact ih hRest later hGrown
          | ok r =>
              have hAdds :=
                (HostType.importAs_isLocal q.1 q.2).adds hFirst
              exact ih hRest r.2 (hGrown.trans hAdds)

------------------------------------------------------------
-- Reading Outputs
------------------------------------------------------------

variable {outputs results : List HostValue}

/- Outputs are counted before they are looked at. -/
theorem unmarshal_of_count
    (hCount : outputs.length ≠ c.sig.outputSlots) :
    c.unmarshal s outputs w =
      (.error
        (.returnMismatch c.name c.sig.outputSlots
          outputs.length), w) :=
  congrFun (if_neg hCount) w

/- Outputs of the right count are settled, then imported. -/
theorem unmarshal_of_slots
    (hCount : outputs.length = c.sig.outputSlots) :
    c.unmarshal s outputs = (do
      let results ← c.settle outputs
      let values ←
        Action.onHeap (importOutputs s c.sig.returns results)
      pure (gather values)) :=
  if_pos hCount

/- The slot is read before the results. -/
theorem unmarshal_of_settle_error
    {e : Error}
    (hCount : outputs.length = c.sig.outputSlots)
    (hSettle : c.settle outputs w = (.error e, w')) :
    c.unmarshal s outputs w = (.error e, w') := by
  rw [unmarshal_of_slots hCount, Action.bind_apply, hSettle]

/- A fault in the slot fails the call and is logged. -/
theorem unmarshal_of_fault
    {fault : Fault}
    (hCount : outputs.length = c.sig.outputSlots)
    (hFallible : c.sig.fallible = true)
    (hLast : outputs.getLast? = some (.error (some fault))) :
    c.unmarshal s outputs w =
      (.error (.host fault),
        w.logging [.hostFailed c.name fault.text]) := by
  apply unmarshal_of_settle_error hCount
  simp only [settle, hFallible, if_true, hLast]
  rfl

/- So does what is no error. -/
theorem unmarshal_of_foreign
    {last : HostValue}
    (hCount : outputs.length = c.sig.outputSlots)
    (hFallible : c.sig.fallible = true)
    (hLast : outputs.getLast? = some last)
    (hForeign : ∀ fault, last ≠ .error fault) :
    c.unmarshal s outputs w =
      (.error
        (.conversion ("host " ++ last.kindName) "error"), w) := by
  apply unmarshal_of_settle_error hCount
  simp only [settle, hFallible, if_true, hLast]
  cases last with
  | error fault => exact absurd rfl (hForeign fault)
  | _ => rfl

/- The error slot, if there is one, says nothing. -/
def SlotIsClear
    (sig : Signature)
    (outputs : List HostValue) : Prop :=
  sig.fallible = true → outputs.getLast? = some (.error none)

/- A slot that is clear leaves one result for each return. -/
theorem settle_of_clear
    (hCount : outputs.length = c.sig.outputSlots)
    (hClear : SlotIsClear c.sig outputs) :
    ∃ results, c.settle outputs = pure results ∧
      c.sig.returns.zip results = c.sig.returns.zip outputs := by
  unfold settle
  by_cases hFallible : c.sig.fallible = true
  · have hLast := hClear hFallible
    rcases List.getLast?_eq_some_iff.mp hLast with
      ⟨results, rfl⟩
    have hLength : c.sig.returns.length = results.length := by
      simpa [Signature.outputSlots, hFallible] using hCount.symm
    refine ⟨results, ?_, ?_⟩
    · simp only [hFallible, if_true, hLast,
        List.dropLast_concat]
    · conv => rhs; rw [← List.append_nil c.sig.returns]
      rw [List.zip_append hLength, List.zip_nil_left,
        List.append_nil]
  · exact ⟨outputs, if_neg hFallible, rfl⟩

/- Then the call comes to one import of all of them. -/
theorem unmarshal_of_clear
    (hCount : outputs.length = c.sig.outputSlots)
    (hClear : SlotIsClear c.sig outputs) :
    c.unmarshal s outputs w =
      Action.onHeap
        (eachFrom (importOutput s) 0
            (c.sig.returns.zip outputs) >>=
          fun values => pure (gather values)) w := by
  rcases settle_of_clear hCount hClear with
    ⟨results, hSettle, hPairs⟩
  rw [unmarshal_of_slots hCount, hSettle, pure_bind, ← hPairs]
  exact Action.onHeap_map gather _ w

/-
  The results of a call that did not fail: it succeeds when
  all of them are imported and fails with the first one that
  is not, as it is. A failure undoes the imports before it.
-/
theorem unmarshal_results
    (s : Schema)
    (w : World)
    (hCount : outputs.length = c.sig.outputSlots)
    (hClear : SlotIsClear c.sig outputs) :
    let pairs := c.sig.returns.zip outputs
    let outcomes := importOutcomes s pairs w.heap
    let done := c.unmarshal s outputs w
    outcomes.length = c.sig.returns.length ∧
    (∀ v, done.1 = .ok v ↔
      ∃ values, outcomes = values.map Except.ok ∧
        Gathers values v) ∧
    (∀ e, done.1 = .error e ↔
      ∃ k, FirstFailure outcomes k e) ∧
    (∀ e, done.1 = .error e → done.2 = w) ∧
    done.2 = w.withHeap done.2.heap ∧
    w.heap.cells <+: done.2.heap.cells := by
  intro pairs outcomes done
  let importAll := eachFrom (importOutput s) 0 pairs
  have hDone :
      done =
        Action.onHeap
          (importAll >>= fun values => pure (gather values)) w :=
    unmarshal_of_clear hCount hClear
  have hOk (values : List Value) :
      (∃ heap', importAll w.heap = .ok (values, heap')) ↔
        outcomes = values.map Except.ok :=
    importFrom_eq_ok_iff
  have hError (e : Error) :
      importAll w.heap = .error e ↔
        ∃ k, FirstFailure outcomes k e :=
    importFrom_eq_error_iff
  have hLength : outcomes.length = c.sig.returns.length := by
    rw [length_importOutcomes, List.length_zip, hCount]
    exact Nat.min_eq_left (Nat.le_add_right _ _)
  have hAdds : w.heap.cells <+: done.2.heap.cells :=
    unmarshal_adds c _ w
  cases hImport : importAll w.heap with
  | error cause =>
      have hEnd : done = (.error cause, w) := by
        rw [hDone]
        apply Action.onHeap_of_error
        exact HostType.Import.map_eq_error_iff.mpr hImport
      refine ⟨hLength, ?_, ?_, ?_, ?_, hAdds⟩
      · intro v
        simp only [hEnd, reduceCtorEq, false_iff]
        rintro ⟨values, hAll, hGathers⟩
        rcases (hOk values).mpr hAll with ⟨heap', hRun⟩
        cases hImport.symm.trans hRun
      · intro e
        rw [← hError, hImport, hEnd]
        simp
      · intro e hFails
        rw [hEnd]
      · rw [hEnd]
        rfl
  | ok r =>
      rcases r with ⟨values, heap'⟩
      have hAll : outcomes = values.map Except.ok :=
        (hOk values).mp ⟨heap', hImport⟩
      have hEnd : done = (.ok (gather values), w.withHeap heap') := by
        rw [hDone, ← Action.onHeap_map, Action.bind_apply,
          Action.onHeap_of_ok hImport]
        rfl
      refine ⟨hLength, ?_, ?_, ?_, ?_, hAdds⟩
      · intro v
        simp only [hEnd, Except.ok.injEq]
        constructor
        · rintro rfl
          exact ⟨values, hAll, gathers_iff.mpr rfl⟩
        · rintro ⟨values', hAll', hGathers⟩
          rcases (hOk values').mpr hAll' with ⟨last, hRun⟩
          cases hImport.symm.trans hRun
          exact (gathers_iff.mp hGathers).symm
      · intro e
        rw [← hError, hImport, hEnd]
        simp
      · intro e hFails
        rw [hEnd] at hFails
        cases hFails
      · rw [hEnd]
        rfl

------------------------------------------------------------
-- Settling Calls
------------------------------------------------------------

/- A run without outputs is the end of the call. -/
theorem invoke_of_runTarget_error
    {args : List HostValue}
    {e : Error}
    (hRun : runTarget s c.target args w = (.error e, w')) :
    c.invoke s args w = (.error e, w') := by
  change (runTarget s c.target args >>= c.unmarshal s) w = _
  rw [Action.bind_apply, hRun]

/-
  The outputs decide how a call ends, whatever they are and
  whatever the signature says. When there are more or fewer
  than declared, the call fails with both counts, even if the
  last one is a fault. Otherwise a fault in the error slot
  fails the call with that fault, and what is in the slot but
  is no error fails it as well; in both cases nothing is
  imported. Otherwise the results, one for each return, are
  imported in order: the call succeeds when all of them are,
  with the empty value, the only result or the list of all,
  and fails with the failure of the first that is not, as it
  is. Then the imports before it have added no object either.
  A result that refers to objects which the host code has
  left is imported as it would be by itself.

  There are outputs unless the callable is a method on a
  record inside another object. Then its call fails as well
  exactly when the record cannot be copied, or the copy is
  lent, does not fit any more or cannot be stored back; that
  failure comes before all of these, whatever the method has
  handed back.
-/
theorem invoke_settles
    (s : Schema)
    (c : Callable)
    (args : List HostValue)
    (w : World) :
    let run := runTarget s c.target args w
    let called := c.invoke s args w
    let ran := run.2
    (∀ e w', run = (.error e, w') ↔
      ∃ body b, c.target = .bound body b ∧
        b.isProjection = true ∧
        CopyFails s body b args w e w') ∧
    (∀ outputs w', run = (.ok outputs, w') ↔
      HandsBack s args w c.target outputs w') ∧
    (∀ e, run.1 = .error e → called = (.error e, ran)) ∧
    ∀ outputs, run.1 = .ok outputs →
      (outputs.length ≠ c.sig.outputSlots →
        called =
          (.error
            (.returnMismatch c.name c.sig.outputSlots
              outputs.length), ran)) ∧
      (outputs.length = c.sig.outputSlots →
        (c.sig.fallible = true →
          (∀ fault,
            outputs.getLast? = some (.error (some fault)) →
            called =
              (.error (.host fault),
                ran.logging
                  [.hostFailed c.name fault.text])) ∧
          ∀ last, outputs.getLast? = some last →
            (∀ fault, last ≠ .error fault) →
            called =
              (.error
                (.conversion ("host " ++ last.kindName)
                  "error"), ran)) ∧
        (SlotIsClear c.sig outputs →
          let pairs := c.sig.returns.zip outputs
          let outcomes := importOutcomes s pairs ran.heap
          outcomes.length = c.sig.returns.length ∧
          (∀ v, called.1 = .ok v ↔
            ∃ values, outcomes = values.map Except.ok ∧
              Gathers values v) ∧
          (∀ e, called.1 = .error e ↔
            ∃ k, FirstFailure outcomes k e) ∧
          (∀ e, called.1 = .error e → called.2 = ran) ∧
          called.2 = ran.withHeap called.2.heap ∧
          ran.heap.cells <+: called.2.heap.cells ∧
          ∀ (k : Nat) p, pairs[k]? = some p →
            p.2.RefersWithin ran.heap →
            ∀ e, outcomes[k]? = some (.error e) ↔
              p.1.importAs s p.2 ran.heap = .error e)) := by
  intro run called ran
  refine ⟨fun e w' => runTarget_eq_error_iff,
    fun outputs w' => runTarget_eq_ok_iff, ?stopped, ?ended⟩
  case stopped =>
    intro e hFails
    exact invoke_of_runTarget_error (Prod.ext hFails rfl)
  case ended =>
    intro outputs hEnds
    have hRun : runTarget s c.target args w = (.ok outputs, ran) :=
      Prod.ext hEnds rfl
    have hCalled : called = c.unmarshal s outputs ran := by
      change (runTarget s c.target args >>= c.unmarshal s) w = _
      rw [Action.bind_apply, hRun]
    rw [hCalled]
    refine ⟨unmarshal_of_count, ?_⟩
    intro hCount
    refine ⟨?slot, ?results⟩
    case slot =>
      intro hFallible
      refine ⟨?_, ?_⟩
      · intro fault hLast
        exact unmarshal_of_fault hCount hFallible hLast
      · intro last hLast hForeign
        exact unmarshal_of_foreign hCount hFallible hLast hForeign
    case results =>
      intro hClear pairs outcomes
      rcases unmarshal_results s ran hCount hClear with
        ⟨hLength, hOk, hError, hUndone, hWorld, hAdds⟩
      refine ⟨hLength, hOk, hError, hUndone, hWorld, hAdds, ?_⟩
      intro k p hAt hRefers e
      exact importOutcomes_alone hAt hRefers

/-
  A method on the finish of a segment hands back a fault, but
  has its copy of the point overwritten with no record at
  all. The call fails with that, and the fault is dropped.
-/
theorem invoke_of_spoiled_finish :
    let fault : Fault := ⟨0, ⟨"boom", []⟩⟩
    let spoil : HostMethod := fun h _ host =>
      ([.error (some fault)],
        { host with heap := host.heap.store h .nil })
    let c : Callable :=
      ⟨"Point.Spoil", ⟨[], [], true⟩, .bound spoil .finish⟩
    let outputs :=
      (spoil World.withSegment.heap.next []
        (World.withSegment.host.alloc (.point 3 4)).2).1
    outputs.length = c.sig.outputSlots ∧
      outputs.getLast? = some (.error (some fault)) ∧
      (c.invoke .plane [] .withSegment).1 =
        .error (.conversion "host nil" "Point") :=
  ⟨rfl, rfl, rfl⟩

end Callable

end Interop
