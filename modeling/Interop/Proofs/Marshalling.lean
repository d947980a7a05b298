import Interop.Call
import Interop.Proofs.Agreement
import Interop.Proofs.Convert.Export

/-
  Operands and parameters. The operands of a call form a row,
  whose entries are exported one by one to the parameters in
  their places; the first entry that fails ends the call.
  What each export makes of its entry is said by
  `exportOutcomes`, which does not stop at failures.

  Main declarations:
    * `Callable.Spreads`
    * `Callable.operands`
    * `FirstFailure`
    * `Callable.exportOutcomes`
    * `Callable.exportFrom_outcome`
    * `Callable.marshal_of_row`
    * `Callable.marshal_agree`
    * `Callable.marshal_is_positional`
-/

namespace Interop

------------------------------------------------------------
-- Rows of Operands
------------------------------------------------------------

namespace Value

/- The count of dimensions; only arrays have any. -/
def rank : Value → Nat
| .array shape _ => shape.length
| _ => 0

/- The entries of a value; what is no array is one entry. -/
def elements : Value → List Value
| .array _ values => values
| v => [v]

end Value

namespace Callable

/- The right operand holds one entry for each parameter. -/
def Spreads
    (arity : Nat)
    (left : Option Value) : Prop :=
  2 ≤ arity ∧ ¬ (arity = 2 ∧ left.isSome = true)

/-
  The operands that are passed on, in the order of the
  parameters: none, the right one, the right one and then
  the left one, or the entries of the right one.
-/
def operands
    (arity : Nat)
    (left : Option Value)
    (right : Value) : List Value :=
  match arity, left with
  | 0, _ => []
  | 1, _ => [right]
  | 2, some l => [right, l]
  | _, _ => right.elements

/- An array of higher rank is not spread. -/
theorem operandRow_of_rank
    {arity : Nat}
    {left : Option Value}
    {right : Value}
    (hSpreads : Spreads arity left)
    (hRank : 1 < right.rank) :
    operandRow arity left right =
      .error (.rankTooHigh right.rank) := by
  cases right with
  | array shape values =>
      have hHigh : 1 < shape.length := hRank
      rcases arity with _ | _ | _ | n
      · exact absurd hSpreads.1 (by decide)
      · exact absurd hSpreads.1 (by decide)
      · cases left with
        | some l => exact absurd ⟨rfl, rfl⟩ hSpreads.2
        | none =>
            simp [operandRow, Arrangement.select, hHigh,
              Value.rank]
      · cases left <;>
          simp [operandRow, Arrangement.select, hHigh,
            Value.rank]
  | _ => exact absurd hRank (Nat.not_lt_zero 1)

/- What is not spread only has to be a row of right length. -/
theorem operandRow_of_not_spreads
    {arity : Nat}
    {left : Option Value}
    (hAlone : ¬ Spreads arity left)
    (right : Value) :
    operandRow arity left right =
      counted arity (operands arity left right) := by
  rcases arity with _ | _ | _ | n
  · rfl
  · rfl
  · cases left with
    | some l => rfl
    | none => exact absurd ⟨by decide, by simp⟩ hAlone
  · exact absurd ⟨by omega, by simp⟩ hAlone

/- What is spread is the row of its elements. -/
theorem operandRow_of_spreads
    {arity : Nat}
    {left : Option Value}
    {right : Value}
    (hSpreads : Spreads arity left)
    (hLow : ¬ 1 < right.rank) :
    operandRow arity left right =
      counted arity (operands arity left right) := by
  rcases arity with _ | _ | _ | n
  · exact absurd hSpreads.1 (by decide)
  · exact absurd hSpreads.1 (by decide)
  · cases left with
    | some l => exact absurd ⟨rfl, rfl⟩ hSpreads.2
    | none =>
        cases right with
        | array shape values =>
            exact if_neg hLow
        | _ => rfl
  · cases right with
    | array shape values =>
        cases left <;> exact if_neg hLow
    | _ => cases left <;> rfl

/- Operands of low rank only have to be as many as needed. -/
theorem operandRow_of_not_rank
    {arity : Nat}
    {left : Option Value}
    {right : Value}
    (hLow : ¬ (Spreads arity left ∧ 1 < right.rank)) :
    operandRow arity left right =
      counted arity (operands arity left right) := by
  by_cases hSpreads : Spreads arity left
  · apply operandRow_of_spreads hSpreads
    intro hRank
    exact hLow ⟨hSpreads, hRank⟩
  · exact operandRow_of_not_spreads hSpreads right

end Callable

------------------------------------------------------------
-- First Failures
------------------------------------------------------------

/-
  The outcome at a position is a failure, and all outcomes
  before it are results.
-/
def FirstFailure
    {α : Type}
    (outcomes : List (Except Error α))
    (k : Nat)
    (cause : Error) : Prop :=
  outcomes[k]? = some (.error cause) ∧
    ∀ j < k, ∃ a, outcomes[j]? = some (.ok a)

namespace FirstFailure

variable {α : Type} {outcomes : List (Except Error α)}
variable {k : Nat} {e cause : Error} {a : α}

/- Nothing comes before a failure at the front. -/
theorem cons_error_iff :
    FirstFailure (.error e :: outcomes) k cause ↔
      k = 0 ∧ cause = e := by
  constructor
  · intro hFirst
    cases k with
    | zero =>
        have hHead := hFirst.1
        simp only [List.getElem?_cons_zero, Option.some.injEq,
          Except.error.injEq] at hHead
        exact ⟨rfl, hHead.symm⟩
    | succ k =>
        rcases hFirst.2 0 (Nat.succ_pos k) with ⟨a, hHead⟩
        simp at hHead
  · rintro ⟨rfl, rfl⟩
    refine ⟨rfl, ?_⟩
    intro j hBefore
    exact absurd hBefore (Nat.not_lt_zero j)

/- A result at the front is passed over. -/
theorem cons_ok_iff :
    FirstFailure (.ok a :: outcomes) k cause ↔
      ∃ j, k = j + 1 ∧ FirstFailure outcomes j cause := by
  constructor
  · intro hFirst
    cases k with
    | zero => simp [FirstFailure] at hFirst
    | succ k =>
        refine ⟨k, rfl, hFirst.1, ?_⟩
        intro j hBefore
        exact hFirst.2 (j + 1) (Nat.succ_lt_succ hBefore)
  · rintro ⟨k, rfl, hAt, hBefore⟩
    refine ⟨hAt, ?_⟩
    intro j hLt
    cases j with
    | zero => exact ⟨a, rfl⟩
    | succ j => exact hBefore j (Nat.lt_of_succ_lt_succ hLt)

end FirstFailure

/-
  The results for all arguments. A failure names the argument
  that it is for, counted from one.
-/
def collectFrom
    {α : Type}
    (i : Nat)
    (outcomes : List (Except Error α)) :
    Except Error (List α) :=
  eachFrom
    (fun i (r : Except Error α) =>
      r.mapError (.argument (i + 1)))
    i outcomes

section

variable {α : Type} {outcomes : List (Except Error α)}
variable {i : Nat}

theorem collectFrom_cons_error
    (e : Error) :
    collectFrom i (.error e :: outcomes) =
      .error (.argument (i + 1) e) := rfl

theorem collectFrom_cons_ok
    (a : α) :
    collectFrom i (.ok a :: outcomes) =
      (collectFrom (i + 1) outcomes).map (a :: ·) := by
  change (collectFrom (i + 1) outcomes >>=
    fun rest => pure (a :: rest)) = _
  cases collectFrom (i + 1) outcomes <;> rfl

/- All are collected when there is no failure. -/
theorem collectFrom_eq_ok_iff
    {results : List α} :
    collectFrom i outcomes = .ok results ↔
      outcomes = results.map Except.ok := by
  induction outcomes generalizing i results with
  | nil =>
      change Except.ok [] = Except.ok results ↔ _
      cases results <;> simp
  | cons r rest ih =>
      cases r with
      | error e =>
          rw [collectFrom_cons_error]
          cases results <;> simp
      | ok a =>
          rw [collectFrom_cons_ok]
          cases results with
          | nil =>
              cases collectFrom (i + 1) rest <;>
                simp [Except.map]
          | cons b bs =>
              rw [List.map_cons, List.cons.injEq, ← ih (i := i + 1)]
              cases collectFrom (i + 1) rest <;>
                simp [Except.map]

/- Otherwise the first failure is the one that counts. -/
theorem collectFrom_eq_error_iff
    {e : Error} :
    collectFrom i outcomes = .error e ↔
      ∃ k cause, FirstFailure outcomes k cause ∧
        e = .argument (i + k + 1) cause := by
  induction outcomes generalizing i with
  | nil =>
      change Except.ok [] = Except.error e ↔ _
      simp [FirstFailure]
  | cons r rest ih =>
      cases r with
      | error cause =>
          simp only [collectFrom_cons_error, Except.error.injEq,
            FirstFailure.cons_error_iff]
          constructor
          · rintro rfl
            exact ⟨0, cause, ⟨rfl, rfl⟩, rfl⟩
          · rintro ⟨k, cause, ⟨rfl, rfl⟩, rfl⟩
            rfl
      | ok a =>
          have hRest :
              collectFrom i (.ok a :: rest) = .error e ↔
                collectFrom (i + 1) rest = .error e := by
            rw [collectFrom_cons_ok]
            cases collectFrom (i + 1) rest <;>
              simp [Except.map]
          rw [hRest, ih]
          simp only [FirstFailure.cons_ok_iff]
          constructor
          · rintro ⟨k, cause, hFirst, rfl⟩
            refine ⟨k + 1, cause, ⟨k, rfl, hFirst⟩, ?_⟩
            rw [Nat.add_right_comm i 1 k, Nat.add_assoc i k 1]
          · rintro ⟨k, cause, ⟨j, rfl, hFirst⟩, rfl⟩
            refine ⟨j, cause, hFirst, ?_⟩
            rw [Nat.add_right_comm i 1 j, Nat.add_assoc i j 1]

end

------------------------------------------------------------
-- Exporting a Row
------------------------------------------------------------

/- The event announces a call. -/
def Event.isMarshalling : Event → Bool
| .marshalling .. => true
| _ => false

/- Finding the host form changes nothing of the host. -/
def Exportable.LeavesHost (e : Exportable) : Prop :=
  ∀ host, (e.produce host).2 = host

/- An export of what leaves the host is seen in the log only. -/
theorem HostType.alike_exportAs
    {s : Schema}
    {t : HostType}
    {v : Value}
    (hLeaves :
      ∀ id e, Value.Within (.any id e) v → e.LeavesHost)
    (w : World) :
    World.Alike (fun _ => true) w (t.exportAs s v w).2 := by
  have hTrans : ∀ u v w : World,
      World.Alike (fun _ => true) u v →
      World.Alike (fun _ => true) v w →
      World.Alike (fun _ => true) u w :=
    fun _ _ _ => World.Alike.trans
  have hSteps :
      (t.exportAs s v).Steps (World.Alike fun _ => true) := by
    apply exportAs_steps .refl hTrans
    intro id e hWithin t
    apply offered_steps .refl hTrans
    · intro w
      exact ⟨(hLeaves id e hWithin w.host).symm, rfl, rfl⟩
    · intro event
      exact World.Alike.logging_hidden rfl
  exact hSteps w

namespace Callable

variable {s : Schema} {i : Nat}
variable {pairs : List (HostType × Value)}

/- Export the operand for the parameter at a position. -/
def exportArgument
    (s : Schema)
    (i : Nat)
    (p : HostType × Value) : Action HostValue :=
  Action.mapError (.argument (i + 1)) (p.1.exportAs s p.2)

/-
  What the export of each operand comes to, in the world that
  the exports before it have left.
-/
def exportOutcomes
    (s : Schema) :
    List (HostType × Value) → World →
      List (Except Error HostValue)
| [], _ => []
| p :: rest, w =>
    (p.1.exportAs s p.2 w).1 ::
      exportOutcomes s rest (p.1.exportAs s p.2 w).2

/- There is one outcome for each operand. -/
theorem length_exportOutcomes
    (s : Schema)
    (pairs : List (HostType × Value))
    (w : World) :
    (exportOutcomes s pairs w).length = pairs.length := by
  induction pairs generalizing w with
  | nil => rfl
  | cons p rest ih => simp [exportOutcomes, ih]

/- Exporting a row is collecting these outcomes. -/
theorem exportFrom_outcome
    (s : Schema)
    (i : Nat)
    (pairs : List (HostType × Value))
    (w : World) :
    (eachFrom (exportArgument s) i pairs w).1 =
      collectFrom i (exportOutcomes s pairs w) := by
  induction pairs generalizing i w with
  | nil => rfl
  | cons p rest ih =>
      rcases hFirst : p.1.exportAs s p.2 w with ⟨outcome, w₁⟩
      unfold eachFrom
      rw [Action.bind_apply, exportOutcomes, hFirst]
      cases outcome with
      | error e =>
          have hFailed :
              exportArgument s i p w =
                (.error (.argument (i + 1) e), w₁) := by
            simp [exportArgument, Action.mapError, hFirst]
          rw [hFailed, collectFrom_cons_error]
      | ok h =>
          have hExported :
              exportArgument s i p w = (.ok h, w₁) := by
            simp [exportArgument, Action.mapError, hFirst]
          rw [hExported, collectFrom_cons_ok, ← ih]
          simp only
          rw [Action.bind_apply]
          rcases eachFrom (exportArgument s) (i + 1) rest w₁ with
            ⟨outcome, w₂⟩
          cases outcome <;> rfl

/-
  When the domain values among the operands leave the host
  alone, each operand is exported as it would be by itself.
-/
theorem exportOutcomes_of_leavesHost
    (hLeaves :
      ∀ p ∈ pairs, ∀ id e,
        Value.Within (.any id e) p.2 → e.LeavesHost)
    (w : World) :
    exportOutcomes s pairs w =
      pairs.map fun p => (p.1.exportAs s p.2 w).1 := by
  induction pairs generalizing w with
  | nil => rfl
  | cons p rest ih =>
      have hAlike :
          World.Alike (fun _ => true) w
            (p.1.exportAs s p.2 w).2 :=
        HostType.alike_exportAs
          (hLeaves p List.mem_cons_self) w
      rw [exportOutcomes, List.map_cons, List.cons.injEq]
      refine ⟨rfl, ?_⟩
      rw [ih fun q hMem => hLeaves q (List.mem_cons_of_mem p hMem)]
      apply List.map_congr_left
      intro q hMem
      exact (HostType.exportAs_agree q.1 q.2 _ _ hAlike).1.symm

/- A row changes objects when its domain values do. -/
theorem heap_exportFrom
    (hLeaves :
      ∀ p ∈ pairs, ∀ id e,
        Value.Within (.any id e) p.2 → e.LeavesObjects)
    (w : World) :
    (eachFrom (exportArgument s) i pairs w).2.heap = w.heap := by
  let R : World → World → Prop := fun w w' => w'.heap = w.heap
  have hTrans : ∀ u v w, R u v → R v w → R u w := by
    intro u v w hFirst hSecond
    exact hSecond.trans hFirst
  have hSteps :
      (eachFrom (exportArgument s) i pairs).Steps R := by
    apply Action.Steps.eachFrom (R := R) (fun _ => rfl) hTrans
    intro i p hMem
    apply Action.Steps.mapError
    exact HostType.heap_exportAs (hLeaves p hMem)
  exact hSteps w

------------------------------------------------------------
-- Marshalling
------------------------------------------------------------

section

variable {options : Options} {c : Callable}
variable {left : Option Value} {right : Value}
variable {row : List Value} {w w' : World}

/- Each call is announced before its operands are looked at. -/
def announced
    (c : Callable)
    (left : Option Value)
    (w : World) : World :=
  w.logging
    [.marshalling c.name
      (Arrangement.select c.sig.arity left.isSome) c.sig.arity]

theorem announce_apply
    (c : Callable)
    (left : Option Value)
    (w : World) :
    Action.emit
        (.marshalling c.name
          (Arrangement.select c.sig.arity left.isSome)
          c.sig.arity) w =
      (.ok (), announced c left w) := rfl

/- What is logged about arguments that have been exported. -/
def argumentEvents
    (s : Schema)
    (options : Options)
    (c : Callable)
    (args : List HostValue)
    (heap : Heap) : List Event :=
  if options.traceArguments then
    let texts :=
      args.map (·.text s options.displayLimit heap)
    [.arguments c.name (", ".intercalate texts)]
  else
    []

/- The end of marshalling: log the arguments, if asked to. -/
def traced
    (s : Schema)
    (options : Options)
    (c : Callable)
    (args : List HostValue) : Action (List HostValue) := do
  if options.traceArguments then
    let texts ← Action.fromHeap fun heap =>
      .ok (args.map (·.text s options.displayLimit heap))
    Action.emit (.arguments c.name (", ".intercalate texts))
  pure args

theorem traced_apply
    (args : List HostValue)
    (w : World) :
    traced s options c args w =
      (.ok args,
        w.logging (argumentEvents s options c args w.heap)) := by
  by_cases hTrace : options.traceArguments = true
  · simp only [traced, argumentEvents, hTrace, if_true]
    rfl
  · simp [traced, argumentEvents, hTrace, World.logging]

/- Marshalling step by step. -/
theorem marshal_eq :
    c.marshal s options left right = (do
      Action.emit
        (.marshalling c.name
          (Arrangement.select c.sig.arity left.isSome)
          c.sig.arity)
      let row ←
        Action.ofExcept (operandRow c.sig.arity left right)
      let args ← exportRow s c.sig.params row
      traced s options c args) := rfl

/- Operands that form no row are not exported. -/
theorem marshal_of_row_error
    {e : Error}
    (hRow : operandRow c.sig.arity left right = .error e) :
    c.marshal s options left right w =
      (.error e, announced c left w) := by
  simp only [marshal_eq, Action.bind_apply, announce_apply,
    Action.ofExcept, hRow]

/- A row that cannot be exported ends the call. -/
theorem marshal_of_export_error
    {e : Error}
    (hRow : operandRow c.sig.arity left right = .ok row)
    (hExport :
      exportRow s c.sig.params row (announced c left w) =
        (.error e, w')) :
    c.marshal s options left right w = (.error e, w') := by
  simp only [marshal_eq, Action.bind_apply, announce_apply,
    Action.ofExcept, hRow, hExport]

/- A row that is exported is what is passed on. -/
theorem marshal_of_export_ok
    {args : List HostValue}
    (hRow : operandRow c.sig.arity left right = .ok row)
    (hExport :
      exportRow s c.sig.params row (announced c left w) =
        (.ok args, w')) :
    c.marshal s options left right w =
      (.ok args,
        w'.logging (argumentEvents s options c args w'.heap)) := by
  simp only [marshal_eq, Action.bind_apply, announce_apply,
    Action.ofExcept, hRow, hExport, traced_apply]

/-
  The outcome of a row and what it does to the host are those
  of its exports. After a failure nothing more happens.
-/
theorem marshal_of_row
    (hRow : operandRow c.sig.arity left right = .ok row) :
    let marshalled := c.marshal s options left right w
    let exported :=
      exportRow s c.sig.params row (announced c left w)
    marshalled.1 = exported.1 ∧
      marshalled.2.host = exported.2.host ∧
      ∀ e, exported.1 = .error e → marshalled = exported := by
  intro marshalled exported
  rcases hExport : exported with ⟨outcome, w₁⟩
  cases outcome with
  | ok args =>
      have hMarshal :
          marshalled =
            (.ok args,
              w₁.logging
                (argumentEvents s options c args w₁.heap)) :=
        marshal_of_export_ok hRow hExport
      rw [hMarshal]
      refine ⟨rfl, rfl, ?_⟩
      intro e hFailed
      simp at hFailed
  | error e =>
      have hMarshal : marshalled = (.error e, w₁) :=
        marshal_of_export_error hRow hExport
      rw [hMarshal]
      exact ⟨rfl, rfl, fun _ _ => rfl⟩

/- A row of the wrong length is refused before any export. -/
theorem marshal_of_count
    (hLow : ¬ (Spreads c.sig.arity left ∧ 1 < right.rank))
    (hCount :
      (operands c.sig.arity left right).length ≠ c.sig.arity) :
    c.marshal s options left right w =
      (.error
        (.count c.sig.arity
          (operands c.sig.arity left right).length),
        announced c left w) := by
  apply marshal_of_row_error
  rw [operandRow_of_not_rank hLow, counted, if_neg hCount]

/- A row of the right length is exported entry by entry. -/
theorem marshal_outcome
    (hLow : ¬ (Spreads c.sig.arity left ∧ 1 < right.rank))
    (hCount :
      (operands c.sig.arity left right).length = c.sig.arity) :
    (c.marshal s options left right w).1 =
      collectFrom 0
        (exportOutcomes s
          (c.sig.params.zip (operands c.sig.arity left right))
          (announced c left w)) := by
  have hRow :
      operandRow c.sig.arity left right =
        .ok (operands c.sig.arity left right) := by
    rw [operandRow_of_not_rank hLow, counted, if_pos hCount]
  rw [(marshal_of_row hRow).1]
  exact exportFrom_outcome s 0 _ _

/- Marshalling changes objects when domain values do. -/
theorem heap_marshal
    (hLeaves :
      ∀ v ∈ operands c.sig.arity left right, ∀ id e,
        Value.Within (.any id e) v → e.LeavesObjects) :
    (c.marshal s options left right w).2.heap = w.heap := by
  cases hRow : operandRow c.sig.arity left right with
  | error e =>
      rw [marshal_of_row_error hRow]
      rfl
  | ok row =>
      have hSame : row = operands c.sig.arity left right := by
        have hLow :
            ¬ (Spreads c.sig.arity left ∧ 1 < right.rank) := by
          rintro ⟨hSpreads, hRank⟩
          simp [operandRow_of_rank hSpreads hRank] at hRow
        rw [operandRow_of_not_rank hLow, counted] at hRow
        split at hRow
        · exact (Except.ok.inj hRow).symm
        · simp at hRow
      have hHost :
          (c.marshal s options left right w).2.host =
            (exportRow s c.sig.params row
              (announced c left w)).2.host :=
        (marshal_of_row hRow).2.1
      have hHeap :
          (exportRow s c.sig.params row
            (announced c left w)).2.heap = w.heap := by
        apply heap_exportFrom
        intro p hMem
        exact hLeaves p.2 (hSame ▸ (List.of_mem_zip hMem).2)
      exact (congrArg Host.heap hHost).trans hHeap

/- An export of a row does not depend on what was logged. -/
theorem exportRow_agree
    {hidden : Event → Bool}
    (params : List HostType)
    (row : List Value) :
    Action.Agree hidden (exportRow s params row)
      (exportRow s params row) := by
  apply Action.Agree.eachFrom
  intro i p hMem
  exact (HostType.exportAs_agree p.1 p.2).mapError

/-
  Calls agree that have the same row, but for events that are
  hidden in what they announce and in what they trace.
-/
theorem marshal_agree
    {hidden : Event → Bool}
    {options' : Options}
    {left' : Option Value}
    {right' : Value}
    (hAnnounced : ∀ w : World,
      World.Alike hidden (announced c left w)
        (announced c left' w))
    (hRow :
      operandRow c.sig.arity left right =
        operandRow c.sig.arity left' right')
    (hTraced : ∀ (args : List HostValue) heap (w : World),
      World.Alike hidden
        (w.logging (argumentEvents s options c args heap))
        (w.logging (argumentEvents s options' c args heap))) :
    Action.Agree hidden
      (c.marshal s options left right)
      (c.marshal s options' left' right') := by
  rw [marshal_eq, marshal_eq, hRow]
  refine Action.Agree.bind ?_ ?_
  · intro w w' hAlike
    rw [announce_apply, announce_apply]
    exact ⟨rfl, (hAnnounced w).trans (hAlike.logging _)⟩
  · intro u
    refine Action.Agree.bind (.ofExcept _) ?_
    intro row
    refine Action.Agree.bind (exportRow_agree _ _) ?_
    intro args w w' hAlike
    rw [traced_apply, traced_apply, ← hAlike.heap]
    exact ⟨rfl, (hTraced args w.heap w).trans (hAlike.logging _)⟩

/-
  Two operands may be given on both sides or as a vector, the
  right one first.
-/
theorem marshal_agree_vector
    (hTwo : c.sig.arity = 2)
    (l : Value) :
    Action.Agree Event.isMarshalling
      (c.marshal s options (some l) right)
      (c.marshal s options none (.vector [right, l])) := by
  apply marshal_agree
  · intro w
    exact (World.Alike.logging_hidden rfl w).symm.trans
      (World.Alike.logging_hidden rfl w)
  · rw [hTwo]
    rfl
  · intro args heap w
    exact .refl _

/-
  Operands and parameters match by position. An array of
  rank above one that would have to be spread is refused, and
  so is a row that is longer or shorter than the parameters;
  in both cases no operand is exported. Otherwise the results
  are the exports of the row, one for each parameter, or the
  failure of the first of them that fails, under its position
  counted from one. Each export starts in the world that the
  exports before it leave; when the domain values among the
  operands leave the host alone, that makes no difference.

  A call that fails here fails as a whole, whatever host code
  it is for, and nothing else happens. Objects change only
  where domain values change them.

  Two operands are as good as a vector of both.
-/
theorem marshal_is_positional
    (s : Schema)
    (options : Options)
    (c : Callable)
    (left : Option Value)
    (right : Value)
    (w : World) :
    let arity := c.sig.arity
    let row := operands arity left right
    let start := announced c left w
    let outcomes := exportOutcomes s (c.sig.params.zip row) start
    let refused := Spreads arity left ∧ 1 < right.rank
    let marshalled := c.marshal s options left right w
    (refused →
      marshalled = (.error (.rankTooHigh right.rank), start)) ∧
    (¬ refused → row.length ≠ arity →
      marshalled = (.error (.count arity row.length), start)) ∧
    (¬ refused → row.length = arity →
      outcomes.length = arity ∧
      (∀ args, marshalled.1 = .ok args ↔
        outcomes = args.map Except.ok) ∧
      ∀ e, marshalled.1 = .error e ↔
        ∃ k cause, FirstFailure outcomes k cause ∧
          e = .argument (k + 1) cause) ∧
    ((∀ v ∈ row, ∀ id e,
        Value.Within (.any id e) v → e.LeavesHost) →
      outcomes =
        (c.sig.params.zip row).map fun p =>
          (p.1.exportAs s p.2 w).1) ∧
    ((∀ v ∈ row, ∀ id e,
        Value.Within (.any id e) v → e.LeavesObjects) →
      marshalled.2.heap = w.heap) ∧
    (∀ e, marshalled.1 = .error e → ∀ target,
      Function.apply s options (.callable { c with target })
        left right w = (.error e, marshalled.2)) ∧
    (∀ l, arity = 2 → left = some l →
      let spread :=
        c.marshal s options none (.vector [right, l]) w
      marshalled.1 = spread.1 ∧
        World.Alike Event.isMarshalling marshalled.2
          spread.2) := by
  intro arity row start outcomes refused marshalled
  refine ⟨?rank, ?count, ?row, ?alone, ?objects, ?call, ?vector⟩
  case rank =>
    rintro ⟨hSpreads, hRank⟩
    exact marshal_of_row_error (operandRow_of_rank hSpreads hRank)
  case count =>
    intro hLow hCount
    exact marshal_of_count hLow hCount
  case row =>
    intro hLow hCount
    have hOutcome : marshalled.1 = collectFrom 0 outcomes :=
      marshal_outcome hLow hCount
    refine ⟨?_, ?_, ?_⟩
    · have hParams : c.sig.params.length = row.length :=
        hCount.symm
      rw [length_exportOutcomes, List.length_zip, hParams,
        Nat.min_self, hCount]
    · intro args
      rw [hOutcome]
      exact collectFrom_eq_ok_iff
    · intro e
      rw [hOutcome, collectFrom_eq_error_iff]
      simp only [Nat.zero_add]
  case alone =>
    intro hLeaves
    have hEach :
        outcomes =
          (c.sig.params.zip row).map fun p =>
            (p.1.exportAs s p.2 start).1 := by
      apply exportOutcomes_of_leavesHost
      intro p hMem
      exact hLeaves p.2 (List.of_mem_zip hMem).2
    rw [hEach]
    apply List.map_congr_left
    intro p hMem
    have hStart : World.Alike (fun _ => true) start w :=
      (World.Alike.logging_hidden rfl w).symm
    exact (HostType.exportAs_agree p.1 p.2 _ _ hStart).1
  case objects =>
    exact heap_marshal
  case call =>
    intro e hFailed target
    have hPair : marshalled = (.error e, marshalled.2) :=
      Prod.ext hFailed rfl
    change (c.marshal s options left right >>=
      invoke s { c with target }) w = _
    rw [Action.bind_apply,
      show c.marshal s options left right w = _ from hPair]
  case vector =>
    rintro l hTwo hLeft
    have hAgree :
        Action.Agree Event.isMarshalling
          (c.marshal s options (some l) right)
          (c.marshal s options none (.vector [right, l])) :=
      marshal_agree_vector hTwo l
    simp only [marshalled, hLeft]
    exact hAgree w w (.refl w)

/- Of two operands that fail the first one is named. -/
example :
    let sig : Signature := ⟨[.int .i64, .int .i8, .bool], [], false⟩
    let c : Callable := ⟨"f", sig, .free fun _ host => ([], host)⟩
    (c.marshal .empty .default none
      (.vector [.int 1, .int 300, .int 2]) .initial).1 =
        .error (.argument 2 (.conversion "integer 300" "i8")) :=
  rfl

end

end Callable

end Interop
