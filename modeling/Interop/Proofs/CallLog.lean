import Interop.Proofs.Convert.Failures
import Interop.Proofs.Plane
import Interop.Proofs.Settling

/-
  What a call logs. A call is announced; a domain value that
  has a host form which does not fit is logged when it is
  what the call fails with; the arguments are logged when
  that is asked for; and a fault in the error slot is logged.

  Host forms that do not fit are met deep inside the arrays
  that are exported, before it is known how the call ends. So
  a conversion that fails is followed down to the conversion
  it fails with, whose value and type are at the end of the
  positions in the failure. All conversions before it succeed
  and log nothing, and nothing comes after it.

  Main declarations:
    * `Event.entry`
    * `Attempt.FailsIn`
    * `Attempt.FailsIn.run`
    * `Attempt.FailsIn.unique`
    * `Attempt.exists_failsIn`
    * `Callable.FailsInOperand`
    * `Callable.marshal_eq_error_iff`
    * `Callable.apply_logs`
-/

namespace Interop

------------------------------------------------------------
-- Entries
------------------------------------------------------------

namespace Event

/- What is written of an event: level, message, details. -/
abbrev Entry : Type :=
  Level × String × List (String × String)

/- An event as it is written. -/
def entry (event : Event) : Entry :=
  (event.level, event.message, event.details)

end Event

/- Positions do not change what a failure comes down to. -/
theorem Error.root_along
    (path : List Nat)
    (cause : Error) :
    (cause.along path).root = cause.root := by
  induction path with
  | nil => rfl
  | cons i path ih => exact ih

/- Nothing has been logged in between. -/
def World.SameLog (w w' : World) : Prop :=
  w'.log = w.log

namespace World.SameLog

variable {u v w : World}

theorem refl
    (w : World) :
    SameLog w w := rfl

theorem trans
    (u v w : World)
    (hFirst : SameLog u v)
    (hSecond : SameLog v w) :
    SameLog u w :=
  Eq.trans hSecond hFirst

end World.SameLog

------------------------------------------------------------
-- Conversions of Single Values
------------------------------------------------------------

/- A value that is converted to a type, and when. -/
structure Attempt where
  type : HostType
  value : Value
  world : World

namespace Attempt

variable {s : Schema} {a : Attempt}

/- Convert the value. -/
def run
    (s : Schema)
    (a : Attempt) : Except Error HostValue × World :=
  a.type.exportAs s a.value a.world

/- The conversion goes on with elements of the value. -/
def Descends (a : Attempt) : Prop :=
  ∃ elem shape values,
    a.type = .seq elem ∧ a.value = .array shape values

/-
  What is logged of a value with a host form that does not
  fit.
-/
def misfits
    (s : Schema)
    (a : Attempt) : List Event :=
  match a.value with
  | .any _ x =>
      match (x.produce a.world.host).1 with
      | some form =>
          [.misfit x.typeName form.kindName (a.type.text s)]
      | none => []
  | _ => []

/- There is one exactly when a host form has been found. -/
theorem mem_entries_misfits_iff
    {entry : Event.Entry} :
    entry ∈ (a.misfits s).map Event.entry ↔
      ∃ id x form,
        a.value = .any id x ∧
        (x.produce a.world.host).1 = some form ∧
        entry =
          (.trace,
            x.typeName ++ " exported a " ++ form.kindName ++
              ", which does not fit " ++ a.type.text s,
            []) := by
  rcases a with ⟨t, v, w⟩
  cases v with
  | any id x =>
      simp only [misfits]
      cases hForm : (x.produce w.host).1 with
      | none =>
          simp only [List.map_nil, List.not_mem_nil, false_iff]
          rintro ⟨id', x', form, hValue, hSome, -⟩
          cases hValue
          cases hForm.symm.trans hSome
      | some form =>
          rw [List.map_singleton, List.mem_singleton]
          constructor
          · rintro rfl
            exact ⟨id, x, form, rfl, hForm, rfl⟩
          · rintro ⟨id', x', form', hValue, hSome, rfl⟩
            cases hValue
            cases hForm.symm.trans hSome
            rfl
  | _ =>
      simp only [misfits, List.map_nil, List.not_mem_nil, false_iff]
      rintro ⟨id, x, form, hValue, -⟩
      cases hValue

/- A value is logged at most once. -/
theorem length_misfits_le
    (s : Schema)
    (a : Attempt) :
    (a.misfits s).length ≤ 1 := by
  unfold misfits
  split
  · split <;> simp
  · simp

end Attempt

namespace HostType

variable {s : Schema} {t : HostType} {v : Value}
variable {w w' : World} {e : Error}

/- What is offered ends the conversion, and is not logged. -/
theorem exportAs_of_offered
    {h : HostValue}
    (hOffer : t.offered s v w = (.ok (some h), w')) :
    t.exportAs s v w = (.ok h, w') ∧ w'.log = w.log := by
  constructor
  · by_cases hSeq : ∃ elem, t = .seq elem
    · rcases hSeq with ⟨elem, rfl⟩
      rcases offered_eq_some hOffer with ⟨id, x, form, rfl, -⟩
      rw [exportAs_seq_any, Action.bind_apply, hOffer]
      rfl
    · rw [exportAs_of_ne_seq (not_exists.mp hSeq),
        Action.bind_apply, hOffer]
      rfl
  · rcases offered_eq_some hOffer with
      ⟨id, x, form, -, -, -, rfl⟩
    rfl

/- When nothing is offered, a host form that was found is. -/
theorem log_of_not_offered
    (hOffer : t.offered s v w = (.ok none, w')) :
    w'.log = w.log ++ (Attempt.mk t v w).misfits s := by
  cases v with
  | any id x =>
      simp only [offered, Action.bind_apply, Action.onHost]
        at hOffer
      cases hForm : (x.produce w.host).1 with
      | none =>
          rw [hForm] at hOffer
          cases hOffer
          simp [Attempt.misfits, hForm]
      | some form =>
          simp only [hForm, Action.bind_apply,
            Action.fromHeap_apply] at hOffer
          cases hFit : t.fit (x.produce w.host).2.heap form with
          | none =>
              simp only [hFit] at hOffer
              cases hOffer
              simp [Attempt.misfits, hForm]
          | some fitted =>
              simp only [hFit] at hOffer
              cases hOffer
  | _ =>
      cases hOffer
      simp [Attempt.misfits]

/-
  Then the value is converted by the rule of its type, and
  fails for a reason of its own.
-/
theorem exportAs_of_not_offered
    (hSingle : ¬ (Attempt.mk t v w).Descends)
    (hOffer : t.offered s v w = (.ok none, w')) :
    ∃ outcome, t.exportAs s v w = (outcome, w') ∧
      ∀ e, outcome = .error e → e.IsBare := by
  by_cases hSeq : ∃ elem, t = .seq elem
  · rcases hSeq with ⟨elem, rfl⟩
    have hMisfit (got want : String) (e : Error)
        (hSame :
          (.error (.conversion got want) : Except Error HostValue) =
            .error e) :
        e.IsBare := by
      cases hSame
      exact Error.isBare_conversion got want
    cases v with
    | array shape values =>
        exact absurd ⟨elem, shape, values, rfl, rfl⟩ hSingle
    | any id x =>
        rw [exportAs_seq_any, Action.bind_apply, hOffer]
        exact ⟨_, rfl, hMisfit _ _⟩
    | _ =>
        cases hOffer
        exact ⟨_, rfl, hMisfit _ _⟩
  · rw [exportAs_of_ne_seq (not_exists.mp hSeq),
      Action.bind_apply, hOffer]
    refine ⟨t.exportPlain s w'.heap v, rfl, ?_⟩
    intro e hFails
    cases refuses_of_exportPlain hFails with
    | misfit got want => exact Error.isBare_conversion got want
    | unsupported kind => exact Error.isBare_unsupported kind
    | unread hValue hRead => exact Box.isBare_of_read hRead

/- The one entry of a value that fails by itself. -/
theorem exportAs_fails_single
    (hSingle : ¬ (Attempt.mk t v w).Descends)
    (hFails : t.exportAs s v w = (.error e, w')) :
    e.IsBare ∧
      w'.log = w.log ++ (Attempt.mk t v w).misfits s := by
  rcases hOffer : t.offered s v w with ⟨outcome, w₁⟩
  rcases isOk_offered (s := s) t v w with ⟨found, hFound⟩
  rw [hOffer] at hFound
  cases hFound
  cases found with
  | some h =>
      cases hFails.symm.trans (exportAs_of_offered hOffer).1
  | none =>
      rcases exportAs_of_not_offered hSingle hOffer with
        ⟨outcome, hEnds, hBare⟩
      cases hFails.symm.trans hEnds
      exact ⟨hBare e rfl, log_of_not_offered hOffer⟩

/- A conversion that succeeds logs nothing. -/
theorem sameLog_of_exportAs
    {h : HostValue}
    (hExport : t.exportAs s v w = (.ok h, w')) :
    World.SameLog w w' := by
  induction t generalizing v w w' h with
  | seq elem ih =>
      cases yields_of_exportAs hExport with
      | offered => rfl
      | items hType hValue hEach =>
          cases hType
          apply Action.eachFrom_of_ok World.SameLog.refl
            World.SameLog.trans ?_ hEach
          intro i item hMem u u' b hItem
          exact ih (Action.mapError_eq_ok_iff.mp hItem)
      | plain => rfl
  | _ =>
      cases yields_of_exportAs hExport with
      | offered => rfl
      | items hType => cases hType
      | plain => rfl

end HostType

------------------------------------------------------------
-- Conversions of Nested Values
------------------------------------------------------------

namespace Attempt

variable {s : Schema} {a b c : Attempt} {path : List Nat}
variable {w' : World} {e : Error}

/-
  A conversion fails in the conversion of a part: in itself
  when it does not go on with elements, and else in the first
  element that fails, where the elements before have left the
  world.
-/
inductive FailsIn (s : Schema) :
    Attempt → List Nat → Attempt → Prop where
| itself
    {a : Attempt}
    {e : Error}
    (hSingle : ¬ a.Descends)
    (hFails : (a.run s).1 = .error e) :
    FailsIn s a [] a
| element
    {elem : HostType}
    {shape : List Nat}
    {values : List Value}
    {w mid : World}
    {k : Nat}
    {item : Value}
    {items : List HostValue}
    {path : List Nat}
    {cause : Attempt}
    (hBefore :
      each (HostType.exportItem s elem) (values.take k) w =
        (.ok items, mid))
    (hItem : values[k]? = some item)
    (hInner : FailsIn s ⟨elem, item, mid⟩ path cause) :
    FailsIn s ⟨.seq elem, .array shape values, w⟩ (k :: path)
      cause

/- An array fails with its first element that fails. -/
theorem run_array_eq_error_iff
    {elem : HostType}
    {shape : List Nat}
    {values : List Value}
    {w : World} :
    run s ⟨.seq elem, .array shape values, w⟩ = (.error e, w') ↔
      ∃ k item items mid inner,
        values[k]? = some item ∧
        each (HostType.exportItem s elem) (values.take k) w =
          (.ok items, mid) ∧
        run s ⟨elem, item, mid⟩ = (.error inner, w') ∧
        e = .element k inner := by
  have hSteps :
      run s ⟨.seq elem, .array shape values, w⟩ = (.error e, w') ↔
        each (HostType.exportItem s elem) values w =
          (.error e, w') := by
    unfold run
    rw [HostType.exportAs_seq_array, Action.bind_eq_error_iff]
    constructor
    · rintro (hEach | ⟨items, mid, -, hLast⟩)
      · exact hEach
      · cases hLast
    · exact .inl
  rw [hSteps, Action.eachFrom_eq_error_iff]
  simp only [Nat.zero_add, Action.mapError_eq_error_iff]
  constructor
  · rintro ⟨k, item, items, mid, hItem, hBefore, inner, hRun, rfl⟩
    exact ⟨k, item, items, mid, inner, hItem, hBefore, hRun, rfl⟩
  · rintro ⟨k, item, items, mid, inner, hItem, hBefore, hRun, rfl⟩
    exact ⟨k, item, items, mid, hItem, hBefore, inner, hRun, rfl⟩

/-
  A conversion that fails in a part ends as the part does,
  but for the positions around its failure.
-/
theorem FailsIn.run
    (hFails : FailsIn s a path c) :
    ∃ e, (c.run s).1 = .error e ∧ e.IsBare ∧
      a.run s = (.error (e.along path), (c.run s).2) ∧
      (c.run s).2.log = a.world.log ++ c.misfits s := by
  induction hFails with
  | @itself a e hSingle hFails =>
      have hRun : a.run s = (.error e, (a.run s).2) :=
        Prod.ext hFails rfl
      rcases HostType.exportAs_fails_single hSingle hRun with
        ⟨hBare, hLog⟩
      exact ⟨e, hFails, hBare, hRun, hLog⟩
  | @element elem shape values w mid k item items path cause
      hBefore hItem hInner ih =>
      rcases ih with ⟨e, hCause, hBare, hRun, hLog⟩
      have hMid : World.SameLog w mid := by
        apply Action.eachFrom_of_ok World.SameLog.refl
          World.SameLog.trans ?_ hBefore
        intro i v hMem u u' h hStep
        exact HostType.sameLog_of_exportAs
          (Action.mapError_eq_ok_iff.mp hStep)
      refine ⟨e, hCause, hBare, ?_, ?_⟩
      · apply run_array_eq_error_iff.mpr
        exact ⟨k, item, items, mid, e.along path, hItem, hBefore,
          hRun, rfl⟩
      · rw [hLog]
        exact congrArg (· ++ cause.misfits s) hMid

/- Every conversion that fails does so in one of its parts. -/
theorem exists_failsIn
    (hRun : a.run s = (.error e, w')) :
    ∃ path c, FailsIn s a path c := by
  rcases a with ⟨t, v, w⟩
  induction t generalizing v w e w' with
  | seq elem ih =>
      by_cases hArray : ∃ shape values, v = .array shape values
      · rcases hArray with ⟨shape, values, rfl⟩
        rcases run_array_eq_error_iff.mp hRun with
          ⟨k, item, items, mid, inner, hItem, hBefore, hInner, -⟩
        rcases ih item mid hInner with ⟨path, c, hFails⟩
        exact ⟨k :: path, c, .element hBefore hItem hFails⟩
      · refine ⟨[], _, .itself ?_ (congrArg Prod.fst hRun)⟩
        rintro ⟨elem', shape, values, -, hValue⟩
        exact hArray ⟨shape, values, hValue⟩
  | _ =>
      refine ⟨[], _, .itself ?_ (congrArg Prod.fst hRun)⟩
      rintro ⟨elem, shape, values, hType, -⟩
      cases hType

/- An element that fails ends the steps over the array. -/
theorem exportItem_eq_error
    {elem : HostType}
    {item : Value}
    {mid : World}
    {i : Nat}
    (hRun : run s ⟨elem, item, mid⟩ = (.error e, w')) :
    HostType.exportItem s elem i item mid =
      (.error (.element i e), w') :=
  Action.mapError_eq_error_iff.mpr ⟨e, hRun, rfl⟩

/- There is only one such part. -/
theorem FailsIn.unique
    {path' : List Nat}
    {c' : Attempt}
    (hFails : FailsIn s a path c)
    (hFails' : FailsIn s a path' c') :
    path' = path ∧ c' = c := by
  induction hFails generalizing path' c' with
  | itself hSingle hRun =>
      cases hFails' with
      | itself => exact ⟨rfl, rfl⟩
      | element => exact absurd ⟨_, _, _, rfl, rfl⟩ hSingle
  | @element elem shape values w mid k item items path cause
      hBefore hItem hInner ih =>
      cases hFails' with
      | itself hSingle => exact absurd ⟨_, _, _, rfl, rfl⟩ hSingle
      | @element _ _ _ _ mid' k' item' items' path' _ hBefore'
          hItem' hInner' =>
          rcases hInner.run with ⟨e, -, -, hRun, -⟩
          rcases hInner'.run with ⟨e', -, -, hRun', -⟩
          have hSame : k' = k :=
            Nat.le_antisymm
              (Action.le_of_eachFrom_eq_ok hItem hBefore
                (exportItem_eq_error hRun) hBefore')
              (Action.le_of_eachFrom_eq_ok hItem' hBefore'
                (exportItem_eq_error hRun') hBefore)
          subst hSame
          cases hItem.symm.trans hItem'
          cases hBefore.symm.trans hBefore'
          rcases ih hInner' with ⟨rfl, rfl⟩
          exact ⟨rfl, rfl⟩

end Attempt

namespace Callable

variable {s : Schema} {options : Options} {c : Callable}
variable {left : Option Value} {right : Value}
variable {w w' : World} {e : Error} {args : List HostValue}

------------------------------------------------------------
-- Operands
------------------------------------------------------------

/-
  A call fails in the conversion of a part of an operand. The
  operand is the first one that fails, where the operands
  before have left the world.
-/
inductive FailsInOperand
    (s : Schema)
    (c : Callable)
    (left : Option Value)
    (right : Value)
    (w : World) : Nat → List Nat → Attempt → Prop where
| operand
    {row : List Value}
    {k : Nat}
    {t : HostType}
    {v : Value}
    {before : List HostValue}
    {mid : World}
    {path : List Nat}
    {cause : Attempt}
    (hRow : operandRow c.sig.arity left right = .ok row)
    (hBefore :
      each (exportArgument s) ((c.sig.params.zip row).take k)
          (announced c left w) =
        (.ok before, mid))
    (hOperand : (c.sig.params.zip row)[k]? = some (t, v))
    (hInner : Attempt.FailsIn s ⟨t, v, mid⟩ path cause) :
    FailsInOperand s c left right w k path cause

/- An operand that fails ends the export of the row. -/
theorem exportArgument_eq_error
    {t : HostType}
    {v : Value}
    {mid : World}
    {i : Nat}
    (hRun : Attempt.run s ⟨t, v, mid⟩ = (.error e, w')) :
    exportArgument s i (t, v) mid =
      (.error (.argument (i + 1) e), w') :=
  Action.mapError_eq_error_iff.mpr ⟨e, hRun, rfl⟩

/- The operands that are exported log nothing. -/
theorem sameLog_of_exportArguments
    {pairs : List (HostType × Value)}
    (hEach : each (exportArgument s) pairs w = (.ok args, w')) :
    World.SameLog w w' := by
  apply Action.eachFrom_of_ok World.SameLog.refl
    World.SameLog.trans ?_ hEach
  intro i p hMem u u' h hStep
  exact HostType.sameLog_of_exportAs
    (Action.mapError_eq_ok_iff.mp hStep)

/-
  Marshalling that fails in a part of an operand ends as that
  part does, but for the position of the operand and the
  positions in it.
-/
theorem FailsInOperand.marshal
    {k : Nat}
    {path : List Nat}
    {cause : Attempt}
    (options : Options)
    (hFails : FailsInOperand s c left right w k path cause) :
    ∃ e, (cause.run s).1 = .error e ∧ e.IsBare ∧
      c.marshal s options left right w =
        (.error (.argument (k + 1) (e.along path)),
          (cause.run s).2) ∧
      (cause.run s).2.log =
        (announced c left w).log ++ cause.misfits s := by
  cases hFails with
  | @operand row k t v before mid path cause hRow hBefore hOperand
      hInner =>
      rcases hInner.run with ⟨e, hCause, hBare, hRun, hLog⟩
      refine ⟨e, hCause, hBare, ?_, ?_⟩
      · apply marshal_of_export_error hRow
        apply Action.eachFrom_eq_error_iff.mpr
        refine ⟨k, (t, v), before, mid, hOperand, hBefore, ?_⟩
        rw [Nat.zero_add]
        exact exportArgument_eq_error hRun
      · rw [hLog]
        exact congrArg (· ++ cause.misfits s)
          (sameLog_of_exportArguments hBefore)

/- There is only one part that a call fails in. -/
theorem FailsInOperand.unique
    {k k' : Nat}
    {path path' : List Nat}
    {cause cause' : Attempt}
    (hFails : FailsInOperand s c left right w k path cause)
    (hFails' : FailsInOperand s c left right w k' path' cause') :
    k' = k ∧ path' = path ∧ cause' = cause := by
  cases hFails with
  | operand hRow hBefore hOperand hInner =>
      cases hFails' with
      | operand hRow' hBefore' hOperand' hInner' =>
          cases hRow.symm.trans hRow'
          rcases hInner.run with ⟨e, -, -, hRun, -⟩
          rcases hInner'.run with ⟨e', -, -, hRun', -⟩
          have hSame : k' = k :=
            Nat.le_antisymm
              (Action.le_of_eachFrom_eq_ok hOperand hBefore
                (exportArgument_eq_error hRun) hBefore')
              (Action.le_of_eachFrom_eq_ok hOperand' hBefore'
                (exportArgument_eq_error hRun') hBefore)
          subst hSame
          cases hOperand.symm.trans hOperand'
          cases hBefore.symm.trans hBefore'
          rcases hInner.unique hInner' with ⟨rfl, rfl⟩
          exact ⟨rfl, rfl, rfl⟩

/-
  Marshalling fails when there is no row of operands, and
  when it fails in a part of an operand.
-/
theorem marshal_cases
    (hMarshal : c.marshal s options left right w = (.error e, w')) :
    (operandRow c.sig.arity left right = .error e ∧
      w' = announced c left w) ∨
    ∃ k path cause,
      FailsInOperand s c left right w k path cause := by
  cases hRow : operandRow c.sig.arity left right with
  | error cause =>
      cases hMarshal.symm.trans (marshal_of_row_error hRow)
      exact .inl ⟨rfl, rfl⟩
  | ok row =>
      rcases hExport :
        exportRow s c.sig.params row (announced c left w) with
        ⟨outcome, w₁⟩
      cases outcome with
      | ok args =>
          cases hMarshal.symm.trans
            (marshal_of_export_ok hRow hExport)
      | error cause =>
          rcases Action.eachFrom_eq_error_iff.mp hExport with
            ⟨k, ⟨t, v⟩, before, mid, hOperand, hBefore, hStep⟩
          rcases Action.mapError_eq_error_iff.mp hStep with
            ⟨inner, hRun, -⟩
          rcases Attempt.exists_failsIn (a := ⟨t, v, mid⟩) hRun with
            ⟨path, cause, hInner⟩
          exact .inr ⟨k, path, cause,
            .operand hRow hBefore hOperand hInner⟩

/- The failure of marshalling says where it happened. -/
theorem FailsInOperand.root
    {k : Nat}
    {path : List Nat}
    {cause : Attempt}
    (options : Options)
    (hFails : FailsInOperand s c left right w k path cause) :
    ∃ e, (c.marshal s options left right w).1 = .error e ∧
      (cause.run s).1 = .error e.root ∧
      e = .argument (k + 1) (e.root.along path) := by
  rcases hFails.marshal options with
    ⟨inner, hRun, hBare, hMarshal, -⟩
  have hRoot :
      (Error.argument (k + 1) (inner.along path)).root = inner :=
    (Error.root_along path inner).trans hBare.root
  refine ⟨.argument (k + 1) (inner.along path), ?_, ?_, ?_⟩
  · rw [hMarshal]
  · rw [hRoot, hRun]
  · rw [hRoot]

/- Arguments are rendered if that is asked for. -/
theorem mem_entries_arguments_iff
    {heap : Heap}
    {entry : Event.Entry} :
    entry ∈
        (argumentEvents s options c args heap).map Event.entry ↔
      options.traceArguments = true ∧
      entry =
        (.trace,
          "arguments: " ++
            ", ".intercalate
              (args.map (·.text s options.displayLimit heap)),
          [("callee", c.name)]) := by
  unfold argumentEvents
  split
  · rename_i hAsked
    rw [List.map_singleton, List.mem_singleton]
    simp only [hAsked, true_and]
    rfl
  · rename_i hSilent
    simp [hSilent]

/- The log of marshalling that succeeds. -/
theorem log_of_marshal_ok
    (hMarshal : c.marshal s options left right w = (.ok args, w')) :
    w'.log =
      (announced c left w).log ++
        argumentEvents s options c args w'.heap := by
  cases hRow : operandRow c.sig.arity left right with
  | error cause =>
      cases hMarshal.symm.trans (marshal_of_row_error hRow)
  | ok row =>
      rcases hExport :
        exportRow s c.sig.params row (announced c left w) with
        ⟨outcome, w₁⟩
      cases outcome with
      | error cause =>
          cases hMarshal.symm.trans
            (marshal_of_export_error hRow hExport)
      | ok args =>
          cases hMarshal.symm.trans
            (marshal_of_export_ok hRow hExport)
          exact congrArg
            (· ++ argumentEvents s options c args w₁.heap)
            (sameLog_of_exportArguments hExport)

/-
  What marshalling logs after it has announced the call: a
  host form that does not fit, or the arguments.
-/
theorem marshal_logs
    (s : Schema)
    (options : Options)
    (c : Callable)
    (left : Option Value)
    (right : Value)
    (w : World) :
    let marshalled := c.marshal s options left right w
    ∃ fallback rendered : List Event,
      marshalled.2.log =
        (announced c left w).log ++ (fallback ++ rendered) ∧
      fallback.length ≤ 1 ∧
      rendered.length ≤ 1 ∧
      (∀ entry, entry ∈ fallback.map Event.entry ↔
        ∃ k path cause id x form,
          FailsInOperand s c left right w k path cause ∧
          cause.value = .any id x ∧
          (x.produce cause.world.host).1 = some form ∧
          entry =
            (.trace,
              x.typeName ++ " exported a " ++ form.kindName ++
                ", which does not fit " ++ cause.type.text s,
              [])) ∧
      ∀ entry, entry ∈ rendered.map Event.entry ↔
        ∃ args,
          marshalled.1 = .ok args ∧
          options.traceArguments = true ∧
          entry =
            (.trace,
              "arguments: " ++
                ", ".intercalate
                  (args.map
                    (·.text s options.displayLimit
                      marshalled.2.heap)),
              [("callee", c.name)]) := by
  intro marshalled
  rcases hMarshal : marshalled with ⟨outcome, w'⟩
  cases outcome with
  | ok args =>
      refine ⟨[], argumentEvents s options c args w'.heap,
        log_of_marshal_ok hMarshal, by simp, ?_, ?_, ?_⟩
      · unfold argumentEvents
        split <;> simp
      · intro entry
        simp only [List.map_nil, List.not_mem_nil, false_iff]
        rintro ⟨k, path, cause, id, x, form, hFails, -⟩
        rcases hFails.marshal options with ⟨e, -, -, hSame, -⟩
        cases hMarshal.symm.trans hSame
      · intro entry
        rw [mem_entries_arguments_iff]
        simp
  | error e =>
      rcases marshal_cases hMarshal with
        ⟨hRow, rfl⟩ | ⟨k, path, cause, hFails⟩
      · refine ⟨[], [], by simp, by simp, by simp, ?_, by simp⟩
        intro entry
        simp only [List.map_nil, List.not_mem_nil, false_iff]
        rintro ⟨k, path, cause, id, x, form, hFails, -⟩
        cases hFails with
        | operand hOk => cases hRow.symm.trans hOk
      · rcases hFails.marshal options with
          ⟨inner, -, -, hSame, hLog⟩
        cases hMarshal.symm.trans hSame
        refine ⟨cause.misfits s, [], ?_, cause.length_misfits_le s,
          by simp, ?_, by simp⟩
        · rw [List.append_nil]
          exact hLog
        · intro entry
          rw [Attempt.mem_entries_misfits_iff]
          constructor
          · rintro ⟨id, x, form, hMisfit⟩
            exact ⟨k, path, cause, id, x, form, hFails, hMisfit⟩
          · rintro ⟨k', path', cause', id, x, form, hFails',
              hMisfit⟩
            rcases hFails.unique hFails' with ⟨-, -, rfl⟩
            exact ⟨id, x, form, hMisfit⟩

------------------------------------------------------------
-- Host Code and Results
------------------------------------------------------------

/- Host code logs nothing itself. -/
theorem runTarget_sameLog
    (s : Schema)
    (target : Target)
    (args : List HostValue) :
    (runTarget s target args).Steps World.SameLog := by
  have hHost {α : Type} (f : Host → α × Host) :
      (Action.onHost f).Steps World.SameLog := fun w => rfl
  have hLook {α : Type} (f : Heap → Except Error α) :
      (Action.fromHeap f).Steps World.SameLog := fun w => rfl
  have hChange (f : Heap → Except Error Heap) :
      (Action.changeHeap f).Steps World.SameLog := by
    intro w
    cases hRun : f w.heap with
    | ok heap => rw [Action.changeHeap_of_ok hRun]; rfl
    | error e => rw [Action.changeHeap_of_error hRun]; rfl
  have hTrans := World.SameLog.trans
  unfold runTarget
  split
  · exact hHost _
  · split
    · unfold runOnCopy
      refine .bind hTrans (hLook _) fun content => ?_
      refine .bind hTrans (hHost _) fun scratch => ?_
      refine .bind hTrans (hHost _) fun outputs => ?_
      refine .bind hTrans (hLook _) fun updated => ?_
      refine .bind hTrans (hChange _) fun done => ?_
      exact fun w => rfl
    · exact hHost _

/- The outputs are as many as declared, and the last is a fault. -/
structure ReportsFault
    (c : Callable)
    (outputs : List HostValue)
    (fault : Fault) : Prop where
  count : outputs.length = c.sig.outputSlots
  fallible : c.sig.fallible = true
  last : outputs.getLast? = some (.error (some fault))

/- Outputs that report no fault are not logged. -/
theorem sameLog_unmarshal
    {outputs : List HostValue}
    (hNone : ∀ fault, ¬ c.ReportsFault outputs fault) :
    World.SameLog w (c.unmarshal s outputs w).2 := by
  by_cases hCount : outputs.length = c.sig.outputSlots
  · by_cases hClear : SlotIsClear c.sig outputs
    · have hWorld :=
        (unmarshal_results s w hCount hClear).2.2.2.2.1
      unfold World.SameLog
      rw [hWorld]
      rfl
    · rcases Classical.not_imp.mp hClear with ⟨hFallible, hOther⟩
      cases hLast : outputs.getLast? with
      | none =>
          rw [List.getLast?_eq_none_iff.mp hLast] at hCount
          simp [Signature.outputSlots, hFallible] at hCount
      | some last =>
          have hForeign : ∀ fault, last ≠ .error fault := by
            rintro (_ | fault) rfl
            · exact hOther hLast
            · exact hNone fault ⟨hCount, hFallible, hLast⟩
          rw [unmarshal_of_foreign hCount hFallible hLast hForeign]
          exact .refl w
  · rw [unmarshal_of_count hCount]
    exact .refl w

/- What the host code and its outputs add to the log. -/
theorem invoke_logs
    (s : Schema)
    (c : Callable)
    (args : List HostValue)
    (w : World) :
    ∃ failed : List Event,
      (c.invoke s args w).2.log = w.log ++ failed ∧
      failed.length ≤ 1 ∧
      ∀ entry, entry ∈ failed.map Event.entry ↔
        ∃ outputs fault,
          (runTarget s c.target args w).1 = .ok outputs ∧
          outputs.length = c.sig.outputSlots ∧
          c.sig.fallible = true ∧
          outputs.getLast? = some (.error (some fault)) ∧
          entry =
            (.debug, "host call failed: " ++ fault.text,
              [("callee", c.name)]) := by
  have hQuiet : World.SameLog w (runTarget s c.target args w).2 :=
    runTarget_sameLog s c.target args w
  have hInvoke :
      c.invoke s args w =
        (runTarget s c.target args >>= c.unmarshal s) w := rfl
  rw [hInvoke, Action.bind_apply]
  rcases hRun : runTarget s c.target args w with ⟨outcome, ran⟩
  rw [hRun] at hQuiet
  cases outcome with
  | error e =>
      refine ⟨[], ?_, by simp, by simp⟩
      rw [List.append_nil]
      exact hQuiet
  | ok outputs =>
      by_cases hFault : ∃ fault, c.ReportsFault outputs fault
      · rcases hFault with ⟨fault, hCount, hFallible, hLast⟩
        refine ⟨[.hostFailed c.name fault.text], ?_, by simp, ?_⟩
        · simp only [unmarshal_of_fault hCount hFallible hLast]
          exact congrArg (· ++ [.hostFailed c.name fault.text])
            hQuiet
        · intro entry
          rw [List.map_singleton, List.mem_singleton]
          constructor
          · rintro rfl
            exact ⟨outputs, fault, rfl, hCount, hFallible, hLast,
              rfl⟩
          · rintro ⟨outputs', fault', hOutputs, -, -, hLast', rfl⟩
            cases hOutputs
            cases hLast.symm.trans hLast'
            rfl
      · refine ⟨[], ?_, by simp, ?_⟩
        · rw [List.append_nil]
          exact World.SameLog.trans _ _ _ hQuiet
            (sameLog_unmarshal (not_exists.mp hFault))
        · intro entry
          simp only [List.map_nil, List.not_mem_nil, false_iff]
          rintro ⟨outputs', fault, hOutputs, hCount, hFallible,
            hLast, -⟩
          cases hOutputs
          exact hFault ⟨fault, hCount, hFallible, hLast⟩

------------------------------------------------------------
-- Calls
------------------------------------------------------------

/- A call is marshalling, and then a run of the host code. -/
theorem call_of_marshal
    (s : Schema)
    (options : Options)
    (c : Callable)
    (left : Option Value)
    (right : Value)
    (w : World) :
    let marshalled := c.marshal s options left right w
    let called := c.call s options left right w
    (∀ e, marshalled.1 = .error e →
      called = (.error e, marshalled.2)) ∧
    ∀ args, marshalled.1 = .ok args →
      called = c.invoke s args marshalled.2 := by
  intro marshalled called
  have hCalled :
      called =
        (c.marshal s options left right >>= c.invoke s) w := rfl
  have hPair : c.marshal s options left right w = marshalled := rfl
  rw [hCalled, Action.bind_apply, hPair]
  rcases marshalled with ⟨outcome, w'⟩
  constructor
  · rintro e rfl
    rfl
  · rintro args rfl
    rfl

/- What a call logs after marshalling. -/
theorem call_logs
    (s : Schema)
    (options : Options)
    (c : Callable)
    (left : Option Value)
    (right : Value)
    (w : World) :
    let marshalled := c.marshal s options left right w
    ∃ failed : List Event,
      (c.call s options left right w).2.log =
        marshalled.2.log ++ failed ∧
      failed.length ≤ 1 ∧
      ∀ entry, entry ∈ failed.map Event.entry ↔
        ∃ args outputs fault,
          marshalled.1 = .ok args ∧
          (runTarget s c.target args marshalled.2).1 =
            .ok outputs ∧
          outputs.length = c.sig.outputSlots ∧
          c.sig.fallible = true ∧
          outputs.getLast? = some (.error (some fault)) ∧
          entry =
            (.debug, "host call failed: " ++ fault.text,
              [("callee", c.name)]) := by
  intro marshalled
  rcases call_of_marshal s options c left right w with
    ⟨hFailed, hPassed⟩
  cases hOutcome : marshalled.1 with
  | error e =>
      rw [hFailed e hOutcome]
      exact ⟨[], by simp [marshalled], by simp, by simp⟩
  | ok args =>
      rw [hPassed args hOutcome]
      rcases invoke_logs s c args marshalled.2 with
        ⟨failed, hLog, hOnce, hMem⟩
      refine ⟨failed, hLog, hOnce, ?_⟩
      intro entry
      rw [hMem]
      simp

/-
  The events of a call, in order. It is announced. When it
  fails in the conversion of a domain value that has a host
  form, this form has not fitted; that is logged, and nothing
  comes after it. When the operands have been converted, the
  arguments are logged if that is asked for. When the host
  code hands back outputs, as many as declared and with a
  fault in the error slot, the fault is logged. There are no
  other events, and each of these is there at most once.

  The conversion that a call fails in is the only one at the
  end of the positions in the failure. A host form that does
  not fit fails the conversion: there is no other rule for
  domain values.

  Host code hands back outputs unless it is a method on a
  record inside another object. This runs on a copy, and when
  the record cannot be copied, or the copy is lent, does not
  fit any more or cannot be stored back, the call fails with
  that, and a fault among the outputs is not logged.
-/
theorem apply_logs
    (s : Schema)
    (options : Options)
    (c : Callable)
    (left : Option Value)
    (right : Value)
    (w : World) :
    let layout := Arrangement.select c.sig.arity left.isSome
    let marshalled := c.marshal s options left right w
    let ran (args : List HostValue) :=
      runTarget s c.target args marshalled.2
    let called :=
      Function.apply s options (.callable c) left right w
    ∃ events, ∃ fallback rendered failed : List Event.Entry,
      called.2.log = w.log ++ events ∧
      events.map Event.entry =
        (.trace, "marshalling host call",
          [("callee", c.name), ("layout", layout.text),
            ("arity", c.sig.arity.repr)]) ::
          (fallback ++ rendered ++ failed) ∧
      (fallback.length ≤ 1 ∧ rendered.length ≤ 1 ∧
        failed.length ≤ 1) ∧
      (∀ entry, entry ∈ fallback ↔
        ∃ k path cause id x form,
          FailsInOperand s c left right w k path cause ∧
          cause.value = .any id x ∧
          (x.produce cause.world.host).1 = some form ∧
          entry =
            (.trace,
              x.typeName ++ " exported a " ++ form.kindName ++
                ", which does not fit " ++ cause.type.text s,
              [])) ∧
      (fallback ≠ [] → rendered = [] ∧ failed = []) ∧
      (∀ entry, entry ∈ rendered ↔
        ∃ args,
          marshalled.1 = .ok args ∧
          options.traceArguments = true ∧
          entry =
            (.trace,
              "arguments: " ++
                ", ".intercalate
                  (args.map
                    (·.text s options.displayLimit
                      marshalled.2.heap)),
              [("callee", c.name)])) ∧
      (∀ entry, entry ∈ failed ↔
        ∃ args outputs fault,
          marshalled.1 = .ok args ∧
          (ran args).1 = .ok outputs ∧
          outputs.length = c.sig.outputSlots ∧
          c.sig.fallible = true ∧
          outputs.getLast? = some (.error (some fault)) ∧
          entry =
            (.debug, "host call failed: " ++ fault.text,
              [("callee", c.name)])) ∧
      (∀ e, marshalled.1 = .error e →
        operandRow c.sig.arity left right = .error e ∨
        ∃ k path cause,
          FailsInOperand s c left right w k path cause) ∧
      (∀ k path cause,
        FailsInOperand s c left right w k path cause →
        (∃ e, marshalled.1 = .error e ∧
          (cause.run s).1 = .error e.root ∧
          e = .argument (k + 1) (e.root.along path)) ∧
        ∀ k' path' cause',
          FailsInOperand s c left right w k' path' cause' →
            k' = k ∧ path' = path ∧ cause' = cause) ∧
      (∀ (t : HostType) id x form (u : World),
        (x.produce u.host).1 = some form →
        t.fit (x.produce u.host).2.heap form = none →
          ∃ e, (t.exportAs s (.any id x) u).1 = .error e) ∧
      (∀ args outputs w',
        ran args = (.ok outputs, w') ↔
          HandsBack s args marshalled.2 c.target outputs w') ∧
      (∀ args e w',
        ran args = (.error e, w') ↔
          ∃ body b, c.target = .bound body b ∧
            b.isProjection = true ∧
            CopyFails s body b args marshalled.2 e w') ∧
      ∀ args e w',
        marshalled.1 = .ok args →
        ran args = (.error e, w') →
          called = (.error e, w') ∧ failed = [] := by
  intro layout marshalled ran called
  rcases marshal_logs s options c left right w with
    ⟨fallback, rendered, hMarshal, hFallbackOnce, hRenderedOnce,
      hFallback, hRendered⟩
  rcases call_logs s options c left right w with
    ⟨failed, hCall, hFailedOnce, hFailed⟩
  refine ⟨.marshalling c.name layout c.sig.arity ::
      (fallback ++ rendered ++ failed),
    fallback.map Event.entry, rendered.map Event.entry,
    failed.map Event.entry, ?log, ?entries, ?once, hFallback,
    ?last, hRendered, hFailed, ?failure, ?part, ?unfit,
    fun args outputs w' => runTarget_eq_ok_iff,
    fun args e w' => runTarget_eq_error_iff, ?stopped⟩
  case log =>
    change (c.call s options left right w).2.log = _
    rw [hCall, hMarshal]
    simp [announced, World.logging, layout]
  case entries =>
    rw [List.map_cons, List.map_append, List.map_append]
    rfl
  case once =>
    simp only [List.length_map]
    exact ⟨hFallbackOnce, hRenderedOnce, hFailedOnce⟩
  case last =>
    intro hSome
    rcases List.exists_mem_of_ne_nil _ hSome with ⟨entry, hEntry⟩
    rcases (hFallback entry).mp hEntry with
      ⟨k, path, cause, -, -, -, hFails, -⟩
    rcases hFails.root options with ⟨e, hError, -⟩
    have hNoArgs (args : List HostValue) :
        marshalled.1 ≠ .ok args := by
      intro hOk
      cases hError.symm.trans hOk
    constructor
    · rw [List.eq_nil_iff_forall_not_mem]
      intro entry hMem
      rcases (hRendered entry).mp hMem with ⟨args, hOk, -⟩
      exact hNoArgs args hOk
    · rw [List.eq_nil_iff_forall_not_mem]
      intro entry hMem
      rcases (hFailed entry).mp hMem with ⟨args, -, -, hOk, -⟩
      exact hNoArgs args hOk
  case failure =>
    intro e hError
    rcases marshal_cases (Prod.ext hError rfl) with
      ⟨hRow, -⟩ | hPart
    · exact .inl hRow
    · exact .inr hPart
  case part =>
    intro k path cause hFails
    refine ⟨hFails.root options, ?_⟩
    intro k' path' cause' hFails'
    exact hFails.unique hFails'
  case unfit =>
    intro t id x form u hForm hUnfit
    cases hExport : (t.exportAs s (.any id x) u).1 with
    | error e => exact ⟨e, rfl⟩
    | ok h =>
        have hFit :=
          (HostType.exportAs_any_eq_ok_iff hForm).mp hExport
        cases hUnfit.symm.trans hFit
  case stopped =>
    intro args e w' hOk hStops
    rcases call_of_marshal s options c left right w with
      ⟨-, hPassed⟩
    constructor
    · change c.call s options left right w = _
      rw [hPassed args hOk, invoke_of_runTarget_error hStops]
    · rw [List.eq_nil_iff_forall_not_mem]
      intro entry hMem
      rcases (hFailed entry).mp hMem with
        ⟨args', outputs, -, hOk', hOutputs, -⟩
      cases hOk.symm.trans hOk'
      rw [show runTarget s c.target args marshalled.2 = _ from
        hStops] at hOutputs
      cases hOutputs

/-
  A method on the finish of a segment hands back a fault, but
  has its copy of the point overwritten with no record at
  all. The copy is not stored back, and the fault is neither
  reported nor logged.
-/
theorem apply_logs_no_fault_of_spoiled_finish :
    let fault : Fault := ⟨0, ⟨"boom", []⟩⟩
    let spoil : HostMethod := fun h _ host =>
      ([.error (some fault)],
        { host with heap := host.heap.store h .nil })
    let c : Callable :=
      ⟨"Point.Spoil", ⟨[], [], true⟩, .bound spoil .finish⟩
    let outputs :=
      (spoil World.withSegment.heap.next []
        (World.withSegment.host.alloc (.point 3 4)).2).1
    let called :=
      Function.apply .plane .default (.callable c) none .empty
        .withSegment
    outputs.length = c.sig.outputSlots ∧
      outputs.getLast? = some (.error (some fault)) ∧
      called.1 = .error (.conversion "host nil" "Point") ∧
      called.2.log = [.marshalling "Point.Spoil" .nullary 0] :=
  ⟨rfl, rfl, rfl, rfl⟩

/- The second element has a host form, but it is no integer. -/
example :
    let pixel : Exportable :=
      ⟨"pixel", "px", fun host => (some .nil, host)⟩
    let c : Callable :=
      ⟨"f", ⟨[.seq (.int .i64)], [], false⟩,
        .free fun _ host => ([], host)⟩
    (Function.apply .empty .default (.callable c) none
      (.vector [.int 1, .any 0 pixel, .any 1 pixel])
      .initial).2.log =
        [.marshalling "f" .monadic 1, .misfit "pixel" "nil" "i64"] :=
  rfl

end Callable

end Interop
