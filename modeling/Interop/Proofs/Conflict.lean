import Interop.Member
import Interop.Proofs.Convert.Export
import Interop.Proofs.Convert.Import
import Interop.Proofs.Place
import Interop.Proofs.Plane

/-
  Failures and loans. A field that cannot be set leaves all
  objects and all loans as they are. As long as nobody has an
  object at the start, neither conversions nor accesses to
  members fail because an object is lent: what they take for
  reading they give back before they take anything else, the
  object that they write included.

  Main declarations:
    * `Error.IsConflict`
    * `Action.AvoidsConflict`
    * `HostType.isMisfit_of_importAs`
    * `HostType.exportAs_avoidsConflict`
    * `Box.field_avoidsConflict`
    * `Box.set_avoidsConflict`
    * `Box.heap_of_set_error`
    * `Box.set_is_atomic`
-/

namespace Interop

------------------------------------------------------------
-- Kinds of Failures
------------------------------------------------------------

namespace Error

/- Something was lent that was needed. -/
def IsConflict (e : Error) : Prop :=
  ∃ type, e.root = .borrowed type

/- A value does not fit a type, or no value does. -/
def IsMisfit (e : Error) : Prop :=
  (∃ got want, e.root = .conversion got want) ∨
    ∃ kind, e.root = .unsupported kind

/- A failure has one cause. -/
theorem IsMisfit.not_isConflict
    {e : Error}
    (hMisfit : e.IsMisfit) :
    ¬ e.IsConflict := by
  rintro ⟨type, hRoot⟩
  rcases hMisfit with ⟨got, want, hOther⟩ | ⟨kind, hOther⟩
  · rw [hRoot] at hOther
    cases hOther
  · rw [hRoot] at hOther
    cases hOther

theorem isMisfit_conversion
    (got want : String) :
    (Error.conversion got want).IsMisfit :=
  .inl ⟨got, want, rfl⟩

theorem isMisfit_unsupported
    (kind : String) :
    (Error.unsupported kind).IsMisfit :=
  .inr ⟨kind, rfl⟩

theorem not_isConflict_notARecord
    (type : String) :
    ¬ (Error.notARecord type).IsConflict := by
  rintro ⟨other, hRoot⟩
  cases hRoot

end Error

------------------------------------------------------------
-- Actions Without Conflicts
------------------------------------------------------------

namespace Action

variable {α β : Type}

/-
  Started when nobody has an object, the action does not fail
  because something is lent.
-/
def AvoidsConflict (x : Action α) : Prop :=
  ∀ w, w.heap.IsIdle →
    ∀ e, (x w).1 = .error e → ¬ e.IsConflict

/- The action leaves all objects and all loans alone. -/
abbrev LeavesHeap (x : Action α) : Prop :=
  Steps (fun w w' => w'.heap = w.heap) x

namespace AvoidsConflict

variable {x : Action α}

/- What cannot fail has no conflict. -/
theorem of_ok
    (hOk : ∀ w, ∃ a, (x w).1 = .ok a) :
    AvoidsConflict x := by
  intro w hIdle e hFails
  rcases hOk w with ⟨a, hResult⟩
  rw [hResult] at hFails
  cases hFails

theorem pure
    (a : α) :
    AvoidsConflict (pure a) :=
  of_ok fun _ => ⟨a, rfl⟩

theorem fail
    {e : Error}
    (hError : ¬ e.IsConflict) :
    AvoidsConflict (Action.fail e : Action α) := by
  intro w hIdle e' hFails
  cases hFails
  exact hError

theorem fromHeap
    {f : Heap → Except Error α}
    (hError : ∀ heap e, heap.IsIdle → f heap = .error e →
      ¬ e.IsConflict) :
    AvoidsConflict (Action.fromHeap f) :=
  fun w hIdle e => hError w.heap e hIdle

theorem onHeap
    {f : Heap → Except Error (α × Heap)}
    (hError : ∀ heap e, heap.IsIdle → f heap = .error e →
      ¬ e.IsConflict) :
    AvoidsConflict (Action.onHeap f) := by
  intro w hIdle e hFails
  cases hRun : f w.heap with
  | ok r =>
      rcases r with ⟨a, heap⟩
      rw [onHeap_of_ok hRun] at hFails
      cases hFails
  | error cause =>
      rw [onHeap_of_error hRun] at hFails
      cases hFails
      exact hError w.heap e hIdle hRun

theorem changeHeap
    {f : Heap → Except Error Heap}
    (hError : ∀ heap e, heap.IsIdle → f heap = .error e →
      ¬ e.IsConflict) :
    AvoidsConflict (Action.changeHeap f) := by
  intro w hIdle e hFails
  cases hRun : f w.heap with
  | ok heap =>
      rw [changeHeap_of_ok hRun] at hFails
      cases hFails
  | error cause =>
      rw [changeHeap_of_error hRun] at hFails
      cases hFails
      exact hError w.heap e hIdle hRun

/- Nobody has an object yet when the second part starts. -/
theorem bind
    {f : α → Action β}
    (hFirst : AvoidsConflict x)
    (hLeaves : LeavesHeap x)
    (hRest : ∀ a, AvoidsConflict (f a)) :
    AvoidsConflict (x >>= f) := by
  intro w hIdle e hFails
  have hError := hFirst w hIdle
  have hSame := hLeaves w
  rw [bind_apply] at hFails
  rcases hRun : x w with ⟨outcome, w₁⟩
  rw [hRun] at hFails hError hSame
  cases outcome with
  | ok a =>
      have hStill : w₁.heap.IsIdle := by
        rw [hSame]
        exact hIdle
      exact hRest a w₁ hStill e hFails
  | error cause =>
      cases hFails
      exact hError e rfl

theorem map
    {f : α → β}
    (hAvoids : AvoidsConflict x) :
    AvoidsConflict (f <$> x) := by
  intro w hIdle e hFails
  rw [map_eq_pure_bind, bind_apply] at hFails
  have hError := hAvoids w hIdle
  rcases hRun : x w with ⟨outcome, w₁⟩
  rw [hRun] at hFails hError
  cases outcome with
  | ok a => cases hFails
  | error cause =>
      cases hFails
      exact hError e rfl

/- Saying where it happened does not change the cause. -/
theorem mapError
    {wrap : Error → Error}
    (hRoot : ∀ e, (wrap e).root = e.root)
    (hAvoids : AvoidsConflict x) :
    AvoidsConflict (Action.mapError wrap x) := by
  intro w hIdle e hFails
  have hError := hAvoids w hIdle
  unfold Action.mapError at hFails
  rcases hRun : x w with ⟨outcome, w₁⟩
  rw [hRun] at hFails hError
  cases outcome with
  | ok a => cases hFails
  | error cause =>
      cases hFails
      rintro ⟨type, hBorrowed⟩
      rw [hRoot] at hBorrowed
      exact hError cause rfl ⟨type, hBorrowed⟩

theorem eachFrom
    {f : Nat → α → Action β}
    {items : List α}
    (hItems : ∀ i, ∀ a ∈ items, AvoidsConflict (f i a))
    (hLeaves : ∀ i, ∀ a ∈ items, LeavesHeap (f i a))
    (start : Nat) :
    AvoidsConflict (Interop.eachFrom f start items) := by
  induction items generalizing start with
  | nil => exact pure []
  | cons a rest ih =>
      have hHere : a ∈ a :: rest := by simp
      unfold Interop.eachFrom
      refine bind (hItems start a hHere)
        (hLeaves start a hHere) ?_
      intro b
      apply map
      apply ih
      · intro i x hMem
        exact hItems i x (List.mem_cons_of_mem a hMem)
      · intro i x hMem
        exact hLeaves i x (List.mem_cons_of_mem a hMem)

end AvoidsConflict

end Action

------------------------------------------------------------
-- Boxes
------------------------------------------------------------

namespace Box

variable {s : Schema} {heap : Heap} {b : Box} {e : Error}

/- A free object can be read; its path may lead nowhere. -/
theorem error_of_read
    (hIdle : heap.IsIdle)
    (hRead : b.read s heap = .error e) :
    e = .notARecord (b.type.text s) := by
  rw [read_of_isReadable (hIdle.isReadable b.handle)] at hRead
  unfold outcome at hRead
  split at hRead
  · cases hRead
  · cases hRead
    rfl

/- A free object has its fields read without conflict. -/
theorem error_of_readField
    {index : Nat}
    (hIdle : heap.IsIdle)
    (hRead : b.readField s heap index = .error e) :
    e = .notARecord (b.type.text s) := by
  unfold readField at hRead
  split at hRead
  · split at hRead
    · cases hRead
    · cases hRead
      rfl
  · cases hRead
    rfl
  · rename_i cause hFails
    cases hRead
    exact error_of_read hIdle hFails

/- A free object is updated unless the change itself fails. -/
theorem error_of_update
    {change : HostValue → Except Error HostValue}
    (hIdle : heap.IsIdle)
    (hUpdate : b.update s heap change = .error e) :
    e = .notARecord (b.type.text s) ∨
      ∃ old, change old = .error e := by
  unfold update at hUpdate
  rw [if_pos (hIdle.isWritable b.handle)] at hUpdate
  simp only at hUpdate
  split at hUpdate
  · rename_i old hAt
    split at hUpdate
    · cases hUpdate
    · rename_i cause hFails
      cases hUpdate
      exact .inr ⟨old, hFails⟩
  · cases hUpdate
    exact .inl rfl

/- A field of a free object is put without conflict. -/
theorem not_isConflict_of_putField
    {index : Nat}
    {new : HostValue}
    (hIdle : heap.IsIdle)
    (hPut : b.putField s heap index new = .error e) :
    ¬ e.IsConflict := by
  rcases error_of_update hIdle hPut with rfl | ⟨old, hFails⟩
  · exact Error.not_isConflict_notARecord _
  · rintro ⟨type, hRoot⟩
    split at hFails
    · split at hFails
      · cases hFails
      · cases hFails
        cases hRoot
    · cases hFails
      cases hRoot

end Box

------------------------------------------------------------
-- Conversions
------------------------------------------------------------

namespace HostType

variable {s : Schema} {heap : Heap} {e : Error}

/- A conversion by one rule has no conflict on free objects. -/
theorem not_isConflict_of_exportPlain
    {t : HostType}
    {v : Value}
    (hIdle : heap.IsIdle)
    (hExport : t.exportPlain s heap v = .error e) :
    ¬ e.IsConflict := by
  cases refuses_of_exportPlain hExport with
  | misfit got want =>
      exact (Error.isMisfit_conversion got want).not_isConflict
  | unsupported kind =>
      exact (Error.isMisfit_unsupported kind).not_isConflict
  | unread hValue hRead =>
      rw [Box.error_of_read hIdle hRead]
      exact Error.not_isConflict_notARecord _

/- Offering a host form never fails. -/
theorem offered_avoidsConflict
    (t : HostType)
    (v : Value) :
    (t.offered s v).AvoidsConflict :=
  .of_ok (isOk_offered t v)

/- It leaves the objects alone if the domain value does. -/
theorem offered_leavesHeap
    {t : HostType}
    {v : Value}
    (hLeaves :
      ∀ id e, Value.Within (.any id e) v → e.LeavesObjects) :
    (t.offered s v).LeavesHeap := by
  cases v with
  | any id e =>
      apply offered_steps
      · exact fun _ => rfl
      · exact fun u v w hFirst hSecond => hSecond.trans hFirst
      · exact fun w => hLeaves id e (.self _) w.host
      · exact fun event w => rfl
  | _ => exact fun _ => rfl

/-
  No value is too entangled to be exported. The induction
  follows the type: each element is exported when the ones
  before it have given back what they took.
-/
theorem exportAs_avoidsConflict
    (t : HostType)
    {v : Value}
    (hLeaves :
      ∀ id e, Value.Within (.any id e) v → e.LeavesObjects) :
    (t.exportAs s v).AvoidsConflict := by
  induction t generalizing v with
  | seq elem ih =>
      refine Action.AvoidsConflict.bind
        (offered_avoidsConflict _ v)
        (offered_leavesHeap hLeaves) ?_
      intro fitted
      cases fitted with
      | some h => exact .pure h
      | none =>
          cases v with
          | array shape values =>
              apply Action.AvoidsConflict.map
              have hItems : ∀ item ∈ values, ∀ id e,
                  Value.Within (.any id e) item → e.LeavesObjects := by
                intro item hMem id e hWithin
                exact hLeaves id e (.arrayItem hMem hWithin)
              apply Action.AvoidsConflict.eachFrom
              · intro i item hMem
                refine Action.AvoidsConflict.mapError ?_
                  (ih (hItems item hMem))
                exact fun _ => rfl
              · intro i item hMem
                apply Action.Steps.mapError
                exact heap_exportAs (hItems item hMem)
          | _ =>
              exact .fail
                (Error.isMisfit_conversion _ _).not_isConflict
  | _ =>
      refine Action.AvoidsConflict.bind
        (offered_avoidsConflict _ v)
        (offered_leavesHeap hLeaves) ?_
      intro fitted
      cases fitted with
      | some h => exact .pure h
      | none =>
          apply Action.AvoidsConflict.fromHeap
          intro heap e hIdle hFails
          exact not_isConflict_of_exportPlain hIdle hFails

/- Steps over a list fail as one of them does. -/
theorem Import.eachFrom_eq_error
    {α β : Type}
    {f : Nat → α → StateT Heap (Except Error) β}
    {items : List α}
    {start : Nat}
    (hEach : eachFrom f start items heap = .error e) :
    ∃ i, ∃ a ∈ items, ∃ mid, f i a mid = .error e := by
  induction items generalizing start heap with
  | nil => cases hEach
  | cons a rest ih =>
      rcases eachFrom_cons_eq_error_iff.mp hEach with
        hHere | ⟨b, mid, hFirst, hRest⟩
      · exact ⟨start, a, by simp, heap, hHere⟩
      · rcases ih hRest with ⟨i, x, hMem, last, hFails⟩
        exact ⟨i, x, List.mem_cons_of_mem a hMem, last, hFails⟩

/-
  An import fails because something does not fit, a reference
  to an object that is lent to a writer included.
-/
theorem isMisfit_of_importAs
    {t : HostType}
    {v : HostValue}
    (hImport : t.importAs s v heap = .error e) :
    e.IsMisfit := by
  have hAtOnce {t : HostType} {v : HostValue} {heap : Heap}
      {e : Error}
      (hNoElements : ∀ elem items, t = .seq elem → v ≠ .seq items)
      (hFails : t.importAs s v heap = .error e) :
      e.IsMisfit := by
    rcases importAs_eq_error_at_once hNoElements hFails with
      ⟨got, want, rfl⟩ | ⟨kind, rfl⟩
    · exact Error.isMisfit_conversion got want
    · exact Error.isMisfit_unsupported kind
  induction t generalizing v heap e with
  | seq elem ih =>
      cases v with
      | seq items =>
          rcases Import.eachFrom_eq_error
              (importAs_seq_eq_error_iff.mp hImport) with
            ⟨i, item, hMem, mid, hFails⟩
          rcases Import.mapError_eq_error_iff.mp hFails with
            ⟨inner, hItem, rfl⟩
          change inner.IsMisfit
          exact ih hItem
      | _ => exact hAtOnce (by simp) hImport
  | _ => exact hAtOnce (by simp) hImport

/- An import has no conflict, whatever is lent. -/
theorem importAs_avoidsConflict
    (t : HostType)
    (v : HostValue) :
    (Action.onHeap (t.importAs s v)).AvoidsConflict := by
  apply Action.AvoidsConflict.onHeap
  intro heap e hIdle hFails
  exact (isMisfit_of_importAs hFails).not_isConflict

end HostType

------------------------------------------------------------
-- Members
------------------------------------------------------------

namespace Box

variable {s : Schema} {b : Box} {v : Value}

/- Reading a field of a free object has no conflict. -/
theorem fieldAt_avoidsConflict
    (b : Box)
    (index : Nat)
    (t : HostType) :
    (b.fieldAt s index t).AvoidsConflict := by
  have hImported :
      Action.AvoidsConflict (do
        let v ← Action.fromHeap fun heap => b.readField s heap index
        Action.onHeap (t.importAs s v)) := by
    refine Action.AvoidsConflict.bind (.fromHeap ?_) ?_ ?_
    · intro heap e hIdle hFails
      rw [error_of_readField hIdle hFails]
      exact Error.not_isConflict_notARecord _
    · exact fun _ => rfl
    · exact HostType.importAs_avoidsConflict t
  cases t with
  | record id => exact .pure _
  | _ => exact hImported

/- Neither has looking for a member of it. -/
theorem field_avoidsConflict
    (reg : Registry)
    (b : Box)
    (name : String) :
    (b.field reg name).AvoidsConflict := by
  unfold field
  cases b.record? with
  | none => exact .pure none
  | some id =>
      simp only
      split
      · refine Action.AvoidsConflict.bind ?_ ?_ ?_
        · exact .of_ok fun w => ⟨w.identities, rfl⟩
        · exact fun _ => rfl
        · exact fun n => .pure _
      · split
        · exact .pure none
        · split
          · exact .pure none
          · exact (fieldAt_avoidsConflict b _ _).map

/- Setting a field: the value is exported, then it is put. -/
theorem set_cases
    (s : Schema)
    (b : Box)
    (name : String)
    (v : Value) :
    (∃ e, ¬ e.IsConflict ∧ b.set s name v = Action.fail e) ∨
      ∃ (index : Nat) (t : HostType), b.set s name v = (do
        let converted ← t.exportAs s v
        Action.changeHeap fun heap =>
          b.putField s heap index converted) := by
  have hNoField (member : String) :
      ¬ (Error.noSuchField member).IsConflict := by
    rintro ⟨type, hRoot⟩
    cases hRoot
  unfold set
  cases b.record? with
  | none =>
      exact .inl ⟨_, Error.not_isConflict_notARecord _, rfl⟩
  | some id =>
      simp only
      split
      · exact .inl ⟨_, hNoField _, rfl⟩
      · split
        · exact .inl ⟨_, hNoField _, rfl⟩
        · exact .inr ⟨_, _, rfl⟩

/-
  Setting a field of a free object has no conflict, since the
  export has given back all objects when the field is put.
-/
theorem set_avoidsConflict
    (b : Box)
    (name : String)
    (hLeaves :
      ∀ id e, Value.Within (.any id e) v → e.LeavesObjects) :
    (b.set s name v).AvoidsConflict := by
  rcases set_cases s b name v with
    ⟨e, hError, hSet⟩ | ⟨index, t, hSet⟩
  · rw [hSet]
    exact .fail hError
  · rw [hSet]
    refine Action.AvoidsConflict.bind
      (HostType.exportAs_avoidsConflict t hLeaves)
      (HostType.heap_exportAs hLeaves) ?_
    intro converted
    apply Action.AvoidsConflict.changeHeap
    intro heap e hIdle hFails
    exact not_isConflict_of_putField hIdle hFails

/-
  When a field cannot be set, no object has changed: the
  only change of objects is the last step.
-/
theorem heap_of_set_error
    {name : String}
    {w w' : World}
    {e : Error}
    (hLeaves :
      ∀ id e, Value.Within (.any id e) v → e.LeavesObjects)
    (hSet : b.set s name v w = (.error e, w')) :
    w'.heap = w.heap := by
  rcases set_cases s b name v with
    ⟨cause, hError, hEq⟩ | ⟨index, t, hEq⟩
  · rw [hEq] at hSet
    cases hSet
    rfl
  · have hSame := HostType.heap_exportAs hLeaves w
      (s := s) (t := t)
    rw [hEq] at hSet
    rcases Action.bind_eq_error_iff.mp hSet with
      hExport | ⟨converted, w₁, hExport, hPut⟩
    · rw [hExport] at hSame
      exact hSame
    · rw [hExport] at hSame
      rcases Action.changeHeap_eq_error_iff.mp hPut with
        ⟨hFails, rfl⟩
      exact hSame

/-
  Writes of fields are atomic, and no access conflicts with
  itself. Whoever has which objects, a set that fails leaves
  every object and every loan as it was. When nobody has an
  object, nothing that is set, looked up or converted fails
  because of a loan, even if the value is or mentions the
  object that is written, or something inside it.
-/
theorem set_is_atomic
    (reg : Registry)
    (b : Box)
    (name : String)
    (hLeaves :
      ∀ id e, Value.Within (.any id e) v → e.LeavesObjects) :
    (∀ w w' e,
      b.set reg.schema name v w = (.error e, w') →
        w'.heap = w.heap) ∧
    (b.set reg.schema name v).AvoidsConflict ∧
    (b.field reg name).AvoidsConflict ∧
    (∀ t : HostType,
      (t.exportAs reg.schema v).AvoidsConflict) ∧
    ∀ (t : HostType) (h : HostValue),
      (Action.onHeap (t.importAs reg.schema h)).AvoidsConflict := by
  refine ⟨?_, ?_, ?_, ?_, ?_⟩
  · exact fun w w' e hSet => heap_of_set_error hLeaves hSet
  · exact set_avoidsConflict b name hLeaves
  · exact field_avoidsConflict reg b name
  · exact fun t => HostType.exportAs_avoidsConflict t hLeaves
  · exact HostType.importAs_avoidsConflict

/-
  A point that is lent to a reader cannot be moved and stays
  as it is. A segment that is free cannot be put, with its
  own finish, into its start; but not because of a loan.
-/
theorem set_is_atomic_plane :
    (let lent := World.withSegment.withHeap
      (World.withSegment.heap.lendToReader ⟨0⟩)
    ∃ w',
      Box.finish.set .plane "y" (.int 9) lent =
        (.error (.borrowed "Point"), w') ∧
      w'.heap = lent.heap) ∧
    ∃ e w',
      Box.segment.set .plane "start"
          (.vector [.boxed .segment, .boxed .finish])
          .withSegment = (.error e, w') ∧
      ¬ e.IsConflict := by
  constructor
  · have hPlain : ∀ id e, ¬ Value.Within (.any id e) (.int 9) := by
      intro id e hWithin
      cases hWithin
    have hAtomic := set_is_atomic (.ofSchema .plane) .finish "y"
      fun id e hWithin => absurd hWithin (hPlain id e)
    exact ⟨_, rfl, hAtomic.1 _ _ _ rfl⟩
  · have hPlain : ∀ id e, ¬ Value.Within (.any id e)
        (.vector [.boxed .segment, .boxed .finish]) := by
      intro id e hWithin
      cases hWithin with
      | arrayItem hMem hInside =>
          simp only [List.mem_cons, List.not_mem_nil, or_false]
            at hMem
          rcases hMem with rfl | rfl <;> cases hInside
    have hAtomic := set_is_atomic (.ofSchema .plane) .segment
      "start" fun id e hWithin => absurd hWithin (hPlain id e)
    exact ⟨_, _, rfl,
      hAtomic.2.1 _ World.isIdle_withSegment _ rfl⟩

end Box

end Interop
