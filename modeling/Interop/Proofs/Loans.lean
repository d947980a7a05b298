import Interop.Proofs.Conflict
import Interop.Proofs.Convert.Acceptance
import Interop.Proofs.Freed
import Interop.Proofs.Marshalling

/-
  What loans are blamed for. An operation may fail only
  because some object is lent: it would have succeeded, had
  all objects been given back. When the operation takes that
  object itself, the failure is a conflict. A reference to an
  object that a writer has is not taken but looked at, and
  then no conflict is reported: an import refuses it as a
  reference to the wrong thing, and a domain value that shows
  it is converted as if it had no host form.

  Main declarations:
    * `HostValue.RefersToLent`
    * `Value.FailsLent`
    * `HostType.RefusesLent`
    * `HostType.exportAs_runsFreed`
    * `HostType.refusesLent_of_importAs`
    * `HostType.importAs_of_lent`
    * `Box.set_runsFreed`
    * `Box.failures_of_loans`
-/

namespace Interop

------------------------------------------------------------
-- References to Lent Objects
------------------------------------------------------------

/- The value, or an element of it, refers to a lent object. -/
def HostValue.RefersToLent
    (heap : Heap)
    (v : HostValue) : Prop :=
  ∃ h, Element (.ref h) v ∧ heap.isReadable h = false

/-
  A list is mapped to the same results by two functions, or
  one of them fails on an element that is to blame for it.
-/
theorem mapM_eq_or
    {α β : Type}
    {f g : α → Option β}
    {blamed : α → Prop}
    {items : List α}
    (hItems : ∀ a ∈ items, g a = f a ∨ f a = none ∧ blamed a) :
    items.mapM g = items.mapM f ∨
      items.mapM f = none ∧ ∃ a ∈ items, blamed a := by
  induction items with
  | nil => exact .inl rfl
  | cons a rest ih =>
      have hRest : ∀ b ∈ rest,
          g b = f b ∨ f b = none ∧ blamed b := by
        intro b hMem
        exact hItems b (List.mem_cons_of_mem a hMem)
      rw [List.mapM_cons, List.mapM_cons]
      rcases hItems a List.mem_cons_self with
        hSame | ⟨hNone, hBlamed⟩
      · rw [hSame]
        rcases ih hRest with hSameRest | ⟨hNone, b, hMem, hBlamed⟩
        · rw [hSameRest]
          exact .inl rfl
        · right
          refine ⟨?_, b, List.mem_cons_of_mem a hMem, hBlamed⟩
          cases f a <;> simp [hNone]
      · right
        refine ⟨?_, a, List.mem_cons_self, hBlamed⟩
        simp [hNone]

namespace HostType

/-
  A host value fits as it would if all was free, or it does
  not fit and refers to a lent object.
-/
theorem fit_freed
    (heap : Heap)
    (t : HostType)
    (v : HostValue) :
    t.fit heap.freed v = t.fit heap v ∨
      t.fit heap v = none ∧ v.RefersToLent heap := by
  induction t generalizing v with
  | seq elem ih =>
      cases v with
      | seq items =>
          simp only [fit]
          rcases mapM_eq_or fun item hMem => ih item with
            hSame | ⟨hNone, item, hMem, h, hElement, hLent⟩
          · rw [hSame]
            exact .inl rfl
          · rw [hNone]
            exact .inr ⟨rfl, h, .item hMem hElement, hLent⟩
      | _ => exact .inl rfl
  | ref id =>
      cases v with
      | ref h =>
          simp only [fit, admits]
          by_cases hFree : heap.isReadable h = true
          · exact .inl (by simp [hFree])
          · rw [Bool.not_eq_true] at hFree
            exact .inr ⟨by simp [hFree], h, .self, hFree⟩
      | _ => exact .inl rfl
  | _ =>
      left
      cases v <;> rfl

end HostType

------------------------------------------------------------
-- Domain Values
------------------------------------------------------------

/-
  Finding the host form changes nothing of the host, and the
  form does not depend on what is lent.
-/
def Exportable.IsBlind (x : Exportable) : Prop :=
  ∀ host, (x.produce host).2 = host ∧
    (x.produce host.freed).1 = (x.produce host).1

/-
  A domain value that occurs in the value shows a reference
  to a lent object, and the failure says that values of its
  type cannot be converted.
-/
def Value.ShowsLent
    (host : Host)
    (v : Value)
    (e : Error) : Prop :=
  ∃ id x form want,
    Within (.any id x) v ∧
    (x.produce host).1 = some form ∧
    form.RefersToLent host.heap ∧
    e.root = .conversion x.typeName want

/- How an export of a value may fail because of loans. -/
def Value.FailsLent
    (host : Host)
    (v : Value)
    (e : Error) : Prop :=
  e.IsConflict ∨ v.ShowsLent host e

namespace Value.FailsLent

variable {host : Host} {v : Value} {e : Error}

/- Saying where it happened does not change the reason. -/
theorem wrap
    (hFails : v.FailsLent host e)
    (i : Nat) :
    v.FailsLent host (.element i e) :=
  hFails

/- An array fails as its elements do. -/
theorem of_mem
    {shape : List Nat}
    {values : List Value}
    (hFails : v.FailsLent host e)
    (hMem : v ∈ values) :
    (Value.array shape values).FailsLent host e := by
  rcases hFails with
    hConflict | ⟨id, x, form, want, hWithin, hShows⟩
  · exact .inl hConflict
  · exact .inr ⟨id, x, form, want, .arrayItem hMem hWithin, hShows⟩

end Value.FailsLent

------------------------------------------------------------
-- Exports
------------------------------------------------------------

/- A box is read as if it were free, or it is borrowed. -/
theorem Box.read_freed
    (s : Schema)
    (heap : Heap)
    (b : Box) :
    b.read s heap.freed = b.read s heap ∨
      b.read s heap = .error (.borrowed (b.type.text s)) := by
  unfold read
  cases heap.isReadable b.handle with
  | true =>
      left
      simp
  | false => exact .inr rfl

namespace HostType

variable {s : Schema} {host : Host} {w : World}

/- So is the box of a record that is exported. -/
theorem exportPlain_freed
    (s : Schema)
    (heap : Heap)
    (t : HostType)
    (v : Value) :
    t.exportPlain s heap.freed v = t.exportPlain s heap v ∨
      ∃ e, t.exportPlain s heap v = .error e ∧ e.IsConflict := by
  have hConflict (type : String) : (Error.borrowed type).IsConflict :=
    ⟨type, rfl⟩
  cases t with
  | record id =>
      cases v with
      | boxed b =>
          simp only [exportPlain, exportRecord]
          rcases b.read_freed s heap with hSame | hLent
          · rw [hSame]
            exact .inl rfl
          · rw [hLent]
            exact .inr ⟨_, rfl, hConflict _⟩
      | _ => exact .inl rfl
  | ref id =>
      cases v with
      | boxed b =>
          simp only [exportPlain, exportRef]
          cases b.isProjection with
          | true => exact .inl rfl
          | false =>
              rcases b.read_freed s heap with hSame | hLent
              · rw [hSame]
                exact .inl rfl
              · rw [hLent]
                exact .inr ⟨_, rfl, hConflict _⟩
      | _ => exact .inl rfl
  | _ =>
      left
      cases v with
      | scalar a => cases a <;> rfl
      | _ => rfl

/- A domain value is not converted by the rule of a type. -/
theorem exportPlain_any
    (heap : Heap)
    {t : HostType}
    {id : Nat}
    {x : Exportable}
    (hSupported : t.isUnsupported = false) :
    ∃ want,
      t.exportPlain s heap (.any id x) =
        .error (.conversion x.typeName want) := by
  cases t <;>
    first
    | exact ⟨_, rfl⟩
    | cases hSupported

/- Only for supported types objects are looked at. -/
theorem isUnsupported_of_fit
    {t : HostType}
    {form : HostValue}
    {before after : Heap}
    (hDiffers : t.fit after form ≠ t.fit before form) :
    t.isUnsupported = false := by
  cases t <;>
    first
    | rfl
    | (cases form <;> exact absurd rfl hDiffers)

/- A host form that is found without changing the host. -/
theorem offered_of_isBlind
    {x : Exportable}
    (hBlind : x.IsBlind)
    (t : HostType)
    (id : Nat)
    (w : World) :
    t.offered s (.any id x) w =
      match (x.produce w.host).1 with
      | none => (.ok none, w)
      | some form =>
          match t.fit w.heap form with
          | some fitted => (.ok (some fitted), w)
          | none =>
              (.ok none,
                w.logging
                  [.misfit x.typeName form.kindName
                    (t.text s)]) := by
  have hLeaves : (x.produce w.host).2 = w.host :=
    (hBlind w.host).1
  have hOnHost :
      Action.onHost x.produce w = (.ok (x.produce w.host).1, w) := by
    simp only [Action.onHost, hLeaves]
  simp only [offered, Action.bind_apply, hOnHost]
  cases (x.produce w.host).1 with
  | none => rfl
  | some form =>
      simp only [Action.bind_apply, Action.fromHeap_apply]
      cases t.fit w.heap form <;> rfl

/-
  What follows the offer of a host form runs as if all was
  free: either the offer does, or the form is dropped since
  it shows a reference to a lent object.
-/
theorem offering_runsFreed
    {t : HostType}
    {v : Value}
    {rest : Option HostValue → Action HostValue}
    (hHost : w.host = host)
    (hBlind : ∀ id x, Value.Within (.any id x) v → x.IsBlind)
    (hRest : ∀ fitted w', w'.host = host →
      Action.RunsFreed (v.FailsLent host) (rest fitted) w')
    (hDropped : ∀ id x w', v = .any id x →
      t.isUnsupported = false →
        ∃ want, (rest none w').1 =
          .error (.conversion x.typeName want)) :
    Action.RunsFreed (v.FailsLent host)
      (t.offered s v >>= rest) w := by
  cases v with
  | any id x =>
      have hMine : x.IsBlind := hBlind id x (.self _)
      have hOffer := offered_of_isBlind (s := s) hMine t id w
      have hFree := offered_of_isBlind (s := s) hMine t id w.freed
      rw [show (x.produce w.freed.host).1 = (x.produce w.host).1
        from (hMine w.host).2] at hFree
      rw [Action.RunsFreed, Action.bind_apply, Action.bind_apply,
        hOffer, hFree]
      cases hForm : (x.produce w.host).1 with
      | none => exact hRest none w hHost
      | some form =>
          simp only [World.heap_freed]
          let logged : World :=
            w.logging [.misfit x.typeName form.kindName (t.text s)]
          have hLogged : logged.host = host := hHost
          rcases fit_freed w.heap t form with
            hSame | ⟨hNone, hLent⟩
          · rw [hSame]
            cases t.fit w.heap form with
            | some fitted => exact hRest (some fitted) w hHost
            | none => exact hRest none _ hLogged
          -- it may not fit for another reason than the loan
          · by_cases hSame :
                t.fit w.heap.freed form = t.fit w.heap form
            · rw [hSame, hNone]
              exact hRest none _ hLogged
            · rcases hDropped id x logged rfl
                  (isUnsupported_of_fit hSame) with
                ⟨want, hFails⟩
              subst hHost
              rw [hNone]
              exact .inr ⟨_, hFails, .inr ⟨id, x, form, want,
                .self _, hForm, hLent, rfl⟩⟩
  | _ => exact hRest none w hHost

/- Domain values that leave the host are all an export runs. -/
theorem host_exportAs
    {t : HostType}
    {v : Value}
    (hBlind : ∀ id x, Value.Within (.any id x) v → x.IsBlind)
    (w : World) :
    (t.exportAs s v w).2.host = w.host := by
  have hAlike : World.Alike (fun _ => true) w (t.exportAs s v w).2 :=
    alike_exportAs (fun id x hWithin host =>
      (hBlind id x hWithin host).1) w
  exact hAlike.host.symm

/-
  An export that fails because of loans fails because of a
  conflict, unless a domain value shows a lent reference. The
  induction follows the type; the elements before one have
  left the host as it was.
-/
theorem exportAs_runsFreed
    (s : Schema)
    (t : HostType)
    {v : Value}
    (hHost : w.host = host)
    (hBlind : ∀ id x, Value.Within (.any id x) v → x.IsBlind) :
    Action.RunsFreed (v.FailsLent host) (t.exportAs s v) w := by
  induction t generalizing v w with
  | seq elem ih =>
      refine offering_runsFreed hHost hBlind ?rest ?dropped
      case rest =>
        intro fitted w hHost
        cases fitted with
        | some h => exact .pure h
        | none =>
            cases v with
            | array shape values =>
                have hItems : ∀ item ∈ values, ∀ id x,
                    Value.Within (.any id x) item → x.IsBlind := by
                  intro item hMem id x hWithin
                  exact hBlind id x (.arrayItem hMem hWithin)
                refine Action.RunsFreed.bind ?_ fun items w' hRun =>
                  .pure _
                refine Action.RunsFreed.eachFrom ?each ?leaves 0 hHost
                case each =>
                  intro i item hMem w hHost
                  apply Action.RunsFreed.mapError
                  · exact fun e hFails => hFails.wrap i
                  · exact (ih hHost (hItems item hMem)).mono
                      fun e hFails => hFails.of_mem hMem
                case leaves =>
                  intro i item hMem
                  apply Action.Steps.mapError
                  intro w
                  exact host_exportAs (hItems item hMem) w
            | _ => exact .fail _
      case dropped =>
        rintro id x w rfl hSupported
        exact ⟨_, rfl⟩
  | _ =>
      refine offering_runsFreed hHost hBlind ?rest ?dropped
      case rest =>
        intro fitted w hHost
        cases fitted with
        | some h => exact .pure h
        | none =>
            apply Action.RunsFreed.fromHeap
            rcases exportPlain_freed s w.heap _ v with
              hSame | ⟨e, hFails, hConflict⟩
            · exact .inl hSame
            · exact .inr ⟨e, hFails, .inl hConflict⟩
      case dropped =>
        rintro id x w rfl hSupported
        exact exportPlain_any w.heap hSupported

------------------------------------------------------------
-- Imports
------------------------------------------------------------

/-
  A reference to a lent object of a type, in a value or as an
  element of it, is refused.
-/
def RefusesLent
    (s : Schema)
    (heap : Heap)
    (v : HostValue)
    (e : Error) : Prop :=
  ∃ id h,
    HostValue.Element (.ref h) v ∧
    heap.isReadable h = false ∧
    (heap.content h).isRecordOf id = true ∧
    e.root = .conversion "reference" ((HostType.ref id).text s)

/-
  An import that fails because of loans refuses a reference
  to a lent object.
-/
theorem refusesLent_of_importAs
    {t : HostType}
    {v : HostValue}
    {heap : Heap}
    {e : Error}
    (hFails : t.importAs s v heap = .error e)
    (hFree : t.accepts heap.freed v = true) :
    RefusesLent s heap v e := by
  have hNoImport : ¬ t.accepts heap v = true := by
    rw [← isOk_importAs_iff s]
    rintro ⟨r, hOk⟩
    cases hFails.symm.trans hOk
  induction t generalizing v e with
  | seq elem ih =>
      cases v with
      | seq items =>
          rcases adds_or_looks s elem with
            hAddsNone | hLooksAtNone
          -- the elements meet the objects of the start
          · rcases Import.eachFrom_fails_here
                (importItem_adds_none hAddsNone)
                (importAs_seq_eq_error_iff.mp hFails) with
              ⟨i, item, hMem, hHere⟩
            rcases Import.mapError_eq_error_iff.mp hHere with
              ⟨cause, hCause, rfl⟩
            have hItemFree := List.all_eq_true.mp hFree item hMem
            have hNoItem : ¬ elem.accepts heap item = true := by
              rw [← isOk_importAs_iff s, hCause]
              rintro ⟨r, hOk⟩
              cases hOk
            rcases ih hCause hItemFree hNoItem with
              ⟨id, h, hElement, hLent⟩
            exact ⟨id, h, .item hMem hElement, hLent⟩
          -- no element is looked up, so none fails for loans
          · simp only [accepts, hLooksAtNone heap heap.freed]
              at hFree hNoImport
            exact absurd hFree hNoImport
      | _ => exact absurd hFree Bool.false_ne_true
  | ref id =>
      cases v with
      | nil => exact absurd rfl hNoImport
      | ref h =>
          simp only [accepts, Heap.isReadable_freed, Bool.true_and,
            Heap.content_freed, Bool.and_eq_true] at hFree hNoImport
          have hLent : heap.isReadable h = false := by
            rw [← Bool.not_eq_true]
            intro hReadable
            exact hNoImport ⟨hReadable, hFree⟩
          rw [importRef_eq_error_iff.mp hFails |>.2]
          exact ⟨id, h, .self, hLent, hFree, rfl⟩
      | _ => exact absurd hFree Bool.false_ne_true
  | _ => cases v <;> exact absurd hFree hNoImport

/- The import fails, but would not if all objects were free. -/
theorem refusesLent_of_failsForLoans
    {t : HostType}
    {v : HostValue}
    {e : Error}
    (hFails : (Action.onHeap (t.importAs s v)).FailsForLoans w e) :
    RefusesLent s w.heap v e := by
  rcases hFails with ⟨hError, a, hOk⟩
  rcases Action.onHeap_eq_error_iff.mp (Prod.ext hError rfl) with
    ⟨hImport, hWorld⟩
  rcases Action.onHeap_eq_ok_iff.mp (Prod.ext hOk rfl) with
    ⟨last, hFree, hLast⟩
  apply refusesLent_of_importAs hImport
  rw [← isOk_importAs_iff s]
  exact ⟨_, hFree⟩

/- It never takes a reference to an object a writer has. -/
theorem importAs_of_lent
    (s : Schema)
    {id : RecordId}
    {h : Handle}
    (hLent : w.heap.isReadable h = false)
    (hRecord : (w.heap.content h).isRecordOf id = true) :
    (Action.onHeap
      ((HostType.ref id).importAs s (.ref h))).FailsForLoans w
        (.conversion "reference" ((HostType.ref id).text s)) := by
  refine ⟨?_, .boxed (.whole h (.record id)), ?_⟩
  · rw [Action.onHeap_of_error]
    apply importRef_eq_error_iff.mpr
    exact ⟨fun hTaken => by simp [hLent] at hTaken, rfl⟩
  · rw [Action.onHeap_of_ok]
    apply importRef_eq_ok_iff.mpr
    exact ⟨Heap.isReadable_freed w.heap h,
      (Heap.content_freed w.heap h).symm ▸ hRecord, rfl, rfl⟩

end HostType

------------------------------------------------------------
-- Members
------------------------------------------------------------

namespace Box

variable {s : Schema} {b : Box} {v : Value} {w : World}
variable {e : Error}

/- A box is updated as if it were free, or it is borrowed. -/
theorem update_freed
    (s : Schema)
    (heap : Heap)
    (b : Box)
    (change : HostValue → Except Error HostValue) :
    b.update s heap.freed change =
        (b.update s heap change).map Heap.freed ∨
      b.update s heap change =
        .error (.borrowed (b.type.text s)) := by
  unfold update
  by_cases hFree : heap.isWritable b.handle = true
  · left
    have hFreed := (Heap.isIdle_freed heap).isWritable b.handle
    simp only [hFree, hFreed, if_true, Heap.content_freed]
    cases (heap.content b.handle).at? b.path with
    | none => rfl
    | some old =>
        cases hChange : change old with
        | error e => simp only [hChange, Except.map]
        | ok new =>
            simp only [hChange, Except.map, Heap.store_freed]
  · exact .inr (if_neg hFree)

/- A field is read as if the box were free, or not at all. -/
theorem readField_freed
    (s : Schema)
    (heap : Heap)
    (b : Box)
    (index : Nat) :
    b.readField s heap.freed index = b.readField s heap index ∨
      b.readField s heap index =
        .error (.borrowed (b.type.text s)) := by
  unfold readField
  rcases b.read_freed s heap with hSame | hLent
  · rw [hSame]
    exact .inl rfl
  · rw [hLent]
    exact .inr rfl

/-
  A field that cannot be set because of loans is in a box
  that is lent, or its new value cannot be exported.
-/
theorem set_runsFreed
    (s : Schema)
    (b : Box)
    (name : String)
    (w : World)
    (hBlind : ∀ id x, Value.Within (.any id x) v → x.IsBlind) :
    Action.RunsFreed (v.FailsLent w.host) (b.set s name v) w := by
  rcases set_cases s b name v with
    ⟨e, hError, hSet⟩ | ⟨index, t, hSet⟩
  · rw [hSet]
    exact .fail e
  · rw [hSet]
    refine Action.RunsFreed.bind
      (HostType.exportAs_runsFreed s t rfl hBlind) ?_
    intro converted w' hExport
    apply Action.RunsFreed.changeHeap
    rcases b.update_freed s w'.heap _ with hSame | hLent
    · exact .inl hSame
    · exact .inr ⟨_, hLent, .inl ⟨_, rfl⟩⟩

/- What a field holds, in a box that is read, is imported. -/
theorem fieldAt_failsForLoans
    {index : Nat}
    {t : HostType}
    (hFails : (b.fieldAt s index t).FailsForLoans w e) :
    e.IsConflict ∨
      ∃ content,
        b.readField s w.heap index = .ok content ∧
        HostType.RefusesLent s w.heap content e := by
  have hConverted
      (hImported : Action.FailsForLoans (do
        let v ← Action.fromHeap fun heap => b.readField s heap index
        Action.onHeap (t.importAs s v)) w e) :
      e.IsConflict ∨
        ∃ content,
          b.readField s w.heap index = .ok content ∧
          HostType.RefusesLent s w.heap content e := by
    rcases hImported with ⟨hError, a, hOk⟩
    simp only [Action.bind_apply, Action.fromHeap_apply,
      World.heap_freed] at hError hOk
    rcases b.readField_freed s w.heap index with hSame | hLent
    · rw [hSame] at hOk
      cases hRead : b.readField s w.heap index with
      | error cause =>
          rw [hRead] at hOk
          cases hOk
      | ok content =>
          rw [hRead] at hOk hError
          right
          refine ⟨content, rfl, ?_⟩
          exact HostType.refusesLent_of_failsForLoans
            ⟨hError, a, hOk⟩
    · rw [hLent] at hError
      cases hError
      exact .inl ⟨_, rfl⟩
  cases t with
  | record id =>
      rcases hFails with ⟨hError, hOk⟩
      cases hError
  | _ => exact hConverted hFails

/- Looking for a member fails as reading a field does. -/
theorem field_failsForLoans
    {reg : Registry}
    {name : String}
    (hFails : (b.field reg name).FailsForLoans w e) :
    e.IsConflict ∨
      ∃ index content,
        b.readField reg.schema w.heap index = .ok content ∧
        HostType.RefusesLent reg.schema w.heap content e := by
  have hMethod (m : Method) (bound : String) :
      ¬ Action.FailsForLoans (do
        let identity ← Action.fresh
        pure (some (Value.function identity
          (.callable (.bind bound m b))))) w e := by
    rintro ⟨hError, hOk⟩
    cases hError
  have hNothing :
      ¬ Action.FailsForLoans
        (pure none : Action (Option Value)) w e := by
    rintro ⟨hError, hOk⟩
    cases hError
  unfold field at hFails
  simp only at hFails
  split at hFails
  · exact absurd hFails hNothing
  · split at hFails
    · exact absurd hFails (hMethod _ _)
    · split at hFails
      · exact absurd hFails hNothing
      · split at hFails
        · exact absurd hFails hNothing
        · rename_i index hIndex _ f hField
          rcases fieldAt_failsForLoans (.of_map hFails) with
            hConflict | ⟨content, hRead, hRefuses⟩
          · exact .inl hConflict
          · exact .inr ⟨index, content, hRead, hRefuses⟩

/-
  What loans are blamed for. Where an export or a set fails,
  but would not if all objects had been given back, there is
  a conflict, or a domain value shows a lent reference. Where
  an import fails that would not, it refuses a reference to a
  lent object; no conflict is reported. Where the look-up of
  a member fails that would not, its box is lent, or a field
  holds such a reference.
-/
theorem failures_of_loans
    (reg : Registry)
    (b : Box)
    (name : String)
    (w : World)
    (e : Error)
    (hBlind : ∀ id x, Value.Within (.any id x) v → x.IsBlind) :
    let s := reg.schema
    (∀ t : HostType, (t.exportAs s v).FailsForLoans w e →
      v.FailsLent w.host e) ∧
    ((b.set s name v).FailsForLoans w e →
      v.FailsLent w.host e) ∧
    (∀ (t : HostType) h,
      (Action.onHeap (t.importAs s h)).FailsForLoans w e →
        HostType.RefusesLent s w.heap h e) ∧
    ((b.field reg name).FailsForLoans w e →
      e.IsConflict ∨
        ∃ index content,
          b.readField s w.heap index = .ok content ∧
          HostType.RefusesLent s w.heap content e) := by
  intro s
  refine ⟨?exported, ?put, ?imported, ?member⟩
  case exported =>
    intro t hFails
    have hHost : w.host = w.host := rfl
    exact (HostType.exportAs_runsFreed s t hHost hBlind)
      |>.of_failsForLoans hFails
  case put =>
    exact (set_runsFreed s b name w hBlind).of_failsForLoans
  case imported =>
    intro t h hFails
    exact HostType.refusesLent_of_failsForLoans hFails
  case member =>
    exact field_failsForLoans

/- A point in a segment that is being read cannot be moved. -/
theorem failures_of_loans_plane :
    let lent := World.withSegment.withHeap
      (World.withSegment.heap.lendToReader ⟨0⟩)
    (Box.finish.set .plane "y" (.int 9)).FailsForLoans lent
        (.borrowed "Point") ∧
      (Value.int 9).FailsLent lent.host (.borrowed "Point") := by
  intro lent
  have hPlain : ∀ id x, ¬ Value.Within (.any id x) (.int 9) := by
    intro id x hWithin
    cases hWithin
  have hBlame := failures_of_loans (.ofSchema .plane) .finish "y"
    lent (.borrowed "Point")
    fun id x hWithin => absurd hWithin (hPlain id x)
  have hFails :
      (Box.finish.set .plane "y" (.int 9)).FailsForLoans lent
        (.borrowed "Point") :=
    ⟨rfl, (), rfl⟩
  exact ⟨hFails, hBlame.2.1 hFails⟩

/-
  While a writer has the segment, a reference to it is not
  imported, and the failure is no conflict.
-/
theorem importAs_of_lent_segment :
    let lent := World.withSegment.withHeap
      (World.withSegment.heap.lendToWriter ⟨0⟩)
    let refused := Error.conversion "reference" "&Segment"
    (Action.onHeap
      ((HostType.ref ⟨1⟩).importAs .plane
        (.ref ⟨0⟩))).FailsForLoans lent refused ∧
      ¬ refused.IsConflict :=
  ⟨HostType.importAs_of_lent .plane rfl rfl,
    (Error.isMisfit_conversion _ _).not_isConflict⟩

end Box

end Interop
