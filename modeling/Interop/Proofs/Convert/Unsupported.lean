import Interop.Proofs.Convert.Acceptance
import Interop.Proofs.Convert.Export

/-
  Types that do not convert: maps, channels, interfaces and
  the error slot. Importing at such a type fails whatever the
  host value, and so does exporting, with one exception: a
  domain value may present a host form that stands in a slot
  of the type, which is nil or a value of the error slot, and
  then that form is taken as it is.

  Inside sequences the same holds of each element that is
  reached at the type.

  Main declarations:
    * `HostType.Passes`
    * `Value.Presents`
    * `HostType.nested`
    * `HostValue.Reaches`
    * `Value.Reaches`
    * `HostType.exportAs_unsupported_eq_ok_iff`
    * `HostType.exportAs_unsupported_eq_error_iff`
    * `HostType.exportAs_nested_unsupported`
    * `HostType.conversions_unsupported`
-/

namespace Interop

------------------------------------------------------------
-- Host Forms That Pass
------------------------------------------------------------

/-
  What can stand in a slot of a type that does not convert:
  nil where something is referred to, or an error slot.
-/
inductive HostType.Passes : HostType → HostValue → Prop where
| map
    (key value : HostType) :
    Passes (.map key value) .nil
| chan
    (elem : HostType) :
    Passes (.chan elem) .nil
| interface
    (name : String) :
    Passes (.interface name) .nil
| error
    (fault : Option Fault) :
    Passes .error (.error fault)

/- A domain value has a host form that passes for a type. -/
def Value.Presents
    (v : Value)
    (t : HostType)
    (host : Host)
    (h : HostValue) : Prop :=
  ∃ id e, v = .any id e ∧ (e.produce host).1 = some h ∧ t.Passes h

namespace HostType

variable {s : Schema} {t : HostType}

/- Host forms for such a type are not changed to fit. -/
theorem fit_unsupported_eq_some_iff
    {heap : Heap}
    {form h : HostValue}
    (hUnsupported : t.isUnsupported = true) :
    t.fit heap form = some h ↔ h = form ∧ t.Passes form := by
  constructor
  · intro hFit
    cases t with
    | map key value =>
        cases form with
        | nil =>
            cases hFit
            exact ⟨rfl, .map key value⟩
        | _ => cases hFit
    | chan elem =>
        cases form with
        | nil =>
            cases hFit
            exact ⟨rfl, .chan elem⟩
        | _ => cases hFit
    | interface name =>
        cases form with
        | nil =>
            cases hFit
            exact ⟨rfl, .interface name⟩
        | _ => cases hFit
    | error =>
        cases form with
        | error fault =>
            cases hFit
            exact ⟨rfl, .error fault⟩
        | _ => cases hFit
    | _ => cases hUnsupported
  · rintro ⟨rfl, hPasses⟩
    cases hPasses <;> rfl

/- No value is stored by the rule of such a type. -/
theorem exportPlain_unsupported
    (hUnsupported : t.isUnsupported = true)
    (heap : Heap)
    (v : Value) :
    t.exportPlain s heap v = .error (.unsupported (t.text s)) := by
  cases t <;>
    first
    | rfl
    | cases hUnsupported

/- No host value is imported at such a type. -/
theorem importAs_unsupported
    (hUnsupported : t.isUnsupported = true)
    (h : HostValue)
    (heap : Heap) :
    t.importAs s h heap = .error (.unsupported (t.text s)) := by
  cases t <;>
    first
    | rfl
    | cases hUnsupported

/- Such a type is no type of sequences. -/
theorem ne_seq_of_isUnsupported
    (hUnsupported : t.isUnsupported = true)
    (elem : HostType) :
    t ≠ .seq elem := by
  rintro rfl
  cases hUnsupported

------------------------------------------------------------
-- Exports
------------------------------------------------------------

/- Only a host form that passes is exported. -/
theorem exportAs_unsupported_eq_ok_iff
    {v : Value}
    {h : HostValue}
    {w : World}
    (hUnsupported : t.isUnsupported = true) :
    (t.exportAs s v w).1 = .ok h ↔ v.Presents t w.host h := by
  have hNe := ne_seq_of_isUnsupported hUnsupported
  constructor
  · intro hOk
    rcases hRun : t.exportAs s v w with ⟨outcome, w'⟩
    rw [hRun] at hOk
    subst hOk
    cases yields_of_exportAs hRun with
    | offered hValue hForm hFit =>
        rcases (fit_unsupported_eq_some_iff hUnsupported).mp hFit
          with ⟨rfl, hPasses⟩
        exact ⟨_, _, hValue, hForm, hPasses⟩
    | items hType => exact absurd hType (hNe _)
    | plain hNoSeq hStores =>
        cases hStores <;> cases hUnsupported
  · rintro ⟨id, e, rfl, hForm, hPasses⟩
    exact exportAs_any_of_fit hForm
      ((fit_unsupported_eq_some_iff hUnsupported).mpr
        ⟨rfl, hPasses⟩)

/- An export at such a type fails for the type alone. -/
theorem exportAs_unsupported_fails
    {v : Value}
    {e : Error}
    {w : World}
    (hUnsupported : t.isUnsupported = true)
    (hFails : (t.exportAs s v w).1 = .error e) :
    e = .unsupported (t.text s) := by
  rw [exportAs_of_ne_seq (ne_seq_of_isUnsupported hUnsupported),
    Action.bind_apply] at hFails
  rcases isOk_offered (s := s) t v w with ⟨found, hOffer⟩
  rcases hRun : t.offered s v w with ⟨outcome, w'⟩
  rw [hRun] at hOffer hFails
  subst hOffer
  cases found with
  | some fitted => cases hFails
  | none =>
      simp only [Action.fromHeap_apply,
        exportPlain_unsupported hUnsupported] at hFails
      cases hFails
      rfl

/- It fails unless a host form passes. -/
theorem exportAs_unsupported_eq_error_iff
    {v : Value}
    {e : Error}
    {w : World}
    (hUnsupported : t.isUnsupported = true) :
    (t.exportAs s v w).1 = .error e ↔
      e = .unsupported (t.text s) ∧
        ∀ h, ¬ v.Presents t w.host h := by
  constructor
  · intro hFails
    refine ⟨exportAs_unsupported_fails hUnsupported hFails, ?_⟩
    intro h hPresents
    have hOk :=
      (exportAs_unsupported_eq_ok_iff (s := s) hUnsupported).mpr
        hPresents
    rw [hFails] at hOk
    cases hOk
  · rintro ⟨rfl, hNothing⟩
    cases hRun : (t.exportAs s v w).1 with
    | error cause =>
        rw [exportAs_unsupported_fails hUnsupported hRun]
    | ok h =>
        have hPresents :=
          (exportAs_unsupported_eq_ok_iff hUnsupported).mp hRun
        exact absurd hPresents (hNothing h)

end HostType

------------------------------------------------------------
-- Elements at a Depth
------------------------------------------------------------

/- Sequences of sequences of a type, a number of times. -/
def HostType.nested : Nat → HostType → HostType
| 0, t => t
| depth + 1, t => .seq (nested depth t)

/- An element of a host value, that many sequences down. -/
inductive HostValue.Reaches
    (u : HostValue) : Nat → HostValue → Prop where
| here :
    Reaches u 0 u
| item
    {depth : Nat}
    {v : HostValue}
    {items : List HostValue}
    (hMem : v ∈ items)
    (hInside : Reaches u depth v) :
    Reaches u (depth + 1) (.seq items)

/- An element of a value, that many arrays down. -/
inductive Value.Reaches
    (u : Value) : Nat → Value → Prop where
| here :
    Reaches u 0 u
| item
    {depth : Nat}
    {v : Value}
    {shape : List Nat}
    {values : List Value}
    (hMem : v ∈ values)
    (hInside : Reaches u depth v) :
    Reaches u (depth + 1) (.array shape values)

namespace HostType

variable {s : Schema} {t : HostType}

/- No element is taken by an import. -/
theorem not_reaches_of_accepts
    {depth : Nat}
    {h u : HostValue}
    {heap : Heap}
    (hUnsupported : t.isUnsupported = true)
    (hAccepts : (t.nested depth).accepts heap h = true) :
    ¬ u.Reaches depth h := by
  intro hReaches
  induction hReaches with
  | here =>
      cases t with
      | map | chan | interface | error => cases hAccepts
      | _ => cases hUnsupported
  | item hMem hInside ih =>
      simp only [nested, accepts, List.all_eq_true] at hAccepts
      exact ih (hAccepts _ hMem)

/- Each element that is left by fitting passes. -/
theorem passes_of_fit
    {depth : Nat}
    {form h u : HostValue}
    {heap : Heap}
    (hUnsupported : t.isUnsupported = true)
    (hFit : (t.nested depth).fit heap form = some h)
    (hReaches : u.Reaches depth h) :
    t.Passes u := by
  induction hReaches generalizing form with
  | here =>
      rcases (fit_unsupported_eq_some_iff hUnsupported).mp hFit
        with ⟨rfl, hPasses⟩
      exact hPasses
  | item hMem hInside ih =>
      rcases fit_seq_eq_some hFit with
        ⟨forms, fitted, rfl, hSeq, hItems⟩
      cases hSeq
      rcases exists_of_mem_forall₂ hItems hMem with
        ⟨item, hIn, hItem⟩
      exact ih hItem

/-
  An export at nested sequences of such a type goes through
  only if each element that it meets presents a host form,
  and each element of the result passes. The induction is on
  the depth, one layer of sequences at a time.
-/
theorem exportAs_nested_unsupported
    {depth : Nat}
    {v : Value}
    {h : HostValue}
    {w w' : World}
    (hUnsupported : t.isUnsupported = true)
    (hExport : (t.nested depth).exportAs s v w = (.ok h, w')) :
    (∀ u : Value, u.Reaches depth v →
      ∃ host k, u.Presents t host k) ∧
    ∀ k : HostValue, k.Reaches depth h → t.Passes k := by
  induction depth generalizing v h w w' with
  | zero =>
      have hPresents :=
        (exportAs_unsupported_eq_ok_iff hUnsupported).mp
          (congrArg Prod.fst hExport)
      constructor
      · intro u hReaches
        cases hReaches
        exact ⟨w.host, h, hPresents⟩
      · intro k hReaches
        cases hReaches
        rcases hPresents with ⟨id, e, hValue, hForm, hPasses⟩
        exact hPasses
  | succ depth ih =>
      cases yields_of_exportAs hExport with
      | offered hValue hForm hFit =>
          constructor
          · intro u hReaches
            subst hValue
            cases hReaches
          · intro k hReaches
            exact passes_of_fit hUnsupported hFit hReaches
      | items hType hValue hEach =>
          cases hType
          subst hValue
          rcases forall₂_of_exportEach (R := fun _ _ => True)
              (fun _ => trivial) (fun _ _ _ _ _ => trivial)
              (fun _ _ _ => trivial) hEach with
            ⟨hDone, hItems⟩
          constructor
          · intro u hReaches
            cases hReaches with
            | item hMem hInside =>
                rcases exists_of_mem_forall₂ hItems.flip hMem with
                  ⟨k, hIn, w₁, w₂, hBefore, hItem, hAfter⟩
                exact (ih hItem).1 u hInside
          · intro k hReaches
            cases hReaches with
            | item hMem hInside =>
                rcases exists_of_mem_forall₂ hItems hMem with
                  ⟨item, hIn, w₁, w₂, hBefore, hItem, hAfter⟩
                exact (ih hItem).2 k hInside
      | plain hNe hStores => exact absurd rfl (hNe _)

/-
  Conversions at a type that does not convert. An import
  fails and names the type; nested in sequences, it goes
  through only if there are no elements of the type. So does
  an export, but for domain values: one that presents a host
  form that passes is exported as this form.
-/
theorem conversions_unsupported
    (s : Schema)
    (hUnsupported : t.isUnsupported = true) :
    (∀ h heap,
      t.importAs s h heap = .error (.unsupported (t.text s))) ∧
    (∀ depth h heap,
      (∃ r, (t.nested depth).importAs s h heap = .ok r) →
        ∀ u : HostValue, ¬ u.Reaches depth h) ∧
    (∀ v w h,
      (t.exportAs s v w).1 = .ok h ↔ v.Presents t w.host h) ∧
    (∀ v w e,
      (t.exportAs s v w).1 = .error e ↔
        e = .unsupported (t.text s) ∧
          ∀ h, ¬ v.Presents t w.host h) ∧
    ∀ depth v w h w',
      (t.nested depth).exportAs s v w = (.ok h, w') →
        (∀ u : Value, u.Reaches depth v →
          ∃ host k, u.Presents t host k) ∧
        ∀ k : HostValue, k.Reaches depth h → t.Passes k := by
  refine ⟨importAs_unsupported hUnsupported, ?_, ?_, ?_, ?_⟩
  · intro depth h heap hOk u
    exact not_reaches_of_accepts hUnsupported
      ((isOk_importAs_iff s _ h heap).mp hOk)
  · intro v w h
    exact exportAs_unsupported_eq_ok_iff hUnsupported
  · intro v w e
    exact exportAs_unsupported_eq_error_iff hUnsupported
  · intro depth v w h w' hExport
    exact exportAs_nested_unsupported hUnsupported hExport

end HostType

/- A domain value that presents itself as nil. -/
def Exportable.absent : Exportable where
  typeName := "absent"
  display := "absent"
  produce := fun host => (some .nil, host)

namespace HostType

/-
  Numbers are not exported into a table, nor into a list of
  tables unless there are none.
-/
theorem conversions_unsupported_table :
    let table : HostType := .map .str (.int .i64)
    table.isUnsupported = true ∧
    (∀ w : World,
      (table.exportAs .empty (.int 7) w).1 =
        .error (.unsupported (table.text .empty))) ∧
    ∀ (w w' : World) (h : HostValue),
      ((HostType.seq table).exportAs .empty (.vector [.int 7]) w) ≠
        (.ok h, w') := by
  have hTable :
      (HostType.map .str (.int .i64)).isUnsupported = true := rfl
  have hNumber : ∀ host k,
      ¬ (Value.int 7).Presents (.map .str (.int .i64)) host k := by
    rintro host k ⟨id, e, hValue, hForm, hPasses⟩
    cases hValue
  rcases conversions_unsupported .empty hTable with
    ⟨hImport, hImportNested, hOk, hError, hNested⟩
  refine ⟨hTable, ?_, ?_⟩
  · intro w
    exact (hError _ w _).mpr ⟨rfl, hNumber w.host⟩
  · intro w w' h hExport
    rcases (hNested 1 _ w h w' hExport).1 (.int 7)
        (.item List.mem_cons_self .here) with
      ⟨host, k, hPresents⟩
    exact hNumber host k hPresents

/- What presents itself as nil is exported into a table. -/
theorem exportAs_map_of_nil :
    (HostType.map .str (.int .i64)).exportAs .empty
        (.any 0 .absent) .initial =
      (.ok .nil, .initial) := rfl

end HostType

end Interop
