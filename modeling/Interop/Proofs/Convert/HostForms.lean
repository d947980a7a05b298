import Interop.Proofs.Convert.Failures
import Interop.Proofs.Reexport
import Interop.Proofs.Typing.Places

/-
  The host forms of domain values. A domain value presents a
  host value, which is fitted into a type by rules that are
  written apart from those for the values of the interpreter.
  Both agree: where the form has a counterpart among the
  values of the interpreter, the domain value exports exactly
  when the counterpart does, and to the same host value. Yet
  it fails as a whole, without the position of an element.

  An unsigned integer that 64 signed bits do not hold has no
  counterpart, and only the widest unsigned kind takes it.

  Main declarations:
    * `HostValue.asValue?`
    * `HostType.IsData`
    * `HostType.exportAs_of_asValue`
    * `HostType.fit_keeps_large`
    * `HostType.exportAs_any_agrees`
-/

namespace Interop

------------------------------------------------------------
-- Counterparts
------------------------------------------------------------

namespace HostValue

mutual

/-
  The value of the interpreter with the same numbers, texts
  and vectors, if there is one.
-/
def asValue? : HostValue → Option Value
| .int i => some (.int i)
| .uint n =>
    if IntKind.i64.contains n.toNat then
      some (.int (.ofNat n.toNat))
    else
      none
| .float x => some (.float x)
| .complex re im => some (.complex re im)
| .str text => some (.str text)
| .seq items => (asValues? items).map .vector
| _ => none

/- The counterparts of all items, if each has one. -/
def asValues? : List HostValue → Option (List Value)
| [] => some []
| h :: rest =>
    h.asValue?.bind fun v => (asValues? rest).map (v :: ·)

end

/- Unsigned integers with counterparts are in signed range. -/
theorem asValue?_uint_eq_some_iff
    {n : UInt64}
    {v : Value} :
    (HostValue.uint n).asValue? = some v ↔
      IntKind.i64.contains n.toNat = true ∧
        .int (.ofNat n.toNat) = v := by
  simp [asValue?]

/- The counterpart of a sequence is a vector. -/
theorem asValue?_seq_eq_some_iff
    {items : List HostValue}
    {v : Value} :
    (HostValue.seq items).asValue? = some v ↔
      ∃ values, asValues? items = some values ∧
        .vector values = v := by
  simp [asValue?]

/- Counterparts of items are found one after another. -/
theorem asValues?_cons_eq_some_iff
    {h : HostValue}
    {rest : List HostValue}
    {values : List Value} :
    asValues? (h :: rest) = some values ↔
      ∃ v others, h.asValue? = some v ∧
        asValues? rest = some others ∧
        v :: others = values := by
  simp [asValues?, Option.bind_eq_some_iff]

end HostValue

namespace HostType

variable {s : Schema} {heap later : Heap}

/- The type is made of numbers, texts and sequences only. -/
def IsData : HostType → Prop
| .int _ | .float _ | .complex _ | .str => True
| .seq elem => elem.IsData
| _ => False

------------------------------------------------------------
-- Both Sets of Rules
------------------------------------------------------------

/-
  At a type without elements, a host value fits exactly when
  its counterpart converts, and they end up the same. A heap
  plays no part in either.
-/
theorem toOption_exportPlain
    {t : HostType}
    {h : HostValue}
    {v : Value}
    (hData : t.IsData)
    (hNe : ∀ elem, t ≠ .seq elem)
    (hValue : h.asValue? = some v) :
    (t.exportPlain s heap v).toOption = t.fit later h := by
  cases t with
  | int kind =>
      cases h with
      | int i =>
          cases hValue
          simp only [exportPlain, fit]
          cases storeInt kind i.toInt <;> rfl
      | uint n =>
          rcases HostValue.asValue?_uint_eq_some_iff.mp hValue with
            ⟨hFits, rfl⟩
          simp only [exportPlain, fit, IntKind.toInt_ofNat hFits]
          cases storeInt kind n.toNat <;> rfl
      | seq items =>
          rcases HostValue.asValue?_seq_eq_some_iff.mp hValue with
            ⟨values, hValues, rfl⟩
          rfl
      | _ => cases hValue <;> rfl
  | float kind | complex kind | str =>
      cases h with
      | uint n =>
          rcases HostValue.asValue?_uint_eq_some_iff.mp hValue with
            ⟨hFits, rfl⟩
          rfl
      | seq items =>
          rcases HostValue.asValue?_seq_eq_some_iff.mp hValue with
            ⟨values, hValues, rfl⟩
          rfl
      | _ => cases hValue <;> rfl
  | seq elem => exact absurd rfl (hNe elem)
  | _ => exact absurd hData not_false

/- A counterpart is no domain value. -/
theorem ne_any_of_asValue
    {h : HostValue}
    {v : Value}
    (hValue : h.asValue? = some v)
    (id : Nat)
    (e : Exportable) :
    v ≠ .any id e := by
  rintro rfl
  cases h <;> simp [HostValue.asValue?, Value.vector] at hValue

/-
  The items of a sequence fit exactly when the counterparts
  convert, given that this is so for each of them. The first
  one that does not ends both.
-/
theorem exportItems_of_asValues
    {elem : HostType}
    {items : List HostValue}
    {values : List Value}
    {i : Nat}
    {w : World}
    (hElem : ∀ {h v}, h.asValue? = some v →
      ∃ outcome,
        elem.exportAs s v w = (outcome, w) ∧
        outcome.toOption = elem.fit later h)
    (hValues : HostValue.asValues? items = some values) :
    ∃ outcome,
      eachFrom (exportItem s elem) i values w = (outcome, w) ∧
      outcome.toOption =
        items.mapM fun item => elem.fit later item := by
  induction items generalizing values i with
  | nil =>
      cases hValues
      exact ⟨.ok [], rfl, rfl⟩
  | cons h rest ih =>
      rcases HostValue.asValues?_cons_eq_some_iff.mp hValues with
        ⟨v, others, hValue, hOthers, rfl⟩
      rcases hElem hValue with ⟨first, hExport, hFirst⟩
      rcases ih (i := i + 1) hOthers with ⟨tail, hEach, hTail⟩
      rw [eachFrom, List.mapM_cons, ← hFirst, ← hTail]
      cases first with
      | error cause =>
          refine ⟨.error (.element i cause), ?_, rfl⟩
          rw [Action.bind_apply, exportItem, Action.mapError,
            hExport]
      | ok k =>
          have hItem : exportItem s elem i v w = (.ok k, w) :=
            Action.mapError_eq_ok_iff.mpr hExport
          simp only [Action.bind_apply, hItem, hEach]
          cases tail with
          | error e => exact ⟨.error e, rfl, rfl⟩
          | ok ks => exact ⟨.ok (k :: ks), rfl, rfl⟩

/-
  A host value fits into a type of data exactly when its
  counterpart exports, and they end up the same.
-/
theorem exportAs_of_asValue
    {t : HostType}
    {h : HostValue}
    {v : Value}
    (hData : t.IsData)
    (hValue : h.asValue? = some v)
    (w : World) :
    ∃ outcome,
      t.exportAs s v w = (outcome, w) ∧
      outcome.toOption = t.fit later h := by
  induction t generalizing h v with
  | seq elem ih =>
      cases h with
      | seq items =>
          rcases HostValue.asValue?_seq_eq_some_iff.mp hValue with
            ⟨values, hValues, rfl⟩
          have hElem {h v} := ih (h := h) (v := v) hData
          rcases exportItems_of_asValues (i := 0) hElem hValues with
            ⟨outcome, hEach, hSame⟩
          rw [Value.vector, exportAs_seq_array, each, fit, ← hSame]
          simp only [Action.bind_apply, hEach]
          cases outcome with
          | error e => exact ⟨.error e, rfl, rfl⟩
          | ok ks => exact ⟨.ok (.seq ks), rfl, rfl⟩
      | uint n =>
          rcases HostValue.asValue?_uint_eq_some_iff.mp hValue with
            ⟨hFits, rfl⟩
          exact ⟨_, rfl, rfl⟩
      | _ => cases hValue <;> exact ⟨_, rfl, rfl⟩
  | _ =>
      rw [exportAs_of_ne_any (by simp) (ne_any_of_asValue hValue),
        Action.fromHeap_apply]
      exact ⟨_, rfl, toOption_exportPlain hData (by simp) hValue⟩

------------------------------------------------------------
-- Integers without Counterparts
------------------------------------------------------------

/-
  An unsigned integer beyond the signed ones fits into the
  widest unsigned kind only, where it stays as it is.
-/
theorem fit_large_eq_some_iff
    {t : HostType}
    {n : UInt64}
    {k : HostValue}
    (hLarge : (HostValue.uint n).IsBeyondSigned) :
    t.fit heap (.uint n) = some k ↔
      t = .int .u64 ∧ k = .uint n := by
  rcases hLarge with ⟨m, hSame, hLarge⟩
  cases hSame
  cases t with
  | int kind =>
      have hUpper : n.toNat < 2 ^ 64 := n.toNat_lt
      have hIn :
          kind.contains n.toNat = true ↔ kind = .u64 := by
        simp only [IntKind.highest] at hLarge
        cases kind <;>
          simp [IntKind.contains_iff, IntKind.lowest,
            IntKind.highest] <;> omega
      rw [fit, storeInt_eq_some_iff, hIn]
      constructor
      · rintro ⟨rfl, rfl⟩
        simp [IntKind.isUnsigned]
      · rintro ⟨hKind, rfl⟩
        cases hKind
        simp [IntKind.isUnsigned]
  | _ => simp [fit, admits]

/-
  Wherever a form that fits holds such an integer, the type
  has the widest unsigned kind, and the integer is stored
  unchanged at the same position.
-/
theorem fit_keeps_large
    {t : HostType}
    {path : List Nat}
    {form k : HostValue}
    {n : UInt64}
    (hFit : t.fit heap form = some k)
    (hPart : partAt? HostValue.entries? path form = some (.uint n))
    (hLarge : (HostValue.uint n).IsBeyondSigned) :
    t.elementAt? path.length = some (.int .u64) ∧
      partAt? HostValue.entries? path k = some (.uint n) := by
  induction path generalizing t form k with
  | nil =>
      cases hPart
      rcases (fit_large_eq_some_iff hLarge).mp hFit with
        ⟨rfl, rfl⟩
      exact ⟨rfl, rfl⟩
  | cons i path ih =>
      cases form with
      | seq items =>
          cases t with
          | seq elem =>
              rcases fit_seq_eq_some hFit with
                ⟨own, fitted, hOwn, rfl, hItems⟩
              cases hOwn
              simp only [partAt?, HostValue.entries?,
                Option.bind_some, Option.bind_eq_some_iff] at hPart
              rcases hPart with ⟨u, hGet, hInside⟩
              rcases forall₂_getElem? (i := i) hItems with
                ⟨hNone, hOther⟩ | ⟨a, b, hA, hB, hFits⟩
              · rw [hNone] at hGet
                cases hGet
              · cases hA.symm.trans hGet
                rcases ih hFits hInside with ⟨hType, hKept⟩
                refine ⟨hType, ?_⟩
                simp [partAt?, HostValue.entries?, hB, hKept]
          | _ => cases hFit
      | _ => cases hPart

------------------------------------------------------------
-- Exports of Domain Values
------------------------------------------------------------

variable {id : Nat} {e : Exportable} {h : HostValue} {w : World}

/-
  At a type of data, a domain value that does not export says
  so as a whole, by its name and that of the type.
-/
theorem exportAs_any_eq_error
    {t : HostType}
    {error : Error}
    (hData : t.IsData)
    (hFails : (t.exportAs s (.any id e) w).1 = .error error) :
    error = .conversion e.typeName (t.text s) := by
  rcases isOk_offered (s := s) t (.any id e) w with
    ⟨found, hOffer⟩
  rcases hRun : t.offered s (.any id e) w with ⟨outcome, w'⟩
  rw [hRun] at hOffer
  subst hOffer
  by_cases hSeq : ∃ elem, t = .seq elem
  · rcases hSeq with ⟨elem, rfl⟩
    rw [exportAs_seq_any, Action.bind_apply, hRun] at hFails
    cases found <;> cases hFails
    rfl
  · rw [exportAs_of_ne_seq (not_exists.mp hSeq),
      Action.bind_apply, hRun] at hFails
    cases found with
    | some k => cases hFails
    | none =>
        cases t with
        | int kind | float kind | complex kind | str =>
            cases hFails
            rfl
        | seq elem => exact absurd ⟨elem, rfl⟩ hSeq
        | _ => exact absurd hData not_false

/-
  Domain values agree with plain ones. A domain value whose
  host form has a counterpart exports to a type of data
  exactly when the counterpart does, in whatever worlds, and
  to the same host value; if not, it fails as a whole.

  An unsigned integer beyond the signed ones goes into the
  widest unsigned kind only, as it is, and so do all that a
  form has among its elements.
-/
theorem exportAs_any_agrees
    (s : Schema)
    (id : Nat)
    {e : Exportable}
    {h : HostValue}
    {w : World}
    (hForm : (e.produce w.host).1 = some h) :
    (∀ (t : HostType) (v : Value) (w' : World),
      t.IsData → h.asValue? = some v →
        (∀ k, (t.exportAs s (.any id e) w).1 = .ok k ↔
          (t.exportAs s v w').1 = .ok k) ∧
        ∀ error, (t.exportAs s (.any id e) w).1 = .error error →
          error = .conversion e.typeName (t.text s)) ∧
    (∀ (kind : IntKind) (n : UInt64) (k : HostValue),
      h = .uint n → IntKind.i64.highest < n.toNat →
        (((HostType.int kind).exportAs s (.any id e) w).1 = .ok k ↔
          kind = .u64 ∧ k = .uint n)) ∧
    ∀ (t : HostType) (path : List Nat) (n : UInt64) (k : HostValue),
      partAt? HostValue.entries? path h = some (.uint n) →
      IntKind.i64.highest < n.toNat →
      (t.exportAs s (.any id e) w).1 = .ok k →
        t.elementAt? path.length = some (.int .u64) ∧
        partAt? HostValue.entries? path k = some (.uint n) := by
  refine ⟨?_, ?_, ?_⟩
  · intro t v w' hData hValue
    refine ⟨?_, fun error => exportAs_any_eq_error hData⟩
    intro k
    rcases exportAs_of_asValue (s := s) hData hValue w' with
      ⟨outcome, hExport, hSame⟩
    rw [exportAs_any_eq_ok_iff hForm, hExport, ← hSame]
    cases outcome <;> simp [Except.toOption]
  · rintro kind n k rfl hLarge
    rw [exportAs_any_eq_ok_iff hForm,
      fit_large_eq_some_iff ⟨n, rfl, hLarge⟩, HostType.int.injEq]
  · intro t path n k hPart hLarge hOk
    exact fit_keeps_large ((exportAs_any_eq_ok_iff hForm).mp hOk)
      hPart ⟨n, rfl, hLarge⟩

end HostType

/- A domain value that presents two measurements. -/
def Exportable.readings : Exportable where
  typeName := "readings"
  display := "readings"
  produce := fun host => (some (.seq [.uint 7, .int 300]), host)

namespace HostType

/-
  The readings go where the vector goes. As bytes, the second
  one is out of range, which the vector says by its position.
-/
theorem exportAs_any_agrees_readings :
    let form : HostValue := .seq [.uint 7, .int 300]
    let vector : Value := .vector [.int 7, .int 300]
    let bytes : HostType := .seq (.int .u8)
    (Exportable.readings.produce World.initial.host).1 = some form ∧
      form.asValue? = some vector ∧
      (∀ k,
        ((HostType.seq (.int .i16)).exportAs .empty
            (.any 0 .readings) .initial).1 = .ok k ↔
          ((HostType.seq (.int .i16)).exportAs .empty vector
            .initial).1 = .ok k) ∧
      (bytes.exportAs .empty vector .initial).1 =
        .error (.element 1 (.conversion "integer 300" "u8")) ∧
      ∀ error,
        (bytes.exportAs .empty (.any 0 .readings) .initial).1 =
            .error error →
          error = .conversion "readings" (bytes.text .empty) := by
  have hForm :
      (Exportable.readings.produce World.initial.host).1 =
        some (.seq [.uint 7, .int 300]) := rfl
  have hValue :
      (HostValue.seq [.uint 7, .int 300]).asValue? =
        some (.vector [.int 7, .int 300]) := rfl
  rcases exportAs_any_agrees .empty 0 hForm with
    ⟨hAgrees, hLarge⟩
  refine ⟨hForm, hValue, ?_, rfl, ?_⟩
  · exact (hAgrees (.seq (.int .i16)) _ _ trivial hValue).1
  · exact (hAgrees (.seq (.int .u8)) _ .initial trivial hValue).2

end HostType

end Interop

