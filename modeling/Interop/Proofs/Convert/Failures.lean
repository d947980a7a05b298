import Interop.Proofs.Convert.Acceptance
import Interop.Proofs.Convert.Export
import Interop.Proofs.Marshalling

/-
  Where conversions fail. A conversion that fails at a type
  of sequences fails at one of the elements, and the failure
  wraps that of the element in its position. So it is a chain
  of positions, one for each level, with a cause at its end
  that is no wrapper. The positions lead to a part of the
  value and to a type, and converting this part at this type
  fails with the cause itself. All elements before the chain
  convert, and those after it do not matter.

  This is so in both directions, and it is proved for both at
  once: of a way to convert it is asked only that it fails at
  sequences with the first failing element.

  Main declarations:
    * `partAt?`
    * `HostType.elementAt?`
    * `AgreesThrough`
    * `Error.along`
    * `HostType.FailsByElements`
    * `HostType.FailsAt`
    * `HostType.FailsByElements.exists_failsAt`
    * `HostType.exportAs_failsByElements`
    * `HostType.importAs_failsByElements`
    * `HostType.conversions_pinpoint`
-/

namespace Interop

------------------------------------------------------------
-- Positions in Nested Values
------------------------------------------------------------

section

variable {α : Type}

/-
  The part of a value that a path of positions leads to. What
  entries a value has, if any, is left open.
-/
def partAt?
    (entries? : α → Option (List α)) :
    List Nat → α → Option α
| [], a => some a
| i :: path, a =>
    (entries? a).bind fun entries =>
      (entries[i]?).bind (partAt? entries? path)

/-
  The second value agrees with the first one up to the end of
  a path: at each level it has the same entries before the
  position that is taken, and the same part in the end. What
  comes after the path is left open.
-/
def AgreesThrough
    (entries? : α → Option (List α)) :
    List Nat → α → α → Prop
| [], a, a' => a' = a
| i :: path, a, a' =>
    ∃ entries entries' u u',
      entries? a = some entries ∧
      entries? a' = some entries' ∧
      entries'.take i = entries.take i ∧
      entries[i]? = some u ∧
      entries'[i]? = some u' ∧
      AgreesThrough entries? path u u'

end

/- The elements of an array, in flat order. -/
def Value.entries? : Value → Option (List Value)
| .array _ values => some values
| _ => none

/- The elements of a sequence. -/
def HostValue.entries? : HostValue → Option (List HostValue)
| .seq items => some items
| _ => none

/- The type of elements, that many sequences down. -/
def HostType.elementAt? : Nat → HostType → Option HostType
| 0, t => some t
| depth + 1, .seq elem => elem.elementAt? depth
| _ + 1, _ => none

------------------------------------------------------------
-- Chains of Positions
------------------------------------------------------------

namespace Error

/- A failure that happened at the end of a path. -/
def along
    (path : List Nat)
    (cause : Error) : Error :=
  path.foldr .element cause

/- A failure that does not wrap another one. -/
def IsBare (e : Error) : Prop :=
  (∀ i cause, e ≠ .argument i cause) ∧
    ∀ i cause, e ≠ .element i cause

theorem isBare_conversion
    (got want : String) :
    (Error.conversion got want).IsBare := by
  simp [IsBare]

theorem isBare_unsupported
    (kind : String) :
    (Error.unsupported kind).IsBare := by
  simp [IsBare]

/- There is nothing below what is no wrapper. -/
theorem IsBare.root
    {e : Error}
    (hBare : e.IsBare) :
    e.root = e := by
  cases e with
  | argument i cause => exact absurd rfl (hBare.1 i cause)
  | element i cause => exact absurd rfl (hBare.2 i cause)
  | _ => rfl

end Error

/- A box that cannot be read says so itself. -/
theorem Box.isBare_of_read
    {s : Schema}
    {heap : Heap}
    {b : Box}
    {e : Error}
    (hRead : b.read s heap = .error e) :
    e.IsBare := by
  unfold read at hRead
  split at hRead
  · split at hRead
    · cases hRead
    · cases hRead
      simp [Error.IsBare]
  · cases hRead
    simp [Error.IsBare]

namespace HostType

variable {α β : Type}
variable {entries? : α → Option (List α)} {tame : α → Prop}
variable {convert : HostType → α → Except Error β}

------------------------------------------------------------
-- Conversions of Nested Values
------------------------------------------------------------

/-
  A conversion fails at sequences when an element does, with
  the position and the failure of the first one, and at all
  else for a reason of its own. This may be limited to some
  values, and then their entries are among them.
-/
structure FailsByElements
    (entries? : α → Option (List α))
    (tame : α → Prop)
    (convert : HostType → α → Except Error β) : Prop where
  tame_entry : ∀ {a entries},
    tame a → entries? a = some entries → ∀ u ∈ entries, tame u
  elements : ∀ {elem a entries e},
    tame a → entries? a = some entries →
      (convert (.seq elem) a = .error e ↔
        ∃ k cause,
          FirstFailure (entries.map (convert elem)) k cause ∧
          e = .element k cause)
  bare : ∀ {t a e},
    tame a → (∀ elem, t = .seq elem → entries? a = none) →
      convert t a = .error e → e.IsBare

/-
  A conversion has failed at the end of a path: the failure
  is the chain of its positions, and what stands below them
  is the failure of the part at the end, at the type there.
  At each level, the elements before the position convert,
  and the failure is the same for all values that agree up to
  the end of the path.
-/
structure FailsAt
    (entries? : α → Option (List α))
    (tame : α → Prop)
    (convert : HostType → α → Except Error β)
    (t : HostType)
    (a : α)
    (e : Error)
    (path : List Nat)
    (cause : Error) : Prop where
  chain : e = cause.along path
  root : e.root = cause
  bare : cause.IsBare
  part : ∃ u elem,
    partAt? entries? path a = some u ∧
    t.elementAt? path.length = some elem ∧
    convert elem u = .error cause
  earlier : ∀ above i below, path = above ++ i :: below →
    ∀ j < i, ∃ u elem b,
      partAt? entries? (above ++ [j]) a = some u ∧
      t.elementAt? (above.length + 1) = some elem ∧
      convert elem u = .ok b
  alone : ∀ a', tame a' → AgreesThrough entries? path a a' →
    convert t a' = .error e

/- A failure that is no wrapper is its own cause. -/
theorem FailsAt.here
    {t : HostType}
    {a : α}
    {e : Error}
    (hBare : e.IsBare)
    (hFails : convert t a = .error e) :
    FailsAt entries? tame convert t a e [] e where
  chain := rfl
  root := hBare.root
  bare := hBare
  part := ⟨a, t, rfl, rfl, hFails⟩
  earlier above i below hPath := by simp at hPath
  alone a' hTame hAgrees := by
    rw [hAgrees]
    exact hFails

/- A failing element takes the failure one level down. -/
theorem FailsAt.element
    {elem : HostType}
    {a u : α}
    {entries : List α}
    {e cause : Error}
    {k : Nat}
    {path : List Nat}
    (hLaw : FailsByElements entries? tame convert)
    (hEntries : entries? a = some entries)
    (hFirst : FirstFailure (entries.map (convert elem)) k e)
    (hGet : entries[k]? = some u)
    (hInner :
      FailsAt entries? tame convert elem u e path cause) :
    FailsAt entries? tame convert (.seq elem) a (.element k e)
      (k :: path) cause where
  chain := congrArg (Error.element k) hInner.chain
  root := hInner.root
  bare := hInner.bare
  part := by
    rcases hInner.part with ⟨v, inner, hPart, hType, hFails⟩
    refine ⟨v, inner, ?_, hType, hFails⟩
    simp [partAt?, hEntries, hGet, hPart]
  earlier above i below hPath j hBefore := by
    cases above with
    | nil =>
        -- the position is the one that was taken here
        simp only [List.nil_append, List.cons.injEq] at hPath
        rw [← hPath.1] at hBefore
        rcases hFirst.2 j hBefore with ⟨b, hOk⟩
        rw [List.getElem?_map, Option.map_eq_some_iff] at hOk
        rcases hOk with ⟨v, hEarlier, hConverts⟩
        refine ⟨v, elem, b, ?_, rfl, hConverts⟩
        simp [partAt?, hEntries, hEarlier]
    | cons first above =>
        simp only [List.cons_append, List.cons.injEq] at hPath
        rcases hInner.earlier above i below hPath.2 j hBefore with
          ⟨v, inner, b, hPart, hType, hConverts⟩
        refine ⟨v, inner, b, ?_, hType, hConverts⟩
        simp [partAt?, hEntries, ← hPath.1, hGet, hPart]
  alone a' hTame hAgrees := by
    rcases hAgrees with
      ⟨own, entries', v, u', hOwn, hEntries', hTake, hAt, hAt',
        hRest⟩
    cases hEntries.symm.trans hOwn
    cases hGet.symm.trans hAt
    have hTame' : tame u' :=
      hLaw.tame_entry hTame hEntries' u' (List.mem_of_getElem? hAt')
    apply (hLaw.elements hTame hEntries').mpr
    refine ⟨k, e, ⟨?_, ?_⟩, rfl⟩
    · rw [List.getElem?_map, hAt', Option.map_some,
        hInner.alone u' hTame' hRest]
    · intro j hBefore
      rcases hFirst.2 j hBefore with ⟨b, hOk⟩
      refine ⟨b, ?_⟩
      have hSame : entries'[j]? = entries[j]? := by
        rw [← List.getElem?_take_of_lt hBefore, hTake,
          List.getElem?_take_of_lt hBefore]
      rw [List.getElem?_map, hSame, ← List.getElem?_map]
      exact hOk

/-
  A conversion that fails has failed at the end of some path.
  The induction follows the type: each level of sequences
  gives one position.
-/
theorem FailsByElements.exists_failsAt
    {t : HostType}
    {a : α}
    {e : Error}
    (hLaw : FailsByElements entries? tame convert)
    (hTame : tame a)
    (hFails : convert t a = .error e) :
    ∃ path cause,
      FailsAt entries? tame convert t a e path cause := by
  induction t generalizing a e with
  | seq elem ih =>
      cases hEntries : entries? a with
      | none =>
          have hBare : e.IsBare :=
            hLaw.bare hTame (fun _ _ => hEntries) hFails
          exact ⟨[], e, .here hBare hFails⟩
      | some entries =>
          rcases (hLaw.elements hTame hEntries).mp hFails with
            ⟨k, inner, hFirst, rfl⟩
          have hAt := hFirst.1
          rw [List.getElem?_map, Option.map_eq_some_iff] at hAt
          rcases hAt with ⟨u, hGet, hInner⟩
          have hTameEntry : tame u :=
            hLaw.tame_entry hTame hEntries u
              (List.mem_of_getElem? hGet)
          rcases ih hTameEntry hInner with ⟨path, cause, hFound⟩
          exact ⟨k :: path, cause,
            hFound.element hLaw hEntries hFirst hGet⟩
  | _ =>
      have hBare : e.IsBare := hLaw.bare hTame (by simp) hFails
      exact ⟨[], e, .here hBare hFails⟩

/-
  Steps over a list that fail with the step for the first
  entry, or go on to the rest once it has converted, fail
  with the first entry that does not convert.
-/
theorem fails_iff_firstFailure
    (tame : α → Prop)
    (one : α → Except Error β)
    (Fails : Nat → List α → Error → Prop)
    (hNil : ∀ i e, ¬ Fails i [] e)
    (hCons : ∀ i a rest e, tame a →
      (Fails i (a :: rest) e ↔
        (∃ cause, one a = .error cause ∧ e = .element i cause) ∨
          (∃ b, one a = .ok b) ∧ Fails (i + 1) rest e))
    {entries : List α}
    {i : Nat}
    {e : Error}
    (hTame : ∀ a ∈ entries, tame a) :
    Fails i entries e ↔
      ∃ k cause,
        FirstFailure (entries.map one) k cause ∧
        e = .element (i + k) cause := by
  induction entries generalizing i with
  | nil =>
      refine iff_of_false (hNil i e) ?_
      rintro ⟨k, cause, hFirst, hChain⟩
      exact absurd hFirst.1 (by simp)
  | cons a rest ih =>
      have hRest := ih (i := i + 1) fun u hMem =>
        hTame u (List.mem_cons_of_mem a hMem)
      rw [hCons i a rest e (hTame a List.mem_cons_self), hRest,
        List.map_cons]
      cases hOne : one a with
      | error own =>
          simp only [FirstFailure.cons_error_iff]
          constructor
          · rintro (⟨cause, hSame, rfl⟩ | ⟨⟨b, hOk⟩, hLater⟩)
            · cases hSame
              exact ⟨0, own, ⟨rfl, rfl⟩, rfl⟩
            · cases hOk
          · rintro ⟨k, cause, ⟨rfl, rfl⟩, rfl⟩
            exact .inl ⟨cause, rfl, rfl⟩
      | ok b =>
          simp only [FirstFailure.cons_ok_iff]
          constructor
          · rintro (⟨cause, hFails, hChain⟩ |
              ⟨hOk, k, cause, hFirst, rfl⟩)
            · cases hFails
            · refine ⟨k + 1, cause, ⟨k, rfl, hFirst⟩, ?_⟩
              congr 1
              omega
          · rintro ⟨k, cause, ⟨j, rfl, hFirst⟩, rfl⟩
            refine .inr ⟨⟨b, rfl⟩, j, cause, hFirst, ?_⟩
            congr 1
            omega

------------------------------------------------------------
-- Exports and Imports
------------------------------------------------------------

variable {s : Schema} {w : World} {heap : Heap}

/-
  A plain element changes nothing when it is exported, so the
  elements after it are exported in the world of the start.
-/
theorem exportItems_cons_eq_error_iff
    {elem : HostType}
    {v : Value}
    {rest : List Value}
    {i : Nat}
    {e : Error}
    (hPlain : v.IsPlain) :
    (eachFrom (exportItem s elem) i (v :: rest) w).1 = .error e ↔
      (∃ cause,
        (elem.exportAs s v w).1 = .error cause ∧
        e = .element i cause) ∨
      (∃ h, (elem.exportAs s v w).1 = .ok h) ∧
        (eachFrom (exportItem s elem) (i + 1) rest w).1 =
          .error e := by
  rcases hRun : elem.exportAs s v w with ⟨outcome, w₁⟩
  have hWorld : w₁ = w := by
    have hSame := world_exportAs (s := s) (t := elem) hPlain w
    rwa [hRun] at hSame
  rw [hWorld] at hRun
  rw [eachFrom, Action.bind_apply]
  cases outcome with
  | error cause =>
      have hItem :
          exportItem s elem i v w =
            (.error (.element i cause), w) :=
        Action.mapError_eq_error_iff.mpr ⟨cause, hRun, rfl⟩
      rw [hItem]
      simp [eq_comm]
  | ok h =>
      have hItem : exportItem s elem i v w = (.ok h, w) :=
        Action.mapError_eq_ok_iff.mpr hRun
      rw [hItem]
      simp only [Action.bind_apply]
      rcases eachFrom (exportItem s elem) (i + 1) rest w with
        ⟨_ | _, _⟩ <;> simp

/- Exports of plain values fail by elements. -/
theorem exportAs_failsByElements
    (s : Schema)
    (w : World) :
    FailsByElements Value.entries? Value.IsPlain
      fun t v => (t.exportAs s v w).1 where
  tame_entry {v entries} hPlain hEntries u hMem := by
    cases v with
    | array shape values =>
        cases hEntries
        exact hPlain.of_mem_array hMem
    | _ => cases hEntries
  elements {elem v entries e} hPlain hEntries := by
    cases v with
    | array shape values =>
        cases hEntries
        have hSteps :
            ((HostType.seq elem).exportAs s (.array shape entries)
              w).1 = .error e ↔
            (each (exportItem s elem) entries w).1 = .error e := by
          rw [exportAs_seq_array, Action.bind_apply]
          rcases each (exportItem s elem) entries w with
            ⟨_ | _, _⟩ <;> simp
        rw [hSteps]
        have hIff := fails_iff_firstFailure (i := 0) (e := e)
          Value.IsPlain
          (fun v => (elem.exportAs s v w).1)
          (fun i values e =>
            (eachFrom (exportItem s elem) i values w).1 = .error e)
          (fun i e hFails => by cases hFails)
          (fun i v rest e hPlain =>
            exportItems_cons_eq_error_iff hPlain)
          (fun v hMem => hPlain.of_mem_array hMem)
        simpa only [Nat.zero_add] using hIff
    | _ => cases hEntries
  bare {t v e} hPlain hNoEntries hFails := by
    by_cases hSeq : ∃ elem, t = .seq elem
    · rcases hSeq with ⟨elem, rfl⟩
      cases v with
      | array shape values => cases hNoEntries elem rfl
      | any id e => exact absurd rfl (hPlain.ne_any id e)
      | _ =>
          cases hFails
          exact Error.isBare_conversion _ _
    · rw [exportAs_of_plain (not_exists.mp hSeq) hPlain] at hFails
      cases refuses_of_exportPlain hFails with
      | misfit got want => exact Error.isBare_conversion got want
      | unsupported kind => exact Error.isBare_unsupported kind
      | unread hValue hRead => exact Box.isBare_of_read hRead

/-
  Imports fail by elements, each of which may be imported by
  itself on the heap of the start: what the elements before
  it add makes no difference to how it fails.
-/
theorem importAs_failsByElements
    (s : Schema)
    (heap : Heap) :
    FailsByElements HostValue.entries? (fun _ => True)
      fun t h => t.importAs s h heap where
  tame_entry _ _ _ _ := trivial
  elements {elem h entries e} _ hEntries := by
    cases h with
    | seq items =>
        cases hEntries
        rw [importAs_seq_eq_error_iff]
        have hIff := fails_iff_firstFailure (i := 0) (e := e)
          (fun _ => True)
          (fun h => elem.importAs s h heap)
          (fun i items e =>
            eachFrom (importItem s elem) i items heap = .error e)
          (fun i e hFails => by cases hFails)
          ?_ (fun h (_ : h ∈ entries) => trivial)
        · simpa only [Nat.zero_add] using hIff
        · intro i h rest e hTame
          rw [Import.eachFrom_cons_eq_error_iff,
            Import.mapError_eq_error_iff]
          constructor
          · rintro (hHere | ⟨a, mid, hFirst, hRest⟩)
            · exact .inl hHere
            · have hImport := Import.mapError_eq_ok_iff.mp hFirst
              exact .inr ⟨⟨_, hImport⟩,
                (importItems_fail_after_iff hImport).mp hRest⟩
          · rintro (hHere | ⟨⟨⟨a, mid⟩, hImport⟩, hRest⟩)
            · exact .inl hHere
            · exact .inr ⟨a, mid,
                Import.mapError_eq_ok_iff.mpr hImport,
                (importItems_fail_after_iff hImport).mpr hRest⟩
    | _ => cases hEntries
  bare {t h e} _ hNoEntries hFails := by
    have hNoElements :
        ∀ elem items, t = .seq elem → h ≠ .seq items := by
      rintro elem items rfl rfl
      cases hNoEntries elem rfl
    rcases importAs_eq_error_at_once hNoElements hFails with
      ⟨got, want, rfl⟩ | ⟨kind, rfl⟩
    · exact Error.isBare_conversion got want
    · exact Error.isBare_unsupported kind

/-
  Failing conversions pinpoint the first failing element. An
  export of a plain value that fails, and an import that
  fails, do so with a chain of positions that leads to a part
  of the value and to a type, at which this part alone fails
  with the cause at the end of the chain. At each level the
  elements before the position convert, and those after it
  have no influence on the failure.
-/
theorem conversions_pinpoint
    (s : Schema)
    (w : World) :
    (∀ (t : HostType) (v : Value) (e : Error),
      v.IsPlain →
      (t.exportAs s v w).1 = .error e →
        ∃ path cause,
          FailsAt Value.entries? Value.IsPlain
            (fun t v => (t.exportAs s v w).1) t v e path cause) ∧
    ∀ (t : HostType) (h : HostValue) (e : Error),
      t.importAs s h w.heap = .error e →
        ∃ path cause,
          FailsAt HostValue.entries? (fun _ => True)
            (fun t h => t.importAs s h w.heap) t h e path cause := by
  constructor
  · intro t v e hPlain hFails
    exact (exportAs_failsByElements s w).exists_failsAt hPlain hFails
  · intro t h e hFails
    exact (importAs_failsByElements s w.heap).exists_failsAt trivial
      hFails

/-
  The second number of the second row is too large for a
  byte, and the second entry of the second list is no Boolean.
-/
theorem conversions_pinpoint_rows :
    (let bytes : HostType := .seq (.seq (.int .u8))
    let rows : Value :=
      .array [1, 2]
        [.vector [.int 1], .array [1, 2] [.int 3, .int 300]]
    let e : Error :=
      .element 1 (.element 1 (.conversion "integer 300" "u8"))
    rows.IsPlain ∧
      (bytes.exportAs .empty rows .initial).1 = .error e ∧
      ∃ path cause,
        FailsAt Value.entries? Value.IsPlain
          (fun t v => (t.exportAs .empty v .initial).1)
          bytes rows e path cause) ∧
    (let bits : HostType := .seq (.seq .bool)
    let lists : HostValue :=
      .seq [.seq [.bool true], .seq [.bool false, .nil]]
    let e : Error :=
      .element 1 (.element 1 (.conversion "host nil" "bool"))
    bits.importAs .empty lists World.initial.heap = .error e ∧
      ∃ path cause,
        FailsAt HostValue.entries? (fun _ => True)
          (fun t h => t.importAs .empty h World.initial.heap)
          bits lists e path cause) := by
  have hPinpoint := conversions_pinpoint .empty .initial
  constructor
  · have hPlain :
        (Value.array [1, 2]
          [.vector [.int 1],
            .array [1, 2] [.int 3, .int 300]]).IsPlain := by
      apply Value.IsPlain.of_elements
      intro v hMem
      simp only [List.mem_cons, List.not_mem_nil, or_false] at hMem
      rcases hMem with rfl | rfl
      · apply Value.IsPlain.of_elements
        simp [Value.IsPlain.of_scalar]
      · apply Value.IsPlain.of_elements
        simp [Value.IsPlain.of_scalar]
    exact ⟨hPlain, rfl, hPinpoint.1 _ _ _ hPlain rfl⟩
  · exact ⟨rfl, hPinpoint.2 _ _ _ rfl⟩

end HostType

end Interop
