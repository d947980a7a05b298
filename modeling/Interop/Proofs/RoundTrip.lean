import Interop.Proofs.Convert.Export
import Interop.Proofs.Convert.Import
import Interop.Proofs.Place
import Interop.Proofs.Plane

/-
  Importing undoes exporting. A value without domain values
  that was exported at a type comes back from an import at
  that type, with its numbers rounded to the widths of the
  type, its arrays flat, its references to the very objects,
  and its records by value in boxes of fresh copies.

  Main declarations:
    * `Value.ComesBack`
    * `HostType.readsBack_of_exportAs`
    * `HostType.importAs_exportAs`
-/

namespace Interop

------------------------------------------------------------
-- Normal Forms Along a Type
------------------------------------------------------------

mutual

/-
  What a value becomes when it goes to the host at a type
  and comes back. Boxes are resolved in the heap `start`. The
  copies of records are the objects of the heap `last` from
  number `first` on, one for each record in order, up to
  `next`.
-/
inductive Value.ComesBack (s : Schema) (start last : Heap) :
    HostType → Value → Value → Nat → Nat → Prop where
| bool
    {i : Int64}
    {first : Nat}
    (hBit : i = 0 ∨ i = 1) :
    ComesBack s start last .bool (.int i) (.int i) first first
| int
    {kind : IntKind}
    {i : Int64}
    {first : Nat}
    (hRange : kind.contains i.toInt = true) :
    ComesBack s start last (.int kind) (.int i) (.int i)
      first first
| float
    {kind : FloatKind}
    {x : Binary64}
    {first : Nat} :
    ComesBack s start last (.float kind) (.float x)
      (.float (kind.narrow x)) first first
| complex
    {kind : FloatKind}
    {re im : Binary64}
    {first : Nat} :
    ComesBack s start last (.complex kind) (.complex re im)
      (.complex (kind.narrow re) (kind.narrow im)) first first
| str
    {text : String}
    {first : Nat} :
    ComesBack s start last .str (.str text) (.str text)
      first first
| seq
    {elem : HostType}
    {shape : List Nat}
    {values values' : List Value}
    {first next : Nat}
    (hItems :
      AllComeBack s start last elem values values' first next)
    (hLength : values'.length = values.length) :
    ComesBack s start last (.seq elem) (.array shape values)
      (.array [values.length] values') first next
| record
    {id : RecordId}
    {b : Box}
    {content : HostValue}
    {first : Nat}
    (hRead : b.read s start = .ok content)
    (hRecord : content.isRecordOf id = true)
    (hFresh : start.size ≤ first)
    (hCopy : last.cell ⟨first⟩ = .free content) :
    ComesBack s start last (.record id) (.boxed b)
      (.boxed (.whole ⟨first⟩ (.record id))) first (first + 1)
| ref
    {id : RecordId}
    {b c : Box}
    {first : Nat}
    (hWhole : b.isProjection = false)
    (hSame : c.sameObject b = true)
    (hTag : c.type = .record id) :
    ComesBack s start last (.ref id) (.boxed b) (.boxed c)
      first first
| nil
    {id : RecordId}
    {shape : List Nat}
    {first : Nat} :
    ComesBack s start last (.ref id) (.array shape []) .empty
      first first

/- What the elements of an array become, in order. -/
inductive Value.AllComeBack (s : Schema) (start last : Heap) :
    HostType → List Value → List Value → Nat → Nat → Prop where
| nil
    {elem : HostType}
    {first : Nat} :
    AllComeBack s start last elem [] [] first first
| cons
    {elem : HostType}
    {v v' : Value}
    {rest rest' : List Value}
    {first mid next : Nat}
    (hFirst : ComesBack s start last elem v v' first mid)
    (hRest : AllComeBack s start last elem rest rest' mid next) :
    AllComeBack s start last elem (v :: rest) (v' :: rest')
      first next

end

/- Each element comes back as one element. -/
theorem Value.length_of_allComeBack
    {s : Schema}
    {start last : Heap}
    {first next : Nat}
    {elem : HostType}
    {values values' : List Value}
    (hItems :
      AllComeBack s start last elem values values' first next) :
    values'.length = values.length := by
  induction values generalizing values' first with
  | nil =>
      cases hItems
      rfl
  | cons v rest ih =>
      cases hItems with
      | cons hFirst hRest => simp [ih hRest]

/- Elements stay what they became where each of them does. -/
theorem Value.allComeBack_congr
    {s : Schema}
    {start last last' : Heap}
    {first next : Nat}
    {elem : HostType}
    {values values' : List Value}
    (hElem : ∀ {v v' : Value} {first next : Nat},
      ComesBack s start last elem v v' first next →
        ComesBack s start last' elem v v' first next)
    (hItems :
      AllComeBack s start last elem values values' first next) :
    AllComeBack s start last' elem values values' first next := by
  induction values generalizing values' first with
  | nil =>
      cases hItems
      exact .nil
  | cons v rest ih =>
      cases hItems with
      | cons hFirst hRest => exact .cons (hElem hFirst) (ih hRest)

/- What came back depends on the copies of records only. -/
theorem Value.ComesBack.congr
    {s : Schema}
    {start last last' : Heap}
    {first next : Nat}
    {t : HostType}
    {v v' : Value}
    (hCopies : ∀ k : Handle, start.size ≤ k.index →
      last'.cell k = last.cell k)
    (hBack : ComesBack s start last t v v' first next) :
    ComesBack s start last' t v v' first next := by
  induction t generalizing v v' first next with
  | seq elem ih =>
      cases hBack with
      | seq hItems hLength =>
          exact .seq (allComeBack_congr ih hItems) hLength
  | record id =>
      cases hBack with
      | record hRead hRecord hFresh hCopy =>
          refine .record hRead hRecord hFresh ?_
          rw [hCopies _ hFresh, hCopy]
  | _ => cases hBack <;> constructor <;> assumption

------------------------------------------------------------
-- Importing Exports
------------------------------------------------------------

namespace HostType

variable {s : Schema} {w : World}

/- An integer of 64 bits is stored as what reads back. -/
theorem importAs_storeInt
    {kind : IntKind}
    {i : Int64}
    {h : HostValue}
    {before : Heap}
    (hStore : storeInt kind i.toInt = some h) :
    (HostType.int kind).importAs s h before =
      .ok (.int i, before) := by
  rcases storeInt_eq_some_iff.mp hStore with ⟨hRange, rfl⟩
  cases hSign : kind.isUnsigned with
  | false =>
      simp only [Bool.false_eq_true, if_false, Int64.ofInt_toInt]
      rfl
  | true =>
      have hBounds := (kind.contains_iff i.toInt).mp hRange
      rw [kind.lowest_eq_zero hSign] at hBounds
      have hUpper := i.toInt_lt
      have hNat :
          (UInt64.ofNat i.toInt.toNat).toNat = i.toInt.toNat := by
        apply UInt64.toNat_ofNat_of_lt'
        simp only [UInt64.size]
        omega
      have hFits :
          IntKind.i64.contains (UInt64.ofNat i.toInt.toNat).toNat =
            true := by
        rw [IntKind.contains_iff, hNat]
        simp only [IntKind.lowest, IntKind.highest]
        omega
      have hBack :
          Int64.ofNat (UInt64.ofNat i.toInt.toNat).toNat = i := by
        rw [hNat, ← Int64.ofInt_eq_ofNat, Int.toNat_of_nonneg hBounds.1,
          Int64.ofInt_toInt]
      simp only [if_true, importAs, hFits, hBack]
      rfl

/-
  A record that was copied from a box is taken into a fresh
  object.
-/
theorem importAs_record_of_isRecordOf
    {id : RecordId}
    {h : HostValue}
    {before : Heap}
    (hRecord : h.isRecordOf id = true) :
    (HostType.record id).importAs s h before =
      .ok (.boxed (.whole before.next (.record id)),
        (before.alloc h).2) := by
  rcases HostValue.isRecordOf_iff.mp hRecord with ⟨values, rfl⟩
  simp only [importAs, if_true]
  rfl

/-
  A reference to an object that was a readable record at the
  export is one still, since objects were only added.
-/
theorem importAs_ref_of_isPrefix
    {id : RecordId}
    {b : Box}
    {content : HostValue}
    {heap before : Heap}
    (hPrefix : heap.cells <+: before.cells)
    (hPath : b.path = [])
    (hRead : b.read s heap = .ok content)
    (hRecord : content.isRecordOf id = true) :
    (HostType.ref id).importAs s (.ref b.handle) before =
      .ok (.boxed (.whole b.handle (.record id)), before) := by
  rcases Box.read_eq_ok_iff.mp hRead with ⟨hReadable, hAt⟩
  rw [hPath] at hAt
  have hContent : heap.content b.handle = content :=
    Option.some.inj hAt
  have hOld : b.handle.index < heap.size :=
    Heap.lt_size_of_isRecordOf (hContent.symm ▸ hRecord)
  apply importRef_eq_ok_iff.mpr
  refine ⟨?_, ?_, rfl, rfl⟩
  · rw [Heap.isReadable, Heap.loan_of_isPrefix hPrefix hOld]
    exact hReadable
  · rw [Heap.content_of_isPrefix hPrefix hOld, hContent]
    exact hRecord

/-
  A value exported at a type reads back after objects were
  added: the import succeeds, adds objects only, and gives
  the normal form in every heap that keeps these objects.
-/
def ReadsBack
    (s : Schema)
    (start : Heap)
    (t : HostType)
    (v : Value)
    (h : HostValue) : Prop :=
  ∀ before, start.cells <+: before.cells →
    ∃ v' after,
      t.importAs s h before = .ok (v', after) ∧
      before.cells <+: after.cells ∧
      ∀ last, after.cells <+: last.cells →
        Value.ComesBack s start last t v v'
          before.size after.size

/- Types other than sequences: what was stored reads back. -/
theorem readsBack_of_exportPlain
    {t : HostType}
    {v : Value}
    {h : HostValue}
    {start : Heap}
    (hExport : t.exportPlain s start v = .ok h) :
    ReadsBack s start t v h := by
  intro before hPrefix
  have hRefl := List.prefix_refl before.cells
  cases stores_of_exportPlain hExport with
  | bool b =>
      cases b with
      | false =>
          exact ⟨_, before, rfl, hRefl,
            fun _ _ => .bool (.inl rfl)⟩
      | true =>
          exact ⟨_, before, rfl, hRefl,
            fun _ _ => .bool (.inr rfl)⟩
  | int hStore =>
      have hRange := (storeInt_eq_some_iff.mp hStore).1
      exact ⟨_, before, importAs_storeInt hStore, hRefl,
        fun _ _ => .int hRange⟩
  | float kind x =>
      exact ⟨_, before, rfl, hRefl, fun _ _ => .float⟩
  | complex kind re im =>
      exact ⟨_, before, rfl, hRefl, fun _ _ => .complex⟩
  | str text =>
      exact ⟨_, before, rfl, hRefl, fun _ _ => .str⟩
  | record hRead hRecord =>
      refine ⟨_, _, importAs_record_of_isRecordOf hRecord,
        Heap.cells_prefix_alloc before h, ?_⟩
      intro last hLast
      rw [Heap.size_alloc]
      refine .record hRead hRecord hPrefix.length_le ?_
      -- later imports keep the copy that was added here
      have hNew : before.next.index < (before.alloc h).2.size := by
        rw [Heap.size_alloc]
        exact Nat.lt_succ_self before.size
      have hKept := Heap.cell_of_isPrefix hLast hNew
      rw [Heap.cell_alloc_next] at hKept
      exact hKept
  | @ref id b content hPath hRead hRecord =>
      have hWhole : b.isProjection = false := by
        simp [Box.isProjection, hPath]
      have hSame :
          (Box.whole b.handle (.record id)).sameObject b =
            true := by
        simp [Box.whole, Box.sameObject, hPath]
      exact ⟨_, before,
        importAs_ref_of_isPrefix hPrefix hPath hRead hRecord,
        hRefl, fun _ _ => .ref hWhole hSame rfl⟩
  | nil id shape =>
      exact ⟨.empty, before, rfl, hRefl, fun _ _ => .nil⟩

/- The elements of a sequence read back in order. -/
theorem importEach_of_exportEach
    {elem : HostType}
    (hElem : ∀ {v : Value} {h : HostValue},
      v.IsPlain → elem.exportAs s v w = (.ok h, w) →
        ReadsBack s w.heap elem v h)
    {values : List Value}
    {hs : List HostValue}
    {i : Nat}
    {before : Heap}
    (hPlain : ∀ v ∈ values, v.IsPlain)
    (hExport :
      eachFrom (exportItem s elem) i values w = (.ok hs, w))
    (hPrefix : w.heap.cells <+: before.cells) :
    ∃ values' after,
      eachFrom (importItem s elem) i hs before =
        .ok (values', after) ∧
      before.cells <+: after.cells ∧
      ∀ last, after.cells <+: last.cells →
        Value.AllComeBack s w.heap last elem values values'
          before.size after.size := by
  induction values generalizing hs i before with
  | nil =>
      cases hExport
      exact ⟨[], before, rfl, List.prefix_refl _,
        fun _ _ => .nil⟩
  | cons v rest ih =>
      rcases eachFrom_exportAs_cons_eq_ok hExport with
        ⟨h, hs', w₁, hFirst, hRest, rfl⟩
      have hHead : v.IsPlain := hPlain v (by simp)
      have hTail : ∀ u ∈ rest, u.IsPlain := by
        intro u hMem
        exact hPlain u (List.mem_cons_of_mem v hMem)
      have hWorld : w₁ = w := by
        have hSame := world_exportAs (s := s) (t := elem) hHead w
        rwa [hFirst] at hSame
      subst hWorld
      rcases hElem hHead hFirst before hPrefix with
        ⟨v', mid, hImport, hMid, hBack⟩
      rcases ih hTail hRest (hPrefix.trans hMid) with
        ⟨rest', after, hImports, hAfter, hBacks⟩
      refine ⟨v' :: rest', after, ?_, hMid.trans hAfter, ?_⟩
      · apply Import.eachFrom_cons_eq_ok_iff.mpr
        have hItem :
            importItem s elem i h before = .ok (v', mid) := by
          rw [importItem, hImport]
          rfl
        exact ⟨v', rest', mid, hItem, hImports, rfl⟩
      · intro last hLast
        exact .cons (hBack last (hAfter.trans hLast))
          (hBacks last hLast)

/-
  What was exported reads back. The induction follows the
  type, since elements are exported at smaller types; the
  heap grows from element to element, so the objects added
  before are left open.
-/
theorem readsBack_of_exportAs
    {t : HostType}
    {v : Value}
    {h : HostValue}
    (hPlain : v.IsPlain)
    (hExport : t.exportAs s v w = (.ok h, w)) :
    ReadsBack s w.heap t v h := by
  induction t generalizing v h with
  | seq elem ih =>
      cases v with
      | array shape values =>
          intro before hPrefix
          rw [exportAs_seq_array] at hExport
          rcases Action.bind_eq_ok_iff.mp hExport with
            ⟨hs, w₁, hEach, hLast⟩
          cases hLast
          have hItems : ∀ v ∈ values, v.IsPlain := by
            intro u hMem
            exact hPlain.of_mem_array hMem
          rcases importEach_of_exportEach ih hItems hEach
              hPrefix with
            ⟨values', after, hImport, hAfter, hBack⟩
          have hLength : values'.length = values.length :=
            Value.length_of_allComeBack
              (hBack after (List.prefix_refl _))
          refine ⟨.array [values.length] values', after, ?_,
            hAfter, fun last hLast => .seq (hBack last hLast) hLength⟩
          apply importAs_seq_eq_ok_iff.mpr
          refine ⟨values', hImport, ?_⟩
          rw [Value.vector, hLength]
      | any id e => exact absurd rfl (hPlain.ne_any id e)
      | _ => cases hExport
  | _ =>
      rw [exportAs_of_plain (by simp) hPlain] at hExport
      exact readsBack_of_exportPlain
        (congrArg Prod.fst hExport)

/-
  Importing undoes exporting: a plain value that was exported
  at a type is imported from the same heap, which only gains
  objects, as its normal form along the type.
-/
theorem importAs_exportAs
    {t : HostType}
    {v : Value}
    {h : HostValue}
    {w' : World}
    (hPlain : v.IsPlain)
    (hExport : t.exportAs s v w = (.ok h, w')) :
    w' = w ∧
    ∃ v' after,
      t.importAs s h w.heap = .ok (v', after) ∧
      w.heap.cells <+: after.cells ∧
      Value.ComesBack s w.heap after t v v'
        w.heap.size after.size := by
  have hWorld : w' = w := by
    have hSame := world_exportAs (s := s) (t := t) hPlain w
    rwa [hExport] at hSame
  subst hWorld
  rcases readsBack_of_exportAs hPlain hExport w'.heap
      (List.prefix_refl _) with
    ⟨v', after, hImport, hAfter, hBack⟩
  exact ⟨rfl, v', after, hImport, hAfter,
    hBack after (List.prefix_refl _)⟩

/- Two points of a segment come back in fresh boxes. -/
theorem importAs_exportAs_plane :
    (Value.array [2, 1]
      [.boxed .finish, .boxed .start]).IsPlain ∧
    (HostType.seq (.record ⟨0⟩)).exportAs .plane
      (.array [2, 1] [.boxed .finish, .boxed .start])
      .withSegment =
        (.ok (.seq [.point 3 4, .point 1 2]), .withSegment) ∧
    ∃ v' after,
      (HostType.seq (.record ⟨0⟩)).importAs .plane
        (.seq [.point 3 4, .point 1 2]) World.withSegment.heap =
          .ok (v', after) ∧
      Value.ComesBack .plane World.withSegment.heap after
        (.seq (.record ⟨0⟩))
        (.array [2, 1] [.boxed .finish, .boxed .start]) v'
        1 after.size := by
  have hPlain :
      (Value.array [2, 1]
        [.boxed .finish, .boxed .start]).IsPlain := by
    intro id e hWithin
    cases hWithin with
    | arrayItem hMem hInside =>
        simp only [List.mem_cons, List.not_mem_nil, or_false]
          at hMem
        rcases hMem with rfl | rfl <;> cases hInside
  refine ⟨hPlain, rfl, ?_⟩
  rcases importAs_exportAs hPlain
      (s := .plane) (t := .seq (.record ⟨0⟩))
      (w := .withSegment) rfl with
    ⟨hWorld, v', after, hImport, hAfter, hBack⟩
  exact ⟨v', after, hImport, hBack⟩

end HostType

end Interop
