import Interop.Proofs.Plane
import Interop.Proofs.Typing.Fitting
import Interop.Proofs.Typing.Soundness

/-
  Exports are type correct. Whatever is exported conforms to
  the type that was asked for, on the heap that the export
  leaves. If the heap and the host forms of domain values are
  sound, so is what is exported, at every depth.

  The elements of an array are exported one after another, so
  finding a host form must not turn records into others that
  earlier elements refer to. A domain value that leaves all
  objects alone does not.

  Main declarations:
    * `Exportable.IsSteady`
    * `Exportable.IsFaithful`
    * `HostType.admits_exportAs`
    * `HostType.recordsFit_exportAs`
    * `HostType.isSound_exportAs`
    * `HostType.exportAs_conforms`
-/

namespace Interop

------------------------------------------------------------
-- Domain Values
------------------------------------------------------------

/- Finding the host form keeps the types of records. -/
def Exportable.IsSteady (e : Exportable) : Prop :=
  ∀ host : Host, host.heap.Retains (e.produce host).2.heap

/-
  Besides, it keeps heaps sound, and then all records of the
  host form fit.
-/
structure Exportable.IsFaithful
    (s : Schema)
    (e : Exportable) : Prop where
  steady : e.IsSteady
  sound : ∀ host, host.heap.IsSound s →
    (e.produce host).2.heap.IsSound s
  fits : ∀ host form, host.heap.IsSound s →
    (e.produce host).1 = some form →
      form.RecordsFit s (e.produce host).2.heap.freed

/- What leaves all objects alone is steady. -/
theorem Exportable.LeavesObjects.isSteady
    {e : Exportable}
    (hLeaves : e.LeavesObjects) :
    e.IsSteady := by
  intro host
  rw [hLeaves host]
  exact .refl host.heap

/- It is faithful if its host forms have no records. -/
theorem Exportable.LeavesObjects.isFaithful
    {s : Schema}
    {e : Exportable}
    (hLeaves : e.LeavesObjects)
    (hFits : ∀ host form, host.heap.IsSound s →
      (e.produce host).1 = some form →
        form.RecordsFit s host.heap.freed) :
    e.IsFaithful s where
  steady := hLeaves.isSteady
  sound host hSound := by
    rw [hLeaves host]
    exact hSound
  fits host form hSound hForm := by
    rw [hLeaves host]
    exact hFits host form hSound hForm

namespace Value

variable {s : Schema} {u v : Value}

/- All domain values that occur in a value are steady. -/
def IsSteady (v : Value) : Prop :=
  ∀ id e, Within (.any id e) v → e.IsSteady

/- All domain values that occur in a value are faithful. -/
def IsFaithful
    (s : Schema)
    (v : Value) : Prop :=
  ∀ id e, Within (.any id e) v → e.IsFaithful s

theorem IsFaithful.isSteady
    (hFaithful : v.IsFaithful s) :
    v.IsSteady := by
  intro id e hWithin
  exact (hFaithful id e hWithin).steady

/- What occurs in a steady value is steady. -/
theorem IsSteady.of_within
    (hSteady : v.IsSteady)
    (hWithin : Within u v) :
    u.IsSteady := by
  intro id e hInside
  exact hSteady id e (hInside.trans hWithin)

/- What occurs in a faithful value is faithful. -/
theorem IsFaithful.of_within
    (hFaithful : v.IsFaithful s)
    (hWithin : Within u v) :
    u.IsFaithful s := by
  intro id e hInside
  exact hFaithful id e (hInside.trans hWithin)

end Value

namespace HostType

variable {s : Schema} {t : HostType} {v : Value}
variable {h : HostValue} {w w' : World}

------------------------------------------------------------
-- Heaps During Exports
------------------------------------------------------------

/- An export keeps the types of records. -/
theorem retains_exportAs
    (hSteady : v.IsSteady) :
    (t.exportAs s v).Steps
      fun w w' => w.heap.Retains w'.heap := by
  have hRefl : ∀ w : World, w.heap.Retains w.heap :=
    fun w => .refl w.heap
  have hTrans : ∀ u v w : World, u.heap.Retains v.heap →
      v.heap.Retains w.heap → u.heap.Retains w.heap :=
    fun u v w => .trans
  apply exportAs_steps hRefl hTrans
  intro id e hWithin t
  apply offered_steps hRefl hTrans
  · exact fun w => hSteady id e hWithin w.host
  · exact fun event => hRefl

/- An export keeps sound heaps sound, also when it fails. -/
theorem isSound_exportAs
    (hFaithful : v.IsFaithful s) :
    (t.exportAs s v).Steps
      fun w w' => w.heap.IsSound s → w'.heap.IsSound s := by
  have hRefl : ∀ w : World, w.heap.IsSound s →
      w.heap.IsSound s := fun _ hSound => hSound
  have hTrans : ∀ u v w : World,
      (u.heap.IsSound s → v.heap.IsSound s) →
      (v.heap.IsSound s → w.heap.IsSound s) →
        u.heap.IsSound s → w.heap.IsSound s :=
    fun _ _ _ hFirst hSecond hSound => hSecond (hFirst hSound)
  apply exportAs_steps hRefl hTrans
  intro id e hWithin t
  apply offered_steps hRefl hTrans
  · exact fun w => (hFaithful id e hWithin).sound w.host
  · exact fun event => hRefl

/- So the heap that an export leaves is sound. -/
theorem isSound_of_exportAs
    {r : Except Error HostValue}
    (hFaithful : v.IsFaithful s)
    (hSound : w.heap.IsSound s)
    (hExport : t.exportAs s v w = (r, w')) :
    w'.heap.IsSound s := by
  have hAfter := isSound_exportAs (t := t) hFaithful w hSound
  rwa [hExport] at hAfter

------------------------------------------------------------
-- Conformance
------------------------------------------------------------

/-
  What is exported conforms. The induction follows the type;
  an element conforms when it was exported, and goes on to
  while the elements after it are.
-/
theorem admits_exportAs
    (hSteady : v.IsSteady)
    (hExport : t.exportAs s v w = (.ok h, w')) :
    t.admits w'.heap h = true := by
  induction t generalizing v h w w' with
  | seq elem ih =>
      cases yields_of_exportAs hExport with
      | offered hValue hForm hFit => exact admits_fit hFit
      | plain hNe hStores => exact absurd rfl (hNe elem)
      | @items _ shape values hs _ hType hValue hEach =>
          cases hType
          subst hValue
          have hItems : ∀ item ∈ values, item.IsSteady := by
            intro item hMem
            exact hSteady.of_within (.arrayItem hMem (.self item))
          rcases forall₂_of_exportEach
              (R := fun w w' => w.heap.Retains w'.heap)
              (fun w => .refl w.heap) (fun _ _ _ => .trans)
              (fun item hMem => retains_exportAs (hItems item hMem))
              hEach with
            ⟨hWhole, hPairs⟩
          simp only [admits, List.all_eq_true]
          intro k hMem
          rcases exists_of_mem_forall₂ hPairs hMem with
            ⟨item, hIn, w₁, w₂, hBefore, hItem, hAfter⟩
          exact hAfter.admits (ih (hItems item hIn) hItem)
  | _ =>
      cases yields_of_exportAs hExport with
      | offered hValue hForm hFit => exact admits_fit hFit
      | plain hNe hStores => exact admits_of_stores hStores
      | items hType hValue hEach => cases hType

/- What a faithful domain value offers has records that fit. -/
theorem recordsFit_of_offered
    {id : Nat}
    {e : Exportable}
    {form : HostValue}
    (hFaithful : v.IsFaithful s)
    (hSound : w.heap.IsSound s)
    (hValue : v = .any id e)
    (hForm : (e.produce w.host).1 = some form)
    (hFit : t.fit (e.produce w.host).2.heap form = some h) :
    h.RecordsFit s (e.produce w.host).2.heap.freed := by
  subst hValue
  have hOwn := hFaithful id e (.self _)
  exact recordsFit_fit (hOwn.fits w.host form hSound hForm) hFit

/-
  On a sound heap, the records of what is exported fit. They
  come from host forms, or from objects that were read.
-/
theorem recordsFit_exportAs
    (hFaithful : v.IsFaithful s)
    (hSound : w.heap.IsSound s)
    (hExport : t.exportAs s v w = (.ok h, w')) :
    h.RecordsFit s w'.heap.freed := by
  induction t generalizing v h w w' with
  | seq elem ih =>
      cases yields_of_exportAs hExport with
      | offered hValue hForm hFit =>
          exact recordsFit_of_offered hFaithful hSound hValue hForm
            hFit
      | plain hNe hStores => exact absurd rfl (hNe elem)
      | @items _ shape values hs _ hType hValue hEach =>
          cases hType
          subst hValue
          have hItems : ∀ item ∈ values, item.IsFaithful s := by
            intro item hMem
            exact hFaithful.of_within (.arrayItem hMem (.self item))
          have hSteps : ∀ item ∈ values,
              (elem.exportAs s item).Steps fun w w' =>
                w.heap.Retains w'.heap ∧
                  (w.heap.IsSound s → w'.heap.IsSound s) := by
            intro item hMem w
            exact ⟨retains_exportAs (hItems item hMem).isSteady w,
              isSound_exportAs (hItems item hMem) w⟩
          rcases forall₂_of_exportEach
              (fun w => ⟨.refl w.heap, fun hStart => hStart⟩)
              (fun _ _ _ hFirst hSecond =>
                ⟨hFirst.1.trans hSecond.1,
                  fun hStart => hSecond.2 (hFirst.2 hStart)⟩)
              hSteps hEach with
            ⟨hWhole, hPairs⟩
          apply HostValue.recordsFit_seq_iff.mpr
          intro k hMem
          rcases exists_of_mem_forall₂ hPairs hMem with
            ⟨item, hIn, w₁, w₂, hBefore, hItem, hAfter⟩
          have hOwn :=
            ih (hItems item hIn) (hBefore.2 hSound) hItem
          exact hAfter.1.freed.recordsFit hOwn
  | _ =>
      cases yields_of_exportAs hExport with
      | offered hValue hForm hFit =>
          exact recordsFit_of_offered hFaithful hSound hValue hForm
            hFit
      | plain hNe hStores => exact recordsFit_of_stores hSound hStores
      | items hType hValue hEach => cases hType

/- On a sound heap, what is exported conforms deeply. -/
theorem admitsDeeply_exportAs
    (hFaithful : v.IsFaithful s)
    (hSound : w.heap.IsSound s)
    (hExport : t.exportAs s v w = (.ok h, w')) :
    t.AdmitsDeeply s w'.heap.freed h where
  shallow := (Heap.Retains.to_freed w'.heap).admits
    (admits_exportAs hFaithful.isSteady hExport)
  records := recordsFit_exportAs hFaithful hSound hExport

/-
  Exports are type correct: what is exported conforms to the
  type on the heap that the export leaves, which is the one
  that it started on if domain values leave the objects
  alone; and if all that was there is sound, so are the
  records in what is exported.
-/
theorem exportAs_conforms
    (hSteady : v.IsSteady)
    (hExport : t.exportAs s v w = (.ok h, w')) :
    t.admits w'.heap h = true ∧
    ((∀ id e, Value.Within (.any id e) v → e.LeavesObjects) →
      w'.heap = w.heap) ∧
    (w.heap.IsSound s → v.IsFaithful s →
      h.RecordsFit s w'.heap.freed) := by
  refine ⟨admits_exportAs hSteady hExport, ?_, ?_⟩
  · intro hLeaves
    have hSame := heap_exportAs (t := t) (s := s) hLeaves w
    rwa [hExport] at hSame
  · intro hSound hFaithful
    exact recordsFit_exportAs hFaithful hSound hExport

end HostType

/- A domain value that presents itself as a point. -/
def Exportable.corner : Exportable where
  typeName := "corner"
  display := "corner"
  produce := fun host => (some (.point 5 6), host)

/- It changes nothing, and its host form fits. -/
theorem Exportable.isFaithful_corner :
    Exportable.corner.IsFaithful .plane := by
  apply Exportable.LeavesObjects.isFaithful fun host => rfl
  intro host form hSound hForm
  cases hForm
  exact HostValue.recordsFit_point 5 6

/- The finish of the segment, and a corner. -/
def Value.spots : Value :=
  .vector [.boxed .finish, .any 0 .corner]

theorem Value.isFaithful_spots :
    Value.spots.IsFaithful .plane := by
  intro id e hWithin
  cases hWithin with
  | arrayItem hMem hInside =>
      simp only [List.mem_cons, List.not_mem_nil, or_false] at hMem
      rcases hMem with rfl | rfl
      · cases hInside
      · cases hInside
        exact Exportable.isFaithful_corner

namespace HostType

/- The finish and the corner are exported as two points. -/
theorem exportAs_conforms_plane :
    let points : HostType := .seq (.record ⟨0⟩)
    let exported : HostValue := .seq [.point 3 4, .point 5 6]
    Value.spots.IsSteady ∧
    points.exportAs .plane .spots .withSegment =
      (.ok exported, .withSegment) ∧
    points.admits World.withSegment.heap exported = true ∧
    exported.RecordsFit .plane World.withSegment.heap.freed := by
  have hFaithful := Value.isFaithful_spots
  have hConforms :=
    exportAs_conforms (s := .plane) (t := .seq (.record ⟨0⟩))
      (w := .withSegment) hFaithful.isSteady rfl
  exact ⟨hFaithful.isSteady, rfl, hConforms.1,
    hConforms.2.2 World.isSound_withSegment hFaithful⟩

end HostType

end Interop
