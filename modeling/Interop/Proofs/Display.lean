import Interop.Proofs.Convert.Export
import Interop.Proofs.References
import Interop.Render
import Mathlib.Data.Finset.Card

/-
  Displays come to an end. To display a value is to follow
  each reference that is shown, as far as it goes, with no
  bound on how often; the relations here say what comes out
  if that ends. On a sound heap it does, for everything that
  conforms, and what comes out is the text of the value: as
  many steps as there are objects are enough, since each
  step leads to a record of an earlier type.

  Main declarations:
    * `HostValue.Mentions`
    * `Heap.Shows`
    * `HostValue.Displays`
    * `Box.Displays`
    * `Value.Displays`
    * `Heap.shows_refText`
    * `HostValue.displays_iff`
    * `Box.displays_iff`
    * `Value.displays_iff`
-/

namespace Interop

------------------------------------------------------------
-- Definitions
------------------------------------------------------------

/-
  The text of a value shows what a reference leads to. The
  elements beyond the limit are not shown.
-/
inductive HostValue.Mentions
    (s : Schema)
    (limit : Nat)
    (h : Handle) : HostValue → Prop where
| ref :
    Mentions s limit h (.ref h)
| item
    {v : HostValue}
    {items : List HostValue}
    (hMem : v ∈ items.take limit)
    (hInside : Mentions s limit h v) :
    Mentions s limit h (.seq items)
| field
    {f : Field}
    {v : HostValue}
    {id : RecordId}
    {values : List HostValue}
    (hMem : (f, v) ∈ (s.fields id).zip values)
    (hInside : Mentions s limit h v) :
    Mentions s limit h (.record id values)

/-
  What comes out when a reference is followed: its object is
  not readable, or the content is shown, each reference in it
  by what comes out when that is followed.
-/
inductive Heap.Shows
    (s : Schema)
    (limit : Nat)
    (heap : Heap) : Handle → String → Prop where
| lent
    {h : Handle}
    (hLent : heap.read? h = none) :
    Shows s limit heap h "&<borrowed>"
| object
    {h : Handle}
    {v : HostValue}
    {texts : Handle → String}
    (hRead : heap.read? h = some v)
    (hTexts : ∀ k, v.Mentions s limit k →
      Shows s limit heap k (texts k)) :
    Shows s limit heap h ("&" ++ v.textWith s limit texts)

/- What comes out when a host value is displayed. -/
def HostValue.Displays
    (s : Schema)
    (limit : Nat)
    (heap : Heap)
    (v : HostValue)
    (text : String) : Prop :=
  ∃ texts,
    (∀ h, v.Mentions s limit h →
      heap.Shows s limit h (texts h)) ∧
    text = v.textWith s limit texts

/- What comes out when a box is displayed. -/
inductive Box.Displays
    (s : Schema)
    (limit : Nat)
    (heap : Heap)
    (b : Box) : String → Prop where
| content
    {v : HostValue}
    {text : String}
    (hRead : b.read s heap = .ok v)
    (hText : v.Displays s limit heap text) :
    Displays s limit heap b (b.type.text s ++ " " ++ text)
| lent
    {e : Error}
    (hRead : b.read s heap = .error e) :
    Displays s limit heap b (b.type.text s ++ " " ++ "<borrowed>")

/- What comes out when a value is displayed. -/
inductive Value.Displays
    (s : Schema)
    (limit : Nat)
    (heap : Heap) : Value → String → Prop where
| scalar
    (a : Scalar) :
    Displays s limit heap (.scalar a) a.text
| array
    {shape : List Nat}
    {values : List Value}
    {texts : Value → String}
    (hTexts : ∀ v ∈ values.take limit,
      Displays s limit heap v (texts v)) :
    Displays s limit heap (.array shape values)
      (if values.isEmpty then
        "⍬"
      else
        shapePrefix shape ++
          Render.elided limit " "
            ((values.take limit).map texts)
            values.length)
| list
    {values : List Value}
    {texts : Value → String}
    (hTexts : ∀ v ∈ values, Displays s limit heap v (texts v)) :
    Displays s limit heap (.list values)
      ("(" ++ "; ".intercalate (values.map texts) ++ ")")
| boxed
    {b : Box}
    {text : String}
    (hBox : b.Displays s limit heap text) :
    Displays s limit heap (.boxed b) text
| function
    (id : Nat)
    (f : Function) :
    Displays s limit heap (.function id f) (f.text s)
| any
    (id : Nat)
    (e : Exportable) :
    Displays s limit heap (.any id e) e.display

/-
  What is in the place of a box, if anything, conforms to
  some type.
-/
def Box.Conforms
    (heap : Heap)
    (b : Box) : Prop :=
  ∀ v, (heap.content b.handle).at? b.path = some v →
    ∃ t : HostType, t.admits heap.freed v = true

/- So it is for all boxed objects in a value. -/
def Value.Conforms
    (heap : Heap)
    (v : Value) : Prop :=
  ∀ b, Within (.boxed b) v → b.Conforms heap

variable {s : Schema} {limit : Nat} {heap : Heap}

------------------------------------------------------------
-- Texts and References
------------------------------------------------------------

namespace HostValue

/- A property of values that parts hand on to wholes. -/
@[elab_as_elim]
theorem induction
    {P : HostValue → Prop}
    (seq : ∀ items, (∀ v ∈ items, P v) → P (.seq items))
    (record : ∀ id values,
      (∀ v ∈ values, P v) → P (.record id values))
    (flat : ∀ v,
      (∀ items, v ≠ .seq items) →
      (∀ id values, v ≠ .record id values) → P v)
    (v : HostValue) :
    P v := by
  cases v with
  | seq items =>
      exact seq items fun v hMem => induction seq record flat v
  | record id values =>
      exact record id values
        fun v hMem => induction seq record flat v
  | _ => exact flat _ (by simp) (by simp)
termination_by sizeOf v
decreasing_by
  all_goals
    have hLt := List.sizeOf_lt_of_mem hMem
    simp_wf
    omega

/- What is mentioned occurs. -/
theorem Mentions.within
    {h : Handle}
    {v : HostValue}
    (hMentions : v.Mentions s limit h) :
    Within (.ref h) v := by
  induction hMentions with
  | ref => exact .self
  | item hMem hInside ih =>
      exact .item (List.mem_of_mem_take hMem) ih
  | field hMem hInside ih => exact .field (List.of_mem_zip hMem).2 ih

theorem itemTexts_eq
    (texts : Handle → String)
    (n : Nat)
    (items : List HostValue) :
    itemTexts s limit texts n items =
      (items.take n).map (·.textWith s limit texts) := by
  induction n generalizing items with
  | zero => simp [itemTexts]
  | succ n ih => cases items <;> simp [itemTexts, ih]

theorem fieldTexts_eq
    (texts : Handle → String)
    (fields : List Field)
    (values : List HostValue) :
    fieldTexts s limit texts fields values =
      (fields.zip values).map fun p =>
        p.1.name ++ ": " ++ p.2.textWith s limit texts := by
  induction fields generalizing values with
  | nil => simp [fieldTexts]
  | cons f rest ih => cases values <;> simp [fieldTexts, ih]

/- A text depends on the references that it mentions. -/
theorem textWith_congr
    {texts texts' : Handle → String}
    {v : HostValue}
    (hSame : ∀ h, v.Mentions s limit h → texts h = texts' h) :
    v.textWith s limit texts = v.textWith s limit texts' := by
  induction v using HostValue.induction with
  | seq items ih =>
      simp only [textWith, itemTexts_eq]
      congr 3
      apply List.map_congr_left
      intro v hMem
      apply ih v (List.mem_of_mem_take hMem)
      exact fun h hInside => hSame h (.item hMem hInside)
  | record id values ih =>
      simp only [textWith, fieldTexts_eq]
      congr 3
      apply List.map_congr_left
      rintro ⟨f, v⟩ hMem
      simp only
      rw [ih v (List.of_mem_zip hMem).2]
      exact fun h hInside => hSame h (.field hMem hInside)
  | flat v hNoSeq hNoRecord =>
      cases v with
      | seq items => exact absurd rfl (hNoSeq items)
      | record id values => exact absurd rfl (hNoRecord id values)
      | ref h => exact hSame h .ref
      | error fault => cases fault <;> rfl
      | _ => rfl

end HostValue

/- Only one text comes out when a reference is followed. -/
theorem Heap.Shows.unique
    {h : Handle}
    {text text' : String}
    (hShows : heap.Shows s limit h text)
    (hOther : heap.Shows s limit h text') :
    text = text' := by
  induction hShows generalizing text' with
  | lent hLent =>
      cases hOther with
      | lent => rfl
      | object hRead hTexts => cases hLent.symm.trans hRead
  | object hRead hTexts ih =>
      cases hOther with
      | lent hLent => cases hLent.symm.trans hRead
      | object hRead' hTexts' =>
          cases hRead.symm.trans hRead'
          congr 1
          apply HostValue.textWith_congr
          intro k hMentions
          exact ih k hMentions (hTexts' k hMentions)

/- Nothing comes out for an object that mentions itself. -/
theorem Heap.Shows.not_mentions_self
    {h : Handle}
    {v : HostValue}
    {text : String}
    (hShows : heap.Shows s limit h text)
    (hRead : heap.read? h = some v) :
    ¬ v.Mentions s limit h := by
  induction hShows generalizing v with
  | lent hLent => cases hLent.symm.trans hRead
  | object hHere hTexts ih =>
      intro hSelf
      cases hHere.symm.trans hRead
      exact ih _ hSelf hRead hSelf

------------------------------------------------------------
-- References on Sound Heaps
------------------------------------------------------------

namespace Heap

/- How many objects hold records of types before `n`. -/
def countBelow
    (heap : Heap)
    (n : Nat) : Nat :=
  ((Finset.range heap.size).filter
    fun i => heap.rank ⟨i⟩ < n).card

/- No more than there are objects. -/
theorem countBelow_le
    (heap : Heap)
    (n : Nat) :
    heap.countBelow n ≤ heap.size := by
  have hCard := Finset.card_filter_le (Finset.range heap.size)
    fun i => heap.rank ⟨i⟩ < n
  rwa [Finset.card_range] at hCard

/- A record counts below later types, but not below its own. -/
theorem countBelow_lt
    {h : Handle}
    {id own : RecordId}
    (hRecord : (heap.content h).isRecordOf own = true)
    (hEarlier : own.index < id.index) :
    heap.countBelow own.index < heap.countBelow id.index := by
  have hRank := rank_of_isRecordOf hRecord
  apply Finset.card_lt_card
  rw [Finset.ssubset_iff_of_subset]
  · refine ⟨h.index, ?_, ?_⟩
    · simp only [Finset.mem_filter, Finset.mem_range]
      exact ⟨lt_size_of_isRecordOf hRecord, hRank ▸ hEarlier⟩
    · simp only [Finset.mem_filter, not_and, Nat.not_lt]
      exact fun _ => Nat.le_of_eq hRank.symm
  · intro i hMem
    simp only [Finset.mem_filter] at hMem ⊢
    exact ⟨hMem.1, Nat.lt_trans hMem.2 hEarlier⟩

/-
  Following a reference to a record comes to an end, and the
  text is found in more steps than there are records of
  earlier types. The induction is on the steps that are left.
-/
theorem shows_refText
    {depth : Nat}
    {h : Handle}
    {id : RecordId}
    (hSound : heap.IsSound s)
    (hRecord : (heap.content h).isRecordOf id = true)
    (hDepth : heap.countBelow id.index < depth) :
    heap.Shows s limit h (heap.refText s limit depth h) := by
  induction depth generalizing h id with
  | zero => exact absurd hDepth (Nat.not_lt_zero _)
  | succ depth ih =>
      unfold refText
      cases hRead : heap.read? h with
      | none => exact .lent hRead
      | some v =>
          refine .object hRead ?_
          intro k hMentions
          rw [← content_of_read? hRead] at hMentions
          rcases hSound.refers_earlier hRecord hMentions.within with
            ⟨own, hEarlier, hOwn⟩
          have hCount := countBelow_lt hOwn hEarlier
          exact ih hOwn (by omega)

end Heap

------------------------------------------------------------
-- Host Values
------------------------------------------------------------

namespace HostValue

variable {v : HostValue} {text : String}

/- Only one text comes out when a host value is displayed. -/
theorem Displays.unique
    {text' : String}
    (hDisplays : v.Displays s limit heap text)
    (hOther : v.Displays s limit heap text') :
    text = text' := by
  rcases hDisplays with ⟨texts, hTexts, rfl⟩
  rcases hOther with ⟨texts', hTexts', rfl⟩
  apply textWith_congr
  intro h hMentions
  exact (hTexts h hMentions).unique (hTexts' h hMentions)

/-
  On a sound heap, displaying a value that conforms at every
  depth comes to an end, with the text of the value.
-/
theorem displays_text
    {t : HostType}
    (hSound : heap.IsSound s)
    (hDeep : t.AdmitsDeeply s heap.freed v) :
    v.Displays s limit heap (v.text s limit heap) := by
  refine ⟨heap.refText s limit (heap.size + 1), ?_, rfl⟩
  intro h hMentions
  rcases t.exists_below with ⟨n, hBelow⟩
  rcases HostType.refers_below hBelow hDeep hMentions.within with
    ⟨id, hEarlier, hRecord⟩
  rw [Heap.content_freed] at hRecord
  apply Heap.shows_refText hSound hRecord
  have hCount := heap.countBelow_le id.index
  omega

theorem displays_iff
    {t : HostType}
    (hSound : heap.IsSound s)
    (hDeep : t.AdmitsDeeply s heap.freed v) :
    v.Displays s limit heap text ↔
      text = v.text s limit heap := by
  constructor
  · intro hDisplays
    exact hDisplays.unique (displays_text hSound hDeep)
  · rintro rfl
    exact displays_text hSound hDeep

end HostValue

------------------------------------------------------------
-- Boxes
------------------------------------------------------------

/-
  What a path leads to in a value that conforms at every
  depth conforms to some type.
-/
theorem HostType.AdmitsDeeply.at?
    {path : List Nat}
    {t : HostType}
    {v u : HostValue}
    (hDeep : t.AdmitsDeeply s heap v)
    (hAt : v.at? path = some u) :
    ∃ inner : HostType, inner.AdmitsDeeply s heap u := by
  induction path generalizing t v with
  | nil =>
      cases hAt
      exact ⟨t, hDeep⟩
  | cons i path ih =>
      rcases HostValue.isRecord_of_at?_cons hAt with
        ⟨id, values, w, rfl, hGet, hRest⟩
      rcases HostValue.recordsFit_record_iff.mp hDeep.records with
        ⟨hFits, hValues⟩
      rcases hFits.field hGet with ⟨f, hField, hAdmits⟩
      exact ih ⟨hAdmits, hValues w (List.mem_of_getElem? hGet)⟩
        hRest

namespace Box

variable {b : Box} {text : String}

/- A box of an object that conforms to some type conforms. -/
theorem conforms_of_content
    {t : HostType}
    (hSound : heap.IsSound s)
    (hContent : t.admits heap.freed (heap.content b.handle) = true) :
    b.Conforms heap := by
  intro v hAt
  have hDeep : t.AdmitsDeeply s heap.freed (heap.content b.handle) :=
    ⟨hContent, hSound b.handle⟩
  rcases hDeep.at? hAt with ⟨inner, hInner⟩
  exact ⟨inner, hInner.shallow⟩

/- So does a box inside an object: it leads into a record. -/
theorem conforms_of_path_ne_nil
    (hSound : heap.IsSound s)
    (hPath : b.path ≠ []) :
    b.Conforms heap := by
  intro v hAt
  cases hSteps : b.path with
  | nil => exact absurd hSteps hPath
  | cons i path =>
      rw [hSteps] at hAt
      rcases HostValue.isRecord_of_at?_cons hAt with
        ⟨id, values, w, hContent, hGet, hRest⟩
      have hRoot : (HostType.record id).admits heap.freed
          (heap.content b.handle) = true := by
        rw [HostType.admits_record, hContent]
        simp [HostValue.isRecordOf]
      apply conforms_of_content hSound hRoot
      rw [hSteps]
      exact hAt

/- Only one text comes out when a box is displayed. -/
theorem Displays.unique
    {text' : String}
    (hDisplays : b.Displays s limit heap text)
    (hOther : b.Displays s limit heap text') :
    text = text' := by
  cases hDisplays with
  | content hRead hText =>
      cases hOther with
      | content hRead' hText' =>
          cases hRead.symm.trans hRead'
          rw [hText.unique hText']
      | lent hFails => cases hRead.symm.trans hFails
  | lent hFails =>
      cases hOther with
      | content hRead hText => cases hFails.symm.trans hRead
      | lent hFails' => rfl

/- Displaying a box comes to an end, with its text. -/
theorem displays_text
    (hSound : heap.IsSound s)
    (hConforms : b.Conforms heap) :
    b.Displays s limit heap (b.text s limit heap) := by
  unfold Box.text
  cases hRead : b.read s heap with
  | error e => exact .lent hRead
  | ok v =>
      have hAt := (read_eq_ok_iff.mp hRead).2
      rcases hConforms v hAt with ⟨t, hAdmits⟩
      refine .content hRead ?_
      exact HostValue.displays_text hSound
        ⟨hAdmits, (hSound b.handle).at? hAt⟩

theorem displays_iff
    (hSound : heap.IsSound s)
    (hConforms : b.Conforms heap) :
    b.Displays s limit heap text ↔
      text = b.text s limit heap := by
  constructor
  · intro hDisplays
    exact hDisplays.unique (displays_text hSound hConforms)
  · rintro rfl
    exact displays_text hSound hConforms

end Box

------------------------------------------------------------
-- Values
------------------------------------------------------------

namespace Value

variable {v : Value} {text : String}

/- A property of values that parts hand on to wholes. -/
@[elab_as_elim]
theorem induction
    {P : Value → Prop}
    (array : ∀ shape values,
      (∀ v ∈ values, P v) → P (.array shape values))
    (list : ∀ values, (∀ v ∈ values, P v) → P (.list values))
    (flat : ∀ v,
      (∀ shape values, v ≠ .array shape values) →
      (∀ values, v ≠ .list values) → P v)
    (v : Value) :
    P v := by
  cases v with
  | array shape values =>
      exact array shape values
        fun v hMem => induction array list flat v
  | list values =>
      exact list values fun v hMem => induction array list flat v
  | _ => exact flat _ (by simp) (by simp)
termination_by sizeOf v
decreasing_by
  all_goals
    have hLt := List.sizeOf_lt_of_mem hMem
    simp_wf
    omega

theorem firstTexts_eq
    (n : Nat)
    (values : List Value) :
    firstTexts s limit heap n values =
      (values.take n).map (·.text s limit heap) := by
  induction n generalizing values with
  | zero => simp [firstTexts]
  | succ n ih => cases values <;> simp [firstTexts, ih]

/- Only one text comes out when a value is displayed. -/
theorem Displays.unique
    {text' : String}
    (hDisplays : v.Displays s limit heap text)
    (hOther : v.Displays s limit heap text') :
    text = text' := by
  induction hDisplays generalizing text' with
  | scalar a => cases hOther; rfl
  | array hTexts ih =>
      cases hOther with
      | array hTexts' =>
          rw [List.map_congr_left
            fun v hMem => ih v hMem (hTexts' v hMem)]
  | list hTexts ih =>
      cases hOther with
      | list hTexts' =>
          rw [List.map_congr_left
            fun v hMem => ih v hMem (hTexts' v hMem)]
  | boxed hBox =>
      cases hOther with
      | boxed hBox' => exact hBox.unique hBox'
  | function id f => cases hOther; rfl
  | any id e => cases hOther; rfl

/- Displaying a value comes to an end, with its text. -/
theorem displays_text
    (hSound : heap.IsSound s)
    (hConforms : v.Conforms heap) :
    v.Displays s limit heap (v.text s limit heap) := by
  induction v using Value.induction with
  | array shape values ih =>
      rw [Value.text, firstTexts_eq]
      apply Displays.array
      intro v hMem
      have hIn := List.mem_of_mem_take hMem
      apply ih v hIn
      exact fun b hWithin => hConforms b (.arrayItem hIn hWithin)
  | list values ih =>
      rw [Value.text, firstTexts_eq, List.take_length]
      apply Displays.list
      intro v hMem
      apply ih v hMem
      exact fun b hWithin => hConforms b (.listItem hMem hWithin)
  | flat v hNoArray hNoList =>
      cases v with
      | array shape values => exact absurd rfl (hNoArray _ _)
      | list values => exact absurd rfl (hNoList values)
      | scalar a =>
          rw [Value.text]
          exact .scalar a
      | boxed b =>
          rw [Value.text]
          exact .boxed
            (Box.displays_text hSound (hConforms b (.self _)))
      | function id f =>
          rw [Value.text]
          exact .function id f
      | any id e =>
          rw [Value.text]
          exact .any id e

theorem displays_iff
    (hSound : heap.IsSound s)
    (hConforms : v.Conforms heap) :
    v.Displays s limit heap text ↔
      text = v.text s limit heap := by
  constructor
  · intro hDisplays
    exact hDisplays.unique (displays_text hSound hConforms)
  · rintro rfl
    exact displays_text hSound hConforms

end Value

end Interop
