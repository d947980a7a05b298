import Interop.Proofs.Conflict
import Interop.Proofs.Member

/-
  Names of fields. A boxed record lists its fields by the
  names that they are declared with, and is asked for members
  by names that are taken in capital form. Of fields with the
  same name the first one counts. So a listed name is known
  if its capital form is listed, and it stands for its own
  position if it is a capital form that is not listed before.

  Main declarations:
    * `Error.IsUnknownName`
    * `HostType.not_isUnknownName_of_exportAs`
    * `Box.position?`
    * `Box.position?_eq_self_iff`
    * `Box.Addresses`
    * `Box.addresses_of_hasField`
    * `Box.members_of_listed`
-/

namespace Interop

------------------------------------------------------------
-- Failures That Are Not About Names
------------------------------------------------------------

namespace Error

/- A field was asked for by a name that stands for none. -/
def IsUnknownName (e : Error) : Prop :=
  ∃ name, e.root = .noSuchField name

theorem not_isUnknownName_conversion
    (got want : String) :
    ¬ (Error.conversion got want).IsUnknownName := by
  rintro ⟨name, hRoot⟩
  cases hRoot

theorem not_isUnknownName_unsupported
    (kind : String) :
    ¬ (Error.unsupported kind).IsUnknownName := by
  rintro ⟨name, hRoot⟩
  cases hRoot

end Error

/- A box that cannot be read does not ask for a field. -/
theorem Box.not_isUnknownName_of_read
    {s : Schema}
    {heap : Heap}
    {b : Box}
    {e : Error}
    (hRead : b.read s heap = .error e) :
    ¬ e.IsUnknownName := by
  rintro ⟨name, hRoot⟩
  unfold read at hRead
  split at hRead
  · split at hRead
    · cases hRead
    · cases hRead
      cases hRoot
  · cases hRead
    cases hRoot

/- A field is put by its position, so no name is unknown. -/
theorem Box.not_isUnknownName_of_putField
    {s : Schema}
    {heap : Heap}
    {b : Box}
    {index : Nat}
    {new : HostValue}
    {e : Error}
    (hPut : b.putField s heap index new = .error e) :
    ¬ e.IsUnknownName := by
  rintro ⟨name, hRoot⟩
  unfold putField update at hPut
  split at hPut
  · simp only at hPut
    split at hPut
    · rename_i old hAt
      split at hPut
      · cases hPut
      · rename_i cause hFails
        cases hPut
        split at hFails
        · split at hFails
          · cases hFails
          · cases hFails
            cases hRoot
        · cases hFails
          cases hRoot
    · cases hPut
      cases hRoot
  · cases hPut
    cases hRoot

namespace HostType

variable {s : Schema} {v : Value} {w w' : World} {e : Error}

/- Types other than sequences refuse a value at once. -/
theorem refuses_of_exportAs
    {t : HostType}
    (hNe : ∀ elem, t ≠ .seq elem)
    (hExport : t.exportAs s v w = (.error e, w')) :
    ∃ heap, Refuses s heap v e := by
  rw [exportAs_of_ne_seq hNe] at hExport
  rcases Action.bind_eq_error_iff.mp hExport with
    hFails | ⟨found, w₁, hFound, hRest⟩
  · rcases isOk_offered (s := s) t v w with ⟨found, hOk⟩
    rw [hFails] at hOk
    cases hOk
  · cases found with
    | some fitted => cases hRest
    | none =>
        have hPlain : t.exportPlain s w₁.heap v = .error e :=
          congrArg Prod.fst hRest
        exact ⟨w₁.heap, refuses_of_exportPlain hPlain⟩

/-
  A type of sequences refuses what is no array at once, and
  an array because of an element.
-/
theorem element_of_exportAs_seq
    {elem : HostType}
    (hExport : (HostType.seq elem).exportAs s v w = (.error e, w')) :
    (∃ got want, e = .conversion got want) ∨
      ∃ i item cause w₁,
        elem.exportAs s item w₁ = (.error cause, w') ∧
        e = .element i cause := by
  cases v with
  | array shape values =>
      rw [exportAs_seq_array] at hExport
      rcases Action.bind_eq_error_iff.mp hExport with
        hEach | ⟨items, w₁, hItems, hLast⟩
      · rcases Action.eachFrom_eq_error_iff.mp hEach with
          ⟨k, item, items, w₁, hAt, hBefore, hItem⟩
        rcases Action.mapError_eq_error_iff.mp hItem with
          ⟨cause, hCause, rfl⟩
        exact .inr ⟨0 + k, item, cause, w₁, hCause, rfl⟩
      · cases hLast
  | any id domain =>
      rw [exportAs_seq_any] at hExport
      rcases Action.bind_eq_error_iff.mp hExport with
        hFails | ⟨found, w₁, hFound, hRest⟩
      · rcases isOk_offered (s := s) (.seq elem) (.any id domain) w
          with ⟨found, hOk⟩
        rw [hFails] at hOk
        cases hOk
      · cases found with
        | some fitted => cases hRest
        | none =>
            cases hRest
            exact .inl ⟨_, _, rfl⟩
  | _ =>
      cases hExport
      exact .inl ⟨_, _, rfl⟩

/-
  Exporting a value asks for no field. The induction follows
  the type: an element's failure is wrapped in its position.
-/
theorem not_isUnknownName_of_exportAs
    {t : HostType}
    (hExport : t.exportAs s v w = (.error e, w')) :
    ¬ e.IsUnknownName := by
  have hAtOnce {t : HostType} {v : Value} {w : World} {e : Error}
      (hNe : ∀ elem, t ≠ .seq elem)
      (hFails : t.exportAs s v w = (.error e, w')) :
      ¬ e.IsUnknownName := by
    rcases refuses_of_exportAs hNe hFails with ⟨heap, hRefuses⟩
    cases hRefuses with
    | misfit got want =>
        exact Error.not_isUnknownName_conversion got want
    | unsupported kind =>
        exact Error.not_isUnknownName_unsupported kind
    | unread hValue hRead =>
        exact Box.not_isUnknownName_of_read hRead
  induction t generalizing v w e with
  | seq elem ih =>
      rcases element_of_exportAs_seq hExport with
        ⟨got, want, rfl⟩ | ⟨i, item, cause, w₁, hItem, rfl⟩
      · exact Error.not_isUnknownName_conversion got want
      · change ¬ cause.IsUnknownName
        exact ih hItem
  | _ => exact hAtOnce (by simp) hExport

end HostType

------------------------------------------------------------
-- Listed Names
------------------------------------------------------------

namespace Box

variable {reg : Registry} {s : Schema} {b : Box}
variable {name : String} {id : RecordId}
variable {index : Nat} {w : World}

/-
  The position that a name stands for: that of the first
  field listed under its capital form.
-/
def position?
    (s : Schema)
    (b : Box)
    (name : String) : Option Nat :=
  (b.fieldNames s).idxOf? (Text.capitalize name)

/- A boxed record lists the fields of its type. -/
theorem fieldNames_of_record?
    (hTag : b.record? = some id) :
    b.fieldNames s = (s.fields id).map (·.name) := by
  simp only [fieldNames, hTag]

/- The position among the listed names is looked up. -/
theorem fieldIndex?_eq_position?
    (hTag : b.record? = some id) :
    s.fieldIndex? id (Text.capitalize name) =
      b.position? s name := by
  rw [position?, fieldNames_of_record? hTag, List.idxOf?,
    List.findIdx?_map]
  rfl

/- A name that stands for a position is that of a field. -/
theorem exists_field_of_position?
    (hTag : b.record? = some id)
    (hPosition : b.position? s name = some index) :
    ∃ f, (s.fields id)[index]? = some f := by
  rw [position?, fieldNames_of_record? hTag,
    List.idxOf?_eq_some_iff] at hPosition
  rcases hPosition with ⟨hIndex, -⟩
  rw [List.length_map] at hIndex
  exact ⟨_, List.getElem?_eq_getElem hIndex⟩

/-
  A listed name stands for its own position if it is a
  capital form that is not listed before.
-/
theorem position?_eq_self_iff
    (hListed : (b.fieldNames s)[index]? = some name) :
    b.position? s name = some index ↔
      Text.capitalize name = name ∧
        name ∉ (b.fieldNames s).take index := by
  rcases List.getElem?_eq_some_iff.mp hListed with ⟨hIndex, hGet⟩
  rw [position?, List.idxOf?_eq_some_iff]
  constructor
  · rintro ⟨hIn, hName, hFirst⟩
    rw [hGet] at hName
    refine ⟨hName.symm, ?_⟩
    intro hMem
    rcases List.mem_take_iff_getElem.mp hMem with
      ⟨j, hBefore, hSame⟩
    exact hFirst j (by omega) (by rw [← hName]; exact hSame)
  · rintro ⟨hCapital, hFirst⟩
    rw [hCapital]
    refine ⟨hIndex, hGet, ?_⟩
    intro j hBefore hSame
    apply hFirst
    exact List.mem_take_iff_getElem.mpr ⟨j, by omega, hSame⟩

/-
  Two names, one of which stands for a position, stand for
  the same one if they have the same capital form.
-/
theorem position?_eq_iff
    {other : String}
    (hKnown : b.position? s name = some index) :
    b.position? s other = some index ↔
      Text.capitalize other = Text.capitalize name := by
  constructor
  · intro hOther
    rcases List.idxOf?_eq_some_iff.mp hKnown with ⟨hIn, hName, -⟩
    rcases List.idxOf?_eq_some_iff.mp hOther with ⟨hIn', hSame, -⟩
    exact hSame.symm.trans hName
  · intro hCapital
    rw [position?, hCapital]
    exact hKnown

------------------------------------------------------------
-- Addressed Slots
------------------------------------------------------------

/-
  A name addresses the slot at a position of the boxed record.
  What is got is what is there: a record in place, anything
  else imported. What is set is exported and put there, which
  succeeds if the export does, leaves the slot and ends with
  nobody having the object.
-/
structure Addresses
    (reg : Registry)
    (b : Box)
    (name : String)
    (w : World)
    (index : Nat)
    (t : HostType) : Prop where
  field_record : ∀ inner, t = .record inner →
    b.field reg name w =
      (.ok (some (.boxed (b.project index t))), w)
  field_other : (∀ inner, t ≠ .record inner) →
    ∃ content,
      (w.heap.content b.handle).at? (b.path ++ [index]) =
        some content ∧
      b.field reg name w =
        (some <$> Action.onHeap (t.importAs reg.schema content)) w
  set_iff : ∀ v w',
    b.set reg.schema name v w = (.ok (), w') ↔
      ∃ new old w₁,
        t.exportAs reg.schema v w = (.ok new, w₁) ∧
        w₁.heap.isWritable b.handle = true ∧
        (w₁.heap.content b.handle).at? (b.path ++ [index]) =
          some old ∧
        w' = w₁.withHeap
          (w₁.heap.putAt b.handle (b.path ++ [index]) new)

/- A name that stands for a field addresses its slot. -/
theorem addresses_of_hasField
    {f : Field}
    {content : HostValue}
    (hField : b.HasField reg name id index f)
    (hRead : b.readField reg.schema w.heap index = .ok content) :
    b.Addresses reg name w index f.type where
  field_record inner hInner := hField.field_of_record hInner w
  field_other hNoRecord :=
    ⟨content, (readField_eq_ok_iff.mp hRead).2,
      hField.field_of_read hNoRecord hRead⟩
  set_iff v w' := by
    rw [hField.set_eq_ok_iff]
    constructor
    · rintro ⟨new, w₁, heap, hExport, hPut, rfl⟩
      rcases putField_eq_ok_iff.mp hPut with
        ⟨hWritable, ⟨old, hOld⟩, rfl⟩
      exact ⟨new, old, w₁, hExport, hWritable,
        (readField_eq_ok_iff.mp hOld).2, rfl⟩
    · rintro ⟨new, old, w₁, hExport, hWritable, hAt, rfl⟩
      have hOld : b.readField reg.schema w₁.heap index = .ok old :=
        readField_eq_ok_iff.mpr
          ⟨Heap.isReadable_of_isWritable hWritable, hAt⟩
      exact ⟨new, w₁, _, hExport,
        putField_eq_ok_iff.mpr ⟨hWritable, ⟨old, hOld⟩, rfl⟩, rfl⟩

------------------------------------------------------------
-- Known and Unknown Names
------------------------------------------------------------

/- A name that stands for no position cannot be set. -/
theorem set_of_unknown
    (hTag : b.record? = some id)
    (hUnknown : b.position? s name = none)
    (v : Value) :
    b.set s name v w =
      (.error (.noSuchField (Text.capitalize name)), w) := by
  rw [← fieldIndex?_eq_position? hTag] at hUnknown
  simp only [set, hTag, hUnknown, Action.fail_apply]

/- Unless it is that of a method, nothing is got by it. -/
theorem field_of_unknown
    (hTag : b.record? = some id)
    (hUnknown : b.position? reg.schema name = none)
    (hMethod : reg.method? id (Text.capitalize name) = none) :
    b.field reg name w = (.ok none, w) := by
  rw [← fieldIndex?_eq_position? hTag] at hUnknown
  simp only [field, hTag, hMethod, hUnknown, Action.pure_apply]

/-
  By the name of a method the method is got, bound to the box
  and with an identity of its own.
-/
theorem field_of_method
    {m : Method}
    (hTag : b.record? = some id)
    (hMethod : reg.method? id (Text.capitalize name) = some m) :
    b.field reg name w =
      (.ok (some (.function w.identities (.callable
        ⟨reg.schema.name id ++ "." ++ Text.capitalize name, m.sig,
          .bound m.body b⟩))),
        { w with identities := w.identities + 1 }) := by
  simp only [field, hTag, hMethod, Action.bind_apply,
    Action.fresh, Action.pure_apply, Callable.bind]

/- A name that stands for a position is that of a member. -/
theorem field_of_known
    {w' : World}
    (hTag : b.record? = some id)
    (hKnown : b.position? reg.schema name = some index) :
    b.field reg name w ≠ (.ok none, w') := by
  intro hField
  cases hMethod : reg.method? id (Text.capitalize name) with
  | some m =>
      rw [field_of_method hTag hMethod] at hField
      cases hField
  | none =>
      rcases exists_field_of_position? hTag hKnown with ⟨f, hGet⟩
      rw [← fieldIndex?_eq_position? hTag] at hKnown
      have hHas : b.HasField reg name id index f :=
        ⟨hTag, hMethod, hKnown, hGet⟩
      rw [hHas.field_eq, Action.map_apply] at hField
      cases hGot : (b.fieldAt reg.schema index f.type w).1 with
      | ok u => simp [hGot, Except.map] at hField
      | error e => simp [hGot, Except.map] at hField

/- Setting it may fail, but not as an unknown name. -/
theorem set_of_known
    {v : Value}
    {w' : World}
    {e : Error}
    (hTag : b.record? = some id)
    (hKnown : b.position? s name = some index)
    (hSet : b.set s name v w = (.error e, w')) :
    ¬ e.IsUnknownName := by
  rcases exists_field_of_position? hTag hKnown with ⟨f, hGet⟩
  rw [← fieldIndex?_eq_position? hTag] at hKnown
  simp only [set, hTag, hKnown, hGet] at hSet
  rcases Action.bind_eq_error_iff.mp hSet with
    hExport | ⟨new, w₁, hExport, hPut⟩
  · exact HostType.not_isUnknownName_of_exportAs hExport
  · exact not_isUnknownName_of_putField
      (Action.changeHeap_eq_error_iff.mp hPut).1

/-
  Listed names are looked up in their capital form. If a
  method has this, it is got, bound to the box. If it is not
  listed, the name is unknown: it cannot be set, and without
  a method nothing is got by it. If it is, the name is known
  and, unless a method has it, addresses the slot of the first
  field that is listed so. This is its own slot exactly if it
  is a capital form that is not listed before. Names share a
  slot exactly if they have the same capital form.
-/
theorem members_of_listed
    (reg : Registry)
    (b : Box)
    (w : World)
    {values : List HostValue}
    (hTag : b.record? = some id)
    (hRead : b.read reg.schema w.heap = .ok (.record id values))
    (hSize : values.length = (reg.schema.fields id).length)
    (hListed : (b.fieldNames reg.schema)[index]? = some name) :
    (b.position? reg.schema name = none →
      (∀ v, b.set reg.schema name v w =
        (.error (.noSuchField (Text.capitalize name)), w)) ∧
      (reg.method? id (Text.capitalize name) = none →
        b.field reg name w = (.ok none, w))) ∧
    (∀ m, reg.method? id (Text.capitalize name) = some m →
      b.field reg name w =
        (.ok (some (.function w.identities (.callable
          ⟨reg.schema.name id ++ "." ++ Text.capitalize name,
            m.sig, .bound m.body b⟩))),
          { w with identities := w.identities + 1 })) ∧
    (∀ slot, b.position? reg.schema name = some slot →
      (∀ v e w', b.set reg.schema name v w = (.error e, w') →
        ¬ e.IsUnknownName) ∧
      (∀ w', b.field reg name w ≠ (.ok none, w')) ∧
      (reg.method? id (Text.capitalize name) = none →
        ∃ f, (reg.schema.fields id)[slot]? = some f ∧
          b.Addresses reg name w slot f.type) ∧
      ∀ other, b.position? reg.schema other = some slot ↔
        Text.capitalize other = Text.capitalize name) ∧
    (b.position? reg.schema name = some index ↔
      Text.capitalize name = name ∧
        name ∉ (b.fieldNames reg.schema).take index) := by
  refine ⟨?_, ?_, ?_, position?_eq_self_iff hListed⟩
  · intro hUnknown
    exact ⟨set_of_unknown hTag hUnknown,
      field_of_unknown hTag hUnknown⟩
  · exact fun m hMethod => field_of_method hTag hMethod
  · intro slot hKnown
    refine ⟨fun v e w' => set_of_known hTag hKnown,
      fun w' => field_of_known hTag hKnown, ?_,
      fun other => position?_eq_iff hKnown⟩
    intro hMethod
    rcases exists_field_of_position? hTag hKnown with ⟨f, hGet⟩
    have hHas : b.HasField reg name id slot f :=
      ⟨hTag, hMethod, fieldIndex?_eq_position? hTag ▸ hKnown, hGet⟩
    have hIn : slot < values.length := by
      rw [hSize]
      exact (List.getElem?_eq_some_iff.mp hGet).1
    exact ⟨f, hGet, addresses_of_hasField hHas
      (readField_of_read hRead (List.getElem?_eq_getElem hIn))⟩

end Box

/-
  Shelves, whose first field is not listed in capital form,
  and whose last two fields have the same capital form.
-/
def Schema.shelves : Schema :=
  Schema.empty.declare
    ⟨"Shelf",
      [⟨"label", .int .i64⟩, ⟨"Width", .int .i64⟩,
        ⟨"width", .int .i64⟩]⟩
    (by decide)

/- A world with one object, a shelf. -/
def World.withShelf : World :=
  World.initial.withHeap
    ⟨[.free (.record ⟨0⟩ [.int 1, .int 2, .int 3])]⟩

/- The shelf. -/
def Box.shelf : Box :=
  .whole ⟨0⟩ (.record ⟨0⟩)

/-
  The third field of a shelf is known by its name, which
  addresses the slot of the second one.
-/
theorem Box.members_of_listed_shelf :
    Box.shelf.record? = some ⟨0⟩ ∧
    Box.shelf.read .shelves World.withShelf.heap =
      .ok (.record ⟨0⟩ [.int 1, .int 2, .int 3]) ∧
    (Box.shelf.fieldNames .shelves)[2]? = some "width" ∧
    Box.shelf.position? .shelves "width" = some 1 ∧
    (∀ w', Box.shelf.field (.ofSchema .shelves) "width"
      .withShelf ≠ (.ok none, w')) ∧
    ∃ f, (Schema.shelves.fields ⟨0⟩)[1]? = some f ∧
      Box.shelf.Addresses (.ofSchema .shelves) "width" .withShelf 1
        f.type := by
  have hPosition : Box.shelf.position? .shelves "width" = some 1 := by
    decide
  have hListed :
      (Box.shelf.fieldNames .shelves)[2]? = some "width" := rfl
  have hMembers := members_of_listed (.ofSchema .shelves) .shelf
    .withShelf rfl rfl rfl hListed
  have hKnown := hMembers.2.2.1 1 hPosition
  exact ⟨rfl, rfl, hListed, hPosition, hKnown.2.1, hKnown.2.2.1 rfl⟩

/-
  Of the names that a shelf lists, the first is unknown to
  it, and by the third its second field is set. So not every
  listed field is reached by its name.
-/
theorem Box.listed_names_of_shelf_mislead :
    Box.shelf.fieldNames .shelves = ["label", "Width", "width"] ∧
    World.withShelf.heap.IsIdle ∧
    Box.shelf.read .shelves World.withShelf.heap =
      .ok (.record ⟨0⟩ [.int 1, .int 2, .int 3]) ∧
    Box.shelf.set .shelves "label" (.int 9) .withShelf =
      (.error (.noSuchField "Label"), .withShelf) ∧
    Box.shelf.field (.ofSchema .shelves) "label" .withShelf =
      (.ok none, .withShelf) ∧
    ∃ w', Box.shelf.set .shelves "width" (.int 9) .withShelf =
        (.ok (), w') ∧
      Box.shelf.read .shelves w'.heap =
        .ok (.record ⟨0⟩ [.int 1, .int 9, .int 3]) := by
  refine ⟨rfl, ?_, rfl, rfl, rfl, _, rfl, rfl⟩
  rintro ⟨index⟩
  cases index <;> rfl

end Interop
