import Interop.Place
import Interop.Proofs.Heap

/-
  Places and writes to them. Replacing the value at the end
  of a path is seen along every path: paths that part from
  it lead where they led before, paths that it continues
  find the replacement inside what they found, and paths
  that continue it lead into the new value.

  Main declarations:
    * `Part`
    * `HostValue.at?_replaceAt_of_part`
    * `HostValue.at?_replaceAt_above`
    * `HostValue.at?_replaceAt_below`
    * `Heap.putAt`
    * `Box.read_putAt_of_part`
    * `Box.read_putAt_above`
    * `Box.read_putAt_below`
    * `Box.putField_eq_ok`
-/

namespace Interop

------------------------------------------------------------
-- Paths
------------------------------------------------------------

/- Two paths part when neither continues the other. -/
def Part (p q : List Nat) : Prop :=
  ¬ p <+: q ∧ ¬ q <+: p

/- Paths with one first step part when their rests do. -/
theorem part_cons_iff
    {i : Nat}
    {p q : List Nat} :
    Part (i :: p) (i :: q) ↔ Part p q := by
  simp [Part, List.cons_prefix_cons]

namespace HostValue

/- Replacing below a path replaces inside what is there. -/
theorem replaceAt_append
    {path rest : List Nat}
    {v old new : HostValue}
    (hAt : v.at? path = some old) :
    replaceAt (path ++ rest) new v =
      replaceAt path (replaceAt rest new old) v := by
  induction path generalizing v with
  | nil =>
      simp only [at?, Option.some.injEq] at hAt
      subst hAt
      rfl
  | cons i path ih =>
      cases v with
      | record id values =>
          simp only [at?] at hAt
          cases hGet : values[i]? with
          | none => simp [hGet] at hAt
          | some w =>
              simp only [hGet, Option.bind_some] at hAt
              simp only [List.cons_append, replaceAt,
                record.injEq, true_and]
              apply List.ext_getElem?
              intro j
              by_cases hj : i = j
              · subst hj
                simp [hGet, ih hAt]
              · simp [hj]
      | _ => simp [at?] at hAt

/- A path that parts from it leads where it led before. -/
theorem at?_replaceAt_of_part
    {path other : List Nat}
    {new : HostValue}
    (hPart : Part path other)
    (v : HostValue) :
    (replaceAt path new v).at? other = v.at? other := by
  induction path generalizing other v with
  | nil => exact absurd List.nil_prefix hPart.1
  | cons i path ih =>
      cases other with
      | nil => exact absurd List.nil_prefix hPart.2
      | cons j other =>
          cases v with
          | record id values =>
              simp only [replaceAt, at?]
              by_cases hEq : i = j
              · subst hEq
                have hRest := part_cons_iff.mp hPart
                cases hGet : values[i]? with
                | none => simp [hGet]
                | some w => simp [hGet, ih hRest]
              · simp [hEq]
          | _ => rfl

/- A path that it continues finds the replacement inside. -/
theorem at?_replaceAt_above
    (path rest : List Nat)
    (new v : HostValue) :
    (replaceAt (path ++ rest) new v).at? path =
      (v.at? path).map (replaceAt rest new) := by
  induction path generalizing v with
  | nil => rfl
  | cons i path ih =>
      cases v with
      | record id values =>
          simp only [List.cons_append, replaceAt, at?]
          cases hGet : values[i]? with
          | none => simp [hGet]
          | some w => simp [hGet, ih]
      | _ => rfl

/- A path that continues it leads into the new value. -/
theorem at?_replaceAt_below
    {path : List Nat}
    {v old new : HostValue}
    (hAt : v.at? path = some old)
    (rest : List Nat) :
    (replaceAt path new v).at? (path ++ rest) =
      new.at? rest := by
  rw [at?_append, at?_replaceAt hAt, Option.bind_some]

/- The value at a path has what continues the path. -/
theorem at?_append_of_at?
    {path : List Nat}
    {v old : HostValue}
    (hAt : v.at? path = some old)
    (rest : List Nat) :
    v.at? (path ++ rest) = old.at? rest := by
  rw [at?_append, hAt, Option.bind_some]

/- Of two values put at the end of a path the second stays. -/
theorem replaceAt_replaceAt
    (path : List Nat)
    (old new v : HostValue) :
    replaceAt path new (replaceAt path old v) =
      replaceAt path new v := by
  induction path generalizing v with
  | nil => rfl
  | cons i path ih =>
      cases v with
      | record id values =>
          simp only [replaceAt, record.injEq, true_and,
            List.modify_modify_eq]
          congr 1
          funext u
          exact ih u
      | _ => rfl

/- Only records have anything below them. -/
theorem isRecord_of_at?_cons
    {i : Nat}
    {path : List Nat}
    {v u : HostValue}
    (hAt : v.at? (i :: path) = some u) :
    ∃ id values w,
      v = .record id values ∧ values[i]? = some w ∧
        w.at? path = some u := by
  cases v with
  | record id values =>
      simp only [at?] at hAt
      rcases Option.bind_eq_some_iff.mp hAt with
        ⟨w, hGet, hRest⟩
      exact ⟨id, values, w, rfl, hGet, hRest⟩
  | _ => simp [at?] at hAt

/- So what a path leads into is one. -/
theorem exists_isRecordOf_of_at?
    {path : List Nat}
    {v u : HostValue}
    (hPath : path ≠ [])
    (hAt : v.at? path = some u) :
    ∃ id, v.isRecordOf id = true := by
  cases path with
  | nil => exact absurd rfl hPath
  | cons i path =>
      rcases isRecord_of_at?_cons hAt with ⟨id, values, w, rfl, _⟩
      exact ⟨id, by simp [isRecordOf]⟩

/- A path that leads into a field changes that field. -/
theorem replaceAt_cons_of_getElem?
    {i : Nat}
    {path : List Nat}
    {new w : HostValue}
    {id : RecordId}
    {values : List HostValue}
    (hGet : values[i]? = some w) :
    replaceAt (i :: path) new (.record id values) =
      .record id (values.set i (replaceAt path new w)) := by
  simp [replaceAt, List.modify_eq_set, hGet]

/- Putting back what is at the end of a path changes nothing. -/
theorem replaceAt_of_at?
    {path : List Nat}
    {v old : HostValue}
    (hAt : v.at? path = some old) :
    replaceAt path old v = v := by
  induction path generalizing v with
  | nil => exact (Option.some.inj hAt).symm
  | cons i path ih =>
      rcases isRecord_of_at?_cons hAt with
        ⟨id, values, w, rfl, hGet, hRest⟩
      rw [replaceAt_cons_of_getElem? hGet, ih hRest]
      rcases List.getElem?_eq_some_iff.mp hGet with ⟨hIn, rfl⟩
      simp

/- Replacing something inside a record keeps its type. -/
theorem isRecordOf_replaceAt
    {path : List Nat}
    (hPath : path ≠ [])
    (new v : HostValue)
    (id : RecordId) :
    (replaceAt path new v).isRecordOf id = v.isRecordOf id := by
  cases path with
  | nil => exact absurd rfl hPath
  | cons i path =>
      cases v with
      | record own values => rfl
      | _ => rfl

/- One step down replaces one field. -/
theorem replaceAt_singleton
    (index : Nat)
    (new : HostValue)
    (id : RecordId)
    (values : List HostValue) :
    replaceAt [index] new (.record id values) =
      .record id (values.set index new) := by
  simp only [replaceAt, record.injEq, true_and]
  apply List.ext_getElem?
  intro j
  by_cases hj : index = j
  · subst hj
    by_cases hIn : index < values.length
    · simp [hIn]
    · simp [hIn]
  · simp [hj]

end HostValue

------------------------------------------------------------
-- Slots of Objects
------------------------------------------------------------

namespace Heap

/-
  The heap in which one slot of one object, the one at the
  end of a path, holds another value.
-/
def putAt
    (heap : Heap)
    (h : Handle)
    (path : List Nat)
    (new : HostValue) : Heap :=
  heap.store h (.replaceAt path new (heap.content h))

variable {heap : Heap} {h k : Handle} {path : List Nat}

@[simp] theorem size_putAt
    (heap : Heap)
    (h : Handle)
    (path : List Nat)
    (new : HostValue) :
    (heap.putAt h path new).size = heap.size :=
  size_store heap h _

@[simp] theorem loan_putAt
    (heap : Heap)
    (h k : Handle)
    (path : List Nat)
    (new : HostValue) :
    (heap.putAt h path new).loan k = heap.loan k :=
  loan_store heap h k _

@[simp] theorem isReadable_putAt
    (heap : Heap)
    (h k : Handle)
    (path : List Nat)
    (new : HostValue) :
    (heap.putAt h path new).isReadable k =
      heap.isReadable k :=
  isReadable_store heap h k _

theorem cell_putAt_of_ne
    {new : HostValue}
    (hNe : k ≠ h) :
    (heap.putAt h path new).cell k = heap.cell k :=
  cell_store_of_ne hNe

theorem content_putAt_self
    {new : HostValue}
    (hIn : h.index < heap.size) :
    (heap.putAt h path new).content h =
      .replaceAt path new (heap.content h) :=
  content_store_self hIn

/- Of two values put into a slot the second stays. -/
theorem putAt_putAt
    (hIn : h.index < heap.size)
    (old new : HostValue) :
    (heap.putAt h path old).putAt h path new =
      heap.putAt h path new := by
  rw [putAt, content_putAt_self hIn,
    HostValue.replaceAt_replaceAt]
  exact store_store heap h _ _

/- Putting back what a slot holds changes nothing. -/
theorem putAt_of_at?
    {old : HostValue}
    (hAt : (heap.content h).at? path = some old) :
    heap.putAt h path old = heap := by
  rw [putAt, HostValue.replaceAt_of_at? hAt, store_content]

/- Changing a field of a record is replacing the record. -/
theorem putAt_field
    {id : RecordId}
    {values : List HostValue}
    {index : Nat}
    {new : HostValue}
    (hAt : (heap.content h).at? path = some (.record id values)) :
    heap.putAt h (path ++ [index]) new =
      heap.putAt h path (.record id (values.set index new)) := by
  unfold putAt
  rw [HostValue.replaceAt_append hAt,
    HostValue.replaceAt_singleton]

/- What has a part at the end of a path is an object. -/
theorem lt_size_of_at?
    {u : HostValue}
    (hAt : (heap.content h).at? path = some u)
    (hPath : path ≠ []) :
    h.index < heap.size := by
  apply lt_size_of_content_ne
  intro hNil
  cases path with
  | nil => exact hPath rfl
  | cons i path => simp [hNil, HostValue.at?] at hAt

/- What has a record at the end of a path is an object. -/
theorem lt_size_of_record
    {id : RecordId}
    {values : List HostValue}
    (hAt :
      (heap.content h).at? path = some (.record id values)) :
    h.index < heap.size := by
  apply lt_size_of_content_ne
  intro hNil
  cases path <;> simp [hNil, HostValue.at?] at hAt

end Heap

------------------------------------------------------------
-- Boxes and Slots
------------------------------------------------------------

namespace Box

variable {s : Schema} {heap : Heap} {b : Box}
variable {path rest : List Nat} {new : HostValue}

/- A place that leads nowhere is no record. -/
def outcome
    (s : Schema)
    (b : Box)
    (found : Option HostValue) : Except Error HostValue :=
  match found with
  | some v => .ok v
  | none => .error (.notARecord (b.type.text s))

/- Boxes of fields inside objects have a path to follow. -/
theorem isProjection_iff :
    b.isProjection = true ↔ b.path ≠ [] := by
  simp [isProjection]

/- What a box reads from an object that may be read. -/
theorem read_of_isReadable
    (hReadable : heap.isReadable b.handle = true) :
    b.read s heap =
      b.outcome s ((heap.content b.handle).at? b.path) := by
  rw [read, if_pos hReadable]
  rfl

/- Reading succeeds on readable objects that have the path. -/
theorem read_eq_ok_iff
    {v : HostValue} :
    b.read s heap = .ok v ↔
      heap.isReadable b.handle = true ∧
        (heap.content b.handle).at? b.path = some v := by
  unfold read
  split
  · rename_i hReadable
    cases hAt : (heap.content b.handle).at? b.path with
    | none => simp
    | some u => simp [hReadable]
  · rename_i hNot
    simp [hNot]

/- Reading looks at one object and its loan only. -/
theorem read_congr
    {heap' : Heap}
    (hCell : heap'.cell b.handle = heap.cell b.handle) :
    b.read s heap' = b.read s heap := by
  simp [read, Heap.isReadable, Heap.loan, Heap.content, hCell]

/-
  A box on another object, or with a path that parts from
  the one written, reads what it read before.
-/
theorem read_putAt_of_part
    {h : Handle}
    (hApart : b.handle ≠ h ∨ Part path b.path)
    (hIn : h.index < heap.size) :
    b.read s (heap.putAt h path new) = b.read s heap := by
  by_cases hEq : b.handle = h
  · have hPart : Part path b.path := by
      rcases hApart with hNe | hPart
      · exact absurd hEq hNe
      · exact hPart
    subst hEq
    simp [read, Heap.content_putAt_self hIn,
      HostValue.at?_replaceAt_of_part hPart]
  · exact read_congr (Heap.cell_putAt_of_ne hEq)

/-
  A box whose path the written one continues reads its old
  content with that part replaced.
-/
theorem read_putAt_above
    (hIn : b.handle.index < heap.size) :
    b.read s (heap.putAt b.handle (b.path ++ rest) new) =
      (b.read s heap).map (HostValue.replaceAt rest new) := by
  simp only [read, Heap.isReadable_putAt,
    Heap.content_putAt_self hIn,
    HostValue.at?_replaceAt_above]
  split
  · cases (heap.content b.handle).at? b.path <;> rfl
  · rfl

/-
  A box whose path continues the written one reads what the
  new value holds at the rest of the path.
-/
theorem read_putAt_below
    {old : HostValue}
    (hPath : b.path = path ++ rest)
    (hIn : b.handle.index < heap.size)
    (hReadable : heap.isReadable b.handle = true)
    (hAt : (heap.content b.handle).at? path = some old) :
    b.read s (heap.putAt b.handle path new) =
      b.outcome s (new.at? rest) := by
  rw [read_of_isReadable (by simpa using hReadable),
    Heap.content_putAt_self hIn, hPath,
    HostValue.at?_replaceAt_below hAt]

------------------------------------------------------------
-- Writing Through a Box
------------------------------------------------------------

/- An update that succeeds stores a changed content. -/
theorem update_eq_ok
    {change : HostValue → Except Error HostValue}
    {heap' : Heap}
    (hUpdate : b.update s heap change = .ok heap') :
    ∃ old new,
      heap.isWritable b.handle = true ∧
      (heap.content b.handle).at? b.path = some old ∧
      change old = .ok new ∧
      heap' = heap.putAt b.handle b.path new := by
  unfold update at hUpdate
  split at hUpdate
  · rename_i hWritable
    cases hAt : (heap.content b.handle).at? b.path with
    | none => simp [hAt] at hUpdate
    | some old =>
        cases hChange : change old with
        | error e => simp [hAt, hChange] at hUpdate
        | ok new =>
            simp only [hAt, hChange, Except.ok.injEq]
              at hUpdate
            exact ⟨old, new, hWritable, rfl, hChange,
              hUpdate.symm⟩
  · simp at hUpdate

/- An update of a place that may be written and exists. -/
theorem update_of_at?
    {change : HostValue → Except Error HostValue}
    {old : HostValue}
    (hWritable : heap.isWritable b.handle = true)
    (hAt : (heap.content b.handle).at? b.path = some old)
    (hChange : change old = .ok new) :
    b.update s heap change =
      .ok (heap.putAt b.handle b.path new) := by
  simp [update, hWritable, hAt, hChange, Heap.putAt]

/-
  A field that is put fills the slot one step below the box,
  which was there before.
-/
theorem putField_eq_ok
    {index : Nat}
    {heap' : Heap}
    (hPut : b.putField s heap index new = .ok heap') :
    ∃ id values,
      heap.isWritable b.handle = true ∧
      (heap.content b.handle).at? b.path =
        some (.record id values) ∧
      index < values.length ∧
      heap' =
        heap.putAt b.handle (b.path ++ [index]) new := by
  rcases update_eq_ok hPut with
    ⟨old, changed, hWritable, hAt, hChange, hHeap⟩
  cases old with
  | record id values =>
      simp only at hChange
      split at hChange
      · rename_i hIndex
        simp only [Except.ok.injEq] at hChange
        refine ⟨id, values, hWritable, hAt, hIndex, ?_⟩
        rw [hHeap, ← hChange, Heap.putAt_field hAt]
      · simp at hChange
  | _ => simp at hChange

end Box

end Interop
