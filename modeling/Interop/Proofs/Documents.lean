import Interop.Json.OfValue
import Interop.Proofs.Display

/-
  Values as documents. A value is written as a whole or not
  at all: what keeps it from being written is the first of
  the values in it, taken depth first and from left to right,
  that has no data of its own.

  Values that are written keep their structure. Complex
  numbers aside, which are written as lists, and numbers that
  are not finite, which are left out, two documents are the
  same exactly if the values are equal.

  Main declarations:
    * `Value.leaves`
    * `Value.IsOpaque`
    * `Value.toJson_cases`
    * `Value.IsReal`
    * `Json.same`
    * `Value.same_toJson`
    * `Value.toJson_is_faithful`
-/

namespace Interop

------------------------------------------------------------
-- Leaves
------------------------------------------------------------

namespace Value

mutual

/-
  The values without elements that occur in a value, depth
  first and from left to right.
-/
def leaves : Value → List Value
| .array _ values => leavesAll values
| .list values => leavesAll values
| v => [v]

/- The leaves of values, from left to right. -/
def leavesAll : List Value → List Value
| [] => []
| v :: rest => v.leaves ++ leavesAll rest

end

/- Boxed objects, functions and domain values are no data. -/
inductive IsOpaque : Value → Prop where
| boxed
    (b : Box) :
    IsOpaque (.boxed b)
| function
    (id : Nat)
    (f : Function) :
    IsOpaque (.function id f)
| any
    (id : Nat)
    (e : Exportable) :
    IsOpaque (.any id e)

/- What a value that is no data is called. -/
def opaqueName? (s : Schema) : Value → Option String
| .boxed b => some ("boxed " ++ b.type.text s)
| .function _ f => some ("function " ++ f.text s)
| .any _ e => some e.typeName
| _ => none

variable {s : Schema} {u v w : Value}

theorem opaqueName?_eq_none_iff :
    v.opaqueName? s = none ↔ ¬ v.IsOpaque := by
  cases v with
  | boxed b => simp [opaqueName?, IsOpaque.boxed]
  | function id f => simp [opaqueName?, IsOpaque.function]
  | any id e => simp [opaqueName?, IsOpaque.any]
  | _ =>
      simp only [opaqueName?, true_iff]
      intro hOpaque
      cases hOpaque

theorem mem_leavesAll_iff
    (values : List Value) :
    u ∈ leavesAll values ↔ ∃ v ∈ values, u ∈ v.leaves := by
  induction values with
  | nil => simp [leavesAll]
  | cons v rest ih => simp [leavesAll, ih]

/- The leaves are among the values that occur. -/
theorem within_of_mem_leaves
    (hMem : u ∈ v.leaves) :
    Within u v := by
  induction v using Value.induction with
  | array shape values ih =>
      rw [leaves, mem_leavesAll_iff] at hMem
      rcases hMem with ⟨v, hIn, hLeaf⟩
      exact .arrayItem hIn (ih v hIn hLeaf)
  | list values ih =>
      rw [leaves, mem_leavesAll_iff] at hMem
      rcases hMem with ⟨v, hIn, hLeaf⟩
      exact .listItem hIn (ih v hIn hLeaf)
  | flat v hNoArray hNoList =>
      rw [leaves.eq_3 v hNoArray hNoList, List.mem_singleton] at hMem
      rw [hMem]
      exact .self v

/- What is no data is a leaf wherever it occurs. -/
theorem mem_leaves_of_within
    (hOpaque : u.IsOpaque)
    (hWithin : Within u v) :
    u ∈ v.leaves := by
  induction hWithin with
  | self => cases hOpaque <;> simp [leaves]
  | arrayItem hMem hInside ih =>
      rw [leaves, mem_leavesAll_iff]
      exact ⟨_, hMem, ih⟩
  | listItem hMem hInside ih =>
      rw [leaves, mem_leavesAll_iff]
      exact ⟨_, hMem, ih⟩

------------------------------------------------------------
-- All or Nothing
------------------------------------------------------------

/- No leaf that may be looked at is opaque. -/
theorem leaves_are_data_iff :
    (∀ u ∈ v.leaves, u.opaqueName? s = none) ↔
      ∀ u, Within u v → ¬ u.IsOpaque := by
  constructor
  · intro hLeaves u hWithin hOpaque
    have hName := hLeaves u (mem_leaves_of_within hOpaque hWithin)
    exact opaqueName?_eq_none_iff.mp hName hOpaque
  · intro hAll u hMem
    exact opaqueName?_eq_none_iff.mpr
      (hAll u (within_of_mem_leaves hMem))

/- Values are written from left to right. -/
theorem allToJson_cons
    (v : Value)
    (rest : List Value) :
    allToJson s (v :: rest) =
      (v.toJson s).bind fun item =>
        (allToJson s rest).map (item :: ·) := by
  rw [allToJson]
  cases v.toJson s with
  | error e => rfl
  | ok item => cases allToJson s rest <;> rfl

/- One value that cannot be written spoils a list. -/
theorem allToJson_cases
    (values : List Value)
    (hEach : ∀ v ∈ values,
      (∃ j, v.toJson s = .ok j ∧
        v.leaves.findSome? (opaqueName? s) = none) ∨
      ∃ what, v.toJson s = .error (.noJson what) ∧
        v.leaves.findSome? (opaqueName? s) = some what) :
    (∃ js, allToJson s values = .ok js ∧
      (leavesAll values).findSome? (opaqueName? s) = none) ∨
    ∃ what, allToJson s values = .error (.noJson what) ∧
      (leavesAll values).findSome? (opaqueName? s) = some what := by
  induction values with
  | nil => exact .inl ⟨[], rfl, rfl⟩
  | cons v rest ih =>
      have hRest := ih fun x hMem =>
        hEach x (List.mem_cons_of_mem v hMem)
      rw [allToJson_cons, leavesAll, List.findSome?_append]
      rcases hEach v (by simp) with
        ⟨j, hOk, hData⟩ | ⟨what, hFails, hFirst⟩
      · rw [hOk, hData]
        rcases hRest with
          ⟨js, hAll, hNone⟩ | ⟨what, hAll, hSome⟩
        · exact .inl ⟨j :: js, by rw [hAll]; rfl, hNone⟩
        · exact .inr ⟨what, by rw [hAll]; rfl, hSome⟩
      · rw [hFails, hFirst]
        exact .inr ⟨what, rfl, rfl⟩

/-
  A value is written if none of its leaves is opaque, and
  otherwise the first one that is opaque is the failure.
-/
theorem toJson_cases
    (s : Schema)
    (v : Value) :
    (∃ j, v.toJson s = .ok j ∧
      v.leaves.findSome? (opaqueName? s) = none) ∨
    ∃ what, v.toJson s = .error (.noJson what) ∧
      v.leaves.findSome? (opaqueName? s) = some what := by
  induction v using Value.induction with
  | array shape values ih =>
      rw [leaves, toJson]
      rcases allToJson_cases values ih with
        ⟨js, hAll, hNone⟩ | ⟨what, hAll, hSome⟩
      · exact .inl
          ⟨shapedJson shape js, by rw [hAll]; rfl, hNone⟩
      · exact .inr ⟨what, by rw [hAll]; rfl, hSome⟩
  | list values ih =>
      rw [leaves, toJson]
      rcases allToJson_cases values ih with
        ⟨js, hAll, hNone⟩ | ⟨what, hAll, hSome⟩
      · exact .inl ⟨.array js, by rw [hAll]; rfl, hNone⟩
      · exact .inr ⟨what, by rw [hAll]; rfl, hSome⟩
  | flat v hNoArray hNoList =>
      cases v with
      | array shape values => exact absurd rfl (hNoArray _ _)
      | list values => exact absurd rfl (hNoList values)
      | scalar a => exact .inl ⟨a.toJson, rfl, rfl⟩
      | boxed b => exact .inr ⟨_, rfl, rfl⟩
      | function id f => exact .inr ⟨_, rfl, rfl⟩
      | any id e => exact .inr ⟨_, rfl, rfl⟩

theorem isOk_toJson_iff :
    (∃ j, v.toJson s = .ok j) ↔
      ∀ u, Within u v → ¬ u.IsOpaque := by
  rw [← leaves_are_data_iff (s := s),
    ← List.findSome?_eq_none_iff]
  rcases toJson_cases s v with
    ⟨j, hOk, hNone⟩ | ⟨what, hFails, hSome⟩
  · simp [hOk, hNone]
  · simp [hFails, hSome]

theorem toJson_eq_error_iff
    {e : Error} :
    v.toJson s = .error e ↔
      ∃ before u after what,
        v.leaves = before ++ u :: after ∧
        (∀ x ∈ before, ¬ x.IsOpaque) ∧
        u.opaqueName? s = some what ∧
        e = .noJson what := by
  have hFound : v.toJson s = .error e ↔
      ∃ what, v.leaves.findSome? (opaqueName? s) = some what ∧
        e = .noJson what := by
    rcases toJson_cases s v with
      ⟨j, hOk, hNone⟩ | ⟨what, hFails, hSome⟩
    · simp [hOk, hNone]
    · simp [hFails, hSome, eq_comm]
  rw [hFound]
  simp only [List.findSome?_eq_some_iff, ← opaqueName?_eq_none_iff
    (s := s)]
  constructor
  · rintro ⟨what, ⟨before, u, after, hSplit, hName, hData⟩, rfl⟩
    exact ⟨before, u, after, what, hSplit, hData, hName, rfl⟩
  · rintro ⟨before, u, after, what, hSplit, hData, hName, rfl⟩
    exact ⟨what, ⟨before, u, after, hSplit, hName, hData⟩, rfl⟩

end Value

------------------------------------------------------------
-- The Same Document
------------------------------------------------------------

namespace Json

mutual

/-
  Documents are the same if they agree part by part. Integers
  and floating point numbers are never the same; the latter
  are compared as numbers.
-/
def same : Json → Json → Bool
| .null, .null => true
| .int i, .int j => i == j
| .float x, .float y => x.numEq y
| .str s, .str t => s == t
| .array js, .array ks => sameItems js ks
| .object js, .object ks => sameMembers js ks
| _, _ => false

/- The same elements, one by one. -/
def sameItems : List Json → List Json → Bool
| [], [] => true
| j :: js, k :: ks => j.same k && sameItems js ks
| _, _ => false

/- The same names with the same documents, one by one. -/
def sameMembers :
    List (String × Json) → List (String × Json) → Bool
| [], [] => true
| (name, j) :: js, (name', k) :: ks =>
    name == name' && j.same k && sameMembers js ks
| _, _ => false

end

/- The sizes of a shape are the same or not as a whole. -/
theorem sameItems_sizes
    (shape shape' : List Nat) :
    sameItems
        (shape.map fun (n : Nat) => .int n)
        (shape'.map fun (n : Nat) => .int n) =
      (shape == shape') := by
  induction shape generalizing shape' with
  | nil => cases shape' <;> simp [sameItems]
  | cons n rest ih =>
      cases shape' with
      | nil => simp [sameItems]
      | cons n' rest' =>
          have hSize : ((n : Int) == (n' : Int)) = (n == n') :=
            decide_eq_decide.mpr Int.ofNat_inj
          simp only [List.map_cons, sameItems, same, ih, hSize,
            List.cons_beq_cons]

end Json

------------------------------------------------------------
-- Documents of Equal Values
------------------------------------------------------------

/- Numbers that documents have: real and finite ones. -/
def Scalar.IsReal : Scalar → Prop
| .float x => x.isFinite = true
| .complex _ _ => False
| _ => True

/- All numbers in a value are real and finite. -/
def Value.IsReal (v : Value) : Prop :=
  ∀ a, Within (.scalar a) v → a.IsReal

namespace Scalar

variable {a b : Scalar}

/- Finite numbers are written as numbers. -/
theorem toJson_float
    {x : Binary64}
    (hFinite : x.isFinite = true) :
    (float x).toJson = .float x := by
  rw [toJson, Json.ofFloat, if_pos hFinite]

/- A real scalar is written as a document without parts. -/
theorem same_parts_of_isReal
    (hReal : a.IsReal)
    {k : Json}
    (hParts : (∃ items, k = .array items) ∨
      ∃ members, k = .object members) :
    a.toJson.same k = false ∧ k.same a.toJson = false := by
  cases a with
  | complex re im => exact hReal.elim
  | float x =>
      rw [toJson_float hReal]
      rcases hParts with ⟨items, rfl⟩ | ⟨members, rfl⟩ <;>
        exact ⟨rfl, rfl⟩
  | _ =>
      rcases hParts with ⟨items, rfl⟩ | ⟨members, rfl⟩ <;>
        exact ⟨rfl, rfl⟩

/- The documents of real scalars tell them apart. -/
theorem same_toJson
    (hReal : a.IsReal)
    (hReal' : b.IsReal) :
    a.toJson.same b.toJson = a.equal b := by
  cases a with
  | complex re im => exact hReal.elim
  | int i =>
      cases b with
      | complex re im => exact hReal'.elim
      | float y => rw [toJson_float hReal']; rfl
      | int j => exact decide_eq_decide.mpr Int64.toInt_inj
      | str t => rfl
  | float x =>
      rw [toJson_float hReal]
      cases b with
      | complex re im => exact hReal'.elim
      | float y => rw [toJson_float hReal']; rfl
      | _ => rfl
  | str s =>
      cases b with
      | complex re im => exact hReal'.elim
      | float y => rw [toJson_float hReal']; rfl
      | _ => rfl

/- Real scalars are equal to themselves. -/
theorem equal_self
    (hReal : a.IsReal) :
    a.equal a = true := by
  cases a with
  | complex re im => exact hReal.elim
  | float x =>
      have hFinite : x.isFinite = true := hReal
      have hNumber : x.isNaN = false := by
        simp only [Binary64.isFinite, decide_eq_true_eq]
          at hFinite
        simp only [Binary64.isNaN, decide_eq_false_iff_not]
        omega
      simp [equal, Binary64.numEq, hNumber]
  | _ => simp [equal]

end Scalar

namespace Value

variable {s : Schema} {u v w : Value} {j k : Json}

/- The parts of a real value are real. -/
theorem IsReal.of_within
    (hReal : v.IsReal)
    (hWithin : Within u v) :
    u.IsReal :=
  fun a hInside => hReal a (hInside.trans hWithin)

/- Documents of elements are put into that of the whole. -/
theorem allToJson_map_eq_ok_iff
    {values : List Value}
    (whole : List Json → Json) :
    (do
        let items ← allToJson s values
        pure (whole items)) = Except.ok j ↔
      ∃ items, allToJson s values = .ok items ∧
        j = whole items := by
  cases allToJson s values with
  | error e => exact ⟨nofun, by simp⟩
  | ok items =>
      constructor
      · intro hWritten
        cases hWritten
        exact ⟨items, rfl, rfl⟩
      · rintro ⟨_, ⟨⟩, rfl⟩
        rfl

theorem toJson_array_eq_ok_iff
    {shape : List Nat}
    {values : List Value} :
    (array shape values).toJson s = .ok j ↔
      ∃ items, allToJson s values = .ok items ∧
        j = shapedJson shape items := by
  rw [toJson]
  exact allToJson_map_eq_ok_iff (shapedJson shape)

theorem toJson_list_eq_ok_iff
    {values : List Value} :
    (list values).toJson s = .ok j ↔
      ∃ items, allToJson s values = .ok items ∧
        j = .array items := by
  rw [toJson]
  exact allToJson_map_eq_ok_iff .array

theorem allToJson_cons_eq_ok_iff
    {rest : List Value}
    {items : List Json} :
    allToJson s (v :: rest) = .ok items ↔
      ∃ j js, v.toJson s = .ok j ∧
        allToJson s rest = .ok js ∧ items = j :: js := by
  rw [allToJson_cons]
  cases v.toJson s with
  | error e => exact ⟨nofun, by simp⟩
  | ok j =>
      cases allToJson s rest with
      | error e => exact ⟨nofun, by simp⟩
      | ok js =>
          constructor
          · intro hWritten
            cases hWritten
            exact ⟨j, js, rfl, rfl, rfl⟩
          · rintro ⟨_, _, ⟨⟩, ⟨⟩, rfl⟩
            rfl

/- Values that are written are scalars, arrays or lists. -/
theorem written_cases
    (hWritten : v.toJson s = .ok j) :
    (∃ a, v = .scalar a ∧ j = a.toJson) ∨
    (∃ shape values items, v = .array shape values ∧
      allToJson s values = .ok items ∧
      j = shapedJson shape items) ∨
    ∃ values items, v = .list values ∧
      allToJson s values = .ok items ∧ j = .array items := by
  cases v with
  | scalar a =>
      rw [toJson] at hWritten
      cases hWritten
      exact .inl ⟨a, rfl, rfl⟩
  | array shape values =>
      rcases toJson_array_eq_ok_iff.mp hWritten with
        ⟨items, hAll, rfl⟩
      exact .inr (.inl ⟨shape, values, items, rfl, hAll, rfl⟩)
  | list values =>
      rcases toJson_list_eq_ok_iff.mp hWritten with
        ⟨items, hAll, rfl⟩
      exact .inr (.inr ⟨values, items, rfl, hAll, rfl⟩)
  | boxed b => cases hWritten
  | function id f => cases hWritten
  | any id e => cases hWritten

/- Lists are compared by the documents of their elements. -/
theorem sameItems_allToJson
    (values values' : List Value)
    {js ks : List Json}
    (hEach : ∀ v ∈ values, ∀ w ∈ values', ∀ j k,
      v.toJson s = .ok j → w.toJson s = .ok k →
      j.same k = v.equal w)
    (hAll : allToJson s values = .ok js)
    (hAll' : allToJson s values' = .ok ks) :
    Json.sameItems js ks = equalAll values values' := by
  induction values generalizing values' js ks with
  | nil =>
      cases hAll
      cases values' with
      | nil => cases hAll'; rfl
      | cons w rest' =>
          rcases allToJson_cons_eq_ok_iff.mp hAll' with
            ⟨k, ks, -, -, rfl⟩
          rfl
  | cons v rest ih =>
      rcases allToJson_cons_eq_ok_iff.mp hAll with
        ⟨j, js, hFirst, hRest, rfl⟩
      cases values' with
      | nil => cases hAll'; rfl
      | cons w rest' =>
          rcases allToJson_cons_eq_ok_iff.mp hAll' with
            ⟨k, ks, hFirst', hRest', rfl⟩
          have hHead := hEach v (by simp) w (by simp) j k
            hFirst hFirst'
          have hTail := ih rest'
            (fun x hMem y hMem' =>
              hEach x (by simp [hMem]) y (by simp [hMem']))
            hRest hRest'
          rw [Json.sameItems, equalAll, hHead, hTail]

theorem equalAll_self
    (values : List Value)
    (hEach : ∀ v ∈ values, v.equal v = true) :
    equalAll values values = true := by
  induction values with
  | nil => rfl
  | cons v rest ih =>
      rw [equalAll, hEach v (by simp),
        ih fun x hMem => hEach x (List.mem_cons_of_mem v hMem)]
      rfl

/-
  Documents of values whose numbers are all real are the same
  exactly if the values are equal. The induction is on one of
  the values; the other one is taken apart by its document.
-/
theorem same_toJson
    (hReal : v.IsReal)
    (hReal' : w.IsReal)
    (hWritten : v.toJson s = .ok j)
    (hWritten' : w.toJson s = .ok k) :
    j.same k = v.equal w := by
  induction v using Value.induction generalizing w j k with
  | array shape values ih =>
      rcases toJson_array_eq_ok_iff.mp hWritten with
        ⟨items, hAll, rfl⟩
      rcases written_cases hWritten' with
        ⟨b, rfl, rfl⟩ |
        ⟨shape', values', items', rfl, hAll', rfl⟩ |
        ⟨values', items', rfl, hAll', rfl⟩
      · exact (Scalar.same_parts_of_isReal (hReal' b (.self _))
          (.inr ⟨_, rfl⟩)).2
      · have hItems := sameItems_allToJson values values'
          (fun v hMem w hMem' j k hItem hItem' =>
            ih v hMem
              (hReal.of_within (.arrayItem hMem (.self v)))
              (hReal'.of_within (.arrayItem hMem' (.self w)))
              hItem hItem')
          hAll hAll'
        simp [shapedJson, Json.same, Json.sameMembers,
          Json.sameItems_sizes, hItems, equal]
      · rfl
  | list values ih =>
      rcases toJson_list_eq_ok_iff.mp hWritten with
        ⟨items, hAll, rfl⟩
      rcases written_cases hWritten' with
        ⟨b, rfl, rfl⟩ |
        ⟨shape', values', items', rfl, hAll', rfl⟩ |
        ⟨values', items', rfl, hAll', rfl⟩
      · exact (Scalar.same_parts_of_isReal (hReal' b (.self _))
          (.inl ⟨_, rfl⟩)).2
      · rfl
      · rw [Json.same, equal]
        exact sameItems_allToJson values values'
          (fun v hMem w hMem' j k hItem hItem' =>
            ih v hMem
              (hReal.of_within (.listItem hMem (.self v)))
              (hReal'.of_within (.listItem hMem' (.self w)))
              hItem hItem')
          hAll hAll'
  | flat v hNoArray hNoList =>
      rcases written_cases hWritten with
        ⟨a, rfl, rfl⟩ | ⟨shape, values, items, rfl, -⟩ |
        ⟨values, items, rfl, -⟩
      · have hScalar := hReal a (.self _)
        rcases written_cases hWritten' with
          ⟨b, rfl, rfl⟩ |
          ⟨shape', values', items', rfl, hAll', rfl⟩ |
          ⟨values', items', rfl, hAll', rfl⟩
        · exact Scalar.same_toJson hScalar (hReal' b (.self _))
        · exact (Scalar.same_parts_of_isReal hScalar
            (.inr ⟨_, rfl⟩)).1
        · exact (Scalar.same_parts_of_isReal hScalar
            (.inl ⟨_, rfl⟩)).1
      · exact absurd rfl (hNoArray shape values)
      · exact absurd rfl (hNoList values)

/- Values whose numbers are real are equal to themselves. -/
theorem equal_self
    (hReal : v.IsReal) :
    v.equal v = true := by
  induction v using Value.induction with
  | array shape values ih =>
      have hItems := equalAll_self values fun v hMem =>
        ih v hMem (hReal.of_within (.arrayItem hMem (.self v)))
      simp [equal, hItems]
  | list values ih =>
      rw [equal]
      exact equalAll_self values fun v hMem =>
        ih v hMem (hReal.of_within (.listItem hMem (.self v)))
  | flat v hNoArray hNoList =>
      cases v with
      | array shape values => exact absurd rfl (hNoArray _ _)
      | list values => exact absurd rfl (hNoList values)
      | scalar a => exact Scalar.equal_self (hReal a (.self _))
      | boxed b => simp [equal, Box.sameObject]
      | function id f => simp [equal]
      | any id e => simp [equal]

/-
  Documents keep all of a value or there is none. A value is
  written exactly if nothing opaque occurs in it, and fails
  with the first opaque value in it otherwise. Of values with
  real numbers, only equal ones have the same document.
-/
theorem toJson_is_faithful
    (s : Schema) :
    (∀ v : Value,
      ((∃ j, v.toJson s = .ok j) ↔
        ∀ u, Within u v → ¬ u.IsOpaque) ∧
      ∀ e, v.toJson s = .error e ↔
        ∃ before u after what,
          v.leaves = before ++ u :: after ∧
          (∀ x ∈ before, ¬ x.IsOpaque) ∧
          u.opaqueName? s = some what ∧
          e = .noJson what) ∧
    ∀ (v w : Value) (j k : Json),
      v.IsReal → w.IsReal →
      v.toJson s = .ok j → w.toJson s = .ok k →
      (j.same k = true ↔ v.equal w = true) ∧
        (j = k → v.equal w = true) := by
  refine ⟨fun v => ⟨isOk_toJson_iff, fun e =>
    toJson_eq_error_iff⟩, ?_⟩
  intro v w j k hReal hReal' hWritten hWritten'
  have hSame := same_toJson hReal hReal' hWritten hWritten'
  refine ⟨by rw [hSame], ?_⟩
  rintro rfl
  have hOwn := same_toJson hReal hReal hWritten hWritten
  rw [← hSame, hOwn, equal_self hReal]

/- An array without elements is real whatever its shape. -/
theorem isReal_array_nil
    (shape : List Nat) :
    (array shape []).IsReal := by
  intro a hWithin
  cases hWithin with
  | arrayItem hMem => cases hMem

/- Empty arrays of unlike shapes have unlike documents. -/
theorem toJson_is_faithful_empty_planes :
    (array [0, 2] []).toJson .empty =
      .ok (shapedJson [0, 2] []) ∧
    (array [2, 0] []).toJson .empty =
      .ok (shapedJson [2, 0] []) ∧
    ¬ (shapedJson [0, 2] []).same (shapedJson [2, 0] []) = true := by
  refine ⟨rfl, rfl, fun hSame => ?_⟩
  have hEqual : (array [0, 2] []).equal (array [2, 0] []) = true :=
    ((toJson_is_faithful .empty).2 _ _ _ _
      (isReal_array_nil [0, 2]) (isReal_array_nil [2, 0])
      rfl rfl).1.mp hSame
  exact absurd hEqual (by decide)

/- The parts of a complex number are a list like any other. -/
example :
    (complex .zero .zero).toJson .empty =
      (list [float .zero, float .zero]).toJson .empty := by
  rfl

end Value

end Interop
