import Interop.Options.Environment
import Interop.Proofs.Display

/-
  Lists that are cut. A sequence or an array is displayed as
  a list of items between separators: as many as the limit
  allows, and one item for the rest if there is any. But when
  nothing at all may be shown, the item for the rest still
  has a separator in front.

  To say this for all levels at once, the text of a value is
  taken apart: its parts form a tree, which does not depend
  on the limit. Under a limit other than zero, the text is
  that of the tree after each of its lists was cut.

  Main declarations:
    * `Render.shown`
    * `Render.elided_eq_iff`
    * `Render.Parts`
    * `Render.Parts.cut`
    * `HostValue.parts`
    * `Value.parts`
    * `Value.text_eq_writeCut`
    * `Render.texts_of_lists`
-/

namespace Interop

namespace Render

------------------------------------------------------------
-- Items Shown
------------------------------------------------------------

/- The first items, and one more for the rest, if any. -/
def shown
    {α : Type}
    (limit : Nat)
    (rest : α)
    (items : List α) : List α :=
  items.take limit ++ (if limit < items.length then [rest] else [])

theorem map_shown
    {α β : Type}
    (f : α → β)
    (limit : Nat)
    (rest : α)
    (items : List α) :
    (shown limit rest items).map f =
      shown limit (f rest) (items.map f) := by
  simp only [shown, List.map_append, List.map_take,
    List.length_map]
  split <;> rfl

/-
  The elements shown of a sequence are the items shown with
  separators in between, unless there are elements and none
  may be shown.
-/
theorem elided_eq_iff
    (limit : Nat)
    {separator : String}
    (hSeparator : separator ≠ "")
    (items : List String) :
    elided limit separator (items.take limit) items.length =
        separator.intercalate (shown limit "…" items) ↔
      limit ≠ 0 ∨ items = [] := by
  unfold elided shown
  by_cases hMore : limit < items.length
  · rw [if_pos hMore, if_pos hMore]
    cases limit with
    | zero =>
        have hSome : items ≠ [] := List.ne_nil_of_length_pos hMore
        simp [hSome, hSeparator]
    | succ n =>
        have hShown : items.take (n + 1) ≠ [] := by
          simpa using List.ne_nil_of_length_pos (by omega)
        rw [String.intercalate_append_of_ne_nil hShown (by simp)]
        simp [String.append_assoc]
  · rw [if_neg hMore, if_neg hMore]
    simp only [String.append_empty, List.append_nil, true_iff]
    by_cases hZero : limit = 0
    · right
      apply List.eq_nil_of_length_eq_zero
      omega
    · exact .inl hZero

------------------------------------------------------------
-- Trees of Parts
------------------------------------------------------------

/-
  What a text consists of: words, parts after a label, and
  lists of parts between separators. Some lists are limited.
-/
inductive Parts where
| word (text : String) : Parts
| labelled (label : String) (part : Parts) : Parts
| list
    (limited : Bool)
    (opening separator closing : String)
    (parts : List Parts) : Parts

namespace Parts

mutual

/- Cut each list that is limited, at every level. -/
def cut (limit : Nat) : Parts → Parts
| .word text => .word text
| .labelled label part => .labelled label (part.cut limit)
| .list limited opening separator closing parts =>
    .list limited opening separator closing
      (if limited then
        shown limit (.word "…") (cutAll limit parts)
      else
        cutAll limit parts)

/- Cut the lists in all parts. -/
def cutAll (limit : Nat) : List Parts → List Parts
| [] => []
| part :: rest => part.cut limit :: cutAll limit rest

end

mutual

/- The text that consists of the parts. -/
def write : Parts → String
| .word text => text
| .labelled label part => label ++ part.write
| .list _ opening separator closing parts =>
    opening ++ separator.intercalate (writeAll parts) ++ closing

/- The texts of all parts. -/
def writeAll : List Parts → List String
| [] => []
| part :: rest => part.write :: writeAll rest

end

theorem cutAll_eq
    (limit : Nat)
    (parts : List Parts) :
    cutAll limit parts = parts.map (·.cut limit) := by
  induction parts with
  | nil => rfl
  | cons part rest ih => simp [cutAll, ih]

theorem writeAll_eq
    (parts : List Parts) :
    writeAll parts = parts.map write := by
  induction parts with
  | nil => rfl
  | cons part rest ih => simp [writeAll, ih]

/- What is left of a list when it is cut. -/
abbrev writeCut
    (limit : Nat)
    (part : Parts) : String :=
  (part.cut limit).write

/- A list that is not limited keeps all its parts. -/
theorem writeCut_list
    (limit : Nat)
    (opening separator closing : String)
    (parts : List Parts) :
    (Parts.list false opening separator closing parts).writeCut
        limit =
      opening ++
        separator.intercalate (parts.map (·.writeCut limit)) ++
        closing := by
  simp [writeCut, cut, write, cutAll_eq, writeAll_eq,
    Function.comp_def]

/-
  A limited list is written as the bridge writes its lists,
  unless nothing may be shown.
-/
theorem writeCut_limited
    {limit : Nat}
    {opening separator closing : String}
    (hLimit : limit ≠ 0)
    (hSeparator : separator ≠ "")
    (parts : List Parts) :
    (Parts.list true opening separator closing parts).writeCut
        limit =
      opening ++
        elided limit separator
          ((parts.take limit).map (·.writeCut limit))
          parts.length ++
        closing := by
  have hElided := (elided_eq_iff limit hSeparator
    (parts.map (·.writeCut limit))).mpr (.inl hLimit)
  rw [List.length_map, ← List.map_take] at hElided
  rw [hElided]
  simp only [writeCut, cut, if_true, write, cutAll_eq,
    writeAll_eq, map_shown, List.map_map, Function.comp_def]

end Parts

end Render

------------------------------------------------------------
-- Parts of Host Values
------------------------------------------------------------

namespace HostValue

open Render

mutual

/-
  The parts of a host value, given those of references. No
  limit matters to the text of a value without elements.
-/
def parts
    (s : Schema)
    (refParts : Handle → Parts) : HostValue → Parts
| .seq items => .list true "[" ", " "]" (partsAll s refParts items)
| .record id values =>
    .list false "\x7b" ", " "\x7d"
      (fieldParts s refParts (s.fields id) values)
| .ref h => refParts h
| v => .word (v.textWith s 0 fun _ => "")

/- The parts of elements. -/
def partsAll
    (s : Schema)
    (refParts : Handle → Parts) : List HostValue → List Parts
| [] => []
| v :: rest => v.parts s refParts :: partsAll s refParts rest

/- The parts of fields, each labelled with its name. -/
def fieldParts
    (s : Schema)
    (refParts : Handle → Parts) :
    List Field → List HostValue → List Parts
| f :: fields, v :: values =>
    .labelled (f.name ++ ": ") (v.parts s refParts) ::
      fieldParts s refParts fields values
| _, _ => []

end

variable {s : Schema} {limit : Nat} {refParts : Handle → Parts}

theorem partsAll_eq
    (items : List HostValue) :
    partsAll s refParts items = items.map (·.parts s refParts) := by
  induction items with
  | nil => rfl
  | cons v rest ih => simp [partsAll, ih]

theorem fieldParts_eq
    (fields : List Field)
    (values : List HostValue) :
    fieldParts s refParts fields values =
      (fields.zip values).map fun p =>
        .labelled (p.1.name ++ ": ") (p.2.parts s refParts) := by
  induction fields generalizing values with
  | nil => simp [fieldParts]
  | cons f rest ih => cases values <;> simp [fieldParts, ih]

/-
  The text of a host value is that of its parts after they
  were cut. The induction is on the value, so that the limit
  counts anew at each level.
-/
theorem textWith_eq_writeCut
    (hLimit : limit ≠ 0)
    (v : HostValue) :
    v.textWith s limit (fun h => (refParts h).writeCut limit) =
      (v.parts s refParts).writeCut limit := by
  induction v using HostValue.induction with
  | seq items ih =>
      rw [textWith, parts, Parts.writeCut_limited hLimit (by simp),
        itemTexts_eq, partsAll_eq, List.length_map, ← List.map_take,
        List.map_map]
      congr 3
      apply List.map_congr_left
      intro v hMem
      exact ih v (List.mem_of_mem_take hMem)
  | record id values ih =>
      rw [textWith, parts, Parts.writeCut_list, fieldTexts_eq,
        fieldParts_eq, List.map_map]
      congr 3
      apply List.map_congr_left
      rintro ⟨f, v⟩ hMem
      simp only
      rw [ih v (List.of_mem_zip hMem).2]
      rfl
  | flat v hNoSeq hNoRecord =>
      cases v with
      | seq items => exact absurd rfl (hNoSeq items)
      | record id values => exact absurd rfl (hNoRecord id values)
      | error fault => cases fault <;> rfl
      | _ => rfl

end HostValue

namespace Heap

open Render

/-
  The parts of a reference when references are followed at
  most `depth` times.
-/
def refParts
    (s : Schema)
    (heap : Heap) : Nat → Handle → Parts
| 0, _ => .word "&…"
| depth + 1, h =>
    match heap.read? h with
    | some v => .labelled "&" (v.parts s (heap.refParts s depth))
    | none => .word "&<borrowed>"

/- A reference is cut as what it leads to. -/
theorem refText_eq_writeCut
    {s : Schema}
    {limit : Nat}
    (hLimit : limit ≠ 0)
    (heap : Heap)
    (depth : Nat) :
    heap.refText s limit depth =
      fun h => (heap.refParts s depth h).writeCut limit := by
  induction depth with
  | zero => rfl
  | succ depth ih =>
      funext h
      unfold refText refParts
      cases heap.read? h with
      | none => rfl
      | some v =>
          simp only
          rw [ih, HostValue.textWith_eq_writeCut hLimit]
          rfl

end Heap

/- The parts of a host value, references included. -/
def HostValue.displayParts
    (s : Schema)
    (heap : Heap)
    (v : HostValue) : Render.Parts :=
  v.parts s (heap.refParts s (heap.size + 1))

theorem HostValue.text_eq_writeCut
    {s : Schema}
    {limit : Nat}
    (hLimit : limit ≠ 0)
    (heap : Heap)
    (v : HostValue) :
    v.text s limit heap = (v.displayParts s heap).writeCut limit := by
  rw [text, Heap.refText_eq_writeCut hLimit,
    textWith_eq_writeCut hLimit]
  rfl

------------------------------------------------------------
-- Parts of Values
------------------------------------------------------------

/- The parts of a box: its type, and what it stands for. -/
def Box.parts
    (s : Schema)
    (heap : Heap)
    (b : Box) : Render.Parts :=
  .labelled (b.type.text s ++ " ")
    (match b.read s heap with
    | .ok v => v.displayParts s heap
    | .error _ => .word "<borrowed>")

theorem Box.text_eq_writeCut
    {s : Schema}
    {limit : Nat}
    (hLimit : limit ≠ 0)
    (heap : Heap)
    (b : Box) :
    b.text s limit heap = (b.parts s heap).writeCut limit := by
  unfold Box.text Box.parts
  cases b.read s heap with
  | error e => rfl
  | ok v =>
      simp only
      rw [HostValue.text_eq_writeCut hLimit]
      rfl

namespace Value

open Render

mutual

/- The parts of a value. -/
def parts
    (s : Schema)
    (heap : Heap) : Value → Parts
| .array shape values =>
    if values.isEmpty then
      .word "⍬"
    else
      .list true (shapePrefix shape) " " ""
        (partsAll s heap values)
| .list values => .list false "(" "; " ")" (partsAll s heap values)
| .boxed b => b.parts s heap
| v => .word (v.text s 0 heap)

/- The parts of the elements of a value. -/
def partsAll
    (s : Schema)
    (heap : Heap) : List Value → List Parts
| [] => []
| v :: rest => v.parts s heap :: partsAll s heap rest

end

variable {s : Schema} {limit : Nat} {heap : Heap}

theorem partsAll_eq
    (values : List Value) :
    partsAll s heap values = values.map (·.parts s heap) := by
  induction values with
  | nil => rfl
  | cons v rest ih => simp [partsAll, ih]

/-
  The text of a value is that of its parts after they were
  cut, boxed objects included.
-/
theorem text_eq_writeCut
    (hLimit : limit ≠ 0)
    (v : Value) :
    v.text s limit heap = (v.parts s heap).writeCut limit := by
  induction v using Value.induction with
  | array shape values ih =>
      rw [text, parts]
      split
      · rfl
      · rw [Parts.writeCut_limited hLimit (by simp), firstTexts_eq,
          partsAll_eq, List.length_map, ← List.map_take,
          List.map_map, String.append_empty]
        congr 2
        apply List.map_congr_left
        intro v hMem
        exact ih v (List.mem_of_mem_take hMem)
  | list values ih =>
      rw [text, parts, Parts.writeCut_list, firstTexts_eq,
        List.take_length, partsAll_eq, List.map_map]
      congr 3
      apply List.map_congr_left
      intro v hMem
      exact ih v hMem
  | flat v hNoArray hNoList =>
      cases v with
      | array shape values => exact absurd rfl (hNoArray _ _)
      | list values => exact absurd rfl (hNoList values)
      | boxed b =>
          rw [text, parts]
          exact b.text_eq_writeCut hLimit heap
      | _ => rfl

/- Exactly vectors have nothing in front of their values. -/
theorem shapePrefix_eq_empty_iff
    (shape : List Nat) :
    shapePrefix shape = "" ↔ shape.length = 1 := by
  unfold shapePrefix
  split
  · rename_i hVector
    simp [hVector]
  · rename_i hOther
    simp [hOther]

end Value

namespace Render

/-
  Displayed sequences and arrays are lists of the items that
  are shown, in brackets or after the shape, exactly if the
  limit is not zero or there is nothing to show. Each item is
  displayed in the same way: unless the limit is zero, a
  whole text is that of the tree of its parts, which knows no
  limit, after each limited list in it was cut.
-/
theorem texts_of_lists
    (s : Schema)
    (limit : Nat)
    (heap : Heap) :
    (∀ refText items,
      (HostValue.seq items).textWith s limit refText =
          "[" ++
            ", ".intercalate
              (shown limit "…"
                (items.map (·.textWith s limit refText))) ++
            "]" ↔
        limit ≠ 0 ∨ items = []) ∧
    (∀ shape values, values ≠ [] →
      ((Value.array shape values).text s limit heap =
          Value.shapePrefix shape ++
            " ".intercalate
              (shown limit "…" (values.map (·.text s limit heap))) ↔
        limit ≠ 0)) ∧
    (∀ shape, Value.shapePrefix shape = "" ↔ shape.length = 1) ∧
    (limit ≠ 0 →
      (∀ v : HostValue,
        v.text s limit heap =
          (v.displayParts s heap).writeCut limit) ∧
      ∀ v : Value,
        v.text s limit heap = (v.parts s heap).writeCut limit) := by
  refine ⟨?_, ?_, Value.shapePrefix_eq_empty_iff, ?_⟩
  · intro refText items
    rw [HostValue.textWith, HostValue.itemTexts_eq,
      String.append_left_inj, String.append_right_inj]
    have hElided := elided_eq_iff limit (by simp : ", " ≠ "")
      (items.map (·.textWith s limit refText))
    rwa [← List.map_take, List.length_map, List.map_eq_nil_iff]
      at hElided
  · intro shape values hSome
    rw [Value.text, if_neg (by simpa using hSome),
      Value.firstTexts_eq, String.append_right_inj]
    have hElided := elided_eq_iff limit (by simp : " " ≠ "")
      (values.map (·.text s limit heap))
    rw [← List.map_take, List.length_map, List.map_eq_nil_iff]
      at hElided
    rw [hElided]
    simp [hSome]
  · intro hLimit
    exact ⟨HostValue.text_eq_writeCut hLimit heap,
      Value.text_eq_writeCut hLimit⟩

/- Rows are cut one by one, and so is the sequence of rows. -/
theorem texts_of_lists_rows :
    let rows : HostValue :=
      .seq [.seq [.int 1, .int 2], .seq [.int 3], .seq []]
    (2 : Nat) ≠ 0 ∧ (1 : Nat) ≠ 0 ∧
    rows.text .empty 2 .empty = "[[1, 2], [3], …]" ∧
    rows.text .empty 1 .empty = "[[1, …], …]" := by
  refine ⟨by decide, by decide, ?_, ?_⟩
  · rw [(texts_of_lists .empty 2 .empty).2.2.2 (by decide) |>.1]
    rfl
  · rw [(texts_of_lists .empty 1 .empty).2.2.2 (by decide) |>.1]
    rfl

/-
  The environment may set the limit to zero. Then a separator
  stands in front of the only item of a sequence, and in
  front of that of an array.
-/
theorem texts_of_limit_zero :
    let env : Environment := fun name =>
      if name = Environment.displayLimitName then
        some "0"
      else
        none
    let items : List HostValue := [.int 1, .int 2]
    let values : List Value := [.int 1, .int 2]
    Options.ofEnvironment env = .ok ⟨false, 0⟩ ∧
    (HostValue.seq items).text .empty 0 .empty = "[, …]" ∧
    "[" ++
        ", ".intercalate
          (shown 0 "…" (items.map (·.text .empty 0 .empty))) ++
        "]" = "[…]" ∧
    (Value.array [1, 2] values).text .empty 0 .empty =
      "1 2⍴ …" ∧
    Value.shapePrefix [1, 2] ++
        " ".intercalate
          (shown 0 "…" (values.map (·.text .empty 0 .empty))) =
      "1 2⍴…" := by
  exact ⟨rfl, rfl, rfl, rfl, rfl⟩

end Render

end Interop
