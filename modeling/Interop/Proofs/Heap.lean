import Interop.Heap

/-
  Look-ups after a change of the heap: an object that is
  added changes no other object, and storing a content keeps
  every loan.

  Main declarations:
    * `Heap.IsIdle`
    * `Heap.cell_store_self`
    * `Heap.cell_store_of_ne`
    * `Heap.loan_store`
    * `Heap.loan_alloc`
    * `Heap.cell_of_isPrefix`
    * `Heap.prefix_of_cell_eq`
    * `Heap.alloc_store`
-/

namespace Interop

namespace Heap

variable {heap : Heap} {h k : Handle} {v : HostValue}

------------------------------------------------------------
-- Objects That Exist
------------------------------------------------------------

/- Nobody has any object. -/
def IsIdle (heap : Heap) : Prop :=
  ∀ h, heap.loan h = .readers 0

/- Only objects hold anything but nil. -/
theorem lt_size_of_content_ne
    (hContent : heap.content h ≠ .nil) :
    h.index < heap.size := by
  by_cases hIn : h.index < heap.size
  · exact hIn
  · have hNone : heap.cells[h.index]? = none :=
      List.getElem?_eq_none (Nat.le_of_not_lt hIn)
    simp [content, cell, hNone, Cell.free] at hContent

/- What holds a record is an object. -/
theorem lt_size_of_isRecordOf
    {id : RecordId}
    (hRecord : (heap.content h).isRecordOf id = true) :
    h.index < heap.size := by
  apply lt_size_of_content_ne
  intro hNil
  simp [hNil, HostValue.isRecordOf] at hRecord

/- An object that nobody has may be read. -/
theorem IsIdle.isReadable
    (hIdle : heap.IsIdle)
    (h : Handle) :
    heap.isReadable h = true := by
  simp [Heap.isReadable, hIdle h]

/- An object that nobody has may be written. -/
theorem IsIdle.isWritable
    (hIdle : heap.IsIdle)
    (h : Handle) :
    heap.isWritable h = true := by
  simp [Heap.isWritable, hIdle h]

/- What is read is the content. -/
theorem content_of_read?
    (hRead : heap.read? h = some v) :
    heap.content h = v := by
  unfold read? at hRead
  split at hRead
  · exact Option.some.inj hRead
  · cases hRead

/- A writable object is lent to nobody. -/
theorem loan_of_isWritable
    (hWritable : heap.isWritable h = true) :
    heap.loan h = .readers 0 := by
  simpa [isWritable] using hWritable

/- What may be written may be read. -/
theorem isReadable_of_isWritable
    (hWritable : heap.isWritable h = true) :
    heap.isReadable h = true := by
  simp [isReadable, loan_of_isWritable hWritable]

------------------------------------------------------------
-- Storing a Content
------------------------------------------------------------

/- The object that is stored to has the new content. -/
theorem cell_store_self
    (hIn : h.index < heap.size) :
    (heap.store h v).cell h = ⟨v, heap.loan h⟩ :=
  cell_setCell_self hIn

/- The other objects stay as they were. -/
theorem cell_store_of_ne
    (hNe : k ≠ h) :
    (heap.store h v).cell k = heap.cell k :=
  cell_setCell_of_ne (Ne.symm hNe)

theorem content_store_self
    (hIn : h.index < heap.size) :
    (heap.store h v).content h = v := by
  simp [content, cell_store_self hIn]

theorem content_store_of_ne
    (hNe : k ≠ h) :
    (heap.store h v).content k = heap.content k := by
  simp [content, cell_store_of_ne hNe]

/- Storing keeps the count of objects. -/
@[simp] theorem size_store
    (heap : Heap)
    (h : Handle)
    (v : HostValue) :
    (heap.store h v).size = heap.size :=
  size_setCell heap h _

/- Storing keeps all loans. -/
@[simp] theorem loan_store
    (heap : Heap)
    (h k : Handle)
    (v : HostValue) :
    (heap.store h v).loan k = heap.loan k := by
  by_cases hEq : k = h
  · subst hEq
    by_cases hIn : k.index < heap.size
    · simp [loan, cell_store_self hIn]
    · have hLe : heap.cells.length ≤ k.index :=
        Nat.le_of_not_lt hIn
      simp [store, setCell, loan, cell,
        List.set_eq_of_length_le hLe]
  · simp [loan, cell_store_of_ne hEq]

@[simp] theorem isReadable_store
    (heap : Heap)
    (h k : Handle)
    (v : HostValue) :
    (heap.store h v).isReadable k = heap.isReadable k := by
  simp [isReadable]

/- Of two contents stored to an object the second stays. -/
theorem store_store
    (heap : Heap)
    (h : Handle)
    (v new : HostValue) :
    (heap.store h v).store h new = heap.store h new := by
  have hLoan := loan_store heap h h v
  simp only [store, setCell] at hLoan ⊢
  rw [hLoan, List.set_set]

/- Storing the content of an object changes nothing. -/
theorem store_content
    (heap : Heap)
    (h : Handle) :
    heap.store h (heap.content h) = heap := by
  by_cases hIn : h.index < heap.cells.length
  · have hCell : heap.cell h = heap.cells[h.index] := by
      simp [cell, hIn]
    change Heap.mk (heap.cells.set h.index (heap.cell h)) = heap
    rw [hCell, List.set_getElem_self]
  · simp only [store, setCell,
      List.set_eq_of_length_le (Nat.le_of_not_lt hIn)]

/- Storing lends nothing. -/
theorem IsIdle.store
    (hIdle : heap.IsIdle)
    (h : Handle)
    (v : HostValue) :
    (heap.store h v).IsIdle := by
  intro k
  rw [loan_store]
  exact hIdle k

------------------------------------------------------------
-- Adding an Object
------------------------------------------------------------

/- A handle that was not given out is lent to nobody. -/
theorem cell_of_size_le
    (hOut : heap.size ≤ h.index) :
    heap.cell h = .free .nil := by
  have hNone : heap.cells[h.index]? = none :=
    List.getElem?_eq_none hOut
  simp [cell, hNone]

/- Handles that come after the next one are not given out. -/
theorem cell_alloc_of_gt
    (hGt : heap.size < h.index) :
    (heap.alloc v).2.cell h = .free .nil := by
  apply cell_of_size_le
  rw [size_alloc]
  exact hGt

theorem content_alloc_of_lt
    (hOld : h.index < heap.size) :
    (heap.alloc v).2.content h = heap.content h := by
  simp [content, cell_alloc_of_lt hOld]

theorem content_alloc_next
    (heap : Heap)
    (v : HostValue) :
    (heap.alloc v).2.content heap.next = v := by
  simp [content, cell_alloc_next, Cell.free]

/- Only the next handle names the object that is added. -/
theorem eq_next_of_index_eq
    (hEq : h.index = heap.size) :
    h = heap.next := by
  cases h
  simp only [next, Handle.mk.injEq]
  exact hEq

/- Adding an object lends nothing. -/
@[simp] theorem loan_alloc
    (heap : Heap)
    (v : HostValue)
    (h : Handle) :
    (heap.alloc v).2.loan h = heap.loan h := by
  rcases Nat.lt_trichotomy h.index heap.size with
    hLt | hEq | hGt
  · simp [loan, cell_alloc_of_lt hLt]
  · have hOut : heap.cell heap.next = .free .nil :=
      cell_of_size_le (Nat.le_refl heap.size)
    rw [eq_next_of_index_eq hEq]
    simp [loan, cell_alloc_next, hOut, Cell.free]
  · simp [loan, cell_alloc_of_gt hGt,
      cell_of_size_le (Nat.le_of_lt hGt)]

theorem IsIdle.alloc
    (hIdle : heap.IsIdle)
    (v : HostValue) :
    (heap.alloc v).2.IsIdle := by
  intro h
  rw [loan_alloc]
  exact hIdle h

/- Objects keep their places when others are added. -/
theorem cells_prefix_alloc
    (heap : Heap)
    (v : HostValue) :
    heap.cells <+: (heap.alloc v).2.cells :=
  List.prefix_append heap.cells _

/- The objects of a heap are found in each extension. -/
theorem cell_of_isPrefix
    {later : Heap}
    (hPrefix : heap.cells <+: later.cells)
    (hOld : h.index < heap.size) :
    later.cell h = heap.cell h := by
  rcases hPrefix with ⟨more, hCells⟩
  have hLen : h.index < heap.cells.length := hOld
  simp [cell, ← hCells, List.getElem?_append_left hLen]

theorem content_of_isPrefix
    {later : Heap}
    (hPrefix : heap.cells <+: later.cells)
    (hOld : h.index < heap.size) :
    later.content h = heap.content h := by
  rw [content, cell_of_isPrefix hPrefix hOld, content]

theorem loan_of_isPrefix
    {later : Heap}
    (hPrefix : heap.cells <+: later.cells)
    (hOld : h.index < heap.size) :
    later.loan h = heap.loan h := by
  rw [loan, cell_of_isPrefix hPrefix hOld, loan]

/- A heap with all objects of another one extends it. -/
theorem prefix_of_cell_eq
    {later : Heap}
    (hSize : heap.size ≤ later.size)
    (hSame : ∀ h : Handle, h.index < heap.size →
      later.cell h = heap.cell h) :
    heap.cells <+: later.cells := by
  rw [List.prefix_iff_getElem?]
  intro i hIn
  have hLater : i < later.cells.length :=
    Nat.lt_of_lt_of_le hIn hSize
  have hCell := hSame ⟨i⟩ hIn
  simp only [cell, List.getElem?_eq_getElem hIn,
    List.getElem?_eq_getElem hLater, Option.getD_some] at hCell
  rw [List.getElem?_eq_getElem hLater, hCell]

/- Storing to an object and adding another one commute. -/
theorem alloc_store
    {new : HostValue}
    (hIn : h.index < heap.size) :
    ((heap.store h new).alloc v).2 =
      (heap.alloc v).2.store h new := by
  have hLen : h.index < heap.cells.length := hIn
  have hLoan := loan_alloc heap v h
  simp only [store, setCell, alloc, loan] at hLoan ⊢
  rw [hLoan]
  simp [hLen]

/- The next handle does not depend on contents. -/
@[simp] theorem next_store
    (heap : Heap)
    (h : Handle)
    (new : HostValue) :
    (heap.store h new).next = heap.next := by
  simp [next]

end Heap

end Interop
