import Interop.Host.Value

/-
  This file defines the heap of host objects: each handle
  has a content and a loan. An object is lent to any number
  of readers or to one writer. Contents may be read unless a
  writer has the object, and written when nobody has it.

  A handle that was never given out reads as a free object
  that holds nil, so every look-up has an answer.

  Key definitions include:
    * `Loan`
    * `Heap`
    * `Heap.content`
    * `Heap.isReadable`
    * `Heap.isWritable`
    * `Heap.alloc`
    * `Heap.store`
-/

namespace Interop

/- To whom an object is lent: readers, or one writer. -/
inductive Loan where
| readers (count : Nat) : Loan
| writer : Loan
deriving DecidableEq, Repr

/- The content of an object, and to whom it is lent. -/
structure Cell where
  content : HostValue
  loan : Loan

namespace Cell

/- An object that nobody has. -/
def free (v : HostValue) : Cell :=
  ⟨v, .readers 0⟩

end Cell

/- The objects of the host, by handle. -/
structure Heap where
  cells : List Cell

namespace Heap

/- No objects. -/
def empty : Heap :=
  ⟨[]⟩

/- The count of objects. -/
def size (heap : Heap) : Nat :=
  heap.cells.length

/- The object behind a handle. -/
def cell
    (heap : Heap)
    (h : Handle) : Cell :=
  heap.cells[h.index]?.getD (.free .nil)

/- The content of an object. -/
def content
    (heap : Heap)
    (h : Handle) : HostValue :=
  (heap.cell h).content

/- To whom an object is lent. -/
def loan
    (heap : Heap)
    (h : Handle) : Loan :=
  (heap.cell h).loan

/- No writer has the object. -/
def isReadable
    (heap : Heap)
    (h : Handle) : Bool :=
  heap.loan h != .writer

/- Nobody has the object. -/
def isWritable
    (heap : Heap)
    (h : Handle) : Bool :=
  heap.loan h == .readers 0

/- The content of an object that may be read. -/
def read?
    (heap : Heap)
    (h : Handle) : Option HostValue :=
  if heap.isReadable h then some (heap.content h) else none

/- The handle that the next object gets. -/
def next (heap : Heap) : Handle :=
  ⟨heap.size⟩

/- Add an object that nobody has. -/
def alloc
    (heap : Heap)
    (v : HostValue) : Handle × Heap :=
  (heap.next, ⟨heap.cells ++ [.free v]⟩)

/- Replace the object behind a handle. -/
def setCell
    (heap : Heap)
    (h : Handle)
    (c : Cell) : Heap :=
  ⟨heap.cells.set h.index c⟩

/- Replace the content of an object. -/
def store
    (heap : Heap)
    (h : Handle)
    (v : HostValue) : Heap :=
  heap.setCell h ⟨v, heap.loan h⟩

/- Replace the loan of an object. -/
def setLoan
    (heap : Heap)
    (h : Handle)
    (l : Loan) : Heap :=
  heap.setCell h ⟨heap.content h, l⟩

/- Lend an object to one more reader. -/
def lendToReader
    (heap : Heap)
    (h : Handle) : Heap :=
  match heap.loan h with
  | .readers n => heap.setLoan h (.readers (n + 1))
  | .writer => heap

/- Lend an object to a writer. -/
def lendToWriter
    (heap : Heap)
    (h : Handle) : Heap :=
  heap.setLoan h .writer

/- A reader gives an object back. -/
def returnFromReader
    (heap : Heap)
    (h : Handle) : Heap :=
  match heap.loan h with
  | .readers n => heap.setLoan h (.readers (n - 1))
  | .writer => heap

/- The writer gives an object back. -/
def returnFromWriter
    (heap : Heap)
    (h : Handle) : Heap :=
  heap.setLoan h (.readers 0)

------------------------------------------------------------
-- Looking Up After a Change
------------------------------------------------------------

/- Allocation leaves the objects before it alone. -/
theorem cell_alloc_of_lt
    {heap : Heap}
    {v : HostValue}
    {h : Handle}
    (hOld : h.index < heap.size) :
    (heap.alloc v).2.cell h = heap.cell h := by
  simp [cell, alloc, List.getElem?_append_left hOld]

/- A new object holds the value it was given. -/
theorem cell_alloc_next
    (heap : Heap)
    (v : HostValue) :
    (heap.alloc v).2.cell heap.next = .free v := by
  simp [cell, alloc, next, size]

/- Allocation adds one object. -/
theorem size_alloc
    (heap : Heap)
    (v : HostValue) :
    (heap.alloc v).2.size = heap.size + 1 := by
  simp [alloc, size]

/- A replaced object is found behind its handle. -/
theorem cell_setCell_self
    {heap : Heap}
    {h : Handle}
    {c : Cell}
    (hIn : h.index < heap.size) :
    (heap.setCell h c).cell h = c := by
  have hLen : h.index < heap.cells.length := hIn
  simp [cell, setCell, hLen]

/- Replacing an object leaves the others alone. -/
theorem cell_setCell_of_ne
    {heap : Heap}
    {h k : Handle}
    {c : Cell}
    (hNe : h ≠ k) :
    (heap.setCell h c).cell k = heap.cell k := by
  have hIndex : h.index ≠ k.index := by
    intro hEq
    apply hNe
    cases h
    cases k
    simpa using hEq
  simp [cell, setCell, List.getElem?_set_ne hIndex]

/- Replacing an object keeps the count of objects. -/
theorem size_setCell
    (heap : Heap)
    (h : Handle)
    (c : Cell) :
    (heap.setCell h c).size = heap.size := by
  simp [setCell, size]

end Heap

end Interop
