import Interop.Action
import Interop.Proofs.Heap

/-
  A small schema on which laws are illustrated: points, and
  segments that hold two points by value.

  Key definitions include:
    * `Schema.plane`
    * `World.withSegment`
    * `HostMethod.transpose`
    * `HostMethod.itself`
-/

namespace Interop

/- Points, and segments between two points. -/
def Schema.plane : Schema :=
  (Schema.empty.declare
    ⟨"Point", [⟨"X", .int .i64⟩, ⟨"Y", .int .i64⟩]⟩
    (by decide)).declare
    ⟨"Segment", [⟨"Start", .record ⟨0⟩⟩, ⟨"Finish", .record ⟨0⟩⟩]⟩
    (by decide)

/- A point as a host value. -/
def HostValue.point (x y : Int64) : HostValue :=
  .record ⟨0⟩ [.int x, .int y]

/-
  Exchange the coordinates of a point. The result is what
  the second coordinate has become.
-/
def HostMethod.transpose : HostMethod :=
  fun h _ host =>
    match host.heap.content h with
    | .record ⟨0⟩ [x, y] =>
        ([x],
          { host with
            heap := host.heap.store h (.record ⟨0⟩ [y, x]) })
    | _ => ([], host)

/- Return the receiver. -/
def HostMethod.itself : HostMethod :=
  fun h _ host => ([.ref h], host)

/- A world with one object, a segment from 1, 2 to 3, 4. -/
def World.withSegment : World :=
  World.initial.withHeap
    ⟨[.free (.record ⟨1⟩ [.point 1 2, .point 3 4])]⟩

/- Nobody has the segment. -/
theorem World.isIdle_withSegment :
    World.withSegment.heap.IsIdle := by
  rintro ⟨index⟩
  cases index <;> rfl

/- The segment, as a whole. -/
def Box.segment : Box :=
  .whole ⟨0⟩ (.record ⟨1⟩)

/- The start of the segment, in place. -/
def Box.start : Box :=
  Box.segment.project 0 (.record ⟨0⟩)

/- The finish of the segment, in place. -/
def Box.finish : Box :=
  Box.segment.project 1 (.record ⟨0⟩)

end Interop
