import StackComputer.Word

/-!
Rectangles of screen positions, with exclusive ends.

Positions are shorts and wrap around.  A region that begins left of the screen
therefore has an end below its start, and clipping takes such a start for 0.
-/

namespace StackComputer

/-- Positions on one axis, from `lo` up to but without `hi`. -/
structure Span where
  lo : Short
  hi : Short
  deriving DecidableEq, Repr

namespace Span

def isEmpty (s : Span) : Bool :=
  s.hi ≤ s.lo

def clip (s : Span) (size : Short) : Option Span :=
  let lo := if s.hi < s.lo then 0 else s.lo
  let hi := min s.hi size
  if lo < hi then some ⟨lo, hi⟩ else none

def hull (s t : Span) : Span :=
  ⟨min s.lo t.lo, max s.hi t.hi⟩

end Span

structure Rect where
  x : Span
  y : Span
  deriving DecidableEq, Repr

namespace Rect

def isEmpty (r : Rect) : Bool :=
  r.x.isEmpty || r.y.isEmpty

def clip (r : Rect) (width height : Short) : Option Rect :=
  match r.x.clip width, r.y.clip height with
  | some x, some y => some ⟨x, y⟩
  | _, _ => none

def hull (r s : Rect) : Rect :=
  ⟨r.x.hull s.x, r.y.hull s.y⟩

/-- Adds a rectangle to a region kept as the least rectangle around what was added so far. -/
def addTo (r : Rect) : Option Rect → Rect
  | none => r
  | some pending => pending.hull r

end Rect

end StackComputer
