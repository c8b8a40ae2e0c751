import StackComputer.Screen.Color
import StackComputer.Screen.Grid
import StackComputer.Screen.Region

/-!
The screen: two layers of inks, and the frame of colors made from them.

Drawing sets inks; what lies off the screen is not drawn.  The frame is only
brought up to date by rendering, so the screen remembers the rectangle in which
it may be out of date.
-/

namespace StackComputer

/-- The foreground is drawn over the background where its ink is not 0. -/
inductive Layer where
  | foreground
  | background
  deriving DecidableEq, Repr

/--
`pending` is the part of the frame to be rendered anew.  `resized` is set by
every change of size, until it is asked for.
-/
structure Screen where
  width : Short
  height : Short
  bg : Array Ink
  fg : Array Ink
  frame : Array Color
  palette : Palette
  pending : Option Rect
  resized : Bool
  deriving DecidableEq, Repr

namespace Screen

def blank : Screen := ⟨0, 0, #[], #[], #[], .black, none, false⟩

instance : Inhabited Screen := ⟨blank⟩

def layer (s : Screen) : Layer → Array Ink
  | .foreground => s.fg
  | .background => s.bg

def ink? (s : Screen) (l : Layer) (x y : Short) : Option Ink :=
  if x < s.width ∧ y < s.height then
    (s.layer l)[Grid.index s.width.toNat x.toNat y.toNat]?
  else none

@[inline] def mapLayer (s : Screen) (l : Layer) (f : Array Ink → Array Ink) : Screen :=
  match s, l with
  | ⟨width, height, bg, fg, frame, palette, pending, resized⟩, .foreground =>
      ⟨width, height, bg, f fg, frame, palette, pending, resized⟩
  | ⟨width, height, bg, fg, frame, palette, pending, resized⟩, .background =>
      ⟨width, height, f bg, fg, frame, palette, pending, resized⟩

@[simp] theorem layer_mapLayer_self (s : Screen) (l : Layer) (f : Array Ink → Array Ink) :
    (s.mapLayer l f).layer l = f (s.layer l) := by
  cases l <;> rfl

theorem layer_mapLayer_ne (s : Screen) {l k : Layer} (h : l ≠ k) (f : Array Ink → Array Ink) :
    (s.mapLayer l f).layer k = s.layer k := by
  cases l <;> cases k
  · exact absurd rfl h
  · rfl
  · rfl
  · exact absurd rfl h

def mark (s : Screen) (r : Rect) : Screen :=
  match r.clip s.width s.height with
  | none => s
  | some r => { s with pending := some (r.addTo s.pending) }

def markAll (s : Screen) : Screen :=
  s.mark ⟨⟨0, s.width⟩, ⟨0, s.height⟩⟩

def isPending (s : Screen) : Bool :=
  s.pending.isSome

def pendingRect (s : Screen) : Rect :=
  s.pending.getD ⟨⟨0, 0⟩, ⟨0, 0⟩⟩

theorem mark_eq (s : Screen) (r : Rect) : s.mark r = { s with pending := (s.mark r).pending } := by
  unfold mark
  split <;> rfl

@[simp] theorem layer_mark (s : Screen) (r : Rect) (l : Layer) :
    (s.mark r).layer l = s.layer l := by
  rw [mark_eq]
  cases l <;> rfl

def takeResized (s : Screen) : Bool × Screen :=
  (s.resized, { s with resized := false })

/-! ## Size -/

def minSize : Short := 8

def maxSize : Short := 1023

def isValidSize (n : Short) : Bool :=
  minSize ≤ n && n ≤ maxSize

inductive Resize where
  | rejected
  | unchanged
  | changed
  deriving DecidableEq, Repr

def resizeResult (s : Screen) (width height : Short) : Resize :=
  if !(isValidSize width && isValidSize height) then .rejected
  else if width = s.width ∧ height = s.height then .unchanged
  else .changed

/-- A change of size clears both layers and the frame; any other request does nothing. -/
def resize (s : Screen) (width height : Short) : Screen :=
  match s.resizeResult width height with
  | .rejected | .unchanged => s
  | .changed =>
      let n := width.toNat * height.toNat
      let cleared : Screen :=
        ⟨width, height, Array.replicate n 0, Array.replicate n 0, Array.replicate n 0,
          s.palette, none, true⟩
      cleared.markAll

theorem resize_eq_self (s : Screen) {width height : Short}
    (h : s.resizeResult width height ≠ .changed) : s.resize width height = s := by
  unfold resize
  split
  · rfl
  · rfl
  · contradiction

def ofSize (width height : Short) : Screen :=
  blank.resize width height

/-! ## Palette -/

def setPalette (s : Screen) (p : Palette) : Screen :=
  { s with palette := p }.markAll

/-! ## Drawing -/

def plot (s : Screen) (l : Layer) (x y : Short) (color : Byte) : Screen :=
  let s :=
    if x < s.width ∧ y < s.height then
      let i := Grid.index s.width.toNat x.toNat y.toNat
      s.mapLayer l fun cells => cells.setIfInBounds i (.ofByte color)
    else s
  s.mark ⟨⟨x, x + 1⟩, ⟨y, y + 1⟩⟩

def fillSpan (size start : Short) (flip : Bool) : Span :=
  if flip then ⟨0, start⟩ else ⟨start, size⟩

/-- Fills from `(x, y)` to the edges of the screen; a flipped axis fills up to the coordinate. -/
def fill (s : Screen) (l : Layer) (x y : Short) (color : Byte) (flipX flipY : Bool) : Screen :=
  let across := fillSpan s.width x flipX
  let down := fillSpan s.height y flipY
  let width := s.width.toNat
  let columns := min across.hi.toNat width - across.lo.toNat
  let rows := min down.hi.toNat s.height.toNat - down.lo.toNat
  let s := s.mapLayer l
    (Grid.paintRows (fun _ => .ofByte color) width across.lo.toNat columns rows down.lo.toNat)
  s.mark ⟨across, down⟩

/-! ## Rendering -/

def colorAt (palette : Palette) (fg bg : Array Ink) (i : Nat) : Color :=
  palette.cellColor (fg.getD i 0) (bg.getD i 0)

def render (s : Screen) : Screen :=
  match s with
  | ⟨width, height, bg, fg, frame, palette, pending, resized⟩ =>
      let frame :=
        match pending with
        | none => frame
        | some r =>
            Grid.paintRows (colorAt palette fg bg) width.toNat r.x.lo.toNat
              (r.x.hi.toNat - r.x.lo.toNat) (r.y.hi.toNat - r.y.lo.toNat) r.y.lo.toNat frame
      ⟨width, height, bg, fg, frame, palette, none, resized⟩

end Screen

end StackComputer
