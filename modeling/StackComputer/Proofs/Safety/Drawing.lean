import StackComputer.Proofs.Safety.Storage
import StackComputer.Proofs.Screen.Operation

/-!
# Checked drawing

The loops over the cells of a screen with every index computed and checked.
Which checks can fail depends on the size, on the three arrays of cells and on
the pending rectangle together: on a well-formed screen none does.
-/

namespace StackComputer

/-! ## Cells of a grid -/

namespace Grid

theorem paintRows_zero {α : Type} (f : Nat → α) (width x rows y : Nat) :
    paintRows f width x 0 rows y = id := by
  induction rows generalizing y with
  | zero => rfl
  | succ rows ih => exact ih (y + 1)

namespace Checked

open StackComputer.Checked

def cellIndex (width x y : Nat) : Checked Nat := do
  let row ← count (y * width)
  count (row + x)

def fillRows (width lo hi : Nat) (v : Ink) : (rows y : Nat) → Array Ink → Checked (Array Ink)
  | 0, _, cells => pure cells
  | rows + 1, y, cells => do
      let row ← count (y * width)
      let first ← count (row + lo)
      let last ← count (row + hi)
      let cells ← fillRange cells first last v
      fillRows width lo hi v rows (y + 1) cells

theorem cellIndex_eq {width x y : Nat} (h : Grid.index width x y < 2 ^ 64) :
    cellIndex width x y = .ok (Grid.index width x y) := by
  have hrow : y * width < 2 ^ 64 := Nat.lt_of_le_of_lt (Nat.le_add_right _ x) h
  rw [cellIndex, count_eq hrow, ok_bind]
  exact count_eq h

theorem fillRows_eq {width height lo hi : Nat} (hlo : lo ≤ hi) (hhi : hi ≤ width)
    (hfit : width * height < 2 ^ 64) (v : Ink) {rows y : Nat} (hrows : rows ≤ height - y)
    {cells : Array Ink} (hsize : cells.size = width * height) :
    fillRows width lo hi v rows y cells =
      .ok (paintRows (fun _ => v) width lo (hi - lo) rows y cells) := by
  induction rows generalizing y cells with
  | zero => rfl
  | succ rows ih =>
      have hend : y * width + width ≤ width * height := by
        have hmul := Nat.mul_le_mul_right width (show y + 1 ≤ height by omega)
        rw [Nat.add_mul, Nat.one_mul, Nat.mul_comm height] at hmul
        exact hmul
      have hcount : y * width + hi - (y * width + lo) = hi - lo := by omega
      rw [fillRows, count_eq (by omega), ok_bind, count_eq (by omega), ok_bind,
        count_eq (by omega), ok_bind, fillRange_eq (by omega) (by omega), ok_bind, hcount]
      exact ih (by omega) ((size_paintRow _ _ _ cells).trans hsize)

end Checked

end Grid

namespace Screen

theorem mapLayer_const (s : Screen) (l : Layer) (f : Array Ink → Array Ink) :
    (s.mapLayer l fun _ => f (s.layer l)) = s.mapLayer l f := by
  cases l <;> rfl

theorem WellFormed.count_lt {s : Screen} (hs : s.WellFormed) :
    s.width.toNat * s.height.toNat < 2 ^ 64 := by
  have hmul := Nat.mul_le_mul hs.isSize.le.1 hs.isSize.le.2
  omega

namespace Checked

open StackComputer.Checked

/-! ## Cells and rectangles -/

def plot (s : Screen) (l : Layer) (x y : Short) (color : Byte) : Checked Screen := do
  let s ←
    if x < s.width ∧ y < s.height then do
      let i ← Grid.Checked.cellIndex s.width.toNat x.toNat y.toNat
      let cells ← set (s.layer l) i (.ofByte color)
      pure (s.mapLayer l fun _ => cells)
    else pure s
  pure (s.mark ⟨⟨x, x + 1⟩, ⟨y, y + 1⟩⟩)

def fill (s : Screen) (l : Layer) (x y : Short) (color : Byte) (flipX flipY : Bool) :
    Checked Screen := do
  let across := fillSpan s.width x flipX
  let down := fillSpan s.height y flipY
  let lo := across.lo.toNat
  let hi := min across.hi.toNat s.width.toNat
  let rows := min down.hi.toNat s.height.toNat - down.lo.toNat
  let cells ←
    if lo < hi then
      Grid.Checked.fillRows s.width.toNat lo hi (.ofByte color) rows down.lo.toNat (s.layer l)
    else pure (s.layer l)
  pure ((s.mapLayer l fun _ => cells).mark ⟨across, down⟩)

theorem plot_eq {s : Screen} (hs : s.WellFormed) (l : Layer) (x y : Short) (color : Byte) :
    plot s l x y color = .ok (s.plot l x y color) := by
  unfold plot Screen.plot
  split
  · next hin =>
      have hlt := hs.index_lt hin.1 hin.2 l
      have hfit : Grid.index s.width.toNat x.toNat y.toNat < 2 ^ 64 := by
        have hcount := hs.count_lt
        rw [hs.size_layer] at hlt
        omega
      rw [Grid.Checked.cellIndex_eq hfit, ok_bind, set_eq hlt, ok_bind, pure_eq, ok_bind,
        mapLayer_const s l fun cells => cells.setIfInBounds _ _]
      rfl
  · rfl

theorem fill_eq {s : Screen} (hs : s.WellFormed) (l : Layer) (x y : Short) (color : Byte)
    (flipX flipY : Bool) :
    fill s l x y color flipX flipY = .ok (s.fill l x y color flipX flipY) := by
  unfold fill Screen.fill
  dsimp only
  split
  · next hlt =>
      rw [Grid.Checked.fillRows_eq (Nat.le_of_lt hlt) (Nat.min_le_right _ _) hs.count_lt _
        (by omega) (hs.size_layer l), ok_bind, mapLayer_const s l (Grid.paintRows _ _ _ _ _ _)]
      rfl
  · next hge =>
      have hnone : min (fillSpan s.width x flipX).hi.toNat s.width.toNat -
          (fillSpan s.width x flipX).lo.toNat = 0 := by omega
      rw [pure_eq, ok_bind, hnone, Grid.paintRows_zero, ← mapLayer_const s l id]
      rfl

/-! ## Rendering -/

def renderCell (s : Screen) (x y : Nat) (frame : Array Color) : Checked (Array Color) := do
  let i ← Grid.Checked.cellIndex s.width.toNat x y
  let fg ← get s.fg i
  let bg ← get s.bg i
  set frame i (s.palette.cellColor fg bg)

def renderRow (s : Screen) (y : Nat) : (n x : Nat) → Array Color → Checked (Array Color)
  | 0, _, frame => pure frame
  | n + 1, x, frame => do
      let frame ← renderCell s x y frame
      renderRow s y n (x + 1) frame

def renderRows (s : Screen) (x n : Nat) : (rows y : Nat) → Array Color → Checked (Array Color)
  | 0, _, frame => pure frame
  | rows + 1, y, frame => do
      let frame ← renderRow s y n x frame
      renderRows s x n rows (y + 1) frame

def render (s : Screen) : Checked Screen :=
  match s.pending with
  | none => pure { s with pending := none }
  | some r => do
      let frame ← renderRows s r.x.lo.toNat (r.x.hi.toNat - r.x.lo.toNat)
        (r.y.hi.toNat - r.y.lo.toNat) r.y.lo.toNat s.frame
      pure { s with frame := frame, pending := none }

section

variable {s : Screen} {frame : Array Color}

theorem renderCell_eq (hs : s.WellFormed) {x y : Nat} (hx : x < s.width.toNat)
    (hy : y < s.height.toNat) (hframe : frame.size = s.width.toNat * s.height.toNat) :
    renderCell s x y frame =
      .ok (frame.setIfInBounds (Grid.index s.width.toNat x y)
        (colorAt s.palette s.fg s.bg (Grid.index s.width.toNat x y))) := by
  have hlt : Grid.index s.width.toNat x y < s.width.toNat * s.height.toNat :=
    Grid.index_lt hx hy
  have hget {cells : Array Ink} (hsize : cells.size = s.width.toNat * s.height.toNat) :
      cells[Grid.index s.width.toNat x y]? =
        some (cells.getD (Grid.index s.width.toNat x y) 0) := by
    rw [Array.getD_eq_getD_getElem?, Array.getElem?_eq_getElem (by omega)]
    rfl
  rw [renderCell, Grid.Checked.cellIndex_eq (Nat.lt_trans hlt hs.count_lt), ok_bind,
    get_eq (hget hs.size_fg), ok_bind, get_eq (hget hs.size_bg), ok_bind, set_eq (by omega)]
  rfl

theorem renderRow_eq (hs : s.WellFormed) {y : Nat} (hy : y < s.height.toNat) {n x : Nat}
    (hx : n ≤ s.width.toNat - x) (hframe : frame.size = s.width.toNat * s.height.toNat) :
    renderRow s y n x frame =
      .ok (Grid.paintRow (colorAt s.palette s.fg s.bg) n (Grid.index s.width.toNat x y)
        frame) := by
  induction n generalizing x frame with
  | zero => rfl
  | succ n ih =>
      rw [renderRow, renderCell_eq hs (by omega) hy hframe, ok_bind, Grid.paintRow]
      exact ih (by omega) (Array.size_setIfInBounds.trans hframe)

theorem renderRows_eq (hs : s.WellFormed) {x n : Nat} (hx : n ≤ s.width.toNat - x)
    {rows y : Nat} (hy : rows ≤ s.height.toNat - y)
    (hframe : frame.size = s.width.toNat * s.height.toNat) :
    renderRows s x n rows y frame =
      .ok (Grid.paintRows (colorAt s.palette s.fg s.bg) s.width.toNat x n rows y frame) := by
  induction rows generalizing y frame with
  | zero => rfl
  | succ rows ih =>
      rw [renderRows, renderRow_eq hs (by omega) hx hframe, ok_bind, Grid.paintRows]
      exact ih (by omega) ((Grid.size_paintRow _ _ _ frame).trans hframe)

/-- What is pending lies on the screen, so no cell outside is rendered. -/
theorem render_eq (hs : s.WellFormed) : render s = .ok s.render := by
  unfold render
  cases hpending : s.pending with
  | none =>
      obtain ⟨width, height, bg, fg, frame, palette, pending, resized⟩ := s
      cases hpending
      rfl
  | some r =>
      have hwithin := hs.pending_within r hpending
      have hx := UInt16.le_iff_toNat_le.mp hwithin.x.2
      have hy := UInt16.le_iff_toNat_le.mp hwithin.y.2
      dsimp only
      rw [renderRows_eq hs (by omega) (by omega) hs.size_frame]
      obtain ⟨width, height, bg, fg, frame, palette, pending, resized⟩ := s
      cases hpending
      rfl

end

/-! ## Size -/

def resize (s : Screen) (width height : Short) : Checked Screen := do
  if s.resizeResult width height = .changed then
    let _ ← count (width.toNat * height.toNat)
  pure (s.resize width height)

theorem resize_eq (s : Screen) (width height : Short) :
    resize s width height = .ok (s.resize width height) := by
  have hcount : width.toNat * height.toNat < 2 ^ 64 := by
    have hmul := Nat.mul_lt_mul'' width.toNat_lt height.toNat_lt
    omega
  unfold resize
  split
  · rw [count_eq hcount]
    rfl
  · rfl

end Checked

end Screen

end StackComputer
