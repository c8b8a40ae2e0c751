import StackComputer.Screen.Sprite

/-!
# Drawing cell by cell

Every drawing loop is described by what it leaves in one cell of a layer.  A
cell is named by its column and row, so the laws say nothing about the order in
which the loops visit the cells.
-/

namespace StackComputer

/-! ## Rows of a grid -/

namespace Grid

variable {α : Type}

theorem index_lt {width height x y : Nat} (hx : x < width) (hy : y < height) :
    index width x y < width * height := by
  have hrow : (y + 1) * width ≤ height * width := Nat.mul_le_mul_right width hy
  rw [Nat.add_mul, Nat.one_mul] at hrow
  rw [index, Nat.mul_comm width height]
  omega

theorem index_mem_row {width x y n x' y' : Nat} (hx : x < width) (hn : n ≤ width - x') :
    index width x' y' ≤ index width x y ∧ index width x y < index width x' y' + n ↔
      y = y' ∧ x' ≤ x ∧ x < x' + n := by
  simp only [index]
  constructor
  · rintro ⟨hle, hlt⟩
    have hrow : y = y' := by
      rcases Nat.lt_trichotomy y y' with h | h | h
      · have := Nat.mul_le_mul_right width (show y + 1 ≤ y' from h)
        rw [Nat.add_mul, Nat.one_mul] at this
        omega
      · exact h
      · have := Nat.mul_le_mul_right width (show y' + 1 ≤ y from h)
        rw [Nat.add_mul, Nat.one_mul] at this
        omega
    subst hrow
    omega
  · rintro ⟨rfl, hle, hlt⟩
    omega

theorem index_inj {width x y x' y' : Nat} (hx : x < width) (hx' : x' < width) :
    index width x y = index width x' y' ↔ x = x' ∧ y = y' := by
  have h : index width x' y' ≤ index width x y ∧ index width x y < index width x' y' + 1 ↔
      y = y' ∧ x' ≤ x ∧ x < x' + 1 := index_mem_row hx (by omega)
  constructor
  · intro he
    obtain ⟨hy, hle, hlt⟩ := h.mp (by omega)
    omega
  · rintro ⟨rfl, rfl⟩
    rfl

theorem getElem?_paintRows (f : Nat → α) {width x n : Nat} (hn : n ≤ width - x) (rows y : Nat)
    (cells : Array α) {X : Nat} (hX : X < width) (Y : Nat) :
    (paintRows f width x n rows y cells)[index width X Y]? =
      if (x ≤ X ∧ X < x + n) ∧ (y ≤ Y ∧ Y < y + rows) ∧ index width X Y < cells.size then
        some (f (index width X Y))
      else cells[index width X Y]? := by
  induction rows generalizing y cells with
  | zero =>
      have hempty : ¬(y ≤ Y ∧ Y < y + 0) := by omega
      simp only [paintRows, hempty, false_and, and_false, if_false]
  | succ rows ih =>
      have hrow : index width x y ≤ index width X Y ∧ index width X Y < index width x y + n ↔
          Y = y ∧ x ≤ X ∧ X < x + n := index_mem_row hX hn
      rw [paintRows, ih, getElem?_paintRow, size_paintRow]
      simp only [← and_assoc (b := index width X Y < _), hrow]
      by_cases hx : x ≤ X ∧ X < x + n
      · by_cases hy : Y = y
        · subst hy
          have hrest : ¬(Y + 1 ≤ Y ∧ Y < Y + 1 + rows) := by omega
          have hall : Y ≤ Y ∧ Y < Y + (rows + 1) := by omega
          simp only [hx, hrest, hall, true_and, false_and, and_false, if_false, and_self]
        · have hrest : (y + 1 ≤ Y ∧ Y < y + 1 + rows) ↔ (y ≤ Y ∧ Y < y + (rows + 1)) := by omega
          simp only [hx, hy, hrest, true_and, false_and, if_false, and_self]
      · simp only [hx, false_and, and_false, if_false]

theorem ext {width height : Short} {cells cells' : Array α}
    (hsize : cells.size = width.toNat * height.toNat)
    (hsize' : cells'.size = width.toNat * height.toNat)
    (h : ∀ x y : Short, x < width → y < height →
      cells[index width.toNat x.toNat y.toNat]? = cells'[index width.toNat x.toNat y.toNat]?) :
    cells = cells' := by
  apply Array.ext (hsize.trans hsize'.symm)
  intro i hi hi'
  rw [hsize] at hi
  have hwidth_pos : 0 < width.toNat := by
    apply Nat.pos_of_ne_zero
    intro hzero
    rw [hzero, Nat.zero_mul] at hi
    exact Nat.not_lt_zero i hi
  -- entry `i` is the cell of column `i % width` and row `i / width`
  have hcolumn : i % width.toNat < width.toNat := Nat.mod_lt i hwidth_pos
  have hrow : i / width.toNat < height.toNat := by
    rw [Nat.div_lt_iff_lt_mul hwidth_pos, Nat.mul_comm]
    exact hi
  have hcolumnNat : (UInt16.ofNat (i % width.toNat)).toNat = i % width.toNat :=
    Nat.mod_eq_of_lt (Nat.lt_trans hcolumn width.toNat_lt)
  have hrowNat : (UInt16.ofNat (i / width.toNat)).toNat = i / width.toNat :=
    Nat.mod_eq_of_lt (Nat.lt_trans hrow height.toNat_lt)
  have hcell := h (.ofNat (i % width.toNat)) (.ofNat (i / width.toNat))
    (by rwa [UInt16.lt_iff_toNat_lt, hcolumnNat]) (by rwa [UInt16.lt_iff_toNat_lt, hrowNat])
  have hindex : index width.toNat (i % width.toNat) (i / width.toNat) = i := by
    rw [index, Nat.mul_comm]
    exact Nat.div_add_mod i width.toNat
  rw [hcolumnNat, hrowNat, hindex, Array.getElem?_eq_getElem (by omega),
    Array.getElem?_eq_getElem (by omega)] at hcell
  exact Option.some.inj hcell

end Grid

/-! ## Fields that drawing leaves alone -/

namespace Screen

@[simp] theorem width_mapLayer (s : Screen) (l : Layer) (f : Array Ink → Array Ink) :
    (s.mapLayer l f).width = s.width := by
  cases l <;> rfl

@[simp] theorem height_mapLayer (s : Screen) (l : Layer) (f : Array Ink → Array Ink) :
    (s.mapLayer l f).height = s.height := by
  cases l <;> rfl

@[simp] theorem frame_mapLayer (s : Screen) (l : Layer) (f : Array Ink → Array Ink) :
    (s.mapLayer l f).frame = s.frame := by
  cases l <;> rfl

@[simp] theorem palette_mapLayer (s : Screen) (l : Layer) (f : Array Ink → Array Ink) :
    (s.mapLayer l f).palette = s.palette := by
  cases l <;> rfl

@[simp] theorem pending_mapLayer (s : Screen) (l : Layer) (f : Array Ink → Array Ink) :
    (s.mapLayer l f).pending = s.pending := by
  cases l <;> rfl

@[simp] theorem width_mark (s : Screen) (r : Rect) : (s.mark r).width = s.width := by
  rw [mark_eq]

@[simp] theorem height_mark (s : Screen) (r : Rect) : (s.mark r).height = s.height := by
  rw [mark_eq]

@[simp] theorem frame_mark (s : Screen) (r : Rect) : (s.mark r).frame = s.frame := by
  rw [mark_eq]

@[simp] theorem palette_mark (s : Screen) (r : Rect) : (s.mark r).palette = s.palette := by
  rw [mark_eq]

@[simp] theorem ink?_mark (s : Screen) (r : Rect) (l : Layer) (x y : Short) :
    (s.mark r).ink? l x y = s.ink? l x y := by
  simp only [ink?, width_mark, height_mark, layer_mark]

theorem ink?_mapLayer (s : Screen) (l : Layer) (f : Array Ink → Array Ink) (k : Layer)
    (x y : Short) :
    (s.mapLayer l f).ink? k x y =
      if x < s.width ∧ y < s.height then
        (if k = l then f (s.layer k) else s.layer k)[Grid.index s.width.toNat x.toNat y.toNat]?
      else none := by
  simp only [ink?, width_mapLayer, height_mapLayer]
  by_cases hk : k = l
  · subst hk
    simp only [layer_mapLayer_self, if_true]
  · simp only [layer_mapLayer_ne s (Ne.symm hk), hk, if_false]

end Screen

/-! ## Tiles -/

/-- The tile's pixel at distance `u` from its edge, seen from the other side if flipped. -/
def unflip (flip : Bool) (u : Nat) : Nat :=
  if flip then 7 - u else u

namespace Placement

/-- The ink that a tile placed here leaves at `(x, y)`, if it leaves any. -/
def inkAt? (p : Placement) (tile : Tile) (x y : Short) : Option Ink :=
  if x - p.x < 8 ∧ y - p.y < 8 then
    Blend.ink? p.color (tile (unflip p.flipX (x - p.x).toNat) (unflip p.flipY (y - p.y).toNat))
  else none

end Placement

namespace Screen

theorem eq_add_pixelOffset (flip : Bool) {k : Nat} (hk : k < 8) (x start : Short) :
    x = start + pixelOffset flip k ↔ x - start < 8 ∧ unflip flip (x - start).toNat = k := by
  have hx := x.toNat_lt
  have hs := start.toNat_lt
  rw [← UInt16.toNat_inj, UInt16.lt_iff_toNat_lt, UInt16.toNat_add, UInt16.toNat_sub]
  cases flip
  · simp only [pixelOffset, unflip, Bool.false_eq_true, if_false, UInt16.toNat_ofNat']
    change _ ↔ (2 ^ 16 - start.toNat + x.toNat) % 2 ^ 16 < 8 ∧ _
    omega
  · simp only [pixelOffset, unflip, if_true, UInt16.toNat_ofNat']
    change _ ↔ (2 ^ 16 - start.toNat + x.toNat) % 2 ^ 16 < 8 ∧ _
    omega

theorem size_drawPixel (width height : Short) (tile : Tile) (p : Placement) (column row : Nat)
    (cells : Array Ink) : (drawPixel width height tile p column row cells).size = cells.size := by
  unfold drawPixel
  split
  · rfl
  · dsimp only
    split
    · exact Array.size_setIfInBounds
    · rfl

theorem getElem?_drawPixel {width height x y : Short} (hx : x < width) (hy : y < height)
    (tile : Tile) (p : Placement) (column row : Nat) (cells : Array Ink) :
    (drawPixel width height tile p column row cells)[Grid.index width.toNat x.toNat y.toNat]? =
      if x = p.x + pixelOffset p.flipX column ∧ y = p.y + pixelOffset p.flipY row then
        cells[Grid.index width.toNat x.toNat y.toNat]?.map
          (Blend.ink? p.color (tile column row)).getD
      else cells[Grid.index width.toNat x.toNat y.toNat]? := by
  unfold drawPixel
  cases Blend.ink? p.color (tile column row) with
  | none =>
      have hkeep (old : Option Ink) : old.map (none : Option Ink).getD = old := by
        cases old <;> rfl
      simp only [hkeep, ite_self]
  | some ink =>
      dsimp only
      generalize p.x + pixelOffset p.flipX column = x'
      generalize p.y + pixelOffset p.flipY row = y'
      by_cases hhere : x = x' ∧ y = y'
      · obtain ⟨rfl, rfl⟩ := hhere
        simp only [hx, hy, and_self, if_true, Array.getElem?_setIfInBounds_self]
        cases h : cells[Grid.index width.toNat x.toNat y.toNat]? <;> grind
      · rw [if_neg hhere]
        split
        · next hin =>
            rw [Array.getElem?_setIfInBounds_ne]
            rw [Ne, Grid.index_inj (UInt16.lt_iff_toNat_lt.mp hin.1) (UInt16.lt_iff_toNat_lt.mp hx),
              UInt16.toNat_inj, UInt16.toNat_inj]
            rintro ⟨rfl, rfl⟩
            exact hhere ⟨rfl, rfl⟩
        · rfl

theorem size_drawPixels (width height : Short) (tile : Tile) (p : Placement) (cells : Array Ink) :
    (drawPixels width height tile p cells).size = cells.size := by
  unfold drawPixels
  generalize List.range 64 = pixels
  induction pixels generalizing cells with
  | nil => rfl
  | cons k pixels ih => rw [List.foldl_cons, ih, size_drawPixel]

theorem unflip_lt (flip : Bool) {u : Short} (hu : u < 8) : unflip flip u.toNat < 8 := by
  have : u.toNat < 8 := UInt16.lt_iff_toNat_lt.mp hu
  unfold unflip
  split <;> omega

private theorem getElem?_drawPixel_range {width height x y : Short} (hx : x < width)
    (hy : y < height) (tile : Tile) (p : Placement) (cells : Array Ink) {n : Nat} (hn : n ≤ 64) :
    ((List.range n).foldl
        (fun cells k => drawPixel width height tile p (k % 8) (k / 8) cells) cells)[
          Grid.index width.toNat x.toNat y.toNat]? =
      if unflip p.flipX (x - p.x).toNat + 8 * unflip p.flipY (y - p.y).toNat < n then
        cells[Grid.index width.toNat x.toNat y.toNat]?.map (p.inkAt? tile x y).getD
      else cells[Grid.index width.toNat x.toNat y.toNat]? := by
  induction n with
  | zero => rfl
  | succ n ih =>
      rw [List.range_succ, List.foldl_append, List.foldl_cons, List.foldl_nil,
        getElem?_drawPixel hx hy, ih (by omega)]
      simp only [eq_add_pixelOffset _ (by omega : n % 8 < 8),
        eq_add_pixelOffset _ (by omega : n / 8 < 8)]
      generalize cells[Grid.index width.toNat x.toNat y.toNat]? = old
      by_cases hcover : x - p.x < 8 ∧ y - p.y < 8
      · have hcolumn := unflip_lt p.flipX hcover.1
        have hrow := unflip_lt p.flipY hcover.2
        rw [Placement.inkAt?, if_pos hcover]
        simp only [hcover.1, hcover.2, true_and]
        generalize unflip p.flipX (x - p.x).toNat = column at hcolumn ⊢
        generalize unflip p.flipY (y - p.y).toNat = row at hrow ⊢
        by_cases hhere : column + 8 * row = n
        · have hc : column = n % 8 := by omega
          have hr : row = n / 8 := by omega
          rw [if_pos ⟨hc, hr⟩, if_neg (by omega), if_pos (by omega), hc, hr]
        · rw [if_neg (by omega)]
          by_cases hbefore : column + 8 * row < n
          · rw [if_pos hbefore, if_pos (by omega)]
          · rw [if_neg hbefore, if_neg (by omega)]
      · rw [Placement.inkAt?, if_neg hcover]
        have hkeep : old.map (none : Option Ink).getD = old := by
          cases old <;> rfl
        simp only [hkeep, ite_self]
        rw [if_neg]
        rintro ⟨⟨hu, -⟩, hv, -⟩
        exact hcover ⟨hu, hv⟩

theorem getElem?_drawPixels {width height x y : Short} (hx : x < width) (hy : y < height)
    (tile : Tile) (p : Placement) (cells : Array Ink) :
    (drawPixels width height tile p cells)[Grid.index width.toNat x.toNat y.toNat]? =
      cells[Grid.index width.toNat x.toNat y.toNat]?.map (p.inkAt? tile x y).getD := by
  rw [drawPixels, getElem?_drawPixel_range hx hy tile p cells (Nat.le_refl 64)]
  split
  · rfl
  · next hbeyond =>
      rw [Placement.inkAt?, if_neg]
      · cases cells[Grid.index width.toNat x.toNat y.toNat]? <;> rfl
      · rintro ⟨hu, hv⟩
        have := unflip_lt p.flipX hu
        have := unflip_lt p.flipY hv
        omega

/-! ## Drawing on a layer -/

theorem ink?_drawTile (s : Screen) (l : Layer) (tile : Tile) (p : Placement) (k : Layer)
    (x y : Short) :
    (s.drawTile l tile p).ink? k x y =
      if k = l then (s.ink? k x y).map (p.inkAt? tile x y).getD else s.ink? k x y := by
  rw [drawTile, ink?_mapLayer, ink?]
  by_cases hin : x < s.width ∧ y < s.height
  · simp only [hin, and_self, if_true]
    by_cases hk : k = l
    · simp only [hk, if_true]
      exact getElem?_drawPixels hin.1 hin.2 tile p _
    · simp only [hk, if_false]
  · simp only [hin, if_false, Option.map_none, ite_self]

theorem ink?_drawTiles (s : Screen) (ram : Ram) (b : SpriteRun) (k : Layer) (x y : Short) :
    (s.drawTiles ram b).ink? k x y =
      if k = b.layer then
        (List.range (b.extra.toNat + 1)).foldl
          (fun old i => old.map
            ((b.placementAt i).inkAt? (.ofRam ram (b.sourceAt i) b.twoPlanes) x y).getD)
          (s.ink? k x y)
      else s.ink? k x y := by
  unfold drawTiles
  generalize List.range (b.extra.toNat + 1) = tiles
  induction tiles generalizing s with
  | nil => simp only [List.foldl_nil, ite_self]
  | cons i tiles ih =>
      rw [List.foldl_cons, ih, ink?_drawTile]
      by_cases hk : k = b.layer
      · simp only [hk, if_true, List.foldl_cons]
      · simp only [hk, if_false]

theorem ink?_plot (s : Screen) (l : Layer) (x y : Short) (color : Byte) (k : Layer) (X Y : Short) :
    (s.plot l x y color).ink? k X Y =
      if k = l ∧ X = x ∧ Y = y then (s.ink? k X Y).map fun _ => .ofByte color
      else s.ink? k X Y := by
  rw [plot, ink?_mark]
  by_cases hhere : k = l ∧ X = x ∧ Y = y
  · obtain ⟨rfl, rfl, rfl⟩ := hhere
    simp only [and_self, if_true]
    split
    · next hin =>
        rw [ink?_mapLayer, if_pos hin, if_pos rfl, ink?, if_pos hin]
        grind
    · next hout => simp only [ink?, hout, if_false, Option.map_none]
  · rw [if_neg hhere]
    split
    · next hin =>
        rw [ink?_mapLayer, ink?]
        split
        · next hIn =>
            split
            · next hk =>
                subst hk
                rw [Array.getElem?_setIfInBounds_ne]
                rw [Ne, Grid.index_inj (UInt16.lt_iff_toNat_lt.mp hin.1)
                  (UInt16.lt_iff_toNat_lt.mp hIn.1), UInt16.toNat_inj, UInt16.toNat_inj]
                rintro ⟨rfl, rfl⟩
                exact hhere ⟨rfl, rfl, rfl⟩
            · rfl
        · rfl
    · rfl

def Filled (start : Short) (flip : Bool) (x : Short) : Prop :=
  if flip then x < start else start ≤ x

instance (start : Short) (flip : Bool) (x : Short) : Decidable (Filled start flip x) :=
  inferInstanceAs (Decidable (if flip then x < start else start ≤ x))

theorem filled_iff {size x : Short} (hx : x < size) (start : Short) (flip : Bool) :
    Filled start flip x ↔
      (fillSpan size start flip).lo.toNat ≤ x.toNat ∧
        x.toNat < (fillSpan size start flip).lo.toNat +
          (min (fillSpan size start flip).hi.toNat size.toNat -
            (fillSpan size start flip).lo.toNat) := by
  have hx := UInt16.lt_iff_toNat_lt.mp hx
  cases flip
  · simp only [Filled, fillSpan, Bool.false_eq_true, if_false, UInt16.le_iff_toNat_le]
    omega
  · simp only [Filled, fillSpan, if_true, UInt16.lt_iff_toNat_lt]
    change _ ↔ 0 ≤ _ ∧ _ < 0 + (_ - 0)
    omega

theorem ink?_fill (s : Screen) (l : Layer) (x y : Short) (color : Byte) (flipX flipY : Bool)
    (k : Layer) (X Y : Short) :
    (s.fill l x y color flipX flipY).ink? k X Y =
      if k = l ∧ Filled x flipX X ∧ Filled y flipY Y then
        (s.ink? k X Y).map fun _ => .ofByte color
      else s.ink? k X Y := by
  rw [fill, ink?_mark, ink?_mapLayer, ink?]
  by_cases hin : X < s.width ∧ Y < s.height
  · simp only [hin, and_self, if_true]
    by_cases hk : k = l
    · simp only [hk, if_true, true_and]
      rw [Grid.getElem?_paintRows _ (by omega) _ _ _ (UInt16.lt_iff_toNat_lt.mp hin.1)]
      simp only [← filled_iff hin.1, ← filled_iff hin.2]
      grind
    · simp only [hk, if_false, false_and]
  · simp only [hin, if_false, Option.map_none, ite_self]

end Screen

end StackComputer
