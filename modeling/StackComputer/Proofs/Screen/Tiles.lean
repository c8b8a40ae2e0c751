import StackComputer.Port
import StackComputer.Proofs.Screen.Drawn

/-!
# Single tiles

A run with no extra tile draws one.  Its pixels are numbers of two bits, read
from one plane or from two, and each pixel decides about one cell.
-/

namespace StackComputer

namespace Tile

theorem val_ofPlanes (low high : Nat → Byte) (column row : Nat) :
    (ofPlanes low high column row).val =
      ((low row).bit (7 - column)).toNat + 2 * ((high row).bit (7 - column)).toNat := by
  simp only [ofPlanes, Byte.bit]
  cases (low row).toNat.testBit (7 - column) <;>
    cases (high row).toNat.testBit (7 - column) <;> rfl

theorem val_ofRam (ram : Ram) (a : Short) (twoPlanes : Bool) (column row : Nat) :
    (ofRam ram a twoPlanes column row).val =
      ((ram.read (a + .ofNat row)).bit (7 - column)).toNat +
        if twoPlanes then 2 * ((ram.read (a + 8 + .ofNat row)).bit (7 - column)).toNat else 0 := by
  rw [ofRam, val_ofPlanes]
  cases twoPlanes with
  | true => rfl
  | false =>
      have hclear : Byte.bit 0 (7 - column) = false := Nat.zero_testBit _
      simp only [Bool.false_eq_true, if_false, hclear, Bool.toNat_false, Nat.mul_zero]

end Tile

theorem Blend.ink?_eq (mode : Byte) (pixel : Ink) :
    ink? mode pixel = if pixel = 0 ∧ mode % 5 = 0 then none
      else some ((table.get pixel).get (.ofNat 16 mode.toNat)) := rfl

namespace SpriteRun

theorem sourceAt_zero (b : SpriteRun) : b.sourceAt 0 = b.source := by
  have hnone : b.stepSource * .ofNat 0 = 0 := UInt16.mul_zero
  rw [sourceAt, hnone, UInt16.add_zero]

theorem sourceAt_succ (b : SpriteRun) (n : Nat) :
    b.sourceAt (n + 1) = b.sourceAt n + b.stepSource := by
  have hone : b.stepSource * .ofNat 1 = b.stepSource := UInt16.mul_one _
  rw [sourceAt, sourceAt, UInt16.ofNat_add, UInt16.mul_add, hone, UInt16.add_assoc]

theorem placementAt_zero (b : SpriteRun) :
    b.placementAt 0 = ⟨b.x, b.y, b.color, b.flipX, b.flipY⟩ := by
  have hnone (step : Short) : step * .ofNat 0 = 0 := UInt16.mul_zero
  rw [placementAt, hnone, hnone, UInt16.add_zero, UInt16.add_zero]

def single (b : SpriteRun) (i : Nat) : SpriteRun :=
  ⟨b.layer, b.sourceAt i, (b.placementAt i).x, (b.placementAt i).y, b.color, b.flipX, b.flipY,
    b.twoPlanes, 0, false, false, false⟩

end SpriteRun

namespace Screen

theorem drawTiles_of_extra_zero {b : SpriteRun} (hextra : b.extra = 0) (s : Screen) (ram : Ram) :
    s.drawTiles ram b = s.drawTile b.layer (.ofRam ram b.source b.twoPlanes)
      ⟨b.x, b.y, b.color, b.flipX, b.flipY⟩ := by
  rw [drawTiles, hextra, ← b.sourceAt_zero, ← b.placementAt_zero]
  rfl

/--
A tile decides about the cells of a square of eight by eight that may go around
the edges.  Mirrored or not, each of them gets the ink that the blending table
has for its pixel, unless the pixel is 0 and the mode shows what lies below.
-/
theorem single_tile_exact (s : Screen) (ram : Ram) (b : SpriteRun) (hextra : b.extra = 0) :
    let t := s.drawRun ram b
    (∀ X Y,
      let u := (X - b.x).toNat
      let v := (Y - b.y).toNat
      let column := if b.flipX then 7 - u else u
      let row := if b.flipY then 7 - v else v
      ∃ pixel : Ink,
        pixel.val = ((ram.read (b.source + .ofNat row)).bit (7 - column)).toNat +
          (if b.twoPlanes then
            2 * ((ram.read (b.source + 8 + .ofNat row)).bit (7 - column)).toNat
          else 0) ∧
        t.ink? b.layer X Y = (s.ink? b.layer X Y).map fun old =>
          if (u < 8 ∧ v < 8) ∧ ¬(pixel = 0 ∧ b.color % 5 = 0) then
            (Blend.table.get pixel).get (.ofNat 16 b.color.toNat)
          else old) ∧
    (∀ k, k ≠ b.layer → t.layer k = s.layer k) ∧ t.frame = s.frame ∧ t.palette = s.palette ∧
    t.width = s.width ∧ t.height = s.height := by
  intro t
  have hdrawn : DrawnOn b.layer s t := drawnOn_drawRun s ram b
  refine ⟨fun X Y => ?_, fun k hk => hdrawn.layer_of_ne hk, hdrawn.frame, hdrawn.palette,
    hdrawn.width, hdrawn.height⟩
  intro u v column row
  let pixel := Tile.ofRam ram b.source b.twoPlanes column row
  refine ⟨pixel, Tile.val_ofRam .., ?_⟩
  have hcover : (X - b.x < 8 ∧ Y - b.y < 8) ↔ u < 8 ∧ v < 8 := by
    rw [UInt16.lt_iff_toNat_lt, UInt16.lt_iff_toNat_lt]
    rfl
  have hink : (Placement.mk b.x b.y b.color b.flipX b.flipY).inkAt?
      (.ofRam ram b.source b.twoPlanes) X Y =
        if u < 8 ∧ v < 8 then Blend.ink? b.color pixel else none := by
    simp only [Placement.inkAt?, hcover]
    rfl
  change ((s.drawTiles ram b).mark b.rect).ink? b.layer X Y = _
  rw [ink?_mark, drawTiles_of_extra_zero hextra, ink?_drawTile, if_pos rfl, hink, Blend.ink?_eq]
  congr 1
  funext old
  by_cases hin : u < 8 ∧ v < 8
  · by_cases hclear : pixel = 0 ∧ b.color % 5 = 0
    · rw [if_pos hin, if_pos hclear, if_neg fun h => h.2 hclear]
      rfl
    · rw [if_pos hin, if_neg hclear, if_pos ⟨hin, hclear⟩]
      rfl
  · rw [if_neg hin, if_neg fun h => hin h.1]
    rfl

theorem single_tile_exact_mirrored :
    let b : SpriteRun :=
      ⟨.foreground, 0xfff8, 0xfffc, 4, 5, true, true, true, 0, false, false, false⟩
    let ram := (Ram.zero.write 0xfffe 0x20).write 0x0006 0x20
    let s := (ofSize 8 8).fill .foreground 0 0 2 false false
    b.extra = 0 ∧ (s.drawRun ram b).ink? .foreground 1 5 = some 3 ∧
      (s.drawRun ram b).ink? .foreground 2 5 = some 2 := by
  intro b ram s
  obtain ⟨hcells, -⟩ := single_tile_exact s ram b rfl
  have hold (x : Short) (hx : (ofSize 8 8).ink? .foreground x 5 = some 0) :
      s.ink? b.layer x 5 = some 2 := by
    have hfilled : Filled 0 false x := UInt16.le_iff_toNat_le.mpr (Nat.zero_le _)
    rw [ink?_fill, if_pos ⟨rfl, hfilled, by decide⟩]
    exact congrArg (Option.map _) hx
  refine ⟨rfl, ?_, ?_⟩
  · obtain ⟨pixel, hval, hink⟩ := hcells 1 5
    simp [b, ram, Ram.read_write, Byte.bit] at hval
    obtain rfl : pixel = 3 := Fin.ext hval
    rw [hold 1 (by decide +kernel)] at hink
    exact hink.trans (by decide)
  · obtain ⟨pixel, hval, hink⟩ := hcells 2 5
    simp [b, ram, Ram.read_write, Byte.bit] at hval
    obtain rfl : pixel = 0 := Fin.ext hval
    rw [hold 2 (by decide +kernel)] at hink
    exact hink.trans (by decide)

/-! ## Runs tile by tile -/

/-- The same inks on both layers; what is pending may differ. -/
structure SameInks (s t : Screen) : Prop where
  width : s.width = t.width
  height : s.height = t.height
  layer : ∀ k, s.layer k = t.layer k

theorem SameInks.refl (s : Screen) : SameInks s s :=
  ⟨rfl, rfl, fun _ => rfl⟩

variable {s t : Screen}

theorem SameInks.symm (h : SameInks s t) : SameInks t s :=
  ⟨h.width.symm, h.height.symm, fun k => (h.layer k).symm⟩

theorem SameInks.trans {u : Screen} (h : SameInks s t) (h' : SameInks t u) : SameInks s u :=
  ⟨h.width.trans h'.width, h.height.trans h'.height, fun k => (h.layer k).trans (h'.layer k)⟩

theorem sameInks_mark (s : Screen) (r : Rect) : SameInks s (s.mark r) :=
  ⟨(width_mark s r).symm, (height_mark s r).symm, fun k => (layer_mark s r k).symm⟩

theorem SameInks.drawTile (h : SameInks s t) (l : Layer) (tile : Tile) (p : Placement) :
    SameInks (s.drawTile l tile p) (t.drawTile l tile p) := by
  refine ⟨by simp [Screen.drawTile, h.width], by simp [Screen.drawTile, h.height], fun k => ?_⟩
  rw [Screen.drawTile, Screen.drawTile, h.width, h.height]
  by_cases hk : l = k
  · subst hk
    rw [layer_mapLayer_self, layer_mapLayer_self, h.layer]
  · rw [layer_mapLayer_ne s hk, layer_mapLayer_ne t hk, h.layer]

def drawRuns (s : Screen) (ram : Ram) (runs : List SpriteRun) : Screen :=
  runs.foldl (fun s b => s.drawRun ram b) s

theorem drawRuns_append (s : Screen) (ram : Ram) (bs bs' : List SpriteRun) :
    s.drawRuns ram (bs ++ bs') = (s.drawRuns ram bs).drawRuns ram bs' :=
  List.foldl_append

theorem SameInks.drawRun (h : SameInks s t) (ram : Ram) (b : SpriteRun) :
    SameInks (s.drawRun ram b)
      (t.drawRuns ram ((List.range (b.extra.toNat + 1)).map b.single)) := by
  refine (sameInks_mark _ b.rect).symm.trans ?_
  unfold drawTiles drawRuns
  generalize List.range (b.extra.toNat + 1) = tiles
  induction tiles generalizing s t with
  | nil => exact h
  | cons i tiles ih =>
      rw [List.map_cons, List.foldl_cons, List.foldl_cons]
      apply ih
      rw [Screen.drawRun, drawTiles_of_extra_zero rfl]
      exact (h.drawTile ..).trans (sameInks_mark ..)

end Screen

end StackComputer
