import Mathlib.Logic.ExistsUnique
import StackComputer.Proofs.Screen.WellFormed

/-!
# What a fill paints

A fill paints the rectangle between a point and two edges of the screen; on a
flipped axis it goes to the nearer edge and leaves the point itself out.  So the
four fills that start at one point share the screen out among them, wherever
that point is.
-/

namespace StackComputer

theorem Ink.val_ofByte (b : Byte) : (Ink.ofByte b).val = (b &&& 3).toNat := by
  have hmod : b.toNat % 4 = b.toNat &&& 3 := (Nat.and_two_pow_sub_one_eq_mod b.toNat 2).symm
  rw [UInt8.toNat_and]
  exact hmod

namespace Screen

theorem filled_iff_eq (start x : Short) (flip : Bool) :
    Filled start flip x ↔ flip = decide (x < start) := by
  by_cases hx : x < start
  · cases flip <;> simp [Filled, hx]
  · have hle : start ≤ x := UInt16.not_lt.mp hx
    cases flip <;> simp [Filled, hx, hle]

/-- The cell gets the color of the fill with these flips, whatever color that is. -/
def Paints (s : Screen) (l : Layer) (x y : Short) (flips : Bool × Bool) (X Y : Short) : Prop :=
  ∀ color, (s.fill l x y color flips.1 flips.2).ink? l X Y = some (.ofByte color)

variable {s : Screen} {X Y : Short}

theorem ink?_fill_of_lt (hs : s.WellFormed) (hX : X < s.width) (hY : Y < s.height) (l : Layer)
    (x y : Short) (color : Byte) (flipX flipY : Bool) (k : Layer) :
    (s.fill l x y color flipX flipY).ink? k X Y =
      if k = l ∧ Filled x flipX X ∧ Filled y flipY Y then some (.ofByte color)
      else s.ink? k X Y := by
  obtain ⟨old, hold⟩ := hs.exists_ink? hX hY k
  rw [ink?_fill, hold, Option.map_some]

theorem paints_iff (hs : s.WellFormed) (hX : X < s.width) (hY : Y < s.height) (l : Layer)
    (x y : Short) (flips : Bool × Bool) :
    s.Paints l x y flips X Y ↔ flips = (decide (X < x), decide (Y < y)) := by
  obtain ⟨flipX, flipY⟩ := flips
  rw [Prod.mk.injEq, ← filled_iff_eq, ← filled_iff_eq]
  unfold Paints
  constructor
  · intro h
    refine Decidable.byContradiction fun hnot => ?_
    -- a cell that is left alone has one color, and two fills cannot both have found their own
    have hkept (color : Byte) : s.ink? l X Y = some (.ofByte color) := by
      have hcolor := h color
      rwa [ink?_fill_of_lt hs hX hY, if_neg fun h => hnot h.2] at hcolor
    have hsame : some (Ink.ofByte 0) = some (Ink.ofByte 1) := (hkept 0).symm.trans (hkept 1)
    exact absurd hsame (by decide)
  · intro h color
    rw [ink?_fill_of_lt hs hX hY, if_pos ⟨rfl, h⟩]

/--
A fill sets the cells of its rectangle that are on the screen to the low two
bits of the color, and no others on either layer.  Of the four fills from one
point, on the screen or off it, just one paints any given cell.
-/
theorem fill_exact (hs : s.WellFormed) (l : Layer) (x y : Short) :
    (∀ (color : Byte) (flipX flipY : Bool),
      let t := s.fill l x y color flipX flipY
      ∃ ink : Ink, ink.val = (color &&& 3).toNat ∧ t.width = s.width ∧ t.height = s.height ∧
        (∀ k, (t.layer k).size = (s.layer k).size) ∧
        ∀ k X Y, X < s.width → Y < s.height → t.ink? k X Y =
          if k = l ∧ (if flipX then X < x else x ≤ X) ∧ (if flipY then Y < y else y ≤ Y) then
            some ink
          else s.ink? k X Y) ∧
    ∀ X Y, X < s.width → Y < s.height → ∃! flips, s.Paints l x y flips X Y := by
  constructor
  · intro color flipX flipY t
    have hdrawn : DrawnOn l s t := drawnOn_fill ..
    refine ⟨.ofByte color, Ink.val_ofByte color, hdrawn.width, hdrawn.height, hdrawn.size_layer, ?_⟩
    intro k X Y hX hY
    exact ink?_fill_of_lt hs hX hY l x y color flipX flipY k
  · intro X Y hX hY
    refine ⟨(decide (X < x), decide (Y < y)), ?_, ?_⟩
    · exact (paints_iff hs hX hY l x y _).mpr rfl
    · intro flips hpaints
      exact (paints_iff hs hX hY l x y flips).mp hpaints

theorem fill_exact_below :
    (ofSize 16 8).WellFormed ∧
      ((ofSize 16 8).fill .background 10 0xffff 6 false true).ink? .background 10 7 = some 2 ∧
      ((ofSize 16 8).fill .background 10 0xffff 6 false true).ink? .background 9 7 = some 0 ∧
      ((ofSize 16 8).fill .background 10 0xffff 6 false true).ink? .foreground 10 7 = some 0 ∧
      ∃! flips, (ofSize 16 8).Paints .background 10 0xffff flips 15 0 := by
  have hs := WellFormed.ofSize 16 8
  obtain ⟨hfill, hunique⟩ := fill_exact hs .background 10 0xffff
  obtain ⟨ink, hink, -, -, -, hcells⟩ := hfill 6 false true
  obtain rfl : ink = 2 := Fin.ext hink
  refine ⟨hs, ?_, ?_, ?_, hunique 15 0 (by decide) (by decide)⟩
  · exact hcells .background 10 7 (by decide) (by decide)
  · exact (hcells .background 9 7 (by decide) (by decide)).trans (by decide +kernel)
  · exact (hcells .foreground 10 7 (by decide) (by decide)).trans (by decide +kernel)

end Screen

end StackComputer
