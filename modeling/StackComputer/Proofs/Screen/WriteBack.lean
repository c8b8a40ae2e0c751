import StackComputer.Screen.Control

/-!
# Ports that devices write to

Of all devices only the screen writes to ports.  A pixel or a sprite run moves
the position and the address on, and these lie side by side.
-/

namespace StackComputer

def Port.isPosition (i : Byte) : Bool :=
  x ≤ i && i < source + 2

def Port.autoBit (i : Byte) : Nat :=
  (i - x).toNat / 2

/-- Whether a drawing moves port `i` on, if that is what the auto port holds. -/
def Port.isMoved (auto i : Byte) : Bool :=
  isPosition i && auto.bit (autoBit i)

theorem Port.isMoved_of_not_isPosition (auto : Byte) {i : Byte} (h : isPosition i = false) :
    isMoved auto i = false := by
  rw [isMoved, h, Bool.false_and]

/-- Bits 0 and 2 move the column and the address, and leave the row. -/
example : (List.range 256).filter (fun i => Port.isMoved 0x05 (.ofNat i)) =
    [0x28, 0x29, 0x2c, 0x2d] := by decide +kernel

variable {auto j : Byte}

theorem Ports.read_ite_writeShort (hj : Port.isMoved auto j = false) (p : Ports) {i : Byte}
    {k : Nat} (v : Short) (hi : Port.isPosition i = true ∧ Port.autoBit i = k)
    (hlow : Port.isPosition (i + 1) = true ∧ Port.autoBit (i + 1) = k) :
    (if auto.bit k then p.writeShort i v else p).read j = p.read j := by
  split
  · next hbit =>
      have hne {i : Byte} (hi : Port.isPosition i = true ∧ Port.autoBit i = k) : i ≠ j := by
        rintro rfl
        simp [Port.isMoved, hi, hbit] at hj
      rw [writeShort, read_write_ne _ _ (hne hlow), read_write_ne _ _ (hne hi)]
  · rfl

theorem SpriteRun.read_advance (hj : Port.isMoved auto j = false) {b : SpriteRun}
    (hx : b.autoX = auto.bit 0) (hy : b.autoY = auto.bit 1) (hsource : b.autoSource = auto.bit 2)
    (p : Ports) : (b.advance p).read j = p.read j := by
  rw [advance, hx, hy, hsource]
  simp (disch := decide) only [Ports.read_ite_writeShort hj]

namespace Screen

variable {p : Ports} (hj : Port.isMoved (p.read Port.auto) j = false)
include hj

theorem read_writePixel (s : Screen) : (s.writePixel p).1.read j = p.read j := by
  unfold writePixel
  dsimp only
  split
  · rfl
  · simp (disch := decide) only [Ports.read_ite_writeShort hj]

theorem read_writeSprite (ram : Ram) (s : Screen) : (s.writeSprite ram p).1.read j = p.read j :=
  SpriteRun.read_advance hj rfl rfl rfl p

theorem read_output (i : Byte) (ram : Ram) (s : Screen) :
    (s.output i ram p).1.read j = p.read j := by
  unfold output
  split
  · rfl
  · split
    · exact s.read_writePixel hj
    · split
      · exact s.read_writeSprite hj ram
      · rfl

end Screen

end StackComputer
