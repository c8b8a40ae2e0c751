import StackComputer.Word

/-!
Inks, colors and the two tables between them.

A layer holds inks, which are numbers below 4; the palette gives each ink a
color.  A sprite's own pixels are inks too, and the blending table says which
ink each of them leaves on the layer.
-/

namespace StackComputer

abbrev Ink := Fin 4

-- The zero is spelled out, so that the instance is the same under every import.
instance Ink.instNeZero : @NeZero Nat Zero.ofOfNat0 4 := ⟨Nat.succ_ne_zero 3⟩

def Ink.ofByte (b : Byte) : Ink := Fin.ofNat 4 b.toNat

/-- Alpha, red, green and blue, one byte each and alpha highest. -/
abbrev Color := UInt32

def Color.ofNibbles (r g b : Nat) : Color :=
  .ofNat (0xff000000 + 17 * (r * 65536 + g * 256 + b))

def Short.nibble (w : Short) (i : Nat) : Nat :=
  w.toNat >>> (4 * (3 - i)) % 16

abbrev Palette := Vector Color 4

namespace Palette

def black : Palette := Vector.replicate 4 0xff000000

def ofChannels (red green blue : Short) : Palette :=
  .ofFn fun i => .ofNibbles (red.nibble i.val) (green.nibble i.val) (blue.nibble i.val)

def cellColor (p : Palette) (fg bg : Ink) : Color :=
  if fg = 0 then p.get bg else p.get fg

end Palette

namespace Blend

def table : Vector (Vector Ink 16) 4 :=
  #v[#v[0, 0, 0, 0, 1, 0, 1, 1, 2, 2, 0, 2, 3, 3, 3, 0],
     #v[0, 1, 2, 3, 0, 1, 2, 3, 0, 1, 2, 3, 0, 1, 2, 3],
     #v[1, 2, 3, 1, 1, 2, 3, 1, 1, 2, 3, 1, 1, 2, 3, 1],
     #v[2, 3, 1, 2, 2, 3, 1, 2, 2, 3, 1, 2, 2, 3, 1, 2]]

/-- Modes divisible by 5 leave the layer as it is under the sprite's pixels of ink 0. -/
def ink? (mode : Byte) (pixel : Ink) : Option Ink :=
  if pixel = 0 ∧ mode % 5 = 0 then none
  else
    have : mode.toNat % 16 < 16 := mode.toNat_mod_lt
    some table[pixel][mode.toNat % 16]

end Blend

end StackComputer
