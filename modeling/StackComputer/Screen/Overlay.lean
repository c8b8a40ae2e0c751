import StackComputer.Machine.Basic
import StackComputer.Screen.Sprite

/-!
The debugging overlay: both stacks and the start of memory as hexadecimal
digits, drawn over the foreground.

Drawing the overlay marks nothing: it appears when the cells under it are
rendered for some other reason.
-/

namespace StackComputer

namespace Glyph

def rows : Vector (Vector Byte 8) 16 :=
  #v[#v[0x00, 0x7c, 0x82, 0x82, 0x82, 0x82, 0x82, 0x7c],
     #v[0x00, 0x30, 0x10, 0x10, 0x10, 0x10, 0x10, 0x10],
     #v[0x00, 0x7c, 0x82, 0x02, 0x7c, 0x80, 0x80, 0xfe],
     #v[0x00, 0x7c, 0x82, 0x02, 0x1c, 0x02, 0x82, 0x7c],
     #v[0x00, 0x0c, 0x14, 0x24, 0x44, 0x84, 0xfe, 0x04],
     #v[0x00, 0xfe, 0x80, 0x80, 0x7c, 0x02, 0x82, 0x7c],
     #v[0x00, 0x7c, 0x82, 0x80, 0xfc, 0x82, 0x82, 0x7c],
     #v[0x00, 0x7c, 0x82, 0x02, 0x1e, 0x02, 0x02, 0x02],
     #v[0x00, 0x7c, 0x82, 0x82, 0x7c, 0x82, 0x82, 0x7c],
     #v[0x00, 0x7c, 0x82, 0x82, 0x7e, 0x02, 0x82, 0x7c],
     #v[0x00, 0x7c, 0x82, 0x02, 0x7e, 0x82, 0x82, 0x7e],
     #v[0x00, 0xfc, 0x82, 0x82, 0xfc, 0x82, 0x82, 0xfc],
     #v[0x00, 0x7c, 0x82, 0x80, 0x80, 0x80, 0x82, 0x7c],
     #v[0x00, 0xfc, 0x82, 0x82, 0x82, 0x82, 0x82, 0xfc],
     #v[0x00, 0x7c, 0x82, 0x80, 0xf0, 0x80, 0x82, 0x7c],
     #v[0x00, 0x7c, 0x82, 0x80, 0xf0, 0x80, 0x80, 0x80]]

def tile (digit : Nat) : Tile :=
  .ofPlanes (fun row => ((rows[digit]?).bind (·[row]?)).getD 0) (fun _ => 0)

end Glyph

namespace Overlay

structure Entry where
  value : Byte
  x : Short
  y : Short
  color : Byte
  deriving DecidableEq, Repr

/-- A stack is shown in one line, bottom first and three tiles a byte. -/
def stackEntries (bytes : List Byte) (y : Short) (color : Byte) : List Entry :=
  bytes.mapIdx fun i b => ⟨b, .ofNat (i * 24 + 8), y, color⟩

/-- The first 64 bytes of memory in rows of eight; bytes other than 0 stand out. -/
def memoryEntries (ram : Ram) : List Entry :=
  (List.range 64).map fun i =>
    let b := ram.read (.ofNat i)
    ⟨b, .ofNat (i % 8 * 24 + 8), .ofNat (i / 8 * 8 + 8), if b = 0 then 1 else 2⟩

def entries (m : Machine) (height : Short) : List Entry :=
  stackEntries m.wst.data (height - 0x18) 2 ++
    stackEntries m.rst.data (height - 0x10) 3 ++ memoryEntries m.ram

end Overlay

namespace Screen

def drawByte (s : Screen) (e : Overlay.Entry) : Screen :=
  let draw (s : Screen) (digit : Nat) (x : Short) : Screen :=
    s.drawTile .foreground (Glyph.tile digit) ⟨x, e.y, e.color, false, false⟩
  draw (draw s (e.value.toNat / 16) e.x) (e.value.toNat % 16) (e.x + 8)

def drawOverlay (s : Screen) (m : Machine) : Screen :=
  (Overlay.entries m s.height).foldl drawByte s

end Screen

end StackComputer
