import StackComputer.Notice
import StackComputer.Port
import StackComputer.Screen.Sprite

/-!
The screen as seen from its ports.

Writing the low byte of the width or the height asks for a size, and writing
the pixel or the sprite port draws with what the other ports hold.  The size
ports read as the size in force, whatever was written to them.
-/

namespace StackComputer

def Layer.ofBit (b : Bool) : Layer :=
  if b then .foreground else .background

def SpriteRun.ofPorts (p : Ports) : SpriteRun :=
  let sprite := p.read Port.sprite
  let auto := p.read Port.auto
  { layer := .ofBit (sprite.bit 6)
    source := p.readShort Port.source
    x := p.readShort Port.x
    y := p.readShort Port.y
    color := sprite % 16
    flipX := sprite.bit 4
    flipY := sprite.bit 5
    twoPlanes := sprite.bit 7
    extra := auto / 16
    autoX := auto.bit 0
    autoY := auto.bit 1
    autoSource := auto.bit 2 }

def SpriteRun.advance (b : SpriteRun) (p : Ports) : Ports :=
  let p := if b.autoX then p.writeShort Port.x (b.x + tileStep b.flipX) else p
  let p := if b.autoY then p.writeShort Port.y (b.y + tileStep b.flipY) else p
  if b.autoSource then p.writeShort Port.source b.sourceEnd else p

namespace Screen

/-- The size that a write to port `i` asks for, if it asks for one. -/
def requestedSize? (s : Screen) (p : Ports) (i : Byte) : Option (Short × Short) :=
  if i = Port.widthLow then some (p.readShort Port.width, s.height)
  else if i = Port.heightLow then some (s.width, p.readShort Port.height)
  else none

def resizeNotice? (s : Screen) (width height : Short) : Option Notice :=
  match s.resizeResult width height with
  | .rejected => some (.invalidSize width height)
  | .unchanged => none
  | .changed => some (.resized width height)

def writePixel (p : Ports) (s : Screen) : Ports × Screen :=
  let v := p.read Port.pixel
  let auto := p.read Port.auto
  let x := p.readShort Port.x
  let y := p.readShort Port.y
  let layer := Layer.ofBit (v.bit 6)
  if v.bit 7 then
    (p, s.fill layer x y v (v.bit 4) (v.bit 5))
  else
    let p := if auto.bit 0 then p.writeShort Port.x (x + 1) else p
    let p := if auto.bit 1 then p.writeShort Port.y (y + 1) else p
    (p, s.plot layer x y v)

def writeSprite (ram : Ram) (p : Ports) (s : Screen) : Ports × Screen :=
  let b := SpriteRun.ofPorts p
  (b.advance p, s.drawRun ram b)

def output (i : Byte) (ram : Ram) (p : Ports) (s : Screen) : Ports × Screen :=
  match s.requestedSize? p i with
  | some (width, height) => (p, s.resize width height)
  | none =>
      if i = Port.pixel then s.writePixel p
      else if i = Port.sprite then s.writeSprite ram p
      else (p, s)

def outputNotice? (i : Byte) (p : Ports) (s : Screen) : Option Notice :=
  match s.requestedSize? p i with
  | some (width, height) => s.resizeNotice? width height
  | none => none

def input (i : Byte) (p : Ports) (s : Screen) : Byte :=
  if i = Port.width then s.width.hi
  else if i = Port.widthLow then s.width.lo
  else if i = Port.height then s.height.hi
  else if i = Port.heightLow then s.height.lo
  else p.read i

end Screen

end StackComputer
