import StackComputer.Memory.Ram
import StackComputer.Screen.Basic

/-!
Sprites: tiles of eight by eight pixels, read from memory and drawn in runs.

A tile has one bit plane or two, each of eight bytes, one byte a row with the
leftmost pixel in the high bit.  Positions and addresses wrap around.
-/

namespace StackComputer

/-- The pixels of a tile by column and row, both below 8. -/
abbrev Tile := Nat → Nat → Ink

namespace Tile

def ofPlanes (low high : Nat → Byte) : Tile := fun column row =>
  match (low row).toNat.testBit (7 - column), (high row).toNat.testBit (7 - column) with
  | false, false => 0
  | true, false => 1
  | false, true => 2
  | true, true => 3

def ofRam (ram : Ram) (a : Short) (twoPlanes : Bool) : Tile :=
  ofPlanes (fun row => ram.read (a + .ofNat row))
    (fun row => if twoPlanes then ram.read (a + 8 + .ofNat row) else 0)

end Tile

structure Placement where
  x : Short
  y : Short
  color : Byte
  flipX : Bool
  flipY : Bool
  deriving DecidableEq, Repr

namespace Screen

def pixelOffset (flip : Bool) (k : Nat) : Short :=
  .ofNat (if flip then 7 - k else k)

def drawPixel (width height : Short) (tile : Tile) (p : Placement) (column row : Nat)
    (cells : Array Ink) : Array Ink :=
  match Blend.ink? p.color (tile column row) with
  | none => cells
  | some ink =>
      let x := p.x + pixelOffset p.flipX column
      let y := p.y + pixelOffset p.flipY row
      if x < width ∧ y < height then
        cells.setIfInBounds (Grid.index width.toNat x.toNat y.toNat) ink
      else cells

def drawPixels (width height : Short) (tile : Tile) (p : Placement) (cells : Array Ink) :
    Array Ink :=
  (List.range 64).foldl (fun cells k => drawPixel width height tile p (k % 8) (k / 8) cells) cells

def drawTile (s : Screen) (l : Layer) (tile : Tile) (p : Placement) : Screen :=
  let width := s.width
  let height := s.height
  s.mapLayer l (drawPixels width height tile p)

end Screen

/-- A run of tiles on one layer; `extra` counts the tiles after the first. -/
structure SpriteRun where
  layer : Layer
  source : Short
  x : Short
  y : Short
  color : Byte
  flipX : Bool
  flipY : Bool
  twoPlanes : Bool
  extra : Byte
  autoX : Bool
  autoY : Bool
  autoSource : Bool
  deriving DecidableEq, Repr

namespace SpriteRun

def tileStep (flip : Bool) : Short :=
  if flip then 0 - 8 else 8

/-- Under `autoY` the tiles of a run lie side by side, and the next run starts below. -/
def stepX (b : SpriteRun) : Short :=
  if b.autoY then tileStep b.flipX else 0

/-- Under `autoX` the tiles of a run lie one below the other, and the next run starts beside. -/
def stepY (b : SpriteRun) : Short :=
  if b.autoX then tileStep b.flipY else 0

def tileSize (b : SpriteRun) : Short :=
  if b.twoPlanes then 16 else 8

def stepSource (b : SpriteRun) : Short :=
  if b.autoSource then b.tileSize else 0

def sourceAt (b : SpriteRun) (i : Nat) : Short :=
  b.source + b.stepSource * .ofNat i

def placementAt (b : SpriteRun) (i : Nat) : Placement :=
  ⟨b.x + b.stepX * .ofNat i, b.y + b.stepY * .ofNat i, b.color, b.flipX, b.flipY⟩

def sourceEnd (b : SpriteRun) : Short :=
  b.sourceAt (b.extra.toNat + 1)

/-- The span of a run that starts at `start`; a backward run ends at its first tile. -/
def runSpan (start step : Short) (extra : Byte) (backward : Bool) : Span :=
  let last := start + step * extra.toUInt16
  if backward then ⟨last, start + 8⟩ else ⟨start, last + 8⟩

def rect (b : SpriteRun) : Rect :=
  ⟨runSpan b.x b.stepX b.extra (b.flipX && b.autoY),
    runSpan b.y b.stepY b.extra (b.flipY && b.autoX)⟩

end SpriteRun

namespace Screen

def drawTiles (s : Screen) (ram : Ram) (b : SpriteRun) : Screen :=
  (List.range (b.extra.toNat + 1)).foldl
    (fun s i => s.drawTile b.layer (.ofRam ram (b.sourceAt i) b.twoPlanes) (b.placementAt i)) s

def drawRun (s : Screen) (ram : Ram) (b : SpriteRun) : Screen :=
  (s.drawTiles ram b).mark b.rect

end Screen

end StackComputer
