import StackComputer.Proofs.Host.Confinement
import StackComputer.Proofs.Screen.Marked
import StackComputer.Proofs.Screen.Tiles

/-!
# Sprite writes in a row

A write to the sprite port draws a run of tiles and moves the position and the
address on, so the same byte written again draws the next run.  The axes are
crossed: what moves the tiles of a run down moves the next run sideways.  In
this way the writes lay out a grid of tiles.
-/

namespace StackComputer

theorem Ports.readShort_writeShort_ne (p : Ports) {i j : Byte} (v : Short)
    (h : (i ≠ j ∧ i + 1 ≠ j) ∧ i ≠ j + 1 ∧ i + 1 ≠ j + 1) :
    (p.writeShort i v).readShort j = p.readShort j := by
  obtain ⟨⟨hhh, hlh⟩, hhl, hll⟩ := h
  rw [readShort, writeShort, read_write_ne _ _ hlh, read_write_ne _ _ hhh, read_write_ne _ _ hll,
    read_write_ne _ _ hhl, readShort]

theorem Ports.readShort_write_ne (p : Ports) {i j : Byte} (v : Byte) (h : i ≠ j ∧ i ≠ j + 1) :
    (p.write i v).readShort j = p.readShort j := by
  rw [readShort, read_write_ne _ _ h.1, read_write_ne _ _ h.2, readShort]

namespace SpriteRun

/-! ## The grid -/

section

variable (p : Ports) (v : Byte)

def rowLength : Nat :=
  (p.read Port.auto).toNat / 16 + 1

def startX (k : Nat) : Short :=
  p.readShort Port.x + .ofNat k * if (p.read Port.auto).bit 0 then tileStep (v.bit 4) else 0

def startY (k : Nat) : Short :=
  p.readShort Port.y + .ofNat k * if (p.read Port.auto).bit 1 then tileStep (v.bit 5) else 0

def tileSource (n : Nat) : Short :=
  p.readShort Port.source +
    .ofNat n * if (p.read Port.auto).bit 2 then (if v.bit 7 then 16 else 8) else 0

/-- Tile `i` of write number `k`, if `v` is written to the sprite port again and again. -/
def gridTile (k i : Nat) : SpriteRun where
  layer := .ofBit (v.bit 6)
  source := tileSource p v (k * rowLength p + i)
  x := startX p v k + .ofNat i * if (p.read Port.auto).bit 1 then tileStep (v.bit 4) else 0
  y := startY p v k + .ofNat i * if (p.read Port.auto).bit 0 then tileStep (v.bit 5) else 0
  color := v % 16
  flipX := v.bit 4
  flipY := v.bit 5
  twoPlanes := v.bit 7
  extra := 0
  autoX := false
  autoY := false
  autoSource := false

def grid (m : Nat) : List SpriteRun :=
  (List.range m).flatMap fun k => (List.range (rowLength p)).map (gridTile p v k)

theorem grid_succ (m : Nat) :
    grid p v (m + 1) = grid p v m ++ (List.range (rowLength p)).map (gridTile p v m) := by
  rw [grid, List.range_succ, List.flatMap_append, List.flatMap_singleton, grid]

theorem startX_succ (k : Nat) : startX p v (k + 1) =
    startX p v k + if (p.read Port.auto).bit 0 then tileStep (v.bit 4) else 0 := by
  rw [startX, startX, UInt16.ofNat_add]
  grind

theorem startY_succ (k : Nat) : startY p v (k + 1) =
    startY p v k + if (p.read Port.auto).bit 1 then tileStep (v.bit 5) else 0 := by
  rw [startY, startY, UInt16.ofNat_add]
  grind

theorem tileSource_add (n i : Nat) : tileSource p v (n + i) = tileSource p v n +
    (if (p.read Port.auto).bit 2 then (if v.bit 7 then 16 else 8) else 0) * .ofNat i := by
  rw [tileSource, tileSource, UInt16.ofNat_add]
  grind

end

/-! ## One write -/

def written (p : Ports) (v : Byte) : SpriteRun where
  layer := .ofBit (v.bit 6)
  source := p.readShort Port.source
  x := p.readShort Port.x
  y := p.readShort Port.y
  color := v % 16
  flipX := v.bit 4
  flipY := v.bit 5
  twoPlanes := v.bit 7
  extra := p.read Port.auto / 16
  autoX := (p.read Port.auto).bit 0
  autoY := (p.read Port.auto).bit 1
  autoSource := (p.read Port.auto).bit 2

theorem ofPorts_write (p : Ports) (v : Byte) : ofPorts (p.write Port.sprite v) = written p v := by
  have hauto : (p.write Port.sprite v).read Port.auto = p.read Port.auto :=
    Ports.read_write_ne _ _ (by decide)
  simp (disch := decide) only [ofPorts, Ports.read_write_self, hauto, Ports.readShort_write_ne,
    written]

theorem extra_written (p : Ports) (v : Byte) : (written p v).extra.toNat + 1 = rowLength p := by
  change (p.read Port.auto / 16).toNat + 1 = _
  rw [UInt8.toNat_div]
  rfl

theorem readShort_advance (b : SpriteRun) (p : Ports) :
    (b.advance p).readShort Port.x =
        (if b.autoX then b.x + tileStep b.flipX else p.readShort Port.x) ∧
      (b.advance p).readShort Port.y =
        (if b.autoY then b.y + tileStep b.flipY else p.readShort Port.y) ∧
      (b.advance p).readShort Port.source =
        if b.autoSource then b.sourceEnd else p.readShort Port.source := by
  unfold advance
  cases b.autoX <;> cases b.autoY <;> cases b.autoSource <;>
    simp (disch := decide) [Ports.readShort_writeShort_ne, Ports.readShort_writeShort]

variable {p q : Ports} {v : Byte} {k : Nat}

/-- The ports `q` are those of `p` after `k` writes. -/
structure StartsAt (p : Ports) (v : Byte) (k : Nat) (q : Ports) : Prop where
  auto : q.read Port.auto = p.read Port.auto
  x : q.readShort Port.x = startX p v k
  y : q.readShort Port.y = startY p v k
  source : q.readShort Port.source = tileSource p v (k * rowLength p)

theorem startsAt_zero (p : Ports) (v : Byte) : StartsAt p v 0 p := by
  have hnone (step : Short) : .ofNat 0 * step = 0 := UInt16.zero_mul
  refine ⟨rfl, ?_, ?_, ?_⟩
  · rw [startX, hnone, UInt16.add_zero]
  · rw [startY, hnone, UInt16.add_zero]
  · rw [tileSource, Nat.zero_mul, hnone, UInt16.add_zero]

theorem StartsAt.rowLength_eq (h : StartsAt p v k q) : rowLength q = rowLength p := by
  rw [rowLength, h.auto, rowLength]

theorem StartsAt.single_written (h : StartsAt p v k q) (i : Nat) :
    (written q v).single i = gridTile p v k i := by
  simp only [single, written, sourceAt, placementAt, stepX, stepY, stepSource, tileSize, h.auto,
    h.x, h.y, h.source, gridTile, tileSource_add, UInt16.mul_comm (UInt16.ofNat i)]

theorem StartsAt.succ (h : StartsAt p v k q) :
    StartsAt p v (k + 1) ((written q v).advance (q.write Port.sprite v)) := by
  obtain ⟨hx, hy, hsource⟩ := readShort_advance (written q v) (q.write Port.sprite v)
  simp (disch := decide) only [Ports.readShort_write_ne, h.x, h.y, h.source] at hx hy hsource
  have hstay (start step : Short) (moves : Bool) :
      (if moves then start + step else start) = start + if moves then step else 0 := by
    cases moves
    · exact (UInt16.add_zero start).symm
    · rfl
  refine ⟨?_, ?_, ?_, ?_⟩
  · have hstays : Port.isMoved (q.read Port.auto) Port.auto = false :=
      Port.isMoved_of_not_isPosition _ (by decide)
    have hauto := read_advance hstays (b := written q v) rfl rfl rfl
    rw [hauto, Ports.read_write_ne _ _ (by decide), h.auto]
  · rw [hx, startX_succ, ← hstay, ← h.x, ← h.auto]
    rfl
  · rw [hy, startY_succ, ← hstay, ← h.y, ← h.auto]
    rfl
  · have hend : (written q v).sourceEnd = (written q v).sourceAt (rowLength p) := by
      rw [sourceEnd, extra_written, h.rowLength_eq]
    have hat (n : Nat) : (written q v).sourceAt n = q.readShort Port.source +
        (if (q.read Port.auto).bit 2 then (if v.bit 7 then 16 else 8) else 0) * .ofNat n := rfl
    have hmoves : (written q v).autoSource = (q.read Port.auto).bit 2 := rfl
    rw [hsource, Nat.succ_mul, tileSource_add, hend, hat, hmoves, ← h.source, ← h.auto]
    cases (q.read Port.auto).bit 2
    · exact (UInt16.add_eq_left.mpr UInt16.zero_mul).symm
    · rfl

end SpriteRun

/-! ## All writes -/

namespace Screen

variable {s : Screen} {x y : Short}

theorem isPendingAt_drawRun_of_isPendingAt (h : s.IsPendingAt x y) (ram : Ram) (b : SpriteRun) :
    (s.drawRun ram b).IsPendingAt x y := by
  rw [IsPendingAt, pending_drawRun]
  exact isPendingAt_mark_of_isPendingAt h b.rect

theorem isPendingAt_drawRun (hsize : IsSize s.width s.height) (ram : Ram) {b : SpriteRun} {i : Nat}
    (hi : i ≤ b.extra.toNat) (hx : x < s.width) (hy : y < s.height)
    (hcx : x - (b.single i).x < 8) (hcy : y - (b.single i).y < 8) :
    (s.drawRun ram b).IsPendingAt x y := by
  obtain ⟨hwidth, hheight⟩ := hsize.le
  obtain ⟨r, hclip, hr⟩ := b.clip_rect_contains hx hy (by omega) (by omega) hi hcx hcy
  rw [IsPendingAt, pending_drawRun]
  exact isPendingAt_mark hclip hr

end Screen

namespace Computer

variable {c d : Computer} {v : Byte} {m : Nat}

theorem output_sprite (hmask : c.machine.outputs.test Port.sprite = true) :
    c.output Peripherals.device Port.sprite v =
      ⟨{ c.machine with ports :=
          (SpriteRun.written c.machine.ports v).advance (c.machine.ports.write Port.sprite v) },
        { c.device with screen :=
          c.device.screen.drawRun c.machine.ram (.written c.machine.ports v) }⟩ := by
  rw [output_of_test hmask, Peripherals.output_screen (by decide),
    Screen.outputNotice?_eq_none (by decide), ← SpriteRun.ofPorts_write]
  rfl

/-- `d` is what `m` writes of `v` to the sprite port leave of `c`. -/
structure GridLaid (c : Computer) (v : Byte) (m : Nat) (d : Computer) : Prop where
  ram : d.machine.ram = c.machine.ram
  outputs : d.machine.outputs = c.machine.outputs
  ports : SpriteRun.StartsAt c.machine.ports v m d.machine.ports
  dimensions : d.device.screen.dimensions = c.device.screen.dimensions
  inks : Screen.SameInks d.device.screen
    (c.device.screen.drawRuns c.machine.ram (SpriteRun.grid c.machine.ports v m))
  pending : ∀ tile ∈ SpriteRun.grid c.machine.ports v m, ∀ x y,
    x < d.device.screen.width → y < d.device.screen.height → x - tile.x < 8 → y - tile.y < 8 →
    d.device.screen.IsPendingAt x y

theorem gridLaid_zero (c : Computer) (v : Byte) : GridLaid c v 0 c where
  ram := rfl
  outputs := rfl
  ports := SpriteRun.startsAt_zero c.machine.ports v
  dimensions := rfl
  inks := Screen.SameInks.refl c.device.screen
  pending := by
    intro tile htile
    contradiction

theorem GridLaid.succ (h : GridLaid c v m d)
    (hmask : c.machine.outputs.test Port.sprite = true)
    (hsize : Screen.IsSize c.device.screen.width c.device.screen.height) :
    GridLaid c v (m + 1) (d.output Peripherals.device Port.sprite v) := by
  let b := SpriteRun.written d.machine.ports v
  have hrow : (List.range (b.extra.toNat + 1)).map b.single =
      (List.range (SpriteRun.rowLength c.machine.ports)).map
        (SpriteRun.gridTile c.machine.ports v m) := by
    rw [SpriteRun.extra_written, h.ports.rowLength_eq]
    exact List.map_congr_left fun i _ => h.ports.single_written i
  have hdrawn : Screen.DrawnOn b.layer d.device.screen
      (d.device.screen.drawRun d.machine.ram b) := Screen.drawnOn_drawRun ..
  obtain ⟨hwidth, hheight⟩ := Prod.mk.inj h.dimensions
  rw [output_sprite (h.outputs ▸ hmask)]
  refine ⟨h.ram, h.outputs, h.ports.succ, hdrawn.dimensions.trans h.dimensions, ?_, ?_⟩
  · rw [SpriteRun.grid_succ, Screen.drawRuns_append, ← hrow, h.ram]
    exact h.inks.drawRun c.machine.ram b
  · intro tile htile x y hx hy hcx hcy
    change x < (d.device.screen.drawRun d.machine.ram b).width at hx
    change y < (d.device.screen.drawRun d.machine.ram b).height at hy
    rw [hdrawn.width] at hx
    rw [hdrawn.height] at hy
    rw [SpriteRun.grid_succ, ← hrow, List.mem_append] at htile
    rcases htile with hold | hnew
    · exact Screen.isPendingAt_drawRun_of_isPendingAt (h.pending tile hold x y hx hy hcx hcy) ..
    · obtain ⟨i, hi, rfl⟩ := List.mem_map.mp hnew
      apply Screen.isPendingAt_drawRun _ _ (Nat.lt_succ_iff.mp (List.mem_range.mp hi)) hx hy hcx hcy
      rwa [hwidth, hheight]

theorem gridLaid (hmask : c.machine.outputs.test Port.sprite = true)
    (hsize : Screen.IsSize c.device.screen.width c.device.screen.height) (v : Byte) (m : Nat) :
    GridLaid c v m (Nat.repeat (Config.output Peripherals.device Port.sprite v) m c) := by
  induction m with
  | zero => exact gridLaid_zero c v
  | succ m ih => exact ih.succ hmask hsize

/--
After `m` writes of the same byte to the sprite port the inks are those that the
tiles of the grid leave, drawn one at a time and in order.  The position has
moved on by one tile for each write, the address by one for each tile, as far as
the auto port asks for it, and every cell of a tile that is on the screen is to
be rendered.
-/
theorem sprite_writes_lay_grid (c : Computer) (v : Byte) (m : Nat)
    (hmask : c.machine.outputs.test Port.sprite = true)
    (hsize : Screen.IsSize c.device.screen.width c.device.screen.height) :
    let p := c.machine.ports
    let tiles := SpriteRun.grid p v m
    let s := c.device.screen
    let d := Nat.repeat (Config.output Peripherals.device Port.sprite v) m c
    (∀ l, d.device.screen.layer l = (s.drawRuns c.machine.ram tiles).layer l) ∧
    d.machine.ports.readShort Port.x = SpriteRun.startX p v m ∧
    d.machine.ports.readShort Port.y = SpriteRun.startY p v m ∧
    d.machine.ports.readShort Port.source =
      SpriteRun.tileSource p v (m * SpriteRun.rowLength p) ∧
    ∀ tile ∈ tiles, ∀ x y, x < s.width → y < s.height → x - tile.x < 8 → y - tile.y < 8 →
      d.device.screen.IsPendingAt x y := by
  intro p tiles s d
  have hlaid : GridLaid c v m d := gridLaid hmask hsize v m
  obtain ⟨hwidth, hheight⟩ := Prod.mk.inj hlaid.dimensions
  refine ⟨hlaid.inks.layer, hlaid.ports.x, hlaid.ports.y, hlaid.ports.source, ?_⟩
  intro tile htile x y hx hy
  exact hlaid.pending tile htile x y (hwidth ▸ hx) (hheight ▸ hy)

theorem sprite_writes_lay_grid_mirrored :
    ∃ c : Computer, c.machine.outputs.test Port.sprite = true ∧
      Screen.IsSize c.device.screen.width c.device.screen.height ∧
      ¬c.device.screen.IsPendingAt 3 12 ∧
      let d := Nat.repeat (Config.output Peripherals.device Port.sprite 0x91) 2 c
      d.machine.ports.readShort Port.x = 0xfff8 ∧ d.machine.ports.readShort Port.y = 0x10 ∧
        d.machine.ports.readShort Port.source = 0x30 ∧ d.device.screen.IsPendingAt 3 12 := by
  let p := ((Ports.zero.write Port.auto 0x17).writeShort Port.x 8).writeShort Port.source 0xfff0
  let screen := (Screen.ofSize 16 16).render
  obtain ⟨c, hports, houtputs, hscreen⟩ : ∃ c : Computer, c.machine.ports = p ∧
      c.machine.outputs = .all ∧ c.device.screen = screen :=
    ⟨⟨{ Machine.fresh with ports := p, outputs := .all }, { Peripherals.fresh with screen }⟩,
      rfl, rfl, rfl⟩
  have hmask : c.machine.outputs.test Port.sprite = true := by
    rw [houtputs, Mask.test_all]
  have hsize : Screen.IsSize c.device.screen.width c.device.screen.height := by
    rw [hscreen]
    exact (Screen.WellFormed.ofSize 16 16).render.isSize
  obtain ⟨-, hx, hy, hsource, hpending⟩ := sprite_writes_lay_grid c 0x91 2 hmask hsize
  rw [hports] at hx hy hsource hpending
  rw [hscreen] at hpending
  have hclean : ¬screen.IsPendingAt 3 12 := nofun
  refine ⟨c, hmask, hsize, hscreen ▸ hclean, hx.trans ?_, hy.trans ?_, hsource.trans ?_, ?_⟩
  · decide +kernel
  · decide +kernel
  · decide +kernel
  · have hrow : 1 < SpriteRun.rowLength p := by decide +kernel
    have htile : SpriteRun.gridTile p 0x91 0 1 ∈ SpriteRun.grid p 0x91 2 :=
      List.mem_flatMap.mpr ⟨0, List.mem_range.mpr Nat.zero_lt_two,
        List.mem_map.mpr ⟨1, List.mem_range.mpr hrow, rfl⟩⟩
    apply hpending _ htile <;> decide +kernel

end Computer

end StackComputer
