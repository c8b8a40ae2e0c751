import StackComputer.Proofs.Safety.Drawing

/-!
# Checked sprites

Tiles are read row by row, from memory or from the table of digits, and drawn
pixel by pixel.  The debugging overlay draws digits only, at positions that are
computed without going around.
-/

namespace StackComputer.Screen.Checked

open StackComputer.Checked

/-! ## Rows of a tile -/

abbrev Rows := Nat → Checked (Byte × Byte)

def rowOfRam (ram : Ram) (a : Short) (twoPlanes : Bool) : Rows := fun row => do
  let offset ← short row
  let low ← Ram.Checked.read ram (a + offset)
  if twoPlanes then do
    let second ← short (offset.toNat + 8)
    let high ← Ram.Checked.read ram (a + second)
    pure (low, high)
  else pure (low, 0)

def rowOfGlyph (digit : Nat) : Rows := fun row => do
  let first ← count (digit * 8)
  range 128 first 128
  let left ← sub 128 first
  range left 0 8
  let glyph ← getAt Glyph.rows digit
  let low ← getAt glyph row
  pure (low, 0)

theorem rowOfRam_eq (ram : Ram) (a : Short) (twoPlanes : Bool) {row : Nat} (hrow : row < 8) :
    rowOfRam ram a twoPlanes row =
      .ok (ram.read (a + .ofNat row),
        if twoPlanes then ram.read (a + 8 + .ofNat row) else 0) := by
  have hoffset : (UInt16.ofNat row).toNat = row := toNat_ofNat (by omega)
  rw [rowOfRam, short_eq (by omega), ok_bind, Ram.Checked.read_eq, ok_bind]
  cases twoPlanes with
  | false => rfl
  | true =>
      have hsecond : a + UInt16.ofNat (row + 8) = a + 8 + UInt16.ofNat row := by
        rw [UInt16.ofNat_add, UInt16.add_comm (.ofNat row), ← UInt16.add_assoc]
        rfl
      rw [if_pos rfl, if_pos rfl, hoffset, short_eq (by omega), ok_bind, Ram.Checked.read_eq,
        hsecond]
      rfl

theorem rowOfGlyph_eq {digit row : Nat} (hdigit : digit < 16) (hrow : row < 8) :
    rowOfGlyph digit row = .ok (((Glyph.rows[digit]?).bind (·[row]?)).getD 0, 0) := by
  rw [rowOfGlyph, count_eq (by omega), ok_bind, range_eq (by omega) (Nat.le_refl _), ok_bind,
    sub_eq (by omega), ok_bind, range_eq (Nat.zero_le _) (by omega), ok_bind,
    getAt_eq _ hdigit, ok_bind, getAt_eq _ hrow, Vector.getElem?_eq_getElem hdigit,
    Option.bind_some, Vector.getElem?_eq_getElem hrow]
  rfl

/-! ## Tiles -/

def pixelOffset (flip : Bool) (k : Nat) : Checked Short := do
  let k ← if flip then sub 7 k else pure k
  short k

def drawPixel (width height : Short) (bytes : Byte × Byte) (p : Placement) (column row : Nat)
    (cells : Array Ink) : Checked (Array Ink) := do
  let down ← pixelOffset p.flipY row
  match Blend.ink? p.color (Tile.ofPlanes (fun _ => bytes.1) (fun _ => bytes.2) column row) with
  | none => pure cells
  | some ink =>
      let across ← pixelOffset p.flipX column
      let x := p.x + across
      let y := p.y + down
      if x < width ∧ y < height then do
        let i ← Grid.Checked.cellIndex width.toNat x.toNat y.toNat
        set cells i ink
      else pure cells

def drawPixels (width height : Short) (rows : Rows) (p : Placement) (cells : Array Ink) :
    Checked (Array Ink) :=
  (List.range 64).foldlM (fun cells k => do
    let bytes ← rows (k / 8)
    drawPixel width height bytes p (k % 8) (k / 8) cells) cells

def drawTile (s : Screen) (l : Layer) (rows : Rows) (p : Placement) : Checked Screen := do
  let cells ← drawPixels s.width s.height rows p (s.layer l)
  pure (s.mapLayer l fun _ => cells)

def drawTiles (s : Screen) (ram : Ram) (b : SpriteRun) : Checked Screen :=
  (List.range (b.extra.toNat + 1)).foldlM
    (fun s i => drawTile s b.layer (rowOfRam ram (b.sourceAt i) b.twoPlanes) (b.placementAt i)) s

def drawRun (s : Screen) (ram : Ram) (b : SpriteRun) : Checked Screen := do
  let s ← drawTiles s ram b
  pure (s.mark b.rect)

theorem pixelOffset_eq (flip : Bool) {k : Nat} (hk : k < 8) :
    pixelOffset flip k = .ok (Screen.pixelOffset flip k) := by
  cases flip with
  | false =>
      exact short_eq (by omega)
  | true =>
      rw [pixelOffset, if_pos rfl, sub_eq (by omega), ok_bind]
      exact short_eq (by omega)

theorem drawPixel_eq {width height : Short} (hfit : width.toNat * height.toNat < 2 ^ 64)
    (low high : Nat → Byte) (p : Placement) {column row : Nat} (hcolumn : column < 8)
    (hrow : row < 8) {cells : Array Ink} (hsize : cells.size = width.toNat * height.toNat) :
    drawPixel width height (low row, high row) p column row cells =
      .ok (Screen.drawPixel width height (Tile.ofPlanes low high) p column row cells) := by
  rw [drawPixel, pixelOffset_eq _ hrow, ok_bind]
  change (match Blend.ink? p.color (Tile.ofPlanes low high column row) with
    | none => _
    | some ink => _) = _
  unfold Screen.drawPixel
  cases Blend.ink? p.color (Tile.ofPlanes low high column row) with
  | none => rfl
  | some ink =>
      dsimp only
      rw [pixelOffset_eq _ hcolumn, ok_bind]
      split
      · next hin =>
          have hlt := Grid.index_lt (UInt16.lt_iff_toNat_lt.mp hin.1)
            (UInt16.lt_iff_toNat_lt.mp hin.2)
          rw [Grid.Checked.cellIndex_eq (Nat.lt_trans hlt hfit), ok_bind, set_eq (by omega)]
      · rfl

theorem drawTile_eq {s : Screen} (hs : s.WellFormed) (l : Layer) {rows : Rows}
    {low high : Nat → Byte} (hrows : ∀ row < 8, rows row = .ok (low row, high row))
    (p : Placement) :
    drawTile s l rows p = .ok (s.drawTile l (Tile.ofPlanes low high) p) := by
  have hpixels : drawPixels s.width s.height rows p (s.layer l) =
      .ok (Screen.drawPixels s.width s.height (Tile.ofPlanes low high) p (s.layer l)) := by
    unfold drawPixels Screen.drawPixels
    refine foldlM_eq (P := fun cells => cells.size = s.width.toNat * s.height.toNat) _ ?_ ?_
      (hs.size_layer l)
    · intro k hk cells hsize
      have hlt := List.mem_range.mp hk
      rw [hrows _ (by omega), ok_bind]
      exact drawPixel_eq hs.count_lt low high p (by omega) (by omega) hsize
    · intro k _ cells hsize
      exact (size_drawPixel _ _ _ _ _ _ _).trans hsize
  rw [drawTile, hpixels, ok_bind,
    mapLayer_const s l (Screen.drawPixels s.width s.height (Tile.ofPlanes low high) p)]
  rfl

theorem drawTiles_eq {s : Screen} (hs : s.WellFormed) (ram : Ram) (b : SpriteRun) :
    drawTiles s ram b = .ok (s.drawTiles ram b) := by
  unfold drawTiles Screen.drawTiles
  refine foldlM_eq (P := WellFormed) _ ?_ ?_ hs
  · intro i _ t ht
    exact drawTile_eq ht b.layer (fun row hrow => rowOfRam_eq ram _ _ hrow) _
  · intro i _ t ht
    exact ht.drawTile _ _ _

theorem drawRun_eq {s : Screen} (hs : s.WellFormed) (ram : Ram) (b : SpriteRun) :
    drawRun s ram b = .ok (s.drawRun ram b) := by
  rw [drawRun, drawTiles_eq hs]
  rfl

/-! ## The overlay -/

def stackEntry (y : Short) (color : Byte) (i : Nat) (b : Byte) : Checked Overlay.Entry := do
  let i ← short i
  let across ← short (i.toNat * 24)
  let x ← short (across.toNat + 8)
  pure ⟨b, x, y, color⟩

def stackEntries (s : Stack) (y : Short) (color : Byte) : Checked (List Overlay.Entry) := do
  let bytes ← Stack.Checked.data s
  bytes.zipIdx.mapM fun (b, i) => stackEntry y color i b

def memoryEntry (ram : Ram) (i : Nat) : Checked Overlay.Entry := do
  let b ← getAt ram.bytes i
  let i ← short i
  let across ← short (i.toNat % 8 * 24)
  let x ← short (across.toNat + 8)
  let down ← short (i.toNat / 8 * 8)
  let y ← short (down.toNat + 8)
  pure ⟨b, x, y, if b = 0 then 1 else 2⟩

def memoryEntries (ram : Ram) : Checked (List Overlay.Entry) := do
  range 65536 0 64
  (List.range 64).mapM (memoryEntry ram)

def drawDigit (s : Screen) (e : Overlay.Entry) (digit k : Nat) : Checked Screen := do
  let offset ← short (k * 8)
  drawTile s .foreground (rowOfGlyph digit) ⟨e.x + offset, e.y, e.color, false, false⟩

def drawByte (s : Screen) (e : Overlay.Entry) : Checked Screen := do
  let s ← drawDigit s e (e.value.toNat / 16) 0
  drawDigit s e (e.value.toNat % 16) 1

def drawOverlay (s : Screen) (m : Machine) : Checked Screen := do
  let working ← stackEntries m.wst (s.height - 0x18) 2
  let returning ← stackEntries m.rst (s.height - 0x10) 3
  let memory ← memoryEntries m.ram
  (working ++ returning ++ memory).foldlM drawByte s

theorem stackEntry_eq (y : Short) (color : Byte) {i : Nat} (hi : i < 255) (b : Byte) :
    stackEntry y color i b = .ok ⟨b, .ofNat (i * 24 + 8), y, color⟩ := by
  have hplace : (UInt16.ofNat i).toNat = i := toNat_ofNat (by omega)
  have hacross : (UInt16.ofNat (i * 24)).toNat = i * 24 := toNat_ofNat (by omega)
  rw [stackEntry, short_eq (by omega), ok_bind, hplace, short_eq (by omega), ok_bind, hacross,
    short_eq (by omega)]
  rfl

theorem stackEntries_eq (s : Stack) (y : Short) (color : Byte) :
    stackEntries s y color = .ok (Overlay.stackEntries s.data y color) := by
  rw [stackEntries, Stack.Checked.data_eq, ok_bind, Overlay.stackEntries,
    List.mapIdx_eq_zipIdx_map]
  refine mapM_eq _ ?_
  rintro ⟨b, i⟩ hmem
  have hi : i < s.data.length := List.snd_lt_of_mem_zipIdx hmem
  have hle := s.height_le
  rw [Stack.length_data] at hi
  exact stackEntry_eq y color (by omega) b

theorem memoryEntry_eq (ram : Ram) {i : Nat} (hi : i < 64) :
    memoryEntry ram i =
      .ok ⟨ram.read (.ofNat i), .ofNat (i % 8 * 24 + 8), .ofNat (i / 8 * 8 + 8),
        if ram.read (.ofNat i) = 0 then 1 else 2⟩ := by
  have hplace : (UInt16.ofNat i).toNat = i := toNat_ofNat (by omega)
  have hacross : (UInt16.ofNat (i % 8 * 24)).toNat = i % 8 * 24 :=
    toNat_ofNat (by omega)
  have hdown : (UInt16.ofNat (i / 8 * 8)).toNat = i / 8 * 8 :=
    toNat_ofNat (by omega)
  have hread : getAt ram.bytes i = .ok (ram.read (.ofNat i)) := by
    rw [← Ram.Checked.read_eq, Ram.Checked.read, hplace]
  rw [memoryEntry, hread, ok_bind, short_eq (by omega), ok_bind, hplace, short_eq (by omega),
    ok_bind, hacross, short_eq (by omega), ok_bind, short_eq (by omega), ok_bind, hdown,
    short_eq (by omega)]
  rfl

theorem memoryEntries_eq (ram : Ram) : memoryEntries ram = .ok (Overlay.memoryEntries ram) := by
  rw [memoryEntries, range_eq (Nat.zero_le _) (by omega), ok_bind]
  refine mapM_eq _ ?_
  intro i hmem
  exact memoryEntry_eq ram (List.mem_range.mp hmem)

theorem drawDigit_eq {s : Screen} (hs : s.WellFormed) (e : Overlay.Entry) {digit k : Nat}
    (hdigit : digit < 16) (hk : k < 2) :
    drawDigit s e digit k = .ok (s.drawTile .foreground (Glyph.tile digit)
      ⟨e.x + .ofNat (k * 8), e.y, e.color, false, false⟩) := by
  rw [drawDigit, short_eq (by omega), ok_bind]
  exact drawTile_eq hs .foreground (fun row hrow => rowOfGlyph_eq hdigit hrow) _

theorem drawByte_eq {s : Screen} (hs : s.WellFormed) (e : Overlay.Entry) :
    drawByte s e = .ok (s.drawByte e) := by
  have hvalue := e.value.toNat_lt
  have hfirst : e.x + UInt16.ofNat (0 * 8) = e.x := UInt16.add_zero e.x
  have hsecond : e.x + UInt16.ofNat (1 * 8) = e.x + 8 := rfl
  rw [drawByte, drawDigit_eq hs e (by omega) (by omega), ok_bind,
    drawDigit_eq (hs.drawTile _ _ _) e (Nat.mod_lt _ (by omega)) (by omega), hfirst, hsecond,
    Screen.drawByte]

theorem drawOverlay_eq {s : Screen} (hs : s.WellFormed) (m : Machine) :
    drawOverlay s m = .ok (s.drawOverlay m) := by
  rw [drawOverlay, stackEntries_eq, ok_bind, stackEntries_eq, ok_bind, memoryEntries_eq, ok_bind]
  refine foldlM_eq (P := WellFormed) _ ?_ ?_ hs
  · intro e _ t ht
    exact drawByte_eq ht e
  · intro e _ t ht
    exact ht.drawByte e

end StackComputer.Screen.Checked
