import StackComputer.Proofs.Screen.Cells

/-!
# What drawing leaves alone

A pixel, a fill and a run of sprites come to the same: the inks of one layer
are changed, as many as they are, and a rectangle is marked.
-/

namespace StackComputer.Screen

/-- `t` is `s` with other inks on layer `l` and with a rectangle marked. -/
def DrawnOn (l : Layer) (s t : Screen) : Prop :=
  ∃ (f : Array Ink → Array Ink) (r : Rect), (∀ cells, (f cells).size = cells.size) ∧
    t = (s.mapLayer l f).mark r

theorem mapLayer_id (s : Screen) (l : Layer) : s.mapLayer l id = s := by
  cases l <;> cases s <;> rfl

theorem mapLayer_mapLayer (s : Screen) (l : Layer) (f g : Array Ink → Array Ink) :
    (s.mapLayer l f).mapLayer l g = s.mapLayer l (g ∘ f) := by
  cases l <;> rfl

@[simp] theorem resized_mapLayer (s : Screen) (l : Layer) (f : Array Ink → Array Ink) :
    (s.mapLayer l f).resized = s.resized := by
  cases l <;> rfl

@[simp] theorem resized_mark (s : Screen) (r : Rect) : (s.mark r).resized = s.resized := by
  rw [mark_eq]

namespace DrawnOn

variable {l : Layer} {s t : Screen}

theorem width (h : DrawnOn l s t) : t.width = s.width := by
  obtain ⟨f, r, -, rfl⟩ := h
  simp

theorem height (h : DrawnOn l s t) : t.height = s.height := by
  obtain ⟨f, r, -, rfl⟩ := h
  simp

theorem frame (h : DrawnOn l s t) : t.frame = s.frame := by
  obtain ⟨f, r, -, rfl⟩ := h
  simp

theorem palette (h : DrawnOn l s t) : t.palette = s.palette := by
  obtain ⟨f, r, -, rfl⟩ := h
  simp

theorem resized (h : DrawnOn l s t) : t.resized = s.resized := by
  obtain ⟨f, r, -, rfl⟩ := h
  simp

theorem layer_of_ne (h : DrawnOn l s t) {k : Layer} (hk : k ≠ l) : t.layer k = s.layer k := by
  obtain ⟨f, r, -, rfl⟩ := h
  rw [layer_mark, layer_mapLayer_ne s hk.symm]

theorem size_layer (h : DrawnOn l s t) (k : Layer) : (t.layer k).size = (s.layer k).size := by
  by_cases hk : k = l
  · obtain ⟨f, r, hf, rfl⟩ := h
    rw [layer_mark, hk, layer_mapLayer_self, hf]
  · rw [h.layer_of_ne hk]

end DrawnOn

theorem drawnOn_plot (s : Screen) (l : Layer) (x y : Short) (color : Byte) :
    DrawnOn l s (s.plot l x y color) := by
  unfold plot
  split
  · exact ⟨_, _, fun _ => Array.size_setIfInBounds, rfl⟩
  · exact ⟨id, _, fun _ => rfl, by rw [mapLayer_id]⟩

theorem drawnOn_fill (s : Screen) (l : Layer) (x y : Short) (color : Byte) (flipX flipY : Bool) :
    DrawnOn l s (s.fill l x y color flipX flipY) :=
  ⟨_, _, fun cells => Grid.size_paintRows _ _ _ _ _ _ cells, rfl⟩

def paintTiles (width height : Short) (ram : Ram) (b : SpriteRun) (cells : Array Ink) : Array Ink :=
  (List.range (b.extra.toNat + 1)).foldl
    (fun cells i =>
      drawPixels width height (.ofRam ram (b.sourceAt i) b.twoPlanes) (b.placementAt i) cells)
    cells

theorem size_paintTiles (width height : Short) (ram : Ram) (b : SpriteRun) (cells : Array Ink) :
    (paintTiles width height ram b cells).size = cells.size := by
  unfold paintTiles
  generalize List.range (b.extra.toNat + 1) = tiles
  induction tiles generalizing cells with
  | nil => rfl
  | cons i tiles ih => rw [List.foldl_cons, ih, size_drawPixels]

theorem drawTiles_eq (s : Screen) (ram : Ram) (b : SpriteRun) :
    s.drawTiles ram b = s.mapLayer b.layer (paintTiles s.width s.height ram b) := by
  unfold drawTiles paintTiles
  generalize List.range (b.extra.toNat + 1) = tiles
  induction tiles generalizing s with
  | nil => exact (s.mapLayer_id b.layer).symm
  | cons i tiles ih =>
      rw [List.foldl_cons, ih, drawTile, mapLayer_mapLayer, width_mapLayer, height_mapLayer]
      rfl

theorem drawnOn_drawRun (s : Screen) (ram : Ram) (b : SpriteRun) :
    DrawnOn b.layer s (s.drawRun ram b) :=
  ⟨_, b.rect, size_paintTiles _ _ _ _, by rw [drawRun, drawTiles_eq]⟩

end StackComputer.Screen
