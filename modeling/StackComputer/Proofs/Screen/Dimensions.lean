import StackComputer.Proofs.Screen.Drawn
import StackComputer.Screen.Control
import StackComputer.Screen.Overlay

/-!
# The dimensions of a screen

A guest learns nothing of the screen but its dimensions, and only a request for
a size changes these.
-/

namespace StackComputer.Screen

def dimensions (s : Screen) : Short × Short :=
  (s.width, s.height)

variable {s t : Screen}

@[simp] theorem dimensions_mark (s : Screen) (r : Rect) :
    (s.mark r).dimensions = s.dimensions := by
  simp [dimensions]

@[simp] theorem dimensions_mapLayer (s : Screen) (l : Layer) (f : Array Ink → Array Ink) :
    (s.mapLayer l f).dimensions = s.dimensions := by
  simp [dimensions]

@[simp] theorem dimensions_markAll (s : Screen) : s.markAll.dimensions = s.dimensions :=
  s.dimensions_mark _

@[simp] theorem dimensions_setPalette (s : Screen) (p : Palette) :
    (s.setPalette p).dimensions = s.dimensions :=
  dimensions_markAll _

theorem DrawnOn.dimensions {l : Layer} (h : DrawnOn l s t) : t.dimensions = s.dimensions :=
  Prod.ext h.width h.height

/-! ## Rendering and the overlay -/

@[simp] theorem dimensions_render (s : Screen) : s.render.dimensions = s.dimensions := rfl

@[simp] theorem palette_render (s : Screen) : s.render.palette = s.palette := rfl

@[simp] theorem resized_render (s : Screen) : s.render.resized = s.resized := rfl

@[simp] theorem layer_render (s : Screen) (l : Layer) : s.render.layer l = s.layer l := by
  cases l <;> rfl

theorem exists_drawByte (s : Screen) (e : Overlay.Entry) :
    ∃ f, s.drawByte e = s.mapLayer .foreground f := by
  simp only [drawByte, drawTile, mapLayer_mapLayer]
  exact ⟨_, rfl⟩

theorem exists_drawOverlay (s : Screen) (m : Machine) :
    ∃ f, s.drawOverlay m = s.mapLayer .foreground f := by
  unfold drawOverlay
  generalize Overlay.entries m s.height = entries
  induction entries generalizing s with
  | nil => exact ⟨id, by cases s; rfl⟩
  | cons e entries ih =>
      obtain ⟨f, hf⟩ := s.exists_drawByte e
      obtain ⟨g, hg⟩ := ih (s.drawByte e)
      refine ⟨g ∘ f, ?_⟩
      rw [List.foldl_cons, hg, hf, mapLayer_mapLayer]

@[simp] theorem dimensions_drawOverlay (s : Screen) (m : Machine) :
    (s.drawOverlay m).dimensions = s.dimensions := by
  obtain ⟨f, hf⟩ := s.exists_drawOverlay m
  rw [hf, dimensions_mapLayer]

@[simp] theorem palette_drawOverlay (s : Screen) (m : Machine) :
    (s.drawOverlay m).palette = s.palette := by
  obtain ⟨f, hf⟩ := s.exists_drawOverlay m
  rw [hf, palette_mapLayer]

@[simp] theorem resized_drawOverlay (s : Screen) (m : Machine) :
    (s.drawOverlay m).resized = s.resized := by
  obtain ⟨f, hf⟩ := s.exists_drawOverlay m
  rw [hf, resized_mapLayer]

/-! ## Requests for a size -/

@[simp] theorem palette_resize (s : Screen) (width height : Short) :
    (s.resize width height).palette = s.palette := by
  unfold resize
  split
  · rfl
  · rfl
  · exact palette_mark ..

theorem resize_eq_self_of_dimensions {width height : Short}
    (h : (s.resize width height).dimensions = s.dimensions) : s.resize width height = s := by
  apply resize_eq_self
  intro hchanged
  have hsize : (width, height) = s.dimensions := by
    rw [← h, resize, hchanged]
    dsimp only
    rw [dimensions_markAll]
    rfl
  obtain ⟨rfl, rfl⟩ := Prod.mk.inj hsize
  unfold resizeResult at hchanged
  split at hchanged
  · contradiction
  · simp at hchanged

/-! ## What ports tell of a screen -/

theorem dimensions_resize_congr (h : s.dimensions = t.dimensions) (width height : Short) :
    (s.resize width height).dimensions = (t.resize width height).dimensions := by
  have hresult : s.resizeResult width height = t.resizeResult width height := by
    obtain ⟨hwidth, hheight⟩ := Prod.mk.inj h
    rw [resizeResult, resizeResult, hwidth, hheight]
  rw [resize, resize, hresult]
  cases t.resizeResult width height with
  | changed =>
      simp only [dimensions_markAll]
      rfl
  | _ => exact h

theorem input_congr (h : s.dimensions = t.dimensions) (i : Byte) (p : Ports) :
    s.input i p = t.input i p := by
  obtain ⟨hwidth, hheight⟩ := Prod.mk.inj h
  rw [input, input, hwidth, hheight]

theorem output_congr (h : s.dimensions = t.dimensions) (i : Byte) (ram : Ram) (p : Ports) :
    (s.output i ram p).1 = (t.output i ram p).1 ∧
      (s.output i ram p).2.dimensions = (t.output i ram p).2.dimensions := by
  have hrequest : s.requestedSize? p i = t.requestedSize? p i := by
    obtain ⟨hwidth, hheight⟩ := Prod.mk.inj h
    rw [requestedSize?, requestedSize?, hwidth, hheight]
  rw [output, output, hrequest]
  split
  · exact ⟨rfl, dimensions_resize_congr h ..⟩
  · split
    · unfold writePixel
      dsimp only
      split
      · exact ⟨rfl, by simp only [(drawnOn_fill ..).dimensions, h]⟩
      · exact ⟨rfl, by simp only [(drawnOn_plot ..).dimensions, h]⟩
    · split
      · exact ⟨rfl, by simp only [writeSprite, (drawnOn_drawRun ..).dimensions, h]⟩
      · exact ⟨rfl, h⟩

end StackComputer.Screen
