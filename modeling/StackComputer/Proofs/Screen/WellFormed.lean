import StackComputer.Proofs.Screen.Drawn
import StackComputer.Proofs.Screen.Regions
import StackComputer.Screen.Overlay

/-!
# Well-formed screens

Both layers and the frame have one entry per cell, the size is a valid one or
the screen is blank, and what is pending lies on the screen.  Every operation
keeps this.
-/

namespace StackComputer.Screen

def IsSize (width height : Short) : Prop :=
  width = 0 ∧ height = 0 ∨ isValidSize width ∧ isValidSize height

instance (width height : Short) : Decidable (IsSize width height) :=
  inferInstanceAs (Decidable (_ ∨ _))

/-- What is pending has cells, and all of them are on the screen. -/
def PendingWithin (s : Screen) : Prop :=
  ∀ r, s.pending = some r → r.Within s.width s.height

theorem PendingWithin.mark {s : Screen} (hs : s.PendingWithin) (r : Rect) :
    (s.mark r).PendingWithin := by
  intro t ht
  rw [width_mark, height_mark]
  rw [pending_mark] at ht
  cases hclip : r.clip s.width s.height with
  | none =>
      rw [hclip] at ht
      exact hs t ht
  | some u =>
      rw [hclip] at ht
      have hu := Rect.clip_within hclip
      cases hold : s.pending with
      | none =>
          simp only [hold, Rect.addTo, Option.some.injEq] at ht
          exact ht ▸ hu
      | some old =>
          simp only [hold, Rect.addTo, Option.some.injEq] at ht
          exact ht ▸ Rect.hull_within (hs old hold) hu

structure WellFormed (s : Screen) : Prop where
  isSize : IsSize s.width s.height
  size_bg : s.bg.size = s.width.toNat * s.height.toNat
  size_fg : s.fg.size = s.width.toNat * s.height.toNat
  size_frame : s.frame.size = s.width.toNat * s.height.toNat
  pending_within : ∀ r, s.pending = some r → r.Within s.width s.height

theorem isValidSize_iff (n : Short) : isValidSize n ↔ 8 ≤ n.toNat ∧ n.toNat ≤ 1023 := by
  simp only [isValidSize, minSize, maxSize, Bool.and_eq_true, decide_eq_true_eq,
    UInt16.le_iff_toNat_le]
  rfl

theorem IsSize.le {width height : Short} (h : IsSize width height) :
    width.toNat ≤ 1023 ∧ height.toNat ≤ 1023 := by
  rcases h with ⟨rfl, rfl⟩ | ⟨hwidth, hheight⟩
  · exact ⟨Nat.zero_le _, Nat.zero_le _⟩
  · exact ⟨((isValidSize_iff width).mp hwidth).2, ((isValidSize_iff height).mp hheight).2⟩

namespace WellFormed

variable {s : Screen}

theorem size_layer (hs : s.WellFormed) (l : Layer) :
    (s.layer l).size = s.width.toNat * s.height.toNat := by
  cases l with
  | foreground => exact hs.size_fg
  | background => exact hs.size_bg

theorem index_lt (hs : s.WellFormed) {x y : Short} (hx : x < s.width) (hy : y < s.height)
    (l : Layer) : Grid.index s.width.toNat x.toNat y.toNat < (s.layer l).size := by
  rw [hs.size_layer]
  exact Grid.index_lt (UInt16.lt_iff_toNat_lt.mp hx) (UInt16.lt_iff_toNat_lt.mp hy)

theorem exists_ink? (hs : s.WellFormed) {x y : Short} (hx : x < s.width) (hy : y < s.height)
    (l : Layer) : ∃ i, s.ink? l x y = some i := by
  rw [ink?, if_pos ⟨hx, hy⟩, Array.getElem?_eq_getElem (hs.index_lt hx hy l)]
  exact ⟨_, rfl⟩

theorem layer_ext {t : Screen} (hs : s.WellFormed) (ht : t.WellFormed) (hwidth : t.width = s.width)
    (hheight : t.height = s.height) {l : Layer}
    (h : ∀ x y, x < s.width → y < s.height → s.ink? l x y = t.ink? l x y) :
    s.layer l = t.layer l := by
  apply Grid.ext (hs.size_layer l) (by rw [ht.size_layer, hwidth, hheight])
  intro x y hx hy
  have hcell := h x y hx hy
  rwa [ink?, ink?, hwidth, hheight, if_pos ⟨hx, hy⟩, if_pos ⟨hx, hy⟩] at hcell

/-! ## Operations -/

theorem blank : Screen.blank.WellFormed where
  isSize := .inl ⟨rfl, rfl⟩
  size_bg := rfl
  size_fg := rfl
  size_frame := rfl
  pending_within := by
    intro r hr
    contradiction

theorem mark (hs : s.WellFormed) (r : Rect) : (s.mark r).WellFormed := by
  have hpending : (s.mark r).PendingWithin := PendingWithin.mark hs.pending_within r
  rw [mark_eq] at hpending ⊢
  exact ⟨hs.isSize, hs.size_bg, hs.size_fg, hs.size_frame, hpending⟩

theorem mapLayer (hs : s.WellFormed) (l : Layer) {f : Array Ink → Array Ink}
    (hf : ∀ cells, (f cells).size = cells.size) : (s.mapLayer l f).WellFormed := by
  cases l with
  | foreground =>
      exact ⟨hs.isSize, hs.size_bg, (hf _).trans hs.size_fg, hs.size_frame, hs.pending_within⟩
  | background =>
      exact ⟨hs.isSize, (hf _).trans hs.size_bg, hs.size_fg, hs.size_frame, hs.pending_within⟩

theorem resize (hs : s.WellFormed) (width height : Short) : (s.resize width height).WellFormed := by
  cases hresult : s.resizeResult width height with
  | rejected => rwa [resize_eq_self s (by rw [hresult]; decide)]
  | unchanged => rwa [resize_eq_self s (by rw [hresult]; decide)]
  | changed =>
      have hvalid : isValidSize width ∧ isValidSize height := by
        unfold resizeResult at hresult
        split at hresult
        · contradiction
        · next hnot => simpa using hnot
      rw [Screen.resize, hresult]
      apply WellFormed.mark
      exact ⟨.inr hvalid, Array.size_replicate, Array.size_replicate, Array.size_replicate,
        fun r hr => by contradiction⟩

theorem ofSize (width height : Short) : (Screen.ofSize width height).WellFormed :=
  blank.resize width height

theorem setPalette (hs : s.WellFormed) (p : Palette) : (s.setPalette p).WellFormed := by
  apply WellFormed.mark
  exact ⟨hs.isSize, hs.size_bg, hs.size_fg, hs.size_frame, hs.pending_within⟩

theorem of_drawnOn (hs : s.WellFormed) {l : Layer} {t : Screen} (h : DrawnOn l s t) :
    t.WellFormed := by
  obtain ⟨f, r, hf, rfl⟩ := h
  exact (hs.mapLayer l hf).mark r

theorem drawTile (hs : s.WellFormed) (l : Layer) (tile : Tile) (p : Placement) :
    (s.drawTile l tile p).WellFormed :=
  hs.mapLayer l fun cells => size_drawPixels _ _ tile p cells

theorem drawByte (hs : s.WellFormed) (e : Overlay.Entry) : (s.drawByte e).WellFormed := by
  unfold Screen.drawByte
  exact (hs.drawTile _ _ _).drawTile _ _ _

theorem drawOverlay (hs : s.WellFormed) (m : Machine) : (s.drawOverlay m).WellFormed := by
  unfold Screen.drawOverlay
  generalize Overlay.entries m s.height = entries
  induction entries generalizing s with
  | nil => exact hs
  | cons e entries ih => exact ih (hs.drawByte e)

theorem takeResized (hs : s.WellFormed) : s.takeResized.2.WellFormed :=
  ⟨hs.isSize, hs.size_bg, hs.size_fg, hs.size_frame, hs.pending_within⟩

theorem render (hs : s.WellFormed) : s.render.WellFormed := by
  obtain ⟨width, height, bg, fg, frame, palette, pending, resized⟩ := s
  refine ⟨hs.isSize, hs.size_bg, hs.size_fg, ?_, ?_⟩
  · cases pending with
    | none => exact hs.size_frame
    | some r => exact (Grid.size_paintRows _ _ _ _ _ _ _).trans hs.size_frame
  · intro r hr
    contradiction

end WellFormed

end StackComputer.Screen
