import StackComputer.Proofs.Screen.Operation

/-!
# Incremental rendering

Rendering only visits the pending rectangle.  This is enough because the frame
is right everywhere else: whatever an operation changes, it also marks.  The
invariant is `Accurate`, and rendering turns it into a frame that is right as a
whole, as if all of the screen had been rendered.
-/

namespace StackComputer.Screen

def cellColor? (s : Screen) (x y : Short) : Option Color :=
  (s.ink? .foreground x y).bind fun fg =>
    (s.ink? .background x y).map fun bg => s.palette.cellColor fg bg

def frameColor? (s : Screen) (x y : Short) : Option Color :=
  s.frame[Grid.index s.width.toNat x.toNat y.toNat]?

def Accurate (s : Screen) : Prop :=
  ∀ x y, x < s.width → y < s.height → ¬s.IsPendingAt x y → s.frameColor? x y = s.cellColor? x y

/-- The frame shows what the layers hold at `(x, y)`, if nothing is pending there. -/
def AccurateAt (s : Screen) (x y : Short) : Prop :=
  x < s.width → y < s.height → ¬s.IsPendingAt x y → s.frameColor? x y = s.cellColor? x y

/-- `t` differs from `s` at most in its inks. -/
structure Redrawn (s t : Screen) : Prop where
  width : t.width = s.width
  height : t.height = s.height
  frame : t.frame = s.frame
  palette : t.palette = s.palette
  pending : t.pending = s.pending

theorem redrawn_mapLayer (s : Screen) (l : Layer) (f : Array Ink → Array Ink) :
    Redrawn s (s.mapLayer l f) := by
  cases l <;> exact ⟨rfl, rfl, rfl, rfl, rfl⟩

theorem redrawn_drawTiles (s : Screen) (ram : Ram) (b : SpriteRun) :
    Redrawn s (s.drawTiles ram b) := by
  rw [drawTiles_eq]
  exact redrawn_mapLayer s b.layer _

/-! ## Operations

An operation keeps the frame accurate cell by cell, so a cell that is right stays
right whatever is wrong elsewhere.
-/

section

variable {s : Screen} {x y : Short}

theorem AccurateAt.mark_redrawn {t : Screen} (hs : s.AccurateAt x y) (ht : Redrawn s t) {r : Rect}
    (hcover : ∀ l, x < s.width → y < s.height → t.ink? l x y ≠ s.ink? l x y →
      ∃ u, r.clip s.width s.height = some u ∧ u.Contains x y) : (t.mark r).AccurateAt x y := by
  intro hx hy hclean
  rw [width_mark, ht.width] at hx
  rw [height_mark, ht.height] at hy
  have hink (l : Layer) : t.ink? l x y = s.ink? l x y := by
    apply Decidable.byContradiction
    intro hne
    obtain ⟨u, hclip, hu⟩ := hcover l hx hy hne
    rw [← ht.width, ← ht.height] at hclip
    exact hclean (isPendingAt_mark hclip hu)
  have hold : ¬s.IsPendingAt x y := by
    rintro ⟨p, hp, hpxy⟩
    exact hclean (isPendingAt_mark_of_isPendingAt ⟨p, ht.pending.trans hp, hpxy⟩ r)
  have hcell := hs hx hy hold
  rw [frameColor?, cellColor?] at hcell ⊢
  rw [ink?_mark, ink?_mark, hink, hink, frame_mark, ht.frame, width_mark, ht.width, palette_mark,
    ht.palette]
  exact hcell

theorem accurate_markAll (s : Screen) : s.markAll.Accurate := by
  intro x y hx hy hclean
  have hx' : x < s.width := by rwa [markAll, width_mark] at hx
  have hy' : y < s.height := by rwa [markAll, height_mark] at hy
  exact absurd (isPendingAt_markAll s hx' hy') hclean

theorem accurate_blank : Screen.blank.Accurate := by
  intro x y hx
  exact absurd hx (Nat.not_lt_zero x.toNat)

theorem AccurateAt.resize (hs : s.AccurateAt x y) (width height : Short) :
    (s.resize width height).AccurateAt x y := by
  cases hresult : s.resizeResult width height with
  | rejected => rwa [resize_eq_self s (by rw [hresult]; decide)]
  | unchanged => rwa [resize_eq_self s (by rw [hresult]; decide)]
  | changed =>
      rw [Screen.resize, hresult]
      exact accurate_markAll _ x y

theorem AccurateAt.plot (hs : s.AccurateAt x y) (l : Layer) (X Y : Short) (color : Byte) :
    (s.plot l X Y color).AccurateAt x y := by
  have hredrawn : Redrawn s (if X < s.width ∧ Y < s.height then
      s.mapLayer l fun cells =>
        cells.setIfInBounds (Grid.index s.width.toNat X.toNat Y.toNat) (.ofByte color)
      else s) := by
    split
    · exact redrawn_mapLayer s l _
    · exact ⟨rfl, rfl, rfl, rfl, rfl⟩
  apply hs.mark_redrawn hredrawn
  intro k hx hy hne
  have hcell := ink?_plot s l X Y color k x y
  rw [Screen.plot, ink?_mark] at hcell
  by_cases hhere : k = l ∧ x = X ∧ y = Y
  · obtain ⟨-, rfl, rfl⟩ := hhere
    obtain ⟨across, hacross, hax⟩ := Span.clip_contains_succ hx
    obtain ⟨down, hdown, hdy⟩ := Span.clip_contains_succ hy
    exact ⟨⟨across, down⟩, Rect.clip_eq_some hacross hdown, hax, hdy⟩
  · rw [if_neg hhere] at hcell
    exact absurd hcell hne

theorem AccurateAt.fill (hs : s.AccurateAt x y) (l : Layer) (X Y : Short) (color : Byte)
    (flipX flipY : Bool) : (s.fill l X Y color flipX flipY).AccurateAt x y := by
  apply hs.mark_redrawn (redrawn_mapLayer s l _)
  intro k hx hy hne
  have hcell := ink?_fill s l X Y color flipX flipY k x y
  rw [Screen.fill, ink?_mark] at hcell
  by_cases hhere : k = l ∧ Filled X flipX x ∧ Filled Y flipY y
  · obtain ⟨-, hfx, hfy⟩ := hhere
    obtain ⟨across, hacross, hax⟩ := clip_fillSpan_contains hx hfx
    obtain ⟨down, hdown, hdy⟩ := clip_fillSpan_contains hy hfy
    exact ⟨⟨across, down⟩, Rect.clip_eq_some hacross hdown, hax, hdy⟩
  · rw [if_neg hhere] at hcell
    exact absurd hcell hne

theorem ink?_drawTiles_of_not_covered (s : Screen) (ram : Ram) (b : SpriteRun) (k : Layer)
    (h : ∀ i, i ≤ b.extra.toNat →
      ¬(x - (b.placementAt i).x < 8 ∧ y - (b.placementAt i).y < 8)) :
    (s.drawTiles ram b).ink? k x y = s.ink? k x y := by
  rw [ink?_drawTiles]
  split
  · have htiles : ∀ i ∈ List.range (b.extra.toNat + 1),
        ¬(x - (b.placementAt i).x < 8 ∧ y - (b.placementAt i).y < 8) := by
      intro i hi
      rw [List.mem_range] at hi
      exact h i (by omega)
    generalize s.ink? k x y = old
    generalize List.range (b.extra.toNat + 1) = tiles at htiles
    induction tiles with
    | nil => rfl
    | cons i tiles ih =>
        have hi := htiles i List.mem_cons_self
        have hkeep : old.map (none : Option Ink).getD = old := by
          cases old <;> rfl
        rw [List.foldl_cons, Placement.inkAt?, if_neg hi, hkeep]
        exact ih fun j hj => htiles j (List.mem_cons_of_mem i hj)
  · rfl

theorem AccurateAt.drawRun (hs : s.AccurateAt x y) (hwf : s.WellFormed) (ram : Ram)
    (b : SpriteRun) : (s.drawRun ram b).AccurateAt x y := by
  have hsize := hwf.isSize.le
  apply hs.mark_redrawn (redrawn_drawTiles s ram b)
  intro k hx hy hne
  by_cases hcovered : ∃ i, i ≤ b.extra.toNat ∧
      x - (b.placementAt i).x < 8 ∧ y - (b.placementAt i).y < 8
  · obtain ⟨i, hi, hcx, hcy⟩ := hcovered
    exact b.clip_rect_contains hx hy (by omega) (by omega) hi hcx hcy
  · refine absurd (ink?_drawTiles_of_not_covered s ram b k ?_) hne
    intro i hi hc
    exact hcovered ⟨i, hi, hc⟩

theorem AccurateAt.takeResized (hs : s.AccurateAt x y) : s.takeResized.2.AccurateAt x y :=
  hs

/-! ## Rendering -/

theorem frame_render (s : Screen) :
    s.render.frame =
      match s.pending with
      | none => s.frame
      | some r =>
          Grid.paintRows (colorAt s.palette s.fg s.bg) s.width.toNat r.x.lo.toNat
            (r.x.hi.toNat - r.x.lo.toNat) (r.y.hi.toNat - r.y.lo.toNat) r.y.lo.toNat s.frame := by
  obtain ⟨width, height, bg, fg, frame, palette, pending, resized⟩ := s
  rfl

theorem ink?_render (s : Screen) (l : Layer) (x y : Short) :
    s.render.ink? l x y = s.ink? l x y := by
  cases l <;> rfl

theorem cellColor?_render (s : Screen) (x y : Short) :
    s.render.cellColor? x y = s.cellColor? x y := by
  rw [cellColor?, ink?_render, ink?_render]
  rfl

theorem frameColor?_render (hs : s.AccurateAt x y) (hwf : s.WellFormed) (hx : x < s.width)
    (hy : y < s.height) : s.render.frameColor? x y = s.cellColor? x y := by
  obtain ⟨fg, hfg⟩ := hwf.exists_ink? hx hy .foreground
  obtain ⟨bg, hbg⟩ := hwf.exists_ink? hx hy .background
  have hframe : Grid.index s.width.toNat x.toNat y.toNat < s.frame.size := by
    rw [hwf.size_frame, ← hwf.size_fg]
    exact hwf.index_lt hx hy .foreground
  cases hpending : s.pending with
  | none =>
      have hclean : ¬s.IsPendingAt x y := by
        rintro ⟨r, hr, -⟩
        rw [hpending] at hr
        contradiction
      have hsame : s.render.frame = s.frame := by
        rw [frame_render, hpending]
      rw [← hs hx hy hclean, frameColor?, frameColor?, hsame]
      rfl
  | some r =>
      have hin := hwf.pending_within r hpending
      have hwidth := UInt16.le_iff_toNat_le.mp hin.x.2
      change s.render.frame[Grid.index s.width.toNat x.toNat y.toNat]? = _
      rw [frame_render, hpending]
      dsimp only
      rw [Grid.getElem?_paintRows _ (by omega) _ _ _ (UInt16.lt_iff_toNat_lt.mp hx)]
      split
      · -- the cell is painted with the color of its inks
        rw [ink?, if_pos ⟨hx, hy⟩] at hfg hbg
        change s.fg[_]? = _ at hfg
        change s.bg[_]? = _ at hbg
        simp only [cellColor?, ink?, hx, hy, and_self, if_true, layer, hfg, hbg, colorAt,
          Array.getD_eq_getD_getElem?, Option.getD_some, Option.bind_some, Option.map_some]
      · next hout =>
          refine hs hx hy ?_
          rintro ⟨q, hq, ⟨hxlo, hxhi⟩, hylo, hyhi⟩
          obtain rfl : r = q := Option.some.inj (hpending.symm.trans hq)
          rw [UInt16.le_iff_toNat_le] at hxlo hylo
          rw [UInt16.lt_iff_toNat_lt] at hxhi hyhi
          exact hout ⟨by omega, by omega, hframe⟩

theorem AccurateAt.render (hs : s.AccurateAt x y) (hwf : s.WellFormed) :
    s.render.AccurateAt x y := by
  intro hx hy _
  rw [frameColor?_render hs hwf hx hy, cellColor?_render]

theorem AccurateAt.perform (hs : s.AccurateAt x y) (hwf : s.WellFormed) (op : Operation) :
    (s.perform op).AccurateAt x y := by
  cases op with
  | resize width height => exact hs.resize width height
  | setPalette p => exact accurate_markAll _ x y
  | plot l X Y color => exact hs.plot l X Y color
  | fill l X Y color flipX flipY => exact hs.fill l X Y color flipX flipY
  | drawRun ram b => exact hs.drawRun hwf ram b
  | markAll => exact accurate_markAll s x y
  | takeResized => exact hs.takeResized
  | render => exact hs.render hwf

end

theorem accurate_performAll_ofSize (width height : Short) (ops : List Operation) :
    ((ofSize width height).performAll ops).Accurate ∧
      ((ofSize width height).performAll ops).WellFormed := by
  refine performAll_induction (P := fun s => s.Accurate ∧ s.WellFormed) ?_ ?_ ops
  · rintro s op ⟨hs, hwf⟩
    exact ⟨fun x y => AccurateAt.perform (hs x y) hwf op, hwf.perform op⟩
  · exact ⟨fun x y => AccurateAt.resize (accurate_blank x y) width height, .ofSize width height⟩

theorem frame_ext {s t : Screen} (hs : s.WellFormed) (ht : t.WellFormed)
    (hwidth : t.width = s.width) (hheight : t.height = s.height)
    (h : ∀ x y, x < s.width → y < s.height → s.frameColor? x y = t.frameColor? x y) :
    s.frame = t.frame := by
  apply Grid.ext hs.size_frame (by rw [ht.size_frame, hwidth, hheight])
  intro x y hx hy
  have hcell := h x y hx hy
  rwa [frameColor?, frameColor?, hwidth] at hcell

theorem frame_render_eq {s t : Screen} (hs : s.Accurate) (hswf : s.WellFormed) (ht : t.Accurate)
    (htwf : t.WellFormed) (hwidth : t.width = s.width) (hheight : t.height = s.height)
    (hcells : ∀ x y, t.cellColor? x y = s.cellColor? x y) : s.render.frame = t.render.frame := by
  apply frame_ext hswf.render htwf.render hwidth hheight
  intro x y hx hy
  have hx : x < s.width := hx
  have hy : y < s.height := hy
  rw [frameColor?_render (hs x y) hswf hx hy,
    frameColor?_render (ht x y) htwf (by rwa [hwidth]) (by rwa [hheight]), hcells]

theorem cellColor?_markAll (s : Screen) (x y : Short) :
    s.markAll.cellColor? x y = s.cellColor? x y := by
  rw [markAll, cellColor?, ink?_mark, ink?_mark, palette_mark, cellColor?]

/-! ## Main result -/

/--
However a screen has been worked on since it was made, the frame shows the
foreground's color, or the background's where the foreground is ink 0, in every
cell that is not pending.  Rendering therefore leaves the frame that marking and
rendering all of the screen would leave.
-/
theorem frame_after_operations (width height : Short) (ops : List Operation) :
    let s := (ofSize width height).performAll ops
    (∀ x y, x < s.width → y < s.height → ¬s.IsPendingAt x y →
      ∃ fg bg, s.ink? .foreground x y = some fg ∧ s.ink? .background x y = some bg ∧
        s.frame[x.toNat + y.toNat * s.width.toNat]? =
          some (if fg ≠ 0 then s.palette[fg] else s.palette[bg])) ∧
      s.render.frame = s.markAll.render.frame ∧
      s.render.frame = s.render.markAll.render.frame := by
  intro s
  obtain ⟨hs, hwf⟩ : s.Accurate ∧ s.WellFormed := accurate_performAll_ofSize width height ops
  have hall : s.render.frame = s.markAll.render.frame :=
    frame_render_eq hs hwf (accurate_markAll s) (hwf.mark _) (width_mark s _) (height_mark s _)
      (cellColor?_markAll s)
  have hagain : s.markAll.render.frame = s.render.markAll.render.frame := by
    apply frame_render_eq (accurate_markAll s) (hwf.mark _) (accurate_markAll s.render)
      (hwf.render.mark _)
    · exact (width_mark s.render _).trans (width_mark s _).symm
    · exact (height_mark s.render _).trans (height_mark s _).symm
    · intro x y
      rw [cellColor?_markAll, cellColor?_render, cellColor?_markAll]
  refine ⟨?_, hall, hall.trans hagain⟩
  · intro x y hx hy hclean
    obtain ⟨fg, hfg⟩ := hwf.exists_ink? hx hy .foreground
    obtain ⟨bg, hbg⟩ := hwf.exists_ink? hx hy .background
    refine ⟨fg, bg, hfg, hbg, ?_⟩
    have hcell := hs x y hx hy hclean
    rw [frameColor?, cellColor?, hfg, hbg] at hcell
    rw [Nat.add_comm]
    refine hcell.trans ?_
    simp only [Option.bind_some, Option.map_some, Palette.cellColor, ite_not]
    rfl

theorem frame_after_plot :
    let s := (ofSize 8 8).performAll [.fill .background 0 0 1 false false, .render,
      .plot .foreground 3 4 2]
    s.IsPendingAt 3 4 ∧ (0 < s.width ∧ 0 < s.height ∧ ¬s.IsPendingAt 0 0) ∧
      ∃ fg bg, s.ink? .foreground 0 0 = some fg ∧ s.ink? .background 0 0 = some bg ∧
        s.frame[(0 : Short).toNat + (0 : Short).toNat * s.width.toNat]? =
          some (if fg ≠ 0 then s.palette[fg] else s.palette[bg]) := by
  refine ⟨by decide +kernel, by decide +kernel, ?_⟩
  exact (frame_after_operations 8 8 _).1 0 0 (by decide +kernel) (by decide +kernel)
    (by decide +kernel)

end StackComputer.Screen
