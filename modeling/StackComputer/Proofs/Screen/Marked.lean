import StackComputer.Proofs.Screen.LeastRect

/-!
# What drawing marks

A pixel, a fill and a run of sprites each mark a rectangle of their own, and
what is pending grows to the least rectangle that holds the visible cells drawn
for.  One kind of fill is different: an unflipped fill that starts past the far
edge has its end below its start, is taken for a region that passed 0, and
marks all of the axis although it paints nothing.
-/

namespace StackComputer

open Screen (Filled fillSpan)

/-! ## The visible part of a span -/

namespace Span

theorem reaches_of_shows {s : Span} {size x : Short} (h : s.Shows size x) : s.Reaches x := by
  obtain ⟨-, hhi, hlo⟩ := shows_iff.mp h
  rw [UInt16.lt_iff_toNat_lt] at hhi
  rw [UInt16.lt_iff_toNat_lt, UInt16.le_iff_toNat_le] at hlo
  have := s.lo.toNat_lt
  have := s.hi.toNat_lt
  rw [Reaches, UInt16.lt_iff_toNat_lt, UInt16.toNat_sub, UInt16.toNat_sub]
  omega

theorem shows_iff_reaches {s : Span} {size x : Short} (hfit : s.length + size.toNat ≤ 65536) :
    s.Shows size x ↔ x < size ∧ s.Reaches x :=
  ⟨fun h => ⟨(shows_iff.mp h).1, reaches_of_shows h⟩,
    fun ⟨hx, h⟩ => clip_contains_of_reaches hx h hfit⟩

theorem shows_succ_iff {size x y : Short} : Shows ⟨x, x + 1⟩ size y ↔ y < size ∧ y = x := by
  constructor
  · intro h
    obtain ⟨hy, hhi, hlo⟩ := shows_iff.mp h
    refine ⟨hy, UInt16.toNat_inj.mp ?_⟩
    dsimp only at hhi hlo
    have hpos := x.toNat_lt
    have hsucc : (x + 1).toNat = (x.toNat + 1) % 65536 := UInt16.toNat_add x 1
    rw [UInt16.lt_iff_toNat_lt] at hhi
    rw [UInt16.lt_iff_toNat_lt, UInt16.le_iff_toNat_le] at hlo
    omega
  · rintro ⟨hy, rfl⟩
    exact clip_contains_succ hy

end Span

/-- A fill that is not flipped and starts past the far edge, not merely at it. -/
def Overruns (size start : Short) (flip : Bool) : Prop :=
  flip = false ∧ size < start

instance (size start : Short) (flip : Bool) : Decidable (Overruns size start flip) :=
  inferInstanceAs (Decidable (_ ∧ _))

theorem Overruns.not_filled {size start x : Short} {flip : Bool} (h : Overruns size start flip)
    (hx : x < size) : ¬Filled start flip x := by
  obtain ⟨rfl, hstart⟩ := h
  have hlt : x < start := UInt16.lt_trans hx hstart
  exact UInt16.not_le.mpr hlt

theorem shows_fillSpan_iff {size start x : Short} {flip : Bool} :
    (fillSpan size start flip).Shows size x ↔
      x < size ∧ (Filled start flip x ∨ Overruns size start flip) := by
  have hpos : (0 : Short) ≤ x := UInt16.le_iff_toNat_le.mpr (Nat.zero_le _)
  rw [Span.shows_iff]
  cases flip
  · simp only [fillSpan, Filled, Overruns, Bool.false_eq_true, if_false, true_and,
      or_comm (a := start ≤ x), and_self_left]
  · simp only [fillSpan, Filled, Overruns, if_true, hpos, or_true, and_true,
      Bool.true_eq_false, false_and, or_false]

namespace SpriteRun

theorem exists_mul_le_of_lt {d n : Nat} (h : d < 8 * n + 8) :
    ∃ i ≤ n, 8 * i ≤ d ∧ d < 8 * i + 8 :=
  ⟨d / 8, by omega, by omega, by omega⟩

theorem exists_tile_of_reaches {start : Short} {flip auto : Bool} {extra : Byte} {x : Short}
    (h : (runSpan start (if auto then tileStep flip else 0) extra (flip && auto)).Reaches x) :
    ∃ i ≤ extra.toNat, x - (start + (if auto then tileStep flip else 0) * .ofNat i) < 8 := by
  have hextra : extra.toNat ≤ 255 := by
    have := extra.toNat_lt
    omega
  have hstart := start.toNat_lt
  have hpos := x.toNat_lt
  rw [runSpan, Span.Reaches, toUInt16_extra, UInt16.lt_iff_toNat_lt] at h
  simp only [UInt16.lt_iff_toNat_lt, toNat_eight]
  cases auto
  · refine ⟨0, Nat.zero_le _, ?_⟩
    simp only [Bool.and_false, Bool.false_eq_true, if_false, UInt16.zero_mul, UInt16.add_zero,
      UInt16.toNat_sub, UInt16.toNat_add, toNat_eight] at h ⊢
    omega
  · cases flip
    · have hd : (x - start).toNat < 8 * extra.toNat + 8 := by
        simp only [Bool.and_true, Bool.false_eq_true, if_true, if_false, UInt16.toNat_sub,
          UInt16.toNat_add _ 8, toNat_eight, toNat_add_forward] at h ⊢
        omega
      obtain ⟨i, hi, hle, hlt⟩ := exists_mul_le_of_lt hd
      refine ⟨i, hi, ?_⟩
      rw [UInt16.toNat_sub] at hle hlt
      simp only [if_true, UInt16.toNat_sub, toNat_add_forward]
      omega
    · -- the tiles are counted from the last one, with which the span begins
      have hd : (x - (start + tileStep true * .ofNat extra.toNat)).toNat < 8 * extra.toNat + 8 := by
        simp only [Bool.and_true, if_true, UInt16.toNat_sub, UInt16.toNat_add _ 8, toNat_eight,
          toNat_add_backward start hextra] at h ⊢
        omega
      obtain ⟨i, hi, hle, hlt⟩ := exists_mul_le_of_lt hd
      have hcount : extra.toNat - i ≤ 255 := Nat.le_trans (Nat.sub_le _ _) hextra
      refine ⟨extra.toNat - i, Nat.sub_le _ _, ?_⟩
      rw [UInt16.toNat_sub, toNat_add_backward start hextra] at hle hlt
      simp only [if_true, UInt16.toNat_sub, toNat_add_backward start hcount]
      omega

theorem shows_runSpan_iff (start : Short) (flip auto : Bool) (extra : Byte) {size x : Short}
    (hsize : size.toNat ≤ 63488) :
    (runSpan start (if auto then tileStep flip else 0) extra (flip && auto)).Shows size x ↔
      x < size ∧
        ∃ i ≤ extra.toNat, x - (start + (if auto then tileStep flip else 0) * .ofNat i) < 8 := by
  have hlength := length_runSpan start flip auto extra
  rw [Span.shows_iff_reaches (by omega)]
  exact and_congr_right fun _ =>
    ⟨exists_tile_of_reaches, fun ⟨_, hi, hx⟩ => runSpan_reaches start flip auto hi hx⟩

def HasColumn (b : SpriteRun) (x : Short) : Prop :=
  ∃ i ≤ b.extra.toNat, x - (b.placementAt i).x < 8

def HasRow (b : SpriteRun) (y : Short) : Prop :=
  ∃ i ≤ b.extra.toNat, y - (b.placementAt i).y < 8

end SpriteRun

/-! ## Drawings -/

inductive Drawing where
  | plot (layer : Layer) (x y : Short) (color : Byte)
  | fill (layer : Layer) (x y : Short) (color : Byte) (flipX flipY : Bool)
  | run (ram : Ram) (run : SpriteRun)

namespace Screen

variable {s : Screen}

def draw (s : Screen) : Drawing → Screen
  | .plot l x y color => s.plot l x y color
  | .fill l x y color flipX flipY => s.fill l x y color flipX flipY
  | .run ram b => s.drawRun ram b

end Screen

namespace Drawing

def layer : Drawing → Layer
  | plot l _ _ _ => l
  | fill l _ _ _ _ _ => l
  | run _ b => b.layer

def paint (width height : Short) : Drawing → Array Ink → Array Ink
  | plot _ x y color =>
      if x < width ∧ y < height then
        (·.setIfInBounds (Grid.index width.toNat x.toNat y.toNat) (.ofByte color))
      else id
  | fill _ x y color flipX flipY =>
      let across := fillSpan width x flipX
      let down := fillSpan height y flipY
      Grid.paintRows (fun _ => .ofByte color) width.toNat across.lo.toNat
        (min across.hi.toNat width.toNat - across.lo.toNat)
        (min down.hi.toNat height.toNat - down.lo.toNat) down.lo.toNat
  | run ram b => Screen.paintTiles width height ram b

/--
The cells a drawing is about: one pixel, the rectangle to be filled, or the
columns and rows of the tiles of a run.
-/
def Targets : Drawing → Short → Short → Prop
  | plot _ x y _, X, Y => X = x ∧ Y = y
  | fill _ x y _ flipX flipY, X, Y => Filled x flipX X ∧ Filled y flipY Y
  | run _ b, X, Y => b.HasColumn X ∧ b.HasRow Y

def Overruns (s : Screen) : Drawing → Prop
  | fill _ x y _ flipX flipY =>
      StackComputer.Overruns s.width x flipX ∨ StackComputer.Overruns s.height y flipY
  | _ => False

/-- The cells a drawing marks: its targets, and all of an axis past whose edge it starts. -/
def Marks (s : Screen) : Drawing → Short → Short → Prop
  | fill _ x y _ flipX flipY, X, Y =>
      (Filled x flipX X ∨ StackComputer.Overruns s.width x flipX) ∧
        (Filled y flipY Y ∨ StackComputer.Overruns s.height y flipY)
  | d, X, Y => d.Targets X Y

def rect (s : Screen) : Drawing → Rect
  | plot _ x y _ => ⟨⟨x, x + 1⟩, ⟨y, y + 1⟩⟩
  | fill _ x y _ flipX flipY =>
      ⟨fillSpan s.width x flipX, fillSpan s.height y flipY⟩
  | run _ b => b.rect

variable {s : Screen}

theorem marks_iff_targets {d : Drawing} (h : ¬d.Overruns s) (x y : Short) :
    d.Marks s x y ↔ d.Targets x y := by
  cases d with
  | plot => rfl
  | run => rfl
  | fill =>
      obtain ⟨hx, hy⟩ := not_or.mp h
      exact and_congr (or_iff_left hx) (or_iff_left hy)

theorem Overruns.not_targets {d : Drawing} (h : d.Overruns s) {x y : Short} (hx : x < s.width)
    (hy : y < s.height) : ¬d.Targets x y := by
  cases d with
  | plot => exact h.elim
  | run => exact h.elim
  | fill =>
      rintro ⟨hfilledX, hfilledY⟩
      rcases h with h | h
      · exact h.not_filled hx hfilledX
      · exact h.not_filled hy hfilledY

theorem shows_rect_iff (hs : s.WellFormed) (d : Drawing) (x y : Short) :
    (d.rect s).Shows s.width s.height x y ↔ (x < s.width ∧ y < s.height) ∧ d.Marks s x y := by
  obtain ⟨hwidth, hheight⟩ := hs.isSize.le
  cases d with
  | plot => exact (and_congr Span.shows_succ_iff Span.shows_succ_iff).trans and_and_and_comm
  | fill => exact (and_congr shows_fillSpan_iff shows_fillSpan_iff).trans and_and_and_comm
  | run ram b =>
      have hcolumn := SpriteRun.shows_runSpan_iff b.x b.flipX b.autoY b.extra (x := x)
        (Nat.le_trans hwidth (by decide))
      have hrow := SpriteRun.shows_runSpan_iff b.y b.flipY b.autoX b.extra (x := y)
        (Nat.le_trans hheight (by decide))
      exact (and_congr hcolumn hrow).trans and_and_and_comm

end Drawing

/-! ## The pending rectangle after a drawing -/

namespace Screen

variable {s : Screen}

theorem draw_eq (s : Screen) (d : Drawing) :
    s.draw d = (s.mapLayer d.layer (d.paint s.width s.height)).mark (d.rect s) := by
  cases d with
  | plot l x y color =>
      by_cases hin : x < s.width ∧ y < s.height
      · simp only [draw, plot, Drawing.layer, Drawing.rect, Drawing.paint, hin, and_self, if_true]
      · simp only [draw, plot, Drawing.layer, Drawing.rect, Drawing.paint, hin, if_false]
        exact congrArg (mark · _) (s.mapLayer_id l).symm
  | fill l x y color flipX flipY => rfl
  | run ram b =>
      rw [draw, drawRun, drawTiles_eq]
      rfl

theorem pending_draw (s : Screen) (d : Drawing) :
    (s.draw d).pending = (s.mark (d.rect s)).pending := by
  rw [draw_eq, pending_mark_mapLayer]

theorem pending_drawRun (s : Screen) (ram : Ram) (b : SpriteRun) :
    (s.drawRun ram b).pending = (s.mark b.rect).pending :=
  s.pending_draw (.run ram b)

/--
A drawing asks for just the cells of `target` on the screen to be rendered anew:
what is pending becomes the least rectangle around them and what was pending,
and stays as it is if there are none.
-/
structure MarksJust (s : Screen) (d : Drawing) (target : Short → Short → Prop) : Prop where
  least : Rect.LeastAround
    (fun x y => s.IsPendingAt x y ∨ (x < s.width ∧ y < s.height) ∧ target x y) (s.draw d).pending
  unchanged : (∀ x y, x < s.width → y < s.height → ¬target x y) → (s.draw d).pending = s.pending

theorem marksJust_marks (hs : s.WellFormed) (d : Drawing) : s.MarksJust d (d.Marks s) where
  least := by
    rw [pending_draw]
    exact (leastAround_mark hs.pending_within _).congr fun x y => or_congr_right (d.shows_rect_iff hs x y)
  unchanged hnone := by
    have hshows (x y : Short) : ¬(d.rect s).Shows s.width s.height x y := fun h =>
      have ⟨⟨hx, hy⟩, hmarks⟩ := (d.shows_rect_iff hs x y).mp h
      hnone x y hx hy hmarks
    rw [pending_draw, mark_of_not_shows hshows]

/--
Drawing asks for just its target to be rendered anew, whatever the coordinates,
unless it is a fill that starts past an edge.  Such a fill has no target on the
screen, but marks every position of that axis.
-/
theorem draw_marks (hs : s.WellFormed) (d : Drawing) :
    (¬d.Overruns s → s.MarksJust d d.Targets) ∧
      (d.Overruns s → ∀ x y, x < s.width → y < s.height → ¬d.Targets x y) ∧
      s.MarksJust d (d.Marks s) := by
  have hmarks := marksJust_marks hs d
  refine ⟨fun h => ?_, fun h x y hx hy => h.not_targets hx hy, hmarks⟩
  have htargets : d.Marks s = d.Targets :=
    funext fun x => funext fun y => propext (Drawing.marks_iff_targets h x y)
  rwa [htargets] at hmarks

theorem draw_marks_flipped :
    (ofSize 16 16).render.WellFormed ∧
      (ofSize 16 16).render.MarksJust (.fill .background 10 4 2 false true)
        (Drawing.fill .background 10 4 2 false true).Targets ∧
      ((ofSize 16 16).render.draw (.fill .background 10 4 2 false true)).pending =
        some ⟨⟨10, 16⟩, ⟨0, 4⟩⟩ := by
  have hs := (WellFormed.ofSize 16 16).render
  refine ⟨hs, (draw_marks hs _).1 (not_or.mpr ⟨by decide, by decide⟩), ?_⟩
  rw [pending_draw]
  decide

/-- A fill from column 17 of 16 paints nothing and marks the whole screen. -/
theorem draw_marks_past_edge :
    ¬(ofSize 16 16).render.MarksJust (.fill .foreground 17 0 1 false false)
      (Drawing.fill .foreground 17 0 1 false false).Targets := by
  intro h
  have hpast : (Drawing.fill .foreground 17 0 1 false false).Overruns (ofSize 16 16).render :=
    .inl (by decide)
  have hsame := h.unchanged fun x y hx hy => hpast.not_targets hx hy
  rw [pending_draw] at hsame
  exact absurd hsame (by decide)

end Screen

end StackComputer
