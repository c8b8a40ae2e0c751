import StackComputer.Proofs.Screen.Cells

/-!
# Regions and what they cover

A span is read in two ways.  Before it is clipped it goes around: it reaches the
positions from its start on, and may pass the end of the axis and begin again
at 0.  After clipping it is an ordinary interval.  No visible position is lost
on the way as long as the span and the screen together fit on the axis.
-/

namespace StackComputer

namespace Span

def Contains (s : Span) (x : Short) : Prop :=
  s.lo ≤ x ∧ x < s.hi

/-- The positions met on the way from `lo` to `hi`, with 0 after the last position. -/
def Reaches (s : Span) (x : Short) : Prop :=
  x - s.lo < s.hi - s.lo

def length (s : Span) : Nat :=
  (s.hi - s.lo).toNat

instance (s : Span) (x : Short) : Decidable (s.Contains x) :=
  inferInstanceAs (Decidable (_ ∧ _))

instance (s : Span) (x : Short) : Decidable (s.Reaches x) :=
  inferInstanceAs (Decidable (_ < _))

theorem clip_contains {s : Span} {size x : Short} (hx : x < size) (hhi : x < s.hi)
    (hlo : s.hi < s.lo ∨ s.lo ≤ x) : ∃ t, s.clip size = some t ∧ t.Contains x := by
  rw [UInt16.lt_iff_toNat_lt] at hx hhi
  have hend : x < min s.hi size := by
    rw [UInt16.lt_iff_toNat_lt, Short.toNat_min]
    omega
  unfold clip
  by_cases hwrap : s.hi < s.lo
  · have hstart : (0 : Short) ≤ x := UInt16.le_iff_toNat_le.mpr (Nat.zero_le _)
    have hlt := UInt16.lt_of_le_of_lt hstart hend
    simp only [hwrap, hlt, if_true]
    exact ⟨_, rfl, hstart, hend⟩
  · have hstart : s.lo ≤ x := hlo.resolve_left hwrap
    have hlt := UInt16.lt_of_le_of_lt hstart hend
    simp only [hwrap, hlt, if_true, if_false]
    exact ⟨_, rfl, hstart, hend⟩

theorem clip_contains_of_reaches {s : Span} {size x : Short} (hx : x < size) (hs : s.Reaches x)
    (hfit : s.length + size.toNat ≤ 65536) : ∃ t, s.clip size = some t ∧ t.Contains x := by
  have hxNat := UInt16.lt_iff_toNat_lt.mp hx
  rw [Reaches, UInt16.lt_iff_toNat_lt, UInt16.toNat_sub, UInt16.toNat_sub] at hs
  rw [length, UInt16.toNat_sub] at hfit
  have := s.lo.toNat_lt
  have := s.hi.toNat_lt
  apply clip_contains hx
  · rw [UInt16.lt_iff_toNat_lt]
    omega
  · rw [UInt16.lt_iff_toNat_lt, UInt16.le_iff_toNat_le]
    omega

theorem clip_contains_succ {size x : Short} (hx : x < size) :
    ∃ t, clip ⟨x, x + 1⟩ size = some t ∧ t.Contains x := by
  have hpos := UInt16.lt_iff_toNat_lt.mp hx
  have := size.toNat_lt
  have hsucc : x < x + 1 := by
    rw [UInt16.lt_iff_toNat_lt, UInt16.toNat_add]
    change x.toNat < (x.toNat + 1) % 65536
    omega
  exact clip_contains hx hsucc (.inr UInt16.le_rfl)

theorem clip_within {s t : Span} {size : Short} (h : s.clip size = some t) :
    t.lo < t.hi ∧ t.hi ≤ size := by
  unfold clip at h
  simp only [Option.ite_none_right_eq_some, Option.some.injEq] at h
  obtain ⟨hlt, rfl⟩ := h
  refine ⟨hlt, ?_⟩
  rw [UInt16.le_iff_toNat_le, Short.toNat_min]
  exact Nat.min_le_right _ _

theorem hull_contains_left {s t : Span} {x : Short} (h : s.Contains x) :
    (s.hull t).Contains x := by
  simp only [Contains, hull, UInt16.le_iff_toNat_le, UInt16.lt_iff_toNat_lt, Short.toNat_min,
    Short.toNat_max] at h ⊢
  omega

theorem hull_contains_right {s t : Span} {x : Short} (h : t.Contains x) :
    (s.hull t).Contains x := by
  simp only [Contains, hull, UInt16.le_iff_toNat_le, UInt16.lt_iff_toNat_lt, Short.toNat_min,
    Short.toNat_max] at h ⊢
  omega

theorem hull_within {s t : Span} {size : Short} (hs : s.lo < s.hi ∧ s.hi ≤ size)
    (ht : t.lo < t.hi ∧ t.hi ≤ size) : (s.hull t).lo < (s.hull t).hi ∧ (s.hull t).hi ≤ size := by
  simp only [hull, UInt16.le_iff_toNat_le, UInt16.lt_iff_toNat_lt, Short.toNat_min,
    Short.toNat_max] at hs ht ⊢
  omega

end Span

namespace Rect

def Contains (r : Rect) (x y : Short) : Prop :=
  r.x.Contains x ∧ r.y.Contains y

/-- The rectangle has cells, and all of them are on a screen of the given size. -/
structure Within (r : Rect) (width height : Short) : Prop where
  x : r.x.lo < r.x.hi ∧ r.x.hi ≤ width
  y : r.y.lo < r.y.hi ∧ r.y.hi ≤ height

instance (r : Rect) (x y : Short) : Decidable (r.Contains x y) :=
  inferInstanceAs (Decidable (_ ∧ _))

theorem clip_eq_some {r : Rect} {width height : Short} {x y : Span} (hx : r.x.clip width = some x)
    (hy : r.y.clip height = some y) : r.clip width height = some ⟨x, y⟩ := by
  simp only [clip, hx, hy]

theorem clip_within {r t : Rect} {width height : Short} (h : r.clip width height = some t) :
    t.Within width height := by
  unfold clip at h
  split at h
  · next x y hx hy =>
      cases h
      exact ⟨Span.clip_within hx, Span.clip_within hy⟩
  · contradiction

theorem hull_within {r t : Rect} {width height : Short} (hr : r.Within width height)
    (ht : t.Within width height) : (r.hull t).Within width height :=
  ⟨Span.hull_within hr.x ht.x, Span.hull_within hr.y ht.y⟩

end Rect

/-! ## The pending part of a screen -/

namespace Screen

def IsPendingAt (s : Screen) (x y : Short) : Prop :=
  ∃ r, s.pending = some r ∧ r.Contains x y

instance (s : Screen) (x y : Short) : Decidable (s.IsPendingAt x y) :=
  match h : s.pending with
  | none => .isFalse fun ⟨_, hr, _⟩ => by rw [h] at hr; contradiction
  | some r =>
      if hr : r.Contains x y then .isTrue ⟨r, h, hr⟩
      else .isFalse fun ⟨q, hq, hc⟩ => hr (Option.some.inj (h.symm.trans hq) ▸ hc)

theorem pending_mark (s : Screen) (r : Rect) :
    (s.mark r).pending =
      match r.clip s.width s.height with
      | none => s.pending
      | some t => some (t.addTo s.pending) := by
  unfold mark
  cases r.clip s.width s.height <;> rfl

theorem pending_mark_mapLayer (s : Screen) (l : Layer) (f : Array Ink → Array Ink) (r : Rect) :
    ((s.mapLayer l f).mark r).pending = (s.mark r).pending := by
  simp only [pending_mark, width_mapLayer, height_mapLayer, pending_mapLayer]

theorem isPendingAt_mark_of_isPendingAt {s : Screen} {x y : Short} (h : s.IsPendingAt x y)
    (r : Rect) : (s.mark r).IsPendingAt x y := by
  obtain ⟨p, hp, hx, hy⟩ := h
  rw [IsPendingAt, pending_mark]
  cases r.clip s.width s.height with
  | none => exact ⟨p, hp, hx, hy⟩
  | some t =>
      rw [hp]
      exact ⟨p.hull t, rfl, Span.hull_contains_left hx, Span.hull_contains_left hy⟩

theorem isPendingAt_mark {s : Screen} {r t : Rect} (hr : r.clip s.width s.height = some t)
    {x y : Short} (h : t.Contains x y) : (s.mark r).IsPendingAt x y := by
  rw [IsPendingAt, pending_mark, hr]
  cases s.pending with
  | none => exact ⟨_, rfl, h⟩
  | some p =>
      exact ⟨p.hull t, rfl, Span.hull_contains_right h.1, Span.hull_contains_right h.2⟩

theorem isPendingAt_markAll (s : Screen) {x y : Short} (hx : x < s.width) (hy : y < s.height) :
    s.markAll.IsPendingAt x y := by
  have hzero (z : Short) : (0 : Short) ≤ z := UInt16.le_iff_toNat_le.mpr (Nat.zero_le _)
  obtain ⟨across, hacross, hax⟩ := Span.clip_contains (s := ⟨0, s.width⟩) hx hx (.inr (hzero x))
  obtain ⟨down, hdown, hdy⟩ := Span.clip_contains (s := ⟨0, s.height⟩) hy hy (.inr (hzero y))
  have hclip : Rect.clip ⟨⟨0, s.width⟩, ⟨0, s.height⟩⟩ s.width s.height = some ⟨across, down⟩ :=
    Rect.clip_eq_some hacross hdown
  rw [markAll]
  exact isPendingAt_mark hclip ⟨hax, hdy⟩

end Screen

/-! ## The rectangles around drawings -/

theorem Screen.clip_fillSpan_contains {size start x : Short} {flip : Bool} (hx : x < size)
    (hf : Filled start flip x) : ∃ t, (fillSpan size start flip).clip size = some t ∧
      t.Contains x := by
  cases flip with
  | false => exact Span.clip_contains hx hx (.inr hf)
  | true => exact Span.clip_contains hx hf (.inr (UInt16.le_iff_toNat_le.mpr (Nat.zero_le _)))

namespace SpriteRun

theorem toNat_eight : (8 : Short).toNat = 8 := rfl

theorem toNat_add_backward (start : Short) {i : Nat} (hi : i ≤ 255) :
    (start + tileStep true * .ofNat i).toNat = (start.toNat + 65536 - 8 * i) % 65536 := by
  have hstep : (tileStep true).toNat = 65528 := rfl
  have hback : 65528 * i % 65536 = (65536 - 8 * i) % 65536 := by
    cases i with
    | zero => rfl
    | succ i =>
        have hsum : 65528 * (i + 1) = 65536 * i + (65536 - 8 * (i + 1)) := by omega
        rw [hsum, Nat.mul_add_mod]
  rw [UInt16.toNat_add, UInt16.toNat_mul, UInt16.toNat_ofNat', hstep]
  omega

theorem toNat_add_forward (start : Short) (i : Nat) :
    (start + tileStep false * .ofNat i).toNat = (start.toNat + 8 * i) % 65536 := by
  have hstep : (tileStep false).toNat = 8 := rfl
  rw [UInt16.toNat_add, UInt16.toNat_mul, UInt16.toNat_ofNat', hstep]
  omega

theorem toUInt16_extra (extra : Byte) : extra.toUInt16 = .ofNat extra.toNat := by
  have := extra.toNat_lt
  apply UInt16.toNat_inj.mp
  rw [UInt8.toNat_toUInt16, UInt16.toNat_ofNat']
  omega

theorem runSpan_reaches (start : Short) (flip auto : Bool) {extra : Byte} {i : Nat}
    (hi : i ≤ extra.toNat) {x : Short}
    (hx : x - (start + (if auto then tileStep flip else 0) * .ofNat i) < 8) :
    (runSpan start (if auto then tileStep flip else 0) extra (flip && auto)).Reaches x := by
  have hextra : extra.toNat ≤ 255 := by
    have := extra.toNat_lt
    omega
  have hstart := start.toNat_lt
  have hpos := x.toNat_lt
  rw [UInt16.lt_iff_toNat_lt, UInt16.toNat_sub, toNat_eight] at hx
  rw [runSpan, Span.Reaches, toUInt16_extra, UInt16.lt_iff_toNat_lt]
  cases auto
  · -- all tiles lie on the first one
    simp only [Bool.and_false, Bool.false_eq_true, if_false, UInt16.zero_mul, UInt16.add_zero,
      UInt16.toNat_sub, UInt16.toNat_add, toNat_eight] at hx ⊢
    omega
  · cases flip
    · simp only [Bool.and_true, Bool.false_eq_true, if_true, if_false, UInt16.toNat_sub,
        UInt16.toNat_add _ 8, toNat_eight, toNat_add_forward] at hx ⊢
      omega
    · -- the span begins at the last tile
      simp only [Bool.and_true, if_true, UInt16.toNat_sub, UInt16.toNat_add _ 8, toNat_eight,
        toNat_add_backward start hextra, toNat_add_backward start (Nat.le_trans hi hextra)] at hx ⊢
      omega

theorem length_runSpan (start : Short) (flip auto : Bool) (extra : Byte) :
    (runSpan start (if auto then tileStep flip else 0) extra (flip && auto)).length ≤ 2048 := by
  have hextra : extra.toNat ≤ 255 := by
    have := extra.toNat_lt
    omega
  have hstart := start.toNat_lt
  rw [runSpan, Span.length, toUInt16_extra]
  cases auto
  · simp only [Bool.and_false, Bool.false_eq_true, if_false, UInt16.zero_mul, UInt16.add_zero,
      UInt16.toNat_sub, UInt16.toNat_add, toNat_eight]
    omega
  · cases flip
    · simp only [Bool.and_true, Bool.false_eq_true, if_true, if_false, UInt16.toNat_sub,
        UInt16.toNat_add _ 8, toNat_eight, toNat_add_forward]
      omega
    · simp only [Bool.and_true, if_true, UInt16.toNat_sub, UInt16.toNat_add _ 8, toNat_eight,
        toNat_add_backward start hextra]
      omega

theorem clip_rect_contains (b : SpriteRun) {width height x y : Short} (hx : x < width)
    (hy : y < height) (hwidth : width.toNat ≤ 63488) (hheight : height.toNat ≤ 63488) {i : Nat}
    (hi : i ≤ b.extra.toNat) (hcx : x - (b.placementAt i).x < 8)
    (hcy : y - (b.placementAt i).y < 8) :
    ∃ r, b.rect.clip width height = some r ∧ r.Contains x y := by
  have hlenX : b.rect.x.length ≤ 2048 := length_runSpan b.x b.flipX b.autoY b.extra
  have hlenY : b.rect.y.length ≤ 2048 := length_runSpan b.y b.flipY b.autoX b.extra
  obtain ⟨across, hacross, hax⟩ := Span.clip_contains_of_reaches (s := b.rect.x) hx
    (runSpan_reaches b.x b.flipX b.autoY hi hcx) (by omega)
  obtain ⟨down, hdown, hdy⟩ := Span.clip_contains_of_reaches (s := b.rect.y) hy
    (runSpan_reaches b.y b.flipY b.autoX hi hcy) (by omega)
  exact ⟨⟨across, down⟩, Rect.clip_eq_some hacross hdown, hax, hdy⟩

end SpriteRun

end StackComputer
