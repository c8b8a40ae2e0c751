import StackComputer.Proofs.Screen.Dimensions
import StackComputer.Proofs.Screen.WellFormed

/-!
# Requests for a size

A request either leaves the whole of the screen as it is, or leaves nothing of
it but the palette.
-/

namespace StackComputer

inductive Axis where
  | width
  | height
  deriving DecidableEq, Repr

def Axis.other : Axis → Axis
  | .width => .height
  | .height => .width

namespace Screen

def size (s : Screen) : Axis → Short
  | .width => s.width
  | .height => s.height

/-- The screen `t` is `s` made anew with another size. -/
structure Remade (width height : Short) (s t : Screen) : Prop where
  dimensions : t.dimensions = (width, height)
  layer : ∀ l, t.layer l = Array.replicate (width.toNat * height.toNat) 0
  frame : t.frame = Array.replicate (width.toNat * height.toNat) 0
  palette : t.palette = s.palette
  pending : t.pending = some ⟨⟨0, width⟩, ⟨0, height⟩⟩
  resized : t.resized = true

variable {s t : Screen} {width height : Short}

theorem resizeResult_eq_changed_iff : s.resizeResult width height = .changed ↔
    (isValidSize width ∧ isValidSize height) ∧ (width, height) ≠ s.dimensions := by
  have hsame : width = s.width ∧ height = s.height ↔ (width, height) = s.dimensions :=
    Prod.mk.injEq .. ▸ Iff.rfl
  unfold resizeResult
  split
  · next hinvalid =>
      refine ⟨nofun, fun h => ?_⟩
      simp [h.1] at hinvalid
  · next hvalid =>
      have hvalid : isValidSize width ∧ isValidSize height := by simpa using hvalid
      split
      · next h => exact ⟨nofun, fun hchanged => absurd (hsame.mp h) hchanged.2⟩
      · next h => exact ⟨fun _ => ⟨hvalid, fun heq => h (hsame.mpr heq)⟩, fun _ => rfl⟩

theorem isValidSize_pos {n : Short} (h : isValidSize n) : 0 < n := by
  have := (isValidSize_iff n).mp h
  rw [UInt16.lt_iff_toNat_lt]
  change 0 < n.toNat
  omega

theorem clip_whole {n : Short} (h : 0 < n) : Span.clip ⟨0, n⟩ n = some ⟨0, n⟩ := by
  have hwrap : ¬n < 0 := Nat.not_lt_zero n.toNat
  have hmin : min n n = n := by
    rw [← UInt16.toNat_inj, Short.toNat_min, Nat.min_self]
  simp only [Span.clip, hwrap, hmin, h, if_false, if_true]

theorem remade_resize (h : s.resizeResult width height = .changed) :
    Remade width height s (s.resize width height) := by
  obtain ⟨hwidth, hheight⟩ := (resizeResult_eq_changed_iff.mp h).1
  have hclip : Rect.clip ⟨⟨0, width⟩, ⟨0, height⟩⟩ width height =
      some ⟨⟨0, width⟩, ⟨0, height⟩⟩ :=
    Rect.clip_eq_some (clip_whole (isValidSize_pos hwidth)) (clip_whole (isValidSize_pos hheight))
  rw [resize, h]
  dsimp only [markAll]
  constructor
  · exact dimensions_mark ..
  · intro l
    rw [layer_mark]
    cases l <;> rfl
  · exact frame_mark ..
  · exact palette_mark ..
  · rw [pending_mark, hclip]
    rfl
  · exact resized_mark ..

theorem resize_cases (s : Screen) (width height : Short) : s.resize width height = s ∨
    (isValidSize width ∧ isValidSize height) ∧ (width, height) ≠ s.dimensions ∧
      Remade width height s (s.resize width height) := by
  by_cases h : s.resizeResult width height = .changed
  · obtain ⟨hvalid, hne⟩ := resizeResult_eq_changed_iff.mp h
    exact .inr ⟨hvalid, hne, remade_resize h⟩
  · exact .inl (resize_eq_self s h)

theorem resize_of_dimensions (h : s.dimensions = (width, height)) : s.resize width height = s :=
  resize_eq_self s fun hchanged => (resizeResult_eq_changed_iff.mp hchanged).2 h.symm

theorem remade_resize_of_ne (hvalid : isValidSize width ∧ isValidSize height)
    (h : s.dimensions ≠ (width, height)) : Remade width height s (s.resize width height) :=
  remade_resize (resizeResult_eq_changed_iff.mpr ⟨hvalid, h.symm⟩)

theorem dimensions_resize (hvalid : isValidSize width ∧ isValidSize height) :
    (s.resize width height).dimensions = (width, height) := by
  by_cases hsame : s.dimensions = (width, height)
  · rw [resize_of_dimensions hsame, hsame]
  · exact (remade_resize_of_ne hvalid hsame).dimensions

/-! ## One axis at a time -/

def dimensionsWith (s : Screen) : Axis → Short → Short × Short
  | .width, n => (n, s.height)
  | .height, n => (s.width, n)

def resizeAxis (s : Screen) (a : Axis) (n : Short) : Screen :=
  s.resize (s.dimensionsWith a n).1 (s.dimensionsWith a n).2

/-- `t` is what becomes of `s` when one axis is asked to be of size `n`. -/
structure Answered (a : Axis) (n : Short) (s t : Screen) : Prop where
  other : t.size a.other = s.size a.other
  granted : t.size a = n ↔ 8 ≤ n.toNat ∧ n.toNat ≤ 1023
  kept : ¬(8 ≤ n.toNat ∧ n.toNat ≤ 1023) ∨ n = s.size a → t = s
  remade : 8 ≤ n.toNat ∧ n.toNat ≤ 1023 → n ≠ s.size a → Remade t.width t.height s t

theorem resizeAxis_changed_iff (hs : ∀ a, isValidSize (s.size a)) (a : Axis) (n : Short) :
    s.resizeResult (s.dimensionsWith a n).1 (s.dimensionsWith a n).2 = .changed ↔
      (8 ≤ n.toNat ∧ n.toNat ≤ 1023) ∧ n ≠ s.size a := by
  have hwidth : isValidSize s.width := hs .width
  have hheight : isValidSize s.height := hs .height
  rw [resizeResult_eq_changed_iff, ← isValidSize_iff]
  cases a <;> simp [dimensionsWith, dimensions, size, hwidth, hheight]

theorem answered_resizeAxis (hs : ∀ a, isValidSize (s.size a)) (a : Axis) (n : Short) :
    Answered a n s (s.resizeAxis a n) := by
  have hiff := resizeAxis_changed_iff hs a n
  by_cases hchanged : (8 ≤ n.toNat ∧ n.toNat ≤ 1023) ∧ n ≠ s.size a
  · have hremade : Remade _ _ s (s.resizeAxis a n) := remade_resize (hiff.mpr hchanged)
    obtain ⟨hw, hh⟩ := Prod.mk.inj hremade.dimensions
    have hsize : (s.resizeAxis a n).size a = n := by
      cases a
      · exact hw
      · exact hh
    have hother : (s.resizeAxis a n).size a.other = s.size a.other := by
      cases a
      · exact hh
      · exact hw
    rw [← hw, ← hh] at hremade
    refine ⟨hother, ⟨fun _ => hchanged.1, fun _ => hsize⟩, ?_, fun _ _ => hremade⟩
    rintro (hinvalid | hsame)
    · exact absurd hchanged.1 hinvalid
    · exact absurd hsame hchanged.2
  · have hself : s.resizeAxis a n = s := resize_eq_self s fun h => hchanged (hiff.mp h)
    rw [hself]
    refine ⟨rfl, ⟨?_, fun hvalid => ?_⟩, fun _ => rfl, fun hvalid hne => ?_⟩
    · rintro rfl
      exact (isValidSize_iff _).mp (hs a)
    · exact Decidable.byContradiction fun hne => hchanged ⟨hvalid, Ne.symm hne⟩
    · exact absurd ⟨hvalid, hne⟩ hchanged

end Screen

end StackComputer
