import StackComputer.Proofs.Screen.Overlaid

/-!
# One overlay after another

Memory always takes the same places.  A stack takes as many places as it has
bytes, and nothing is drawn on a place that it no longer takes.
-/

namespace StackComputer

variable {x y : Short}

namespace Overlay

/--
`(x, y)` lies under a byte that is on a stack of `a` and above the top of the
same stack of `b`, and the overlay of `b` takes the cell for nothing else.
-/
def Outlasts (a b : Machine) (height x y : Short) : Prop :=
  ((∃ i, b.wst.height ≤ i ∧ i < a.wst.height ∧ UnderByte (height - 0x18) i x y) ∨
      ∃ i, b.rst.height ≤ i ∧ i < a.rst.height ∧ UnderByte (height - 0x10) i x y) ∧
    ¬Occupies b height x y

theorem outlasts_of_occupies {a b : Machine} {height : Short} (ha : Occupies a height x y)
    (hb : ¬Occupies b height x y) : Outlasts a b height x y := by
  refine ⟨?_, hb⟩
  rcases ha with ⟨i, hi, hunder⟩ | ⟨i, hi, hunder⟩ | hmemory
  · exact .inl ⟨i, Nat.le_of_not_lt fun hlt => hb (.inl ⟨i, hlt, hunder⟩), hi, hunder⟩
  · exact .inr ⟨i, Nat.le_of_not_lt fun hlt => hb (.inr (.inl ⟨i, hlt, hunder⟩)), hi, hunder⟩
  · exact absurd (.inr (.inr hmemory)) hb

theorem Outlasts.occupies {a b : Machine} {height : Short} (h : Outlasts a b height x y) :
    Occupies a height x y := by
  obtain ⟨⟨i, -, hi, hunder⟩ | ⟨i, -, hi, hunder⟩, -⟩ := h
  · exact .inl ⟨i, hi, hunder⟩
  · exact .inr (.inl ⟨i, hi, hunder⟩)

theorem not_outlasts {a b : Machine} (hwst : a.wst.height ≤ b.wst.height)
    (hrst : a.rst.height ≤ b.rst.height) (height x y : Short) : ¬Outlasts a b height x y := by
  rintro ⟨⟨i, hb, ha, -⟩ | ⟨i, hb, ha, -⟩, -⟩ <;> omega

end Overlay

namespace Screen

theorem ink?_drawOverlay_of_occupies (s : Screen) {m : Machine}
    (h : Overlay.Occupies m s.height x y) :
    ∃ ink, Overlay.inkAt? m s.height x y = some ink ∧
      (s.drawOverlay m).ink? .foreground x y = (s.ink? .foreground x y).map fun _ => ink := by
  obtain ⟨ink, hink⟩ := Option.isSome_iff_exists.mp (Overlay.isSome_inkAt?.mpr h)
  refine ⟨ink, hink, ?_⟩
  rw [ink?_drawOverlay, hink]
  rfl

theorem ink?_drawOverlay_drawOverlay_of_occupies (s : Screen) (a : Machine) {b : Machine}
    (h : Overlay.Occupies b s.height x y) :
    ((s.drawOverlay a).drawOverlay b).ink? .foreground x y =
      (s.drawOverlay b).ink? .foreground x y := by
  obtain ⟨ink, hink, hb⟩ := s.ink?_drawOverlay_of_occupies h
  rw [hb, ink?_drawOverlay, height_drawOverlay, hink, ink?_drawOverlay, Option.map_map]
  rfl

theorem ink?_drawOverlay_drawOverlay (s : Screen) {a b : Machine}
    (h : ¬Overlay.Outlasts a b s.height x y) :
    ((s.drawOverlay a).drawOverlay b).ink? .foreground x y =
      (s.drawOverlay b).ink? .foreground x y := by
  by_cases hb : Overlay.Occupies b s.height x y
  · exact s.ink?_drawOverlay_drawOverlay_of_occupies a hb
  · have ha : ¬Overlay.Occupies a s.height x y := fun ha => h (Overlay.outlasts_of_occupies ha hb)
    rw [ink?_drawOverlay_of_not_occupies _ (by rwa [height_drawOverlay]),
      ink?_drawOverlay_of_not_occupies _ ha, ink?_drawOverlay_of_not_occupies _ hb]

/-! ## Two overlays -/

/--
An overlay replaces an earlier one, unless a stack has become lower: then the
digits of the bytes that are gone stay, wherever the new overlay draws nothing
over them.  Either way the cells under it show its own digits, and only the
foreground is touched.
-/
theorem overlay_replaces {s : Screen} (hs : s.WellFormed) (a b : Machine) :
    let t := (s.drawOverlay a).drawOverlay b
    let u := s.drawOverlay b
    (a.wst.height ≤ b.wst.height → a.rst.height ≤ b.rst.height → t = u) ∧
    (∀ x y, ¬Overlay.Outlasts a b s.height x y →
      t.ink? .foreground x y = u.ink? .foreground x y) ∧
    (∀ x y, Overlay.Occupies b s.height x y →
      ∃ ink, Overlay.inkAt? b s.height x y = some ink ∧
        u.ink? .foreground x y = (s.ink? .foreground x y).map fun _ => ink) ∧
    (∀ x y, Overlay.Outlasts a b s.height x y →
      ∃ ink, Overlay.inkAt? a s.height x y = some ink ∧
        t.ink? .foreground x y = (s.ink? .foreground x y).map (fun _ => ink) ∧
          u.ink? .foreground x y = s.ink? .foreground x y) ∧
    t = { s with fg := t.fg } ∧ u = { s with fg := u.fg } := by
  intro t u
  have hu : u = { s with fg := u.fg } := s.drawOverlay_eq b
  have ht : t = { s with fg := t.fg } := by
    obtain ⟨f, hf⟩ := s.exists_drawOverlay a
    obtain ⟨g, hg⟩ := (s.drawOverlay a).exists_drawOverlay b
    change (s.drawOverlay a).drawOverlay b =
      { s with fg := ((s.drawOverlay a).drawOverlay b).fg }
    rw [hg, hf]
    rfl
  refine ⟨fun hwst hrst => ?_, fun x y h => s.ink?_drawOverlay_drawOverlay h,
    fun x y h => s.ink?_drawOverlay_of_occupies h, fun x y h => ?_, ht, hu⟩
  · have hlayer : t.layer .foreground = u.layer .foreground := by
      apply ((hs.drawOverlay a).drawOverlay b).layer_ext (hs.drawOverlay b) (by simp) (by simp)
      intro x y _ _
      exact s.ink?_drawOverlay_drawOverlay (Overlay.not_outlasts hwst hrst s.height x y)
    rw [ht, hu]
    exact congrArg (fun fg => { s with fg := fg }) hlayer
  · obtain ⟨ink, hink, ha⟩ := s.ink?_drawOverlay_of_occupies h.occupies
    have hkept : t.ink? .foreground x y = (s.drawOverlay a).ink? .foreground x y :=
      ink?_drawOverlay_of_not_occupies _ (by rw [height_drawOverlay]; exact h.2)
    exact ⟨ink, hink, hkept.trans ha, s.ink?_drawOverlay_of_not_occupies h.2⟩

theorem overlay_replaces_grown :
    let m := Machine.fresh
    let grown := { m with wst := (m.wst.pushByte 7).2, rst := (m.rst.pushByte 9).2 }
    (((ofSize 16 320).drawOverlay m).drawOverlay grown) = (ofSize 16 320).drawOverlay grown :=
  (overlay_replaces (WellFormed.ofSize 16 320) .fresh _).1 (by decide) (by decide)

/-- A byte is pushed, drawn and popped, and its digits are still there in the next overlay. -/
theorem overlay_outlasts_pop :
    let pushed := { Machine.fresh with wst := (Stack.empty.pushByte 0).2 }
    let popped := { pushed with wst := pushed.wst.popByte.2 }
    let t := ((ofSize 16 320).drawOverlay pushed).drawOverlay popped
    let u := (ofSize 16 320).drawOverlay popped
    t.ink? .foreground 9 297 = some 2 ∧ u.ink? .foreground 9 297 = some 0 ∧ t ≠ u := by
  have hheight : (ofSize 16 320).height = 320 := rfl
  have hold : (ofSize 16 320).ink? .foreground 9 297 = some 0 := by decide +kernel
  -- these two facts are all that is needed about the screen
  generalize ofSize 16 320 = s at hheight hold ⊢
  intro pushed popped t u
  have hdata : pushed.wst.data = [0] := Stack.empty.data_pushByte 0 (by decide)
  have hoccupies : ¬Overlay.Occupies popped s.height 9 297 := by
    rintro (⟨i, hi, -⟩ | ⟨i, hi, -⟩ | hmemory)
    · exact Nat.not_lt_zero i hi
    · exact Nat.not_lt_zero i hi
    · exact Overlay.not_underMemory hmemory
  have ht : t.ink? .foreground 9 297 = some 2 := by
    rw [ink?_drawOverlay_of_not_occupies _ (by rwa [height_drawOverlay])]
    exact ink?_drawOverlay_zero hdata Stack.data_empty hheight hold
  have hu : u.ink? .foreground 9 297 = some 0 :=
    (s.ink?_drawOverlay_of_not_occupies hoccupies).trans hold
  refine ⟨ht, hu, fun heq => ?_⟩
  rw [heq, hu] at ht
  contradiction

end Screen

end StackComputer
