import StackComputer.Proofs.Screen.Dimensions
import StackComputer.Proofs.Screen.Rendering

/-!
# Under the overlay

The overlay changes inks without marking anything.  What is wrong in a frame
afterwards lies under the digits.

The digits are opaque, so each cell under them has the ink of the last one that
was drawn over it, whatever was there before.
-/

namespace StackComputer

variable {x y : Short}

namespace Overlay

/-! ## Digits -/

namespace Entry

def Covers (e : Entry) (x y : Short) : Prop :=
  x - e.x < 16 ∧ y - e.y < 8

instance (e : Entry) (x y : Short) : Decidable (e.Covers x y) :=
  inferInstanceAs (Decidable (_ ∧ _))

theorem lt_sixteen_iff {start : Short} :
    x - start < 16 ↔ x - start < 8 ∨ x - (start + 8) < 8 := by
  have hx := x.toNat_lt
  have hs := start.toNat_lt
  simp only [UInt16.lt_iff_toNat_lt, UInt16.toNat_sub, UInt16.toNat_add]
  change (2 ^ 16 - start.toNat + x.toNat) % 2 ^ 16 < 16 ↔
    (2 ^ 16 - start.toNat + x.toNat) % 2 ^ 16 < 8 ∨
      (2 ^ 16 - (start.toNat + 8) % 2 ^ 16 + x.toNat) % 2 ^ 16 < 8
  omega

def digit (e : Entry) (x : Short) : Placement :=
  ⟨x, e.y, e.color, false, false⟩

def inkAt? (e : Entry) (x y : Short) : Option Ink :=
  ((e.digit (e.x + 8)).inkAt? (Glyph.tile (e.value.toNat % 16)) x y).or
    ((e.digit e.x).inkAt? (Glyph.tile (e.value.toNat / 16)) x y)

/-- The color shows the blank pixels of a digit too. -/
def Opaque (e : Entry) : Prop :=
  e.color % 5 ≠ 0

theorem isSome_inkAt?_digit {e : Entry} (he : e.Opaque) (tile : Tile) (start : Short) :
    ((e.digit start).inkAt? tile x y).isSome ↔ x - start < 8 ∧ y - e.y < 8 := by
  have hblend (pixel : Ink) : (Blend.ink? e.color pixel).isSome := by
    rw [Blend.ink?, if_neg fun h => he h.2]
    rfl
  rw [Placement.inkAt?]
  change (if x - start < 8 ∧ y - e.y < 8 then Blend.ink? e.color _ else none).isSome ↔ _
  by_cases hin : x - start < 8 ∧ y - e.y < 8
  · simp only [hin, and_self, if_true, hblend]
  · simp only [hin, if_false, Option.isSome_none, Bool.false_eq_true]

theorem isSome_inkAt? {e : Entry} (he : e.Opaque) : (e.inkAt? x y).isSome ↔ e.Covers x y := by
  rw [inkAt?, Option.isSome_or, Bool.or_eq_true, isSome_inkAt?_digit he, isSome_inkAt?_digit he,
    Covers, lt_sixteen_iff, ← or_and_right, Or.comm]

end Entry

theorem opaque_of_mem_entries {m : Machine} {height : Short} {e : Entry}
    (he : e ∈ entries m height) : e.Opaque := by
  rw [entries, List.mem_append, List.mem_append] at he
  rcases he with (he | he) | he
  · obtain ⟨i, hi, rfl⟩ := List.mem_mapIdx.mp he
    exact (by decide : (2 : Byte) % 5 ≠ 0)
  · obtain ⟨i, hi, rfl⟩ := List.mem_mapIdx.mp he
    exact (by decide : (3 : Byte) % 5 ≠ 0)
  · obtain ⟨i, -, rfl⟩ := List.mem_map.mp he
    dsimp only [Entry.Opaque]
    split <;> decide

/-! ## Places -/

def UnderByte (line : Short) (i : Nat) (x y : Short) : Prop :=
  x - .ofNat (i * 24 + 8) < 16 ∧ y - line < 8

def UnderMemory (x y : Short) : Prop :=
  ∃ i < 64, x - .ofNat (i % 8 * 24 + 8) < 16 ∧ y - .ofNat (i / 8 * 8 + 8) < 8

/-- `(x, y)` lies under the overlay of `m`, on a screen of the given height. -/
def Occupies (m : Machine) (height x y : Short) : Prop :=
  (∃ i < m.wst.height, UnderByte (height - 0x18) i x y) ∨
    (∃ i < m.rst.height, UnderByte (height - 0x10) i x y) ∨ UnderMemory x y

theorem exists_stackEntries_covers (bytes : List Byte) (line : Short) (color : Byte) :
    (∃ e ∈ stackEntries bytes line color, e.Covers x y) ↔
      ∃ i < bytes.length, UnderByte line i x y := by
  simp only [stackEntries, List.mem_mapIdx]
  constructor
  · rintro ⟨-, ⟨i, hi, rfl⟩, hcovers⟩
    exact ⟨i, hi, hcovers⟩
  · rintro ⟨i, hi, hunder⟩
    exact ⟨_, ⟨i, hi, rfl⟩, hunder⟩

theorem exists_memoryEntries_covers (ram : Ram) :
    (∃ e ∈ memoryEntries ram, e.Covers x y) ↔ UnderMemory x y := by
  simp only [memoryEntries, List.mem_map, List.mem_range]
  constructor
  · rintro ⟨-, ⟨i, hi, rfl⟩, hcovers⟩
    exact ⟨i, hi, hcovers⟩
  · rintro ⟨i, hi, hunder⟩
    exact ⟨_, ⟨i, hi, rfl⟩, hunder⟩

theorem not_underMemory : ¬UnderMemory 9 297 := by
  have hrows : ∀ i < 64, ¬(297 : Short) - .ofNat (i / 8 * 8 + 8) < 8 := by decide
  rintro ⟨i, hi, -, hrow⟩
  exact hrows i hi hrow

theorem exists_entries_covers (m : Machine) (height : Short) :
    (∃ e ∈ entries m height, e.Covers x y) ↔ Occupies m height x y := by
  simp only [entries, List.mem_append, or_and_right, exists_or, exists_stackEntries_covers,
    exists_memoryEntries_covers, Stack.length_data, or_assoc, Occupies]

/-! ## The last digit -/

def lastInk? (entries : List Entry) (x y : Short) : Option Ink :=
  entries.reverse.findSome? (·.inkAt? x y)

theorem isSome_lastInk? {entries : List Entry} (h : ∀ e ∈ entries, e.Opaque) :
    (lastInk? entries x y).isSome ↔ ∃ e ∈ entries, e.Covers x y := by
  rw [lastInk?, List.findSome?_isSome_iff]
  simp only [List.mem_reverse]
  constructor
  · rintro ⟨e, he, hink⟩
    exact ⟨e, he, (Entry.isSome_inkAt? (h e he)).mp hink⟩
  · rintro ⟨e, he, hcovers⟩
    exact ⟨e, he, (Entry.isSome_inkAt? (h e he)).mpr hcovers⟩

theorem lastInk?_cons (e : Entry) (entries : List Entry) (x y : Short) :
    lastInk? (e :: entries) x y = (lastInk? entries x y).or (e.inkAt? x y) := by
  simp [lastInk?, List.findSome?_append]

theorem lastInk?_eq_none {entries : List Entry} (h : ∀ e ∈ entries, e.Opaque)
    (hfree : ¬∃ e ∈ entries, e.Covers x y) : lastInk? entries x y = none :=
  Option.not_isSome_iff_eq_none.mp fun hsome => hfree ((isSome_lastInk? h).mp hsome)

def inkAt? (m : Machine) (height x y : Short) : Option Ink :=
  lastInk? (entries m height) x y

theorem isSome_inkAt? {m : Machine} {height : Short} :
    (inkAt? m height x y).isSome ↔ Occupies m height x y := by
  rw [inkAt?, isSome_lastInk? fun e => opaque_of_mem_entries, exists_entries_covers]

end Overlay

namespace Screen

/-! ## The foreground -/

theorem ink?_drawByte (s : Screen) (e : Overlay.Entry) (x y : Short) :
    (s.drawByte e).ink? .foreground x y =
      (s.ink? .foreground x y).map (e.inkAt? x y).getD := by
  unfold drawByte
  dsimp only
  rw [ink?_drawTile, ink?_drawTile, if_pos rfl, if_pos rfl, Option.map_map]
  congr 1
  funext old
  rw [Overlay.Entry.inkAt?, Option.getD_or]
  rfl

theorem ink?_drawBytes (s : Screen) (entries : List Overlay.Entry) (x y : Short) :
    (entries.foldl drawByte s).ink? .foreground x y =
      (s.ink? .foreground x y).map (Overlay.lastInk? entries x y).getD := by
  induction entries generalizing s with
  | nil => exact Option.map_id'.symm
  | cons e entries ih =>
      rw [List.foldl_cons, ih, ink?_drawByte, Option.map_map, Overlay.lastInk?_cons]
      congr 1
      funext old
      rw [Option.getD_or]
      rfl

theorem drawOverlay_eq (s : Screen) (m : Machine) :
    s.drawOverlay m = { s with fg := (s.drawOverlay m).fg } := by
  obtain ⟨f, hf⟩ := s.exists_drawOverlay m
  rw [hf]
  rfl

@[simp] theorem width_drawOverlay (s : Screen) (m : Machine) :
    (s.drawOverlay m).width = s.width := by
  rw [drawOverlay_eq]

@[simp] theorem height_drawOverlay (s : Screen) (m : Machine) :
    (s.drawOverlay m).height = s.height := by
  rw [drawOverlay_eq]

theorem ink?_drawOverlay (s : Screen) (m : Machine) (x y : Short) :
    (s.drawOverlay m).ink? .foreground x y =
      (s.ink? .foreground x y).map (Overlay.inkAt? m s.height x y).getD :=
  s.ink?_drawBytes (Overlay.entries m s.height) x y

theorem ink?_drawOverlay_of_not_occupies (s : Screen) {m : Machine}
    (h : ¬Overlay.Occupies m s.height x y) :
    (s.drawOverlay m).ink? .foreground x y = s.ink? .foreground x y := by
  have hnone : Overlay.inkAt? m s.height x y = none :=
    Option.not_isSome_iff_eq_none.mp fun hsome => h (Overlay.isSome_inkAt?.mp hsome)
  rw [ink?_drawOverlay, hnone]
  exact Option.map_id'

@[simp] theorem frameColor?_drawOverlay (s : Screen) (m : Machine) (x y : Short) :
    (s.drawOverlay m).frameColor? x y = s.frameColor? x y := by
  obtain ⟨f, hf⟩ := s.exists_drawOverlay m
  rw [hf, frameColor?, frame_mapLayer, width_mapLayer]
  rfl

@[simp] theorem ink?_drawOverlay_background (s : Screen) (m : Machine) (x y : Short) :
    (s.drawOverlay m).ink? .background x y = s.ink? .background x y := by
  obtain ⟨f, hf⟩ := s.exists_drawOverlay m
  rw [hf]
  rfl

theorem cellColor?_drawOverlay (s : Screen) {m : Machine}
    (h : ∀ e ∈ Overlay.entries m s.height, ¬e.Covers x y) :
    (s.drawOverlay m).cellColor? x y = s.cellColor? x y := by
  have hoccupies : ¬Overlay.Occupies m s.height x y := by
    rw [← Overlay.exists_entries_covers]
    exact fun ⟨e, he, hcovers⟩ => h e he hcovers
  rw [cellColor?, palette_drawOverlay, s.ink?_drawOverlay_of_not_occupies hoccupies,
    ink?_drawOverlay_background, cellColor?]

theorem ink?_drawOverlay_zero {s : Screen} {m : Machine} (hwst : m.wst.data = [0])
    (hrst : m.rst.data = []) (hheight : s.height = 320)
    (hink : s.ink? .foreground 9 297 = some 0) :
    (s.drawOverlay m).ink? .foreground 9 297 = some 2 := by
  have hentries : Overlay.entries m s.height = ⟨0, 8, 296, 2⟩ :: Overlay.memoryEntries m.ram := by
    simp [Overlay.entries, Overlay.stackEntries, hwst, hrst, hheight]
  have hmemory : Overlay.lastInk? (Overlay.memoryEntries m.ram) 9 297 = none := by
    apply Overlay.lastInk?_eq_none
    · intro e he
      have hmem : e ∈ Overlay.entries m s.height := hentries ▸ List.mem_cons_of_mem _ he
      exact Overlay.opaque_of_mem_entries hmem
    · rw [Overlay.exists_memoryEntries_covers]
      exact Overlay.not_underMemory
  rw [ink?_drawOverlay, hink, Overlay.inkAt?, hentries, Overlay.lastInk?_cons, hmemory]
  decide

end Screen

end StackComputer
