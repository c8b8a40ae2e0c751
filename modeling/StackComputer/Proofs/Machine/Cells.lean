import Mathlib.Algebra.GroupWithZero.Nat
import StackComputer.Stack

/-!
# Cells on a stack

A stack is looked at as its list of bytes, bottom first.  Operands are the last
bytes of the list, read as cells, and a push appends bytes.  Whether operands
are there and whether a push finds room depends on lengths alone.
-/

namespace StackComputer

@[simp] theorem Short.lo_toUInt16 (b : Byte) : Short.lo b.toUInt16 = b := by
  apply UInt8.toNat_inj.mp
  rw [toNat_lo, UInt8.toNat_toUInt16]
  exact Nat.mod_eq_of_lt b.toNat_lt

namespace Width

def bits : Width → Nat
  | .byte => 8
  | .short => 16

def modulus (w : Width) : Nat :=
  2 ^ w.bits

def encode : Width → Nat → List Byte
  | .byte, n => [.ofNat n]
  | .short, n => [.ofNat (n / 256), .ofNat n]

def total (ws : List Width) : Nat :=
  (ws.map size).sum

@[simp] theorem total_nil : total [] = 0 := rfl

@[simp] theorem total_cons (w : Width) (ws : List Width) :
    total (w :: ws) = w.size + total ws := rfl

theorem modulus_dvd (w : Width) : w.modulus ∣ 65536 := by
  cases w <;> decide

theorem encode_congr {w : Width} {n m : Nat} (h : n % w.modulus = m % w.modulus) :
    w.encode n = w.encode m := by
  cases w with
  | byte =>
      have hmod : n % 256 = m % 256 := h
      have hlo : UInt8.ofNat n = .ofNat m := by
        apply UInt8.toNat_inj.mp
        rw [UInt8.toNat_ofNat', UInt8.toNat_ofNat']
        exact hmod
      rw [encode, encode, hlo]
  | short =>
      have hmod : n % 65536 = m % 65536 := h
      have hlo : UInt8.ofNat n = .ofNat m := by
        apply UInt8.toNat_inj.mp
        rw [UInt8.toNat_ofNat', UInt8.toNat_ofNat']
        omega
      have hhi : UInt8.ofNat (n / 256) = .ofNat (m / 256) := by
        apply UInt8.toNat_inj.mp
        rw [UInt8.toNat_ofNat', UInt8.toNat_ofNat']
        omega
      rw [encode, encode, hlo, hhi]

@[simp] theorem length_encode (w : Width) (n : Nat) : (w.encode n).length = w.size := by
  cases w <;> rfl

theorem encode_inj {w : Width} {a b : Fin w.modulus} : w.encode a = w.encode b ↔ a = b := by
  refine ⟨fun h => Fin.ext ?_, fun h => by rw [h]⟩
  have ha := a.isLt
  have hb := b.isLt
  cases w with
  | byte =>
      change a.val < 256 at ha
      change b.val < 256 at hb
      have hlo := congrArg UInt8.toNat (List.cons.inj h).1
      rw [UInt8.toNat_ofNat', UInt8.toNat_ofNat'] at hlo
      omega
  | short =>
      change a.val < 65536 at ha
      change b.val < 65536 at hb
      obtain ⟨hhi, hrest⟩ := List.cons.inj h
      have hlo := congrArg UInt8.toNat (List.cons.inj hrest).1
      have hhi := congrArg UInt8.toNat hhi
      rw [UInt8.toNat_ofNat', UInt8.toNat_ofNat'] at hlo hhi
      omega

theorem encode_append_inj {w : Width} {a b : Fin w.modulus} {xs ys : List Byte} :
    w.encode a ++ xs = w.encode b ++ ys ↔ a = b ∧ xs = ys := by
  constructor
  · intro h
    have hlength : (w.encode a).length = (w.encode b).length := by
      rw [length_encode, length_encode]
    obtain ⟨hfirst, hrest⟩ := List.append_inj h hlength
    exact ⟨encode_inj.mp hfirst, hrest⟩
  · rintro ⟨rfl, rfl⟩
    rfl

end Width

namespace Cell

def InRange (c : Cell) : Prop :=
  c.value.toNat < c.width.modulus

/-- The bytes of some cells, of which the first is the topmost. -/
def stacked (cells : List Cell) : List Byte :=
  cells.reverse.flatMap bytes

@[simp] theorem stacked_nil : stacked [] = [] := rfl

@[simp] theorem stacked_cons (c : Cell) (cells : List Cell) :
    stacked (c :: cells) = stacked cells ++ c.bytes := by
  simp [stacked]

@[simp] theorem length_bytes (c : Cell) : c.bytes.length = c.width.size := by
  obtain ⟨w, v⟩ := c
  cases w <;> rfl

@[simp] theorem bytes_eq_encode (w : Width) (v : Short) :
    bytes ⟨w, v⟩ = w.encode v.toNat := by
  cases w with
  | byte =>
      have hlo : v.lo = .ofNat v.toNat := by
        apply UInt8.toNat_inj.mp
        rw [Short.toNat_lo, UInt8.toNat_ofNat']
      rw [bytes, Width.encode, hlo]
  | short =>
      have hlo : v.lo = .ofNat v.toNat := by
        apply UInt8.toNat_inj.mp
        rw [Short.toNat_lo, UInt8.toNat_ofNat']
      have hhi : v.hi = .ofNat (v.toNat / 256) := by
        have := v.toNat_lt
        apply UInt8.toNat_inj.mp
        rw [Short.toNat_hi, UInt8.toNat_ofNat']
        omega
      rw [bytes, Width.encode, hlo, hhi]

end Cell

namespace Stack

/-! ## Operands -/

variable (s : Stack)

@[simp] theorem setHeight_height : s.setHeight s.height = s := by
  simp [setHeight, s.height_le]

theorem byteAt_toUInt16_lt (i : Nat) : (s.byteAt i).toUInt16.toNat < 256 := by
  rw [UInt8.toNat_toUInt16]
  exact (s.byteAt i).toNat_lt

theorem inRange_cellBelow (w : Width) (n : Nat) : Cell.InRange ⟨w, s.cellBelow w n⟩ := by
  cases w with
  | byte => exact s.byteAt_toUInt16_lt (n - 1)
  | short => exact (s.cellBelow .short n).toNat_lt

theorem byteAt_eq_getElem {n : Nat} (h : n < s.data.length) : s.byteAt n = s.data[n] := by
  have hlt : n < 255 := Nat.lt_of_lt_of_le (s.length_data ▸ h) s.height_le
  simp only [data, List.getElem_take, Vector.getElem_toList, byteAt, dif_pos hlt]

theorem take_succ_data {n : Nat} (h : n < s.height) :
    s.data.take (n + 1) = s.data.take n ++ [s.byteAt n] := by
  rw [← length_data] at h
  rw [List.take_succ_eq_append_getElem h, byteAt_eq_getElem s h]

theorem take_data_cellBelow {w : Width} {n : Nat} (hw : w.size ≤ n) (hn : n ≤ s.height) :
    s.data.take n = s.data.take (n - w.size) ++ Cell.bytes ⟨w, s.cellBelow w n⟩ := by
  cases w with
  | byte =>
      obtain ⟨k, rfl⟩ : ∃ k, n = k + 1 := ⟨n - 1, by simp only [Width.size] at hw; omega⟩
      rw [take_succ_data s hn, cellBelow, Cell.bytes, Nat.add_sub_cancel, Short.lo_toUInt16,
        Width.size, Nat.add_sub_cancel]
  | short =>
      obtain ⟨k, rfl⟩ : ∃ k, n = k + 2 := ⟨n - 2, by simp only [Width.size] at hw; omega⟩
      have hsecond : k + 2 - 1 = k + 1 := rfl
      rw [take_succ_data s hn, take_succ_data s (by omega), cellBelow, Cell.bytes,
        Short.hi_ofBytes, Short.lo_ofBytes, Width.size, Nat.add_sub_cancel, hsecond,
        List.append_assoc]
      rfl

theorem encode_suffix_data {w : Width} {n : Nat} (hn : n < w.modulus) (hw : w.size ≤ s.height) :
    w.encode n <:+ s.data ↔ (s.cellBelow w s.height).toNat = n := by
  have hdata := s.take_data_cellBelow hw (Nat.le_refl _)
  rw [← length_data, List.take_length, length_data, Cell.bytes_eq_encode] at hdata
  rw [hdata]
  constructor
  · intro hsuffix
    have hsame := (List.suffix_of_suffix_length_le hsuffix (List.suffix_append _ _)
      (by simp)).eq_of_length (by simp)
    have hfin := (Width.encode_inj (a := ⟨n, hn⟩)
      (b := ⟨_, s.inRange_cellBelow w s.height⟩)).mp hsame
    exact (congrArg Fin.val hfin).symm
  · rintro rfl
    exact List.suffix_append _ _

def cellsBelow : List Width → Nat → List Cell
  | [], _ => []
  | w :: ws, n => ⟨w, s.cellBelow w n⟩ :: cellsBelow ws (n - w.size)

@[simp] theorem map_width_cellsBelow (ws : List Width) (n : Nat) :
    (s.cellsBelow ws n).map Cell.width = ws := by
  induction ws generalizing n with
  | nil => rfl
  | cons w ws ih => rw [cellsBelow, List.map_cons, ih]

theorem inRange_cellsBelow (ws : List Width) (n : Nat) :
    ∀ c ∈ s.cellsBelow ws n, c.InRange := by
  induction ws generalizing n with
  | nil =>
      intro c hc
      contradiction
  | cons w ws ih =>
      intro c hc
      rcases List.mem_cons.mp hc with rfl | hrest
      · exact s.inRange_cellBelow w n
      · exact ih _ c hrest

theorem operandsBelow_of_total_le {ws : List Width} {n : Nat} (h : Width.total ws ≤ n) :
    s.operandsBelow ws n =
      ⟨(s.cellsBelow ws n).map Cell.value, n - Width.total ws, true⟩ := by
  induction ws generalizing n with
  | nil => rfl
  | cons w ws ih =>
      rw [Width.total_cons] at h
      have hrest : n - w.size - Width.total ws = n - (w.size + Width.total ws) := by omega
      rw [operandsBelow, if_neg (by omega), ih (by omega), hrest]
      rfl

theorem operandsBelow_of_lt_total {ws : List Width} {n : Nat} (h : n < Width.total ws) :
    (s.operandsBelow ws n).complete = false ∧ (s.operandsBelow ws n).height ≤ n := by
  induction ws generalizing n with
  | nil => exact absurd h (Nat.not_lt_zero n)
  | cons w ws ih =>
      rw [Width.total_cons] at h
      rw [operandsBelow]
      split
      · exact ⟨rfl, Nat.le_refl n⟩
      · have hrest := ih (n := n - w.size) (by omega)
        exact ⟨hrest.1, Nat.le_trans hrest.2 (Nat.sub_le n w.size)⟩

theorem height_operandsBelow_le (ws : List Width) (n : Nat) :
    (s.operandsBelow ws n).height ≤ n := by
  by_cases h : Width.total ws ≤ n
  · simp [operandsBelow_of_total_le s h]
  · exact (s.operandsBelow_of_lt_total (Nat.lt_of_not_le h)).2

theorem take_data_cellsBelow {ws : List Width} {n : Nat} (hws : Width.total ws ≤ n)
    (hn : n ≤ s.height) :
    s.data.take n = s.data.take (n - Width.total ws) ++ Cell.stacked (s.cellsBelow ws n) := by
  induction ws generalizing n with
  | nil => simp [cellsBelow]
  | cons w ws ih =>
      rw [Width.total_cons] at hws
      have hrest : n - w.size - Width.total ws = n - (w.size + Width.total ws) := by omega
      rw [s.take_data_cellBelow (w := w) (by omega) hn, ih (by omega) (by omega), hrest,
        cellsBelow, Cell.stacked_cons, List.append_assoc, Width.total_cons]

/-! ## Bytes above the top do not count -/

variable {s} {t : Stack}

theorem height_congr (h : s.data = t.data) : s.height = t.height := by
  rw [← length_data, ← length_data, h]

theorem byteAt_congr (h : s.data = t.data) {n : Nat} (hn : n < s.height) :
    s.byteAt n = t.byteAt n := by
  rw [← length_data] at hn
  simp only [byteAt_eq_getElem s hn, byteAt_eq_getElem t (h ▸ hn), h]

theorem peek_congr (h : s.data = t.data) (k : Nat) : s.peek k = t.peek k := by
  rw [peek, peek, ← height_congr h]
  split
  · exact byteAt_congr h (by omega)
  · rfl

theorem cellBelow_congr (h : s.data = t.data) {w : Width} {n : Nat} (hw : w.size ≤ n)
    (hn : n ≤ s.height) : s.cellBelow w n = t.cellBelow w n := by
  cases w with
  | byte =>
      rw [Width.size] at hw
      rw [cellBelow, cellBelow, byteAt_congr h (by omega)]
  | short =>
      rw [Width.size] at hw
      rw [cellBelow, cellBelow, byteAt_congr h (by omega), byteAt_congr h (by omega)]

theorem operandsBelow_congr (h : s.data = t.data) (ws : List Width) {n : Nat}
    (hn : n ≤ s.height) : s.operandsBelow ws n = t.operandsBelow ws n := by
  induction ws generalizing n with
  | nil => rfl
  | cons w ws ih =>
      rw [operandsBelow, operandsBelow]
      split
      · rfl
      · next hw => rw [cellBelow_congr h (Nat.le_of_not_lt hw) hn, ih (by omega)]

theorem operands_congr (h : s.data = t.data) (ws : List Width) : s.operands ws = t.operands ws := by
  rw [operands, operands, operandsBelow_congr h ws (Nat.le_refl _), height_congr h]

/-! ## Pushes -/

theorem pushCell_of_le {c : Cell} (h : s.height + c.width.size ≤ 255) :
    s.pushCell c = (.ok (), (s.pushCell c).2) := by
  obtain ⟨w, v⟩ := c
  cases w with
  | byte =>
      have hroom : s.height < 255 := h
      simp only [pushCell, pushByte, dif_pos hroom]
  | short =>
      have hroom : s.height + 1 < 255 := h
      simp only [pushCell, pushShort, dif_pos hroom]

theorem pushCell_of_lt {c : Cell} (h : 255 < s.height + c.width.size) :
    s.pushCell c = (.error .overflow, s) := by
  obtain ⟨w, v⟩ := c
  cases w with
  | byte =>
      have hfull : ¬s.height < 255 := by
        simp only [Width.size] at h
        omega
      simp only [pushCell, pushByte, dif_neg hfull]
  | short =>
      have hfull : ¬s.height + 1 < 255 := by
        simp only [Width.size] at h
        omega
      simp only [pushCell, pushShort, dif_neg hfull]

theorem pushCells_singleton_of_lt {c : Cell} (h : 255 < s.data.length + c.bytes.length) :
    s.pushCells [c] = (.error .overflow, s) := by
  rw [Cell.length_bytes, length_data] at h
  rw [pushCells, pushCell_of_lt h]

theorem pushCells_of_le {cells : List Cell}
    (h : s.data.length + (cells.flatMap Cell.bytes).length ≤ 255) :
    ∃ t, s.pushCells cells = (.ok (), t) ∧ t.data = s.data ++ cells.flatMap Cell.bytes := by
  induction cells generalizing s with
  | nil => exact ⟨s, rfl, (List.append_nil _).symm⟩
  | cons c cells ih =>
      simp only [List.flatMap_cons, List.length_append, Cell.length_bytes, length_data] at h ⊢
      have hdata := s.data_pushCell c (by omega)
      have hlength := congrArg List.length hdata
      simp only [List.length_append, Cell.length_bytes, length_data] at hlength
      obtain ⟨t, ht, hall⟩ := ih (s := (s.pushCell c).2) (by rw [length_data]; omega)
      rw [pushCells, pushCell_of_le (by omega)]
      refine ⟨t, ht, ?_⟩
      rw [hall, hdata, List.append_assoc]

theorem data_pushCells_congr (h : s.data = t.data) (cells : List Cell) :
    (s.pushCells cells).2.data = (t.pushCells cells).2.data := by
  induction cells generalizing s t with
  | nil => exact h
  | cons c cells ih =>
      have hheight := height_congr h
      rw [pushCells, pushCells]
      by_cases hroom : s.height + c.width.size ≤ 255
      · have hroom' : t.height + c.width.size ≤ 255 := hheight ▸ hroom
        rw [pushCell_of_le hroom, pushCell_of_le hroom']
        exact ih (by rw [s.data_pushCell c hroom, t.data_pushCell c hroom', h])
      · have hfull : 255 < t.height + c.width.size := by omega
        rw [pushCell_of_lt (Nat.lt_of_not_le hroom), pushCell_of_lt hfull]
        exact h

theorem pushCells_of_lt {cells : List Cell}
    (h : 255 < s.data.length + (cells.flatMap Cell.bytes).length) :
    (s.pushCells cells).1 = .error .overflow := by
  induction cells generalizing s with
  | nil =>
      have := s.height_le
      simp only [List.flatMap_nil, List.length_nil, length_data] at h
      omega
  | cons c cells ih =>
      simp only [List.flatMap_cons, List.length_append, Cell.length_bytes, length_data] at h
      rw [pushCells]
      by_cases hroom : s.height + c.width.size ≤ 255
      · have hlength := congrArg List.length (s.data_pushCell c hroom)
        simp only [List.length_append, Cell.length_bytes, length_data] at hlength
        rw [pushCell_of_le hroom]
        exact ih (by rw [length_data]; omega)
      · rw [pushCell_of_lt (by omega)]

theorem pushCells_fst (s : Stack) (cells : List Cell) :
    (s.pushCells cells).1 =
      if s.data.length + (cells.flatMap Cell.bytes).length ≤ 255 then .ok ()
      else .error .overflow := by
  split
  · next h =>
      obtain ⟨t, ht, -⟩ := pushCells_of_le h
      rw [ht]
  · next h => exact pushCells_of_lt (Nat.lt_of_not_le h)

/-- A push that overflows has pushed some of its cells, but none of them in part. -/
theorem exists_pushCells (s : Stack) (cells : List Cell) :
    ∃ done, done <+: cells ∧ (s.pushCells cells).2.data = s.data ++ done.flatMap Cell.bytes ∧
      ((s.pushCells cells).1 = .error .overflow → done ≠ cells) := by
  induction cells generalizing s with
  | nil => exact ⟨[], List.prefix_refl [], by simp [pushCells]⟩
  | cons c cells ih =>
      rw [pushCells]
      by_cases hroom : s.height + c.width.size ≤ 255
      · obtain ⟨done, hdone, hdata, hproper⟩ := ih (s.pushCell c).2
        rw [pushCell_of_le hroom]
        refine ⟨c :: done, List.cons_prefix_cons.mpr ⟨rfl, hdone⟩, ?_, ?_⟩
        · simp [hdata, s.data_pushCell c hroom]
        · intro herror hall
          exact hproper herror (List.cons.inj hall).2
      · rw [pushCell_of_lt (by omega)]
        exact ⟨[], List.nil_prefix, by simp⟩

end Stack

end StackComputer
