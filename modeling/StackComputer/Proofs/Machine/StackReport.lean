import StackComputer.Peripherals.Basic
import StackComputer.Proofs.Machine.Cells

/-!
# Reading stack reports

A line of a report has eight places, each two digits and a mark.  Zeros below
the bottom look like zeros on the stack, but the bar tells them apart: the bytes
after it are those of the stack, and without a bar all eight are.
-/

namespace StackComputer

namespace Stack

def shown (s : Stack) : List Byte :=
  s.data.drop (s.height - 8)

theorem length_shown (s : Stack) : s.shown.length = min s.height 8 := by
  rw [shown, List.length_drop, length_data]
  omega

theorem sub_length_shown (s : Stack) : 8 - s.shown.length = 8 - s.height := by
  rw [length_shown]
  omega

theorem drop_data_eq_cons (s : Stack) {n : Nat} (h : n < s.height) :
    s.data.drop (s.height - (n + 1)) = s.peek n :: s.data.drop (s.height - n) := by
  have hpos : s.height - (n + 1) < s.data.length := by
    rw [length_data]
    omega
  have hnext : s.height - (n + 1) + 1 = s.height - n := by omega
  have hsame : s.height - 1 - n = s.height - (n + 1) := by omega
  rw [List.drop_eq_getElem_cons hpos, hnext, peek, if_pos h, hsame, byteAt_eq_getElem s hpos]

end Stack

namespace StackReport

/-! ## Places -/

/-- A byte with the mark that stands after it. -/
abbrev Place := Byte × Char

def Place.text (p : Place) : List Char :=
  Hex.byte p.1 ++ [p.2]

def padding : Nat → List Place
  | 0 => []
  | n + 1 => List.replicate n (0, ' ') ++ [(0, '|')]

theorem padding_add_two (n : Nat) : padding (n + 2) = (0, ' ') :: padding (n + 1) := rfl

/-- All eight places of a line: the bytes to the right, padding to the left of them. -/
def places (top : List Byte) : List Place :=
  padding (8 - top.length) ++ top.map (·, ' ')

theorem peek_of_height_le {s : Stack} {k : Nat} (h : s.height ≤ k) : s.peek k = 0 := by
  rw [Stack.peek, if_neg (Nat.not_lt.mpr h)]

theorem map_range_place (s : Stack) (n : Nat) :
    (List.range n).reverse.map (fun k => (s.peek k, if k = s.height then '|' else ' ')) =
      padding (n - s.height) ++ (s.data.drop (s.height - n)).map (·, ' ') := by
  induction n with
  | zero =>
      have hall : s.data.drop (s.height - 0) = [] := by
        rw [Nat.sub_zero, ← s.length_data, List.drop_length]
      rw [hall, Nat.zero_sub]
      rfl
  | succ n ih =>
      rw [List.range_succ, List.reverse_concat, List.map_cons, ih]
      rcases Nat.lt_trichotomy n s.height with h | h | h
      · -- one more byte of the stack
        have hpadding : n + 1 - s.height = 0 := by omega
        have hpadding' : n - s.height = 0 := by omega
        rw [hpadding, hpadding', s.drop_data_eq_cons h, if_neg (Nat.ne_of_lt h)]
        rfl
      · -- the first place below the bottom
        have hpadding : n + 1 - s.height = 1 := by omega
        have hpadding' : n - s.height = 0 := by omega
        have hdrop : s.height - (n + 1) = s.height - n := by omega
        rw [hpadding, hpadding', hdrop, peek_of_height_le (Nat.le_of_eq h.symm), if_pos h]
        rfl
      · have hpadding : n + 1 - s.height = n - s.height - 1 + 2 := by omega
        have hpadding' : n - s.height = n - s.height - 1 + 1 := by omega
        have hdrop : s.height - (n + 1) = s.height - n := by omega
        rw [hpadding, padding_add_two, ← hpadding', hdrop, peek_of_height_le (Nat.le_of_lt h),
          if_neg (Nat.ne_of_gt h)]
        rfl

theorem line_eq (label : List Char) (s : Stack) :
    line label s = label ++ [' '] ++ (places s.shown).flatMap Place.text ++ ['<', '\n'] := by
  have hrange : [7, 6, 5, 4, 3, 2, 1, 0] = (List.range 8).reverse := rfl
  rw [line, hrange, places, s.sub_length_shown, Stack.shown, ← map_range_place, List.flatMap_map]
  rfl

theorem map_fst_padding (n : Nat) : (padding n).map Prod.fst = List.replicate n 0 := by
  cases n with
  | zero => rfl
  | succ n => simp [padding, List.replicate_succ']

theorem map_fst_bytes (top : List Byte) : (top.map fun b => (b, ' ')).map Prod.fst = top := by
  rw [List.map_map]
  exact List.map_id _

theorem map_fst_places (top : List Byte) :
    (places top).map Prod.fst = List.replicate (8 - top.length) 0 ++ top := by
  rw [places, List.map_append, map_fst_bytes, map_fst_padding]

theorem length_places {top : List Byte} (h : top.length ≤ 8) : (places top).length = 8 := by
  rw [← List.length_map Prod.fst, map_fst_places, List.length_append, List.length_replicate]
  omega

/-! ## Bars -/

theorem count_bar_text (p : Place) : p.text.count '|' = if p.2 = '|' then 1 else 0 := by
  obtain ⟨b, mark⟩ := p
  have hb := b.toNat_lt
  have hdigits : ∀ n < 16, n.digitChar ≠ '|' := by decide
  have hhigh := hdigits (b.toNat / 16) (by omega)
  have hlow := hdigits (b.toNat % 16) (by omega)
  simp [Place.text, Hex.byte, List.count_cons, hhigh, hlow]

theorem count_bar_flatMap (ps : List Place) :
    (ps.flatMap Place.text).count '|' = ps.countP (·.2 = '|') := by
  induction ps with
  | nil => rfl
  | cons p ps ih =>
      rw [List.flatMap_cons, List.count_append, count_bar_text, ih, List.countP_cons,
        Nat.add_comm]
      simp

theorem count_bar_places (top : List Byte) :
    (places top).countP (·.2 = '|') = if top.length < 8 then 1 else 0 := by
  have hbytes : (top.map fun b => (b, ' ')).countP (·.2 = '|') = 0 := by
    simp [List.countP_eq_zero]
  rw [places, List.countP_append, hbytes]
  by_cases h : top.length < 8
  · obtain ⟨n, hn⟩ : ∃ n, 8 - top.length = n + 1 := ⟨7 - top.length, by omega⟩
    rw [hn, if_pos h]
    simp [padding]
  · rw [Nat.sub_eq_zero_of_le (Nat.le_of_not_lt h), if_neg h]
    rfl

theorem count_bar_line (label : List Char) (s : Stack) :
    (line label s).count '|' = label.count '|' + if s.height < 8 then 1 else 0 := by
  have hsight : s.shown.length < 8 ↔ s.height < 8 := by
    rw [s.length_shown]
    omega
  rw [line_eq, List.count_append, List.count_append, List.count_append, count_bar_flatMap,
    count_bar_places]
  simp [hsight]

/-! ## Reading a report -/

def digit? (c : Char) : Option Nat :=
  (List.range 16).find? fun n => n.digitChar = c

def decodePlace? : List Char → Option (Place × List Char)
  | high :: low :: mark :: text => do
      let high ← digit? high
      let low ← digit? low
      some ((.ofNat (16 * high + low), mark), text)
  | _ => none

def decodePlaces? : Nat → List Char → Option (List Place × List Char)
  | 0, text => some ([], text)
  | n + 1, text => do
      let (p, text) ← decodePlace? text
      let (ps, text) ← decodePlaces? n text
      some (p :: ps, text)

def occupied (ps : List Place) : List Byte :=
  match ps.dropWhile (·.2 ≠ '|') with
  | [] => ps.map Prod.fst
  | _ :: above => above.map Prod.fst

def decodeLine? (text : List Char) : Option (List Byte × List Char) := do
  let (ps, text) ← decodePlaces? 8 (text.drop 4)
  some (occupied ps, text.drop 2)

def decode? (text : List Char) : Option (List Byte × List Byte) := do
  let (wst, text) ← decodeLine? text
  let (rst, _) ← decodeLine? text
  some (wst, rst)

theorem digit?_digitChar {n : Nat} (h : n < 16) : digit? n.digitChar = some n := by
  have hall : ∀ n < 16, digit? n.digitChar = some n := by decide
  exact hall n h

theorem decodePlace?_suffix (p : Place) (text : List Char) :
    decodePlace? (p.text ++ text) = some (p, text) := by
  obtain ⟨b, mark⟩ := p
  have hb := b.toNat_lt
  have hhigh := digit?_digitChar (n := b.toNat / 16) (by omega)
  have hlow := digit?_digitChar (n := b.toNat % 16) (by omega)
  have hvalue : UInt8.ofNat (16 * (b.toNat / 16) + b.toNat % 16) = b := by
    rw [Nat.div_add_mod, UInt8.ofNat_toNat]
  change (do
    let high ← digit? (b.toNat / 16).digitChar
    let low ← digit? (b.toNat % 16).digitChar
    some ((UInt8.ofNat (16 * high + low), mark), text)) = _
  rw [hhigh, hlow]
  exact congrArg (fun b => some ((b, mark), text)) hvalue

theorem decodePlaces?_suffix (ps : List Place) (text : List Char) :
    decodePlaces? ps.length (ps.flatMap Place.text ++ text) = some (ps, text) := by
  induction ps with
  | nil => rfl
  | cons p ps ih =>
      simp [decodePlaces?, decodePlace?_suffix, ih]

theorem occupied_places (top : List Byte) : occupied (places top) = top := by
  rw [places]
  cases 8 - top.length with
  | zero =>
      have hnone : (top.map fun b => (b, ' ')).dropWhile (·.2 ≠ '|') = [] := by
        rw [← List.append_nil (top.map _), List.dropWhile_append_of_pos (by simp)]
        rfl
      rw [padding, List.nil_append, occupied, hnone]
      exact map_fst_bytes top
  | succ n =>
      have hbar : (padding (n + 1) ++ top.map fun b => (b, ' ')).dropWhile (·.2 ≠ '|') =
          (0, '|') :: top.map fun b => (b, ' ') := by
        rw [padding, List.append_assoc, List.dropWhile_append_of_pos (by simp)]
        rfl
      rw [occupied, hbar]
      exact map_fst_bytes top

theorem decodeLine?_suffix {label : List Char} (h : label.length = 3) (s : Stack)
    (text : List Char) : decodeLine? (line label s ++ text) = some (s.shown, text) := by
  have hlabel : (label ++ [' ']).length = 4 := by rw [List.length_append, h]; rfl
  have hplaces : (places s.shown).length = 8 :=
    length_places (s.length_shown ▸ Nat.min_le_right ..)
  have hdrop : (line label s ++ text).drop 4 =
      (places s.shown).flatMap Place.text ++ (['<', '\n'] ++ text) := by
    rw [line_eq, List.append_assoc, List.append_assoc, List.append_assoc, ← List.append_assoc label]
    exact List.drop_left' hlabel
  rw [decodeLine?, hdrop, ← hplaces, decodePlaces?_suffix]
  simp [occupied_places]

theorem decode?_text (m : Machine) : decode? (text m) = some (m.wst.shown, m.rst.shown) := by
  have hrst : decodeLine? (line ['R', 'S', 'T'] m.rst) = some (m.rst.shown, []) := by
    rw [← List.append_nil (line _ _), decodeLine?_suffix rfl]
  rw [decode?, text, decodeLine?_suffix rfl]
  simp [hrst]

/--
A report can be read back to the top of either stack, as far as eight bytes go,
so two reports are the same just if the stacks agree there.  A line is the bytes
bottom first behind padding that ends in the bar, and has a bar only then.
-/
theorem text_unambiguous (m : Machine) :
    (∀ s : Stack, s.shown <:+ s.data ∧ s.shown.length = min s.height 8 ∧
      (places s.shown).map Prod.fst = List.replicate (8 - s.height) 0 ++ s.shown ∧
      ∀ label,
        line label s = label ++ [' '] ++ (places s.shown).flatMap Place.text ++ ['<', '\n'] ∧
        (line label s).count '|' = label.count '|' + if s.height < 8 then 1 else 0) ∧
    decode? (text m) = some (m.wst.shown, m.rst.shown) ∧
    ∀ n : Machine, text m = text n ↔ m.wst.shown = n.wst.shown ∧ m.rst.shown = n.rst.shown := by
  refine ⟨fun s => ⟨List.drop_suffix _ _, s.length_shown, ?_, fun label =>
    ⟨line_eq label s, count_bar_line label s⟩⟩, decode?_text m, fun n => ⟨fun h => ?_, ?_⟩⟩
  · rw [map_fst_places, s.sub_length_shown]
  · have hread := congrArg decode? h
    rw [decode?_text, decode?_text, Option.some.injEq, Prod.mk.injEq] at hread
    exact hread
  · rintro ⟨hwst, hrst⟩
    rw [text, text, line_eq, line_eq, line_eq, line_eq, hwst, hrst]

end StackReport

end StackComputer
