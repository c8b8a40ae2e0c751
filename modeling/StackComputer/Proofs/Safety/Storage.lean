import StackComputer.Machine.Basic
import StackComputer.Proofs.Safety.Checked

/-!
# Checked stacks and memory

Stacks are accessed with every index checked against their 255 bytes and every
new height checked to fit in a byte.  A height never exceeds the capacity, so no
check ever fails.  Memory has an entry for each address; so have the ports, and
there the running definitions already carry the proof.
-/

namespace StackComputer

namespace Stack.Checked

open StackComputer.Checked

def ofHeight (bytes : Vector Byte 255) (height : Byte) : Stack :=
  ⟨bytes, height.toNat, Nat.le_of_lt_succ height.toNat_lt⟩

def pushByte (s : Stack) (v : Byte) : Checked (Except Cause Unit × Stack) :=
  if s.height ≥ 255 then pure (.error .overflow, s)
  else do
    let bytes ← setAt s.bytes s.height v
    let height ← byte (s.height + 1)
    pure (.ok (), ofHeight bytes height)

def pushShort (s : Stack) (v : Short) : Checked (Except Cause Unit × Stack) := do
  let needed ← count (s.height + 2)
  if needed > 255 then pure (.error .overflow, s)
  else do
    let bytes ← setAt s.bytes s.height v.hi
    let second ← count (s.height + 1)
    let bytes ← setAt bytes second v.lo
    let height ← byte (s.height + 2)
    pure (.ok (), ofHeight bytes height)

def pushCell (s : Stack) : Cell → Checked (Except Cause Unit × Stack)
  | ⟨.byte, v⟩ => pushByte s v.lo
  | ⟨.short, v⟩ => pushShort s v

def pushCells : Stack → List Cell → Checked (Except Cause Unit × Stack)
  | s, [] => pure (.ok (), s)
  | s, c :: cs => do
      match ← pushCell s c with
      | (.ok (), s') => pushCells s' cs
      | (.error e, s') => pure (.error e, s')

def cellAt (s : Stack) (w : Width) (n : Nat) : Checked Short :=
  match w with
  | .byte => do
      let v ← getAt s.bytes n
      pure v.toUInt16
  | .short => do
      let hi ← getAt s.bytes n
      let second ← count (n + 1)
      let lo ← getAt s.bytes second
      pure (.ofBytes hi lo)

def operandsBelow (s : Stack) : List Width → Nat → Checked Operands
  | [], n => pure ⟨[], n, true⟩
  | w :: ws, n =>
      if n < w.size then pure ⟨[], n, false⟩
      else do
        let below ← sub n w.size
        let v ← cellAt s w below
        let rest ← operandsBelow s ws below
        pure ⟨v :: rest.values, rest.height, rest.complete⟩

def peek (s : Stack) (k : Nat) : Checked Byte := do
  let depth ← count (k + 1)
  if s.height < depth then pure 0
  else do
    let i ← sub s.height depth
    getAt s.bytes i

def data (s : Stack) : Checked (List Byte) := do
  range 255 0 s.height
  pure (s.bytes.toList.take s.height)

/-! ## No check on a stack fails -/

theorem pushByte_eq (s : Stack) (v : Byte) : pushByte s v = .ok (s.pushByte v) := by
  unfold pushByte Stack.pushByte
  by_cases h : s.height < 255
  · have hbyte : (UInt8.ofNat (s.height + 1)).toNat = s.height + 1 :=
      Nat.mod_eq_of_lt (show s.height + 1 < 256 by omega)
    rw [if_neg (by omega), dif_pos h, setAt_eq _ h, ok_bind, byte_eq (by omega), ok_bind]
    simp only [ofHeight, hbyte, pure_eq]
  · rw [if_pos (by omega), dif_neg h]
    rfl

theorem pushShort_eq (s : Stack) (v : Short) : pushShort s v = .ok (s.pushShort v) := by
  have hle := s.height_le
  unfold pushShort Stack.pushShort
  rw [count_eq (by omega), ok_bind]
  by_cases h : s.height + 1 < 255
  · have hbyte : (UInt8.ofNat (s.height + 2)).toNat = s.height + 2 :=
      Nat.mod_eq_of_lt (show s.height + 2 < 256 by omega)
    rw [if_neg (by omega), dif_pos h, setAt_eq _ (by omega), ok_bind, count_eq (by omega),
      ok_bind, setAt_eq _ h, ok_bind, byte_eq (by omega), ok_bind]
    simp only [ofHeight, hbyte, pure_eq]
  · rw [if_pos (by omega), dif_neg h]
    rfl

theorem pushCell_eq (s : Stack) (c : Cell) : pushCell s c = .ok (s.pushCell c) := by
  obtain ⟨w, v⟩ := c
  cases w with
  | byte => exact pushByte_eq s v.lo
  | short => exact pushShort_eq s v

theorem pushCells_eq (s : Stack) (cs : List Cell) : pushCells s cs = .ok (s.pushCells cs) := by
  induction cs generalizing s with
  | nil => rfl
  | cons c cs ih =>
      rw [pushCells, pushCell_eq, ok_bind, Stack.pushCells]
      cases hpush : s.pushCell c with
      | mk result s' =>
          cases result with
          | ok u => exact ih s'
          | error e => rfl

theorem cellAt_eq (s : Stack) (w : Width) {n : Nat} (hw : w.size ≤ n) (hn : n ≤ 255) :
    cellAt s w (n - w.size) = .ok (s.cellBelow w n) := by
  cases w with
  | byte =>
      have hi : n - 1 < 255 := by
        simp only [Width.size] at hw
        omega
      rw [Width.size, cellAt, getAt_eq _ hi, ok_bind, cellBelow, byteAt, dif_pos hi]
      rfl
  | short =>
      have hi : n - 2 < 255 := by
        simp only [Width.size] at hw
        omega
      have hsecond : n - 2 + 1 = n - 1 := by
        simp only [Width.size] at hw
        omega
      have hlo : n - 1 < 255 := by omega
      rw [Width.size, cellAt, getAt_eq _ hi, ok_bind, hsecond, count_eq (by omega), ok_bind,
        getAt_eq _ hlo, ok_bind, cellBelow, byteAt, byteAt, dif_pos hi, dif_pos hlo]
      rfl

theorem operandsBelow_eq (s : Stack) (ws : List Width) {n : Nat} (hn : n ≤ 255) :
    operandsBelow s ws n = .ok (s.operandsBelow ws n) := by
  induction ws generalizing n with
  | nil => rfl
  | cons w ws ih =>
      rw [operandsBelow, Stack.operandsBelow]
      split
      · rfl
      · next h =>
          have hw : w.size ≤ n := Nat.le_of_not_lt h
          rw [sub_eq hw, ok_bind, cellAt_eq s w hw hn, ok_bind, ih (by omega), ok_bind]
          rfl

theorem peek_eq (s : Stack) {k : Nat} (hk : k < 256) : peek s k = .ok (s.peek k) := by
  have hle := s.height_le
  rw [peek, count_eq (by omega), ok_bind, Stack.peek]
  by_cases h : k < s.height
  · have hi : s.height - (k + 1) < 255 := by omega
    have hsame : s.height - 1 - k = s.height - (k + 1) := by omega
    rw [if_neg (by omega), if_pos h, sub_eq (by omega), ok_bind, getAt_eq _ hi, hsame, byteAt,
      dif_pos hi]
  · rw [if_pos (by omega), if_neg h]
    rfl

theorem data_eq (s : Stack) : data s = .ok s.data := by
  rw [data, range_eq (Nat.zero_le _) s.height_le]
  rfl

end Stack.Checked

/-! ## Memory -/

namespace Ram.Checked

open StackComputer.Checked

def read (r : Ram) (a : Short) : Checked Byte :=
  getAt r.bytes a.toNat

def write (r : Ram) (a : Short) (v : Byte) : Checked Ram := do
  let bytes ← setAt r.bytes a.toNat v
  pure ⟨bytes⟩

def readShort (r : Ram) (a : Short) : Checked Short := do
  let hi ← read r a
  let lo ← read r (a + 1)
  pure (.ofBytes hi lo)

def readCell (r : Ram) (w : Width) (a : Short) : Checked Short :=
  match w with
  | .byte => do
      let v ← read r a
      pure v.toUInt16
  | .short => readShort r a

def writeCell (r : Ram) (w : Width) (a v : Short) : Checked Ram :=
  match w with
  | .byte => write r a v.lo
  | .short => do
      let r ← write r a v.hi
      write r (a + 1) v.lo

theorem read_eq (r : Ram) (a : Short) : read r a = .ok (r.read a) :=
  getAt_eq r.bytes a.toNat_lt

theorem write_eq (r : Ram) (a : Short) (v : Byte) : write r a v = .ok (r.write a v) := by
  rw [write, setAt_eq r.bytes a.toNat_lt]
  rfl

theorem readShort_eq (r : Ram) (a : Short) : readShort r a = .ok (r.readShort a) := by
  rw [readShort, read_eq, ok_bind, read_eq]
  rfl

theorem readCell_eq (r : Ram) (w : Width) (a : Short) :
    readCell r w a = .ok (r.readCell w a) := by
  cases w with
  | byte =>
      rw [readCell, read_eq]
      rfl
  | short => exact readShort_eq r a

theorem writeCell_eq (r : Ram) (w : Width) (a v : Short) :
    writeCell r w a v = .ok (r.writeCell w a v) := by
  cases w with
  | byte => exact write_eq r a v.lo
  | short =>
      rw [writeCell, write_eq, ok_bind, write_eq]
      rfl

end Ram.Checked

end StackComputer
