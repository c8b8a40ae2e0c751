import StackComputer.Fault

/-!
A stack of 255 bytes.

Popping only lowers the height, so the bytes above it stay where they are and
show again when the height is raised by hand.  `Stack.data` is the part that
counts, bottom first; every operation is described by what it does to it.
-/

namespace StackComputer

structure Cell where
  width : Width
  value : Short
  deriving DecidableEq, Repr

/-- The bytes of a cell in the order in which they are pushed.  A byte cell keeps the low byte. -/
def Cell.bytes : Cell → List Byte
  | ⟨.byte, v⟩ => [v.lo]
  | ⟨.short, v⟩ => [v.hi, v.lo]

def Stack.capacity : Nat := 255

structure Stack where
  bytes : Vector Byte 255
  height : Nat
  height_le : height ≤ 255
  deriving DecidableEq, Repr

namespace Stack

def empty : Stack := ⟨Vector.replicate 255 0, 0, by decide⟩

instance : Inhabited Stack := ⟨empty⟩

def data (s : Stack) : List Byte :=
  s.bytes.toList.take s.height

def byteAt (s : Stack) (i : Nat) : Byte :=
  if h : i < 255 then s.bytes[i] else 0

/-- The byte `k` places below the top, and 0 below the bottom. -/
def peek (s : Stack) (k : Nat) : Byte :=
  if k < s.height then s.byteAt (s.height - 1 - k) else 0

def setHeight (s : Stack) (n : Nat) : Stack :=
  { s with height := min n 255, height_le := Nat.min_le_right n 255 }

/-! ## Pushing -/

def pushByte (s : Stack) (v : Byte) : Except Cause Unit × Stack :=
  if h : s.height < 255 then
    (.ok (), ⟨s.bytes.set s.height v h, s.height + 1, h⟩)
  else
    (.error .overflow, s)

/-- Both bytes of a short find room, or neither is written. -/
def pushShort (s : Stack) (v : Short) : Except Cause Unit × Stack :=
  if h : s.height + 1 < 255 then
    (.ok (), ⟨(s.bytes.set s.height v.hi (by omega)).set (s.height + 1) v.lo h,
      s.height + 2, h⟩)
  else
    (.error .overflow, s)

def pushCell (s : Stack) : Cell → Except Cause Unit × Stack
  | ⟨.byte, v⟩ => s.pushByte v.lo
  | ⟨.short, v⟩ => s.pushShort v

/-- Pushes in order, and stops at the first cell that finds no room. -/
def pushCells : Stack → List Cell → Except Cause Unit × Stack
  | s, [] => (.ok (), s)
  | s, c :: cs =>
      match s.pushCell c with
      | (.ok (), s') => pushCells s' cs
      | (.error e, s') => (.error e, s')

def pushBytes : Stack → List Byte → Except Cause Unit × Stack
  | s, [] => (.ok (), s)
  | s, b :: bs =>
      match s.pushByte b with
      | (.ok (), s') => pushBytes s' bs
      | (.error e, s') => (.error e, s')

/-! ## Popping -/

def cellBelow (s : Stack) (w : Width) (n : Nat) : Short :=
  match w with
  | .byte => (s.byteAt (n - 1)).toUInt16
  | .short => .ofBytes (s.byteAt (n - 2)) (s.byteAt (n - 1))

def popByte (s : Stack) : Except Cause Byte × Stack :=
  if s.height < 1 then (.error .underflow, s)
  else (.ok (s.byteAt (s.height - 1)), s.setHeight (s.height - 1))

def popShort (s : Stack) : Except Cause Short × Stack :=
  if s.height < 2 then (.error .underflow, s)
  else (.ok (s.cellBelow .short s.height), s.setHeight (s.height - 2))

/--
The result of looking for some cells from the top down: the values found, the
height below the last of them, and whether none was missing.
-/
structure Operands where
  values : List Short
  height : Nat
  complete : Bool
  deriving DecidableEq, Repr

def operandsBelow (s : Stack) : List Width → Nat → Operands
  | [], n => ⟨[], n, true⟩
  | w :: ws, n =>
      if n < w.size then ⟨[], n, false⟩
      else
        let rest := s.operandsBelow ws (n - w.size)
        ⟨s.cellBelow w n :: rest.values, rest.height, rest.complete⟩

def operands (s : Stack) (ws : List Width) : Operands :=
  s.operandsBelow ws s.height

/-! ## What the operations do to the data -/

@[simp] theorem length_data (s : Stack) : s.data.length = s.height := by
  simp [data, s.height_le]

@[simp] theorem data_empty : empty.data = [] := rfl

theorem data_setHeight (s : Stack) {n : Nat} (h : n ≤ s.height) :
    (s.setHeight n).data = s.data.take n := by
  have := s.height_le
  simp only [data, setHeight, List.take_take]
  congr 1
  omega

theorem data_pushByte (s : Stack) (v : Byte) (h : s.height < 255) :
    (s.pushByte v).2.data = s.data ++ [v] := by
  simp only [pushByte, h, dite_true, data]
  apply List.ext_getElem
  · simp; omega
  · intro i h₁ h₂
    simp only [List.getElem_take, Vector.getElem_toList, Vector.getElem_set, List.getElem_append]
    simp at h₁
    grind

theorem data_pushShort (s : Stack) (v : Short) (h : s.height + 1 < 255) :
    (s.pushShort v).2.data = s.data ++ [v.hi, v.lo] := by
  simp only [pushShort, h, dite_true, data]
  apply List.ext_getElem
  · simp; omega
  · intro i h₁ h₂
    simp only [List.getElem_take, Vector.getElem_toList, Vector.getElem_set, List.getElem_append]
    simp at h₁
    grind

theorem data_pushCell (s : Stack) (c : Cell) (h : s.height + c.width.size ≤ 255) :
    (s.pushCell c).2.data = s.data ++ c.bytes := by
  obtain ⟨w, v⟩ := c
  cases w
  · exact s.data_pushByte v.lo (by simp only [Width.size] at h; omega)
  · exact s.data_pushShort v (by simp only [Width.size] at h; omega)

end Stack

end StackComputer
