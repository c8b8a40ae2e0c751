/-!
A rectangle of cells stored row by row in an array.

The width is not stored with the cells.  Cells beyond the end of the array
read as absent, and writing them changes nothing.
-/

namespace StackComputer.Grid

variable {α : Type}

def index (width x y : Nat) : Nat :=
  y * width + x

@[specialize] def paintRow (f : Nat → α) : (n i : Nat) → Array α → Array α
  | 0, _, cells => cells
  | n + 1, i, cells => paintRow f n (i + 1) (cells.setIfInBounds i (f i))

/-- Paints `n` columns from `x` on in each of some rows, from row `y` on. -/
@[specialize] def paintRows (f : Nat → α) (width x n : Nat) :
    (rows y : Nat) → Array α → Array α
  | 0, _, cells => cells
  | rows + 1, y, cells =>
      paintRows f width x n rows (y + 1) (paintRow f n (index width x y) cells)

theorem size_paintRow (f : Nat → α) (n i : Nat) (cells : Array α) :
    (paintRow f n i cells).size = cells.size := by
  induction n generalizing i cells with
  | zero => rfl
  | succ n ih => simp [paintRow, ih]

theorem size_paintRows (f : Nat → α) (width x n rows y : Nat) (cells : Array α) :
    (paintRows f width x n rows y cells).size = cells.size := by
  induction rows generalizing y cells with
  | zero => rfl
  | succ rows ih => simp [paintRows, ih, size_paintRow]

theorem getElem?_paintRow (f : Nat → α) (n i : Nat) (cells : Array α) (k : Nat) :
    (paintRow f n i cells)[k]? =
      if i ≤ k ∧ k < i + n ∧ k < cells.size then some (f k) else cells[k]? := by
  induction n generalizing i cells with
  | zero => simp only [paintRow]; grind
  | succ n ih =>
      simp only [paintRow, ih, Array.size_setIfInBounds, Array.getElem?_setIfInBounds]
      grind

end StackComputer.Grid
