import Mathlib.Algebra.GroupWithZero.Nat
import StackComputer.Screen.Grid
import StackComputer.Word

/-!
# Checked operations

The running definitions are total: an index out of range is ignored and numbers
are cut to size.  Here every access is checked against its bounds and every
result against its type, and an operation that fails its check panics.  Sums and
products are computed exactly and then checked, so none of them goes around
unless it is written as one that wraps.
-/

namespace StackComputer

inductive Panic where
  | outOfBounds
  | overflow
  deriving DecidableEq, Repr

abbrev Checked (α : Type) := Except Panic α

namespace Checked

variable {α : Type}

@[simp] theorem ok_bind {β : Type} (a : α) (f : α → Checked β) :
    ((.ok a : Checked α) >>= f) = f a := rfl

@[simp] theorem pure_eq (a : α) : (pure a : Checked α) = .ok a := rfl

/-! ## Numbers -/

def byte (n : Nat) : Checked Byte :=
  if n < 256 then .ok (.ofNat n) else .error .overflow

def short (n : Nat) : Checked Short :=
  if n < 65536 then .ok (.ofNat n) else .error .overflow

def count (n : Nat) : Checked Nat :=
  if n < 2 ^ 64 then .ok n else .error .overflow

def sub (n k : Nat) : Checked Nat :=
  if k ≤ n then .ok (n - k) else .error .overflow

theorem byte_eq {n : Nat} (h : n < 256) : byte n = .ok (.ofNat n) := by
  rw [byte, if_pos h]

theorem short_eq {n : Nat} (h : n < 65536) : short n = .ok (.ofNat n) := by
  rw [short, if_pos h]

theorem toNat_ofNat {n : Nat} (h : n < 65536) : (UInt16.ofNat n).toNat = n :=
  Nat.mod_eq_of_lt h

theorem count_eq {n : Nat} (h : n < 2 ^ 64) : count n = .ok n := by
  rw [count, if_pos h]

theorem sub_eq {n k : Nat} (h : k ≤ n) : sub n k = .ok (n - k) := by
  rw [sub, if_pos h]

/-! ## Arrays -/

def get (xs : Array α) (i : Nat) : Checked α :=
  match xs[i]? with
  | some x => .ok x
  | none => .error .outOfBounds

def set (xs : Array α) (i : Nat) (x : α) : Checked (Array α) :=
  if i < xs.size then .ok (xs.setIfInBounds i x) else .error .outOfBounds

def range (size lo hi : Nat) : Checked Unit :=
  if lo ≤ hi ∧ hi ≤ size then .ok () else .error .outOfBounds

def fillRange (xs : Array α) (lo hi : Nat) (x : α) : Checked (Array α) := do
  range xs.size lo hi
  pure (Grid.paintRow (fun _ => x) (hi - lo) lo xs)

def getAt {n : Nat} (xs : Vector α n) (i : Nat) : Checked α :=
  if h : i < n then .ok xs[i] else .error .outOfBounds

def setAt {n : Nat} (xs : Vector α n) (i : Nat) (x : α) : Checked (Vector α n) :=
  if h : i < n then .ok (xs.set i x h) else .error .outOfBounds

theorem get_eq {xs : Array α} {i : Nat} {x : α} (h : xs[i]? = some x) : get xs i = .ok x := by
  rw [get, h]

theorem set_eq {xs : Array α} {i : Nat} (h : i < xs.size) (x : α) :
    set xs i x = .ok (xs.setIfInBounds i x) := by
  rw [set, if_pos h]

theorem range_eq {size lo hi : Nat} (hle : lo ≤ hi) (hhi : hi ≤ size) :
    range size lo hi = .ok () := by
  rw [range, if_pos ⟨hle, hhi⟩]

theorem fillRange_eq {xs : Array α} {lo hi : Nat} (hle : lo ≤ hi) (hhi : hi ≤ xs.size) (x : α) :
    fillRange xs lo hi x = .ok (Grid.paintRow (fun _ => x) (hi - lo) lo xs) := by
  rw [fillRange, range_eq hle hhi]
  rfl

theorem getAt_eq {n i : Nat} (xs : Vector α n) (h : i < n) : getAt xs i = .ok xs[i] := by
  rw [getAt, dif_pos h]

theorem setAt_eq {n i : Nat} (xs : Vector α n) (h : i < n) (x : α) :
    setAt xs i x = .ok (xs.set i x h) := by
  rw [setAt, dif_pos h]

/-! ## Loops -/

theorem foldlM_eq {β : Type} {P : β → Prop} {f : β → α → Checked β} {g : β → α → β}
    (xs : List α) (hf : ∀ x ∈ xs, ∀ b, P b → f b x = .ok (g b x))
    (hg : ∀ x ∈ xs, ∀ b, P b → P (g b x)) {b : β} (hb : P b) :
    xs.foldlM f b = .ok (xs.foldl g b) := by
  induction xs generalizing b with
  | nil => rfl
  | cons x xs ih =>
      rw [List.foldlM_cons, hf x List.mem_cons_self b hb, ok_bind, List.foldl_cons]
      exact ih (fun y hy => hf y (List.mem_cons_of_mem x hy))
        (fun y hy => hg y (List.mem_cons_of_mem x hy)) (hg x List.mem_cons_self b hb)

theorem mapM_eq {β : Type} {f : α → Checked β} {g : α → β} (xs : List α)
    (hf : ∀ x ∈ xs, f x = .ok (g x)) : xs.mapM f = .ok (xs.map g) := by
  induction xs with
  | nil => rfl
  | cons x xs ih =>
      rw [List.mapM_cons, hf x List.mem_cons_self, ok_bind,
        ih fun y hy => hf y (List.mem_cons_of_mem x hy)]
      rfl

end Checked

end StackComputer
