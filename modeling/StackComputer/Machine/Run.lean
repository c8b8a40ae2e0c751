import StackComputer.Machine.Step

/-!
Evaluation: instructions are executed until one stops or faults.

Programs may run forever, so a run is given fuel, one unit per instruction, and
has no result if that is used up.  More fuel never changes a result.
-/

namespace StackComputer.Config

variable {σ : Type}

def run (dev : Device σ) : Nat → Short → Config σ → Option (Bool × Config σ)
  | 0, _, _ => none
  | fuel + 1, pc, c =>
      let instruction := c.machine.ram.read pc
      match c.step dev pc with
      | (.next pc', c') => run dev fuel pc' c'
      | (.stop, c') => some (true, c')
      | (.fault cause, c') => some (dev.halt ⟨cause, pc, instruction⟩ c')

/-- Nothing is executed at address 0 or while the machine is halted; the result is then `false`. -/
def eval (dev : Device σ) (fuel : Nat) (pc : Short) (c : Config σ) : Option (Bool × Config σ) :=
  if pc = 0 ∨ c.machine.halted then some (false, c) else run dev fuel pc c

theorem run_mono (dev : Device σ) {fuel₁ fuel₂ : Nat} (h : fuel₁ ≤ fuel₂)
    {pc : Short} {c : Config σ} {r : Bool × Config σ}
    (hr : run dev fuel₁ pc c = some r) : run dev fuel₂ pc c = some r := by
  induction fuel₁ generalizing fuel₂ pc c with
  | zero => simp [run] at hr
  | succ n ih =>
      obtain ⟨m, rfl⟩ : ∃ m, fuel₂ = m + 1 := ⟨fuel₂ - 1, by omega⟩
      simp only [run] at hr ⊢
      split at hr
      · exact ih (by omega) hr
      · exact hr
      · exact hr

theorem eval_mono (dev : Device σ) {fuel₁ fuel₂ : Nat} (h : fuel₁ ≤ fuel₂)
    {pc : Short} {c : Config σ} {r : Bool × Config σ}
    (hr : eval dev fuel₁ pc c = some r) : eval dev fuel₂ pc c = some r := by
  unfold eval at hr ⊢
  split
  · simpa [*] using hr
  · simp only [*, if_false] at hr
    exact run_mono dev h hr

end StackComputer.Config
