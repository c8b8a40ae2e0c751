import StackComputer.Proofs.Machine.Blind

/-!
# Return mode

The two stacks play the same part.  An instruction with modes, or a literal,
does with the one that it selects what its mirror image does with the other.
So exchanging the stacks and turning over the return flag come to the same,
in success and in failure.
-/

namespace StackComputer

namespace Instruction

def mirrored (i : Instruction) : Instruction :=
  { i with mode := { i.mode with onReturn := !i.mode.onReturn } }

theorem not_onReturn_mirrored (i : Instruction) :
    (!i.mirrored.mode.onReturn) = i.mode.onReturn :=
  Bool.not_not _

/-- All bytes but the stop and the jumps with an inline distance have a return flag. -/
def HasReturnFlag (b : Byte) : Prop :=
  b % 32 ≠ 0 ∨ b ∈ [0x80, 0xa0, 0xc0, 0xe0]

instance (b : Byte) : Decidable (HasReturnFlag b) :=
  inferInstanceAs (Decidable (_ ∨ _))

theorem decode_mirrored {b : Byte} (hb : HasReturnFlag b) :
    decode (b ^^^ 0x40) = (decode b).mirrored := by
  revert hb
  revert b
  apply Byte.forall_ofNat
  decide +kernel

end Instruction

namespace Config

variable {σ : Type} (c : Config σ) (r : Bool)

/-! ## Exchanging the stacks -/

def swap : Config σ :=
  ⟨{ c.machine with wst := c.machine.rst, rst := c.machine.wst }, c.device⟩

@[simp] theorem stack_swap : c.swap.machine.stack r = c.machine.stack (!r) := by
  cases r <;> rfl

theorem swap_eq_setStack :
    c.swap = (c.setStack false (c.machine.stack true)).setStack true (c.machine.stack false) := rfl

theorem setHeight_swap (n : Nat) : c.swap.setHeight r n = (c.setHeight (!r) n).swap := by
  cases r <;> rfl

theorem pushCells_swap (cells : List Cell) :
    c.swap.pushCells r cells = ((c.pushCells (!r) cells).1, (c.pushCells (!r) cells).2.swap) := by
  cases r <;> rfl

variable {c} {dev : Device σ} {P : Byte → Prop}

theorem produce_swap (hblind : dev.Blind P) {w : Width} {a : Action}
    (ha : ∀ p ∈ a.written w, P p) :
    c.swap.produce dev w a = ((c.produce dev w a).1, (c.produce dev w a).2.swap) := by
  have hstack := hblind.stack_produce ha c
  rw [swap_eq_setStack (c.produce dev w a).2, hstack, hstack, swap_eq_setStack c]
  rw [hblind.produce ha, hblind.produce ha]

/-! ## One instruction -/

theorem act_swap_of_pushes (hblind : dev.Blind P) {i : Instruction} {a : Action} (hpushes : a.Pushes)
    (ha : ∀ p ∈ a.written i.mode.width, P p) (next : Short) :
    c.swap.act dev i.mirrored.mode next a =
      ((c.act dev i.mode next a).1, (c.act dev i.mode next a).2.swap) := by
  rw [act_of_pushes dev _ _ next hpushes, act_of_pushes dev c i.mode next hpushes]
  have hwidth : i.mirrored.mode.width = i.mode.width := rfl
  rw [hwidth, produce_swap hblind ha, pushCells_swap, i.not_onReturn_mirrored]

theorem act_swap (hblind : dev.Blind P) {i : Instruction} {a : Action}
    (ha : ∀ p ∈ a.written i.mode.width, P p) (next : Short) :
    c.swap.act dev i.mirrored.mode next a =
      ((c.act dev i.mode next a).1, (c.act dev i.mode next a).2.swap) := by
  cases a with
  | stop => rfl
  | fail e => rfl
  | stash cell => rw [act_stash, act_stash, pushCells_swap, i.not_onReturn_mirrored]
  | _ => exact act_swap_of_pushes hblind (by exact trivial) ha next

theorem popped_swap (i : Instruction) (n : Nat) :
    (if i.mirrored.mode.keep then c.swap else c.swap.setHeight i.mirrored.mode.onReturn n) =
      (if i.mode.keep then c else c.setHeight i.mode.onReturn n).swap := by
  rw [setHeight_swap, i.not_onReturn_mirrored]
  exact (apply_ite swap _ _ _).symm

theorem execute_mirrored (hblind : dev.Blind P) (i : Instruction) (next : Short)
    (hports : ∀ p ∈ c.writtenPorts i next, P p) :
    c.swap.execute dev i.mirrored next =
      ((c.execute dev i next).1, (c.execute dev i next).2.swap) := by
  have hselected : c.swap.selected i.mirrored = c.selected i := by
    simp [selected, Instruction.mirrored]
  by_cases htaken : i.taken ≤ (c.selected i).data.length
  · have hmirrored : i.mirrored.taken ≤ (c.swap.selected i.mirrored).data.length := by
      rwa [hselected]
    have hcells : c.swap.operandCells i.mirrored = c.operandCells i := by
      rw [operandCells, hselected]
      rfl
    have harguments : c.swap.arguments i.mirrored next = c.arguments i next := by
      rw [arguments, hcells]
      rfl
    have hafter : c.swap.afterOperands i.mirrored = (c.afterOperands i).swap := by
      rw [afterOperands, hselected]
      exact popped_swap i _
    rw [execute_of_taken_le dev next htaken, execute_of_taken_le dev next hmirrored, harguments,
      hafter]
    exact act_swap hblind hports _
  · rw [Stack.length_data] at htaken
    have hmissing : ((c.machine.stack i.mode.onReturn).operands
        (i.op.operands i.mode.width)).complete = false :=
      ((c.selected i).operandsBelow_of_lt_total (Nat.lt_of_not_le htaken)).1
    have hfound : c.swap.machine.stack i.mirrored.mode.onReturn =
        c.machine.stack i.mode.onReturn := hselected
    have hmode : i.mirrored.op.operands i.mirrored.mode.width = i.op.operands i.mode.width := rfl
    unfold execute
    dsimp only
    rw [hfound, hmode, hmissing]
    exact congrArg (Prod.mk _) (popped_swap i _)

/--
Return-mode symmetry, for the bytes with a return flag and a device that leaves
the stacks alone on all ports that the instruction writes to.
-/
theorem return_symmetry (hblind : dev.Blind P) (c : Config σ) (next : Short) {b : Byte}
    (hb : Instruction.HasReturnFlag b) (hports : ∀ p ∈ c.writtenPorts (.decode b) next, P p) :
    c.swap.execute dev (.decode (b ^^^ 0x40)) next =
      ((c.execute dev (.decode b) next).1, (c.execute dev (.decode b) next).2.swap) := by
  rw [Instruction.decode_mirrored hb]
  exact execute_mirrored hblind _ next hports

theorem return_symmetry_stash :
    ∃ c : Config Peripherals, c.machine.wst.data = [0x12, 0x34] ∧ c.machine.rst.data = [0x56] ∧
      c.swap.execute Peripherals.device (.decode 0x6f) 0x0101 =
        ((c.execute Peripherals.device (.decode 0x2f) 0x0101).1,
          (c.execute Peripherals.device (.decode 0x2f) 0x0101).2.swap) ∧
      (c.execute Peripherals.device (.decode 0x2f) 0x0101).2.swap.machine.wst.data =
        [0x56, 0x12, 0x34] := by
  let c : Config Peripherals :=
    ⟨{ Machine.fresh with
        wst := (Stack.empty.pushBytes [0x12, 0x34]).2
        rst := (Stack.empty.pushBytes [0x56]).2 }, .fresh⟩
  have hsymmetry := return_symmetry Peripherals.device_blind c 0x0101 (b := 0x2f) (by decide)
    (by simp [writtenPorts_of_ne_deo c (i := .decode 0x2f) (by decide)])
  exact ⟨c, rfl, rfl, hsymmetry, by decide⟩

end Config

end StackComputer
