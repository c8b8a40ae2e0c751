import StackComputer.Proofs.Machine.Blind

/-!
# Keep mode

An instruction that keeps its operands computes from the same operands as the
one that takes them, and pushes the same bytes above them.  So it needs more
room, and in everything else comes to the same.
-/

namespace StackComputer

namespace Instruction

def kept (i : Instruction) : Instruction :=
  { i with mode := { i.mode with keep := true } }

theorem decode_keep {b : Byte} (hop : b % 32 ≠ 0) (hkeep : b &&& 0x80 = 0) :
    (decode b).mode.keep = false ∧ decode (b ||| 0x80) = (decode b).kept := by
  revert hop hkeep
  revert b
  apply Byte.forall_ofNat
  decide +kernel

end Instruction

namespace Config

variable {σ : Type}

/--
How two ends of one instruction compare, with `n` where the operands are taken
and `k` where they are kept.
-/
structure KeepLaw (c : Config σ) (i : Instruction) (n k : Outcome × Config σ) : Prop where
  next : ∀ pc, n.1 = .next pc → i.taken ≤ (c.selected i).data.length ∧ ∃ q,
    (n.2.selected i).data = (c.selected i).data.take ((c.selected i).data.length - i.taken) ++ q ∧
    ((c.selected i).data.length + q.length ≤ 255 →
      k.1 = .next pc ∧ k.2.SameStore n.2 ∧
      k.2.machine.stack (!i.mode.onReturn) = n.2.machine.stack (!i.mode.onReturn) ∧
      (k.2.selected i).data = (c.selected i).data ++ q) ∧
    (255 < (c.selected i).data.length + q.length → k.1 = .fault .overflow)
  underflow : k.1 = .fault .underflow ↔ n.1 = .fault .underflow
  divideByZero : k.1 = .fault .divideByZero ↔ n.1 = .fault .divideByZero
  unchanged : k.1 = .fault .underflow ∨ k.1 = .fault .divideByZero →
    (k.2.selected i).data = (c.selected i).data
  overflow : n.1 = .fault .overflow → k.1 = .fault .overflow

end Config

/-! ## Pushing on the taken and on the kept operands -/

namespace Outcome

variable {next : Short} {n : Nat}

theorem ofLength_not_before_push :
    ¬(ofLength next n = .fault .underflow ∨ ofLength next n = .fault .divideByZero) := by
  rintro (h | h)
  · exact ofLength_ne_fault (by decide) h
  · exact ofLength_ne_fault (by decide) h

theorem ofLength_fault_iff {e : Cause} (he : e ≠ .overflow) (m : Nat) :
    ofLength next n = .fault e ↔ ofLength next m = .fault e :=
  iff_of_false (ofLength_ne_fault he) (ofLength_ne_fault he)

end Outcome

namespace Config

variable {σ : Type} {dev : Device σ} {P : Byte → Prop} {c : Config σ} {i : Instruction}

theorem keepLaw_of_end (d : Config σ) {o : Outcome} (ho : ∀ pc, o ≠ .next pc) :
    KeepLaw c i (o, d) (o, c) where
  next pc h := absurd h (ho pc)
  underflow := Iff.rfl
  divideByZero := Iff.rfl
  unchanged _ := rfl
  overflow h := h

theorem keepLaw_of_stash (htaken : i.taken ≤ (c.selected i).data.length) {t : Stack}
    (ht : t.data = (c.selected i).data.take ((c.selected i).data.length - i.taken))
    (cell : Cell) (next : Short) :
    KeepLaw c i
      ((c.setStack i.mode.onReturn t).act dev i.mode next (.stash cell))
      (c.act dev i.kept.mode next (.stash cell)) := by
  have hreturn : i.kept.mode.onReturn = i.mode.onReturn := rfl
  rw [act_stash, act_stash, hreturn, ofPush_pushCells, ofPush_pushCells, stack_setStack_not]
  refine ⟨?_, Iff.rfl, Iff.rfl, ?_, id⟩
  · intro pc hpc
    refine ⟨htaken, [], ?_, ?_, ?_⟩
    · rw [List.append_nil, ← ht, pushCells_eq, selected, stack_setStack_not_self,
        stack_setStack_self]
    · intro _
      rw [pushCells_eq, pushCells_eq, stack_setStack_not]
      refine ⟨hpc, ?_, ?_, ?_⟩
      · exact (sameStore_setStack c _ _).trans
          ((sameStore_setStack _ _ _).trans (sameStore_setStack c _ _)).symm
      · rw [stack_setStack_self, stack_setStack_self]
      · rw [selected, stack_setStack_not_self, List.append_nil, selected]
    · intro hlt
      have := (c.selected i).height_le
      rw [Stack.length_data] at hlt
      simp only [List.length_nil] at hlt
      omega
  · intro hfault
    exact absurd hfault Outcome.ofLength_not_before_push

theorem keepLaw_of_push (htaken : i.taken ≤ (c.selected i).data.length) {d : Config σ}
    (hd : d.machine.stack i.mode.onReturn = c.selected i) {t : Stack}
    (ht : t.data = (c.selected i).data.take ((c.selected i).data.length - i.taken))
    (cells : List Cell) (next : Short) :
    KeepLaw c i
      (.ofPush next ((d.setStack i.mode.onReturn t).pushCells i.mode.onReturn cells).1,
        ((d.setStack i.mode.onReturn t).pushCells i.mode.onReturn cells).2)
      (.ofPush next (d.pushCells i.mode.onReturn cells).1,
        (d.pushCells i.mode.onReturn cells).2) := by
  have hlength : t.data.length ≤ (c.selected i).data.length := by
    rw [ht, List.length_take]
    omega
  -- both outcomes depend on heights only, and the operands that are kept make the second one larger
  rw [ofPush_pushCells, ofPush_pushCells, stack_setStack_self, hd]
  refine ⟨?_, ?_, ?_, ?_, ?_⟩
  · intro pc hpc
    obtain ⟨hroom, rfl⟩ := Outcome.ofLength_eq_next.mp hpc
    refine ⟨htaken, cells.flatMap Cell.bytes, ?_, ?_, ?_⟩
    · obtain ⟨u, hu, hdata⟩ := Stack.pushCells_of_le hroom
      rw [pushCells_eq, stack_setStack_self, hu, selected, setStack_setStack, stack_setStack_self,
        hdata, ht]
    · intro hle
      obtain ⟨u, hu, hdata⟩ := Stack.pushCells_of_le hle
      rw [pushCells_eq, pushCells_eq, hd, hu, stack_setStack_self, setStack_setStack]
      refine ⟨Outcome.ofLength_eq_next.mpr ⟨hle, rfl⟩, ?_, ?_, ?_⟩
      · exact (sameStore_setStack d _ _).trans (sameStore_setStack d _ _).symm
      · rw [stack_setStack_not, stack_setStack_not]
      · rw [selected, stack_setStack_self, hdata]
    · intro hlt
      exact Outcome.ofLength_eq_fault.mpr ⟨hlt, rfl⟩
  · exact Outcome.ofLength_fault_iff (by decide) _
  · exact Outcome.ofLength_fault_iff (by decide) _
  · intro hfault
    exact absurd hfault Outcome.ofLength_not_before_push
  · intro hover
    have hlt := (Outcome.ofLength_eq_fault.mp hover).1
    exact Outcome.ofLength_eq_fault.mpr ⟨by omega, rfl⟩

theorem keepLaw_of_pushes (hblind : dev.Blind P)
    (htaken : i.taken ≤ (c.selected i).data.length) {t : Stack}
    (ht : t.data = (c.selected i).data.take ((c.selected i).data.length - i.taken)) {a : Action}
    (ha : a.Pushes) (hports : ∀ p ∈ a.written i.mode.width, P p) (next : Short) :
    KeepLaw c i ((c.setStack i.mode.onReturn t).act dev i.mode next a)
      (c.act dev i.kept.mode next a) := by
  rw [act_of_pushes dev _ i.mode next ha, act_of_pushes dev c i.kept.mode next ha,
    hblind.produce hports c]
  exact keepLaw_of_push htaken (hblind.stack_produce hports c i.mode.onReturn) ht _ next

theorem execute_kept (hblind : dev.Blind P) (hkeep : i.mode.keep = false) (next : Short)
    (hports : ∀ p ∈ c.writtenPorts i next, P p) :
    KeepLaw c i (c.execute dev i next) (c.execute dev i.kept next) := by
  unfold writtenPorts at hports
  by_cases htaken : i.taken ≤ (c.selected i).data.length
  · have ht := data_setHeight_taken (c := c) (i := i)
    have hkept : c.execute dev i.kept next =
        c.act dev i.kept.mode (i.op.following i.mode.width (c.arguments i next))
          (i.op.action i.mode.width (c.arguments i next)) :=
      execute_of_taken_le (i := i.kept) dev next htaken
    rw [execute_of_taken_le dev next htaken, afterOperands_of_not_keep hkeep, hkept]
    generalize i.op.following i.mode.width (c.arguments i next) = following
    generalize i.op.action i.mode.width (c.arguments i next) = a at hports
    cases a with
    | stop => exact keepLaw_of_end _ nofun
    | fail e => exact keepLaw_of_end _ nofun
    | stash cell => exact keepLaw_of_stash htaken ht cell following
    | _ => exact keepLaw_of_pushes hblind htaken ht (by exact trivial) hports following
  · have hmissing := Nat.lt_of_not_le htaken
    obtain ⟨n, -, hn⟩ := execute_of_lt_taken dev next hmissing
    obtain ⟨m, -, hm⟩ := execute_of_lt_taken (i := i.kept) dev next hmissing
    rw [hn, hm]
    exact keepLaw_of_end _ nofun

/--
The keep-mode law, for the instructions with modes and a device that leaves the
stacks alone on all ports that the instruction writes to.
-/
theorem keep_law (hblind : dev.Blind P) (c : Config σ) (next : Short) {b : Byte}
    (hop : b % 32 ≠ 0) (hkeep : b &&& 0x80 = 0)
    (hports : ∀ p ∈ c.writtenPorts (.decode b) next, P p) :
    KeepLaw c (.decode b) (c.execute dev (.decode b) next)
      (c.execute dev (.decode (b ||| 0x80)) next) := by
  obtain ⟨hclear, hdecode⟩ := Instruction.decode_keep hop hkeep
  rw [hdecode]
  exact execute_kept hblind hclear next hports

theorem keep_law_write :
    ∃ c : Config Peripherals, c.machine.wst.data = [0x41, 0x18] ∧
      KeepLaw c (.decode 0x17) (c.execute Peripherals.device (.decode 0x17) 0x0101)
        (c.execute Peripherals.device (.decode 0x97) 0x0101) := by
  let c : Config Peripherals :=
    ⟨{ Machine.fresh with wst := (Stack.empty.pushBytes [0x41, 0x18]).2 }, .fresh⟩
  refine ⟨c, rfl, keep_law Peripherals.device_blind c 0x0101 (by decide) (by decide) ?_⟩
  intro p hp
  obtain rfl := List.mem_singleton.mp hp
  decide

end Config

end StackComputer
