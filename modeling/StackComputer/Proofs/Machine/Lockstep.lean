import StackComputer.Proofs.Machine.Execution

/-!
# Two machines in lockstep

Two configurations may differ in what programs do not see: in bytes above the
top of a stack, in the masks, in what their devices remember.  If a relation
between them survives everything of which instructions are made, and on both
sides a read of a port has the same answer, then one program does the same on
both, instruction by instruction.
-/

namespace StackComputer

def Config.runFor {σ : Type} (dev : Device σ) : Nat → Short → Config σ → Outcome × Config σ
  | 0, pc, c => (.next pc, c)
  | n + 1, pc, c =>
      match c.step dev pc with
      | (.next pc', c') => runFor dev n pc' c'
      | ended => ended

/--
Evaluations of one program end on both sides with the same verdict or on neither,
and all the while they are at the same address.
-/
structure Config.InStep {σ τ : Type} (c : Config σ) (dev : Device σ) (dev' : Device τ)
    (R : Config σ → Config τ → Prop) (d : Config τ) : Prop where
  eval : ∀ fuel pc, Option.Rel (fun a b => a.1 = b.1 ∧ R a.2 b.2)
    (c.eval dev fuel pc) (d.eval dev' fuel pc)
  runFor : ∀ n pc, (c.runFor dev n pc).1 = (d.runFor dev' n pc).1 ∧
    R (c.runFor dev n pc).2 (d.runFor dev' n pc).2

/-- Programs cannot tell related configurations apart, and what they do keeps them related. -/
structure Device.Lockstep {σ τ : Type} (dev : Device σ) (dev' : Device τ)
    (R : Config σ → Config τ → Prop) : Prop where
  ram : ∀ {c d}, R c d → c.machine.ram = d.machine.ram
  ports : ∀ {c d}, R c d → c.machine.ports = d.machine.ports
  data : ∀ {c d}, R c d → ∀ r, (c.machine.stack r).data = (d.machine.stack r).data
  setHeight : ∀ {c d}, R c d → ∀ r n, n ≤ (c.machine.stack r).height →
    R (c.setHeight r n) (d.setHeight r n)
  pushCells : ∀ {c d}, R c d → ∀ r cells, R (c.pushCells r cells).2 (d.pushCells r cells).2
  writeCell : ∀ {c d}, R c d → ∀ w a v, R (c.writeCell w a v) (d.writeCell w a v)
  input : ∀ {c d}, R c d → ∀ i,
    (c.input dev i).1 = (d.input dev' i).1 ∧ R (c.input dev i).2 (d.input dev' i).2
  output : ∀ {c d}, R c d → ∀ i v, R (c.output dev i v) (d.output dev' i v)

namespace Device.Lockstep

variable {σ τ : Type} {dev : Device σ} {dev' : Device τ} {R : Config σ → Config τ → Prop}
  {c : Config σ} {d : Config τ}

theorem halted (h : dev.Lockstep dev' R) (hR : R c d) : c.machine.halted = d.machine.halted := by
  rw [Machine.halted, Machine.halted, h.ports hR]

theorem inputCell (h : dev.Lockstep dev' R) (hR : R c d) (w : Width) (i : Byte) :
    (c.inputCell dev w i).1 = (d.inputCell dev' w i).1 ∧
      R (c.inputCell dev w i).2 (d.inputCell dev' w i).2 := by
  obtain ⟨hfirst, hR⟩ := h.input hR i
  cases w with
  | byte => exact ⟨congrArg UInt8.toUInt16 hfirst, hR⟩
  | short =>
      obtain ⟨hsecond, hR⟩ := h.input hR (i + 1)
      refine ⟨?_, hR⟩
      rw [Config.inputCell, Config.inputCell]
      dsimp only
      rw [hfirst, hsecond]

theorem outputCell (h : dev.Lockstep dev' R) (hR : R c d) (w : Width) (i : Byte) (v : Short) :
    R (c.outputCell dev w i v) (d.outputCell dev' w i v) := by
  cases w with
  | byte => exact h.output hR i v.lo
  | short => exact h.output (h.output hR i v.hi) (i + 1) v.lo

theorem ofPush (h : dev.Lockstep dev' R) (hR : R c d) (next : Short) (r : Bool)
    (cells : List Cell) :
    Outcome.ofPush next (c.pushCells r cells).1 = Outcome.ofPush next (d.pushCells r cells).1 ∧
      R (c.pushCells r cells).2 (d.pushCells r cells).2 := by
  refine ⟨?_, h.pushCells hR r cells⟩
  rw [Config.ofPush_pushCells, Config.ofPush_pushCells, h.data hR]

theorem act (h : dev.Lockstep dev' R) (hR : R c d) (mode : Mode) (next : Short) (a : Action) :
    (c.act dev mode next a).1 = (d.act dev' mode next a).1 ∧
      R (c.act dev mode next a).2 (d.act dev' mode next a).2 := by
  cases a with
  | stop => exact ⟨rfl, hR⟩
  | fail e => exact ⟨rfl, hR⟩
  | push cells => exact h.ofPush hR next mode.onReturn cells
  | stash cell => exact h.ofPush hR next (!mode.onReturn) [cell]
  | load a =>
      rw [Config.act, Config.act, h.ram hR]
      exact h.ofPush hR next mode.onReturn _
  | store a v => exact ⟨rfl, h.writeCell hR mode.width a v⟩
  | input i =>
      obtain ⟨hsame, hR⟩ := h.inputCell hR mode.width i
      rw [Config.act, Config.act]
      dsimp only
      rw [hsame]
      exact h.ofPush hR next mode.onReturn _
  | output i v => exact ⟨rfl, h.outputCell hR mode.width i v⟩

theorem execute (h : dev.Lockstep dev' R) (hR : R c d) (i : Instruction) (next : Short) :
    (c.execute dev i next).1 = (d.execute dev' i next).1 ∧
      R (c.execute dev i next).2 (d.execute dev' i next).2 := by
  have hheight := (c.machine.stack i.mode.onReturn).height_operandsBelow_le
    (i.op.operands i.mode.width) (c.machine.stack i.mode.onReturn).height
  have hpopped (n : Nat) (hn : n ≤ (c.machine.stack i.mode.onReturn).height) :
      R (if i.mode.keep then c else c.setHeight i.mode.onReturn n)
        (if i.mode.keep then d else d.setHeight i.mode.onReturn n) := by
    split
    · exact hR
    · exact h.setHeight hR i.mode.onReturn n hn
  unfold Config.execute
  rw [← Stack.operands_congr (h.data hR i.mode.onReturn), ← h.ram hR]
  dsimp only
  split
  · exact h.act (hpopped _ hheight) i.mode _ _
  · exact ⟨rfl, hpopped _ hheight⟩

theorem step (h : dev.Lockstep dev' R) (hR : R c d) (pc : Short) :
    (c.step dev pc).1 = (d.step dev' pc).1 ∧ R (c.step dev pc).2 (d.step dev' pc).2 := by
  rw [Config.step, Config.step, h.ram hR]
  exact h.execute hR _ _

/-! ## Runs -/

theorem runFor (h : dev.Lockstep dev' R) (hR : R c d) (n : Nat) (pc : Short) :
    (c.runFor dev n pc).1 = (d.runFor dev' n pc).1 ∧
      R (c.runFor dev n pc).2 (d.runFor dev' n pc).2 := by
  induction n generalizing pc c d with
  | zero => exact ⟨rfl, hR⟩
  | succ n ih =>
      obtain ⟨hout, hnext⟩ := h.step hR pc
      rw [Config.runFor, Config.runFor]
      generalize c.step dev pc = left at hout hnext
      generalize d.step dev' pc = right at hout hnext
      obtain ⟨outcome, c'⟩ := left
      obtain ⟨outcome', d'⟩ := right
      obtain rfl : outcome = outcome' := hout
      cases outcome with
      | next pc' => exact ih hnext pc'
      | stop => exact ⟨rfl, hnext⟩
      | fault cause => exact ⟨rfl, hnext⟩

theorem run (h : dev.Lockstep dev' R)
    (hhalt : ∀ f {c d}, R c d →
      (dev.halt f c).1 = (dev'.halt f d).1 ∧ R (dev.halt f c).2 (dev'.halt f d).2)
    (hR : R c d) (fuel : Nat) (pc : Short) :
    Option.Rel (fun a b => a.1 = b.1 ∧ R a.2 b.2) (c.run dev fuel pc) (d.run dev' fuel pc) := by
  induction fuel generalizing pc c d with
  | zero => exact .none
  | succ fuel ih =>
      obtain ⟨hout, hnext⟩ := h.step hR pc
      rw [Config.run, Config.run, ← h.ram hR]
      generalize c.step dev pc = left at hout hnext
      generalize d.step dev' pc = right at hout hnext
      obtain ⟨outcome, c'⟩ := left
      obtain ⟨outcome', d'⟩ := right
      obtain rfl : outcome = outcome' := hout
      cases outcome with
      | next pc' => exact ih hnext pc'
      | stop => exact .some ⟨rfl, hnext⟩
      | fault cause => exact .some (hhalt _ hnext)

theorem eval (h : dev.Lockstep dev' R)
    (hhalt : ∀ f {c d}, R c d →
      (dev.halt f c).1 = (dev'.halt f d).1 ∧ R (dev.halt f c).2 (dev'.halt f d).2)
    (hR : R c d) (fuel : Nat) (pc : Short) :
    Option.Rel (fun a b => a.1 = b.1 ∧ R a.2 b.2) (c.eval dev fuel pc) (d.eval dev' fuel pc) := by
  rw [Config.eval, Config.eval, h.halted hR]
  split
  · exact .some ⟨rfl, hR⟩
  · exact h.run hhalt hR fuel pc

theorem inStep (h : dev.Lockstep dev' R)
    (hhalt : ∀ f {c d}, R c d →
      (dev.halt f c).1 = (dev'.halt f d).1 ∧ R (dev.halt f c).2 (dev'.halt f d).2)
    (hR : R c d) : c.InStep dev dev' R d where
  eval := h.eval hhalt hR
  runFor := h.runFor hR

end Device.Lockstep

end StackComputer
