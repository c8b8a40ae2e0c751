import StackComputer.Machine.Run

/-!
# Invariants of a run

An instruction changes a configuration only by moving and pushing on the stacks,
by storing in memory, and through the bus.  A property that survives these
survives every instruction, and therefore every evaluation.
-/

namespace StackComputer

/-- `P` survives everything of which instructions are made, and the handling of a fault. -/
structure Device.Keeps {σ : Type} (dev : Device σ) (P : Config σ → Prop) : Prop where
  setHeight : ∀ c r n, P c → P (c.setHeight r n)
  pushCells : ∀ c r cells, P c → P (c.pushCells r cells).2
  writeCell : ∀ c w a v, P c → P (c.writeCell w a v)
  input : ∀ c i, P c → P (c.input dev i).2
  output : ∀ c i v, P c → P (c.output dev i v)
  halt : ∀ c f, P c → P (dev.halt f c).2

namespace Device.Keeps

variable {σ : Type} {dev : Device σ} {P : Config σ → Prop}

theorem inputCell (h : dev.Keeps P) (w : Width) (i : Byte) {c : Config σ} (hc : P c) :
    P (c.inputCell dev w i).2 := by
  cases w with
  | byte => exact h.input c i hc
  | short => exact h.input _ (i + 1) (h.input c i hc)

theorem outputCell (h : dev.Keeps P) (w : Width) (i : Byte) (v : Short) {c : Config σ}
    (hc : P c) : P (c.outputCell dev w i v) := by
  cases w with
  | byte => exact h.output c i v.lo hc
  | short => exact h.output _ (i + 1) v.lo (h.output c i v.hi hc)

theorem act (h : dev.Keeps P) (mode : Mode) (next : Short) {c : Config σ} (hc : P c)
    (a : Action) : P (c.act dev mode next a).2 := by
  cases a with
  | stop => exact hc
  | fail e => exact hc
  | push cells => exact h.pushCells c mode.onReturn cells hc
  | stash cell => exact h.pushCells c (!mode.onReturn) [cell] hc
  | load a =>
      exact h.pushCells c mode.onReturn [⟨mode.width, c.machine.ram.readCell mode.width a⟩] hc
  | store a v => exact h.writeCell c mode.width a v hc
  | input i =>
      exact h.pushCells _ mode.onReturn [⟨mode.width, (c.inputCell dev mode.width i).1⟩]
        (h.inputCell mode.width i hc)
  | output i v => exact h.outputCell mode.width i v hc

theorem execute (h : dev.Keeps P) (i : Instruction) (next : Short) {c : Config σ} (hc : P c) :
    P (c.execute dev i next).2 := by
  have hpopped (n : Nat) :
      P (if i.mode.keep then c else c.setHeight i.mode.onReturn n) := by
    split
    · exact hc
    · exact h.setHeight c i.mode.onReturn n hc
  unfold Config.execute
  dsimp only
  split
  · exact h.act i.mode _ (hpopped _) _
  · exact hpopped _

theorem step (h : dev.Keeps P) (pc : Short) {c : Config σ} (hc : P c) : P (c.step dev pc).2 :=
  h.execute _ _ hc

theorem run (h : dev.Keeps P) {fuel : Nat} {pc : Short} {c : Config σ} (hc : P c)
    {r : Bool × Config σ} (hr : Config.run dev fuel pc c = some r) : P r.2 := by
  induction fuel generalizing pc c with
  | zero => simp [Config.run] at hr
  | succ fuel ih =>
      have hstep := h.step pc hc
      simp only [Config.run] at hr
      cases hout : c.step dev pc with
      | mk outcome c' =>
          rw [hout] at hr hstep
          cases outcome with
          | next pc' => exact ih hstep hr
          | stop =>
              obtain rfl := Option.some.inj hr
              exact hstep
          | fault cause =>
              obtain rfl := Option.some.inj hr
              exact h.halt c' _ hstep

theorem eval (h : dev.Keeps P) {fuel : Nat} {pc : Short} {c : Config σ} (hc : P c)
    {r : Bool × Config σ} (hr : Config.eval dev fuel pc c = some r) : P r.2 := by
  unfold Config.eval at hr
  split at hr
  · obtain rfl := Option.some.inj hr
    exact hc
  · exact h.run hc hr

end Device.Keeps

theorem Device.keeps_of_device {σ : Type} {dev : Device σ} {Q : σ → Prop}
    (hinput : ∀ i c, Q c.device → Q (dev.input i c).2.device)
    (houtput : ∀ i c, Q c.device → Q (dev.output i c).device)
    (hhalt : ∀ f c, Q c.device → Q (dev.halt f c).2.device) :
    dev.Keeps fun c => Q c.device where
  setHeight c r n hc := hc
  pushCells c r cells hc := hc
  writeCell c w a v hc := hc
  input c i hc := by
    unfold Config.input
    split
    · exact hinput i c hc
    · exact hc
  output c i v hc := by
    unfold Config.output
    dsimp only
    split
    · exact houtput i _ hc
    · exact hc
  halt c f hc := hhalt f c hc

end StackComputer
