import StackComputer.Proofs.Machine.Lockstep

/-!
# Bytes above the top

A pop leaves the byte where it was, so above the top of a stack lies what was
there before.  Two configurations have the same contents if they differ in
nothing but such bytes.  No instruction tells them apart, as long as the device
does not.
-/

namespace StackComputer

namespace Config

variable {σ : Type}

/-- The configurations agree in everything but the bytes above the tops of the stacks. -/
structure SameContents (c d : Config σ) : Prop extends c.SameStore d where
  data : ∀ r, (c.machine.stack r).data = (d.machine.stack r).data

variable {c d : Config σ} {r : Bool} {s t : Stack}

theorem SameStore.setStack (h : c.SameStore d) :
    (c.setStack r s).SameStore (d.setStack r t) :=
  (c.sameStore_setStack r s).trans (h.trans (d.sameStore_setStack r t).symm)

theorem SameContents.setStack (h : c.SameContents d) (hdata : s.data = t.data) :
    (c.setStack r s).SameContents (d.setStack r t) where
  toSameStore := h.toSameStore.setStack
  data k := by
    have hother := h.data k
    cases r <;> cases k
    · exact hdata
    · exact hother
    · exact hother
    · exact hdata

end Config

structure Device.IgnoresHidden {σ : Type} (dev : Device σ) : Prop where
  input : ∀ i {c d}, c.SameContents d →
    (dev.input i c).1 = (dev.input i d).1 ∧ (dev.input i c).2.SameContents (dev.input i d).2
  output : ∀ i {c d}, c.SameContents d → (dev.output i c).SameContents (dev.output i d)
  halt : ∀ f {c d}, c.SameContents d →
    (dev.halt f c).1 = (dev.halt f d).1 ∧ (dev.halt f c).2.SameContents (dev.halt f d).2

theorem Device.inert_ignoresHidden : Device.inert.IgnoresHidden where
  input i _ _ h := ⟨congrArg (·.read i) h.ports, h⟩
  output _ _ _ h := h
  halt _ _ _ h := ⟨rfl, h⟩

namespace Device.IgnoresHidden

variable {σ : Type} {dev : Device σ} {c d : Config σ}

theorem lockstep (h : dev.IgnoresHidden) : dev.Lockstep dev Config.SameContents where
  ram hcd := hcd.ram
  ports hcd := hcd.ports
  data hcd := hcd.data
  setHeight {_ d} hcd r n hn := by
    have hn' : n ≤ (d.machine.stack r).height := Stack.height_congr (hcd.data r) ▸ hn
    rw [Config.setHeight_eq, Config.setHeight_eq]
    apply hcd.setStack
    rw [Stack.data_setHeight _ hn, Stack.data_setHeight _ hn', hcd.data]
  pushCells hcd r cells := by
    rw [Config.pushCells_eq, Config.pushCells_eq]
    exact hcd.setStack (Stack.data_pushCells_congr (hcd.data r) cells)
  writeCell hcd w a v := { hcd with ram := congrArg (·.writeCell w a v) hcd.ram }
  input hcd i := by
    rw [Config.input, Config.input, hcd.inputs, hcd.ports]
    split
    · exact h.input i hcd
    · exact ⟨rfl, hcd⟩
  output {c d} hcd i v := by
    have hstored : Config.SameContents ⟨c.machine.writePort i v, c.device⟩
        ⟨d.machine.writePort i v, d.device⟩ :=
      { hcd with ports := congrArg (·.write i v) hcd.ports }
    have hmask : (c.machine.writePort i v).outputs.test i =
        (d.machine.writePort i v).outputs.test i := congrArg (·.test i) hcd.outputs
    unfold Config.output
    dsimp only
    rw [hmask]
    split
    · exact h.output i hstored
    · exact hstored

theorem inStep (h : dev.IgnoresHidden) (hcd : c.SameContents d) :
    c.InStep dev dev Config.SameContents d :=
  h.lockstep.inStep h.halt hcd

end Device.IgnoresHidden

end StackComputer
