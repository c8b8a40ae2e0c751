import StackComputer.Proofs.Host.Lockstep
import StackComputer.Proofs.Machine.Blind

/-!
# Masks only save calls

The peripherals have masks for three slots.  On every port that the masks leave
out, the peripherals would do what plain storage does.  So a wired machine
behaves as one whose masks send each access to the peripherals.
-/

namespace StackComputer

namespace Port

/-- Ports on which a write has an effect beyond the byte that it stores. -/
def hasEffect (i : Byte) : Bool :=
  i == commandRun || i == state || isPalette i || i == debug || i == write || i == error ||
    i == widthLow || i == heightLow || i == pixel || i == sprite

def isComputed (i : Byte) : Bool :=
  i == width || i == widthLow || i == height || i == heightLow

theorem exists_wiring_of_hasEffect (i : Byte) : hasEffect i = true →
    ∃ w ∈ wiring, i / 16 = w.slot ∧ w.outputs.toNat.testBit (i.toNat % 16) = true := by
  revert i
  apply Byte.forall_ofNat
  decide +kernel

theorem exists_wiring_of_isComputed (i : Byte) : isComputed i = true →
    ∃ w ∈ wiring, i / 16 = w.slot ∧ w.inputs.toNat.testBit (i.toNat % 16) = true := by
  revert i
  apply Byte.forall_ofNat
  decide +kernel

end Port

namespace Machine

/-- The slots of the peripherals have their masks; all other slots may have any. -/
def IsWired (m : Machine) : Prop :=
  ∀ w ∈ Port.wiring, m.inputs.get w.slot = w.inputs ∧ m.outputs.get w.slot = w.outputs

theorem isWired_wire (m : Machine) : (Computer.wire m).IsWired := by
  intro w hw
  simp only [Port.wiring, List.mem_cons, List.not_mem_nil, or_false] at hw
  simp only [Computer.wire, Port.wiring, List.foldl_cons, List.foldl_nil, connect,
    Mask.get_set]
  rcases hw with rfl | rfl | rfl <;> exact ⟨rfl, rfl⟩

variable {m : Machine}

theorem IsWired.test_outputs (h : m.IsWired) {i : Byte} (hi : Port.hasEffect i = true) :
    m.outputs.test i = true := by
  obtain ⟨w, hw, hslot, hbit⟩ := Port.exists_wiring_of_hasEffect i hi
  rw [Mask.test, hslot, (h w hw).2]
  exact hbit

theorem IsWired.test_inputs (h : m.IsWired) {i : Byte} (hi : Port.isComputed i = true) :
    m.inputs.test i = true := by
  obtain ⟨w, hw, hslot, hbit⟩ := Port.exists_wiring_of_isComputed i hi
  rw [Mask.test, hslot, (h w hw).1]
  exact hbit

theorem IsWired.of_masks (h : m.IsWired) {m' : Machine} (hinputs : m'.inputs = m.inputs)
    (houtputs : m'.outputs = m.outputs) : m'.IsWired := by
  intro w hw
  rw [hinputs, houtputs]
  exact h w hw

end Machine

namespace Peripherals

variable {i : Byte}

theorem output_eq_self (hi : Port.hasEffect i = false) (c : Computer) : output i c = c := by
  simp only [Port.hasEffect, Bool.or_eq_false_iff, beq_eq_false_iff_ne] at hi
  obtain ⟨⟨⟨⟨⟨⟨⟨⟨⟨hcommand, hstate⟩, hpalette⟩, hdebug⟩, hwrite⟩, herror⟩, hwidth⟩, hheight⟩,
    hpixel⟩, hsprite⟩ := hi
  unfold output
  split
  · simp [outputSystem, hcommand, hstate, hpalette, hdebug]
  · split
    · simp [outputConsole, hwrite, herror]
    · split
      · simp [outputScreen, Screen.outputNotice?, Screen.output, Screen.requestedSize?, hwidth,
          hheight, hpixel, hsprite, notify]
      · rfl

theorem input_eq_read (hi : Port.isComputed i = false) (c : Computer) :
    input i c = (c.machine.ports.read i, c) := by
  simp only [Port.isComputed, Bool.or_eq_false_iff, beq_eq_false_iff_ne] at hi
  obtain ⟨⟨⟨hwidth, hwidthLow⟩, hheight⟩, hheightLow⟩ := hi
  simp [input, Screen.input, hwidth, hwidthLow, hheight, hheightLow]

end Peripherals

/-! ## All ports masked -/

/-- The configuration in which every access to a port is one to the device. -/
def Config.unmasked {σ : Type} (c : Config σ) : Config σ :=
  ⟨{ c.machine with inputs := .all, outputs := .all }, c.device⟩

theorem Peripherals.output_unmasked (i : Byte) (c : Computer) :
    output i c.unmasked = (output i c).unmasked := by
  by_cases hi : i = Port.debug
  · rw [hi, output_debug, output_debug]
    rfl
  · obtain ⟨⟨ram, ports, inputs, outputs, wst, rst⟩, p⟩ := c
    obtain ⟨ram', ports', p', houtput⟩ := exists_output hi ram ports p
    rw [houtput]
    exact houtput ..

namespace Computer

variable {c : Computer}

theorem isWired_output (c : Computer) (h : c.machine.IsWired) (i : Byte) :
    (Peripherals.output i c).machine.IsWired := by
  obtain ⟨ram, ports, hmachine⟩ := Peripherals.machine_output i c
  rw [hmachine]
  exact h.of_masks rfl rfl

theorem isWired_mapPorts (h : c.machine.IsWired) (f : Ports → Ports) :
    (mapPorts f c).machine.IsWired :=
  h.of_masks rfl rfl

theorem isWired_announceArguments (h : c.machine.IsWired) (args : List String) :
    (announceArguments args c).machine.IsWired := by
  unfold announceArguments
  split
  · exact h
  · exact isWired_mapPorts h _

theorem input_of_isWired (h : c.machine.IsWired) (i : Byte) :
    c.input Peripherals.device i = Peripherals.input i c := by
  unfold Config.input
  split
  · rfl
  · next hmask =>
      cases hi : Port.isComputed i with
      | true => exact absurd (h.test_inputs hi) hmask
      | false => exact (Peripherals.input_eq_read hi c).symm

theorem output_of_test {i : Byte} (h : c.machine.outputs.test i = true) (v : Byte) :
    c.output Peripherals.device i v =
      Peripherals.output i ⟨c.machine.writePort i v, c.device⟩ := by
  have hstored : (c.machine.writePort i v).outputs.test i = true := h
  unfold Config.output
  dsimp only
  rw [if_pos hstored]
  rfl

theorem output_of_isWired (h : c.machine.IsWired) (i v : Byte) :
    c.output Peripherals.device i v =
      Peripherals.output i ⟨c.machine.writePort i v, c.device⟩ := by
  unfold Config.output
  dsimp only
  split
  · rfl
  · next hmask =>
      cases hi : Port.hasEffect i with
      | true => exact absurd (h.test_outputs hi) hmask
      | false => exact (Peripherals.output_eq_self hi _).symm

theorem input_unmasked (c : Computer) (i : Byte) :
    c.unmasked.input Peripherals.device i = Peripherals.input i c.unmasked :=
  if_pos (Mask.test_all i)

theorem output_unmasked (c : Computer) (i v : Byte) :
    c.unmasked.output Peripherals.device i v =
      (Peripherals.output i ⟨c.machine.writePort i v, c.device⟩).unmasked := by
  rw [← Peripherals.output_unmasked]
  exact if_pos (Mask.test_all i)

theorem device_lockstep_unmasked :
    Peripherals.device.Lockstep Peripherals.device
      fun c d : Computer => c.machine.IsWired ∧ d = c.unmasked where
  ram := by
    rintro c d ⟨h, rfl⟩
    rfl
  ports := by
    rintro c d ⟨h, rfl⟩
    rfl
  data := by
    rintro c d ⟨h, rfl⟩ r
    rfl
  setHeight := by
    rintro c d ⟨h, rfl⟩ r n hn
    cases r <;> exact ⟨h.of_masks rfl rfl, rfl⟩
  pushCells := by
    rintro c d ⟨h, rfl⟩ r cells
    cases r <;> exact ⟨h.of_masks rfl rfl, rfl⟩
  writeCell := by
    rintro c d ⟨h, rfl⟩ w a v
    exact ⟨h.of_masks rfl rfl, rfl⟩
  input := by
    rintro c d ⟨h, rfl⟩ i
    rw [input_of_isWired h, input_unmasked]
    exact ⟨rfl, h, rfl⟩
  output := by
    rintro c d ⟨h, rfl⟩ i v
    have hstored : (c.machine.writePort i v).IsWired := h.of_masks rfl rfl
    rw [output_of_isWired h, output_unmasked]
    exact ⟨isWired_output ⟨_, c.device⟩ hstored i, rfl⟩

theorem repaint_unmasked (c : Computer) (s : Screen) :
    repaint c.unmasked.machine s = repaint c.machine s := by
  have hentries (height : Short) :
      Overlay.entries c.unmasked.machine height = Overlay.entries c.machine height := rfl
  have hports : c.unmasked.machine.ports = c.machine.ports := rfl
  simp only [repaint, Screen.drawOverlay, hentries, hports]

theorem lockstep_unmasked :
    Lockstep (fun c d => c.machine.IsWired ∧ d = c.unmasked) Eq where
  device := device_lockstep_unmasked
  halt := by
    rintro f c d ⟨h, rfl⟩
    exact ⟨h, rfl⟩
  mapPorts := by
    rintro f c d ⟨h, rfl⟩
    exact ⟨isWired_mapPorts h f, rfl⟩
  render := by
    rintro c d ⟨h, rfl⟩
    rw [render_eq, render_eq, funext (repaint_unmasked c)]
    exact ⟨h, rfl⟩
  report := by
    rintro c d ⟨h, rfl⟩
    exact ⟨rfl, h, rfl⟩

/-! ## Sequences of calls -/

theorem takeAll_unmasked (h : c.machine.IsWired) (fuel : Nat) (calls : List HostCall) :
    takeAll fuel c.unmasked (calls.map .call) =
      (takeAll fuel c (calls.map .call)).map fun (rs, d) => (rs, d.unmasked) := by
  have hsame := lockstep_unmasked.takeAll ⟨h, rfl⟩ fuel calls
  generalize takeAll fuel c.unmasked (calls.map .call) = right at hsame
  generalize takeAll fuel c (calls.map .call) = left at hsame
  cases hsame with
  | none => rfl
  | @some a b hab =>
      obtain ⟨hreports, -, hunmasked⟩ := hab
      rw [List.forall₂_eq_eq_eq] at hreports
      exact congrArg some (Prod.ext hreports.symm hunmasked)

/--
A computer that has been readied behaves, under every sequence of calls, as it would with
every access to a port going to the peripherals.
-/
theorem takeAll_reset_unmasked (excess : Nat) (args : List String) (before : Computer)
    (fuel : Nat) (calls : List HostCall) :
    let c := announceArguments args (reset excess before)
    takeAll fuel c.unmasked (calls.map .call) =
      (takeAll fuel c (calls.map .call)).map fun (reports, d) => (reports, d.unmasked) := by
  intro c
  have hreset : (reset excess before).machine.IsWired := before.machine.isWired_wire
  exact takeAll_unmasked (isWired_announceArguments hreset args) fuel calls

end Computer

end StackComputer
