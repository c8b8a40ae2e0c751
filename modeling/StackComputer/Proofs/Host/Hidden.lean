import StackComputer.Proofs.Host.History
import StackComputer.Proofs.Machine.Hidden

/-!
# Nothing shows what lies above a stack

The report on the stacks and the debugging overlay read them, and only below
their tops.  So computers with the same contents stay that way under every call,
and their reports and screens are equal.
-/

namespace StackComputer

open Config (SameContents)

theorem Screen.drawOverlay_congr {m n : Machine} (hram : m.ram = n.ram)
    (hdata : ∀ r, (m.stack r).data = (n.stack r).data) (s : Screen) :
    s.drawOverlay m = s.drawOverlay n := by
  have hwst : m.wst.data = n.wst.data := hdata false
  have hrst : m.rst.data = n.rst.data := hdata true
  rw [drawOverlay, drawOverlay, Overlay.entries, Overlay.entries, hwst, hrst, hram]

namespace Peripherals

theorem output_sameContents (i : Byte) {c d : Computer} (h : c.SameContents d) :
    (output i c).SameContents (output i d) := by
  obtain ⟨⟨ram, ports, inputs, outputs, wst, rst⟩, p⟩ := c
  obtain ⟨⟨_, _, _, _, wst', rst'⟩, _⟩ := d
  obtain ⟨⟨rfl, rfl, rfl, rfl, rfl⟩, hdata⟩ := h
  by_cases hi : i = Port.debug
  · subst hi
    rw [output_debug, output_debug, StackReport.text_congr hdata]
    exact ⟨⟨rfl, rfl, rfl, rfl, rfl⟩, hdata⟩
  · obtain ⟨ram', ports', p', houtput⟩ := exists_output hi ram ports p
    rw [houtput, houtput]
    exact ⟨⟨rfl, rfl, rfl, rfl, rfl⟩, hdata⟩

theorem device_ignoresHidden : device.IgnoresHidden where
  input i c d h := by
    refine ⟨?_, h⟩
    change (input i c).1 = (input i d).1
    rw [input, input, h.ports, h.device]
  output i _ _ h := output_sameContents i h
  halt f c d h := by
    refine ⟨rfl, { h with device := ?_ }⟩
    change { c.device with fault := some f }.notify (some (.fault f)) = _
    rw [h.device]
    rfl

end Peripherals

namespace Computer

variable {c d : Computer}

theorem repaint_sameContents (h : c.SameContents d) (s : Screen) :
    repaint c.machine s = repaint d.machine s := by
  simp only [repaint, Screen.drawOverlay_congr h.ram h.data, h.ports]

theorem lockstep_sameContents : Lockstep SameContents Eq where
  device := Peripherals.device_ignoresHidden.lockstep
  halt f _ _ h := (Peripherals.device_ignoresHidden.halt f h).2
  mapPorts f _ _ h := { h with ports := congrArg f h.ports }
  render {c d} h := by
    rw [render_eq, render_eq, funext (repaint_sameContents h)]
    exact { h with device := congrArg (·.mapScreen (repaint d.machine)) h.device }
  report := by
    rintro ⟨m, p⟩ ⟨n, q⟩ h
    obtain rfl : p = q := h.device
    exact ⟨rfl, { h with device := rfl }⟩

/-- Two computers that no evaluation tells apart, the ones for events of the console included. -/
structure Indistinguishable (c d : Computer) : Prop where
  contents : c.SameContents d
  evaluations : c.InStep Peripherals.device Peripherals.device SameContents d
  deliveries : ∀ fuel es (e : ConsoleEvent), Option.Rel
    (fun a b => (mapPorts e.store a).InStep Peripherals.device Peripherals.device SameContents
      (mapPorts e.store b))
    (deliverAll fuel es c) (deliverAll fuel es d)

theorem indistinguishable_of_sameContents (h : c.SameContents d) : Indistinguishable c d where
  contents := h
  evaluations := Peripherals.device_ignoresHidden.inStep h
  deliveries fuel es e :=
    (lockstep_sameContents.deliverAll h fuel es).mono fun _ _ hab =>
      Peripherals.device_ignoresHidden.inStep (lockstep_sameContents.mapPorts e.store hab)

/--
The bytes above the tops of the stacks are seen neither by a program nor by the
host: the same calls have the same reports and leave the same screens behind.
-/
theorem hidden_bytes_unseen :
    (∀ c d : Config Unit, c.SameContents d → c.InStep .inert .inert SameContents d) ∧
    ∀ c d : Computer, c.SameContents d → ∀ fuel (calls : List HostCall),
      Option.Rel (fun a b => a.1 = b.1 ∧ Indistinguishable a.2 b.2)
        (c.takeAll fuel (calls.map .call)) (d.takeAll fuel (calls.map .call)) := by
  refine ⟨fun c d h => Device.inert_ignoresHidden.inStep h, fun c d h fuel calls => ?_⟩
  have hsame := lockstep_sameContents.takeAll h fuel calls
  rw [List.forall₂_eq_eq_eq] at hsame
  exact hsame.mono fun a b hab => ⟨hab.1, indistinguishable_of_sameContents hab.2⟩

theorem hidden_bytes_unseen_overlay :
    ∃ c d : Computer, c.machine.wst.byteAt 0 ≠ d.machine.wst.byteAt 0 ∧ c.SameContents d ∧
      c.isDebugging = true ∧ ∃ r c' d', c.takeAll 0 [.call .tick, .call .report] = some ([r], c') ∧
      d.takeAll 0 [.call .tick, .call .report] = some ([r], d') ∧ Indistinguishable c' d' := by
  let m : Machine := Machine.fresh.writePort Port.debug 1
  let c : Computer := ⟨{ m with wst := (Stack.empty.pushByte 0x41).2.setHeight 0 }, .fresh⟩
  let d : Computer := ⟨m, .fresh⟩
  have hcd : c.SameContents d := ⟨⟨rfl, rfl, rfl, rfl, rfl⟩, fun r => by cases r <;> rfl⟩
  have hvector : c.machine.ports.readShort Port.screenVector = 0 := by decide
  have heval : c.evalVector 0 Port.screenVector = some c := by
    simp [evalVector, hvector, evalAt, Config.eval]
  have hticked : c.takeAll 0 [.call .tick, .call .report] =
      some ([(report c.render).1], (report c.render).2) := by
    simp only [takeAll, take, call, tick, heval, Option.map_some]
    rfl
  have hsame := hidden_bytes_unseen.2 c d hcd 0 [.tick, .report]
  simp only [List.map_cons, List.map_nil] at hsame
  rw [hticked] at hsame
  generalize hright : d.takeAll 0 [.call .tick, .call .report] = right at hsame
  cases hsame with
  | @some _ b hab =>
      obtain ⟨reports, d'⟩ := b
      obtain ⟨rfl, hboth⟩ := hab
      exact ⟨c, d, by decide, hcd, by decide, _, _, d', hticked, hright, hboth⟩

end Computer

end StackComputer
