import StackComputer.Proofs.Host.Streams
import StackComputer.Proofs.Screen.Dimensions

/-!
# Reports at any time

A report changes nothing that a guest can see.  Computers with the same machine
and with screens of the same dimensions stay alike under every call, and their
histories differ in nothing but the reports.  So it does not matter when the
host collects them.
-/

namespace StackComputer.Computer

/-- What a guest can learn of either computer is the same. -/
def Alike (c d : Computer) : Prop :=
  c.machine = d.machine ∧ c.device.screen.dimensions = d.device.screen.dimensions

variable {c d : Computer}

theorem Alike.output (h : Alike c d) (i : Byte) :
    Alike (Peripherals.output i c) (Peripherals.output i d) := by
  obtain ⟨⟨ram, ports, inputs, outputs, wst, rst⟩, p⟩ := c
  obtain ⟨m, q⟩ := d
  obtain ⟨rfl, hsize⟩ := h
  unfold Peripherals.output
  split
  · unfold Peripherals.outputSystem
    split
    · exact ⟨rfl, by simpa [Peripherals.runCommand] using hsize⟩
    · split
      · refine ⟨rfl, ?_⟩
        dsimp only
        rw [Peripherals.requestExit_eq _ p, Peripherals.requestExit_eq _ q]
        exact hsize
      · split
        · exact ⟨rfl, by simpa [Peripherals.mapScreen] using hsize⟩
        · split <;> exact ⟨rfl, hsize⟩
  · split
    · unfold Peripherals.outputConsole
      dsimp only
      split
      · exact ⟨rfl, hsize⟩
      · split <;> exact ⟨rfl, hsize⟩
    · split
      · obtain ⟨hports, hscreen⟩ := Screen.output_congr hsize i ram ports
        unfold Peripherals.outputScreen
        dsimp only
        rw [hports]
        exact ⟨rfl, by simpa using hscreen⟩
      · exact ⟨rfl, hsize⟩

theorem Alike.render (h : Alike c d) : Alike (Computer.render c) (Computer.render d) := by
  rw [render_eq, render_eq]
  refine ⟨h.1, ?_⟩
  simpa [Peripherals.mapScreen, dimensions_repaint] using h.2

theorem device_lockstep_alike : Peripherals.device.Lockstep Peripherals.device Alike where
  ram h := congrArg Machine.ram h.1
  ports h := congrArg Machine.ports h.1
  data h r := by rw [h.1]
  setHeight := by
    rintro ⟨m, p⟩ ⟨_, q⟩ ⟨rfl, hsize⟩ r n -
    exact ⟨rfl, hsize⟩
  pushCells := by
    rintro ⟨m, p⟩ ⟨_, q⟩ ⟨rfl, hsize⟩ r cells
    exact ⟨rfl, hsize⟩
  writeCell := by
    rintro ⟨m, p⟩ ⟨_, q⟩ ⟨rfl, hsize⟩ w a v
    exact ⟨rfl, hsize⟩
  input := by
    rintro ⟨m, p⟩ ⟨_, q⟩ ⟨rfl, hsize⟩ i
    unfold Config.input
    dsimp only
    split
    · refine ⟨?_, rfl, hsize⟩
      change (if i / 16 = 2 then p.screen.input i m.ports else _) =
        (if i / 16 = 2 then q.screen.input i m.ports else _)
      rw [Screen.input_congr hsize]
    · exact ⟨rfl, rfl, hsize⟩
  output := by
    rintro ⟨m, p⟩ ⟨_, q⟩ ⟨rfl, hsize⟩ i v
    have hstored : Alike ⟨m.writePort i v, p⟩ ⟨m.writePort i v, q⟩ := ⟨rfl, hsize⟩
    unfold Config.output
    dsimp only
    split
    · exact hstored.output i
    · exact hstored

theorem lockstep_alike : Lockstep Alike fun _ _ => True where
  device := device_lockstep_alike
  halt := by
    rintro f ⟨m, p⟩ ⟨_, q⟩ ⟨rfl, hsize⟩
    exact ⟨rfl, hsize⟩
  mapPorts := by
    rintro f ⟨m, p⟩ ⟨_, q⟩ ⟨rfl, hsize⟩
    exact ⟨rfl, hsize⟩
  render := Alike.render
  report := by
    rintro ⟨m, p⟩ ⟨_, q⟩ ⟨rfl, hsize⟩
    exact ⟨trivial, rfl, hsize⟩

/-! ## Histories of computers that are alike -/

theorem writes_congr (h : c.machine = d.machine) (pc : Short) : c.writes pc = d.writes pc := by
  obtain ⟨m, p⟩ := c
  obtain ⟨_, q⟩ := d
  obtain rfl := h
  have hafter (i : Instruction) : (Config.afterOperands ⟨m, p⟩ i).machine =
      (Config.afterOperands ⟨m, q⟩ i).machine := by
    unfold Config.afterOperands
    split <;> rfl
  rw [Config.writes, Config.writes]
  dsimp only
  rw [hafter]
  rfl

theorem Alike.runEvents (h : Alike c d) (fuel : Nat) (pc : Short) :
    c.runEvents Peripherals.device fuel pc = d.runEvents Peripherals.device fuel pc := by
  induction fuel generalizing pc c d with
  | zero => rfl
  | succ fuel ih =>
      obtain ⟨hout, hnext⟩ := device_lockstep_alike.step h pc
      rw [Config.runEvents, Config.runEvents, writes_congr h.1, h.1]
      generalize c.step Peripherals.device pc = left at hout hnext
      generalize d.step Peripherals.device pc = right at hout hnext
      obtain ⟨outcome, c'⟩ := left
      obtain ⟨outcome', d'⟩ := right
      obtain rfl : outcome = outcome' := hout
      cases outcome with
      | next pc' => exact congrArg (d.writes pc ++ ·) (ih hnext pc')
      | stop => rfl
      | fault cause => rfl

theorem Alike.evalEvents (h : Alike c d) (fuel : Nat) (pc : Short) :
    c.evalEvents Peripherals.device fuel pc = d.evalEvents Peripherals.device fuel pc := by
  rw [Config.evalEvents, Config.evalEvents, h.1, h.runEvents]

theorem Alike.vectorEvents (h : Alike c d) (fuel : Nat) (port : Byte) :
    c.vectorEvents fuel port = d.vectorEvents fuel port := by
  rw [Computer.vectorEvents, Computer.vectorEvents, h.1, h.evalEvents]

theorem Alike.deliverEvents (h : Alike c d) (fuel : Nat) (e : ConsoleEvent) :
    c.deliverEvents fuel e = d.deliverEvents fuel e :=
  (lockstep_alike.mapPorts _ h).vectorEvents fuel Port.consoleVector

theorem Alike.deliverAllEvents (h : Alike c d) (fuel : Nat) (es : List ConsoleEvent) :
    Computer.deliverAllEvents fuel es c = Computer.deliverAllEvents fuel es d := by
  induction es generalizing c d with
  | nil => rfl
  | cons e es ih =>
      have hfirst := lockstep_alike.deliver h fuel e
      rw [Computer.deliverAllEvents, Computer.deliverAllEvents, h.deliverEvents]
      generalize c.deliver fuel e = left at hfirst
      generalize d.deliver fuel e = right at hfirst
      cases hfirst with
      | some hnext => exact congrArg (d.deliverEvents fuel e ++ ·) (ih hnext)
      | none => rfl

theorem Alike.callEvents (h : Alike c d) (fuel : Nat) (k : HostCall) :
    c.callEvents fuel k = d.callEvents fuel k := by
  cases k with
  | eval pc => exact h.evalEvents fuel pc
  | sendByte b => exact h.deliverEvents fuel _
  | sendArguments args => exact h.deliverAllEvents fuel _
  | tick => exact h.vectorEvents fuel _
  | report => rfl

theorem flatMap_written_reports (s : OutputStream) (r : Option Report) :
    (r.toList.map Event.report).flatMap (Event.written s) = [] := by
  cases r with
  | none => rfl
  | some r => cases s <;> rfl

theorem Alike.report (h : Alike c d) : Alike (Computer.report c).2 d :=
  h

theorem Alike.history (h : Alike c d) (fuel : Nat) (calls : List HostCall) :
    Option.Rel (fun a b => (∀ s, a.1.flatMap (Event.written s) = b.1.flatMap (Event.written s)) ∧
        Alike a.2 b.2)
      (c.history fuel calls) (d.history fuel (calls.filter (· ≠ .report))) := by
  induction calls generalizing c d with
  | nil => exact .some ⟨fun _ => rfl, h⟩
  | cons k calls ih =>
      by_cases hk : k = .report
      · subst hk
        have hrest := ih h.report
        have hsame : Computer.history fuel c (.report :: calls) =
            (Computer.history fuel (Computer.report c).2 calls).map fun rest =>
              (.report (Computer.report c).1 :: rest.1, rest.2) := rfl
        rw [hsame, List.filter_cons_of_neg (by simp)]
        generalize Computer.history fuel (Computer.report c).2 calls = left at hrest ⊢
        generalize d.history fuel (calls.filter (· ≠ .report)) = right at hrest ⊢
        cases hrest with
        | none => exact .none
        | some hab =>
            refine .some ⟨fun s => ?_, hab.2⟩
            rw [List.flatMap_cons, hab.1 s]
            cases s <;> rfl
      · have hfirst := lockstep_alike.call h fuel k
        rw [List.filter_cons_of_pos (by simpa using hk), Computer.history, Computer.history,
          h.callEvents]
        generalize c.call fuel k = left at hfirst
        generalize d.call fuel k = right at hfirst
        cases hfirst with
        | none => exact .none
        | some hnext =>
            obtain ⟨-, hnext⟩ := hnext
            refine (ih hnext).map fun a b hab => ⟨fun s => ?_, hab.2⟩
            simp only [List.flatMap_append, flatMap_written_reports, hab.1 s]

/-! ## From the start -/

theorem accounted_start (m : Machine) (excess : Nat) (args : List String) :
    Accounted [] (announceArguments args (reset excess ⟨m, .fresh⟩)) := by
  have hempty : Peripherals.fresh.stdout = #[] ∧ Peripherals.fresh.stderr = #[] := by
    rw [Peripherals.fresh, Peripherals.notify_eq]
    exact ⟨rfl, rfl⟩
  have hdevice : (∀ s, (reset excess ⟨m, .fresh⟩).device.stream s = []) ∧
      (reset excess ⟨m, .fresh⟩).device.fault = none := by
    unfold reset
    dsimp only
    rw [Peripherals.notify_eq, Peripherals.notify_eq (Peripherals.mk ..)]
    refine ⟨fun s => ?_, rfl⟩
    cases s <;> simp [Peripherals.stream, hempty]
  have hreset : Accounted [] (reset excess ⟨m, .fresh⟩) :=
    ⟨m.isWired_wire, hdevice.1, hdevice.2, fun t₁ r hfront => by simp at hfront⟩
  unfold announceArguments
  split
  · exact hreset
  · exact hreset.mapPorts _

theorem stream_report (c : Computer) (s : OutputStream) :
    (report c).1.stream s = c.device.stream s := by
  cases s <;> rfl

/-- The machine that a history leaves, and all that the host is told up to a last report. -/
def outcome (h : List Event × Computer) : Machine × (OutputStream → List Byte) :=
  (h.2.machine, fun s => h.1.flatMap (Event.collected s) ++ (report h.2).1.stream s)

theorem outcome_eq {t : List Event} (h : Accounted t c) :
    outcome (t, c) = (c.machine, fun s => t.flatMap (Event.written s)) := by
  simp only [outcome, stream_report, h.stream]

theorem outcome_filter (h : Accounted [] c) (fuel : Nat) (calls : List HostCall) :
    (c.history fuel calls).map outcome =
      (c.history fuel (calls.filter (· ≠ .report))).map outcome := by
  have hrel := Alike.history (⟨rfl, rfl⟩ : Alike c c) fuel calls
  generalize hleft : c.history fuel calls = left at hrel ⊢
  generalize hright : c.history fuel (calls.filter (· ≠ .report)) = right at hrel ⊢
  cases hrel with
  | none => rfl
  | @some a b hab =>
      obtain ⟨t, e⟩ := a
      obtain ⟨t', e'⟩ := b
      obtain ⟨hwritten, hmachine, -⟩ := hab
      dsimp only at hwritten hmachine
      have hall : Accounted t e := h.history hleft
      have hsome : Accounted t' e' := h.history hright
      rw [Option.map_some, Option.map_some, outcome_eq hall, outcome_eq hsome, hmachine,
        funext hwritten]

/--
From a start on any machine, what the host collects is what was put on each
stream, and each report tells of the last fault since the one before.  Where
reports are collected makes no difference to the outcome.
-/
theorem history_collected (m : Machine) (excess : Nat) (args : List String) (fuel : Nat) :
    let start := announceArguments args (reset excess ⟨m, .fresh⟩)
    (∀ calls t c, start.history fuel calls = some (t, c) →
      (∀ s, t.flatMap (Event.collected s) ++ (report c).1.stream s =
        t.flatMap (Event.written s)) ∧
      (∀ t₁ r, t₁ ++ [.report r] <+: t → r.fault = lastFault t₁) ∧
      (report c).1.fault = lastFault t) ∧
    ∀ calls calls' : List HostCall, calls.filter (· ≠ .report) = calls'.filter (· ≠ .report) →
      (start.history fuel calls).map outcome = (start.history fuel calls').map outcome := by
  intro start
  have hstart : Accounted [] start := accounted_start m excess args
  constructor
  · intro calls t c hhistory
    have h : Accounted t c := hstart.history hhistory
    refine ⟨fun s => ?_, h.reports, h.fault⟩
    rw [stream_report, h.stream]
  · intro calls calls' hsame
    rw [outcome_filter hstart, outcome_filter hstart fuel calls', hsame]

theorem history_collected_write :
    ∃ (m : Machine) (writer : Machine) (r : Report) (c : Computer),
      (announceArguments [] (reset 0 ⟨m, .fresh⟩)).history 2 [.eval 0x0100, .report] =
        some ([.write Port.write 0x41 writer, .report r], c) ∧
      r.stdout.toList ++ (report c).1.stdout.toList = [0x41] ∧ r.fault = none ∧
      ((announceArguments [] (reset 0 ⟨m, .fresh⟩)).history 2 [.eval 0x0100]).map outcome =
        some (outcome ([.write Port.write 0x41 writer, .report r], c)) := by
  let m : Machine :=
    { Machine.fresh with
      ram := Ram.zero.write 0x0100 0x17
      wst := (Stack.empty.pushBytes [0x41, 0x18]).2 }
  let c : Computer := reset 0 ⟨m, .fresh⟩
  let d : Computer := c.setHeight false 0
  let e : Computer := Peripherals.output Port.write ⟨d.machine.writePort Port.write 0x41, d.device⟩
  have hwired : d.machine.IsWired := m.isWired_wire.of_masks rfl rfl
  have hread : c.machine.ram.read 0x0100 = 0x17 := Ram.read_write_self _ _ _
  have hnext : e.machine.ram.read 0x0101 = 0x00 := by
    have hram : e.machine.ram = Ram.zero.write 0x0100 0x17 := rfl
    rw [hram, Ram.read_write_ne _ _ (by decide), Ram.read_zero]
  have hstarts : ¬((0x0100 : Short) = 0 ∨ c.machine.halted = true) := by
    have hports : c.machine.ports = Ports.zero := rfl
    simp [Machine.halted, hports, Ports.read, Ports.zero]
  have hstep : c.step Peripherals.device 0x0100 = (.next 0x0101, e) := by
    have houtput := output_of_isWired hwired Port.write 0x41
    rw [Config.step, hread]
    change (Outcome.next 0x0101, d.output Peripherals.device Port.write 0x41) = _
    rw [houtput]
  have hstop : e.step Peripherals.device 0x0101 = (.stop, e) := by
    rw [Config.step, hnext]
    rfl
  have hwrites : c.writes 0x0100 = [.write Port.write 0x41 d.machine] := by
    rw [Config.writes, hread]
    rfl
  have hquiet : e.writes 0x0101 = [] := by
    rw [Config.writes, hnext]
    rfl
  have hevents : c.callEvents 2 (.eval 0x0100) = [.write Port.write 0x41 d.machine] := by
    rw [callEvents, Config.evalEvents, if_neg hstarts, Config.runEvents, hwrites, hstep]
    dsimp only
    rw [Config.runEvents, hquiet, hstop]
    rfl
  have heval : c.evalAt 2 0x0100 = some (true, e) := by
    rw [evalAt, Config.eval, if_neg hstarts, Config.run, hstep]
    dsimp only
    rw [Config.run, hstop]
  have hhistory : c.history 2 [.eval 0x0100, .report] =
      some ([.write Port.write 0x41 d.machine, .report (report e).1], (report e).2) := by
    rw [history, call, heval, hevents]
    rfl
  obtain ⟨hcollected, hother⟩ := history_collected m 0 [] 2
  obtain ⟨hstreams, hfaults, -⟩ := hcollected _ _ _ hhistory
  refine ⟨m, d.machine, (report e).1, (report e).2, hhistory, ?_, ?_, ?_⟩
  · exact hstreams .stdout
  · exact hfaults [.write Port.write 0x41 d.machine] _ (List.prefix_refl _)
  · have hsame := hother [.eval 0x0100] [.eval 0x0100, .report] (by decide)
    exact hsame.trans (congrArg (Option.map outcome) hhistory)

end StackComputer.Computer
