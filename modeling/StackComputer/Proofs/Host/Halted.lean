import StackComputer.Proofs.Host.History

/-!
# A halted computer is frozen

While the halt port is not zero no evaluation starts, so a call comes down to
what the host does by itself: it stores bytes for the console, renders and
collects reports.  None of that reaches the port, and so it stays this way.
-/

namespace StackComputer

namespace Computer

/-! ## The frozen part of a computer -/

structure Frozen (c d : Computer) : Prop where
  ram : d.machine.ram = c.machine.ram
  stack : ∀ r, d.machine.stack r = c.machine.stack r
  inputs : d.machine.inputs = c.machine.inputs
  outputs : d.machine.outputs = c.machine.outputs
  ports : ∀ i, i ≠ Port.consoleByte → i ≠ Port.consoleType →
    d.machine.ports.read i = c.machine.ports.read i
  exit : d.device.exit = c.device.exit
  dimensions : d.device.screen.dimensions = c.device.screen.dimensions
  palette : d.device.screen.palette = c.device.screen.palette
  layers : c.machine.ports.read Port.debug = 0 → ∀ l,
    d.device.screen.layer l = c.device.screen.layer l

/-- The first report tells what was held before; after it there is nothing to tell. -/
structure Silent (c : Computer) (reports : List Report) (d : Computer) : Prop where
  stream : ∀ s, reports.map (·.stream s) ++ [d.device.stream s] =
    c.device.stream s :: List.replicate reports.length []
  fault : reports.map (·.fault) ++ [d.device.fault] =
    c.device.fault :: List.replicate reports.length none
  exit : ∀ r ∈ reports, r.exit = c.device.exit

variable {c d e : Computer}

namespace Frozen

theorem refl (c : Computer) : Frozen c c :=
  ⟨rfl, fun _ => rfl, rfl, rfl, fun _ _ _ => rfl, rfl, rfl, rfl, fun _ _ => rfl⟩

theorem trans (h : Frozen c d) (k : Frozen d e) : Frozen c e where
  ram := k.ram.trans h.ram
  stack r := (k.stack r).trans (h.stack r)
  inputs := k.inputs.trans h.inputs
  outputs := k.outputs.trans h.outputs
  ports i hbyte htype := (k.ports i hbyte htype).trans (h.ports i hbyte htype)
  exit := k.exit.trans h.exit
  dimensions := k.dimensions.trans h.dimensions
  palette := k.palette.trans h.palette
  layers hdebug l := by
    have hstill : d.machine.ports.read Port.debug = 0 := by
      rw [h.ports Port.debug (by decide) (by decide), hdebug]
    rw [k.layers hstill, h.layers hdebug]

theorem halted (h : Frozen c d) (hc : c.machine.halted = true) : d.machine.halted = true := by
  rwa [Machine.halted, h.ports Machine.haltPort (by decide) (by decide)]

theorem of_mapPorts {f : Ports → Ports} (hf : ∀ p i, i ≠ Port.consoleByte → i ≠ Port.consoleType →
    (f p).read i = p.read i) (c : Computer) : Frozen c (c.mapPorts f) :=
  { refl c with ports := hf c.machine.ports }

theorem store (e : ConsoleEvent) (c : Computer) : Frozen c (c.mapPorts e.store) := by
  refine of_mapPorts (fun p i hbyte htype => ?_) c
  rw [ConsoleEvent.store, Ports.read_write_ne _ _ htype.symm, Ports.read_write_ne _ _ hbyte.symm]

theorem settle (c : Computer) : Frozen c c.settle :=
  of_mapPorts (fun _ _ _ htype => Ports.read_write_ne _ _ htype.symm) c

theorem render (c : Computer) : Frozen c c.render := by
  rw [render_eq]
  exact { refl c with
    dimensions := dimensions_repaint c.machine c.device.screen
    palette := palette_repaint c.machine c.device.screen
    layers := fun hdebug => layer_repaint hdebug c.device.screen }

theorem report (c : Computer) : Frozen c c.report.2 :=
  { refl c with layers := fun _ l => by cases l <;> rfl }

end Frozen

namespace Silent

theorem trans {rs rs' : List Report} (h : Silent c rs d) (k : Silent d rs' e)
    (hexit : d.device.exit = c.device.exit) : Silent c (rs ++ rs') e where
  stream s := by
    rw [List.map_append, List.append_assoc, k.stream s, List.length_append,
      ← List.replicate_append_replicate, ← List.cons_append, ← h.stream s]
    simp
  fault := by
    rw [List.map_append, List.append_assoc, k.fault, List.length_append,
      ← List.replicate_append_replicate, ← List.cons_append, ← h.fault]
    simp
  exit r hr := by
    rcases List.mem_append.mp hr with hfirst | hlater
    · exact h.exit r hfirst
    · rw [k.exit r hlater, hexit]

theorem of_same (hstream : ∀ s, d.device.stream s = c.device.stream s)
    (hfault : d.device.fault = c.device.fault) : Silent c [] d where
  stream s := by simp [hstream]
  fault := by simp [hfault]
  exit := nofun

theorem answer (hstream : ∀ s, d.device.stream s = c.device.stream s)
    (hfault : d.device.fault = c.device.fault) (hexit : d.device.exit = c.device.exit) :
    Silent c d.answer.1.toList d.answer.2 where
  stream s := by
    rw [← hstream]
    cases s <;> rfl
  fault := by
    rw [← hfault]
    rfl
  exit r hr := by
    obtain rfl := List.mem_singleton.mp hr
    exact hexit

end Silent

/-! ## Calls to a halted computer -/

theorem evalAt_of_halted (h : c.machine.halted = true) (fuel : Nat) (pc : Short) :
    c.evalAt fuel pc = some (false, c) ∧ c.evalEvents Peripherals.device fuel pc = [] := by
  simp [evalAt, Config.eval, Config.evalEvents, h]

theorem evalVector_of_halted (h : c.machine.halted = true) (fuel : Nat) (port : Byte) :
    c.evalVector fuel port = some c ∧ c.vectorEvents fuel port = [] := by
  obtain ⟨heval, hevents⟩ := evalAt_of_halted h fuel (c.machine.ports.readShort port)
  exact ⟨congrArg (Option.map Prod.snd) heval, hevents⟩

theorem deliver_of_halted (h : c.machine.halted = true) (fuel : Nat) (e : ConsoleEvent) :
    c.deliver fuel e = some (c.mapPorts e.store) ∧ c.deliverEvents fuel e = [] :=
  evalVector_of_halted ((Frozen.store e c).halted h) fuel Port.consoleVector

theorem deliverAll_of_halted (h : c.machine.halted = true) (es : List ConsoleEvent) :
    ∃ d, (∀ fuel, deliverAll fuel es c = some d ∧ deliverAllEvents fuel es c = []) ∧
      Frozen c d ∧ d.device = c.device := by
  induction es generalizing c with
  | nil => exact ⟨c, fun _ => ⟨rfl, rfl⟩, .refl c, rfl⟩
  | cons e es ih =>
      have hstore := Frozen.store e c
      obtain ⟨d, hrest, hfrozen, hdevice⟩ := ih (hstore.halted h)
      refine ⟨d, fun fuel => ?_, hstore.trans hfrozen, hdevice⟩
      obtain ⟨hfirst, hquiet⟩ := deliver_of_halted h fuel e
      rw [deliverAll, deliverAllEvents, hfirst, hquiet]
      exact hrest fuel

theorem call_of_halted (h : c.machine.halted = true) (k : HostCall) :
    ∃ r d, (∀ fuel, c.call fuel k = some (r, d) ∧ c.callEvents fuel k = []) ∧ Frozen c d ∧
      Silent c r.toList d := by
  cases k with
  | eval pc =>
      refine ⟨none, c, fun fuel => ?_, .refl c, .of_same (fun _ => rfl) rfl⟩
      obtain ⟨heval, hevents⟩ := evalAt_of_halted h fuel pc
      exact ⟨by rw [call, heval]; rfl, hevents⟩
  | sendByte b =>
      have hfrozen := (Frozen.store ⟨b, .input⟩ c).trans (.report _)
      refine ⟨_, _, fun fuel => ?_, hfrozen, .answer (d := c.mapPorts _) (fun _ => rfl) rfl rfl⟩
      obtain ⟨hdeliver, hevents⟩ := deliver_of_halted h fuel ⟨b, .input⟩
      exact ⟨by rw [call, sendByte, hdeliver]; rfl, hevents⟩
  | sendArguments args =>
      obtain ⟨d, hall, hfrozen, hdevice⟩ :=
        deliverAll_of_halted h (ConsoleEvent.ofArguments (args.map utf8Bytes))
      have hsilent : Silent c (answer d.settle).1.toList (answer d.settle).2 :=
        .answer (fun _ => by rw [← hdevice]; rfl) (by rw [← hdevice]; rfl) (by rw [← hdevice]; rfl)
      refine ⟨_, _, fun fuel => ?_, hfrozen.trans ((Frozen.settle d).trans (.report _)), hsilent⟩
      obtain ⟨hdeliver, hevents⟩ := hall fuel
      exact ⟨by rw [call, sendArguments, hdeliver]; rfl, hevents⟩
  | tick =>
      have hsilent : Silent c [] c.render := by
        rw [render_eq]
        exact .of_same (fun s => by cases s <;> rfl) rfl
      refine ⟨none, c.render, fun fuel => ?_, .render c, hsilent⟩
      obtain ⟨heval, hevents⟩ := evalVector_of_halted h fuel Port.screenVector
      exact ⟨by rw [call, tick, heval]; rfl, hevents⟩
  | report =>
      exact ⟨_, _, fun _ => ⟨rfl, rfl⟩, .report c, .answer (fun _ => rfl) rfl rfl⟩

/--
While the halt port is not zero, calls execute no instruction, whatever they
are and without any fuel.  The computer is frozen, and its reports tell nothing
that was not there to be told before.
-/
theorem halted_frozen (h : c.machine.ports.read Port.state ≠ 0) (calls : List HostCall) :
    ∃ reports d, (∀ fuel, c.history fuel calls = some (reports.map .report, d)) ∧
      Frozen c d ∧ Silent c reports d := by
  induction calls generalizing c with
  | nil => exact ⟨[], c, fun _ => rfl, .refl c, .of_same (fun _ => rfl) rfl⟩
  | cons k calls ih =>
      have hhalted : c.machine.halted = true := bne_iff_ne.mpr h
      obtain ⟨r, d, hcall, hfirst, htold⟩ := call_of_halted hhalted k
      obtain ⟨reports, e, hhistory, hlater, hsilent⟩ := ih (bne_iff_ne.mp (hfirst.halted hhalted))
      refine ⟨r.toList ++ reports, e, fun fuel => ?_, hfirst.trans hlater,
        htold.trans hsilent hfirst.exit⟩
      obtain ⟨hsame, hquiet⟩ := hcall fuel
      rw [history, hsame]
      simp [hquiet, hhistory fuel]

theorem halted_frozen_send :
    ∃ c : Computer, c.machine.ports.read Port.state = 0x80 ∧ c.device.stdout = #[0x42] ∧
      ∃ reports d, (∀ fuel, c.history fuel [.sendByte 0x41, .tick, .report] =
        some (reports.map .report, d)) ∧ Frozen c d ∧ Silent c reports d := by
  let c : Computer :=
    ⟨Machine.fresh.writePort Port.state 0x80, { Peripherals.fresh with stdout := #[0x42] }⟩
  have hread : c.machine.ports.read Port.state = 0x80 := Ports.read_write_self ..
  have hstate : c.machine.ports.read Port.state ≠ 0 := by
    rw [hread]
    decide
  exact ⟨c, hread, rfl, halted_frozen hstate _⟩

end Computer

end StackComputer
