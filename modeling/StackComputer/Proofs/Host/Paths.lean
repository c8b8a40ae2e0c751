import StackComputer.Proofs.Host.History
import StackComputer.Proofs.Machine.Tracing

/-!
# Paths

Instructions and calls change a computer in a few ways only.  Each is a move,
with the events that it adds to the history.  A property of computers and their
histories that survives every move holds between any two accesses to a port, in
the middle of an evaluation as well as after it, whether that ends or not.
-/

namespace StackComputer

theorem ConsoleEvent.read_store (e : ConsoleEvent) (p : Ports) {j : Byte}
    (hbyte : j ≠ Port.consoleByte) (htype : j ≠ Port.consoleType) :
    (e.store p).read j = p.read j := by
  rw [store, Ports.read_write_ne _ _ htype.symm, Ports.read_write_ne _ _ hbyte.symm]

namespace Computer

/--
What an instruction or the host does at once.  A byte is told with a machine
that has the stacks of the one which writes it.
-/
inductive Move : Computer → List Event → Computer → Prop
  | setStack (c : Computer) (r : Bool) (s : Stack) : Move c [] (c.setStack r s)
  | writeCell (c : Computer) (w : Width) (a v : Short) : Move c [] (c.writeCell w a v)
  | output (c : Computer) (i v : Byte) (writer : Machine)
      (hstack : ∀ r, writer.stack r = c.machine.stack r) :
      Move c [.write i v writer] (c.output Peripherals.device i v)
  | halt (c : Computer) (f : Fault) : Move c [.fault f] (Peripherals.halt f c).2
  | store (c : Computer) (e : ConsoleEvent) : Move c [] (c.mapPorts e.store)
  | settle (c : Computer) : Move c [] c.settle
  | render (c : Computer) : Move c [] c.render
  | report (c : Computer) : Move c [.report c.report.1] c.report.2

theorem Move.wired {c d : Computer} {e : List Event} (h : Move c e d)
    (hwired : c.machine.IsWired) : d.machine.IsWired := by
  cases h with
  | setStack r s => cases r <;> exact hwired.of_masks rfl rfl
  | writeCell w a v => exact hwired.of_masks rfl rfl
  | output i v writer hstack =>
      have hstored : (c.machine.writePort i v).IsWired := hwired.of_masks rfl rfl
      rw [output_of_isWired hwired]
      exact isWired_output ⟨_, _⟩ hstored i
  | halt f => exact hwired
  | store e => exact isWired_mapPorts hwired _
  | settle => exact isWired_mapPorts hwired _
  | render =>
      rw [render_eq]
      exact hwired
  | report => exact hwired

inductive Path (start : Computer) : List Event → Computer → Prop
  | refl : Path start [] start
  | move {t e : List Event} {c d : Computer} (h : Path start t c) (hmove : Move c e d) :
      Path start (t ++ e) d

namespace Path

variable {start c d : Computer} {t : List Event}

theorem append_nil (h : Path start t c) : Path start (t ++ []) c := by
  rwa [List.append_nil]

theorem quiet (h : Path start t c) (hmove : Move c [] d) : Path start t d := by
  simpa using h.move hmove

theorem of_reset (program : Array Byte) (args : List String) (c : Computer) :
    Path (reset (Ram.excess program).size ⟨c.machine.load program, c.device⟩) []
      (Computer.start program args c) := by
  change Path _ [] (announceArguments args _)
  unfold announceArguments
  split
  · exact .refl
  · exact Path.refl.quiet (.settle _)

/-! ## Instructions -/

theorem pushCells (h : Path start t c) (r : Bool) (cells : List Cell) :
    Path start t (c.pushCells r cells).2 := by
  rw [Config.pushCells_eq]
  exact h.quiet (.setStack c r _)

theorem outputCell (h : Path start t c) (w : Width) (i : Byte) (v : Short) :
    Path start (t ++ (Action.output i v).events w c.machine)
      (c.outputCell Peripherals.device w i v) := by
  cases w with
  | byte => exact h.move (.output c i v.lo c.machine fun _ => rfl)
  | short =>
      have hfirst := h.move (.output c i v.hi c.machine fun _ => rfl)
      have hstack (r : Bool) := Peripherals.device_sparesStacks.busOutput i v.hi c r
      have hsecond := hfirst.move (.output _ (i + 1) v.lo c.machine fun r => (hstack r).symm)
      rwa [List.append_assoc] at hsecond

theorem act (h : Path start t c) (mode : Mode) (next : Short) (a : Action) :
    Path start (t ++ a.events mode.width c.machine) (c.act Peripherals.device mode next a).2 := by
  cases a with
  | stop => exact h.append_nil
  | fail e => exact h.append_nil
  | push cells => exact (h.pushCells mode.onReturn cells).append_nil
  | stash cell => exact (h.pushCells (!mode.onReturn) [cell]).append_nil
  | load a =>
      have hpushed := h.pushCells mode.onReturn [⟨mode.width, c.machine.ram.readCell mode.width a⟩]
      exact hpushed.append_nil
  | store a v => exact (h.quiet (.writeCell c mode.width a v)).append_nil
  | input i =>
      have hsame := Config.inputCell_of_readsQuietly Peripherals.device_readsQuietly c mode.width i
      rw [Config.act]
      dsimp only
      rw [hsame]
      exact (h.pushCells mode.onReturn _).append_nil
  | output i v => exact h.outputCell mode.width i v

theorem step (h : Path start t c) (pc : Short) :
    Path start (t ++ c.writes pc) (c.step Peripherals.device pc).2 := by
  rw [Config.writes, Config.step]
  generalize Instruction.decode (c.machine.ram.read pc) = i
  split
  · next htaken =>
      obtain ⟨s, hafter, -, -⟩ := c.exists_afterOperands i
      rw [Config.execute_of_taken_le _ _ htaken, hafter]
      exact (h.quiet (.setStack c _ s)).act i.mode _ _
  · next hmissing =>
      obtain ⟨n, -, hmissed⟩ :=
        Config.execute_of_lt_taken Peripherals.device (pc + 1) (Nat.lt_of_not_le hmissing)
      rw [hmissed, List.append_nil]
      dsimp only
      split
      · exact h
      · rw [Config.setHeight_eq]
        exact h.quiet (.setStack c _ _)

theorem run (h : Path start t c) {fuel : Nat} {pc : Short} {r : Bool × Computer}
    (hr : c.run Peripherals.device fuel pc = some r) :
    Path start (t ++ c.runEvents Peripherals.device fuel pc) r.2 := by
  induction fuel generalizing t pc c with
  | zero => contradiction
  | succ fuel ih =>
      have hstep := h.step pc
      rw [Config.run] at hr
      rw [Config.runEvents, ← List.append_assoc]
      generalize c.step Peripherals.device pc = next at hr hstep
      obtain ⟨outcome, c'⟩ := next
      cases outcome with
      | next pc' => exact ih hstep hr
      | stop =>
          obtain rfl := Option.some.inj hr
          exact hstep.append_nil
      | fault cause =>
          obtain rfl := Option.some.inj hr
          exact hstep.move (.halt c' _)

theorem eval (h : Path start t c) {fuel : Nat} {pc : Short} {r : Bool × Computer}
    (hr : c.eval Peripherals.device fuel pc = some r) :
    Path start (t ++ c.evalEvents Peripherals.device fuel pc) r.2 := by
  rw [Config.eval] at hr
  rw [Config.evalEvents]
  split at hr
  · next hidle =>
      obtain rfl := Option.some.inj hr
      rw [if_pos hidle]
      exact h.append_nil
  · next hstarts =>
      rw [if_neg hstarts]
      exact h.run hr

/-! ## Calls -/

theorem evalVector (h : Path start t c) {fuel : Nat} {port : Byte}
    (hr : c.evalVector fuel port = some d) : Path start (t ++ c.vectorEvents fuel port) d := by
  obtain ⟨r, heval, rfl⟩ := Option.map_eq_some_iff.mp hr
  exact h.eval heval

theorem deliver (h : Path start t c) {fuel : Nat} {e : ConsoleEvent}
    (hr : c.deliver fuel e = some d) : Path start (t ++ c.deliverEvents fuel e) d :=
  (h.quiet (.store c e)).evalVector hr

theorem deliverAll (h : Path start t c) {fuel : Nat} {es : List ConsoleEvent}
    (hr : Computer.deliverAll fuel es c = some d) :
    Path start (t ++ Computer.deliverAllEvents fuel es c) d := by
  induction es generalizing t c with
  | nil =>
      obtain rfl := Option.some.inj hr
      exact h.append_nil
  | cons e es ih =>
      rw [Computer.deliverAll] at hr
      rw [Computer.deliverAllEvents, ← List.append_assoc]
      cases hfirst : c.deliver fuel e with
      | none =>
          rw [hfirst] at hr
          contradiction
      | some c' =>
          rw [hfirst] at hr
          exact ih (h.deliver hfirst) hr

theorem call (h : Path start t c) {fuel : Nat} {k : HostCall} {r : Option Report}
    (hr : c.call fuel k = some (r, d)) :
    Path start (t ++ (c.callEvents fuel k ++ r.toList.map .report)) d := by
  rw [← List.append_assoc]
  cases k with
  | eval pc =>
      obtain ⟨a, ha, heq⟩ := Option.map_eq_some_iff.mp hr
      cases heq
      exact (h.eval ha).append_nil
  | sendByte b =>
      obtain ⟨a, ha, heq⟩ := Option.map_eq_some_iff.mp hr
      cases heq
      exact (h.deliver ha).move (.report a)
  | sendArguments args =>
      obtain ⟨a, ha, heq⟩ := Option.map_eq_some_iff.mp hr
      obtain ⟨a', ha', rfl⟩ := Option.map_eq_some_iff.mp ha
      cases heq
      exact ((h.deliverAll ha').quiet (.settle a')).move (.report _)
  | tick =>
      obtain ⟨a, ha, heq⟩ := Option.map_eq_some_iff.mp hr
      obtain ⟨a', ha', rfl⟩ := Option.map_eq_some_iff.mp ha
      cases heq
      exact ((h.evalVector ha').quiet (.render a')).append_nil
  | report =>
      cases hr
      exact h.append_nil.move (.report c)

theorem history (h : Path start t c) {fuel : Nat} {calls : List HostCall} {t' : List Event}
    (hr : c.history fuel calls = some (t', d)) : Path start (t ++ t') d := by
  induction calls generalizing t t' c with
  | nil =>
      cases hr
      exact h.append_nil
  | cons k calls ih =>
      rw [Computer.history] at hr
      split at hr
      · contradiction
      · next r c' hfirst =>
          obtain ⟨rest, hrest, heq⟩ := Option.map_eq_some_iff.mp hr
          cases heq
          rw [← List.append_assoc]
          exact ih (h.call hfirst) hrest

/-! ## Inside an instruction -/

theorem perform (h : Path start t c) (done : List Access) :
    ∃ t', Path start t' (done.foldl (Access.perform Peripherals.device) c) := by
  induction done generalizing t c with
  | nil => exact ⟨t, h⟩
  | cons a done ih =>
      cases a with
      | read i =>
          have hsame := Config.input_of_readsQuietly Peripherals.device_readsQuietly c i
          rw [List.foldl_cons, Access.perform, hsame]
          exact ih h
      | write i v found => exact ih (h.move (.output c i v c.machine fun _ => rfl))

theorem midway (h : Path start t c) (pc : Short) (done : List Access) :
    ∃ t', Path start t' (c.midway Peripherals.device pc done) := by
  obtain ⟨s, hafter, -, -⟩ :=
    c.exists_afterOperands (Instruction.decode (c.machine.ram.read pc))
  rw [Config.midway, hafter]
  exact (h.quiet (.setStack c _ s)).perform done

end Path

end Computer

end StackComputer
