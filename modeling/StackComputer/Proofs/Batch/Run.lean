import StackComputer.Proofs.Batch.Steps

/-!
# Batch runs take the steps of their plan

A session has told all that its history put on the streams, and holds the exit
that the peripherals hold.  So it goes on exactly as long as no step of the plan
has requested an exit.  A machine that is halted has requested one, so the
display never stops ticking on its own.
-/

namespace StackComputer.Batch

variable {fuel : Nat} {c d : Computer} {t t' : List Event} {k : Step}

def Step.call : Step → HostCall
  | .program => .eval Ram.programStart
  | .arguments args => .sendArguments args
  | .byte b => .sendByte b
  | .frame => .tick

def Step.run (fuel : Nat) : Step → Computer → Option Computer
  | .program => fun c => (c.evalAt fuel Ram.programStart).map Prod.snd
  | .arguments args => Computer.sendArguments fuel args
  | .byte b => Computer.sendByte fuel b
  | .frame => Computer.tick fuel

theorem Step.history_calls (fuel : Nat) (k : Step) (c : Computer) :
    c.history fuel k.calls =
      (k.run fuel c).map fun d => (c.callEvents fuel k.call ++ [.report d.report.1], d.report.2) := by
  cases k with
  | program =>
      cases h : c.evalAt fuel Ram.programStart <;>
        simp [calls, call, run, h, Computer.history, Computer.call, Computer.answer,
          Computer.callEvents]
  | arguments args =>
      cases h : Computer.sendArguments fuel args c <;>
        simp [calls, call, run, h, Computer.history, Computer.call, Computer.answer]
  | byte b =>
      cases h : Computer.sendByte fuel b c <;>
        simp [calls, call, run, h, Computer.history, Computer.call, Computer.answer]
  | frame =>
      cases h : Computer.tick fuel c <;>
        simp [calls, call, run, h, Computer.history, Computer.call, Computer.answer,
          Computer.callEvents]

/-! ## Computers between steps -/

/-- Between two steps all that was written has been reported. -/
structure Drained (t : List Event) (c : Computer) : Prop where
  accounted : Accounted t c
  agrees : Computer.ExitAgrees t c
  stream : ∀ s, c.device.stream s = []

namespace Drained

theorem step (h : Drained t c) (hk : c.history fuel k.calls = some (t', d)) :
    Drained (t ++ t') d where
  accounted := h.accounted.history hk
  agrees := h.agrees.path (Computer.Path.refl.history hk)
  stream s := by
    rw [Step.history_calls] at hk
    obtain ⟨e, -, heq⟩ := Option.map_eq_some_iff.mp hk
    cases heq
    cases s <;> rfl

theorem history (h : Drained t c) {ks : List Step}
    (hks : Batch.history fuel c ks = some (t', d)) : Drained (t ++ t') d := by
  induction ks generalizing t t' c with
  | nil =>
      have hempty : some ([], c) = some (t', d) := hks
      cases hempty
      rwa [List.append_nil]
  | cons k ks ih =>
      obtain ⟨t₁, c₁, hfirst, t₂, hrest, rfl⟩ := history_cons_eq_some.mp hks
      rw [← List.append_assoc]
      exact ih (h.step hfirst) hrest

theorem written_step (h : Drained t c) (hk : k.run fuel c = some d) (s : OutputStream) :
    (t ++ (c.callEvents fuel k.call ++ [Event.report d.report.1])).flatMap (Event.written s) =
      t.flatMap (Event.written s) ++ d.device.stream s := by
  have hhistory : c.history fuel k.calls =
      some (c.callEvents fuel k.call ++ [.report d.report.1], d.report.2) := by
    rw [Step.history_calls, hk]
    rfl
  have hbefore := h.accounted.stream s
  have hafter := (h.step hhistory).accounted.stream s
  rw [h.stream, List.append_nil] at hbefore
  rw [(h.step hhistory).stream, List.append_nil] at hafter
  rw [← hafter]
  simp [hbefore, Computer.flatMap_collected_callEvents, Event.collected, Computer.stream_report]

theorem exit_eq_none (h : Drained t c) (hnone : lastExitByte t = none) : c.device.exit = none := by
  rw [h.agrees.exit, hnone, Option.map_none]

theorem halted_eq_false (h : Drained t c) (hnone : lastExitByte t = none) :
    c.machine.halted = false := by
  cases hhalted : c.machine.halted with
  | false => rfl
  | true =>
      have hsome := h.agrees.halted hhalted
      rw [h.exit_eq_none hnone] at hsome
      contradiction

end Drained

theorem drained_start (program : Array Byte) (args : List String) :
    Drained [] (Computer.start program args .fresh) := by
  have haccounted : Accounted [] (Computer.start program args .fresh) :=
    Computer.accounted_start _ _ args
  exact ⟨haccounted, Computer.exitAgrees_start program args, haccounted.stream⟩

/-! ## Sessions -/

namespace Session

def after (t : List Event) (c : Computer) : Session :=
  ⟨c, (t.flatMap (Event.written .stdout)).toArray, (t.flatMap (Event.written .stderr)).toArray,
    c.device.exit⟩

def proceed (fuel : Nat) : List Step → Session → Option Session
  | [], s => some s
  | k :: ks, s =>
      match s.advance (k.run fuel) with
      | none => none
      | some s' => proceed fuel ks s'

theorem collect_after (h : Drained t c) (hk : k.run fuel c = some d) :
    collect (after t c).stdout (after t c).stderr d =
      after (t ++ (c.callEvents fuel k.call ++ [.report d.report.1])) d.report.2 := by
  have hstdout := h.written_step hk .stdout
  have hstderr := h.written_step hk .stderr
  rw [after, after, hstdout, hstderr]
  simp [collect, Peripherals.stream, Computer.report]

theorem advance_after (h : Drained t c) (hnone : lastExitByte t = none) :
    (after t c).advance (k.run fuel) =
      (c.history fuel k.calls).map fun next => after (t ++ next.1) next.2 := by
  rw [Step.history_calls]
  have hexit := h.exit_eq_none hnone
  cases hk : k.run fuel c with
  | none => simp [after, advance, hexit, hk]
  | some d =>
      have hcollect := collect_after h hk
      simpa [after, advance, hexit, hk] using hcollect

theorem proceed_append (fuel : Nat) (ks ks' : List Step) (s : Session) :
    s.proceed fuel (ks ++ ks') = (s.proceed fuel ks).bind (·.proceed fuel ks') := by
  induction ks generalizing s with
  | nil => rfl
  | cons k ks ih =>
      rw [List.cons_append, proceed, proceed]
      cases s.advance (k.run fuel) with
      | none => rfl
      | some s' => exact ih s'

theorem proceed_of_exit {s : Session} {e : Byte} (h : s.exit = some e) (ks : List Step) :
    s.proceed fuel ks = some s := by
  obtain ⟨c, stdout, stderr, exit⟩ := s
  obtain rfl : exit = some e := h
  induction ks with
  | nil => rfl
  | cons k ks ih => exact ih

theorem exit_after (h : Drained t c) : (after t c).exit = (lastExitByte t).map exitCode :=
  h.agrees.exit

theorem exit_after_of_some (h : Drained t c) {b : Byte} (hb : lastExitByte t = some b) :
    (after t c).exit = some (exitCode b) := by
  rw [exit_after h, hb, Option.map_some]

/-- A session takes the steps of its plan that are to be taken, and no others. -/
theorem proceed_after_eq_some (h : Drained t c) (hnone : lastExitByte t = none)
    (ks : List Step) (s : Session) :
    (after t c).proceed fuel ks = some s ↔
      ∃ taken t' d, Takes fuel c ks taken t' d ∧ s = after (t ++ t') d := by
  -- on what is left of the plan, from any history in which no exit has been requested yet
  induction ks generalizing t c with
  | nil =>
      simp only [proceed, Takes.nil_iff, Option.some.injEq]
      constructor
      · rintro rfl
        exact ⟨[], [], c, ⟨rfl, rfl, rfl⟩, by rw [List.append_nil]⟩
      · rintro ⟨-, -, -, ⟨-, rfl, rfl⟩, rfl⟩
        rw [List.append_nil]
  | cons k ks ih =>
      rw [proceed, advance_after h hnone]
      cases hfirst : c.history fuel k.calls with
      | none =>
          constructor
          · nofun
          · rintro ⟨taken, t', d, htakes, -⟩
            obtain ⟨rest, rfl⟩ := htakes.exists_rest
            obtain ⟨t₁, c₁, hsome, -⟩ := history_cons_eq_some.mp htakes.history
            rw [hfirst] at hsome
            contradiction
      | some next =>
          obtain ⟨t₁, c₁⟩ := next
          have hnext : Drained (t ++ t₁) c₁ := h.step hfirst
          have hlast : lastExitByte (t ++ t₁) = lastExitByte t₁ := by
            rw [lastExitByte_append, hnone, Option.or_none]
          dsimp only [Option.map_some]
          cases hexit : lastExitByte t₁ with
          | some b =>
              rw [proceed_of_exit (exit_after_of_some hnext (hlast.trans hexit))]
              simp only [Takes.cons_iff_of_exit hfirst (Option.isSome_of_eq_some hexit),
                Option.some.injEq]
              constructor
              · rintro rfl
                exact ⟨[k], t₁, c₁, ⟨rfl, rfl, rfl⟩, rfl⟩
              · rintro ⟨-, -, -, ⟨-, rfl, rfl⟩, rfl⟩
                rfl
          | none =>
              rw [ih hnext (hlast.trans hexit)]
              simp only [Takes.cons_iff_of_none hfirst hexit]
              constructor
              · rintro ⟨rest, t₂, d, htakes, rfl⟩
                rw [List.append_assoc]
                exact ⟨k :: rest, t₁ ++ t₂, d, ⟨rest, t₂, rfl, rfl, htakes⟩, rfl⟩
              · rintro ⟨-, -, d, ⟨rest, t₂, rfl, rfl, htakes⟩, rfl⟩
                rw [← List.append_assoc]
                exact ⟨rest, t₂, d, htakes, rfl⟩

/-! ## The phases of a run -/

theorem feed_eq_proceed (fuel : Nat) (input : List Byte) (s : Session) :
    s.feed fuel input = s.proceed fuel (input.map .byte) := by
  induction input generalizing s with
  | nil => rfl
  | cons b bs ih =>
      rw [feed, List.map_cons, proceed, Step.run]
      cases s.advance (Computer.sendByte fuel b) with
      | none => rfl
      | some s' => exact ih s'

/-- While no exit has been requested the machine is not halted, so no frame is left out. -/
theorem tick_after (h : Drained t c) (frames : Nat) :
    (after t c).tick fuel frames = (after t c).proceed fuel (List.replicate frames .frame) := by
  induction frames generalizing t c with
  | zero => rfl
  | succ frames ih =>
      cases hexit : lastExitByte t with
      | some b =>
          have hstops := exit_after_of_some h hexit
          rw [proceed_of_exit hstops, tick, if_pos (by simp [hstops])]
      | none =>
          have hgoes : ¬((after t c).exit.isSome || (after t c).computer.machine.halted) := by
            simp [after, h.exit_eq_none hexit, h.halted_eq_false hexit]
          rw [tick, if_neg hgoes, List.replicate_succ, proceed]
          change (match (after t c).advance (Step.frame.run fuel) with
            | none => none
            | some s => s.tick fuel frames) = _
          rw [advance_after h hexit]
          cases hfirst : c.history fuel Step.frame.calls with
          | none => rfl
          | some next => exact ih (h.step hfirst)

theorem start_eq_advance (fuel : Nat) (program : Array Byte) (args : List String) :
    start fuel program args =
      (after [] (Computer.start program args .fresh)).advance (Step.program.run fuel) := by
  have hexit : (Computer.start program args .fresh).device.exit = none :=
    (drained_start program args).exit_eq_none rfl
  rw [start, Computer.boot, after, hexit, advance, Step.run, Option.map_map]
  rfl

theorem run_eq_bind (fuel : Nat) (program : Array Byte) (args : List String)
    (input : List Byte) (frames : Nat) :
    run fuel program args input frames =
      ((after [] (Computer.start program args .fresh)).proceed fuel
        ([.program, .arguments args] ++ input.map .byte)).bind (·.tick fuel frames) := by
  rw [run, start_eq_advance, proceed_append, proceed]
  cases (after [] (Computer.start program args .fresh)).advance (Step.program.run fuel) with
  | none => rfl
  | some s =>
      dsimp only
      rw [proceed, Step.run]
      cases s.advance (Computer.sendArguments fuel args) with
      | none => rfl
      | some s' =>
          dsimp only
          rw [proceed, Option.bind_some, feed_eq_proceed]
          cases s'.proceed fuel (input.map .byte) <;> rfl

theorem run_eq_proceed (fuel : Nat) (program : Array Byte) (args : List String)
    (input : List Byte) (frames : Nat) :
    run fuel program args input frames =
      (after [] (Computer.start program args .fresh)).proceed fuel (plan args input frames) := by
  have hstart := drained_start program args
  rw [run_eq_bind, plan, proceed_append _ (_ ++ _)]
  cases hphases : (after [] (Computer.start program args .fresh)).proceed fuel
      ([.program, .arguments args] ++ input.map .byte) with
  | none => rfl
  | some s =>
      obtain ⟨taken, t, c, htakes, rfl⟩ := (proceed_after_eq_some hstart rfl _ _).mp hphases
      exact tick_after (hstart.history htakes.history) frames

end Session

/-! ## What a run leaves behind -/

theorem finish_after {save : String → Picture → Except String Unit} {screenshot : Option String}
    (hsave : ∀ path ∈ screenshot, ∀ picture, save path picture = .ok ()) (h : Drained t c) :
    (Session.after t c).finish save screenshot =
      ⟨((lastExitByte t).map exitCode).getD 0, (t.flatMap (Event.written .stdout)).toArray,
        (t.flatMap (Event.written .stderr)).toArray, screenshot.map fun _ =>
          ⟨c.device.screen.width, c.device.screen.height, c.device.screen.frame⟩⟩ := by
  cases screenshot with
  | none => rw [Session.finish, Session.exit_after h]; rfl
  | some path =>
      simp only [Session.finish, hsave path rfl, Session.exit_after h]
      rfl

/--
A batch run of a program that could be read, on a host that saves the picture,
has a result just if the steps that it takes end, and that tells their history.
It does have one if every step of the plan ends.
-/
theorem run_takes_plan (fuel : Nat) (save : String → Picture → Except String Unit) (job : Job)
    (program : Array Byte) (hprogram : job.program = .ok program)
    (hsave : ∀ path ∈ job.screenshot, ∀ picture, save path picture = .ok ()) :
    let start := Computer.start program job.args .fresh
    let plan := plan job.args (job.input.getD []) job.frames
    (∀ r, job.run fuel save = some r ↔
      ∃ taken t c, Takes fuel start plan taken t c ∧
        r.exitCode = ((lastExitByte t).map exitCode).getD 0 ∧
        r.stdout.toList = t.flatMap (Event.written .stdout) ∧
        r.stderr.toList = t.flatMap (Event.written .stderr) ∧
        r.picture = job.screenshot.map fun _ =>
          ⟨c.device.screen.width, c.device.screen.height, c.device.screen.frame⟩) ∧
    ((history fuel start plan).isSome → (job.run fuel save).isSome) := by
  intro start plan
  have hstart : Drained [] start := drained_start program job.args
  have hrun : job.run fuel save = ((Session.after [] start).proceed fuel plan).map
      (Session.finish save job.screenshot) := by
    rw [Job.run, hprogram]
    dsimp only
    rw [Session.run_eq_proceed]
  constructor
  · intro r
    rw [hrun, Option.map_eq_some_iff]
    simp only [Session.proceed_after_eq_some hstart rfl]
    constructor
    · rintro ⟨-, ⟨taken, t, c, htakes, rfl⟩, rfl⟩
      refine ⟨taken, t, c, htakes, ?_⟩
      rw [finish_after hsave (hstart.history htakes.history)]
      exact ⟨rfl, rfl, rfl, rfl⟩
    · rintro ⟨taken, t, c, htakes, hcode, hstdout, hstderr, hpicture⟩
      refine ⟨_, ⟨taken, t, c, htakes, rfl⟩, ?_⟩
      rw [finish_after hsave (hstart.history htakes.history)]
      obtain ⟨code, stdout, stderr, picture⟩ := r
      dsimp only at hcode hstdout hstderr hpicture
      rw [hcode, hpicture, List.nil_append, ← hstdout, ← hstderr]
  · intro hends
    obtain ⟨⟨t, d⟩, hhistory⟩ := Option.isSome_iff_exists.mp hends
    obtain ⟨taken, t', d', htakes⟩ := Takes.exists_of_history hhistory
    have hsession := (Session.proceed_after_eq_some hstart rfl plan _).mpr ⟨_, _, _, htakes, rfl⟩
    rw [hrun, hsession]
    rfl

/-! ## A run that ends early -/

structure HoldsExit (c : Computer) : Prop where
  literal : c.machine.ram.read 0x0100 = 0xa0
  operand : c.machine.ram.readShort 0x0101 = 0x810f
  output : c.machine.ram.read 0x0103 = 0x17
  stop : c.machine.ram.read 0x0104 = 0

theorem step_literal (h : HoldsExit c) (hempty : c.machine.wst = .empty) :
    c.step Peripherals.device 0x0100 =
      (.next 0x0103, c.setStack false (Stack.empty.pushCells [⟨.short, 0x810f⟩]).2) := by
  have hoperand := h.operand
  rw [Config.step, h.literal]
  obtain ⟨⟨ram, ports, inputs, outputs, wst, rst⟩, p⟩ := c
  obtain rfl : wst = .empty := hempty
  let c : Computer := ⟨⟨ram, ports, inputs, outputs, .empty, rst⟩, p⟩
  change (Outcome.ofPush 0x0103 (c.pushCells false [⟨.short, ram.readShort 0x0101⟩]).1,
    (c.pushCells false [⟨.short, ram.readShort 0x0101⟩]).2) = _
  rw [hoperand]
  rfl

theorem history_exit (h : HoldsExit c) (hwired : c.machine.IsWired)
    (hhalted : c.machine.halted = false) (hempty : c.machine.wst = .empty) :
    ∃ writer r d, c.history 3 Step.program.calls =
      some ([.write Port.state 0x81 writer, .report r], d) := by
  let full := c.setStack false (Stack.empty.pushCells [⟨.short, 0x810f⟩]).2
  let writer := full.setHeight false 0
  let d := writer.output Peripherals.device Port.state 0x81
  have hstarts : ¬((0x0100 : Short) = 0 ∨ c.machine.halted = true) := by
    simp [hhalted]
  have hfull : full.machine.ram.read 0x0103 = 0x17 := h.output
  have hstop : d.machine.ram.read 0x0104 = 0 := by
    have hwriter : writer.machine.IsWired := hwired.of_masks rfl rfl
    change (writer.output Peripherals.device Port.state 0x81).machine.ram.read 0x0104 = 0
    rw [Computer.output_of_isWired hwriter, Peripherals.output_state]
    exact h.stop
  have hfirst : c.step Peripherals.device 0x0100 = (.next 0x0103, full) := step_literal h hempty
  have hsecond : full.step Peripherals.device 0x0103 = (.next 0x0104, d) := by
    rw [Config.step, hfull]
    rfl
  have hthird : d.step Peripherals.device 0x0104 = (.stop, d) := Config.step_of_read_zero _ hstop
  have hquiet : c.writes 0x0100 = [] := by
    rw [Config.writes, h.literal]
    exact if_pos (Nat.zero_le _)
  have hwrites : full.writes 0x0103 = [.write Port.state 0x81 writer.machine] := by
    rw [Config.writes, hfull]
    rfl
  have hlast : d.writes 0x0104 = [] := by
    rw [Config.writes, hstop]
    exact if_pos (Nat.zero_le _)
  have hevents : c.callEvents 3 (.eval 0x0100) = [.write Port.state 0x81 writer.machine] := by
    rw [Computer.callEvents, Config.evalEvents, if_neg hstarts]
    simp [Config.runEvents, hfirst, hsecond, hthird, hquiet, hwrites, hlast]
  have heval : c.evalAt 3 0x0100 = some (true, d) := by
    rw [Computer.evalAt, Config.eval, if_neg hstarts]
    simp only [Config.run, hfirst, hsecond, hthird]
  refine ⟨writer.machine, (Computer.report d).1, (Computer.report d).2, ?_⟩
  rw [Step.history_calls]
  simp only [Step.call, Step.run, Ram.programStart, heval, hevents, Option.map_some,
    List.singleton_append]

theorem holdsExit_start : HoldsExit (Computer.start #[0xa0, 0x81, 0x0f, 0x17] [] .fresh) := by
  have hram : (Computer.start #[0xa0, 0x81, 0x0f, 0x17] [] .fresh).machine.ram =
      .ofProgram #[0xa0, 0x81, 0x0f, 0x17] := rfl
  constructor
  · simp [hram, Ram.read, Ram.ofProgram]
  · simp [hram, Ram.readShort, Ram.read, Ram.ofProgram]
    decide
  · simp [hram, Ram.read, Ram.ofProgram]
  · simp [hram, Ram.read, Ram.ofProgram]

theorem run_takes_plan_exit :
    ∃ (job : Job) (r : Result),
      job.program = .ok #[0xa0, 0x81, 0x0f, 0x17] ∧ job.input = some [0x62] ∧
      job.run 3 (fun _ _ => .ok ()) = some r ∧
      r.exitCode = 1 ∧ r.stdout = #[] ∧ r.picture.isSome := by
  let job : Job := ⟨"", .ok #[0xa0, 0x81, 0x0f, 0x17], [], some [0x62], 1, some "a.png"⟩
  have hdrained := drained_start #[0xa0, 0x81, 0x0f, 0x17] []
  obtain ⟨writer, report, c, hhistory⟩ :=
    history_exit holdsExit_start hdrained.agrees.wired (hdrained.halted_eq_false rfl) rfl
  have htakes : Takes 3 (Computer.start #[0xa0, 0x81, 0x0f, 0x17] [] .fresh) (plan [] [0x62] 1)
      [.program] [.write Port.state 0x81 writer, .report report] c :=
    (Takes.cons_iff_of_exit hhistory rfl).mpr ⟨rfl, rfl, rfl⟩
  let r : Result := ⟨1, #[], #[], some
    ⟨c.device.screen.width, c.device.screen.height, c.device.screen.frame⟩⟩
  have hlast : lastExitByte [.write Port.state 0x81 writer, .report report] = some 0x81 := rfl
  obtain ⟨hiff, -⟩ := run_takes_plan 3 (fun _ _ => .ok ()) job _ rfl fun _ _ _ => rfl
  refine ⟨job, r, rfl, rfl, (hiff r).mpr ⟨_, _, c, htakes, ?_, rfl, rfl, rfl⟩, rfl, rfl, rfl⟩
  rw [hlast]
  rfl

end StackComputer.Batch
