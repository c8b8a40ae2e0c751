import StackComputer.Proofs.Host.Paths

/-!
# The halt port and the exit request

A guest that writes to the halt port leaves the byte there and, unless it is 0,
asks for an exit.  Nothing else does either, so as long as the port holds an
exit code the peripherals hold the same one.  The request stays when the port
is cleared.
-/

namespace StackComputer

def Event.exitByte? : Event → Option Byte
  | .write port value _ => if port = Port.state ∧ value ≠ 0 then some value else none
  | .fault _ | .report _ => none

/-- The last byte other than 0 that was written to the halt port. -/
def lastExitByte (t : List Event) : Option Byte :=
  (t.filterMap Event.exitByte?).getLast?

def exitCode (b : Byte) : Byte := b % 128

theorem exitCode_lt (b : Byte) : exitCode b < 128 := by
  rw [exitCode, UInt8.lt_iff_toNat_lt, UInt8.toNat_mod]
  exact Nat.mod_lt _ (by decide)

theorem lastExitByte_append (t t' : List Event) :
    lastExitByte (t ++ t') = (lastExitByte t').or (lastExitByte t) := by
  simp [lastExitByte, List.getLast?_append]

namespace Computer

variable {start c d : Computer} {t e : List Event}

inductive Move.Exits (c : Computer) (e : List Event) (d : Computer) : Prop
  | quiet (hbyte : lastExitByte e = none) (hexit : d.device.exit = c.device.exit)
      (hport : d.machine.ports.read Port.state = c.machine.ports.read Port.state)
  | clear (hbyte : lastExitByte e = none) (hexit : d.device.exit = c.device.exit)
      (hport : d.machine.ports.read Port.state = 0)
  | request (v : Byte) (hv : v ≠ 0) (hbyte : lastExitByte e = some v)
      (hexit : d.device.exit = some (exitCode v)) (hport : d.machine.ports.read Port.state = v)

theorem Move.exits_output (hwired : c.machine.IsWired) (i v : Byte) (writer : Machine) :
    Move.Exits c [.write i v writer] (c.output Peripherals.device i v) := by
  by_cases hi : i = Port.state
  · subst hi
    rw [output_of_isWired hwired]
    have hread : (c.machine.writePort Port.state v).ports.read Port.state = v :=
      Ports.read_write_self ..
    rw [Peripherals.output_state, hread]
    by_cases hv : v = 0
    · refine .clear ?_ ?_ (hread.trans hv)
      · simp [lastExitByte, Event.exitByte?, hv]
      · simp [Peripherals.requestExit, hv]
    · refine .request v hv ?_ ?_ hread
      · simp [lastExitByte, Event.exitByte?, hv]
      · simp [Peripherals.requestExit, hv, exitCode]
  · have hconfined := c.confined_write i v
    refine .quiet ?_ (hconfined.exit hi)
      (hconfined.read_of_not_isPosition (Ne.symm hi) (by decide))
    simp [lastExitByte, Event.exitByte?, hi]

theorem Move.exits (h : Move c e d) (hwired : c.machine.IsWired) : Move.Exits c e d := by
  cases h with
  | setStack r s => exact .quiet rfl (by cases r <;> rfl) (by rw [Config.ports_setStack])
  | writeCell w a v => exact .quiet rfl rfl rfl
  | output i v writer hstack => exact Move.exits_output hwired i v writer
  | halt f => exact .quiet rfl rfl rfl
  | store e => exact .quiet rfl rfl (e.read_store _ (by decide) (by decide))
  | settle => exact .quiet rfl rfl (Ports.read_write_ne _ _ (by decide))
  | render =>
      rw [render_eq]
      exact .quiet rfl rfl rfl
  | report => exact .quiet rfl rfl rfl

/-! ## Along a path -/

/-- The halt port and the exit request agree with each other and with the history. -/
structure ExitAgrees (t : List Event) (c : Computer) : Prop where
  wired : c.machine.IsWired
  halted : c.machine.halted → c.device.exit = some (exitCode (c.machine.ports.read Port.state))
  exit : c.device.exit = (lastExitByte t).map exitCode

namespace ExitAgrees

theorem move (h : ExitAgrees t c) (hmove : Move c e d) : ExitAgrees (t ++ e) d := by
  have hwired := hmove.wired h.wired
  have hexit := h.exit
  cases hmove.exits h.wired with
  | quiet hbyte hsame hport =>
      refine ⟨hwired, fun hhalted => ?_, ?_⟩
      · have hbefore : c.machine.halted := by
          rw [Machine.halted] at hhalted ⊢
          exact hport ▸ hhalted
        rw [hsame, hport, h.halted hbefore]
      · rw [hsame, hexit, lastExitByte_append, hbyte, Option.none_or]
  | clear hbyte hsame hport =>
      -- the request stays, but the machine is no longer halted
      refine ⟨hwired, fun hhalted => ?_, ?_⟩
      · exact absurd hport (bne_iff_ne.mp hhalted)
      · rw [hsame, hexit, lastExitByte_append, hbyte, Option.none_or]
  | request v hv hbyte hcode hport =>
      refine ⟨hwired, fun _ => ?_, ?_⟩
      · rw [hcode, hport]
      · rw [hcode, lastExitByte_append, hbyte, Option.some_or, Option.map_some]

theorem path (h : ExitAgrees t c) {t' : List Event} (hpath : Path c t' d) :
    ExitAgrees (t ++ t') d := by
  induction hpath with
  | refl => rwa [List.append_nil]
  | move _ hmove ih =>
      rw [← List.append_assoc]
      exact ih.move hmove

theorem exit_isSome (h : ExitAgrees t c) {t' : List Event} (hpath : Path c t' d)
    (hexit : c.device.exit.isSome) : d.device.exit.isSome := by
  rw [h.exit, Option.isSome_map] at hexit
  rw [(h.path hpath).exit, Option.isSome_map, lastExitByte_append, Option.isSome_or, hexit,
    Bool.or_true]

end ExitAgrees

theorem exitAgrees_start (program : Array Byte) (args : List String) :
    ExitAgrees [] (Computer.start program args .fresh) := by
  let c := reset (Ram.excess program).size ⟨Machine.fresh.load program, .fresh⟩
  have hwired : c.machine.IsWired := Machine.isWired_wire _
  have hport : c.machine.ports.read Machine.haltPort = 0 := Ports.read_zero _
  have hexit : c.device.exit = none := by
    obtain ⟨notices, hdevice⟩ :=
      device_reset (Ram.excess program).size ⟨Machine.fresh.load program, .fresh⟩
    exact congrArg Peripherals.exit hdevice
  have hreset : ExitAgrees [] c := by
    refine ⟨hwired, fun hhalted => ?_, hexit⟩
    simp [Machine.halted, hport] at hhalted
  exact hreset.path (.of_reset program args .fresh)

/--
From a start on a fresh computer, what the guest does and what the host calls
lead along paths, and on these the halt port and the exit request agree.
-/
theorem exit_agrees (program : Array Byte) (args : List String) :
    let start := Computer.start program args .fresh
    (∀ fuel calls t c, start.history fuel calls = some (t, c) → Path start t c) ∧
    (∀ t c pc, Path start t c → Path start (t ++ c.writes pc) (c.step Peripherals.device pc).2) ∧
    ∀ t c, Path start t c →
      (c.machine.halted → c.device.exit = some (exitCode (c.machine.ports.read Port.state))) ∧
      (∀ code, c.device.exit = some code → code < 128) ∧
      c.device.exit = (lastExitByte t).map exitCode ∧
      (∀ t' d, Path c t' d → c.device.exit.isSome → d.device.exit.isSome) ∧
      ∀ e d, Move c e d → d.device.exit ≠ c.device.exit → d.machine.halted := by
  intro start
  refine ⟨fun _ _ _ _ => Path.refl.history, fun _ _ pc h => h.step pc, fun t c h => ?_⟩
  have hagrees : ExitAgrees t c := (exitAgrees_start program args).path h
  refine ⟨hagrees.halted, fun code hcode => ?_, hagrees.exit, fun t' d => hagrees.exit_isSome,
    fun e d hmove hchanged => ?_⟩
  · rw [hagrees.exit] at hcode
    obtain ⟨b, -, rfl⟩ := Option.map_eq_some_iff.mp hcode
    exact exitCode_lt b
  · cases hmove.exits hagrees.wired with
    | quiet hbyte hsame hport => exact absurd hsame hchanged
    | clear hbyte hsame hport => exact absurd hsame hchanged
    | request v hv hbyte hcode hport =>
        rw [Machine.halted]
        exact bne_iff_ne.mpr (hport ▸ hv)

theorem exit_agrees_cleared :
    ∃ t c, Path (Computer.start #[] [] .fresh) t c ∧ lastExitByte t = some 0x81 ∧
      c.device.exit = some 1 ∧ c.machine.halted = false := by
  let start := Computer.start #[] [] .fresh
  let c := start.output Peripherals.device Port.state 0x81
  let d := c.output Peripherals.device Port.state 0
  have hpath : Path start [.write Port.state 0x81 start.machine, .write Port.state 0 c.machine] d :=
    (Path.refl.move (.output start _ _ _ fun _ => rfl)).move (.output c _ _ _ fun _ => rfl)
  obtain ⟨-, -, hagrees⟩ := exit_agrees #[] []
  obtain ⟨-, -, hexit, -, -⟩ := hagrees _ _ hpath
  have hlast : lastExitByte [.write Port.state 0x81 start.machine, .write Port.state 0 c.machine] =
      some 0x81 := rfl
  refine ⟨_, d, hpath, hlast, ?_, ?_⟩
  · rw [hexit, hlast]
    rfl
  · have hmachine : d.machine = c.machine.writePort Port.state 0 := by
      have hwired : c.machine.IsWired :=
        (Move.output start _ _ _ fun _ => rfl).wired (exitAgrees_start #[] []).wired
      change (c.output Peripherals.device Port.state 0).machine = _
      rw [output_of_isWired hwired, Peripherals.output_state]
    have hread : d.machine.ports.read Port.state = 0 := by
      rw [hmachine]
      exact Ports.read_write_self ..
    exact bne_eq_false_iff_eq.mpr hread

end Computer

end StackComputer
