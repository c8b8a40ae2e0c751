import StackComputer.Proofs.Memory.Copies

/-!
# Fills and refused commands

A fill goes from its start upwards and may pass the end of memory.  It then sets
the bytes whose distance from the start, counted around, is below its length.  A
command that is not carried out leaves a notice and nothing else.
-/

namespace StackComputer

namespace Ram

theorem read_fill (v : Byte) (n : Nat) (a : Short) (r : Ram) (x : Short) :
    (r.fill v n a).read x = if (x - a).toNat < n then v else r.read x := by
  induction n generalizing a r with
  | zero => rfl
  | succ n ih =>
      rw [fill, ih, read_write]
      by_cases hx : a = x
      · have hfirst : (x - a).toNat < n + 1 := by
          rw [hx, UInt16.sub_self]
          exact Nat.succ_pos n
        rw [if_pos hx, if_pos hfirst, ite_self]
      · rw [if_neg hx, toNat_sub_eq_succ hx]
        simp only [Nat.add_lt_add_iff_right]

end Ram

/-! ## Commands and their refusals -/

namespace Command

variable {ram : Ram} {a : Short}

theorem fetch_fill (hcode : ram.read a = 0) : fetch ram a =
    .fill (ram.readShort (a + 1)) (ram.readShort (a + 3)) (ram.readShort (a + 5))
      (ram.read (a + 7)) :=
  if_pos hcode

theorem fetch_unknown (hcode : 2 < ram.read a) : fetch ram a = .unknown (ram.read a) := by
  have hne {k : Byte} (hk : k ≤ 2) : ram.read a ≠ k := by
    rintro rfl
    exact absurd hcode (UInt8.not_lt.mpr hk)
  rw [fetch, if_neg (hne (by decide)), if_neg (hne (by decide)), if_neg (hne (by decide))]

theorem run_of_refused {c : Command} {n : Notice} (h : c.refusal? = some n) (r : Ram) :
    c.run r = r := by
  rw [run, h]

theorem refusal?_fill (hcode : ram.read a = 0) (hbank : ram.readShort (a + 3) ≠ 0) :
    (fetch ram a).refusal? = some (.fillBank (ram.readShort (a + 3))) := by
  rw [fetch_fill hcode]
  exact if_neg hbank

theorem refusal?_copy (hcode : ram.read a = 1 ∨ ram.read a = 2)
    (hbanks : ram.readShort (a + 3) ≠ 0 ∨ ram.readShort (a + 7) ≠ 0) :
    (fetch ram a).refusal? =
      some (.copyBanks (ram.readShort (a + 3)) (ram.readShort (a + 7))) := by
  have hnot : ¬(ram.readShort (a + 3) = 0 ∧ ram.readShort (a + 7) = 0) := by
    rintro ⟨hsource, htarget⟩
    exact hbanks.elim (absurd hsource) (absurd htarget)
  rcases hcode with hup | hdown
  · rw [fetch, hup]
    exact if_neg hnot
  · rw [fetch, hdown]
    exact if_neg hnot

theorem refusal?_unknown (hcode : 2 < ram.read a) :
    (fetch ram a).refusal? = some (.unknownCommand (ram.read a)) := by
  rw [fetch_unknown hcode]
  rfl

end Command

namespace Computer

variable {c : Computer} {v : Byte}

def commanded (c : Computer) (v : Byte) : Command :=
  .fetch c.machine.ram ((c.machine.writePort Port.commandRun v).ports.readShort Port.command)

theorem output_commandRun (hmask : c.machine.outputs.test Port.commandRun = true) :
    c.output Peripherals.device Port.commandRun v =
      ⟨{ c.machine.writePort Port.commandRun v with
          ram := (c.commanded v).run c.machine.ram },
        c.device.notify (c.commanded v).refusal?⟩ := by
  rw [output_of_test hmask, Peripherals.output_commandRun]
  rfl

theorem output_commandRun_of_refused (hmask : c.machine.outputs.test Port.commandRun = true)
    {n : Notice} (h : (c.commanded v).refusal? = some n) :
    c.output Peripherals.device Port.commandRun v =
      ⟨c.machine.writePort Port.commandRun v,
        { c.device with notices := c.device.notices.push n }⟩ := by
  rw [output_commandRun hmask, h, Command.run_of_refused h]
  rfl

end Computer

/--
A fill takes its arguments from memory as it is before the fill, even if it runs
over them.  It changes no byte outside of its region and nothing but memory.  A
fill or a copy that names another bank than 0, and a code above 2, change
nothing at all besides the port written to; they are noted.
-/
theorem commands_exact (c : Computer) (v : Byte)
    (hmask : c.machine.outputs.test Port.commandRun = true) :
    let stored := c.machine.writePort Port.commandRun v
    let ram := c.machine.ram
    let a := stored.ports.readShort Port.command
    let d := c.output Peripherals.device Port.commandRun v
    let refused (n : Notice) : Computer :=
      ⟨stored, { c.device with notices := c.device.notices.push n }⟩
    (ram.read a = 0 → ram.readShort (a + 3) = 0 →
      (∀ x, d.machine.ram.read x =
        if (x - ram.readShort (a + 5)).toNat < (ram.readShort (a + 1)).toNat then ram.read (a + 7)
        else ram.read x) ∧
      d = ⟨{ stored with ram := d.machine.ram }, c.device⟩) ∧
    (ram.read a = 0 → ram.readShort (a + 3) ≠ 0 →
      d = refused (.fillBank (ram.readShort (a + 3)))) ∧
    (ram.read a = 1 ∨ ram.read a = 2 →
      ram.readShort (a + 3) ≠ 0 ∨ ram.readShort (a + 7) ≠ 0 →
      d = refused (.copyBanks (ram.readShort (a + 3)) (ram.readShort (a + 7)))) ∧
    (2 < ram.read a → d = refused (.unknownCommand (ram.read a))) := by
  intro stored ram a d refused
  refine ⟨fun hcode hbank => ?_, fun hcode hbank => ?_, fun hcode hbanks => ?_, fun hcode => ?_⟩
  · have hfetch : c.commanded v =
        .fill (ram.readShort (a + 1)) 0 (ram.readShort (a + 5)) (ram.read (a + 7)) := by
      rw [Computer.commanded, Command.fetch_fill hcode, hbank]
    let filled := ram.fill (ram.read (a + 7)) (ram.readShort (a + 1)).toNat (ram.readShort (a + 5))
    have hd : d = ⟨{ stored with ram := filled }, c.device⟩ := by
      change c.output _ _ _ = _
      rw [Computer.output_commandRun hmask, hfetch]
      rfl
    rw [hd]
    exact ⟨Ram.read_fill _ _ _ ram, rfl⟩
  · exact Computer.output_commandRun_of_refused hmask (Command.refusal?_fill hcode hbank)
  · exact Computer.output_commandRun_of_refused hmask (Command.refusal?_copy hcode hbanks)
  · exact Computer.output_commandRun_of_refused hmask (Command.refusal?_unknown hcode)

def Computer.holding (command : List Byte) : Computer :=
  ⟨{ Machine.fresh with
      ram := Ram.zero.writeBytes 0xfffa command
      ports := Ports.zero.write Port.command 0xff
      outputs := .all }, .fresh⟩

/-- A fill that runs over its own arguments, and three commands that are refused. -/
theorem commands_exact_wrapped :
    let run (command : List Byte) :=
      (Computer.holding command).output Peripherals.device Port.commandRun 0xfa
    let refused (command : List Byte) (n : Notice) : Computer :=
      ⟨(Computer.holding command).machine.writePort Port.commandRun 0xfa,
        { Peripherals.fresh with notices := Peripherals.fresh.notices.push n }⟩
    (run [0, 0, 6, 0, 0, 0xff, 0xfd, 7]).machine.ram.readBytes 0xfffa 10 =
        [0, 0, 6, 7, 7, 7, 7, 7, 7, 0] ∧
      run [0, 0, 6, 0, 1, 0xff, 0xfd, 7] = refused [0, 0, 6, 0, 1, 0xff, 0xfd, 7] (.fillBank 1) ∧
      run [2, 0, 6, 0, 0, 0xff, 0xfd, 1] =
        refused [2, 0, 6, 0, 0, 0xff, 0xfd, 1] (.copyBanks 0 0x100) ∧
      run [3] = refused [3] (.unknownCommand 3) := by
  intro run refused
  have haddress (command : List Byte) : ((Computer.holding command).machine.writePort
      Port.commandRun 0xfa).ports.readShort Port.command = 0xfffa := by
    change ((Ports.zero.write Port.command 0xff).write Port.commandRun 0xfa).readShort _ = _
    decide +kernel
  have hread {command : List Byte} (h : command.length ≤ 65536) (x : Short) :
      (Computer.holding command).machine.ram.read x = command.getD (x - 0xfffa).toNat 0 := by
    change (Ram.zero.writeBytes 0xfffa command).read x = _
    rw [Ram.read_writeBytes h, Ram.read_zero]
  have hexact {command : List Byte} (h : command.length ≤ 65536) :=
    commands_exact (Computer.holding command) 0xfa (Mask.test_all Port.commandRun)
  simp +contextual only [haddress, Ram.readShort, hread] at hexact
  refine ⟨?_, ?_, ?_, ?_⟩
  · have hshort : [0, 0, 6, 0, 0, 0xff, 0xfd, (7 : Byte)].length ≤ 65536 := by decide
    obtain ⟨hfilled, -⟩ := (hexact hshort).1 rfl rfl
    simp only [run, Ram.readBytes, hfilled]
    decide
  · exact (hexact (by decide)).2.1 rfl (by decide)
  · exact (hexact (by decide)).2.2.1 (.inr rfl) (.inr (by decide))
  · exact (hexact (by decide)).2.2.2 (by decide)

end StackComputer
