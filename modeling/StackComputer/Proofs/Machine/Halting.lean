import StackComputer.Proofs.Machine.Blind
import StackComputer.Proofs.Machine.Lockstep

/-!
# How an evaluation ends

An evaluation that starts carries out instructions until one stops or faults.
The device is told of a fault once and decides the result.  What it then finds
is what the faulting instruction found, but for the stacks: operands are taken
before anything is stored or put out, and only a push can fail after them.
-/

namespace StackComputer

def Device.ReadsQuietly {σ : Type} (dev : Device σ) : Prop :=
  ∀ i c, (dev.input i c).2 = c

theorem Device.inert_readsQuietly : Device.inert.ReadsQuietly :=
  fun _ _ => rfl

theorem Peripherals.device_readsQuietly : Peripherals.device.ReadsQuietly :=
  fun _ _ => rfl

namespace Config

variable {σ : Type} {dev : Device σ}

/-! ## A fault does no harm -/

/-- What a faulting instruction has done by the time the device is told. -/
structure Harmless (c d : Config σ) (i : Instruction) (cause : Cause) : Prop where
  store : d.SameStore c
  other : cause ≠ .overflow →
    d.machine.stack (!i.mode.onReturn) = c.machine.stack (!i.mode.onReturn)
  selected : cause ≠ .overflow → (d.selected i).data <+: (c.selected i).data
  kept : cause ≠ .overflow → i.mode.keep = true → d.selected i = c.selected i

theorem input_of_readsQuietly (hquiet : dev.ReadsQuietly) (c : Config σ) (i : Byte) :
    (c.input dev i).2 = c := by
  unfold input
  split
  · exact hquiet i c
  · rfl

theorem inputCell_of_readsQuietly (hquiet : dev.ReadsQuietly) (c : Config σ) (w : Width)
    (i : Byte) : (c.inputCell dev w i).2 = c := by
  cases w with
  | byte => exact input_of_readsQuietly hquiet c i
  | short =>
      exact (input_of_readsQuietly hquiet _ (i + 1)).trans (input_of_readsQuietly hquiet c i)

theorem pushCells_harmless {c : Config σ} {r : Bool} {cells : List Cell} {next : Short}
    {cause : Cause} (hfault : Outcome.ofPush next (c.pushCells r cells).1 = .fault cause) :
    (c.pushCells r cells).2.SameStore c ∧ (cause ≠ .overflow → (c.pushCells r cells).2 = c) := by
  rw [ofPush_pushCells] at hfault
  rw [pushCells_eq]
  have hover := (Outcome.ofLength_eq_fault.mp hfault).2
  exact ⟨sameStore_setStack c r _, fun h => absurd hover h⟩

theorem act_harmless (hquiet : dev.ReadsQuietly) {c : Config σ} {mode : Mode} {next : Short}
    {a : Action} {cause : Cause} (hfault : (c.act dev mode next a).1 = .fault cause) :
    (c.act dev mode next a).2.SameStore c ∧
      (cause ≠ .overflow → (c.act dev mode next a).2 = c) := by
  cases a with
  | stop => contradiction
  | fail e => exact ⟨.refl c, fun _ => rfl⟩
  | push cells => exact pushCells_harmless hfault
  | stash cell =>
      rw [act] at hfault ⊢
      exact pushCells_harmless hfault
  | load a =>
      rw [act] at hfault ⊢
      exact pushCells_harmless hfault
  | store a v => contradiction
  | input i =>
      have hsame := inputCell_of_readsQuietly hquiet c mode.width i
      rw [act] at hfault ⊢
      dsimp only at hfault ⊢
      rw [hsame] at hfault ⊢
      exact pushCells_harmless hfault
  | output i v => contradiction

theorem execute_harmless (hquiet : dev.ReadsQuietly) {c : Config σ} {i : Instruction}
    {next : Short} {cause : Cause} (hfault : (c.execute dev i next).1 = .fault cause) :
    Harmless c (c.execute dev i next).2 i cause := by
  by_cases htaken : i.taken ≤ (c.selected i).data.length
  · obtain ⟨t, hafter, ht, hkept⟩ := c.exists_afterOperands i
    rw [execute_of_taken_le dev next htaken, hafter] at hfault ⊢
    obtain ⟨hstore, hunchanged⟩ := act_harmless hquiet hfault
    refine ⟨hstore.trans (sameStore_setStack c _ t), ?_, ?_, ?_⟩
    · intro hcause
      rw [hunchanged hcause, stack_setStack_not]
    · intro hcause
      rw [hunchanged hcause, selected, stack_setStack_self, ht]
      exact List.take_prefix _ _
    · intro hcause hkeep
      rw [hunchanged hcause, selected, stack_setStack_self, hkept hkeep]
  · obtain ⟨n, hn, hmissing⟩ := execute_of_lt_taken dev next (Nat.lt_of_not_le htaken)
    rw [hmissing]
    cases hkeep : i.mode.keep with
    | true => exact ⟨.refl c, fun _ => rfl, fun _ => List.prefix_refl _, fun _ _ => rfl⟩
    | false =>
        rw [if_neg Bool.false_ne_true, setHeight_eq]
        refine ⟨sameStore_setStack c _ _, fun _ => stack_setStack_not .., ?_, ?_⟩
        · intro _
          rw [selected, stack_setStack_self]
          exact Stack.data_setHeight _ hn ▸ List.take_prefix _ _
        · intro _ hkept
          rw [hkeep] at hkept
          contradiction

end Config

/-! ## Recording the faults that a device is told of -/

def Config.noting {σ τ : Type} (c : Config σ) (note : τ) : Config (σ × τ) :=
  ⟨c.machine, (c.device, note)⟩

def Device.recording {σ : Type} (dev : Device σ) : Device (σ × List Fault) where
  input i c :=
    let (v, d) := dev.input i ⟨c.machine, c.device.1⟩
    (v, d.noting c.device.2)
  output i c := (dev.output i ⟨c.machine, c.device.1⟩).noting c.device.2
  halt f c :=
    let (verdict, d) := dev.halt f ⟨c.machine, c.device.1⟩
    (verdict, d.noting (c.device.2 ++ [f]))

namespace Config

variable {σ : Type} {dev : Device σ}

theorem input_recording (c : Config σ) (log : List Fault) (i : Byte) :
    (c.noting log).input dev.recording i = ((c.input dev i).1, (c.input dev i).2.noting log) := by
  have hmask : (c.noting log).machine.inputs = c.machine.inputs := rfl
  unfold input
  rw [hmask]
  split <;> rfl

theorem output_recording (c : Config σ) (log : List Fault) (i v : Byte) :
    (c.noting log).output dev.recording i v = (c.output dev i v).noting log := by
  change (if c.machine.outputs.test i then _ else _) =
    noting (if c.machine.outputs.test i then _ else _) log
  split <;> rfl

theorem lockstep_recording (log : List Fault) :
    dev.Lockstep dev.recording fun c d => d = c.noting log where
  ram := by
    rintro c _ rfl
    rfl
  ports := by
    rintro c _ rfl
    rfl
  data := by
    rintro c _ rfl r
    rfl
  setHeight := by
    rintro c _ rfl r n -
    rfl
  pushCells := by
    rintro c _ rfl r cells
    rfl
  writeCell := by
    rintro c _ rfl w a v
    rfl
  input := by
    rintro c _ rfl i
    simp [input_recording]
  output := by
    rintro c _ rfl i v
    exact output_recording c log i v

theorem step_recording (c : Config σ) (log : List Fault) (pc : Short) :
    (c.noting log).step dev.recording pc = ((c.step dev pc).1, (c.step dev pc).2.noting log) := by
  obtain ⟨hout, hnext⟩ := (lockstep_recording log).step (c := c) rfl pc
  exact Prod.ext hout.symm hnext

/-! ## Evaluations -/

inductive Steps (dev : Device σ) : Short → Config σ → Short → Config σ → Prop
  | refl {pc : Short} {c : Config σ} : Steps dev pc c pc c
  | next {pc pc' pc'' : Short} {c c' c'' : Config σ} (h : c.step dev pc = (.next pc', c'))
      (hrest : Steps dev pc' c' pc'' c'') : Steps dev pc c pc'' c''

/--
How a run comes to a result, and the faults that the device is told of
meanwhile.  A fault names the address of its instruction and the byte there.
-/
inductive Finishes (dev : Device σ) (pc : Short) (c : Config σ) :
    Bool × Config σ → List Fault → Prop
  | stop {pc' : Short} {c' d : Config σ} (hsteps : Steps dev pc c pc' c')
      (hstep : c'.step dev pc' = (.stop, d)) : Finishes dev pc c (true, d) []
  | fault {pc' : Short} {c' d : Config σ} {cause : Cause} (hsteps : Steps dev pc c pc' c')
      (hstep : c'.step dev pc' = (.fault cause, d))
      (hharmless : Harmless c' d (.decode (d.machine.ram.read pc')) cause) :
      Finishes dev pc c (dev.halt ⟨cause, pc', d.machine.ram.read pc'⟩ d)
        [⟨cause, pc', d.machine.ram.read pc'⟩]

theorem Finishes.of_next {pc pc' : Short} {c c' : Config σ} {r : Bool × Config σ}
    {faults : List Fault} (hstep : c.step dev pc = (.next pc', c'))
    (h : Finishes dev pc' c' r faults) : Finishes dev pc c r faults := by
  cases h with
  | stop hsteps hlast => exact .stop (.next hstep hsteps) hlast
  | fault hsteps hlast hharmless => exact .fault (.next hstep hsteps) hlast hharmless

theorem run_finishes (hquiet : dev.ReadsQuietly) {fuel : Nat} {pc : Short} {c : Config σ}
    {r : Bool × Config σ} (h : run dev fuel pc c = some r) :
    ∃ faults, Finishes dev pc c r faults ∧ ∀ log,
      run dev.recording fuel pc (c.noting log) = some (r.1, r.2.noting (log ++ faults)) := by
  induction fuel generalizing pc c with
  | zero => contradiction
  | succ fuel ih =>
      have hram (log : List Fault) : (c.noting log).machine.ram = c.machine.ram := rfl
      rw [run] at h
      simp only [run, step_recording, hram]
      cases hstep : c.step dev pc with
      | mk outcome d =>
          rw [hstep] at h
          cases outcome with
          | next pc' =>
              obtain ⟨faults, hfinishes, hrecorded⟩ := ih h
              exact ⟨faults, hfinishes.of_next hstep, hrecorded⟩
          | stop =>
              obtain rfl := Option.some.inj h
              exact ⟨[], .stop .refl hstep, by simp⟩
          | fault cause =>
              obtain rfl := Option.some.inj h
              have hfault : (c.step dev pc).1 = .fault cause := congrArg Prod.fst hstep
              have hharmless := execute_harmless hquiet hfault
              change Harmless c (c.step dev pc).2 _ cause at hharmless
              rw [hstep] at hharmless
              have hsame := hharmless.store.ram
              dsimp only at hsame
              rw [← hsame] at hharmless ⊢
              exact ⟨_, .fault .refl hstep hharmless, fun log => rfl⟩

/--
An evaluation that starts is a run, and ends when an instruction stops or
faults.  All the faults that the device is told of are those of the run itself,
so there is one at most.
-/
theorem eval_finishes (hquiet : dev.ReadsQuietly) {fuel : Nat} {pc : Short} {c : Config σ}
    {r : Bool × Config σ} (h : eval dev fuel pc c = some r) :
    ∃ faults, (if pc = 0 ∨ c.machine.halted then r = (false, c) ∧ faults = []
        else Finishes dev pc c r faults) ∧
      ∀ log, eval dev.recording fuel pc (c.noting log) =
        some (r.1, r.2.noting (log ++ faults)) := by
  have hhalted (log : List Fault) : (c.noting log).machine.halted = c.machine.halted := rfl
  simp only [eval, hhalted] at h ⊢
  split at h
  · next hidle =>
      obtain rfl := Option.some.inj h
      exact ⟨[], by simp [hidle], by simp [hidle]⟩
  · next hstarts =>
      obtain ⟨faults, hfinishes, hrecorded⟩ := run_finishes hquiet h
      refine ⟨faults, ?_, ?_⟩
      · rwa [if_neg hstarts]
      · intro log
        rw [if_neg hstarts]
        exact hrecorded log

theorem eval_finishes_pop :
    ∃ c : Config Unit, c.machine.ram.read 0xffff = 0x02 ∧ c.machine.wst.data = [] ∧
      eval .inert 1 0xffff c = some (false, c) ∧
      Finishes .inert 0xffff c (false, c) [⟨.underflow, 0xffff, 0x02⟩] := by
  let c : Config Unit := ⟨{ Machine.fresh with ram := Ram.zero.write 0xffff 0x02 }, ()⟩
  have hread : c.machine.ram.read 0xffff = 0x02 := Ram.read_write_self _ _ _
  have hstarts : ¬((0xffff : Short) = 0 ∨ c.machine.halted = true) := by
    have hzero : c.machine.ports.read Machine.haltPort = 0 := by
      simp [c, Machine.fresh, Ports.read, Ports.zero]
    simp [Machine.halted, hzero]
  have hstep : c.step .inert 0xffff = (.fault .underflow, c) := by
    rw [step, hread]
    rfl
  have heval : eval .inert 1 0xffff c = some (false, c) := by
    rw [eval, if_neg hstarts, run, hstep]
    rfl
  obtain ⟨faults, hfinishes, hrecorded⟩ := eval_finishes Device.inert_readsQuietly heval
  have htold : eval Device.inert.recording 1 0xffff (c.noting []) =
      some (false, c.noting [⟨.underflow, 0xffff, c.machine.ram.read 0xffff⟩]) := by
    have hsame : (c.noting ([] : List Fault)).machine.halted = c.machine.halted := rfl
    rw [eval, hsame, if_neg hstarts, run, step_recording, hstep]
    rfl
  rw [hrecorded, hread] at htold
  obtain rfl : faults = [⟨.underflow, 0xffff, 0x02⟩] :=
    congrArg (fun r => r.2.device.2) (Option.some.inj htold)
  rw [if_neg hstarts] at hfinishes
  exact ⟨c, hread, rfl, heval, hfinishes⟩

end Config

end StackComputer
