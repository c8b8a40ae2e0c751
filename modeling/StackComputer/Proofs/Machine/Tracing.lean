import StackComputer.Proofs.Machine.Blind
import StackComputer.Proofs.Machine.Lockstep

/-!
# Accesses to the bus

Which ports an instruction reads and writes has nothing to do with the masks.
They only decide of which accesses the device is told.  A device that keeps a
trace and changes nothing therefore finds, under any masks, that part of the
full trace which the masks let through.
-/

namespace StackComputer

/-- A write is told with the port memory that the device finds: the byte has been stored by then. -/
inductive Access where
  | read (port : Byte)
  | write (port value : Byte) (found : Ports)

def Mask.Selects (m : Mask) (i : Byte) : Prop :=
  have : i.toNat / 16 < 16 := Nat.div_lt_of_lt_mul i.toNat_lt
  m.slots[i.toNat / 16].toNat / 2 ^ (i.toNat % 16) % 2 = 1

instance (m : Mask) (i : Byte) : Decidable (m.Selects i) :=
  inferInstanceAs (Decidable (_ = _))

/-- The accesses that the masks send to the device, in the same order. -/
def Access.routed (inputs outputs : Mask) (t : List Access) : List Access :=
  t.filter fun
    | .read i => inputs.Selects i
    | .write i _ _ => outputs.Selects i

def Device.tracing (verdict : Fault → Bool) : Device (List Access) where
  input i c := (c.machine.ports.read i, ⟨c.machine, c.device ++ [.read i]⟩)
  output i c := ⟨c.machine, c.device ++ [.write i (c.machine.ports.read i) c.machine.ports]⟩
  halt f c := (verdict f, c)

def Access.perform {σ : Type} (dev : Device σ) (c : Config σ) : Access → Config σ
  | .read i => (c.input dev i).2
  | .write i v _ => c.output dev i v

def Action.accesses (w : Width) (p : Ports) : Action → List Access
  | .input i =>
      match w with
      | .byte => [.read i]
      | .short => [.read i, .read (i + 1)]
  | .output i v =>
      match w with
      | .byte => [.write i v.lo (p.write i v.lo)]
      | .short =>
          [.write i v.hi (p.write i v.hi),
            .write (i + 1) v.lo ((p.write i v.hi).write (i + 1) v.lo)]
  | _ => []

def Machine.withMasks (m : Machine) (inputs outputs : Mask) : Machine :=
  { m with inputs := inputs, outputs := outputs }

theorem Mask.test_iff_selects (m : Mask) (i : Byte) : m.test i ↔ m.Selects i := by
  have hslot : i.toNat / 16 % 16 = i.toNat / 16 := by
    have := i.toNat_lt
    omega
  simp [test, get, Selects, hslot, Nat.testBit_eq_decide_div_mod_eq]

namespace Access

variable {inputs outputs : Mask}

@[simp] theorem routed_append (t t' : List Access) :
    routed inputs outputs (t ++ t') = routed inputs outputs t ++ routed inputs outputs t' :=
  List.filter_append t t'

theorem routed_read (i : Byte) :
    routed inputs outputs [.read i] = if inputs.test i then [.read i] else [] := by
  simp [routed, List.filter_cons, Mask.test_iff_selects]

theorem routed_write (i v : Byte) (p : Ports) :
    routed inputs outputs [.write i v p] = if outputs.test i then [.write i v p] else [] := by
  simp [routed, List.filter_cons, Mask.test_iff_selects]

end Access

namespace Config

def accesses {σ : Type} (c : Config σ) (pc : Short) : List Access :=
  let i := Instruction.decode (c.machine.ram.read pc)
  if i.taken ≤ (c.selected i).data.length then
    (i.op.action i.mode.width (c.arguments i (pc + 1))).accesses i.mode.width c.machine.ports
  else []

/-- The instruction at `pc` has taken its operands and has done the accesses `done`. -/
def midway {σ : Type} (dev : Device σ) (c : Config σ) (pc : Short) (done : List Access) :
    Config σ :=
  done.foldl (Access.perform dev) (c.afterOperands (Instruction.decode (c.machine.ram.read pc)))

/-! ## What is told of one instruction -/

variable {verdict : Fault → Bool} (c : Config (List Access))

def told (t : List Access) : List Access :=
  Access.routed c.machine.inputs c.machine.outputs t

theorem told_append (t t' : List Access) : c.told (t ++ t') = c.told t ++ c.told t' :=
  Access.routed_append t t'

theorem append_told_nil : c.device ++ c.told [] = c.device :=
  List.append_nil _

theorem input_tracing (i : Byte) :
    c.input (.tracing verdict) i =
      (c.machine.ports.read i, ⟨c.machine, c.device ++ c.told [.read i]⟩) := by
  rw [input, told, Access.routed_read]
  split
  · rfl
  · simp

theorem output_tracing (i v : Byte) :
    c.output (.tracing verdict) i v =
      ⟨c.machine.writePort i v, c.device ++ c.told [.write i v (c.machine.ports.write i v)]⟩ := by
  have hmask : (c.machine.writePort i v).outputs = c.machine.outputs := rfl
  have hread : (c.machine.writePort i v).ports.read i = v := Ports.read_write_self ..
  unfold output
  dsimp only
  rw [told, Access.routed_write, hmask]
  split
  · simp only [Device.tracing, hread]
    rfl
  · simp

theorem inputCell_tracing (w : Width) (i : Byte) :
    (c.inputCell (.tracing verdict) w i).2 =
      ⟨c.machine, c.device ++ c.told ((Action.input i).accesses w c.machine.ports)⟩ := by
  cases w with
  | byte =>
      rw [inputCell, input_tracing]
      rfl
  | short =>
      have hpair : (Action.input i).accesses .short c.machine.ports = [.read i] ++ [.read (i + 1)] :=
        rfl
      rw [inputCell, input_tracing]
      dsimp only
      rw [input_tracing, hpair, told_append, ← List.append_assoc]
      rfl

theorem outputCell_tracing (w : Width) (i : Byte) (v : Short) :
    (c.outputCell (.tracing verdict) w i v).device =
      c.device ++ c.told ((Action.output i v).accesses w c.machine.ports) := by
  cases w with
  | byte =>
      rw [outputCell, output_tracing]
      rfl
  | short =>
      have hpair : (Action.output i v).accesses .short c.machine.ports =
          [.write i v.hi (c.machine.ports.write i v.hi)] ++
            [.write (i + 1) v.lo ((c.machine.ports.write i v.hi).write (i + 1) v.lo)] := rfl
      rw [outputCell, output_tracing, output_tracing, hpair, told_append, ← List.append_assoc]
      rfl

/-- After the last port comes the first one. -/
example (p : Ports) : (Action.output 0xff 0x1234).accesses .short p =
    [.write 0xff 0x12 (p.write 0xff 0x12),
      .write 0x00 0x34 ((p.write 0xff 0x12).write 0x00 0x34)] := rfl

theorem device_pushCells {σ : Type} (c : Config σ) (r : Bool) (cells : List Cell) :
    (c.pushCells r cells).2.device = c.device := by
  rw [pushCells_eq]
  exact (sameStore_setStack c r _).device

theorem act_tracing (mode : Mode) (next : Short) (a : Action) :
    (c.act (.tracing verdict) mode next a).2.device =
      c.device ++ c.told (a.accesses mode.width c.machine.ports) := by
  have hnone := c.append_told_nil
  cases a with
  | stop => exact hnone.symm
  | fail e => exact hnone.symm
  | push cells => exact (c.device_pushCells mode.onReturn cells).trans hnone.symm
  | stash cell => exact (c.device_pushCells (!mode.onReturn) [cell]).trans hnone.symm
  | load a =>
      have hpushed := c.device_pushCells mode.onReturn
        [⟨mode.width, c.machine.ram.readCell mode.width a⟩]
      exact hpushed.trans hnone.symm
  | store a v => exact hnone.symm
  | input i =>
      have hpushed := device_pushCells (c.inputCell (.tracing verdict) mode.width i).2
        mode.onReturn [⟨mode.width, (c.inputCell (.tracing verdict) mode.width i).1⟩]
      exact hpushed.trans (congrArg Config.device (c.inputCell_tracing mode.width i))
  | output i v => exact c.outputCell_tracing mode.width i v

theorem step_tracing (pc : Short) :
    (c.step (.tracing verdict) pc).2.device = c.device ++ c.told (c.accesses pc) := by
  rw [step, accesses]
  generalize Instruction.decode (c.machine.ram.read pc) = i
  split
  · next htaken =>
      obtain ⟨s, hafter, -, -⟩ := c.exists_afterOperands i
      have hstore := sameStore_setStack c i.mode.onReturn s
      rw [execute_of_taken_le _ _ htaken, hafter, act_tracing, told, told, hstore.ports,
        hstore.inputs, hstore.outputs, hstore.device]
  · next hmissing =>
      obtain ⟨n, -, hmissed⟩ :=
        execute_of_lt_taken (.tracing verdict) (pc + 1) (Nat.lt_of_not_le hmissing)
      rw [hmissed, append_told_nil]
      dsimp only
      split
      · rfl
      · rw [setHeight_eq]
        exact (sameStore_setStack c _ _).device

/-! ## Machines that differ in their masks -/

structure SameData {σ τ : Type} (c : Config σ) (d : Config τ) : Prop where
  ram : c.machine.ram = d.machine.ram
  ports : c.machine.ports = d.machine.ports
  stack : ∀ r, c.machine.stack r = d.machine.stack r

namespace SameData

variable {σ τ : Type} {c : Config σ} {d : Config τ}

theorem setStack (h : c.SameData d) (r : Bool) (s : Stack) :
    (c.setStack r s).SameData (d.setStack r s) where
  ram := by rw [ram_setStack, ram_setStack, h.ram]
  ports := by rw [ports_setStack, ports_setStack, h.ports]
  stack k := by
    have hother := h.stack k
    cases r <;> cases k
    · rfl
    · exact hother
    · exact hother
    · rfl

theorem writeCell (h : c.SameData d) (w : Width) (a v : Short) :
    (c.writeCell w a v).SameData (d.writeCell w a v) :=
  { h with ram := congrArg (·.writeCell w a v) h.ram }

theorem writePort (h : c.SameData d) (i v : Byte) (s : σ) (t : τ) :
    SameData ⟨c.machine.writePort i v, s⟩ ⟨d.machine.writePort i v, t⟩ :=
  { h with ports := congrArg (·.write i v) h.ports }

end SameData

theorem input_inert (c : Config Unit) (i : Byte) :
    c.input .inert i = (c.machine.ports.read i, c) := by
  rw [input]
  split <;> rfl

theorem output_inert (c : Config Unit) (i v : Byte) :
    c.output .inert i v = ⟨c.machine.writePort i v, c.device⟩ := by
  unfold output
  dsimp only
  split <;> rfl

theorem lockstep_inert : Device.inert.Lockstep .inert SameData where
  ram h := h.ram
  ports h := h.ports
  data h r := congrArg Stack.data (h.stack r)
  setHeight h r n _ := by
    rw [setHeight_eq, setHeight_eq, h.stack]
    exact h.setStack r _
  pushCells h r cells := by
    rw [pushCells_eq, pushCells_eq, h.stack]
    exact h.setStack r _
  writeCell h := h.writeCell
  input h i := by
    rw [input_inert, input_inert, h.ports]
    exact ⟨rfl, h⟩
  output h i v := by
    rw [output_inert, output_inert]
    exact h.writePort i v _ _

/-- Masked on the left and all-ones on the right: the same data, and a part of the trace. -/
structure Traced (inputs outputs : Mask) (c d : Config (List Access)) : Prop
    extends c.SameData d where
  masks : c.machine.inputs = inputs ∧ c.machine.outputs = outputs
  allMasks : d.machine.inputs = .all ∧ d.machine.outputs = .all
  trace : c.device = Access.routed inputs outputs d.device

namespace Traced

variable {inputs outputs : Mask} {c d : Config (List Access)}

theorem setStack (h : Traced inputs outputs c d) (r : Bool) (s : Stack) :
    Traced inputs outputs (c.setStack r s) (d.setStack r s) where
  toSameData := h.toSameData.setStack r s
  masks := by cases r <;> exact h.masks
  allMasks := by cases r <;> exact h.allMasks
  trace := by cases r <;> exact h.trace

theorem trace_concat (h : Traced inputs outputs c d) (a : Access) :
    c.device ++ c.told [a] = Access.routed inputs outputs (d.device ++ d.told [a]) := by
  have hall : d.told [a] = [a] := by
    rw [told, h.allMasks.1, h.allMasks.2]
    cases a with
    | read i => rw [Access.routed_read, Mask.test_all, if_pos rfl]
    | write i v p => rw [Access.routed_write, Mask.test_all, if_pos rfl]
  rw [hall, Access.routed_append, told, h.masks.1, h.masks.2, h.trace]

theorem lockstep (inputs outputs : Mask) (verdict : Fault → Bool) :
    (Device.tracing verdict).Lockstep (.tracing verdict) (Traced inputs outputs) where
  ram h := h.ram
  ports h := h.ports
  data h r := congrArg Stack.data (h.stack r)
  setHeight h r n _ := by
    rw [setHeight_eq, setHeight_eq, h.stack]
    exact h.setStack r _
  pushCells h r cells := by
    rw [pushCells_eq, pushCells_eq, h.stack]
    exact h.setStack r _
  writeCell h w a v := { h with toSameData := h.toSameData.writeCell w a v }
  input h i := by
    rw [input_tracing, input_tracing, h.ports]
    exact ⟨rfl, { h with trace := h.trace_concat (.read i) }⟩
  output {c d} h i v := by
    have htrace := h.trace_concat (.write i v (d.machine.ports.write i v))
    rw [output_tracing, output_tracing, h.ports]
    exact { h with toSameData := h.toSameData.writePort i v _ _, trace := htrace }

end Traced

/--
Under any masks a run differs from the one under all-ones masks in nothing but
the trace, of which it has the part that the masks let through.  An instruction
adds its accesses to the trace, and of two bytes the first is stored and told
before the second is stored.  Without a device the masks do not matter at all.
-/
theorem trace_filtered (m : Machine) (inputs outputs : Mask) (verdict : Fault → Bool) :
    InStep ⟨m.withMasks inputs outputs, []⟩ (.tracing verdict) (.tracing verdict)
      (Traced inputs outputs) ⟨m.withMasks .all .all, []⟩ ∧
    (∀ (c : Config (List Access)) pc,
      (c.step (.tracing verdict) pc).2.device = c.device ++ c.told (c.accesses pc)) ∧
    ∀ inputs' outputs', InStep ⟨m.withMasks inputs outputs, ()⟩ .inert .inert SameData
      ⟨m.withMasks inputs' outputs', ()⟩ := by
  have hstart : Traced inputs outputs ⟨m.withMasks inputs outputs, []⟩
      ⟨m.withMasks .all .all, []⟩ :=
    ⟨⟨rfl, rfl, fun _ => rfl⟩, ⟨rfl, rfl⟩, ⟨rfl, rfl⟩, rfl⟩
  refine ⟨?_, fun c pc => c.step_tracing pc, fun inputs' outputs' => ?_⟩
  · exact (Traced.lockstep inputs outputs verdict).inStep (fun f _ _ h => ⟨rfl, h⟩) hstart
  · exact lockstep_inert.inStep (fun f _ _ h => ⟨rfl, h⟩) ⟨rfl, rfl, fun _ => rfl⟩

end Config

end StackComputer
