import StackComputer.Machine.Run
import StackComputer.Proofs.Machine.Cells

/-!
# One instruction

An instruction takes operands from the selected stack, has an effect on memory
or on the bus, and pushes some cells.  Everything else about it is the same for
all operations, so it is said here once.
-/

namespace StackComputer

namespace Config

variable {σ : Type}

/-! ## Replacing a stack -/

def setStack (c : Config σ) (r : Bool) (s : Stack) : Config σ :=
  match r with
  | false => ⟨{ c.machine with wst := s }, c.device⟩
  | true => ⟨{ c.machine with rst := s }, c.device⟩

/-- The configurations differ in nothing but their stacks. -/
structure SameStore (c d : Config σ) : Prop where
  ram : c.machine.ram = d.machine.ram
  ports : c.machine.ports = d.machine.ports
  inputs : c.machine.inputs = d.machine.inputs
  outputs : c.machine.outputs = d.machine.outputs
  device : c.device = d.device

variable (c : Config σ) (r : Bool) (s t : Stack)

@[simp] theorem stack_setStack_self : (c.setStack r s).machine.stack r = s := by
  cases r <;> rfl

@[simp] theorem stack_setStack_not :
    (c.setStack r s).machine.stack (!r) = c.machine.stack (!r) := by
  cases r <;> rfl

@[simp] theorem stack_setStack_not_self :
    (c.setStack (!r) s).machine.stack r = c.machine.stack r := by
  cases r <;> rfl

@[simp] theorem setStack_setStack : (c.setStack r s).setStack r t = c.setStack r t := by
  cases r <;> rfl

@[simp] theorem setStack_stack : c.setStack r (c.machine.stack r) = c := by
  cases r <;> rfl

@[simp] theorem ram_setStack : (c.setStack r s).machine.ram = c.machine.ram := by
  cases r <;> rfl

theorem sameStore_setStack : (c.setStack r s).SameStore c := by
  cases r <;> exact ⟨rfl, rfl, rfl, rfl, rfl⟩

theorem SameStore.refl : c.SameStore c :=
  ⟨rfl, rfl, rfl, rfl, rfl⟩

theorem SameStore.trans {c d e : Config σ} (h : c.SameStore d) (k : d.SameStore e) :
    c.SameStore e :=
  ⟨h.ram.trans k.ram, h.ports.trans k.ports, h.inputs.trans k.inputs, h.outputs.trans k.outputs,
    h.device.trans k.device⟩

theorem SameStore.symm {c d : Config σ} (h : c.SameStore d) : d.SameStore c :=
  ⟨h.ram.symm, h.ports.symm, h.inputs.symm, h.outputs.symm, h.device.symm⟩

theorem setHeight_eq (n : Nat) :
    c.setHeight r n = c.setStack r ((c.machine.stack r).setHeight n) := by
  cases r <;> rfl

theorem pushCells_eq (cells : List Cell) :
    c.pushCells r cells = (((c.machine.stack r).pushCells cells).1,
      c.setStack r ((c.machine.stack r).pushCells cells).2) := by
  cases r <;> rfl

theorem pushCells_nil : c.pushCells r [] = (.ok (), c) := by
  cases r <;> rfl

end Config

/-! ## Operands -/

def Instruction.widths (i : Instruction) : List Width :=
  i.op.operands i.mode.width

def Instruction.taken (i : Instruction) : Nat :=
  Width.total i.widths

namespace Config

variable {σ : Type} (dev : Device σ) (c : Config σ) (i : Instruction) (next : Short)

def selected : Stack :=
  c.machine.stack i.mode.onReturn

def operandCells : List Cell :=
  (c.selected i).cellsBelow i.widths (c.selected i).height

def arguments : Arguments :=
  .ofList next (c.machine.ram.readShort next) ((c.operandCells i).map Cell.value)

def afterOperands : Config σ :=
  if i.mode.keep then c else c.setHeight i.mode.onReturn ((c.selected i).height - i.taken)

variable {c i}

theorem execute_of_taken_le (h : i.taken ≤ (c.selected i).data.length) :
    c.execute dev i next =
      (c.afterOperands i).act dev i.mode (i.op.following i.mode.width (c.arguments i next))
        (i.op.action i.mode.width (c.arguments i next)) := by
  rw [Stack.length_data] at h
  have hfound : (c.machine.stack i.mode.onReturn).operands (i.op.operands i.mode.width) =
      ⟨(c.operandCells i).map Cell.value, (c.selected i).height - i.taken, true⟩ :=
    (c.selected i).operandsBelow_of_total_le h
  unfold execute
  dsimp only
  rw [hfound]
  rfl

theorem execute_of_lt_taken (h : (c.selected i).data.length < i.taken) :
    ∃ n, n ≤ (c.selected i).height ∧
      c.execute dev i next = (.fault .underflow,
        if i.mode.keep then c else c.setHeight i.mode.onReturn n) := by
  rw [Stack.length_data] at h
  have hmissing : ((c.machine.stack i.mode.onReturn).operands
      (i.op.operands i.mode.width)).complete = false :=
    ((c.selected i).operandsBelow_of_lt_total h).1
  refine ⟨_, ((c.selected i).operandsBelow_of_lt_total h).2, ?_⟩
  unfold execute
  dsimp only
  rw [hmissing]
  rfl

theorem step_of_read_zero {pc : Short} (hread : c.machine.ram.read pc = 0) :
    c.step dev pc = (.stop, c) := by
  rw [step, hread]
  change (Outcome.stop, c.setHeight false c.machine.wst.height) = _
  rw [setHeight_eq, Machine.stack, if_neg Bool.false_ne_true, Stack.setHeight_height]
  rfl

theorem data_selected (h : i.taken ≤ (c.selected i).data.length) :
    (c.selected i).data = (c.selected i).data.take ((c.selected i).data.length - i.taken) ++
      Cell.stacked (c.operandCells i) := by
  rw [Stack.length_data] at h ⊢
  have htake : (c.selected i).data.take (c.selected i).height =
      (c.selected i).data.take ((c.selected i).height - i.taken) ++
        Cell.stacked (c.operandCells i) :=
    Stack.take_data_cellsBelow (c.selected i) h (Nat.le_refl _)
  rwa [← Stack.length_data, List.take_length, Stack.length_data] at htake

theorem data_setHeight_taken :
    ((c.selected i).setHeight ((c.selected i).height - i.taken)).data =
      (c.selected i).data.take ((c.selected i).data.length - i.taken) := by
  rw [Stack.data_setHeight _ (Nat.sub_le _ _), Stack.length_data]

theorem afterOperands_of_not_keep (h : i.mode.keep = false) :
    c.afterOperands i =
      c.setStack i.mode.onReturn ((c.selected i).setHeight ((c.selected i).height - i.taken)) := by
  rw [afterOperands, h, if_neg Bool.false_ne_true, setHeight_eq, selected]

/-- The bytes that are on the selected stack once the operands are taken or kept. -/
def remaining (c : Config σ) (i : Instruction) : Nat :=
  if i.mode.keep then (c.selected i).data.length else (c.selected i).data.length - i.taken

theorem exists_afterOperands (c : Config σ) (i : Instruction) :
    ∃ t, c.afterOperands i = c.setStack i.mode.onReturn t ∧
      t.data = (c.selected i).data.take (c.remaining i) ∧
      (i.mode.keep = true → t = c.selected i) := by
  cases hkeep : i.mode.keep with
  | true =>
      refine ⟨c.selected i, ?_, ?_, fun _ => rfl⟩
      · simp [afterOperands, hkeep, selected]
      · rw [remaining, if_pos hkeep, List.take_length]
  | false =>
      refine ⟨_, afterOperands_of_not_keep hkeep, ?_, nofun⟩
      rw [data_setHeight_taken, remaining, hkeep]
      rfl

theorem map_width_operandCells : (c.operandCells i).map Cell.width = i.widths :=
  Stack.map_width_cellsBelow _ _ _

theorem inRange_operandCells : ∀ x ∈ c.operandCells i, x.InRange :=
  Stack.inRange_cellsBelow _ _ _

end Config

/-! ## Actions -/

namespace Outcome

variable {next pc : Short} {n : Nat}

def ofLength (next : Short) (n : Nat) : Outcome :=
  if n ≤ 255 then .next next else .fault .overflow

theorem ofLength_eq_next : ofLength next n = .next pc ↔ n ≤ 255 ∧ next = pc := by
  unfold ofLength
  split
  · next h => simp [h]
  · next h => simp [h]

theorem ofLength_eq_fault {e : Cause} : ofLength next n = .fault e ↔ 255 < n ∧ e = .overflow := by
  unfold ofLength
  split
  · next h => simp [Nat.not_lt.mpr h]
  · next h => simp [Nat.lt_of_not_le h, eq_comm]

theorem ofLength_ne_fault {e : Cause} (he : e ≠ .overflow) : ofLength next n ≠ .fault e :=
  fun h => he (ofLength_eq_fault.mp h).2

end Outcome

def Action.Pushes : Action → Prop
  | .stop | .fail _ | .stash _ => False
  | _ => True

namespace Config

variable {σ : Type} (dev : Device σ) (c : Config σ)

theorem ofPush_pushCells (r : Bool) (cells : List Cell) (next : Short) :
    Outcome.ofPush next (c.pushCells r cells).1 =
      .ofLength next ((c.machine.stack r).data.length + (cells.flatMap Cell.bytes).length) := by
  rw [pushCells_eq, Stack.pushCells_fst, Outcome.ofLength]
  split <;> rfl

theorem act_push (mode : Mode) (next : Short) (cells : List Cell) :
    c.act dev mode next (.push cells) =
      (.ofPush next (c.pushCells mode.onReturn cells).1,
        (c.pushCells mode.onReturn cells).2) := rfl

theorem act_stash (mode : Mode) (next : Short) (cell : Cell) :
    c.act dev mode next (.stash cell) =
      (.ofPush next (c.pushCells (!mode.onReturn) [cell]).1,
        (c.pushCells (!mode.onReturn) [cell]).2) := rfl

/-- What an action does before its push, and the cells that it then pushes. -/
def produce (w : Width) : Action → List Cell × Config σ
  | .stop | .fail _ | .stash _ => ([], c)
  | .push cells => (cells, c)
  | .load a => ([⟨w, c.machine.ram.readCell w a⟩], c)
  | .store a v => ([], c.writeCell w a v)
  | .input i =>
      let (v, c) := c.inputCell dev w i
      ([⟨w, v⟩], c)
  | .output i v => ([], c.outputCell dev w i v)

theorem act_of_pushes (mode : Mode) (next : Short) {a : Action} (ha : a.Pushes) :
    c.act dev mode next a =
      (.ofPush next ((c.produce dev mode.width a).2.pushCells mode.onReturn
        (c.produce dev mode.width a).1).1,
      ((c.produce dev mode.width a).2.pushCells mode.onReturn
        (c.produce dev mode.width a).1).2) := by
  cases a with
  | stop => exact ha.elim
  | fail e => exact ha.elim
  | stash cell => exact ha.elim
  | push cells => rfl
  | load a => rfl
  | store a v =>
      rw [produce, pushCells_nil]
      rfl
  | input i => rfl
  | output i v =>
      rw [produce, pushCells_nil]
      rfl

end Config

end StackComputer
