import StackComputer.Proofs.Machine.Blind
import StackComputer.Proofs.Semantics.Encoding

/-!
# When an instruction faults

Three tables give the bytes that an operation pops, the bytes that it pushes on
its own stack, and those that it pushes on the other.  Together with the
heights of the two stacks they decide whether an instruction faults and why.
A divisor is the one value that matters too.
-/

namespace StackComputer

namespace Op

def popped (w : Width) : Op → Nat
  | .brk | .jmi | .jsi | .lit => 0
  | .jci | .ldz | .ldr | .dei => 1
  | .lda => 2
  | .inc | .pop | .dup | .jmp | .jsr | .sth => w.size
  | .jcn | .stz | .str | .deo | .sft => w.size + 1
  | .sta => w.size + 2
  | .rot => 3 * w.size
  | .nip | .swp | .ovr | .equ | .neq | .gth | .lth
  | .add | .sub | .mul | .div | .and | .ora | .eor => 2 * w.size

def pushed (w : Width) : Op → Nat
  | .brk | .jci | .jmi | .jsi | .pop | .jmp | .jcn | .jsr | .sth
  | .stz | .str | .sta | .deo => 0
  | .equ | .neq | .gth | .lth => 1
  | .lit | .inc | .nip | .ldz | .ldr | .lda | .dei
  | .add | .sub | .mul | .div | .and | .ora | .eor | .sft => w.size
  | .swp | .dup => 2 * w.size
  | .rot | .ovr => 3 * w.size

def stashed (w : Width) : Op → Nat
  | .jsi | .jsr => 2
  | .sth => w.size
  | _ => 0

end Op

namespace Instruction

/-- Bit 6 selects the return stack, but the stop and the jumps with an inline distance have none. -/
def selectsReturn (b : Byte) : Bool :=
  b.bit 6 && (b.bit 7 || b % 32 != 0)

theorem onReturn_decode (b : Byte) : (decode b).mode.onReturn = selectsReturn b := by
  revert b
  apply Byte.forall_ofNat
  decide +kernel

theorem taken_eq_popped (i : Instruction) : i.taken = i.op.popped i.mode.width := by
  obtain ⟨op, ⟨w, keep, onReturn⟩⟩ := i
  cases op <;> cases w <;> rfl

end Instruction

namespace Config

variable {σ : Type}

def DividesByZero (c : Config σ) (i : Instruction) : Prop :=
  i.op = .div ∧ i.op.popped i.mode.width ≤ (c.selected i).data.length ∧
    i.mode.width.encode 0 <:+ (c.selected i).data

def LacksRoom (c : Config σ) (i : Instruction) : Prop :=
  255 < (if i.mode.keep then (c.selected i).data.length
      else (c.selected i).data.length - i.op.popped i.mode.width) + i.op.pushed i.mode.width ∨
    255 < (c.machine.stack (!i.mode.onReturn)).data.length + i.op.stashed i.mode.width

/--
How an instruction ends, by the heights of the stacks before it.  Where it
overflows, whole cells of its width are on its stack above what is left there.
-/
structure FaultConditions (c : Config σ) (i : Instruction) (out : Outcome × Config σ) :
    Prop where
  underflow : out.1 = .fault .underflow ↔ (c.selected i).data.length < i.op.popped i.mode.width
  divideByZero : out.1 = .fault .divideByZero ↔ c.DividesByZero i
  overflow : out.1 = .fault .overflow ↔
    i.op.popped i.mode.width ≤ (c.selected i).data.length ∧ ¬c.DividesByZero i ∧ c.LacksRoom i
  success : i.op.popped i.mode.width ≤ (c.selected i).data.length → ¬c.DividesByZero i →
    ¬c.LacksRoom i → if i.op = .brk then out.1 = .stop else ∃ pc, out.1 = .next pc
  whole : out.1 = .fault .overflow →
    out.2.machine.stack (!i.mode.onReturn) = c.machine.stack (!i.mode.onReturn) ∧
    ∃ cells : List Cell, (∀ x ∈ cells, x.width = i.mode.width) ∧
      (out.2.selected i).data =
        (c.selected i).data.take (c.remaining i) ++ cells.flatMap Cell.bytes

end Config

/-! ## The tables are right -/

def Action.size (w : Width) : Action → Nat
  | .push cells => (cells.flatMap Cell.bytes).length
  | .load _ | .input _ => w.size
  | _ => 0

/-- Of several cells all have width `w`; a single one may have another. -/
def Cell.Uniform (w : Width) (cells : List Cell) : Prop :=
  cells.length ≤ 1 ∨ ∀ x ∈ cells, x.width = w

theorem Cell.Uniform.of_proper_prefix {w : Width} {done cells : List Cell} (h : Uniform w cells)
    (hfront : done <+: cells) (hproper : done ≠ cells) : ∀ x ∈ done, x.width = w := by
  rcases h with hlength | hall
  · have hlt : done.length < cells.length :=
      Nat.lt_of_le_of_ne hfront.length_le fun h => hproper (hfront.eq_of_length h)
    have hnil : done = [] := List.length_eq_zero_iff.mp (by omega)
    simp [hnil]
  · intro x hx
    exact hall x (hfront.mem hx)

/-- What the tables say about an action that some operation comes to. -/
inductive Op.Ends (op : Op) (w : Width) (x : Arguments) : Action → Prop
  | stop (h : op = .brk) : op.Ends w x .stop
  | fail (hop : op = .div) (hzero : x.first = 0) : op.Ends w x (.fail .divideByZero)
  | stash {cell : Cell} (hbrk : op ≠ .brk) (hdiv : op ≠ .div) (hpushed : op.pushed w = 0)
      (hstashed : op.stashed w = cell.width.size) : op.Ends w x (.stash cell)
  | push {a : Action} (ha : a.Pushes) (hbrk : op ≠ .brk) (hdiv : op = .div → x.first ≠ 0)
      (hpushed : op.pushed w = a.size w) (hstashed : op.stashed w = 0)
      (huniform : ∀ cells, a = .push cells → Cell.Uniform w cells) : op.Ends w x a

theorem Op.ends_action (op : Op) (w : Width) (x : Arguments) : op.Ends w x (op.action w x) := by
  cases op with
  | brk => exact .stop rfl
  | jsi => exact .stash (by decide) (by decide) rfl rfl
  | jsr => exact .stash (by decide) (by decide) rfl rfl
  | sth => exact .stash (by decide) (by decide) rfl rfl
  | div =>
      rw [action]
      split
      · next hzero => exact .fail rfl hzero
      · next hzero =>
          exact .push trivial (by decide) (fun _ => hzero) (by simp [pushed, Action.size]) rfl
            (by simp [Cell.Uniform])
  | lit =>
      cases w <;>
        exact .push trivial (by decide) (by simp) rfl rfl (by simp [action, Cell.Uniform])
  | _ =>
      exact .push trivial (by decide) (by simp)
        (by simp [pushed, Action.size, action, Cell.ofBool, Width.size]; try omega) rfl
        (by simp [action, Cell.Uniform])

namespace Config

variable {σ : Type} {dev : Device σ} {c : Config σ} {i : Instruction}

theorem length_produce (dev : Device σ) (c : Config σ) (w : Width) (a : Action) :
    ((c.produce dev w a).1.flatMap Cell.bytes).length = a.size w := by
  cases a <;> simp [produce, Action.size]

theorem uniform_produce {w : Width} {a : Action} (dev : Device σ) (c : Config σ)
    (h : ∀ cells, a = .push cells → Cell.Uniform w cells) :
    Cell.Uniform w (c.produce dev w a).1 := by
  cases a with
  | push cells => exact h cells rfl
  | _ => exact .inl (by simp [produce])

theorem dividesByZero_iff (next : Short) (htaken : i.taken ≤ (c.selected i).data.length) :
    c.DividesByZero i ↔ i.op = .div ∧ (c.arguments i next).first = 0 := by
  unfold DividesByZero
  refine and_congr_right fun hop => ?_
  have hfirst : (c.arguments i next).first =
      (c.selected i).cellBelow i.mode.width (c.selected i).height := by
    simp [arguments, operandCells, Instruction.widths, hop, Op.operands, Stack.cellsBelow,
      Arguments.ofList]
  have hmodulus : 0 < i.mode.width.modulus := Nat.two_pow_pos _
  rw [i.taken_eq_popped] at htaken
  have hroom : i.mode.width.size ≤ (c.selected i).height := by
    rw [hop, Op.popped, Stack.length_data] at htaken
    omega
  rw [hfirst, Stack.encode_suffix_data _ hmodulus hroom, and_iff_right htaken]
  exact UInt16.toNat_inj (b := 0)

theorem length_take_remaining (c : Config σ) (i : Instruction) :
    ((c.selected i).data.take (c.remaining i)).length = if i.mode.keep then
      (c.selected i).data.length else (c.selected i).data.length - i.op.popped i.mode.width := by
  rw [List.length_take, remaining, i.taken_eq_popped]
  split <;> omega

theorem faultConditions_of_ofLength {next : Short} {n : Nat} {out : Outcome × Config σ}
    (htaken : i.op.popped i.mode.width ≤ (c.selected i).data.length)
    (hdiv : ¬c.DividesByZero i) (hbrk : i.op ≠ .brk) (hroom : c.LacksRoom i ↔ 255 < n)
    (hout : out.1 = .ofLength next n) (hwhole : out.1 = .fault .overflow →
      out.2.machine.stack (!i.mode.onReturn) = c.machine.stack (!i.mode.onReturn) ∧
      ∃ cells : List Cell, (∀ x ∈ cells, x.width = i.mode.width) ∧
        (out.2.selected i).data =
          (c.selected i).data.take (c.remaining i) ++ cells.flatMap Cell.bytes) :
    FaultConditions c i out where
  underflow := by
    rw [hout]
    exact iff_of_false (Outcome.ofLength_ne_fault (by decide)) (by omega)
  divideByZero := by
    rw [hout]
    exact iff_of_false (Outcome.ofLength_ne_fault (by decide)) hdiv
  overflow := by
    rw [hout, Outcome.ofLength_eq_fault, hroom, and_iff_left rfl, and_iff_right htaken,
      and_iff_right hdiv]
  success _ _ hspace := by
    have hle : n ≤ 255 := Nat.le_of_not_lt (mt hroom.mpr hspace)
    rw [if_neg hbrk, hout]
    exact ⟨next, Outcome.ofLength_eq_next.mpr ⟨hle, rfl⟩⟩
  whole := hwhole

theorem faultConditions_of_stash (htaken : i.op.popped i.mode.width ≤ (c.selected i).data.length)
    (hbrk : i.op ≠ .brk) (hop : i.op ≠ .div) {cell : Cell} (hpushed : i.op.pushed i.mode.width = 0)
    (hstashed : i.op.stashed i.mode.width = cell.width.size) {t : Stack}
    (ht : t.data = (c.selected i).data.take (c.remaining i)) (next : Short) :
    FaultConditions c i ((c.setStack i.mode.onReturn t).act dev i.mode next (.stash cell)) := by
  have hheight := (c.selected i).height_le
  rw [← Stack.length_data] at hheight
  rw [act_stash, ofPush_pushCells, stack_setStack_not]
  refine faultConditions_of_ofLength htaken (fun h => hop h.1) hbrk ?_ rfl ?_
  · rw [LacksRoom, hpushed, hstashed]
    simp only [List.flatMap_cons, List.flatMap_nil, List.append_nil, Cell.length_bytes]
    split <;> omega
  · intro hover
    have hlt := (Outcome.ofLength_eq_fault.mp hover).1
    have hsame := Stack.pushCells_singleton_of_lt (s := c.machine.stack (!i.mode.onReturn))
      (c := cell) (by simpa using hlt)
    dsimp only
    rw [pushCells_eq, stack_setStack_not, hsame]
    refine ⟨stack_setStack_self .., [], by simp, ?_⟩
    simp [selected, ht]

theorem faultConditions_of_pushes (hspares : dev.SparesStacks)
    (htaken : i.op.popped i.mode.width ≤ (c.selected i).data.length)
    (hdiv : ¬c.DividesByZero i) (hbrk : i.op ≠ .brk) {a : Action} (ha : a.Pushes)
    (hpushed : i.op.pushed i.mode.width = a.size i.mode.width)
    (hstashed : i.op.stashed i.mode.width = 0)
    (huniform : ∀ cells, a = .push cells → Cell.Uniform i.mode.width cells) {t : Stack}
    (ht : t.data = (c.selected i).data.take (c.remaining i)) (next : Short) :
    FaultConditions c i ((c.setStack i.mode.onReturn t).act dev i.mode next a) := by
  have hheight := (c.machine.stack (!i.mode.onReturn)).height_le
  rw [← Stack.length_data] at hheight
  have hsize := length_produce dev (c.setStack i.mode.onReturn t) i.mode.width a
  have hsame := hspares.produce i.mode.width a (c.setStack i.mode.onReturn t)
  have hcells := uniform_produce dev (c.setStack i.mode.onReturn t) huniform
  rw [act_of_pushes dev _ i.mode next ha, ofPush_pushCells, hsame, stack_setStack_self]
  generalize (c.setStack i.mode.onReturn t).produce dev i.mode.width a = made at hsize hsame hcells
  obtain ⟨cells, d⟩ := made
  refine faultConditions_of_ofLength htaken hdiv hbrk ?_ rfl ?_
  · rw [LacksRoom, hpushed, hstashed, ht, length_take_remaining, hsize]
    omega
  · intro hover
    obtain ⟨done, hfront, hdata, hproper⟩ := t.exists_pushCells cells
    have hfull : (t.pushCells cells).1 = .error .overflow :=
      Stack.pushCells_of_lt (Outcome.ofLength_eq_fault.mp hover).1
    dsimp only at hsame ⊢
    rw [pushCells_eq, hsame, stack_setStack_self]
    refine ⟨?_, done, hcells.of_proper_prefix hfront (hproper hfull), ?_⟩
    · rw [stack_setStack_not, hsame, stack_setStack_not]
    · rw [selected, stack_setStack_self, hdata, ht]

theorem faultConditions_of_stop (hbrk : i.op = .brk) (d : Config σ) :
    FaultConditions c i (.stop, d) := by
  have hheight := (c.selected i).height_le
  have hother := (c.machine.stack (!i.mode.onReturn)).height_le
  rw [← Stack.length_data] at hheight hother
  constructor
  · simp [hbrk, Op.popped]
  · simp [DividesByZero, hbrk]
  · refine iff_of_false nofun fun h => ?_
    obtain ⟨-, -, hroom⟩ := h
    rw [LacksRoom, hbrk] at hroom
    simp only [Op.popped, Op.pushed, Op.stashed, Nat.sub_zero, ite_self] at hroom
    omega
  · simp [hbrk]
  · exact nofun

theorem faultConditions_of_fail (htaken : i.op.popped i.mode.width ≤ (c.selected i).data.length)
    (hdiv : c.DividesByZero i) (d : Config σ) :
    FaultConditions c i (.fault .divideByZero, d) where
  underflow := iff_of_false nofun (Nat.not_lt_of_le htaken)
  divideByZero := iff_of_true rfl hdiv
  overflow := iff_of_false nofun fun h => h.2.1 hdiv
  success _ hnot := absurd hdiv hnot
  whole := nofun

theorem faultConditions_of_lt_taken {next : Short} (dev : Device σ)
    (hmissing : (c.selected i).data.length < i.op.popped i.mode.width) :
    FaultConditions c i (c.execute dev i next) := by
  obtain ⟨n, -, hn⟩ := execute_of_lt_taken dev next (i.taken_eq_popped ▸ hmissing)
  rw [hn]
  have hnot := Nat.not_le_of_lt hmissing
  constructor
  · exact iff_of_true rfl hmissing
  · exact iff_of_false nofun fun h => hnot h.2.1
  · exact iff_of_false nofun fun h => hnot h.1
  · exact fun h => absurd h hnot
  · exact nofun

theorem execute_faultConditions (hspares : dev.SparesStacks) (c : Config σ) (i : Instruction)
    (next : Short) : FaultConditions c i (c.execute dev i next) := by
  by_cases htaken : i.op.popped i.mode.width ≤ (c.selected i).data.length
  · have hdiv := dividesByZero_iff next (i.taken_eq_popped ▸ htaken)
    have hends := i.op.ends_action i.mode.width (c.arguments i next)
    obtain ⟨t, hafter, ht, -⟩ := c.exists_afterOperands i
    rw [execute_of_taken_le dev next (i.taken_eq_popped ▸ htaken), hafter]
    generalize i.op.following i.mode.width (c.arguments i next) = following
    generalize i.op.action i.mode.width (c.arguments i next) = a at hends
    cases hends with
    | stop hbrk =>
        exact faultConditions_of_stop hbrk _
    | fail hop hzero =>
        exact faultConditions_of_fail htaken (hdiv.mpr ⟨hop, hzero⟩) _
    | stash hbrk hop hpushed hstashed =>
        exact faultConditions_of_stash htaken hbrk hop hpushed hstashed ht following
    | push ha hbrk hnonzero hpushed hstashed huniform =>
        have hnot : ¬c.DividesByZero i := by
          rw [hdiv]
          exact fun h => hnonzero h.1 h.2
        exact faultConditions_of_pushes hspares htaken hnot hbrk ha hpushed hstashed huniform ht
          following
  · exact faultConditions_of_lt_taken dev (Nat.lt_of_not_le htaken)

/--
The fault conditions, for every instruction byte and a device that leaves the
stacks as they are.  The bits of the byte say which operation it is and of which
width.  A short that finds room for one byte is not pushed at all.
-/
theorem fault_conditions (hspares : dev.SparesStacks) (c : Config σ) (next : Short) (b : Byte) :
    (Instruction.decode b).HasByte b ∧
    FaultConditions c (.decode b) (c.execute dev (.decode b) next) ∧
    (Instruction.decode b).mode.onReturn = Instruction.selectsReturn b ∧
    ∀ (s : Stack) (v : Short), s.data.length = 254 → s.pushShort v = (.error .overflow, s) := by
  refine ⟨Instruction.hasByte_decode b, execute_faultConditions hspares c _ next,
    Instruction.onReturn_decode b, ?_⟩
  intro s v hs
  rw [Stack.length_data] at hs
  exact Stack.pushCell_of_lt (c := ⟨.short, v⟩) (by simp [hs, Width.size])

theorem fault_conditions_literal :
    ∃ c : Config Unit, c.machine.wst.data.length = 254 ∧
      FaultConditions c (.decode 0xa0) (c.execute .inert (.decode 0xa0) 0x0101) ∧
      (c.execute .inert (.decode 0xa0) 0x0101).1 = .fault .overflow := by
  let c : Config Unit := ⟨{ Machine.fresh with wst := Stack.empty.setHeight 254 }, ()⟩
  have hlength : c.machine.wst.data.length = 254 := Stack.length_data _
  obtain ⟨-, hends, -, -⟩ := fault_conditions Device.inert_sparesStacks c 0x0101 0xa0
  have hroom : c.LacksRoom (.decode 0xa0) := by
    left
    have hselected : (c.selected (.decode 0xa0)).data.length = 254 := hlength
    rw [hselected]
    decide
  have hnot : ¬c.DividesByZero (.decode 0xa0) := by
    rintro ⟨hop, -⟩
    exact absurd hop (by decide)
  exact ⟨c, hlength, hends, hends.overflow.mpr ⟨Nat.zero_le _, hnot, hroom⟩⟩

end Config

end StackComputer
