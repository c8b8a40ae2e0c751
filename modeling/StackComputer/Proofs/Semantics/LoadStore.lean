import StackComputer.Proofs.Machine.Tracing
import StackComputer.Proofs.Semantics.BaseModes

/-!
# Loads and stores

There are three ways of giving an address, each with a load and a store.  Once
the address is known they come to the same, so what one store leaves in memory
is what every load of that width finds there.  Apart from stores, only a device
can change memory.
-/

namespace StackComputer

/-! ## Addresses -/

inductive Addressing where
  | zeroPage
  | relative
  | absolute
  deriving DecidableEq, Repr

namespace Addressing

def width : Addressing → Width
  | zeroPage | relative => .byte
  | absolute => .short

def load : Addressing → Op
  | zeroPage => .ldz
  | relative => .ldr
  | absolute => .lda

def store : Addressing → Op
  | zeroPage => .stz
  | relative => .str
  | absolute => .sta

/--
`m.Refers next bytes a`: the bytes, in the order in which they lie on the stack,
mean the address `a` to an instruction before `next`.
-/
inductive Refers (next : Short) : Addressing → List Byte → Short → Prop
  | zeroPage {b : Byte} {a : Short} (h : a.toNat = b.toNat) : Refers next zeroPage [b] a
  | relative {b : Byte} {a : Short} (h : (a.toNat : Int) = (next.toNat + b.toInt8.toInt) % 65536) :
      Refers next relative [b] a
  | absolute {hi lo : Byte} {a : Short} (h : a.toNat = 256 * hi.toNat + lo.toNat) :
      Refers next absolute [hi, lo] a

namespace Refers

variable {next a a' : Short} {m : Addressing} {bytes : List Byte}

theorem unique (h : m.Refers next bytes a) (h' : m.Refers next bytes a') : a = a' := by
  apply UInt16.toNat_inj.mp
  cases h with
  | zeroPage h =>
      cases h' with
      | zeroPage h' => rw [h, h']
  | relative h =>
      cases h' with
      | relative h' => exact Int.ofNat.inj (h.trans h'.symm)
  | absolute h =>
      cases h' with
      | absolute h' => rw [h, h']

theorem length_eq (h : m.Refers next bytes a) : bytes.length = m.width.size := by
  cases h <;> rfl

end Refers

def target (next v : Short) : Addressing → Short
  | zeroPage | absolute => v
  | relative => next + Byte.signExtend v.lo

theorem toNat_signExtend (b : Byte) :
    ((Byte.signExtend b).toNat : Int) = b.toInt8.toInt % 65536 := by
  revert b
  apply Byte.forall_ofNat
  decide +kernel

theorem refers_target (m : Addressing) (next : Short) {v : Short}
    (hv : v.toNat < m.width.modulus) :
    m.Refers next (m.width.encode v.toNat) (m.target next v) := by
  cases m with
  | zeroPage =>
      obtain ⟨b, hb, htoNat⟩ := Cell.encode_byte_toNat hv
      rw [width, hb]
      exact .zeroPage htoNat.symm
  | relative =>
      have hb : Width.byte.encode v.toNat = [v.lo] := (Cell.bytes_eq_encode .byte v).symm
      have hsign := toNat_signExtend v.lo
      rw [width, hb]
      refine .relative ?_
      rw [target, UInt16.toNat_add]
      omega
  | absolute =>
      have hb : Width.short.encode v.toNat = [v.hi, v.lo] := (Cell.bytes_eq_encode .short v).symm
      rw [width, hb]
      refine .absolute ?_
      rw [target, Short.toNat_hi, Short.toNat_lo]
      omega

variable (m : Addressing) (w : Width) (x : Arguments)

theorem operands_load : m.load.operands w = [m.width] := by
  cases m <;> rfl

theorem operands_store : m.store.operands w = [m.width, w] := by
  cases m <;> rfl

theorem action_load : m.load.action w x = .load (m.target x.next x.first) := by
  cases m <;> rfl

theorem action_store : m.store.action w x = .store (m.target x.next x.first) x.second := by
  cases m <;> rfl

theorem following_load : m.load.following w x = x.next := by
  cases m <;> rfl

theorem following_store : m.store.following w x = x.next := by
  cases m <;> rfl

end Addressing

namespace Op

variable {op : Op} {w : Width} {x : Arguments}

theorem exists_store_of_action {a v : Short} (h : op.action w x = .store a v) :
    ∃ m : Addressing, op = m.store := by
  cases op with
  | stz => exact ⟨.zeroPage, rfl⟩
  | str => exact ⟨.relative, rfl⟩
  | sta => exact ⟨.absolute, rfl⟩
  | div =>
      rw [action] at h
      split at h <;> contradiction
  | _ => contradiction

theorem isDevice_of_action {p : Ports} (h : (op.action w x).accesses w p ≠ []) :
    op = .dei ∨ op = .deo := by
  cases op with
  | dei => exact .inl rfl
  | deo => exact .inr rfl
  | div =>
      rw [action] at h
      split at h <;> contradiction
  | _ => contradiction

end Op

/-! ## Bytes in memory -/

def Width.Covers (w : Width) (a x : Short) : Prop :=
  (x - a).toNat < w.size

instance (w : Width) (a x : Short) : Decidable (w.Covers a x) :=
  inferInstanceAs (Decidable (_ < _))

namespace Width

theorem covers_self (w : Width) (a : Short) : w.Covers a a := by
  rw [Covers, UInt16.sub_self]
  cases w <;> decide

theorem toNat_succ_sub_self (a : Short) : (a + 1 - a).toNat = 1 := by
  have ha := a.toNat_lt
  rw [UInt16.toNat_sub, UInt16.toNat_add]
  change (2 ^ 16 - a.toNat + (a.toNat + 1) % 2 ^ 16) % 2 ^ 16 = 1
  omega

theorem covers_succ (a : Short) : short.Covers a (a + 1) := by
  rw [Covers, toNat_succ_sub_self]
  decide

end Width

namespace Ram

variable (r : Ram) (w : Width) (a v : Short)

theorem succ_ne_self : a + 1 ≠ a := by
  intro h
  have hone := Width.toNat_succ_sub_self a
  rw [h, UInt16.sub_self] at hone
  contradiction

theorem readBytes_writeCell : (r.writeCell w a v).readBytes a w.size = w.encode v.toNat := by
  rw [← Cell.bytes_eq_encode]
  cases w with
  | byte => exact congrArg (· :: []) (read_write_self r a v.lo)
  | short =>
      have hhi : ((r.write a v.hi).write (a + 1) v.lo).read a = v.hi := by
        rw [read_write_ne _ _ (succ_ne_self a), read_write_self]
      have hlo : ((r.write a v.hi).write (a + 1) v.lo).read (a + 1) = v.lo := read_write_self ..
      change [_, _] = [_, _]
      rw [writeCell, writeShort, hhi, hlo]

example : r.readBytes 0xffff Width.short.size = [r.read 0xffff, r.read 0x0000] ∧
    r.readBytes 0x00ff Width.short.size = [r.read 0x00ff, r.read 0x0100] := ⟨rfl, rfl⟩

theorem read_writeCell_of_not_covers {x : Short} (h : ¬w.Covers a x) :
    (r.writeCell w a v).read x = r.read x := by
  have hfirst : a ≠ x := by
    rintro rfl
    exact h (w.covers_self a)
  cases w with
  | byte => exact read_write_ne r v.lo hfirst
  | short =>
      have hsecond : a + 1 ≠ x := by
        rintro rfl
        exact h (Width.covers_succ a)
      rw [writeCell, writeShort, read_write_ne _ _ hsecond, read_write_ne _ _ hfirst]

theorem encode_readCell : w.encode (r.readCell w a).toNat = r.readBytes a w.size := by
  rw [← Cell.bytes_eq_encode]
  cases w with
  | byte =>
      rw [readCell, Cell.bytes, Short.lo_toUInt16]
      rfl
  | short =>
      rw [readCell, readShort, Cell.bytes, Short.hi_ofBytes, Short.lo_ofBytes]
      rfl

theorem readBytes_congr {r r' : Ram} {w : Width} {a : Short}
    (h : ∀ x, w.Covers a x → r.read x = r'.read x) :
    r.readBytes a w.size = r'.readBytes a w.size := by
  have hfirst := h a (w.covers_self a)
  cases w with
  | byte => exact congrArg (· :: []) hfirst
  | short =>
      have hsecond := h (a + 1) (Width.covers_succ a)
      change [_, _] = [_, _]
      rw [hfirst, hsecond]

end Ram

/-! ## One instruction -/

namespace Config

variable {σ : Type} {dev : Device σ} {c d : Config σ} {i : Instruction} {pc next x : Short}
  {m : Addressing}

def instruction (c : Config σ) (pc : Short) : Instruction :=
  .decode (c.machine.ram.read pc)

theorem step_eq (dev : Device σ) (c : Config σ) (pc : Short) :
    c.step dev pc = c.execute dev (c.instruction pc) (pc + 1) := rfl

/-- What a store of the value `n` at the effective address `a` makes of a configuration. -/
structure Stored (c : Config σ) (i : Instruction) (next : Short) (m : Addressing) (a : Short)
    (n : Nat) (d : Config σ) : Prop where
  value_lt : n < i.mode.width.modulus
  stack : ∃ rest address, (c.selected i).data = rest ++ i.mode.width.encode n ++ address ∧
    m.Refers next address a ∧
    (d.selected i).data = if i.mode.keep then (c.selected i).data else rest
  other : d.machine.stack (!i.mode.onReturn) = c.machine.stack (!i.mode.onReturn)
  written : d.machine.ram.readBytes a i.mode.width.size = i.mode.width.encode n
  elsewhere : ∀ x, ¬i.mode.width.Covers a x → d.machine.ram.read x = c.machine.ram.read x
  ports : d.machine.ports = c.machine.ports
  device : d.device = c.device

structure Loaded (c : Config σ) (i : Instruction) (next : Short) (m : Addressing) (a : Short)
    (d : Config σ) : Prop where
  stack : ∃ rest address, (c.selected i).data = rest ++ address ∧ m.Refers next address a ∧
    (d.selected i).data = (if i.mode.keep then (c.selected i).data else rest) ++
      c.machine.ram.readBytes a i.mode.width.size
  other : d.machine.stack (!i.mode.onReturn) = c.machine.stack (!i.mode.onReturn)
  store : d.SameStore c

theorem taken_le_of_ok (hok : ∀ e, (c.execute dev i next).1 ≠ .fault e) :
    i.taken ≤ (c.selected i).data.length := by
  refine Nat.le_of_not_lt fun hmissing => ?_
  obtain ⟨n, -, hfault⟩ := execute_of_lt_taken dev next hmissing
  exact hok .underflow (congrArg Prod.fst hfault)

theorem take_remaining (c : Config σ) (i : Instruction) :
    (c.selected i).data.take (c.remaining i) = if i.mode.keep then (c.selected i).data
      else (c.selected i).data.take ((c.selected i).data.length - i.taken) := by
  unfold remaining
  split
  · exact List.take_length
  · rfl

theorem operands_of_store (hop : i.op = m.store) (htaken : i.taken ≤ (c.selected i).data.length)
    (next : Short) :
    ∃ address a v, m.Refers next address a ∧ v.toNat < i.mode.width.modulus ∧
      (c.selected i).data = (c.selected i).data.take ((c.selected i).data.length - i.taken) ++
        i.mode.width.encode v.toNat ++ address ∧
      i.op.action i.mode.width (c.arguments i next) = .store a v := by
  have hwidths : (c.operandCells i).map Cell.width = [m.width, i.mode.width] := by
    rw [map_width_operandCells, Instruction.widths, hop, m.operands_store]
  obtain ⟨b, v, hcells, hb, hv⟩ := Cell.exists_of_map_width_two hwidths inRange_operandCells
  have hdata := data_selected htaken
  rw [hcells] at hdata
  simp only [Cell.stacked_cons, Cell.stacked_nil, Cell.bytes_eq_encode, List.nil_append,
    ← List.append_assoc] at hdata
  refine ⟨_, _, v, m.refers_target next hb, hv, hdata, ?_⟩
  rw [hop, m.action_store, arguments, hcells]
  rfl

theorem operands_of_load (hop : i.op = m.load) (htaken : i.taken ≤ (c.selected i).data.length)
    (next : Short) :
    ∃ address a, m.Refers next address a ∧
      (c.selected i).data = (c.selected i).data.take ((c.selected i).data.length - i.taken) ++
        address ∧
      i.op.action i.mode.width (c.arguments i next) = .load a := by
  have hwidths : (c.operandCells i).map Cell.width = [m.width] := by
    rw [map_width_operandCells, Instruction.widths, hop, m.operands_load]
  obtain ⟨b, hcells, hb⟩ := Cell.exists_of_map_width_one hwidths inRange_operandCells
  have hdata := data_selected htaken
  rw [hcells] at hdata
  simp only [Cell.stacked_cons, Cell.stacked_nil, Cell.bytes_eq_encode, List.nil_append] at hdata
  refine ⟨_, _, m.refers_target next hb, hdata, ?_⟩
  rw [hop, m.action_load, arguments, hcells]
  rfl

theorem stored_of_ok (hop : i.op = m.store) (hok : ∀ e, (c.execute dev i next).1 ≠ .fault e) :
    (c.execute dev i next).1 = .next next ∧
      ∃ a n, Stored c i next m a n (c.execute dev i next).2 := by
  have htaken := taken_le_of_ok hok
  obtain ⟨address, a, v, hrefers, hv, hdata, haction⟩ := operands_of_store hop htaken next
  obtain ⟨t, hafter, ht, -⟩ := c.exists_afterOperands i
  have hfollowing : i.op.following i.mode.width (c.arguments i next) = next := by
    rw [hop, m.following_store]
    rfl
  have hexecute : c.execute dev i next =
      (.next next, (c.writeCell i.mode.width a v).setStack i.mode.onReturn t) := by
    rw [execute_of_taken_le dev next htaken, haction, hafter, hfollowing, ← writeCell_setStack]
    rfl
  have hstore := sameStore_setStack (c.writeCell i.mode.width a v) i.mode.onReturn t
  rw [hexecute]
  refine ⟨rfl, a, v.toNat, ?_⟩
  constructor
  · exact hv
  · refine ⟨_, address, hdata, hrefers, ?_⟩
    rw [selected, stack_setStack_self, ht, take_remaining]
  · rw [stack_setStack_not]
    rfl
  · rw [hstore.ram]
    exact Ram.readBytes_writeCell ..
  · intro x hx
    rw [hstore.ram]
    exact Ram.read_writeCell_of_not_covers _ _ _ _ hx
  · exact hstore.ports
  · exact hstore.device

theorem loaded_of_ok (hop : i.op = m.load) (hok : ∀ e, (c.execute dev i next).1 ≠ .fault e) :
    (c.execute dev i next).1 = .next next ∧ ∃ a, Loaded c i next m a (c.execute dev i next).2 := by
  have htaken := taken_le_of_ok hok
  obtain ⟨address, a, hrefers, hdata, haction⟩ := operands_of_load hop htaken next
  obtain ⟨t, hafter, ht, -⟩ := c.exists_afterOperands i
  have hfollowing : i.op.following i.mode.width (c.arguments i next) = next := by
    rw [hop, m.following_load]
    rfl
  have hexecute : c.execute dev i next =
      (.ofPush next ((c.setStack i.mode.onReturn t).pushCells i.mode.onReturn
        [⟨i.mode.width, c.machine.ram.readCell i.mode.width a⟩]).1,
      ((c.setStack i.mode.onReturn t).pushCells i.mode.onReturn
        [⟨i.mode.width, c.machine.ram.readCell i.mode.width a⟩]).2) := by
    rw [execute_of_taken_le dev next htaken, haction, hafter, hfollowing,
      act_of_pushes (a := .load a) dev _ i.mode next trivial, produce, ram_setStack]
  rw [hexecute] at hok ⊢
  obtain ⟨u, hpush, hu⟩ := pushCells_of_ofPush hok
  rw [hpush, setStack_setStack]
  refine ⟨rfl, a, ?_⟩
  constructor
  · refine ⟨_, address, hdata, hrefers, ?_⟩
    rw [selected, stack_setStack_self, hu, stack_setStack_self, ht, take_remaining,
      List.flatMap_singleton, Cell.bytes_eq_encode, Ram.encode_readCell]
  · exact stack_setStack_not ..
  · exact sameStore_setStack ..

/-! ## What changes memory -/

def StoresTo (c : Config σ) (i : Instruction) (next x : Short) : Prop :=
  ∃ (m : Addressing) (rest value address : List Byte) (a : Short), i.op = m.store ∧
    (c.selected i).data = rest ++ value ++ address ∧ value.length = i.mode.width.size ∧
    m.Refers next address a ∧ i.mode.width.Covers a x

/-- Among the accesses of the instruction at `pc` is one in which the device changes memory at `x`. -/
def DeviceWrites (dev : Device σ) (c : Config σ) (pc x : Short) : Prop :=
  ∃ done access rest, c.accesses pc = done ++ access :: rest ∧
    (access.perform dev (c.midway dev pc done)).machine.ram.read x ≠
      (c.midway dev pc done).machine.ram.read x

theorem ram_pushCells (c : Config σ) (r : Bool) (cells : List Cell) :
    (c.pushCells r cells).2.machine.ram = c.machine.ram := by
  rw [pushCells_eq, ram_setStack]

theorem ram_act (dev : Device σ) (c : Config σ) (mode : Mode) (next : Short) (a : Action)
    (p : Ports) :
    (∃ b v, a = .store b v) ∨ (c.act dev mode next a).2.machine.ram =
      ((a.accesses mode.width p).foldl (Access.perform dev) c).machine.ram := by
  obtain ⟨w, keep, onReturn⟩ := mode
  cases a with
  | stop => exact .inr rfl
  | fail e => exact .inr rfl
  | push cells => exact .inr (c.ram_pushCells onReturn cells)
  | stash cell => exact .inr (c.ram_pushCells (!onReturn) [cell])
  | load a => exact .inr (c.ram_pushCells onReturn [⟨w, c.machine.ram.readCell w a⟩])
  | store b v => exact .inl ⟨b, v, rfl⟩
  | input i =>
      have hpushed := (c.inputCell dev w i).2.ram_pushCells onReturn
        [⟨w, (c.inputCell dev w i).1⟩]
      refine .inr (hpushed.trans ?_)
      cases w <;> rfl
  | output i v =>
      refine .inr ?_
      cases w <;> rfl

theorem exists_perform_ne {accesses : List Access}
    (h : (accesses.foldl (Access.perform dev) c).machine.ram.read x ≠ c.machine.ram.read x) :
    ∃ done access rest, accesses = done ++ access :: rest ∧
      (access.perform dev (done.foldl (Access.perform dev) c)).machine.ram.read x ≠
        (done.foldl (Access.perform dev) c).machine.ram.read x := by
  induction accesses generalizing c with
  | nil => exact absurd rfl h
  | cons access rest ih =>
      by_cases hfirst : (access.perform dev c).machine.ram.read x = c.machine.ram.read x
      · rw [List.foldl_cons, ← hfirst] at h
        obtain ⟨done, later, rest, rfl, hlater⟩ := ih h
        exact ⟨access :: done, later, rest, rfl, hlater⟩
      · exact ⟨[], access, rest, rfl, hfirst⟩

theorem changed_by_step
    (h : (c.step dev pc).2.machine.ram.read x ≠ c.machine.ram.read x) :
    c.StoresTo (c.instruction pc) (pc + 1) x ∨
      ((c.instruction pc).op = .dei ∨ (c.instruction pc).op = .deo) ∧ c.DeviceWrites dev pc x := by
  have haccesses : c.accesses pc =
      if (c.instruction pc).taken ≤ (c.selected (c.instruction pc)).data.length then
        ((c.instruction pc).op.action (c.instruction pc).mode.width
          (c.arguments (c.instruction pc) (pc + 1))).accesses (c.instruction pc).mode.width
          c.machine.ports
      else [] := rfl
  have hmidway (done : List Access) : c.midway dev pc done =
      done.foldl (Access.perform dev) (c.afterOperands (c.instruction pc)) := rfl
  rw [step_eq] at h
  unfold DeviceWrites
  simp only [hmidway]
  -- the instruction was read before the step, so a store over its own byte makes no difference
  generalize c.instruction pc = i at h haccesses ⊢
  by_cases htaken : i.taken ≤ (c.selected i).data.length
  · obtain ⟨t, hafter, -, -⟩ := c.exists_afterOperands i
    have hkept : (c.afterOperands i).machine.ram = c.machine.ram := by
      rw [hafter, ram_setStack]
    rw [if_pos htaken] at haccesses
    rw [execute_of_taken_le dev (pc + 1) htaken] at h
    rcases ram_act dev (c.afterOperands i) i.mode
      (i.op.following i.mode.width (c.arguments i (pc + 1)))
      (i.op.action i.mode.width (c.arguments i (pc + 1))) c.machine.ports with ⟨b, w, hb⟩ | hram
    · obtain ⟨m, hop⟩ := Op.exists_store_of_action hb
      obtain ⟨address, a, v, hrefers, -, hdata, haction⟩ := operands_of_store hop htaken (pc + 1)
      refine .inl ⟨m, _, _, address, a, hop, hdata, Width.length_encode _ _, hrefers, ?_⟩
      refine Decidable.byContradiction fun hnot => h ?_
      rw [haction, ← hkept]
      exact Ram.read_writeCell_of_not_covers _ _ _ _ hnot
    · rw [hram, ← haccesses, ← hkept] at h
      obtain ⟨done, access, rest, hsplit, hchanged⟩ := exists_perform_ne h
      refine .inr ⟨?_, done, access, rest, hsplit, hchanged⟩
      apply Op.isDevice_of_action
      rw [← haccesses, hsplit]
      simp
  · obtain ⟨n, -, hfault⟩ := execute_of_lt_taken dev (pc + 1) (Nat.lt_of_not_le htaken)
    rw [hfault] at h
    refine absurd ?_ h
    dsimp only
    split
    · rfl
    · rw [setHeight_eq, ram_setStack]

/-! ## From a store to a load -/

/--
`d` comes after `c`.  Instructions have been carried out at whatever addresses,
but none has stored to the cell at `a` or has let the device change it.  What
happens between instructions leaves memory alone.
-/
inductive Spares (dev : Device σ) (w : Width) (a : Short) (c : Config σ) : Config σ → Prop
  | refl : Spares dev w a c c
  | step {d : Config σ} (h : Spares dev w a c d) (pc : Short)
      (hstore : ∀ x, w.Covers a x → ¬d.StoresTo (d.instruction pc) (pc + 1) x)
      (hdevice : ∀ x, w.Covers a x → ¬d.DeviceWrites dev pc x) :
      Spares dev w a c (d.step dev pc).2
  | between {d e : Config σ} (h : Spares dev w a c d) (hram : e.machine.ram = d.machine.ram) :
      Spares dev w a c e

theorem Spares.read_eq {w : Width} {a : Short} (h : Spares dev w a c d) (hx : w.Covers a x) :
    d.machine.ram.read x = c.machine.ram.read x := by
  induction h with
  | refl => rfl
  | @step d h pc hstore hdevice ih =>
      refine Eq.trans (Decidable.byContradiction fun hne => ?_) ih
      rcases changed_by_step hne with hstores | ⟨-, hwrites⟩
      · exact hstore x hx hstores
      · exact hdevice x hx hwrites
  | between h hram ih => rw [hram, ih]

/-- Until the cell at `a` is overwritten, every load that is sent there pushes `n`. -/
def ReadsBack (dev : Device σ) (w : Width) (a : Short) (n : Nat) (c : Config σ) : Prop :=
  ∀ d, Spares dev w a c d → ∀ (pc : Short) (m : Addressing) (rest address : List Byte),
    let i := d.instruction pc
    i.op = m.load → i.mode.width = w → (d.selected i).data = rest ++ address →
    m.Refers (pc + 1) address a → (∀ e, (d.step dev pc).1 ≠ .fault e) →
    ((d.step dev pc).2.selected i).data =
      (if i.mode.keep then rest ++ address else rest) ++ w.encode n

theorem readsBack_of_readBytes {w : Width} {a : Short} {n : Nat}
    (h : c.machine.ram.readBytes a w.size = w.encode n) : ReadsBack dev w a n c := by
  intro d hspares pc m rest address i hop hw hdata hrefers hok
  rw [step_eq] at hok ⊢
  obtain ⟨-, a', ⟨rest', address', hdata', hrefers', hpushed⟩, -, -⟩ := loaded_of_ok hop hok
  have hsplit : rest ++ address = rest' ++ address' := hdata.symm.trans hdata'
  have hlength : address.length = address'.length := hrefers.length_eq.trans hrefers'.length_eq.symm
  obtain ⟨rfl, rfl⟩ := List.append_inj' hsplit hlength
  obtain rfl := hrefers.unique hrefers'
  have hbytes : d.machine.ram.readBytes a w.size = c.machine.ram.readBytes a w.size :=
    Ram.readBytes_congr fun x hx => hspares.read_eq hx
  rw [hw, hbytes, h, hdata] at hpushed
  exact hpushed

/--
A store that does not fault writes its value at the effective address, high byte
first, and no other byte of memory; a load that does not fault pushes what is
at the effective address.  Whichever way the address is given, a load reads back
what was stored until the cell is overwritten.  Memory changes only where a
store is sent to, or where the device changes it in answer to a read or a write
of a port.  The instruction is the one that the bits of its byte give.
-/
theorem loads_read_back (dev : Device σ) (c : Config σ) (pc : Short) :
    let i := c.instruction pc
    i.HasByte (c.machine.ram.read pc) ∧
      (∀ m : Addressing, i.op = m.store → (∀ e, (c.step dev pc).1 ≠ .fault e) →
      (c.step dev pc).1 = .next (pc + 1) ∧
        ∃ a n, Stored c i (pc + 1) m a n (c.step dev pc).2 ∧
          ReadsBack dev i.mode.width a n (c.step dev pc).2) ∧
      (∀ m : Addressing, i.op = m.load → (∀ e, (c.step dev pc).1 ≠ .fault e) →
        (c.step dev pc).1 = .next (pc + 1) ∧ ∃ a, Loaded c i (pc + 1) m a (c.step dev pc).2) ∧
      ∀ x, (c.step dev pc).2.machine.ram.read x ≠ c.machine.ram.read x →
        c.StoresTo i (pc + 1) x ∨ (i.op = .dei ∨ i.op = .deo) ∧ c.DeviceWrites dev pc x := by
  intro i
  refine ⟨Instruction.hasByte_decode _, ?_, ?_, fun x => changed_by_step⟩
  · intro m hop hok
    rw [step_eq] at hok ⊢
    obtain ⟨hnext, a, n, hstored⟩ := stored_of_ok hop hok
    exact ⟨hnext, a, n, hstored, readsBack_of_readBytes hstored.written⟩
  · intro m hop hok
    rw [step_eq] at hok ⊢
    exact loaded_of_ok hop hok

theorem loads_read_back_wrapped :
    ∃ c : Config Unit, c.machine.wst.data = [0xed, 0x12, 0x34, 0xff, 0xff] ∧
      (c.instruction 0x0010).op = .sta ∧ (∀ e, (c.step .inert 0x0010).1 ≠ .fault e) ∧
      (c.step .inert 0x0010).2.machine.ram.readBytes 0xffff 2 = [0x12, 0x34] ∧
      ((c.step .inert 0x0010).2.instruction 0x0011).op = .ldr ∧
      ((c.step .inert 0x0010).2.step .inert 0x0011).2.machine.wst.data = [0x12, 0x34] := by
  let c : Config Unit :=
    ⟨{ Machine.fresh with
        ram := (Ram.zero.write 0x0010 0x35).write 0x0011 0x32
        wst := (Stack.empty.pushBytes [0xed, 0x12, 0x34, 0xff, 0xff]).2 }, ()⟩
  have hstore : c.instruction 0x0010 = ⟨.sta, ⟨.short, false, false⟩⟩ := by
    have hread : c.machine.ram.read 0x0010 = 0x35 := by simp [c, Ram.read_write]
    rw [instruction, hread]
    rfl
  have hok : ∀ e, (c.step .inert 0x0010).1 ≠ .fault e := by
    intro e
    rw [step_eq, hstore]
    exact Outcome.noConfusion
  obtain ⟨-, a, n, hstored, hreads⟩ :=
    (loads_read_back .inert c 0x0010).2.1 .absolute (congrArg Instruction.op hstore) hok
  rw [hstore] at hstored hreads
  obtain ⟨rest, address, hdata, hrefers, hrest⟩ := hstored.stack
  cases hrefers with
  | @absolute hi lo _ ha =>
      have hsplit : [0xed] ++ [0x12, 0x34] ++ [0xff, 0xff] =
          rest ++ Width.short.encode n ++ [hi, lo] := hdata
      obtain ⟨hbelow, haddress⟩ := List.append_inj' hsplit rfl
      obtain ⟨rfl, hvalue⟩ := List.append_inj' hbelow rfl
      obtain ⟨rfl, rfl⟩ : 0xff = hi ∧ 0xff = lo := by simpa using haddress
      obtain rfl : a = 0xffff := UInt16.toNat_inj.mp ha
      have hread : (c.step .inert 0x0010).2.machine.ram.read 0x0011 = 0x32 :=
        (hstored.elsewhere 0x0011 (by decide)).trans (Ram.read_write_self ..)
      have hload : (c.step .inert 0x0010).2.instruction 0x0011 =
          ⟨.ldr, ⟨.short, false, false⟩⟩ := by
        rw [instruction, hread]
        rfl
      have hokLoad : ∀ e, ((c.step .inert 0x0010).2.step .inert 0x0011).1 ≠ .fault e := by
        intro e
        rw [step_eq, hload, step_eq .inert c, hstore]
        exact Outcome.noConfusion
      have hpushed := hreads _ .refl 0x0011 .relative [] [0xed]
      rw [hload] at hpushed
      have hfound := hpushed rfl rfl hrest (.relative (by decide)) hokLoad
      rw [← hvalue] at hfound
      refine ⟨c, rfl, congrArg Instruction.op hstore, hok, ?_, congrArg Instruction.op hload, hfound⟩
      exact hstored.written.trans hvalue.symm

end Config

end StackComputer
