import StackComputer.Proofs.Machine.Execution
import StackComputer.Proofs.Semantics.Encoding
import StackComputer.Proofs.Semantics.Rules

/-!
# The base modes follow the rules

An instruction of the base modes keeps nothing and works on the working stack.
If it does not fault, then its operation's rule says what it does.  Which
operation that is, and of which width, the bits of its byte say.
-/

namespace StackComputer

/-! ## Addresses -/

namespace Rule

theorem next_eq_goto {t : Short} {n : Nat} (h : t.toNat = n % 65536) :
    Outcome.next t = goto n := by
  have ht : t = .ofNat (n % 65536) := by
    apply UInt16.toNat_inj.mp
    rw [UInt16.toNat_ofNat', h]
    omega
  rw [goto, ht]

theorem next_add_two (next : Short) : Outcome.next (next + 2) = goto (next.toNat + 2) :=
  next_eq_goto (UInt16.toNat_add next 2)

theorem next_inline (next : Short) (hi lo : Byte) :
    Outcome.next (next + 2 + .ofBytes hi lo) = inlineJump next hi lo := by
  apply next_eq_goto
  rw [UInt16.toNat_add, UInt16.toNat_add, Short.toNat_ofBytes]
  change ((next.toNat + 2) % 65536 + _) % 65536 = _
  omega

theorem next_jumpTarget {w : Width} {a : Short} (ha : a.toNat < w.modulus) (next : Short) :
    Outcome.next (jumpTarget w next a) = jump w next a.toNat := by
  cases w with
  | short => exact next_eq_goto (Nat.mod_eq_of_lt a.toNat_lt).symm
  | byte =>
      have hlt : a.toNat < 256 := ha
      have hlo : (Short.lo a).toNat = a.toNat := by
        rw [Short.toNat_lo]
        omega
      rw [jumpTarget, Byte.signExtend, jump]
      simp only [UInt8.lt_iff_toNat_lt, hlo]
      change Outcome.next (next + if a.toNat < 128 then _ else _) = _
      split
      · apply next_eq_goto
        rw [UInt16.toNat_add, UInt8.toNat_toUInt16, hlo]
      · apply next_eq_goto
        rw [UInt16.toNat_add, UInt16.toNat_sub, UInt8.toNat_toUInt16, hlo]
        change (next.toNat + (65536 - 256 + a.toNat) % 65536) % 65536 = _
        omega

end Rule

/-! ## Numbers -/

namespace Op

variable {w : Width} {x : Arguments}

theorem mod_mod_modulus (w : Width) (n : Nat) : n % 65536 % w.modulus = n % w.modulus :=
  Nat.mod_mod_of_dvd n w.modulus_dvd

theorem action_arithmetic {op : Op} {f : Nat → Nat → Nat}
    (hf : op.arithmetic? w.modulus = some f) (hsecond : x.second.toNat < w.modulus)
    (hfirst : x.first.toNat < w.modulus) (hdiv : op = .div → x.first.toNat ≠ 0) :
    ∃ v : Short, op.action w x = .push [⟨w, v⟩] ∧
      v.toNat % w.modulus = f x.second.toNat x.first.toNat % w.modulus := by
  have hle : w.modulus ≤ 65536 := Nat.le_of_dvd (by omega) w.modulus_dvd
  cases op with
  | add =>
      obtain rfl := Option.some.inj hf
      refine ⟨_, rfl, ?_⟩
      rw [UInt16.toNat_add, mod_mod_modulus, Nat.mod_mod]
  | sub =>
      obtain rfl := Option.some.inj hf
      refine ⟨_, rfl, ?_⟩
      rw [UInt16.toNat_sub, mod_mod_modulus, Nat.mod_mod]
      cases w with
      | byte =>
          change (65536 - x.first.toNat + x.second.toNat) % 256 =
            (x.second.toNat + 256 - x.first.toNat) % 256
          change x.first.toNat < 256 at hfirst
          omega
      | short =>
          change (65536 - x.first.toNat + x.second.toNat) % 65536 =
            (x.second.toNat + 65536 - x.first.toNat) % 65536
          omega
  | mul =>
      obtain rfl := Option.some.inj hf
      refine ⟨_, rfl, ?_⟩
      rw [UInt16.toNat_mul, mod_mod_modulus, Nat.mod_mod]
  | div =>
      obtain rfl := Option.some.inj hf
      have hne : x.first ≠ 0 := by
        intro h
        exact hdiv rfl (congrArg UInt16.toNat h)
      refine ⟨x.second / x.first, if_neg hne, ?_⟩
      rw [UInt16.toNat_div]
  | and =>
      obtain rfl := Option.some.inj hf
      refine ⟨_, rfl, ?_⟩
      rw [UInt16.toNat_and]
  | ora =>
      obtain rfl := Option.some.inj hf
      refine ⟨_, rfl, ?_⟩
      rw [UInt16.toNat_or]
  | eor =>
      obtain rfl := Option.some.inj hf
      refine ⟨_, rfl, ?_⟩
      rw [UInt16.toNat_xor]
  | _ => contradiction

theorem beq_eq_decide_toNat (a b : Short) : (a == b) = decide (a.toNat = b.toNat) := by
  rw [Bool.eq_iff_iff, beq_iff_eq, decide_eq_true_iff, UInt16.toNat_inj]

theorem action_comparison {op : Op} {p : Nat → Nat → Bool} (hp : op.comparison? = some p) :
    op.action w x = .push [.ofBool (p x.second.toNat x.first.toNat)] := by
  cases op with
  | equ =>
      obtain rfl := Option.some.inj hp
      simp only [action, beq_eq_decide_toNat]
  | neq =>
      obtain rfl := Option.some.inj hp
      simp only [action, bne, beq_eq_decide_toNat, ne_eq, decide_not]
  | gth =>
      obtain rfl := Option.some.inj hp
      simp only [action, UInt16.lt_iff_toNat_lt, gt_iff_lt]
  | lth =>
      obtain rfl := Option.some.inj hp
      simp only [action, UInt16.lt_iff_toNat_lt]
  | _ => contradiction

theorem toNat_shift (v amount : Short) (hamount : amount.toNat < 256) :
    (shift v amount).toNat =
      (v.toNat >>> (amount.toNat % 16)) <<< (amount.toNat / 16) % 65536 := by
  have hright : (amount % 16).toNat = amount.toNat % 16 := UInt16.toNat_mod amount 16
  have hleft : (amount / 16).toNat = amount.toNat / 16 := UInt16.toNat_div amount 16
  have hlt : amount.toNat / 16 % 16 = amount.toNat / 16 := by omega
  rw [shift, UInt16.toNat_shiftLeft, UInt16.toNat_shiftRight, hright, hleft, Nat.mod_mod, hlt]

end Op

/-! ## Operands and results -/

namespace Action

def pushed : Action → List Cell
  | .push cells => cells
  | _ => []

def stashed : Action → List Cell
  | .stash cell => [cell]
  | _ => []

end Action

namespace Cell

variable {w w₁ w₂ w₃ : Width} {cells : List Cell}

theorem exists_of_map_width_one (h : cells.map width = [w]) (hr : ∀ c ∈ cells, c.InRange) :
    ∃ a : Short, cells = [⟨w, a⟩] ∧ a.toNat < w.modulus := by
  match cells, h with
  | [⟨_, a⟩], rfl => exact ⟨a, rfl, hr _ (.head _)⟩

theorem exists_of_map_width_two (h : cells.map width = [w₁, w₂])
    (hr : ∀ c ∈ cells, c.InRange) :
    ∃ b a : Short, cells = [⟨w₁, b⟩, ⟨w₂, a⟩] ∧ b.toNat < w₁.modulus ∧ a.toNat < w₂.modulus := by
  match cells, h with
  | [⟨_, b⟩, ⟨_, a⟩], rfl => exact ⟨b, a, rfl, hr _ (.head _), hr _ (.tail _ (.head _))⟩

theorem exists_of_map_width_three (h : cells.map width = [w₁, w₂, w₃])
    (hr : ∀ c ∈ cells, c.InRange) :
    ∃ c b a : Short, cells = [⟨w₁, c⟩, ⟨w₂, b⟩, ⟨w₃, a⟩] ∧ c.toNat < w₁.modulus ∧
      b.toNat < w₂.modulus ∧ a.toNat < w₃.modulus := by
  match cells, h with
  | [⟨_, c⟩, ⟨_, b⟩, ⟨_, a⟩], rfl =>
      exact ⟨c, b, a, rfl, hr _ (.head _), hr _ (.tail _ (.head _)),
        hr _ (.tail _ (.tail _ (.head _)))⟩

theorem encode_byte_toNat {v : Short} (hv : v.toNat < 256) :
    ∃ b : Byte, Width.byte.encode v.toNat = [b] ∧ b.toNat = v.toNat := by
  refine ⟨.ofNat v.toNat, rfl, ?_⟩
  rw [UInt8.toNat_ofNat']
  exact Nat.mod_eq_of_lt hv

theorem encode_condition {v : Short} (hv : v.toNat < 256) (hne : v ≠ 0) :
    ∃ condition : Byte, Width.byte.encode v.toNat = [condition] ∧ condition ≠ 0 := by
  obtain ⟨b, hbyte, htoNat⟩ := encode_byte_toNat hv
  refine ⟨b, hbyte, ?_⟩
  rintro rfl
  exact hne (UInt16.toNat_inj.mp htoNat.symm)

end Cell

namespace Rule

variable {w : Width} {next : Short} {hi lo : Byte} {cells : List Cell}

def argumentsOf (next : Short) (hi lo : Byte) (cells : List Cell) : Arguments :=
  .ofList next (.ofBytes hi lo) (cells.map Cell.value)

@[simp] theorem next_argumentsOf : (argumentsOf next hi lo cells).next = next := rfl

@[simp] theorem inlined_argumentsOf :
    (argumentsOf next hi lo cells).inlined = .ofBytes hi lo := rfl

@[simp] theorem first_argumentsOf (c : Cell) :
    (argumentsOf next hi lo (c :: cells)).first = c.value := rfl

@[simp] theorem second_argumentsOf (b a : Cell) :
    (argumentsOf next hi lo (b :: a :: cells)).second = a.value := rfl

@[simp] theorem third_argumentsOf (c b a : Cell) :
    (argumentsOf next hi lo (c :: b :: a :: cells)).third = a.value := rfl

/-- By the tables, an operation does to its operands what its rule says. -/
def Holds (w : Width) (next : Short) (hi lo : Byte) (op : Op) (cells : List Cell) : Prop :=
  let x := argumentsOf next hi lo cells
  Rule w next hi lo op (Cell.stacked cells) ((op.action w x).pushed.flatMap Cell.bytes)
    ((op.action w x).stashed.flatMap Cell.bytes)
    (if op = .brk then .stop else .next (op.following w x))

theorem holds_of_push {op : Op} {left : List Cell} {o : Outcome} (hbrk : op ≠ .brk)
    (haction : op.action w (argumentsOf next hi lo cells) = .push left)
    (hout : .next (op.following w (argumentsOf next hi lo cells)) = o)
    (h : Rule w next hi lo op (Cell.stacked cells) (left.flatMap Cell.bytes) [] o) :
    Holds w next hi lo op cells := by
  unfold Holds
  dsimp only
  rw [haction, if_neg hbrk, hout]
  exact h

theorem holds_of_push_next {op : Op} {left : List Cell} (hbrk : op ≠ .brk)
    (haction : op.action w (argumentsOf next hi lo cells) = .push left)
    (hnext : op.following w (argumentsOf next hi lo cells) = next)
    (h : Rule w next hi lo op (Cell.stacked cells) (left.flatMap Cell.bytes) [] (.next next)) :
    Holds w next hi lo op cells :=
  holds_of_push hbrk haction (congrArg Outcome.next hnext) h

theorem holds_of_stash {op : Op} {cell : Cell} {o : Outcome} (hbrk : op ≠ .brk)
    (haction : op.action w (argumentsOf next hi lo cells) = .stash cell)
    (hout : .next (op.following w (argumentsOf next hi lo cells)) = o)
    (h : Rule w next hi lo op (Cell.stacked cells) [] cell.bytes o) :
    Holds w next hi lo op cells := by
  unfold Holds
  dsimp only
  rw [haction, if_neg hbrk, hout]
  simpa [Action.pushed, Action.stashed] using h

theorem holds_arithmetic {op : Op} {f : Nat → Nat → Nat}
    (hf : op.arithmetic? w.modulus = some f) (hwidths : cells.map Cell.width = [w, w])
    (hr : ∀ c ∈ cells, c.InRange) (hbrk : op ≠ .brk)
    (hnext : ∀ x, op.following w x = x.next)
    (hfail : ∀ e, op.action w (argumentsOf next hi lo cells) ≠ .fail e) :
    Holds w next hi lo op cells := by
  obtain ⟨b, a, rfl, hb, ha⟩ := Cell.exists_of_map_width_two hwidths hr
  have hdiv : op = .div → b.toNat ≠ 0 := by
    intro hop hzero
    have hbzero : b = 0 := UInt16.toNat_inj.mp hzero
    subst hop hbzero
    exact hfail .divideByZero rfl
  obtain ⟨v, hv, hmod⟩ := Op.action_arithmetic (x := argumentsOf next hi lo [⟨w, b⟩, ⟨w, a⟩])
    hf ha hb hdiv
  have hbytes : w.encode v.toNat = w.encode (f a.toNat b.toNat) := Width.encode_congr hmod
  have hrule : Rule w next hi lo op _ _ _ _ := .arithmetic hf ⟨a.toNat, ha⟩ ⟨b.toNat, hb⟩ hdiv
  refine holds_of_push_next hbrk hv (hnext _) ?_
  simpa [hbytes] using hrule

theorem holds_comparison {op : Op} {p : Nat → Nat → Bool} (hp : op.comparison? = some p)
    (hwidths : cells.map Cell.width = [w, w]) (hr : ∀ c ∈ cells, c.InRange) (hbrk : op ≠ .brk)
    (hnext : ∀ x, op.following w x = x.next) : Holds w next hi lo op cells := by
  obtain ⟨b, a, rfl, hb, ha⟩ := Cell.exists_of_map_width_two hwidths hr
  have hbyte : (Cell.ofBool (p a.toNat b.toNat)).bytes = [if p a.toNat b.toNat then 1 else 0] := by
    cases p a.toNat b.toNat <;> rfl
  have hrule : Rule w next hi lo op _ _ _ _ := .comparison hp ⟨a.toNat, ha⟩ ⟨b.toNat, hb⟩
  refine holds_of_push_next hbrk (Op.action_comparison hp) (hnext _) ?_
  rw [List.flatMap_cons, List.flatMap_nil, List.append_nil]
  change Rule w next hi lo op _ (Cell.ofBool (p a.toNat b.toNat)).bytes [] _
  rw [hbyte]
  simpa using hrule

theorem holds_jci (hwidths : cells.map Cell.width = [.byte]) (hr : ∀ c ∈ cells, c.InRange) :
    Holds w next hi lo .jci cells := by
  obtain ⟨v, rfl, hv⟩ := Cell.exists_of_map_width_one hwidths hr
  by_cases hzero : v = 0
  · subst hzero
    refine holds_of_push (by decide) rfl (next_add_two next) ?_
    exact .jci_skip
  · obtain ⟨condition, hbyte, hcondition⟩ := Cell.encode_condition hv hzero
    have hout : Outcome.next (Op.following w (argumentsOf next hi lo [⟨.byte, v⟩]) .jci) =
        inlineJump next hi lo := by
      rw [Op.following, first_argumentsOf, if_neg hzero]
      exact next_inline next hi lo
    refine holds_of_push (by decide) rfl hout ?_
    simpa [hbyte] using Rule.jci_jump hcondition

theorem holds_jsi : Holds w next hi lo .jsi [] := by
  have hreturn : Width.short.encode (next + 2).toNat = Width.short.encode (next.toNat + 2) := by
    apply Width.encode_congr
    rw [UInt16.toNat_add]
    exact Nat.mod_mod _ _
  refine holds_of_stash (by decide) rfl (next_inline next hi lo) ?_
  simpa [hreturn, -UInt16.toNat_add] using Rule.jsi

theorem holds_lit : Holds w next hi lo .lit [] := by
  cases w with
  | byte =>
      refine holds_of_push (by decide) rfl (next_eq_goto (UInt16.toNat_add next 1)) ?_
      have hbytes : Cell.bytes ⟨.byte, hi.toUInt16⟩ = [hi] := by
        rw [Cell.bytes, Short.lo_toUInt16]
      rw [inlined_argumentsOf, Short.hi_ofBytes, List.flatMap_cons, hbytes]
      exact .lit
  | short =>
      have hbytes : Cell.bytes ⟨.short, .ofBytes hi lo⟩ = [hi, lo] := by
        rw [Cell.bytes, Short.hi_ofBytes, Short.lo_ofBytes]
      refine holds_of_push (by decide) rfl (next_add_two next) ?_
      rw [inlined_argumentsOf, List.flatMap_cons, hbytes]
      exact .lit

theorem holds_inc (hwidths : cells.map Cell.width = [w]) (hr : ∀ c ∈ cells, c.InRange) :
    Holds w next hi lo .inc cells := by
  obtain ⟨a, rfl, ha⟩ := Cell.exists_of_map_width_one hwidths hr
  have hbytes : w.encode (a + 1).toNat = w.encode ((a.toNat + 1) % w.modulus) := by
    apply Width.encode_congr
    rw [UInt16.toNat_add, Op.mod_mod_modulus, Nat.mod_mod]
    rfl
  refine holds_of_push_next (by decide) rfl rfl ?_
  simpa [hbytes, -UInt16.toNat_add] using Rule.inc ⟨a.toNat, ha⟩

theorem holds_jcn (hwidths : cells.map Cell.width = [w, .byte]) (hr : ∀ c ∈ cells, c.InRange) :
    Holds w next hi lo .jcn cells := by
  obtain ⟨a, v, rfl, ha, hv⟩ := Cell.exists_of_map_width_two hwidths hr
  by_cases hzero : v = 0
  · subst hzero
    refine holds_of_push_next (by decide) rfl rfl ?_
    have hbyte : Width.byte.encode 0 = [0] := rfl
    simpa [hbyte] using Rule.jcn_skip ⟨a.toNat, ha⟩
  · obtain ⟨condition, hbyte, hcondition⟩ := Cell.encode_condition hv hzero
    have hout : Outcome.next
        (Op.following w (argumentsOf next hi lo [⟨w, a⟩, ⟨.byte, v⟩]) .jcn) =
        jump w next a.toNat := by
      rw [Op.following, second_argumentsOf, if_neg hzero]
      exact next_jumpTarget ha next
    refine holds_of_push (by decide) rfl hout ?_
    simpa [hbyte] using Rule.jcn_jump hcondition ⟨a.toNat, ha⟩

theorem holds_sft (hwidths : cells.map Cell.width = [.byte, w]) (hr : ∀ c ∈ cells, c.InRange) :
    Holds w next hi lo .sft cells := by
  obtain ⟨v, a, rfl, hv, ha⟩ := Cell.exists_of_map_width_two hwidths hr
  obtain ⟨s, hbyte, htoNat⟩ := Cell.encode_byte_toNat hv
  have hbytes : w.encode (shift a v).toNat =
      w.encode ((a.toNat >>> (s.toNat % 16)) <<< (s.toNat / 16) % w.modulus) := by
    apply Width.encode_congr
    rw [Op.toNat_shift a v hv, Op.mod_mod_modulus, Nat.mod_mod, htoNat]
  refine holds_of_push_next (by decide) rfl rfl ?_
  simpa [hbytes, hbyte] using Rule.sft ⟨a.toNat, ha⟩ s

theorem holds {op : Op} (hop : op.isMemoryOrDevice = false)
    (hwidths : cells.map Cell.width = op.operands w) (hr : ∀ c ∈ cells, c.InRange)
    (hfail : ∀ e, op.action w (argumentsOf next hi lo cells) ≠ .fail e) :
    Holds w next hi lo op cells := by
  cases op with
  | brk =>
      obtain rfl := List.map_eq_nil_iff.mp hwidths
      exact .brk
  | jci => exact holds_jci hwidths hr
  | jmi =>
      obtain rfl := List.map_eq_nil_iff.mp hwidths
      exact holds_of_push (by decide) rfl (next_inline next hi lo) .jmi
  | jsi =>
      obtain rfl := List.map_eq_nil_iff.mp hwidths
      exact holds_jsi
  | lit =>
      obtain rfl := List.map_eq_nil_iff.mp hwidths
      exact holds_lit
  | inc => exact holds_inc hwidths hr
  | pop =>
      obtain ⟨a, rfl, ha⟩ := Cell.exists_of_map_width_one hwidths hr
      refine holds_of_push_next (by decide) rfl rfl ?_
      simpa using Rule.pop ⟨a.toNat, ha⟩
  | nip =>
      obtain ⟨b, a, rfl, hb, ha⟩ := Cell.exists_of_map_width_two hwidths hr
      refine holds_of_push_next (by decide) rfl rfl ?_
      simpa using Rule.nip ⟨a.toNat, ha⟩ ⟨b.toNat, hb⟩
  | swp =>
      obtain ⟨b, a, rfl, hb, ha⟩ := Cell.exists_of_map_width_two hwidths hr
      refine holds_of_push_next (by decide) rfl rfl ?_
      simpa using Rule.swp ⟨a.toNat, ha⟩ ⟨b.toNat, hb⟩
  | rot =>
      obtain ⟨c, b, a, rfl, hc, hb, ha⟩ := Cell.exists_of_map_width_three hwidths hr
      refine holds_of_push_next (by decide) rfl rfl ?_
      simpa using Rule.rot ⟨a.toNat, ha⟩ ⟨b.toNat, hb⟩ ⟨c.toNat, hc⟩
  | dup =>
      obtain ⟨a, rfl, ha⟩ := Cell.exists_of_map_width_one hwidths hr
      refine holds_of_push_next (by decide) rfl rfl ?_
      simpa using Rule.dup ⟨a.toNat, ha⟩
  | ovr =>
      obtain ⟨b, a, rfl, hb, ha⟩ := Cell.exists_of_map_width_two hwidths hr
      refine holds_of_push_next (by decide) rfl rfl ?_
      simpa using Rule.ovr ⟨a.toNat, ha⟩ ⟨b.toNat, hb⟩
  | jmp =>
      obtain ⟨a, rfl, ha⟩ := Cell.exists_of_map_width_one hwidths hr
      refine holds_of_push (by decide) rfl (next_jumpTarget ha next) ?_
      simpa using Rule.jmp ⟨a.toNat, ha⟩
  | jcn => exact holds_jcn hwidths hr
  | jsr =>
      obtain ⟨a, rfl, ha⟩ := Cell.exists_of_map_width_one hwidths hr
      refine holds_of_stash (by decide) rfl (next_jumpTarget ha next) ?_
      simpa using Rule.jsr ⟨a.toNat, ha⟩
  | sth =>
      obtain ⟨a, rfl, ha⟩ := Cell.exists_of_map_width_one hwidths hr
      refine holds_of_stash (o := .next next) (by decide) rfl rfl ?_
      simpa using Rule.sth ⟨a.toNat, ha⟩
  | sft => exact holds_sft hwidths hr
  | equ => exact holds_comparison rfl hwidths hr (by decide) fun _ => rfl
  | neq => exact holds_comparison rfl hwidths hr (by decide) fun _ => rfl
  | gth => exact holds_comparison rfl hwidths hr (by decide) fun _ => rfl
  | lth => exact holds_comparison rfl hwidths hr (by decide) fun _ => rfl
  | add => exact holds_arithmetic rfl hwidths hr (by decide) (fun _ => rfl) hfail
  | sub => exact holds_arithmetic rfl hwidths hr (by decide) (fun _ => rfl) hfail
  | mul => exact holds_arithmetic rfl hwidths hr (by decide) (fun _ => rfl) hfail
  | div => exact holds_arithmetic rfl hwidths hr (by decide) (fun _ => rfl) hfail
  | and => exact holds_arithmetic rfl hwidths hr (by decide) (fun _ => rfl) hfail
  | ora => exact holds_arithmetic rfl hwidths hr (by decide) (fun _ => rfl) hfail
  | eor => exact holds_arithmetic rfl hwidths hr (by decide) (fun _ => rfl) hfail
  | _ => contradiction

end Rule

/-! ## The processor -/

theorem Op.action_cases {op : Op} (hop : op.isMemoryOrDevice = false) (w : Width)
    (x : Arguments) :
    op = .brk ∧ op.action w x = .stop ∨
      op ≠ .brk ∧ ((∃ e, op.action w x = .fail e) ∨ (∃ cells, op.action w x = .push cells) ∨
        ∃ cell, op.action w x = .stash cell) := by
  cases op with
  | brk => exact .inl ⟨rfl, rfl⟩
  | div =>
      refine .inr ⟨by decide, ?_⟩
      by_cases hzero : x.first = 0
      · exact .inl ⟨.divideByZero, if_pos hzero⟩
      · exact .inr (.inl ⟨[⟨w, x.second / x.first⟩], if_neg hzero⟩)
  | jsi => exact .inr ⟨by decide, .inr (.inr ⟨_, rfl⟩)⟩
  | jsr => exact .inr ⟨by decide, .inr (.inr ⟨_, rfl⟩)⟩
  | sth => exact .inr ⟨by decide, .inr (.inr ⟨_, rfl⟩)⟩
  | ldz | stz | ldr | str | lda | sta | dei | deo => contradiction
  | _ => exact .inr ⟨by decide, .inr (.inl ⟨_, rfl⟩)⟩

/-- The instructions of the base modes that stay on the stacks. -/
structure Instruction.IsBase (i : Instruction) : Prop where
  keep : i.mode.keep = false
  onReturn : i.mode.onReturn = false
  op : i.op.isMemoryOrDevice = false

namespace Config

variable {σ : Type}

/-- What a rule says about two configurations, one before and one after an instruction. -/
structure Obeys (c d : Config σ) (i : Instruction) (next : Short) (out : Outcome) : Prop where
  store : d.SameStore c
  rule : ∃ rest taken left stashed,
    Rule i.mode.width next (c.machine.ram.read next) (c.machine.ram.read (next + 1)) i.op
      taken left stashed out ∧
    c.machine.wst.data = rest ++ taken ∧ d.machine.wst.data = rest ++ left ∧
    d.machine.rst.data = c.machine.rst.data ++ stashed

theorem pushCells_of_ofPush {c : Config σ} {r : Bool} {cells : List Cell} {next : Short}
    (hok : ∀ e, Outcome.ofPush next (c.pushCells r cells).1 ≠ .fault e) :
    ∃ t, c.pushCells r cells = (.ok (), c.setStack r t) ∧
      t.data = (c.machine.stack r).data ++ cells.flatMap Cell.bytes := by
  rw [pushCells_eq] at hok ⊢
  by_cases hroom : (c.machine.stack r).data.length + (cells.flatMap Cell.bytes).length ≤ 255
  · obtain ⟨t, ht, hdata⟩ := Stack.pushCells_of_le hroom
    rw [ht]
    exact ⟨t, rfl, hdata⟩
  · have hfull := Stack.pushCells_of_lt (Nat.lt_of_not_le hroom)
    dsimp only at hok
    rw [hfull] at hok
    exact absurd rfl (hok .overflow)

theorem rule_of_taken_le {c : Config σ} {i : Instruction} (hi : i.IsBase) {next : Short}
    (htaken : i.taken ≤ (c.selected i).data.length)
    (hfail : ∀ e, i.op.action i.mode.width (c.arguments i next) ≠ .fail e) :
    ∃ rest taken, c.machine.wst.data = rest ++ taken ∧
      ((c.selected i).setHeight ((c.selected i).height - i.taken)).data = rest ∧
      Rule i.mode.width next (c.machine.ram.read next) (c.machine.ram.read (next + 1)) i.op taken
        ((i.op.action i.mode.width (c.arguments i next)).pushed.flatMap Cell.bytes)
        ((i.op.action i.mode.width (c.arguments i next)).stashed.flatMap Cell.bytes)
        (if i.op = .brk then .stop
          else .next (i.op.following i.mode.width (c.arguments i next))) := by
  have hdata := data_selected htaken
  have hselected : (c.selected i).data = c.machine.wst.data := by
    rw [selected, hi.onReturn]
    rfl
  have hholds : Rule.Holds i.mode.width next (c.machine.ram.read next)
      (c.machine.ram.read (next + 1)) i.op (c.operandCells i) :=
    Rule.holds hi.op map_width_operandCells inRange_operandCells hfail
  exact ⟨_, _, hselected ▸ hdata, data_setHeight_taken, hholds⟩

theorem execute_obeys (dev : Device σ) {c : Config σ} {i : Instruction} (hi : i.IsBase)
    {next : Short} (hok : ∀ e, (c.execute dev i next).1 ≠ .fault e) :
    c.Obeys (c.execute dev i next).2 i next (c.execute dev i next).1 := by
  by_cases htaken : i.taken ≤ (c.selected i).data.length
  · rw [execute_of_taken_le dev next htaken, afterOperands_of_not_keep hi.keep,
      hi.onReturn] at hok ⊢
    have hfail : ∀ e, i.op.action i.mode.width (c.arguments i next) ≠ .fail e := by
      intro e he
      rw [he] at hok
      exact hok e rfl
    obtain ⟨rest, taken, hdata, hrest, hrule⟩ := rule_of_taken_le hi htaken hfail
    rcases Op.action_cases hi.op i.mode.width (c.arguments i next) with
      ⟨hbrk, ha⟩ | ⟨hbrk, ⟨e, ha⟩ | ⟨cells, ha⟩ | ⟨cell, ha⟩⟩
    · rw [ha, if_pos hbrk] at hrule
      rw [ha]
      refine ⟨sameStore_setStack c false _, rest, taken, _, _, hrule, hdata, ?_, ?_⟩
      · exact hrest.trans (List.append_nil _).symm
      · exact (List.append_nil _).symm
    · exact absurd ha (hfail e)
    · rw [ha, if_neg hbrk] at hrule
      rw [ha, act_push, hi.onReturn] at hok ⊢
      obtain ⟨t, ht, happended⟩ := pushCells_of_ofPush hok
      rw [stack_setStack_self, hrest] at happended
      rw [ht, setStack_setStack]
      refine ⟨sameStore_setStack c false t, rest, taken, _, _, hrule, hdata, happended, ?_⟩
      exact (List.append_nil _).symm
    · rw [ha, if_neg hbrk] at hrule
      rw [ha, act_stash, hi.onReturn] at hok ⊢
      obtain ⟨t, ht, happended⟩ := pushCells_of_ofPush hok
      rw [ht]
      refine ⟨(sameStore_setStack _ true t).trans (sameStore_setStack c false _), rest, taken, _, _,
        hrule, hdata, ?_, happended⟩
      exact hrest.trans (List.append_nil _).symm
  · obtain ⟨n, -, hfault⟩ := execute_of_lt_taken dev next (Nat.lt_of_not_le htaken)
    rw [hfault] at hok
    exact absurd rfl (hok .underflow)

/--
Every byte stands for one instruction.  Wherever the byte is fetched from, that
instruction obeys its rule if it is one of the base modes and does not fault.
-/
theorem step_obeys (dev : Device σ) (c : Config σ) (pc : Short) :
    (∃! i : Instruction, i.HasByte (c.machine.ram.read pc)) ∧
      ∀ i : Instruction, i.HasByte (c.machine.ram.read pc) → i.IsBase →
        (∀ e, (c.step dev pc).1 ≠ .fault e) →
        c.Obeys (c.step dev pc).2 i (pc + 1) (c.step dev pc).1 := by
  refine ⟨Instruction.existsUnique_hasByte _, ?_⟩
  intro i hbyte hi hok
  obtain rfl := Instruction.hasByte_iff.mp hbyte
  exact execute_obeys dev hi hok

/-- The byte `0x18` adds the two bytes on top of the working stack. -/
theorem step_obeys_add :
    ∃ c : Config Unit, c.machine.ram.read 0x0100 = 0x18 ∧ c.machine.wst.data = [1, 2] ∧
      (⟨.add, ⟨.byte, false, false⟩⟩ : Instruction).HasByte 0x18 ∧
      (c.step .inert 0x0100).1 = .next 0x0101 ∧
      (c.step .inert 0x0100).2.machine.wst.data = [3] ∧
      (c.step .inert 0x0100).2.machine.rst.data = [] := by
  let c : Config Unit :=
    ⟨{ Machine.fresh with
        ram := Ram.zero.write 0x0100 0x18
        wst := (Stack.empty.pushBytes [1, 2]).2 }, ()⟩
  have hread : c.machine.ram.read 0x0100 = 0x18 := Ram.read_write_self _ _ _
  have hnumber : Op.add.number ≠ 0 := by decide
  have hbyte : (⟨.add, ⟨.byte, false, false⟩⟩ : Instruction).HasByte 0x18 :=
    .moded (b := 0x18) hnumber rfl
  have hok : ∀ e, (c.step .inert 0x0100).1 ≠ .fault e := by
    intro e
    rw [step, hread]
    exact Outcome.noConfusion
  obtain ⟨-, rest, taken, left, stashed, hrule, hbefore, hafter, hreturn⟩ :=
    (step_obeys .inert c 0x0100).2 _ (hread ▸ hbyte) ⟨rfl, rfl, rfl⟩ hok
  generalize hout : (c.step .inert 0x0100).1 = out at hrule
  -- an addition has the one rule, and its operands are the encodings of two numbers
  cases hrule with
  | comparison hp => exact absurd hp.symm (Option.some_ne_none _)
  | arithmetic hf a b =>
      obtain rfl := Option.some.inj hf
      have hsplit : [] ++ [1, 2] = rest ++ (Width.byte.encode a ++ Width.byte.encode b) := hbefore
      obtain ⟨rfl, htaken⟩ := List.append_inj' hsplit rfl
      have hcells : [1] ++ [2] = Width.byte.encode a ++ Width.byte.encode b := htaken
      obtain ⟨ha, hb⟩ := List.append_inj hcells rfl
      obtain rfl := (Width.encode_inj (w := .byte) (a := (1 : Fin 256))).mp ha
      obtain rfl := (Width.encode_inj (w := .byte) (a := (2 : Fin 256))).mp hb
      exact ⟨c, hread, rfl, hbyte, hout, hafter, hreturn⟩

end Config

end StackComputer
