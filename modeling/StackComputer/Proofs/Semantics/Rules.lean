import StackComputer.Machine.Step
import StackComputer.Proofs.Machine.Cells

/-!
# The rules of the operations

What each operation does, written down with numbers and lists of bytes and
without regard to how it is carried out.  Cells are numbers below the modulus of
their width, stored with the high byte first, and all results are taken modulo
this modulus.  The operations that go to memory or to a device are left out.
-/

namespace StackComputer

/-- The operations that work on more than the stacks. -/
def Op.isMemoryOrDevice : Op → Bool
  | .ldz | .stz | .ldr | .str | .lda | .sta | .dei | .deo => true
  | _ => false

def Op.arithmetic? (modulus : Nat) : Op → Option (Nat → Nat → Nat)
  | .add => some fun a b => (a + b) % modulus
  | .sub => some fun a b => (a + modulus - b) % modulus
  | .mul => some fun a b => a * b % modulus
  | .div => some fun a b => a / b
  | .and => some fun a b => a &&& b
  | .ora => some fun a b => a ||| b
  | .eor => some fun a b => a ^^^ b
  | _ => none

def Op.comparison? : Op → Option (Nat → Nat → Bool)
  | .equ => some fun a b => a = b
  | .neq => some fun a b => a ≠ b
  | .gth => some fun a b => a > b
  | .lth => some fun a b => a < b
  | _ => none

namespace Rule

def goto (n : Nat) : Outcome :=
  .next (.ofNat (n % 65536))

/-- A short is where to go; a byte is how far, backwards from 128 on. -/
def jump (w : Width) (next : Short) (a : Nat) : Outcome :=
  match w with
  | .short => goto a
  | .byte => if a < 128 then goto (next.toNat + a) else goto (next.toNat + 65536 - (256 - a))

def literal (w : Width) (hi lo : Byte) : List Byte :=
  match w with
  | .byte => [hi]
  | .short => [hi, lo]

def inlineJump (next : Short) (hi lo : Byte) : Outcome :=
  goto (next.toNat + 2 + (256 * hi.toNat + lo.toNat))

end Rule

open Rule in
/--
`Rule w next hi lo op taken left stashed outcome`: the operation takes the bytes
`taken` from the top of its stack and leaves `left` in their place, puts
`stashed` on the other stack, and ends in `outcome`.  The address after the
instruction is `next`, and `hi` and `lo` are the bytes found there.
-/
inductive Rule (w : Width) (next : Short) (hi lo : Byte) :
    Op → List Byte → List Byte → List Byte → Outcome → Prop
  | brk : Rule w next hi lo .brk [] [] [] .stop
  | jci_jump {condition : Byte} (h : condition ≠ 0) :
      Rule w next hi lo .jci [condition] [] [] (inlineJump next hi lo)
  | jci_skip : Rule w next hi lo .jci [0] [] [] (goto (next.toNat + 2))
  | jmi : Rule w next hi lo .jmi [] [] [] (inlineJump next hi lo)
  | jsi :
      Rule w next hi lo .jsi [] [] (Width.short.encode (next.toNat + 2)) (inlineJump next hi lo)
  | lit : Rule w next hi lo .lit [] (literal w hi lo) [] (goto (next.toNat + w.size))
  | inc (a : Fin w.modulus) :
      Rule w next hi lo .inc (w.encode a) (w.encode ((a + 1) % w.modulus)) [] (.next next)
  | pop (a : Fin w.modulus) : Rule w next hi lo .pop (w.encode a) [] [] (.next next)
  | nip (a b : Fin w.modulus) :
      Rule w next hi lo .nip (w.encode a ++ w.encode b) (w.encode b) [] (.next next)
  | swp (a b : Fin w.modulus) :
      Rule w next hi lo .swp (w.encode a ++ w.encode b) (w.encode b ++ w.encode a) [] (.next next)
  | rot (a b c : Fin w.modulus) :
      Rule w next hi lo .rot (w.encode a ++ w.encode b ++ w.encode c)
        (w.encode b ++ w.encode c ++ w.encode a) [] (.next next)
  | dup (a : Fin w.modulus) :
      Rule w next hi lo .dup (w.encode a) (w.encode a ++ w.encode a) [] (.next next)
  | ovr (a b : Fin w.modulus) :
      Rule w next hi lo .ovr (w.encode a ++ w.encode b)
        (w.encode a ++ w.encode b ++ w.encode a) [] (.next next)
  | comparison {op : Op} {p : Nat → Nat → Bool} (hp : op.comparison? = some p)
      (a b : Fin w.modulus) :
      Rule w next hi lo op (w.encode a ++ w.encode b) [if p a b then 1 else 0] [] (.next next)
  | arithmetic {op : Op} {f : Nat → Nat → Nat} (hf : op.arithmetic? w.modulus = some f)
      (a b : Fin w.modulus) (hb : op = .div → (b : Nat) ≠ 0) :
      Rule w next hi lo op (w.encode a ++ w.encode b) (w.encode (f a b)) [] (.next next)
  | sft (a : Fin w.modulus) (s : Byte) :
      Rule w next hi lo .sft (w.encode a ++ [s])
        (w.encode (((a : Nat) >>> (s.toNat % 16)) <<< (s.toNat / 16) % w.modulus)) [] (.next next)
  | sth (a : Fin w.modulus) : Rule w next hi lo .sth (w.encode a) [] (w.encode a) (.next next)
  | jmp (a : Fin w.modulus) : Rule w next hi lo .jmp (w.encode a) [] [] (jump w next a)
  | jcn_jump {condition : Byte} (h : condition ≠ 0) (a : Fin w.modulus) :
      Rule w next hi lo .jcn (condition :: w.encode a) [] [] (jump w next a)
  | jcn_skip (a : Fin w.modulus) : Rule w next hi lo .jcn (0 :: w.encode a) [] [] (.next next)
  | jsr (a : Fin w.modulus) :
      Rule w next hi lo .jsr (w.encode a) [] (Width.short.encode next.toNat) (jump w next a)

/-! ## The rules leave nothing open -/

theorem Op.arithmetic?_eq_none {op : Op} (h : op.comparison?.isSome) (modulus : Nat) :
    op.arithmetic? modulus = none := by
  cases op <;> first | rfl | contradiction

theorem Rule.unique {w : Width} {next : Short} {hi lo : Byte} {op : Op}
    {taken left left' stashed stashed' : List Byte} {o o' : Outcome}
    (h : Rule w next hi lo op taken left stashed o)
    (h' : Rule w next hi lo op taken left' stashed' o') :
    left = left' ∧ stashed = stashed' ∧ o = o' := by
  generalize htaken : taken = taken' at h'
  -- two rules for one operation are the same rule, but for the conditional jumps
  cases h <;> cases h' <;> first
    | contradiction
    | exact ⟨rfl, rfl, rfl⟩
    | simp_all [Width.encode_inj, Width.encode_append_inj, Op.arithmetic?_eq_none]

end StackComputer
