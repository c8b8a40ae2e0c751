import StackComputer.Proofs.Machine.Cells

/-!
# Stacks as lists

Seen from outside a stack is a list of at most 255 bytes.  Shorts lie in it high
byte first, so it does not matter whether bytes were pushed one by one or two at
a time.  The one thing a list does not tell is what lies above the top: those
bytes stay, and show again if the height is set back.
-/

namespace StackComputer.Stack

inductive Request where
  | pushByte (v : Byte)
  | pushShort (v : Short)
  | popByte
  | popShort
  | setHeight (n : Nat)
  deriving DecidableEq, Repr

inductive Answer where
  | done
  | byte (v : Byte)
  | short (v : Short)
  deriving DecidableEq, Repr

namespace Request

def onStack : Request → Stack → Except Cause Answer × Stack
  | pushByte v, s => (s.pushByte v).map (Except.map fun _ => .done) id
  | pushShort v, s => (s.pushShort v).map (Except.map fun _ => .done) id
  | popByte, s => s.popByte.map (Except.map .byte) id
  | popShort, s => s.popShort.map (Except.map .short) id
  | setHeight n, s => (.ok .done, s.setHeight n)

/-- The same requests to a list of bytes, bottom first.  Heights are only ever lowered. -/
def onList : Request → List Byte → Except Cause Answer × List Byte
  | pushByte v, l =>
      if l.length + 1 ≤ capacity then (.ok .done, l ++ [v])
      else (.error .overflow, l)
  | pushShort v, l =>
      if l.length + 2 ≤ capacity then
        (.ok .done, l ++ [.ofNat (v.toNat / 256), .ofNat (v.toNat % 256)])
      else (.error .overflow, l)
  | popByte, l =>
      match l.reverse with
      | a :: below => (.ok (.byte a), below.reverse)
      | [] => (.error .underflow, l)
  | popShort, l =>
      match l.reverse with
      | b :: a :: below => (.ok (.short (.ofNat (256 * a.toNat + b.toNat))), below.reverse)
      | _ => (.error .underflow, l)
  | setHeight n, l => (.ok .done, l.take n)

def Fits (l : List Byte) : Request → Prop
  | pushByte _ => l.length + 1 ≤ capacity
  | pushShort _ => l.length + 2 ≤ capacity
  | popByte => 1 ≤ l.length
  | popShort => 2 ≤ l.length
  | setHeight _ => True

def refusal : Request → Cause
  | popByte | popShort => .underflow
  | _ => .overflow

def Lowers (l : List Byte) : Request → Prop
  | setHeight n => n ≤ l.length
  | _ => True

def IsPush : Request → Prop
  | pushByte _ | pushShort _ => True
  | _ => False

def runAll {σ : Type} (step : Request → σ → Except Cause Answer × σ) :
    List Request → σ → List (Except Cause Answer) × σ
  | [], s => ([], s)
  | r :: rs, s =>
      let (answer, s) := step r s
      let (answers, s) := runAll step rs s
      (answer :: answers, s)

def AllLower : List Byte → List Request → Prop
  | _, [] => True
  | l, r :: rs => r.Lowers l ∧ AllLower (r.onList l).2 rs

end Request

variable {s : Stack} {r : Request}

/-! ## One request -/

theorem bytes_byte (v : Byte) : Cell.bytes ⟨.byte, v.toUInt16⟩ = [v] := by
  rw [Cell.bytes, Short.lo_toUInt16]

theorem bytes_short (v : Short) :
    Cell.bytes ⟨.short, v⟩ = [.ofNat (v.toNat / 256), .ofNat (v.toNat % 256)] := by
  have hv := v.toNat_lt
  have hhi : v.hi = .ofNat (v.toNat / 256) := by
    apply UInt8.toNat_inj.mp
    rw [Short.toNat_hi, UInt8.toNat_ofNat']
    omega
  have hlo : v.lo = .ofNat (v.toNat % 256) := by
    apply UInt8.toNat_inj.mp
    rw [Short.toNat_lo, UInt8.toNat_ofNat']
    omega
  rw [Cell.bytes, hhi, hlo]

theorem ofBytes_eq_ofNat (a b : Byte) :
    Short.ofBytes a b = .ofNat (256 * a.toNat + b.toNat) := by
  have ha := a.toNat_lt
  have hb := b.toNat_lt
  apply UInt16.toNat_inj.mp
  rw [Short.toNat_ofBytes, UInt16.toNat_ofNat']
  omega

theorem data_eq_append_bytes {w : Width} (h : w.size ≤ s.height) :
    s.data = (s.setHeight (s.height - w.size)).data ++ Cell.bytes ⟨w, s.cellBelow w s.height⟩ := by
  rw [data_setHeight s (Nat.sub_le _ _), ← s.take_data_cellBelow h (Nat.le_refl _),
    ← s.length_data, List.take_length]

theorem onList_popByte (l : List Byte) (a : Byte) :
    Request.popByte.onList (l ++ [a]) = (.ok (.byte a), l) := by
  simp [Request.onList]

theorem onList_popShort (l : List Byte) (a b : Byte) :
    Request.popShort.onList (l ++ [a, b]) = (.ok (.short (.ofBytes a b)), l) := by
  simp [Request.onList, ofBytes_eq_ofNat]

theorem onStack_of_not_fits (h : ¬r.Fits s.data) : r.onStack s = (.error r.refusal, s) := by
  cases r with
  | pushByte v =>
      have hfull : ¬s.height < 255 := by
        rwa [Request.Fits, length_data] at h
      rw [Request.onStack, pushByte, dif_neg hfull]
      rfl
  | pushShort v =>
      have hfull : ¬s.height + 1 < 255 := by
        rwa [Request.Fits, length_data] at h
      rw [Request.onStack, pushShort, dif_neg hfull]
      rfl
  | popByte =>
      have hempty : s.height < 1 := by
        rwa [Request.Fits, length_data, Nat.not_le] at h
      rw [Request.onStack, popByte, if_pos hempty]
      rfl
  | popShort =>
      have hshort : s.height < 2 := by
        rwa [Request.Fits, length_data, Nat.not_le] at h
      rw [Request.onStack, popShort, if_pos hshort]
      rfl
  | setHeight n => exact absurd trivial h

theorem onList_of_not_fits {l : List Byte} (h : ¬r.Fits l) : r.onList l = (.error r.refusal, l) := by
  cases r with
  | pushByte v => exact if_neg h
  | pushShort v => exact if_neg h
  | popByte =>
      match l, h with
      | [], _ => rfl
      | a :: l, h => exact absurd (Nat.le_add_left 1 l.length) h
  | popShort =>
      match l, h with
      | [], _ => rfl
      | [a], _ => rfl
      | a :: b :: l, h => exact absurd (Nat.le_add_left 2 l.length) h
  | setHeight n => exact absurd trivial h

theorem onStack_of_fits (hfits : r.Fits s.data) (hlow : r.Lowers s.data) :
    (r.onStack s).map id data = r.onList s.data := by
  cases r with
  | pushByte v =>
      have hin : s.data.length + 1 ≤ capacity := hfits
      have hroom : s.height < 255 := s.length_data ▸ hin
      have hdata := s.data_pushByte v hroom
      rw [Request.onList, if_pos hin, ← hdata, Request.onStack, pushByte, dif_pos hroom]
      rfl
  | pushShort v =>
      have hin : s.data.length + 2 ≤ capacity := hfits
      have hroom : s.height + 1 < 255 := s.length_data ▸ hin
      have hdata := s.data_pushShort v hroom
      rw [Request.onList, if_pos hin, ← bytes_short, Cell.bytes, ← hdata, Request.onStack,
        pushShort, dif_pos hroom]
      rfl
  | popByte =>
      have hin : 1 ≤ s.height := s.length_data ▸ hfits
      rw [data_eq_append_bytes (w := .byte) hin, cellBelow, bytes_byte, onList_popByte,
        Request.onStack, popByte, if_neg (Nat.not_lt.mpr hin)]
      rfl
  | popShort =>
      have hin : 2 ≤ s.height := s.length_data ▸ hfits
      rw [data_eq_append_bytes (w := .short) hin, Cell.bytes, onList_popShort, Short.ofBytes_hi_lo,
        Request.onStack, popShort, if_neg (Nat.not_lt.mpr hin)]
      rfl
  | setHeight n =>
      have hle : n ≤ s.height := s.length_data ▸ hlow
      rw [Request.onList, ← data_setHeight s hle]
      rfl

theorem onStack_map_data (h : r.Lowers s.data) :
    (r.onStack s).map id data = r.onList s.data := by
  by_cases hfits : r.Fits s.data
  · exact onStack_of_fits hfits h
  · rw [onStack_of_not_fits hfits, onList_of_not_fits hfits]
    rfl

theorem exists_answer (h : r.Fits s.data) : ∃ answer, (r.onStack s).1 = .ok answer := by
  cases r with
  | pushByte v =>
      have hroom : s.height < 255 := s.length_data ▸ h
      rw [Request.onStack, pushByte, dif_pos hroom]
      exact ⟨.done, rfl⟩
  | pushShort v =>
      have hroom : s.height + 1 < 255 := s.length_data ▸ h
      rw [Request.onStack, pushShort, dif_pos hroom]
      exact ⟨.done, rfl⟩
  | popByte =>
      have hin : ¬s.height < 1 := Nat.not_lt.mpr (s.length_data ▸ h)
      rw [Request.onStack, popByte, if_neg hin]
      exact ⟨.byte _, rfl⟩
  | popShort =>
      have hin : ¬s.height < 2 := Nat.not_lt.mpr (s.length_data ▸ h)
      rw [Request.onStack, popShort, if_neg hin]
      exact ⟨.short _, rfl⟩
  | setHeight n => exact ⟨.done, rfl⟩

theorem peek_eq_getD (s : Stack) (k : Nat) : s.peek k = s.data.reverse.getD k 0 := by
  rw [peek, ← length_data, List.getD_eq_getElem?_getD]
  split
  · next h =>
      have hpos : s.data.length - 1 - k < s.data.length := by omega
      rw [byteAt_eq_getElem s hpos, List.getElem?_reverse h, List.getElem?_eq_getElem hpos]
      rfl
  · next h =>
      rw [List.getElem?_eq_none (by rw [List.length_reverse]; omega)]
      rfl

/-! ## Sequences of requests -/

theorem runAll_cons {σ : Type} (step : Request → σ → Except Cause Answer × σ) (r : Request)
    (rs : List Request) (a : σ) :
    Request.runAll step (r :: rs) a =
      ((step r a).1 :: (Request.runAll step rs (step r a).2).1,
        (Request.runAll step rs (step r a).2).2) := rfl

theorem runAll_map_data {requests : List Request} (h : Request.AllLower s.data requests) :
    (Request.runAll Request.onStack requests s).map id data =
      Request.runAll Request.onList requests s.data := by
  induction requests generalizing s with
  | nil => rfl
  | cons r rs ih =>
      obtain ⟨hr, hrs⟩ := h
      have hstep := onStack_map_data hr
      rw [← hstep] at hrs
      have hrest := ih (s := (r.onStack s).2) hrs
      rw [runAll_cons, runAll_cons, ← hstep]
      exact congrArg (fun run => ((r.onStack s).1 :: run.1, run.2)) hrest

/-- Bytes pushed one by one are popped as a short, and a short as two bytes, the low one first. -/
theorem runAll_mixed (l : List Byte) (h : l.length + 2 ≤ capacity) (v : Short) (a b : Byte) :
    Request.runAll Request.onList [.pushShort v, .popByte, .popByte] l =
        ([.ok .done, .ok (.byte (.ofNat (v.toNat % 256))), .ok (.byte (.ofNat (v.toNat / 256)))],
          l) ∧
      Request.runAll Request.onList [.pushByte a, .pushByte b, .popShort] l =
        ([.ok .done, .ok .done, .ok (.short (.ofNat (256 * a.toNat + b.toNat)))], l) := by
  have hone : l.length + 1 ≤ capacity := Nat.le_of_succ_le h
  have htwo : (l ++ [a]).length + 1 ≤ capacity := by rwa [List.length_append]
  constructor
  · rw [runAll_cons, Request.onList, if_pos h, List.append_cons, runAll_cons, onList_popByte,
      runAll_cons, onList_popByte]
    rfl
  · rw [runAll_cons, Request.onList, if_pos hone, runAll_cons, Request.onList, if_pos htwo,
      ← List.append_cons, runAll_cons, onList_popShort, ofBytes_eq_ofNat]
    rfl

/-! ## Bytes above the top -/

theorem bytes_onStack (h : ¬r.IsPush) : (r.onStack s).2.bytes = s.bytes := by
  cases r with
  | pushByte v => exact absurd trivial h
  | pushShort v => exact absurd trivial h
  | popByte =>
      rw [Request.onStack, popByte]
      split <;> rfl
  | popShort =>
      rw [Request.onStack, popShort]
      split <;> rfl
  | setHeight n => rfl

theorem bytes_runAll {requests : List Request} (h : ∀ r ∈ requests, ¬r.IsPush) :
    (Request.runAll Request.onStack requests s).2.bytes = s.bytes := by
  induction requests generalizing s with
  | nil => rfl
  | cons r rs ih =>
      obtain ⟨hr, hrs⟩ := List.forall_mem_cons.mp h
      exact (ih hrs).trans (bytes_onStack hr)

theorem setHeight_of_bytes {t : Stack} (h : t.bytes = s.bytes) : t.setHeight s.height = s := by
  obtain ⟨bytes, height, hheight⟩ := s
  obtain ⟨_, _, _⟩ := t
  cases h
  simp only [setHeight, Nat.min_eq_left hheight]

/--
A stack answers like a list of bytes with room for 255, whatever is asked of it
and in what order, and shows the same bytes.  It refuses just what does not fit,
and is then left as it was, down to the bytes above the top.  As long as nothing
is pushed, setting the height back brings the whole stack back.
-/
theorem refines_list (s : Stack) :
    (∀ requests, Request.AllLower s.data requests →
      let stack := Request.runAll Request.onStack requests s
      let list := Request.runAll Request.onList requests s.data
      stack.1 = list.1 ∧ stack.2.data = list.2) ∧
    (∀ r : Request, (r.Fits s.data → ∃ answer, (r.onStack s).1 = .ok answer) ∧
      (¬r.Fits s.data → r.onStack s = (.error r.refusal, s))) ∧
    (s.height + 2 ≤ capacity → ∀ (v : Short) (a b : Byte),
      (Request.runAll Request.onStack [.pushShort v, .popByte, .popByte] s).1 =
          [.ok .done, .ok (.byte (.ofNat (v.toNat % 256))),
            .ok (.byte (.ofNat (v.toNat / 256)))] ∧
        (Request.runAll Request.onStack [.pushByte a, .pushByte b, .popShort] s).1 =
          [.ok .done, .ok .done, .ok (.short (.ofNat (256 * a.toNat + b.toNat)))]) ∧
    (∀ k, s.peek k = s.data.reverse.getD k 0) ∧
    ∀ requests, (∀ r ∈ requests, ¬r.IsPush) →
      (Request.runAll Request.onStack requests s).2.setHeight s.height = s := by
  refine ⟨fun requests h => ?_, fun r => ⟨exists_answer, onStack_of_not_fits⟩, fun h v a b => ?_,
    peek_eq_getD s, fun requests h => setHeight_of_bytes (bytes_runAll h)⟩
  · have hrun := runAll_map_data h
    exact ⟨congrArg Prod.fst hrun, congrArg Prod.snd hrun⟩
  · have hroom : s.data.length + 2 ≤ capacity := by rwa [length_data]
    obtain ⟨hshort, hbytes⟩ := runAll_mixed s.data hroom v a b
    have hfree : Request.AllLower s.data [.pushShort v, .popByte, .popByte] :=
      ⟨trivial, trivial, trivial, trivial⟩
    have hfree' : Request.AllLower s.data [.pushByte a, .pushByte b, .popShort] :=
      ⟨trivial, trivial, trivial, trivial⟩
    rw [← runAll_map_data hfree] at hshort
    rw [← runAll_map_data hfree'] at hbytes
    exact ⟨congrArg Prod.fst hshort, congrArg Prod.fst hbytes⟩

theorem refines_list_popped :
    let pushes : List Request := [.pushShort 0x1234, .pushByte 0x56]
    let pops : List Request := [.popByte, .setHeight 1, .popShort, .popByte]
    let s := (Request.runAll Request.onStack pushes empty).2
    let t := Request.runAll Request.onStack pops s
    Request.AllLower empty.data pushes ∧ Request.AllLower s.data pops ∧
      (∀ r ∈ pops, ¬r.IsPush) ∧
      t.1 = [.ok (.byte 0x56), .ok .done, .error .underflow, .ok (.byte 0x12)] ∧
      (t.2.setHeight s.height).data = [0x12, 0x34, 0x56] := by
  intro pushes pops s t
  have hpushes : Request.AllLower empty.data pushes := ⟨trivial, trivial, trivial⟩
  have hdata : s.data = [0x12, 0x34, 0x56] := ((refines_list empty).1 pushes hpushes).2
  have hpops : Request.AllLower s.data pops := by
    rw [hdata]
    exact ⟨trivial, Nat.le_succ 1, trivial, trivial, trivial⟩
  have hquiet : ∀ r ∈ pops, ¬r.IsPush := by simp [pops, Request.IsPush]
  obtain ⟨hrun, -, -, -, hback⟩ := refines_list s
  have hanswers : t.1 = (Request.runAll Request.onList pops s.data).1 := (hrun pops hpops).1
  refine ⟨hpushes, hpops, hquiet, ?_, ?_⟩
  · rw [hanswers, hdata]
    rfl
  · rw [hback pops hquiet, hdata]

end StackComputer.Stack
