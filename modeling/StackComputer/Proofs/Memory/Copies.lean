import StackComputer.Proofs.Host.Confinement

/-!
# Copies in circular memory

A copy goes byte by byte, so it may read what it has written before.  It then
repeats the bytes at its start with the distance of the two regions as the
period.  This takes a target that begins within the source on the side to which
the copy proceeds; otherwise the copy is as good as one done at once.
-/

namespace StackComputer

namespace Ram

def copyAlong (source target : Nat → Short) : Nat → Ram → Ram
  | 0, r => r
  | n + 1, r =>
      let r := copyAlong source target n r
      r.write (target n) (r.read (source n))

theorem copyAlong_succ (source target : Nat → Short) (n : Nat) (r : Ram) :
    copyAlong source target (n + 1) r =
      copyAlong (fun i => source (i + 1)) (fun i => target (i + 1)) n
        (r.write (target 0) (r.read (source 0))) := by
  induction n with
  | zero => rfl
  | succ n ih => rw [copyAlong, ih, copyAlong]

/-! ## What a copy reads -/

/-- No byte is written twice, and the one read at `i` was written `period` places before, if at all. -/
structure Periodic (source target : Nat → Short) (period n : Nat) : Prop where
  apart : ∀ i j, j < i → i < n → target j ≠ target i
  reads : ∀ i j, j < i → i < n → (source i = target j ↔ i = j + period)

/--
What is left in memory `r'` of `r` after a copy: the targets repeat the bytes of
the first sources, as many as the period says, and nothing else has changed.
Period 0 stands for no repetition.
-/
structure Copied (source target : Nat → Short) (period n : Nat) (r r' : Ram) : Prop where
  targets : ∀ i < n,
    r'.read (target i) = r.read (source (if period = 0 then i else i % period))
  others : ∀ x, (∀ i < n, x ≠ target i) → r'.read x = r.read x

theorem Periodic.copied {source target : Nat → Short} {period n : Nat}
    (h : Periodic source target period n) (r : Ram) :
    Copied source target period n r (copyAlong source target n r) := by
  induction n with
  | zero => exact ⟨nofun, fun _ _ => rfl⟩
  | succ n ih =>
      have hbefore : Copied source target period n r (copyAlong source target n r) :=
        ih ⟨fun i j hji hi => h.apart i j hji (by omega), fun i j hji hi => h.reads i j hji (by omega)⟩
      refine ⟨fun i hi => ?_, fun x hx => ?_⟩
      · rw [copyAlong]
        rcases Nat.lt_succ_iff_lt_or_eq.mp hi with hold | rfl
        · rw [read_write_ne _ _ (h.apart n i hold (Nat.lt_succ_self n)).symm, hbefore.targets i hold]
        · rw [read_write_self]
          by_cases hrepeats : period ≠ 0 ∧ period ≤ i
          · -- the byte was written one period before
            have hsource : source i = target (i - period) :=
              (h.reads i (i - period) (by omega) hi).mpr (by omega)
            rw [hsource, hbefore.targets _ (by omega), if_neg hrepeats.1, if_neg hrepeats.1,
              ← Nat.mod_eq_sub_mod hrepeats.2]
          · have hfirst : (if period = 0 then i else i % period) = i := by
              split
              · rfl
              · exact Nat.mod_eq_of_lt (by omega)
            rw [hfirst]
            refine hbefore.others _ fun j hj hread => ?_
            have := (h.reads i j hj hi).mp hread
            omega
      · rw [copyAlong, read_write_ne _ _ (hx n (Nat.lt_succ_self n)).symm]
        exact hbefore.others x fun i hi => hx i (by omega)

def Moved (n : Nat) (s t : Short) (r r' : Ram) : Prop :=
  ∀ x, r'.read x = if (x - t).toNat < n then r.read (s + (x - t)) else r.read x

theorem Copied.moved {source target : Nat → Short} {period n : Nat} {s t : Short} {r r' : Ram}
    (h : Copied source target period n r r') (hperiod : ¬(0 < period ∧ period < n))
    (hin : ∀ i < n, (target i - t).toNat < n)
    (hall : ∀ x, (x - t).toNat < n → ∃ i < n, target i = x ∧ source i = s + (x - t)) :
    Moved n s t r r' := by
  intro x
  split
  · next hx =>
      obtain ⟨i, hi, rfl, hsource⟩ := hall x hx
      have hsame : (if period = 0 then i else i % period) = i := by
        split
        · rfl
        · exact Nat.mod_eq_of_lt (by omega)
      rw [h.targets i hi, hsame, hsource]
  · next hx =>
      refine h.others x ?_
      rintro i hi rfl
      exact hx (hin i hi)

/-! ## Both directions -/

theorem add_ofNat_succ (a : Short) (i : Nat) : a + .ofNat (i + 1) = a + 1 + .ofNat i := by
  rw [UInt16.ofNat_add, UInt16.add_comm (.ofNat i), ← UInt16.add_assoc]
  rfl

theorem copyUp_eq (n : Nat) (s t : Short) (r : Ram) :
    r.copyUp n s t = r.copyAlong (s + .ofNat ·) (t + .ofNat ·) n := by
  induction n generalizing s t r with
  | zero => rfl
  | succ n ih =>
      have hfirst (a : Short) : a + .ofNat 0 = a := UInt16.add_zero a
      simp only [copyUp, ih, copyAlong_succ, hfirst, add_ofNat_succ]

def fromEnd (a : Short) (n i : Nat) : Short :=
  a + .ofNat (n - 1 - i)

theorem copyDown_eq (n : Nat) (s t : Short) (r : Ram) :
    r.copyDown n s t = r.copyAlong (fromEnd s n) (fromEnd t n) n := by
  induction n generalizing r with
  | zero => rfl
  | succ n ih =>
      have hrest (a : Short) : (fun i => fromEnd a (n + 1) (i + 1)) = fromEnd a n := by
        funext i
        rw [fromEnd, fromEnd, Nat.add_sub_cancel, Nat.sub_add_eq, Nat.sub_right_comm]
      rw [copyDown, ih, copyAlong_succ, hrest, hrest]
      rfl

theorem periodic_up {n : Nat} (hn : n ≤ 65536) (s t : Short) :
    Periodic (s + .ofNat ·) (t + .ofNat ·) (t - s).toNat n := by
  have hs := s.toNat_lt
  have ht := t.toNat_lt
  constructor
  · intro i j hji hi
    rw [Ne, ← UInt16.toNat_inj, UInt16.toNat_add, UInt16.toNat_add, UInt16.toNat_ofNat',
      UInt16.toNat_ofNat']
    omega
  · intro i j hji hi
    rw [← UInt16.toNat_inj, UInt16.toNat_add, UInt16.toNat_add, UInt16.toNat_ofNat',
      UInt16.toNat_ofNat', UInt16.toNat_sub]
    omega

theorem periodic_down {n : Nat} (hn : n ≤ 65536) (s t : Short) :
    Periodic (fromEnd s n) (fromEnd t n) (s - t).toNat n := by
  have hs := s.toNat_lt
  have ht := t.toNat_lt
  constructor
  · intro i j hji hi
    rw [Ne, ← UInt16.toNat_inj, fromEnd, fromEnd, UInt16.toNat_add, UInt16.toNat_add,
      UInt16.toNat_ofNat', UInt16.toNat_ofNat']
    omega
  · intro i j hji hi
    rw [← UInt16.toNat_inj, fromEnd, fromEnd, UInt16.toNat_add, UInt16.toNat_add,
      UInt16.toNat_ofNat', UInt16.toNat_ofNat', UInt16.toNat_sub]
    omega

variable {n : Nat}

theorem copied_up (hn : n ≤ 65536) (s t : Short) (r : Ram) :
    Copied (s + .ofNat ·) (t + .ofNat ·) (t - s).toNat n r (r.copyUp n s t) := by
  rw [copyUp_eq]
  exact (periodic_up hn s t).copied r

theorem copied_down (hn : n ≤ 65536) (s t : Short) (r : Ram) :
    Copied (fromEnd s n) (fromEnd t n) (s - t).toNat n r (r.copyDown n s t) := by
  rw [copyDown_eq]
  exact (periodic_down hn s t).copied r

theorem toNat_add_ofNat_sub {i : Nat} (hi : i < 65536) (a : Short) :
    (a + .ofNat i - a).toNat = i := by
  rw [UInt16.add_comm, UInt16.add_sub_cancel, UInt16.toNat_ofNat']
  exact Nat.mod_eq_of_lt hi

theorem add_ofNat_toNat_sub (a x : Short) : a + .ofNat (x - a).toNat = x := by
  rw [UInt16.ofNat_toNat, UInt16.add_comm, UInt16.sub_add_cancel]

theorem moved_up (hn : n ≤ 65536) {s t : Short} (h : ¬(0 < (t - s).toNat ∧ (t - s).toNat < n))
    (r : Ram) : Moved n s t r (r.copyUp n s t) := by
  apply (copied_up hn s t r).moved h
  · intro i hi
    rwa [toNat_add_ofNat_sub (by omega)]
  · intro x hx
    exact ⟨(x - t).toNat, hx, add_ofNat_toNat_sub t x, by rw [UInt16.ofNat_toNat]⟩

theorem moved_down (hn : n ≤ 65536) {s t : Short} (h : ¬(0 < (s - t).toNat ∧ (s - t).toNat < n))
    (r : Ram) : Moved n s t r (r.copyDown n s t) := by
  apply (copied_down hn s t r).moved h
  · intro i hi
    rw [fromEnd, toNat_add_ofNat_sub (by omega)]
    omega
  · intro x hx
    have hback : n - 1 - (n - 1 - (x - t).toNat) = (x - t).toNat := by omega
    refine ⟨n - 1 - (x - t).toNat, by omega, ?_, ?_⟩
    · rw [fromEnd, hback, add_ofNat_toNat_sub]
    · rw [fromEnd, hback, UInt16.ofNat_toNat]

/-- The distances there and back go around memory once, so both cannot be short. -/
theorem moved_up_or_down (hn : n ≤ 32768) (s t : Short) (r : Ram) :
    Moved n s t r (r.copyUp n s t) ∨ Moved n s t r (r.copyDown n s t) := by
  by_cases hup : 0 < (t - s).toNat ∧ (t - s).toNat < n
  · right
    apply moved_down (by omega)
    have := s.toNat_lt
    have := t.toNat_lt
    rw [UInt16.toNat_sub] at hup ⊢
    omega
  · exact .inl (moved_up (by omega) hup r)

end Ram

/-! ## Copy commands -/

section

variable {ram : Ram} {a : Short} (hsource : ram.readShort (a + 3) = 0)
  (htarget : ram.readShort (a + 7) = 0)
include hsource htarget

theorem Command.run_fetch_up (hcode : ram.read a = 1) :
    (fetch ram a).run ram = ram.copyUp (ram.readShort (a + 1)).toNat (ram.readShort (a + 5))
      (ram.readShort (a + 9)) := by
  have hfetch : fetch ram a = .copyUp (ram.readShort (a + 1)) 0 (ram.readShort (a + 5)) 0
      (ram.readShort (a + 9)) := by
    simp [fetch, hcode, hsource, htarget]
  rw [hfetch]
  rfl

theorem Command.run_fetch_down (hcode : ram.read a = 2) :
    (fetch ram a).run ram = ram.copyDown (ram.readShort (a + 1)).toNat (ram.readShort (a + 5))
      (ram.readShort (a + 9)) := by
  have hfetch : fetch ram a = .copyDown (ram.readShort (a + 1)) 0 (ram.readShort (a + 5)) 0
      (ram.readShort (a + 9)) := by
    simp [fetch, hcode, hsource, htarget]
  rw [hfetch]
  rfl

end

/--
A copy command takes its arguments from memory as it is before the copy, even if
the copy overwrites them.  Where the target begins less than `n` bytes after the
source, going up repeats the first bytes of the source; where it begins less
than `n` bytes before, going down repeats the last ones.  In all other cases the
bytes are moved as if at once.
-/
theorem copies_exact (c : Computer) :
    let ram := c.machine.ram
    let a := c.machine.ports.readShort Port.command
    let n := (ram.readShort (a + 1)).toNat
    let s := ram.readShort (a + 5)
    let t := ram.readShort (a + 9)
    let d := (t - s).toNat
    let e := (s - t).toNat
    let ram' := (Peripherals.output Port.commandRun c).machine.ram
    ram.readShort (a + 3) = 0 → ram.readShort (a + 7) = 0 →
    (ram.read a = 1 →
      (∀ i < n, ram'.read (t + .ofNat i) =
        ram.read (s + .ofNat (if d = 0 then i else i % d))) ∧
      (∀ x, (∀ i < n, x ≠ t + .ofNat i) → ram'.read x = ram.read x) ∧
      (¬(0 < d ∧ d < n) → ram.Moved n s t ram')) ∧
    (ram.read a = 2 →
      (∀ i < n, ram'.read (t + .ofNat (n - 1 - i)) =
        ram.read (s + .ofNat (n - 1 - if e = 0 then i else i % e))) ∧
      (∀ x, (∀ i < n, x ≠ t + .ofNat i) → ram'.read x = ram.read x) ∧
      (¬(0 < e ∧ e < n) → ram.Moved n s t ram')) ∧
    (n ≤ 32768 → ∀ r : Ram, r.Moved n s t (r.copyUp n s t) ∨ r.Moved n s t (r.copyDown n s t)) := by
  intro ram a n s t d e ram' hsource htarget
  have hn : n ≤ 65536 := by
    have := (ram.readShort (a + 1)).toNat_lt
    omega
  have hrun : ram' = (Command.fetch ram a).run ram :=
    congrArg (·.machine.ram) (Peripherals.output_commandRun c)
  refine ⟨fun hcode => ?_, fun hcode => ?_, fun hshort r => Ram.moved_up_or_down hshort s t r⟩
  · have hcopied := Ram.copied_up hn s t ram
    have hmoved := fun h => Ram.moved_up hn (s := s) (t := t) h ram
    rw [← Command.run_fetch_up hsource htarget hcode, ← hrun] at hcopied hmoved
    exact ⟨hcopied.targets, hcopied.others, hmoved⟩
  · have hcopied := Ram.copied_down hn s t ram
    have hmoved := fun h => Ram.moved_down hn (s := s) (t := t) h ram
    rw [← Command.run_fetch_down hsource htarget hcode, ← hrun] at hcopied hmoved
    refine ⟨hcopied.targets, fun x hx => ?_, hmoved⟩
    exact hcopied.others x fun i hi => hx (n - 1 - i) (by omega)

theorem copies_exact_smeared :
    ∃ c : Computer, c.machine.ports.readShort Port.command = 0xfffe ∧
      c.machine.ram.readBytes 0xfffe 11 = [1, 0, 4, 0, 0, 0xff, 0xfe, 0, 0, 0xff, 0xff] ∧
      (Peripherals.output Port.commandRun c).machine.ram.readBytes 0xfffe 6 =
        [1, 1, 1, 1, 1, 0xff] := by
  let ram := Ram.zero.writeBytes 0xfffe [1, 0, 4, 0, 0, 0xff, 0xfe, 0, 0, 0xff, 0xff]
  let ports := Ports.zero.writeShort Port.command 0xfffe
  let c : Computer := ⟨{ Machine.fresh with ram := ram, ports := ports }, .fresh⟩
  let ram' := (Peripherals.output Port.commandRun c).machine.ram
  have hcommand : c.machine.ports.readShort Port.command = 0xfffe := by
    decide +kernel
  have hbytes : ram.readBytes 0xfffe 11 = [1, 0, 4, 0, 0, 0xff, 0xfe, 0, 0, 0xff, 0xff] := by
    simp [ram, Ram.readBytes, Ram.writeBytes, Ram.read_write]
  have hread := hbytes
  simp only [Ram.readBytes, List.cons.injEq, and_true] at hread
  obtain ⟨hcode, hn1, hn0, hsb1, hsb0, hs1, hs0, htb1, htb0, ht1, ht0⟩ := hread
  have hlength : c.machine.ram.readShort (0xfffe + 1) = 4 := congrArg₂ Short.ofBytes hn1 hn0
  have hsource : c.machine.ram.readShort (0xfffe + 5) = 0xfffe := congrArg₂ Short.ofBytes hs1 hs0
  have htarget : c.machine.ram.readShort (0xfffe + 9) = 0xffff := congrArg₂ Short.ofBytes ht1 ht0
  have hcopy := copies_exact c
  simp only [hcommand, hlength, hsource, htarget] at hcopy
  obtain ⟨hup, -, -⟩ :=
    hcopy (congrArg₂ Short.ofBytes hsb1 hsb0) (congrArg₂ Short.ofBytes htb1 htb0)
  obtain ⟨htargets, hothers, -⟩ := hup hcode
  have hfirst : ram'.read 0xfffe = 1 := (hothers 0xfffe (by decide)).trans hcode
  have hsmeared : ∀ i < 4, ram'.read (0xffff + .ofNat i) = 1 := by
    intro i hi
    refine (htargets i hi).trans ?_
    have hdistance : UInt16.toNat (0xffff - 0xfffe) = 1 := rfl
    rw [hdistance, if_neg Nat.one_ne_zero, Nat.mod_one]
    exact hcode
  have hlast : ram'.read 0x0003 = 0xff := (hothers 0x0003 (by decide)).trans hs1
  refine ⟨c, hcommand, hbytes, ?_⟩
  change [ram'.read 0xfffe, ram'.read (0xffff + .ofNat 0), ram'.read (0xffff + .ofNat 1),
    ram'.read (0xffff + .ofNat 2), ram'.read (0xffff + .ofNat 3), ram'.read 0x0003] = _
  simp only [hfirst, hsmeared, hlast, Nat.reduceLT]
end StackComputer
