import StackComputer.Proofs.Host.Paths

/-!
# Sessions

The peripherals outlive the programs that use them: a host may ready them again,
also for another machine.  A session is all that has happened since they were
new, told by the events on the way.
-/

namespace StackComputer

namespace Computer

/--
The peripherals were new, have been readied at least once, and `t` has happened
to them.  Before the first time they may have been used by a machine of any
kind.
-/
inductive Session : List Event → Computer → Prop
  | boot {m : Machine} {t : List Event} {c : Computer} (h : Path ⟨m, .fresh⟩ t c) (m' : Machine)
      (excess : Nat) : Session t (reset excess ⟨m', c.device⟩)
  | again {t : List Event} {c : Computer} (h : Session t c) (m' : Machine) (excess : Nat) :
      Session t (reset excess ⟨m', c.device⟩)
  | move {t e : List Event} {c d : Computer} (h : Session t c) (hmove : Move c e d) :
      Session (t ++ e) d

namespace Session

variable {t : List Event} {c d : Computer}

theorem path (h : Session t c) {t' : List Event} (hpath : Path c t' d) : Session (t ++ t') d := by
  induction hpath with
  | refl => rwa [List.append_nil]
  | move _ hmove ih =>
      rw [← List.append_assoc]
      exact ih.move hmove

theorem wired (h : Session t c) : c.machine.IsWired := by
  induction h with
  | boot _ m' => exact m'.isWired_wire
  | again _ m' => exact m'.isWired_wire
  | move _ hmove ih => exact hmove.wired ih

theorem start (m : Machine) (program : Array Byte) (args : List String) :
    Session [] (Computer.start program args ⟨m, .fresh⟩) := by
  have hnew : Path ⟨m, .fresh⟩ [] ⟨m, .fresh⟩ := .refl
  exact (boot hnew (m.load program) _).path (.of_reset program args ⟨m, .fresh⟩)

theorem restart (h : Session t c) (program : Array Byte) (args : List String) :
    Session t (Computer.start program args c) := by
  simpa using (h.again (c.machine.load program) _).path (.of_reset program args c)

theorem history (h : Session t c) {fuel : Nat} {calls : List HostCall} {t' : List Event}
    (hr : c.history fuel calls = some (t', d)) : Session (t ++ t') d :=
  h.path (Path.refl.history hr)

theorem step (h : Session t c) (pc : Short) :
    Session (t ++ c.writes pc) (c.step Peripherals.device pc).2 :=
  h.path (Path.refl.step pc)

theorem midway (h : Session t c) (pc : Short) (done : List Access) :
    ∃ t', Session (t ++ t') (c.midway Peripherals.device pc done) := by
  obtain ⟨t', hpath⟩ := (Path.refl : Path c [] c).midway pc done
  exact ⟨t', h.path hpath⟩

end Session

end Computer

end StackComputer
