import Mathlib.Data.List.Forall2
import StackComputer.Proofs.Host.Calls
import StackComputer.Proofs.Machine.Lockstep

/-!
# Two computers in lockstep

The host makes the same calls to two related computers.  If the relation
survives instructions and what the host does between evaluations, then either
call ends if the other does, and they leave related computers behind.
-/

theorem Option.Rel.map {α β α' β' : Type} {r : α → β → Prop} {s : α' → β' → Prop}
    {f : α → α'} {g : β → β'} {a : Option α} {b : Option β} (h : Option.Rel r a b)
    (hfg : ∀ a b, r a b → s (f a) (g b)) : Option.Rel s (a.map f) (b.map g) := by
  cases h with
  | some h => exact .some (hfg _ _ h)
  | none => exact .none

theorem Option.Rel.mono {α β : Type} {r s : α → β → Prop} {a : Option α} {b : Option β}
    (h : Option.Rel r a b) (hrs : ∀ a b, r a b → s a b) : Option.Rel s a b := by
  cases h with
  | some h => exact .some (hrs _ _ h)
  | none => exact .none

namespace StackComputer

/-- `R` survives all that a call is made of; reports of related computers are related by `Q`. -/
structure Computer.Lockstep (R : Computer → Computer → Prop) (Q : Report → Report → Prop) :
    Prop where
  device : Peripherals.device.Lockstep Peripherals.device R
  halt : ∀ f {c d}, R c d → R (Peripherals.halt f c).2 (Peripherals.halt f d).2
  mapPorts : ∀ f {c d : Computer}, R c d → R (c.mapPorts f) (d.mapPorts f)
  render : ∀ {c d : Computer}, R c d → R c.render d.render
  report : ∀ {c d : Computer}, R c d → Q c.report.1 d.report.1 ∧ R c.report.2 d.report.2

namespace Computer.Lockstep

variable {R : Computer → Computer → Prop} {Q : Report → Report → Prop} {c d : Computer}

theorem evalAt (h : Lockstep R Q) (hR : R c d) (fuel : Nat) (pc : Short) :
    Option.Rel (fun a b => a.1 = b.1 ∧ R a.2 b.2) (c.evalAt fuel pc) (d.evalAt fuel pc) :=
  h.device.eval (fun f _ _ hcd => ⟨rfl, h.halt f hcd⟩) hR fuel pc

theorem evalVector (h : Lockstep R Q) (hR : R c d) (fuel : Nat) (port : Byte) :
    Option.Rel R (c.evalVector fuel port) (d.evalVector fuel port) := by
  rw [Computer.evalVector, Computer.evalVector, h.device.ports hR]
  exact (h.evalAt hR fuel _).map fun _ _ hab => hab.2

theorem deliver (h : Lockstep R Q) (hR : R c d) (fuel : Nat) (e : ConsoleEvent) :
    Option.Rel R (c.deliver fuel e) (d.deliver fuel e) :=
  h.evalVector (h.mapPorts _ hR) fuel Port.consoleVector

theorem deliverAll (h : Lockstep R Q) (hR : R c d) (fuel : Nat) (es : List ConsoleEvent) :
    Option.Rel R (deliverAll fuel es c) (deliverAll fuel es d) := by
  induction es generalizing c d with
  | nil => exact .some hR
  | cons e es ih =>
      have hfirst := h.deliver hR fuel e
      rw [Computer.deliverAll, Computer.deliverAll]
      generalize c.deliver fuel e = left at hfirst
      generalize d.deliver fuel e = right at hfirst
      cases hfirst with
      | some hnext => exact ih hnext
      | none => exact .none

theorem sendArguments (h : Lockstep R Q) (hR : R c d) (fuel : Nat) (args : List String) :
    Option.Rel R (c.sendArguments fuel args) (d.sendArguments fuel args) :=
  (h.deliverAll hR fuel _).map fun _ _ hab => h.mapPorts _ hab

theorem tick (h : Lockstep R Q) (hR : R c d) (fuel : Nat) :
    Option.Rel R (c.tick fuel) (d.tick fuel) :=
  (h.evalVector hR fuel _).map fun _ _ hab => h.render hab

theorem answer (h : Lockstep R Q) (hR : R c d) :
    Option.Rel Q c.answer.1 d.answer.1 ∧ R c.answer.2 d.answer.2 :=
  ⟨.some (h.report hR).1, (h.report hR).2⟩

theorem call (h : Lockstep R Q) (hR : R c d) (fuel : Nat) (k : HostCall) :
    Option.Rel (fun a b => Option.Rel Q a.1 b.1 ∧ R a.2 b.2) (c.call fuel k) (d.call fuel k) := by
  cases k with
  | eval pc => exact (h.evalAt hR fuel pc).map fun _ _ hab => ⟨.none, hab.2⟩
  | sendByte b => exact (h.deliver hR fuel _).map fun _ _ hab => h.answer hab
  | sendArguments args => exact (h.sendArguments hR fuel args).map fun _ _ hab => h.answer hab
  | tick => exact (h.tick hR fuel).map fun _ _ hab => ⟨.none, hab⟩
  | report => exact .some (h.answer hR)

theorem takeAll (h : Lockstep R Q) (hR : R c d) (fuel : Nat) (calls : List HostCall) :
    Option.Rel (fun a b => List.Forall₂ Q a.1 b.1 ∧ R a.2 b.2)
      (c.takeAll fuel (calls.map .call)) (d.takeAll fuel (calls.map .call)) := by
  induction calls generalizing c d with
  | nil => exact .some ⟨.nil, hR⟩
  | cons k calls ih =>
      have hfirst := h.call hR fuel k
      rw [List.map_cons, Computer.takeAll, Computer.takeAll, take, take]
      generalize c.call fuel k = left at hfirst
      generalize d.call fuel k = right at hfirst
      cases hfirst with
      | none => exact .none
      | @some a b hab =>
          obtain ⟨hanswer, hnext⟩ := hab
          have hreports : List.Forall₂ Q a.1.toList b.1.toList := by
            generalize a.1 = r at hanswer
            generalize b.1 = r' at hanswer
            cases hanswer with
            | some hsame => exact .cons hsame .nil
            | none => exact .nil
          have hrest := ih hnext
          dsimp only
          generalize a.2.takeAll fuel (calls.map .call) = left at hrest
          generalize b.2.takeAll fuel (calls.map .call) = right at hrest
          cases hrest with
          | none => exact .none
          | some hend => exact .some ⟨List.rel_append hreports hend.1, hend.2⟩

end Computer.Lockstep

end StackComputer
