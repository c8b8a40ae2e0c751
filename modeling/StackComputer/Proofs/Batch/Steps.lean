import StackComputer.Batch.Job
import StackComputer.Proofs.Host.Exit
import StackComputer.Proofs.Host.Schedules

/-!
# The steps of a batch run

A batch run has a plan: to run the program, to send its arguments, to deliver
the input byte by byte and to let the display tick.  The steps that are taken
are the shortest front of the plan after which an exit has been requested, or
all of it.  What the run leaves behind is told by the history of these steps.
-/

namespace StackComputer

namespace Batch

inductive Step where
  | program
  | arguments (args : List String)
  | byte (b : Byte)
  | frame
  deriving DecidableEq, Repr

def Step.calls : Step → List HostCall
  | .program => [.eval Ram.programStart, .report]
  | .arguments args => [.sendArguments args]
  | .byte b => [.sendByte b]
  | .frame => [.tick, .report]

def history (fuel : Nat) (c : Computer) (steps : List Step) : Option (List Event × Computer) :=
  c.history fuel (steps.flatMap Step.calls)

def plan (args : List String) (input : List Byte) (frames : Nat) : List Step :=
  [.program, .arguments args] ++ input.map .byte ++ List.replicate frames .frame

/-- From `start` the steps `taken` of a plan are taken; they have the history `t` and leave `c`. -/
structure Takes (fuel : Nat) (start : Computer) (plan taken : List Step) (t : List Event)
    (c : Computer) : Prop where
  front : taken <+: plan
  history : history fuel start taken = some (t, c)
  ends : taken = plan ∨ (lastExitByte t).isSome
  shortest : ∀ before, before <+: taken → before ≠ taken →
    ∃ t' c', Batch.history fuel start before = some (t', c') ∧ lastExitByte t' = none

variable {fuel : Nat} {c c₁ d : Computer} {t t₁ : List Event} {k : Step} {ks taken : List Step}

theorem history_cons_eq_some :
    history fuel c (k :: ks) = some (t, d) ↔
      ∃ t₁ c₁, c.history fuel k.calls = some (t₁, c₁) ∧
        ∃ t₂, history fuel c₁ ks = some (t₂, d) ∧ t = t₁ ++ t₂ := by
  rw [history, List.flatMap_cons, Computer.history_append]
  simp only [history, Option.bind_eq_some_iff, Option.map_eq_some_iff, Prod.exists, Prod.mk.injEq]
  constructor
  · rintro ⟨t₁, c₁, hfirst, t₂, e, hrest, rfl, rfl⟩
    exact ⟨t₁, c₁, hfirst, t₂, hrest, rfl⟩
  · rintro ⟨t₁, c₁, hfirst, t₂, hrest, rfl⟩
    exact ⟨t₁, c₁, hfirst, t₂, d, hrest, rfl, rfl⟩

theorem history_cons_iff (hfirst : c.history fuel k.calls = some (t₁, c₁)) :
    history fuel c (k :: ks) = some (t, d) ↔
      ∃ t₂, history fuel c₁ ks = some (t₂, d) ∧ t = t₁ ++ t₂ := by
  rw [history_cons_eq_some, hfirst]
  constructor
  · rintro ⟨_, _, ⟨rfl, rfl⟩, hrest⟩
    exact hrest
  · intro hrest
    exact ⟨t₁, c₁, rfl, hrest⟩

/-! ## Taking the steps of a plan one by one -/

namespace Takes

theorem nil_iff : Takes fuel c [] taken t d ↔ taken = [] ∧ t = [] ∧ c = d := by
  constructor
  · intro h
    obtain rfl := List.prefix_nil.mp h.front
    have hempty : some ([], c) = some (t, d) := h.history
    cases hempty
    exact ⟨rfl, rfl, rfl⟩
  · rintro ⟨rfl, rfl, rfl⟩
    exact ⟨List.prefix_refl _, rfl, .inl rfl, fun before hfront hne =>
      absurd (List.prefix_nil.mp hfront) hne⟩

theorem exists_rest (h : Takes fuel c (k :: ks) taken t d) : ∃ rest, taken = k :: rest := by
  cases taken with
  | nil =>
      have hempty : some ([], c) = some (t, d) := h.history
      cases hempty
      exact h.ends.elim nofun nofun
  | cons first rest =>
      obtain ⟨rfl, -⟩ := List.cons_prefix_cons.mp h.front
      exact ⟨rest, rfl⟩

theorem cons_iff_of_exit (hfirst : c.history fuel k.calls = some (t₁, c₁))
    (hexit : (lastExitByte t₁).isSome) :
    Takes fuel c (k :: ks) taken t d ↔ taken = [k] ∧ t = t₁ ∧ c₁ = d := by
  constructor
  · intro h
    obtain ⟨rest, rfl⟩ := h.exists_rest
    obtain ⟨t₂, hrest, rfl⟩ := (history_cons_iff hfirst).mp h.history
    cases rest with
    | nil =>
        have hempty : some ([], c₁) = some (t₂, d) := hrest
        cases hempty
        exact ⟨rfl, List.append_nil _, rfl⟩
    | cons second rest =>
        obtain ⟨t', c', hbefore, hnone⟩ := h.shortest [k] ⟨second :: rest, rfl⟩ (by simp)
        obtain ⟨t₂', hnil, rfl⟩ := (history_cons_iff hfirst).mp hbefore
        cases hnil
        rw [List.append_nil] at hnone
        rw [hnone] at hexit
        contradiction
  · rintro ⟨rfl, rfl, rfl⟩
    have hsingle : Batch.history fuel c [k] = some (t, c₁) :=
      (history_cons_iff hfirst).mpr ⟨[], rfl, (List.append_nil t).symm⟩
    refine ⟨⟨ks, rfl⟩, hsingle, .inr hexit, fun before hfront hne => ?_⟩
    rcases List.prefix_cons_iff.mp hfront with rfl | ⟨rest, rfl, hrest⟩
    · exact ⟨[], c, rfl, rfl⟩
    · obtain rfl := List.prefix_nil.mp hrest
      exact absurd rfl hne

theorem cons_iff_of_none (hfirst : c.history fuel k.calls = some (t₁, c₁))
    (hnone : lastExitByte t₁ = none) :
    Takes fuel c (k :: ks) taken t d ↔
      ∃ rest t₂, taken = k :: rest ∧ t = t₁ ++ t₂ ∧ Takes fuel c₁ ks rest t₂ d := by
  -- so a request in the whole history is one that a later step makes
  have hlast (t₂ : List Event) : lastExitByte (t₁ ++ t₂) = lastExitByte t₂ := by
    rw [lastExitByte_append, hnone, Option.or_none]
  constructor
  · intro h
    obtain ⟨rest, rfl⟩ := h.exists_rest
    obtain ⟨t₂, hrest, rfl⟩ := (history_cons_iff hfirst).mp h.history
    refine ⟨rest, t₂, rfl, rfl, (List.cons_prefix_cons.mp h.front).2, hrest, ?_,
      fun before hfront hne => ?_⟩
    · exact h.ends.imp (fun heq => (List.cons.inj heq).2) fun hexit => hlast t₂ ▸ hexit
    · obtain ⟨t', c', hbefore, hquiet⟩ := h.shortest (k :: before)
        (List.cons_prefix_cons.mpr ⟨rfl, hfront⟩) (fun heq => hne (List.cons.inj heq).2)
      obtain ⟨t'', hbefore', rfl⟩ := (history_cons_iff hfirst).mp hbefore
      exact ⟨t'', c', hbefore', hlast t'' ▸ hquiet⟩
  · rintro ⟨rest, t₂, rfl, rfl, h⟩
    refine ⟨List.cons_prefix_cons.mpr ⟨rfl, h.front⟩,
      (history_cons_iff hfirst).mpr ⟨t₂, h.history, rfl⟩, ?_, fun before hfront hne => ?_⟩
    · exact h.ends.imp (congrArg (k :: ·)) fun hexit => (hlast t₂).symm ▸ hexit
    · rcases List.prefix_cons_iff.mp hfront with rfl | ⟨before', rfl, hbefore⟩
      · exact ⟨[], c, rfl, rfl⟩
      · obtain ⟨t', c', hhistory, hquiet⟩ :=
          h.shortest before' hbefore fun heq => hne (congrArg (k :: ·) heq)
        exact ⟨t₁ ++ t', c', (history_cons_iff hfirst).mpr ⟨t', hhistory, rfl⟩,
          (hlast t').trans hquiet⟩

theorem exists_of_history (h : Batch.history fuel c ks = some (t, d)) :
    ∃ taken t' d', Takes fuel c ks taken t' d' := by
  induction ks generalizing c t with
  | nil => exact ⟨[], [], c, nil_iff.mpr ⟨rfl, rfl, rfl⟩⟩
  | cons k ks ih =>
      obtain ⟨t₁, c₁, hfirst, t₂, hrest, -⟩ := history_cons_eq_some.mp h
      cases hexit : lastExitByte t₁ with
      | some b =>
          have hsome := Option.isSome_of_eq_some hexit
          exact ⟨[k], t₁, c₁, (cons_iff_of_exit hfirst hsome).mpr ⟨rfl, rfl, rfl⟩⟩
      | none =>
          obtain ⟨taken, t', d', htakes⟩ := ih hrest
          exact ⟨_, _, d', (cons_iff_of_none hfirst hexit).mpr ⟨taken, t', rfl, rfl, htakes⟩⟩

end Takes

end Batch

end StackComputer
