import StackComputer.Computer
import StackComputer.Proofs.Machine.Invariant
import StackComputer.Proofs.Screen.Dimensions

/-!
# Host calls

The host drives a computer by a sequence of calls.  A program is loaded and the
peripherals are readied for it; then the host evaluates, delivers input, lets
the display tick and collects reports, in any order.
-/

namespace StackComputer

inductive HostCall where
  | eval (address : Short)
  | sendByte (byte : Byte)
  | sendArguments (args : List String)
  | tick
  | report
  deriving DecidableEq, Repr

inductive HostAction where
  | load (program : Array Byte)
  | reset (excess : Nat)
  | announceArguments (args : List String)
  | call (call : HostCall)
  deriving DecidableEq, Repr

namespace Computer

def answer (c : Computer) : Option Report × Computer :=
  let (r, c) := c.report
  (some r, c)

def call (fuel : Nat) (c : Computer) : HostCall → Option (Option Report × Computer)
  | .eval pc => (evalAt fuel pc c).map fun (_, c) => (none, c)
  | .sendByte b => (sendByte fuel b c).map answer
  | .sendArguments args => (sendArguments fuel args c).map answer
  | .tick => (tick fuel c).map fun c => (none, c)
  | .report => some (answer c)

def take (fuel : Nat) (c : Computer) : HostAction → Option (Option Report × Computer)
  | .load program => some (none, ⟨c.machine.load program, c.device⟩)
  | .reset excess => some (none, reset excess c)
  | .announceArguments args => some (none, announceArguments args c)
  | .call h => c.call fuel h

def takeAll (fuel : Nat) (c : Computer) : List HostAction → Option (List Report × Computer)
  | [] => some ([], c)
  | a :: actions =>
      match c.take fuel a with
      | none => none
      | some (r, c') =>
          match c'.takeAll fuel actions with
          | none => none
          | some (rs, c'') => some (r.toList ++ rs, c'')

/-! ## Rendering -/

/-- What is left of a machine's screen after rendering. -/
def repaint (m : Machine) (s : Screen) : Screen :=
  let debugging := m.ports.read Port.debug != 0
  let s := if debugging then s.markAll else s
  if s.isPending then
    if debugging then s.render.drawOverlay m else s.render
  else s

theorem dimensions_repaint (m : Machine) (s : Screen) :
    (repaint m s).dimensions = s.dimensions := by
  unfold repaint
  dsimp only
  split <;> split <;> simp

theorem palette_repaint (m : Machine) (s : Screen) : (repaint m s).palette = s.palette := by
  unfold repaint
  dsimp only
  split <;> split <;> simp [Screen.markAll]

theorem resized_repaint (m : Machine) (s : Screen) : (repaint m s).resized = s.resized := by
  unfold repaint
  dsimp only
  split <;> split <;> simp [Screen.markAll]

theorem layer_repaint {m : Machine} (hdebug : m.ports.read Port.debug = 0) (s : Screen)
    (l : Layer) : (repaint m s).layer l = s.layer l := by
  simp only [repaint, hdebug, bne_self_eq_false, Bool.false_eq_true, if_false]
  split
  · exact s.layer_render l
  · rfl

theorem render_eq (c : Computer) :
    render c = ⟨c.machine, c.device.mapScreen (repaint c.machine)⟩ := by
  obtain ⟨m, exit, stdout, stderr, screen, fault, notices⟩ := c
  cases hdebugging : m.ports.read Port.debug != 0 with
  | true =>
      cases hpending : screen.markAll.isPending <;>
        simp [render, isDebugging, repaint, mapScreen, Peripherals.mapScreen, hdebugging, hpending]
  | false =>
      cases hpending : screen.isPending <;>
        simp [render, isDebugging, repaint, mapScreen, Peripherals.mapScreen, hdebugging, hpending]

/-! ## Readying -/

theorem device_reset (excess : Nat) (c : Computer) : ∃ notices, (reset excess c).device =
    ⟨none, c.device.stdout, c.device.stderr,
      c.device.screen.resize Peripherals.defaultWidth Peripherals.defaultHeight, none, notices⟩ := by
  change ∃ notices, (Peripherals.notify _ _).notify _ = _
  rw [Peripherals.notify_eq, Peripherals.notify_eq (Peripherals.mk ..)]
  exact ⟨_, rfl⟩

theorem screen_reset (excess : Nat) (c : Computer) : (reset excess c).device.screen =
    c.device.screen.resize Peripherals.defaultWidth Peripherals.defaultHeight := by
  obtain ⟨notices, hdevice⟩ := device_reset excess c
  rw [hdevice]

/-! ## Reached computers -/

def settle (c : Computer) : Computer :=
  c.mapPorts (·.write Port.consoleType ByteType.input.code)

/--
The computers that calls can lead to, those between two instructions of an
evaluation included.
-/
inductive Reaches (start : Computer) : Computer → Prop
  | refl : Reaches start start
  | store {c} (e : ConsoleEvent) : Reaches start c → Reaches start (mapPorts e.store c)
  | settle {c} : Reaches start c → Reaches start c.settle
  | step {c} (pc : Short) : Reaches start c → Reaches start (c.step Peripherals.device pc).2
  | halt {c} (f : Fault) : Reaches start c → Reaches start (Peripherals.halt f c).2
  | render {c} : Reaches start c → Reaches start c.render
  | report {c} : Reaches start c → Reaches start c.report.2

namespace Reaches

variable {start : Computer}

theorem run {fuel : Nat} {pc : Short} {c : Computer} (h : Reaches start c)
    {r : Bool × Computer} (hr : Config.run Peripherals.device fuel pc c = some r) :
    Reaches start r.2 := by
  induction fuel generalizing pc c with
  | zero => simp [Config.run] at hr
  | succ fuel ih =>
      have hstep := h.step pc
      simp only [Config.run] at hr
      cases hout : c.step Peripherals.device pc with
      | mk outcome c' =>
          rw [hout] at hr hstep
          cases outcome with
          | next pc' => exact ih hstep hr
          | stop =>
              obtain rfl := Option.some.inj hr
              exact hstep
          | fault cause =>
              obtain rfl := Option.some.inj hr
              exact hstep.halt _

theorem evalAt {fuel : Nat} {pc : Short} {c : Computer} (h : Reaches start c)
    {r : Bool × Computer} (hr : evalAt fuel pc c = some r) : Reaches start r.2 := by
  unfold Computer.evalAt Config.eval at hr
  split at hr
  · obtain rfl := Option.some.inj hr
    exact h
  · exact h.run hr

theorem evalVector {fuel : Nat} {port : Byte} {c c' : Computer} (h : Reaches start c)
    (hr : evalVector fuel port c = some c') : Reaches start c' := by
  obtain ⟨r, hd, rfl⟩ := Option.map_eq_some_iff.mp hr
  exact h.evalAt hd

theorem deliver {fuel : Nat} {e : ConsoleEvent} {c c' : Computer} (h : Reaches start c)
    (hr : deliver fuel c e = some c') : Reaches start c' :=
  (h.store e).evalVector hr

theorem deliverAll {fuel : Nat} {es : List ConsoleEvent} {c c' : Computer}
    (h : Reaches start c) (hr : deliverAll fuel es c = some c') : Reaches start c' := by
  induction es generalizing c with
  | nil =>
      obtain rfl := Option.some.inj hr
      exact h
  | cons e es ih =>
      simp only [Computer.deliverAll] at hr
      cases hd : Computer.deliver fuel c e with
      | none =>
          rw [hd] at hr
          contradiction
      | some d =>
          rw [hd] at hr
          exact ih (h.deliver hd) hr

theorem sendArguments {fuel : Nat} {args : List String} {c c' : Computer}
    (h : Reaches start c) (hr : sendArguments fuel args c = some c') : Reaches start c' := by
  obtain ⟨d, hd, rfl⟩ := Option.map_eq_some_iff.mp hr
  exact (h.deliverAll hd).settle

theorem tick {fuel : Nat} {c c' : Computer} (h : Reaches start c)
    (hr : tick fuel c = some c') : Reaches start c' := by
  obtain ⟨d, hd, rfl⟩ := Option.map_eq_some_iff.mp hr
  exact (h.evalVector hd).render

theorem call {fuel : Nat} {k : HostCall} {c : Computer} {r : Option Report × Computer}
    (h : Reaches start c) (hr : c.call fuel k = some r) : Reaches start r.2 := by
  cases k with
  | eval pc =>
      obtain ⟨d, hd, rfl⟩ := Option.map_eq_some_iff.mp hr
      exact h.evalAt hd
  | sendByte b =>
      obtain ⟨d, hd, rfl⟩ := Option.map_eq_some_iff.mp hr
      exact (h.deliver hd).report
  | sendArguments args =>
      obtain ⟨d, hd, rfl⟩ := Option.map_eq_some_iff.mp hr
      exact (h.sendArguments hd).report
  | tick =>
      obtain ⟨d, hd, rfl⟩ := Option.map_eq_some_iff.mp hr
      exact h.tick hd
  | report =>
      obtain rfl := Option.some.inj hr
      exact h.report

end Reaches

inductive Reachable : Computer → Prop
  | fresh : Reachable .fresh
  | load {c} (program : Array Byte) :
      Reachable c → Reachable ⟨c.machine.load program, c.device⟩
  | reset {c} (excess : Nat) : Reachable c → Reachable (c.reset excess)
  | announceArguments {c} (args : List String) :
      Reachable c → Reachable (c.announceArguments args)
  | reaches {c c'} : Reachable c → Reaches c c' → Reachable c'

namespace Reachable

theorem take {fuel : Nat} {a : HostAction} {c : Computer} {r : Option Report × Computer}
    (h : Reachable c) (hr : c.take fuel a = some r) : Reachable r.2 := by
  cases a with
  | load program =>
      obtain rfl := Option.some.inj hr
      exact h.load program
  | reset excess =>
      obtain rfl := Option.some.inj hr
      exact h.reset excess
  | announceArguments args =>
      obtain rfl := Option.some.inj hr
      exact h.announceArguments args
  | call k => exact h.reaches (Reaches.refl.call hr)

theorem takeAll {fuel : Nat} {actions : List HostAction} {c : Computer}
    {r : List Report × Computer} (h : Reachable c) (hr : c.takeAll fuel actions = some r) :
    Reachable r.2 := by
  induction actions generalizing c r with
  | nil =>
      obtain rfl := Option.some.inj hr
      exact h
  | cons a actions ih =>
      simp only [Computer.takeAll] at hr
      split at hr
      · contradiction
      · next r' c' hfirst =>
          split at hr
          · contradiction
          · next rs c'' hrest =>
              obtain rfl := Option.some.inj hr
              have hlast := ih (h.take hfirst) hrest
              exact hlast

end Reachable

end Computer

end StackComputer
