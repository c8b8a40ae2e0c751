import StackComputer.Batch.Job
import StackComputer.Proofs.Host.Calls
import StackComputer.Proofs.Safety.Peripherals

/-!
# No panic

The calls of a host, with everything that they lead to checked.  From a fresh
computer no sequence of calls panics, whatever the programs do, and neither does
a sequence of calls to a screen alone.
-/

namespace StackComputer

namespace Computer

/-! ## The screen of a computer -/

theorem wellFormed_render {c : Computer} (hc : c.device.screen.WellFormed) :
    c.render.device.screen.WellFormed := by
  unfold Computer.render
  dsimp only
  split
  · split
    · exact (hc.mark _).render.drawOverlay c.machine
    · exact hc.mark _
  · split
    · exact hc.render
    · exact hc

theorem Reaches.wellFormed {start c : Computer} (h : Reaches start c)
    (hstart : start.device.screen.WellFormed) : c.device.screen.WellFormed := by
  induction h with
  | refl => exact hstart
  | store e _ ih => exact ih
  | settle _ ih => exact ih
  | step pc _ ih => exact Peripherals.keeps_wellFormed.step pc ih
  | halt f _ ih => exact Peripherals.keeps_wellFormed.halt _ f ih
  | render _ ih => exact wellFormed_render ih
  | report _ ih => exact ih.takeResized

theorem Reachable.wellFormed {c : Computer} (h : Reachable c) : c.device.screen.WellFormed := by
  induction h with
  | fresh => exact Peripherals.wellFormed_fresh
  | load program _ ih => exact ih
  | reset excess _ ih =>
      rw [screen_reset]
      exact ih.resize _ _
  | announceArguments args _ ih =>
      unfold Computer.announceArguments
      split
      · exact ih
      · exact ih
  | reaches _ hreaches ih => exact hreaches.wellFormed ih

/-! ## Calls -/

namespace Checked

open StackComputer.Checked

def load (program : Array Byte) (c : Computer) : Checked Computer := do
  let room ← sub 65536 256
  let n := min program.size room
  range 65536 256 65536
  range room 0 n
  range program.size 0 n
  range program.size n program.size
  pure ⟨c.machine.load program, c.device⟩

def reset (excess : Nat) (c : Computer) : Checked Computer := do
  let _ ← Screen.Checked.resize c.device.screen Peripherals.defaultWidth Peripherals.defaultHeight
  pure (Computer.reset excess c)

def evalAt (fuel : Nat) (pc : Short) (c : Computer) : Checked (Option (Bool × Computer)) :=
  Config.Checked.eval Peripherals.Checked.device fuel pc c

def evalVector (fuel : Nat) (port : Byte) (c : Computer) : Checked (Option Computer) := do
  let r ← evalAt fuel (c.machine.ports.readShort port) c
  pure (r.map Prod.snd)

def deliver (fuel : Nat) (c : Computer) (e : ConsoleEvent) : Checked (Option Computer) :=
  evalVector fuel Port.consoleVector (mapPorts e.store c)

def deliverAll (fuel : Nat) : List ConsoleEvent → Computer → Checked (Option Computer)
  | [], c => pure (some c)
  | e :: es, c => do
      match ← deliver fuel c e with
      | none => pure none
      | some c' => deliverAll fuel es c'

def argumentEvents (args : List (List Byte)) (a : List Byte) (i : Nat) :
    Checked (List ConsoleEvent) := do
  let last ← sub args.length 1
  pure (a.map (⟨·, .argument⟩) ++
    [⟨ConsoleEvent.newline, if i = last then .last else .separator⟩])

def sendArguments (fuel : Nat) (args : List String) (c : Computer) :
    Checked (Option Computer) := do
  let args := args.map utf8Bytes
  let events ← args.zipIdx.mapM fun (a, i) => argumentEvents args a i
  let r ← deliverAll fuel events.flatten c
  pure (r.map Computer.settle)

def render (c : Computer) : Checked Computer :=
  let debugging := isDebugging c
  let c := if debugging then mapScreen Screen.markAll c else c
  if c.device.screen.isPending then do
    let s ← Screen.Checked.render c.device.screen
    let s ← if debugging then Screen.Checked.drawOverlay s c.machine else pure s
    pure (c.mapScreen fun _ => s)
  else pure c

def tick (fuel : Nat) (c : Computer) : Checked (Option Computer) := do
  match ← evalVector fuel Port.screenVector c with
  | none => pure none
  | some c' => do
      let c' ← render c'
      pure (some c')

def call (fuel : Nat) (c : Computer) : HostCall → Checked (Option (Option Report × Computer))
  | .eval pc => do
      let r ← evalAt fuel pc c
      pure (r.map fun (_, c) => (none, c))
  | .sendByte b => do
      let r ← deliver fuel c ⟨b, .input⟩
      pure (r.map answer)
  | .sendArguments args => do
      let r ← sendArguments fuel args c
      pure (r.map answer)
  | .tick => do
      let r ← tick fuel c
      pure (r.map fun c => (none, c))
  | .report => pure (some (answer c))

def take (fuel : Nat) (c : Computer) : HostAction → Checked (Option (Option Report × Computer))
  | .load program => do
      let c ← load program c
      pure (some (none, c))
  | .reset excess => do
      let c ← reset excess c
      pure (some (none, c))
  | .announceArguments args => pure (some (none, announceArguments args c))
  | .call k => call fuel c k

def takeAll (fuel : Nat) (c : Computer) :
    List HostAction → Checked (Option (List Report × Computer))
  | [] => pure (some ([], c))
  | a :: actions => do
      match ← take fuel c a with
      | none => pure none
      | some (r, c') =>
          match ← takeAll fuel c' actions with
          | none => pure none
          | some (rs, c'') => pure (some (r.toList ++ rs, c''))

/-! ## No call panics -/

theorem load_eq (program : Array Byte) (c : Computer) :
    load program c = .ok ⟨c.machine.load program, c.device⟩ := by
  rw [load, sub_eq (by omega), ok_bind, range_eq (by omega) (by omega), ok_bind,
    range_eq (by omega) (by omega), ok_bind, range_eq (by omega) (by omega), ok_bind,
    range_eq (by omega) (by omega)]
  rfl

theorem reset_eq (excess : Nat) (c : Computer) : reset excess c = .ok (c.reset excess) := by
  rw [reset, Screen.Checked.resize_eq]
  rfl

theorem argumentEvents_eq {args : List (List Byte)} (hargs : args ≠ []) (a : List Byte)
    (i : Nat) :
    argumentEvents args a i = .ok (a.map (⟨·, .argument⟩) ++
      [⟨ConsoleEvent.newline, if i = args.length - 1 then .last else .separator⟩]) := by
  rw [argumentEvents, sub_eq (List.length_pos_iff.mpr hargs)]
  rfl

theorem flatten_events (args : List (List Byte)) (k : Nat) :
    ((args.zipIdx k).map fun (a, i) => a.map (ConsoleEvent.mk · .argument) ++
      [⟨ConsoleEvent.newline, if i = k + args.length - 1 then .last else .separator⟩]).flatten =
      ConsoleEvent.ofArguments args := by
  induction args generalizing k with
  | nil => rfl
  | cons a rest ih =>
      cases rest with
      | nil =>
          have hlast : k = k + [a].length - 1 := rfl
          simp only [List.zipIdx_cons, List.zipIdx_nil, List.map_cons, List.map_nil,
            List.flatten_cons, List.flatten_nil, ← hlast, if_true, List.append_nil]
          rfl
      | cons b rest =>
          have hnot : k ≠ k + (a :: b :: rest).length - 1 := by
            simp only [List.length_cons]
            omega
          have hlength : k + (a :: b :: rest).length - 1 = k + 1 + (b :: rest).length - 1 := by
            simp only [List.length_cons]
            omega
          rw [List.zipIdx_cons, List.map_cons, List.flatten_cons]
          dsimp only
          rw [if_neg hnot, hlength, ih (k + 1), List.append_assoc]
          rfl

theorem events_eq (args : List (List Byte)) :
    ∃ events, (args.zipIdx.mapM fun (a, i) => argumentEvents args a i) = .ok events ∧
      events.flatten = ConsoleEvent.ofArguments args := by
  cases args with
  | nil => exact ⟨[], rfl, rfl⟩
  | cons a rest =>
      have hevents := mapM_eq (a :: rest).zipIdx fun p _ =>
        argumentEvents_eq (List.cons_ne_nil a rest) p.1 p.2
      have hflat := flatten_events (a :: rest) 0
      rw [Nat.zero_add] at hflat
      exact ⟨_, hevents, hflat⟩

variable {c : Computer}

theorem evalAt_eq (fuel : Nat) (pc : Short) (hc : c.device.screen.WellFormed) :
    evalAt fuel pc c = .ok (Computer.evalAt fuel pc c) :=
  Peripherals.Checked.device_agrees.eval fuel pc hc

theorem evalVector_eq (fuel : Nat) (port : Byte) (hc : c.device.screen.WellFormed) :
    evalVector fuel port c = .ok (Computer.evalVector fuel port c) := by
  rw [evalVector, evalAt_eq fuel _ hc]
  rfl

theorem deliver_eq (fuel : Nat) (e : ConsoleEvent) (hc : c.device.screen.WellFormed) :
    deliver fuel c e = .ok (Computer.deliver fuel c e) :=
  evalVector_eq (c := mapPorts e.store c) fuel Port.consoleVector hc

theorem deliverAll_eq (fuel : Nat) (es : List ConsoleEvent) (hc : c.device.screen.WellFormed) :
    deliverAll fuel es c = .ok (Computer.deliverAll fuel es c) := by
  induction es generalizing c with
  | nil => rfl
  | cons e es ih =>
      rw [deliverAll, deliver_eq fuel e hc, ok_bind, Computer.deliverAll]
      cases hd : Computer.deliver fuel c e with
      | none => rfl
      | some d => exact ih ((Reaches.refl.deliver hd).wellFormed hc)

theorem sendArguments_eq (fuel : Nat) (args : List String) (hc : c.device.screen.WellFormed) :
    sendArguments fuel args c = .ok (Computer.sendArguments fuel args c) := by
  obtain ⟨events, hevents, hflat⟩ := events_eq (args.map utf8Bytes)
  rw [sendArguments, hevents, ok_bind, hflat, deliverAll_eq fuel _ hc]
  rfl

theorem render_eq (hc : c.device.screen.WellFormed) : render c = .ok c.render := by
  have hmarked : c.device.screen.markAll.WellFormed := hc.mark _
  unfold render Computer.render
  dsimp only
  split
  · split
    · have hoverlay := Screen.Checked.drawOverlay_eq hmarked.render c.machine
      change (Screen.Checked.render c.device.screen.markAll >>= _) = _
      rw [Screen.Checked.render_eq hmarked, ok_bind]
      change (Screen.Checked.drawOverlay c.device.screen.markAll.render c.machine >>= _) = _
      rw [hoverlay]
      rfl
    · rfl
  · split
    · rw [Screen.Checked.render_eq hc]
      rfl
    · rfl

theorem tick_eq (fuel : Nat) (hc : c.device.screen.WellFormed) :
    tick fuel c = .ok (Computer.tick fuel c) := by
  rw [tick, evalVector_eq fuel _ hc, ok_bind, Computer.tick]
  cases hd : Computer.evalVector fuel Port.screenVector c with
  | none => rfl
  | some d =>
      dsimp only
      rw [render_eq ((Reaches.refl.evalVector hd).wellFormed hc)]
      rfl

theorem call_eq (fuel : Nat) (k : HostCall) (hc : c.device.screen.WellFormed) :
    call fuel c k = .ok (c.call fuel k) := by
  cases k with
  | eval pc =>
      rw [call, evalAt_eq fuel pc hc]
      rfl
  | sendByte b =>
      rw [call, deliver_eq fuel _ hc]
      rfl
  | sendArguments args =>
      rw [call, sendArguments_eq fuel args hc]
      rfl
  | tick =>
      rw [call, tick_eq fuel hc]
      rfl
  | report => rfl

theorem take_eq (fuel : Nat) (a : HostAction) (hc : c.device.screen.WellFormed) :
    take fuel c a = .ok (c.take fuel a) := by
  cases a with
  | load program =>
      rw [take, load_eq]
      rfl
  | reset excess =>
      rw [take, reset_eq]
      rfl
  | announceArguments args => rfl
  | call k => exact call_eq fuel k hc

theorem takeAll_eq (fuel : Nat) (actions : List HostAction) (hc : Reachable c) :
    takeAll fuel c actions = .ok (c.takeAll fuel actions) := by
  induction actions generalizing c with
  | nil => rfl
  | cons a actions ih =>
      rw [takeAll, take_eq fuel a hc.wellFormed, ok_bind, Computer.takeAll]
      cases hfirst : c.take fuel a with
      | none => rfl
      | some first =>
          obtain ⟨r, c'⟩ := first
          dsimp only
          rw [ih (hc.take hfirst), ok_bind]
          cases c'.takeAll fuel actions <;> rfl

end Checked

end Computer

end StackComputer
