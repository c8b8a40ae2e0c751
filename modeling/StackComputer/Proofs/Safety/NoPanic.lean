import StackComputer.Batch.Job
import StackComputer.Proofs.Safety.Computer

/-!
# Nothing panics

From a fresh computer no sequence of calls panics, whatever the programs do, and
neither does a sequence of calls to a screen alone.  Every computer that a host
can come to is intact, and so every run has a picture that fits its size.
-/

namespace StackComputer

/-! ## Calls to a screen -/

namespace Screen

inductive Call where
  | operation (op : Operation)
  | drawOverlay (m : Machine)

def call (s : Screen) : Call → Screen
  | .operation op => s.perform op
  | .drawOverlay m => s.drawOverlay m

def callAll (s : Screen) (calls : List Call) : Screen :=
  calls.foldl call s

namespace Checked

open StackComputer.Checked

def perform (s : Screen) : Operation → Checked Screen
  | .resize width height => resize s width height
  | .setPalette p => pure (s.setPalette p)
  | .plot l x y color => plot s l x y color
  | .fill l x y color flipX flipY => fill s l x y color flipX flipY
  | .drawRun ram b => drawRun s ram b
  | .markAll => pure s.markAll
  | .takeResized => pure s.takeResized.2
  | .render => render s

def call (s : Screen) : Call → Checked Screen
  | .operation op => perform s op
  | .drawOverlay m => drawOverlay s m

def callAll (s : Screen) (calls : List Call) : Checked Screen :=
  calls.foldlM call s

theorem perform_eq {s : Screen} (hs : s.WellFormed) (op : Operation) :
    perform s op = .ok (s.perform op) := by
  cases op with
  | resize width height => exact resize_eq s width height
  | setPalette p => rfl
  | plot l x y color => exact plot_eq hs l x y color
  | fill l x y color flipX flipY => exact fill_eq hs l x y color flipX flipY
  | drawRun ram b => exact drawRun_eq hs ram b
  | markAll => rfl
  | takeResized => rfl
  | render => exact render_eq hs

theorem call_eq {s : Screen} (hs : s.WellFormed) (k : Call) : call s k = .ok (s.call k) := by
  cases k with
  | operation op => exact perform_eq hs op
  | drawOverlay m => exact drawOverlay_eq hs m

end Checked

theorem WellFormed.call {s : Screen} (hs : s.WellFormed) (k : Call) : (s.call k).WellFormed := by
  cases k with
  | operation op => exact hs.perform op
  | drawOverlay m => exact hs.drawOverlay m

theorem WellFormed.callAll {s : Screen} (hs : s.WellFormed) (calls : List Call) :
    (s.callAll calls).WellFormed := by
  induction calls generalizing s with
  | nil => exact hs
  | cons k calls ih => exact ih (hs.call k)

theorem Checked.callAll_eq {s : Screen} (hs : s.WellFormed) (calls : List Call) :
    Checked.callAll s calls = .ok (s.callAll calls) :=
  StackComputer.Checked.foldlM_eq calls (fun k _ _ ht => Checked.call_eq ht k)
    (fun k _ _ ht => ht.call k) hs

end Screen

/-! ## Runs without a display -/

namespace Batch.Session

open Computer

variable {s s' : Session}

theorem reachable_advance {step : Computer → Option Computer}
    (hstep : ∀ c c', step c = some c' → Reaches c c') (hs : Reachable s.computer)
    (h : s.advance step = some s') : Reachable s'.computer := by
  obtain ⟨c, stdout, stderr, exit⟩ := s
  cases exit with
  | some e =>
      obtain rfl := Option.some.inj h
      exact hs
  | none =>
      obtain ⟨d, hd, rfl⟩ := Option.map_eq_some_iff.mp h
      exact hs.reaches (hstep c d hd).report

theorem reachable_feed {fuel : Nat} {input : List Byte} (hs : Reachable s.computer)
    (h : s.feed fuel input = some s') : Reachable s'.computer := by
  induction input generalizing s with
  | nil =>
      obtain rfl := Option.some.inj h
      exact hs
  | cons b bs ih =>
      simp only [feed] at h
      split at h
      · contradiction
      · next t hfirst =>
          have hsend (c c' : Computer) (hc : sendByte fuel b c = some c') : Reaches c c' :=
            Reaches.refl.deliver hc
          exact ih (reachable_advance hsend hs hfirst) h

theorem reachable_tick {fuel frames : Nat} (hs : Reachable s.computer)
    (h : s.tick fuel frames = some s') : Reachable s'.computer := by
  induction frames generalizing s with
  | zero =>
      obtain rfl := Option.some.inj h
      exact hs
  | succ frames ih =>
      simp only [Session.tick] at h
      split at h
      · obtain rfl := Option.some.inj h
        exact hs
      · split at h
        · contradiction
        · next t hfirst =>
            exact ih (reachable_advance (fun _ _ hc => Reaches.refl.tick hc) hs hfirst) h

theorem reachable_start {fuel : Nat} {program : Array Byte} {args : List String}
    (h : start fuel program args = some s) : Reachable s.computer := by
  obtain ⟨r, hr, rfl⟩ := Option.map_eq_some_iff.mp h
  have hready : Reachable (Computer.start program args .fresh) :=
    ((Reachable.fresh.load program).reset _).announceArguments args
  exact hready.reaches (Reaches.refl.evalAt hr).report

theorem reachable_run {fuel : Nat} {program : Array Byte} {args : List String}
    {input : List Byte} {frames : Nat} (h : run fuel program args input frames = some s) :
    Reachable s.computer := by
  unfold run at h
  split at h
  · contradiction
  · next s₁ hstart =>
      split at h
      · contradiction
      · next s₂ hargs =>
          split at h
          · contradiction
          · next s₃ hfeed =>
              have hsent := reachable_advance (fun _ _ hc => Reaches.refl.sendArguments hc)
                (reachable_start hstart) hargs
              exact reachable_tick (reachable_feed hsent hfeed) h

end Batch.Session

/-! ## No computer breaks -/

namespace Computer

/-- What a host can rely on at any moment, between two instructions of a program included. -/
structure Intact (c : Computer) : Prop where
  screen : c.device.screen.WellFormed
  inks : ∀ l, ∀ v ∈ c.device.screen.layer l, v.val < 4
  wst : c.machine.wst.height ≤ 255
  rst : c.machine.rst.height ≤ 255

theorem Reachable.intact {c : Computer} (h : Reachable c) : c.Intact where
  screen := h.wellFormed
  inks _ v _ := v.isLt
  wst := c.machine.wst.height_le
  rst := c.machine.rst.height_le

/--
Calls lead to intact computers only, and neither calls to a computer nor calls
to a screen panic.  A picture has a pixel for each cell of the screen.
-/
theorem never_panics :
    (∀ fuel actions, Checked.takeAll fuel .fresh actions = .ok (fresh.takeAll fuel actions)) ∧
    (∀ fuel actions r, fresh.takeAll fuel actions = some r → Reachable r.2) ∧
    (∀ c, Reachable c → c.Intact) ∧
    (∀ width height calls,
      Screen.Checked.callAll (.ofSize width height) calls =
        .ok ((Screen.ofSize width height).callAll calls) ∧
      ((Screen.ofSize width height).callAll calls).WellFormed) ∧
    (∀ fuel program args input frames s,
      Batch.Session.run fuel program args input frames = some s →
        s.picture.pixels.size = s.picture.width.toNat * s.picture.height.toNat) := by
  refine ⟨?_, ?_, ?_, ?_, ?_⟩
  · intro fuel actions
    exact Checked.takeAll_eq fuel actions .fresh
  · intro fuel actions r hr
    exact Reachable.fresh.takeAll hr
  · intro c hc
    exact hc.intact
  · intro width height calls
    have hs : (Screen.ofSize width height).WellFormed := .ofSize width height
    exact ⟨Screen.Checked.callAll_eq hs calls, hs.callAll calls⟩
  · intro fuel program args input frames s hs
    exact (Batch.Session.reachable_run hs).wellFormed.size_frame

/-- Asks for 8 by 8 cells and the overlay, draws a pixel, then pops from an empty stack. -/
def faultingProgram : Array Byte :=
  #[0xa0, 0x00, 0x08, 0x80, 0x22, 0x37, 0xa0, 0x00, 0x08, 0x80, 0x24, 0x37,
    0x80, 0x01, 0x80, 0x0e, 0x17, 0x80, 0x01, 0x80, 0x2e, 0x17, 0x02]

def faultingActions : List HostAction :=
  [.load faultingProgram, .reset 0, .call (.eval 0x0100), .call .tick, .call (.sendByte 0x41)]

theorem ofProgram_faultingProgram : Ram.ofProgram faultingProgram =
    Ram.zero.writeBytes Ram.programStart faultingProgram.toList :=
  Ram.ofProgram_eq_writeBytes (by decide)

theorem takeAll_faultingActions :
    (fresh.takeAll 13 faultingActions).map (fun a => (a.1.map Report.fault,
      a.2.device.screen.dimensions, a.2.device.screen.ink? .background 0 0)) =
        some ([some ⟨.underflow, 0x0116, 0x02⟩], (8, 8), some 1) := by
  rw [faultingActions, takeAll, take, Machine.load, ofProgram_faultingProgram]
  decide +kernel

theorem run_faultingProgram :
    (Batch.Session.run 13 faultingProgram ["a"] [0x41] 1).map
      (fun s => (s.picture.width, s.picture.height)) = some (8, 8) := by
  have hstart : start faultingProgram ["a"] fresh =
    announceArguments ["a"] (reset (Ram.excess faultingProgram).size
      ⟨{ Machine.fresh with ram := .ofProgram faultingProgram }, .fresh⟩) := rfl
  rw [Batch.Session.run, Batch.Session.start, boot, hstart, ofProgram_faultingProgram]
  decide +kernel

theorem never_panics_faulting :
    ∃ (r : Report) (c : Computer) (s : Batch.Session),
      Checked.takeAll 13 .fresh faultingActions = .ok (some ([r], c)) ∧
      r.fault = some ⟨.underflow, 0x0116, 0x02⟩ ∧ c.Intact ∧
      c.device.screen.dimensions = (8, 8) ∧ c.device.screen.ink? .background 0 0 = some 1 ∧
      Batch.Session.run 13 faultingProgram ["a"] [0x41] 1 = some s ∧
      s.picture.pixels.size = 64 := by
  obtain ⟨hchecked, hreach, hintact, -, hpicture⟩ := never_panics
  obtain ⟨⟨reports, c⟩, hactions, hseen⟩ := Option.map_eq_some_iff.mp takeAll_faultingActions
  obtain ⟨hfault, hscreen⟩ := Prod.mk.inj hseen
  obtain ⟨hdimensions, hink⟩ := Prod.mk.inj hscreen
  obtain ⟨r, rfl, hr⟩ := List.map_eq_singleton_iff.mp hfault
  obtain ⟨s, hrun, hsize⟩ := Option.map_eq_some_iff.mp run_faultingProgram
  obtain ⟨hwidth, hheight⟩ := Prod.mk.inj hsize
  have hpixels := hpicture _ _ _ _ _ s hrun
  rw [hwidth, hheight] at hpixels
  refine ⟨r, c, s, ?_, hr, hintact c (hreach _ _ _ hactions), hdimensions, hink, hrun, hpixels⟩
  rw [hchecked, hactions]

end Computer

end StackComputer
