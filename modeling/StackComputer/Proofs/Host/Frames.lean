import StackComputer.Proofs.Host.Palette
import StackComputer.Proofs.Host.Reset
import StackComputer.Proofs.Screen.Overlaid

/-!
# What a frame shows

A frame is rendered from the layers as the screen's vector leaves them.  If the
guest wants the overlay, its digits are drawn over the foreground only then, so
the frame shows them at the earliest the next time.  Everywhere else a frame
shows what the layers hold.
-/

namespace StackComputer

namespace Computer

variable {m : Machine} {s : Screen} {x y : Short}

/-! ## Rendering one screen -/

theorem repaint_of_debugging (hdebug : m.ports.read Port.debug ≠ 0) (hx : x < s.width)
    (hy : y < s.height) : repaint m s = s.markAll.render.drawOverlay m := by
  obtain ⟨r, hpending, -⟩ := s.isPendingAt_markAll hx hy
  simp [repaint, hdebug, Screen.isPending, hpending]

theorem repaint_of_not_debugging (hdebug : m.ports.read Port.debug = 0) (s : Screen) :
    repaint m s = if s.isPending then s.render else s := by
  simp [repaint, hdebug]

theorem frameColor?_repaint (hwf : s.WellFormed) (hx : x < s.width) (hy : y < s.height)
    (h : m.ports.read Port.debug = 0 → s.AccurateAt x y) :
    (repaint m s).frameColor? x y = s.cellColor? x y := by
  by_cases hdebug : m.ports.read Port.debug = 0
  · rw [repaint_of_not_debugging hdebug]
    split
    · exact Screen.frameColor?_render (h hdebug) hwf hx hy
    · next hclean =>
        refine h hdebug hx hy ?_
        rintro ⟨r, hpending, -⟩
        simp [Screen.isPending, hpending] at hclean
  · rw [repaint_of_debugging hdebug hx hy, Screen.frameColor?_drawOverlay,
      Screen.frameColor?_render (Screen.accurate_markAll s x y) (hwf.mark _),
      Screen.cellColor?_markAll]
    · rwa [Screen.markAll, Screen.width_mark]
    · rwa [Screen.markAll, Screen.height_mark]

theorem cellColor?_repaint (hx : x < s.width) (hy : y < s.height)
    (h : m.ports.read Port.debug ≠ 0 → ∀ e ∈ Overlay.entries m s.height, ¬e.Covers x y) :
    (repaint m s).cellColor? x y = s.cellColor? x y := by
  by_cases hdebug : m.ports.read Port.debug = 0
  · rw [repaint_of_not_debugging hdebug]
    split
    · exact s.cellColor?_render x y
    · rfl
  · have hheight : s.markAll.render.height = s.height := s.height_mark _
    rw [repaint_of_debugging hdebug hx hy, Screen.cellColor?_drawOverlay,
      Screen.cellColor?_render, Screen.cellColor?_markAll]
    rw [hheight]
    exact h hdebug

variable {c d : Computer} {fuel : Nat}

/-! ## What the calls do to the screen -/

theorem evalVector_of_zero {port : Byte} (h : c.machine.ports.readShort port = 0) (fuel : Nat) :
    c.evalVector fuel port = some c := by
  rw [Computer.evalVector, evalAt, h, Config.eval, if_pos (.inl rfl)]
  rfl

def overlay (c : Computer) : List Overlay.Entry :=
  if c.isDebugging then Overlay.entries c.machine c.device.screen.height else []

def drawnBy (fuel : Nat) (c : Computer) : HostAction → List Overlay.Entry
  | .call .tick => (c.evalVector fuel Port.screenVector).elim [] overlay
  | _ => []

def drawnByAll (fuel : Nat) (c : Computer) : List HostAction → List Overlay.Entry
  | [] => []
  | a :: actions =>
      c.drawnBy fuel a ++ (c.take fuel a).elim [] fun r => drawnByAll fuel r.2 actions

theorem drawnByAll_eq_nil {actions : List HostAction} (h : .call .tick ∉ actions)
    (c : Computer) : c.drawnByAll fuel actions = [] := by
  induction actions generalizing c with
  | nil => rfl
  | cons a actions ih =>
      obtain ⟨hne, hrest⟩ := not_or.mp (mt List.mem_cons.mpr h)
      have hquiet : c.drawnBy fuel a = [] := by
        unfold drawnBy
        split
        · exact absurd rfl hne
        · rfl
      rw [drawnByAll, hquiet, List.nil_append]
      cases c.take fuel a with
      | none => rfl
      | some r => exact ih hrest r.2

/-- From `c` to `d` the screen has been worked on without drawing the overlay. -/
def Worked (c d : Computer) : Prop :=
  ∃ ops, d.device.screen = c.device.screen.performAll ops

namespace Worked

theorem refl (c : Computer) : Worked c c :=
  ⟨[], rfl⟩

theorem of_screen (h : Worked c d) {d' : Computer} (hscreen : d'.device.screen = d.device.screen) :
    Worked c d' := by
  obtain ⟨ops, hops⟩ := h
  exact ⟨ops, hscreen.trans hops⟩

theorem perform (h : Worked c d) {d' : Computer} (op : Screen.Operation)
    (hscreen : d'.device.screen = d.device.screen.perform op) : Worked c d' := by
  obtain ⟨ops, hops⟩ := h
  refine ⟨ops ++ [op], ?_⟩
  rw [hscreen, hops, Screen.performAll, Screen.performAll, List.foldl_concat]

theorem output (h : Worked c d) (i v : Byte) : Worked c (d.output Peripherals.device i v) := by
  unfold Config.output
  dsimp only
  split
  · rcases Peripherals.screen_output i ⟨d.machine.writePort i v, d.device⟩ with hself | ⟨op, hop⟩
    · exact h.of_screen hself
    · exact h.perform op hop
  · exact h.of_screen rfl

theorem keeps (c : Computer) : Peripherals.device.Keeps (Worked c) where
  setHeight d r n h := h.of_screen rfl
  pushCells d r cells h := h.of_screen rfl
  writeCell d w a v h := h.of_screen rfl
  input d i h := h.of_screen (by rw [(accesses_confined d i).2])
  output d i v h := h.output i v
  halt d f h := h.of_screen (Peripherals.screen_notify _ _)

theorem evalVector {c' : Computer} (h : Worked c c') {port : Byte}
    (hr : c'.evalVector fuel port = some d) : Worked c d := by
  obtain ⟨r, heval, rfl⟩ := Option.map_eq_some_iff.mp hr
  exact (keeps c).eval h heval

theorem deliver {c' : Computer} (h : Worked c c') {e : ConsoleEvent}
    (hr : c'.deliver fuel e = some d) : Worked c d := by
  have hstored : Worked c (c'.mapPorts e.store) := h.of_screen rfl
  exact hstored.evalVector hr

theorem deliverAll {c' : Computer} (h : Worked c c') {es : List ConsoleEvent}
    (hr : Computer.deliverAll fuel es c' = some d) : Worked c d := by
  induction es generalizing c' with
  | nil =>
      obtain rfl := Option.some.inj hr
      exact h
  | cons e es ih =>
      rw [Computer.deliverAll] at hr
      cases hfirst : c'.deliver fuel e with
      | none =>
          rw [hfirst] at hr
          contradiction
      | some c'' =>
          rw [hfirst] at hr
          exact ih (h.deliver hfirst) hr

theorem report (h : Worked c d) : Worked c d.report.2 :=
  h.perform .takeResized rfl

end Worked

theorem take_cases {a : HostAction} {r : Option Report × Computer} (hr : c.take fuel a = some r) :
    c.drawnBy fuel a = [] ∧ Worked c r.2 ∨
      ∃ b, Worked c b ∧ c.drawnBy fuel a = b.overlay ∧ r.2 = b.render := by
  have hself := Worked.refl c
  cases a with
  | load program =>
      obtain rfl := Option.some.inj hr
      have hloaded : Worked c ⟨c.machine.load program, c.device⟩ := ⟨[], rfl⟩
      exact .inl ⟨rfl, hloaded⟩
  | reset excess =>
      obtain rfl := Option.some.inj hr
      exact .inl ⟨rfl, hself.perform (.resize _ _) (screen_reset excess c)⟩
  | announceArguments args =>
      obtain rfl := Option.some.inj hr
      have hscreen : (announceArguments args c).device.screen = c.device.screen := by
        unfold announceArguments
        split <;> rfl
      exact .inl ⟨rfl, hself.of_screen hscreen⟩
  | call k =>
      cases k with
      | eval pc =>
          obtain ⟨a, ha, rfl⟩ := Option.map_eq_some_iff.mp hr
          exact .inl ⟨rfl, (Worked.keeps c).eval hself ha⟩
      | sendByte b =>
          obtain ⟨a, ha, rfl⟩ := Option.map_eq_some_iff.mp hr
          exact .inl ⟨rfl, (hself.deliver ha).report⟩
      | sendArguments args =>
          obtain ⟨a, ha, rfl⟩ := Option.map_eq_some_iff.mp hr
          obtain ⟨a', ha', rfl⟩ := Option.map_eq_some_iff.mp ha
          have hsettled : Worked c a'.settle := (hself.deliverAll ha').of_screen rfl
          exact .inl ⟨rfl, hsettled.report⟩
      | tick =>
          obtain ⟨a, ha, rfl⟩ := Option.map_eq_some_iff.mp hr
          obtain ⟨b, hb, rfl⟩ := Option.map_eq_some_iff.mp ha
          exact .inr ⟨b, hself.evalVector hb, by rw [drawnBy, hb]; rfl, rfl⟩
      | report =>
          obtain rfl := Option.some.inj hr
          exact .inl ⟨rfl, hself.report⟩

/-! ## One cell through a run -/

theorem Worked.wellFormed (h : Worked c d) (hwf : c.device.screen.WellFormed) :
    d.device.screen.WellFormed := by
  obtain ⟨ops, hops⟩ := h
  rw [hops]
  exact hwf.performAll ops

/-- The frame of the computer shows the cell at `(x, y)` or is about to. -/
structure Shows (x y : Short) (c : Computer) : Prop where
  wellFormed : c.device.screen.WellFormed
  accurate : c.device.screen.AccurateAt x y

theorem Worked.shows (hworked : Worked c d) (h : Shows x y c) : Shows x y d := by
  obtain ⟨ops, hops⟩ := hworked
  have hkept := Screen.performAll_induction (P := fun s => s.WellFormed ∧ s.AccurateAt x y)
    (fun s op hs => ⟨hs.1.perform op, hs.2.perform hs.1 op⟩) ⟨h.wellFormed, h.accurate⟩ ops
  rw [← hops] at hkept
  exact ⟨hkept.1, hkept.2⟩

theorem screen_render (c : Computer) :
    c.render.device.screen = repaint c.machine c.device.screen := by
  rw [render_eq]
  rfl

theorem dimensions_render (c : Computer) :
    c.render.device.screen.dimensions = c.device.screen.dimensions := by
  rw [screen_render, dimensions_repaint]

theorem Shows.frameColor?_render (h : Shows x y c) (hx : x < c.device.screen.width)
    (hy : y < c.device.screen.height) (hfree : ∀ e ∈ c.overlay, ¬e.Covers x y) :
    c.render.device.screen.frameColor? x y = c.render.device.screen.cellColor? x y := by
  rw [screen_render, frameColor?_repaint h.wellFormed hx hy fun _ => h.accurate,
    cellColor?_repaint hx hy]
  intro hdebug
  rwa [overlay, isDebugging, if_pos (bne_iff_ne.mpr hdebug)] at hfree

theorem Shows.render (h : Shows x y c) (hfree : ∀ e ∈ c.overlay, ¬e.Covers x y) :
    Shows x y c.render := by
  refine ⟨wellFormed_render h.wellFormed, fun hx hy _ => ?_⟩
  obtain ⟨hwidth, hheight⟩ := Prod.mk.inj (dimensions_repaint c.machine c.device.screen)
  rw [screen_render, hwidth] at hx
  rw [screen_render, hheight] at hy
  exact h.frameColor?_render hx hy hfree

theorem wellFormed_take {a : HostAction} {r : Option Report × Computer}
    (hwf : c.device.screen.WellFormed) (hr : c.take fuel a = some r) :
    r.2.device.screen.WellFormed := by
  rcases take_cases hr with ⟨-, hworked⟩ | ⟨b, hworked, -, hrendered⟩
  · exact hworked.wellFormed hwf
  · rw [hrendered]
    exact wellFormed_render (hworked.wellFormed hwf)

theorem Shows.take (h : Shows x y c) {a : HostAction} {r : Option Report × Computer}
    (hfree : ∀ e ∈ c.drawnBy fuel a, ¬e.Covers x y) (hr : c.take fuel a = some r) :
    Shows x y r.2 := by
  rcases take_cases hr with ⟨-, hworked⟩ | ⟨b, hworked, hdrawn, hrendered⟩
  · exact hworked.shows h
  · rw [hdrawn] at hfree
    rw [hrendered]
    exact (hworked.shows h).render hfree

theorem takeAll_cons_eq_some {a : HostAction} {actions : List HostAction} {rs : List Report}
    (hr : c.takeAll fuel (a :: actions) = some (rs, d)) :
    ∃ r rs', c.take fuel a = some r ∧ r.2.takeAll fuel actions = some (rs', d) := by
  rw [takeAll] at hr
  split at hr
  · contradiction
  · next r c' hfirst =>
      split at hr
      · contradiction
      · next rs' c'' hrest =>
          cases hr
          exact ⟨_, rs', hfirst, hrest⟩

theorem wellFormed_takeAll {actions : List HostAction} {rs : List Report}
    (hwf : c.device.screen.WellFormed) (hr : c.takeAll fuel actions = some (rs, d)) :
    d.device.screen.WellFormed := by
  induction actions generalizing c rs with
  | nil =>
      cases hr
      exact hwf
  | cons a actions ih =>
      obtain ⟨r, rs', hfirst, hrest⟩ := takeAll_cons_eq_some hr
      exact ih (wellFormed_take hwf hfirst) hrest

theorem Shows.takeAll {actions : List HostAction} {rs : List Report} (h : Shows x y c)
    (hfree : ∀ e ∈ c.drawnByAll fuel actions, ¬e.Covers x y)
    (hr : c.takeAll fuel actions = some (rs, d)) : Shows x y d := by
  induction actions generalizing c rs with
  | nil =>
      cases hr
      exact h
  | cons a actions ih =>
      obtain ⟨r, rs', hfirst, hrest⟩ := takeAll_cons_eq_some hr
      rw [drawnByAll, hfirst] at hfree
      have htaken := h.take (fun e he => hfree e (List.mem_append_left _ he)) hfirst
      exact ih htaken (fun e he => hfree e (List.mem_append_right _ he)) hrest

theorem shows_fresh (m : Machine) (x y : Short) : Shows x y ⟨m, .fresh⟩ where
  wellFormed := Peripherals.wellFormed_fresh
  accurate := by
    change Peripherals.fresh.screen.AccurateAt x y
    rw [Peripherals.fresh, Peripherals.screen_notify]
    exact Screen.AccurateAt.resize (Screen.accurate_blank x y) _ _

/--
A tick runs the screen's vector, which leaves `b`, and renders.  While the guest
wants the overlay, the whole frame shows the layers of `b`, and the digits are
drawn on them afterwards.  In any case the frame shows the layers as they are on
return in every cell on which no digit has been drawn, in this frame or before.
-/
theorem frame_shows_layers (m : Machine) {actions : List HostAction} {rs : List Report}
    (hrun : takeAll fuel ⟨m, .fresh⟩ actions = some (rs, c)) (htick : c.tick fuel = some d) :
    ∃ b, c.evalVector fuel Port.screenVector = some b ∧ d = b.render ∧
      ∀ x y, x < d.device.screen.width → y < d.device.screen.height →
        (b.isDebugging →
          d.device.screen = b.device.screen.markAll.render.drawOverlay b.machine ∧
          d.device.screen.frameColor? x y = b.device.screen.cellColor? x y) ∧
        ((∀ e ∈ drawnByAll fuel ⟨m, .fresh⟩ actions ++ b.overlay, ¬e.Covers x y) →
          d.device.screen.frameColor? x y = d.device.screen.cellColor? x y) := by
  obtain ⟨b, hb, rfl⟩ := Option.map_eq_some_iff.mp htick
  refine ⟨b, hb, rfl, fun x y hx hy => ?_⟩
  have hworked : Worked c b := (Worked.refl c).evalVector hb
  obtain ⟨hwidth, hheight⟩ := Prod.mk.inj (dimensions_repaint b.machine b.device.screen)
  rw [screen_render, hwidth] at hx
  rw [screen_render, hheight] at hy
  constructor
  · intro hdebugging
    have hdebug : b.machine.ports.read Port.debug ≠ 0 := bne_iff_ne.mp hdebugging
    have hwf : b.device.screen.WellFormed :=
      hworked.wellFormed (wellFormed_takeAll Peripherals.wellFormed_fresh hrun)
    rw [screen_render]
    exact ⟨repaint_of_debugging hdebug hx hy,
      frameColor?_repaint hwf hx hy fun hoff => absurd hoff hdebug⟩
  · intro hfree
    have hshows : Shows x y c :=
      (shows_fresh m x y).takeAll (fun e he => hfree e (List.mem_append_left _ he)) hrun
    exact (hworked.shows hshows).frameColor?_render hx hy
      fun e he => hfree e (List.mem_append_right _ he)

/-- Makes color 1 red, asks for 16 by 16 cells and the overlay, and draws left of its digits. -/
def redPixel : Array Byte :=
  #[0xa0, 0x0f, 0x00, 0x80, 0x08, 0x37, 0xa0, 0x00, 0x10, 0x80, 0x22, 0x37,
    0xa0, 0x00, 0x10, 0x80, 0x24, 0x37, 0x80, 0x01, 0x80, 0x0e, 0x17,
    0x80, 0x02, 0x80, 0x29, 0x17, 0x80, 0x03, 0x80, 0x2b, 0x17, 0x80, 0x41, 0x80, 0x2e, 0x17]

theorem ofProgram_redPixel :
    Ram.ofProgram redPixel = Ram.zero.writeBytes Ram.programStart redPixel.toList :=
  Ram.ofProgram_eq_writeBytes (by decide)

theorem redPixel_calls :
    (takeAll 22 ⟨.fresh, .fresh⟩ [.load redPixel, .reset 0, .call (.eval 0x0100)]).map
      (fun a => (a.1, a.2.isDebugging, a.2.machine.ports.readShort Port.screenVector,
        a.2.overlay.all fun e => !decide (e.Covers 2 3))) = some ([], true, 0, true) := by
  rw [takeAll, take, Machine.load, ofProgram_redPixel]
  decide +kernel

theorem redPixel_cells :
    (takeAll 22 ⟨.fresh, .fresh⟩ [.load redPixel, .reset 0, .call (.eval 0x0100)]).map
      (fun a => (a.2.device.screen.dimensions, a.2.device.screen.cellColor? 2 3)) =
        some ((16, 16), some 0xffff0000) := by
  rw [takeAll, take, Machine.load, ofProgram_redPixel]
  decide +kernel

theorem frame_shows_layers_beside_digits :
    ∃ c d : Computer,
      takeAll 22 ⟨.fresh, .fresh⟩ [.load redPixel, .reset 0, .call (.eval 0x0100)] = some ([], c) ∧
      c.isDebugging ∧ c.tick 22 = some d ∧ d.device.screen.dimensions = (16, 16) ∧
      d.device.screen.frameColor? 2 3 = some 0xffff0000 ∧
      d.device.screen.cellColor? 2 3 = some 0xffff0000 := by
  obtain ⟨⟨reports, c⟩, hrun, hseen⟩ := Option.map_eq_some_iff.mp redPixel_calls
  simp only [Prod.mk.injEq] at hseen
  obtain ⟨rfl, hdebug, hvector, hfree⟩ := hseen
  have hdrawn := redPixel_cells
  rw [hrun] at hdrawn
  obtain ⟨hdimensions, hcolor⟩ := Prod.mk.inj (Option.some.inj hdrawn)
  have hevaluated := evalVector_of_zero hvector 22
  have htick : c.tick 22 = some c.render := congrArg (Option.map Computer.render) hevaluated
  have hrendered := (dimensions_render c).trans hdimensions
  obtain ⟨hwidth, hheight⟩ := Prod.mk.inj hrendered
  obtain ⟨b, hb, -, hcell⟩ := frame_shows_layers .fresh hrun htick
  obtain rfl : c = b := Option.some.inj (hevaluated.symm.trans hb)
  have hx : 2 < c.render.device.screen.width := by
    rw [hwidth]
    decide
  have hy : 3 < c.render.device.screen.height := by
    rw [hheight]
    decide
  obtain ⟨hold, hshows⟩ := hcell 2 3 hx hy
  have hframe := (hold hdebug).2.trans hcolor
  have hbeside : c.render.device.screen.frameColor? 2 3 = c.render.device.screen.cellColor? 2 3 := by
    refine hshows fun e he => ?_
    rw [drawnByAll_eq_nil (by decide)] at he
    simpa using List.all_eq_true.mp hfree e he
  exact ⟨c, c.render, hrun, hdebug, htick, hrendered, hframe, hbeside.symm.trans hframe⟩

/-! ## The overlay is late -/

structure Watched (c : Computer) : Prop where
  wst : c.machine.wst.data = [0]
  rst : c.machine.rst.data = []
  debug : c.machine.ports.read Port.debug ≠ 0
  vector : c.machine.ports.readShort Port.screenVector = 0
  dimensions : c.device.screen.dimensions = (512, 320)
  layer : ∀ l, c.device.screen.layer l = Array.replicate (512 * 320) 0
  palette : c.device.screen.palette.get 2 ≠ c.device.screen.palette.get 0

theorem exists_watched : ∃ t c, Session t c ∧ Watched c := by
  let start := Computer.start #[] [] .fresh
  let b := start.setStack false (Stack.empty.setHeight 1)
  let c := b.output Peripherals.device (Port.blue + 1) 0xf0
  let d := c.output Peripherals.device Port.debug 1
  have hpath : Path start _ d :=
    ((Path.refl.quiet (.setStack start false _)).move (.output b _ _ _ fun _ => rfl)).move
      (.output c _ _ _ fun _ => rfl)
  have hblue : Confined (Port.blue + 1) 0xf0 b c := confined_write b _ _
  have hdebug : Confined Port.debug 1 c d := confined_write c _ _
  have hread {j : Byte} (hb : j ≠ Port.blue + 1) (hd : j ≠ Port.debug)
      (hj : Port.isPosition j = false) : d.machine.ports.read j = 0 := by
    rw [hdebug.read_of_not_isPosition hd hj, hblue.read_of_not_isPosition hb hj]
    exact Ports.read_zero j
  -- so everything else is as in `b`, which has an empty screen and one byte on its stack
  have hdimensions : d.device.screen.dimensions = b.device.screen.dimensions :=
    (hdebug.dimensions (by decide)).trans (hblue.dimensions (by decide))
  have hlayer (l : Layer) : d.device.screen.layer l = b.device.screen.layer l :=
    (hdebug.layer (hdebug.dimensions (by decide)) l rfl).trans
      (hblue.layer (hblue.dimensions (by decide)) l rfl)
  have hstack (r : Bool) : d.machine.stack r = b.machine.stack r :=
    (hdebug.stack r).trans (hblue.stack r)
  refine ⟨_, d, (Session.start .fresh #[] []).path hpath, ?_, ?_, ?_, ?_, ?_, ?_, ?_⟩
  · change (d.machine.stack false).data = _
    rw [hstack]
    decide
  · change (d.machine.stack true).data = _
    rw [hstack]
    decide
  · rw [hdebug.written]
    decide
  · rw [Ports.readShort, hread (by decide) (by decide) (by decide),
      hread (by decide) (by decide) (by decide)]
    decide
  · exact hdimensions.trans (dimensions_start .fresh #[])
  · intro l
    exact (hlayer l).trans (layer_reset_of_spotless
      (c := ⟨Machine.fresh.load #[], .fresh⟩) Peripherals.spotless_fresh 0 l)
  · intro hsame
    have hagrees : PaletteAgrees d := (paletteAgrees_start #[] []).path hpath
    have hlow : d.machine.ports.read (Port.blue + 1) = 0xf0 := by
      rw [hdebug.read_of_not_isPosition (by decide) (by decide), hblue.written]
    have hnat := congrArg UInt32.toNat hsame
    rw [hagrees.palette, Peripherals.toNat_get_paletteOf, Peripherals.toNat_get_paletteOf] at hnat
    simp (disch := decide) only [Ports.nibble, hlow, hread] at hnat
    revert hnat
    decide

theorem Watched.ink (h : Watched c) (l : Layer) : c.device.screen.ink? l 9 297 = some 0 := by
  obtain ⟨hwidth, hheight⟩ := Prod.mk.inj h.dimensions
  rw [Screen.ink?, h.layer, hwidth, hheight, if_pos (by decide), Array.getElem?_replicate,
    if_pos (by decide)]

/-- The frame of a tick lacks the digits that the tick itself leaves on the foreground. -/
theorem frame_lags_overlay : ∃ t c d, Session t c ∧ c.isDebugging ∧ c.tick 0 = some d ∧
    9 < d.device.screen.width ∧ 297 < d.device.screen.height ∧
    d.device.screen.frameColor? 9 297 ≠ d.device.screen.cellColor? 9 297 := by
  obtain ⟨t, c, hsession, hwatched⟩ := exists_watched
  obtain ⟨hwidth, hheight⟩ := Prod.mk.inj hwatched.dimensions
  obtain ⟨hwidth', hheight'⟩ := Prod.mk.inj ((dimensions_render c).trans hwatched.dimensions)
  have hvector := evalVector_of_zero hwatched.vector 0
  refine ⟨t, c, c.render, hsession, bne_iff_ne.mpr hwatched.debug,
    congrArg (Option.map Computer.render) hvector, ?_, ?_, ?_⟩
  · rw [hwidth']
    decide
  · rw [hheight']
    decide
  · have hx : 9 < c.device.screen.width := by
      rw [hwidth]
      decide
    have hy : 297 < c.device.screen.height := by
      rw [hheight]
      decide
    let painted := c.device.screen.markAll.render
    have hink (l : Layer) : painted.ink? l 9 297 = some 0 := by
      rw [Screen.ink?_render, Screen.markAll, Screen.ink?_mark, hwatched.ink]
    have hdigit : (painted.drawOverlay c.machine).ink? .foreground 9 297 = some 2 :=
      Screen.ink?_drawOverlay_zero hwatched.wst hwatched.rst
        ((Screen.height_mark ..).trans hheight) (hink .foreground)
    have hpalette : (painted.drawOverlay c.machine).palette = c.device.screen.palette :=
      (Screen.palette_drawOverlay ..).trans (Screen.palette_mark ..)
    rw [screen_render, frameColor?_repaint hsession.sizeAgrees.wellFormed hx hy
      fun hoff => absurd hoff hwatched.debug, repaint_of_debugging hwatched.debug hx hy,
      Screen.cellColor?, Screen.cellColor?, hwatched.ink, hwatched.ink, hdigit,
      Screen.ink?_drawOverlay_background, hink, hpalette]
    exact fun hsame => hwatched.palette (Option.some.inj hsame).symm

end Computer

end StackComputer
