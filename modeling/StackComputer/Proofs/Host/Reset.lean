import StackComputer.Proofs.Host.Sizes

/-!
# What is left after readying the peripherals

Readying the peripherals for another program forgets the exit request and the
fault of the last one.  What the host has not collected from the streams is kept
for the next report, and a screen that has the default size already keeps its
cells; any other is made anew.
-/

namespace StackComputer

/-- What another program is going to find shows nothing of the programs before. -/
structure Peripherals.Spotless (p : Peripherals) : Prop where
  stdout : p.stdout = #[]
  stderr : p.stderr = #[]
  layer : p.screen.dimensions = (512, 320) →
    ∀ l, p.screen.layer l = Array.replicate (512 * 320) 0

theorem Peripherals.spotless_fresh : fresh.Spotless where
  stdout := by rw [fresh, notify_eq]
  stderr := by rw [fresh, notify_eq]
  layer _ := remade_fresh.layer

namespace Computer

/-- The inks are the same, and so is what is reported next, but for the colors and the mark. -/
structure SameTraces (c d : Computer) : Prop where
  layer : ∀ l, c.device.screen.layer l = d.device.screen.layer l
  report : ∃ resized frame, c.report.1 = { d.report.1 with resized := resized, frame := frame }

variable {c : Computer} {excess : Nat}

theorem report_reset (excess : Nat) (c : Computer) : ∃ resized frame, (reset excess c).report.1 =
    ⟨512, 320, resized, frame, c.device.stdout, c.device.stderr, none, none⟩ := by
  obtain ⟨notices, hdevice⟩ := device_reset excess c
  have hdimensions := dimensions_reset excess c
  generalize reset excess c = r at hdevice hdimensions
  obtain ⟨m, p⟩ := r
  subst hdevice
  obtain ⟨hwidth, hheight⟩ := Prod.mk.inj hdimensions
  change ∃ resized frame, Report.mk (Screen.width _) (Screen.height _) _ _ _ _ _ _ = _
  rw [hwidth, hheight]
  exact ⟨_, _, rfl⟩

theorem layer_reset (excess : Nat) (c : Computer) (l : Layer) :
    (reset excess c).device.screen.layer l =
      if c.device.screen.dimensions = (512, 320) then c.device.screen.layer l
      else Array.replicate (512 * 320) 0 := by
  rw [screen_reset]
  change (c.device.screen.resize 512 320).layer l = _
  split
  · next hsame => rw [Screen.resize_of_dimensions hsame]
  · next hother => exact (Screen.remade_resize_of_ne (by decide) hother).layer l

theorem layer_reset_of_spotless (h : c.device.Spotless) (excess : Nat) (l : Layer) :
    (reset excess c).device.screen.layer l = Array.replicate (512 * 320) 0 := by
  rw [layer_reset]
  split
  · next hsame => exact h.layer hsame l
  · rfl

theorem sameTraces_reset_iff (excess : Nat) (c : Computer) :
    SameTraces (reset excess c) (reset excess ⟨c.machine, .fresh⟩) ↔ c.device.Spotless := by
  let new : Computer := ⟨c.machine, .fresh⟩
  have hnew : new.device.Spotless := Peripherals.spotless_fresh
  obtain ⟨resized, frame, hreport⟩ := report_reset excess c
  obtain ⟨resized', frame', hreport'⟩ := report_reset excess new
  rw [hnew.stdout, hnew.stderr] at hreport'
  constructor
  · rintro ⟨hlayer, _, _, hsame⟩
    rw [hreport, hreport'] at hsame
    obtain ⟨-, -, -, -, hstdout, hstderr, -, -⟩ := Report.mk.inj hsame
    refine ⟨hstdout, hstderr, fun hsize l => ?_⟩
    have hkept := hlayer l
    rwa [layer_reset_of_spotless hnew, layer_reset, if_pos hsize] at hkept
  · intro h
    refine ⟨fun l => ?_, resized, frame, ?_⟩
    · rw [layer_reset_of_spotless h, layer_reset_of_spotless hnew]
    · rw [hreport, hreport', h.stdout, h.stderr]

/--
After readying, the machine is wired as for new peripherals, and the next report
tells the default size, no exit and no fault.  But it also tells what the
streams held before, and the inks are those from before unless the size was
another.  So nothing tells readied peripherals from new ones only if they were
spotless.
-/
theorem reset_traces (excess : Nat) (c : Computer) :
    (reset excess c).machine = (reset excess ⟨c.machine, .fresh⟩).machine ∧
    (∃ resized frame, (reset excess c).report.1 =
      ⟨512, 320, resized, frame, c.device.stdout, c.device.stderr, none, none⟩) ∧
    (∀ l, (reset excess c).device.screen.layer l =
      if c.device.screen.dimensions = (512, 320) then c.device.screen.layer l
      else Array.replicate (512 * 320) 0) ∧
    (SameTraces (reset excess c) (reset excess ⟨c.machine, .fresh⟩) ↔ c.device.Spotless) :=
  ⟨rfl, report_reset excess c, layer_reset excess c, sameTraces_reset_iff excess c⟩

/-! ## Programs that leave traces -/

theorem exists_written : ∃ t c, Session t c ∧ c.device.stdout = #[0x41] := by
  let start := Computer.start #[] [] .fresh
  have hsession : Session [] start := Session.start .fresh #[] []
  refine ⟨_, _, hsession.move (.output start Port.write 0x41 _ fun _ => rfl), ?_⟩
  have hempty : start.device.stdout = #[] := by
    obtain ⟨notices, hdevice⟩ := device_reset 0 ⟨Machine.fresh.load #[], .fresh⟩
    exact (congrArg Peripherals.stdout hdevice).trans Peripherals.spotless_fresh.stdout
  have hread : (start.machine.writePort Port.write 0x41).ports.read Port.write = 0x41 :=
    Ports.read_write_self ..
  rw [output_of_isWired hsession.wired, Peripherals.output_write, hread]
  exact congrArg (·.push 0x41) hempty

theorem exists_drawn : ∃ t c, Session t c ∧ c.device.screen.dimensions = (512, 320) ∧
    c.device.screen.ink? .foreground 0 0 = some 1 := by
  let start := Computer.start #[] [] .fresh
  have hsession : Session [] start := Session.start .fresh #[] []
  refine ⟨_, _, hsession.move (.output start Port.pixel 0x41 _ fun _ => rfl), ?_⟩
  have hports : (start.machine.writePort Port.pixel 0x41).ports =
      Ports.zero.write Port.pixel 0x41 := rfl
  have hpixel : (Ports.zero.write Port.pixel 0x41).read Port.pixel = 0x41 := by decide
  have hx : (Ports.zero.write Port.pixel 0x41).readShort Port.x = 0 := by decide
  have hy : (Ports.zero.write Port.pixel 0x41).readShort Port.y = 0 := by decide
  have houtput (ram : Ram) (p : Ports) (s : Screen) : s.output Port.pixel ram p = s.writePixel p :=
    rfl
  have hplotted : (start.output Peripherals.device Port.pixel 0x41).device.screen =
      start.device.screen.plot .foreground 0 0 0x41 := by
    rw [output_of_isWired hsession.wired, Peripherals.output_screen (by decide),
      Peripherals.screen_notify]
    dsimp only
    rw [houtput, hports, Screen.writePixel, hpixel, hx, hy]
    rfl
  obtain ⟨hwidth, hheight⟩ := Prod.mk.inj (dimensions_start .fresh #[])
  obtain ⟨ink, hink⟩ : ∃ ink, start.device.screen.ink? .foreground 0 0 = some ink := by
    apply hsession.sizeAgrees.wellFormed.exists_ink?
    · rw [hwidth]
      decide
    · rw [hheight]
      decide
  rw [hplotted]
  refine ⟨(Screen.drawnOn_plot ..).dimensions.trans (dimensions_start .fresh #[]), ?_⟩
  rw [Screen.ink?_plot, if_pos ⟨rfl, rfl, rfl⟩, hink]
  rfl

/-- A byte on a stream outlasts the program that wrote it, and so does a cell that it drew. -/
theorem reset_traces_outlast :
    (∃ t c, Session t c ∧ (reset 0 c).report.1.stdout = #[0x41] ∧
      ¬SameTraces (reset 0 c) (reset 0 ⟨c.machine, .fresh⟩)) ∧
    ∃ t c, Session t c ∧ (reset 0 c).device.screen.ink? .foreground 0 0 = some 1 ∧
      ¬SameTraces (reset 0 c) (reset 0 ⟨c.machine, .fresh⟩) := by
  constructor
  · obtain ⟨t, c, hsession, hwritten⟩ := exists_written
    refine ⟨t, c, hsession, ?_, fun hsame => ?_⟩
    · obtain ⟨resized, frame, hreport⟩ := report_reset 0 c
      rw [hreport, hwritten]
    · have hstdout := ((sameTraces_reset_iff 0 c).mp hsame).stdout
      rw [hwritten] at hstdout
      simp at hstdout
  · obtain ⟨t, c, hsession, hdimensions, hdrawn⟩ := exists_drawn
    refine ⟨t, c, hsession, ?_, fun hsame => ?_⟩
    · rw [screen_reset]
      exact (congrArg (·.ink? .foreground 0 0) (Screen.resize_of_dimensions hdimensions)).trans hdrawn
    · have hcleared := ((sameTraces_reset_iff 0 c).mp hsame).layer hdimensions .foreground
      rw [Screen.ink?, hcleared] at hdrawn
      split at hdrawn
      · exact absurd (Array.eq_of_mem_replicate (Array.mem_of_getElem? hdrawn)) (by decide)
      · contradiction

end Computer

end StackComputer
