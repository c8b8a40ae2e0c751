import StackComputer.Proofs.Host.Sessions
import StackComputer.Proofs.Safety.Computer
import StackComputer.Proofs.Screen.Resizing

/-!
# The size of the screen

The guest asks for a size through ports, and the ports are as good as any for
storing bytes; but what they answer is the size in force.  The host need not ask
at every report either: it goes by the size that the last report with the mark
`resized` told.
-/

namespace StackComputer

def Event.sizeTold (known : Option (Short × Short)) : Event → Option (Short × Short)
  | .report r => if r.resized then some (r.width, r.height) else known
  | .write .. | .fault _ => known

/-- The size of the last report that said that the screen had been resized. -/
def knownSize (t : List Event) : Option (Short × Short) :=
  t.foldl Event.sizeTold none

theorem knownSize_concat (t : List Event) (e : Event) :
    knownSize (t ++ [e]) = e.sizeTold (knownSize t) := by
  simp [knownSize]

def Axis.port : Axis → Byte
  | .width => Port.width
  | .height => Port.height

/-! ## What the screen does -/

namespace Screen

def Sized (s t : Screen) : Prop :=
  t.dimensions = s.dimensions ∧ t.resized = s.resized ∨
    (∀ a, isValidSize (t.size a)) ∧ t.resized = true

variable {s t : Screen}

theorem Sized.of_eq (h : t = s) : Sized s t :=
  .inl ⟨congrArg dimensions h, congrArg resized h⟩

theorem size_congr (h : t.dimensions = s.dimensions) (a : Axis) : t.size a = s.size a := by
  obtain ⟨hwidth, hheight⟩ := Prod.mk.inj h
  cases a
  · exact hwidth
  · exact hheight

theorem Remade.isValidSize {width height : Short} (h : Remade width height s t)
    (hvalid : isValidSize width ∧ isValidSize height) (a : Axis) : isValidSize (t.size a) := by
  obtain ⟨rfl, rfl⟩ := Prod.mk.inj h.dimensions
  cases a
  · exact hvalid.1
  · exact hvalid.2

theorem sized_resize (s : Screen) (width height : Short) : Sized s (s.resize width height) := by
  rcases s.resize_cases width height with hself | ⟨hvalid, -, hremade⟩
  · exact .of_eq hself
  · exact .inr ⟨hremade.isValidSize hvalid, hremade.resized⟩

theorem sized_repaint (m : Machine) (s : Screen) : Sized s (Computer.repaint m s) :=
  .inl ⟨Computer.dimensions_repaint m s, Computer.resized_repaint m s⟩

end Screen

theorem Peripherals.sized_output (i : Byte) (c : Computer) :
    c.device.screen.Sized (output i c).device.screen := by
  cases hi : Port.isSize i with
  | true =>
      obtain ⟨width, height, houtput⟩ :=
        Screen.exists_output_resize hi c.machine.ram c.machine.ports c.device.screen
      rw [output_screen (Port.slot_of_isSize hi), houtput, screen_notify]
      exact Screen.sized_resize ..
  | false =>
      have hconfined := confined_output i c
      have hdimensions := hconfined.dimensions hi
      exact .inl ⟨hdimensions, hconfined.resized hdimensions⟩

theorem Peripherals.remade_fresh :
    Screen.Remade defaultWidth defaultHeight .blank fresh.screen := by
  rw [fresh, screen_notify]
  exact Screen.remade_resize (by decide)

namespace Computer

variable {c d : Computer} {t e : List Event}

theorem sized_output (c : Computer) (i v : Byte) :
    c.device.screen.Sized (c.output Peripherals.device i v).device.screen := by
  unfold Config.output
  dsimp only
  split
  · exact Peripherals.sized_output i ⟨c.machine.writePort i v, c.device⟩
  · exact .of_eq rfl

/-! ## Ports -/

theorem input_size (hwired : c.machine.IsWired) (a : Axis) :
    c.input Peripherals.device a.port = ((c.device.screen.size a).hi, c) ∧
      c.input Peripherals.device (a.port + 1) = ((c.device.screen.size a).lo, c) := by
  rw [input_of_isWired hwired, input_of_isWired hwired]
  cases a <;> exact ⟨rfl, rfl⟩

theorem screen_outputCell_size (hwired : c.machine.IsWired) (a : Axis) (n : Short) :
    (c.outputCell Peripherals.device .short a.port n).device.screen =
      c.device.screen.resizeAxis a n := by
  have hquiet : Port.hasEffect a.port = false := by cases a <;> decide
  have hslot : (a.port + 1) / 16 = 2 := by cases a <;> decide
  let stored : Computer := ⟨c.machine.writePort a.port n.hi, c.device⟩
  have hstored : stored.machine.IsWired := hwired.of_masks rfl rfl
  have hfirst : c.output Peripherals.device a.port n.hi = stored := by
    rw [output_of_isWired hwired, Peripherals.output_eq_self hquiet]
  have hsecond : c.outputCell Peripherals.device .short a.port n =
      Peripherals.output (a.port + 1)
        ⟨{ c.machine with ports := c.machine.ports.writeShort a.port n }, c.device⟩ := by
    rw [Config.outputCell, hfirst, output_of_isWired hstored]
    rfl
  rw [hsecond, Peripherals.output_screen hslot, Peripherals.screen_notify]
  have hasked := Ports.readShort_writeShort c.machine.ports a.port n
  cases a
  · exact congrArg (c.device.screen.resizeAxis .width) hasked
  · exact congrArg (c.device.screen.resizeAxis .height) hasked

/-! ## Along a session -/

/-- A report is of a whole frame, and the host that gets it knows the size. -/
def ToldWell (t : List Event) (r : Report) : Prop :=
  r.frame.size = r.width.toNat * r.height.toNat ∧
    knownSize (t ++ [.report r]) = some (r.width, r.height)

/-- The host knows the size, unless the next report is going to tell it. -/
structure SizeAgrees (t : List Event) (c : Computer) : Prop where
  wellFormed : c.device.screen.WellFormed
  valid : ∀ a, Screen.isValidSize (c.device.screen.size a)
  known : c.device.screen.resized = true ∨ knownSize t = some c.device.screen.dimensions
  told : ∀ t' r, t' ++ [.report r] <+: t → ToldWell t' r

namespace SizeAgrees

theorem of_sized (h : SizeAgrees t c) (hwf : d.device.screen.WellFormed)
    (hsized : c.device.screen.Sized d.device.screen) : SizeAgrees t d := by
  rcases hsized with ⟨hdimensions, hresized⟩ | ⟨hvalid, hresized⟩
  · refine ⟨hwf, fun a => ?_, ?_, h.told⟩
    · rw [Screen.size_congr hdimensions]
      exact h.valid a
    · rw [hdimensions, hresized]
      exact h.known
  · exact ⟨hwf, hvalid, .inl hresized, h.told⟩

theorem of_same (h : SizeAgrees t c) (hscreen : d.device.screen = c.device.screen) :
    SizeAgrees t d :=
  h.of_sized (hscreen ▸ h.wellFormed) (.of_eq hscreen)

theorem event (h : SizeAgrees t c) {e : Event} (he : e.isReport = false) :
    SizeAgrees (t ++ [e]) c where
  wellFormed := h.wellFormed
  valid := h.valid
  known := by
    rw [knownSize_concat]
    cases e with
    | report r => contradiction
    | _ => exact h.known
  told t' r hprefix := by
    rcases List.prefix_concat_iff.mp hprefix with hlast | hbefore
    · obtain ⟨-, hreport⟩ := List.append_inj' hlast rfl
      cases hreport
      contradiction
    · exact h.told t' r hbefore

theorem toldWell (h : SizeAgrees t c) : ToldWell t c.report.1 := by
  refine ⟨h.wellFormed.size_frame, ?_⟩
  rw [knownSize_concat]
  change (if c.device.screen.resized then some c.device.screen.dimensions else knownSize t) =
    some c.device.screen.dimensions
  split
  · rfl
  · next hresized => exact h.known.resolve_left hresized

theorem report (h : SizeAgrees t c) : SizeAgrees (t ++ [.report c.report.1]) c.report.2 where
  wellFormed := h.wellFormed.takeResized
  valid := h.valid
  known := .inr h.toldWell.2
  told t' r hprefix := by
    rcases List.prefix_concat_iff.mp hprefix with hlast | hbefore
    · obtain ⟨rfl, hreport⟩ := List.append_inj' hlast rfl
      cases hreport
      exact h.toldWell
    · exact h.told t' r hbefore

theorem move (h : SizeAgrees t c) (hmove : Move c e d) : SizeAgrees (t ++ e) d := by
  cases hmove with
  | output i v writer hstack =>
      have hwf := Peripherals.keeps_wellFormed.output c i v h.wellFormed
      exact (h.of_sized hwf (c.sized_output i v)).event rfl
  | halt f => exact (h.of_same (Peripherals.screen_notify _ _)).event rfl
  | render =>
      rw [List.append_nil]
      refine h.of_sized (wellFormed_render h.wellFormed) ?_
      rw [render_eq]
      exact Screen.sized_repaint c.machine c.device.screen
  | report => exact h.report
  | setStack r s =>
      rw [List.append_nil]
      exact h.of_same (by cases r <;> rfl)
  | _ =>
      rw [List.append_nil]
      exact h.of_same rfl

theorem path (h : SizeAgrees t c) {t' : List Event} (hpath : Path c t' d) :
    SizeAgrees (t ++ t') d := by
  induction hpath with
  | refl => rwa [List.append_nil]
  | move _ hmove ih =>
      rw [← List.append_assoc]
      exact ih.move hmove

theorem reset (h : SizeAgrees t c) (m : Machine) (excess : Nat) :
    SizeAgrees t (reset excess ⟨m, c.device⟩) := by
  have hscreen := screen_reset excess ⟨m, c.device⟩
  apply h.of_sized
  · rw [hscreen]
    exact h.wellFormed.resize ..
  · rw [hscreen]
    exact Screen.sized_resize ..

end SizeAgrees

theorem dimensions_reset (excess : Nat) (c : Computer) :
    (Computer.reset excess c).device.screen.dimensions =
      (Peripherals.defaultWidth, Peripherals.defaultHeight) := by
  rw [screen_reset]
  exact Screen.dimensions_resize (by decide)

theorem dimensions_start (c : Computer) (program : Array Byte) :
    (Computer.start program [] c).device.screen.dimensions =
      (Peripherals.defaultWidth, Peripherals.defaultHeight) :=
  dimensions_reset (Ram.excess program).size ⟨c.machine.load program, c.device⟩

theorem sizeAgrees_fresh (m : Machine) : SizeAgrees [] ⟨m, .fresh⟩ where
  wellFormed := Peripherals.wellFormed_fresh
  valid := Peripherals.remade_fresh.isValidSize (by decide)
  known := .inl Peripherals.remade_fresh.resized
  told t' r hprefix := by simp at hprefix

theorem Session.sizeAgrees (h : Session t c) : SizeAgrees t c := by
  induction h with
  | @boot m _ _ h m' excess => exact ((sizeAgrees_fresh m).path h).reset m' excess
  | again _ m' excess ih => exact ih.reset m' excess
  | move _ hmove ih => exact ih.move hmove

/--
In a session the ports of the size answer with the size in force, and a short
written there changes it on one axis if the short is a valid size, with all or
nothing done to the screen.  Every report is of a whole frame, and the host may
go by the size that it was last told.
-/
theorem sizes_in_step (h : Session t c) :
    (∀ program args, Session t (Computer.start program args c)) ∧
    (∀ fuel calls t' d, c.history fuel calls = some (t', d) → Session (t ++ t') d) ∧
    (∀ pc, Session (t ++ c.writes pc) (c.step Peripherals.device pc).2) ∧
    (∀ pc done, done <+: c.accesses pc →
      ∃ t', Session (t ++ t') (c.midway Peripherals.device pc done)) ∧
    (∀ a : Axis,
      c.input Peripherals.device a.port = ((c.device.screen.size a).hi, c) ∧
      c.input Peripherals.device (a.port + 1) = ((c.device.screen.size a).lo, c)) ∧
    (∀ (a : Axis) (n : Short), Screen.Answered a n c.device.screen
      (c.outputCell Peripherals.device .short a.port n).device.screen) ∧
    (c.report.1.width, c.report.1.height) = c.device.screen.dimensions ∧
    ∀ t' r, t' ++ [.report r] <+: t ++ [.report c.report.1] → ToldWell t' r := by
  have hagrees := h.sizeAgrees
  refine ⟨h.restart, fun _ _ _ _ => h.history, h.step, fun pc done _ => h.midway pc done,
    input_size h.wired, fun a n => ?_, rfl, hagrees.report.told⟩
  rw [screen_outputCell_size h.wired]
  exact Screen.answered_resizeAxis hagrees.valid a n

/-- A lone high byte is stored but changes nothing, and a whole short does not need it. -/
theorem sizes_in_step_half_asked :
    ∃ t c, Session t c ∧ c.machine.ports.read Port.width = 3 ∧
      (c.input Peripherals.device Port.width).1 = 2 ∧
      (c.outputCell Peripherals.device .short Port.width 64).device.screen.width = 64 ∧
      knownSize (t ++ [.report c.report.1]) = some (512, 320) := by
  let start := Computer.start #[] [] .fresh
  let c := start.output Peripherals.device Port.width 3
  have hsession : Session [.write Port.width 3 start.machine] c :=
    (Session.start .fresh #[] []).move (.output start _ _ _ fun _ => rfl)
  have hconfined : Confined Port.width 3 start c := start.confined_write Port.width 3
  have hdimensions : c.device.screen.dimensions = (512, 320) :=
    (hconfined.dimensions (by decide)).trans (dimensions_start .fresh #[])
  obtain ⟨-, -, -, -, hinput, hanswered, hreport, htold⟩ := sizes_in_step hsession
  refine ⟨_, c, hsession, hconfined.written, ?_, ?_, ?_⟩
  · obtain ⟨hwidth, -⟩ := Prod.mk.inj hdimensions
    change (c.input Peripherals.device Axis.width.port).1 = 2
    rw [(hinput .width).1]
    change c.device.screen.width.hi = 2
    rw [hwidth]
    decide
  · exact (hanswered .width 64).granted.mpr (by decide)
  · rw [(htold _ _ List.prefix_rfl).2, hreport, hdimensions]

end Computer

end StackComputer
