import StackComputer.Proofs.Host.Masks
import StackComputer.Proofs.Screen.Operation
import StackComputer.Proofs.Screen.WriteBack

/-!
# Writes to ports are confined

A write to a port may run a command, draw or change the size of the screen, and
the handler could reach all of the computer.  Each part of the computer has the
few ports that can change it; a read changes nothing.
-/

namespace StackComputer

namespace Port

def isSize (i : Byte) : Bool :=
  i == widthLow || i == heightLow

def isDrawing (i : Byte) : Bool :=
  i == pixel || i == sprite

theorem hasEffect_iff (i : Byte) : hasEffect i = true ↔ i = commandRun ∨ i = state ∨
    isPalette i = true ∨ i = debug ∨ i = write ∨ i = error ∨ isSize i = true ∨
    isDrawing i = true := by
  simp only [hasEffect, isSize, isDrawing, Bool.or_eq_true, beq_iff_eq, or_assoc]

theorem slot_of_isPalette (i : Byte) :
    isPalette i = true → i / 16 = 0 ∧ i ≠ commandRun ∧ i ≠ state := by
  revert i
  apply Byte.forall_ofNat
  decide +kernel

theorem slot_of_isSize {i : Byte} (h : isSize i = true) : i / 16 = 2 := by
  simp only [isSize, Bool.or_eq_true, beq_iff_eq] at h
  rcases h with rfl | rfl <;> decide

theorem slot_of_isDrawing {i : Byte} (h : isDrawing i = true) :
    i / 16 = 2 ∧ isPosition i = false ∧ isSize i = false := by
  simp only [isDrawing, Bool.or_eq_true, beq_iff_eq] at h
  rcases h with rfl | rfl <;> decide

end Port

/--
What is left of the computer `c` after `v` has been written to port `i`.  Every
part stays as it was unless the port is one of those named.
-/
structure Confined (i v : Byte) (c d : Computer) : Prop where
  written : d.machine.ports.read i = v
  ports : ∀ j, j ≠ i →
    (Port.isDrawing i && Port.isMoved (c.machine.ports.read Port.auto) j) = false →
    d.machine.ports.read j = c.machine.ports.read j
  ram : i ≠ Port.commandRun → d.machine.ram = c.machine.ram
  inputs : d.machine.inputs = c.machine.inputs
  outputs : d.machine.outputs = c.machine.outputs
  stack : ∀ r, d.machine.stack r = c.machine.stack r
  exit : i ≠ Port.state → d.device.exit = c.device.exit
  stdout : i ≠ Port.write → d.device.stdout = c.device.stdout
  stderr : i ≠ Port.error → i ≠ Port.debug → d.device.stderr = c.device.stderr
  fault : d.device.fault = c.device.fault
  notices : i ≠ Port.commandRun → Port.isSize i = false → d.device.notices = c.device.notices
  palette : Port.isPalette i = false → d.device.screen.palette = c.device.screen.palette
  dimensions : Port.isSize i = false → d.device.screen.dimensions = c.device.screen.dimensions
  size_layer : Port.isSize i = false → ∀ l,
    (d.device.screen.layer l).size = (c.device.screen.layer l).size
  -- what follows is about a screen that keeps its dimensions, as a change clears it
  layer : d.device.screen.dimensions = c.device.screen.dimensions →
    ∀ l, (Port.isDrawing i && l == .ofBit (v.bit 6)) = false →
      d.device.screen.layer l = c.device.screen.layer l
  frame : d.device.screen.dimensions = c.device.screen.dimensions →
    d.device.screen.frame = c.device.screen.frame
  resized : d.device.screen.dimensions = c.device.screen.dimensions →
    d.device.screen.resized = c.device.screen.resized
  pending : d.device.screen.dimensions = c.device.screen.dimensions →
    Port.isPalette i = false → Port.isDrawing i = false →
    d.device.screen.pending = c.device.screen.pending

theorem Confined.read_of_not_isPosition {i v j : Byte} {c d : Computer} (h : Confined i v c d)
    (hne : j ≠ i) (hj : Port.isPosition j = false) :
    d.machine.ports.read j = c.machine.ports.read j :=
  h.ports j hne (by rw [Port.isMoved_of_not_isPosition _ hj, Bool.and_false])

theorem Confined.of_stored {i v : Byte} {c d : Computer}
    (h : Confined i v ⟨c.machine.writePort i v, c.device⟩ d) : Confined i v c d :=
  { h with
    ports := fun j hne hj => by
      have hread {k : Byte} (hk : k ≠ i) :
          (c.machine.writePort i v).ports.read k = c.machine.ports.read k :=
        Ports.read_write_ne _ _ hk.symm
      rw [← hread hne]
      apply h.ports j hne
      cases hi : Port.isDrawing i with
      | false => rfl
      | true =>
          have hauto : Port.auto ≠ i := by
            rintro rfl
            contradiction
          rwa [hi, ← hread hauto] at hj }

/-! ## The screen -/

namespace Screen

variable {i : Byte}

theorem exists_output_resize (hi : Port.isSize i = true) (ram : Ram) (p : Ports) (s : Screen) :
    ∃ width height, s.output i ram p = (p, s.resize width height) := by
  simp only [Port.isSize, Bool.or_eq_true, beq_iff_eq] at hi
  rcases hi with rfl | rfl <;> exact ⟨_, _, rfl⟩

theorem outputNotice?_eq_none (hi : Port.isSize i = false) (p : Ports) (s : Screen) :
    s.outputNotice? i p = none := by
  simp only [Port.isSize, Bool.or_eq_false_iff, beq_eq_false_iff_ne] at hi
  simp [outputNotice?, requestedSize?, hi]

theorem drawnOn_output (hi : Port.isDrawing i = true) (ram : Ram) (p : Ports) (s : Screen) :
    DrawnOn (.ofBit ((p.read i).bit 6)) s (s.output i ram p).2 := by
  simp only [Port.isDrawing, Bool.or_eq_true, beq_iff_eq] at hi
  rcases hi with rfl | rfl
  · change DrawnOn _ s (s.writePixel p).2
    unfold writePixel
    dsimp only
    split
    · exact drawnOn_fill ..
    · exact drawnOn_plot ..
  · exact drawnOn_drawRun ..

end Screen

namespace Peripherals

variable {i : Byte}

theorem output_commandRun (c : Computer) :
    let command := Command.fetch c.machine.ram (c.machine.ports.readShort Port.command)
    output Port.commandRun c = ⟨{ c.machine with ram := command.run c.machine.ram },
      c.device.notify command.refusal?⟩ := rfl

theorem output_state (c : Computer) :
    output Port.state c =
      { c with device := c.device.requestExit (c.machine.ports.read Port.state) } := rfl

theorem output_write (c : Computer) :
    output Port.write c = { c with device :=
      { c.device with stdout := c.device.stdout.push (c.machine.ports.read Port.write) } } := rfl

theorem output_error (c : Computer) :
    output Port.error c = { c with device :=
      { c.device with stderr := c.device.stderr.push (c.machine.ports.read Port.error) } } := rfl

theorem output_palette (hi : Port.isPalette i = true) (c : Computer) :
    output i c = { c with device :=
      { c.device with screen := c.device.screen.setPalette (paletteOf c.machine.ports) } } := by
  obtain ⟨hslot, hcommand, hstate⟩ := Port.slot_of_isPalette i hi
  simp only [output, outputSystem, hslot, hcommand, hstate, hi, if_true, if_false]
  rfl

theorem output_screen (hi : i / 16 = 2) (c : Computer) :
    let drawn := c.device.screen.output i c.machine.ram c.machine.ports
    output i c = ⟨{ c.machine with ports := drawn.1 },
      { c.device with screen := drawn.2 }.notify
        (c.device.screen.outputNotice? i c.machine.ports)⟩ := by
  simp only [output, hi]
  rfl

theorem screen_output (i : Byte) (c : Computer) : (output i c).device.screen = c.device.screen ∨
    ∃ op : Screen.Operation, (output i c).device.screen = c.device.screen.perform op := by
  cases heffect : Port.hasEffect i with
  | false => exact .inl (by rw [output_eq_self heffect])
  | true =>
      rcases (Port.hasEffect_iff i).mp heffect with rfl | rfl | hi | rfl | rfl | rfl | hi | hi
      · exact .inl (screen_notify ..)
      · exact .inl (by rw [output_state, requestExit_eq])
      · exact .inr ⟨.setPalette _, by rw [output_palette hi]; rfl⟩
      · exact .inl (by rw [output_debug])
      · exact .inl rfl
      · exact .inl rfl
      · rw [output_screen (Port.slot_of_isSize hi), screen_notify]
        exact Screen.exists_output ..
      · rw [output_screen (Port.slot_of_isDrawing hi).1, screen_notify]
        exact Screen.exists_output ..

theorem confined_self (i : Byte) (c : Computer) : Confined i (c.machine.ports.read i) c c := by
  constructor <;> intros <;> rfl

theorem confined_stderr (hi : i = Port.error ∨ i = Port.debug) (c : Computer)
    (stderr : Array Byte) : Confined i (c.machine.ports.read i) c
      { c with device := { c.device with stderr := stderr } } :=
  { confined_self i c with
    stderr := fun herror hdebug => absurd hi (not_or.mpr ⟨herror, hdebug⟩) }

theorem confined_resize (hi : Port.isSize i = true) (c : Computer) :
    Confined i (c.machine.ports.read i) c (output i c) := by
  obtain ⟨width, height, houtput⟩ :=
    Screen.exists_output_resize hi c.machine.ram c.machine.ports c.device.screen
  rw [output_screen (Port.slot_of_isSize hi), houtput, notify_eq]
  have hno (h : Port.isSize i = false) : False := by
    rw [hi] at h
    contradiction
  exact { confined_self i c with
    notices := fun _ h => (hno h).elim
    palette := fun _ => Screen.palette_resize ..
    dimensions := fun h => (hno h).elim
    size_layer := fun h => (hno h).elim
    layer := fun h l _ => congrArg (Screen.layer · l) (Screen.resize_eq_self_of_dimensions h)
    frame := fun h => congrArg Screen.frame (Screen.resize_eq_self_of_dimensions h)
    resized := fun h => congrArg Screen.resized (Screen.resize_eq_self_of_dimensions h)
    pending := fun h _ _ => congrArg Screen.pending (Screen.resize_eq_self_of_dimensions h) }

theorem confined_drawing (hi : Port.isDrawing i = true) (c : Computer) :
    Confined i (c.machine.ports.read i) c (output i c) := by
  obtain ⟨hslot, hposition, hsize⟩ := Port.slot_of_isDrawing hi
  have hdrawn := Screen.drawnOn_output hi c.machine.ram c.machine.ports c.device.screen
  rw [output_screen hslot, Screen.outputNotice?_eq_none hsize]
  exact { confined_self i c with
    written := Screen.read_output (Port.isMoved_of_not_isPosition _ hposition) i _ _
    ports := fun j _ h => Screen.read_output (by simpa [hi] using h) i _ _
    palette := fun _ => hdrawn.palette
    dimensions := fun _ => hdrawn.dimensions
    size_layer := fun _ l => hdrawn.size_layer l
    layer := fun _ l h => hdrawn.layer_of_ne (by simpa [hi] using h)
    frame := fun _ => hdrawn.frame
    resized := fun _ => hdrawn.resized
    pending := fun _ _ h => absurd hi (by simp [h]) }

theorem confined_output (i : Byte) (c : Computer) :
    Confined i (c.machine.ports.read i) c (output i c) := by
  cases heffect : Port.hasEffect i with
  | false =>
      rw [output_eq_self heffect]
      exact confined_self i c
  | true =>
      -- each case names what may change; the rest is as in a computer left alone
      rcases (Port.hasEffect_iff i).mp heffect with rfl | rfl | hi | rfl | rfl | rfl | hi | hi
      · rw [output_commandRun, notify_eq]
        exact { confined_self Port.commandRun c with
          ram := fun h => absurd rfl h
          notices := fun h => absurd rfl h }
      · rw [output_state, requestExit_eq]
        exact { confined_self Port.state c with exit := fun h => absurd rfl h }
      · rw [output_palette hi, Screen.setPalette, Screen.markAll, Screen.mark_eq]
        exact { confined_self i c with
          palette := fun h => absurd hi (by simp [h])
          pending := fun _ h => absurd hi (by simp [h]) }
      · rw [output_debug]
        exact confined_stderr (.inr rfl) c _
      · rw [output_write]
        exact { confined_self Port.write c with stdout := fun h => absurd rfl h }
      · rw [output_error]
        exact confined_stderr (.inl rfl) c _
      · exact confined_resize hi c
      · exact confined_drawing hi c

end Peripherals

namespace Computer

theorem confined_write (c : Computer) (i v : Byte) :
    Confined i v c (c.output Peripherals.device i v) := by
  apply Confined.of_stored
  have hread : (c.machine.writePort i v).ports.read i = v := Ports.read_write_self ..
  unfold Config.output
  dsimp only
  split
  · have hconfined := Peripherals.confined_output i ⟨c.machine.writePort i v, c.device⟩
    rwa [hread] at hconfined
  · have hconfined := Peripherals.confined_self i ⟨c.machine.writePort i v, c.device⟩
    rwa [hread] at hconfined

/-- Whatever the masks, a write does no more than its port allows, and a read does nothing. -/
theorem accesses_confined (c : Computer) (i : Byte) :
    (∀ v, Confined i v c (c.output Peripherals.device i v)) ∧
      (c.input Peripherals.device i).2 = c := by
  refine ⟨c.confined_write i, ?_⟩
  unfold Config.input
  split <;> rfl

end Computer

end StackComputer
