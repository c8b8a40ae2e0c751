import StackComputer.Peripherals.Basic
import StackComputer.Proofs.Host.Confinement
import StackComputer.Proofs.Safety.Processor
import StackComputer.Proofs.Safety.Sprite

/-!
# Checked peripherals

What the peripherals do on a write is checked: drawing, memory commands and the
report on the stacks.  None of it panics as long as the screen is well-formed,
and everything that a program or a fault can do keeps it so.
-/

namespace StackComputer

/-! ## Memory commands -/

namespace Ram.Checked

open StackComputer.Checked

def fill (v : Byte) : Nat → Short → Ram → Checked Ram
  | 0, _, r => pure r
  | n + 1, a, r => do
      let r ← write r a v
      fill v n (a + 1) r

def copyUp : Nat → Short → Short → Ram → Checked Ram
  | 0, _, _, r => pure r
  | n + 1, s, t, r => do
      let b ← read r s
      let r ← write r t b
      copyUp n (s + 1) (t + 1) r

def copyDown : Nat → Short → Short → Ram → Checked Ram
  | 0, _, _, r => pure r
  | n + 1, s, t, r => do
      let b ← read r (s + .ofNat n)
      let r ← write r (t + .ofNat n) b
      copyDown n s t r

theorem fill_eq (v : Byte) (n : Nat) (a : Short) (r : Ram) :
    fill v n a r = .ok (r.fill v n a) := by
  induction n generalizing a r with
  | zero => rfl
  | succ n ih =>
      rw [fill, write_eq, ok_bind]
      exact ih _ _

theorem copyUp_eq (n : Nat) (s t : Short) (r : Ram) :
    copyUp n s t r = .ok (r.copyUp n s t) := by
  induction n generalizing s t r with
  | zero => rfl
  | succ n ih =>
      rw [copyUp, read_eq, ok_bind, write_eq, ok_bind]
      exact ih _ _ _

theorem copyDown_eq (n : Nat) (s t : Short) (r : Ram) :
    copyDown n s t r = .ok (r.copyDown n s t) := by
  induction n generalizing r with
  | zero => rfl
  | succ n ih =>
      rw [copyDown, read_eq, ok_bind, write_eq, ok_bind]
      exact ih _

end Ram.Checked

namespace Command.Checked

open StackComputer.Checked

def fetch (ram : Ram) (a : Short) : Checked Command := do
  let code ← Ram.Checked.read ram a
  if code = 0 then
    let length ← Ram.Checked.readShort ram (a + 1)
    let bank ← Ram.Checked.readShort ram (a + 3)
    let start ← Ram.Checked.readShort ram (a + 5)
    let value ← Ram.Checked.read ram (a + 7)
    pure (.fill length bank start value)
  else if code = 1 ∨ code = 2 then
    let length ← Ram.Checked.readShort ram (a + 1)
    let sourceBank ← Ram.Checked.readShort ram (a + 3)
    let source ← Ram.Checked.readShort ram (a + 5)
    let targetBank ← Ram.Checked.readShort ram (a + 7)
    let target ← Ram.Checked.readShort ram (a + 9)
    pure (if code = 1 then .copyUp length sourceBank source targetBank target
      else .copyDown length sourceBank source targetBank target)
  else pure (.unknown code)

def run (c : Command) (r : Ram) : Checked Ram :=
  match c.refusal?, c with
  | some _, _ => pure r
  | none, .fill length _ start value => Ram.Checked.fill value length.toNat start r
  | none, .copyUp length _ source _ target => Ram.Checked.copyUp length.toNat source target r
  | none, .copyDown length _ source _ target => Ram.Checked.copyDown length.toNat source target r
  | none, .unknown _ => pure r

theorem fetch_eq (ram : Ram) (a : Short) : fetch ram a = .ok (Command.fetch ram a) := by
  rw [fetch, Ram.Checked.read_eq, ok_bind, Command.fetch]
  simp only [Ram.Checked.readShort_eq, Ram.Checked.read_eq, ok_bind, pure_eq]
  by_cases hfill : ram.read a = 0
  · rw [if_pos hfill, if_pos hfill]
  · rw [if_neg hfill, if_neg hfill]
    by_cases hup : ram.read a = 1
    · rw [if_pos (.inl hup), if_pos hup, if_pos hup]
    · rw [if_neg hup, if_neg hup]
      by_cases hdown : ram.read a = 2
      · rw [if_pos (.inr hdown), if_pos hdown]
      · rw [if_neg (fun h => h.elim hup hdown), if_neg hdown]

theorem run_eq (c : Command) (r : Ram) : run c r = .ok (c.run r) := by
  unfold run Command.run
  cases c.refusal? with
  | some n => rfl
  | none =>
      cases c with
      | fill length bank start value => exact Ram.Checked.fill_eq _ _ _ r
      | copyUp length sourceBank source targetBank target => exact Ram.Checked.copyUp_eq _ _ _ r
      | copyDown length sourceBank source targetBank target =>
          exact Ram.Checked.copyDown_eq _ _ _ r
      | unknown code => rfl

end Command.Checked

/-! ## The report on the stacks -/

namespace StackReport.Checked

open StackComputer.Checked

def place (s : Stack) (k : Nat) : Checked (List Char) := do
  let b ← Stack.Checked.peek s k
  pure (Hex.byte b ++ [if k = s.height then '|' else ' '])

def line (label : List Char) (s : Stack) : Checked (List Char) := do
  let places ← [7, 6, 5, 4, 3, 2, 1, 0].mapM (place s)
  pure (label ++ [' '] ++ places.flatten ++ ['<', '\n'])

def text (m : Machine) : Checked (List Char) := do
  let working ← line ['W', 'S', 'T'] m.wst
  let returning ← line ['R', 'S', 'T'] m.rst
  pure (working ++ returning)

theorem line_eq (label : List Char) (s : Stack) :
    line label s = .ok (StackReport.line label s) := by
  have hplaces := mapM_eq (f := place s) [7, 6, 5, 4, 3, 2, 1, 0]
    (g := fun k => Hex.byte (s.peek k) ++ [if k = s.height then '|' else ' ']) <| by
      intro k hk
      have hlt : k < 256 := by
        simp only [List.mem_cons, List.not_mem_nil, or_false] at hk
        omega
      rw [place, Stack.Checked.peek_eq s hlt]
      rfl
  rw [line, hplaces, ok_bind, ← List.flatMap_def]
  rfl

theorem text_eq (m : Machine) : text m = .ok (StackReport.text m) := by
  rw [text, line_eq, ok_bind, line_eq]
  rfl

end StackReport.Checked

/-! ## The screen's ports -/

namespace Screen.Checked

open StackComputer.Checked

def writePixel (p : Ports) (s : Screen) : Checked (Ports × Screen) := do
  let v := p.read Port.pixel
  let auto := p.read Port.auto
  let x := p.readShort Port.x
  let y := p.readShort Port.y
  let layer := Layer.ofBit (v.bit 6)
  if v.bit 7 then
    let s ← fill s layer x y v (v.bit 4) (v.bit 5)
    pure (p, s)
  else
    let p := if auto.bit 0 then p.writeShort Port.x (x + 1) else p
    let p := if auto.bit 1 then p.writeShort Port.y (y + 1) else p
    let s ← plot s layer x y v
    pure (p, s)

def output (i : Byte) (ram : Ram) (p : Ports) (s : Screen) : Checked (Ports × Screen) :=
  match s.requestedSize? p i with
  | some (width, height) => do
      let s ← resize s width height
      pure (p, s)
  | none =>
      if i = Port.pixel then writePixel p s
      else if i = Port.sprite then do
        let b := SpriteRun.ofPorts p
        let s ← drawRun s ram b
        pure (b.advance p, s)
      else pure (p, s)

theorem writePixel_eq {s : Screen} (hs : s.WellFormed) (p : Ports) :
    writePixel p s = .ok (s.writePixel p) := by
  unfold writePixel Screen.writePixel
  dsimp only
  split
  · rw [fill_eq hs]
    rfl
  · rw [plot_eq hs]
    rfl

theorem output_eq {s : Screen} (hs : s.WellFormed) (i : Byte) (ram : Ram) (p : Ports) :
    output i ram p s = .ok (s.output i ram p) := by
  unfold output Screen.output
  cases s.requestedSize? p i with
  | some size =>
      obtain ⟨width, height⟩ := size
      dsimp only
      rw [resize_eq]
      rfl
  | none =>
      dsimp only
      split
      · exact writePixel_eq hs p
      · split
        · rw [drawRun_eq hs]
          rfl
        · rfl

end Screen.Checked

/-! ## The device -/

namespace Peripherals

namespace Checked

open StackComputer.Checked

def outputSystem (i : Byte) (c : Config Peripherals) : Checked (Config Peripherals) :=
  if i = Port.commandRun then do
    let command ← Command.Checked.fetch c.machine.ram (c.machine.ports.readShort Port.command)
    let ram ← Command.Checked.run command c.machine.ram
    pure ⟨{ c.machine with ram := ram }, c.device.notify command.refusal?⟩
  else if i = Port.debug then do
    let text ← StackReport.Checked.text c.machine
    pure { c with device :=
      { c.device with stderr := c.device.stderr ++ text.map Char.toUInt8 } }
  else pure (Peripherals.outputSystem i c)

def outputScreen (i : Byte) (c : Config Peripherals) : Checked (Config Peripherals) := do
  let s := c.device.screen
  let (ports, screen) ← Screen.Checked.output i c.machine.ram c.machine.ports s
  pure ⟨{ c.machine with ports := ports },
    notify { c.device with screen := screen } (s.outputNotice? i c.machine.ports)⟩

def output (i : Byte) (c : Config Peripherals) : Checked (Config Peripherals) :=
  if i / 16 = 0 then outputSystem i c
  else if i / 16 = 1 then pure (outputConsole i c)
  else if i / 16 = 2 then outputScreen i c
  else pure c

def device : CheckedDevice Peripherals where
  input i c := pure (Peripherals.input i c)
  output := output
  halt := Peripherals.halt

theorem outputSystem_eq (i : Byte) (c : Config Peripherals) :
    outputSystem i c = .ok (Peripherals.outputSystem i c) := by
  unfold outputSystem
  split
  · next h =>
      subst h
      rw [Command.Checked.fetch_eq, ok_bind, Command.Checked.run_eq]
      rfl
  · split
    · next h =>
        subst h
        rw [StackReport.Checked.text_eq]
        rfl
    · rfl

theorem output_eq {c : Config Peripherals} (hc : c.device.screen.WellFormed) (i : Byte) :
    output i c = .ok (Peripherals.output i c) := by
  unfold output Peripherals.output
  split
  · exact outputSystem_eq i c
  · split
    · rfl
    · split
      · rw [outputScreen, Screen.Checked.output_eq hc]
        rfl
      · rfl

end Checked

theorem wellFormed_fresh : fresh.screen.WellFormed := by
  rw [fresh, screen_notify]
  exact Screen.WellFormed.ofSize defaultWidth defaultHeight

theorem wellFormed_output {c : Config Peripherals} (hc : c.device.screen.WellFormed)
    (i : Byte) : (output i c).device.screen.WellFormed := by
  rcases screen_output i c with hself | ⟨op, hop⟩
  · rwa [hself]
  · rw [hop]
    exact hc.perform op

theorem keeps_wellFormed : device.Keeps fun c => c.device.screen.WellFormed := by
  apply Device.keeps_of_device (Q := fun p : Peripherals => p.screen.WellFormed)
  · intro i c hc
    exact hc
  · intro i c hc
    exact wellFormed_output hc i
  · intro f c hc
    exact hc

theorem Checked.device_agrees :
    Checked.device.Agrees Peripherals.device fun p => p.screen.WellFormed where
  input _ _ _ := rfl
  output i _ hc := Checked.output_eq hc i
  halt := rfl
  keeps := keeps_wellFormed

end Peripherals

end StackComputer
