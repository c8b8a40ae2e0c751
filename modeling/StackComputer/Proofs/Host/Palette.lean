import StackComputer.Proofs.Host.Paths

/-!
# The palette agrees with the ports

The colors are kept twice: packed in six ports, where the guest may read them
back, and unpacked in the palette.  Each byte that is written to one of these
ports reloads the whole palette.  Nothing else writes to either, so the two
agree after every byte, also while a short is only half written.
-/

namespace StackComputer

theorem Port.apart_of_isPalette (i : Byte) : isPalette i = true →
    isPosition i = false ∧ i ≠ consoleByte ∧ i ≠ consoleType := by
  revert i
  apply Byte.forall_ofNat
  decide +kernel

/-- Nibble `i` of the short in the ports `port` and `port + 1`, counted from the left. -/
def Ports.nibble (p : Ports) (port : Byte) (i : Nat) : Nat :=
  (256 * (p.read port).toNat + (p.read (port + 1)).toNat) / 16 ^ (3 - i) % 16

theorem Ports.nibble_readShort (p : Ports) (port : Byte) (i : Nat) :
    (p.readShort port).nibble i = p.nibble port i := by
  rw [Short.nibble, nibble, readShort, Short.toNat_ofBytes, Nat.shiftRight_eq_div_pow, Nat.pow_mul]

theorem Short.nibble_lt (w : Short) (i : Nat) : w.nibble i < 16 :=
  Nat.mod_lt _ (by decide)

theorem Color.toNat_ofNibbles {r g b : Nat} (hr : r < 16) (hg : g < 16) (hb : b < 16) :
    (ofNibbles r g b).toNat = 0xff000000 + 17 * (r * 65536 + g * 256 + b) := by
  rw [ofNibbles, UInt32.toNat_ofNat']
  omega

namespace Peripherals

theorem toNat_get_paletteOf (p : Ports) (i : Ink) :
    ((paletteOf p).get i).toNat = 0xff000000 +
      17 * (p.nibble Port.red i * 65536 + p.nibble Port.green i * 256 + p.nibble Port.blue i) := by
  simp only [← Ports.nibble_readShort]
  rw [← Color.toNat_ofNibbles (Short.nibble_lt ..) (Short.nibble_lt ..) (Short.nibble_lt ..)]
  exact congrArg UInt32.toNat (Vector.getElem_ofFn _)

theorem paletteOf_congr {p q : Ports}
    (h : ∀ j, Port.isPalette j = true → p.read j = q.read j) : paletteOf p = paletteOf q := by
  simp (disch := decide) only [paletteOf, Ports.readShort, h]

theorem paletteOf_zero : paletteOf .zero = .black := by
  decide

end Peripherals

namespace Computer

variable {start c d : Computer} {t e : List Event}

/-! ## Along a path -/

/-- The palette is what its ports hold, and the peripherals hear of what is written to them. -/
structure PaletteAgrees (c : Computer) : Prop where
  wired : c.machine.IsWired
  palette : c.device.screen.palette = Peripherals.paletteOf c.machine.ports

namespace PaletteAgrees

theorem of_same (h : PaletteAgrees c) (hwired : d.machine.IsWired)
    (hpalette : d.device.screen.palette = c.device.screen.palette)
    (hports : ∀ j, Port.isPalette j = true →
      d.machine.ports.read j = c.machine.ports.read j) : PaletteAgrees d where
  wired := hwired
  palette := by rw [hpalette, h.palette, Peripherals.paletteOf_congr hports]

theorem output (h : PaletteAgrees c) (i v : Byte)
    (hwired : (c.output Peripherals.device i v).machine.IsWired) :
    PaletteAgrees (c.output Peripherals.device i v) := by
  cases hi : Port.isPalette i with
  | true =>
      refine ⟨hwired, ?_⟩
      rw [output_of_isWired h.wired, Peripherals.output_palette hi]
      exact Screen.palette_mark ..
  | false =>
      have hconfined := c.confined_write i v
      refine h.of_same hwired (hconfined.palette hi) fun j hj => ?_
      apply hconfined.read_of_not_isPosition
      · rintro rfl
        rw [hi] at hj
        contradiction
      · exact (Port.apart_of_isPalette j hj).1

theorem move (h : PaletteAgrees c) (hmove : Move c e d) : PaletteAgrees d := by
  have hwired := hmove.wired h.wired
  cases hmove with
  | setStack r s => exact h.of_same hwired (by cases r <;> rfl) fun j _ => by cases r <;> rfl
  | writeCell w a v => exact h.of_same hwired rfl fun _ _ => rfl
  | output i v writer hstack => exact h.output i v hwired
  | halt f => exact h.of_same hwired (by rfl) fun _ _ => rfl
  | store e =>
      refine h.of_same hwired rfl fun j hj => ?_
      obtain ⟨-, hbyte, htype⟩ := Port.apart_of_isPalette j hj
      exact e.read_store _ hbyte htype
  | settle =>
      refine h.of_same hwired rfl fun j hj => ?_
      obtain ⟨-, -, htype⟩ := Port.apart_of_isPalette j hj
      exact Ports.read_write_ne _ _ htype.symm
  | render =>
      rw [render_eq] at hwired ⊢
      exact h.of_same hwired (palette_repaint ..) fun _ _ => rfl
  | report => exact h.of_same hwired rfl fun _ _ => rfl

theorem path (h : PaletteAgrees c) (hpath : Path c t d) : PaletteAgrees d := by
  induction hpath with
  | refl => exact h
  | move _ hmove ih => exact ih.move hmove

end PaletteAgrees

theorem paletteAgrees_start (program : Array Byte) (args : List String) :
    PaletteAgrees (Computer.start program args .fresh) := by
  let c := reset (Ram.excess program).size ⟨Machine.fresh.load program, .fresh⟩
  have hreset : PaletteAgrees c := by
    refine ⟨Machine.isWired_wire _, ?_⟩
    rw [screen_reset, Screen.palette_resize]
    exact (Screen.palette_resize ..).trans Peripherals.paletteOf_zero.symm
  exact hreset.path (.of_reset program args .fresh)

/--
From a start on a fresh computer, the palette holds at any time what the bytes
now in its six ports say.  That is so between two instructions, between the
bytes that an instruction reads or writes, and between calls.
-/
theorem palette_agrees (program : Array Byte) (args : List String) :
    let start := Computer.start program args .fresh
    (∀ fuel calls t c, start.history fuel calls = some (t, c) → Path start t c) ∧
    (∀ t c pc, Path start t c → Path start (t ++ c.writes pc) (c.step Peripherals.device pc).2) ∧
    (∀ t c pc done, Path start t c → done <+: c.accesses pc →
      ∃ t', Path start t' (c.midway Peripherals.device pc done)) ∧
    ∀ t c, Path start t c → ∀ i : Fin 4,
      let r := c.machine.ports.nibble Port.red i
      let g := c.machine.ports.nibble Port.green i
      let b := c.machine.ports.nibble Port.blue i
      (c.device.screen.palette.get i).toNat = 0xff000000 + 17 * (r * 65536 + g * 256 + b) := by
  intro start
  refine ⟨fun _ _ _ _ => Path.refl.history, fun _ _ pc h => h.step pc,
    fun _ _ pc done h _ => h.midway pc done, fun t c h i => ?_⟩
  have hagrees : PaletteAgrees c := (paletteAgrees_start program args).path h
  rw [hagrees.palette]
  exact Peripherals.toNat_get_paletteOf c.machine.ports i

theorem palette_agrees_half_written :
    ∃ t c, Path (Computer.start #[] [] .fresh) t c ∧
      c.machine.ports.readShort Port.red = 0x4c00 ∧
      (c.device.screen.palette.get 1).toNat = 0xffcc0000 := by
  let start := Computer.start #[] [] .fresh
  let c := start.output Peripherals.device Port.red 0x4c
  have hpath : Path start [.write Port.red 0x4c start.machine] c :=
    Path.refl.move (.output start _ _ _ fun _ => rfl)
  obtain ⟨-, -, -, hagrees⟩ := palette_agrees #[] []
  have hcolor := hagrees _ _ hpath 1
  have hconfined : Confined Port.red 0x4c start c := start.confined_write Port.red 0x4c
  have hred : c.machine.ports.read Port.red = 0x4c := hconfined.written
  have hzero {j : Byte} (hne : j ≠ Port.red) (hj : Port.isPosition j = false) :
      c.machine.ports.read j = 0 := by
    rw [hconfined.read_of_not_isPosition hne hj]
    change Ports.zero.read j = 0
    simp [Ports.read, Ports.zero]
  refine ⟨_, c, hpath, ?_, ?_⟩
  · rw [Ports.readShort, hred, hzero (by decide) (by decide)]
    decide
  · simp (disch := decide) only [Ports.nibble, hred, hzero] at hcolor
    exact hcolor

end Computer

end StackComputer
