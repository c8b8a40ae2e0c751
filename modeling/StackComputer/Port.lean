import StackComputer.Memory.Ports

/-!
The ports of the peripherals.  A name of two ports is that of the first one,
which holds the high byte.
-/

namespace StackComputer

def Byte.bit (b : Byte) (i : Nat) : Bool :=
  b.toNat.testBit i

namespace Port

/-! ## System -/

def command : Byte := 0x02

/-- The low byte of the command's address; writing it runs the command. -/
def commandRun : Byte := 0x03

def red : Byte := 0x08

def green : Byte := 0x0a

def blue : Byte := 0x0c

def debug : Byte := 0x0e

def state : Byte := 0x0f

def isPalette (i : Byte) : Bool :=
  red ≤ i && i < blue + 2

/-! ## Console -/

def consoleVector : Byte := 0x10

def consoleByte : Byte := 0x12

def consoleType : Byte := 0x17

def write : Byte := 0x18

def error : Byte := 0x19

/-! ## Screen -/

def screenVector : Byte := 0x20

def width : Byte := 0x22

def widthLow : Byte := 0x23

def height : Byte := 0x24

def heightLow : Byte := 0x25

def auto : Byte := 0x26

def x : Byte := 0x28

def y : Byte := 0x2a

def source : Byte := 0x2c

def pixel : Byte := 0x2e

def sprite : Byte := 0x2f

/-! ## Masks -/

structure Wiring where
  slot : Byte
  inputs : Short
  outputs : Short
  deriving DecidableEq, Repr

/-- The ports with something behind them, by slot. -/
def wiring : List Wiring :=
  [⟨0, 0x0000, 0xff28⟩, ⟨1, 0x0000, 0x0300⟩, ⟨2, 0x003c, 0xc028⟩]

end Port

end StackComputer
