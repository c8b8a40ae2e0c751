import StackComputer.Screen.Color

/-!
Pictures in the PNG format, with an alpha channel and without compression, and
the two checksums of the format.
-/

namespace StackComputer

namespace Checksum

/-- Divides by the polynomial of the cyclic redundancy check, low bit first. -/
def crcBits : Nat → UInt32 → UInt32
  | 0, c => c
  | n + 1, c => crcBits n (if c % 2 = 0 then c >>> 1 else (c >>> 1) ^^^ 0xedb88320)

def crc (bytes : Array Byte) : UInt32 :=
  bytes.foldl (fun c b => crcBits 8 (c ^^^ b.toUInt32)) 0xffffffff ^^^ 0xffffffff

def adler (bytes : Array Byte) : UInt32 :=
  let sums := bytes.foldl (fun (s : UInt32 × UInt32) b =>
    let a := (s.1 + b.toUInt32) % 65521
    (a, (s.2 + a) % 65521)) (1, 0)
  sums.2 * 65536 + sums.1

end Checksum

namespace Png

def bigEndian (n : UInt32) : Array Byte :=
  #[(n >>> 24).toUInt8, (n >>> 16).toUInt8, (n >>> 8).toUInt8, n.toUInt8]

def littleEndian (n : Short) : Array Byte :=
  #[n.lo, n.hi]

def chunk (kind : Array Byte) (data : Array Byte) : Array Byte :=
  bigEndian (.ofNat data.size) ++ kind ++ data ++ bigEndian (Checksum.crc (kind ++ data))

def signature : Array Byte :=
  #[0x89, 0x50, 0x4e, 0x47, 0x0d, 0x0a, 0x1a, 0x0a]

def header (width height : Short) : Array Byte :=
  bigEndian width.toUInt32 ++ bigEndian height.toUInt32 ++ #[8, 6, 0, 0, 0]

def pixel (c : Color) : Array Byte :=
  #[(c >>> 16).toUInt8, (c >>> 8).toUInt8, c.toUInt8, (c >>> 24).toUInt8]

/-- The rows from `y` on, each after a byte that says that it is not filtered. -/
def rows (width : Nat) (pixels : Array Color) : (n y : Nat) → Array Byte → Array Byte
  | 0, _, out => out
  | n + 1, y, out =>
      rows width pixels n (y + 1)
        ((pixels.extract (y * width) ((y + 1) * width)).foldl (fun out c => out ++ pixel c)
          (out.push 0))

def blockSize : Nat := 65535

def storedBlocks (data : Array Byte) : (n start : Nat) → Array Byte → Array Byte
  | 0, _, out => out
  | n + 1, start, out =>
      let block := data.extract start (start + blockSize)
      let length : Short := .ofNat block.size
      storedBlocks data n (start + blockSize)
        (out.push (if n = 0 then 1 else 0) ++ littleEndian length ++
          littleEndian (0xffff - length) ++ block)

/-- The data as a compressed stream that in fact stores it. -/
def stored (data : Array Byte) : Array Byte :=
  storedBlocks data (data.size / blockSize + 1) 0 #[0x78, 0x01] ++ bigEndian (Checksum.adler data)

def encode (width height : Short) (pixels : Array Color) : Array Byte :=
  signature ++ chunk #[0x49, 0x48, 0x44, 0x52] (header width height) ++
    chunk #[0x49, 0x44, 0x41, 0x54]
      (stored (rows width.toNat pixels height.toNat 0 #[])) ++
    chunk #[0x49, 0x45, 0x4e, 0x44] #[]

end Png

end StackComputer
