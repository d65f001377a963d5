/-!
# Little-endian integers

Every integer of the demo format is stored with its least significant byte first.
-/

namespace DemoReel.LittleEndian

/-- The lowest `width` bytes of a number; higher ones are dropped. -/
def bytes : (width : Nat) → Nat → List UInt8
  | 0, _ => []
  | width + 1, n => UInt8.ofNat n :: bytes width (n / 256)

def value : List UInt8 → Nat
  | [] => 0
  | b :: bs => b.toNat + 256 * value bs

def u8 (n : UInt8) : List UInt8 := [n]

def u16 (n : UInt16) : List UInt8 := bytes 2 n.toNat

def u32 (n : UInt32) : List UInt8 := bytes 4 n.toNat

end DemoReel.LittleEndian
