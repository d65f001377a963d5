/-!
# Offsets

An offset counts the bytes in front of it, without bound.  Where one is shown it is a 64-bit word,
so that a count beyond that range starts over at zero.
-/

namespace DemoReel

/-- An offset as it is shown. -/
def shownOffset (offset : Nat) : UInt64 := .ofNat offset

end DemoReel
