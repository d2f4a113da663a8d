/-
# Guest time

The kernel keeps its own clock of microseconds. Only `advance` moves it, and it stops at the largest 64-bit
word.

Source: specification, 5.
-/

import GuestKernel.Word

namespace GuestKernel

/-- The time since the kernel started, in microseconds. -/
structure Clock where
  now : UInt64 := 0
deriving DecidableEq

namespace Clock

/-- The clock `ticks` microseconds later. -/
def advance (c : Clock) (ticks : UInt64) : Clock := ⟨saturatingAdd c.now ticks⟩

theorem toNat_now_advance (c : Clock) (ticks : UInt64) :
    (c.advance ticks).now.toNat = min (c.now.toNat + ticks.toNat) (UInt64.size - 1) :=
  toNat_saturatingAdd _ _

end Clock

end GuestKernel
