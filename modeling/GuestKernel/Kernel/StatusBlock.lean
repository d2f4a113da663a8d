/-
# Status blocks

The guest asks for the state of an object and gets it as a block of memory.

| offset | bytes | content |
| ---: | ---: | --- |
| 0 | 4 | size of the block |
| 4 | 32 | name, cut to 31 bytes, filled with zeros |
| 36 | 4 each | the object's words |

Source: specification, 4.7.
-/

import GuestKernel.Kernel.Basic

namespace GuestKernel

/-- The bytes a name takes in a status block, the closing zero included. -/
def statusNameLength : Nat := 32

/-- A name as a field of a status block. -/
def statusName (name : String) : List UInt8 :=
  let bytes := (Utf8.encode name).take (statusNameLength - 1)
  bytes ++ List.replicate (statusNameLength - bytes.length) 0

theorem length_statusName (name : String) : (statusName name).length = statusNameLength := by
  simp only [statusName, List.length_append, List.length_replicate, List.length_take, statusNameLength]
  omega

/-- The status block of a name and words. -/
def statusBlock (name : String) (words : List UInt32) : List UInt8 :=
  toBytes 4 (4 + statusNameLength + words.length * 4) ++ statusName name ++
    words.flatMap fun w => toBytes 4 w.toNat

namespace Kernel

/-- Writes a status block to guest memory. -/
def writeStatus (k : Kernel) (address : UInt32) (name : String) (words : List UInt32) : Reply Unit :=
  k.withMemory (k.memory.writeBytes address (statusBlock name words))

end Kernel
end GuestKernel
