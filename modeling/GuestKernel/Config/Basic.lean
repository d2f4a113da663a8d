/-
# Configuration

The settings of the kernel, of guest memory and of the journal, with their defaults.

Source: specification, 10.4.
-/

import GuestKernel.Journal.Event

namespace GuestKernel

/-- A memory partition made at boot. -/
structure PartitionConfig where
  id : PartitionId
  name : String
  base : UInt32
  size : UInt32
deriving DecidableEq

/-- Settings of the kernel. -/
structure KernelConfig where
  partitions : List PartitionConfig :=
    [⟨1, "kernel", 0x08000000, 0x300000⟩, ⟨2, "user", 0x08800000, 0x1800000⟩,
      ⟨5, "volatile", 0x08400000, 0x400000⟩]
  /-- The partition that holds stacks and thread-local blocks. -/
  threadPartition : PartitionId := 2
  /-- The size of a thread-local block; 0 for none. -/
  tlsSize : UInt32 := 0x4000
  /-- The stack size of the main thread. -/
  defaultStackSize : UInt32 := 0x40000
  /-- The smallest stack a thread may ask for. -/
  minStackSize : UInt32 := 0x200
  /-- The global pointer of a thread created while none runs. -/
  moduleGp : UInt32 := 0
  /-- Where the main thread starts. -/
  moduleEntry : UInt32 := 0x08900000
deriving DecidableEq

/-- Settings of guest memory. -/
structure MemoryConfig where
  /-- Whether the scratchpad is mapped. -/
  scratchpad : Bool := true
deriving DecidableEq

/-- Settings of the journal. -/
structure DebugConfig where
  logLevel : LogLevel := .info
  logToFile : Bool := false
  logPath : String := "oxidized-psp.log"
  /-- Whether every system call is noted with its arguments and result. -/
  traceSyscalls : Bool := false
deriving DecidableEq

/-- All settings. -/
structure Config where
  kernel : KernelConfig := {}
  memory : MemoryConfig := {}
  debug : DebugConfig := {}
deriving DecidableEq

end GuestKernel
