/-
# Writing a configuration

All settings are written, each on a line of its own, under a header per record. A blank line goes before every header
but the first. Partitions follow the other settings of the kernel as tables one after another; if there are none, an
empty array goes first.

Source: specification, 10.4.
-/

import GuestKernel.Config.Basic
import GuestKernel.Toml.Quoted

namespace GuestKernel

namespace Toml

/-- A line that gives a name a value. -/
def assignmentLine (key : String) (value : List Char) : List Char :=
  key.toList ++ [' ', '=', ' '] ++ value ++ ['\n']

/-- The header of a table. -/
def headerLine (path : String) : List Char := '[' :: path.toList ++ [']', '\n']

/-- The header of one of the tables written one after another. -/
def elementLine (path : String) : List Char := '[' :: '[' :: path.toList ++ [']', ']', '\n']

/-- A number in decimal digits. -/
def writeWord (w : UInt32) : List Char := Nat.toDigits 10 w.toNat

def writeFlag (b : Bool) : List Char := if b then "true".toList else "false".toList

end Toml

open Toml

namespace PartitionConfig

def render (p : PartitionConfig) : List Char :=
  '\n' :: elementLine "kernel.partitions" ++ assignmentLine "id" (writeWord p.id) ++
    assignmentLine "name" (writeQuoted p.name) ++ assignmentLine "base" (writeWord p.base) ++
    assignmentLine "size" (writeWord p.size)

end PartitionConfig

namespace KernelConfig

def render (c : KernelConfig) : List Char :=
  headerLine "kernel" ++ (if c.partitions.isEmpty then assignmentLine "partitions" ['[', ']'] else []) ++
    assignmentLine "thread_partition" (writeWord c.threadPartition) ++
    assignmentLine "tls_size" (writeWord c.tlsSize) ++
    assignmentLine "default_stack_size" (writeWord c.defaultStackSize) ++
    assignmentLine "min_stack_size" (writeWord c.minStackSize) ++
    assignmentLine "module_gp" (writeWord c.moduleGp) ++
    assignmentLine "module_entry" (writeWord c.moduleEntry) ++
    c.partitions.flatMap PartitionConfig.render

end KernelConfig

namespace MemoryConfig

def render (c : MemoryConfig) : List Char :=
  '\n' :: headerLine "memory" ++ assignmentLine "scratchpad" (writeFlag c.scratchpad)

end MemoryConfig

namespace DebugConfig

def render (c : DebugConfig) : List Char :=
  '\n' :: headerLine "debug" ++ assignmentLine "log_level" (writeQuoted c.logLevel.name) ++
    assignmentLine "log_to_file" (writeFlag c.logToFile) ++
    assignmentLine "log_path" (writeQuoted c.logPath) ++
    assignmentLine "trace_syscalls" (writeFlag c.traceSyscalls)

end DebugConfig

namespace Config

/-- The text of all settings. -/
def render (c : Config) : String :=
  String.ofList (c.kernel.render ++ c.memory.render ++ c.debug.render)

end Config

end GuestKernel
