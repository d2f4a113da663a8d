/-
# Reading a configuration

Settings are read by name; what the text does not mention keeps its default, and names that mean nothing are passed over.
A record may also be written as an array, whose items are its fields in order. A partition has no defaults: all four of
its fields have to be there.

Source: specification, 10.4.
-/

import GuestKernel.Config.Basic
import GuestKernel.Text.Utf8
import GuestKernel.Toml.Statement

namespace GuestKernel

open Toml

/-- The fields of a value that stands for a record with the given field names, in order. -/
def recordFields? (names : List String) : Value → Option (List (Option Value))
  | .table _ fields => some (names.map fun name => Fields.get? name fields)
  | .array items => some ((List.range names.length).map fun i => items[i]?)
  | .tables elements => some ((List.range names.length).map fun i => elements[i]?.map (.table .header))
  | .dateTime _ => some (names.map fun _ => none)
  | _ => none

/-- A field, or its default where the text has none. -/
def fieldOr {α : Type} (default : α) (read : Value → Option α) : Option Value → Option α
  | none => some default
  | some v => read v

/-- A 32-bit word. -/
def word? : Value → Option UInt32
  | .integer i => if 0 ≤ i ∧ i < 0x100000000 then some (UInt32.ofNat i.toNat) else none
  | _ => none

def flag? : Value → Option Bool
  | .boolean b => some b
  | _ => none

def text? : Value → Option String
  | .string s => some s
  | _ => none

/-- A record or an array without content. -/
def isEmptyValue : Value → Bool
  | .array [] => true
  | .table _ [] => true
  | .tables [] => true
  | _ => false

/-- A threshold by its name, alone or as the one name of a table with nothing under it. -/
def level? : Value → Option LogLevel
  | .string s => LogLevel.ofName? s
  | .table _ [(name, v)] => if isEmptyValue v then LogLevel.ofName? name else none
  | _ => none

namespace PartitionConfig

def fieldNames : List String := ["id", "name", "base", "size"]

/-- The partition that a value stands for. -/
def ofValue? (v : Value) : Option PartitionConfig :=
  match recordFields? fieldNames v with
  | some [some id, some name, some base, some size] => do
    some { id := ← word? id, name := ← text? name, base := ← word? base, size := ← word? size }
  | _ => none

/-- The partitions that a value lists. -/
def listOfValue? : Value → Option (List PartitionConfig)
  | .array items => items.mapM ofValue?
  | .tables elements => elements.mapM fun fields => ofValue? (.table .header fields)
  | _ => none

end PartitionConfig

namespace KernelConfig

def fieldNames : List String :=
  ["partitions", "thread_partition", "tls_size", "default_stack_size", "min_stack_size", "module_gp",
    "module_entry"]

def ofValue? (v : Value) : Option KernelConfig :=
  let default : KernelConfig := {}
  match recordFields? fieldNames v with
  | some [partitions, threadPartition, tlsSize, defaultStackSize, minStackSize, moduleGp, moduleEntry] => do
    some {
      partitions := ← fieldOr default.partitions PartitionConfig.listOfValue? partitions
      threadPartition := ← fieldOr default.threadPartition word? threadPartition
      tlsSize := ← fieldOr default.tlsSize word? tlsSize
      defaultStackSize := ← fieldOr default.defaultStackSize word? defaultStackSize
      minStackSize := ← fieldOr default.minStackSize word? minStackSize
      moduleGp := ← fieldOr default.moduleGp word? moduleGp
      moduleEntry := ← fieldOr default.moduleEntry word? moduleEntry }
  | _ => none

end KernelConfig

namespace MemoryConfig

def ofValue? (v : Value) : Option MemoryConfig :=
  match recordFields? ["scratchpad"] v with
  | some [scratchpad] => do some { scratchpad := ← fieldOr true flag? scratchpad }
  | _ => none

end MemoryConfig

namespace DebugConfig

def fieldNames : List String := ["log_level", "log_to_file", "log_path", "trace_syscalls"]

def ofValue? (v : Value) : Option DebugConfig :=
  let default : DebugConfig := {}
  match recordFields? fieldNames v with
  | some [logLevel, logToFile, logPath, traceSyscalls] => do
    some {
      logLevel := ← fieldOr default.logLevel level? logLevel
      logToFile := ← fieldOr default.logToFile flag? logToFile
      logPath := ← fieldOr default.logPath text? logPath
      traceSyscalls := ← fieldOr default.traceSyscalls flag? traceSyscalls }
  | _ => none

end DebugConfig

namespace Config

/-- The settings that a table stands for. -/
def ofFields? (fields : Fields) : Option Config := do
  some {
    kernel := ← fieldOr {} KernelConfig.ofValue? (fields.get? "kernel")
    memory := ← fieldOr {} MemoryConfig.ofValue? (fields.get? "memory")
    debug := ← fieldOr {} DebugConfig.ofValue? (fields.get? "debug") }

/-- The settings that a text stands for. -/
def parse? (text : String) : Option Config := (Toml.read text.toList).bind ofFields?

/-- The settings in a file, which is missing or holds the given bytes. -/
def load (content : Option (List UInt8)) : Except HostError Config :=
  match content.bind Utf8.decode? with
  | none => .error .file
  | some text =>
    match parse? text with
    | some config => .ok config
    | none => .error .configuration

end Config

end GuestKernel
