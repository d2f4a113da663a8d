/-
# Execution contexts

The processor keeps a context of 32 registers for each started thread. The kernel asks for one when a thread starts,
writes results into it, and gives it back when the thread is deleted.

| register | number | use |
| --- | ---: | --- |
| `v0` | 2 | result of a call |
| `a0`-`a3`, `t0`-`t3` | 4-11 | arguments |
| `k0` | 26 | thread-local storage |
| `gp` | 28 | global pointer |
| `sp` | 29 | stack pointer |

Source: specification, 6.
-/

import Std.Data.ExtTreeMap
import GuestKernel.Error

namespace GuestKernel

/-- The id of a context. -/
abbrev ContextId := UInt32

/-- The registers of a context. -/
abbrev Registers := Vector UInt32 32

namespace Register

def v0 : Fin 32 := 2
def a0 : Fin 32 := 4
def a1 : Fin 32 := 5
def a2 : Fin 32 := 6
def k0 : Fin 32 := 26
def gp : Fin 32 := 28
def sp : Fin 32 := 29

end Register

/-- Where a context started, and its registers. -/
structure Context where
  entry : UInt32
  registers : Registers
deriving DecidableEq

/-- The live contexts and the id the next one gets. -/
@[ext] structure Contexts where
  table : Std.ExtTreeMap ContextId Context compare := ∅
  nextId : ContextId := 1

namespace Contexts

def get? (c : Contexts) (id : ContextId) : Option Context := c.table[id]?

def size (c : Contexts) : Nat := c.table.size

/-- The id the next context gets; it is never 0. -/
def freshId (c : Contexts) : ContextId := max c.nextId 1

/-- Makes a context that starts at `entry`. -/
def allocate (c : Contexts) (entry : UInt32) (registers : Registers) : Contexts :=
  { table := c.table.insert c.freshId ⟨entry, registers⟩, nextId := c.freshId + 1 }

/-- Gives a context back; an unknown one changes nothing. -/
def release (c : Contexts) (id : ContextId) : Contexts := { c with table := c.table.erase id }

/-- Writes a register; an unknown context or register changes nothing. -/
def setRegister (c : Contexts) (id : ContextId) (index : Nat) (value : UInt32) : Contexts :=
  match c.get? id with
  | some context =>
    if h : index < 32 then
      { c with table := c.table.insert id { context with registers := context.registers.set index value } }
    else c
  | none => c

/-- Reads a register; an unknown context or register reads 0. -/
def register (c : Contexts) (id : ContextId) (index : Nat) : UInt32 :=
  match c.get? id with
  | some context => context.registers[index]?.getD 0
  | none => 0

/-- All registers of a context. -/
def registers (c : Contexts) (id : ContextId) : Registers :=
  Vector.ofFn fun i => c.register id i

/-- Writes all registers of a context, lowest first. -/
def setRegisters (c : Contexts) (id : ContextId) (values : Registers) : Contexts :=
  (List.finRange 32).foldl (fun c (i : Fin 32) => c.setRegister id i (values.get i)) c

end Contexts

end GuestKernel
