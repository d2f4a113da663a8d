/-
# Partition memory calls

Blocks that the guest allocates out of a partition are objects, so that it can free them by id.

Source: specification, 4.7.
-/

import GuestKernel.Kernel.Basic

namespace GuestKernel
namespace Kernel

/-- Blocks without a fixed address start at multiples of this. -/
def blockAlignment : UInt32 := 0x100

/-- The placement that the guest asks for: 0 low, 1 high, 2 at an address. -/
def placementOf (kind address : UInt32) : Except KernelError Placement :=
  if kind = 0 then .ok .low
  else if kind = 1 then .ok .high
  else if kind = 2 then .ok (.fixed address)
  else .error .illegalArgument

/-- The alignment of a placement: none for a fixed address. -/
def alignmentOf : Placement → UInt32
  | .fixed _ => 1
  | _ => blockAlignment

/-- Allocates a block for the guest. -/
def allocateMemory (k : Kernel) (partition : PartitionId) (name : String) (kind size address : UInt32) :
    Reply ObjectId :=
  match placementOf kind address with
  | .error e => k.refuse e
  | .ok placement =>
    if size = 0 then k.refuse (.illegalMemorySize size)
    else
      (k.allocateBlock partition name placement (alignmentOf placement) size).andThen fun block k =>
        let id := k.nextId
        let k := k.note (.guestBlockAllocated partition id block)
        (k.registerNew (.partitionMemory { id, partition, block })).done id

/-- Frees a block of the guest. -/
def freeMemory (k : Kernel) (id : ObjectId) : Reply Unit :=
  match k.objects.partitionMemory? id with
  | none => k.refuse (.unknown .partitionMemory id)
  | some b => (k.freeBlock b.partition b.block).andThen fun _ k => k.unregister .partitionMemory id

/-- The first address of a block. -/
def blockAddress (k : Kernel) (id : ObjectId) : Except KernelError UInt32 :=
  match k.objects.partitionMemory? id with
  | none => .error (.unknown .partitionMemory id)
  | some b => .ok b.block.address

/-- A number about the partition of stacks. -/
def threadPartitionSize (k : Kernel) (measure : Partition → UInt32) : Except KernelError UInt32 :=
  match k.partitions[k.config.threadPartition]? with
  | some p => .ok (measure p)
  | none => .error (.illegalPartition k.config.threadPartition)

end Kernel
end GuestKernel
