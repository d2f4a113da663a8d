/-
# What the components report

The events that an operation on memory, contexts, partitions, the ready queue or the object table gives rise to. They
depend on the component before the operation, never on the kernel around it.

Source: specification, 10.2.
-/

import GuestKernel.ReadyQueue
import GuestKernel.Journal.Event

namespace GuestKernel

/-- A refused access is reported as a fault. -/
def faultEvents {α : Type} : Except Fault α → List Event
  | .ok _ => []
  | .error fault => [.faulted fault]

namespace Memory

def mapEvents (m : Memory) : List Event := m.regions.map .regionMapped

end Memory

namespace Contexts

def allocateEvents (c : Contexts) (entry : UInt32) : List Event := [.contextAllocated c.freshId entry]

def releaseEvents (c : Contexts) (id : ContextId) : List Event :=
  if (c.get? id).isSome then [] else [.unknownContextReleased id]

def setRegisterEvents (c : Contexts) (id : ContextId) (index : Nat) : List Event :=
  if (c.get? id).isNone then [.unknownContextWritten id]
  else if index < 32 then []
  else [.registerOutOfRange index]

end Contexts

namespace Partition

def allocateEvents (p : Partition) (name : String) (placement : Placement) (alignment size : UInt32) :
    List Event :=
  match p.allocate name placement alignment size with
  | .ok (block, _) => [.blockAllocated p.name block]
  | .error .outOfMemory => [.allocationFailed p.name name size placement]
  | .error _ => []

def freeEvents (p : Partition) (block : Block) : List Event :=
  if p.owns block then [.blockFreed p.name block] else [.foreignBlockFreed p.name block]

end Partition

namespace ReadyQueue

def insertEvents (q : ReadyQueue) (thread : ThreadId) (priority : UInt32) : List Event :=
  if q.contains thread then [] else [.scheduled ⟨thread, priority⟩ (q.slot priority)]

end ReadyQueue

namespace Object

def registerEvents (o : Object) : List Event := [.registered o.kind o.name o.id]

end Object

end GuestKernel
