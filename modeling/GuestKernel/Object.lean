/-
# Kernel objects

All objects share one space of ids. Ids count up from 1 and are never handed out twice; 0 stands for the calling
thread.

Source: specification, 2 and 3.
-/

import Std.Data.ExtTreeMap
import GuestKernel.Thread
import GuestKernel.Callback
import GuestKernel.Semaphore
import GuestKernel.EventFlag
import GuestKernel.Mutex
import GuestKernel.MessagePipe

namespace GuestKernel

/-- A block that the guest allocated out of a partition. -/
structure PartitionMemory where
  id : ObjectId
  partition : PartitionId
  block : Block
deriving DecidableEq

/-- A kernel object. -/
inductive Object where
  | thread (t : Thread)
  | callback (c : Callback)
  | semaphore (s : Semaphore)
  | eventFlag (f : EventFlag)
  | mutex (m : Mutex)
  | messagePipe (p : MessagePipe)
  | partitionMemory (b : PartitionMemory)
deriving DecidableEq

namespace Object

def kind : Object → ObjectKind
  | thread _ => .thread
  | callback _ => .callback
  | semaphore _ => .semaphore
  | eventFlag _ => .eventFlag
  | mutex _ => .mutex
  | messagePipe _ => .messagePipe
  | partitionMemory _ => .partitionMemory

def id : Object → ObjectId
  | thread t => t.id
  | callback c => c.id
  | semaphore s => s.id
  | eventFlag f => f.id
  | mutex m => m.id
  | messagePipe p => p.id
  | partitionMemory b => b.id

def name : Object → String
  | thread t => t.name
  | callback c => c.name
  | semaphore s => s.name
  | eventFlag f => f.name
  | mutex m => m.name
  | messagePipe p => p.name
  | partitionMemory b => b.block.name

/-- The threads queued on an object: joined threads, or waiters, senders before receivers. -/
def waiting : Object → List ThreadId
  | thread t => t.exitWaiters
  | callback _ => []
  | semaphore s => s.waiters.threads
  | eventFlag f => f.waiters.threads
  | mutex m => m.waiters.threads
  | messagePipe p => p.senders.threads ++ p.receivers.threads
  | partitionMemory _ => []

/-- Takes a thread off the queue of an object. -/
def removeWaiter (o : Object) (thread : ThreadId) : Object :=
  match o with
  | .thread t => .thread { t with exitWaiters := t.exitWaiters.filter (· != thread) }
  | .callback c => .callback c
  | .semaphore s => .semaphore { s with waiters := s.waiters.remove thread }
  | .eventFlag f => .eventFlag { f with waiters := f.waiters.remove thread }
  | .mutex m => .mutex { m with waiters := m.waiters.remove thread }
  | .messagePipe p =>
    if p.senders.holds thread then .messagePipe { p with senders := p.senders.remove thread }
    else .messagePipe { p with receivers := p.receivers.remove thread }
  | .partitionMemory b => .partitionMemory b

end Object

/-- The registered objects by id, and the id the next one gets. Every object stands under its own id. -/
@[ext] structure ObjectTable where
  entries : Std.ExtTreeMap ObjectId Object compare := ∅
  nextId : ObjectId := 1
  keyed : ∀ (id : ObjectId) (o : Object), entries[id]? = some o → o.id = id := by simp

namespace ObjectTable

def empty : ObjectTable := {}

def get? (t : ObjectTable) (id : ObjectId) : Option Object := t.entries[id]?

/-- Registers an object under its id, in place of one that had it. -/
def put (t : ObjectTable) (o : Object) : ObjectTable where
  entries := t.entries.insert o.id o
  nextId := t.nextId
  keyed id x h := by
    rw [Std.ExtTreeMap.getElem?_insert] at h
    split at h
    · cases h
      exact Std.LawfulEqCmp.eq_of_compare ‹_›
    · exact t.keyed id x h

def erase (t : ObjectTable) (id : ObjectId) : ObjectTable where
  entries := t.entries.erase id
  nextId := t.nextId
  keyed id' x h := by
    rw [Std.ExtTreeMap.getElem?_erase] at h
    split at h
    · simp at h
    · exact t.keyed id' x h

/-- The table after an id has been handed out. -/
def skipId (t : ObjectTable) : ObjectTable := { t with nextId := t.nextId + 1 }

@[simp] theorem get?_put (t : ObjectTable) (o : Object) (id : ObjectId) :
    (t.put o).get? id = if o.id = id then some o else t.get? id := by
  simp [put, get?, Std.ExtTreeMap.getElem?_insert]

@[simp] theorem get?_erase (t : ObjectTable) (id id' : ObjectId) :
    (t.erase id).get? id' = if id = id' then none else t.get? id' := by
  simp [erase, get?, Std.ExtTreeMap.getElem?_erase]

/-- The registered objects by ascending id. -/
def toList (t : ObjectTable) : List Object := t.entries.toList.map (·.2)

def size (t : ObjectTable) : Nat := t.entries.size

/-- How many objects of a kind are registered. -/
def countKind (t : ObjectTable) (kind : ObjectKind) : Nat := t.toList.countP (·.kind == kind)

/-- The thread of an id. -/
def thread? (t : ObjectTable) (id : ThreadId) : Option Thread :=
  match t.get? id with
  | some (.thread x) => some x
  | _ => none

/-- The callback of an id. -/
def callback? (t : ObjectTable) (id : ObjectId) : Option Callback :=
  match t.get? id with
  | some (.callback x) => some x
  | _ => none

/-- The semaphore of an id. -/
def semaphore? (t : ObjectTable) (id : ObjectId) : Option Semaphore :=
  match t.get? id with
  | some (.semaphore x) => some x
  | _ => none

/-- The event flag of an id. -/
def eventFlag? (t : ObjectTable) (id : ObjectId) : Option EventFlag :=
  match t.get? id with
  | some (.eventFlag x) => some x
  | _ => none

/-- The mutex of an id. -/
def mutex? (t : ObjectTable) (id : ObjectId) : Option Mutex :=
  match t.get? id with
  | some (.mutex x) => some x
  | _ => none

/-- The message pipe of an id. -/
def messagePipe? (t : ObjectTable) (id : ObjectId) : Option MessagePipe :=
  match t.get? id with
  | some (.messagePipe x) => some x
  | _ => none

/-- The partition memory of an id. -/
def partitionMemory? (t : ObjectTable) (id : ObjectId) : Option PartitionMemory :=
  match t.get? id with
  | some (.partitionMemory x) => some x
  | _ => none

/-- The object of an id, if it is of the wanted kind. -/
def find? (t : ObjectTable) (kind : ObjectKind) (id : ObjectId) : Option Object :=
  (t.get? id).filter (·.kind == kind)

end ObjectTable

end GuestKernel
