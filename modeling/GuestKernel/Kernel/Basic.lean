/-
# The kernel

The whole state of the kernel is one value: objects, partitions, started threads, ready queue, the running thread, the
clock, the callback being delivered, the contexts of the processor, guest memory, and the journal of what happened.

A call is a function from a kernel to a `Reply`: a result and the kernel after it. A call that fails may still have
moved the kernel; where it may not, that is a theorem.

Source: specification, 2.
-/

import GuestKernel.Clock
import GuestKernel.Config.Basic
import GuestKernel.Journal.Report

namespace GuestKernel

/-- The state of the kernel. -/
structure Kernel where
  config : KernelConfig
  memory : Memory
  contexts : Contexts := {}
  objects : ObjectTable := .empty
  partitions : Std.ExtTreeMap PartitionId Partition compare := ∅
  /-- Started threads that have not been deleted, in the order they were first started. -/
  started : List ThreadId := []
  ready : ReadyQueue := {}
  /-- The thread on the processor. -/
  current : Option ThreadId := none
  clock : Clock := {}
  /-- The callback that runs on a thread's context. -/
  delivering : Option Delivery := none
  /-- The events so far, latest first. -/
  journal : List Event := []

/-- The result of a call and the kernel after it. -/
structure Reply (α : Type) where
  result : Except KernelError α
  kernel : Kernel

namespace Reply

variable {α β : Type}

/-- Goes on with a second call unless the first failed. -/
def andThen (r : Reply α) (next : α → Kernel → Reply β) : Reply β :=
  match r.result with
  | .ok a => next a r.kernel
  | .error e => ⟨.error e, r.kernel⟩

/-- The reply with another value in place of the result of a success. -/
def map (f : α → β) (r : Reply α) : Reply β := ⟨r.result.map f, r.kernel⟩

end Reply

namespace Kernel

variable {α : Type}

/-- A success that leaves the kernel as given. -/
def done (k : Kernel) (a : α) : Reply α := ⟨.ok a, k⟩

/-- A failure that leaves the kernel as given. -/
def refuse (k : Kernel) (e : KernelError) : Reply α := ⟨.error e, k⟩

/-- Notes an event. -/
def note (k : Kernel) (e : Event) : Kernel := { k with journal := e :: k.journal }

/-- Notes events, the first one first. -/
def noteAll (k : Kernel) (es : List Event) : Kernel := { k with journal := es.reverse ++ k.journal }

/-- A failure by a refused access to guest memory. -/
def fault (k : Kernel) (f : Fault) : Reply α := (k.note (.faulted f)).refuse (.memory f.error)

/-- The events noted so far, the first one first. -/
def events (k : Kernel) : List Event := k.journal.reverse

/-- Adds a configured partition; it replaces one of the same number. -/
def addPartition (k : Kernel) (c : PartitionConfig) : Kernel :=
  let partition : Partition := { id := c.id, name := c.name, base := c.base, size := c.size }
  let replaced := if (k.partitions[c.id]?).isSome then [Event.partitionReplaced c.id] else []
  { k.noteAll (.partitionAdded partition :: replaced) with
    partitions := k.partitions.insert c.id partition }

/-- A kernel with no threads and the configured partitions. -/
def new (config : KernelConfig) (memory : Memory) : Kernel :=
  config.partitions.foldl addPartition { config, memory }

/-- The current tick count. -/
def now (k : Kernel) : UInt64 := k.clock.now

def thread? (k : Kernel) (id : ThreadId) : Option Thread := k.objects.thread? id

/-- The partitions by ascending number. -/
def partitionList (k : Kernel) : List Partition := k.partitions.toList.map (·.2)

/-- The kernel with another version of an object. -/
def put (k : Kernel) (o : Object) : Kernel := { k with objects := k.objects.put o }

/-- The kernel with another version of a thread. -/
def putThread (k : Kernel) (t : Thread) : Kernel := k.put (.thread t)

/-- The id that the next new object gets. -/
def nextId (k : Kernel) : ObjectId := k.objects.nextId

/-- Registers an object under an id handed out for it. -/
def register (k : Kernel) (o : Object) : Kernel :=
  { k.noteAll o.registerEvents with objects := k.objects.put o }

/-- Registers a new object, which has the next id. -/
def registerNew (k : Kernel) (o : Object) : Kernel :=
  { k.noteAll o.registerEvents with objects := k.objects.skipId.put o }

/-- Unregisters an object of a kind. -/
def unregister (k : Kernel) (kind : ObjectKind) (id : ObjectId) : Reply Unit :=
  match k.objects.find? kind id with
  | some _ => ({ k.note (.unregistered kind id) with objects := k.objects.erase id }).done ()
  | none => k.refuse (.unknown kind id)

/-- Writes a register of a context. -/
def setRegister (k : Kernel) (context : ContextId) (index : Nat) (value : UInt32) : Kernel :=
  { k.noteAll (k.contexts.setRegisterEvents context index) with
    contexts := k.contexts.setRegister context index value }

/-- Writes all registers of a context. -/
def setRegisters (k : Kernel) (context : ContextId) (values : Registers) : Kernel :=
  (List.finRange 32).foldl (fun k (i : Fin 32) => k.setRegister context i (values.get i)) k

/-- Gives a context back. -/
def releaseContext (k : Kernel) (context : ContextId) : Kernel :=
  { k.noteAll (k.contexts.releaseEvents context) with contexts := k.contexts.release context }

/-- Makes a context that starts at `entry`. -/
def allocateContext (k : Kernel) (entry : UInt32) (registers : Registers) : Kernel :=
  { k.noteAll (k.contexts.allocateEvents entry) with contexts := k.contexts.allocate entry registers }

/-- Allocates a block in a partition. -/
def allocateBlock (k : Kernel) (partition : PartitionId) (name : String) (placement : Placement)
    (alignment size : UInt32) : Reply Block :=
  match k.partitions[partition]? with
  | none => k.refuse (.illegalPartition partition)
  | some p =>
    let k := k.noteAll (p.allocateEvents name placement alignment size)
    match p.allocate name placement alignment size with
    | .error e => k.refuse e
    | .ok (block, p) => ({ k with partitions := k.partitions.insert partition p }).done block

/-- Returns a block to a partition. -/
def freeBlock (k : Kernel) (partition : PartitionId) (block : Block) : Reply Unit :=
  match k.partitions[partition]? with
  | none => k.refuse (.illegalPartition partition)
  | some p =>
    let k := k.noteAll (p.freeEvents block)
    match p.free block with
    | .error e => k.refuse e
    | .ok p => ({ k with partitions := k.partitions.insert partition p }).done ()

/-- Stores another memory, or fails with the fault that kept it from being made. -/
def withMemory (k : Kernel) (m : Except Fault Memory) : Reply Unit :=
  match m with
  | .ok m => ({ k with memory := m }).done ()
  | .error f => k.fault f

/-- The result of a question that leaves the kernel as it is. -/
def answer (k : Kernel) (result : Except KernelError α) : Reply α := ⟨result, k⟩

/-- The thread of an id, or the error that there is none. -/
def thread (k : Kernel) (id : ThreadId) : Except KernelError Thread :=
  match k.thread? id with
  | some t => .ok t
  | none => .error (.unknown .thread id)

/-- The running thread's id, which a call from outside a thread lacks. -/
def currentId (k : Kernel) : Except KernelError ThreadId :=
  match k.current with
  | some id => .ok id
  | none => .error .illegalContext

/-- The thread that the guest names: 0 means the running one. -/
def resolve (k : Kernel) (id : ThreadId) : Except KernelError ThreadId :=
  if id = 0 then k.currentId else .ok id

end Kernel

end GuestKernel
