/-
# Message pipe calls

A request is tried at once if nobody of its side is queued. Each transfer may let queued requests of either side go on,
so it is followed by `settle`, which serves them until none can be.

Source: specification, 4.5.
-/

import GuestKernel.Kernel.StatusBlock
import GuestKernel.Kernel.Waiting

namespace GuestKernel
namespace Kernel

/-- Pipe buffers start at multiples of this. -/
def pipeAlignment : UInt32 := 0x100

/-- Creates a pipe; its capacity is taken out of a partition. -/
def createPipe (k : Kernel) (name : String) (partition : PartitionId) (attributes size : UInt32) :
    Reply ObjectId :=
  if size = 0 then k.refuse (.illegalSize size)
  else
    (k.allocateBlock partition ("pipe:" ++ name) .low pipeAlignment size).andThen fun block k =>
      let id := k.nextId
      let k := k.note (.pipeCreated name id partition block)
      (k.registerNew (.messagePipe { id, name, attributes, partition, block })).done id

/-- Deletes a pipe on which nobody waits. -/
def deletePipe (k : Kernel) (id : ObjectId) : Reply Unit :=
  match k.objects.messagePipe? id with
  | none => k.refuse (.unknown .messagePipe id)
  | some p =>
    if p.hasWaiters then k.refuse .resourceBusy
    else
      (k.freeBlock p.partition p.block).andThen fun _ k => k.unregister .messagePipe id

/-- Completes a queued receive with bytes that have left the pipe. -/
def completeReceive (k : Kernel) (pipe : ObjectId) (w : Waiter PipeRequest) (bytes : List UInt8) : Kernel :=
  match k.memory.writeBytes w.request.address bytes with
  | .error f =>
    let e := KernelError.memory f.error
    let k := (k.note (.faulted f)).note (.receiveFailed pipe w.request.address e)
    (k.note (.received pipe w.thread bytes.length)).wake w.thread e.code
  | .ok memory =>
    let k := { k with memory }
    match memory.writeOptional w.request.outAddress (UInt32.ofNat bytes.length) with
    | .error f =>
      let e := KernelError.memory f.error
      let k := (k.note (.faulted f)).note (.receiveFailed pipe w.request.address e)
      (k.note (.received pipe w.thread bytes.length)).wake w.thread e.code
    | .ok memory =>
      (({ k with memory }).note (.received pipe w.thread bytes.length)).wake w.thread 0

/-- Completes a queued send: its bytes enter the pipe. -/
def completeSend (k : Kernel) (p : MessagePipe) (w : Waiter PipeRequest) (amount : Nat) :
    Kernel × MessagePipe :=
  match k.memory.readBytes w.request.address amount with
  | .error f =>
    let k := (k.note (.faulted f)).note (.sendFailed p.id w.request.address f.error)
    ((k.note (.sent p.id w.thread amount)).wake w.thread (KernelError.memory f.error).code, p)
  | .ok bytes =>
    match k.memory.writeOptional w.request.outAddress (UInt32.ofNat amount) with
    | .error f =>
      let k := (k.note (.faulted f)).note (.sent p.id w.thread amount)
      (k.wake w.thread (KernelError.memory f.error).code, p.push bytes)
    | .ok memory =>
      ((({ k with memory }).note (.sent p.id w.thread amount)).wake w.thread 0, p.push bytes)

/-- Serves one queued request. -/
def transfer (k : Kernel) (p : MessagePipe) : MessagePipe.Transfer → Kernel × MessagePipe
  | .receive w bytes => (k.completeReceive p.id w bytes, p)
  | .send w amount => k.completeSend p w amount
  | .reject w f =>
    let e := KernelError.memory f.error
    let k := (k.note (.faulted f)).note (.pipeRequestDropped p.id w.thread e)
    (k.wake w.thread e.code, p)

/-- Serves up to `rounds` queued requests. -/
def settleFor (k : Kernel) (p : MessagePipe) : (rounds : Nat) → Kernel × MessagePipe
  | 0 => (k, p)
  | n + 1 =>
    match p.next? k.memory with
    | none => (k, p)
    | some (t, p) =>
      let (k, p) := k.transfer p t
      k.settleFor p n

/-- Serves queued requests until none can be; each round serves one, so there are no more rounds than waiters. -/
def settle (k : Kernel) (p : MessagePipe) : Kernel :=
  let (k, p) := k.settleFor p (p.senders.length + p.receivers.length)
  k.put (.messagePipe p)

/-- The pipe of an id, if it can take a request. -/
def admitPipeRequest (k : Kernel) (id : ObjectId) (r : PipeRequest) : Except KernelError MessagePipe :=
  match k.objects.messagePipe? id with
  | none => .error (.unknown .messagePipe id)
  | some p => (p.check r).map fun _ => p

/-- Sends at once or fails. -/
def trySendPipe (k : Kernel) (id : ObjectId) (r : PipeRequest) : Reply Unit :=
  match k.admitPipeRequest id r with
  | .error e => k.refuse e
  | .ok p =>
    match (if p.senders.isEmpty then p.sendAmount? r else none) with
    | none => k.refuse .pipeFull
    | some amount =>
      match r.checkMemory k.memory amount with
      | .error f => k.fault f
      | .ok () =>
        match k.memory.readBytes r.address amount with
        | .error f => k.fault f
        | .ok bytes =>
          match k.memory.writeOptional r.outAddress (UInt32.ofNat amount) with
          | .ok memory => (({ k with memory }).settle (p.push bytes)).done ()
          | .error f => ((k.note (.faulted f)).settle (p.push bytes)).refuse (.memory f.error)

/-- Receives at once or fails. -/
def tryReceivePipe (k : Kernel) (id : ObjectId) (r : PipeRequest) : Reply Unit :=
  match k.admitPipeRequest id r with
  | .error e => k.refuse e
  | .ok p =>
    match (if p.receivers.isEmpty then p.receiveAmount? r else none) with
    | none => k.refuse .pipeEmpty
    | some amount =>
      match r.checkMemory k.memory amount with
      | .error f => k.fault f
      | .ok () =>
        let bytes := p.buffer.take amount
        let p := p.drop amount
        match k.memory.writeBytes r.address bytes with
        | .error f => (k.put (.messagePipe p)).fault f
        | .ok memory =>
          let k := { k with memory }
          match memory.writeOptional r.outAddress (UInt32.ofNat bytes.length) with
          | .error f => (k.put (.messagePipe p)).fault f
          | .ok memory => (({ k with memory }).settle p).done ()

/-- The wait of a pipe request. -/
def pipeWait (id : ObjectId) (r : PipeRequest) (timeoutAddress : UInt32) (callbacks sending : Bool) : Wait :=
  { kind := .messagePipe, handle := id, mode := r.mode, argument := r.size, address := r.address,
    resultAddress := r.outAddress, timeoutAddress, callbacks, sending }

/-- Parks the running thread with a pipe request. -/
def blockOnPipe (k : Kernel) (id : ObjectId) (r : PipeRequest) (timeoutAddress : UInt32)
    (callbacks sending : Bool) : Reply WaitOutcome :=
  match k.objects.messagePipe? id with
  | none => k.refuse (.unknown .messagePipe id)
  | some p =>
    k.block (pipeWait id r timeoutAddress callbacks sending) r fun w =>
      .messagePipe (if sending then p.enqueueSender w else p.enqueueReceiver w)

/-- Sends, or parks the running thread until there is room. -/
def sendPipe (k : Kernel) (id : ObjectId) (r : PipeRequest) (timeoutAddress : UInt32) (callbacks : Bool) :
    Reply WaitOutcome :=
  match k.trySendPipe id r with
  | ⟨.error .pipeFull, k⟩ => k.blockOnPipe id r timeoutAddress callbacks true
  | reply => reply.map fun _ => .completed 0

/-- Receives, or parks the running thread until there are bytes. -/
def receivePipe (k : Kernel) (id : ObjectId) (r : PipeRequest) (timeoutAddress : UInt32)
    (callbacks : Bool) : Reply WaitOutcome :=
  match k.tryReceivePipe id r with
  | ⟨.error .pipeEmpty, k⟩ => k.blockOnPipe id r timeoutAddress callbacks false
  | reply => reply.map fun _ => .completed 0

/-- Empties a pipe and sends all waiters away; the numbers of senders and receivers are written to guest
words. -/
def cancelPipe (k : Kernel) (id : ObjectId) (sendersAddress receiversAddress : UInt32) : Reply Unit :=
  match k.objects.messagePipe? id with
  | none => k.refuse (.unknown .messagePipe id)
  | some p =>
    let k := k.put (.messagePipe p.reset)
    (k.withMemory (k.memory.writeOptional sendersAddress (UInt32.ofNat p.senders.length))).andThen fun _ k =>
      (k.withMemory (k.memory.writeOptional receiversAddress (UInt32.ofNat p.receivers.length))).andThen
        fun _ k =>
          (k.wakeAll (p.senders.threads ++ p.receivers.threads) KernelError.waitCancelled.code).done ()

/-- Writes the pipe's status block. -/
def referPipe (k : Kernel) (id : ObjectId) (address : UInt32) : Reply Unit :=
  match k.objects.messagePipe? id with
  | none => k.refuse (.unknown .messagePipe id)
  | some p => k.writeStatus address p.name p.statusWords

end Kernel
end GuestKernel
