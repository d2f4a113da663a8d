/-
# Message pipes

A message pipe is a stream of bytes with room for `capacity` of them. Senders and receivers queue apart, each side is
served from its front, and receivers come first.

| mode | a request moves |
| ---: | --- |
| 0 | all its bytes or none |
| 1 | as many as possible, at least one unless it asks for none |

Source: specification, 3 and 4.5.
-/

import GuestKernel.Memory
import GuestKernel.Partition
import GuestKernel.WaitQueue

namespace GuestKernel

/-- A transfer between a guest buffer and a pipe; the bytes moved are written to `outAddress` unless it is 0. -/
structure PipeRequest where
  address : UInt32
  size : UInt32
  mode : UInt32
  outAddress : UInt32
deriving DecidableEq

namespace PipeRequest

def wholeMode : UInt32 := 0
def partialMode : UInt32 := 1

/-- How many bytes a request moves when `available` could be moved. -/
def amount? (r : PipeRequest) (available : Nat) : Option Nat :=
  if r.mode = wholeMode then
    if r.size.toNat ≤ available then some r.size.toNat else none
  else if r.mode = partialMode then
    if 0 < available ∨ r.size = 0 then some (min r.size.toNat available) else none
  else none

theorem amount?_le {r : PipeRequest} {available n : Nat} (h : r.amount? available = some n) :
    n ≤ available ∧ n ≤ r.size.toNat := by
  unfold amount? at h
  split at h
  · split at h <;> simp_all
  · split at h
    · split at h
      · simp only [Option.some.injEq] at h; omega
      · simp at h
    · simp at h

/-- The guest side of a transfer: the buffer, if any byte moves, and the word for the amount, if there is one,
are mapped. -/
def checkMemory (r : PipeRequest) (m : Memory) (amount : Nat) : Except Fault Unit :=
  match (if 0 < amount then (m.locate r.address amount).map fun _ => () else .ok ()) with
  | .error fault => .error fault
  | .ok () => if r.outAddress = 0 then .ok () else (m.locate r.outAddress 4).map fun _ => ()

end PipeRequest

/-- A message pipe; its capacity is the size of the block it holds in a partition. -/
structure MessagePipe where
  id : ObjectId
  name : String
  attributes : UInt32
  partition : PartitionId
  block : Block
  buffer : List UInt8 := []
  senders : WaitQueue PipeRequest := []
  receivers : WaitQueue PipeRequest := []
deriving DecidableEq

namespace MessagePipe

def capacity (p : MessagePipe) : UInt32 := p.block.size

/-- Bytes that can still be sent. -/
def room (p : MessagePipe) : Nat := p.capacity.toNat - p.buffer.length

def hasWaiters (p : MessagePipe) : Bool := !p.senders.isEmpty || !p.receivers.isEmpty

/-- How many bytes a send moves now. -/
def sendAmount? (p : MessagePipe) (r : PipeRequest) : Option Nat := r.amount? p.room

/-- How many bytes a receive moves now. -/
def receiveAmount? (p : MessagePipe) (r : PipeRequest) : Option Nat := r.amount? p.buffer.length

/-- A request has a known mode, and one that moves all or nothing is not larger than the pipe. -/
def check (p : MessagePipe) (r : PipeRequest) : Except KernelError Unit :=
  if r.mode ≠ PipeRequest.wholeMode ∧ r.mode ≠ PipeRequest.partialMode then .error .illegalArgument
  else if r.mode = PipeRequest.wholeMode ∧ p.capacity < r.size then .error (.illegalSize r.size)
  else .ok ()

/-- The pipe with more bytes at its end. -/
def push (p : MessagePipe) (bytes : List UInt8) : MessagePipe := { p with buffer := p.buffer ++ bytes }

/-- The pipe without its first `count` bytes. -/
def drop (p : MessagePipe) (count : Nat) : MessagePipe := { p with buffer := p.buffer.drop count }

def enqueueSender (p : MessagePipe) (w : Waiter PipeRequest) : MessagePipe :=
  { p with senders := p.senders.enqueue p.attributes w }

def enqueueReceiver (p : MessagePipe) (w : Waiter PipeRequest) : MessagePipe :=
  { p with receivers := p.receivers.enqueue p.attributes w }

/-- The pipe without waiters and without bytes. -/
def reset (p : MessagePipe) : MessagePipe := { p with buffer := [], senders := [], receivers := [] }

/-- The words of the pipe's status block. -/
def statusWords (p : MessagePipe) : List UInt32 :=
  [p.attributes, p.capacity, UInt32.ofNat p.room, UInt32.ofNat p.senders.length,
    UInt32.ofNat p.receivers.length]

/-- A queued request that can be served. -/
inductive Transfer where
  /-- The waiter's guest buffer receives the first bytes of the pipe. -/
  | receive (w : Waiter PipeRequest) (bytes : List UInt8)
  /-- The pipe receives bytes of the waiter's guest buffer. -/
  | send (w : Waiter PipeRequest) (amount : Nat)
  /-- The waiter's guest pointers are bad, so nothing moves. -/
  | reject (w : Waiter PipeRequest) (fault : Fault)
deriving DecidableEq

/-- The next request to serve, if any, and the pipe without it; a receiver at the front comes before a sender.
Received bytes are taken out here; sent bytes are put in when they have been read. -/
def next? (p : MessagePipe) (m : Memory) : Option (Transfer × MessagePipe) :=
  let receiver? : Option (Transfer × MessagePipe) :=
    match p.receivers with
    | [] => none
    | w :: rest =>
      (p.receiveAmount? w.request).map fun amount =>
        let p := { p with receivers := rest }
        match w.request.checkMemory m amount with
        | .error fault => (.reject w fault, p)
        | .ok () => (.receive w (p.buffer.take amount), p.drop amount)
  match receiver? with
  | some found => some found
  | none =>
    match p.senders with
    | [] => none
    | w :: rest =>
      (p.sendAmount? w.request).map fun amount =>
        let p := { p with senders := rest }
        match w.request.checkMemory m amount with
        | .error fault => (.reject w fault, p)
        | .ok () => (.send w amount, p)

end MessagePipe

end GuestKernel
