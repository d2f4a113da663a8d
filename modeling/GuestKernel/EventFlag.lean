/-
# Event flags

An event flag is a pattern of 32 bits. A thread waits for all or for any of some bits, and may clear them, or the
whole pattern, as it goes on.

| mode bit | meaning |
| ---: | --- |
| `0x01` | any of the bits; otherwise all of them |
| `0x10` | clear the whole pattern |
| `0x20` | clear the awaited bits |

Source: specification, 3 and 4.6.
-/

import GuestKernel.WaitQueue

namespace GuestKernel

/-- What a thread waits for: bits, how they are matched and cleared, and where the pattern seen is written. -/
structure EventRequest where
  bits : UInt32
  mode : UInt32
  outAddress : UInt32
deriving DecidableEq

namespace EventRequest

def anyBit : UInt32 := 0x01
def clearAll : UInt32 := 0x10
def clearBits : UInt32 := 0x20

/-- The bits a mode may have. -/
def validMode : UInt32 := anyBit ||| clearAll ||| clearBits

/-- Whether a pattern satisfies the request. -/
def matched (r : EventRequest) (pattern : UInt32) : Bool :=
  if r.mode &&& anyBit != 0 then pattern &&& r.bits != 0 else pattern &&& r.bits == r.bits

/-- The pattern that a satisfied request leaves. -/
def cleared (r : EventRequest) (pattern : UInt32) : UInt32 :=
  if r.mode &&& clearAll != 0 then 0
  else if r.mode &&& clearBits != 0 then pattern &&& ~~~r.bits
  else pattern

/-- A request names at least one bit and uses only the known mode bits. -/
def check (r : EventRequest) : Except KernelError Unit :=
  if r.bits = 0 then .error .eventFlagPattern
  else if r.mode &&& ~~~validMode ≠ 0 then .error .illegalArgument
  else .ok ()

end EventRequest

/-- The attribute bit that lets several threads wait at a time. -/
def attributeMultiple : UInt32 := 0x200

/-- An event flag. -/
structure EventFlag where
  id : ObjectId
  name : String
  attributes : UInt32
  initialPattern : UInt32
  pattern : UInt32
  waiters : WaitQueue EventRequest := []
deriving DecidableEq

/-- A waiter let go by an event flag and the pattern it saw. -/
structure EventGrant where
  thread : ThreadId
  outAddress : UInt32
  seen : UInt32
deriving DecidableEq

namespace EventFlag

/-- An event flag at its initial pattern. -/
def new (id : ObjectId) (name : String) (attributes initialPattern : UInt32) : EventFlag :=
  { id, name, attributes, initialPattern, pattern := initialPattern }

/-- Whether the flag turns a further waiter away. -/
def isTaken (f : EventFlag) : Bool := f.attributes &&& attributeMultiple == 0 && !f.waiters.isEmpty

/-- The flag after a request has been satisfied. -/
def consume (f : EventFlag) (r : EventRequest) : EventFlag := { f with pattern := r.cleared f.pattern }

/-- Lets go, in queue order, every waiter that the pattern left by those before it satisfies; gives back the
pattern left, the waiters left and the grants. -/
def serve (pattern : UInt32) :
    WaitQueue EventRequest → UInt32 × WaitQueue EventRequest × List EventGrant
  | [] => (pattern, [], [])
  | w :: rest =>
    if w.request.matched pattern then
      let (left, queue, grants) := serve (w.request.cleared pattern) rest
      (left, queue, ⟨w.thread, w.request.outAddress, pattern⟩ :: grants)
    else
      let (left, queue, grants) := serve pattern rest
      (left, w :: queue, grants)

/-- Raises bits and lets go the waiters that are satisfied. -/
def raise (f : EventFlag) (bits : UInt32) : EventFlag × List EventGrant :=
  let (pattern, waiters, grants) := serve (f.pattern ||| bits) f.waiters
  ({ f with pattern, waiters }, grants)

/-- Keeps only the given bits. -/
def keep (f : EventFlag) (bits : UInt32) : EventFlag := { f with pattern := f.pattern &&& bits }

def enqueue (f : EventFlag) (w : Waiter EventRequest) : EventFlag :=
  { f with waiters := f.waiters.enqueue f.attributes w }

/-- The flag without waiters and with a new pattern. -/
def reset (f : EventFlag) (pattern : UInt32) : EventFlag := { f with pattern, waiters := [] }

/-- The words of the flag's status block. -/
def statusWords (f : EventFlag) : List UInt32 :=
  [f.attributes, f.initialPattern, f.pattern, UInt32.ofNat f.waiters.length]

end EventFlag

end GuestKernel
