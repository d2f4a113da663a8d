/-
# Callbacks

A callback belongs to the thread that created it and runs only there. Notifications add up until it runs; of their
arguments the latest counts.

Source: specification, 3 and 4.6.
-/

import GuestKernel.Context

namespace GuestKernel

/-- A guest callback. -/
structure Callback where
  id : ObjectId
  name : String
  owner : ThreadId
  entry : UInt32
  commonArgument : UInt32
  /-- Notifications since it last ran. -/
  notifyCount : UInt32 := 0
  /-- The argument of the latest notification. -/
  notifyArgument : UInt32 := 0
deriving DecidableEq

namespace Callback

def notify (c : Callback) (argument : UInt32) : Callback :=
  { c with notifyCount := c.notifyCount + 1, notifyArgument := argument }

def isPending (c : Callback) : Bool := 0 < c.notifyCount

/-- The callback after its notifications have been taken. -/
def taken (c : Callback) : Callback := { c with notifyCount := 0 }

end Callback

/-- A request to run a callback: its code and the arguments for `a0`, `a1` and `a2`. -/
structure Invocation where
  callback : ObjectId
  entry : UInt32
  count : UInt32
  argument : UInt32
  commonArgument : UInt32
deriving DecidableEq

/-- A callback that runs on the context of its thread. -/
structure Delivery where
  thread : ThreadId
  callback : ObjectId
  /-- The thread's registers from before. -/
  saved : Registers
  /-- Whether the thread was in a wait when the callback came. -/
  fromWait : Bool
deriving DecidableEq

end GuestKernel
