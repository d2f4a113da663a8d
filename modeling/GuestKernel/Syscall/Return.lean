/-
# How a caller goes on after a system call

Source: specification, 4.7.
-/

namespace GuestKernel

/-- What becomes of the calling thread. -/
inductive CallReturn where
  /-- It goes on with a value in `v0`. -/
  | value (v : Int32)
  /-- It gets a value in `v0`, and the kernel dispatches: a better thread may be ready now. -/
  | yield (v : Int32)
  /-- It blocked or exited; a blocked caller gets `v0` when it wakes. -/
  | reschedule
deriving DecidableEq

namespace CallReturn

/-- The value that the caller gets now, if any. -/
def value? : CallReturn → Option Int32
  | value v => some v
  | yield v => some v
  | reschedule => none

/-- Whether the kernel has to pick the next thread. -/
def needsDispatch : CallReturn → Bool
  | value _ => false
  | yield _ => true
  | reschedule => true

/-- The return's name in the journal. -/
def label : CallReturn → String
  | value v => "Value(" ++ toString v.toInt ++ ")"
  | yield v => "Yield(" ++ toString v.toInt ++ ")"
  | reschedule => "Reschedule"

end CallReturn

end GuestKernel
