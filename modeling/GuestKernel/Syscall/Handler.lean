/-
# Handling a system call

A call comes by number. It always gives the caller something to go on with: a failure becomes its status code, a
number that is unknown or not provided the code for that. With tracing on, each call is noted with arguments and result.

Source: specification, 4.7.
-/

import GuestKernel.Syscall.Perform
import GuestKernel.Syscall.Table

namespace GuestKernel
namespace Kernel

/-- Decodes a call and carries it out. -/
def runEntry (k : Kernel) (decode : Arguments → Memory → Except Fault Syscall) (arguments : Arguments) :
    Reply CallReturn :=
  match decode arguments k.memory with
  | .error f => k.fault f
  | .ok call => (k.perform call).map call.returnFor

/-- Notes an event if tracing is on. -/
def noteIf (k : Kernel) (trace : Bool) (e : Event) : Kernel := if trace then k.note e else k

/-- Handles the call of a number. -/
def handle (k : Kernel) (trace : Bool) (nid : UInt32) (arguments : Arguments) : CallReturn × Kernel :=
  match callOf? nid with
  | none => (.value KernelError.notImplemented.code, k.note (.unknownCall nid))
  | some entry =>
    match entry.decode with
    | none => (.value KernelError.notImplemented.code, k.note (.callNotImplemented entry.name nid))
    | some decode =>
      match (k.noteIf trace (.callEntered entry.name arguments.toList)).runEntry decode arguments with
      | ⟨.ok r, k⟩ => (r, k.noteIf trace (.callReturned entry.name r))
      | ⟨.error e, k⟩ => (.value e.code, k.note (.callFailed entry.name e))

/-- The arguments in the registers of a context. -/
def argumentsOf (k : Kernel) (context : ContextId) : Arguments :=
  Vector.ofFn fun i => k.contexts.register context (Register.a0.val + i.val)

/-- Handles a call of the running thread: its registers hold the arguments and, if it goes on, the result. -/
def call (k : Kernel) (trace : Bool) (nid : UInt32) : CallReturn × Kernel :=
  match k.current with
  | none => (.value KernelError.illegalContext.code, k.note (.callWithoutThread nid))
  | some thread =>
    match (k.thread? thread).bind (·.context) with
    | none => (.value KernelError.illegalContext.code, k.note (.runningWithoutContext thread))
    | some context =>
      let (r, k) := k.handle trace nid (k.argumentsOf context)
      match r.value? with
      | some v => (r, k.setRegister context Register.v0 v.toUInt32)
      | none => (r, k)

end Kernel
end GuestKernel
