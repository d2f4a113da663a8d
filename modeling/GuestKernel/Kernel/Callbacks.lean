/-
# Callback calls

Creating, deleting and notifying callbacks, and the end of a delivery, after which the thread has its registers back and
`v0` holds the result of its wait if that ended meanwhile.

Source: specification, 4.6.
-/

import GuestKernel.Kernel.Dispatch

namespace GuestKernel
namespace Kernel

/-- Creates a callback of the running thread. -/
def createCallback (k : Kernel) (name : String) (entry commonArgument : UInt32) : Reply ObjectId :=
  match k.current with
  | none => k.refuse .illegalContext
  | some owner =>
    match k.thread? owner with
    | none => k.refuse (.unknown .thread owner)
    | some t =>
      let id := k.nextId
      let k := k.putThread { t with callbacks := t.callbacks ++ [id] }
      (k.registerNew (.callback { id, name, owner, entry, commonArgument })).done id

/-- Takes a callback off its owner's list. -/
def forgetCallback (k : Kernel) (c : Callback) : Kernel :=
  match k.thread? c.owner with
  | some t => k.putThread { t with callbacks := t.callbacks.filter (· != c.id) }
  | none => k

/-- Deletes a callback. -/
def deleteCallback (k : Kernel) (id : ObjectId) : Reply Unit :=
  match k.objects.callback? id with
  | none => k.refuse (.unknown .callback id)
  | some c => (k.forgetCallback c).unregister .callback id

/-- Unregisters a callback whose owner goes away. -/
def removeCallback (k : Kernel) (id : ObjectId) : Kernel :=
  match k.unregister .callback id with
  | ⟨.ok _, k⟩ => k
  | ⟨.error e, k⟩ => k.note (.callbackGone id e)

/-- Notifies a callback. -/
def notifyCallback (k : Kernel) (id : ObjectId) (argument : UInt32) : Reply Unit :=
  match k.objects.callback? id with
  | none => k.refuse (.unknown .callback id)
  | some c =>
    let c := c.notify argument
    ((k.put (.callback c)).note (.callbackNotified id c.notifyCount)).done ()

/-- Asks for the running thread's pending callbacks at the next dispatch; tells whether there are any. -/
def checkCallbacks (k : Kernel) : Reply Bool :=
  match k.current with
  | none => k.refuse .illegalContext
  | some id =>
    match k.thread? id with
    | none => k.refuse (.unknown .thread id)
    | some t =>
      if (k.pendingCallback? t).isSome then (k.putThread { t with checksCallbacks := true }).done true
      else k.done false

/-- Deletes a callback that asked for it by its return value. -/
def retireCallback (k : Kernel) (id : ObjectId) (value : Int32) : Kernel :=
  if value = 0 then k
  else
    match (k.note (.callbackRetired id value)).deleteCallback id with
    | ⟨.ok _, k⟩ => k
    | ⟨.error e, k⟩ => k.note (.callbackAlreadyRetired id e)

/-- Gives a thread its registers back, with the result of its wait in `v0` if that ended meanwhile. -/
def restoreContext (k : Kernel) (d : Delivery) (t : Thread) : Kernel :=
  match t.context with
  | none => k
  | some context =>
    let k := k.setRegisters context d.saved
    if d.fromWait ∧ ¬ t.status.waiting then k.setRegister context Register.v0 t.wakeResult.toUInt32 else k

/-- The kernel in which no callback runs; a thread that was interrupted in a wait leaves the processor. -/
def endDelivery (k : Kernel) (d : Delivery) : Kernel :=
  { k with delivering := none, current := if d.fromWait then none else k.current }

/-- Ends the delivery of a callback that returned `value`; other than 0 deletes it. -/
def finishCallback (k : Kernel) (value : Int32) : Reply Unit :=
  match k.delivering with
  | none => k.refuse .illegalContext
  | some d =>
    let k := k.retireCallback d.callback value
    match k.thread? d.thread with
    | none => ({ k with delivering := none }).refuse (.unknown .thread d.thread)
    | some t =>
      let k := (k.restoreContext d t).endDelivery d
      if (k.pendingCallback? t).isSome then k.done ()
      else (k.putThread { t with checksCallbacks := false }).done ()

end Kernel
end GuestKernel
