/-
# Dispatch

Callbacks go first: of the threads that may be interrupted and have a pending callback, the one of the lowest priority
value takes it. Otherwise the running thread goes back to the ready queue, in front of its equals, and the head of the
queue runs.

Source: specification, 4.3 and 4.6.
-/

import GuestKernel.Kernel.Waiting

namespace GuestKernel

/-- What the processor does with a dispatched context. -/
inductive DispatchAction where
  /-- Goes on with the thread where it was. -/
  | resume
  /-- Runs a callback on the thread's context. -/
  | runCallback (i : Invocation)
deriving DecidableEq

/-- A thread that was picked, its context and what to do with it. -/
structure Dispatch where
  thread : ThreadId
  context : ContextId
  action : DispatchAction
deriving DecidableEq

namespace Kernel

/-- Puts the running thread back into the ready queue. -/
def preempt (k : Kernel) : Kernel :=
  match k.current with
  | none => k
  | some id =>
    let k := { k with current := none }
    match k.thread? id with
    | none => k
    | some t =>
      if t.status = .onlyRunning then
        (k.putThread { t with status := .onlyReady }).schedule id t.priority
      else k

/-- The pending callback of a thread that was created first. -/
def pendingCallback? (k : Kernel) (t : Thread) : Option Callback :=
  t.callbacks.findSome? fun id => (k.objects.callback? id).filter (·.isPending)

/-- Of threads with a callback each, the first one of the lowest priority value. -/
def bestOf : List (Thread × Callback) → Option (Thread × Callback)
  | [] => none
  | candidate :: rest =>
    match bestOf rest with
    | none => some candidate
    | some other => if other.1.priority < candidate.1.priority then some other else some candidate

/-- The started threads that may be interrupted now, each with its first pending callback. -/
def deliverable (k : Kernel) : List (Thread × Callback) :=
  k.started.filterMap fun id =>
    match k.thread? id with
    | none => none
    | some t => if t.admitsCallbacks then (k.pendingCallback? t).map fun c => (t, c) else none

/-- The kernel in which a thread is on the processor for a callback; a ready one runs, a waiting one goes on
waiting. -/
def interrupt (k : Kernel) (t : Thread) (d : Delivery) : Kernel :=
  let k :=
    if t.status = .onlyReady then
      { k.putThread { t with status := .onlyRunning } with ready := k.ready.remove t.id }
    else k
  { k with current := some t.id, delivering := some d }

/-- Starts a callback on its thread's context. A thread without a context loses the notification. -/
def deliver (k : Kernel) (t : Thread) (c : Callback) : Option Dispatch × Kernel :=
  let k := k.put (.callback c.taken)
  match t.context with
  | none => (none, k)
  | some context =>
    let d : Delivery :=
      { thread := t.id, callback := c.id, saved := k.contexts.registers context, fromWait := t.status.waiting }
    (some ⟨t.id, context, .runCallback ⟨c.id, c.entry, c.notifyCount, c.notifyArgument, c.commonArgument⟩⟩,
      (k.note (.callbackDelivered c.id t.id)).interrupt t d)

/-- Runs the first thread of the ready queue that exists and has a context. -/
def runFirst (k : Kernel) : List ReadyEntry → Option Dispatch × Kernel
  | [] => (none, { k with ready := ⟨[]⟩ })
  | entry :: rest =>
    match k.thread? entry.thread with
    | none => (k.note (.unknownThreadReady entry.thread)).runFirst rest
    | some t =>
      let k := k.putThread { t with status := .onlyRunning }
      match t.context with
      | some context =>
        (some ⟨entry.thread, context, .resume⟩,
          { k.note (.dispatched entry.thread) with ready := ⟨rest⟩, current := some entry.thread })
      | none => (k.note (.readyWithoutContext entry.thread)).runFirst rest

/-- Picks what runs next. -/
def dispatch (k : Kernel) : Option Dispatch × Kernel :=
  match k.delivering with
  | some d => (none, k.note (.dispatchDuringCallback d.callback d.thread))
  | none =>
    let k := k.preempt
    match bestOf k.deliverable with
    | some (t, c) =>
      match k.deliver t c with
      | (some dispatch, k) => (some dispatch, k)
      | (none, k) => k.runFirst k.ready.entries
    | none => k.runFirst k.ready.entries

end Kernel
end GuestKernel
