/-
# The table of system calls

The guest's imports are bound to numbers, not to names. The table gives for each number the name of the function and
how its arguments are read off the registers; functions that are recognised and not provided have no such reading.

| entry | arguments |
| --- | --- |
| `plain` | words only |
| `named i` | word `i` points to the name of a new object |
| `known` | none: the function is not provided |

Source: specification, 4.7.
-/

import GuestKernel.Syscall.Call

namespace GuestKernel

/-- The argument registers of a call, `a0`-`a3` and `t0`-`t3`. -/
abbrev Arguments := Vector UInt32 8

/-- A function that the guest may import. -/
structure CallEntry where
  nid : UInt32
  name : String
  /-- The call that arguments stand for; it may have to read a name from guest memory. -/
  decode : Option (Arguments → Memory → Except Fault Syscall)

namespace CallEntry

/-- A function that takes words. -/
def plain (nid : UInt32) (name : String) (call : Arguments → Syscall) : CallEntry :=
  ⟨nid, name, some fun a _ => .ok (call a)⟩

/-- A function that takes words and, behind the pointer in argument `index`, a name. -/
def named (nid : UInt32) (name : String) (index : Fin 8) (call : Arguments → String → Syscall) : CallEntry :=
  ⟨nid, name, some fun a m => (m.readCString a[index]).map (call a)⟩

/-- A function that is not provided. -/
def known (nid : UInt32) (name : String) : CallEntry := ⟨nid, name, none⟩

def isProvided (e : CallEntry) : Bool := e.decode.isSome

end CallEntry

open CallEntry in
/-- All functions that the kernel recognises. -/
def callTable : List CallEntry := [
  named 0x446D8DE6 "sceKernelCreateThread" 0 fun a name => .createThread name a[1] a[2] a[3] a[4],
  plain 0x9FA03CD3 "sceKernelDeleteThread" fun a => .deleteThread a[0],
  plain 0xF475845D "sceKernelStartThread" fun a => .startThread a[0] a[1] a[2],
  plain 0xAA73C935 "sceKernelExitThread" fun a => .exitThread a[0].toInt32,
  plain 0x809CE29B "sceKernelExitDeleteThread" fun a => .exitDeleteThread a[0].toInt32,
  plain 0x616403BA "sceKernelTerminateThread" fun a => .terminateThread a[0],
  plain 0x383F7BCC "sceKernelTerminateDeleteThread" fun a => .terminateDeleteThread a[0],
  plain 0x71BC9871 "sceKernelChangeThreadPriority" fun a => .changeThreadPriority a[0] a[1],
  plain 0x278C0DF5 "sceKernelWaitThreadEnd" fun a => .waitThreadEnd a[0] a[1] false,
  plain 0x840E8133 "sceKernelWaitThreadEndCB" fun a => .waitThreadEnd a[0] a[1] true,
  plain 0x293B45B8 "sceKernelGetThreadId" fun _ => .threadId,
  plain 0x94AA61EE "sceKernelGetThreadCurrentPriority" fun _ => .threadCurrentPriority,
  plain 0x3B183E26 "sceKernelGetThreadExitStatus" fun a => .threadExitStatus a[0],
  known 0x912354A7 "sceKernelRotateThreadReadyQueue",
  plain 0x9ACE131E "sceKernelSleepThread" fun _ => .sleepThread false,
  plain 0x82826F70 "sceKernelSleepThreadCB" fun _ => .sleepThread true,
  plain 0xD59EAD2F "sceKernelWakeupThread" fun a => .wakeupThread a[0],
  plain 0xFCCFAD26 "sceKernelCancelWakeupThread" fun a => .cancelWakeupThread a[0],
  plain 0x9944F31F "sceKernelSuspendThread" fun a => .suspendThread a[0],
  plain 0x75156E8F "sceKernelResumeThread" fun a => .resumeThread a[0],
  plain 0xCEADEB47 "sceKernelDelayThread" fun a => .delayThread a[0] false,
  plain 0x68DA9E36 "sceKernelDelayThreadCB" fun a => .delayThread a[0] true,
  named 0xE81CAF8F "sceKernelCreateCallback" 0 fun a name => .createCallback name a[1] a[2],
  plain 0xEDBA5844 "sceKernelDeleteCallback" fun a => .deleteCallback a[0],
  plain 0xC11BA8C4 "sceKernelNotifyCallback" fun a => .notifyCallback a[0] a[1],
  plain 0x349D6D6C "sceKernelCheckCallback" fun _ => .checkCallback,
  named 0xD6DA4BA1 "sceKernelCreateSema" 0 fun a name => .createSemaphore name a[1] a[2].toInt32 a[3].toInt32,
  plain 0x28B6489C "sceKernelDeleteSema" fun a => .deleteSemaphore a[0],
  plain 0x3F53E640 "sceKernelSignalSema" fun a => .signalSemaphore a[0] a[1].toInt32,
  plain 0x4E3A1105 "sceKernelWaitSema" fun a => .waitSemaphore a[0] a[1].toInt32 a[2] false,
  plain 0x6D212BAC "sceKernelWaitSemaCB" fun a => .waitSemaphore a[0] a[1].toInt32 a[2] true,
  plain 0x58B1F937 "sceKernelPollSema" fun a => .pollSemaphore a[0] a[1].toInt32,
  plain 0x8FFDF9A2 "sceKernelCancelSema" fun a => .cancelSemaphore a[0] a[1].toInt32 a[2],
  plain 0xBC6FEBC5 "sceKernelReferSemaStatus" fun a => .referSemaphore a[0] a[1],
  named 0x55C20A00 "sceKernelCreateEventFlag" 0 fun a name => .createEventFlag name a[1] a[2],
  plain 0xEF9E4C70 "sceKernelDeleteEventFlag" fun a => .deleteEventFlag a[0],
  plain 0x1FB15A32 "sceKernelSetEventFlag" fun a => .setEventFlag a[0] a[1],
  plain 0x812346E4 "sceKernelClearEventFlag" fun a => .clearEventFlag a[0] a[1],
  plain 0x402FCF22 "sceKernelWaitEventFlag" fun a => .waitEventFlag a[0] ⟨a[1], a[2], a[3]⟩ a[4] false,
  plain 0x328C546A "sceKernelWaitEventFlagCB" fun a => .waitEventFlag a[0] ⟨a[1], a[2], a[3]⟩ a[4] true,
  plain 0x30FD48F0 "sceKernelPollEventFlag" fun a => .pollEventFlag a[0] ⟨a[1], a[2], a[3]⟩,
  plain 0xCD203292 "sceKernelCancelEventFlag" fun a => .cancelEventFlag a[0] a[1] a[2],
  plain 0xA66B0120 "sceKernelReferEventFlagStatus" fun a => .referEventFlag a[0] a[1],
  named 0xB7D098C6 "sceKernelCreateMutex" 0 fun a name => .createMutex name a[1] a[2].toInt32,
  plain 0xF8170FBE "sceKernelDeleteMutex" fun a => .deleteMutex a[0],
  plain 0xB011B11F "sceKernelLockMutex" fun a => .lockMutex a[0] a[1].toInt32 a[2] false,
  plain 0x5BF4DD27 "sceKernelLockMutexCB" fun a => .lockMutex a[0] a[1].toInt32 a[2] true,
  plain 0x0DDCD2C9 "sceKernelTryLockMutex" fun a => .tryLockMutex a[0] a[1].toInt32,
  plain 0x6B30100F "sceKernelUnlockMutex" fun a => .unlockMutex a[0] a[1].toInt32,
  plain 0x87D9223C "sceKernelCancelMutex" fun a => .cancelMutex a[0] a[1].toInt32 a[2],
  plain 0xA9C2CB9A "sceKernelReferMutexStatus" fun a => .referMutex a[0] a[1],
  named 0x7C0DC2A0 "sceKernelCreateMsgPipe" 0 fun a name => .createPipe name a[1] a[2] a[3],
  plain 0xF0B7DA1C "sceKernelDeleteMsgPipe" fun a => .deletePipe a[0],
  plain 0x876DBFAD "sceKernelSendMsgPipe" fun a => .sendPipe a[0] ⟨a[1], a[2], a[3], a[4]⟩ a[5] false,
  plain 0x7C41F2C2 "sceKernelSendMsgPipeCB" fun a => .sendPipe a[0] ⟨a[1], a[2], a[3], a[4]⟩ a[5] true,
  plain 0x884C9F90 "sceKernelTrySendMsgPipe" fun a => .trySendPipe a[0] ⟨a[1], a[2], a[3], a[4]⟩,
  plain 0x74829B76 "sceKernelReceiveMsgPipe" fun a => .receivePipe a[0] ⟨a[1], a[2], a[3], a[4]⟩ a[5] false,
  plain 0xFBFA697D "sceKernelReceiveMsgPipeCB" fun a => .receivePipe a[0] ⟨a[1], a[2], a[3], a[4]⟩ a[5] true,
  plain 0xDF52098F "sceKernelTryReceiveMsgPipe" fun a => .tryReceivePipe a[0] ⟨a[1], a[2], a[3], a[4]⟩,
  plain 0x349B864D "sceKernelCancelMsgPipe" fun a => .cancelPipe a[0] a[1] a[2],
  plain 0x33BE4024 "sceKernelReferMsgPipeStatus" fun a => .referPipe a[0] a[1],
  known 0x8125221D "sceKernelCreateMbx",
  known 0x86255ADA "sceKernelDeleteMbx",
  known 0x56C039B5 "sceKernelCreateVpl",
  known 0xC07BB470 "sceKernelCreateFpl",
  plain 0xDB738F35 "sceKernelGetSystemTime" fun a => .writeSystemTime a[0],
  plain 0x369ED59D "sceKernelGetSystemTimeLow" fun _ => .systemTimeLow,
  named 0x237DBD4F "sceKernelAllocPartitionMemory" 1 fun a name => .allocateMemory a[0] name a[2] a[3] a[4],
  plain 0xB6D61D02 "sceKernelFreePartitionMemory" fun a => .freeMemory a[0],
  plain 0x9D9A5BA1 "sceKernelGetBlockHeadAddr" fun a => .blockAddress a[0],
  plain 0xA291F107 "sceKernelMaxFreeMemSize" fun _ => .maxFreeMemory,
  plain 0xF919F628 "sceKernelTotalFreeMemSize" fun _ => .totalFreeMemory,
  known 0x3251EA56 "sceIoPollAsync",
  known 0xE23EEC33 "sceIoWaitAsync",
  known 0x35DBD746 "sceIoWaitAsyncCB",
  known 0xA12A0514 "sceIoSetAsyncCallback",
  known 0xB293727F "sceIoChangeAsyncPriority",
  known 0xE8BC6571 "sceIoCancel",
  known 0xCB05F8D6 "sceIoGetAsyncStat"]

/-- The entry of a number. -/
def callOf? (nid : UInt32) : Option CallEntry := callTable.find? (·.nid == nid)

end GuestKernel
