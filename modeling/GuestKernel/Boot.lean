/-
# Booting the kernel

The program reads its settings, opens its log, makes a kernel with the configured partitions and starts the guest's main
thread. Nothing executes guest code here; that the main thread is dispatched shows that the memory layout holds it.

| what fails | what is reported |
| --- | --- |
| the named file | `loading` its path, with the cause |
| the user's own file | the cause alone |
| the log file | the cause alone |
| the main thread | `creating the main thread`, with the cause |

Source: specification, 10.2 and 10.4.
-/

import GuestKernel.Config.Reading
import GuestKernel.Config.Writing
import GuestKernel.Kernel.Threads

namespace GuestKernel

/-- Where the settings come from. -/
inductive ConfigSource where
  /-- A file named on the command line, and its content if it is there. -/
  | named (path : String) (content : Option (List UInt8))
  /-- The user's own file, and its content if it is there. -/
  | user (content : Option (List UInt8))

/-- What becomes of the text that is written to an opened file. -/
inductive Outlet where
  /-- A file keeps it. -/
  | kept
  /-- It appears on standard output. -/
  | shown
  /-- It appears on standard error. -/
  | reported
  /-- It is taken and forgotten. -/
  | dropped
  /-- There is never room for it. -/
  | refused
deriving DecidableEq

/-- What the program finds when it starts. -/
structure Surroundings where
  source : ConfigSource
  /-- The log filter of the environment, if it is set. -/
  filter : Option String
  /-- Opens a file for appending, if that is possible. -/
  opens : String → Option Outlet

/-- Why the program gave up. -/
inductive BootFailure where
  | loading (path : String) (cause : HostError)
  | settings (cause : HostError)
  | log (cause : HostError)
  | creating (cause : KernelError)
  | starting (cause : KernelError)
  | notDispatched

namespace BootFailure

/-- A cause below what failed; one that has causes of its own is numbered. -/
def causeLine : HostError → String
  | .file => "0: " ++ HostError.file.message
  | cause => cause.message

/-- The failure as lines for people. -/
def lines : BootFailure → List String
  | loading path cause => ["Error: loading " ++ path, "Caused by:", causeLine cause]
  | settings cause => ["Error: " ++ cause.message]
  | log cause => ["Error: " ++ cause.message]
  | creating cause => ["Error: creating the main thread", "Caused by:", cause.message]
  | starting cause => ["Error: starting the main thread", "Caused by:", cause.message]
  | notDispatched => ["Error: main thread was not dispatched: None"]

end BootFailure

/-- What the program leaves behind. -/
structure BootReport where
  /-- The text of the user's file, if it had to be made. -/
  created : Option String := none
  /-- The file that the log goes to, if not to standard output. -/
  logFile : Option String := none
  /-- What becomes of the log. -/
  outlet : Outlet := .shown
  log : List Event := []
  failure : Option BootFailure := none

namespace BootReport

def exitCode (r : BootReport) : UInt32 := if r.failure.isSome then 1 else 0

/-- The lines of the log. A name may break a line. -/
def logLines (r : BootReport) : List String := r.log.flatMap fun e => e.fullLine.splitOn "\n"

/-- The lines on standard output. -/
def shownLines (r : BootReport) : List String := if r.outlet = .shown then r.logLines else []

/-- What is said of an event that could not be written. -/
def unwritten : String :=
  "[tracing-subscriber] Unable to write an event to the Writer for this Subscriber! " ++
    "Error: No space left on device (os error 28)"

/-- The lines on standard error: the log, if it goes there, or one for each event that found no room; then the
failure. -/
def errorLines (r : BootReport) : List String :=
  (match r.outlet with
    | .reported => r.logLines
    | .refused => r.log.map fun _ => unwritten
    | _ => []) ++ (r.failure.map BootFailure.lines).getD []

end BootReport

/-- The settings and, if the user had none, the text that was written for them. -/
def ConfigSource.settings : ConfigSource → Except BootFailure (Config × Option String)
  | named path content => ((Config.load content).mapError (.loading path)).map fun c => (c, none)
  | user none => .ok ({}, some (Config.render {}))
  | user content => ((Config.load content).mapError .settings).map fun c => (c, none)

/-- The threshold of the log: the environment wins over the settings. -/
def logThreshold (filter : Option String) (debug : DebugConfig) : LogLevel :=
  (filter.bind LogLevel.ofFilter?).getD debug.logLevel

/-- The priority of the main thread. -/
def mainPriority : UInt32 := 0x20

/-- The attribute of threads that run user code. -/
def userAttribute : UInt32 := 0x80000000

namespace Kernel

/-- Creates, starts and dispatches the main thread. -/
def startMain (k : Kernel) : Option BootFailure × Kernel :=
  match k.createThread "user_main" k.config.moduleEntry mainPriority k.config.defaultStackSize userAttribute with
  | ⟨.error e, k⟩ => (some (.creating e), k)
  | ⟨.ok id, k⟩ =>
    match k.startThread id 0 0 with
    | ⟨.error e, k⟩ => (some (.starting e), k)
    | ⟨.ok _, k⟩ =>
      match k.dispatch with
      | (some ⟨thread, context, .resume⟩, k) =>
        (none, (k.note (.mainThreadRuns thread context)).noteAll (k.partitionList.map .partitionReport))
      | (_, k) => (some .notDispatched, k)

end Kernel

/-- Runs the kernel of some settings up to its first dispatch: the failure, if any, and all that was noted. -/
def runMain (config : Config) : Option BootFailure × List Event :=
  let memory : Memory := { hasScratchpad := config.memory.scratchpad }
  let (failure, k) := (Kernel.new config.kernel memory).startMain
  (failure, .hostStarted :: memory.mapEvents ++ memory.regions.map .guestRegion ++ k.events)

/-- The file of the log, if it has one, and what becomes of what is written there. -/
def Surroundings.openLog (s : Surroundings) (debug : DebugConfig) : Option (Option String × Outlet) :=
  if debug.logToFile then (s.opens debug.logPath).map fun outlet => (some debug.logPath, outlet)
  else some (none, .shown)

/-- Boots. -/
def boot (s : Surroundings) : BootReport :=
  match s.source.settings with
  | .error failure => { failure := some failure }
  | .ok (config, created) =>
    match s.openLog config.debug with
    | none => { created, failure := some (.log .file) }
    | some (logFile, outlet) =>
      let (failure, events) := runMain config
      { created, logFile, outlet, failure
        log := events.filter (logThreshold s.filter config.debug).admits }

end GuestKernel
