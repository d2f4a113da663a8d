/-
# The command line

The first argument names the configuration file; without one the user's own file is read, and made if it is missing.
A variable of the environment may set the log filter.

Source: specification, 10.4.
-/

import GuestKernel.Boot

open GuestKernel

/-- The content of a file, if it can be read. -/
def contentOf (path : String) : IO (Option (List UInt8)) := do
  try
    return some (← IO.FS.readBinFile path).toList
  catch _ => return none

/-- The folder of the user's configuration files. -/
def configFolder : IO String := do
  match ← IO.getEnv "XDG_CONFIG_HOME" with
  | some folder => if folder.startsWith "/" then return folder ++ "/oxidized-psp"
  | none => pure ()
  match ← IO.getEnv "HOME" with
  | some home => return home ++ "/.config/oxidized-psp"
  | none => return "./oxidized-psp"

/-- Appends text to a file; tells whether that was possible. -/
def appendTo (path text : String) : IO Bool := do
  try
    let file ← IO.FS.Handle.mk path .append
    file.putStr text
    file.flush
    return true
  catch _ => return false

def main (args : List String) : IO UInt32 := do
  let folder ← configFolder
  let source ← match args with
    | path :: _ => pure (ConfigSource.named path (← contentOf path))
    | [] => pure (ConfigSource.user (← contentOf (folder ++ "/config.toml")))
  let filter ← IO.getEnv "RUST_LOG"
  let opens ← match source.settings with
    | .ok (config, _) => if config.debug.logToFile then appendTo config.debug.logPath "" else pure true
    | .error _ => pure true
  let report := boot { source, filter, opens := fun _ => if opens then some .kept else none }
  if let some text := report.created then
    IO.FS.createDirAll folder
    IO.FS.writeFile (folder ++ "/config.toml") text
  let log := String.join (report.logLines.map (· ++ "\n"))
  let report ← match report.logFile with
    | some path => if ← appendTo path log then pure report else pure { report with outlet := .refused }
    | none => do
      IO.print log
      pure report
  for line in report.errorLines do
    IO.eprintln line
  return report.exitCode
