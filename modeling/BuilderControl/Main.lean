import BuilderControl.Api.Store
import BuilderControl.Program

/-! # Command line

Reads the files that an invocation names and runs it.  The cluster is one whose answers are not
there yet: commands that need one fail. -/

namespace BuilderControl.Main

/-- What stands at a path, if anything does. -/
def contentAt (path : String) : IO (Option FileContent) := do
  let place := (← IO.currentDir) / path
  if ← place.isDir then return some .directory
  try return some (.bytes (← IO.FS.readBinFile place).toList)
  catch _ => return none

/-- The files at some paths. -/
def filesAt (paths : List String) : IO Files := do
  let found ← paths.mapM fun path => do return (path, ← contentAt path)
  return .ofPaths (found.filterMap fun (path, content) => content.map (path, ·))

/-- A connection to a cluster, before anything was asked of it. -/
def connect (target : Kubeconfig.Target) : Api.Connection :=
  { defaultNs := target.ns, manager := "kp" }

end BuilderControl.Main

open BuilderControl in
def main (args : List String) : IO UInt32 := do
  let surroundings : Surroundings := {
    files := {}
    home := (← IO.getEnv "HOME").getD "."
    kubeconfig := ← IO.getEnv "KUBECONFIG" }
  let files ← Main.filesAt (Program.paths surroundings args)
  let exit := Program.run Main.connect { surroundings with files } args
  (← IO.getStdout).putStr exit.out
  (← IO.getStderr).putStr exit.err
  return exit.code
