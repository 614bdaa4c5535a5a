import BuilderControl.CommandLine.Parse

/-! # The tree of commands -/

namespace BuilderControl.Command

open CommandLine

def nameArg : Arg := { id := "name", valueName := "NAME", required := true }

def outputArg (help : String) : Arg :=
  { id := "output", long := some "output", valueName := "FORMAT", help := help }

def dryRunArg (help : String) : Arg :=
  { id := "dry_run", long := some "dry-run", help := help, action := .switch }

/-- Flags that decide how a change is carried out. -/
def modeArgs : List Arg :=
  [dryRunArg "Show what would happen without submitting anything",
   outputArg "Print resulting objects in the given format (yaml, json) instead of status text",
   { id := "wait", long := some "wait", action := .switch
     help := "Wait until the cluster finishes processing the change" },
   { id := "wait_timeout", long := some "wait-timeout", valueName := "SECONDS"
     help := "Give up waiting after this many seconds", default := some "600", type := .unsigned64 }]

def tagArg (help : String) : Arg :=
  { id := "tag", short := some 't', long := some "tag", valueName := "TAG", help := help }

def stackArg : Arg :=
  { id := "stack", short := some 's', long := some "stack", valueName := "STACK"
    help := "Stack resource to use" }

def storeArg : Arg :=
  { id := "store", long := some "store", valueName := "STORE", help := "Buildpack store to use" }

def orderArg (help : String) : Arg :=
  { id := "order", short := some 'o', long := some "order", valueName := "ORDER", help := help }

def createArgs : List Arg :=
  [nameArg, { tagArg "Registry location the builder image is written to" with required := true },
   { stackArg with default := some "default" }, { storeArg with default := some "default" },
   { orderArg "Path to buildpack order yaml" with required := true, type := .path }] ++ modeArgs

def patchArgs : List Arg :=
  [nameArg, stackArg, storeArg, orderArg "Path to buildpack order yaml"] ++ modeArgs

def saveArgs : List Arg :=
  [nameArg, tagArg "Registry location the builder image is written to, required when creating",
   stackArg, storeArg, orderArg "Path to buildpack order yaml, required when creating"] ++ modeArgs

def deleteArgs : List Arg := [nameArg, dryRunArg "Show what would happen without deleting anything"]

def clusterAccountArgs : List Arg :=
  [{ id := "service_account_name", long := some "service-account-name"
     valueName := "SERVICE_ACCOUNT_NAME", default := some "default"
     help := "Service account used to access the builder registry" },
   { id := "service_account_namespace", long := some "service-account-namespace"
     valueName := "SERVICE_ACCOUNT_NAMESPACE", default := some "kpack" }]

def accountArgs : List Arg :=
  [{ id := "service_account", long := some "service-account", valueName := "SERVICE_ACCOUNT"
     default := some "default", help := "Service account used to access the builder registry" }]

def namespaceArg (help : String) : Arg :=
  { id := "namespace", short := some 'n', long := some "namespace", valueName := "NAMESPACE"
    help := help }

def scopeArgs : List Arg :=
  [namespaceArg "Kubernetes namespace, defaults to the one configured in kubeconfig"]

/-- A command without subcommands. -/
def leaf (name about : String) (args : List Arg) : CommandSpec :=
  .mk name [] about (args ++ [CommandSpec.helpArg]) []

/-- A command with subcommands. -/
def group (name : String) (aliases : List String) (about : String) (subcommands : List CommandSpec) :
    CommandSpec :=
  .mk name aliases about [CommandSpec.helpArg] (subcommands ++ [CommandSpec.helpCommand])

def clusterBuilderCommand : CommandSpec :=
  group "clusterbuilder" ["cb"] "Manage cluster scoped builders"
    [leaf "create" "Create a cluster builder" (createArgs ++ clusterAccountArgs),
     leaf "patch" "Patch an existing cluster builder configuration" patchArgs,
     leaf "save" "Create a cluster builder, or patch it if it exists" (saveArgs ++ clusterAccountArgs),
     leaf "delete" "Delete a cluster builder" deleteArgs]

def builderCommand : CommandSpec :=
  group "builder" ["b"] "Manage namespaced builders"
    [leaf "create" "Create a builder" (createArgs ++ scopeArgs ++ accountArgs),
     leaf "patch" "Patch an existing builder configuration" (patchArgs ++ scopeArgs),
     leaf "save" "Create a builder, or patch it if it exists" (saveArgs ++ scopeArgs ++ accountArgs),
     leaf "delete" "Delete a builder" (deleteArgs ++ scopeArgs)]

def getCommand : CommandSpec :=
  leaf "get" "Show a single resource"
    [{ id := "kind", valueName := "KIND", required := true, type := .resourceType
       help := "Resource type, such as clusterbuilder or cb" },
     nameArg, namespaceArg "Kubernetes namespace, ignored for cluster scoped types",
     outputArg "Print the object in the given format (yaml, json)"]

/-- The whole program. -/
def program : CommandSpec :=
  .mk "kp" [] "Manage kpack builders and related resources"
    [CommandSpec.helpArg, CommandSpec.versionArg]
    [clusterBuilderCommand, builderCommand, getCommand, CommandSpec.helpCommand]

/-- What the program says about its version. -/
def version : String := "kp 0.1.0\n"

end BuilderControl.Command
