import SiriusGateway.FromFile.Loader

/-!
# `Mcp.Server` — the deregister tool

`sirius.providers.deregister` of the MCP server: it reads the providers file with the loader of the gateway
and, in wet mode, writes it back without one provider. The disk maps paths to texts; YAML and the answer of the
gateway to the reload are arguments.

## Contents
- **The disk.** `readProviders`, `atomicWriteYaml`.
- **The tool.** Its input, its answers and `deregister`.
-/

namespace Sirius

open Js

namespace Mcp

/-! ## The disk -/

/-- The `yaml` package: `parse` and `stringify`. -/
structure Yaml where
  parse : String → Throws Json
  stringify : Json → String

/-- The package reads back what it prints of a value. -/
def Yaml.Undoes (yaml : Yaml) (value : Json) : Prop := yaml.parse (yaml.stringify value) = .ok value

/-- The texts of the files. -/
abbrev Disk := String → Option String

/-- What the loader finds at a path. -/
def readProviders (yaml : Yaml) (disk : Disk) (path : String) : ProvidersFile :=
  match disk path with
  | none => .absent
  | some raw =>
      match yaml.parse raw with
      | .error e => .unreadable e
      | .ok value => .document value

/-- The payload `{ providers }`. -/
def providersPayload (providers : List Json) : Json := .obj [("providers", .arr providers)]

/-- `atomicWriteYaml(path, payload)`: the temporary file is written and renamed onto the target. -/
def atomicWriteYaml (yaml : Yaml) (tmp path : String) (payload : Json) (disk : Disk) : Disk := fun p =>
  if p = path then some (yaml.stringify payload)
  else if p = tmp then none
  else disk p

@[simp] theorem atomicWriteYaml_self (yaml : Yaml) (tmp path : String) (payload : Json) (disk : Disk) :
    atomicWriteYaml yaml tmp path payload disk path = some (yaml.stringify payload) := if_pos rfl

/-! ## The tool -/

/-- The input of the tool. -/
structure DeregisterInput where
  name : String
  dryRun : Option Bool := none
  path : Option String := none

/-- What `postJson` returns. -/
structure PostResult where
  ok : Bool
  status : Nat
  body : Json
  error : Option String

/-- What is appended to the audit log: the input, and `result`. -/
structure AuditEntry where
  name : String
  dryRun : Bool
  path : String
  wasPresent : Bool
  remainingCount : Nat
  wet : Bool

/-- What the tool answers. -/
inductive DeregisterAnswer where
  /-- `provider-not-found`. -/
  | notFound (message path : String)
  | wet (path : String) (removed : String × String) (remaining : List (String × String))
      (reload : PostResult) (note : String)
  | dryRun (path : String) (wasPresent : Bool) (target : Option FileEntry)
      (remaining : List (String × String)) (note : String)

/-- A call of the tool: the disk after it, the audit entry and the answer. -/
structure DeregisterOutcome where
  disk : Disk
  audit : AuditEntry
  answer : DeregisterAnswer

/-- The name of an object the loader returns. -/
def itemName (item : Json) : Option String := (fileEntryOf item).map (·.name)

/-- Names and kinds, as the answers list them. -/
def namesAndKinds (items : List Json) : List (String × String) :=
  (items.filterMap fileEntryOf).map fun entry => (entry.name, entry.kind)

/-- The handler of `sirius.providers.deregister`. `defaultPath` is `resolveFilePath()`, `tmp` the temporary
    path, and `postReload` the gateway's answer to `POST /providers/reload` on the disk it then finds. -/
def deregister (yaml : Yaml) (defaultPath tmp : String) (postReload : Disk → PostResult) (disk : Disk)
    (input : DeregisterInput) : Throws DeregisterOutcome := do
  let dryRun := input.dryRun.getD true
  let path := input.path.getD defaultPath
  let providers ← loadProvidersItems (readProviders yaml disk path)
  let target := providers.find? fun p => itemName p = some input.name
  let remaining := providers.filter fun p => itemName p ≠ some input.name
  let audit : AuditEntry :=
    { name := input.name, dryRun := dryRun, path := path, wasPresent := target.isSome
      remainingCount := remaining.length, wet := !dryRun }
  if dryRun then
    return ⟨disk, audit, .dryRun path target.isSome (target.bind fileEntryOf) (namesAndKinds remaining)
      "dry-run — sirius-providers.yaml not modified; no gateway reload"⟩
  else
    match target.bind fileEntryOf with
    | none =>
        return ⟨disk, audit, .notFound s!"provider '{input.name}' is not in {path}" path⟩
    | some removed =>
        let disk := atomicWriteYaml yaml tmp path (providersPayload remaining) disk
        let reload := postReload disk
        let note :=
          if reload.ok then "sirius-providers.yaml rewritten + gateway reloaded"
          else "sirius-providers.yaml rewritten; reload POST failed — operator should hit " ++
            "/providers/reload manually or restart sirius"
        return ⟨disk, audit,
          .wet path (removed.name, removed.kind) (namesAndKinds remaining) reload note⟩

end Mcp

end Sirius
