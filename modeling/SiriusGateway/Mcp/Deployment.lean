import SiriusGateway.FromFile.Reconcile
import SiriusGateway.Gateway.Auth
import SiriusGateway.Mcp.Server

/-!
# `Mcp.Deployment` — a gateway and its MCP server over one disk

Two processes share the providers file: the gateway, which reads it at boot and on `POST /providers/reload`, and
the MCP server, whose deregister tool rewrites it and then posts that reload. Operators write the file and send
requests to the gateway at any time, also between the tool's write and the arrival of its request.

## Contents
- **The gateway.** `providersReload`, and `handle`, its answer to a request behind the guard.
- **The deployment.** Its labels and its step.
- **Reloads.** The machines the authorized reloads of a run read (`reloadsSeen`).
-/

namespace Sirius

open Js Mcp

/-! ## The gateway -/

/-- The answer of `providersReload` to a report. -/
def reloadBody (result : FromFileReloadResult) (timestamp : String) : Json :=
  .obj [("ok", .bool true), ("path", .str result.path), ("added", .arr (result.added.map .str)),
    ("removed", .arr (result.removed.map .str)), ("kept", .arr (result.kept.map .str)),
    ("skipped", .arr (result.skipped.map fun s => .obj [("name", .str s.1), ("reason", .str s.2)])),
    ("timestamp", .str timestamp)]

/-- `providersReload()`: the registry is reconciled with the file; a reload that throws is an internal error. -/
def providersReload (nova : NovaFactory) (m : Machine) (timestamp : String) (s : FromFileState) :
    FromFileState × HttpAnswer :=
  match reload nova m s with
  | (s', .ok result) => (s', ⟨200, reloadBody result timestamp⟩)
  | (s', .error e) => (s', catchException e)

/-- A request to the gateway: the guard first, then the handler. The handlers of the other routes leave the
    from-file providers alone, and what they answer is not told here. -/
def handle (apiKeys : Option String) (nova : NovaFactory) (m : Machine) (timestamp : String) (route : Route)
    (authorization : Option String) (s : FromFileState) : FromFileState × Option HttpAnswer :=
  match canActivate apiKeys route authorization with
  | .error e => (s, some (catchException e))
  | .ok _ =>
      match route with
      | .providersReload =>
          let (s', answer) := providersReload nova m timestamp s
          (s', some answer)
      | _ => (s, none)

/-- What `postJson` makes of an answer. -/
def postResult (answer : HttpAnswer) : PostResult where
  ok := decide (200 ≤ answer.status ∧ answer.status ≤ 299)
  status := answer.status
  body := answer.body
  error := none

/-- What `postJson` makes of a `fetch` that throws. -/
def postFailed (message : String) : PostResult := ⟨false, 0, .null, some message⟩

/-! ## The deployment -/

/-- What the two processes are started with. -/
structure DeploymentConfig where
  yaml : Yaml
  nova : NovaFactory
  /-- `SIRIUS_API_KEYS` of the gateway. -/
  apiKeys : Option String
  /-- `resolveFilePath()` of the MCP server. -/
  defaultPath : String

/-- The environment and the key files of the gateway's process. -/
structure Surroundings where
  env : String → Option String
  keyFile : String → Throws (Option String)

/-- A wet call of the tool that has written the file and awaits its request: the disk it read, its input and its
    temporary path. -/
structure PendingCall where
  disk : Disk
  input : DeregisterInput
  tmp : String

/-- The disk, the gateway's from-file providers, and the tool's calls. -/
structure Deployment where
  disk : Disk
  gateway : FromFileState
  pending : List PendingCall := []
  answers : List DeregisterAnswer := []

/-- What can happen. -/
inductive DeploymentLabel where
  /-- Somebody writes files. -/
  | edit (disk : Disk)
  /-- A request reaches the gateway. -/
  | request (route : Route) (authorization : Option String) (around : Surroundings) (timestamp : String)
  /-- The tool is called. -/
  | callTool (input : DeregisterInput) (tmp : String)
  /-- The reload request of a pending call reaches the gateway, and its answer the tool. -/
  | posted (call : Nat) (around : Surroundings) (timestamp : String)
  /-- It does not. -/
  | unreachable (call : Nat) (message : String)

namespace Deployment

variable (cfg : DeploymentConfig)

/-- The machine the gateway reads. -/
def machine (disk : Disk) (around : Surroundings) : Machine where
  file := readProviders cfg.yaml disk
  env := around.env
  keyFile := around.keyFile

/-- The call, once its request is answered. -/
def finish (call : PendingCall) (reload : PostResult) : Throws DeregisterOutcome :=
  deregister cfg.yaml cfg.defaultPath call.tmp (fun _ => reload) call.disk call.input

/-- The pending call ends with the answer to its request. -/
def answered (s : Deployment) (call : Nat) (reload : PostResult) : Option Deployment :=
  s.pending[call]?.bind fun pending =>
    (finish cfg pending reload).toOption.map fun outcome =>
      { s with pending := s.pending.eraseIdx call, answers := s.answers ++ [outcome.answer] }

/-- One step. -/
def step (s : Deployment) : DeploymentLabel → Option Deployment
  | .edit disk => some { s with disk := disk }
  | .request route authorization around timestamp =>
      some { s with
        gateway := (handle cfg.apiKeys cfg.nova (machine cfg s.disk around) timestamp route authorization
          s.gateway).1 }
  | .callTool input tmp =>
      match finish cfg ⟨s.disk, input, tmp⟩ (postFailed "") with
      -- the file cannot be read: the tool throws
      | .error _ => some s
      | .ok outcome =>
          match outcome.answer with
          -- the file is written; the rest of the call waits for the answer of the gateway
          | .wet .. => some { s with disk := outcome.disk, pending := s.pending ++ [⟨s.disk, input, tmp⟩] }
          | answer => some { s with disk := outcome.disk, answers := s.answers ++ [answer] }
  | .posted call around timestamp =>
      -- `postJson` sends a content type and no key
      let (gateway, answer) := handle cfg.apiKeys cfg.nova (machine cfg s.disk around) timestamp .providersReload
        none s.gateway
      answer.bind fun answer => answered cfg { s with gateway := gateway } call (postResult answer)
  | .unreachable call message => answered cfg s call (postFailed message)

/-! ## Reloads -/

/-- The disk after a label. -/
def diskAfter (disk : Disk) : DeploymentLabel → Disk
  | .edit disk => disk
  | .callTool input tmp =>
      match finish cfg ⟨disk, input, tmp⟩ (postFailed "") with
      | .error _ => disk
      | .ok outcome => outcome.disk
  | _ => disk

/-- The machine an authorized reload request reads. -/
def reloadSeen (disk : Disk) : DeploymentLabel → Option Machine
  | .request .providersReload authorization around _ =>
      if Authorized cfg.apiKeys authorization then some (machine cfg disk around) else none
  | _ => none

/-- The machines the authorized reload requests of a run read, in order. -/
def reloadsSeen : Disk → List DeploymentLabel → List Machine
  | _, [] => []
  | disk, label :: rest => (reloadSeen cfg disk label).toList ++ reloadsSeen (diskAfter cfg disk label) rest

end Deployment

end Sirius
