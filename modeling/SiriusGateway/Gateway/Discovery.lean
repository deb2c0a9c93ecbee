import SiriusGateway.FromFile.Reconcile
import SiriusGateway.ModelRegistry.Discovery
import SiriusGateway.Routing.Service

/-!
# `Gateway.Discovery` — reloads, and the listings they wait for

`POST /providers/reload` reconciles the providers with the file and then asks every one it added or kept for its
models; boot asks all of them. Listings come back in any order, also after another reload has dropped the provider
they are for, and the registry takes each as it comes.

## Contents
- **Backfills.** `Backfill`: one `backfillProvider` on its way.
- **The system.** Its labels and its step.
-/

namespace Sirius

/-! ## Backfills -/

/-- Where a `backfillProvider` stands: it awaits its `listModels()`, or at boot a second one behind an empty first;
    or it is done, and what was listed is registered, unless the call threw. -/
inductive BackfillPhase where
  | probing
  | retrying
  | done (listed : Option (List ModelInfo))
  deriving DecidableEq

/-- One call of `backfillProvider`, with the adapter it was called for. -/
structure Backfill where
  provider : AiProvider
  retryOnZero : Bool
  /-- The reload request that awaits it; nobody's request awaits those of boot. -/
  request : Option Nat
  phase : BackfillPhase := .probing
  deriving DecidableEq

namespace Backfill

/-- The phase after a `listModels()` has come back. -/
def probed (b : Backfill) (probe : Probe) : Option BackfillPhase :=
  match b.phase, probe with
  | .done _, _ => none
  | _, .threw => some (.done none)
  | .retrying, .returned models => some (.done (some models))
  | .probing, .returned models =>
      if models.length > 0 ∨ b.retryOnZero = false then some (.done (some models)) else some .retrying

/-- The models it has listed. -/
def listed (b : Backfill) : List ModelInfo :=
  match b.phase with
  | .done (some models) => models
  | _ => []

/-- What it has registered. -/
def registrations (b : Backfill) : List Registration := b.listed.map fun info => ⟨info, b.provider.name⟩

/-- It has come back. -/
def isDone (b : Backfill) : Bool :=
  match b.phase with
  | .done _ => true
  | _ => false

/-- **A backfill lists what `backfillProvider` does**, from its two probes. -/
theorem probed_listed (b : Backfill) (hprobing : b.phase = .probing) (first second : Probe) :
    b.probed first = some (.done (Probe.listed b.retryOnZero first second)) ∨
      b.probed first = some .retrying ∧
        { b with phase := .retrying }.probed second = some (.done (Probe.listed b.retryOnZero first second)) := by
  unfold probed Probe.listed
  rw [hprobing]
  cases first with
  | threw => exact Or.inl rfl
  | returned models =>
      simp only
      split
      · exact Or.inl rfl
      · refine Or.inr ⟨rfl, ?_⟩
        cases second <;> rfl

/-- It stands where `backfillProvider` would behind some probes. -/
def FollowsProbes (b : Backfill) : Prop :=
  match b.phase with
  | .probing => True
  | .retrying => b.retryOnZero = true
  | .done listed => ∃ first second, listed = Probe.listed b.retryOnZero first second

/-- A probe that comes back takes it on. -/
theorem FollowsProbes.probed {b : Backfill} {probe : Probe} {phase : BackfillPhase} (h : b.FollowsProbes)
    (hprobed : b.probed probe = some phase) : ({ b with phase := phase } : Backfill).FollowsProbes := by
  obtain ⟨provider, retryOnZero, request, current⟩ := b
  cases current with
  | probing =>
      rcases probed_listed ⟨provider, retryOnZero, request, .probing⟩ rfl probe probe with hfirst | ⟨hretry, -⟩
      · obtain rfl := Option.some.inj (hfirst.symm.trans hprobed)
        exact ⟨probe, probe, rfl⟩
      · obtain rfl := Option.some.inj (hretry.symm.trans hprobed)
        show retryOnZero = true
        by_contra hno
        cases probe <;> simp [Backfill.probed, hno] at hretry
  | retrying =>
      obtain rfl : retryOnZero = true := h
      -- it is behind an empty first probe
      obtain hfirst | ⟨-, hsecond⟩ :=
        probed_listed ⟨provider, true, request, .probing⟩ rfl (.returned []) probe
      · cases hfirst
      · obtain rfl := Option.some.inj (hsecond.symm.trans hprobed)
        exact ⟨.returned [], probe, rfl⟩
  | done listed => cases hprobed

end Backfill

/-! ## The system -/

/-- A reload request behind its reconciliation. -/
structure ReloadRequest where
  result : FromFileReloadResult
  answered : Bool := false
  deriving DecidableEq

/-- The from-file providers, the models, and everything that is or was on its way. -/
structure DiscoverySystem where
  gateway : FromFileState
  models : ModelRegistry
  backfills : List Backfill := []
  reloads : List ReloadRequest := []

/-- What can happen. -/
inductive DiscoveryLabel where
  /-- `backfillAll()` starts. -/
  | boot
  /-- A reload request comes in, and meets the machine. -/
  | reload (m : Machine)
  /-- A `listModels()` comes back. -/
  | listed (backfill : Nat) (probe : Probe)
  /-- A reload request is answered. -/
  | answer (request : Nat)

namespace DiscoverySystem

/-- The backfills of a boot. -/
def ofBoot (gateway : FromFileState) : List Backfill :=
  gateway.registry.getAll.map fun provider => ⟨provider, true, none, .probing⟩

/-- The backfills of a reload request: `backfillProviderByName` for every name, one that is not registered aside. -/
def ofReload (gateway : FromFileState) (result : FromFileReloadResult) (request : Nat) : List Backfill :=
  (result.added ++ result.kept).filterMap fun name =>
    (gateway.registry.get name).map fun provider => ⟨provider, false, some request, .probing⟩

/-- The registry, once a backfill has come to the phase. -/
def register (models : ModelRegistry) (provider : AiProvider) : BackfillPhase → ModelRegistry
  | .done (some listed) => (registerModels models provider listed).1
  | _ => models

/-- One step. -/
def step (nova : NovaFactory) (s : DiscoverySystem) : DiscoveryLabel → Option DiscoverySystem
  | .boot => some { s with backfills := s.backfills ++ ofBoot s.gateway }
  | .reload m =>
      match Sirius.reload nova m s.gateway with
      -- a file that cannot be read: the request fails
      | (gateway, .error _) => some { s with gateway := gateway }
      | (gateway, .ok result) =>
          some { s with
            gateway := gateway
            backfills := s.backfills ++ ofReload gateway result s.reloads.length
            reloads := s.reloads ++ [⟨result, false⟩] }
  | .listed i probe =>
      match s.backfills[i]? with
      | none => none
      | some b =>
          match b.probed probe with
          | none => none
          | some phase =>
              some { s with
                models := register s.models b.provider phase
                backfills := s.backfills.set i { b with phase := phase } }
  | .answer request =>
      match s.reloads[request]? with
      | none => none
      | some call =>
          if call.answered = false ∧ ∀ b ∈ s.backfills, b.request = some request → b.isDone = true then
            some { s with reloads := s.reloads.set request { call with answered := true } }
          else none

/-- The process, before `backfillAll()`. -/
def start (gateway : FromFileState) : DiscoverySystem := ⟨gateway, ModelRegistry.initial, [], []⟩

/-- Everything that was registered. -/
def registrations (s : DiscoverySystem) : List Registration := s.backfills.flatMap Backfill.registrations

end DiscoverySystem

end Sirius
