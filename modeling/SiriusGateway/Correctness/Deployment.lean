import SiriusGateway.Correctness.Deregister
import SiriusGateway.Correctness.FromFile
import SiriusGateway.Lib.Runs
import SiriusGateway.Mcp.Deployment

/-!
# `Correctness.Deployment` — what the gateway serves, and what the MCP server can do about it

The reload request of the deregister tool carries no key, and the reload route is behind the guard. So in every
interleaving the from-file providers of the gateway are those of the file as it was at the last authorized reload
(`deployment_follows_reloads`): a deregistration changes the file only, and the tool says that the reload failed.

## Contents
- **One request.** What an unauthorized one changes, and what the tool gets.
- **One step**, and the run.
- **The last file read.** `lastRead`.
- **The result**, and a provider that stays.
-/

namespace Sirius

open Js Mcp

variable {cfg : DeploymentConfig} {m : Machine} {around : Surroundings} {timestamp : String}

/-! ## One request -/

/-- **A request changes the from-file providers only as an authorized reload.** -/
theorem handle_gateway (apiKeys : Option String) (nova : NovaFactory) (m : Machine) (timestamp : String)
    (route : Route) (authorization : Option String) (s : FromFileState) :
    (handle apiKeys nova m timestamp route authorization s).1 =
      if route = .providersReload ∧ Authorized apiKeys authorization then (reload nova m s).1 else s := by
  by_cases hroute : route = .providersReload
  · subst hroute
    by_cases hkey : Authorized apiKeys authorization
    · obtain ⟨key, hok⟩ := canActivate_eq_ok_iff.mpr (Or.inr hkey)
      rw [if_pos ⟨rfl, hkey⟩]
      unfold handle providersReload
      rw [hok]
      simp only
      rcases reload nova m s with ⟨s', result⟩
      cases result <;> rfl
    · rw [if_neg fun h => hkey h.2]
      unfold handle
      rw [canActivate_of_unauthorized rfl hkey]
  · rw [if_neg fun h => hroute h.1]
    unfold handle
    cases canActivate apiKeys route authorization with
    | error e => rfl
    | ok key =>
        cases route with
        | providersReload => exact absurd rfl hroute
        | _ => rfl

/-- The request of the tool is turned away. -/
theorem handle_of_tool (apiKeys : Option String) (nova : NovaFactory) (m : Machine) (timestamp : String)
    (s : FromFileState) : handle apiKeys nova m timestamp .providersReload none s =
      (s, some (catchException invalidApiKey)) := by
  unfold handle
  rw [canActivate_of_unauthorized rfl not_authorized_none]

/-- An answer of the tool does not claim a reload: one that has written the file says that the reload failed. -/
def DeregisterAnswer.NoReload : DeregisterAnswer → Prop
  | .wet _ _ _ reload note => reload.ok = false ∧
      note = "sirius-providers.yaml rewritten; reload POST failed — operator should hit " ++
        "/providers/reload manually or restart sirius"
  | _ => True

theorem noReload_of_finish {call : PendingCall} {r : PostResult} {outcome : DeregisterOutcome}
    (hcall : Deployment.finish cfg call r = .ok outcome) (hr : r.ok = false) :
    DeregisterAnswer.NoReload outcome.answer := by
  unfold Deployment.finish deregister at hcall
  obtain ⟨providers, -, hrest⟩ := Except.bind_eq_ok_iff.mp hcall
  simp only at hrest
  split at hrest
  · rw [← Except.ok.inj hrest]
    trivial
  · split at hrest
    · rw [← Except.ok.inj hrest]
      trivial
    · rw [← Except.ok.inj hrest]
      refine ⟨hr, ?_⟩
      simp only [hr, Bool.false_eq_true, if_false]

/-! ## One step -/

namespace Deployment

variable {s t : Deployment} {label : DeploymentLabel} {labels : List DeploymentLabel}

theorem answered_spec {call : Nat} {r : PostResult} (h : answered cfg s call r = some t) (hr : r.ok = false) :
    t.disk = s.disk ∧ t.gateway = s.gateway ∧
      ((∀ a ∈ s.answers, DeregisterAnswer.NoReload a) → ∀ a ∈ t.answers, DeregisterAnswer.NoReload a) := by
  obtain ⟨pending, -, hfinish⟩ := Option.bind_eq_some_iff.mp h
  obtain ⟨outcome, houtcome, rfl⟩ := Option.map_eq_some_iff.mp hfinish
  have hok : finish cfg pending r = .ok outcome := by
    cases hcall : finish cfg pending r with
    | error e =>
        rw [hcall] at houtcome
        cases houtcome
    | ok o =>
        rw [hcall] at houtcome
        exact congrArg Except.ok (Option.some.inj houtcome)
  refine ⟨rfl, rfl, fun hall a ha => ?_⟩
  rcases List.mem_append.mp ha with ha | ha
  · exact hall a ha
  · rw [List.mem_singleton.mp ha]
    exact noReload_of_finish hok hr

/-- **What a step does to the disk and to the gateway**, and what the tool may then have answered. -/
theorem step_spec (h : step cfg s label = some t) :
    t.disk = diskAfter cfg s.disk label ∧
      t.gateway = afterReloads cfg.nova s.gateway (reloadSeen cfg s.disk label).toList ∧
      ((∀ a ∈ s.answers, DeregisterAnswer.NoReload a) → ∀ a ∈ t.answers, DeregisterAnswer.NoReload a) := by
  cases label with
  | edit disk =>
      obtain rfl := Option.some.inj h
      exact ⟨rfl, rfl, id⟩
  | request route authorization around timestamp =>
      obtain rfl := Option.some.inj h
      refine ⟨rfl, ?_, id⟩
      show (handle _ _ _ _ _ _ _).1 = _
      rw [handle_gateway]
      cases route with
      | providersReload =>
          by_cases hkey : Authorized cfg.apiKeys authorization
          · rw [if_pos ⟨rfl, hkey⟩, reloadSeen, if_pos hkey]
            rfl
          · rw [if_neg fun hboth => hkey hboth.2, reloadSeen, if_neg hkey]
            rfl
      | _ => rfl
  | callTool input tmp =>
      cases hcall : finish cfg ⟨s.disk, input, tmp⟩ (postFailed "") with
      | error e =>
          simp only [step, hcall] at h
          obtain rfl := Option.some.inj h
          refine ⟨?_, rfl, id⟩
          simp only [diskAfter, hcall]
      | ok outcome =>
          have hquiet := noReload_of_finish hcall rfl
          have hdisk : outcome.disk = diskAfter cfg s.disk (.callTool input tmp) := by
            simp only [diskAfter, hcall]
          simp only [step, hcall] at h
          split at h
          · obtain rfl := Option.some.inj h
            exact ⟨hdisk, rfl, id⟩
          · obtain rfl := Option.some.inj h
            refine ⟨hdisk, rfl, fun hall a ha => ?_⟩
            rcases List.mem_append.mp ha with ha | ha
            · exact hall a ha
            · rw [List.mem_singleton.mp ha]
              exact hquiet
  | posted call around timestamp =>
      simp only [step, handle_of_tool, Option.bind_some] at h
      exact answered_spec h rfl
  | unreachable call message => exact answered_spec h rfl

/-- **In every run** the gateway's providers are what the authorized reloads have made of them, and no call of the
    tool has reloaded anything. -/
theorem run_spec (hrun : Lts.Run (step cfg) s labels t) :
    t.gateway = afterReloads cfg.nova s.gateway (reloadsSeen cfg s.disk labels) ∧
      ((∀ a ∈ s.answers, DeregisterAnswer.NoReload a) → ∀ a ∈ t.answers, DeregisterAnswer.NoReload a) := by
  induction hrun with
  | nil s => exact ⟨rfl, id⟩
  | @cons s u t label rest hstep _ ih =>
      obtain ⟨hdisk, hgateway, hanswers⟩ := step_spec hstep
      refine ⟨?_, fun hall => ih.2 (hanswers hall)⟩
      rw [ih.1, hgateway, hdisk, reloadsSeen, afterReloads, afterReloads, afterReloads, List.foldl_append]

end Deployment

/-! ## The last file read -/

/-- The machine, if its file can be read. -/
def readOr (path : String) (last m : Machine) : Machine :=
  match loadProvidersFile (m.file path) with
  | .ok _ => m
  | .error _ => last

/-- The last machine whose file can be read, among those a boot and the reloads after it have met. -/
def lastRead (path : String) (booted : Machine) (machines : List Machine) : Machine :=
  machines.foldl (readOr path) booted

/-- **After reloads that are all exact, the service owns what the last file read builds.** -/
theorem owned_afterReloads {nova : NovaFactory} (machines : List Machine) :
    ∀ (s : FromFileState) (last : Machine), OwnsExactly s →
      (∀ name, name ∈ s.owned ↔ Builds nova s.path name last) →
      AllReloads nova (NoOwnedBroken nova) s machines →
      OwnsExactly (afterReloads nova s machines) ∧
        ∀ name, name ∈ (afterReloads nova s machines).owned ↔
          Builds nova s.path name (lastRead s.path last machines) := by
  induction machines with
  | nil => exact fun s last howns howned _ => ⟨howns, howned⟩
  | cons m rest ih =>
      intro s last howns howned hbroken
      rw [allReloads_cons] at hbroken
      have hexact := (exactReload_iff howns).mpr hbroken.1
      have hpath : (reload nova m s).1.path = s.path := path_reload
      rw [afterReloads_cons, ← hpath]
      refine ih (reload nova m s).1 (readOr (reload nova m s).1.path last m) hexact.owns ?_ hbroken.2
      rw [hpath]
      unfold readOr
      cases hload : loadProvidersFile (m.file s.path) with
      | error e =>
          rw [reload_of_error hload]
          exact howned
      | ok entries =>
          intro name
          rw [(reload_eq hload).2.1]
          simp only
          constructor
          · intro hbuilt
            exact ⟨entries, hload, hbuilt⟩
          · rintro ⟨entries', hload', hbuilt⟩
            obtain rfl : entries = entries' := Except.ok.inj (hload.symm.trans hload')
            exact hbuilt

/-! ## The result -/

/-- The deployment, its gateway just booted. -/
def Deployment.booted (disk : Disk) (gateway : FromFileState) : Deployment := { disk := disk, gateway := gateway }

/-- **The gateway follows the authorized reloads.** In every run of a deployment from boot, in whatever order
    operators write the file, clients send requests, and calls of the deregister tool and their reload requests
    come and go, the from-file providers are what the authorized reloads, each on the file it met, have made of
    them; no answer of the tool claims a reload. Where no reload meets an owned name all of whose entries are
    broken, the providers registered are those that the last file read builds. -/
theorem deployment_follows_reloads (cfg : DeploymentConfig) {m₀ : Machine} {path : String}
    {registry : ProviderRegistry} {gateway : FromFileState}
    (hothers : ∀ name, ¬ FromFileRegistered registry name)
    (hboot : boot cfg.nova m₀ path registry = .ok gateway) (disk : Disk) {labels : List DeploymentLabel}
    {t : Deployment} (hrun : Lts.Run (Deployment.step cfg) (.booted disk gateway) labels t) :
    t.gateway = afterReloads cfg.nova gateway (Deployment.reloadsSeen cfg disk labels) ∧
      (∀ a ∈ t.answers, DeregisterAnswer.NoReload a) ∧
      (AllReloads cfg.nova (NoOwnedBroken cfg.nova) gateway (Deployment.reloadsSeen cfg disk labels) →
        ∀ name, FromFileRegistered t.gateway.registry name ↔
          Builds cfg.nova path name (lastRead path m₀ (Deployment.reloadsSeen cfg disk labels))) := by
  obtain ⟨hrunning, hanswers⟩ := Deployment.run_spec hrun
  have hgateway : t.gateway = afterReloads cfg.nova gateway (Deployment.reloadsSeen cfg disk labels) := hrunning
  refine ⟨hgateway, hanswers fun a ha => absurd ha List.not_mem_nil, fun hbroken name => ?_⟩
  obtain ⟨entries, hload, -, howned, hpath⟩ := boot_eq hboot
  have hfirst : ∀ name, name ∈ gateway.owned ↔ Builds cfg.nova gateway.path name m₀ := by
    intro name
    rw [howned, hpath]
    constructor
    · intro hbuilt
      exact ⟨entries, hload, hbuilt⟩
    · rintro ⟨entries', hload', hbuilt⟩
      obtain rfl : entries = entries' := Except.ok.inj (hload.symm.trans hload')
      exact hbuilt
  obtain ⟨howns, hnames⟩ := owned_afterReloads (Deployment.reloadsSeen cfg disk labels) gateway m₀
    (ownsExactly_boot hothers hboot) hfirst hbroken
  rw [hgateway, howns name, hnames name, hpath]

/-- The text of a file with two providers. -/
def groqAndMistralText : String :=
  "providers:\n  - name: groq\n    kind: groq\n  - name: mistral\n    kind: mistral\n"

/-- The text of the file without the first one. -/
def mistralText : String := "providers:\n  - name: mistral\n    kind: mistral\n"

/-- A deployment with one key over that file. -/
def groqDeployment : DeploymentConfig where
  yaml := yamlOf [(groqAndMistralText, providersPayload [fileItem "groq" "groq", fileItem "mistral" "mistral"]),
    (mistralText, providersPayload [fileItem "mistral" "mistral"])]
  nova := anyNova
  apiKeys := some "sk-1"
  defaultPath := "sirius-providers.yaml"

/-- A process without variables and key files. -/
def bareProcess : Surroundings := ⟨fun _ => none, fun _ => .ok none⟩

/-- The tool takes a provider out of the file, and posts its reload. -/
def deregisterGroq : List DeploymentLabel :=
  [.callTool ⟨"groq", some false, none⟩ ".1.yaml.tmp", .posted 0 bareProcess "2025-11-20T00:00:00.000Z"]

/-- Then an operator reloads, with the key. -/
def thenReload : List DeploymentLabel :=
  deregisterGroq ++ [.request .providersReload (some "Bearer sk-1") bareProcess "2025-11-20T00:00:01.000Z"]

/-- Taken out of the file, the provider is still registered after the tool's reload request, which the guard turns
    away; after an authorized reload the other one is the only one left. -/
theorem deployment_follows_reloads_deregistered :
    ∃ gateway t t', Lts.Run (Deployment.step groqDeployment)
        (.booted (oneFile "sirius-providers.yaml" groqAndMistralText) gateway) deregisterGroq t ∧
      Lts.Run (Deployment.step groqDeployment)
        (.booted (oneFile "sirius-providers.yaml" groqAndMistralText) gateway) thenReload t' ∧
      t.disk "sirius-providers.yaml" = some mistralText ∧ FromFileRegistered t.gateway.registry "groq" ∧
      ∀ name, FromFileRegistered t'.gateway.registry name ↔ name = "mistral" := by
  let disk : Disk := oneFile "sirius-providers.yaml" groqAndMistralText
  let m : Machine := Deployment.machine groqDeployment disk bareProcess
  have hothers : ∀ name, ¬ FromFileRegistered ProviderRegistry.empty name :=
    fun name ⟨a, kind, h, _⟩ => (nomatch h)
  obtain ⟨gateway, hboot, howned⟩ : ∃ gateway, boot anyNova m "sirius-providers.yaml" ProviderRegistry.empty =
      .ok gateway ∧ gateway.owned = ["groq", "mistral"] ∧ gateway.path = "sirius-providers.yaml" := ⟨_, rfl, rfl, rfl⟩
  obtain ⟨t, hrun, hdisk⟩ : ∃ t, Lts.Run (Deployment.step groqDeployment) (.booted disk gateway) deregisterGroq t ∧
      t.disk "sirius-providers.yaml" = some mistralText :=
    ⟨_, .cons rfl (.cons rfl (.nil _)), rfl⟩
  obtain ⟨t', hreloaded⟩ : ∃ t', Lts.Run (Deployment.step groqDeployment) (.booted disk gateway) thenReload t' :=
    ⟨_, .cons rfl (.cons rfl (.cons rfl (.nil _)))⟩
  have hserved := (deployment_follows_reloads groqDeployment hothers hboot disk hrun).2.2
  have hserved' := (deployment_follows_reloads groqDeployment hothers hboot disk hreloaded).2.2
  have hbuilt : Builds anyNova "sirius-providers.yaml" "groq" m := ⟨_, rfl, by decide⟩
  -- nobody has reloaded, so what is served is what boot has read
  have hnone : AllReloads anyNova (NoOwnedBroken anyNova) gateway [] := fun before m' after heq => by simp at heq
  refine ⟨gateway, t, t', hrun, hreloaded, hdisk, (hserved hnone "groq").mpr hbuilt, ?_⟩
  -- the one authorized reload reads the file without the provider
  let m' : Machine := Deployment.machine groqDeployment
    (Deployment.diskAfter groqDeployment disk (.callTool ⟨"groq", some false, none⟩ ".1.yaml.tmp")) bareProcess
  have hkey : Authorized (some "sk-1") (some "Bearer sk-1") := by decide +kernel
  have hseen : Deployment.reloadsSeen groqDeployment disk thenReload = [m'] := by
    show (if Authorized (some "sk-1") (some "Bearer sk-1") then some m' else none).toList ++ [] = [m']
    rw [if_pos hkey]
    rfl
  obtain ⟨entries, hload, hnames⟩ : ∃ entries, loadProvidersFile (m'.file "sirius-providers.yaml") = .ok entries ∧
      entries.map (·.name) = ["mistral"] := ⟨_, rfl, rfl⟩
  have hbuiltNames : builtNames anyNova m' entries = ["mistral"] := by
    obtain rfl := Except.ok.inj hload
    decide
  have hsound : NoOwnedBroken anyNova m' gateway := by
    intro entries' hload' name _ hname
    rw [howned.2] at hload'
    obtain rfl := Except.ok.inj (hload.symm.trans hload')
    rw [hbuiltNames]
    rwa [hnames] at hname
  have hall : AllReloads anyNova (NoOwnedBroken anyNova) gateway [m'] :=
    allReloads_cons.mpr ⟨hsound, fun before m'' after heq => by simp at heq⟩
  have hlast : lastRead "sirius-providers.yaml" m [m'] = m' := by
    show readOr "sirius-providers.yaml" m m' = m'
    unfold readOr
    rw [hload]
  rw [hseen] at hserved'
  intro name
  rw [hserved' hall name, hlast]
  constructor
  · rintro ⟨entries', hload', hname⟩
    obtain rfl := Except.ok.inj (hload.symm.trans hload')
    exact List.mem_singleton.mp (hbuiltNames ▸ hname)
  · rintro rfl
    exact ⟨entries, hload, hbuiltNames.symm ▸ List.mem_singleton.mpr rfl⟩

end Sirius
