import SiriusGateway.FromFile.Reconcile

/-!
# `FromFile.Adapters` — the two loops, with what an adapter is made of

The boot factory and `reconcileFromFileProviders` once more, each with its own loop as the source has it, and
with adapters that say which nova provider they wrap and which native calls lie over it. A nova provider is of
any type `ν`, an adapter of another module of any type `β`.

Without those parts they are the functions of `FromFile.Reconcile` (`erase_boot`, `erase_reload`).

## Contents
- **Adapters.** `novaProviderFor`, `toSiriusAdapter`, `overlayAnthropicNativeAuth`.
- **The registry.** `Registry`.
- **Boot.** `bootEntry`, `boot`.
- **Reload.** `reconcileEntry`, `reconcileFromFileProviders`, `reload`.
- **One entry.** Both loops are loops over what `adapterFor` builds.
- **Erasure.** What remains when an adapter is only its name and its kind.
-/

namespace Sirius

open Js

namespace FromFile

variable {ν β : Type}

/-! ## Adapters -/

/-- `AnthropicNativeShape`. -/
structure AnthropicNativeShape where
  baseUrl : JsValue
  apiKey : String
  providerName : String

/-- What the calls of an adapter run on: a nova provider, with native calls over it or not, or another
    module's own. -/
inductive Implementation (ν β : Type) where
  | wraps (core : ν) (native : Option AnthropicNativeShape)
  | other (own : β)

/-- A registered adapter. -/
structure Adapter (ν β : Type) where
  provider : AiProvider
  implementation : Implementation ν β

/-- `novaProviderFor(entry)`, on `nova.createOpenAICompatProvider`. -/
def novaProviderFor (nova : NovaOptions → Throws ν) (m : Machine) (entry : FileEntry) : Throws ν := do
  let baseUrl := baseUrlOf entry
  if baseUrl.truthy = false then
    throw (.error s!"sirius provider '{entry.name}' ({entry.kind}) has no baseUrl and no default")
  let apiKey ← resolveApiKeyRef m entry.apiKeyRef
  nova ⟨entry.name, entry.displayName.whenTruthy, baseUrl, apiKey⟩

/-- `toSiriusAdapter(entry.name, core)`. -/
def toSiriusAdapter (entry : FileEntry) (core : ν) : Adapter ν β :=
  ⟨⟨entry.name, .fromFile entry.kind⟩, .wraps core none⟩

/-- The adapter with native calls over it. -/
def Adapter.overlaid (adapter : Adapter ν β) (native : AnthropicNativeShape) : Adapter ν β :=
  match adapter.implementation with
  | .wraps core _ => { adapter with implementation := .wraps core (some native) }
  | .other _ => adapter

/-- `overlayAnthropicNativeAuth(adapter, entry)`; the key is resolved again. -/
def overlayAnthropicNativeAuth (m : Machine) (adapter : Adapter ν β) (entry : FileEntry) :
    Throws (Adapter ν β) := do
  let baseUrl := entry.baseUrl.orElse (.json (.str "https://api.anthropic.com/v1"))
  let apiKey ← resolveApiKeyRef m entry.apiKeyRef
  pure (adapter.overlaid ⟨baseUrl, apiKey, entry.name⟩)

/-! ## The registry -/

/-- `ProviderRegistry`. -/
structure Registry (ν β : Type) where
  providers : JsMap String (Adapter ν β)
  named : ∀ e ∈ providers.entries, e.2.provider.name = e.1

namespace Registry

/-- `register(provider)`. -/
def register (r : Registry ν β) (adapter : Adapter ν β) : Registry ν β where
  providers := r.providers.set adapter.provider.name adapter
  named := by
    intro e he
    rcases JsMap.mem_entries_set.mp he with rfl | ⟨he, _⟩
    · rfl
    · exact r.named e he

/-- `unregister(name)`. -/
def unregister (r : Registry ν β) (name : String) : Registry ν β where
  providers := r.providers.delete name
  named := fun e he => r.named e (List.mem_filter.mp he).1

/-- `get(name)`. -/
def get (r : Registry ν β) (name : String) : Option (Adapter ν β) := r.providers.get name

end Registry

/-! ## Boot -/

variable (nova : NovaOptions → Throws ν) (m : Machine)

/-- The variables of the boot factory's loop. -/
structure BootState (ν β : Type) where
  registry : Registry ν β
  adapters : List (Adapter ν β)
  owned : List String

/-- The `try` block from `registry.register(adapter)` on. -/
def BootState.take (s : BootState ν β) (entry : FileEntry) (adapter : Adapter ν β) : BootState ν β where
  registry := s.registry.register adapter
  adapters := s.adapters ++ [adapter]
  owned := s.owned ++ [entry.name]

/-- The body of the boot factory's loop. What throws in it comes before what changes something. -/
def bootEntry (s : BootState ν β) (entry : FileEntry) : BootState ν β :=
  let attempt : Throws (BootState ν β) := do
    let core ← novaProviderFor nova m entry
    let adapter := toSiriusAdapter entry core
    let adapter ← if entry.kind = "anthropic" then overlayAnthropicNativeAuth m adapter entry else pure adapter
    return s.take entry adapter
  match attempt with
  | .error _ => s
  | .ok taken => taken

/-- `FromFileReloadService` and the registry it shares with the other modules. -/
structure Service (ν β : Type) where
  registry : Registry ν β
  path : String
  owned : List String

/-- `setOwned(names)`. -/
def Service.setOwned (s : Service ν β) (names : List String) : Service ν β := { s with owned := names }

/-- The `FROMFILE_ADAPTERS` factory: what it returns, and the service after it. -/
def boot (path : String) (registry : Registry ν β) : Throws (List (Adapter ν β) × Service ν β) := do
  let entries ← loadProvidersFile (m.file path)
  let s := entries.foldl (bootEntry nova m) ⟨registry, [], []⟩
  return (s.adapters, (⟨s.registry, path, []⟩ : Service ν β).setOwned s.owned)

/-! ## Reload -/

/-- The variables of the loop over the entries. -/
structure ReconcileState (ν β : Type) where
  registry : Registry ν β
  added : List String
  kept : List String
  skipped : List (String × String)
  ownedAfter : List String

/-- The `try` block from `registry.get(entry.name)` on; `prev` are the names owned before. -/
def ReconcileState.take (s : ReconcileState ν β) (prev : List String) (entry : FileEntry)
    (adapter : Adapter ν β) : ReconcileState ν β :=
  let wasPresent := (s.registry.get entry.name).isSome
  let s := { s with
    registry := s.registry.register adapter
    ownedAfter := s.ownedAfter ++ [entry.name] }
  if wasPresent = true ∧ entry.name ∈ prev then { s with kept := s.kept ++ [entry.name] }
  else { s with added := s.added ++ [entry.name] }

/-- The body of the loop over the entries. -/
def reconcileEntry (prev : List String) (s : ReconcileState ν β) (entry : FileEntry) : ReconcileState ν β :=
  let attempt : Throws (ReconcileState ν β) := do
    let core ← novaProviderFor nova m entry
    let adapter := toSiriusAdapter entry core
    let adapter ← if entry.kind = "anthropic" then overlayAnthropicNativeAuth m adapter entry else pure adapter
    return s.take prev entry adapter
  match attempt with
  | .error err => { s with skipped := s.skipped ++ [(entry.name, err.message)] }
  | .ok taken => taken

/-- What `reconcileFromFileProviders` returns, and the registry it leaves. -/
structure Reconciliation (ν β : Type) where
  registry : Registry ν β
  result : FromFileReloadResult
  ownedAfter : List String

/-- `reconcileFromFileProviders(path, registry, previouslyOwned)`. -/
def reconcileFromFileProviders (path : String) (registry : Registry ν β) (previouslyOwned : List String) :
    Throws (Reconciliation ν β) := do
  let entries ← loadProvidersFile (m.file path)
  let removed := removedNames previouslyOwned entries
  let registry := removed.foldl Registry.unregister registry
  let s := entries.foldl (reconcileEntry nova m previouslyOwned) ⟨registry, [], [], [], []⟩
  return ⟨s.registry, ⟨path, s.added, removed, s.kept, s.skipped⟩, s.ownedAfter⟩

/-- `reload()`: the service after it and the report, or what it throws. -/
def reload (s : Service ν β) : Service ν β × Throws FromFileReloadResult :=
  match reconcileFromFileProviders nova m s.path s.registry s.owned with
  | .error e => (s, .error e)
  | .ok r => ({ s with registry := r.registry, owned := r.ownedAfter }, .ok r.result)

/-! ## One entry -/

/-- What either loop builds from an entry. -/
def adapterFor (entry : FileEntry) : Throws (Adapter ν β) := do
  let core ← novaProviderFor nova m entry
  let adapter := toSiriusAdapter entry core
  if entry.kind = "anthropic" then overlayAnthropicNativeAuth m adapter entry else pure adapter

/-- The rest of a `try` block after the adapter. -/
theorem attempt_eq {σ : Type} (entry : FileEntry) (take : Adapter ν β → σ) :
    (do
      let core ← novaProviderFor nova m entry
      let adapter := toSiriusAdapter entry core
      let adapter ← if entry.kind = "anthropic" then overlayAnthropicNativeAuth m adapter entry else pure adapter
      return take adapter) = (adapterFor nova m entry).map take := by
  unfold adapterFor
  cases novaProviderFor nova m entry with
  | error e => rfl
  | ok core =>
      simp only [bind, Except.bind]
      split
      · cases overlayAnthropicNativeAuth m (toSiriusAdapter entry core : Adapter ν β) entry <;> rfl
      · rfl

theorem bootEntry_eq (s : BootState ν β) (entry : FileEntry) :
    bootEntry nova m s entry =
      match adapterFor (β := β) nova m entry with
      | .error _ => s
      | .ok adapter => s.take entry adapter := by
  unfold bootEntry
  simp only [attempt_eq]
  cases adapterFor (β := β) nova m entry <;> rfl

theorem reconcileEntry_eq (prev : List String) (s : ReconcileState ν β) (entry : FileEntry) :
    reconcileEntry nova m prev s entry =
      match adapterFor (β := β) nova m entry with
      | .error err => { s with skipped := s.skipped ++ [(entry.name, err.message)] }
      | .ok adapter => s.take prev entry adapter := by
  unfold reconcileEntry
  simp only [attempt_eq]
  cases adapterFor (β := β) nova m entry <;> rfl

theorem ReconcileState.take_registry (s : ReconcileState ν β) (prev : List String) (entry : FileEntry)
    (adapter : Adapter ν β) : (s.take prev entry adapter).registry = s.registry.register adapter ∧
      (s.take prev entry adapter).ownedAfter = s.ownedAfter ++ [entry.name] := by
  unfold ReconcileState.take
  simp only
  split <;> exact ⟨rfl, rfl⟩

/-! ## Erasure -/

/-- The nova factory, as far as it can throw. -/
def forget : NovaFactory := fun options => (nova options).map fun _ => ()

/-- The registry with every adapter reduced to its name and kind. -/
def Registry.erase (r : Registry ν β) : ProviderRegistry where
  providers := r.providers.mapValues Adapter.provider
  named := by
    intro e he
    obtain ⟨e', he', rfl⟩ := List.mem_map.mp he
    exact r.named e' he'

/-- The service over the reduced registry. -/
def Service.erase (s : Service ν β) : FromFileState := ⟨s.registry.erase, s.path, s.owned⟩

/-- The loop's variables over the reduced registry. -/
def ReconcileState.erase (s : ReconcileState ν β) : Sirius.ReconcileState :=
  ⟨s.registry.erase, s.added, s.kept, s.skipped, s.ownedAfter⟩

namespace Registry

@[simp] theorem erase_register (r : Registry ν β) (adapter : Adapter ν β) :
    (r.register adapter).erase = r.erase.register adapter.provider := by
  simp only [erase, register, ProviderRegistry.register, ProviderRegistry.mk.injEq]
  exact JsMap.mapValues_set ..

@[simp] theorem erase_unregister (r : Registry ν β) (name : String) :
    (r.unregister name).erase = r.erase.unregister name := by
  simp only [erase, unregister, ProviderRegistry.unregister, ProviderRegistry.mk.injEq]
  exact JsMap.mapValues_delete ..

theorem get_erase (r : Registry ν β) (name : String) :
    r.erase.get name = (r.get name).map Adapter.provider := JsMap.get_mapValues ..

end Registry

/-- The adapter is built where the reduced one is. -/
theorem adapterFor_forget (entry : FileEntry) :
    Sirius.adapterFor (forget nova) m entry = (adapterFor (β := β) nova m entry).map Adapter.provider := by
  unfold Sirius.adapterFor adapterFor
  have hnova : Sirius.novaProviderFor (forget nova) m entry = (novaProviderFor nova m entry).map fun _ => () := by
    unfold Sirius.novaProviderFor novaProviderFor
    by_cases hbase : (baseUrlOf entry).truthy = false
    · simp only [if_pos hbase]
      rfl
    · simp only [if_neg hbase]
      cases resolveApiKeyRef m entry.apiKeyRef <;> rfl
  rw [hnova]
  cases novaProviderFor nova m entry with
  | error e => rfl
  | ok core =>
      by_cases hkind : entry.kind = "anthropic"
      · simp only [Except.map, bind, Except.bind, if_pos hkind]
        unfold Sirius.overlayAnthropicNativeAuth overlayAnthropicNativeAuth
        cases resolveApiKeyRef m entry.apiKeyRef <;> rfl
      · simp only [Except.map, bind, Except.bind, if_neg hkind]
        rfl

/-- One entry at boot. -/
theorem erase_bootEntry (path : String) (s : BootState ν β) (entry : FileEntry) :
    Sirius.bootEntry (forget nova) m ⟨s.registry.erase, path, s.owned⟩ entry =
      ⟨(bootEntry nova m s entry).registry.erase, path, (bootEntry nova m s entry).owned⟩ := by
  rw [bootEntry_eq]
  unfold Sirius.bootEntry
  rw [adapterFor_forget (β := β)]
  cases adapterFor (β := β) nova m entry with
  | error e => rfl
  | ok adapter => simp [Except.map, BootState.take]

/-- One entry at a reload. -/
theorem erase_reconcileEntry (prev : List String) (s : ReconcileState ν β) (entry : FileEntry) :
    Sirius.reconcileEntry (forget nova) m prev s.erase entry = (reconcileEntry nova m prev s entry).erase := by
  rw [reconcileEntry_eq]
  unfold Sirius.reconcileEntry
  rw [adapterFor_forget (β := β)]
  cases adapterFor (β := β) nova m entry with
  | error e => rfl
  | ok adapter =>
      have hpresent : (s.registry.erase.get entry.name).isSome = (s.registry.get entry.name).isSome := by
        rw [Registry.get_erase, Option.isSome_map]
      simp only [Except.map, ReconcileState.erase, ReconcileState.take, hpresent]
      split <;> simp

/-- **Boot of the reduced registry** is the boot with what an adapter is made of forgotten. -/
theorem erase_boot (path : String) (registry : Registry ν β) :
    Sirius.boot (forget nova) m path registry.erase =
      (boot nova m path registry).map fun booted => booted.2.erase := by
  unfold Sirius.boot boot
  cases loadProvidersFile (m.file path) with
  | error e => rfl
  | ok entries =>
      let erased (s : BootState ν β) : FromFileState := ⟨s.registry.erase, path, s.owned⟩
      have hloop : entries.foldl (Sirius.bootEntry (forget nova) m) (erased ⟨registry, [], []⟩) =
          erased (entries.foldl (bootEntry nova m) ⟨registry, [], []⟩) :=
        List.foldl_hom erased (erase_bootEntry nova m path)
      exact congrArg Except.ok hloop

theorem erase_unregister_foldl (names : List String) (registry : Registry ν β) :
    names.foldl ProviderRegistry.unregister registry.erase =
      (names.foldl Registry.unregister registry).erase :=
  List.foldl_hom Registry.erase fun r name => (r.erase_unregister name).symm

/-- **A reload of the reduced registry** has the same report. -/
theorem erase_reload (s : Service ν β) :
    Sirius.reload (forget nova) m s.erase = ((reload nova m s).1.erase, (reload nova m s).2) := by
  unfold Sirius.reload reload Sirius.reconcileFromFileProviders reconcileFromFileProviders
  rw [show s.erase.path = s.path from rfl]
  cases loadProvidersFile (m.file s.path) with
  | error e => rfl
  | ok entries =>
      let start : ReconcileState ν β :=
        ⟨(removedNames s.owned entries).foldl Registry.unregister s.registry, [], [], [], []⟩
      have hloop : entries.foldl (Sirius.reconcileEntry (forget nova) m s.owned) start.erase =
          (entries.foldl (reconcileEntry nova m s.owned) start).erase :=
        List.foldl_hom ReconcileState.erase (erase_reconcileEntry nova m s.owned)
      simp only [bind, Except.bind, pure, Except.pure, Service.erase, erase_unregister_foldl]
      simp only [start, ReconcileState.erase] at hloop
      rw [hloop]

end FromFile

end Sirius
