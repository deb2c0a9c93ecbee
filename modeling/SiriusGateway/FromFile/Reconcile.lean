import SiriusGateway.FromFile.Loader

/-!
# `FromFile.Reconcile` — boot and reload

The from-file module over the shared provider registry: what boot registers, and how a reload reconciles the
registry with the file. `FromFileReloadService` remembers the names it owns from one reload to the next.

## Contents
- **Reconciliation.** `reconcileFromFileProviders`: names that left the file are unregistered, then every
  entry that can be built is registered.
- **The service.** `FromFileReloadService`, `boot` and `reload`.
- **Registrations.** What a list of adapters leaves in the registry.
- **What a reconciliation does**, in closed form (`reconcile_eq`).
-/

namespace Sirius

open Js

/-! ## Reconciliation -/

/-- `FromFileReloadResult`. -/
structure FromFileReloadResult where
  path : String
  added : List String
  removed : List String
  kept : List String
  skipped : List (String × String)
  deriving DecidableEq

/-- The variables of the loop over the entries. -/
structure ReconcileState where
  registry : ProviderRegistry
  added : List String
  kept : List String
  skipped : List (String × String)
  ownedAfter : List String

/-- The body of the loop over the entries; `prev` are the names owned before. -/
def reconcileEntry (nova : NovaFactory) (m : Machine) (prev : List String) (s : ReconcileState)
    (entry : FileEntry) : ReconcileState :=
  match adapterFor nova m entry with
  -- a skipped entry joins neither list and is not owned any more
  | .error err => { s with skipped := s.skipped ++ [(entry.name, err.message)] }
  | .ok adapter =>
      -- read before the registration that overwrites it
      let wasPresent := (s.registry.get entry.name).isSome
      let s := { s with
        registry := s.registry.register adapter
        ownedAfter := s.ownedAfter ++ [entry.name] }
      if wasPresent = true ∧ entry.name ∈ prev then { s with kept := s.kept ++ [entry.name] }
      else { s with added := s.added ++ [entry.name] }

/-- The names owned before that the file does not name any more. -/
def removedNames (previouslyOwned : List String) (entries : List FileEntry) : List String :=
  previouslyOwned.eraseDups.filter fun name => name ∉ entries.map (·.name)

/-- What `reconcileFromFileProviders` returns, and the registry it leaves. -/
structure Reconciliation where
  registry : ProviderRegistry
  result : FromFileReloadResult
  ownedAfter : List String

/-- `reconcileFromFileProviders(path, registry, previouslyOwned)`. -/
def reconcileFromFileProviders (nova : NovaFactory) (m : Machine) (path : String)
    (registry : ProviderRegistry) (previouslyOwned : List String) : Throws Reconciliation := do
  let entries ← loadProvidersFile (m.file path)
  -- the whole file is read before anything changes, so a file that cannot be read changes nothing
  let removed := removedNames previouslyOwned entries
  let registry := removed.foldl ProviderRegistry.unregister registry
  let s := entries.foldl (reconcileEntry nova m previouslyOwned) ⟨registry, [], [], [], []⟩
  pure ⟨s.registry, ⟨path, s.added, removed, s.kept, s.skipped⟩, s.ownedAfter⟩

/-! ## The service -/

/-- `FromFileReloadService` and the registry it shares with the other modules. -/
structure FromFileState where
  registry : ProviderRegistry
  path : String
  owned : List String

/-- The body of the boot factory's loop. -/
def bootEntry (nova : NovaFactory) (m : Machine) (s : FromFileState) (entry : FileEntry) : FromFileState :=
  match adapterFor nova m entry with
  | .error _ => s
  | .ok adapter =>
      { s with registry := s.registry.register adapter, owned := s.owned ++ [entry.name] }

/-- The `FROMFILE_ADAPTERS` factory, after which the service owns what was registered. -/
def boot (nova : NovaFactory) (m : Machine) (path : String) (registry : ProviderRegistry) :
    Throws FromFileState := do
  let entries ← loadProvidersFile (m.file path)
  pure (entries.foldl (bootEntry nova m) ⟨registry, path, []⟩)

/-- `reload()`: the state after it and the report, or what it throws. -/
def reload (nova : NovaFactory) (m : Machine) (s : FromFileState) :
    FromFileState × Throws FromFileReloadResult :=
  match reconcileFromFileProviders nova m s.path s.registry s.owned with
  | .error e => (s, .error e)
  | .ok r => ({ s with registry := r.registry, owned := r.ownedAfter }, .ok r.result)

/-- The state after a sequence of reloads, each with the disk and environment it meets. -/
def afterReloads (nova : NovaFactory) (s : FromFileState) (machines : List Machine) : FromFileState :=
  machines.foldl (fun s m => (reload nova m s).1) s

theorem afterReloads_cons {nova : NovaFactory} {s : FromFileState} {m : Machine} {rest : List Machine} :
    afterReloads nova s (m :: rest) = afterReloads nova (reload nova m s).1 rest := rfl

/-! ## Registrations -/

/-- The adapters the entries give, those that cannot be built left out. -/
def builtAdapters (nova : NovaFactory) (m : Machine) (entries : List FileEntry) : List AiProvider :=
  entries.filterMap fun entry => (adapterFor nova m entry).toOption

/-- The names of the entries that can be built. -/
def builtNames (nova : NovaFactory) (m : Machine) (entries : List FileEntry) : List String :=
  (builtAdapters nova m entries).map (·.name)

variable {nova : NovaFactory} {m : Machine} {entries : List FileEntry} {registry : ProviderRegistry}
  {name : String}

theorem mem_builtAdapters {a : AiProvider} :
    a ∈ builtAdapters nova m entries ↔ ∃ entry ∈ entries, adapterFor nova m entry = .ok a := by
  unfold builtAdapters
  rw [List.mem_filterMap]
  refine exists_congr fun entry => and_congr_right fun _ => ?_
  cases adapterFor nova m entry with
  | error e => exact iff_of_false (fun h => (nomatch h)) (fun h => (nomatch h))
  | ok adapter =>
      exact ⟨fun h => congrArg Except.ok (Option.some.inj h), fun h => congrArg some (Except.ok.inj h)⟩

/-- Only adapters of the from-file kind are built. -/
theorem exists_kind_of_mem_built {a : AiProvider} (h : a ∈ builtAdapters nova m entries) :
    ∃ kind, a.kind = .fromFile kind := by
  obtain ⟨entry, -, hadapter⟩ := mem_builtAdapters.mp h
  rw [adapterFor_eq_ok hadapter]
  exact ⟨_, rfl⟩

theorem mem_builtNames : name ∈ builtNames nova m entries ↔
    ∃ entry ∈ entries, entry.name = name ∧ ∃ adapter, adapterFor nova m entry = .ok adapter := by
  unfold builtNames
  rw [List.mem_map]
  constructor
  · rintro ⟨a, ha, rfl⟩
    obtain ⟨entry, hentry, hadapter⟩ := mem_builtAdapters.mp ha
    refine ⟨entry, hentry, ?_, a, hadapter⟩
    rw [adapterFor_eq_ok hadapter]
  · rintro ⟨entry, hentry, rfl, adapter, hadapter⟩
    refine ⟨adapter, mem_builtAdapters.mpr ⟨entry, hentry, hadapter⟩, ?_⟩
    rw [adapterFor_eq_ok hadapter]

/-- An entry that cannot be built adds nothing. -/
theorem built_cons_of_error {entry : FileEntry} {e : JsError} (h : adapterFor nova m entry = .error e)
    (rest : List FileEntry) : builtAdapters nova m (entry :: rest) = builtAdapters nova m rest ∧
      builtNames nova m (entry :: rest) = builtNames nova m rest := by
  have hadapters : builtAdapters nova m (entry :: rest) = builtAdapters nova m rest :=
    List.filterMap_cons_none (by rw [h]; rfl)
  exact ⟨hadapters, congrArg (List.map AiProvider.name) hadapters⟩

/-- An entry that can be built adds its adapter, under its own name. -/
theorem built_cons_of_ok {entry : FileEntry} {adapter : AiProvider}
    (h : adapterFor nova m entry = .ok adapter) (rest : List FileEntry) :
    builtAdapters nova m (entry :: rest) = adapter :: builtAdapters nova m rest ∧
      builtNames nova m (entry :: rest) = entry.name :: builtNames nova m rest := by
  have hadapters : builtAdapters nova m (entry :: rest) = adapter :: builtAdapters nova m rest :=
    List.filterMap_cons_some (by rw [h]; rfl)
  have hname : adapter.name = entry.name := by rw [adapterFor_eq_ok h]
  refine ⟨hadapters, ?_⟩
  unfold builtNames
  rw [hadapters, List.map_cons, hname]

/-- An entry that can be built is one the file names. -/
theorem mem_names_of_mem_builtNames (h : name ∈ builtNames nova m entries) :
    name ∈ entries.map (·.name) := by
  obtain ⟨entry, hentry, hname, -⟩ := mem_builtNames.mp h
  exact List.mem_map.mpr ⟨entry, hentry, hname⟩

/-- Registering adapters leaves every other name alone. -/
theorem get_register_of_not_mem (adapters : List AiProvider) (registry : ProviderRegistry)
    (h : name ∉ adapters.map (·.name)) :
    (adapters.foldl ProviderRegistry.register registry).get name = registry.get name := by
  induction adapters generalizing registry with
  | nil => rfl
  | cons a rest ih =>
      rw [List.map_cons, List.mem_cons, not_or] at h
      rw [List.foldl_cons, ih _ h.2]
      exact ProviderRegistry.get_register_ne registry h.1

/-- After registering adapters, a name of one of them gives one of them. -/
theorem get_register_of_mem (adapters : List AiProvider) (registry : ProviderRegistry)
    (h : name ∈ adapters.map (·.name)) :
    ∃ a ∈ adapters, (adapters.foldl ProviderRegistry.register registry).get name = some a := by
  induction adapters generalizing registry with
  | nil => cases h
  | cons a rest ih =>
      rw [List.foldl_cons]
      by_cases hrest : name ∈ rest.map (·.name)
      · obtain ⟨b, hb, hget⟩ := ih (registry.register a) hrest
        exact ⟨b, List.mem_cons_of_mem _ hb, hget⟩
      · -- the last adapter of the name is the first of the list
        have hname : name = a.name := (List.mem_cons.mp h).resolve_right hrest
        refine ⟨a, List.mem_cons_self, ?_⟩
        rw [get_register_of_not_mem rest _ hrest, hname]
        exact ProviderRegistry.get_register_self registry a

/-- Unregistering names empties them and leaves every other name alone. -/
theorem get_unregister (names : List String) (registry : ProviderRegistry) :
    (names.foldl ProviderRegistry.unregister registry).get name =
      if name ∈ names then none else registry.get name := by
  induction names generalizing registry with
  | nil => rfl
  | cons n rest ih =>
      rw [List.foldl_cons, ih]
      by_cases hrest : name ∈ rest
      · rw [if_pos hrest, if_pos (List.mem_cons_of_mem _ hrest)]
      · rw [if_neg hrest]
        by_cases hname : name = n
        · subst hname
          rw [if_pos List.mem_cons_self]
          exact JsMap.get_delete_self registry.providers name
        · rw [if_neg (by simp [hname, hrest])]
          exact JsMap.get_delete_ne registry.providers hname

theorem mem_removedNames {previouslyOwned : List String} : name ∈ removedNames previouslyOwned entries ↔
    name ∈ previouslyOwned ∧ name ∉ entries.map (·.name) := by
  simp [removedNames]

/-! ## What a reconciliation does -/

/-- The loop registers what can be built and owns its names. -/
theorem reconcile_loop (prev : List String) (s : ReconcileState) :
    (entries.foldl (reconcileEntry nova m prev) s).registry =
        (builtAdapters nova m entries).foldl ProviderRegistry.register s.registry ∧
      (entries.foldl (reconcileEntry nova m prev) s).ownedAfter =
        s.ownedAfter ++ builtNames nova m entries := by
  induction entries generalizing s with
  | nil => exact ⟨rfl, (List.append_nil _).symm⟩
  | cons entry rest ih =>
      obtain ⟨hregistry, howned⟩ := ih (reconcileEntry nova m prev s entry)
      rw [List.foldl_cons, hregistry, howned]
      unfold reconcileEntry
      cases hadapter : adapterFor nova m entry with
      | error e =>
          obtain ⟨hadapters, hnames⟩ := built_cons_of_error hadapter rest
          rw [hadapters, hnames]
          exact ⟨rfl, rfl⟩
      | ok adapter =>
          obtain ⟨hadapters, hnames⟩ := built_cons_of_ok hadapter rest
          rw [hadapters, hnames]
          simp only
          split <;> simp

/-- Where every name owned before is registered as the loop reaches it, the loop keeps the names it owned
    and adds the others. -/
theorem reconcile_report (prev : List String) (s : ReconcileState)
    (hpresent : ∀ name ∈ prev, name ∈ entries.map (·.name) → (s.registry.get name).isSome = true) :
    (entries.foldl (reconcileEntry nova m prev) s).kept =
        s.kept ++ (builtNames nova m entries).filter (· ∈ prev) ∧
      (entries.foldl (reconcileEntry nova m prev) s).added =
        s.added ++ (builtNames nova m entries).filter (· ∉ prev) := by
  induction entries generalizing s with
  | nil => exact ⟨(List.append_nil _).symm, (List.append_nil _).symm⟩
  | cons entry rest ih =>
      have hnext : ∀ name ∈ prev, name ∈ rest.map (·.name) →
          ((reconcileEntry nova m prev s entry).registry.get name).isSome = true := by
        intro name hprev hname
        have hbefore := hpresent name hprev (List.mem_cons_of_mem _ hname)
        have hone := (@reconcile_loop nova m [entry] prev s).1
        rw [List.foldl_cons, List.foldl_nil] at hone
        rw [hone]
        by_cases hbuilt : name ∈ (builtAdapters nova m [entry]).map (·.name)
        · obtain ⟨a, -, hget⟩ := get_register_of_mem _ s.registry hbuilt
          rw [hget]
          rfl
        · rw [get_register_of_not_mem _ s.registry hbuilt]
          exact hbefore
      obtain ⟨hkept, hadded⟩ := ih (reconcileEntry nova m prev s entry) hnext
      rw [List.foldl_cons, hkept, hadded]
      unfold reconcileEntry
      cases hadapter : adapterFor nova m entry with
      | error e =>
          rw [(built_cons_of_error hadapter rest).2]
          exact ⟨rfl, rfl⟩
      | ok adapter =>
          rw [(built_cons_of_ok hadapter rest).2]
          by_cases hprev : entry.name ∈ prev
          · have hhere := hpresent entry.name hprev List.mem_cons_self
            simp [hhere, hprev]
          · simp [hprev]

/-- **A reload in closed form**, when the file can be read. -/
theorem reload_eq {s : FromFileState} (hload : loadProvidersFile (m.file s.path) = .ok entries) :
    (reload nova m s).1.registry =
        (builtAdapters nova m entries).foldl ProviderRegistry.register
          ((removedNames s.owned entries).foldl ProviderRegistry.unregister s.registry) ∧
      (reload nova m s).1.owned = builtNames nova m entries ∧
      (reload nova m s).1.path = s.path := by
  obtain ⟨hregistry, howned⟩ := @reconcile_loop nova m entries s.owned
    ⟨(removedNames s.owned entries).foldl ProviderRegistry.unregister s.registry, [], [], [], []⟩
  unfold reload reconcileFromFileProviders
  rw [hload]
  exact ⟨hregistry, howned, rfl⟩

/-- A reload of a file that cannot be read changes nothing. -/
theorem reload_of_error {s : FromFileState} {e : JsError}
    (hload : loadProvidersFile (m.file s.path) = .error e) : reload nova m s = (s, .error e) := by
  unfold reload reconcileFromFileProviders
  rw [hload]
  rfl

/-- **The report of a reload**, when every name owned before is registered. -/
theorem reload_report {s : FromFileState} (hload : loadProvidersFile (m.file s.path) = .ok entries)
    (hpresent : ∀ name ∈ s.owned, (s.registry.get name).isSome = true) :
    ∃ result, (reload nova m s).2 = .ok result ∧
      result.removed = removedNames s.owned entries ∧
      result.kept = (builtNames nova m entries).filter (· ∈ s.owned) ∧
      result.added = (builtNames nova m entries).filter (· ∉ s.owned) := by
  have hleft : ∀ name ∈ s.owned, name ∈ entries.map (·.name) →
      (((removedNames s.owned entries).foldl ProviderRegistry.unregister s.registry).get
        name).isSome = true := by
    intro name howned hname
    rw [get_unregister, if_neg fun hremoved => (mem_removedNames.mp hremoved).2 hname]
    exact hpresent name howned
  obtain ⟨hkept, hadded⟩ := @reconcile_report nova m entries s.owned
    ⟨(removedNames s.owned entries).foldl ProviderRegistry.unregister s.registry, [], [], [], []⟩ hleft
  unfold reload reconcileFromFileProviders
  rw [hload]
  exact ⟨_, rfl, rfl, hkept, hadded⟩

/-- The boot loop registers what can be built and owns its names. -/
theorem boot_loop (s : FromFileState) :
    (entries.foldl (bootEntry nova m) s).registry =
        (builtAdapters nova m entries).foldl ProviderRegistry.register s.registry ∧
      (entries.foldl (bootEntry nova m) s).owned = s.owned ++ builtNames nova m entries ∧
      (entries.foldl (bootEntry nova m) s).path = s.path := by
  induction entries generalizing s with
  | nil => exact ⟨rfl, (List.append_nil _).symm, rfl⟩
  | cons entry rest ih =>
      obtain ⟨hregistry, howned, hpath⟩ := ih (bootEntry nova m s entry)
      rw [List.foldl_cons, hregistry, howned, hpath]
      unfold bootEntry
      cases hadapter : adapterFor nova m entry with
      | error e =>
          obtain ⟨hadapters, hnames⟩ := built_cons_of_error hadapter rest
          rw [hadapters, hnames]
          exact ⟨rfl, rfl, rfl⟩
      | ok adapter =>
          obtain ⟨hadapters, hnames⟩ := built_cons_of_ok hadapter rest
          rw [hadapters, hnames]
          simp

/-- **Boot in closed form.** -/
theorem boot_eq {path : String} {s : FromFileState} (h : boot nova m path registry = .ok s) :
    ∃ entries, loadProvidersFile (m.file path) = .ok entries ∧
      s.registry = (builtAdapters nova m entries).foldl ProviderRegistry.register registry ∧
      s.owned = builtNames nova m entries ∧ s.path = path := by
  obtain ⟨entries, hload, hs⟩ := Except.bind_eq_ok_iff.mp h
  obtain ⟨hregistry, howned, hpath⟩ := @boot_loop nova m entries ⟨registry, path, []⟩
  rw [← Except.ok.inj hs]
  exact ⟨entries, hload, hregistry, howned, hpath⟩

end Sirius
