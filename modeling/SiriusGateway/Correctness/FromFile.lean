import SiriusGateway.FromFile.Reconcile

/-!
# `Correctness.FromFile` — what the from-file loader owns

`FromFileReloadService` decides by name what it owns, and it recomputes the names on every reload from the
entries that could be built. Two laws follow, each with its exact condition.

Its names are the registered from-file adapters, and its reports are exact, as long as no reload meets a name
it owns whose entries have all become impossible to build (`reloads_exact_iff`): such an entry is skipped,
and its adapter stays registered without an owner. An adapter of another module survives as long as no file
has an entry of its name that can be built (`other_adapter_kept_iff`).

## Contents
- **Ownership.** `OwnsExactly`, `ExactReload`, `NoOwnedBroken`, and one reload (`exactReload_iff`).
- **Sequences of reloads.** `AllReloads`, and the result over all of them.
- **Other modules.** What a reload does to a name another module has registered.
-/

namespace Sirius

open Js

/-! ## Ownership -/

/-- A from-file adapter is registered under the name. -/
def FromFileRegistered (registry : ProviderRegistry) (name : String) : Prop :=
  ∃ adapter kind, registry.get name = some adapter ∧ adapter.kind = .fromFile kind

/-- The registered from-file adapters are exactly the names the service owns. -/
def OwnsExactly (s : FromFileState) : Prop :=
  ∀ name, FromFileRegistered s.registry name ↔ name ∈ s.owned

/-- After the reload the service owns exactly the registered from-file adapters; none of them is absent from
    the file, and the report's lists are the differences and the intersection of those before and after. -/
structure ExactReload (nova : NovaFactory) (m : Machine) (s : FromFileState) : Prop where
  owns : OwnsExactly (reload nova m s).1
  report : ∀ entries result, loadProvidersFile (m.file s.path) = .ok entries →
    (reload nova m s).2 = .ok result → ∀ name,
      (FromFileRegistered (reload nova m s).1.registry name → name ∈ entries.map (·.name)) ∧
      (name ∈ result.added ↔
        FromFileRegistered (reload nova m s).1.registry name ∧ ¬ FromFileRegistered s.registry name) ∧
      (name ∈ result.removed ↔
        FromFileRegistered s.registry name ∧ ¬ FromFileRegistered (reload nova m s).1.registry name) ∧
      (name ∈ result.kept ↔
        FromFileRegistered s.registry name ∧ FromFileRegistered (reload nova m s).1.registry name)

/-- Every owned name the file still has can be built from one of its entries. -/
def NoOwnedBroken (nova : NovaFactory) (m : Machine) (s : FromFileState) : Prop :=
  ∀ entries, loadProvidersFile (m.file s.path) = .ok entries →
    ∀ name ∈ s.owned, name ∈ entries.map (·.name) → name ∈ builtNames nova m entries

variable {nova : NovaFactory} {m m₀ : Machine} {s s₀ : FromFileState} {registry : ProviderRegistry}
  {entries : List FileEntry} {name path : String}

/-- What is registered under a name after a reload that reads the entries. -/
theorem get_reload (hload : loadProvidersFile (m.file s.path) = .ok entries) (name : String) :
    (name ∈ builtNames nova m entries ∧ FromFileRegistered (reload nova m s).1.registry name) ∨
      (name ∉ builtNames nova m entries ∧ (reload nova m s).1.registry.get name =
        if name ∈ s.owned ∧ name ∉ entries.map (·.name) then none else s.registry.get name) := by
  rw [(reload_eq hload).1]
  by_cases hbuilt : name ∈ builtNames nova m entries
  · left
    obtain ⟨a, ha, hget⟩ := get_register_of_mem _
      ((removedNames s.owned entries).foldl ProviderRegistry.unregister s.registry) hbuilt
    obtain ⟨kind, hkind⟩ := exists_kind_of_mem_built ha
    exact ⟨hbuilt, a, kind, hget, hkind⟩
  · right
    refine ⟨hbuilt, ?_⟩
    rw [get_register_of_not_mem _ _ hbuilt, get_unregister]
    simp only [mem_removedNames]

/-- The from-file adapters after a reload: those just built, and those that were registered and whose name
    the file still has. -/
theorem fromFileRegistered_reload_iff (howns : OwnsExactly s)
    (hload : loadProvidersFile (m.file s.path) = .ok entries) :
    FromFileRegistered (reload nova m s).1.registry name ↔
      name ∈ builtNames nova m entries ∨ (name ∈ s.owned ∧ name ∈ entries.map (·.name)) := by
  rcases @get_reload nova m s entries hload name with ⟨hbuilt, hregistered⟩ | ⟨hbuilt, hget⟩
  · exact ⟨fun _ => Or.inl hbuilt, fun _ => hregistered⟩
  -- a name that is not built is at most taken away
  · have hsame : FromFileRegistered (reload nova m s).1.registry name ↔
        ¬ (name ∈ s.owned ∧ name ∉ entries.map (·.name)) ∧ FromFileRegistered s.registry name := by
      unfold FromFileRegistered
      rw [hget]
      split
      · rename_i hremoved
        exact ⟨fun ⟨a, kind, h, _⟩ => (nomatch h), fun h => absurd hremoved h.1⟩
      · rename_i hremoved
        exact ⟨fun h => ⟨hremoved, h⟩, fun h => h.2⟩
    rw [hsame, howns name]
    constructor
    · rintro ⟨hstays, howned⟩
      by_contra hno
      exact hstays ⟨howned, fun hnamed => hno (Or.inr ⟨howned, hnamed⟩)⟩
    · rintro (hbuilt' | ⟨howned, hnamed⟩)
      · exact absurd hbuilt' hbuilt
      · exact ⟨fun h => h.2 hnamed, howned⟩

/-- **One reload is exact if and only if no owned name is broken**, from a state in which the service owns
    exactly its adapters. -/
theorem exactReload_iff (howns : OwnsExactly s) : ExactReload nova m s ↔ NoOwnedBroken nova m s := by
  constructor
  · intro hexact entries hload name howned hnamed
    have hregistered := (@fromFileRegistered_reload_iff nova m s entries name howns hload).mpr
      (Or.inr ⟨howned, hnamed⟩)
    rw [← (reload_eq hload).2.1]
    exact (hexact.owns name).mp hregistered
  · intro hbroken
    cases hload : loadProvidersFile (m.file s.path) with
    | error e =>
        -- a file that cannot be read changes nothing
        have hnothing := @reload_of_error nova m s e hload
        refine ⟨?_, fun entries result hload' hresult => ?_⟩
        · rw [hnothing]
          exact howns
        · rw [hnothing] at hresult
          cases hresult
    | ok entries =>
        -- no owned name is broken, so of the owned names the file still has all are built again
        have hafter : ∀ name, FromFileRegistered (reload nova m s).1.registry name ↔
            name ∈ builtNames nova m entries := by
          intro name
          rw [fromFileRegistered_reload_iff howns hload]
          refine ⟨fun h => h.elim id fun h => hbroken entries hload name h.1 h.2, Or.inl⟩
        have hpresent : ∀ name ∈ s.owned, (s.registry.get name).isSome = true := by
          intro name howned
          obtain ⟨a, -, hget, -⟩ := (howns name).mpr howned
          rw [hget]
          rfl
        obtain ⟨result, hresult, hremoved, hkept, hadded⟩ :=
          @reload_report nova m entries s hload hpresent
        refine ⟨fun name => ?_, fun entries' result' hload' hresult' name => ?_⟩
        · rw [hafter, (reload_eq hload).2.1]
        · obtain rfl : entries = entries' := Except.ok.inj (hload.symm.trans hload')
          obtain rfl : result = result' := Except.ok.inj (hresult.symm.trans hresult')
          rw [hafter name, howns name, hremoved, hkept, hadded]
          refine ⟨mem_names_of_mem_builtNames, by simp, ?_, by simp [and_comm]⟩
          rw [mem_removedNames]
          constructor
          · rintro ⟨howned, hgone⟩
            exact ⟨howned, fun hbuilt => hgone (mem_names_of_mem_builtNames hbuilt)⟩
          · rintro ⟨howned, hunbuilt⟩
            exact ⟨howned, fun hnamed => hunbuilt (hbroken entries hload name howned hnamed)⟩

/-! ## Sequences of reloads -/

/-- The property holds of every reload of the sequence, in the state it starts from. -/
def AllReloads (nova : NovaFactory) (P : Machine → FromFileState → Prop) (s : FromFileState)
    (machines : List Machine) : Prop :=
  ∀ before m after, machines = before ++ m :: after → P m (afterReloads nova s before)

theorem allReloads_cons {P : Machine → FromFileState → Prop} {rest : List Machine} :
    AllReloads nova P s (m :: rest) ↔ P m s ∧ AllReloads nova P (reload nova m s).1 rest := by
  constructor
  · intro h
    refine ⟨h [] m rest rfl, fun before m' after heq => ?_⟩
    have := h (m :: before) m' after (by rw [heq]; rfl)
    rwa [afterReloads_cons] at this
  · rintro ⟨hfirst, hrest⟩ before m' after heq
    cases before with
    | nil =>
        cases heq
        exact hfirst
    | cons b before =>
        obtain ⟨rfl, htail⟩ := List.cons.inj heq
        rw [afterReloads_cons]
        exact hrest before m' after htail

/-- Boot over a registry without from-file adapters owns exactly what it registers. -/
theorem ownsExactly_boot (hothers : ∀ name, ¬ FromFileRegistered registry name)
    (hboot : boot nova m₀ path registry = .ok s₀) : OwnsExactly s₀ := by
  obtain ⟨entries, -, hregistry, howned, -⟩ := boot_eq hboot
  intro name
  rw [hregistry, howned]
  by_cases hbuilt : name ∈ builtNames nova m₀ entries
  · obtain ⟨a, ha, hget⟩ := get_register_of_mem _ registry hbuilt
    obtain ⟨kind, hkind⟩ := exists_kind_of_mem_built ha
    exact ⟨fun _ => hbuilt, fun _ => ⟨a, kind, hget, hkind⟩⟩
  · refine ⟨fun h => ?_, fun h => absurd h hbuilt⟩
    unfold FromFileRegistered at h
    rw [get_register_of_not_mem _ registry hbuilt] at h
    exact absurd h (hothers name)

/-- **The loader owns exactly its adapters over every sequence of reloads, if and only if no reload meets an
    owned name all of whose entries are broken.** The registry boot starts from holds the adapters of the
    other modules. -/
theorem reloads_exact_iff (hothers : ∀ name, ¬ FromFileRegistered registry name)
    (hboot : boot nova m₀ path registry = .ok s₀) (machines : List Machine) :
    (OwnsExactly s₀ ∧ AllReloads nova (ExactReload nova) s₀ machines) ↔
      AllReloads nova (NoOwnedBroken nova) s₀ machines := by
  have hstart := ownsExactly_boot hothers hboot
  rw [and_iff_right hstart]
  clear hboot
  -- an exact reload leaves a state that owns exactly its adapters, for the rest of the sequence
  induction machines generalizing s₀ with
  | nil => exact ⟨fun _ before m after heq => by simp at heq, fun _ before m after heq => by simp at heq⟩
  | cons m rest ih =>
      rw [allReloads_cons, allReloads_cons, exactReload_iff hstart]
      refine and_congr_right fun hbroken => ?_
      exact ih (((exactReload_iff hstart).mpr hbroken).owns)

/-! ### An entry that breaks -/

/-- The providers file has these entries, given by name and kind. -/
def machineWith (entries : List (String × String)) : Machine where
  file := fun _ => .document (.obj [("providers", .arr (entries.map fun entry =>
    .obj [("name", .str entry.1), ("kind", .str entry.2)]))])
  env := fun _ => none
  keyFile := fun _ => .ok none

/-- A Nova factory that takes every option. -/
def anyNova : NovaFactory := fun _ => .ok ()

/-- After a boot with one entry, over a registry without adapters. -/
def bootedWith (name kind : String) : FromFileState where
  registry := ProviderRegistry.empty.register ⟨name, .fromFile kind⟩
  path := "providers.yaml"
  owned := [name]

/-- **An entry that breaks is orphaned**: its adapter stays registered, and the service forgets it. -/
theorem broken_entry_orphaned :
    ¬ ∀ (nova : NovaFactory) (m₀ : Machine) (path : String) (registry : ProviderRegistry)
      (s₀ : FromFileState) (machines : List Machine),
      (∀ name, ¬ FromFileRegistered registry name) → boot nova m₀ path registry = .ok s₀ →
      (∀ m ∈ m₀ :: machines, ∀ entries, loadProvidersFile (m.file path) = .ok entries →
        ∀ entry ∈ entries, registry.get entry.name = none) →
      OwnsExactly s₀ ∧ AllReloads nova (ExactReload nova) s₀ machines := by
  intro hclaim
  have hnone : ∀ name, ProviderRegistry.empty.get name = none := fun name => rfl
  have hexact := (hclaim anyNova (machineWith [("local", "openai")]) "providers.yaml" ProviderRegistry.empty
    (bootedWith "local" "openai") [machineWith [("local", "openai-compatible")]]
    (fun name ⟨a, kind, h, _⟩ => (nomatch h)) rfl (fun _ _ _ _ entry _ => hnone entry.name)).2
  have howns := (hexact [] _ [] rfl).owns "local"
  have howned : (reload anyNova (machineWith [("local", "openai-compatible")])
      (bootedWith "local" "openai")).1.owned = [] := by decide
  have hregistered : (reload anyNova (machineWith [("local", "openai-compatible")])
      (bootedWith "local" "openai")).1.registry.get "local" = some ⟨"local", .fromFile "openai"⟩ := by
    decide
  have hmem := howns.mp ⟨_, _, hregistered, rfl⟩
  rw [show afterReloads anyNova (bootedWith "local" "openai") [] = bootedWith "local" "openai" from rfl,
    howned] at hmem
  cases hmem

/-- A reload that replaces one entry by another. -/
theorem reloads_exact_iff_replaced :
    OwnsExactly (bootedWith "local" "openai") ∧
      AllReloads anyNova (ExactReload anyNova) (bootedWith "local" "openai")
        [machineWith [("remote", "groq")]] := by
  have hothers : ∀ name, ¬ FromFileRegistered ProviderRegistry.empty name :=
    fun name ⟨a, kind, h, _⟩ => (nomatch h)
  have hboot : boot anyNova (machineWith [("local", "openai")]) "providers.yaml" ProviderRegistry.empty =
      .ok (bootedWith "local" "openai") := rfl
  refine (reloads_exact_iff hothers hboot [machineWith [("remote", "groq")]]).mpr ?_
  rw [allReloads_cons]
  refine ⟨?_, fun before m after heq => by simp at heq⟩
  intro entries hload name howned hnamed
  obtain rfl : [⟨"remote", "groq", .undefined, .undefined, .undefined⟩] = entries := Except.ok.inj hload
  obtain rfl : name = "local" := List.mem_singleton.mp howned
  exact absurd (List.mem_singleton.mp hnamed) (by decide)

/-! ## Other modules -/

/-- An adapter the from-file module has not built. -/
def IsOther (adapter : AiProvider) : Prop := ∀ kind, adapter.kind ≠ .fromFile kind

/-- The file the machine has at the path has an entry of the name that can be built. -/
def Builds (nova : NovaFactory) (path name : String) (m : Machine) : Prop :=
  ∃ entries, loadProvidersFile (m.file path) = .ok entries ∧ name ∈ builtNames nova m entries

theorem path_reload : (reload nova m s).1.path = s.path := by
  cases hload : loadProvidersFile (m.file s.path) with
  | error e => rw [reload_of_error hload]
  | ok entries => exact (reload_eq hload).2.2

/-- Once a name does not hold the adapter of another module, no reload brings it back. -/
theorem get_ne_reload {adapter : AiProvider} (hother : IsOther adapter)
    (h : s.registry.get name ≠ some adapter) :
    (reload nova m s).1.registry.get name ≠ some adapter := by
  cases hload : loadProvidersFile (m.file s.path) with
  | error e =>
      rw [reload_of_error hload]
      exact h
  | ok entries =>
      intro hget
      rcases @get_reload nova m s entries hload name with ⟨-, a, kind, hget', hkind⟩ | ⟨-, hget'⟩
      · rw [hget] at hget'
        -- what a reload registers is of the from-file kind
        obtain rfl : adapter = a := Option.some.inj hget'
        exact hother kind hkind
      · rw [hget] at hget'
        split at hget'
        · cases hget'
        · exact h hget'.symm

/-- **A reload keeps the adapter of another module** it does not own, if and only if the file does not build
    an entry of its name; and then it still does not own the name. -/
theorem get_reload_other {adapter : AiProvider} (hother : IsOther adapter)
    (hget : s.registry.get name = some adapter) (howned : name ∉ s.owned) :
    (Builds nova s.path name m → (reload nova m s).1.registry.get name ≠ some adapter) ∧
    (¬ Builds nova s.path name m → (reload nova m s).1.registry.get name = some adapter ∧
      name ∉ (reload nova m s).1.owned) := by
  cases hload : loadProvidersFile (m.file s.path) with
  | error e =>
      rw [reload_of_error hload]
      refine ⟨?_, fun _ => ⟨hget, howned⟩⟩
      rintro ⟨entries, hload', -⟩
      cases hload.symm.trans hload'
  | ok entries =>
      rcases @get_reload nova m s entries hload name with ⟨hbuilt, a, kind, hget', hkind⟩ | ⟨hbuilt, hget'⟩
      · refine ⟨fun _ hkept => ?_, fun hno => absurd ⟨entries, hload, hbuilt⟩ hno⟩
        rw [hkept] at hget'
        obtain rfl : adapter = a := Option.some.inj hget'
        exact hother kind hkind
      · have hsame : (reload nova m s).1.registry.get name = some adapter := by
          rw [hget', if_neg fun h => howned h.1, hget]
        refine ⟨?_, fun _ => ⟨hsame, by rw [(reload_eq hload).2.1]; exact hbuilt⟩⟩
        rintro ⟨entries', hload', hbuilt'⟩
        obtain rfl : entries = entries' := Except.ok.inj (hload.symm.trans hload')
        exact absurd hbuilt' hbuilt

/-- The name does not hold the adapter after reloads from a state where it does not. -/
theorem get_ne_afterReloads {adapter : AiProvider} (hother : IsOther adapter) (machines : List Machine)
    (h : s.registry.get name ≠ some adapter) :
    (afterReloads nova s machines).registry.get name ≠ some adapter := by
  induction machines generalizing s with
  | nil => exact h
  | cons m rest ih => exact ih (get_ne_reload hother h)

/-- **Reloads keep the adapter of another module if and only if none builds an entry of its name.** -/
theorem get_afterReloads_iff {adapter : AiProvider} (hother : IsOther adapter) (machines : List Machine)
    (hget : s.registry.get name = some adapter) (howned : name ∉ s.owned) :
    (afterReloads nova s machines).registry.get name = some adapter ↔
      ∀ m ∈ machines, ¬ Builds nova s.path name m := by
  induction machines generalizing s with
  | nil => exact ⟨fun _ m hm => absurd hm List.not_mem_nil, fun _ => hget⟩
  | cons m rest ih =>
      obtain ⟨hlost, hkept⟩ := @get_reload_other nova m s name adapter hother hget howned
      rw [afterReloads_cons, List.forall_mem_cons]
      by_cases hbuilds : Builds nova s.path name m
      · have hno := @get_ne_afterReloads nova (reload nova m s).1 name adapter hother rest (hlost hbuilds)
        exact ⟨fun h => absurd h hno, fun h => absurd hbuilds h.1⟩
      · obtain ⟨hget', howned'⟩ := hkept hbuilds
        rw [ih hget' howned', path_reload]
        exact ⟨fun h => ⟨hbuilds, h⟩, fun h => h.2⟩

/-- **The adapter of another module is still there after boot and reloads, if and only if no file read had an
    entry of its name that can be built**, whatever the files named in between and at the end. -/
theorem other_adapter_kept_iff {adapter : AiProvider} (hget : registry.get name = some adapter)
    (hother : IsOther adapter) (hboot : boot nova m₀ path registry = .ok s₀) (machines : List Machine) :
    (afterReloads nova s₀ machines).registry.get name = some adapter ↔
      ∀ m ∈ m₀ :: machines, ¬ Builds nova path name m := by
  obtain ⟨entries, hload, hregistry, howned, hpath⟩ := boot_eq hboot
  rw [List.forall_mem_cons]
  by_cases hbuilt : name ∈ builtNames nova m₀ entries
  · have hlost : s₀.registry.get name ≠ some adapter := by
      obtain ⟨a, ha, hget'⟩ := get_register_of_mem _ registry hbuilt
      obtain ⟨kind, hkind⟩ := exists_kind_of_mem_built ha
      rw [hregistry, hget']
      intro heq
      obtain rfl : a = adapter := Option.some.inj heq
      exact hother kind hkind
    have hno := @get_ne_afterReloads nova s₀ name adapter hother machines hlost
    exact ⟨fun h => absurd h hno, fun h => absurd ⟨entries, hload, hbuilt⟩ h.1⟩
  · have hkept : s₀.registry.get name = some adapter := by
      rw [hregistry, get_register_of_not_mem _ registry hbuilt, hget]
    have hfree : name ∉ s₀.owned := by
      rw [howned]
      exact hbuilt
    have hboots : ¬ Builds nova path name m₀ := by
      rintro ⟨entries', hload', hbuilt'⟩
      obtain rfl : entries = entries' := Except.ok.inj (hload.symm.trans hload')
      exact hbuilt hbuilt'
    rw [get_afterReloads_iff hother machines hkept hfree, hpath]
    exact ⟨fun h => ⟨hboots, h⟩, fun h => h.2⟩

/-! ### The name `openai` -/

/-- The registry in which the OpenAI module has registered its adapter. -/
def openAiRegistry : ProviderRegistry := ProviderRegistry.empty.register ⟨"openai", .openai⟩

/-- A from-file entry named `openai` replaces the built-in adapter, and removing the entry removes it. -/
theorem entry_takes_openai :
    ¬ ∀ (nova : NovaFactory) (m₀ : Machine) (path : String) (registry : ProviderRegistry)
      (s₀ : FromFileState) (machines : List Machine) (last : Machine) (name : String) (adapter : AiProvider),
      boot nova m₀ path registry = .ok s₀ →
      (∀ entries, loadProvidersFile (last.file path) = .ok entries → name ∉ entries.map (·.name)) →
      registry.get name = some adapter → IsOther adapter →
      (afterReloads nova s₀ (machines ++ [last])).registry.get name = some adapter := by
  intro hclaim
  obtain ⟨s₀, hboot⟩ : ∃ s₀, boot anyNova (machineWith [("openai", "openai")]) "providers.yaml"
    openAiRegistry = .ok s₀ := ⟨_, rfl⟩
  have hkept := hclaim anyNova (machineWith [("openai", "openai")]) "providers.yaml" openAiRegistry s₀ []
    (machineWith []) "openai" ⟨"openai", .openai⟩ hboot
    (by rintro entries hload
        obtain rfl := Except.ok.inj hload
        exact List.not_mem_nil)
    rfl (fun kind h => (nomatch h))
  obtain rfl := Except.ok.inj hboot
  have hgone : (afterReloads anyNova
      ([⟨"openai", "openai", .undefined, .undefined, .undefined⟩].foldl
        (bootEntry anyNova (machineWith [("openai", "openai")])) ⟨openAiRegistry, "providers.yaml", []⟩)
      [machineWith []]).registry.get "openai" = none := by decide
  cases hgone.symm.trans hkept

/-- Reloads of entries under other names leave the built-in adapter where it is. -/
theorem other_adapter_kept_iff_local :
    (afterReloads anyNova ⟨openAiRegistry.register ⟨"local", .fromFile "groq"⟩, "providers.yaml", ["local"]⟩
      [machineWith [], machineWith [("remote", "groq")]]).registry.get "openai" =
        some ⟨"openai", .openai⟩ := by
  have hboot : boot anyNova (machineWith [("local", "groq")]) "providers.yaml" openAiRegistry =
      .ok ⟨openAiRegistry.register ⟨"local", .fromFile "groq"⟩, "providers.yaml", ["local"]⟩ := rfl
  have hget : openAiRegistry.get "openai" = some ⟨"openai", .openai⟩ := rfl
  refine (other_adapter_kept_iff hget (fun kind h => (nomatch h)) hboot
    [machineWith [], machineWith [("remote", "groq")]]).mpr ?_
  intro m hm
  rintro ⟨entries, hload, hbuilt⟩
  have hnamed := mem_names_of_mem_builtNames hbuilt
  simp only [List.mem_cons, List.not_mem_nil, or_false] at hm
  rcases hm with rfl | rfl | rfl
  · obtain rfl := Except.ok.inj hload
    exact absurd (List.mem_singleton.mp hnamed) (by decide)
  · obtain rfl := Except.ok.inj hload
    cases hnamed
  · obtain rfl := Except.ok.inj hload
    exact absurd (List.mem_singleton.mp hnamed) (by decide)

end Sirius
