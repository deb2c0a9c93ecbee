import SiriusGateway.FromFile.Adapters

/-!
# `Correctness.BootReload` — boot and reload build the same state

The boot factory has a loop of its own, a copy of the one in `reconcileFromFileProviders`. Both register and own
what can be built from the entries, so boot leaves what a reconciliation from nothing leaves, and a reload that
follows finds all it owns in the file and in the registry (`boot_builds_what_reload_builds`).

## Contents
- **The loops.** They run alike: one step, and any number of entries.
- **A reload after boot.** On reduced registries, where the reports of a reload are known.
- **The result.**
-/

namespace Sirius

open Js

namespace FromFile

variable {ν β : Type} {nova : NovaOptions → Throws ν} {m : Machine} {path : String}

/-! ## The loops -/

/-- The loop of boot and that of a reconciliation stand alike: the same registry, the same names owned. -/
structure Alike (s : BootState ν β) (t : ReconcileState ν β) : Prop where
  registry : s.registry = t.registry
  owned : s.owned = t.ownedAfter

/-- One entry keeps them alike, built or skipped. -/
theorem Alike.step {s : BootState ν β} {t : ReconcileState ν β} (h : Alike s t) (prev : List String)
    (entry : FileEntry) : Alike (bootEntry nova m s entry) (reconcileEntry nova m prev t entry) := by
  rw [bootEntry_eq, reconcileEntry_eq]
  cases adapterFor (β := β) nova m entry with
  | error e => exact ⟨h.registry, h.owned⟩
  | ok adapter =>
      obtain ⟨hregistry, howned⟩ := t.take_registry prev entry adapter
      refine ⟨?_, ?_⟩
      · rw [hregistry, ← h.registry]
        rfl
      · rw [howned, ← h.owned]
        rfl

/-- **The loops run alike** over any entries. -/
theorem Alike.run {s : BootState ν β} {t : ReconcileState ν β} (h : Alike s t) (prev : List String)
    (entries : List FileEntry) :
    Alike (entries.foldl (bootEntry nova m) s) (entries.foldl (reconcileEntry nova m prev) t) := by
  induction entries generalizing s t with
  | nil => exact h
  | cons entry rest ih => exact ih (h.step prev entry)

/-- The service after boot is the one a reconciliation from nothing leaves, once it is told the names. -/
theorem boot_eq_reconcile (nova : NovaOptions → Throws ν) (m : Machine) (path : String)
    (registry : Registry ν β) :
    (boot nova m path registry).map Prod.snd =
      (reconcileFromFileProviders nova m path registry []).map fun r =>
        (⟨r.registry, path, []⟩ : Service ν β).setOwned r.ownedAfter := by
  unfold boot reconcileFromFileProviders
  cases loadProvidersFile (m.file path) with
  | error e => rfl
  | ok entries =>
      have halike : Alike (entries.foldl (bootEntry nova m) ⟨registry, [], []⟩)
          (entries.foldl (reconcileEntry nova m []) ⟨registry, [], [], [], []⟩) :=
        Alike.run ⟨rfl, rfl⟩ [] entries
      show Except.ok (Service.mk _ path _) = Except.ok (Service.mk _ path _)
      rw [halike.registry, halike.owned]
      rfl

end FromFile

/-! ## A reload after boot -/

/-- Every name boot owns is registered. -/
theorem registered_after_boot {nova : NovaFactory} {m : Machine} {path : String} {registry : ProviderRegistry}
    {s : FromFileState} (h : boot nova m path registry = .ok s) :
    ∀ name ∈ s.owned, (s.registry.get name).isSome = true := by
  obtain ⟨entries, -, hregistry, howned, -⟩ := boot_eq h
  intro name hname
  rw [howned] at hname
  obtain ⟨adapter, -, hget⟩ := get_register_of_mem (builtAdapters nova m entries) registry hname
  rw [hregistry, hget]
  rfl

/-- A reload of the same file removes nothing and adds nothing. -/
theorem reload_after_boot {nova : NovaFactory} {m : Machine} {path : String} {registry : ProviderRegistry}
    {s : FromFileState} (h : boot nova m path registry = .ok s) :
    ∃ result, (reload nova m s).2 = .ok result ∧ result.removed = [] ∧ result.added = [] := by
  have hpresent := registered_after_boot h
  obtain ⟨entries, hload, -, howned, hpath⟩ := boot_eq h
  rw [← hpath] at hload
  obtain ⟨result, hresult, hremoved, -, hadded⟩ := @reload_report nova m entries s hload hpresent
  refine ⟨result, hresult, ?_, ?_⟩
  · -- what is owned was built from an entry, so the file names it
    rw [hremoved, List.eq_nil_iff_forall_not_mem]
    intro name hname
    obtain ⟨hown, hgone⟩ := mem_removedNames.mp hname
    rw [howned] at hown
    exact hgone (mem_names_of_mem_builtNames hown)
  · rw [hadded, howned]
    simp

/-! ## The result -/

namespace FromFile

/-- Boot leaves the service and the registry, with its names, their order and their adapters, as a
    reconciliation from nothing and `setOwned` leave them, or throws what that throws; and the reload that
    follows removes nothing and adds nothing. -/
structure BuildsWhatReloadBuilds {ν β : Type} (nova : NovaOptions → Throws ν) (m : Machine) (path : String)
    (registry : Registry ν β) : Prop where
  same : (boot nova m path registry).map Prod.snd =
    (reconcileFromFileProviders nova m path registry []).map fun r =>
      (⟨r.registry, path, []⟩ : Service ν β).setOwned r.ownedAfter
  idle : ∀ adapters s, boot nova m path registry = .ok (adapters, s) →
    ∃ result, (reload nova m s).2 = .ok result ∧ result.removed = [] ∧ result.added = []

/-- **Boot and reload build the same state**, from every file and over every registry. -/
theorem boot_builds_what_reload_builds {ν β : Type} (nova : NovaOptions → Throws ν) (m : Machine) (path : String)
    (registry : Registry ν β) : BuildsWhatReloadBuilds nova m path registry where
  same := boot_eq_reconcile nova m path registry
  idle := by
    intro adapters s hboot
    have hreduced : Sirius.boot (forget nova) m path registry.erase = .ok s.erase := by
      rw [erase_boot, hboot]
      rfl
    obtain ⟨result, hresult, hremoved, hadded⟩ := reload_after_boot hreduced
    rw [erase_reload] at hresult
    exact ⟨result, hresult, hremoved, hadded⟩

end FromFile

end Sirius
