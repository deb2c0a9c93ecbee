import SiriusGateway.Lib.Lists
import SiriusGateway.Routing.Service

/-!
# `Gateway.Chain` — from a routing decision to the adapters to try

`GatewayService.buildProviderChain`: the selected adapter first, then every fallback string of the
decision, split at `/` and looked up in the provider registry.

## Contents
- **Decoding.** `splitSlash`, `decodeFallback`, `buildProviderChain`.
- **The round trip.** `decodeFallback_encodeFallback_iff`: a candidate survives its encoding exactly when
  its provider name and its model id are `Segment`s, that is non-empty and free of slashes.
-/

namespace Sirius

/-- One adapter of the chain and the model id it is called with. -/
structure ChainEntry where
  provider : AiProvider
  modelId : String
  deriving DecidableEq

/-- `text.split('/')`. -/
def splitSlash (text : String) : List String := (text.toList.splitOn '/').map String.ofList

/-- `const [providerName, modelId] = fallback.split('/')`, skipped when either is missing or empty. -/
def decodeFallback (fallback : String) : Option (String × String) :=
  match splitSlash fallback with
  | providerName :: modelId :: _ =>
      if providerName = "" ∨ modelId = "" then none else some (providerName, modelId)
  | _ => none

/-- The chain entry of one fallback string. -/
def fallbackEntry (registry : ProviderRegistry) (selectedProvider fallback : String) :
    Option ChainEntry :=
  match decodeFallback fallback with
  | none => none
  | some (providerName, modelId) =>
      match registry.get providerName with
      -- the selected provider is never its own fallback, whatever the model
      | some provider => if provider.name ≠ selectedProvider then some ⟨provider, modelId⟩ else none
      | none => none

/-- `buildProviderChain(decision)`. -/
def buildProviderChain (registry : ProviderRegistry) (decision : RoutingDecision) : List ChainEntry :=
  (match registry.get decision.selectedProvider with
    | some primary => [⟨primary, decision.selectedModel⟩]
    | none => [])
    ++ decision.fallbackChain.filterMap (fallbackEntry registry decision.selectedProvider)

/-! ## The round trip -/

/-- A name that can stand between two slashes. -/
def Segment (name : String) : Prop := name ≠ "" ∧ '/' ∉ name.toList

instance (name : String) : Decidable (Segment name) := inferInstanceAs (Decidable (_ ∧ _))

theorem splitSlash_encodeFallback (c : RoutingCandidate) :
    splitSlash (RoutingService.encodeFallback c) =
      ((c.model.provider.toList ++ '/' :: c.model.modelId.toList).splitOn '/').map String.ofList := by
  unfold splitSlash RoutingService.encodeFallback
  rw [String.toList_append, String.toList_append, List.append_assoc]
  rfl

/-- A decoded pair is the first two segments, both of them non-empty. -/
theorem decodeFallback_eq_some_iff {fallback p m : String} :
    decodeFallback fallback = some (p, m) ↔
      (splitSlash fallback).take 2 = [p, m] ∧ p ≠ "" ∧ m ≠ "" := by
  unfold decodeFallback
  split
  · rename_i q n rest heq
    rw [heq]
    simp only [List.take_succ_cons, List.take_zero, List.cons.injEq, and_true]
    split
    · rename_i hempty
      simp only [reduceCtorEq, false_iff]
      rintro ⟨⟨rfl, rfl⟩, hp, hm⟩
      exact hempty.elim hp hm
    · rename_i hne
      simp only [Option.some.injEq, Prod.mk.injEq]
      rw [not_or] at hne
      exact ⟨fun ⟨hp, hm⟩ => ⟨⟨hp, hm⟩, hp ▸ hne.1, hm ▸ hne.2⟩, fun h => h.1⟩
  · rename_i hshort
    simp only [reduceCtorEq, false_iff]
    rintro ⟨htake, -⟩
    cases hs : splitSlash fallback with
    | nil => simp [hs] at htake
    | cons q rest =>
        cases rest with
        | nil => simp [hs] at htake
        | cons n more => exact hshort q n more hs

/-- **A candidate survives its encoding exactly when both of its names are segments.** -/
theorem decodeFallback_encodeFallback_iff {c : RoutingCandidate} :
    decodeFallback (RoutingService.encodeFallback c) = some (c.model.provider, c.model.modelId) ↔
      Segment c.model.provider ∧ Segment c.model.modelId := by
  rw [decodeFallback_eq_some_iff, splitSlash_encodeFallback, ← List.map_take]
  have hinj : ∀ l : List (List Char),
      l.map String.ofList = [c.model.provider, c.model.modelId] ↔
        l = [c.model.provider.toList, c.model.modelId.toList] := by
    intro l
    constructor
    · intro h
      have h' := congrArg (List.map String.toList) h
      simpa [List.map_map, Function.comp_def] using h'
    · rintro rfl
      simp
  rw [hinj, List.take_two_splitOn_iff]
  unfold Segment
  exact ⟨fun ⟨⟨hp, hm⟩, hp', hm'⟩ => ⟨⟨hp', hp⟩, hm', hm⟩,
    fun ⟨⟨hp', hp⟩, hm', hm⟩ => ⟨⟨hp, hm⟩, hp', hm'⟩⟩

end Sirius
