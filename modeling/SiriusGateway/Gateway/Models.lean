import SiriusGateway.Gateway.Controllers
import SiriusGateway.Lib.Lists
import SiriusGateway.ModelRegistry.Discovery

/-!
# `Gateway.Models` — the models endpoints

`ModelsController`: the list merges what the providers answer now with the registry, the lookup of one model
asks the registry alone. Time is an argument, in seconds.

## Contents
- **The list.** `GatewayService.listModels`, the merge, `formatModelList`.
- **One model.** `getModel`, and when it finds an id (`getModel_eq_ok_iff`).
-/

namespace Sirius

open Js Compat

/-- `OpenAiModel`; its `object` is always `model`. -/
structure OpenAiModel where
  id : String
  created : Int
  ownedBy : String
  deriving DecidableEq

namespace ModelsController

/-! ## The list -/

/-- `gateway.listModels()`: the listings of the registered providers, without those that failed. -/
def gatewayModels (providers : ProviderRegistry) (results : AiProvider → Probe) : List ModelInfo :=
  providers.getAll.flatMap fun p =>
    match results p with
    | .threw => []
    | .returned models => models

/-- `registryModels`. -/
def registryModels (registry : ModelRegistry) : List ModelInfo :=
  registry.listModels.map fun m => { id := m.modelId, provider := m.provider, ownedBy := some m.provider }

/-- `formatModelList(models)`. -/
def formatModelList (now : Int) (models : List ModelInfo) : List OpenAiModel :=
  models.map fun m => { id := m.id, created := m.created.getD now, ownedBy := m.ownedBy.getD m.provider }

/-- `listModels()`. -/
def listModels (providers : ProviderRegistry) (results : AiProvider → Probe) (registry : ModelRegistry)
    (now : Int) : List OpenAiModel :=
  let models := gatewayModels providers results
  -- `seen` starts with the ids of the live listings, which are not compared with each other
  let merged := models.pushUnseen ModelInfo.id (models.map ModelInfo.id) (registryModels registry)
  formatModelList now merged

theorem map_id_formatModelList (now : Int) (models : List ModelInfo) :
    (formatModelList now models).map OpenAiModel.id = models.map ModelInfo.id := by
  simp [formatModelList]

variable {providers : ProviderRegistry} {results : AiProvider → Probe} {registry : ModelRegistry} {now : Int}
  {id : String}

/-- The ids of the list: what is listed now, and what is registered. -/
theorem mem_map_id_listModels : id ∈ (listModels providers results registry now).map OpenAiModel.id ↔
    id ∈ (gatewayModels providers results).map ModelInfo.id ∨ ∃ m ∈ registry.listModels, m.modelId = id := by
  unfold listModels
  rw [map_id_formatModelList, List.mem_map_pushUnseen fun _ => Iff.rfl]
  simp [registryModels]

theorem nodup_map_id_listModels : ((listModels providers results registry now).map OpenAiModel.id).Nodup ↔
    ((gatewayModels providers results).map ModelInfo.id).Nodup := by
  unfold listModels
  rw [map_id_formatModelList, List.nodup_map_pushUnseen_iff fun _ => Iff.rfl]

/-! ## One model -/

/-- The body of `formatError(status, message, type, code)`. -/
def formatErrorAs (message type code : String) : Json :=
  wireObject [("error", .json (wireObject [("message", .json (.str message)), ("type", .json (.str type)),
    ("param", .json .null), ("code", .json (.str code))]))]

/-- `getModel(id)`: the model, or a status and an error body. -/
def getModel (registry : ModelRegistry) (now : Int) (id : String) : Except (Nat × Json) OpenAiModel :=
  match registry.getCapabilities id none with
  | none =>
      .error (404, formatErrorAs s!"Model \"{id}\" not found." "not_found_error" "model_not_found")
  | some capability => .ok { id := capability.modelId, created := now, ownedBy := capability.provider }

/-- An id is found when it is the model id of an entry. -/
theorem getModel_eq_ok_iff :
    (∃ model, getModel registry now id = .ok model) ↔ ∃ m ∈ registry.listModels, m.modelId = id := by
  unfold getModel ModelRegistry.getCapabilities
  simp only
  cases hfind : registry.models.values.find? fun m => m.modelId = id with
  | none =>
      have hnone := List.find?_eq_none.mp hfind
      constructor
      · rintro ⟨model, hmodel⟩
        cases hmodel
      · rintro ⟨m, hm, hid⟩
        exact absurd (decide_eq_true hid) (hnone m hm)
  | some m =>
      refine iff_of_true ⟨_, rfl⟩ ⟨m, List.mem_of_find?_eq_some hfind, ?_⟩
      simpa using List.find?_some hfind

end ModelsController

end Sirius
