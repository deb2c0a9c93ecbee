import SiriusGateway.Gateway.Models
import SiriusGateway.Js.RoundTrip

/-!
# `Gateway.ModelListing` — the list of models on the wire

The body of `GET /v1/models`, and what the OpenAI adapter of another gateway reads off it: the list as it is
(`listModels_modelListBody`).
-/

namespace Sirius

open Js

/-- An entry of the list. -/
def OpenAiModel.body (m : OpenAiModel) : Json :=
  wireObject [("id", .json (.str m.id)), ("object", .json (.str "model")), ("created", .json (.num m.created)),
    ("owned_by", .json (.str m.ownedBy))]

/-- The body `listModels()` answers with. -/
def modelListBody (models : List OpenAiModel) : Json :=
  wireObject [("object", .json (.str "list")), ("data", .json (.arr (models.map OpenAiModel.body)))]

/-- A `ModelInfo` as the adapter reads it. -/
structure ListedModel where
  id : JsValue
  provider : String
  created : JsValue
  ownedBy : JsValue
  deriving DecidableEq

/-- The arrow function over an entry of `raw.data`. -/
def OpenAi.listedModel (provider : String) (m : Json) : Throws ListedModel := do
  let id ← getProp (.json m) "id"
  let created ← getProp (.json m) "created"
  let ownedBy ← getProp (.json m) "owned_by"
  return ⟨id, provider, created, ownedBy⟩

/-- `OpenAiAdapter.listModels()` of a 2xx answer with the body `raw`. -/
def OpenAi.listModels (provider : String) (raw : Json) : Throws (List ListedModel) := do
  let data ← getProp (.json raw) "data"
  let items ← arrayOf "raw.data" "map" data
  items.mapM (OpenAi.listedModel provider)

/-- The entry has the types its interface declares, and these values. -/
structure ListedModel.Reads (l : ListedModel) (info : ModelInfo) : Prop where
  id : l.id = .json (.str info.id)
  provider : l.provider = info.provider
  created : l.created = info.created.elim .undefined fun created => .json (.num created)
  ownedBy : l.ownedBy = info.ownedBy.elim .undefined fun owner => .json (.str owner)

/-- What the adapter reads off an entry of the list. -/
def OpenAiModel.listed (provider : String) (m : OpenAiModel) : ListedModel :=
  ⟨.json (.str m.id), provider, .json (.num m.created), .json (.str m.ownedBy)⟩

/-- The same, typed. -/
def OpenAiModel.info (provider : String) (m : OpenAiModel) : ModelInfo :=
  ⟨m.id, provider, some m.created, some m.ownedBy⟩

theorem reads_info (provider : String) (models : List OpenAiModel) :
    List.Forall₂ ListedModel.Reads (models.map (OpenAiModel.listed provider))
      (models.map (OpenAiModel.info provider)) := by
  rw [List.forall₂_map_left_iff, List.forall₂_map_right_iff]
  exact List.forall₂_same.mpr fun m _ => ⟨rfl, rfl, rfl, rfl⟩

theorem plain_body (m : OpenAiModel) : m.body.Plain := by
  have hcreated : Decimal (m.created : Rat) := ⟨0, by simp⟩
  have hnames : arrayIndex "id" = none ∧ arrayIndex "object" = none ∧ arrayIndex "created" = none ∧
      arrayIndex "owned_by" = none := by decide
  apply plain_wireObject
  · show ["id", "object", "created", "owned_by"].Nodup
    decide
  · simp [hnames, plain_num hcreated]

/-- The text of the list is read as the list. -/
theorem jsonParse_modelListBody (models : List OpenAiModel) :
    jsonParse (stringify (modelListBody models)) = some (modelListBody models) := by
  have hnames : arrayIndex "object" = none ∧ arrayIndex "data" = none := by decide
  have hdata : (Json.arr (models.map OpenAiModel.body)).Plain := by
    apply plain_arr
    intro v hv
    obtain ⟨m, -, rfl⟩ := List.mem_map.mp hv
    exact plain_body m
  apply jsonParse_stringify_plain
  apply plain_wireObject
  · show ["object", "data"].Nodup
    decide
  · simp [hnames, hdata]

/-- **The adapter reads a list as it is.** -/
theorem listModels_modelListBody (provider : String) (models : List OpenAiModel) :
    OpenAi.listModels provider (modelListBody models) = .ok (models.map (OpenAiModel.listed provider)) := by
  have hentry : ∀ m : OpenAiModel, OpenAi.listedModel provider m.body = .ok (m.listed provider) := by
    intro m
    unfold OpenAi.listedModel OpenAiModel.body OpenAiModel.listed
    simp [getProp]
    rfl
  have hobject : modelListBody models ≠ .null := by simp [modelListBody, wireObject]
  have hdata : getProp (.json (modelListBody models)) "data" = .ok (.json (.arr (models.map OpenAiModel.body))) := by
    rw [getProp_json "data" hobject]
    simp [modelListBody]
  unfold OpenAi.listModels
  rw [hdata]
  show (models.map OpenAiModel.body).mapM (OpenAi.listedModel provider) = _
  clear hdata hobject
  induction models with
  | nil => rfl
  | cons m rest ih =>
      rw [List.map_cons, List.mapM_cons, hentry, ih]
      rfl

end Sirius
