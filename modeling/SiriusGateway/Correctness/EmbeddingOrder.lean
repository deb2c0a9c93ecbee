import SiriusGateway.Adapters.Embeddings
import SiriusGateway.Lib.StableSort

/-!
# `Correctness.EmbeddingOrder` — which embedding belongs to which input

An entry of an embeddings answer says by its `index` which input it is for. The decoders read the entries in
the order they stand in and drop the index; the encoder numbers what it gets. So an input gets its own
embedding when the order of the entries, as far as their vectors can tell, is the order of the indices.

## Contents
- **Labels.** `labelled`, `byIndex` and how they meet (`getElem?_byIndex`).
- **Each decoder.** What it returns at a position.
- **Main result.** `own_embeddings_iff`; with vectors that differ, `ownEmbeddings_iff_of_nodup`.
-/

namespace Sirius

open Js

/-! ## Labels -/

namespace OpenAi

/-- The vector labelled with the index `k`. -/
def labelled (data : List EmbeddingData) (k : Nat) : Option (List Json) :=
  (data.find? fun row => row.index = k).map EmbeddingData.embedding

/-- The entries in the order of their indices. -/
def byIndex (data : List EmbeddingData) : List EmbeddingData :=
  data.mergeSort fun row row' => decide (row.index ≤ row'.index)

/-- The entries carry the indices `0` to `n - 1`, in any order. -/
def Numbered (data : List EmbeddingData) : Prop :=
  (data.map EmbeddingData.index).Perm (List.range data.length)

instance (data : List EmbeddingData) : Decidable (Numbered data) :=
  inferInstanceAs (Decidable (List.Perm _ _))

variable {data : List EmbeddingData}

theorem getElem?_byIndex (h : Numbered data) (k : Nat) :
    ((byIndex data).map EmbeddingData.embedding)[k]? = labelled data k := by
  have hsort := List.IsStableSort.mergeSort EmbeddingData.index data
  rw [List.getElem?_map, byIndex, hsort.getElem?_eq_find? h, labelled]

/-- The vectors in the order they stand in are the labelled ones when sorting does not move any. -/
theorem forall_getElem?_iff (h : Numbered data) :
    (∀ k, (data.map EmbeddingData.embedding)[k]? = labelled data k) ↔
      data.map EmbeddingData.embedding = (byIndex data).map EmbeddingData.embedding := by
  rw [List.ext_getElem?_iff]
  refine forall_congr' fun k => ?_
  rw [getElem?_byIndex h]

/-- With vectors that differ, sorting moves none when the entries stand in order. -/
theorem map_embedding_byIndex_iff (h : Numbered data) (hnodup : (data.map EmbeddingData.embedding).Nodup) :
    data.map EmbeddingData.embedding = (byIndex data).map EmbeddingData.embedding ↔
      data.map EmbeddingData.index = List.range data.length := by
  have hsort := List.IsStableSort.mergeSort EmbeddingData.index data
  constructor
  · intro heq
    have hsame : data = byIndex data := by
      apply List.ext_getElem
      · exact hsort.perm.length_eq.symm
      · intro k hk hk'
        have hvector : data[k].embedding = (byIndex data)[k].embedding := by
          have := congrArg (·[k]?) heq
          simpa [hk, hk'] using this
        exact List.inj_on_of_nodup_map hnodup (List.getElem_mem hk) (hsort.mem_iff.mp (List.getElem_mem hk'))
          hvector
    apply List.Perm.eq_of_pairwise' (r := (· ≤ ·))
    · rw [hsame]
      exact List.pairwise_map.mpr hsort.sorted
    · exact List.pairwise_lt_range.imp le_of_lt
    · exact h
  · intro hpositions
    rw [← forall_getElem?_iff h]
    intro k
    rw [labelled, List.IsStableSort.find?_eq_getElem?_of_positions hpositions, List.getElem?_map]

end OpenAi

/-! ## Each decoder -/

/-- The body the client gets has at every index the vector the adapter returned at that position. -/
theorem labelled_formatEmbeddingResponse (response : UnifiedEmbeddingResponse) (k : Nat) :
    OpenAi.labelled (Compat.formatEmbeddingResponse response).data k = response.embeddings[k]? := by
  have hpositions : (Compat.formatEmbeddingResponse response).data.map OpenAi.EmbeddingData.index =
      List.range (Compat.formatEmbeddingResponse response).data.length := by
    apply List.ext_getElem
    · simp
    · intro i hi hi'
      simp [Compat.formatEmbeddingResponse]
  rw [OpenAi.labelled, List.IsStableSort.find?_eq_getElem?_of_positions hpositions]
  simp only [Compat.formatEmbeddingResponse, List.getElem?_mapIdx, Option.map_map]
  exact Option.map_id'

theorem embeddings_embeddingsOf (payload : OpenAi.EmbeddingResponse) (latencyMs : Option Rat) (name : String)
    (now : Nat) :
    (Llamactl.embeddingsOf (.ofOpenAi payload latencyMs) name now).embeddings =
      payload.data.map OpenAi.EmbeddingData.embedding := by
  simp [Llamactl.embeddingsOf, Nova.EmbeddingResponse.ofOpenAi]

/-! ## Main result -/

/-- Each input gets its own embedding: at `k` the client's body, and what the adapters built on nova return,
    has the vector the payload labels `k`. -/
structure OwnEmbeddings (payload : OpenAi.EmbeddingResponse) : Prop where
  openAi : ∀ (provider : String) (latencyMs : Rat) (now k : Nat),
    OpenAi.labelled (Compat.formatEmbeddingResponse
      (OpenAi.fromOpenAiEmbeddingResponse payload provider latencyMs now)).data k =
        OpenAi.labelled payload.data k
  llamactl : ∀ (name : String) (latencyMs : Option Rat) (request : UnifiedEmbeddingRequest) (now : Nat),
    ∃ response, Llamactl.createEmbeddings name (some fun _ => .ok (.ofOpenAi payload latencyMs)) request now =
        .ok response ∧
      ∀ k, response.embeddings[k]? = OpenAi.labelled payload.data k
  fromFile : ∀ (name : String) (latencyMs : Option Rat) (request : UnifiedEmbeddingRequest) (now : Nat),
    ∃ response, FromFile.createEmbeddings name (some fun _ => .ok (.ofOpenAi payload latencyMs)) request now =
        .ok response ∧
      ∀ k, response.embeddings[k]? = OpenAi.labelled payload.data k

theorem ownEmbeddings_iff_forall (payload : OpenAi.EmbeddingResponse) :
    OwnEmbeddings payload ↔
      ∀ k, (payload.data.map OpenAi.EmbeddingData.embedding)[k]? = OpenAi.labelled payload.data k := by
  constructor
  · intro h k
    rw [← h.openAi "" 0 0 k, labelled_formatEmbeddingResponse]
    simp [OpenAi.fromOpenAiEmbeddingResponse]
  · intro h
    have hnova : ∀ (name : String) (latencyMs : Option Rat) (request : UnifiedEmbeddingRequest) (now : Nat),
        ∃ response, Nova.createEmbeddings name (some fun _ => .ok (.ofOpenAi payload latencyMs)) request now =
            .ok response ∧
          ∀ k, response.embeddings[k]? = OpenAi.labelled payload.data k := by
      intro name latencyMs request now
      refine ⟨_, rfl, fun k => ?_⟩
      rw [embeddings_embeddingsOf]
      exact h k
    refine ⟨?_, hnova, hnova⟩
    intro provider latencyMs now k
    rw [labelled_formatEmbeddingResponse]
    exact h k

/-- Where the vectors of a payload differ, each input gets its own embedding exactly when the entries stand in
    the order of their indices. -/
theorem ownEmbeddings_iff_of_nodup {payload : OpenAi.EmbeddingResponse} (h : OpenAi.Numbered payload.data)
    (hnodup : (payload.data.map OpenAi.EmbeddingData.embedding).Nodup) :
    OwnEmbeddings payload ↔ payload.data.map OpenAi.EmbeddingData.index = List.range payload.data.length := by
  rw [ownEmbeddings_iff_forall, OpenAi.forall_getElem?_iff h, OpenAi.map_embedding_byIndex_iff h hnodup]

/-- **Embeddings and their inputs.** Of a payload that labels its entries `0` to `n - 1`, each input gets its
    own embedding exactly when the vectors read in the order of the entries are those read in the order of the
    indices. -/
theorem own_embeddings_iff (payload : OpenAi.EmbeddingResponse) (h : OpenAi.Numbered payload.data) :
    OwnEmbeddings payload ↔
      payload.data.map OpenAi.EmbeddingData.embedding =
        (OpenAi.byIndex payload.data).map OpenAi.EmbeddingData.embedding := by
  rw [ownEmbeddings_iff_forall]
  exact OpenAi.forall_getElem?_iff h

/-- Two vectors, the one for the first input first. -/
def twoVectors : OpenAi.EmbeddingResponse where
  data := [{ index := 0, embedding := [.num 1] }, { index := 1, embedding := [.num 2] }]
  model := .json (.str "text-embedding-3-small")
  usage := none

theorem own_embeddings_iff_two_vectors :
    OpenAi.Numbered twoVectors.data ∧
      (OwnEmbeddings twoVectors ↔
        twoVectors.data.map OpenAi.EmbeddingData.embedding =
          (OpenAi.byIndex twoVectors.data).map OpenAi.EmbeddingData.embedding) :=
  ⟨by decide +kernel, own_embeddings_iff twoVectors (by decide +kernel)⟩

/-- The same vectors with the same labels, the one for the second input first. -/
def twoVectorsSwapped : OpenAi.EmbeddingResponse where
  data := [{ index := 1, embedding := [.num 2] }, { index := 0, embedding := [.num 1] }]
  model := .json (.str "text-embedding-3-small")
  usage := none

/-- The client gets the vector of the second input under the index of the first. -/
theorem swapped_embeddings :
    ¬ ∀ payload : OpenAi.EmbeddingResponse, OpenAi.Numbered payload.data → OwnEmbeddings payload := by
  intro h
  have hown := (h twoVectorsSwapped (by decide +kernel)).openAi "openai" 0 0 0
  revert hown
  decide +kernel

end Sirius
