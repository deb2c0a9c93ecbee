import SiriusGateway.Correctness.ModelEndpoints
import SiriusGateway.Correctness.ModelNames
import SiriusGateway.Gateway.ModelListing

/-!
# `Correctness.NameCascade` — a model name through gateways

A gateway discovers what the gateway behind it lists, and hands it names. Whatever a client asks for, no gateway is
ever handed a name it does not know; a name without a colon stays the same from the second gateway on; and what the
last adapter lists is listed and known at every gateway in front of it (`names_through_gateways`).

## Contents
- **Gateways.** `GatewayNode`: a gateway after its `backfillAll`, and the names it hands to its adapters.
- **One gateway.** What it knows, and what it hands down.
- **Two gateways.** What the outer one hands down, the inner one knows.
- **Any number.** `Linked` gateways, and the names on the way down.
-/

namespace Sirius

open Js ModelsController

/-! ## Gateways -/

/-- A gateway: its adapters, what each of them lists, the order the listings of its boot come in, and the time. -/
structure GatewayNode where
  providers : ProviderRegistry
  results : AiProvider → Probe
  order : List AiProvider
  now : Int

namespace GatewayNode

/-- The model registry after boot. -/
def registry (node : GatewayNode) : ModelRegistry := bootRegistry node.providers (.steady node.results) node.order

/-- The list of models. -/
def models (node : GatewayNode) : List OpenAiModel :=
  ModelsController.listModels node.providers node.results node.registry node.now

/-- The boot asked the registered adapters, and no name of one has a colon. -/
structure WellNamed (node : GatewayNode) : Prop where
  asked : node.order.Perm node.providers.getAll
  colonFree : ∀ p ∈ node.providers.getAll, ':' ∉ p.name.toList

/-- The gateway hands an adapter the name, for a request with the model string. -/
def Hands (node : GatewayNode) (p : AiProvider) (s name : String) : Prop :=
  ∃ request stream latency decision chain, request.model = .str s ∧
    routeRequest ⟨node.registry, node.providers, latency⟩ request stream = .ok decision ∧
    chainOf node.providers decision = .ok chain ∧ (⟨p, name⟩ : ChainEntry) ∈ chain

/-- The gateway has a model of the name. -/
structure Knows (node : GatewayNode) (name : String) : Prop where
  listed : ∃ m ∈ node.registry.listModels, m.modelId = name
  resolved : node.registry.resolveModel name ≠ none

/-- An OpenAI adapter of the one gateway has the other as its upstream: what it lists is what it reads off the text of
    the other's list. -/
structure Discovers (outer : GatewayNode) (p : AiProvider) (inner : GatewayNode) : Prop where
  openai : p.kind = .openai
  registered : outer.providers.get p.name = some p
  lists : ∃ raw listed infos, jsonParse (stringify (modelListBody inner.models)) = some raw ∧
    OpenAi.listModels p.name raw = .ok listed ∧ List.Forall₂ ListedModel.Reads listed infos ∧
    outer.results p = .returned infos

end GatewayNode


namespace GatewayNode

variable {node outer inner : GatewayNode} {p : AiProvider} {s name id : String} {infos : List ModelInfo}

/-! ## One gateway -/

/-- A name that is a model id of the registry is known. -/
theorem knows_of_listed (h : ∃ m ∈ node.registry.listModels, m.modelId = name) : node.Knows name := by
  refine ⟨h, ?_⟩
  obtain ⟨m, hm, hid⟩ := h
  rw [ModelRegistry.resolveModel_eq]
  by_cases hkey : node.registry.NoKey name
  · obtain ⟨m', hm', -, -⟩ := ModelRegistry.resolveEntry_of_id hkey hm hid
    rw [hm']
    exact Option.some_ne_none _
  · -- the name is also a composite key
    obtain ⟨hcolon, hget⟩ := Classical.not_imp.mp hkey
    obtain ⟨m', hm'⟩ := Option.ne_none_iff_exists'.mp hget
    rw [ModelRegistry.resolveEntry_of_key hcolon hm']
    exact Option.some_ne_none _

/-- **What a gateway hands down** is the model id it resolves the string to, and an entry of the adapter has it. -/
theorem hands_cases (h : node.Hands p s name) :
    (∃ resolved, node.registry.resolveModel s = some resolved ∧ resolved.modelId = name) ∧
      ∃ m ∈ node.registry.listModels, m.provider = p.name ∧ m.modelId = name := by
  obtain ⟨request, stream, latency, decision, chain, hmodel, hroute, hchain, hmem⟩ := h
  obtain ⟨resolved, first, rest, hres, hlist, adapter, hget, rfl⟩ := chain_of_route hmodel hroute hchain
  obtain ⟨hfirst, hid, -⟩ := RoutingService.mem_eligible.mp
    (show first ∈ RoutingService.eligibleFor _ _ _ from hlist ▸ List.mem_cons_self)
  obtain ⟨rfl, rfl⟩ := ChainEntry.mk.inj (List.mem_singleton.mp hmem)
  exact ⟨⟨resolved, hres, hid.symm⟩, first, hfirst, (ProviderRegistry.name_of_get hget).symm, rfl⟩

/-- A known name without a colon is handed down as it is. -/
theorem hands_same (hknows : node.Knows s) (hcolon : ':' ∉ s.toList) (h : node.Hands p s name) : name = s := by
  obtain ⟨⟨resolved, hres, rfl⟩, -⟩ := hands_cases h
  obtain ⟨m, hm, hid⟩ := hknows.listed
  have hnokey : node.registry.NoKey s := fun hmem => absurd hmem hcolon
  obtain ⟨m', hm', -, hid'⟩ := ModelRegistry.resolveEntry_of_id hnokey hm hid
  rw [ModelRegistry.resolveModel_eq, hm'] at hres
  obtain rfl := Option.some.inj hres
  exact hid'

/-- The adapter of a registration is the one of its name. -/
theorem info_of_arrival (hwell : node.WellNamed) (hp : node.providers.get p.name = some p)
    (hlists : node.results p = .returned infos) {g : Registration}
    (hg : g ∈ arrivals node.providers node.results node.order) (hname : g.provider = p.name) : g.info ∈ infos := by
  unfold arrivals at hg
  rw [registrations_completing, List.mem_flatMap] at hg
  obtain ⟨q, hq, hgq⟩ := hg
  have hqname : q.name = p.name := (provider_of_mem hgq).symm.trans hname
  have hqget := ProviderRegistry.get_of_mem_getAll (hwell.asked.mem_iff.mp hq)
  rw [hqname, hp] at hqget
  obtain rfl := Option.some.inj hqget
  obtain ⟨info, hinfo, rfl⟩ := List.mem_map.mp hgq
  have hlisted : Probe.listed true (node.results p) (node.results p) = some infos := by rw [listed_steady, hlists]
  change info ∈ (Probe.listed true (node.results p) (node.results p)).getD [] at hinfo
  rwa [hlisted] at hinfo

/-- **An entry of an adapter** is the catalog's, or filed under the canonical form of an id the adapter lists. -/
theorem modelId_of_entry (hwell : node.WellNamed) (hp : node.providers.get p.name = some p)
    (hlists : node.results p = .returned infos) {m : ModelCapabilityMatrix} (hm : m ∈ node.registry.listModels)
    (hname : m.provider = p.name) :
    (∃ c ∈ defaultModelCatalog, c.modelId = m.modelId) ∨ ∃ info ∈ infos, m.modelId = canonical info.id := by
  unfold registry bootRegistry at hm
  obtain ⟨g, -, hlast, rfl⟩ | ⟨hold, -⟩ := mem_listModels_after hm
  · exact Or.inr ⟨g.info, info_of_arrival hwell hp hlists hlast.mem hname, rfl⟩
  · exact Or.inl ⟨m, initial_listModels ▸ hold, rfl⟩

/-- A model of the catalog is known. -/
theorem knows_of_catalog (h : ∃ c ∈ defaultModelCatalog, c.modelId = name) : node.Knows name := by
  apply knows_of_listed
  exact modelId_after_iff.mpr (Or.inl h)

/-- **An id the gateway lists is known by its canonical form.** -/
theorem knows_canonical (hwell : node.WellNamed) (h : id ∈ node.models.map OpenAiModel.id) :
    node.Knows (canonical id) := by
  apply knows_of_listed
  obtain hlive | hregistered := mem_map_id_listModels.mp h
  · obtain ⟨g, hg, rfl⟩ := List.mem_map.mp ((perm_listedId hwell.asked).mem_iff.mp hlive)
    obtain ⟨x, hlast, hkey⟩ := exists_last hg
    have hcolon : ∀ g ∈ arrivals node.providers node.results node.order, ':' ∉ g.provider.toList := by
      intro g hg
      unfold arrivals at hg
      rw [registrations_completing, List.mem_flatMap] at hg
      obtain ⟨q, hq, hgq⟩ := hg
      rw [provider_of_mem hgq]
      exact hwell.colonFree q (hwell.asked.mem_iff.mp hq)
    have hprovider : x.provider = g.provider :=
      (key_parts_of_colonFree (hcolon x hlast.mem) (hcolon g hg) hkey).1
    exact modelId_after_iff.mpr (Or.inr ⟨x, hlast, Registration.modelId_eq_of_key hkey hprovider⟩)
  · have hplain : (normalizeModelId id).hadPrefix = false := plain_of_registered hregistered
    rw [canonical, canonical_of_untouched hplain]
    exact hregistered

/-- What an adapter lists is listed. -/
theorem listed_of_lists (hp : node.providers.get p.name = some p) (hlists : node.results p = .returned infos)
    {info : ModelInfo} (hinfo : info ∈ infos) : info.id ∈ node.models.map OpenAiModel.id := by
  apply mem_map_id_listModels.mpr
  refine Or.inl (List.mem_map_of_mem ?_)
  refine List.mem_flatMap.mpr ⟨p, JsMap.mem_values_iff.mpr ⟨p.name, hp⟩, ?_⟩
  rw [hlists]
  exact hinfo

/-! ## Two gateways -/

/-- The adapter lists the ids of the list behind it. -/
theorem Discovers.ids (h : outer.Discovers p inner) :
    ∃ infos, outer.results p = .returned infos ∧ infos.map ModelInfo.id = inner.models.map OpenAiModel.id := by
  obtain ⟨raw, listed, infos, hparse, hread, hreads, hlists⟩ := h.lists
  refine ⟨infos, hlists, ?_⟩
  rw [jsonParse_modelListBody] at hparse
  obtain rfl := Option.some.inj hparse
  rw [listModels_modelListBody] at hread
  obtain rfl := Except.ok.inj hread
  clear hlists
  generalize inner.models = models at hreads
  induction models generalizing infos with
  | nil =>
      cases hreads
      rfl
  | cons m rest ih =>
      cases hreads with
      | cons hfirst hrest =>
          have hid := Json.str.inj (JsValue.json.inj hfirst.id)
          rw [List.map_cons, List.map_cons, ih _ hrest, ← hid]

/-- **What a gateway hands to the one behind it, that one knows.** -/
theorem Discovers.knows (h : outer.Discovers p inner) (houter : outer.WellNamed) (hinner : inner.WellNamed)
    (hhands : outer.Hands p s name) : inner.Knows name := by
  obtain ⟨infos, hlists, hids⟩ := h.ids
  obtain ⟨m, hm, hname, rfl⟩ := (hands_cases hhands).2
  obtain hcatalog | ⟨info, hinfo, heq⟩ := modelId_of_entry houter h.registered hlists hm hname
  · exact knows_of_catalog hcatalog
  · rw [heq]
    exact knows_canonical hinner (hids ▸ List.mem_map_of_mem hinfo)

/-- What the inner gateway lists, the outer one lists. -/
theorem Discovers.listed (h : outer.Discovers p inner) (hid : id ∈ inner.models.map OpenAiModel.id) :
    id ∈ outer.models.map OpenAiModel.id := by
  obtain ⟨infos, hlists, hids⟩ := h.ids
  obtain ⟨info, hinfo, rfl⟩ := List.mem_map.mp (hids ▸ hid)
  exact listed_of_lists h.registered hlists hinfo

end GatewayNode

/-! ## Any number -/

open GatewayNode

/-- A gateway, and the adapter of it that the way goes through. -/
structure GatewayLink where
  node : GatewayNode
  front : AiProvider

/-- The client's gateway first, each next one behind the adapter of the one before. -/
structure Linked (links : List GatewayLink) : Prop where
  wellNamed : ∀ link ∈ links, link.node.WellNamed
  registered : ∀ link ∈ links, link.node.providers.get link.front.name = some link.front
  discovers : links.IsChain fun outer inner => outer.node.Discovers outer.front inner.node

/-- The names that are handed down, for a client that asks the first gateway for `s`. -/
inductive HandedDown : List GatewayLink → String → List String → Prop
  | nil {s} : HandedDown [] s []
  | cons {link links s name names} (hhands : link.node.Hands link.front s name)
      (hrest : HandedDown links name names) : HandedDown (link :: links) s (name :: names)

variable {links : List GatewayLink} {link : GatewayLink} {s name : String} {names : List String}

theorem Linked.tail (h : Linked (link :: links)) : Linked links where
  wellNamed := (List.forall_mem_cons.mp h.wellNamed).2
  registered := (List.forall_mem_cons.mp h.registered).2
  discovers := h.discovers.of_cons

/-- **No gateway is handed a name it does not know.** -/
theorem knows_handed (h : Linked (link :: links)) (hdown : HandedDown (link :: links) s names) :
    List.Forall₂ (fun link name => link.node.Knows name) links (names.take links.length) := by
  induction links generalizing link s names with
  | nil => exact .nil
  | cons inner rest ih =>
      obtain _ | ⟨hhands, hrest⟩ := hdown
      obtain _ | ⟨hnext, hlater⟩ := hrest
      have hdiscovers := (List.isChain_cons_cons.mp h.discovers).1
      have hwell := List.forall_mem_cons.mp h.wellNamed
      have hknows := hdiscovers.knows hwell.1 (hwell.2 inner List.mem_cons_self) hhands
      exact .cons hknows (ih h.tail (.cons hnext hlater))

/-- A known name without a colon is the name all the way down. -/
theorem same_handed (h : Linked links) (hknows : ∀ link ∈ links.head?, link.node.Knows s) (hcolon : ':' ∉ s.toList)
    (hdown : HandedDown links s names) : ∀ name ∈ names, name = s := by
  induction hdown with
  | nil => exact fun _ hmem => absurd hmem List.not_mem_nil
  | @cons link links s name names hhands hrest ih =>
      obtain rfl := hands_same (hknows link rfl) hcolon hhands
      refine List.forall_mem_cons.mpr ⟨rfl, ih h.tail ?_ hcolon⟩
      intro inner hinner
      cases links with
      | nil => cases hinner
      | cons next rest =>
          obtain rfl := Option.some.inj hinner
          have hwell := List.forall_mem_cons.mp h.wellNamed
          exact (List.isChain_cons_cons.mp h.discovers).1.knows hwell.1 (hwell.2 next List.mem_cons_self) hhands

/-- What the last adapter is handed, it lists, or the catalog has it. -/
theorem last_handed (h : Linked links) (hdown : HandedDown links s names) :
    ∀ link ∈ links.getLast?, ∀ infos, link.node.results link.front = .returned infos → ∀ name ∈ names.getLast?,
      (∃ c ∈ defaultModelCatalog, c.modelId = name) ∨ ∃ info ∈ infos, name = canonical info.id := by
  induction hdown with
  | nil => exact fun _ hmem => nomatch hmem
  | @cons link links s name names hhands hrest ih =>
      cases hrest with
      | nil =>
          intro last hlast infos hlists last' hlast'
          obtain rfl := Option.some.inj hlast
          obtain rfl := Option.some.inj hlast'
          obtain ⟨m, hm, hname, rfl⟩ := (hands_cases hhands).2
          have hwell := h.wellNamed _ List.mem_cons_self
          exact modelId_of_entry hwell (h.registered _ List.mem_cons_self) hlists hm hname
      | cons hnext hlater =>
          rw [List.getLast?_cons_cons, List.getLast?_cons_cons]
          exact ih h.tail

/-- What the last adapter lists, every gateway lists. -/
theorem listed_everywhere (h : Linked links) {last : GatewayLink} (hlast : last ∈ links.getLast?)
    {infos : List ModelInfo} (hlists : last.node.results last.front = .returned infos) {info : ModelInfo}
    (hinfo : info ∈ infos) : ∀ link ∈ links, info.id ∈ link.node.models.map OpenAiModel.id := by
  induction links with
  | nil => cases hlast
  | cons link rest ih =>
      cases rest with
      | nil =>
          obtain rfl := Option.some.inj hlast
          have hfirst := listed_of_lists (h.registered _ List.mem_cons_self) hlists hinfo
          exact List.forall_mem_cons.mpr ⟨hfirst, fun _ hmem => absurd hmem List.not_mem_nil⟩
      | cons inner later =>
          rw [List.getLast?_cons_cons] at hlast
          have hrest := ih h.tail hlast
          have hdiscovers := (List.isChain_cons_cons.mp h.discovers).1
          exact List.forall_mem_cons.mpr ⟨hdiscovers.listed (hrest inner List.mem_cons_self), hrest⟩

/-! ## The result -/

/-- **A model name through any number of gateways.** Whatever a client asks for, each gateway knows the name it is
    handed, and a name without a colon is the same from the second gateway on; the last adapter is handed a name of
    the catalog or the canonical form of an id it lists; and each id it lists is listed by every gateway on the way,
    and known there by its canonical form. -/
theorem names_through_gateways {client last : GatewayLink} (h : Linked (client :: links))
    (hlast : last ∈ (client :: links).getLast?) {infos : List ModelInfo}
    (hlists : last.node.results last.front = .returned infos) :
    (∀ s name names, HandedDown (client :: links) s (name :: names) →
      List.Forall₂ (fun link name => link.node.Knows name) links ((name :: names).take links.length) ∧
        (':' ∉ name.toList → ∀ later ∈ names, later = name) ∧
        ∀ lowest ∈ (name :: names).getLast?, (∃ c ∈ defaultModelCatalog, c.modelId = lowest) ∨
          ∃ info ∈ infos, lowest = canonical info.id) ∧
      ∀ info ∈ infos, ∀ link ∈ client :: links,
        info.id ∈ link.node.models.map OpenAiModel.id ∧ link.node.Knows (canonical info.id) := by
  refine ⟨fun s name names hdown => ⟨knows_handed h hdown, ?_, ?_⟩, ?_⟩
  · intro hcolon
    have hknows := knows_handed h hdown
    cases hdown with
    | cons hhands hrest =>
        apply same_handed h.tail ?_ hcolon hrest
        intro link hlink
        cases links with
        | nil => cases hlink
        | cons inner rest =>
            obtain rfl := Option.some.inj hlink
            cases hknows with
            | cons hfirst _ => exact hfirst
  · exact last_handed h hdown last hlast infos hlists
  · intro info hinfo link hlink
    have hlisted := listed_everywhere h hlast hlists hinfo link hlink
    exact ⟨hlisted, knows_canonical (h.wellNamed link hlink) hlisted⟩

/-- The adapter in front of a model server. -/
def serverFront : AiProvider := ⟨"openai", .openai⟩

/-- A gateway in front of the server, which lists `org/qwen`. -/
def innerNode : GatewayNode where
  providers := ProviderRegistry.empty.register serverFront
  results := fun _ => .returned [⟨"org/qwen", "openai", none, none⟩]
  order := [serverFront]
  now := 0

/-- The adapter in front of that gateway. -/
def gatewayFront : AiProvider := ⟨"openai", .openai⟩

/-- The gateway of the client. -/
def outerNode : GatewayNode where
  providers := ProviderRegistry.empty.register gatewayFront
  results := fun p => .returned (innerNode.models.map (OpenAiModel.info p.name))
  order := [gatewayFront]
  now := 0

/-- The client's gateway, and the one behind it. -/
def serverLinks : List GatewayLink := [⟨outerNode, gatewayFront⟩, ⟨innerNode, serverFront⟩]

theorem linked_server : Linked serverLinks where
  wellNamed := by
    refine List.forall_mem_cons.mpr ⟨⟨.refl _, by decide⟩, List.forall_mem_cons.mpr ⟨⟨.refl _, by decide⟩, ?_⟩⟩
    exact fun _ hmem => absurd hmem List.not_mem_nil
  registered := by
    refine List.forall_mem_cons.mpr ⟨rfl, List.forall_mem_cons.mpr ⟨rfl, ?_⟩⟩
    exact fun _ hmem => absurd hmem List.not_mem_nil
  discovers := by
    refine List.isChain_cons_cons.mpr ⟨⟨rfl, rfl, ?_⟩, .singleton _⟩
    exact ⟨_, _, _, jsonParse_modelListBody _, listModels_modelListBody _ _, reads_info _ _, rfl⟩

/-- The decision for `qwen`, in either gateway. -/
def qwenDecision : RoutingDecision :=
  ⟨"openai", "qwen", "pinned", "Selected by pinned strategy", [], 1⟩

theorem handedDown_server : HandedDown serverLinks "org/qwen" ["qwen", "qwen"] := by
  refine .cons ?_ (.cons ?_ .nil)
  · refine ⟨plainRequest "org/qwen", false, LatencyTracker.empty, qwenDecision, [⟨gatewayFront, "qwen"⟩], rfl,
      ?_, ?_, List.mem_singleton.mpr rfl⟩
    · decide +kernel
    · decide +kernel
  · refine ⟨plainRequest "qwen", false, LatencyTracker.empty, qwenDecision, [⟨serverFront, "qwen"⟩], rfl,
      ?_, ?_, List.mem_singleton.mpr rfl⟩
    · decide +kernel
    · decide +kernel

/-- A client asks for `org/qwen`, the inner gateway is handed `qwen` and knows it, and lists `org/qwen`. -/
theorem names_through_gateways_server :
    HandedDown serverLinks "org/qwen" ["qwen", "qwen"] ∧ innerNode.Knows "qwen" ∧
      "org/qwen" ∈ outerNode.models.map OpenAiModel.id := by
  have hnames := @names_through_gateways [⟨innerNode, serverFront⟩] ⟨outerNode, gatewayFront⟩ ⟨innerNode, serverFront⟩
    linked_server rfl _ rfl
  have hknows := (hnames.1 "org/qwen" "qwen" ["qwen"] handedDown_server).1
  have hlisted := hnames.2 ⟨"org/qwen", "openai", none, none⟩ List.mem_cons_self ⟨outerNode, gatewayFront⟩
    List.mem_cons_self
  cases hknows with
  | cons hfirst _ => exact ⟨handedDown_server, hfirst, hlisted.1⟩

end Sirius
