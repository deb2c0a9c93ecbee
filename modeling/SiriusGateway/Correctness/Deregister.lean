import SiriusGateway.Mcp.Server

/-!
# `Correctness.Deregister` — what deregistering one provider does to the rest of the file

The tool writes back what the loader returned, and the loader returns the entries it understands. So the file
keeps everything but the provider exactly when the tool writes nothing, or when there was nothing else in it
(`deregister_leaves_rest_iff`).

## Contents
- **Documents.** `ProvidersDocument`, and what the loader sees of one.
- **One call.** What a wet call leaves on the disk.
- **The condition.** `OnlyEntries`.
- **The result**, and a file with a second key.
-/

namespace Sirius

open Js Mcp

/-! ## Documents -/

/-- A providers document: a mapping with a list under `providers`, and any other keys around it. -/
structure ProvidersDocument where
  before : List (String × Json)
  items : List Json
  after : List (String × Json)
  others : ∀ field ∈ before ++ after, field.1 ≠ "providers"

namespace ProvidersDocument

/-- The document as it is parsed. -/
def toJson (doc : ProvidersDocument) : Json :=
  .obj (doc.before ++ ("providers", .arr doc.items) :: doc.after)

/-- The loader sees an entry of the name. -/
def Names (doc : ProvidersDocument) (name : String) : Prop := ∃ item ∈ doc.items, itemName item = some name

/-- The document without the entries of the name the loader sees. -/
def without (doc : ProvidersDocument) (name : String) : ProvidersDocument :=
  { doc with items := doc.items.filter fun item => itemName item ≠ some name }

/-- The objects the loader returns, without those of the name. -/
def remaining (doc : ProvidersDocument) (name : String) : List Json :=
  (doc.items.filter isFileEntry).filter fun item => itemName item ≠ some name

variable {doc : ProvidersDocument} {name : String}

/-- Only entries the loader sees have a name. -/
theorem isFileEntry_of_itemName {item : Json} (h : itemName item = some name) : isFileEntry item = true := by
  unfold itemName at h
  obtain ⟨entry, hentry, -⟩ := Option.map_eq_some_iff.mp h
  unfold isFileEntry
  rw [hentry]
  rfl

theorem prop_toJson (doc : ProvidersDocument) : doc.toJson.prop "providers" = .json (.arr doc.items) := by
  obtain ⟨before, items, after, others⟩ := doc
  unfold toJson
  rw [prop_obj]
  induction before with
  | nil => simp [lookup]
  | cons field rest ih =>
      have hfield : field.1 ≠ "providers" := others field (by simp)
      rw [List.cons_append, lookup, if_neg hfield]
      exact ih fun f hf => others f (by simp only [List.cons_append]; exact List.mem_cons_of_mem _ hf)

/-- The loader returns the entries it understands. -/
theorem loadProvidersItems_toJson (doc : ProvidersDocument) :
    loadProvidersItems (.document doc.toJson) = .ok (doc.items.filter isFileEntry) := by
  unfold loadProvidersItems
  simp only [prop_toJson]
  rfl

/-- A name the loader does not see is on no entry. -/
theorem without_of_not_names (h : ¬ doc.Names name) : doc.without name = doc := by
  have hall : doc.items.filter (fun item => itemName item ≠ some name) = doc.items := by
    apply List.filter_eq_self.mpr
    intro item hitem
    simpa using fun hname => h ⟨item, hitem, hname⟩
  unfold without
  rw [hall]

end ProvidersDocument

/-! ## One call -/

section Call

variable {yaml : Yaml} {defaultPath text : String} {disk : Disk} {input : DeregisterInput}
  {doc : ProvidersDocument} (tmp : String) (postReload : Disk → PostResult)

/-- The loader finds the document at the path. -/
theorem readProviders_of_parse {path : String} (hfile : disk path = some text)
    (hparse : yaml.parse text = .ok doc.toJson) : readProviders yaml disk path = .document doc.toJson := by
  unfold readProviders
  rw [hfile]
  simp only [hparse]

theorem loadProvidersItems_of_parse {path : String} (hfile : disk path = some text)
    (hparse : yaml.parse text = .ok doc.toJson) :
    loadProvidersItems (readProviders yaml disk path) = .ok (doc.items.filter isFileEntry) := by
  rw [readProviders_of_parse hfile hparse]
  exact doc.loadProvidersItems_toJson

variable (hwet : input.dryRun = some false) (hfile : disk (input.path.getD defaultPath) = some text)
  (hparse : yaml.parse text = .ok doc.toJson)
include hwet hfile hparse

/-- Of a name the loader does not see, a wet call writes nothing. -/
theorem deregister_of_not_names (hnames : ¬ doc.Names input.name) :
    ∃ outcome, deregister yaml defaultPath tmp postReload disk input = .ok outcome ∧ outcome.disk = disk := by
  have hfind : ((doc.items.filter isFileEntry).find? fun p => itemName p = some input.name) = none := by
    apply List.find?_eq_none.mpr
    intro item hitem
    simpa using fun hname => hnames ⟨item, List.mem_of_mem_filter hitem, hname⟩
  unfold deregister
  simp only [loadProvidersItems_of_parse hfile hparse, hwet, Option.getD_some, bind, Except.bind, hfind]
  exact ⟨_, rfl, rfl⟩

/-- Of a name the loader sees, a wet call writes what remains of what the loader returned. -/
theorem deregister_of_names (hnames : doc.Names input.name) :
    ∃ outcome, deregister yaml defaultPath tmp postReload disk input = .ok outcome ∧
      outcome.disk = atomicWriteYaml yaml tmp (input.path.getD defaultPath)
        (providersPayload (doc.remaining input.name)) disk := by
  obtain ⟨item, hitem, hname⟩ := hnames
  have hsome : ((doc.items.filter isFileEntry).find? fun p => itemName p = some input.name).isSome = true := by
    apply List.find?_isSome.mpr
    have hvisible := ProvidersDocument.isFileEntry_of_itemName hname
    exact ⟨item, List.mem_filter.mpr ⟨hitem, hvisible⟩, by simpa using hname⟩
  obtain ⟨target, htarget⟩ := Option.isSome_iff_exists.mp hsome
  have hentry : isFileEntry target = true := (List.mem_filter.mp (List.mem_of_find?_eq_some htarget)).2
  obtain ⟨removed, hremoved⟩ := Option.isSome_iff_exists.mp hentry
  unfold deregister
  simp only [loadProvidersItems_of_parse hfile hparse, hwet, Option.getD_some, bind, Except.bind, htarget,
    Option.bind_some, hremoved]
  exact ⟨_, rfl, rfl⟩

end Call

/-! ## The condition -/

namespace ProvidersDocument

/-- There is nothing in the document but entries the loader sees. -/
structure OnlyEntries (doc : ProvidersDocument) : Prop where
  noOtherKey : doc.before = [] ∧ doc.after = []
  noOtherItem : ∀ item ∈ doc.items, isFileEntry item = true

/-- What the loader skips has no name, so it would stay. -/
theorem remaining_eq_iff (doc : ProvidersDocument) (name : String) :
    doc.remaining name = (doc.without name).items ↔ ∀ item ∈ doc.items, isFileEntry item = true := by
  unfold remaining without
  simp only
  constructor
  · intro heq item hitem
    cases hvisible : isFileEntry item with
    | true => rfl
    | false =>
        have hkept : item ∈ doc.items.filter fun item => itemName item ≠ some name := by
          apply List.mem_filter.mpr
          refine ⟨hitem, ?_⟩
          simp only [ne_eq, decide_eq_true_eq]
          intro hname
          rw [isFileEntry_of_itemName hname] at hvisible
          cases hvisible
        rw [← heq] at hkept
        have hseen := (List.mem_filter.mp (List.mem_of_mem_filter hkept)).2
        rw [hvisible] at hseen
        exact hseen
  · intro hall
    rw [List.filter_eq_self.mpr hall]

/-- What a wet call writes is the document without the name when there was nothing else in it. -/
theorem providersPayload_eq_iff (doc : ProvidersDocument) (name : String) :
    providersPayload (doc.remaining name) = (doc.without name).toJson ↔ doc.OnlyEntries := by
  constructor
  · intro heq
    unfold providersPayload toJson at heq
    have hfields := Json.obj.inj heq
    cases hbefore : (doc.without name).before with
    | cons field rest =>
        rw [hbefore] at hfields
        have hlength := congrArg List.length hfields
        simp at hlength
    | nil =>
        rw [hbefore, List.nil_append] at hfields
        obtain ⟨hitems, hafter⟩ := List.cons.inj hfields
        refine ⟨⟨hbefore, hafter.symm⟩, ?_⟩
        exact (doc.remaining_eq_iff name).mp (Json.arr.inj (Prod.mk.inj hitems).2)
  · intro honly
    unfold providersPayload toJson
    rw [(doc.remaining_eq_iff name).mpr honly.noOtherItem, show (doc.without name).before = [] from
      honly.noOtherKey.1, show (doc.without name).after = [] from honly.noOtherKey.2]
    rfl

end ProvidersDocument

/-! ## The result -/

/-- The call goes through, and what is then parsed from the file is the old document without the entries of the
    name. -/
def LeavesRest (yaml : Yaml) (defaultPath tmp : String) (postReload : Disk → PostResult) (disk : Disk)
    (input : DeregisterInput) (doc : ProvidersDocument) : Prop :=
  ∃ outcome, deregister yaml defaultPath tmp postReload disk input = .ok outcome ∧
    readProviders yaml outcome.disk (input.path.getD defaultPath) = .document (doc.without input.name).toJson

/-- **Deregistering and the rest of the file.** A wet call leaves the rest of the file alone exactly when the
    loader sees no entry of the name, so nothing is written, or the document has no other key and no item the
    loader skips. -/
theorem deregister_leaves_rest_iff (yaml : Yaml) (defaultPath tmp text : String)
    (postReload : Disk → PostResult) (disk : Disk) (input : DeregisterInput) (doc : ProvidersDocument)
    (hwet : input.dryRun = some false) (hfile : disk (input.path.getD defaultPath) = some text)
    (hparse : yaml.parse text = .ok doc.toJson)
    (hyaml : yaml.Undoes (providersPayload (doc.remaining input.name))) :
    LeavesRest yaml defaultPath tmp postReload disk input doc ↔
      ¬ doc.Names input.name ∨ doc.OnlyEntries := by
  by_cases hnames : doc.Names input.name
  · obtain ⟨outcome, hcall, hdisk⟩ := deregister_of_names tmp postReload hwet hfile hparse hnames
    have hread : readProviders yaml outcome.disk (input.path.getD defaultPath) =
        .document (providersPayload (doc.remaining input.name)) := by
      unfold readProviders
      rw [hdisk, atomicWriteYaml_self]
      simp only [show yaml.parse _ = _ from hyaml]
    constructor
    · rintro ⟨outcome', hcall', hrest⟩
      obtain rfl : outcome = outcome' := Except.ok.inj (hcall.symm.trans hcall')
      right
      apply (doc.providersPayload_eq_iff input.name).mp
      exact ProvidersFile.document.inj (hread.symm.trans hrest)
    · intro h
      have honly := h.resolve_left (not_not_intro hnames)
      exact ⟨outcome, hcall, by rw [hread, (doc.providersPayload_eq_iff input.name).mpr honly]⟩
  · obtain ⟨outcome, hcall, hdisk⟩ := deregister_of_not_names tmp postReload hwet hfile hparse hnames
    refine iff_of_true ⟨outcome, hcall, ?_⟩ (Or.inl hnames)
    rw [hdisk, readProviders_of_parse hfile hparse, ProvidersDocument.without_of_not_names hnames]

/-- `yaml` on a few documents, each with its text. -/
def yamlOf (texts : List (String × Json)) : Yaml where
  parse := fun text => (texts.lookup text).elim (.error (.error "Unexpected text")) .ok
  stringify := fun value => ((texts.find? fun known => known.2 = value).map Prod.fst).getD ""

/-- A disk with one file. -/
def oneFile (path text : String) : Disk := fun p => if p = path then some text else none

/-- No gateway answers. -/
def unreachable (_ : Disk) : PostResult := ⟨false, 0, .null, some "Unable to connect"⟩

/-- An entry of the file. -/
def fileItem (name kind : String) : Json := .obj [("name", .str name), ("kind", .str kind)]

/-- Two providers and nothing else. -/
def twoEntries : ProvidersDocument :=
  ⟨[], [fileItem "local" "openai-compatible", fileItem "groq" "groq"], [], by simp⟩

/-- The text of the file with both. -/
def twoEntriesText : String :=
  "providers:\n  - name: local\n    kind: openai-compatible\n  - name: groq\n    kind: groq\n"

/-- What `yaml` makes of the file with both providers, and with the second alone. -/
def twoEntriesYaml : Yaml :=
  yamlOf [(twoEntriesText, twoEntries.toJson),
    ("providers:\n  - name: groq\n    kind: groq\n", providersPayload [fileItem "groq" "groq"])]

theorem deregister_leaves_rest_iff_two_entries :
    LeavesRest twoEntriesYaml "sirius-providers.yaml" ".1.yaml.tmp" unreachable
      (oneFile "sirius-providers.yaml" twoEntriesText) ⟨"local", some false, none⟩ twoEntries := by
  have honly : twoEntries.OnlyEntries := ⟨⟨rfl, rfl⟩, by decide⟩
  exact (deregister_leaves_rest_iff twoEntriesYaml "sirius-providers.yaml" ".1.yaml.tmp" twoEntriesText
    unreachable (oneFile "sirius-providers.yaml" twoEntriesText) ⟨"local", some false, none⟩ twoEntries
    rfl rfl rfl rfl).mpr (Or.inr honly)

/-- One provider, and the version of the file. -/
def versioned : ProvidersDocument :=
  ⟨[("version", .num 1)], [fileItem "local" "openai-compatible"], [], by simp⟩

/-- The text of that file. -/
def versionedText : String := "version: 1\nproviders:\n  - name: local\n    kind: openai-compatible\n"

/-- What `yaml` makes of that file, and of one without providers. -/
def versionedYaml : Yaml :=
  yamlOf [(versionedText, versioned.toJson), ("providers: []\n", providersPayload [])]

/-- Deregistering the provider loses the version. -/
theorem version_is_lost :
    ¬ ∀ (yaml : Yaml) (defaultPath tmp text : String) (postReload : Disk → PostResult) (disk : Disk)
      (input : DeregisterInput) (doc : ProvidersDocument), input.dryRun = some false →
      disk (input.path.getD defaultPath) = some text → yaml.parse text = .ok doc.toJson →
      yaml.Undoes (providersPayload (doc.remaining input.name)) → doc.Names input.name →
      LeavesRest yaml defaultPath tmp postReload disk input doc := by
  intro h
  have hnames : versioned.Names "local" :=
    ⟨fileItem "local" "openai-compatible", List.mem_singleton.mpr rfl, by decide⟩
  let disk : Disk := oneFile "sirius-providers.yaml" versionedText
  have hfile : disk "sirius-providers.yaml" = some versionedText := rfl
  have hparse : versionedYaml.parse versionedText = .ok versioned.toJson := rfl
  obtain ⟨outcome, hcall, hrest⟩ := h versionedYaml "sirius-providers.yaml" ".1.yaml.tmp" versionedText unreachable
    disk ⟨"local", some false, none⟩ versioned rfl hfile hparse rfl hnames
  obtain ⟨written, hwritten, hdisk⟩ := @deregister_of_names versionedYaml "sirius-providers.yaml" versionedText disk
    ⟨"local", some false, none⟩ versioned ".1.yaml.tmp" unreachable rfl hfile hparse hnames
  obtain rfl : written = outcome := Except.ok.inj (hwritten.symm.trans hcall)
  have hread : readProviders versionedYaml written.disk "sirius-providers.yaml" =
      .document (providersPayload []) := by
    rw [hdisk]
    rfl
  have hsame := ProvidersFile.document.inj (hread.symm.trans hrest)
  revert hsame
  decide

end Sirius
