import SiriusGateway.Js.Value
import SiriusGateway.Lib.Succeeds
import SiriusGateway.Core.Types

/-!
# `FromFile.Loader` — the providers file and its adapters

What is read from `sirius-providers.yaml` and how an entry becomes an adapter. The disk and the process
environment at the moment of a read are a `Machine`; the Nova factory is an argument, and only whether it
throws matters here.

## Contents
- **The file.** `loadProvidersFile` keeps the entries with a string name and a string kind; as objects they
  are `loadProvidersItems`.
- **The key.** `resolveApiKeyRef`.
- **The adapter.** `novaProviderFor`, `overlayAnthropicNativeAuth`, and `adapterFor`, which is what boot and
  reload do with an entry before they register it.
-/

namespace Sirius

open Js

/-! ## The file -/

/-- What is at a path: nothing, a file that cannot be read or is no YAML, or a YAML document. -/
inductive ProvidersFile where
  | absent
  | unreadable (error : JsError)
  | document (value : Json)

/-- The disk and the environment of the process. -/
structure Machine where
  file : String → ProvidersFile
  /-- An environment variable. -/
  env : String → Option String
  /-- The content of a key file, whose path may start with `~`; none when it does not exist. -/
  keyFile : String → Throws (Option String)

/-- `SiriusProviderFileEntry`; only the name and the kind have been looked at. -/
structure FileEntry where
  name : String
  kind : String
  apiKeyRef : JsValue
  baseUrl : JsValue
  displayName : JsValue
  deriving DecidableEq

/-- The filter of `loadProvidersFile` on one item of the list. -/
def fileEntryOf (item : Json) : Option FileEntry :=
  if item.isObject then
    match item.prop "name", item.prop "kind" with
    | .json (.str name), .json (.str kind) =>
        some ⟨name, kind, item.prop "apiKeyRef", item.prop "baseUrl", item.prop "displayName"⟩
    | _, _ => none
  else none

/-- The item passes the filter. -/
def isFileEntry (item : Json) : Bool := (fileEntryOf item).isSome

/-- `loadProvidersFile(path)` with the objects themselves, which keep what no reader has looked at. -/
def loadProvidersItems : ProvidersFile → Throws (List Json)
  | .absent => .ok []
  | .unreadable error => .error error
  | .document value =>
      if value.truthy then
        match value.prop "providers" with
        | .json (.arr items) => .ok (items.filter isFileEntry)
        | _ => .ok []
      else .ok []

/-- `loadProvidersFile(path)`: the same objects, read as entries. -/
def loadProvidersFile (file : ProvidersFile) : Throws (List FileEntry) :=
  (loadProvidersItems file).map (List.filterMap fileEntryOf)

/-! ## The key -/

/-- `resolveApiKeyRef(apiKeyRef)`; anything but a string has no `trim`. -/
def resolveApiKeyRef (m : Machine) (apiKeyRef : JsValue) : Throws String :=
  if apiKeyRef.truthy then
    match apiKeyRef with
    | .json (.str ref) =>
        let trimmed := trim ref
        if trimmed.startsWith "$" then
          .ok (trim ((m.env (String.ofList (trimmed.toList.drop 1))).getD ""))
        else (m.keyFile trimmed).map fun content => (content.map trim).getD ""
    | _ => .error (.typeError "apiKeyRef.trim is not a function")
  else .ok ""

/-! ## The adapter -/

/-- The base URL an entry ends up with: a value, or the property its kind names on `Object.prototype`. -/
inductive BaseUrl where
  | value (v : JsValue)
  | inherited (key : String)

/-- `DEFAULT_BASE_URLS`. -/
def defaultBaseUrls : List (String × String) :=
  [("openai", "https://api.openai.com/v1"), ("anthropic", "https://api.anthropic.com/v1"),
    ("together", "https://api.together.xyz/v1"), ("groq", "https://api.groq.com/openai/v1"),
    ("mistral", "https://api.mistral.ai/v1")]

/-- The keys every object inherits. -/
def objectPrototypeKeys : List String :=
  ["constructor", "__defineGetter__", "__defineSetter__", "hasOwnProperty", "__lookupGetter__",
    "__lookupSetter__", "isPrototypeOf", "propertyIsEnumerable", "toString", "valueOf", "__proto__",
    "toLocaleString"]

/-- `entry.baseUrl ?? DEFAULT_BASE_URLS[entry.kind] ?? ''`. -/
def baseUrlOf (entry : FileEntry) : BaseUrl :=
  if entry.baseUrl.isNullish then
    match defaultBaseUrls.lookup entry.kind with
    | some url => .value (.json (.str url))
    | none =>
        if entry.kind ∈ objectPrototypeKeys then .inherited entry.kind else .value (.json (.str ""))
  else .value entry.baseUrl

/-- `ToBoolean` of a base URL; what objects inherit are functions and objects. -/
def BaseUrl.truthy : BaseUrl → Bool
  | .value v => v.truthy
  | .inherited _ => true

/-- The options of `nova.createOpenAICompatProvider`. -/
structure NovaOptions where
  name : String
  displayName : JsValue
  baseUrl : BaseUrl
  apiKey : String

/-- `nova.createOpenAICompatProvider`, as far as it can throw. -/
abbrev NovaFactory := NovaOptions → Throws Unit

/-- `novaProviderFor(entry)`. -/
def novaProviderFor (nova : NovaFactory) (m : Machine) (entry : FileEntry) : Throws Unit := do
  let baseUrl := baseUrlOf entry
  if baseUrl.truthy = false then
    throw (.error s!"sirius provider '{entry.name}' ({entry.kind}) has no baseUrl and no default")
  let apiKey ← resolveApiKeyRef m entry.apiKeyRef
  nova ⟨entry.name, entry.displayName.whenTruthy, baseUrl, apiKey⟩

/-- `overlayAnthropicNativeAuth(adapter, entry)`, as far as it can throw: the key is resolved again. -/
def overlayAnthropicNativeAuth (m : Machine) (adapter : AiProvider) (entry : FileEntry) :
    Throws AiProvider := do
  let _ ← resolveApiKeyRef m entry.apiKeyRef
  pure adapter

/-- The adapter boot and reload build from an entry. -/
def adapterFor (nova : NovaFactory) (m : Machine) (entry : FileEntry) : Throws AiProvider := do
  novaProviderFor nova m entry
  let adapter : AiProvider := ⟨entry.name, .fromFile entry.kind⟩
  if entry.kind = "anthropic" then overlayAnthropicNativeAuth m adapter entry else pure adapter

/-- An adapter has the name of its entry, and the file's kind. -/
theorem adapterFor_eq_ok {nova : NovaFactory} {m : Machine} {entry : FileEntry} {adapter : AiProvider}
    (h : adapterFor nova m entry = .ok adapter) : adapter = ⟨entry.name, .fromFile entry.kind⟩ := by
  unfold adapterFor at h
  obtain ⟨_, _, h⟩ := Except.bind_eq_ok_iff.mp h
  simp only at h
  split at h
  · obtain ⟨_, _, h⟩ := Except.bind_eq_ok_iff.mp h
    exact (Except.ok.inj h).symm
  · exact (Except.ok.inj h).symm

end Sirius
