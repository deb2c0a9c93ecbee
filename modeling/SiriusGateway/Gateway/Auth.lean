import SiriusGateway.Js.Value

/-!
# `Gateway.Auth` — the bearer guard

`BearerAuthGuard.canActivate`, registered as the global guard, over the routes of the controllers. What `@Public()`
marks is open; every other route asks for one of the keys of `SIRIUS_API_KEYS`. `GatewayExceptionFilter` turns what
the guard throws into the answer.

## Contents
- **Routes.** `Route`, `isPublic`.
- **The guard.** `validKeys`, `canActivate`.
- **The filter.** `HttpAnswer`, `catchException`.
- **What the guard lets in** (`canActivate_eq_ok_iff`).
-/

namespace Sirius

open Js

/-! ## Routes -/

/-- The handlers of the controllers. -/
inductive Route where
  | health
  | providersReload
  | providersHealth
  | chatCompletions
  | responses
  | createEmbeddings
  | listModels
  | getModel (id : String)
  deriving DecidableEq

/-- `IS_PUBLIC_KEY` on the handler or its class. -/
def Route.isPublic : Route → Bool
  | .health => true
  | .providersHealth => true
  | _ => false

/-! ## The guard -/

/-- `SIRIUS_API_KEYS`, split at the commas, trimmed, without the empty ones. -/
def validKeys (apiKeys : Option String) : List String :=
  match apiKeys with
  | none => []
  | some text => ((text.toList.splitOn ',').map fun k => trim (String.ofList k)).filter (· ≠ "")

/-- The error of the guard: `UnauthorizedException` with this body. -/
def invalidApiKey : JsError :=
  .http 401 "Invalid API key provided." "authentication_error" (some "invalid_api_key")

/-- `authorization.slice(7)`, when it starts with `Bearer `. -/
def bearerToken (authorization : String) : Option String :=
  if authorization.startsWith "Bearer " then some (String.ofList (authorization.toList.drop 7)) else none

/-- `canActivate(context)`: the key the request is then made with, none on a public route. -/
def canActivate (apiKeys : Option String) (route : Route) (authorization : Option String) :
    Throws (Option String) :=
  if route.isPublic then .ok none
  else
    -- an empty header has no `Bearer ` either
    match authorization.bind bearerToken with
    | none => .error invalidApiKey
    | some token => if token ∈ validKeys apiKeys then .ok (some token) else .error invalidApiKey

/-! ## The filter -/

/-- A status and a body. -/
structure HttpAnswer where
  status : Nat
  body : Json
  deriving DecidableEq

/-- `GatewayExceptionFilter.catch(exception)`, on the errors the code throws: an `HttpException` of its own carries
    an OpenAI body, which is sent as it is; any other error is an internal one. -/
def catchException : JsError → HttpAnswer
  | .http status message type code =>
      ⟨status, .obj [("error", .obj [("message", .str message), ("type", .str type), ("param", .null),
        ("code", code.elim .null .str)])]⟩
  | _ =>
      ⟨500, .obj [("error", .obj [("message", .str "Internal server error"), ("type", .str "server_error"),
        ("param", .null), ("code", .null)])]⟩

/-! ## What the guard lets in -/

variable {apiKeys : Option String} {route : Route} {authorization : Option String}

/-- The header carries one of the keys. -/
def Authorized (apiKeys authorization : Option String) : Prop :=
  ∃ token ∈ validKeys apiKeys, authorization.bind bearerToken = some token

instance (apiKeys authorization : Option String) : Decidable (Authorized apiKeys authorization) :=
  inferInstanceAs (Decidable (∃ token ∈ validKeys apiKeys, _))

/-- **The guard lets in what is public or authorized**, and nothing else. -/
theorem canActivate_eq_ok_iff :
    (∃ key, canActivate apiKeys route authorization = .ok key) ↔
      route.isPublic = true ∨ Authorized apiKeys authorization := by
  unfold canActivate Authorized
  cases hpublic : route.isPublic with
  | true => simp
  | false =>
      cases htoken : authorization.bind bearerToken with
      | none => simp
      | some token =>
          by_cases hkey : token ∈ validKeys apiKeys
          · simp [hkey]
          · simp [hkey]

/-- What is turned away gets the one error. -/
theorem canActivate_of_unauthorized (hroute : route.isPublic = false) (h : ¬ Authorized apiKeys authorization) :
    canActivate apiKeys route authorization = .error invalidApiKey := by
  unfold canActivate
  rw [hroute, if_neg Bool.false_ne_true]
  cases htoken : authorization.bind bearerToken with
  | none => rfl
  | some token => exact if_neg fun hkey => h ⟨token, hkey, htoken⟩

/-- A request without the header is not authorized, whatever the keys. -/
theorem not_authorized_none : ¬ Authorized apiKeys none := by
  rintro ⟨token, -, htoken⟩
  cases htoken

end Sirius
