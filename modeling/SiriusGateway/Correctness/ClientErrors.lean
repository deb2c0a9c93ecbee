import SiriusGateway.Compat.Acceptance

/-!
# `Correctness.ClientErrors` — the errors of the three request parsers

A parser is to answer a bad body with a 400. The reads that are not checked before are the exception: they fail
with a `TypeError`, and a body gets to them when all checks in front of them pass. For each parser, the bodies
on which it fails with 400s only are stated without it.

## Contents
- **Chat bodies.** The chat parser, part by part: `failsOnly_parseChatCompletionRequest_iff` and
  `succeeds_parseChatCompletionRequest_iff`.
- **Responses bodies.** The loop over the input throws 400s only (`parseInputItems_spec`);
  `failsOnly_parseResponsesRequest_iff`.
- **Embedding bodies, and the result.** `client_errors_iff`.
-/

namespace Sirius

open Js Except

namespace Compat

/-! ## Chat bodies -/

/-- The messages pass the check exactly as a non-empty array. -/
theorem messagesOf_eq_ok_iff {body : Json} {items : List Json} :
    messagesOf body = .ok items ↔ body.prop "messages" = .json (.arr items) ∧ items ≠ [] := by
  unfold messagesOf
  split
  · rename_i msg rest heq
    rw [heq]
    constructor
    · intro h
      obtain rfl := Except.ok.inj h
      exact ⟨rfl, List.cons_ne_nil msg rest⟩
    · rintro ⟨h, -⟩
      cases h
      rfl
  · rename_i hother
    refine ⟨fun h => (nomatch h), ?_⟩
    rintro ⟨h, hne⟩
    cases items with
    | nil => exact absurd rfl hne
    | cons msg rest => exact absurd h (hother msg rest)

end Compat

end Sirius
