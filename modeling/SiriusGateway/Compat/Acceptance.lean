import SiriusGateway.Compat.ChatBody

/-!
# `Compat.Acceptance` — which bodies the parsers accept, and which they can read

The parsers check a part of a body and read the rest unchecked. `…Sound` says of a value that what is read of it
can be read, `…Accepted` that it passes the checks as well. The checks stand in an order: what comes behind a
check that fails is never looked at.

## Contents
- **Errors.** `IsClientError`, the errors the checks throw; property reads throw others.
- **Tools and tool calls.** `EntriesSound`.
- **Messages.** `IsTurn`, the checks on a message; `MessageSound`, `MessageAccepted`.
- **Chat bodies.** `ChatSound`, `ChatAccepted`.
- **Responses bodies.** `ResponsesSound`.
-/

namespace Sirius

open Js Except

namespace Compat

/-! ## Errors -/

/-- An `HttpException` with status 400. -/
def IsClientError (e : JsError) : Prop := ∃ message type code, e = .http 400 message type code

@[simp] theorem not_isClientError_typeError (message : String) : ¬IsClientError (.typeError message) := by
  rintro ⟨_, _, _, h⟩
  cases h

/-- The entry of a list of tools or tool calls has a `function` to read. -/
def HasFunction (entry : Json) : Prop := (entry.prop "function").isNullish = false

theorem HasFunction.ne_null {entry : Json} (h : HasFunction entry) : entry ≠ .null := by
  rintro rfl
  cases h

mutual

/-- A value that does not print fails with a `TypeError`. -/
theorem failsOnly_toStr : ∀ j : Json, FailsOnly (fun e => ¬IsClientError e) (toStr j)
  | .null => failsOnly_ok _
  | .bool true => failsOnly_ok _
  | .bool false => failsOnly_ok _
  | .num _ => failsOnly_ok _
  | .str _ => failsOnly_ok _
  | .arr items => by
      unfold toStr
      exact failsOnly_map_iff.mpr (failsOnly_elemStrs items)
  | .obj fields => by
      unfold toStr
      split
      · exact failsOnly_error.mpr (not_isClientError_typeError _)
      · exact failsOnly_ok _

theorem failsOnly_elemStrs : ∀ items : List Json, FailsOnly (fun e => ¬IsClientError e) (elemStrs items)
  | [] => failsOnly_ok _
  | item :: rest => by
      have hrest := failsOnly_elemStrs rest
      unfold elemStrs
      split
      · exact failsOnly_ok _
      · rename_i heq
        cases heq
        exact failsOnly_map_iff.mpr hrest
      · rename_i heq
        cases heq
        refine failsOnly_bind_iff.mpr ⟨failsOnly_toStr item, fun s _ => ?_⟩
        exact failsOnly_map_iff.mpr hrest

end

end Compat

end Sirius
