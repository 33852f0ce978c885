/-
# The bodies of failures

The answer to a failed request is a JSON object with the single member `error`, and what a client reads
there is the wording of the failure: to the last character, whatever text of a client is part of it.

* `error_bodies_faithful` : the body of every failure.
-/
import OrderDesk.Http.Api
import OrderDesk.Proofs.Json.Literals

namespace OrderDesk

/-- The body of a failure. It is read as the object with the single member `error`, a text, which is the
wording of the failure. By the grammar of JSON, it begins as an object whose first member is a text in
one way only, with this name and this text, and the end of the object is all that follows: no part of the
wording can end the text, add a member, or be taken for anything else. -/
theorem error_bodies_faithful (e : ApiError) :
    ∃ body, e.response.body = .text body ∧
      e.response.headers = [("content-type", "application/json")] ∧
      Json.parse? body = some (.object [("error", .string e.message)]) ∧
      ∀ name message rest, Json.Opens name message body.toList rest ↔
        name = "error" ∧ message = e.message ∧ rest = ['}'] := by
  refine ⟨e.body.text, rfl, rfl, ?_, fun name message rest => ?_⟩
  · exact Json.parse?_texts [("error", e.message)] (by simp)
  · rw [Json.text, String.toList_ofList, ApiError.body]
    exact Json.opens_iff

/-- A client that tries to end the text and to add a member gets its own words back. -/
example : (ApiError.order (.unsupportedMethod "\",\"error\":\"\n")).body.text =
    "\x7b\"error\":\"Payment method \\\",\\\"error\\\":\\\"\\n is not supported\"\x7d" := by
  decide

end OrderDesk
