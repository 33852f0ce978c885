/-
# Requests about orders

What the four routes of orders do beyond the desk: they read identifiers. A request in which one of them
cannot be read is refused for the first such one, and nothing has happened. Any other request is the
command of its identifiers, and its answer is told by the outcome of that command alone. It does not
matter how an identifier is spelled.

* `Intake` : what reaches a route, its identifiers still texts;
* `Intake.command_of_refused` : the refusal of an intake;
* `Intake.command_eq_ok_iff` : the command of an intake;
* `Request.activity_eq_command_iff` : the requests that run a command;
* `http_refines_desk` : requests do what their commands do.
-/
import Mathlib.Data.List.Forall2
import OrderDesk.Proofs.Double.Rounding
import OrderDesk.Proofs.Http.Failures
import OrderDesk.Proofs.Identifier.Spelling

namespace OrderDesk

/-! ## Refused texts -/

namespace Uuid

/-- Whether a text is no identifier. -/
def refuses (text : String) : Bool :=
  !(parse text).isOk

theorem refuses_eq_true_iff {text : String} :
    refuses text = true ↔ ∃ reason, parse text = .error reason := by
  cases h : parse text <;> simp [refuses, h, Except.isOk, Except.toBool]

theorem refuses_eq_false_iff {text : String} : refuses text = false ↔ ∃ u, parse text = .ok u := by
  cases h : parse text <;> simp [refuses, h, Except.isOk, Except.toBool]

end Uuid

/-- Texts that can all be read are those of some identifiers. -/
theorem Id.exists_forall₂_parse {kind : IdKind} {texts : List String}
    (h : ∀ text ∈ texts, ∃ u, Uuid.parse text = .ok u) :
    ∃ ids : List (Id kind), List.Forall₂ (fun text id => Id.parse text = .ok id) texts ids := by
  induction texts with
  | nil => exact ⟨[], .nil⟩
  | cons first rest ih =>
      obtain ⟨u, hu⟩ := h first List.mem_cons_self
      obtain ⟨ids, hids⟩ := ih fun text htext => h text (List.mem_cons_of_mem first htext)
      exact ⟨⟨u⟩ :: ids, .cons (parse_of_ok hu) hids⟩

/-- Texts that spell alike are those of the same identifiers. -/
theorem Id.exists_forall₂_of_alike {kind : IdKind} {texts others : List String}
    (h : List.Forall₂ Uuid.Alike texts others) :
    ∃ ids : List (Id kind), List.Forall₂ (fun text id => Id.parse text = .ok id) texts ids ∧
      List.Forall₂ (fun text id => Id.parse text = .ok id) others ids := by
  induction h with
  | nil => exact ⟨[], .nil, .nil⟩
  | cons halike _ ih =>
      obtain ⟨u, hu, hu'⟩ := Uuid.parse_of_alike halike
      obtain ⟨ids, hids, hids'⟩ := ih
      exact ⟨⟨u⟩ :: ids, .cons (parse_of_ok hu) hids, .cons (parse_of_ok hu') hids'⟩

/-! ## Intakes -/

/-- What a request brings to one of the four routes of orders. -/
inductive Intake
  | create (order : NewOrder)
  | fetch (text : String)
  | pay (text : String) (payment : PaymentRequest)
  | cancel (text : String)

/-- A request reaches a route with a body that could be read, if the route has one. -/
inductive Request.Reaches (r : Request) : Intake → Prop
  | create {order : NewOrder} : r.method = "POST" → Resource.ofTarget? r.target = some .orders →
      r.content = .ok order → r.Reaches (.create order)
  | fetch {segment : List Char} {text : String} : r.method = "GET" ∨ r.method = "HEAD" →
      Resource.ofTarget? r.target = some (.order segment) → percentDecode? segment = some text →
      r.Reaches (.fetch text)
  | pay {segment : List Char} {text : String} {payment : PaymentRequest} : r.method = "POST" →
      Resource.ofTarget? r.target = some (.payment segment) → percentDecode? segment = some text →
      r.content = .ok payment → r.Reaches (.pay text payment)
  | cancel {segment : List Char} {text : String} : r.method = "POST" →
      Resource.ofTarget? r.target = some (.cancellation segment) → percentDecode? segment = some text →
      r.Reaches (.cancel text)

namespace Intake

/-- The identifiers of an intake with their fields, in the order in which they are read. -/
def identifiers : Intake → List (String × String)
  | create order => ("user_uuid", order.user) :: order.parts.map fun part => ("part_uuids", part)
  | fetch text | pay text _ | cancel text => [("order_uuid", text)]

/-- The first identifier that cannot be read, with its field. -/
def refused? (i : Intake) : Option (String × String) :=
  i.identifiers.find? fun p => Uuid.refuses p.2

/-- The command that the identifiers of an intake make. -/
inductive Means : Intake → Command → Prop
  | create {order : NewOrder} {user : UserId} {parts : List PartId} : Id.parse order.user = .ok user →
      List.Forall₂ (fun text part => Id.parse text = .ok part) order.parts parts →
      Means (.create order) (.create user parts)
  | fetch {text : String} {id : OrderId} : Id.parse text = .ok id → Means (.fetch text) (.fetch id)
  | pay {text : String} {id : OrderId} {payment : PaymentRequest} : Id.parse text = .ok id →
      Means (.pay text payment) (.pay id payment.method)
  | cancel {text : String} {id : OrderId} : Id.parse text = .ok id → Means (.cancel text) (.cancel id)

/-- The same intake with its identifiers spelled in another way. -/
inductive Respells : Intake → Intake → Prop
  | create {a b : NewOrder} : Uuid.Alike a.user b.user → List.Forall₂ Uuid.Alike a.parts b.parts →
      Respells (.create a) (.create b)
  | fetch {a b : String} : Uuid.Alike a b → Respells (.fetch a) (.fetch b)
  | pay {a b : String} (payment : PaymentRequest) : Uuid.Alike a b →
      Respells (.pay a payment) (.pay b payment)
  | cancel {a b : String} : Uuid.Alike a b → Respells (.cancel a) (.cancel b)

/-- The command of an intake as the routes make it. -/
def command : Intake → Except ApiError Command
  | create order => Api.newOrder order
  | fetch text => (Api.parseId "order_uuid" text).map .fetch
  | pay text payment => (Api.parseId "order_uuid" text).map fun id => .pay id payment.method
  | cancel text => (Api.parseId "order_uuid" text).map .cancel

end Intake

/-! ## Plans of intakes -/

namespace Resource

variable {resource : Resource} {method : String}

theorem allows_of_read (h : resource.isRead = true) :
    resource.allows method = true ↔ method = "GET" ∨ method = "HEAD" := by
  simp [allows, h]

theorem allows_of_posted (h : resource.isRead = false) :
    resource.allows method = true ↔ method = "POST" := by
  simp [allows, h]

end Resource

/-- A request that a resource allows is served by it. -/
theorem Api.plan_of_allows {r : Request} {resource : Resource}
    (htarget : Resource.ofTarget? r.target = some resource) (hallows : resource.allows r.method = true) :
    plan r = serve r resource := by
  have hserved : r.method ≠ "OPTIONS" := by
    intro hmethod
    rw [hmethod] at hallows
    cases resource <;> cases hallows
  simp only [plan, htarget, if_neg hserved, if_pos hallows]

/-- The plan of a request is that of the command of its intake. -/
theorem Request.Reaches.plan {r : Request} {i : Intake} (h : r.Reaches i) :
    Api.plan r = Api.planOf i.command := by
  cases h with
  | create hmethod htarget hcontent =>
      rw [Api.plan_of_allows htarget ((Resource.allows_of_posted rfl).2 hmethod)]
      simp only [Api.serve, Api.withContent, hcontent, Intake.command]
  | fetch hmethod htarget htext =>
      rw [Api.plan_of_allows htarget ((Resource.allows_of_read rfl).2 hmethod)]
      simp only [Api.serve, Api.withOrder, htext, Intake.command]
  | pay hmethod htarget htext hcontent =>
      rw [Api.plan_of_allows htarget ((Resource.allows_of_posted rfl).2 hmethod)]
      simp only [Api.serve, Api.withOrder, htext, Api.withContent, hcontent, Intake.command]
  | cancel hmethod htarget htext =>
      rw [Api.plan_of_allows htarget ((Resource.allows_of_posted rfl).2 hmethod)]
      simp only [Api.serve, Api.withOrder, htext, Intake.command]

/-! ## Reading identifiers -/

namespace Api

variable {kind : IdKind} {field : String}

/-- The refusal of an identifier. -/
def refusal (field text : String) (reason : IdFault) : ApiError :=
  .badRequest ("Invalid " ++ field ++ " '" ++ text ++ "': " ++ reason.message)

theorem parseId_of_ok {text : String} {id : Id kind} (h : Id.parse text = .ok id) :
    parseId field text = .ok id := by
  rw [parseId, h]
  rfl

theorem parseId_of_error {text : String} {reason : IdFault} (h : Uuid.parse text = .error reason) :
    (parseId field text : Except ApiError (Id kind)) = .error (refusal field text reason) := by
  rw [parseId, Id.parse, h]
  rfl

theorem mapM_parseId_of_ok {texts : List String} {ids : List (Id kind)}
    (h : List.Forall₂ (fun text id => Id.parse text = .ok id) texts ids) :
    texts.mapM (parseId field) = .ok ids := by
  induction h with
  | nil => rfl
  | cons hparse _ ih =>
      rw [List.mapM_cons, parseId_of_ok hparse, ih]
      rfl

/-- A list of identifiers is refused for the first of them that cannot be read. -/
theorem mapM_parseId_of_error {texts : List String} {text : String} {reason : IdFault}
    (hfirst : texts.find? Uuid.refuses = some text) (h : Uuid.parse text = .error reason) :
    (texts.mapM (parseId field) : Except ApiError (List (Id kind))) =
      .error (refusal field text reason) := by
  induction texts with
  | nil => cases hfirst
  | cons first rest ih =>
      rw [List.mapM_cons]
      cases hrefuses : Uuid.refuses first with
      | true =>
          rw [List.find?_cons_of_pos hrefuses] at hfirst
          cases hfirst
          rw [parseId_of_error h]
          rfl
      | false =>
          obtain ⟨u, hparse⟩ := Uuid.refuses_eq_false_iff.1 hrefuses
          rw [List.find?_cons_of_neg (by simp [hrefuses])] at hfirst
          rw [parseId_of_ok (Id.parse_of_ok hparse), ih hfirst]
          rfl

end Api

namespace Intake

variable {i : Intake} {field text : String}

/-- Of a single identifier, only itself can be refused. -/
theorem eq_of_refused {given : String} (hsingle : i.identifiers = [("order_uuid", given)])
    (h : i.refused? = some (field, text)) : field = "order_uuid" ∧ text = given := by
  have hmem := List.mem_of_find?_eq_some h
  rw [hsingle, List.mem_singleton, Prod.mk.injEq] at hmem
  exact hmem

/-- An intake with an identifier that cannot be read is refused for the first one. -/
theorem command_of_refused (h : i.refused? = some (field, text)) :
    ∃ reason, Uuid.parse text = .error reason ∧ i.command = .error (Api.refusal field text reason) := by
  have hrefuses := List.find?_some h
  rw [Uuid.refuses_eq_true_iff] at hrefuses
  obtain ⟨reason, hreason⟩ := hrefuses
  refine ⟨reason, hreason, ?_⟩
  cases i with
  | create order =>
      -- the user is read before the parts
      simp only [refused?, identifiers, List.find?_cons] at h
      cases huser : Uuid.refuses order.user with
      | true =>
          simp only [huser, Option.some.injEq, Prod.mk.injEq] at h
          obtain ⟨rfl, rfl⟩ := h
          rw [command, Api.newOrder, Api.parseId_of_error hreason]
          rfl
      | false =>
          obtain ⟨u, hparse⟩ := Uuid.refuses_eq_false_iff.1 huser
          simp only [huser, List.find?_map, Option.map_eq_some_iff, Prod.mk.injEq] at h
          obtain ⟨part, hpart, hfield, htext⟩ := h
          subst hfield htext
          have hparts : (order.parts.mapM (Api.parseId "part_uuids") : Except ApiError (List PartId)) =
              .error (Api.refusal "part_uuids" part reason) :=
            Api.mapM_parseId_of_error hpart hreason
          rw [command, Api.newOrder, Api.parseId_of_ok (Id.parse_of_ok hparse), hparts]
          rfl
  | fetch given | pay given payment | cancel given =>
      obtain ⟨rfl, rfl⟩ := eq_of_refused rfl h
      rw [command, Api.parseId_of_error hreason]
      rfl

/-- An intake whose identifiers can all be read means a command. -/
theorem exists_means_of_not_refused (h : i.refused? = none) : ∃ c, i.Means c := by
  have hread : ∀ p ∈ i.identifiers, ∃ u, Uuid.parse p.2 = .ok u := by
    intro p hp
    have haccepted := List.find?_eq_none.1 h p hp
    exact Uuid.refuses_eq_false_iff.1 (by simpa using haccepted)
  cases i with
  | create order =>
      obtain ⟨user, huser⟩ := hread _ List.mem_cons_self
      have hall : ∀ part ∈ order.parts, ∃ u, Uuid.parse part = .ok u :=
        fun part hpart => hread ("part_uuids", part) (List.mem_cons_of_mem _ (List.mem_map_of_mem hpart))
      obtain ⟨parts, hparts⟩ := Id.exists_forall₂_parse hall
      exact ⟨_, .create (Id.parse_of_ok huser) hparts⟩
  | fetch given =>
      obtain ⟨u, hu⟩ := hread _ List.mem_cons_self
      exact ⟨_, .fetch (Id.parse_of_ok hu)⟩
  | pay given payment =>
      obtain ⟨u, hu⟩ := hread _ List.mem_cons_self
      exact ⟨_, .pay (Id.parse_of_ok hu)⟩
  | cancel given =>
      obtain ⟨u, hu⟩ := hread _ List.mem_cons_self
      exact ⟨_, .cancel (Id.parse_of_ok hu)⟩

/-- The command that an intake means is the one that the routes make of it. -/
theorem Means.command {c : Command} (h : i.Means c) : i.command = .ok c := by
  cases h with
  | @create order user parts huser hparts =>
      have hread : (order.parts.mapM (Api.parseId "part_uuids") : Except ApiError (List PartId)) =
          .ok parts := Api.mapM_parseId_of_ok hparts
      rw [Intake.command, Api.newOrder, Api.parseId_of_ok huser, hread]
      rfl
  | fetch hid | pay hid | cancel hid =>
      rw [Intake.command, Api.parseId_of_ok hid]
      rfl

/-- What the routes make of an intake is what it means. -/
theorem command_eq_ok_iff {c : Command} : i.command = .ok c ↔ i.Means c := by
  refine ⟨fun h => ?_, Means.command⟩
  cases hrefused : i.refused? with
  | some refused =>
      obtain ⟨reason, -, hcommand⟩ := command_of_refused hrefused
      rw [h] at hcommand
      cases hcommand
  | none =>
      obtain ⟨meant, hmeans⟩ := exists_means_of_not_refused hrefused
      rw [hmeans.command] at h
      cases h
      exact hmeans

/-- Intakes that differ in the spelling of identifiers only mean the same command. -/
theorem Respells.exists_means {a b : Intake} (h : a.Respells b) : ∃ c, a.Means c ∧ b.Means c := by
  cases h with
  | create huser hparts =>
      obtain ⟨user, ha, hb⟩ := Uuid.parse_of_alike huser
      obtain ⟨parts, hparts, hparts'⟩ := Id.exists_forall₂_of_alike hparts
      exact ⟨_, .create (Id.parse_of_ok ha) hparts, .create (Id.parse_of_ok hb) hparts'⟩
  | fetch halike =>
      obtain ⟨u, ha, hb⟩ := Uuid.parse_of_alike halike
      exact ⟨_, .fetch (Id.parse_of_ok ha), .fetch (Id.parse_of_ok hb)⟩
  | pay payment halike =>
      obtain ⟨u, ha, hb⟩ := Uuid.parse_of_alike halike
      exact ⟨_, .pay (Id.parse_of_ok ha), .pay (Id.parse_of_ok hb)⟩
  | cancel halike =>
      obtain ⟨u, ha, hb⟩ := Uuid.parse_of_alike halike
      exact ⟨_, .cancel (Id.parse_of_ok ha), .cancel (Id.parse_of_ok hb)⟩

end Intake

/-! ## Commands of requests -/

namespace Request

variable {r : Request} {c : Command}

theorem exists_content_of_activity {α : Type} [Wire α] {plan : α → Plan}
    (h : (Api.withContent r plan).activity = .command c) :
    ∃ a, (r.content : Except Rejection α) = .ok a := by
  cases hcontent : (r.content : Except Rejection α) with
  | ok a => exact ⟨a, rfl⟩
  | error e =>
      simp only [Api.withContent, hcontent] at h
      cases h

theorem exists_text_of_activity {segment : List Char} {plan : String → Plan}
    (h : (Api.withOrder segment plan).activity = .command c) :
    ∃ text, percentDecode? segment = some text ∧ (plan text).activity = .command c := by
  cases htext : percentDecode? segment with
  | some text =>
      simp only [Api.withOrder, htext] at h
      exact ⟨text, rfl, h⟩
  | none =>
      simp only [Api.withOrder, htext] at h
      cases h

/-- A request that runs a command has reached one of the four routes. -/
theorem exists_reaches_of_activity (h : (Api.plan r).activity = .command c) : ∃ i, r.Reaches i := by
  cases htarget : Resource.ofTarget? r.target with
  | none =>
      simp only [Api.plan, htarget] at h
      split at h <;> cases h
  | some resource =>
      cases hallows : resource.allows r.method with
      | false =>
          simp only [Api.plan, htarget, hallows] at h
          split at h <;> cases h
      | true =>
          rw [Api.plan_of_allows htarget hallows] at h
          cases resource with
          | health => cases h
          | metrics => cases h
          | orders =>
              obtain ⟨order, hcontent⟩ := exists_content_of_activity h
              exact ⟨_, .create ((Resource.allows_of_posted rfl).1 hallows) htarget hcontent⟩
          | order segment =>
              obtain ⟨text, htext, -⟩ := exists_text_of_activity h
              exact ⟨_, .fetch ((Resource.allows_of_read rfl).1 hallows) htarget htext⟩
          | payment segment =>
              obtain ⟨text, htext, hpay⟩ := exists_text_of_activity h
              obtain ⟨payment, hcontent⟩ := exists_content_of_activity hpay
              exact ⟨_, .pay ((Resource.allows_of_posted rfl).1 hallows) htarget htext hcontent⟩
          | cancellation segment =>
              obtain ⟨text, htext, -⟩ := exists_text_of_activity h
              exact ⟨_, .cancel ((Resource.allows_of_posted rfl).1 hallows) htarget htext⟩

/-- The plan of a request is the command that its intake means. -/
theorem Reaches.plan_of_means {i : Intake} (hreaches : r.Reaches i) (h : i.Means c) :
    Api.plan r = .command c Api.answer := by
  rw [hreaches.plan, h.command]
  rfl

/-- A request runs a command exactly if it reaches a route of orders with what means that command. -/
theorem activity_eq_command_iff :
    (Api.plan r).activity = .command c ↔ ∃ i, r.Reaches i ∧ i.Means c := by
  constructor
  · intro h
    obtain ⟨i, hreaches⟩ := exists_reaches_of_activity h
    refine ⟨i, hreaches, Intake.command_eq_ok_iff.1 ?_⟩
    rw [hreaches.plan] at h
    cases hcommand : i.command with
    | error e =>
        rw [hcommand] at h
        cases h
    | ok meant =>
        rw [hcommand] at h
        cases h
        rfl
  · rintro ⟨i, hreaches, hmeans⟩
    rw [hreaches.plan_of_means hmeans]
    rfl

end Request

/-! ## Answers -/

namespace Api

/-- The status of an outcome. -/
def statusOf : Outcome → Nat
  | .ok (.created ..) | .ok (.fetched _) | .ok (.paid _) => 200
  | .ok (.cancelled ..) => 204
  | .error e => e.status

/-- What is told of an order. -/
def described (o : Order) : Json :=
  .object [
    ("order_uuid", .string o.id.text),
    ("user_uuid", .string o.user.text),
    ("part_uuids", .array (o.parts.map fun part => .string part.text)),
    ("total_price", .double o.total.toDouble),
    ("status", .string o.status.name),
    ("payment_method", .ofOption (fun p => .string p.method.name) o.payment),
    ("transaction_uuid", .ofOption (fun p => .string p.transaction.text) o.payment),
    ("created_at", .string o.createdAt.text),
    ("updated_at", .string o.updatedAt.text)]

/-- What is told of an outcome, if anything. -/
def told? : Outcome → Option Json
  | .ok (.created id total) =>
      some (.object [("order_uuid", .string id.text), ("total_price", .double total.toDouble)])
  | .ok (.fetched o) => some (described o)
  | .ok (.paid transaction) => some (.object [("transaction_uuid", .string transaction.text)])
  | .ok (.cancelled ..) => none
  | .error e => some (.object [("error", .string e.message)])

end Api

/-- A response to a request has this status and body. A request by `HEAD` is told no body. -/
structure Request.Gets (r : Request) (response : Response) (status : Nat) (told : Option Json) :
    Prop where
  status : response.status = status
  body : response.body = .text (if r.method = "HEAD" then "" else (told.map Json.text).getD "")

/-- Amounts are finite in whole units. -/
theorem Money.isFinite_toDouble (m : Money) : m.toDouble.isFinite = true := by
  have hcents : m.cents.natAbs < 1 * 2 ^ 64 := by
    have hl := m.le_cents
    have hu := m.cents_le
    omega
  have hscale : (Double.ofInt m.cents).scale < 1088 := by
    have hmagnitude := Double.round_magnitude_le (by decide) hcents (m.cents < 0)
    rw [← Double.ofInt] at hmagnitude
    rw [Double.scale, Double.hiddenBit_eq]
    omega
  have hhundred : (Double.ofInt 100).isZero = false ∧ (Double.ofInt 100).scale = 1028 := by
    decide +kernel
  refine Double.isFinite_div hhundred.1 ?_
  rw [hhundred.2]
  omega

theorem Money.write_toDouble (m : Money) : Wire.write m.toDouble = .double m.toDouble :=
  if_pos m.isFinite_toDouble

namespace Api

theorem write_view (o : Order) : Wire.write o.view = described o := by
  rw [described, ← Money.write_toDouble]
  cases hpayment : o.payment <;> simp only [Order.view, hpayment] <;> rfl

theorem answer_eq (o : Outcome) :
    answer o = (told? o).elim (.bare (statusOf o)) (.json (statusOf o)) := by
  cases o with
  | error e => rfl
  | ok receipt =>
      cases receipt with
      | created id total =>
          rw [told?, ← Money.write_toDouble]
          rfl
      | fetched o => rw [answer, write_view]; rfl
      | paid transaction => rfl
      | cancelled o changed => rfl

end Api

/-- A request whose plan has an answer with this status and body gets it. -/
theorem Request.gets_response {r : Request} {outcome : Option Outcome} {d : Desk} {status : Nat}
    {told : Option Json}
    (h : (Api.plan r).response outcome d = told.elim (.bare status) (.json status)) :
    r.Gets (r.response outcome d) status told := by
  have hbody : (told.elim (.bare status) (.json status) : Response).body =
      .text ((told.map Json.text).getD "") := by
    cases told <;> rfl
  constructor
  · rw [status_response, h]
    cases told <;> rfl
  · rw [Request.response, h]
    by_cases hhead : r.method = "HEAD"
    · simp only [if_pos hhead, Response.withoutBody, hbody]
      rfl
    · simp only [if_neg hhead]
      exact hbody

/-! ## What requests do -/

/-- Over any shop: a request that reaches a route of orders with a body that can be read is refused for
the first identifier that cannot be, the user before the parts and these in their order; it has only
looked, and the shop is what it was. Otherwise it runs the command of its identifiers, the shop comes out
as after that command, and status and body are told by its outcome. The same identifiers in other
spellings run the same command. -/
theorem http_refines_desk (r : Request) (i : Intake) (hreaches : r.Reaches i) (s : Shop) :
    (∀ field text, i.refused? = some (field, text) →
      ∃ reason, Uuid.parse text = .error reason ∧ (Api.plan r).activity = .look ∧
        s.serve [(0, (Api.plan r).activity)] = (s, 0, [⟨0, .finished none s.desk⟩]) ∧
        r.Gets (r.response none s.desk) 400 (some (.object [("error",
          .string ("Invalid " ++ field ++ " '" ++ text ++ "': " ++ reason.message))]))) ∧
      (i.refused? = none →
        ∃ c o, i.Means c ∧ (Api.plan r).activity = .command c ∧ (s.carryOut c).call = .finished o ∧
          s.serve [(0, (Api.plan r).activity)] = ((s.carryOut c).shop, (s.carryOut c).millis,
            [⟨(s.carryOut c).millis, .finished (some o) (s.carryOut c).shop.desk⟩]) ∧
          ∀ d, r.Gets (r.response (some o) d) (Api.statusOf o) (Api.told? o)) ∧
      ∀ r' i', r'.Reaches i' → i.Respells i' →
        ∃ c, i.Means c ∧ (Api.plan r).activity = .command c ∧ (Api.plan r').activity = .command c := by
  refine ⟨fun field text hrefused => ?_, fun hread => ?_, fun r' i' hreaches' hrespells => ?_⟩
  · obtain ⟨reason, hreason, hcommand⟩ := Intake.command_of_refused hrefused
    have hplan : Api.plan r = .reply (Api.refusal field text reason).response := by
      rw [hreaches.plan, hcommand]
      rfl
    have hactivity : (Api.plan r).activity = .look := by
      rw [hplan]
      rfl
    refine ⟨reason, hreason, hactivity, ?_, Request.gets_response ?_⟩
    · rw [hactivity]
      exact s.serve_look
    · rw [hplan]
      rfl
  · obtain ⟨c, hmeans⟩ := Intake.exists_means_of_not_refused hread
    obtain ⟨o, hcall, hserve⟩ := s.serve_carryOut c
    have hplan := hreaches.plan_of_means hmeans
    have hactivity := Request.activity_eq_command_iff.2 ⟨i, hreaches, hmeans⟩
    refine ⟨c, o, hmeans, hactivity, hcall, ?_, fun d => Request.gets_response ?_⟩
    · rw [hactivity]
      exact hserve
    · rw [hplan]
      exact Api.answer_eq o
  · obtain ⟨c, hmeans, hmeans'⟩ := hrespells.exists_means
    exact ⟨c, hmeans, Request.activity_eq_command_iff.2 ⟨i, hreaches, hmeans⟩,
      Request.activity_eq_command_iff.2 ⟨i', hreaches', hmeans'⟩⟩

/-- A request for a new order with two texts that name no parts. -/
def Request.nameless : Request :=
  ⟨"POST", "/api/v1/orders", [("content-type", "application/json")],
    "\x7b\"user_uuid\":\"00000000-0000-0000-0000-000000000001\",\"part_uuids\":[\"x\",\"y\"]\x7d"⟩

/-- A request for an order by the spelling of its identifier. -/
def Request.spelled (text : String) : Request :=
  ⟨"GET", "/api/v1/orders/" ++ text, [], ""⟩

/-- The text "x" is refused as a part, the paid order is not cancelled, which is told, and bare capital
digits name the same order as small ones in groups. -/
theorem http_refines_desk_nameless :
    (∃ reason : IdFault, Shop.paidRace.serve [(0, (Api.plan Request.nameless).activity)] =
        (Shop.paidRace, 0, [⟨0, .finished none Shop.paidRace.desk⟩]) ∧
      Request.nameless.Gets (Request.nameless.response none Shop.paidRace.desk) 400
        (some (.object [("error", .string ("Invalid part_uuids 'x': " ++ reason.message))]))) ∧
      Request.cancelRace.Gets (Request.cancelRace.response
          (some (.error (.alreadyPaid Floor.raceOrder))) Shop.paidRace.desk) 409
        (some (.object [("error", .string (OrderError.alreadyPaid Floor.raceOrder).message)])) ∧
      ∃ c, (Api.plan (.spelled "000000000000000000000000000000AF")).activity = .command c ∧
        (Api.plan (.spelled "00000000-0000-0000-0000-0000000000af")).activity = .command c := by
  have hread : ∀ text ∈ ["000000000000000000000000000000AF", "00000000-0000-0000-0000-0000000000af"],
      Resource.ofTarget? (Request.spelled text).target = some (.order text.toList) ∧
        percentDecode? text.toList = some text := by decide +kernel
  have hreaches : ∀ text ∈ ["000000000000000000000000000000AF", "00000000-0000-0000-0000-0000000000af"],
      (Request.spelled text).Reaches (.fetch text) :=
    fun text htext => .fetch (Or.inl rfl) (hread text htext).1 (hread text htext).2
  refine ⟨?_, ?_, ?_⟩
  · obtain ⟨hrefused, -, -⟩ := http_refines_desk Request.nameless
      (.create ⟨"00000000-0000-0000-0000-000000000001", ["x", "y"]⟩)
      (.create rfl (by decide +kernel) (by decide +kernel)) Shop.paidRace
    obtain ⟨reason, -, -, hserve, hgets⟩ := hrefused "part_uuids" "x" (by decide +kernel)
    exact ⟨reason, hserve, hgets⟩
  · have htarget : Resource.ofTarget? Request.cancelRace.target =
        some (.cancellation "00000000-0000-0000-0000-000000000007".toList) := by decide +kernel
    obtain ⟨-, htaken, -⟩ := http_refines_desk Request.cancelRace
      (.cancel "00000000-0000-0000-0000-000000000007") (.cancel rfl htarget (by decide +kernel))
      Shop.paidRace
    obtain ⟨c, o, hmeans, -, hcall, -, hgets⟩ := htaken (by decide +kernel)
    have hrace : (Intake.cancel "00000000-0000-0000-0000-000000000007").Means (.cancel Floor.raceOrder) :=
      .cancel (by decide +kernel)
    obtain rfl := Except.ok.inj (hmeans.command.symm.trans hrace.command)
    have hpaid : (Shop.paidRace.carryOut (.cancel Floor.raceOrder)).call =
        .failed (.alreadyPaid Floor.raceOrder) := rfl
    rw [hpaid] at hcall
    cases hcall
    exact hgets _
  · obtain ⟨-, -, hrespelled⟩ := http_refines_desk (.spelled "000000000000000000000000000000AF")
      (.fetch "000000000000000000000000000000AF") (hreaches _ (by simp)) Shop.paidRace
    have halike : Uuid.Alike "000000000000000000000000000000AF" "00000000-0000-0000-0000-0000000000af" :=
      ⟨_, "000000000000000000000000000000af".toList, by decide, by decide, by decide, .bare, .grouped⟩
    obtain ⟨c, -, hcapital, hsmall⟩ := hrespelled _ _ (hreaches _ (by simp)) (.fetch halike)
    exact ⟨c, hcapital, hsmall⟩

end OrderDesk
