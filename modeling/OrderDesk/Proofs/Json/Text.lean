/-
# Written values are read again

The text of a JSON value has no fault, and what is read from it is the value again. Only its numbers may
differ: a floating-point number is read as one nearby, and a whole number that 64 bits cannot hold
becomes floating-point, or nothing when it is beyond all of them; a reader that passes over the number
does not mind.

* `Json.tokens` : what the text of a value is cut into;
* `Json.draft` : what is read from it, each scalar on its own;
* `Json.settled_chars` : the text of a value is cut into its tokens, whatever follows;
* `Json.build_tokens` : the tokens of a value make up its draft, wherever it stands;
* `Draft.ofText_text` : both for a whole text;
* `Json.skip_draft` : what is read can be passed over.
-/
import OrderDesk.Json.Draft
import OrderDesk.Proofs.Json.Numbers
import OrderDesk.Proofs.Json.Strings

namespace OrderDesk

namespace Scanner

/-! ## Strings -/

/-- A written string is one token, of the same text. -/
theorem foldl_quoted (s : String) (ts : List Token) :
    (Json.quoted s).foldl step ⟨ts, .between⟩ = ⟨.scalar (.string s) :: ts, .between⟩ := by
  have hopen : step ⟨ts, .between⟩ '"' = ⟨ts, .string ⟨.plain, [], none, false⟩⟩ := rfl
  rw [Json.quoted, List.foldl_cons, hopen, List.foldl_append, foldl_literal (Json.literal_escape _)]
  simp [step, StringScan.step, emit, StringScan.token]

/-- A written name and the colon after it are two tokens. -/
theorem foldl_name (name : String) (cs : List Char) (ts : List Token) :
    (Json.quoted name ++ ':' :: cs).foldl step ⟨ts, .between⟩ =
      cs.foldl step ⟨.colon :: .scalar (.string name) :: ts, .between⟩ := by
  rw [List.foldl_append, foldl_quoted]
  rfl

/-! ## Places after a value -/

/-- A scanner after a value: between tokens, or in a number that may end there and counts as read. -/
def Settled (s : Scanner) (ts : List Token) : Prop :=
  s = ⟨ts, .between⟩ ∨
    ∃ phase n rest, phase.isComplete = true ∧ s = ⟨rest, .number phase n⟩ ∧ ts = n.token :: rest

theorem settled_between (ts : List Token) : Settled ⟨ts, .between⟩ ts :=
  Or.inl rfl

theorem Settled.finish {s : Scanner} {ts : List Token} (h : s.Settled ts) :
    s.finish = ⟨ts, .between⟩ := by
  rcases h with rfl | ⟨phase, n, rest, hphase, rfl, rfl⟩
  · rfl
  · simp [Scanner.finish, hphase, emit]

/-- The characters that may follow a value end a number. -/
theorem Settled.step {s : Scanner} {ts : List Token} (h : s.Settled ts) {c : Char}
    (hc : c = ',' ∨ c = ']' ∨ c = '}') : s.step c = begin ⟨ts, .between⟩ c := by
  rcases h with rfl | ⟨phase, n, rest, hphase, rfl, rfl⟩
  · rfl
  · have hended : phase.step c = .ended := by
      rcases hc with rfl | rfl | rfl <;> cases phase <;> first | rfl | cases hphase
    simp only [Scanner.step, hended]
    rfl

theorem Settled.comma {s : Scanner} {ts : List Token} (h : s.Settled ts) :
    s.step ',' = ⟨.comma :: ts, .between⟩ :=
  h.step (Or.inl rfl)

theorem Settled.closeArray {s : Scanner} {ts : List Token} (h : s.Settled ts) :
    s.step ']' = ⟨.closeArray :: ts, .between⟩ :=
  h.step (Or.inr (Or.inl rfl))

theorem Settled.closeObject {s : Scanner} {ts : List Token} (h : s.Settled ts) :
    s.step '}' = ⟨.closeObject :: ts, .between⟩ :=
  h.step (Or.inr (Or.inr rfl))

theorem Numbers.settled {cs : List Char} {phase : NumeralPhase} {n : Numeral}
    (h : Numbers cs phase n) (hphase : phase.isComplete = true) (ts : List Token) :
    (cs.foldl Scanner.step ⟨ts, .between⟩).Settled (n.token :: ts) :=
  Or.inr ⟨phase, n, ts, hphase, h ts, rfl⟩

end Scanner

/-! ## Scalars -/

namespace Json

/-- What a written scalar is read as. -/
def scalarToken (s : Scalar) : Token :=
  (Token.scan (scalarChars s)).headD .stray

theorem scalarToken_of_settled {s : Scalar} {t : Token}
    (h : ∀ ts, ((scalarChars s).foldl Scanner.step ⟨ts, .between⟩).Settled (t :: ts)) :
    scalarToken s = t := by
  have hstart := (h []).finish
  simp only [scalarToken, Token.scan, Scanner.start, hstart]
  rfl

end Json

/-- What a token says where a value may stand. -/
def Token.draft : Token → Draft
  | .scalar s => .scalar s
  | .flawed f => .flawed f
  | _ => .missing .malformed

/-- A token that is a value by itself, for a reader that wants it or passes over it. -/
def Token.IsScalar (t : Token) : Prop :=
  (∃ s, t = .scalar s) ∨ ∃ kind f, t = .flawed ⟨kind, f, none⟩

theorem Numeral.isScalar_token (n : Numeral) : n.token.IsScalar := by
  unfold token
  split
  · exact Or.inl ⟨_, rfl⟩
  · exact Or.inr ⟨_, _, rfl⟩

namespace Json

/-- A written scalar is one token. -/
theorem exists_settled_scalar (s : Scalar) :
    ∃ t : Token, t.IsScalar ∧
      ∀ ts, ((scalarChars s).foldl Scanner.step ⟨ts, .between⟩).Settled (t :: ts) := by
  cases s with
  | null => exact ⟨.scalar .null, Or.inl ⟨_, rfl⟩, fun _ => Or.inl rfl⟩
  | bool b => cases b <;> exact ⟨.scalar (.bool _), Or.inl ⟨_, rfl⟩, fun _ => Or.inl rfl⟩
  | string s => exact ⟨.scalar (.string s), Or.inl ⟨_, rfl⟩, fun ts => Or.inl (Scanner.foldl_quoted s ts)⟩
  | number n =>
      cases n with
      | int i =>
          obtain ⟨phase, hphase, hnumber⟩ := Scanner.numbers_integer i
          exact ⟨_, Numeral.isScalar_token _, fun ts => hnumber.settled hphase ts⟩
      | double x =>
          obtain ⟨phase, m, hphase, hnumber⟩ := Scanner.exists_numbers_text x
          exact ⟨_, m.isScalar_token, fun ts => hnumber.settled hphase ts⟩

theorem settled_scalar (s : Scalar) (ts : List Token) :
    ((scalarChars s).foldl Scanner.step ⟨ts, .between⟩).Settled (scalarToken s :: ts) := by
  obtain ⟨t, -, ht⟩ := exists_settled_scalar s
  rw [scalarToken_of_settled ht]
  exact ht ts

theorem isScalar_scalarToken (s : Scalar) : (scalarToken s).IsScalar := by
  obtain ⟨t, hscalar, ht⟩ := exists_settled_scalar s
  rw [scalarToken_of_settled ht]
  exact hscalar

/-- The scalars that are read as themselves: all but numbers, and whole numbers of 64 bits. -/
def Exact : Scalar → Prop
  | .number (.int i) => -2 ^ 63 ≤ i ∧ i < 2 ^ 64
  | .number (.double _) => False
  | _ => True

theorem scalarToken_of_exact {s : Scalar} (h : Exact s) : scalarToken s = .scalar s := by
  apply scalarToken_of_settled
  cases s with
  | null => exact fun _ => Or.inl rfl
  | bool b => cases b <;> exact fun _ => Or.inl rfl
  | string s => exact fun ts => Or.inl (Scanner.foldl_quoted s ts)
  | number n =>
      cases n with
      | int i =>
          obtain ⟨phase, hphase, hnumber⟩ := Scanner.numbers_integer i
          intro ts
          have hsettled := hnumber.settled hphase ts
          simp only [Numeral.token, Numeral.value?_integer h.1 h.2] at hsettled
          exact hsettled
      | double x => exact h.elim

/-! ## Tokens and drafts -/

mutual

/-- What the text of a value is cut into. -/
def tokens : Json → List Token
  | scalar s => [scalarToken s]
  | array items => .openArray :: (itemTokens items ++ [.closeArray])
  | object members => .openObject :: (memberTokens members ++ [.closeObject])

/-- What the items of an array are cut into. -/
def itemTokens : List Json → List Token
  | [] => []
  | [v] => tokens v
  | v :: rest => tokens v ++ .comma :: itemTokens rest

/-- What the members of an object are cut into. -/
def memberTokens : List (String × Json) → List Token
  | [] => []
  | [(name, v)] => .scalar (.string name) :: .colon :: tokens v
  | (name, v) :: rest => .scalar (.string name) :: .colon :: (tokens v ++ .comma :: memberTokens rest)

end

mutual

/-- What is read from the text of a value. -/
def draft : Json → Draft
  | scalar s => (scalarToken s).draft
  | array items => .array (itemDrafts items) .closed
  | object members => .object (memberDrafts members) .closed

/-- What is read from the items of an array. -/
def itemDrafts : List Json → List Draft
  | [] => []
  | v :: rest => draft v :: itemDrafts rest

/-- What is read from the members of an object. -/
def memberDrafts : List (String × Json) → List (DraftName × Draft)
  | [] => []
  | (name, v) :: rest => (.ok name, draft v) :: memberDrafts rest

end

mutual

/-- The text of a value is cut into its tokens. -/
theorem settled_chars : (v : Json) → (ts : List Token) →
    ((chars v).foldl Scanner.step ⟨ts, .between⟩).Settled ((tokens v).reverse ++ ts)
  | .scalar s, ts => settled_scalar s ts
  | .array items, ts => by
      have hitems := settled_itemChars items (.openArray :: ts)
      have hopen : Scanner.step ⟨ts, .between⟩ '[' = ⟨.openArray :: ts, .between⟩ := rfl
      rw [chars, List.foldl_cons, hopen, List.foldl_append, List.foldl_cons, List.foldl_nil,
        hitems.closeArray, tokens]
      simpa using Scanner.settled_between _
  | .object members, ts => by
      have hmembers := settled_memberChars members (.openObject :: ts)
      have hopen : Scanner.step ⟨ts, .between⟩ '{' = ⟨.openObject :: ts, .between⟩ := rfl
      rw [chars, List.foldl_cons, hopen, List.foldl_append, List.foldl_cons, List.foldl_nil,
        hmembers.closeObject, tokens]
      simpa using Scanner.settled_between _

theorem settled_itemChars : (items : List Json) → (ts : List Token) →
    ((itemChars items).foldl Scanner.step ⟨ts, .between⟩).Settled ((itemTokens items).reverse ++ ts)
  | [], ts => Scanner.settled_between ts
  | [v], ts => settled_chars v ts
  | v :: w :: rest, ts => by
      have hv := settled_chars v ts
      have hrest := settled_itemChars (w :: rest) (.comma :: ((tokens v).reverse ++ ts))
      rw [itemChars, List.foldl_append, List.foldl_cons, hv.comma, itemTokens]
      · simpa using hrest
      · exact List.cons_ne_nil _ _
      · exact List.cons_ne_nil _ _

theorem settled_memberChars : (members : List (String × Json)) → (ts : List Token) →
    ((memberChars members).foldl Scanner.step ⟨ts, .between⟩).Settled
      ((memberTokens members).reverse ++ ts)
  | [], ts => Scanner.settled_between ts
  | [(name, v)], ts => by
      have hv := settled_chars v (.colon :: .scalar (.string name) :: ts)
      rw [memberChars, Scanner.foldl_name, memberTokens]
      simpa using hv
  | (name, v) :: m :: rest, ts => by
      have hv := settled_chars v (.colon :: .scalar (.string name) :: ts)
      have hrest := settled_memberChars (m :: rest)
        (.comma :: ((tokens v).reverse ++ .colon :: .scalar (.string name) :: ts))
      rw [memberChars, List.foldl_append, Scanner.foldl_name, List.foldl_cons, hv.comma, memberTokens]
      · simpa using hrest
      · exact List.cons_ne_nil _ _
      · exact List.cons_ne_nil _ _

end

end Json

/-! ## Building -/

namespace Builder

/-- The places where a value may begin. -/
inductive ForValue : Expected → Prop
  | value : ForValue .value
  | firstItem : ForValue .firstItem
  | nextItem : ForValue .nextItem

/-- The places where the name of a member may begin. -/
inductive ForName : Expected → Prop
  | firstName : ForName .firstName
  | nextName : ForName .nextName

/-- A token that begins a value is taken alike wherever a value may begin. -/
theorem step_of_value? {frames : List Frame} {e : Expected} (he : ForValue e) {t : Token}
    (ht : t ≠ .closeArray) {b : Builder} (hb : value? frames t = some b) :
    step ⟨frames, e⟩ t = b := by
  cases he with
  | value => simp only [step, hb, Option.getD_some]
  | firstItem => simp only [step, if_neg ht, hb, Option.getD_some]
  | nextItem => simp only [step, hb, Option.getD_some]

/-- A token that is a value by itself is added to what is open. -/
theorem step_scalar {frames : List Frame} {e : Expected} (he : ForValue e) {t : Token}
    (ht : t.IsScalar) : step ⟨frames, e⟩ t = add frames t.draft := by
  rcases ht with ⟨s, rfl⟩ | ⟨kind, f, rfl⟩
  · exact step_of_value? he (by simp) rfl
  · exact step_of_value? he (by simp) rfl

theorem step_openArray {frames : List Frame} {e : Expected} (he : ForValue e) :
    step ⟨frames, e⟩ .openArray = ⟨.array [] :: frames, .firstItem⟩ :=
  step_of_value? he (by simp) rfl

theorem step_openObject {frames : List Frame} {e : Expected} (he : ForValue e) :
    step ⟨frames, e⟩ .openObject = ⟨.object [] :: frames, .firstName⟩ :=
  step_of_value? he (by simp) rfl

/-- A name and a colon open a member wherever one may begin. -/
theorem step_colon_step_name {members : List (DraftName × Draft)} {outer : List Frame} {e : Expected}
    (he : ForName e) (name : String) :
    step (step ⟨.object members :: outer, e⟩ (.scalar (.string name))) .colon =
      ⟨.member members (.ok name) :: outer, .value⟩ := by
  cases he with
  | firstName => rfl
  | nextName => rfl

end Builder

namespace Json

open Builder (ForValue ForName add)

mutual

/-- The tokens of a value make up its draft, wherever it stands. -/
theorem build_tokens : (v : Json) → {frames : List Frame} → {e : Expected} → ForValue e →
    (tokens v).foldl Builder.step ⟨frames, e⟩ = add frames (draft v)
  | .scalar s, _, _, he => Builder.step_scalar he (isScalar_scalarToken s)
  | .array [], _, _, he => by
      rw [tokens, List.foldl_cons, Builder.step_openArray he]
      rfl
  | .array (v :: rest), _, _, he => by
      rw [tokens, List.foldl_cons, Builder.step_openArray he, List.foldl_append,
        build_itemTokens (v :: rest) (List.cons_ne_nil v rest) .firstItem]
      simp [Builder.step, Builder.close, draft]
  | .object [], _, _, he => by
      rw [tokens, List.foldl_cons, Builder.step_openObject he]
      rfl
  | .object (m :: rest), _, _, he => by
      rw [tokens, List.foldl_cons, Builder.step_openObject he, List.foldl_append,
        build_memberTokens (m :: rest) (List.cons_ne_nil m rest) .firstName]
      simp [Builder.step, Builder.close, draft]

theorem build_itemTokens : (vs : List Json) → vs ≠ [] → {items : List Draft} →
    {outer : List Frame} → {e : Expected} → ForValue e →
    (itemTokens vs).foldl Builder.step ⟨.array items :: outer, e⟩ =
      ⟨.array ((itemDrafts vs).reverse ++ items) :: outer, .separator⟩
  | [], hne, _, _, _, _ => absurd rfl hne
  | [v], _, _, _, _, he => by
      rw [itemTokens, build_tokens v he]
      rfl
  | v :: w :: rest, _, items, outer, _, he => by
      have hcomma : Builder.step (add (.array items :: outer) (draft v)) .comma =
          ⟨.array (draft v :: items) :: outer, .nextItem⟩ := rfl
      rw [itemTokens, List.foldl_append, build_tokens v he, List.foldl_cons, hcomma,
        build_itemTokens (w :: rest) (List.cons_ne_nil w rest) .nextItem]
      · simp [itemDrafts]
      · exact List.cons_ne_nil _ _

theorem build_memberTokens : (ms : List (String × Json)) → ms ≠ [] →
    {members : List (DraftName × Draft)} → {outer : List Frame} → {e : Expected} → ForName e →
    (memberTokens ms).foldl Builder.step ⟨.object members :: outer, e⟩ =
      ⟨.object ((memberDrafts ms).reverse ++ members) :: outer, .separator⟩
  | [], hne, _, _, _, _ => absurd rfl hne
  | [(name, v)], _, _, _, _, he => by
      rw [memberTokens, List.foldl_cons, List.foldl_cons, Builder.step_colon_step_name he,
        build_tokens v .value]
      rfl
  | (name, v) :: m :: rest, _, members, outer, _, he => by
      have hcomma : Builder.step (add (.member members (.ok name) :: outer) (draft v)) .comma =
          ⟨.object ((.ok name, draft v) :: members) :: outer, .nextName⟩ := rfl
      rw [memberTokens, List.foldl_cons, List.foldl_cons, Builder.step_colon_step_name he,
        List.foldl_append, build_tokens v .value, List.foldl_cons, hcomma,
        build_memberTokens (m :: rest) (List.cons_ne_nil m rest) .nextName]
      · simp [memberDrafts]
      · exact List.cons_ne_nil _ _

end

/-! ## Whole texts -/

mutual

/-- What is read can be passed over. -/
theorem skip_draft : (v : Json) → (draft v).skip = .ok ()
  | .scalar s => by
      rw [draft]
      rcases isScalar_scalarToken s with ⟨t, ht⟩ | ⟨kind, f, ht⟩ <;> rw [ht] <;> rfl
  | .array items => by
      rw [draft, Draft.skip, skip_itemDrafts items]
      rfl
  | .object members => by
      rw [draft, Draft.skip, skip_memberDrafts members]
      rfl

theorem skip_itemDrafts : (items : List Json) → Draft.skipItems (itemDrafts items) = .ok ()
  | [] => rfl
  | v :: rest => by
      rw [itemDrafts, Draft.skipItems, skip_draft v, skip_itemDrafts rest]
      rfl

theorem skip_memberDrafts : (members : List (String × Json)) →
    Draft.skipMembers (memberDrafts members) = .ok ()
  | [] => rfl
  | (name, v) :: rest => by
      rw [memberDrafts, Draft.skipMembers, skip_draft v, skip_memberDrafts rest]
      rfl

end

end Json

/-- What is read from the text of a value is its draft, and nothing follows. -/
theorem Draft.ofText_text (v : Json) : ofText v.text = ⟨v.draft, false⟩ := by
  have hscan : Token.scan v.chars = v.tokens := by
    rw [Token.scan, Scanner.start, (Json.settled_chars v []).finish, List.append_nil,
      List.reverse_reverse]
  rw [ofText, Json.text, String.toList_ofList, hscan, ofTokens, Builder.start,
    Json.build_tokens v .value]
  rfl

end OrderDesk
