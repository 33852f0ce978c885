/-
# Texts inside JSON

A spelling of a text ends where it ends: none is the beginning of another, and none begins with a quote.
So what stands between quotes says one text only, and the quote after it is the first one that is no part
of it, whatever follows. A string that makes up a whole text is read as what it says.

* `Json.Spells.unique` : no spelling is the beginning of another;
* `Json.literal_unique` : the text and its end are found in one way;
* `Json.Opens` : a text that begins as an object whose first member is a string;
* `Json.opens_iff` : the text of an object with one such member begins as nothing else;
* `Json.parse?_texts` : an object whose members are texts is read as it was written;
* `Json.Says` , `Json.ofText_of_said` : a text that is a string.
-/
import OrderDesk.Proofs.Json.Text

namespace OrderDesk.Json

theorem FourHex.split {digits others vs ws : List Char} {m n : Nat} (hm : FourHex digits m)
    (hn : FourHex others n) (h : digits ++ vs = others ++ ws) : m = n ∧ vs = ws := by
  obtain ⟨hsame, hrest⟩ := List.append_inj h (hm.length.trans hn.length.symm)
  exact ⟨by rw [← hm.number, ← hn.number, hsame], hrest⟩

/-- What stands after a backslash stands for one character, and ends in one way. -/
theorem Escape.unique {c d : Char} {xs ys vs ws : List Char} (hc : Escape c xs) (hd : Escape d ys)
    (h : xs ++ vs = ys ++ ws) : c = d ∧ vs = ws := by
  cases hc with
  | letter he =>
      cases hd with
      | letter he' =>
          obtain ⟨hsame, hrest⟩ := List.cons.inj h
          rw [hsame, he'] at he
          exact ⟨(Option.some.inj he).symm, hrest⟩
      | unit => exact absurd (List.cons.inj h).1 (ne_u_of_unescape? he)
      | pair => exact absurd (List.cons.inj h).1 (ne_u_of_unescape? he)
  | unit hdigits =>
      cases hd with
      | letter he => exact absurd (List.cons.inj h).1.symm (ne_u_of_unescape? he)
      | unit hdigits' =>
          obtain ⟨hnumber, hrest⟩ := hdigits.split hdigits' (List.cons.inj h).2
          exact ⟨Char.toNat_inj.1 hnumber, hrest⟩
      | pair hhigh _ hfrom hto _ _ _ =>
          -- the first number of a pair is no number of a character
          simp only [List.cons_append, List.append_assoc] at h
          obtain ⟨hnumber, -⟩ := hdigits.split hhigh (List.cons.inj h).2
          have hc := not_surrogate c
          omega
  | pair hhigh hlow hfrom hto _ _ hnumber =>
      simp only [List.cons_append, List.append_assoc] at h
      cases hd with
      | letter he => exact absurd (List.cons.inj h).1.symm (ne_u_of_unescape? he)
      | unit hdigits =>
          obtain ⟨hsame, -⟩ := hhigh.split hdigits (List.cons.inj h).2
          have hd := not_surrogate d
          omega
      | pair hhigh' hlow' _ _ _ _ hnumber' =>
          simp only [List.cons_append, List.append_assoc] at h
          obtain ⟨hsame, hrest⟩ := hhigh.split hhigh' (List.cons.inj h).2
          obtain ⟨hsame', hrest'⟩ := hlow.split hlow' (List.cons.inj (List.cons.inj hrest).2).2
          exact ⟨Char.toNat_inj.1 (by rw [hnumber, hnumber', hsame, hsame']), hrest'⟩

/-- No spelling is the beginning of a spelling of another character, nor of a longer one of the same. -/
theorem Spells.unique {c d : Char} {xs ys vs ws : List Char} (hc : Spells c xs) (hd : Spells d ys)
    (h : xs ++ vs = ys ++ ws) : c = d ∧ vs = ws := by
  cases hc with
  | plain _ hslash _ =>
      cases hd with
      | plain => exact List.cons.inj h
      | escaped => exact absurd (List.cons.inj h).1 hslash
  | escaped hc =>
      cases hd with
      | plain _ hslash _ => exact absurd (List.cons.inj h).1.symm hslash
      | escaped hd => exact hc.unique hd (List.cons.inj h).2

theorem Spells.ne_quote {c : Char} {xs vs ws : List Char} (hc : Spells c xs) :
    xs ++ vs ≠ '"' :: ws := by
  intro h
  cases hc with
  | plain hquote _ _ => exact hquote (List.cons.inj h).1
  | escaped => cases (List.cons.inj h).1

/-- What stands before a quote spells one text only, and the quote is found in one way. -/
theorem literal_unique {text text' inside inside' rest rest' : List Char} (h : Literal text inside)
    (h' : Literal text' inside') (heq : inside ++ '"' :: rest = inside' ++ '"' :: rest') :
    text = text' ∧ rest = rest' := by
  induction h generalizing text' inside' with
  | nil =>
      cases h' with
      | nil => exact ⟨rfl, (List.cons.inj heq).2⟩
      | cons hd _ =>
          rw [List.append_assoc] at heq
          exact absurd heq.symm hd.ne_quote
  | cons hc _ ih =>
      rw [List.append_assoc] at heq
      cases h' with
      | nil => exact absurd heq hc.ne_quote
      | cons hd hrest =>
          rw [List.append_assoc] at heq
          obtain ⟨rfl, hmore⟩ := hc.unique hd heq
          obtain ⟨rfl, hend⟩ := ih hrest hmore
          exact ⟨rfl, hend⟩

/-! ## Objects of texts -/

/-- A text begins with a character, maybe after blanks, and goes on after it. -/
def Begins (c : Char) (cs rest : List Char) : Prop :=
  ∃ blanks, (∀ b ∈ blanks, Scanner.isBlank b = true) ∧ cs = blanks ++ c :: rest

/-- A text begins with a string that says something, maybe after blanks, and goes on after it. -/
def BeginsText (content : String) (cs rest : List Char) : Prop :=
  ∃ inside, Literal content.toList inside ∧ Begins '"' cs (inside ++ '"' :: rest)

/-- A text begins as an object whose first member is a string, and goes on after that. -/
def Opens (name content : String) (cs rest : List Char) : Prop :=
  ∃ afterBrace afterName afterColon, Begins '{' cs afterBrace ∧
    BeginsText name afterBrace afterName ∧ Begins ':' afterName afterColon ∧
    BeginsText content afterColon rest

theorem begins_cons_iff {c : Char} (hc : Scanner.isBlank c = false) {cs rest : List Char} :
    Begins c (c :: cs) rest ↔ rest = cs := by
  constructor
  · rintro ⟨blanks, hblank, heq⟩
    cases blanks with
    | nil => exact (List.cons.inj heq).2.symm
    | cons b blanks =>
        have hb := hblank b List.mem_cons_self
        rw [← (List.cons.inj heq).1, hc] at hb
        cases hb
  · rintro rfl
    exact ⟨[], by simp, rfl⟩

/-- What is written for a text is a string that says this text and nothing else, whatever follows. -/
theorem beginsText_quoted_iff {s content : String} {cs rest : List Char} :
    BeginsText content (quoted s ++ cs) rest ↔ content = s ∧ rest = cs := by
  have hquoted : quoted s ++ cs = '"' :: (s.toList.flatMap escape ++ '"' :: cs) := by
    simp [quoted]
  rw [hquoted]
  constructor
  · rintro ⟨inside, hinside, hbegins⟩
    rw [begins_cons_iff (by decide)] at hbegins
    obtain ⟨hcontent, hrest⟩ := literal_unique hinside (literal_escape s.toList) hbegins
    exact ⟨String.toList_inj.1 hcontent, hrest⟩
  · rintro ⟨rfl, rfl⟩
    exact ⟨_, literal_escape _, (begins_cons_iff (by decide)).2 rfl⟩

/-- What is written for an object with one member, which is a text, begins as such an object in one way
only, and is at its end after that member. -/
theorem opens_iff {name message name' content : String} {rest : List Char} :
    Opens name' content (chars (.object [(name, .string message)])) rest ↔
      name' = name ∧ content = message ∧ rest = ['}'] := by
  have hchars : chars (.object [(name, .string message)]) =
      '{' :: (quoted name ++ ':' :: (quoted message ++ ['}'])) := by
    simp [chars, memberChars, scalarChars]
  rw [hchars]
  constructor
  · rintro ⟨afterBrace, afterName, afterColon, hbrace, hname, hcolon, hcontent⟩
    obtain rfl := (begins_cons_iff (by decide)).1 hbrace
    obtain ⟨hsame, rfl⟩ := beginsText_quoted_iff.1 hname
    obtain rfl := (begins_cons_iff (by decide)).1 hcolon
    exact ⟨hsame, beginsText_quoted_iff.1 hcontent⟩
  · rintro ⟨rfl, rfl, rfl⟩
    exact ⟨_, _, _, (begins_cons_iff (by decide)).2 rfl, beginsText_quoted_iff.2 ⟨rfl, rfl⟩,
      (begins_cons_iff (by decide)).2 rfl, beginsText_quoted_iff.2 ⟨rfl, rfl⟩⟩

/-- The members of an object whose members are texts. -/
def textMembers (texts : List (String × String)) : List (String × Json) :=
  texts.map fun m => (m.1, .string m.2)

theorem draft_string (s : String) : draft (.string s) = .scalar (.string s) := by
  have hexact : Exact (.string s) := trivial
  rw [draft, scalarToken_of_exact hexact]
  rfl

/-- Members of different names are read as they stand, one after the other. -/
theorem valueMembers?_texts (texts : List (String × String)) (found : List (String × Json))
    (h : (found.map Prod.fst ++ texts.map Prod.fst).Nodup) :
    Draft.valueMembers? (memberDrafts (textMembers texts)) found = some (found ++ textMembers texts) := by
  induction texts generalizing found with
  | nil => simp [textMembers, memberDrafts, Draft.valueMembers?]
  | cons m rest ih =>
      have hnew : insertMember found m.1 (.string m.2) = found ++ [(m.1, .string m.2)] := by
        refine if_neg fun hany => ?_
        obtain ⟨other, hother, hname⟩ := List.any_eq_true.1 hany
        refine (List.nodup_append.1 h).2.2 m.1 ?_ m.1 List.mem_cons_self rfl
        exact of_decide_eq_true hname ▸ List.mem_map_of_mem hother
      have hrest : ((found ++ [(m.1, Json.string m.2)]).map Prod.fst ++ rest.map Prod.fst).Nodup := by
        simpa using h
      have hdraft : memberDrafts (textMembers (m :: rest)) =
          (.ok m.1, .scalar (.string m.2)) :: memberDrafts (textMembers rest) := by
        rw [textMembers, List.map_cons, memberDrafts, draft_string, textMembers]
      rw [hdraft, Draft.valueMembers?, Draft.toJson?]
      simp only [Option.bind_eq_bind, Option.bind_some, hnew]
      rw [ih _ hrest, List.append_assoc]
      rfl

/-- An object whose members are texts of different names is read as it was written. -/
theorem parse?_texts (texts : List (String × String)) (h : (texts.map Prod.fst).Nodup) :
    parse? (text (.object (textMembers texts))) = some (.object (textMembers texts)) := by
  have hmembers := valueMembers?_texts texts [] (by simpa using h)
  rw [parse?, Draft.ofText_text]
  simp [draft, Draft.toJson?, hmembers]

/-! ## Strings as whole texts -/

/-- A text is a string that says something, maybe between blanks. -/
def Says (content text : String) : Prop :=
  ∃ rest, BeginsText content text.toList rest ∧ ∀ b ∈ rest, Scanner.isBlank b = true

/-- What is written for a text is a string that says it. -/
theorem says_text (s : String) : Says s (text (.string s)) := by
  have hchars : (text (.string s)).toList = quoted s ++ [] := by
    rw [text, String.toList_ofList, chars, scalarChars, List.append_nil]
  refine ⟨[], ?_, by simp⟩
  rw [hchars]
  exact beginsText_quoted_iff.2 ⟨rfl, rfl⟩

/-- Between tokens blanks are passed over. -/
theorem foldl_blanks {blanks : List Char} (h : ∀ b ∈ blanks, Scanner.isBlank b = true)
    (ts : List Token) : blanks.foldl Scanner.step ⟨ts, .between⟩ = ⟨ts, .between⟩ := by
  induction blanks with
  | nil => rfl
  | cons b rest ih =>
      have hb : Scanner.step ⟨ts, .between⟩ b = ⟨ts, .between⟩ := if_pos (h b List.mem_cons_self)
      rw [List.foldl_cons, hb]
      exact ih fun c hc => h c (List.mem_cons_of_mem b hc)

/-- A string is read as what it says, however it is spelled. -/
theorem ofText_of_said {content text : String} (h : Says content text) :
    Draft.ofText text = ⟨.scalar (.string content), false⟩ := by
  obtain ⟨rest, ⟨inside, hinside, blanks, hblanks, htext⟩, hrest⟩ := h
  have hopen : Scanner.step ⟨[], .between⟩ '"' = ⟨[], .string ⟨.plain, [], none, false⟩⟩ := rfl
  have hclose : Scanner.step ⟨[], .string ⟨.plain, content.toList.reverse ++ [], none, false⟩⟩ '"' =
      ⟨[.scalar (.string content)], .between⟩ := by
    simp [Scanner.step, StringScan.step, Scanner.emit, StringScan.token]
  have hscan : Token.scan text.toList = [.scalar (.string content)] := by
    rw [Token.scan, Scanner.start, htext, List.foldl_append, foldl_blanks hblanks, List.foldl_cons, hopen,
      List.foldl_append, Scanner.foldl_literal hinside, List.foldl_cons, hclose, foldl_blanks hrest]
    rfl
  rw [Draft.ofText, hscan]
  rfl

end OrderDesk.Json
