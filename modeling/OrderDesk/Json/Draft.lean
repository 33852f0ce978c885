/-
# Drafts of JSON values

What a text says up to the first place where it stops being JSON, as a tree. A draft keeps the faults
where a reader meets them, so that one reader can serve complete and broken texts alike and report the
problem that comes first.

* `Draft.ofTokens` : the draft of a text, and whether anything follows its value;
* `Json.toDraft` : the draft without faults of a value;
* `Draft.toJson?` : the value of a draft without faults.
-/
import OrderDesk.Json.Token

namespace OrderDesk

/-! ## Drafts -/

/-- How the items of an array or the members of an object end. -/
inductive Ending
  /-- with the closing bracket -/
  | closed
  /-- neither a further part nor the closing bracket follows -/
  | unclosed (f : Fault)
  /-- nothing readable follows a comma -/
  | dangling (f : Fault)
  deriving DecidableEq

/-- The name of a member as it could be read. -/
abbrev DraftName := Except Flaw String

/-- A JSON value as far as its text can be read. -/
inductive Draft
  | scalar (s : Scalar)
  | flawed (f : Flaw)
  | missing (f : Fault)
  | array (items : List Draft) (ending : Ending)
  | object (members : List (DraftName × Draft)) (ending : Ending)

namespace Draft

/-! ## Passing over a value -/

/-- The fault of an ending for a reader that passes over the value. -/
def endingFault : Ending → Except Fault Unit
  | .closed => .ok ()
  | .unclosed f => .error f
  | .dangling f => .error f

/-- The fault of a name for a reader that passes over it. -/
def skipName : DraftName → Except Fault Unit
  | .ok _ => .ok ()
  | .error flaw => match flaw.skip with
      | none => .ok ()
      | some f => .error f

mutual

/-- Passes over a value; its grammar is all that matters. -/
def skip : Draft → Except Fault Unit
  | scalar _ => .ok ()
  | flawed f => skipName (.error f)
  | missing f => .error f
  | array items ending => do skipItems items; endingFault ending
  | object members ending => do skipMembers members; endingFault ending

/-- Passes over the items of an array. -/
def skipItems : List Draft → Except Fault Unit
  | [] => .ok ()
  | d :: rest => do skip d; skipItems rest

/-- Passes over the members of an object. -/
def skipMembers : List (DraftName × Draft) → Except Fault Unit
  | [] => .ok ()
  | (name, d) :: rest => do skipName name; skip d; skipMembers rest

end

/-! ## Taking in a value of any shape -/

/-- The largest number of arrays and objects that may be open at once. -/
def maxDepth : Nat := 127

mutual

/-- Takes in a whole value of any shape, inside so many open arrays and objects. -/
def whole (depth : Nat) : Draft → Except Fault Unit
  | scalar _ => .ok ()
  | flawed f => .error f.read
  | missing f => .error f
  | array items ending =>
      if maxDepth ≤ depth then .error .malformed
      else do wholeItems (depth + 1) items; endingFault ending
  | object members ending =>
      if maxDepth ≤ depth then .error .malformed
      else do wholeMembers (depth + 1) members; endingFault ending

/-- Takes in the items of an array. -/
def wholeItems (depth : Nat) : List Draft → Except Fault Unit
  | [] => .ok ()
  | d :: rest => do whole depth d; wholeItems depth rest

/-- Takes in the members of an object. -/
def wholeMembers (depth : Nat) : List (DraftName × Draft) → Except Fault Unit
  | [] => .ok ()
  | (.ok _, d) :: rest => do whole depth d; wholeMembers depth rest
  | (.error flaw, _) :: _ => .error flaw.read

end

end Draft

/-! ## From values and back -/

mutual

/-- A value as a draft without faults. -/
def Json.toDraft : Json → Draft
  | .scalar s => .scalar s
  | .array items => .array (draftItems items) .closed
  | .object members => .object (draftMembers members) .closed

/-- The drafts of the items of an array. -/
def Json.draftItems : List Json → List Draft
  | [] => []
  | v :: rest => v.toDraft :: draftItems rest

/-- The drafts of the members of an object. -/
def Json.draftMembers : List (String × Json) → List (DraftName × Draft)
  | [] => []
  | (name, v) :: rest => (.ok name, v.toDraft) :: draftMembers rest

end

mutual

/-- The value of a draft without faults; the last of several members of one name counts. -/
def Draft.toJson? : Draft → Option Json
  | .scalar s => some (.scalar s)
  | .array items .closed => do return .array (← valueItems? items)
  | .object members .closed => do return .object (← valueMembers? members [])
  | _ => none

/-- The values of the items of an array. -/
def Draft.valueItems? : List Draft → Option (List Json)
  | [] => some []
  | d :: rest => do return (← d.toJson?) :: (← valueItems? rest)

/-- The values of the members of an object, after those already read. -/
def Draft.valueMembers? : List (DraftName × Draft) → List (String × Json) → Option (List (String × Json))
  | [], found => some found
  | (.ok name, d) :: rest, found => do
      valueMembers? rest (Json.insertMember found name (← d.toJson?))
  | (.error _, _) :: _, _ => none

end

/-! ## Building a draft from tokens -/

/-- An array or object that is still open, its parts in reverse. -/
inductive Frame
  | array (items : List Draft)
  | object (members : List (DraftName × Draft))
  | member (members : List (DraftName × Draft)) (name : DraftName)

/-- What may come next. -/
inductive Expected
  | value
  | firstItem
  | nextItem
  | firstName
  | nextName
  | colon
  | separator
  | nothing (result : Draft) (trailing : Bool)

/-- A draft in the making: the open arrays and objects, the innermost first. -/
structure Builder where
  frames : List Frame
  expected : Expected

/-- A text as far as it can be read: its value, and whether anything but white space follows it. -/
structure DraftText where
  value : Draft
  trailing : Bool

namespace Builder

/-- A builder before the first token. -/
def start : Builder := ⟨[], .value⟩

/-- Adds a complete value to the innermost open array or object. -/
def add (frames : List Frame) (d : Draft) : Builder :=
  match frames with
  | [] => ⟨[], .nothing d false⟩
  | .array items :: outer => ⟨.array (d :: items) :: outer, .separator⟩
  | .object members :: outer => ⟨.object members :: outer, .separator⟩
  | .member members name :: outer => ⟨.object ((name, d) :: members) :: outer, .separator⟩

/-- Closes the innermost open array or object with an ending and adds it to the next. -/
def close (frames : List Frame) (ending : Ending) : Builder :=
  match frames with
  | [] => start
  | .array items :: outer => add outer (.array items.reverse ending)
  | .object members :: outer => add outer (.object members.reverse ending)
  | .member members name :: outer =>
      add outer (.object ((name, .missing .malformed) :: members).reverse ending)

/-- Ends every open array and object where the text breaks off. -/
def wind (inner : Draft) (f : Fault) : List Frame → Draft
  | [] => inner
  | .array items :: outer => wind (.array (inner :: items).reverse (.unclosed f)) f outer
  | .object members :: outer => wind (.object members.reverse (.unclosed f)) f outer
  | .member members name :: outer =>
      wind (.object ((name, inner) :: members).reverse (.unclosed f)) f outer

/-- The builder after a text breaks off at a value. -/
def breakAt (frames : List Frame) (inner : Draft) (f : Fault) : Builder :=
  ⟨[], .nothing (wind inner f frames) false⟩

/-- The builder after a text breaks off between the parts of the innermost array or object. -/
def breakWith (frames : List Frame) (ending : Ending) (f : Fault) : Builder :=
  match frames with
  | [] => breakAt [] (.missing f) f
  | .array items :: outer => breakAt outer (.array items.reverse ending) f
  | .object members :: outer => breakAt outer (.object members.reverse ending) f
  | .member members name :: outer =>
      breakAt outer (.object ((name, .missing f) :: members).reverse ending) f

/-- Takes a token where a value may stand, if it begins one. -/
def value? (frames : List Frame) (t : Token) : Option Builder :=
  match t with
  | .scalar s => some (add frames (.scalar s))
  | .flawed flaw =>
      match flaw.skip with
      | none => some (add frames (.flawed flaw))
      | some f => some (breakAt frames (.flawed flaw) f)
  | .openArray => some ⟨.array [] :: frames, .firstItem⟩
  | .openObject => some ⟨.object [] :: frames, .firstName⟩
  | _ => none

/-- Opens a member of the innermost object. -/
def name (frames : List Frame) (n : DraftName) : Builder :=
  match frames with
  | .object members :: outer => ⟨.member members n :: outer, .colon⟩
  | _ => ⟨frames, .colon⟩

/-- Takes a token where the name of a member may stand, if it is one. -/
def name? (frames : List Frame) (t : Token) : Option Builder :=
  match t with
  | .scalar (.string s) => some (name frames (.ok s))
  | .flawed flaw =>
      if flaw.kind = .string then
        match flaw.skip with
        | none => some (name frames (.error flaw))
        | some f => some (breakAt (name frames (.error flaw)).frames (.missing f) f)
      else none
  | _ => none

/-- Takes the next token. -/
def step (b : Builder) (t : Token) : Builder :=
  match b.expected with
  | .value => (value? b.frames t).getD (breakAt b.frames (.missing .malformed) .malformed)
  | .firstItem =>
      if t = .closeArray then close b.frames .closed
      else (value? b.frames t).getD (breakWith b.frames (.unclosed .malformed) .malformed)
  | .nextItem => (value? b.frames t).getD (breakWith b.frames (.dangling .malformed) .malformed)
  | .firstName =>
      if t = .closeObject then close b.frames .closed
      else (name? b.frames t).getD (breakWith b.frames (.unclosed .malformed) .malformed)
  | .nextName => (name? b.frames t).getD (breakWith b.frames (.dangling .malformed) .malformed)
  | .colon =>
      if t = .colon then ⟨b.frames, .value⟩
      else breakAt b.frames (.missing .malformed) .malformed
  | .separator =>
      match b.frames, t with
      | .array _ :: _, .comma => ⟨b.frames, .nextItem⟩
      | .array _ :: _, .closeArray => close b.frames .closed
      | .object _ :: _, .comma => ⟨b.frames, .nextName⟩
      | .object _ :: _, .closeObject => close b.frames .closed
      | _, _ => breakWith b.frames (.unclosed .malformed) .malformed
  | .nothing result _ => ⟨b.frames, .nothing result true⟩

/-- What has been read when the text ends. -/
def finish (b : Builder) : DraftText :=
  let last :=
    match b.expected with
    | .value | .colon => breakAt b.frames (.missing .truncated) .truncated
    | .firstItem | .firstName | .separator => breakWith b.frames (.unclosed .truncated) .truncated
    | .nextItem | .nextName => breakWith b.frames (.dangling .truncated) .truncated
    | .nothing .. => b
  match last.expected with
  | .nothing result trailing => ⟨result, trailing⟩
  | _ => ⟨.missing .truncated, false⟩

end Builder

/-- The draft of a sequence of tokens. -/
def Draft.ofTokens (ts : List Token) : DraftText :=
  (ts.foldl Builder.step Builder.start).finish

/-- The draft of a text. -/
def Draft.ofText (s : String) : DraftText :=
  Draft.ofTokens (Token.scan s.toList)

/-- The JSON value that a whole text is. -/
def Json.parse? (s : String) : Option Json :=
  let draft := Draft.ofText s
  if draft.trailing then none else draft.value.toJson?

end OrderDesk
