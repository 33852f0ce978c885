/-
# Reading typed values from JSON

Readers for the shapes that values have in JSON. A reader walks over a draft in reading order and
reports the first problem: a fault of the text, or a value of the wrong shape.

A record stands as an object of its fields or as an array of them in declared order. `Fields` describes
such a record once: the names in order, which of them may be absent, and how to build the result.
-/
import OrderDesk.Json.Draft

namespace OrderDesk

/-! ## Problems -/

/-- Why a JSON text or value is no value of a type. -/
inductive ReadError
  | wrongShape
  | fault (f : Fault)
  deriving DecidableEq

/-- Reads a value of a type from a draft. -/
abbrev Reader (α : Type) := Draft → Except ReadError α

/-- The problem of a draft that has not the shape asked for. -/
def Draft.mismatch : Draft → ReadError
  | .flawed f => .fault f.read
  | .missing f => .fault f
  | _ => .wrongShape

/-- The problem of the place after the last part of an array or object, for a reader of all its parts. -/
def Ending.check : Ending → Except ReadError Unit
  | .closed => .ok ()
  | .unclosed f => .error (.fault f)
  | .dangling f => .error (.fault f)

/-- The problem of the place after the last expected part, where a comma is one too many. -/
def Ending.checkLast : Ending → Except ReadError Unit
  | .closed => .ok ()
  | .unclosed f => .error (.fault f)
  | .dangling _ => .error (.fault .malformed)

/-- Passes over a value. -/
def Draft.pass (d : Draft) : Except ReadError Unit :=
  d.skip.mapError .fault

namespace Reader

/-! ## Simple shapes -/

/-- A text. -/
def string : Reader String
  | .scalar (.string s) => .ok s
  | d => .error d.mismatch

/-- A whole number from `low` to `high`, in whole notation. -/
def integer (low high : Int) : Reader Int
  | .scalar (.number (.int i)) => if low ≤ i ∧ i ≤ high then .ok i else .error .wrongShape
  | d => .error d.mismatch

/-- A floating-point number in any notation. -/
def double : Reader Double
  | .scalar (.number (.int i)) => .ok (Double.ofInt i)
  | .scalar (.number (.double x)) => .ok x
  | d => .error d.mismatch

/-- A text that a further rule reads. -/
def parsed {α : Type} (parse : String → Option α) : Reader α := fun d =>
  (string d).bind fun s =>
    match parse s with
    | some a => .ok a
    | none => .error .wrongShape

/-- A value or `null`. -/
def option {α : Type} (read : Reader α) : Reader (Option α)
  | .scalar .null => .ok none
  | .flawed f => if f.kind = .null then .error (.fault f.read) else (read (.flawed f)).map some
  | d => (read d).map some

/-! ## Lists and maps -/

/-- The items of an array, in order. -/
def items {α : Type} (read : Reader α) (ending : Ending) : List Draft → Except ReadError (List α)
  | [] => ending.check.map fun _ => []
  | d :: rest => do return (← read d) :: (← items read ending rest)

/-- An array of values of one type. -/
def list {α : Type} (read : Reader α) : Reader (List α)
  | .array ds ending => items read ending ds
  | d => .error d.mismatch

/-- The members of an object, in order. -/
def members {α : Type} (read : Reader α) (ending : Ending) :
    List (DraftName × Draft) → Except ReadError (List (String × α))
  | [] => ending.check.map fun _ => []
  | (.ok name, d) :: rest => do return (name, ← read d) :: (← members read ending rest)
  | (.error flaw, _) :: _ => .error (.fault flaw.read)

/-- An object whose members have any names and values of one type. -/
def map {α : Type} (read : Reader α) : Reader (List (String × α))
  | .object ms ending => members read ending ms
  | d => .error d.mismatch

/-! ## Names -/

/-- The value that goes with a name. -/
def named {α : Type} (names : List (String × α)) (name : String) : Except ReadError α :=
  match names.lookup name with
  | some a => .ok a
  | none => .error .wrongShape

/-- One of several names, as a text or as the only member of an object whose value is `null`. -/
def choice {α : Type} (names : List (String × α)) : Reader α
  | .scalar (.string s) => named names s
  | .flawed f => .error (.fault (if f.kind = .string then f.read else .malformed))
  | .missing f => .error (.fault f)
  | .object [] (.unclosed f) => .error (.fault f)
  | .object ((.error flaw, _) :: _) _ => .error (.fault flaw.read)
  | .object ((.ok name, d) :: rest) ending => do
      let a ← named names name
      match d with
      | .scalar .null => pure ()
      | other => throw other.mismatch
      if rest.isEmpty then ending.checkLast else throw (.fault .malformed)
      return a
  | _ => .error (.fault .malformed)

end Reader

/-! ## Records -/

/-- A field of a record: its name, the check of its value, and whether it may be absent from an object
and from the end of an array. -/
structure Slot where
  name : String
  check : Draft → Except ReadError Unit
  optional : Bool
  droppable : Bool

/-- The description of a record: its fields in declared order, and how to build it from their drafts. -/
structure Fields (α : Type) where
  slots : List Slot
  build : (String → Option Draft) → Except ReadError α

namespace Fields

variable {α β : Type}

/-- A record without fields. -/
def pure (a : α) : Fields α :=
  ⟨[], fun _ => .ok a⟩

/-- The fields of two descriptions, one after the other. -/
def seq (f : Fields (α → β)) (x : Fields α) : Fields β :=
  ⟨f.slots ++ x.slots, fun find => (f.build find).bind fun g => (x.build find).map g⟩

instance : Applicative Fields where
  pure := pure
  seq f x := seq f (x ())

/-- A field that has to be present. -/
def required (name : String) (read : Reader α) : Fields α :=
  ⟨[⟨name, fun d => (read d).map fun _ => (), false, false⟩], fun find =>
    match find name with
    | some d => read d
    | none => .error .wrongShape⟩

/-- A field that may be absent from an object or `null`. -/
def optional (name : String) (read : Reader α) : Fields (Option α) :=
  ⟨[⟨name, fun d => (Reader.option read d).map fun _ => (), true, false⟩], fun find =>
    match find name with
    | some d => Reader.option read d
    | none => .ok none⟩

/-- A field that has a value of its own when it is absent. -/
def withDefault (name : String) (read : Reader α) (a : α) : Fields α :=
  ⟨[⟨name, fun d => (read d).map fun _ => (), true, true⟩], fun find =>
    match find name with
    | some d => read d
    | none => .ok a⟩

/-! ## Walking over a record -/

/-- Walks over the members of an object after those already found. A field may stand once; a member of
another name is passed over. -/
def walkMembers (slots : List Slot) (ending : Ending) :
    List (DraftName × Draft) → List (String × Draft) → Except ReadError (List (String × Draft))
  | [], found => ending.check.map fun _ => found
  | (.error flaw, _) :: _, _ => .error (.fault flaw.read)
  | (.ok name, d) :: rest, found =>
      match slots.find? (·.name = name) with
      | none => do d.pass; walkMembers slots ending rest found
      | some slot =>
          if found.any (·.1 = name) then .error .wrongShape
          else do slot.check d; walkMembers slots ending rest (found ++ [(name, d)])

/-- Walks over the items of an array, one for each field in order. -/
def walkItems (ending : Ending) :
    List Slot → List Draft → Except ReadError (List (String × Draft))
  | [], [] => ending.checkLast.map fun _ => []
  | [], _ :: _ => .error (.fault .malformed)
  | slot :: slots, [] =>
      match ending with
      | .closed => if slot.droppable then walkItems ending slots [] else .error .wrongShape
      | _ => ending.check.map fun _ => []
  | slot :: slots, d :: ds => do
      slot.check d
      return (slot.name, d) :: (← walkItems ending slots ds)

/-- Reads a record that stands as an object or as an array. -/
def read (fields : Fields α) : Reader α
  | .object members ending => do
      let found ← walkMembers fields.slots ending members []
      fields.build fun name => found.lookup name
  | .array items ending => do
      let found ← walkItems ending fields.slots items
      fields.build fun name => found.lookup name
  | d => .error d.mismatch

end Fields

/-! ## Whole texts and values -/

/-- Reads a value that makes up a whole text. -/
def Reader.ofText {α : Type} (read : Reader α) (s : String) : Except ReadError α := do
  let draft := Draft.ofText s
  let a ← read draft.value
  if draft.trailing then throw (.fault .malformed) else return a

/-- Reads a JSON value, in which every problem is one of shape. -/
def Reader.ofJson {α : Type} (read : Reader α) (v : Json) : Except ReadError α :=
  (read v.toDraft).mapError fun _ => .wrongShape

end OrderDesk
