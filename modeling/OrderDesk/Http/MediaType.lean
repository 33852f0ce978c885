/-
# Media types

Whether a `content-type` header announces JSON: type `application` and subtype `json`, in any case, or a
subtype with the suffix `+json`. Parameters may follow, but have to be well formed.
-/

namespace OrderDesk.MediaType

/-! ## Characters -/

/-- The characters that tokens of a media type consist of. -/
def isToken (c : Char) : Bool :=
  c.isAlphanum || "!#$%&'*+-.^_`|~".toList.contains c

/-- The characters that may stand between quotes. -/
def isQuotable (c : Char) : Bool :=
  32 ≤ c.toNat && c.toNat ≠ 127

/-! ## Parameters -/

/-- Where the reading of parameters stands. -/
inductive ParameterPhase
  | before
  | name
  | value
  | token
  | quoted (isEmpty : Bool)
  | after
  deriving DecidableEq

/-- What a character means for the parameters, if it may stand there. -/
def ParameterPhase.step? (phase : ParameterPhase) (c : Char) : Option ParameterPhase :=
  match phase with
  | .before => if c = ' ' then some .before else if isToken c then some .name else none
  | .name => if c = '=' then some .value else if isToken c then some .name else none
  | .value => if c = '"' then some (.quoted true) else if isToken c then some .token else none
  | .token => if c = ';' then some .before else if isToken c then some .token else none
  | .quoted isEmpty =>
      if c = '"' then (if isEmpty then some (.quoted false) else some .after)
      else if isQuotable c then some (.quoted false) else none
  | .after => if c = ';' then some .before else if c = ' ' then some .after else none

/-- Whether the parameters may end here. -/
def ParameterPhase.isComplete : ParameterPhase → Bool
  | before | value | token | after => true
  | name | quoted _ => false

/-- Whether what follows the first semicolon is a list of parameters. -/
def areParameters (cs : List Char) : Bool :=
  ((cs.foldlM ParameterPhase.step? .before).map ParameterPhase.isComplete).getD false

/-! ## The media type -/

/-- The subtype without the part from the last plus sign on, and that part without the sign. A plus sign
at the start separates nothing. -/
def splitSuffix (subtype : List Char) : List Char × Option (List Char) :=
  let suffix := (subtype.reverse.takeWhile (· ≠ '+')).reverse
  let stem := subtype.take (subtype.length - suffix.length - 1)
  if suffix.length < subtype.length ∧ stem ≠ [] then (stem, some suffix) else (subtype, none)

/-- Whether a header value announces JSON. -/
def isJson (value : String) : Bool :=
  let cs := value.toList
  let lower := cs.map Char.toLower
  let head := lower.takeWhile (· ≠ ';')
  let main := head.takeWhile (· ≠ '/')
  let subtype := head.drop (main.length + 1)
  let (stem, suffix) := splitSuffix subtype
  let parameters := cs.drop (head.length + 1)
  cs.all (fun c => c.toNat < 128) && main = "application".toList &&
    subtype ≠ [] && subtype.all isToken &&
    (stem = "json".toList || suffix = some "json".toList) && areParameters parameters

end OrderDesk.MediaType
