/-
# Settings

The settings of the service, read from named texts. A text that is missing or makes no sense leaves the
setting at its default; a deadline of zero milliseconds switches the deadline off.
-/
import OrderDesk.Text.Digits
import OrderDesk.Time.Span

namespace OrderDesk

/-! ## Log formats -/

/-- How log lines are written. -/
inductive LogFormat
  | text
  | json
  deriving DecidableEq

namespace LogFormat

/-- The name of a format. -/
def name : LogFormat → String
  | text => "text"
  | json => "json"

/-- The format of a name in either case. -/
def ofName? (s : String) : Option LogFormat :=
  let lower := s.toList.map Char.toLower
  if lower = "text".toList then some text
  else if lower = "json".toList then some json
  else none

/-- What is said about a name that no format has. -/
def unknownMessage (requested : String) : String :=
  "unknown log format '" ++ requested ++ "', expected 'text' or 'json'"

end LogFormat

/-! ## Settings -/

/-- `Config` : the settings of the service; `deadline` is the `gateway_timeout`. -/
structure Settings where
  host : String
  portNumber : Nat
  logLevel : String
  logFormat : LogFormat
  deadline : Option Span
  deriving DecidableEq

namespace Settings

/-- The number below a limit that a text is: decimal digits, after a plus sign or without. -/
def number? (limit : Nat) (s : String) : Option Nat :=
  let digits :=
    match s.toList with
    | '+' :: rest => rest
    | cs => cs
  (Digits.decimal? digits).filter (· < limit)

/-- The settings when nothing is said about them. -/
def default : Settings :=
  ⟨"0.0.0.0", 3000, "info", .text, some (.ofMillis 5000)⟩

/-- The deadline that a text asks for. -/
def deadline? (s : Option String) : Option Span :=
  match s.bind (number? UInt64.size) with
  | some 0 => none
  | some ms => some (.ofMillis ms)
  | none => default.deadline

/-- `from_lookup` : the settings that named texts ask for. -/
def ofLookup (find : String → Option String) : Settings where
  host := (find "HOST").getD default.host
  portNumber := ((find "PORT").bind (number? UInt16.size)).getD default.portNumber
  logLevel := (find "RUST_LOG").getD default.logLevel
  logFormat := ((find "LOG_FORMAT").bind LogFormat.ofName?).getD default.logFormat
  deadline := deadline? (find "GATEWAY_TIMEOUT_MS")

/-- `addr` : the address to listen at. -/
def address (s : Settings) : String :=
  s.host ++ ":" ++ toString s.portNumber

end Settings

end OrderDesk
