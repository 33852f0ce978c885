/-
# JSON tokens

A text cut into brackets, separators and scalars, in one pass over its characters. Cutting stops at the
first character that no token can hold. A scalar that cannot be read is kept as a `Flaw`, because what a
reader reports depends on whether it wants the scalar or passes over it.
-/
import OrderDesk.Json.Numeral
import OrderDesk.Text.Digits

namespace OrderDesk

/-! ## Faults -/

/-- How a text fails to be JSON: it says something else, or it ends too early. -/
inductive Fault
  | malformed
  | truncated
  deriving DecidableEq

/-- The kinds of scalars, as their first character tells them. -/
inductive ScalarKind
  | null
  | bool
  | number
  | string
  deriving DecidableEq

/-- A scalar that cannot be read: its kind, the fault found by a reader that wants it, and the fault
found by one that passes over it, if it is one for that reader as well. -/
structure Flaw where
  kind : ScalarKind
  read : Fault
  skip : Option Fault
  deriving DecidableEq

/-! ## Tokens -/

/-- A piece of a JSON text. -/
inductive Token
  | openArray
  | closeArray
  | openObject
  | closeObject
  | comma
  | colon
  | scalar (s : Scalar)
  | flawed (f : Flaw)
  | stray
  deriving DecidableEq

/-! ## Numbers in progress -/

/-- How far a number has been read. -/
inductive NumeralPhase
  | sign
  | zero
  | whole
  | point
  | fraction
  | mark
  | markSign
  | exponent
  deriving DecidableEq

/-- What a character means for a number being read. -/
inductive NumeralStep
  | more (phase : NumeralPhase)
  | ended
  | fault

namespace NumeralPhase

/-- Whether a number may end here. -/
def isComplete : NumeralPhase → Bool
  | zero | whole | fraction | exponent => true
  | sign | point | mark | markSign => false

/-- What a character means after a phase. A leading zero is the only digit before the point. -/
def step (phase : NumeralPhase) (c : Char) : NumeralStep :=
  match phase with
  | sign => if c = '0' then .more zero else if c.isDigit then .more whole else .fault
  | zero =>
      if c = '.' then .more point else if c = 'e' ∨ c = 'E' then .more mark
      else if c.isDigit then .fault else .ended
  | whole =>
      if c = '.' then .more point else if c = 'e' ∨ c = 'E' then .more mark
      else if c.isDigit then .more whole else .ended
  | point => if c.isDigit then .more fraction else .fault
  | fraction =>
      if c = 'e' ∨ c = 'E' then .more mark else if c.isDigit then .more fraction else .ended
  | mark =>
      if c = '+' ∨ c = '-' then .more markSign else if c.isDigit then .more exponent else .fault
  | markSign => if c.isDigit then .more exponent else .fault
  | exponent => if c.isDigit then .more exponent else .ended

end NumeralPhase

namespace Numeral

/-- Adds a character that leads to the given phase. -/
def push (n : Numeral) (phase : NumeralPhase) (c : Char) : Numeral :=
  match phase with
  | .sign => { n with negative := true }
  | .zero | .whole => { n with whole := n.whole ++ [c] }
  | .point => n
  | .fraction => { n with fraction := n.fraction ++ [c] }
  | .mark => { n with exponent := some (false, []) }
  | .markSign => { n with exponent := some (c = '-', []) }
  | .exponent => { n with exponent := n.exponent.map fun e => (e.1, e.2 ++ [c]) }

/-- The token of a number that is complete. A number beyond every floating-point number is a fault only
for a reader that wants it. -/
def token (n : Numeral) : Token :=
  match n.value? with
  | some v => .scalar (.number v)
  | none => .flawed ⟨.number, .malformed, none⟩

end Numeral

/-! ## Strings in progress -/

/-- Where a string being read stands. -/
inductive StringPhase
  | plain
  | escape
  | hex (seen : List Char)
  deriving DecidableEq

/-- A string being read: its characters so far in reverse, a high surrogate that waits for its low
one, and whether a surrogate has stayed alone. -/
structure StringScan where
  phase : StringPhase
  reversed : List Char
  high : Option Nat
  lone : Bool

/-- What a character means for a string being read. -/
inductive StringStep
  | more (s : StringScan)
  | ended (s : StringScan)
  | fault (s : StringScan)

namespace StringScan

/-- A string just opened. -/
def empty : StringScan := ⟨.plain, [], none, false⟩

/-- Adds a character; a high surrogate in front of it stays alone. -/
def push (s : StringScan) (c : Char) : StringScan :=
  ⟨.plain, c :: s.reversed, none, s.lone || s.high.isSome⟩

/-- Adds a UTF-16 unit given by number: a pair of surrogates makes one character. -/
def pushUnit (s : StringScan) (u : Nat) : StringScan :=
  match s.high with
  | some h =>
      if 0xdc00 ≤ u ∧ u ≤ 0xdfff then
        ⟨.plain, Char.ofNat (0x10000 + (h - 0xd800) * 0x400 + (u - 0xdc00)) :: s.reversed, none,
          s.lone⟩
      else { s with phase := .plain, high := none, lone := true }
  | none =>
      if 0xd800 ≤ u ∧ u ≤ 0xdbff then { s with phase := .plain, high := some u }
      else if 0xdc00 ≤ u ∧ u ≤ 0xdfff then { s with phase := .plain, lone := true }
      else s.push (Char.ofNat u)

/-- The character that a letter after a backslash stands for. -/
def unescape? (c : Char) : Option Char :=
  match c with
  | '"' => some '"'
  | '\\' => some '\\'
  | '/' => some '/'
  | 'b' => some (Char.ofNat 8)
  | 'f' => some (Char.ofNat 12)
  | 'n' => some '\n'
  | 'r' => some '\r'
  | 't' => some '\t'
  | _ => none

/-- What a character means for a string being read. The number of an escape is looked for in the next
four bytes. -/
def step (s : StringScan) (c : Char) : StringStep :=
  match s.phase with
  | .plain =>
      if c = '"' then .ended { s with lone := s.lone || s.high.isSome }
      else if c = '\\' then .more { s with phase := .escape }
      else if c.toNat < 32 then .fault s
      else .more (s.push c)
  | .escape =>
      if c = 'u' then .more { s with phase := .hex [] }
      else
        match unescape? c with
        | some d => .more (s.push d)
        | none => .fault s
  | .hex seen =>
      let all := seen ++ [c]
      if (String.ofList all).utf8ByteSize < 4 then .more { s with phase := .hex all }
      else if all.length = 4 ∧ all.all Digits.isHex then .more (s.pushUnit (Digits.hexNumber all))
      else .fault s

/-- The token of a string that is complete. A lone surrogate is a fault only for a reader that wants
the text. -/
def token (s : StringScan) : Token :=
  if s.lone then .flawed ⟨.string, .malformed, none⟩
  else .scalar (.string (String.ofList s.reversed.reverse))

/-- The token of a string that breaks off with a fault; a lone surrogate before it is found first. -/
def broken (s : StringScan) (f : Fault) : Token :=
  .flawed ⟨.string, if s.lone then .malformed else f, some f⟩

end StringScan

/-! ## The scanner -/

/-- What the scanner is inside of. -/
inductive ScanMode
  | between
  | word (kind : ScalarKind) (left : List Char) (value : Scalar)
  | number (phase : NumeralPhase) (n : Numeral)
  | string (s : StringScan)
  | stopped

/-- A scanner: the tokens so far in reverse, and what it is inside of. -/
structure Scanner where
  reversed : List Token
  mode : ScanMode

namespace Scanner

/-- A scanner before the first character. -/
def start : Scanner := ⟨[], .between⟩

/-- Adds a token and goes on between tokens. -/
def emit (s : Scanner) (t : Token) : Scanner :=
  ⟨t :: s.reversed, .between⟩

/-- Adds a last token. -/
def stop (s : Scanner) (t : Token) : Scanner :=
  ⟨t :: s.reversed, .stopped⟩

/-- Whether a character may stand between tokens. -/
def isBlank (c : Char) : Bool :=
  c = ' ' || c = '\t' || c = '\n' || c = '\r'

/-- Takes a character that stands between tokens. -/
def begin (s : Scanner) (c : Char) : Scanner :=
  if isBlank c then ⟨s.reversed, .between⟩
  else if c = '[' then s.emit .openArray
  else if c = ']' then s.emit .closeArray
  else if c = '{' then s.emit .openObject
  else if c = '}' then s.emit .closeObject
  else if c = ',' then s.emit .comma
  else if c = ':' then s.emit .colon
  else if c = '"' then ⟨s.reversed, .string .empty⟩
  else if c = 'n' then ⟨s.reversed, .word .null ['u', 'l', 'l'] .null⟩
  else if c = 't' then ⟨s.reversed, .word .bool ['r', 'u', 'e'] (.bool true)⟩
  else if c = 'f' then ⟨s.reversed, .word .bool ['a', 'l', 's', 'e'] (.bool false)⟩
  else if c = '-' then ⟨s.reversed, .number .sign ⟨true, [], [], none⟩⟩
  else if c = '0' then ⟨s.reversed, .number .zero ⟨false, ['0'], [], none⟩⟩
  else if c.isDigit then ⟨s.reversed, .number .whole ⟨false, [c], [], none⟩⟩
  else s.stop .stray

/-- Takes the next character. -/
def step (s : Scanner) (c : Char) : Scanner :=
  match s.mode with
  | .between => s.begin c
  | .word kind left value =>
      match left with
      | [] => (s.emit (.scalar value)).begin c
      | d :: rest =>
          if c ≠ d then s.stop (.flawed ⟨kind, .malformed, some .malformed⟩)
          else if rest = [] then s.emit (.scalar value)
          else ⟨s.reversed, .word kind rest value⟩
  | .number phase n =>
      match phase.step c with
      | .more next => ⟨s.reversed, .number next (n.push next c)⟩
      | .ended => (s.emit n.token).begin c
      | .fault => s.stop (.flawed ⟨.number, .malformed, some .malformed⟩)
  | .string t =>
      match t.step c with
      | .more u => ⟨s.reversed, .string u⟩
      | .ended u => s.emit u.token
      | .fault u => s.stop (u.broken .malformed)
  | .stopped => s

/-- The scanner after the last character. An unfinished number is truncated for a reader that wants it
and malformed for one that passes over it. -/
def finish (s : Scanner) : Scanner :=
  match s.mode with
  | .between => s
  | .word kind _ _ => s.stop (.flawed ⟨kind, .truncated, some .truncated⟩)
  | .number phase n =>
      if phase.isComplete then s.emit n.token
      else s.stop (.flawed ⟨.number, .truncated, some .malformed⟩)
  | .string t => s.stop (t.broken .truncated)
  | .stopped => s

end Scanner

/-- The tokens of a text, up to the first place where it stops being JSON. -/
def Token.scan (cs : List Char) : List Token :=
  (cs.foldl Scanner.step Scanner.start).finish.reversed.reverse

end OrderDesk
