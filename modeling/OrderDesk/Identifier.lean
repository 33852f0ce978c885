/-
# Identifiers

Orders, users, parts and transactions are named by 128-bit numbers. The four kinds share one text form
and one order, and are kept apart by their types.

* `Uuid.text` : the one displayed form, 32 lower-case hexadecimal digits in groups of 8, 4, 4, 4 and 12;
* `Uuid.read?` : the accepted spellings, in either case: the bare digits, the grouped form, that form in
  braces, and that form after `urn:uuid:`;
* `Uuid.parse` : the same reader with the reason for a refusal.
-/
import OrderDesk.Text.Digits

namespace OrderDesk

/-- A 128-bit identifier number. -/
structure Uuid where
  bits : BitVec 128
  deriving DecidableEq

namespace Uuid

/-! ## Order -/

instance : LE Uuid where
  le a b := a.bits ≤ b.bits

instance (a b : Uuid) : Decidable (a ≤ b) :=
  inferInstanceAs (Decidable (a.bits ≤ b.bits))

instance : Ord Uuid where
  compare a b := compare a.bits.toNat b.bits.toNat

/-! ## The displayed form -/

/-- Hyphens between groups of 8, 4, 4, 4 and the remaining characters. -/
def hyphenate (digits : List Char) : List Char :=
  digits.take 8 ++ '-' :: (digits.drop 8).take 4 ++ '-' :: (digits.drop 12).take 4 ++
    '-' :: (digits.drop 16).take 4 ++ '-' :: digits.drop 20

/-- The 32 lower-case hexadecimal digits of an identifier. -/
def digits (u : Uuid) : List Char :=
  Digits.padded 16 32 u.bits.toNat

/-- The displayed form: the digits in their five groups. -/
def text (u : Uuid) : String :=
  String.ofList (hyphenate u.digits)

/-! ## Accepted spellings -/

/-- The letters that announce the uniform resource name of an identifier, in lower case. -/
def urn : List Char := "urn:uuid:".toList

/-- What follows the letters of `urn`, in either case, at the start of a text. -/
def afterUrn? (cs : List Char) : Option (List Char) :=
  if (cs.take 9).map Char.toLower = urn then some (cs.drop 9) else none

/-- What stands between an opening and a closing brace. -/
def insideBraces? (cs : List Char) : Option (List Char) :=
  if cs.length ≥ 2 ∧ cs.head? = some '{' ∧ cs.getLast? = some '}' then some (cs.drop 1).dropLast
  else none

/-- The identifier that 32 hexadecimal digits spell. -/
def ofDigits? (cs : List Char) : Option Uuid :=
  if cs.length = 32 ∧ cs.all Digits.isHex then some ⟨BitVec.ofNat 128 (Digits.hexNumber cs)⟩ else none

/-- The identifier that a grouped text spells. -/
def ofHyphenated? (cs : List Char) : Option Uuid :=
  let digits := cs.filter (· ≠ '-')
  if hyphenate digits = cs then ofDigits? digits else none

/-- The identifier that a text spells in any of the accepted forms. -/
def read? (cs : List Char) : Option Uuid :=
  ofDigits? cs <|> ofHyphenated? cs <|> (insideBraces? cs).bind ofHyphenated? <|>
    (afterUrn? cs).bind ofHyphenated?

/-! ## Random identifiers -/

/-- The identifier of version 4 and the standard variant made of 128 random bits. -/
def ofRandom (noise : BitVec 128) : Uuid :=
  ⟨(noise &&& 0xffffffffffff0fff3fffffffffffffff#128) ||| 0x00000000000040008000000000000000#128⟩

/-- The version number that an identifier carries. -/
def version (u : Uuid) : Nat :=
  (u.bits.toNat >>> 76) % 16

end Uuid

/-! ## Refused texts -/

/-- Why a text is no identifier. -/
inductive IdFault
  | length (found : Nat)
  | character (found : Char) (position : Nat)
  | groupCount (found : Nat)
  | groupLength (group expected found : Nat)
  deriving DecidableEq

namespace IdFault

/-- The wording of a refusal. -/
def message : IdFault → String
  | length found => "invalid length: found " ++ toString found
  | character found position => "invalid character: found `" ++ found.toString ++ "` at " ++ toString position
  | groupCount found => "invalid group count: expected 5, found " ++ toString found
  | groupLength group expected found =>
      "invalid group length in group " ++ toString group ++ ": expected " ++ toString expected ++
        ", found " ++ toString found

end IdFault

namespace Uuid

/-- The number of bytes of a text in UTF-8. -/
def byteLength (cs : List Char) : Nat :=
  cs.foldl (fun n c => n + c.utf8Size) 0

/-- Walks over digits and hyphens from a byte position on: the positions of the hyphens, or the first
other character and its position. -/
def hyphens (cs : List Char) (position : Nat) : Except (Char × Nat) (List Nat) :=
  match cs with
  | [] => .ok []
  | c :: rest =>
      if Digits.isHex c then hyphens rest (position + c.utf8Size)
      else if c = '-' then (hyphens rest (position + 1)).map (position :: ·)
      else .error (c, position)

/-- Where the first four groups should end, and the length each should have. -/
def groupEnds : List (Nat × Nat) := [(8, 8), (13, 4), (18, 4), (23, 4)]

/-- The first group whose hyphen is out of place; a text of `size` bytes with every hyphen in place has
a last group of the wrong length. -/
def groupFault (size : Nat) (found : List Nat) : IdFault :=
  let rec go (group start : Nat) : List (Nat × Nat) → List Nat → IdFault
    | (stop, expected) :: ends, h :: hs =>
        if h = stop then go (group + 1) (stop + 1) ends hs
        else .groupLength group expected (h - start)
    | _, _ => .groupLength 4 12 (size - 24)
  go 0 0 groupEnds found

/-- The fault of a grouped text whose characters are `range`, that stands `offset` bytes into a text of
`size` bytes. -/
def hyphenatedFault (range : List Char) (offset size : Nat) : IdFault :=
  match hyphens range 0 with
  | .error (c, position) => .character c (offset + position)
  | .ok found =>
      if found.length ≠ 4 then .groupCount (found.length + 1) else groupFault size found

/-- The fault of a text of no recognised size, which is taken for grouped as soon as it has braces, a
`urn:uuid:` in front or a hyphen. -/
def looseFault (cs : List Char) : IdFault :=
  let size := byteLength cs
  if size = 0 ∨ 45 < size then .length size
  else
    match insideBraces? cs, afterUrn? cs with
    | some inside, _ => hyphenatedFault inside 1 size
    | none, some rest => hyphenatedFault rest 9 size
    | none, none =>
        match hyphens cs 0 with
        | .ok [] => .length size
        | _ => hyphenatedFault cs 0 size

/-- The reason why a text that `read?` refuses is no identifier: a text of the size of one of the
accepted grouped forms is blamed as that form. -/
def fault (cs : List Char) : IdFault :=
  match byteLength cs, insideBraces? cs, afterUrn? cs with
  | 38, some inside, _ => hyphenatedFault inside 0 (byteLength inside)
  | 45, _, some rest => hyphenatedFault rest 0 (byteLength rest)
  | 36, _, _ => hyphenatedFault cs 0 36
  | _, _, _ => looseFault cs

/-- Reads an identifier, or says why the text is none. -/
def parse (s : String) : Except IdFault Uuid :=
  match read? s.toList with
  | some u => .ok u
  | none => .error (fault s.toList)

/-- Reading succeeds exactly on the accepted spellings. -/
theorem parse_eq_ok_iff {s : String} {u : Uuid} : parse s = .ok u ↔ read? s.toList = some u := by
  unfold parse
  split <;> simp_all

end Uuid

/-! ## The four kinds -/

/-- What an identifier names. -/
inductive IdKind
  | order
  | user
  | part
  | transaction
  deriving DecidableEq

/-- An identifier of one kind of thing. -/
structure Id (kind : IdKind) where
  uuid : Uuid
  deriving DecidableEq

/-- Identifies an order; drawn when it is placed. -/
abbrev OrderId := Id .order

/-- Identifies the purchasing user. -/
abbrev UserId := Id .user

/-- Identifies a part of the catalog. -/
abbrev PartId := Id .part

/-- Identifies a payment; drawn by the payment service. -/
abbrev TransactionId := Id .transaction

namespace Id

variable {kind : IdKind}

instance : LE (Id kind) where
  le a b := a.uuid ≤ b.uuid

instance (a b : Id kind) : Decidable (a ≤ b) :=
  inferInstanceAs (Decidable (a.uuid ≤ b.uuid))

instance : Ord (Id kind) where
  compare a b := compare a.uuid b.uuid

/-- The displayed form. -/
def text (id : Id kind) : String :=
  id.uuid.text

/-- `parse`, and `from_str` too: reads an identifier of a kind, or says why the text is none. -/
def parse (s : String) : Except IdFault (Id kind) :=
  (Uuid.parse s).map Id.mk

/-- Sorts identifiers by their numbers. -/
def sort (ids : List (Id kind)) : List (Id kind) :=
  ids.mergeSort fun a b => a ≤ b

end Id

end OrderDesk
