/-
# Rehearsals

The orchestrator over collaborators that play a script. The inventory and the payment service answer from
queues, the store can be told to fail, and another writer can be made to interfere just before a write.
Everything that a call asks of its collaborators is written down.
-/
import OrderDesk.Desk.Basic

namespace OrderDesk

/-! ## The script -/

/-- What another writer does to an order just before a write. -/
inductive Interference
  | touch
  | cancel
  deriving DecidableEq

/-- Something that a call asked of a collaborator: `list_parts`, `supported_method`, `pay_order`, `get` or
`put`. The version and the place of a new order are kept as they were when it asked. -/
inductive Cue
  | prices (ids : List PartId)
  | method (requested : String)
  | charge (user : UserId) (order : OrderId) (method : PaymentMethod)
  | read (id : OrderId)
  | write (order : Order) (isNew : Bool) (expected : Option Version)

/-- A cue as a line of the record. -/
def Cue.line : Cue → String
  | prices ids => String.intercalate " " ("list_parts" :: ids.map Id.text)
  | method requested => "supported_method " ++ requested
  | charge user order m =>
      String.intercalate " " ["pay_order", user.text, order.text, m.name]
  | read id => "get " ++ id.text
  | write order isNew expected =>
      "put " ++ (if isNew then "new" else order.id.text) ++ " " ++ order.status.name ++
        " version=" ++ order.version.text ++ " expect=" ++ (expected.map Version.text).getD "any"

/-- The desk and its script. A queued answer comes after a number of milliseconds. -/
structure Rehearsal where
  store : Store
  prices : List (Except GatewayError (List PartSnapshot) × Nat)
  charges : List (Except GatewayError TransactionId × Nat)
  methods : List (String × Except GatewayError PaymentMethod)
  failingReads : List StoreError
  failingWrites : List StoreError
  interferences : List Interference
  deadline : Option Span
  random : Nat → BitVec 128
  clock : Nat → Instant
  drawn : Nat
  cues : List Cue

namespace Rehearsal

/-- A rehearsal before anything is in its script. -/
def opening (deadline : Option Span) (random : Nat → BitVec 128) (clock : Nat → Instant) :
    Rehearsal :=
  ⟨.empty, [], [], [], [], [], [], deadline, random, clock, 0, []⟩

/-! ## The partners -/

/-- Writes down a cue. -/
def note (r : Rehearsal) (c : Cue) : Rehearsal :=
  { r with cues := r.cues ++ [c] }

/-- The order as another writer leaves it. -/
def disturbed (now : Instant) (o : Order) : Interference → Order
  | .touch => o
  | .cancel =>
      match o.cancel now with
      | .ok (some changed) => changed
      | _ => o

/-- Another writer puts a stored order back, whatever its version. -/
def interfere (r : Rehearsal) (id : OrderId) (what : Interference) : Rehearsal :=
  match r.store.get? id with
  | none => r
  | some o =>
      match r.store.put (disturbed (r.clock r.drawn) o what) none with
      | .ok (store, _) => { r with store }
      | .error _ => r

/-- `get` of the scripted store. -/
def read (r : Rehearsal) (id : OrderId) : Rehearsal × Except StoreError Order :=
  let r := r.note (.read id)
  match r.failingReads with
  | e :: rest => ({ r with failingReads := rest }, .error e)
  | [] => (r, r.store.get id)

/-- `put` of the scripted store. A queued interference belongs to one write, whether that fails or not. -/
def write (r : Rehearsal) (o : Order) (expected : Option Version) :
    Rehearsal × Except StoreError Version :=
  let r := r.note (.write o (r.store.get? o.id).isNone expected)
  let interference := r.interferences.head?
  let r := { r with interferences := r.interferences.tail }
  match r.failingWrites with
  | e :: rest => ({ r with failingWrites := rest }, .error e)
  | [] =>
      let r := (interference.map (r.interfere o.id)).getD r
      match r.store.put o expected with
      | .ok (store, v) => ({ r with store }, .ok v)
      | .error e => (r, .error e)

/-- `supported_method` of the scripted payment service. -/
def method (r : Rehearsal) (requested : String) : Except GatewayError PaymentMethod :=
  (r.methods.lookup requested).getD (supportedMethod requested)

/-- The answer to a need, and the milliseconds until it comes. -/
def answer (r : Rehearsal) : Need → Rehearsal × Answer × Nat
  | .record id =>
      let (r, result) := r.read id
      (r, .record result, 0)
  | .write o expected =>
      let (r, result) := r.write o (some expected)
      (r, .written result, 0)
  | .method requested => (r.note (.method requested), .method (r.method requested), 0)
  | .prices ids =>
      let r := r.note (.prices ids)
      match r.prices with
      | (result, delay) :: rest => ({ r with prices := rest }, .prices result, delay)
      | [] => (r, .prices (.ok []), 0)
  | .charge user order method =>
      let r := r.note (.charge user order method)
      match r.charges with
      | (result, delay) :: rest => ({ r with charges := rest }, .charge result, delay)
      | [] => (r, .charge (.error (.unavailable "nothing scripted")), 0)

/-! ## Playing a command -/

/-- The `DeadlineExceeded` of a need that was not met before its deadline. -/
def late (n : Need) (limit : Span) : Answer :=
  match n with
  | .charge .. => .charge (.error (.deadlineExceeded limit))
  | _ => .prices (.error (.deadlineExceeded limit))

/-- `bounded` : the answer that a call is given, and after how long: its own if it comes in time. -/
def bounded (deadline : Option Span) (n : Need) (a : Answer) (delay : Nat) : Answer × Nat :=
  match deadline with
  | none => (a, delay)
  | some limit => if delay ≤ limit.timerMillis then (a, delay) else (late n limit, limit.timerMillis)

/-- A command needs at most this often something. -/
def maxNeeds : Nat := 5

/-- Goes on with a call until it is finished; the time passed so far is carried along. -/
def playOn (r : Rehearsal) (c : Call) (time : Nat) : Nat → Rehearsal × Call × Nat
  | 0 => (r, c, time)
  | left + 1 =>
      match c.need with
      | none => (r, c, time)
      | some n =>
          let (r, a, delay) := r.answer n
          let (a, delay) := bounded r.deadline n a delay
          let draw : Draw := ⟨⟨Uuid.ofRandom (r.random r.drawn)⟩, r.clock r.drawn⟩
          playOn { r with drawn := r.drawn + 1 } (c.resume draw a) (time + delay) left

/-- Plays a command to its end: the call as it ended, and the milliseconds it took. -/
def play (r : Rehearsal) (command : Command) : Rehearsal × Call × Nat :=
  r.playOn (Call.start command) 0 maxNeeds

end Rehearsal

end OrderDesk
