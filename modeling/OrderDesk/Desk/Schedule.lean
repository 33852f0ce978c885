/-
# Clients in virtual time

Several operations of the orchestrator at once, each begun at its own time. Time is counted in
milliseconds and passes only while every client waits: for its start, for the latency of `list_parts` or
`pay_order`, or for the deadline of `bounded`. A service that takes no longer than the deadline answers in
time. Of the clients due at one moment, the earlier in the list goes first, and goes on until it has to
wait.
-/
import OrderDesk.Desk.Shop

namespace OrderDesk

/-! ## Clients -/

/-- What a client comes for: to look at the desk, as `/health` and `/metrics` do and requests that are
answered at once, or with a command. -/
inductive Activity
  | look
  | command (c : Command)

/-- What a client does when it is due: begin, go on with its call, take the answer of a service, or give it
up at the deadline. One that is done keeps its result and the desk as it left it. -/
inductive Stage
  | arriving (activity : Activity)
  | ready (call : Call)
  | delivering (call : Call) (ticket : Ticket)
  | expiring (call : Call) (limit : Span)
  | finished (outcome : Option Outcome) (desk : Desk)

/-- A client and the time it is due. -/
structure Client where
  due : Nat
  stage : Stage

namespace Stage

/-- Whether a client is done. -/
def isFinished : Stage → Bool
  | finished .. => true
  | _ => false

end Stage

namespace Shop

/-- The stage and the time of a call that goes on now. -/
def goOn (s : Shop) (now : Nat) (c : Call) : Shop × Client :=
  match c.outcome? with
  | some o => (s, ⟨now, .finished (some o) s.desk⟩)
  | none => (s, ⟨now, .ready c⟩)

/-- The wait inside `bounded`: for the latency of the service, or for the deadline if that is sooner. -/
def wait (deadline : Option Span) (now : Nat) (c : Call) (t : Ticket) : Client :=
  let answered : Client := ⟨now + t.latency.timerMillis, .delivering c t⟩
  match deadline with
  | none => answered
  | some limit =>
      if t.latency.timerMillis ≤ limit.timerMillis then answered
      else ⟨now + limit.timerMillis, .expiring c limit⟩

/-- What a client does now that it is due. -/
def act (s : Shop) (now : Nat) (v : Client) : Shop × Client :=
  match v.stage with
  | .arriving .look => (s, ⟨now, .finished none s.desk⟩)
  | .arriving (.command command) =>
      let (s, c) := s.start command
      s.goOn now c
  | .ready c =>
      match s.consult? c with
      | some (s, ticket) => (s, wait s.deadline now c ticket)
      | none =>
          let (s, c) := s.stepAtOnce c
          s.goOn now c
  | .delivering c ticket =>
      let (s, c) := s.deliver c ticket
      s.goOn now c
  | .expiring c limit =>
      let (s, c) := s.expire c limit
      s.goOn now c
  | .finished .. => (s, v)

/-- A client acts at most this often: it arrives, reads, chooses, asks, is answered, writes. -/
def maxActions : Nat := 8

/-- A client goes on until it has to wait or is done. -/
def actAll (now : Nat) : Nat → Shop → Client → Shop × Client
  | 0, s, v => (s, v)
  | left + 1, s, v =>
      if v.stage.isFinished ∨ now < v.due then (s, v)
      else
        let (s, v) := s.act now v
        actAll now left s v

/-! ## The schedule -/

/-- All clients due at a time go on, one after the other. -/
def round (now : Nat) (s : Shop) : List Client → Shop × List Client
  | [] => (s, [])
  | v :: rest =>
      let (s, v) := actAll now maxActions s v
      let (s, rest) := round now s rest
      (s, v :: rest)

/-- The next time that a client is due. -/
def nextDue? (clients : List Client) : Option Nat :=
  ((clients.filter fun v => !v.stage.isFinished).map Client.due).min?

/-- Round after round until all clients are done, at most so many: the shop, the time of the last round,
and the clients. -/
def rounds (s : Shop) (now : Nat) (clients : List Client) : Nat → Shop × Nat × List Client
  | 0 => (s, now, clients)
  | left + 1 =>
      match nextDue? clients with
      | none => (s, now, clients)
      | some t =>
          let (s, clients) := s.round t clients
          rounds s t clients left

/-- Serves clients that come after so many milliseconds each: the shop afterwards, the time until the last
one is done, and the clients. Every client waits at most twice, so three rounds for each suffice. -/
def serve (s : Shop) (activities : List (Nat × Activity)) : Shop × Nat × List Client :=
  s.rounds 0 (activities.map fun e => ⟨e.1, .arriving e.2⟩) (3 * activities.length)

end Shop

end OrderDesk
