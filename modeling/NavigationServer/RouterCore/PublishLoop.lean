/-
NavigationServer.RouterCore.PublishLoop — `Coupler.publish` turn by turn.

The loop goes over the list of publishers itself and not over a copy, so its
place in the list is an index, and a publisher that deregisters between two
turns moves what stands behind it. `PublishLoop` is a coupler's call of
`publish` in a running server: the message, the index of the next turn and the
publishers in overflow so far. Its inputs are the start of a call, a turn of
the loop, a publisher that deregisters, and a turn of the thread of a
publisher, in any order; the turn that finds no more publisher removes those in
overflow and ends the call. The coupler has one thread, so there is one call at
a time. The filter of a publisher passes the message, discards it or raises.

`CallHistory` is what is written down beside it: the list when the call began,
who deregistered since, who was offered the message and what each of them
answered, and for each publisher whether a message that was to be queued was
queued, the last one first.
-/
import NavigationServer.RouterCommon.Exceptions
import NavigationServer.RouterCore.Publishing

namespace NavigationServer.RouterCore

open NavigationServer.Lib

/-! ## 1. A call -/

inductive FilterOutcome where
  | passes
  | discards
  | raises (e : Exn)
  deriving DecidableEq

/-- A call of `Coupler.publish` that has begun. -/
structure PublishCall where
  msg : RouterMsg
  index : Nat
  faulty : List Nat

structure PublishLoop where
  router : Router
  call : Option PublishCall

inductive PublishInput where
  | publish (msg : RouterMsg)
  | turn (filter : FilterOutcome)
  | deregister (p : Nat)
  | take (p : Nat) (sends : Bool)

inductive PublishOutput where
  | nothing
  | offered (p : Nat) (overflow : Bool)
  | returned
  | raised (e : Exn)
  deriving DecidableEq

/-- `self._publishers.remove(p)` for the publishers in overflow. -/
def Router.removeFaulty (c : Nat) : List Nat → Router → Option Exn × Router
  | [], s => (none, s)
  | p :: ps, s =>
      if p ∈ s.publishersOf c then removeFaulty c ps (s.deregister p c) else (some .valueError, s)

namespace PublishLoop

/-- A turn of the loop over the list of the coupler `c`. -/
def turn (c : Nat) (s : PublishLoop) (call : PublishCall) (filter : FilterOutcome) :
    PublishOutput × PublishLoop :=
  match (s.router.publishersOf c)[call.index]? with
  | none =>
      match s.router.removeFaulty c call.faulty with
      | (some e, router) => (.raised e, ⟨router, none⟩)
      | (none, router) => (.returned, ⟨router, none⟩)
  | some p =>
      match filter with
      | .raises e => (.raised e, { s with call := none })
      | _ =>
          let (overflow, router) := s.router.publish p call.msg (filter = .discards)
          (.offered p overflow,
            ⟨router, some { call with
              index := call.index + 1
              faulty := if overflow then call.faulty ++ [p] else call.faulty }⟩)

end PublishLoop

/-- The coupler `c` among publishers that come to deregister. -/
def publishLoop (c : Nat) : Machine PublishLoop PublishInput PublishOutput where
  step s
    | .publish msg =>
        match s.call with
        | none => (.nothing, { s with call := some ⟨msg, 0, []⟩ })
        | some _ => (.nothing, s)
    | .turn filter =>
        match s.call with
        | none => (.nothing, s)
        | some call => s.turn c call filter
    | .deregister p => (.nothing, { s with router := s.router.deregister p c })
    | .take p sends => (.nothing, { s with router := s.router.take p sends })

/-! ## 2. The history -/

structure CallHistory where
  registered : List Nat
  gone : List Nat
  offers : List (Nat × Bool)
  puts : Nat → List Bool

namespace CallHistory

def new : CallHistory := ⟨[], [], [], fun _ => []⟩

/-- The publishers that were offered the message. -/
def offered (h : CallHistory) : List Nat := h.offers.map Prod.fst

/-- Those of them that reported overflow. -/
def reported (h : CallHistory) : List Nat := (h.offers.filter Prod.snd).map Prod.fst

/-- How many of the last messages for a publisher could not be queued in a
row. -/
def lostInRow (h : CallHistory) (p : Nat) : Nat := ((h.puts p).takeWhile (fun put => !put)).length

/-- A message that was to be queued. -/
def put (h : CallHistory) (p : Nat) (queued : Bool) : CallHistory :=
  { h with puts := Function.update h.puts p (queued :: h.puts p) }

/-- The message was offered. -/
def offer (h : CallHistory) (p : Nat) (overflow : Bool) : CallHistory :=
  { h with offers := h.offers ++ [(p, overflow)] }

end CallHistory

/-- The queue has a place. -/
def Publisher.hasPlace (x : Publisher) : Bool :=
  decide (x.queueSize = 0 ∨ x.queue.length < x.queueSize)

/-- What is written down of a step. -/
def noteCall (c : Nat) (s : PublishLoop) (h : CallHistory) : PublishInput → CallHistory
  | .publish _ =>
      match s.call with
      | none => { h with registered := s.router.publishersOf c, gone := [], offers := [] }
      | some _ => h
  | .turn filter =>
      match s.call with
      | none => h
      | some call =>
          match (s.turn c call filter).1 with
          | .offered p overflow =>
              match s.router.publishers[p]?, filter with
              | some x, .passes => (h.offer p overflow).put p x.hasPlace
              | _, _ => h.offer p overflow
          | _ => h
  | .deregister p => { h with gone := p :: h.gone }
  | .take _ _ => h

def observedLoop (c : Nat) : Machine (PublishLoop × CallHistory) PublishInput PublishOutput :=
  (publishLoop c).withHistory (noteCall c)

end NavigationServer.RouterCore
