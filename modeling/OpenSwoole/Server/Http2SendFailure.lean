import OpenSwoole.Server.Http2Respond

/-!
# A response whose sends fail

`openswoole_http2_server_respond` of `ext-src/openswoole_http2_server.cc`, as in `Respond`, with the
answers of `ctx->send`: from the send number `failAt` on, all fail.  The header is sent first, then the
`DATA` frames, then the trailers.  A send of the header that fails ends the response and leaves the
connection open.  One of a `DATA` frame sets `error`, which is looked at after the loop only: the loop goes
on at the same offset.  One of the trailers closes the connection.

A run ends when the function has returned.  The close of a connection that is shutting down, after a
response that is complete, is left out.

* `Attempt.core_run`   as long as no send fails, the response is that of `Respond`.
-/

namespace OSW.Http2
open Option Machine

/-! ## the coroutine -/

/-- the functions that send a frame: `send_header`, `send_body`, `send_trailer` -/
inductive SendSite where
  | header
  | body
  | trailer
  deriving DecidableEq

/-- `sendHeader` is `ctx->send_header_`, `failed` the place of the first send that failed, `closed` tells that
`ctx->close` was called -/
structure Attempt where
  core : Respond
  sendHeader : Bool
  block : Bool
  failAt : Nat
  sends : Nat
  failed : Option SendSite
  closed : Bool
  result : Option Bool

namespace Attempt

def start (core : Respond) (sendHeader block : Bool) (failAt : Nat) : Attempt :=
  ⟨core, sendHeader, block, failAt, 0, none, false, none⟩

def sendOk (s : Attempt) : Bool := s.sends < s.failAt

/-- a frame was sent, and the coroutine goes on at `core` -/
def sentTo (s : Attempt) (core : Respond) : Attempt := { s with core, sends := s.sends + 1 }

/-- a frame was not sent, and the coroutine goes on at `pc` -/
def refusedTo (s : Attempt) (site : SendSite) (pc : RespondPc) : Attempt :=
  { s with core := { s.core with pc }, sends := s.sends + 1, failed := s.failed.or (some site) }

/-- the first lines of `openswoole_http2_server_respond`, with `core` at the loop -/
def respond (s : Attempt) (core : Respond) : Attempt :=
  if s.sendHeader then { s with core }
  else if s.sendOk then { s.sentTo core with sendHeader := true }
  else { ({ s with core }).refusedTo .header .returned with result := some false }

variable (c : Config) (id : Nat)

section
variable (s : Attempt)

def finish : Attempt :=
  if s.core.trailer && s.block then
    if s.sendOk then { s.sentTo (s.core.atHead id) with result := some true }
    else { s.refusedTo .trailer .returned with closed := true, result := some false }
  else { s with core := s.core.atHead id, result := some true }

/-- the head of the loop; a stream that is gone is used as `Respond` has it -/
def atHead : Attempt :=
  if s.core.body.length - s.core.offset = 0 ∧ (s.core.client.streams id).isSome then s.finish id
  else { s with core := s.core.atHead id }

/-- one turn of the loop in `send_body`; on a failure `respond` is back at the head of its own -/
def sendBody (sendLen left : Nat) (endStream : Bool) : Attempt :=
  if left = 0 then { s with core := s.core.sendBody id sendLen left endStream }
  else if s.sendOk then s.sentTo (s.core.sendBody id sendLen left endStream)
  else s.refusedTo .body .head

def advance : Option Attempt := s.core.pc.resume (s.atHead id) (s.sendBody id)

def stepOpen : RespondEvent → Option Attempt
  | .respond body trailer => (Respond.step c id (.respond body trailer) s.core).map s.respond
  | .run => s.advance id
  | e => (Respond.step c id e s.core).map fun core => { s with core }

end

def step (e : RespondEvent) (s : Attempt) : Option Attempt :=
  if s.result = none then s.stepOpen c id e else none

end Attempt

variable {c : Config} {id : Nat}

/-! ## one step -/

namespace Respond

/-- `send_body` is given a part of what is left of the body -/
def Within (s : Respond) : Prop :=
  ∀ sendLen left endStream, s.pc = .sending sendLen left endStream →
    left ≤ sendLen ∧ s.offset + sendLen ≤ s.body.length

variable {s s' : Respond} {endStream : Bool}

lemma within_of_pc (h : s.pc.isSending = false) : s.Within := by
  intro sendLen left endStream hpc
  rw [hpc] at h
  cases h

lemma onFrame_pc (s : Respond) (c : Config) (id : Nat) (f : PeerFrame) :
    (s.onFrame c id f).body = s.body ∧ (s.onFrame c id f).offset = s.offset ∧
      ((s.onFrame c id f).pc = s.pc ∨ (s.onFrame c id f).pc = .head) := by
  simp only [onFrame, resumed, withStream]
  split
  · split
    · exact ⟨rfl, rfl, .inl rfl⟩
    · exact ⟨rfl, rfl, .inr rfl⟩
  · exact ⟨rfl, rfl, .inl rfl⟩

lemma Within.onFrame (hs : s.Within) (f : PeerFrame) : (s.onFrame c id f).Within := by
  obtain ⟨hbody, hoffset, hpc | hpc⟩ := s.onFrame_pc c id f
  · intro sendLen left endStream h
    rw [hbody, hoffset]
    exact hs sendLen left endStream (hpc.symm.trans h)
  · apply within_of_pc
    rw [hpc]
    rfl

lemma within_sending {n : Nat} (hpc : s.pc = .sending n n endStream)
    (hn : s.offset + n ≤ s.body.length) : s.Within := by
  intro sendLen left flag h
  obtain ⟨rfl, rfl, -⟩ := RespondPc.sending.inj (hpc.symm.trans h)
  exact ⟨le_rfl, hn⟩

lemma within_atHead (hpc : s.pc = .head) : (s.atHead id).Within := by
  unfold atHead withStream
  split
  · exact within_of_pc (s := { s with stale := true }) (by rw [hpc]; rfl)
  · dsimp only
    split
    · exact within_of_pc rfl
    · split
      · exact within_of_pc rfl
      · split
        · next hlarge => exact within_sending rfl (show s.offset + _ ≤ s.body.length by omega)
        · exact within_sending rfl (show s.offset + (s.body.length - s.offset) ≤ s.body.length by omega)

lemma Within.sendBody (hs : s.Within) {sendLen left : Nat} (hpc : s.pc = .sending sendLen left endStream) :
    (s.sendBody id sendLen left endStream).Within := by
  obtain ⟨hleft, hoffset⟩ := hs _ _ _ hpc
  unfold Respond.sendBody withStream
  split
  · exact hs
  · split
    · exact within_of_pc rfl
    · intro l k e h
      obtain ⟨rfl, rfl, -⟩ := RespondPc.sending.inj h
      exact ⟨by omega, hoffset⟩

lemma Within.step {e : RespondEvent} (hs : s.Within) (h : Respond.step c id e s = some s') :
    s'.Within := by
  cases e with
  | frame f =>
    obtain ⟨-, rfl⟩ := ite_some_none_eq_some.1 h
    exact hs.onFrame f
  | openStream flags block | respond body trailer =>
    obtain ⟨-, rfl⟩ := ite_some_none_eq_some.1 h
    exact within_of_pc rfl
  | run =>
    rcases RespondPc.resume_cases h with ⟨hpc, rfl⟩ | ⟨sendLen, left, endStream, hpc, rfl⟩
    · exact within_atHead hpc
    · exact hs.sendBody hpc

end Respond

namespace Attempt

/-- what one step does: what `Respond` does, or a send fails -/
inductive Went (c : Config) (id : Nat) (e : RespondEvent) (s : Attempt) : Attempt → Prop where
  | on {s' : Attempt} (core : Respond.step c id e s.core = some s'.core) (failed : s'.failed = s.failed)
      (closed : s'.closed = s.closed) : Went c id e s s'
  | header {s' : Attempt} (failed : s'.failed = s.failed.or (some .header)) (closed : s'.closed = s.closed)
      (result : s'.result = some false) : Went c id e s s'
  | body {sendLen left : Nat} {endStream : Bool}
      (pc : s.core.pc = .sending sendLen left endStream) (more : 0 < left)
      (fails : s.failAt ≤ s.sends) (running : s.result = none) : Went c id e s (s.refusedTo .body .head)
  | trailer {s' : Attempt} (failed : s'.failed = s.failed.or (some .trailer)) (closed : s'.closed = true)
      (result : s'.result = some false) : Went c id e s s'

variable {s s' t : Attempt} {core : Respond} {sendLen left : Nat} {endStream : Bool}
  {e : RespondEvent} {events : List RespondEvent}

lemma went_atHead (hpc : s.core.pc = .head) : Went c id .run s (s.atHead id) := by
  have hcore : Respond.step c id .run s.core = some (s.core.atHead id) := by
    show s.core.advance id = _
    rw [Respond.advance, hpc]
    rfl
  unfold atHead finish
  split
  · split
    · split
      · exact .on hcore rfl rfl
      · exact .trailer rfl rfl rfl
    · exact .on hcore rfl rfl
  · exact .on hcore rfl rfl

lemma went_sendBody (hpc : s.core.pc = .sending sendLen left endStream) (hopen : s.result = none) :
    Went c id .run s (s.sendBody id sendLen left endStream) := by
  have hcore : Respond.step c id .run s.core = some (s.core.sendBody id sendLen left endStream) := by
    show s.core.advance id = _
    rw [Respond.advance, hpc]
    rfl
  unfold sendBody
  split
  · exact .on hcore rfl rfl
  · next hleft =>
    split
    · exact .on hcore rfl rfl
    · next hok => exact .body hpc (pos_of_ne_zero hleft) (by simpa [sendOk] using hok) hopen

lemma step_went (h : step c id e s = some s') : Went c id e s s' := by
  obtain ⟨hopen, hstep⟩ := ite_none_right_eq_some.1 h
  cases e with
  | frame f | openStream flags block =>
    obtain ⟨core, hcore, he⟩ := map_eq_some_iff.1 hstep
    subst he
    exact .on hcore rfl rfl
  | respond body trailer =>
    obtain ⟨core, hcore, he⟩ := map_eq_some_iff.1 hstep
    subst he
    unfold respond
    split
    · exact .on hcore rfl rfl
    · split
      · exact .on hcore rfl rfl
      · exact .header rfl rfl rfl
  | run =>
    rcases RespondPc.resume_cases hstep with ⟨hpc, rfl⟩ | ⟨sendLen, left, endStream, hpc, rfl⟩
    · exact went_atHead hpc
    · exact went_sendBody hpc hopen

/-! ## no send fails -/

lemma or_some_ne_none (o : Option SendSite) (site : SendSite) : o.or (some site) ≠ none := by
  cases o <;> exact some_ne_none _

lemma step_core (h : step c id e s = some s') (hs' : s'.failed = none) :
    s.failed = none ∧ Respond.step c id e s.core = some s'.core := by
  cases step_went h with
  | on core failed closed => exact ⟨failed.symm.trans hs', core⟩
  | header failed closed result | trailer failed closed result =>
      exact absurd (failed.symm.trans hs') (or_some_ne_none _ _)
  | body pc more fails running => exact absurd hs' (or_some_ne_none _ _)

section
variable (h : iter (step c id) events s = some t) (ht : t.failed = none)
include h ht

lemma core_run_aux : s.failed = none ∧ iter (Respond.step c id) events s.core = some t.core := by
  induction events generalizing s with
  | nil =>
    rw [← some.inj h] at ht ⊢
    exact ⟨ht, rfl⟩
  | cons e events ih =>
    obtain ⟨s', hstep, hrun⟩ := bind_eq_some_iff.1 h
    obtain ⟨hs', hrest⟩ := ih hrun
    obtain ⟨hs, hcore⟩ := step_core hstep hs'
    exact ⟨hs, bind_eq_some_iff.2 ⟨s'.core, hcore, hrest⟩⟩

lemma core_run : iter (Respond.step c id) events s.core = some t.core := (core_run_aux h ht).2

end

/-! ## a frame of the body is not sent -/

/-- the coroutine is in the loop, and not at the end of a `send_body` -/
def Retries : RespondPc → Prop
  | .head | .waiting => True
  | .sending _ left _ => 0 < left
  | _ => False

/-- the loop goes on at an offset inside the body, and no send succeeds any more -/
structure Spins (s : Attempt) : Prop where
  fails : s.failAt ≤ s.sends
  inside : s.core.offset < s.core.body.length
  pc : Retries s.core.pc
  running : s.result = none
  closed : s.closed = false
  failed : s.failed = some .body

section
variable (hs : s.Spins)
include hs

lemma Spins.of_core (hbody : core.body = s.core.body)
    (hoffset : core.offset = s.core.offset) (hpc : Retries core.pc) :
    ({ s with core } : Attempt).Spins :=
  { hs with inside := by rw [hbody, hoffset]; exact hs.inside, pc := hpc }

lemma Spins.atHead (hpc : s.core.pc = .head) : (s.atHead id).Spins := by
  have hinside := hs.inside
  have hleft : s.core.body.length - s.core.offset ≠ 0 := by omega
  rw [Attempt.atHead, if_neg (fun h => hleft h.1)]
  unfold Respond.atHead Respond.withStream
  split
  · exact hs.of_core rfl rfl (by rw [hpc]; trivial)
  · next stream hstream =>
    dsimp only
    rw [if_neg hleft]
    split
    · exact hs.of_core rfl rfl trivial
    · next hwindow =>
      split
      · exact hs.of_core rfl rfl (pos_of_ne_zero hwindow)
      · exact hs.of_core rfl rfl (pos_of_ne_zero hleft)

lemma Spins.sendBody (hpc : s.core.pc = .sending sendLen left endStream) :
    (s.sendBody id sendLen left endStream).Spins := by
  have hleft : 0 < left := by
    have h := hs.pc
    rw [hpc] at h
    exact h
  have hok : ¬ s.sendOk = true := by simpa [sendOk] using hs.fails
  rw [Attempt.sendBody, if_neg (by omega), if_neg hok]
  refine ⟨Nat.le_succ_of_le hs.fails, hs.inside, trivial, hs.running, hs.closed, ?_⟩
  rw [refusedTo, hs.failed]
  rfl

lemma Spins.step (h : Attempt.step c id e s = some s') : s'.Spins := by
  have hpc := hs.pc
  obtain ⟨-, hstep⟩ := ite_none_right_eq_some.1 h
  cases e with
  | frame f =>
    obtain ⟨core, hcore, he⟩ := map_eq_some_iff.1 hstep
    obtain ⟨-, hf⟩ := ite_none_right_eq_some.1 hcore
    rw [← he, ← some.inj hf]
    obtain ⟨hbody, hoffset, hsame | hhead⟩ := s.core.onFrame_pc c id f
    · exact hs.of_core hbody hoffset (hsame ▸ hpc)
    · exact hs.of_core hbody hoffset (by rw [hhead]; trivial)
  | openStream flags block =>
    obtain ⟨core, hcore, -⟩ := map_eq_some_iff.1 hstep
    obtain ⟨⟨hbefore, -⟩, -⟩ := ite_none_right_eq_some.1 hcore
    rw [hbefore] at hpc
    exact hpc.elim
  | respond body trailer =>
    obtain ⟨core, hcore, -⟩ := map_eq_some_iff.1 hstep
    obtain ⟨⟨hopened, -⟩, -⟩ := ite_none_right_eq_some.1 hcore
    rw [hopened] at hpc
    exact hpc.elim
  | run =>
    rcases RespondPc.resume_cases hstep with ⟨hat, rfl⟩ | ⟨sendLen, left, endStream, hat, rfl⟩
    · exact hs.atHead hat
    · exact hs.sendBody hat

lemma Spins.run (events : List RespondEvent) (h : iter (Attempt.step c id) events s = some t) :
    t.result = none ∧ t.closed = false := by
  have ht : t.Spins := iter_invariant (J := Spins) (fun _ _ _ hs h => hs.step h) events hs h
  exact ⟨ht.running, ht.closed⟩

end

/-! ## whole runs -/

/-- what has come of the response, by the first send that failed -/
def Outcome (s : Attempt) : Option SendSite → Prop
  | none => s.closed = false ∧ s.core.Within
  | some .header => s.result = some false ∧ s.closed = false
  | some .body => s.Spins
  | some .trailer => s.result = some false ∧ s.closed = true

lemma outcome_went (hs : s.failed = none) (hclosed : s.closed = false) (hwithin : s.core.Within)
    (h : Went c id e s s') : s'.Outcome s'.failed := by
  cases h with
  | on core failed closed =>
    rw [failed, hs]
    exact ⟨closed.trans hclosed, hwithin.step core⟩
  | header failed closed result =>
    rw [failed, hs]
    exact ⟨result, closed.trans hclosed⟩
  | body pc more fails running =>
    have hsite : (s.refusedTo .body .head).failed = some .body := by
      rw [refusedTo, hs]
      rfl
    obtain ⟨hleft, hoffset⟩ := hwithin _ _ _ pc
    rw [hsite]
    exact ⟨Nat.le_succ_of_le fails, show s.core.offset < s.core.body.length by omega, trivial, running, hclosed,
      hsite⟩
  | trailer failed closed result =>
    rw [failed, hs]
    exact ⟨result, closed⟩

lemma outcome_step (hs : s.Outcome s.failed) (h : step c id e s = some s') : s'.Outcome s'.failed := by
  cases hfailed : s.failed with
  | none =>
    rw [hfailed] at hs
    exact outcome_went hfailed hs.1 hs.2 (step_went h)
  | some site =>
    rw [hfailed] at hs
    cases site with
    | header | trailer => cases hs.1.symm.trans (ite_none_right_eq_some.1 h).1
    | body =>
      have hs' := Spins.step hs h
      rw [hs'.failed]
      exact hs'

lemma outcome_run (client : Session) (announced : Nat) (sendHeader block : Bool) (failAt : Nat)
    (events : List RespondEvent)
    (hs : iter (step c id) events (start (.start client announced) sendHeader block failAt) = some s) :
    s.Outcome s.failed :=
  iter_invariant (J := fun s => s.Outcome s.failed) (fun _ _ _ hs h => outcome_step hs h) events
    ⟨rfl, Respond.within_of_pc rfl⟩ hs

/-- what comes of the response, by the first send that failed: after one of the body it never returns -/
theorem failed_send_ends (c : Config) (id : Nat) (client : Session) (announced : Nat) (sendHeader block : Bool)
    (failAt : Nat) (events : List RespondEvent) (s : Attempt)
    (hs : iter (step c id) events (start (.start client announced) sendHeader block failAt) = some s) :
    (s.failed = some .trailer → s.result = some false ∧ s.closed = true) ∧
    (s.failed = some .header → s.result = some false ∧ s.closed = false) ∧
    (s.failed = some .body → ∀ more t, iter (step c id) more s = some t →
      t.result = none ∧ t.closed = false) := by
  have houtcome := outcome_run client announced sendHeader block failAt events hs
  refine ⟨fun h => ?_, fun h => ?_, fun h more t ht => ?_⟩
  · rw [h] at houtcome
    exact houtcome
  · rw [h] at houtcome
    exact houtcome
  · rw [h] at houtcome
    exact Spins.run houtcome more ht

/-- a request that is answered by one byte, up to the send of its `DATA` frame -/
def answered (trailer : Bool) : List RespondEvent := [.openStream 5 [], .respond [7] trailer, .run, .run]

theorem failed_send_ends_trailer : ∃ s, iter (step .lenient 1) (answered true ++ [.run, .run])
      (start (.start .new 65535) false true 2) = some s ∧
      s.failed = some .trailer ∧ s.result = some false ∧ s.closed = true := by
  refine exists_of_map (fun s => s.failed) (show _ = some (some .trailer) by decide +kernel) fun s hs hfailed =>
    ?_
  exact ⟨hfailed, (failed_send_ends .lenient 1 .new 65535 false true 2 _ s hs).1 hfailed⟩

/-- the first `DATA` frame is not sent, and the function never returns; the header is not sent, and the
connection stays open -/
theorem body_failure_spins :
    (∃ s, iter (step .lenient 1) (answered false) (start (.start .new 65535) false false 1) = some s ∧
      s.failed = some .body ∧
      ∀ more t, iter (step .lenient 1) more s = some t → t.result = none ∧ t.closed = false) ∧
    (iter (step .lenient 1) [.openStream 5 [], .respond [7] false]
      (start (.start .new 65535) false false 0)).map (fun s => (s.result, s.closed)) =
        some (some false, false) := by
  refine ⟨?_, by decide +kernel⟩
  refine exists_of_map (fun s => s.failed) (show _ = some (some .body) by decide +kernel) fun s hs hfailed => ?_
  have houtcome := outcome_run .new 65535 false false 1 _ hs
  rw [hfailed] at houtcome
  exact ⟨hfailed, fun more t ht => Spins.run houtcome more ht⟩

end Attempt

end OSW.Http2
