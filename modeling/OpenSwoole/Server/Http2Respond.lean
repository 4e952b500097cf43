import OpenSwoole.Protocol.Http2

/-!
# HTTP/2 responses under flow control

`openswoole_http2_server_respond` of `ext-src/openswoole_http2_server.cc` with `Http2Stream::send_body`, in
`send_yield` mode and with sends that succeed.  The body is the one that is sent: compression comes before.
The coroutine is suspended while the window of its stream is empty, and may be suspended in every
`ctx->send`; meanwhile the connection goes on with the frames of the peer.

The fields `announced`, `opened`, `granted`, `wrapped` and `stale` are records: the initial window by the
settings of the peer, its value when the stream was opened, the increments for the stream since then, and
whether its window has exceeded 32 bits or a deleted stream was touched.

* `PeerFrame`   `SETTINGS`, `WINDOW_UPDATE` and `RST_STREAM`, as the peer means them;
* `Respond.step`   a frame, the beginning of a response, or a step of the coroutine;
* `Moves`, `Takes`   what a step of the coroutine and a frame can do;
* `waiting_resumed`   **a waiting response goes on** when its stream is granted a window, and no deleted
    stream is used;
* `reset_hangs`   a response whose stream is reset waits for ever.
-/

namespace OSW.Http2
open Function Option Machine List

/-! ## frames of the peer -/

inductive PeerFrame where
  | settings (params : List (Nat × Nat))
  | windowUpdate (id value : Nat)
  | rstStream (id code : Nat)

namespace PeerFrame

def settingBytes (param : Nat × Nat) : Bytes := beBytes 2 param.1 ++ beBytes 4 param.2

def bytes : PeerFrame → Bytes
  | .settings params => wire .settings 0 0 (params.flatMap settingBytes)
  | .windowUpdate id value => wire .windowUpdate 0 id (beBytes 4 value)
  | .rstStream id code => wire .rstStream 0 id (beBytes 4 code)

def Legal : PeerFrame → Prop
  | .settings params => params.length * 6 < 2^24 ∧ ∀ p ∈ params, p.1 < 2^16 ∧ p.2 < 2^32
  | .windowUpdate id value => id < 2^31 ∧ value < 2^32
  | .rstStream id code => id < 2^31 ∧ code < 2^32

instance (f : PeerFrame) : Decidable f.Legal := by
  cases f <;> dsimp only [PeerFrame.Legal] <;> infer_instance

def grant (id : Nat) : PeerFrame → Nat
  | .windowUpdate i value => if i = id then value % 2^31 else 0
  | _ => 0

/-- the initial window after the frame; `4` is `SETTINGS_INITIAL_WINDOW_SIZE` -/
def announce (window : Nat) : PeerFrame → Nat
  | .settings params => params.foldl (fun w p => if p.1 = 4 then p.2 else w) window
  | _ => window

end PeerFrame

/-! ## the coroutine -/

/-- the stream is not there; the request is handled; the head of the loop; in `send_body` with `left` of
`sendLen` bytes to go; suspended; returned -/
inductive RespondPc where
  | before
  | opened
  | head
  | sending (sendLen left : Nat) (endStream : Bool)
  | waiting
  | returned
  deriving DecidableEq

namespace RespondPc

/-- where the loop of `respond` goes on when it runs -/
def resume {α : Type} (head : α) (sendBody : Nat → Nat → Bool → α) : RespondPc → Option α
  | .head => some head
  | .sending sendLen left endStream => some (sendBody sendLen left endStream)
  | _ => none

lemma resume_cases {α : Type} {head r : α} {sendBody : Nat → Nat → Bool → α} {pc : RespondPc}
    (h : pc.resume head sendBody = some r) :
    (pc = .head ∧ r = head) ∨
      ∃ sendLen left endStream, pc = .sending sendLen left endStream ∧ r = sendBody sendLen left endStream := by
  cases pc with
  | head => exact .inl ⟨rfl, (some.inj h).symm⟩
  | sending sendLen left endStream => exact .inr ⟨sendLen, left, endStream, rfl, (some.inj h).symm⟩
  | before | opened | waiting | returned => cases h

end RespondPc

/-- `sent` are the `DATA` frames on the stream with their flags `END_STREAM` -/
structure Respond where
  client : Session
  body : Bytes
  offset : Nat
  trailer : Bool
  pc : RespondPc
  sent : List (Bytes × Bool)
  announced : Nat
  opened : Nat
  granted : Nat
  wrapped : Bool
  stale : Bool

inductive RespondEvent where
  | frame (f : PeerFrame)
  /-- the `HEADERS` frame of the request -/
  | openStream (flags : UInt8) (block : Bytes)
  /-- `openswoole_http2_server_respond` is called; `send_header` comes first -/
  | respond (body : Bytes) (trailer : Bool)
  | run

namespace Respond

def start (client : Session) (announced : Nat) : Respond where
  client := client
  body := []
  offset := 0
  trailer := false
  pc := .before
  sent := []
  announced := announced
  opened := 0
  granted := 0
  wrapped := false
  stale := false

variable (c : Config) (id : Nat)

section
variable (s : Respond)

def withStream (f : Stream → Respond) : Respond :=
  match s.client.streams id with
  | none => { s with stale := true }
  | some stream => f stream

/-- `stream->waiting_coroutine = nullptr; continue;` -/
def resumed : Respond :=
  s.withStream id fun stream =>
    { s with client := s.client.setStream id (some { stream with waiting := false }), pc := .head }

def note (f : PeerFrame) : Respond :=
  { s with
    announced := f.announce s.announced
    granted := s.granted + f.grant id
    wrapped := s.wrapped || (s.client.streams id).any fun st => 2^32 ≤ st.remoteWindowSize + f.grant id }

/-- `openswoole_http2_server_parse`, which may resume the coroutine -/
def onFrame (f : PeerFrame) : Respond :=
  let r := s.client.parse c f.bytes
  let s := { s.note id f with client := r.client }
  if .resume id ∈ r.acts then s.resumed id else s

/-- the head of the loop in `openswoole_http2_server_respond`, and what follows the loop -/
def atHead : Respond :=
  s.withStream id fun stream =>
    let sendLen := s.body.length - s.offset
    if sendLen = 0 then { s with client := s.client.setStream id none, pc := .returned }
    else if stream.remoteWindowSize = 0 then
      { s with client := s.client.setStream id (some { stream with waiting := true }), pc := .waiting }
    else if sendLen > stream.remoteWindowSize then
      { s with pc := .sending stream.remoteWindowSize stream.remoteWindowSize false }
    else { s with pc := .sending sendLen sendLen (!s.trailer) }

/-- the loop of `send_body`, and the window after it -/
def sendBody (sendLen left : Nat) (endStream : Bool) : Respond :=
  s.withStream id fun stream =>
    let maxFrameSize := s.client.localSettings.maxFrameSize
    if left = 0 then
      let window := if sendLen > stream.remoteWindowSize then 0 else stream.remoteWindowSize - sendLen
      { s with
        offset := s.offset + sendLen
        client := s.client.setStream id (some { stream with remoteWindowSize := window })
        pc := .head }
    else
      let sendN := if left > maxFrameSize then maxFrameSize else left
      let flag := if left > maxFrameSize then false else endStream
      { s with
        sent := s.sent ++ [((s.body.drop (s.offset + (sendLen - left))).take sendN, flag)]
        pc := .sending sendLen (left - sendN) endStream }

def advance : Option Respond := s.pc.resume (s.atHead id) (s.sendBody id)

end

def step : RespondEvent → Respond → Option Respond
  | .frame f, s => if f.Legal ∧ s.pc ≠ .head then some (s.onFrame c id f) else none
  | .openStream flags block, s =>
    if s.pc = .before ∧ block.length < 2^24 ∧ c.inflate flags block then
      some { s with
        client := (s.client.parse c (wire .headers flags id block)).client
        opened := s.announced
        granted := 0
        wrapped := false
        pc := .opened }
    else none
  | .respond body trailer, s =>
    if s.pc = .opened ∧ (s.client.streams id).isSome then
      some { s with body, trailer, offset := 0, sent := [], pc := .head }
    else none
  | .run, s => s.advance id

def payload (s : Respond) : Bytes := (s.sent.map Prod.fst).flatten

end Respond

/-! ## what a frame does -/

/-- what a frame does to the stream `id` -/
def PeerFrame.touch (id : Nat) (stream : Option Stream) : PeerFrame → Option Stream
  | .settings _ => stream
  | .windowUpdate i value =>
    if i = id then stream.map fun st =>
      { st with remoteWindowSize := (st.remoteWindowSize + value) % 2^32 } else stream
  | .rstStream i _ => if i = id then none else stream

variable {c : Config} {id : Nat}

lemma length_settingBytes (params : List (Nat × Nat)) :
    (params.flatMap PeerFrame.settingBytes).length = params.length * 6 := by
  induction params with
  | nil => rfl
  | cons p params ih =>
    rw [flatMap_cons, length_append, ih, PeerFrame.settingBytes, length_append, length_beBytes,
      length_beBytes, length_cons]
    omega

lemma PeerFrame.touch_none (f : PeerFrame) : f.touch id none = none := by cases f <;> simp [touch]

variable {f : PeerFrame} {stream : Option Stream} {s : Session}

lemma PeerFrame.touch_cases {st' : Stream} (h : f.touch id stream = some st') :
    (stream = some st' ∧ ∀ value, f ≠ .windowUpdate id value) ∨
      ∃ value st, f = .windowUpdate id value ∧ stream = some st ∧
        st' = { st with remoteWindowSize := (st.remoteWindowSize + value) % 2^32 } := by
  cases f with
  | settings params => exact .inl ⟨h, fun value => PeerFrame.noConfusion⟩
  | windowUpdate i value =>
    by_cases hi : i = id
    · rw [touch, if_pos hi] at h
      obtain ⟨st, hst, he⟩ := map_eq_some_iff.1 h
      exact .inr ⟨value, st, by rw [hi], hst, he.symm⟩
    · rw [touch, if_neg hi] at h
      exact .inl ⟨h, fun value he => hi (PeerFrame.windowUpdate.inj he).1⟩
  | rstStream i code =>
    by_cases hi : i = id
    · rw [touch, if_pos hi] at h
      cases h
    · rw [touch, if_neg hi] at h
      exact .inl ⟨h, fun value => PeerFrame.noConfusion⟩

/-- the frame resets the stream `id` -/
def PeerFrame.Resets (id : Nat) : PeerFrame → Prop
  | .rstStream i _ => i = id
  | _ => False

instance (id : Nat) (f : PeerFrame) : Decidable (f.Resets id) := by
  cases f <;> dsimp only [PeerFrame.Resets] <;> infer_instance

lemma PeerFrame.touch_isSome {st : Stream} (hst : stream = some st) (hf : ¬ f.Resets id) :
    ∃ st', f.touch id stream = some st' := by
  cases f with
  | settings params => exact ⟨st, hst⟩
  | windowUpdate i value =>
    rw [touch, hst]
    split
    · exact ⟨_, rfl⟩
    · exact ⟨st, rfl⟩
  | rstStream i code =>
    rw [touch, if_neg (show i ≠ id from hf)]
    exact ⟨st, hst⟩

/-- the frame resumes the coroutine of the stream `id` -/
def PeerFrame.Wakes (c : Config) (id : Nat) (stream : Option Stream) (f : PeerFrame) : Prop :=
  (∃ value, f = .windowUpdate id value) ∧ c.sendYield = true ∧ ∃ st, stream = some st ∧ st.waiting = true

/-- what the parser makes of a frame, for the stream `id` -/
structure PeerFrame.Seen (c : Config) (id : Nat) (f : PeerFrame) (s : Session) (r : Parsed) : Prop where
  up : r.client.shuttingDown = false
  localSettings : r.client.localSettings = s.localSettings
  stream : r.client.streams id = f.touch id (s.streams id)
  acts : .resume id ∈ r.acts ↔ f.Wakes c id (s.streams id)

section
variable (hup : s.shuttingDown = false)
include hup

lemma seen_settings (params : List (Nat × Nat)) (payload : Bytes) :
    (PeerFrame.settings params).Seen c id s (s.onSettings 0 0 payload) where
  up := hup
  localSettings := rfl
  stream := rfl
  acts := by simp [Session.onSettings, isAck, PeerFrame.Wakes]

lemma seen_rstStream (i code : Nat) : (PeerFrame.rstStream i code).Seen c id s (s.onRstStream i) where
  up := hup
  localSettings := rfl
  stream := by simp only [Session.onRstStream, Session.setStream, PeerFrame.touch, update_apply, eq_comm]
  acts := by simp [Session.onRstStream, PeerFrame.Wakes]

lemma seen_windowUpdate (hid : 0 < id) {i value : Nat} {payload : Bytes}
    (hvalue : be (payload.take 4) = value) :
    (PeerFrame.windowUpdate i value).Seen c id s (s.onWindowUpdate c i payload) := by
  simp only [Session.onWindowUpdate, hvalue]
  by_cases hi : i = 0
  · have hne : i ≠ id := by omega
    rw [if_pos hi]
    refine ⟨hup, rfl, ?_, by simp [PeerFrame.Wakes, hne]⟩
    rw [PeerFrame.touch, if_neg hne]
    rfl
  · rw [if_neg hi]
    cases hst : s.streams i with
    | none =>
      refine ⟨hup, rfl, ?_, ?_⟩
      · show s.streams id = _
        rw [PeerFrame.touch]
        split
        · next h => rw [← h, hst]; rfl
        · rfl
      · simp only [not_mem_nil, false_iff]
        rintro ⟨⟨v, hv⟩, -, st, hstream, -⟩
        rw [← (PeerFrame.windowUpdate.inj hv).1, hst] at hstream
        exact some_ne_none _ hstream.symm
    | some st =>
      refine ⟨hup, rfl, ?_, ?_⟩
      · simp only [Session.setStream, PeerFrame.touch, update_apply, eq_comm (a := id)]
        split
        · next h => rw [← h, hst]; rfl
        · rfl
      · simp only [PeerFrame.Wakes]
        by_cases hne : i = id
        · subst hne
          simp [hst]
        · simp [hne, Ne.symm hne]

end

lemma PeerFrame.Seen.of_noteStream {k : Nat} {r : Parsed} (h : f.Seen c id (s.noteStream k) r) :
    f.Seen c id s r := by
  obtain ⟨hup, hlocal, hstream, hacts⟩ := h
  rw [s.noteStream_streams] at hstream hacts
  exact ⟨hup, hlocal.trans (s.noteStream_localSettings k), hstream, hacts⟩

lemma parse_frame (hf : f.Legal) (hid : 0 < id) (hdown : s.shuttingDown = false) :
    f.Seen c id s (s.parse c f.bytes) := by
  have hnote : ∀ k, (s.noteStream k).shuttingDown = false := fun k => (s.noteStream_shuttingDown k).trans hdown
  cases f with
  | settings params =>
    have hlen : (params.flatMap PeerFrame.settingBytes).length < 2^24 := by
      rw [length_settingBytes]
      exact hf.1
    rw [PeerFrame.bytes, Session.parse_wire c hdown .settings 0 _ (by decide) hlen]
    exact (seen_settings (hnote 0) params _).of_noteStream
  | rstStream i code =>
    have hlen : (beBytes 4 code).length < 2^24 := by
      rw [length_beBytes]
      decide
    rw [PeerFrame.bytes, Session.parse_wire c hdown .rstStream 0 _ hf.1 hlen]
    exact (seen_rstStream (hnote i) i code).of_noteStream
  | windowUpdate i value =>
    have hlen : (beBytes 4 value).length = 4 := length_beBytes 4 value
    have hvalue : be ((beBytes 4 value).take 4) = value := by
      rw [take_of_length_le (le_of_eq hlen), be_beBytes, Nat.mod_eq_of_lt (Nat.lt_of_lt_of_eq hf.2 (by decide))]
    rw [PeerFrame.bytes, Session.parse_wire c hdown .windowUpdate 0 _ hf.1 (by rw [hlen]; decide)]
    exact (seen_windowUpdate (hnote i) hid hvalue).of_noteStream

/-! ## the stream is there while it is used -/

def RespondPc.isSending : RespondPc → Bool
  | .sending .. => true
  | _ => false

/-- where the stream is, by the place of the coroutine -/
def RespondPc.Held : RespondPc → Option Stream → Prop
  | .before, stream | .returned, stream => stream = none
  | .opened, stream => ∀ st, stream = some st → st.waiting = false
  | .head, stream | .sending .., stream => ∃ st, stream = some st ∧ st.waiting = false
  | .waiting, stream => ∀ st, stream = some st → st.waiting = true ∧ st.remoteWindowSize = 0

namespace Respond

structure Live (id : Nat) (s : Respond) : Prop where
  up : s.client.shuttingDown = false
  frameSize : 0 < s.client.localSettings.maxFrameSize
  fresh : s.stale = false
  held : s.pc.Held (s.client.streams id)

variable {s s' : Respond}

lemma withStream_some {st : Stream} (h : s.client.streams id = some st) (f : Stream → Respond) :
    s.withStream id f = f st := by
  rw [withStream, h]

inductive Moves (id : Nat) (st : Stream) (s : Respond) : Respond → Prop where
  | done (hpc : s.pc = .head) (hlen : s.body.length ≤ s.offset) :
      Moves id st s { s with client := s.client.setStream id none, pc := .returned }
  | wait (hpc : s.pc = .head) (hlen : s.offset < s.body.length) (hw : st.remoteWindowSize = 0) :
      Moves id st s
        { s with client := s.client.setStream id (some { st with waiting := true }), pc := .waiting }
  | send {sendLen : Nat} {endStream : Bool} (hpc : s.pc = .head) (hpos : 0 < sendLen)
      (hlen : s.offset + sendLen ≤ s.body.length) (hw : sendLen ≤ st.remoteWindowSize)
      (hend : endStream = (decide (s.offset + sendLen = s.body.length) && !s.trailer)) :
      Moves id st s { s with pc := .sending sendLen sendLen endStream }
  | frame {sendLen left sendN : Nat} {endStream : Bool} (hpc : s.pc = .sending sendLen left endStream)
      (hpos : 0 < sendN) (hle : sendN ≤ left) :
      Moves id st s { s with
        sent := s.sent ++ [((s.body.drop (s.offset + (sendLen - left))).take sendN,
          decide (sendN = left) && endStream)]
        pc := .sending sendLen (left - sendN) endStream }
  | sent {sendLen : Nat} {endStream : Bool} (hpc : s.pc = .sending sendLen 0 endStream) :
      Moves id st s { s with
        offset := s.offset + sendLen
        client := s.client.setStream id (some { st with remoteWindowSize := st.remoteWindowSize - sendLen })
        pc := .head }

lemma advance_moves (hs : s.Live id) (h : s.advance id = some s') :
    ∃ st, s.client.streams id = some st ∧ st.waiting = false ∧ Moves id st s s' := by
  have hheld := hs.held
  rcases RespondPc.resume_cases h with ⟨hpc, rfl⟩ | ⟨sendLen, left, endStream, hpc, rfl⟩
  · rw [hpc] at hheld
    obtain ⟨st, hst, hwait⟩ := hheld
    refine ⟨st, hst, hwait, ?_⟩
    rw [atHead, withStream_some hst]
    dsimp only
    split
    · next hlen => exact .done hpc (by omega)
    · split
      · next hw => exact .wait hpc (by omega) hw
      · split
        · refine .send hpc (by omega) (by omega) le_rfl ?_
          rw [decide_eq_false (by omega), Bool.false_and]
        · refine .send hpc (by omega) (by omega) (by omega) ?_
          rw [decide_eq_true (by omega), Bool.true_and]
  · rw [hpc] at hheld
    obtain ⟨st, hst, hwait⟩ := hheld
    refine ⟨st, hst, hwait, ?_⟩
    rw [sendBody, withStream_some hst]
    by_cases hleft : left = 0
    · subst hleft
      have hw : (if sendLen > st.remoteWindowSize then 0 else st.remoteWindowSize - sendLen) =
          st.remoteWindowSize - sendLen := by
        split <;> omega
      rw [hw]
      exact .sent hpc
    · rw [if_neg hleft]
      have hmax := hs.frameSize
      by_cases hbig : left > s.client.localSettings.maxFrameSize
      · have hmove : Moves id st s _ := .frame hpc hmax (le_of_lt hbig)
        rw [decide_eq_false (by omega), Bool.false_and] at hmove
        rw [if_pos hbig, if_pos hbig]
        exact hmove
      · have hmove : Moves id st s _ := .frame hpc (pos_of_ne_zero hleft) le_rfl
        rw [decide_eq_true rfl, Bool.true_and] at hmove
        rw [if_neg hbig, if_neg hbig]
        exact hmove

lemma Live.advance (hs : s.Live id) (h : s.advance id = some s') : s'.Live id := by
  obtain ⟨st, hst, hwait, hmove⟩ := advance_moves hs h
  obtain ⟨hup, hmax, hfresh, -⟩ := hs
  cases hmove with
  | done hpc hlen => exact ⟨hup, hmax, hfresh, Session.setStream_self ..⟩
  | wait hpc hlen hw =>
    refine ⟨hup, hmax, hfresh, fun st' hst' => ?_⟩
    rw [← some.inj ((Session.setStream_self ..).symm.trans hst')]
    exact ⟨rfl, hw⟩
  | send hpc hpos hlen hw hend | frame hpc hpos hle => exact ⟨hup, hmax, hfresh, st, hst, hwait⟩
  | sent hpc => exact ⟨hup, hmax, hfresh, _, Session.setStream_self .., hwait⟩

/-- what a frame does to the response: the stream is touched, or a waiting coroutine resumed -/
inductive Takes (c : Config) (id : Nat) (f : PeerFrame) (s : Respond) : Respond → Prop where
  | touch {client : Session} (hwakes : ¬ f.Wakes c id (s.client.streams id)) (hup : client.shuttingDown = false)
      (hlocal : client.localSettings = s.client.localSettings)
      (hstream : client.streams id = f.touch id (s.client.streams id)) :
        Takes c id f s { s.note id f with client }
  | resume {client : Session} {value : Nat} {st : Stream} (hf : f = .windowUpdate id value)
      (hup : client.shuttingDown = false) (hlocal : client.localSettings = s.client.localSettings)
      (hst : s.client.streams id = some st) (hwait : st.waiting = true)
      (hstream : client.streams id =
        some { st with remoteWindowSize := (st.remoteWindowSize + value) % 2^32, waiting := false }) :
      Takes c id f s { s.note id f with client, pc := .head }

lemma onFrame_takes (hs : s.Live id) (hf : f.Legal) (hid : 0 < id) :
    Takes c id f s (s.onFrame c id f) := by
  obtain ⟨hup, hlocal, hstream, hacts⟩ := parse_frame (c := c) hf hid hs.up
  unfold onFrame
  generalize s.client.parse c f.bytes = r at hup hlocal hstream hacts ⊢
  by_cases hwakes : f.Wakes c id (s.client.streams id)
  · rw [if_pos (hacts.2 hwakes), resumed]
    obtain ⟨⟨value, rfl⟩, hyield, st, hst, hwait⟩ := hwakes
    rw [PeerFrame.touch, if_pos rfl, hst] at hstream
    rw [withStream_some hstream]
    exact .resume rfl hup hlocal hst hwait (Session.setStream_self ..)
  · rw [if_neg fun h => hwakes (hacts.1 h)]
    exact .touch hwakes hup hlocal hstream

lemma held_touch {pc : RespondPc} {stream : Option Stream} (h : pc.Held stream)
    (hyield : c.sendYield = true) (hwakes : ¬ f.Wakes c id stream) (hhead : pc ≠ .head)
    (hreset : pc.isSending = true → ¬ f.Resets id) : pc.Held (f.touch id stream) := by
  -- the flag `waiting` of a stream stays as it is
  have hflag : ∀ st', f.touch id stream = some st' → ∃ st, stream = some st ∧ st'.waiting = st.waiting := by
    intro st' hst'
    rcases PeerFrame.touch_cases hst' with ⟨hst, -⟩ | ⟨value, st, -, hst, rfl⟩
    · exact ⟨st', hst, rfl⟩
    · exact ⟨st, hst, rfl⟩
  cases pc with
  | before | returned =>
    rw [show stream = none from h]
    exact f.touch_none
  | opened =>
    intro st' hst'
    obtain ⟨st, hst, he⟩ := hflag st' hst'
    exact he.trans (h st hst)
  | head => exact absurd rfl hhead
  | sending sendLen left endStream =>
    obtain ⟨st, hst, hwait⟩ := h
    obtain ⟨st', hst'⟩ := PeerFrame.touch_isSome hst (hreset rfl)
    obtain ⟨st₀, hst₀, he⟩ := hflag st' hst'
    rw [some.inj (hst₀.symm.trans hst)] at he
    exact ⟨st', hst', he.trans hwait⟩
  | waiting =>
    intro st' hst'
    rcases PeerFrame.touch_cases hst' with ⟨hst, -⟩ | ⟨value, st, hf, hst, -⟩
    · exact h st' hst
    · exact absurd ⟨⟨value, hf⟩, hyield, st, hst, (h st hst).1⟩ hwakes

lemma Live.onFrame (hs : s.Live id) (hf : f.Legal) (hid : 0 < id) (hyield : c.sendYield = true)
    (hhead : s.pc ≠ .head) (hreset : s.pc.isSending = true → ¬ f.Resets id) :
    (s.onFrame c id f).Live id := by
  have htakes := onFrame_takes (c := c) hs hf hid
  generalize s.onFrame c id f = s' at htakes
  obtain ⟨-, hmax, hfresh, hheld⟩ := hs
  cases htakes with
  | touch hwakes hup hlocal hstream =>
    refine ⟨hup, lt_of_lt_of_eq hmax (congrArg _ hlocal.symm), hfresh, ?_⟩
    have htouch := held_touch hheld hyield hwakes hhead hreset
    rw [← hstream] at htouch
    exact htouch
  | resume hf hup hlocal hst hwait hstream =>
    exact ⟨hup, lt_of_lt_of_eq hmax (congrArg _ hlocal.symm), hfresh, _, hstream, rfl⟩

lemma parse_headers {s : Session} {flags : UInt8} {block : Bytes} (hid : id < 2^31)
    (hdown : s.shuttingDown = false)
    (hlen : block.length < 2^24) (hinflate : c.inflate flags block = true) (hnone : s.streams id = none) :
    (s.parse c (wire .headers flags id block)).client =
      (s.noteStream id).setStream id (some s.newStream) := by
  rw [Session.parse_wire c hdown .headers flags block hid hlen]
  simp only [Session.dispatch, Session.onHeaders, s.noteStream_streams,
    s.noteStream_newStream, hnone, hinflate, if_true]
  rfl

/-- `RST_STREAM` for the stream does not come while a frame is being sent -/
def Undisturbed (id : Nat) : RespondEvent → Respond → Prop
  | .frame f, s => s.pc.isSending = true → ¬ f.Resets id
  | _, _ => True

instance (id : Nat) (e : RespondEvent) (s : Respond) : Decidable (Undisturbed id e s) := by
  cases e <;> dsimp only [Undisturbed] <;> infer_instance

lemma Live.step {e : RespondEvent} (hid : 0 < id ∧ id < 2^31) (hyield : c.sendYield = true)
    (hcond : Undisturbed id e s) (hs : s.Live id) (h : Respond.step c id e s = some s') :
    s'.Live id := by
  cases e with
  | frame f =>
    obtain ⟨⟨hf, hhead⟩, he⟩ := ite_none_right_eq_some.1 h
    cases he
    exact hs.onFrame hf hid.1 hyield hhead hcond
  | openStream flags block =>
    obtain ⟨⟨hpc, hlen, hinflate⟩, he⟩ := ite_none_right_eq_some.1 h
    obtain ⟨hup, hmax, hfresh, hheld⟩ := hs
    rw [hpc] at hheld
    rw [← some.inj he, parse_headers hid.2 hup hlen hinflate hheld]
    refine ⟨(s.client.noteStream_shuttingDown id).trans hup, ?_, hfresh, fun st hst => ?_⟩
    · exact lt_of_lt_of_eq hmax (congrArg _ (s.client.noteStream_localSettings id).symm)
    · rw [← some.inj ((Session.setStream_self ..).symm.trans hst)]
      rfl
  | respond body trailer =>
    obtain ⟨⟨hpc, hsome⟩, he⟩ := ite_none_right_eq_some.1 h
    obtain ⟨hup, hmax, hfresh, hheld⟩ := hs
    rw [hpc] at hheld
    obtain ⟨st, hst⟩ := isSome_iff_exists.1 hsome
    cases he
    exact ⟨hup, hmax, hfresh, st, hst, hheld st hst⟩
  | run => exact hs.advance h

lemma Live.start {client : Session} (hfree : client.streams id = none) (hup : client.shuttingDown = false)
    (hmax : 0 < client.localSettings.maxFrameSize) (announced : Nat) : (start client announced).Live id :=
  ⟨hup, hmax, rfl, hfree⟩

/-! ## a waiting response -/

end Respond

/-- the frame gives the stream a window, by an increment or by a larger initial window, or resets it -/
def PeerFrame.Frees (id announced : Nat) : PeerFrame → Prop
  | .settings params => announced < (PeerFrame.settings params).announce announced
  | .windowUpdate i value => i = id ∧ 0 < value % 2^31
  | .rstStream i _ => i = id

def PeerFrame.isUpdate : PeerFrame → Bool
  | .windowUpdate .. => true
  | _ => false

namespace Respond

variable {s s' : Respond}

lemma frame_resumes {value : Nat} (hs : s.Live id) (hid : 0 < id) (hyield : c.sendYield = true)
    (hpc : s.pc = .waiting) (hopen : s.client.streams id ≠ none) (hvalue : 0 < value % 2^31)
    (h : Respond.step c id (.frame (.windowUpdate id value)) s = some s') :
    s'.pc = .head ∧ ∃ t, Respond.step c id .run s' = some t ∧ t.pc ≠ .waiting := by
  obtain ⟨⟨hf, -⟩, he⟩ := ite_none_right_eq_some.1 h
  obtain ⟨st, hst⟩ := ne_none_iff_exists'.1 hopen
  have hheld := hs.held
  rw [hpc] at hheld
  obtain ⟨hwait, hzero⟩ := hheld st hst
  have htakes := onFrame_takes (c := c) hs hf hid
  rw [some.inj he] at htakes
  cases htakes with
  | touch hwakes hup hlocal hstream => exact absurd ⟨⟨value, rfl⟩, hyield, st, hst, hwait⟩ hwakes
  | @resume client value' st' hvalue' hup hlocal hst' hwait' hstream =>
    refine ⟨rfl, _, rfl, ?_⟩
    rw [← (PeerFrame.windowUpdate.inj hvalue').2, some.inj (hst'.symm.trans hst), hzero, zero_add,
      Nat.mod_eq_of_lt hf.2] at hstream
    rw [atHead, withStream_some hstream]
    have hne : value ≠ 0 := by
      intro hzero
      rw [hzero] at hvalue
      cases hvalue
    dsimp only
    split
    · exact RespondPc.noConfusion
    · split <;> exact RespondPc.noConfusion

theorem waiting_resumed (c : Config) (id : Nat) (hid : 0 < id ∧ id < 2^31) (hyield : c.sendYield = true)
    (client : Session) (hfree : client.streams id = none) (hup : client.shuttingDown = false)
    (hmax : 0 < client.localSettings.maxFrameSize) (announced : Nat) (events : List RespondEvent)
    (hevents : Along (Respond.step c id) (Undisturbed id) events (start client announced)) (s : Respond)
    (hs : iter (Respond.step c id) events (start client announced) = some s) :
    s.stale = false ∧ ∀ f s', s.pc = .waiting → Respond.step c id (.frame f) s = some s' →
      f.Frees id s.announced → s.client.streams id ≠ none ∧ f.isUpdate = true →
      s'.pc = .head ∧ ∃ t, Respond.step c id .run s' = some t ∧ t.pc ≠ .waiting := by
  have hlive : s.Live id := iter_keeps (fun e s s' hcond hs h => hs.step hid hyield hcond h) events hevents
    (Live.start hfree hup hmax announced) hs
  refine ⟨hlive.fresh, fun f s' hpc hstep hfrees hcond => ?_⟩
  cases f with
  | windowUpdate i value =>
    obtain ⟨rfl, hvalue⟩ := hfrees
    exact frame_resumes hlive hid.1 hyield hpc hcond.1 hvalue hstep
  | settings params | rstStream i code => cases hcond.2

def oneByte : List RespondEvent :=
  [.frame (.settings [(4, 1)]), .openStream 5 [0x82], .respond [7, 8] false, .run, .run, .run, .run]

theorem waiting_resumed_once : ∃ s s', iter (Respond.step .lenient 1) oneByte (start .new 65535) = some s ∧
    s.pc = .waiting ∧ Respond.step .lenient 1 (.frame (.windowUpdate 1 1)) s = some s' ∧ s'.pc = .head := by
  have hevents : Along (Respond.step .lenient 1) (Undisturbed 1) oneByte (start .new 65535) := by
    decide +kernel
  have hrun : (iter (Respond.step .lenient 1) oneByte (start .new 65535)).map (fun s =>
      (s.pc, (s.client.streams 1).isSome, (Respond.step .lenient 1 (.frame (.windowUpdate 1 1)) s).isSome)) =
        some (.waiting, true, true) := by
    decide +kernel
  obtain ⟨s, hs, hstate⟩ := map_eq_some_iff.1 hrun
  obtain ⟨hpc, hstream, hstep⟩ := Prod.mk.inj hstate |>.imp_right Prod.mk.inj
  obtain ⟨s', hs'⟩ := isSome_iff_exists.1 hstep
  have hresumed :=
    (waiting_resumed .lenient 1 (by decide) rfl .new rfl rfl (by decide) 65535 oneByte hevents s hs).2
    (.windowUpdate 1 1) s' hpc hs' ⟨rfl, by decide⟩ ⟨isSome_iff_ne_none.1 hstream, rfl⟩
  exact ⟨s, s', hs, hpc, hs', hresumed.1⟩

structure Stuck (id : Nat) (s : Respond) : Prop where
  live : s.Live id
  pc : s.pc = .waiting
  gone : s.client.streams id = none

lemma Stuck.step {e : RespondEvent} (hid : 0 < id ∧ id < 2^31) (hyield : c.sendYield = true)
    (hs : s.Stuck id) (h : Respond.step c id e s = some s') : s'.Stuck id := by
  obtain ⟨hlive, hpc, hgone⟩ := hs
  cases e with
  | frame f =>
    have hcond : Undisturbed id (.frame f) s := by
      intro hsending
      rw [hpc] at hsending
      cases hsending
    have hlive' := hlive.step hid hyield hcond h
    obtain ⟨⟨hf, -⟩, he⟩ := ite_none_right_eq_some.1 h
    have htakes := onFrame_takes (c := c) hlive hf hid.1
    rw [some.inj he] at htakes
    cases htakes with
    | touch hwakes hup hlocal hstream =>
      refine ⟨hlive', hpc, hstream.trans ?_⟩
      rw [hgone]
      exact f.touch_none
    | resume hvalue hup hlocal hst hwait hstream => cases hst.symm.trans hgone
  | openStream flags block =>
    obtain ⟨⟨hbefore, -⟩, -⟩ := ite_none_right_eq_some.1 h
    cases hpc.symm.trans hbefore
  | respond body trailer =>
    obtain ⟨⟨hopened, -⟩, -⟩ := ite_none_right_eq_some.1 h
    cases hpc.symm.trans hopened
  | run =>
    have hadvance : s.advance id = some s' := h
    rw [advance, hpc] at hadvance
    cases hadvance

theorem reset_hangs :
    (∃ s, iter (Respond.step .lenient 1) (oneByte ++ [.frame (.rstStream 1 8)]) (start .new 65535) = some s ∧
      ∀ events t, iter (Respond.step .lenient 1) events s = some t → t.pc = .waiting) ∧
    (iter (Respond.step .lenient 1) (oneByte ++ [.frame (.settings [(4, 100)])]) (start .new 65535)).map
      (fun s => (s.pc, s.announced)) = some (.waiting, 100) := by
  refine ⟨?_, by decide +kernel⟩
  refine exists_of_map (fun s => (s.pc, s.client.streams 1)) (show _ = some (.waiting, none) by decide +kernel)
    fun s hs hstate events t ht => ?_
  obtain ⟨hpc, hgone⟩ := Prod.mk.inj hstate
  have hlive : s.Live 1 :=
    iter_keeps (C := Undisturbed 1) (fun e s s' hcond hs h => hs.step (by decide) rfl hcond h) _
    (by decide +kernel) (Live.start rfl rfl (by decide) 65535) hs
  exact (iter_invariant (J := Stuck 1) (fun e s s' hs h => hs.step (by decide) rfl h) events
    ⟨hlive, hpc, hgone⟩ ht).pc

end Respond

end OSW.Http2
