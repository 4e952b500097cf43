import Mathlib.Algebra.GroupWithZero.Nat
import OpenSwoole.Protocol.Http2

/-!
# The receive windows of an HTTP/2 connection

A peer that uploads on many streams, and the server.  The peer keeps a window for the connection and one for
each stream, all 65535 at first (`http2::send_setting_frame` announces nothing else), sends `DATA` only
within both, and adds the increments of the `WINDOW_UPDATE` frames that it reads.  The server counts down
its own windows in `openswoole_http2_server_parse`, and sends an update when one is low.  What the two
sides hold differs by what is under way.

After `GOAWAY` the server ignores every frame.

* `Session.consume_spec`   what a `DATA` frame does to a window;
* `Link.windows_agree`   **both sides have the same windows**, which do not overflow and are not low after
    a `DATA` frame.
-/

namespace OSW.Http2
open Function List Option Machine

/-! ## frames under way -/

inductive Upload where
  | headers (streamId : Nat) (flags : UInt8) (block : Bytes)
  | data (streamId : Nat) (flags : UInt8) (payload : Bytes)
  deriving DecidableEq

namespace Upload

def streamId : Upload → Nat
  | .headers id _ _ | .data id _ _ => id

def bytes : Upload → Bytes
  | .headers id flags block => wire .headers flags id block
  | .data id flags payload => wire .data flags id payload

def size : Upload → Nat
  | .headers _ _ _ => 0
  | .data _ _ payload => payload.length

def isData : Upload → Bool
  | .headers _ _ _ => false
  | .data _ _ _ => true

/-- the numbers fit into their fields -/
def Legal : Upload → Prop
  | .headers id _ block => 0 < id ∧ id < 2^31 ∧ block.length < 2^24
  | .data id _ payload => 0 < id ∧ id < 2^31 ∧ payload.length < 2^24

instance (u : Upload) : Decidable u.Legal := by
  cases u <;> dsimp only [Upload.Legal] <;> infer_instance

def ofStream (id : Nat) (l : List Upload) : List Upload := l.filter fun u => u.streamId = id

/-- the bytes of the `DATA` frames -/
def total (l : List Upload) : Nat := (l.map size).sum

end Upload

/-- the increment that a frame of the server has for a stream, or for the connection as the stream 0 -/
def grantIn (id : Nat) (frame : Bytes) : Nat :=
  if FrameType.ofCode (readHead frame).type = some .windowUpdate ∧ (readHead frame).streamId = id then
    be ((frame.drop frameHeaderSize).take 4) % 2^31
  else 0

def granted (id : Nat) (frames : List Bytes) : Nat := (frames.map (grantIn id)).sum

def Act.frame : Act → Option Bytes
  | .send frame => some frame
  | _ => none

/-! ## the two sides -/

/-- `ended`: the peer has sent `END_STREAM` -/
structure PeerStream where
  window : Nat
  ended : Bool

/-- `window` and `streams` are the peer's; `toServer` and `toPeer` are under way -/
structure Link where
  server : Session
  window : Nat
  streams : Nat → Option PeerStream
  toServer : List Upload
  toPeer : List Bytes

inductive LinkEvent where
  | headers (streamId : Nat) (flags : UInt8) (block : Bytes)
  | data (streamId : Nat) (flags : UInt8) (payload : Bytes)
  /-- the server parses the next frame -/
  | arrive
  /-- the peer reads the next frame -/
  | receive
  /-- the response to a stream has been sent, and the stream is deleted -/
  | finished (streamId : Nat)
  /-- `openswoole_http2_server_goaway` -/
  | goaway (errorCode : Nat) (debugData : Bytes)

def LinkEvent.isGoaway : LinkEvent → Bool
  | .goaway _ _ => true
  | _ => false

/-- the frame that `openswoole_http2_server_goaway` sends; the error code is given for the flags too -/
def goawayFrame (lastStreamId errorCode : Nat) (debugData : Bytes) : Bytes :=
  setFrameHeader .goaway (8 + debugData.length) (UInt8.ofNat errorCode) 0 ++
    (beBytes 4 lastStreamId ++ (beBytes 4 errorCode ++ debugData))

namespace Link

def start : Link := ⟨.new, defaultWindowSize, fun _ => none, [], []⟩

def sendHeaders (s : Link) (id : Nat) (flags : UInt8) (block : Bytes) : Link :=
  { s with
    streams := update s.streams id (some ⟨defaultWindowSize, endStream flags⟩)
    toServer := s.toServer ++ [.headers id flags block] }

def sendData (s : Link) (stream : PeerStream) (id : Nat) (flags : UInt8) (payload : Bytes) : Link :=
  { s with
    window := s.window - payload.length
    streams := update s.streams id (some ⟨stream.window - payload.length, endStream flags⟩)
    toServer := s.toServer ++ [.data id flags payload] }

/-- `openswoole_http2_server_onFrame`; an error closes the connection -/
def arrive (c : Config) (s : Link) : Option Link :=
  match s.toServer with
  | [] => none
  | u :: rest =>
    let r := s.server.parse c u.bytes
    if r.ok then
      some { s with server := r.client, toServer := rest, toPeer := s.toPeer ++ r.acts.filterMap Act.frame }
    else none

def receive (s : Link) : Option Link :=
  match s.toPeer with
  | [] => none
  | frame :: rest =>
    some { s with
      window := s.window + grantIn 0 frame
      streams := fun id => (s.streams id).map fun stream =>
        { stream with window := stream.window + grantIn id frame }
      toPeer := rest }

def step (c : Config) : LinkEvent → Link → Option Link
  | .headers id flags block, s =>
    if (Upload.headers id flags block).Legal ∧
      (s.streams id).isNone then some (s.sendHeaders id flags block) else none
  | .data id flags payload, s =>
    match s.streams id with
    | none => none
    | some stream =>
      if (Upload.data id flags payload).Legal ∧ stream.ended = false ∧ payload.length ≤ stream.window ∧
          payload.length ≤ s.window then
        some (s.sendData stream id flags payload)
      else none
  | .arrive, s => s.arrive c
  | .receive, s => s.receive
  | .finished id, s =>
    if (s.streams id).any (fun stream => stream.ended) ∧ Upload.ofStream id s.toServer = [] then
      some { s with server := s.server.setStream id none }
    else none
  | .goaway errorCode debugData, s =>
    some { s with
      server := { s.server with shuttingDown := true }
      toPeer := s.toPeer ++ [goawayFrame s.server.lastStreamId errorCode debugData] }

end Link

/-! ## sums -/

namespace Upload

lemma ofStream_cons_self (u : Upload) (l : List Upload) :
    ofStream u.streamId (u :: l) = u :: ofStream u.streamId l :=
  filter_cons_of_pos (decide_eq_true rfl)

variable {id : Nat} {u : Upload}

lemma ofStream_cons_ne (h : u.streamId ≠ id) (l : List Upload) : ofStream id (u :: l) = ofStream id l :=
  filter_cons_of_neg (by simp [h])

lemma ofStream_snoc_self (l : List Upload) (u : Upload) :
    ofStream u.streamId (l ++ [u]) = ofStream u.streamId l ++ [u] := by
  simp [ofStream]

lemma ofStream_snoc_ne (l : List Upload) (h : u.streamId ≠ id) :
    ofStream id (l ++ [u]) = ofStream id l := by
  simp [ofStream, h]

@[simp] lemma total_nil : total [] = 0 := rfl

@[simp] lemma total_cons (u : Upload) (l : List Upload) : total (u :: l) = u.size + total l := by
  simp [total]

@[simp] lemma total_append (l l' : List Upload) : total (l ++ l') = total l + total l' := by simp [total]

end Upload

@[simp] lemma granted_nil (id : Nat) : granted id [] = 0 := rfl

@[simp] lemma granted_cons (id : Nat) (frame : Bytes) (l : List Bytes) :
    granted id (frame :: l) = grantIn id frame + granted id l := by
  simp [granted]

@[simp] lemma granted_append (id : Nat) (l l' : List Bytes) :
    granted id (l ++ l') = granted id l + granted id l' := by
  simp [granted]

/-! ## a window of the server -/

lemma grantIn_windowUpdateFrame {id size : Nat} (hid : id < 2^31) (hsize : size < 2^31) (i : Nat) :
    grantIn i (Session.windowUpdateFrame id size) = if id = i then size else 0 := by
  have hlen : (beBytes 4 size).length = 4 := length_beBytes 4 size
  have hhead := readHead_wire .windowUpdate 0 (beBytes 4 size) hid (by omega)
  have hpayload := payload_wire .windowUpdate 0 id (beBytes 4 size)
  rw [hlen] at hpayload
  simp only [grantIn, Session.windowUpdateFrame, hhead, hpayload, FrameType.ofCode_code, true_and, be_beBytes]
  congr 1
  omega

namespace Session

lemma consume_spec {id window length : Nat} (hid : id < 2^31) (hlength : length ≤ window)
    (hwindow : window ≤ maxWindowSize) :
    ∃ more, (consume id window length).1 + length = window + more ∧
      (consume id window length).1 ≤ maxWindowSize ∧
      (0 < length → maxWindowSize / 4 ≤ (consume id window length).1) ∧
      ∀ i, granted i ((consume id window length).2.filterMap Act.frame) = if id = i then more else 0 := by
  have hmax : maxWindowSize = 2^31 - 1 := rfl
  have hleft : (window + 2^32 - length % 2^32) % 2^32 = window - length := by omega
  unfold consume
  simp only [hleft]
  split
  · next hlow =>
    refine ⟨maxWindowSize - (window - length), by omega, le_rfl, fun _ => by omega, fun i => ?_⟩
    show granted i [windowUpdateFrame id (maxWindowSize - (window - length))] = _
    rw [granted_cons, granted_nil, add_zero, grantIn_windowUpdateFrame hid (by omega)]
  · next hhigh =>
    refine ⟨0, by omega, by omega, fun hpos => by omega, fun i => ?_⟩
    show granted i [] = _
    rw [granted_nil, ite_self]

end Session

/-! ## one stream -/

/-- what the peer and the server hold of a stream: unused; its `HEADERS` frame under way; there; ended -/
inductive Phase (peer : Option PeerStream) (server : Option Stream) (mine : List Upload) (more : Nat) :
    Prop where
  | unused (hpeer : peer = none) (hserver : server = none) (hmine : mine = []) (hmore : more = 0)
  | opening {p : PeerStream} {u : Upload} {rest : List Upload} (hpeer : peer = some p) (hserver : server = none)
      (hmine : mine = u :: rest) (hhead : u.isData = false) (hrest : ∀ v ∈ rest, v.isData = true)
      (hwindow : defaultWindowSize = p.window + Upload.total rest) (hmore : more = 0)
  | live {p : PeerStream} {st : Stream} (hpeer : peer = some p) (hserver : server = some st)
      (hmine : ∀ v ∈ mine, v.isData = true) (hwindow : st.localWindowSize = p.window + Upload.total mine + more)
      (hmax : st.localWindowSize ≤ maxWindowSize)
  | ended {p : PeerStream} (hpeer : peer = some p) (hended : p.ended = true) (hserver : server = none)
      (hmine : mine = [])

namespace Phase

variable {peer : Option PeerStream} {server : Option Stream} {mine : List Upload} {more : Nat}

lemma headers (h : Phase none server mine more) (ended : Bool) (id : Nat) (flags : UInt8) (block : Bytes) :
    Phase (some ⟨defaultWindowSize, ended⟩) server (mine ++ [.headers id flags block]) more := by
  cases h with
  | unused hpeer hserver hmine hmore =>
    rw [hmine]
    exact .opening rfl hserver rfl rfl (nofun) rfl hmore
  | opening hpeer | live hpeer | ended hpeer => cases hpeer

lemma forall_snoc {mine : List Upload} (h : ∀ v ∈ mine, v.isData = true) (id : Nat) (flags : UInt8)
    (payload : Bytes) : ∀ v ∈ mine ++ [.data id flags payload], v.isData = true := by
  intro v hv
  rcases mem_append.1 hv with hv | hv
  · exact h v hv
  · rw [mem_singleton.1 hv]
    rfl

lemma data {p : PeerStream} (h : Phase (some p) server mine more) (hopen : p.ended = false) {payload : Bytes}
    (hlen : payload.length ≤ p.window) (ended : Bool) (id : Nat) (flags : UInt8) :
    Phase (some ⟨p.window - payload.length, ended⟩) server (mine ++ [.data id flags payload]) more := by
  cases h with
  | unused hpeer => cases hpeer
  | opening hpeer hserver hmine hhead hrest hwindow hmore =>
    rw [hmine, cons_append]
    refine .opening rfl hserver rfl hhead (forall_snoc hrest _ _ _) ?_ hmore
    rw [some.inj hpeer] at hlen ⊢
    simp only [Upload.total_append, Upload.total_cons, Upload.total_nil, Upload.size]
    omega
  | live hpeer hserver hmine hwindow hmax =>
    refine .live rfl hserver (forall_snoc hmine _ _ _) ?_ hmax
    rw [some.inj hpeer] at hlen ⊢
    simp only [Upload.total_append, Upload.total_cons, Upload.total_nil, Upload.size]
    omega
  | ended hpeer hended =>
    rw [some.inj hpeer, hended] at hopen
    cases hopen

variable {u : Upload}

lemma arriveHeaders (h : Phase peer server (u :: mine) more) (hu : u.isData = false) {st : Stream}
    (hst : st.localWindowSize = defaultWindowSize) :
    server = none ∧ Phase peer (some st) mine more := by
  cases h with
  | unused hpeer hserver hmine => cases hmine
  | opening hpeer hserver hmine hhead hrest hwindow hmore =>
    obtain ⟨-, rfl⟩ := cons.inj hmine
    refine ⟨hserver, .live hpeer rfl hrest ?_ (by rw [hst]; decide)⟩
    omega
  | live hpeer hserver hmine =>
    rw [hmine u mem_cons_self] at hu
    cases hu
  | ended hpeer hended hserver hmine => cases hmine

lemma arriveData (h : Phase peer server (u :: mine) more) (hu : u.isData = true) :
    ∃ st, server = some st ∧ u.size ≤ st.localWindowSize ∧ st.localWindowSize ≤ maxWindowSize ∧
      ∀ st' : Stream, ∀ extra, st'.localWindowSize + u.size = st.localWindowSize + extra →
        st'.localWindowSize ≤ maxWindowSize → Phase peer (some st') mine (more + extra) := by
  cases h with
  | unused hpeer hserver hmine => cases hmine
  | opening hpeer hserver hmine hhead =>
    rw [(cons.inj hmine).1, hhead] at hu
    cases hu
  | live hpeer hserver hmine hwindow hmax =>
    rw [Upload.total_cons] at hwindow
    refine ⟨_, hserver, by omega, hmax, fun st' extra he hle => ?_⟩
    exact .live hpeer rfl (fun v hv => hmine v (mem_cons_of_mem _ hv)) (by omega) hle
  | ended hpeer hended hserver hmine => cases hmine

lemma receive {n : Nat} (h : Phase peer server mine (n + more)) :
    Phase (peer.map fun p => { p with window := p.window + n }) server mine more := by
  cases h with
  | unused hpeer hserver hmine hmore => exact .unused (by rw [hpeer]; rfl) hserver hmine (by omega)
  | opening hpeer hserver hmine hhead hrest hwindow hmore =>
    refine .opening (by rw [hpeer]; rfl) hserver hmine hhead hrest ?_ (by omega)
    show _ = _ + n + _
    omega
  | live hpeer hserver hmine hwindow hmax =>
    refine .live (by rw [hpeer]; rfl) hserver hmine ?_ hmax
    show _ = _ + n + _ + _
    omega
  | @ended p hpeer hended hserver hmine =>
    exact .ended (p := { p with window := p.window + n }) (by rw [hpeer]; rfl) hended hserver hmine

end Phase

/-! ## the parser on a frame of the peer -/

section parse

variable {c : Config} {s : Session}

lemma handled_frame (id : Nat) (stream : Stream) (flags : UInt8) :
    (Session.handled id stream flags).filterMap Act.frame = [] := by
  unfold Session.handled
  split <;> rfl

variable {id : Nat} {flags : UInt8}

lemma parse_open (hup : s.shuttingDown = false) {block : Bytes}
    (hlegal : (Upload.headers id flags block).Legal) (hnew : s.streams id = none)
    (hok : (s.parse c (Upload.headers id flags block).bytes).ok = true) :
    let r := s.parse c (Upload.headers id flags block).bytes
    r.client.shuttingDown = false ∧ r.client.localSettings = s.localSettings ∧
      r.client.streams = update s.streams id (some s.newStream) ∧ r.acts.filterMap Act.frame = [] := by
  intro r
  have hr : r = (s.noteStream id).onHeaders c flags id block :=
    Session.parse_wire c hup .headers flags block hlegal.2.1 hlegal.2.2
  have hstream : ((s.noteStream id).streams id).getD (s.noteStream id).newStream = s.newStream := by
    rw [Session.noteStream_streams, hnew, Session.noteStream_newStream]
    rfl
  have hup' : (s.noteStream id).shuttingDown = false := (Session.noteStream_shuttingDown s id).trans hup
  have hlocal := Session.noteStream_localSettings s id
  have hstreams := Session.noteStream_streams s id
  rw [show s.parse c (Upload.headers id flags block).bytes = _ from hr] at hok
  rw [hr]
  unfold Session.onHeaders at hok ⊢
  simp only [hstream] at hok ⊢
  split at hok
  · next haccepts =>
    rw [if_pos haccepts]
    refine ⟨hup', hlocal, ?_, handled_frame ..⟩
    show update (s.noteStream id).streams id _ = _
    rw [hstreams]
  · cases hok

lemma parse_data (hup : s.shuttingDown = false) {payload : Bytes}
    (hlegal : (Upload.data id flags payload).Legal) {st : Stream} (hst : s.streams id = some st) :
    let r := s.parse c (Upload.data id flags payload).bytes
    let own := Session.consume id st.localWindowSize payload.length
    let all := Session.consume 0 s.localSettings.windowSize payload.length
    r.ok = true ∧ r.client.shuttingDown = false ∧ r.client.localSettings.windowSize = all.1 ∧
      (∃ st', r.client.streams = update s.streams id (some st') ∧ st'.localWindowSize = own.1) ∧
      r.acts.filterMap Act.frame = all.2.filterMap Act.frame ++ own.2.filterMap Act.frame := by
  intro r own all
  have hr : r = (s.noteStream id).onData flags id payload :=
    Session.parse_wire c hup .data flags payload hlegal.2.1 hlegal.2.2
  rw [hr]
  unfold Session.onData
  rw [Session.noteStream_streams, hst]
  simp only [Session.noteStream_localSettings]
  refine ⟨trivial, (Session.noteStream_shuttingDown s id).trans hup, rfl,
    ⟨{ st with localWindowSize := own.1, dataBuffer := some (st.dataBuffer.getD [] ++ payload) }, ?_, rfl⟩, ?_⟩
  · show update (s.noteStream id).streams id _ = _
    rw [Session.noteStream_streams]
  · rw [filterMap_append, filterMap_append, handled_frame, append_nil]

end parse

/-! ## runs -/

namespace Link

variable {c : Config}

/-- the account of the connection, and the phase of each stream -/
structure Inv (s : Link) : Prop where
  up : s.server.shuttingDown = false
  legal : ∀ u ∈ s.toServer, u.Legal
  window : s.server.localSettings.windowSize = s.window + Upload.total s.toServer + granted 0 s.toPeer
  max : s.server.localSettings.windowSize ≤ maxWindowSize
  zero : s.server.streams 0 = none
  phase : ∀ id, 0 < id →
    Phase (s.streams id) (s.server.streams id) (Upload.ofStream id s.toServer) (granted id s.toPeer)

lemma Inv.start : Inv start where
  up := rfl
  legal := nofun
  window := rfl
  max := by decide
  zero := rfl
  phase := fun id _ => .unused rfl rfl rfl rfl

variable {u : Upload} {s s' : Link} {id : Nat} {flags : UInt8} {block payload : Bytes}
  {rest : List Upload} {st : Stream}

lemma legal_snoc {l : List Upload} (hl : ∀ v ∈ l, v.Legal) (hu : u.Legal) : ∀ v ∈ l ++ [u], v.Legal := by
  intro v hv
  rcases mem_append.1 hv with hv | hv
  · exact hl v hv
  · rw [mem_singleton.1 hv]
    exact hu

section
variable (hs : s.Inv)
include hs

lemma Inv.phase_snoc {p : PeerStream}
    (hu : Phase (some p) (s.server.streams u.streamId) (Upload.ofStream u.streamId s.toServer ++ [u])
      (granted u.streamId s.toPeer))
    (hid : 0 < id) :
    Phase (update s.streams u.streamId (some p) id) (s.server.streams id)
      (Upload.ofStream id (s.toServer ++ [u])) (granted id s.toPeer) := by
  by_cases he : u.streamId = id
  · rw [← he, update_self, Upload.ofStream_snoc_self]
    exact hu
  · rw [update_of_ne (Ne.symm he), Upload.ofStream_snoc_ne _ he]
    exact hs.phase id hid

lemma Inv.sendHeaders (hlegal : (Upload.headers id flags block).Legal) (hnew : s.streams id = none) :
    (s.sendHeaders id flags block).Inv :=
  { hs with
    legal := legal_snoc hs.legal hlegal
    window := by
      have hw := hs.window
      simp only [Link.sendHeaders, Upload.total_append, Upload.total_cons, Upload.total_nil, Upload.size]
      omega
    phase := by
      have hphase := hs.phase id hlegal.1
      rw [hnew] at hphase
      exact fun j hj => hs.phase_snoc (u := .headers id flags block) (hphase.headers ..) hj }

lemma Inv.sendData {stream : PeerStream} (hlegal : (Upload.data id flags payload).Legal)
    (hstream : s.streams id = some stream) (hopen : stream.ended = false)
    (hown : payload.length ≤ stream.window) (hall : payload.length ≤ s.window) :
      (s.sendData stream id flags payload).Inv :=
  { hs with
    legal := legal_snoc hs.legal hlegal
    window := by
      have hw := hs.window
      simp only [Link.sendData, Upload.total_append, Upload.total_cons, Upload.total_nil, Upload.size]
      omega
    phase := by
      have hphase := hs.phase id hlegal.1
      rw [hstream] at hphase
      exact fun j hj => hs.phase_snoc (u := .data id flags payload) (hphase.data hopen hown ..) hj }

lemma Inv.receive (h : s.receive = some s') : s'.Inv := by
  unfold Link.receive at h
  split at h
  · cases h
  · next frame rest hframes =>
    cases h
    have hw := hs.window
    rw [hframes, granted_cons] at hw
    refine { hs with window := ?_, phase := fun id hid => ?_ }
    · dsimp only
      omega
    · have hphase := hs.phase id hid
      rw [hframes, granted_cons] at hphase
      exact hphase.receive

lemma Inv.finished {stream : PeerStream} (hstream : s.streams id = some stream) (hended : stream.ended = true)
    (hmine : Upload.ofStream id s.toServer = []) :
      ({ s with server := s.server.setStream id none } : Link).Inv :=
  { hs with
    zero := by
      show update s.server.streams id none 0 = none
      rw [update_apply, hs.zero, ite_self]
    phase := by
      intro j hj
      show Phase _ (update s.server.streams id none j) _ _
      by_cases he : j = id
      · subst he
        rw [update_self]
        exact .ended hstream hended rfl hmine
      · rw [update_of_ne he]
        exact hs.phase j hj }

variable (hqueue : s.toServer = u :: rest)
include hqueue

lemma Inv.arrived {server : Session} {frames : List Bytes} (hup : server.shuttingDown = false)
    (hwindow : server.localSettings.windowSize + u.size = s.server.localSettings.windowSize + granted 0 frames)
    (hmax : server.localSettings.windowSize ≤ maxWindowSize)
    (hstreams : server.streams = update s.server.streams u.streamId (some st)) (hpos : 0 < u.streamId)
    (hframes : ∀ id, 0 < id → id ≠ u.streamId → granted id frames = 0)
    (hphase : Phase (s.streams u.streamId) (some st) (Upload.ofStream u.streamId rest)
      (granted u.streamId s.toPeer + granted u.streamId frames)) :
    ({ s with server, toServer := rest, toPeer := s.toPeer ++ frames } : Link).Inv where
  up := hup
  legal := fun v hv => hs.legal v (by rw [hqueue]; exact mem_cons_of_mem _ hv)
  window := by
    have hw := hs.window
    rw [hqueue, Upload.total_cons] at hw
    rw [granted_append]
    dsimp only
    omega
  max := hmax
  zero := by rw [hstreams, update_of_ne (by omega), hs.zero]
  phase := by
    intro id hid
    rw [hstreams, granted_append]
    by_cases he : id = u.streamId
    · rw [he, update_self]
      exact hphase
    · have hother := hs.phase id hid
      rw [hqueue, Upload.ofStream_cons_ne (Ne.symm he)] at hother
      rw [update_of_ne he, hframes id hid he]
      exact hother

lemma Inv.head : u.Legal := hs.legal u (by rw [hqueue]; exact mem_cons_self)

lemma Inv.headPhase (hpos : 0 < u.streamId) :
    Phase (s.streams u.streamId) (s.server.streams u.streamId) (u :: Upload.ofStream u.streamId rest)
      (granted u.streamId s.toPeer) := by
  have hphase := hs.phase u.streamId hpos
  rw [hqueue, Upload.ofStream_cons_self] at hphase
  exact hphase

end

lemma arrive_eq (hqueue : s.toServer = u :: rest) : s.arrive c = if (s.server.parse c u.bytes).ok then
      some { s with
        server := (s.server.parse c u.bytes).client
        toServer := rest
        toPeer := s.toPeer ++ (s.server.parse c u.bytes).acts.filterMap Act.frame }
    else none := by
  rw [arrive, hqueue]

lemma Inv.arriveHeaders (hs : s.Inv) (hqueue : s.toServer = .headers id flags block :: rest)
    (h : s.arrive c = some s') : s'.Inv := by
  have hlegal := hs.head hqueue
  obtain ⟨hnew, hlive⟩ := (hs.headPhase hqueue hlegal.1).arriveHeaders rfl
    (show s.server.newStream.localWindowSize = defaultWindowSize from rfl)
  rw [arrive_eq hqueue] at h
  obtain ⟨hok, he⟩ := ite_none_right_eq_some.1 h
  obtain ⟨hup, hlocal, hstreams, hframes⟩ := parse_open (c := c) hs.up hlegal hnew hok
  cases he
  rw [hframes]
  refine hs.arrived hqueue hup ?_ ?_ hstreams hlegal.1 (fun _ _ _ => rfl) hlive
  · rw [hlocal]
    rfl
  · rw [hlocal]
    exact hs.max

lemma Inv.arriveData (hs : s.Inv) (hqueue : s.toServer = .data id flags payload :: rest) :
    ∃ s', s.arrive c = some s' ∧ s'.Inv ∧ (payload ≠ [] →
      maxWindowSize / 4 ≤ s'.server.localSettings.windowSize ∧
      ∃ st, s'.server.streams id = some st ∧ maxWindowSize / 4 ≤ st.localWindowSize) := by
  have hlegal := hs.head hqueue
  have hid : 0 < id := hlegal.1
  obtain ⟨st, hst, hroom, hmax, hlive⟩ := (hs.headPhase hqueue hlegal.1).arriveData rfl
  have hall : payload.length ≤ s.server.localSettings.windowSize := by
    have hw := hs.window
    rw [hqueue, Upload.total_cons, Upload.size] at hw
    omega
  obtain ⟨hok, hup, hwindow, ⟨st', hstreams, hst'⟩, hframes⟩ := parse_data (c := c) hs.up hlegal hst
  obtain ⟨own, hown, hownMax, hownLow, hownGrant⟩ := Session.consume_spec hlegal.2.1 hroom hmax
  obtain ⟨all, hallEq, hallMax, hallLow, hallGrant⟩ := Session.consume_spec (show 0 < 2^31 by decide) hall hs.max
  have hgrant : ∀ i, granted i
      ((s.server.parse c (Upload.data id flags payload).bytes).acts.filterMap Act.frame) =
      (if 0 = i then all else 0) + if id = i then own else 0 := by
    intro i
    rw [hframes, granted_append, hallGrant, ← hownGrant i]
    rfl
  refine ⟨_, (arrive_eq hqueue).trans (if_pos hok),
    hs.arrived hqueue hup ?_ ?_ hstreams hlegal.1 ?_ ?_, fun hne => ?_⟩
  · rw [hwindow, hgrant, if_pos rfl, if_neg (by omega), add_zero]
    exact hallEq
  · rw [hwindow]
    exact hallMax
  · intro j hj hne
    rw [hgrant, if_neg (by omega), if_neg (show id ≠ j from Ne.symm hne)]
  · show Phase _ _ _ (_ + granted id _)
    rw [hgrant, if_neg (by omega), if_pos rfl, zero_add]
    exact hlive st' own (by rw [hst']; exact hown) (by rw [hst']; exact hownMax)
  · have hpos : 0 < payload.length := length_pos_of_ne_nil hne
    refine ⟨?_, st', ?_, ?_⟩
    · rw [hwindow]
      exact hallLow hpos
    · rw [hstreams, update_self]
    · rw [hst']
      exact hownLow hpos

lemma Inv.step {e : LinkEvent} (hs : s.Inv) (he : e.isGoaway = false)
    (h : Link.step c e s = some s') : s'.Inv := by
  cases e with
  | headers id flags block =>
    obtain ⟨⟨hlegal, hnew⟩, hstep⟩ := ite_none_right_eq_some.1 h
    cases hstep
    exact hs.sendHeaders hlegal (isNone_iff_eq_none.1 hnew)
  | data id flags payload =>
    cases hstream : s.streams id with
    | none =>
      simp only [Link.step, hstream] at h
      cases h
    | some stream =>
      simp only [Link.step, hstream] at h
      obtain ⟨⟨hlegal, hopen, hown, hall⟩, hstep⟩ := ite_none_right_eq_some.1 h
      cases hstep
      exact hs.sendData hlegal hstream hopen hown hall
  | arrive =>
    have harrive : s.arrive c = some s' := h
    cases hqueue : s.toServer with
    | nil =>
      rw [Link.arrive, hqueue] at harrive
      cases harrive
    | cons u rest =>
      cases u with
      | headers id flags block => exact hs.arriveHeaders hqueue harrive
      | data id flags payload =>
        obtain ⟨t, ht, hinv, -⟩ := hs.arriveData (c := c) hqueue
        rw [some.inj (harrive.symm.trans ht)]
        exact hinv
  | receive => exact hs.receive h
  | finished id =>
    obtain ⟨⟨hended, hmine⟩, hstep⟩ := ite_none_right_eq_some.1 h
    cases hstep
    cases hstream : s.streams id with
    | none =>
      rw [hstream] at hended
      cases hended
    | some stream =>
      rw [hstream] at hended
      exact hs.finished hstream hended hmine
  | goaway errorCode debugData => cases he

lemma Inv.stream (hs : s.Inv) (hst : s.server.streams id = some st) :
    ∃ stream, s.streams id = some stream ∧ st.localWindowSize =
        stream.window + Upload.total (Upload.ofStream id s.toServer) + granted id s.toPeer ∧
      st.localWindowSize ≤ maxWindowSize := by
  have hid : 0 < id := by
    apply pos_of_ne_zero
    intro h0
    rw [h0, hs.zero] at hst
    cases hst
  cases hs.phase id hid with
  | unused hpeer hserver | opening hpeer hserver | ended hpeer hended hserver => cases hst.symm.trans hserver
  | live hpeer hserver hmine hwindow hmax =>
    rw [some.inj (hst.symm.trans hserver)]
    exact ⟨_, hpeer, hwindow, hmax⟩

theorem windows_agree (c : Config) (events : List LinkEvent)
    (hevents : ∀ e ∈ events, e.isGoaway = false) (s : Link) (hs : iter (step c) events start = some s) :
    (s.server.localSettings.windowSize = s.window + Upload.total s.toServer + granted 0 s.toPeer ∧
      s.server.localSettings.windowSize ≤ maxWindowSize) ∧
    (∀ id st, s.server.streams id = some st → ∃ stream, s.streams id = some stream ∧ st.localWindowSize =
        stream.window + Upload.total (Upload.ofStream id s.toServer) + granted id s.toPeer ∧
      st.localWindowSize ≤ maxWindowSize) ∧
    (∀ id flags payload rest, s.toServer = .data id flags payload :: rest → ∃ s', step c .arrive s = some s' ∧
      (payload ≠ [] → maxWindowSize / 4 ≤ s'.server.localSettings.windowSize ∧
        ∃ st, s'.server.streams id = some st ∧ maxWindowSize / 4 ≤ st.localWindowSize)) := by
  have hinv : s.Inv := iter_keeps (fun _ _ _ he hs h => hs.step he h) events
    (along_of_forall hevents start) Inv.start hs
  refine ⟨⟨hinv.window, hinv.max⟩, fun id st hst => hinv.stream hst, fun id flags payload rest hqueue => ?_⟩
  obtain ⟨s', harrive, -, hlow⟩ := hinv.arriveData (c := c) hqueue
  exact ⟨s', harrive, hlow⟩

def oneUpload : List LinkEvent := [.headers 1 4 [], .arrive, .data 1 0 [7], .arrive, .receive, .receive]

theorem windows_agree_upload : ∃ s, iter (step .lenient) oneUpload start = some s ∧
    s.server.localSettings.windowSize = s.window + Upload.total s.toServer + granted 0 s.toPeer ∧
    s.window = maxWindowSize := by
  refine exists_of_map (fun s => s.window) (show _ = some maxWindowSize by decide +kernel) fun s hs hwindow => ?_
  exact ⟨(windows_agree .lenient oneUpload (by decide) s hs).1.1, hwindow⟩

/-- after `GOAWAY` a byte on a stream that is there is not counted -/
theorem goaway_uncounted : (iter (step .lenient)
      [.headers 1 4 [], .arrive, .goaway 0 [], .receive, .data 1 0 [7], .arrive] start).map
      (fun s => (s.server.localSettings.windowSize, (s.server.streams 1).map Stream.localWindowSize)) =
        some (65535, some 65535) ∧
    (iter (step .lenient)
      [.headers 1 4 [], .arrive, .goaway 0 [], .receive, .data 1 0 [7], .arrive] start).map
      (fun s => (s.window, (s.streams 1).map PeerStream.window, s.toServer, s.toPeer)) =
        some (65534, some 65534, [], []) := by
  refine ⟨?_, ?_⟩ <;> decide +kernel

end Link

end OSW.Http2
