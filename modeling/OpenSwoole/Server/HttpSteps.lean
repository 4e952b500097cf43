import OpenSwoole.Protocol.HttpHeader
import OpenSwoole.Server.HttpPort

/-!
# The steps of `Port_onRead_http`

First what every step does, whatever the peer sends: packages that were dispatched stay dispatched, and
the handler returns.  Then the steps on a header block: it is received in parts, completed, and the
request is dispatched or its body awaited.

* `onReadHttp_returns`   **the handler returns**, and has received something or there was nothing;
* `serve_all`   what holds when a whole stream has come;
* `Heading`   the header of the request is not complete;
* `Headed`, `Bodied`   it is parsed, the body is awaited;
* `parse_part`, `parse_complete`   a part of the header, the whole header;
* `tryToDispatch_header`, `receiveBody_cases`   the request without body, the request with one.
-/

namespace OSW.Http
open List Machine

section
variable {p : Protocol} {behind : Bytes → Bytes} {base : Nat} {h : OnPackage} {c : HttpConn}

/-! ## every step -/

/-- dispatched packages stay, and what is parsed does not come back -/
def Respects (c : HttpConn) : Jump → Prop
  | .inl (l, c') => c.conn.out <+: c'.conn.out ∧ c'.conn.queue = c.conn.queue ∧
      (l = .recvData ∧ c'.buffer.length ≤ c.buffer.length ∨ l = .parse ∧ c'.buffer.length < c.buffer.length)
  | .inr r => c.conn.out <+: r.2.conn.out ∧ r.2.conn.queue = c.conn.queue

lemma respects_refuse (r : Refusal) {c' : HttpConn} (hout : c.conn.out <+: c'.conn.out)
    (hq : c'.conn.queue = c.conn.queue) : Respects c (refuse r c') := ⟨hout, hq⟩

lemma Respects.of_eq {c c₀ : HttpConn} {j : Jump} (h : Respects c j) (hout : c.conn.out = c₀.conn.out)
    (hq : c.conn.queue = c₀.conn.queue) (hb : c.buffer.length = c₀.buffer.length) : Respects c₀ j := by
  cases j with
  | inl s =>
    obtain ⟨h1, h2, h3⟩ := h
    exact ⟨hout ▸ h1, h2.trans hq, hb ▸ h3⟩
  | inr r => exact ⟨hout ▸ h.1, h.2.trans hq⟩

lemma dispatchTask_cases (h : OnPackage) (c : HttpConn) (length : Nat) :
    ∃ d, dispatchTask h c length = d ∧ d.conn.out = c.conn.out ++ [c.buffer.str.take (length % 2^32)] ∧
      d.conn.queue = c.conn.queue ∧ d.request = c.request ∧ d.sent = c.sent ∧ d.conn.rcvd = c.conn.rcvd ∧
      (d.buffer = c.buffer ∨
        0 < c.buffer.offset ∧ c.buffer.length = c.buffer.offset ∧ d.buffer = makeString bufferSizeBig) ∧
      (h c.conn.out.length ≠ .removed → d.conn.removed = c.conn.removed) := by
  refine ⟨_, rfl, ?_⟩
  unfold dispatchTask Conn.onPackage HttpConn.buffer
  cases hres : h c.conn.out.length with
  | ok | fail => exact ⟨rfl, rfl, rfl, rfl, rfl, .inl rfl, fun _ => rfl⟩
  | removed => exact ⟨rfl, rfl, rfl, rfl, rfl, .inl rfl, fun hn => absurd rfl hn⟩
  | popped =>
    refine ⟨rfl, rfl, rfl, rfl, rfl, ?_, fun _ => rfl⟩
    simp only [OswString.popPackage]
    by_cases hpop : 0 < c.conn.buffer.offset ∧ c.conn.buffer.length = c.conn.buffer.offset
    · rw [if_pos hpop]
      exact .inr ⟨hpop.1, hpop.2, rfl⟩
    · rw [if_neg hpop]
      exact .inl rfl

lemma dispatchBody_respects (n : Nat) : Respects c (dispatchBody h n c) := by
  unfold dispatchBody
  dsimp only
  generalize hc : c.setBuffer { c.buffer with str := c.buffer.str.take n, offset := n } = c'
  obtain ⟨d, hd, hout, hq, -⟩ := dispatchTask_cases h c' c'.buffer.length
  subst hc
  rw [hd]
  split
  · exact ⟨⟨_, hout.symm⟩, hq⟩
  · split
    · exact ⟨⟨_, hout.symm⟩, hq⟩
    · exact ⟨⟨_, hout.symm⟩, hq⟩

lemma receiveChunked_respects : Respects c (receiveChunked p behind base h c) := by
  unfold receiveChunked
  dsimp only
  split
  · exact ⟨prefix_rfl, rfl⟩
  · exact ⟨prefix_rfl, rfl⟩
  · exact respects_refuse _ prefix_rfl rfl
  · split
    · exact respects_refuse _ prefix_rfl rfl
    · refine ⟨prefix_rfl, rfl, .inl ⟨rfl, ?_⟩⟩
      unfold growChunked
      dsimp only
      split <;> split <;> exact le_rfl
  · exact (dispatchBody_respects _).of_eq rfl rfl rfl

lemma receiveBody_respects : Respects c (receiveBody p h c) := by
  unfold receiveBody
  dsimp only
  split
  · exact respects_refuse _ prefix_rfl rfl
  · have hb : ∀ c' : HttpConn, c'.conn.out = c.conn.out → c'.conn.queue = c.conn.queue →
        c'.buffer.length = c.buffer.length →
        Respects c (if c'.buffer.length < requestLength c.request then .inl (.recvData, c')
          else dispatchBody h (requestLength c.request) c') := by
      intro c' h1 h2 h3
      split
      · exact ⟨h1 ▸ prefix_rfl, h2, .inl ⟨rfl, le_of_eq h3⟩⟩
      · exact (dispatchBody_respects _).of_eq h1 h2 h3
    apply hb
    · split <;> rfl
    · split <;> rfl
    · split <;> rfl

lemma receive_respects : Respects c (receive p behind base h c) := by
  unfold receive
  split
  · exact receiveChunked_respects
  · exact receiveBody_respects

section
variable (hn : 0 < c.request.headerLength)
include hn

lemma dispatchHeader_respects : Respects c (dispatchHeader h c) := by
  unfold dispatchHeader
  dsimp only
  obtain ⟨d, hd, hout, hq, -, -, -, hbuf, -⟩ :=
    dispatchTask_cases h (c.setBuffer { c.buffer with offset := c.request.headerLength }) c.request.headerLength
  rw [hd]
  split
  · exact ⟨⟨_, hout.symm⟩, hq⟩
  · split
    · rename_i hlt
      refine ⟨⟨_, hout.symm⟩, hq, .inr ⟨rfl, ?_⟩⟩
      have hlen : d.buffer.length ≤ c.buffer.length := by
        rcases hbuf with hb | ⟨-, -, hb⟩
        · rw [hb]
          exact le_rfl
        · rw [hb]
          exact Nat.zero_le _
      rw [OswString.reduce_of_pos _ (by omega)]
      show (d.buffer.str.drop _).length < _
      rw [length_drop]
      have : d.buffer.length = d.buffer.str.length := rfl
      omega
    · exact ⟨⟨_, hout.symm⟩, hq⟩

lemma tryToDispatch_respects : Respects c (tryToDispatch p behind base h c) := by
  unfold tryToDispatch
  dsimp only
  split
  · exact receive_respects
  · split
    · exact ⟨prefix_rfl, rfl, .inl ⟨rfl, le_rfl⟩⟩
    · split
      · refine (dispatchHeader_respects ?_).of_eq rfl rfl rfl
        split
        · exact Nat.add_pos_left hn _
        · exact hn
      · exact receive_respects.of_eq rfl rfl rfl

lemma headerComplete_respects : Respects c (headerComplete p behind base h c) := by
  unfold headerComplete
  split
  · exact tryToDispatch_respects hn
  · exact (@tryToDispatch_respects p behind base h
      { c with request := parseHeaderInfo (c.buffer.str ++ behind c.buffer.str) c.request } hn).of_eq rfl rfl rfl

end

lemma parseHeader_respects : Respects c (parseHeader p behind base h c) := by
  unfold parseHeader
  split
  · unfold getHeaderLength
    cases Framing.first headerEnd (c.buffer.str.drop c.buffer.offset) with
    | none =>
      dsimp only
      split
      · exact respects_refuse _ prefix_rfl rfl
      · exact ⟨prefix_rfl, rfl, .inl ⟨rfl, le_rfl⟩⟩
    | some i => exact (headerComplete_respects (Nat.succ_pos _)).of_eq rfl rfl rfl
  · exact headerComplete_respects (by omega)

lemma getProtocol_str (request : Request) (b : OswString) : (getProtocol request b).2.2.str = b.str := by
  unfold getProtocol
  split
  · rfl
  · split
    · rfl
    · split <;> rfl

lemma parse_respects : Respects c (parse p behind base h c) := by
  unfold parse
  split
  · have hstr := getProtocol_str c.request c.buffer
    rcases hg : getProtocol c.request c.buffer with ⟨ok, request, b⟩
    rw [hg] at hstr
    cases ok with
    | false =>
      dsimp only
      split
      · exact ⟨prefix_rfl, rfl⟩
      · exact respects_refuse _ prefix_rfl rfl
    | true => exact parseHeader_respects.of_eq rfl rfl (congrArg length hstr)
  · exact parseHeader_respects

lemma httpStep_cases (s : Label × HttpConn) :
    (∃ s', httpStep p behind base h s = .inl s' ∧ work s' < work s ∧ s.2.conn.out <+: s'.2.conn.out ∧
      weight s'.2.conn.queue ≤ weight s.2.conn.queue ∧
      (s.1 = .recvData → weight s'.2.conn.queue < weight s.2.conn.queue)) ∨
    ∃ e c', httpStep p behind base h s = .inr (e, c') ∧ s.2.conn.out <+: c'.conn.out ∧
      weight c'.conn.queue ≤ weight s.2.conn.queue ∧
      (s.1 = .recvData → e = .ok → c'.conn.queue = [] ∨ weight c'.conn.queue < weight s.2.conn.queue) := by
  obtain ⟨l, c⟩ := s
  cases l with
  | parse =>
    have hr : Respects c (parse p behind base h c) := parse_respects
    show (∃ s', parse p behind base h c = .inl s' ∧ _) ∨ ∃ e c', parse p behind base h c = .inr (e, c') ∧ _
    cases hj : parse p behind base h c with
    | inl s' =>
      rw [hj] at hr
      obtain ⟨l, c'⟩ := s'
      obtain ⟨hout, hq, hl⟩ := hr
      refine .inl ⟨_, rfl, ?_, hout, le_of_eq (congrArg weight hq), nofun⟩
      show 3 * weight c'.conn.queue + c'.buffer.length + (if l = .parse then 1 else 0) <
        3 * weight c.conn.queue + c.buffer.length + 1
      rw [hq]
      rcases hl with ⟨rfl, hl⟩ | ⟨rfl, hl⟩
      · rw [if_neg (by decide)]
        omega
      · rw [if_pos rfl]
        omega
    | inr r =>
      rw [hj] at hr
      exact .inr ⟨r.1, r.2, rfl, hr.1, le_of_eq (congrArg weight hr.2), nofun⟩
  | recvData =>
    show (∃ s', recvData c = .inl s' ∧ _) ∨ ∃ e c', recvData c = .inr (e, c') ∧ _
    unfold recvData
    rcases c.conn.recv_cases (c.buffer.size - c.buffer.length) with
      ⟨e, q, he, ⟨hq, -⟩, -⟩ | ⟨he, -⟩ | ⟨bs, es, ht, ⟨-, he⟩ | ⟨-, he⟩⟩
    · rw [he]
      have hle : weight q ≤ weight c.conn.queue := by
        rcases hq with ⟨hc, rfl⟩ | hlt
        · exact Nat.zero_le _
        · omega
      have hprog : q = [] ∨ weight q < weight c.conn.queue := hq.imp And.right id
      cases e with
      | close => exact .inr ⟨_, _, rfl, prefix_rfl, hle, nofun⟩
      | wait | error | invalid => exact .inr ⟨_, _, rfl, prefix_rfl, hle, fun _ _ => hprog⟩
    · rw [he]
      exact .inr ⟨_, _, rfl, prefix_rfl, le_rfl, nofun⟩
    · rw [he]
      exact .inr ⟨_, _, rfl, prefix_rfl, le_rfl, nofun⟩
    · rw [he]
      have hpos := length_pos_of_ne_nil ht.ne_nil
      have hw := ht.weight_le
      have hlt : weight es < weight c.conn.queue := by omega
      refine .inl ⟨_, rfl, ?_, prefix_rfl, le_of_lt hlt, fun _ => hlt⟩
      show 3 * weight es + (c.conn.buffer.str ++ bs).length + 1 <
        3 * weight c.conn.queue + c.conn.buffer.str.length + 0
      rw [length_append]
      omega

lemma onReadHttp_returns (c : HttpConn) :
    ∃ e c', onReadHttp p behind base h c = some (e, c') ∧ c.conn.out <+: c'.conn.out ∧
      (e = .ok → c'.conn.queue = [] ∨ weight c'.conn.queue < weight c.conn.queue) := by
  obtain ⟨⟨e, c'⟩, hr, hq⟩ := @run_spec _ _ (httpStep p behind base h)
    (fun s => c.conn.out <+: s.2.conn.out ∧
      (weight s.2.conn.queue < weight c.conn.queue ∨ s.1 = .recvData ∧
        weight s.2.conn.queue ≤ weight c.conn.queue))
    work
    (fun r => c.conn.out <+: r.2.conn.out ∧
      (r.1 = .ok → r.2.conn.queue = [] ∨ weight r.2.conn.queue < weight c.conn.queue))
    (by
      rintro s ⟨hout, hw⟩
      rcases @httpStep_cases p behind base h s with ⟨s', he, hlt, hout', hle, hrecv⟩
        | ⟨e, c', he, hout', hle, hrecv⟩
      · refine .inl ⟨s', he, ⟨hout.trans hout', .inl ?_⟩, hlt⟩
        rcases hw with hw | ⟨hl, hw⟩
        · omega
        · have := hrecv hl
          omega
      · refine .inr ⟨_, he, hout.trans hout', fun hok => ?_⟩
        rcases hw with hw | ⟨hl, hw⟩
        · exact .inr (lt_of_le_of_lt hle hw)
        · exact (hrecv hl hok).imp_right fun hlt => lt_of_lt_of_le hlt hw)
    (work (.recvData, c) + 1) (.recvData, c) ⟨prefix_rfl, .inr ⟨rfl, le_rfl⟩⟩ (Nat.lt_succ_self _)
  exact ⟨e, c', hr, hq⟩

end

/-- a call of the handler, by an invariant of its steps -/
lemma onRead_spec {p : Protocol} {behind : Bytes → Bytes} {base : Nat} {h : OnPackage} {c : HttpConn}
    {I : Label × HttpConn → Prop} {Q : Status × HttpConn → Prop}
    (hnext : ∀ s, I s → (∃ s', httpStep p behind base h s = .inl s' ∧ I s') ∨
      ∃ e, httpStep p behind base h s = .inr e ∧ Q (e.1.status, e.2)) {es : List RecvEvent}
    (hstart : I (.recvData, { c with conn := { c.conn with queue := c.conn.queue ++ es } })) :
    ∃ s', onRead p behind base h es (.opened, c) = some s' ∧ Q s' := by
  have hstep : ∀ s, I s → Machine.Steps (httpStep p behind base h) I work (fun e => Q (e.1.status, e.2)) s := by
    intro s hs
    rcases hnext s hs with ⟨s', hj, hs'⟩ | he
    · rcases @httpStep_cases p behind base h s with ⟨s'', he, hlt, -⟩ | ⟨e, c', he, -⟩
      · obtain rfl := Sum.inl.inj (hj.symm.trans he)
        exact .inl ⟨s', hj, hs', hlt⟩
      · cases hj.symm.trans he
    · exact .inr he
  obtain ⟨e, hr, hq⟩ := run_spec hstep hstart (Nat.lt_succ_self _)
  refine ⟨(e.1.status, e.2), ?_, hq⟩
  show Option.map _ (onReadHttp p behind base h _) = _
  unfold onReadHttp
  rw [hr]
  rfl

lemma serve_drain {p : Protocol} {behind : Bytes → Bytes} {base : Nat} {h : OnPackage}
    {J : Status × HttpConn → Prop}
    (hstep : ∀ s, J s → ∃ s', onRead p behind base h [] s = some s' ∧ J s') {s : Status × HttpConn} (hs : J s) :
    ∃ k s', iter (onRead p behind base h) (replicate k []) s = some s' ∧ J s' ∧
      (s'.1 = .opened → s'.2.conn.queue = []) := by
  induction hw : weight s.2.conn.queue using Nat.strongRecOn generalizing s with
  | ind n ih =>
    by_cases hst : s.1 = .opened ∧ s.2.conn.queue ≠ []
    · obtain ⟨s', he, hs'⟩ := hstep s hs
      have hone : ∀ k, iter (onRead p behind base h) (replicate (k + 1) []) s =
          iter (onRead p behind base h) (replicate k []) s' := by
        intro k
        show (onRead p behind base h [] s).bind _ = _
        rw [he]
        rfl
      by_cases hst' : s'.1 = .opened ∧ s'.2.conn.queue ≠ []
      · have hlt : weight s'.2.conn.queue < n := by
          obtain ⟨st, c⟩ := s
          obtain rfl : st = .opened := hst.1
          obtain ⟨e, c', hr, -, hprog⟩ := @onReadHttp_returns p behind base h
            { c with conn := { c.conn with queue := c.conn.queue ++ [] } }
          have hs'' : onRead p behind base h [] (.opened, c) = some (e.status, c') := by
            show Option.map _ _ = _
            rw [hr]
            rfl
          obtain rfl := Option.some.inj (he.symm.trans hs'')
          have hok : e = .ok := by
            have hopen : e.status = .opened := hst'.1
            cases e with
            | ok => rfl
            | err | abort | overflow => cases hopen
          have := (hprog hok).resolve_left hst'.2
          rw [← hw]
          rwa [show c.conn.queue ++ [] = c.conn.queue from append_nil _] at this
        obtain ⟨k, t, hk, ht⟩ := ih _ hlt hs' rfl
        exact ⟨k + 1, t, (hone k).trans hk, ht⟩
      · exact ⟨1, s', hone 0, hs', not_and_not_right.1 hst'⟩
    · exact ⟨0, s, rfl, hs, not_and_not_right.1 hst⟩

/-- `I xs` is an invariant of the connections on which the bytes `xs` have come, for streams that lead to
`final` -/
def Reads (p : Protocol) (behind : Bytes → Bytes) (base : Nat) (h : OnPackage) (final : Bytes)
    (I : Bytes → Status × HttpConn → Prop) : Prop :=
  ∀ xs es s, Segments es → xs ++ eventBytes es <+: final → I xs s →
    ∃ s', onRead p behind base h es s = some s' ∧ I (xs ++ eventBytes es) s'

section
variable {p : Protocol} {behind : Bytes → Bytes} {base : Nat} {h : OnPackage} {final : Bytes}
  {I : Bytes → Status × HttpConn → Prop}

lemma serve_calls (hread : Reads p behind base h final I) {calls : List (List RecvEvent)} {xs : Bytes}
    (hseg : ∀ es ∈ calls, Segments es) (hxs : xs ++ eventBytes calls.flatten <+: final)
    {s : Status × HttpConn} (hs : I xs s) :
    ∃ s', iter (onRead p behind base h) calls s = some s' ∧ I (xs ++ eventBytes calls.flatten) s' := by
  induction calls generalizing xs s with
  | nil => exact ⟨s, rfl, (append_nil xs).symm ▸ hs⟩
  | cons es calls ih =>
    rw [flatten_cons, eventBytes_append, ← append_assoc] at hxs ⊢
    have hpre : xs ++ eventBytes es <+: final := (prefix_append _ _).trans hxs
    obtain ⟨s₁, hr, hs₁⟩ := hread xs es s (hseg es mem_cons_self) hpre hs
    obtain ⟨s', hiter, hs'⟩ := ih (forall_mem_cons.1 hseg).2 hxs hs₁
    refine ⟨s', ?_, hs'⟩
    show (onRead p behind base h es s).bind _ = _
    rw [hr]
    exact hiter

lemma serve_all (hread : Reads p behind base h final I) (hinit : I [] (.opened, HttpConn.init))
    {calls : List (List RecvEvent)} (hcuts : Cuts calls final) :
    ∃ k s, HttpConn.serve p behind base h (calls ++ replicate k []) = some s ∧ I final s ∧
      (s.1 = .opened → s.2.conn.queue = []) := by
  obtain ⟨hseg, rfl⟩ := hcuts
  obtain ⟨s, hiter, hs⟩ := serve_calls hread hseg (prefix_refl (eventBytes calls.flatten)) hinit
  have hstep : ∀ s, I (eventBytes calls.flatten) s →
      ∃ s', onRead p behind base h [] s = some s' ∧ I (eventBytes calls.flatten) s' := by
    intro s hs
    have hnil : eventBytes calls.flatten ++ eventBytes [] = eventBytes calls.flatten := append_nil _
    obtain ⟨s', hr, hs'⟩ := hread _ [] s Segments.nil ⟨[], (append_nil _).trans hnil⟩ hs
    rw [hnil] at hs'
    exact ⟨s', hr, hs'⟩
  obtain ⟨k, s', hdrain, hs', hq⟩ := serve_drain hstep hs
  refine ⟨k, s', ?_, hs', hq⟩
  unfold HttpConn.serve
  rw [iter_append, hiter]
  exact hdrain

end

/-! ## a header block -/

/-- the connection where a jump or a return leads -/
def Jump.conn : Jump → HttpConn
  | .inl s => s.2
  | .inr r => r.2

/-- parsing moves the offset and writes the request -/
def HttpConn.mark (c : HttpConn) (offset : Nat) (request : Request) : HttpConn :=
  { c.setBuffer { c.buffer with offset := offset } with request := request }

def Heading (r : WireHeader) (c : HttpConn) : Prop :=
  (c.request = {} ∧ c.buffer.offset = 0) ∨
    (Begun r.line.length c.request ∧ c.buffer.offset ≤ r.header.length - 4)

structure Headed (r : WireHeader) (request : Request) : Prop where
  method : request.method ≠ none
  headerLength : request.headerLength = r.header.length
  told : Told r.length r.length.isSome request.toHeaderInfo
  headerParsed : request.headerParsed = true
  nobodyChunked : request.nobodyChunked = false

variable {p : Protocol} {behind : Bytes → Bytes} {base : Nat} {h : OnPackage} {c : HttpConn} {r : WireHeader}

lemma WireHeader.isLine (r : WireHeader) : ∀ line ∈ r.line :: r.lines, IsLine line :=
  forall_mem_cons.2 ⟨isLine_requestLine r.requestLine, r.fields.line⟩

lemma WireHeader.line_le (r : WireHeader) : r.line.length + 4 ≤ r.header.length := by
  have hlen : r.header.length = _ := length_block_cons r.line r.lines
  have htwo := two_le_length_block r.lines
  omega

lemma parseHeader_part (hc : Begun r.line.length c.request ∧ c.buffer.offset ≤ r.header.length - 4)
    (hstr : c.buffer.str <+: r.header) (hlt : c.buffer.length < r.header.length)
    (hsize : c.buffer.length < c.buffer.size) :
    ∃ o, o ≤ r.header.length - 4 ∧
      parseHeader p behind base h c = .inl (.recvData, c.mark o c.request) := by
  obtain ⟨o, ho, hg⟩ := getHeaderLength_part r.isLine (cons_ne_nil _ _) c.request hstr hlt hc.2
  refine ⟨o, ho, ?_⟩
  unfold parseHeader
  rw [if_pos hc.1.headerLength, hg]
  exact if_neg (by show ¬ c.buffer.size = c.buffer.length; omega)

lemma parse_part (hk : r.Known) (hfit : r.header.length ≤ bufferSizeBig) (hc : Heading r c)
    (hstr : c.buffer.str <+: r.header) (hlt : c.buffer.length < r.header.length)
    (hsize : bufferSizeBig ≤ c.buffer.size) :
    ∃ o request, Heading r (c.mark o request) ∧ (parse p behind base h c = returnOk (c.mark o request) ∨
        parse p behind base h c = .inl (.recvData, c.mark o request)) := by
  have hline := r.line_le
  have hbig : c.buffer.length < httpHeaderMaxSize := Nat.lt_of_lt_of_le hlt hfit
  rcases hc with ⟨hr, ho⟩ | hb
  · unfold parse
    rw [if_pos (by rw [hr])]
    by_cases hshort : c.buffer.length < 16
    · -- not even the shortest request line
      have hg : getProtocol c.request c.buffer = (false, c.request, c.buffer) := if_pos hshort
      refine ⟨c.buffer.offset, c.request, .inl ⟨hr, ho⟩, .inl ?_⟩
      rw [hg]
      exact if_pos ⟨by rw [hr], hbig⟩
    · obtain ⟨m, hm⟩ := hk
      obtain ⟨more, hmore⟩ : ∃ more, r.header = r.line ++ more := ⟨_, rfl⟩
      obtain ⟨request, hbegun, ⟨hg, hlen⟩ | ⟨o, hol, hg⟩⟩ :=
        getProtocol_line hm r.requestLine (hmore ▸ hstr) (Nat.le_of_not_lt hshort)
      · -- the version is not complete
        refine ⟨c.buffer.offset, request, .inr ⟨hbegun, ?_⟩, .inl ?_⟩
        · show c.buffer.offset ≤ _
          omega
        · rw [hr, hg]
          exact if_pos ⟨hbegun.excepted, hbig⟩
      · obtain ⟨o', ho', hp⟩ := @parseHeader_part p behind base h (c.mark o request) r
          ⟨hbegun, by show o ≤ _; omega⟩ hstr hlt (by show c.buffer.length < c.buffer.size; omega)
        refine ⟨o', request, .inr ⟨hbegun, ho'⟩, .inr ?_⟩
        rw [hr, hg]
        exact hp
  · obtain ⟨o, ho, hp⟩ := @parseHeader_part p behind base h c r hb hstr hlt (by omega)
    refine ⟨o, c.request, .inr ⟨hb.1, ho⟩, .inr ?_⟩
    unfold parse
    rw [if_neg hb.1.method]
    exact hp

lemma parseHeader_complete {rest : Bytes}
    (hc : Begun r.line.length c.request ∧ c.buffer.offset ≤ r.header.length - 4)
    (hstr : c.buffer.str = r.header ++ rest) :
    ∃ request, Headed r request ∧ request.triedToDispatch = false ∧
      parseHeader p behind base h c = tryToDispatch p behind base h (c.mark r.header.length request) := by
  have hg := getHeaderLength_block r.isLine (cons_ne_nil _ _) c.request hstr hc.2
  obtain ⟨info, htold, hi⟩ := @parseHeaderInfo_block r.length r.line
    (rest ++ behind c.buffer.str) r.lines c.request (r.isLine _ mem_cons_self) r.fields hc.1
  refine ⟨{ c.request with headerLength := r.header.length, toHeaderInfo := info, headerParsed := true },
    ⟨hc.1.method, rfl, htold, rfl, hc.1.nobodyChunked⟩, hc.1.triedToDispatch, ?_⟩
  unfold parseHeader
  rw [if_pos hc.1.headerLength, hg]

  have hmemory : c.buffer.str ++ behind c.buffer.str =
      block (r.line :: r.lines) ++ (rest ++ behind c.buffer.str) := by
    nth_rewrite 1 [hstr]
    rw [append_assoc]
    rfl
  refine (if_neg (ne_true_of_eq_false hc.1.headerParsed)).trans ?_
  show tryToDispatch p behind base h ⟨_, parseHeaderInfo (c.buffer.str ++ behind c.buffer.str) _, _⟩ = _
  rw [hmemory]
  exact congrArg (fun q => tryToDispatch p behind base h (c.mark r.header.length q)) hi

lemma parse_complete {rest : Bytes} (hk : r.Known) (hc : Heading r c) (hstr : c.buffer.str = r.header ++ rest) :
    ∃ request, Headed r request ∧ request.triedToDispatch = false ∧
      parse p behind base h c = tryToDispatch p behind base h (c.mark r.header.length request) := by
  have hline := r.line_le
  rcases hc with ⟨hr, ho⟩ | hb
  · obtain ⟨m, hm⟩ := hk
    obtain ⟨more, hmore⟩ : ∃ more, r.header = r.line ++ more := ⟨_, rfl⟩
    have hpre : c.buffer.str <+: r.line ++ (more ++ rest) := by
      rw [hstr, hmore]
      exact ⟨[], by rw [append_nil, append_assoc]⟩
    have hlong : 16 ≤ c.buffer.length := by
      show 16 ≤ c.buffer.str.length
      rw [hstr, length_append]
      have := requestLine_length r.requestLine
      omega
    obtain ⟨request, hbegun, ⟨hg, hlen⟩ | ⟨o, hol, hg⟩⟩ := getProtocol_line hm r.requestLine hpre hlong
    · have : c.buffer.length = r.header.length + rest.length := (congrArg length hstr).trans length_append
      omega
    · obtain ⟨request', hheaded, htried, hp⟩ := @parseHeader_complete p behind base h (c.mark o request) r rest
        ⟨hbegun, by show o ≤ _; omega⟩ hstr
      refine ⟨request', hheaded, htried, ?_⟩
      unfold parse
      rw [if_pos (by rw [hr]), hr, hg]
      exact hp
  · obtain ⟨request', hheaded, htried, hp⟩ := @parseHeader_complete p behind base h c r rest hb hstr
    refine ⟨request', hheaded, htried, ?_⟩
    unfold parse
    rw [if_neg hb.1.method]
    exact hp

/-! ## the request -/

/-- `header_length_ + content_length_` for this header, in the arithmetic of the handler -/
def WireHeader.wrapped (r : WireHeader) : Nat := (r.header.length + min r.bodyLength (2^32 - 1)) % 2^32

lemma Headed.contentLength {request : Request} (hq : Headed r request) :
    request.contentLength = min r.bodyLength (2^32 - 1) := by
  have hlen := hq.told.length
  unfold WireHeader.bodyLength
  cases hn : r.length with
  | none | some n =>
    rw [hn] at hlen
    exact hlen

lemma Headed.requestLength {request : Request} (hq : Headed r request) :
    requestLength request = r.wrapped := by
  unfold Http.requestLength WireHeader.wrapped
  rw [hq.headerLength, hq.contentLength]

lemma tryToDispatch_headed (hq : Headed r c.request) (ht : c.request.triedToDispatch = false) :
    tryToDispatch p behind base h c =
      if r.bodyLength = 0 then dispatchHeader h { c with request := { c.request with triedToDispatch := true } }
      else receiveBody p h { c with request := { c.request with triedToDispatch := true } } := by
  have hcl := hq.contentLength
  have hchunked := hq.told.notChunked
  unfold tryToDispatch
  simp only [ht, hq.nobodyChunked, Bool.false_eq_true, if_false, false_and, hchunked, not_false_eq_true,
    or_true, and_true]
  by_cases hn : r.bodyLength = 0
  · rw [if_pos (by omega), if_pos hn]
  · rw [if_neg (by omega), if_neg hn]
    unfold receive
    rw [if_neg (ne_true_of_eq_false hchunked)]

lemma parse_bodied (hq : Headed r c.request) (ht : c.request.triedToDispatch = true) :
    parse p behind base h c = receiveBody p h c := by
  have hline := r.line_le
  unfold parse
  rw [if_neg hq.method]
  unfold parseHeader
  rw [if_neg (by rw [hq.headerLength]; omega)]
  unfold headerComplete
  rw [if_pos hq.headerParsed]
  unfold tryToDispatch
  rw [if_pos ht]
  unfold receive
  rw [if_neg (ne_true_of_eq_false hq.told.notChunked)]

/-- the package `pkg` has been dispatched, `rest` is left in the buffer and the request is forgotten -/
structure Dispatched (c : HttpConn) (pkg rest : Bytes) (c' : HttpConn) : Prop where
  out : c'.conn.out = c.conn.out ++ [pkg]
  queue : c'.conn.queue = c.conn.queue
  sent : c'.sent = c.sent
  rcvd : c'.conn.rcvd = c.conn.rcvd
  removed : c'.conn.removed = false
  request : c'.request = {}
  offset : c'.buffer.offset = 0
  str : c'.buffer.str = rest
  size : bufferSizeBig ≤ c.buffer.size → bufferSizeBig ≤ c'.buffer.size

lemma dispatchHeader_out (c : HttpConn) : (Jump.conn (dispatchHeader h c)).conn.out =
      c.conn.out ++ [c.buffer.str.take (c.request.headerLength % 2^32)] := by
  obtain ⟨d, hd, hout, -⟩ :=
    dispatchTask_cases h (c.setBuffer { c.buffer with offset := c.request.headerLength }) c.request.headerLength
  unfold dispatchHeader
  dsimp only
  rw [hd]
  split
  · exact hout
  · split
    · exact hout
    · exact hout

lemma reduce_header {b : OswString} {header rest : Bytes} (hpos : 0 < header.length)
    (hstr : b.str = header ++ rest) :
    (b.reduce header.length).str = rest ∧ (b.reduce header.length).offset = 0 ∧
      (b.reduce header.length).size = b.size := by
  rw [OswString.reduce_of_pos b hpos]
  refine ⟨?_, rfl, rfl⟩
  rw [hstr, drop_left]

/-- **a request without body**: what follows it in the buffer is parsed next -/
theorem dispatchHeader_spec {rest : Bytes} {header : Bytes} (hn : c.request.headerLength = header.length)
    (hpos : 0 < header.length) (hlt : header.length < 2^32) (hstr : c.buffer.str = header ++ rest)
    (hres : h c.conn.out.length ≠ .removed) (hrem : c.conn.removed = false) :
    ∃ c', Dispatched c header rest c' ∧
      (rest ≠ [] ∧ dispatchHeader h c = .inl (.parse, c') ∨ rest = [] ∧ dispatchHeader h c = returnOk c') := by
  unfold dispatchHeader
  dsimp only
  rw [hn]
  obtain ⟨d, hd, hout, hq, hreq, hsent, hrcvd, hbuf, hremoved⟩ :=
    dispatchTask_cases h (c.setBuffer { c.buffer with offset := header.length }) header.length
  have hpkg : c.buffer.str.take (header.length % 2^32) = header := by
    rw [Nat.mod_eq_of_lt hlt, hstr, take_left]
  have hlen : c.buffer.length = header.length + rest.length := (congrArg length hstr).trans length_append
  have hout' : d.conn.out = c.conn.out ++ [header] := hout.trans (congrArg (fun pkg => c.conn.out ++ [pkg]) hpkg)
  have hrem' : d.conn.removed = false := (hremoved hres).trans hrem
  rw [hd, if_neg (ne_true_of_eq_false hrem')]
  by_cases hrest : rest = []
  · -- nothing follows, and the buffer may have been given to the task
    have hbuf' : d.buffer.length ≤ header.length ∧
        (bufferSizeBig ≤ c.buffer.size → bufferSizeBig ≤ d.buffer.size) := by
      rcases hbuf with hb | ⟨-, -, hb⟩
      · rw [hb]
        rw [hrest, length_nil] at hlen
        exact ⟨le_of_eq hlen, id⟩
      · rw [hb]
        exact ⟨Nat.zero_le _, fun _ => by decide⟩
    exact ⟨d.destroyHttpRequest.setBuffer d.buffer.clear,
      ⟨hout', hq, hsent, hrcvd, hrem', rfl, rfl, hrest.symm, hbuf'.2⟩,
      .inr ⟨hrest, if_neg (not_lt.2 hbuf'.1)⟩⟩
  · have hpos' := length_pos_of_ne_nil hrest
    have hb : d.buffer = { c.buffer with offset := header.length } := by
      rcases hbuf with hb | ⟨-, hb, -⟩
      · exact hb
      · have hb' : c.buffer.length = header.length := hb
        omega
    have hgt : header.length < d.buffer.length := by
      rw [hb]
      show header.length < c.buffer.length
      omega
    obtain ⟨hstr', hoffset, hsize⟩ := @reduce_header d.buffer header rest hpos (by rw [hb]; exact hstr)
    refine ⟨{ d.setBuffer (d.buffer.reduce header.length) with request := {} },
      ⟨hout', hq, hsent, hrcvd, hrem', rfl, hoffset, hstr', fun hs => ?_⟩, .inl ⟨hrest, if_pos hgt⟩⟩
    show _ ≤ (d.buffer.reduce header.length).size
    rw [hsize, hb]
    exact hs

lemma dispatchBody_out (n : Nat) (c : HttpConn) (hn : n < 2^32) (hle : n ≤ c.buffer.length) :
    (Jump.conn (dispatchBody h n c)).conn.out = c.conn.out ++ [c.buffer.str.take n] := by
  obtain ⟨d, hd, hout, -⟩ := dispatchTask_cases h
    (c.setBuffer { c.buffer with str := c.buffer.str.take n, offset := n }) (c.buffer.str.take n).length
  have hpkg : (c.buffer.str.take n).take ((c.buffer.str.take n).length % 2^32) = c.buffer.str.take n := by
    have hlen : (c.buffer.str.take n).length = n := by
      rw [length_take]
      exact min_eq_left hle
    rw [hlen, Nat.mod_eq_of_lt hn, take_take, Nat.min_self]
  have hout' := hout.trans (congrArg (fun pkg => c.conn.out ++ [pkg]) hpkg)
  unfold dispatchBody
  dsimp only
  erw [hd]
  split
  · exact hout'
  · split
    · exact hout'
    · exact hout'

/-- **a request with a body**: what follows it in the buffer is discarded -/
theorem dispatchBody_spec {n : Nat} (hn : n < 2^32) (hle : n ≤ c.buffer.length)
    (hres : h c.conn.out.length ≠ .removed) (hrem : c.conn.removed = false) :
    ∃ c', Dispatched c (c.buffer.str.take n) [] c' ∧ dispatchBody h n c = returnOk c' := by
  have hout := dispatchBody_out (h := h) n c hn hle
  obtain ⟨d, hd, -, hq, hreq, hsent, hrcvd, hbuf, hremoved⟩ := dispatchTask_cases h
    (c.setBuffer { c.buffer with str := c.buffer.str.take n, offset := n }) (c.buffer.str.take n).length
  unfold dispatchBody at hout ⊢
  dsimp only at hout ⊢
  have hrem' : d.conn.removed = false := (hremoved hres).trans hrem
  erw [hd, if_neg (ne_true_of_eq_false hrem')] at hout ⊢
  by_cases hbig : bufferSizeBig * 2 < d.buffer.size
  · rw [if_pos hbig] at hout ⊢
    exact ⟨_, ⟨hout, hq, hsent, hrcvd, hrem', rfl, rfl, rfl, fun _ => le_memAlignedSize _⟩, rfl⟩
  · rw [if_neg hbig] at hout ⊢
    refine ⟨_, ⟨hout, hq, hsent, hrcvd, hrem', rfl, rfl, rfl, fun hsize => ?_⟩, rfl⟩
    show _ ≤ d.buffer.size
    rcases hbuf with hb | ⟨-, -, hb⟩
    · rw [hb]
      exact hsize
    · rw [hb]
      decide

def HttpConn.fit (c : HttpConn) (n : Nat) : HttpConn :=
  if c.buffer.size < n then c.setBuffer { c.buffer with size := memAlignedSize n } else c

lemma HttpConn.fit_cases (c : HttpConn) (n : Nat) :
    ∃ size, c.fit n = c.setBuffer { c.buffer with size := size } ∧ n ≤ size ∧ c.buffer.size ≤ size := by
  unfold HttpConn.fit
  by_cases hlt : c.buffer.size < n
  · rw [if_pos hlt]
    have := le_memAlignedSize n
    exact ⟨_, rfl, this, by omega⟩
  · rw [if_neg hlt]
    exact ⟨c.buffer.size, rfl, by omega, le_rfl⟩

lemma receiveBody_eq (hq : Headed r c.request) :
    receiveBody p h c = if p.packageMaxLength < r.wrapped then refuse .tooLarge c
      else if c.buffer.length < r.wrapped then .inl (.recvData, c.fit r.wrapped)
      else dispatchBody h r.wrapped (c.fit r.wrapped) := by
  have hlen : (c.fit r.wrapped).buffer.length = c.buffer.length := by
    unfold HttpConn.fit
    split <;> rfl
  unfold receiveBody
  rw [hq.requestLength, ← hlen]
  rfl

/-! ## waiting for more -/

theorem wrapped_lt (r : WireHeader) : r.wrapped < 2^32 := Nat.mod_lt _ (by decide)

/-- the header is parsed, and the body is within the limit of the handler -/
structure Bodied (p : Protocol) (r : WireHeader) (c : HttpConn) : Prop where
  headed : Headed r c.request
  tried : c.request.triedToDispatch = true
  nonempty : r.bodyLength ≠ 0
  within : r.wrapped ≤ p.packageMaxLength
  fits : r.wrapped ≤ c.buffer.size

def Waits (p : Protocol) (r : WireHeader) (c : HttpConn) : Prop :=
  Heading r c ∧ c.buffer.length < r.header.length ∨ Bodied p r c ∧ c.buffer.length < r.wrapped

lemma Waits.room (hw : Waits p r c) (hfit : r.header.length ≤ bufferSizeBig)
    (hsize : bufferSizeBig ≤ c.buffer.size) : c.buffer.length < c.buffer.size := by
  rcases hw with ⟨-, hlt⟩ | ⟨hb, hlt⟩
  · omega
  · have := hb.fits
    omega

lemma Bodied.of_eq {c' : HttpConn} (hb : Bodied p r c) (hreq : c'.request = c.request)
    (hsize : c'.buffer.size = c.buffer.size) : Bodied p r c' :=
  ⟨hreq ▸ hb.headed, hreq ▸ hb.tried, hb.nonempty, hb.within, hsize ▸ hb.fits⟩

lemma Waits.of_eq {c' : HttpConn} (hw : Waits p r c) (hreq : c'.request = c.request)
    (hbuf : c'.buffer = c.buffer) : Waits p r c' := by
  unfold Waits Heading at hw ⊢
  rw [hreq, hbuf]
  exact hw.imp_right fun ⟨hb, hlt⟩ => ⟨hb.of_eq hreq (by rw [hbuf]), hlt⟩

lemma recvData_segments (hseg : Segments c.conn.queue) (hroom : c.buffer.length < c.buffer.size) :
    (c.conn.queue = [] ∧ recvData c = returnOk
        { c with conn := { c.conn.asked (c.buffer.size - c.buffer.length) with queue := [] } }) ∨
      ∃ bs es, Taken c.conn.queue (c.buffer.size - c.buffer.length) bs es ∧ recvData c = .inl (.parse,
          { c with conn := (c.conn.asked (c.buffer.size - c.buffer.length)).got bs es }) := by
  unfold recvData
  rcases c.conn.recv_cases (c.buffer.size - c.buffer.length) with
    ⟨e, q, he, -, hwait⟩ | ⟨-, hz⟩ | ⟨bs, es, ht, ⟨hov, -⟩ | ⟨-, he⟩⟩
  · obtain ⟨rfl, hq, rfl⟩ := hwait hseg
    rw [he]
    exact .inl ⟨hq, rfl⟩
  · exact absurd (hz hseg) (by omega)
  · have := ht.le
    have hlen : c.conn.buffer.length = c.buffer.length := rfl
    have hsize : c.conn.buffer.size = c.buffer.size := rfl
    omega
  · rw [he]
    exact .inr ⟨bs, es, ht, rfl⟩

end OSW.Http
