import OpenSwoole.Protocol.EofFraming
import OpenSwoole.Server.HttpSteps

/-!
# The size limit of `Port_onRead_http`

The first request of a connection has a header block of `H` bytes and a body of `N` bytes.  The handler
computes `H + min N (2^32 - 1)` modulo `2^32`, compares it with `package_max_length` if `N` is not zero,
and takes as many bytes.

* `limit_runs`   **in every run the first answer is `outcome`, when enough has been received**;
* `limit_iff`   **exactly when that is the expected one**.
-/

namespace OSW.Http
open List

inductive Answer where
  | dispatched (pkg : Bytes)
  | refused (packet : Bytes)
  deriving DecidableEq

/-- the first answer; a refusal closes the connection, so that a dispatch is always before it -/
def HttpConn.answer (c : HttpConn) : Option Answer :=
  match c.conn.out with
  | pkg :: _ => some (.dispatched pkg)
  | [] => c.sent.head?.map .refused

/-- the answer that the stream `xs` should get: the limit is on the sum of the lengths -/
def expected (p : Protocol) (r : WireHeader) (xs : Bytes) : Option Answer :=
  if p.packageMaxLength < r.header.length + r.bodyLength then some (.refused Refusal.tooLarge.packet)
  else if r.header.length + r.bodyLength ≤ xs.length then
    some (.dispatched (xs.take (r.header.length + r.bodyLength)))
  else none

def outcome (p : Protocol) (r : WireHeader) (xs : Bytes) : Option Answer :=
  if r.bodyLength = 0 then some (.dispatched r.header)
  else if p.packageMaxLength < r.wrapped then some (.refused Refusal.tooLarge.packet)
  else if r.wrapped ≤ xs.length then some (.dispatched (xs.take r.wrapped))
  else none

section
variable (p : Protocol) (r : WireHeader)

structure Before (xs : Bytes) (c : HttpConn) : Prop where
  bytes : c.conn.rcvd ++ eventBytes c.conn.queue = xs
  rcvd : c.conn.rcvd = c.buffer.str
  out : c.conn.out = []
  sent : c.sent = []
  segments : Segments c.conn.queue
  size : bufferSizeBig ≤ c.buffer.size

/-- the request has been dispatched, as `outcome` says -/
def Settled (final : Bytes) (c : HttpConn) : Prop :=
  ∃ pkg, c.conn.out.head? = some pkg ∧ outcome p r final = some (.dispatched pkg)

/-- the request has been refused, as `outcome` says -/
def Refused (final : Bytes) (c : HttpConn) : Prop :=
  c.conn.out = [] ∧ c.sent = [Refusal.tooLarge.packet] ∧
    outcome p r final = some (.refused Refusal.tooLarge.packet)

end

section
variable {p : Protocol} {behind : Bytes → Bytes} {base : Nat} {h : OnPackage} {c : HttpConn} {r : WireHeader}
  {xs final : Bytes}

lemma Settled.mono {c' : HttpConn} (hs : Settled p r final c) (hout : c.conn.out <+: c'.conn.out) :
    Settled p r final c' := by
  obtain ⟨pkg, hhead, ho⟩ := hs
  refine ⟨pkg, ?_, ho⟩
  obtain ⟨rest, hrest⟩ := hout
  obtain ⟨out, hc⟩ := head?_eq_some_iff.1 hhead
  rw [← hrest, hc]
  rfl

lemma Before.str_prefix (hb : Before xs c) (hxs : xs <+: final) : c.buffer.str <+: final := by
  refine IsPrefix.trans ?_ hxs
  rw [← hb.rcvd, ← hb.bytes]
  exact prefix_append _ _

lemma limit_body (hb : Before xs c) (hq : Headed r c.request) (ht : c.request.triedToDispatch = true)
    (hn : r.bodyLength ≠ 0) (hxs : xs <+: final) :
    (∃ c', (receiveBody p h c = returnOk c' ∨ receiveBody p h c = .inl (.recvData, c')) ∧
        Before xs c' ∧ Waits p r c') ∨
      Settled p r final (Jump.conn (receiveBody p h c)) ∨
      ∃ c', receiveBody p h c = .inr (.err, c') ∧ Refused p r final c' := by
  have hstr := hb.str_prefix hxs
  rw [receiveBody_eq hq]
  by_cases hmax : p.packageMaxLength < r.wrapped
  · rw [if_pos hmax]
    refine .inr (.inr ⟨_, rfl, hb.out, ?_, ?_⟩)
    · rw [hb.sent]
      rfl
    · unfold outcome
      rw [if_neg hn, if_pos hmax]
  · rw [if_neg hmax]
    obtain ⟨size, hf, hle, hsize⟩ := c.fit_cases r.wrapped
    rw [hf]
    by_cases hlt : c.buffer.length < r.wrapped
    · rw [if_pos hlt]
      exact .inl ⟨_, .inr rfl, { hb with size := Nat.le_trans hb.size hsize },
        .inr ⟨⟨hq, ht, hn, Nat.le_of_not_lt hmax, hle⟩, hlt⟩⟩
    · rw [if_neg hlt]
      have hge : r.wrapped ≤ c.buffer.length := Nat.le_of_not_lt hlt
      refine .inr (.inl ⟨c.buffer.str.take r.wrapped, ?_, ?_⟩)
      · have hout := dispatchBody_out (h := h) r.wrapped (c.setBuffer { c.buffer with size := size })
          (wrapped_lt r) hge
        rw [hout]
        show (c.conn.out ++ [c.buffer.str.take r.wrapped]).head? = _
        rw [hb.out]
        rfl
      · have hlen := hstr.length_le
        have hlen' : c.buffer.length = c.buffer.str.length := rfl
        unfold outcome
        rw [if_neg hn, if_neg hmax, if_pos (by omega)]
        obtain ⟨ys, hys⟩ := hstr
        rw [← hys, take_append_of_le_length hge]

/-- **one turn of the parser** on a connection without answer -/
theorem limit_parse (hk : r.Known) (hfit : r.header.length ≤ bufferSizeBig) (hfinal : r.header <+: final)
    (hxs : xs <+: final) (hb : Before xs c) (hphase : Heading r c ∨ Bodied p r c) :
    (∃ c', (parse p behind base h c = returnOk c' ∨ parse p behind base h c = .inl (.recvData, c')) ∧
        Before xs c' ∧ Waits p r c') ∨
      Settled p r final (Jump.conn (parse p behind base h c)) ∨
      ∃ c', parse p behind base h c = .inr (.err, c') ∧ Refused p r final c' := by
  have hstr := hb.str_prefix hxs
  have hlen : c.buffer.length = c.buffer.str.length := rfl
  rcases hphase with hhead | hbody
  · by_cases hlt : c.buffer.length < r.header.length
    · have hpre : c.buffer.str <+: r.header := prefix_of_prefix_length_le hstr hfinal (by omega)
      obtain ⟨o, request, hhead', hj⟩ := parse_part hk hfit hhead hpre hlt hb.size
      exact .inl ⟨_, hj, { hb with }, .inl ⟨hhead', hlt⟩⟩
    · have hpre : r.header <+: c.buffer.str := prefix_of_prefix_length_le hfinal hstr (by omega)
      obtain ⟨rest, hrest⟩ := hpre
      obtain ⟨request, hq, ht, hj⟩ := @parse_complete p behind base h c r rest hk hhead hrest.symm
      rw [hj, @tryToDispatch_headed p behind base h (c.mark r.header.length request) r hq ht]
      by_cases hn : r.bodyLength = 0
      · rw [if_pos hn]
        refine .inr (.inl ⟨r.header, ?_, ?_⟩)
        · rw [dispatchHeader_out]
          show (c.conn.out ++ [c.buffer.str.take (request.headerLength % 2^32)]).head? = _
          have hlt32 : r.header.length < 2^32 := lt_of_le_of_lt hfit (by decide)
          rw [hb.out, hq.headerLength, Nat.mod_eq_of_lt hlt32, ← hrest, take_left]
          rfl
        · unfold outcome
          rw [if_pos hn]
      · rw [if_neg hn]
        exact limit_body { hb with } { hq with } rfl hn hxs
  · rw [parse_bodied hbody.headed hbody.tried]
    exact limit_body hb hbody.headed hbody.tried hbody.nonempty hxs

/-! ## whole calls and whole runs -/

def Limit (p : Protocol) (r : WireHeader) (xs final : Bytes) (s : Label × HttpConn) : Prop :=
  Before xs s.2 ∧ (s.1 = .recvData ∧ Waits p r s.2 ∨ s.1 = .parse ∧ (Heading r s.2 ∨ Bodied p r s.2)) ∨
    Settled p r final s.2

def Limited (p : Protocol) (r : WireHeader) (xs final : Bytes) (s : Status × HttpConn) : Prop :=
  s.1 = .opened ∧ Before xs s.2 ∧ Waits p r s.2 ∨ Settled p r final s.2 ∨
    s.1 = .closed ∧ Refused p r final s.2

lemma limit_recv (hfit : r.header.length ≤ bufferSizeBig) (hb : Before xs c) (hw : Waits p r c) :
    (∃ c', recvData c = .inr (.ok, c') ∧ Before xs c' ∧ Waits p r c') ∨
      ∃ c', recvData c = .inl (.parse, c') ∧ Before xs c' ∧ (Heading r c' ∨ Bodied p r c') := by
  rcases recvData_segments hb.segments (hw.room hfit hb.size) with ⟨hq, hj⟩ | ⟨bs, es, ht, hj⟩
  · have hbytes := hb.bytes
    rw [hq] at hbytes
    exact .inl ⟨_, hj, ⟨hbytes, hb.rcvd, hb.out, hb.sent, Segments.nil, hb.size⟩, hw.of_eq rfl rfl⟩
  · refine .inr ⟨_, hj, ⟨?_, ?_, hb.out, hb.sent, ht.segments hb.segments, hb.size⟩, ?_⟩
    · show (c.conn.rcvd ++ bs) ++ eventBytes es = xs
      rw [append_assoc, ← ht.bytes]
      exact hb.bytes
    · show c.conn.rcvd ++ bs = c.buffer.str ++ bs
      rw [hb.rcvd]
    · rcases hw with ⟨hhead, -⟩ | ⟨hbody, -⟩
      · exact .inl hhead
      · exact .inr (hbody.of_eq rfl rfl)

section
variable (hk : r.Known) (hfit : r.header.length ≤ bufferSizeBig) (hfinal : r.header <+: final)
include hk hfit hfinal

lemma limit_next (hxs : xs <+: final) {s : Label × HttpConn} (hs : Limit p r xs final s) :
    (∃ s', httpStep p behind base h s = .inl s' ∧ Limit p r xs final s') ∨
      ∃ e, httpStep p behind base h s = .inr e ∧ Limited p r xs final (e.1.status, e.2) := by
  rcases hs with ⟨hb, ⟨hl, hw⟩ | ⟨hl, hphase⟩⟩ | hset
  · unfold httpStep
    rw [hl]
    rcases limit_recv hfit hb hw with ⟨c', hj, hb', hw'⟩ | ⟨c', hj, hb', hphase⟩
    · exact .inr ⟨_, hj, .inl ⟨rfl, hb', hw'⟩⟩
    · exact .inl ⟨_, hj, .inl ⟨hb', .inr ⟨rfl, hphase⟩⟩⟩
  · unfold httpStep
    rw [hl]
    rcases @limit_parse p behind base h s.2 r xs final hk hfit hfinal hxs hb hphase with
      ⟨c', hj | hj, hb', hw'⟩ | hset | ⟨c', hj, href⟩
    · exact .inr ⟨_, hj, .inl ⟨rfl, hb', hw'⟩⟩
    · exact .inl ⟨_, hj, .inl ⟨hb', .inl ⟨rfl, hw'⟩⟩⟩
    · cases hj : parse p behind base h s.2 with
      | inl s' =>
        rw [hj] at hset
        exact .inl ⟨s', rfl, .inr hset⟩
      | inr e =>
        rw [hj] at hset
        exact .inr ⟨e, rfl, .inr (.inl hset)⟩
    · exact .inr ⟨_, hj, .inr (.inr ⟨rfl, href⟩)⟩
  · rcases @httpStep_cases p behind base h s with ⟨s', he, -, hout, -, -⟩ | ⟨e, c', he, hout, -, -⟩
    · exact .inl ⟨s', he, .inr (hset.mono hout)⟩
    · exact .inr ⟨_, he, .inr (.inl (hset.mono hout))⟩

/-- **one readiness event** -/
theorem limit_onRead {es : List RecvEvent} (hes : Segments es) (hxs : xs ++ eventBytes es <+: final)
    {s : Status × HttpConn} (hs : Limited p r xs final s) :
    ∃ s', onRead p behind base h es s = some s' ∧ Limited p r (xs ++ eventBytes es) final s' := by
  obtain ⟨st, c⟩ := s
  cases st with
  | opened =>
    have hstart : Limit p r (xs ++ eventBytes es) final
        (.recvData, { c with conn := { c.conn with queue := c.conn.queue ++ es } }) := by
      rcases hs with ⟨-, hb, hw⟩ | hset | ⟨hcl, -⟩
      · refine .inl ⟨⟨?_, hb.rcvd, hb.out, hb.sent, hb.segments.append hes, hb.size⟩,
          .inl ⟨rfl, hw.of_eq rfl rfl⟩⟩
        rw [eventBytes_append, ← append_assoc, hb.bytes]
      · exact .inr hset
      · cases hcl
    exact onRead_spec (fun _ => limit_next hk hfit hfinal hxs) hstart
  | closed | crashed =>
    refine ⟨_, rfl, .inr (hs.resolve_left ?_)⟩
    rintro ⟨hop, -⟩
    cases hop

lemma limit_reads : Reads p behind base h final fun xs => Limited p r xs final :=
  fun _ _ _ hes hxs hs => limit_onRead hk hfit hfinal hes hxs hs

end

lemma Settled.answer_eq (hs : Settled p r final c) : c.answer = outcome p r final := by
  obtain ⟨pkg, hhead, ho⟩ := hs
  obtain ⟨out, hc⟩ := head?_eq_some_iff.1 hhead
  unfold HttpConn.answer
  rw [hc]
  exact ho.symm

lemma Refused.answer_eq (hs : Refused p r final c) : c.answer = outcome p r final := by
  unfold HttpConn.answer
  rw [hs.1, hs.2.1]
  exact hs.2.2.symm

lemma Before.answer_eq (hb : Before xs c) : c.answer = none := by
  unfold HttpConn.answer
  rw [hb.out, hb.sent]
  rfl

lemma limited_init (p : Protocol) (r : WireHeader) (final : Bytes) :
    Limited p r [] final (.opened, HttpConn.init) := by
  have hline := r.line_le
  refine .inl ⟨rfl, ⟨rfl, rfl, rfl, rfl, Segments.nil, le_memAlignedSize _⟩, .inl ⟨.inl ⟨rfl, rfl⟩, ?_⟩⟩
  show 0 < _
  omega

lemma Limited.answer_cases {s : Status × HttpConn} (hs : Limited p r xs final s) :
    s.2.answer = none ∨ s.2.answer = outcome p r final := by
  rcases hs with ⟨-, hb, -⟩ | hset | ⟨-, href⟩
  · exact .inl hb.answer_eq
  · exact .inr hset.answer_eq
  · exact .inr href.answer_eq

lemma Limited.answer_final {s : Status × HttpConn} (hs : Limited p r final final s)
    (hfinal : r.header <+: final) (hq : s.1 = .opened → s.2.conn.queue = []) :
    s.2.answer = outcome p r final := by
  rcases hs with ⟨hop, hb, hw⟩ | hset | ⟨-, href⟩
  · have hlen : s.2.buffer.length = final.length := by
      have hbytes := hb.bytes
      rw [hq hop, hb.rcvd] at hbytes
      rw [← hbytes]
      exact congrArg length (append_nil _).symm
    have hle := hfinal.length_le
    rcases hw with ⟨-, hlt⟩ | ⟨hbody, hlt⟩
    · omega
    · have := hbody.within
      rw [hb.answer_eq]
      unfold outcome
      rw [if_neg hbody.nonempty, if_neg (by omega), if_neg (by omega)]
  · exact hset.answer_eq
  · exact href.answer_eq

lemma outcome_eq_expected (hfit : r.header.length ≤ bufferSizeBig) (hfinal : r.header <+: final)
    (hzero : r.bodyLength = 0 → r.header.length ≤ p.packageMaxLength)
    (hwrap : 2^32 ≤ r.header.length + min r.bodyLength (2^32 - 1) →
      p.packageMaxLength < r.header.length + min r.bodyLength (2^32 - 1) - 2^32) :
    outcome p r final = expected p r final := by
  have hline := r.line_le
  have hle := hfinal.length_le
  have hbig : bufferSizeBig = 65536 := rfl
  unfold outcome expected WireHeader.wrapped
  by_cases hn : r.bodyLength = 0
  · obtain ⟨rest, rfl⟩ := hfinal
    rw [if_pos hn, hn, add_zero, if_neg (by omega), if_pos hle, take_left]
  · rw [if_neg hn]
    by_cases hw : 2^32 ≤ r.header.length + min r.bodyLength (2^32 - 1)
    · rw [if_pos (by omega), if_pos (by omega)]
    · have hsum : (r.header.length + min r.bodyLength (2^32 - 1)) % 2^32 =
        r.header.length + r.bodyLength := by omega
      rw [hsum]

end

/-- **The size limit holds over the natural numbers** exactly if the body is not empty or the header within the
limit, and the sum of the lengths does not wrap around. -/
theorem limit_iff (p : Protocol) (r : WireHeader) (hk : r.Known) (hfit : r.header.length ≤ bufferSizeBig) :
    (∀ behind base h rest calls, Cuts calls (r.header ++ rest) →
      ∃ k s, HttpConn.serve p behind base h (calls ++ replicate k []) = some s ∧
        s.2.answer = expected p r (r.header ++ rest)) ↔
    (r.bodyLength = 0 → r.header.length ≤ p.packageMaxLength) ∧
      (2^32 ≤ r.header.length + min r.bodyLength (2^32 - 1) →
        p.packageMaxLength < r.header.length + min r.bodyLength (2^32 - 1) - 2^32) := by
  constructor
  · intro hall
    have hfinal : r.header <+: r.header ++ [] := prefix_append _ _
    have hbig : bufferSizeBig = 65536 := rfl
    have hmax := p.max_lt
    -- the header alone, in one segment: its answer is the one of `outcome`
    obtain ⟨hseg, hbytes⟩ := cuts_oneSegment (r.header ++ [])
    obtain ⟨k, s, hs, hanswer⟩ := hall (fun _ => []) 0 (fun _ => .ok) [] _ ⟨hseg, hbytes⟩
    have hbytes' : eventBytes (oneSegment (r.header ++ []) ++ replicate k []).flatten = r.header ++ [] := by
      rw [eventBytes_replicate_nil, hbytes]
    obtain ⟨s', hiter, hlim⟩ := serve_calls (limit_reads hk hfit hfinal) (segments_replicate_nil hseg k)
      ⟨[], (append_nil _).trans hbytes'⟩ (limited_init p r _)
    obtain rfl := Option.some.inj (hs.symm.trans hiter)
    have hcases := hlim.answer_cases
    rw [hanswer] at hcases
    have hrefused : p.packageMaxLength < r.header.length + r.bodyLength →
        outcome p r (r.header ++ []) = some (.refused Refusal.tooLarge.packet) := by
      intro hlt
      unfold expected at hcases
      rw [if_pos hlt] at hcases
      rcases hcases with hc | hc
      · cases hc
      · exact hc.symm
    unfold outcome at hrefused
    constructor
    · intro hn
      by_contra hlt
      have := hrefused (by omega)
      rw [if_pos hn] at this
      cases this
    · by_contra hlt
      have hn : r.bodyLength ≠ 0 := by omega
      have hwrapped : r.wrapped = r.header.length + min r.bodyLength (2^32 - 1) - 2^32 := by
        unfold WireHeader.wrapped
        omega
      have := hrefused (by omega)
      rw [if_neg hn, if_neg (by omega), append_nil, if_pos (by omega)] at this
      cases this
  · rintro ⟨hzero, hwrap⟩ behind base h rest calls hcuts
    have hfinal : r.header <+: r.header ++ rest := prefix_append _ _
    obtain ⟨k, s, hs, hlim, hq⟩ := serve_all (limit_reads hk hfit hfinal) (limited_init p r _) hcuts
    refine ⟨k, s, hs, ?_⟩
    rw [hlim.answer_final hfinal hq]
    exact outcome_eq_expected hfit hfinal hzero hwrap

lemma isRequestLine_get : IsRequestLine (ascii "GET") (ascii "GET / HTTP/1.1") :=
  ⟨by decide +kernel, ascii "/", ascii "HTTP/1.1", by decide +kernel, by decide +kernel,
    by decide +kernel, by decide +kernel⟩

lemma isFields_length {ds : Bytes} {n : Nat} (h : IsDecimal ds n) :
    IsFields (some n) [ascii "Content-Length: " ++ ds] := by
  have hno : ∀ x : UInt8, isDigit x = false → x ∉ ascii "Content-Length: " →
      x ∉ ascii "Content-Length: " ++ ds := by
    intro x hx hm hmem
    rcases mem_append.1 hmem with hm' | hm'
    · exact hm hm'
    · cases (h.digits x hm').symm.trans hx
  have hnamed : Named (ascii "Content-Length:") (ascii "Content-Length: " ++ ds) := rfl
  refine ⟨forall_mem_singleton.2 ?_, forall_mem_singleton.2 fun _ => ?_,
    fun _ => ⟨_, mem_singleton_self _, hnamed⟩, forall_mem_singleton.2 fun hch => ?_⟩
  · exact ⟨cons_ne_nil _ _, hno 13 (by decide) (by decide), hno 10 (by decide) (by decide)⟩
  · exact ⟨n, rfl, ascii "Content-Length:", [32], ds, [], rfl, rfl, fun b hb => .inl (mem_singleton.1 hb), h,
      nofun, by rw [append_nil]; rfl⟩
  · have hhead : some (99 : UInt8) = some 116 := congrArg head? hch.1
    cases hhead

/-- `GET /` with one header line -/
def lengthHeader (ds : Bytes) (n : Nat) (h : IsDecimal ds n) : WireHeader where
  method := ascii "GET"
  line := ascii "GET / HTTP/1.1"
  lines := [ascii "Content-Length: " ++ ds]
  length := some n
  requestLine := isRequestLine_get
  fields := isFields_length h

lemma isDecimal_three : IsDecimal (ascii "3") 3 := ⟨by decide +kernel, by decide +kernel, by decide +kernel⟩

lemma isDecimal_max : IsDecimal (ascii "4294967295") 4294967295 :=
  ⟨by decide +kernel, by decide +kernel, by decide +kernel⟩

lemma isDecimal_zero : IsDecimal (ascii "0") 0 := ⟨by decide +kernel, by decide +kernel, by decide +kernel⟩

def threeHeader : WireHeader := lengthHeader (ascii "3") 3 isDecimal_three

/-- a limit of a thousand, and a cut inside of the header -/
theorem limit_iff_three : ∃ k s, HttpConn.serve (eofConfig 1000 (by decide)) (fun _ => []) 0 (fun _ => .ok)
        ([[.data (threeHeader.header.take 20)], [.data (threeHeader.header.drop 20 ++ ascii "abc")]] ++
          replicate k []) = some s ∧
      s.2.answer = some (.dispatched (threeHeader.header ++ ascii "abc")) := by
  have hall := (limit_iff (eofConfig 1000 (by decide)) threeHeader ⟨.get, by decide⟩ (by decide)).2
    ⟨nofun, nofun⟩
  obtain ⟨k, s, hs, hanswer⟩ := hall (fun _ => []) 0 (fun _ => .ok) (ascii "abc")
    [[.data (threeHeader.header.take 20)], [.data (threeHeader.header.drop 20 ++ ascii "abc")]]
      (by decide +kernel)
  refine ⟨k, s, hs, hanswer.trans ?_⟩
  decide +kernel

/-- a body of `2^32 - 1` bytes is announced; and a header over the limit, without body, is dispatched -/
theorem limit_wraps : (HttpConn.serve (eofConfig 1000 (by decide)) (fun _ => []) 0 (fun _ => .ok)
        [[.data (lengthHeader (ascii "4294967295") 4294967295 isDecimal_max).header]]).map
          (fun s => s.2.answer) =
      some (some (.dispatched ((lengthHeader (ascii "4294967295") 4294967295 isDecimal_max).header.take 45))) ∧
    (lengthHeader (ascii "4294967295") 4294967295 isDecimal_max).header.length = 46 ∧
    expected (eofConfig 1000 (by decide)) (lengthHeader (ascii "4294967295") 4294967295 isDecimal_max)
      (lengthHeader (ascii "4294967295") 4294967295 isDecimal_max).header =
        some (.refused Refusal.tooLarge.packet) ∧
    (HttpConn.serve (eofConfig 30 (by decide)) (fun _ => []) 0 (fun _ => .ok)
        [[.data (lengthHeader (ascii "0") 0 isDecimal_zero).header]]).map (fun s => s.2.answer) =
      some (some (.dispatched (lengthHeader (ascii "0") 0 isDecimal_zero).header)) ∧
    expected (eofConfig 30 (by decide)) (lengthHeader (ascii "0") 0 isDecimal_zero)
      (lengthHeader (ascii "0") 0 isDecimal_zero).header = some (.refused Refusal.tooLarge.packet) := by
  decide +kernel

end OSW.Http
