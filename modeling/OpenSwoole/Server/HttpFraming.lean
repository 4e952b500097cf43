import OpenSwoole.Server.HttpLimit

/-!
# Framing by `Port_onRead_http`

Requests without body follow one another on a connection, the last one may have a body.  Whatever
the cuts of the stream, every request is dispatched, whole and once, in order.

* `frames_parse`   **one turn of the parser**: more is awaited, or one request is dispatched.
-/

namespace OSW.Http
open List

def stream (requests : List WireRequest) : Bytes := (requests.map WireRequest.bytes).flatten

/-- known methods, headers that fit the buffer, and a body in the last request only, within the limit -/
def Framed (p : Protocol) (requests : List WireRequest) : Prop :=
  ∀ a r b, requests = a ++ r :: b → r.Known ∧ r.header.length ≤ bufferSizeBig ∧
    (r.bodyLength = 0 ∨ b = [] ∧ r.bytes.length ≤ p.packageMaxLength)

/-- between two steps; `xs` is what the peer has sent -/
structure Serving (requests done todo : List WireRequest) (xs : Bytes) (c : HttpConn) : Prop where
  split : requests = done ++ todo
  out : c.conn.out = done.map WireRequest.bytes
  rcvd : c.conn.rcvd = stream done ++ c.buffer.str
  bytes : c.conn.rcvd ++ eventBytes c.conn.queue = xs
  sent : c.sent = []
  segments : Segments c.conn.queue
  removed : c.conn.removed = false
  size : bufferSizeBig ≤ c.buffer.size

def Idle (p : Protocol) (todo : List WireRequest) (c : HttpConn) : Prop :=
  match todo with
  | [] => c.buffer.str = []
  | r :: _ => Waits p r.toWireHeader c

def Pending (p : Protocol) (todo : List WireRequest) (c : HttpConn) : Prop :=
  ∃ r rest, todo = r :: rest ∧ (Heading r.toWireHeader c ∨ Bodied p r.toWireHeader c)

section
variable {p : Protocol} {behind : Bytes → Bytes} {base : Nat} {h : OnPackage} {c : HttpConn}
  {requests done todo rest : List WireRequest} {r : WireRequest} {xs : Bytes}

lemma stream_append (a b : List WireRequest) : stream (a ++ b) = stream a ++ stream b := by
  unfold stream
  rw [map_append, flatten_append]

lemma stream_cons (r : WireRequest) (rest : List WireRequest) :
    stream (r :: rest) = r.bytes ++ stream rest := rfl

lemma stream_snoc (done : List WireRequest) (r : WireRequest) :
    stream (done ++ [r]) = stream done ++ r.bytes := by
  rw [stream_append]
  exact congrArg (stream done ++ ·) (append_nil _)

lemma WireRequest.bytes_length (r : WireRequest) : r.bytes.length = r.header.length + r.bodyLength := by
  unfold WireRequest.bytes
  rw [length_append, r.body_length]

lemma WireRequest.bytes_of_zero (hn : r.bodyLength = 0) : r.bytes = r.header := by
  have hlen := r.body_length
  rw [hn] at hlen
  unfold WireRequest.bytes
  rw [length_eq_zero_iff.1 hlen, append_nil]

lemma WireRequest.wrapped_eq (hmax : r.bytes.length ≤ p.packageMaxLength) : r.wrapped = r.bytes.length := by
  have hlt := p.max_lt
  have hlen := r.bytes_length
  unfold WireHeader.wrapped
  omega

lemma Serving.str_prefix (hs : Serving requests done todo xs c) (hxs : xs <+: stream requests) :
    c.buffer.str <+: stream todo := by
  have hpre : stream done ++ c.buffer.str <+: stream done ++ stream todo := by
    rw [← hs.rcvd, ← stream_append, ← hs.split]
    refine IsPrefix.trans ?_ hxs
    rw [← hs.bytes]
    exact prefix_append _ _
  exact (prefix_append_right_inj _).1 hpre

lemma Serving.dispatched {pkg rest' : Bytes} {c' : HttpConn} (hs : Serving requests done (r :: rest) xs c)
    (hd : Dispatched c pkg rest' c') (hpkg : pkg = r.bytes) (hstr : c.buffer.str = r.bytes ++ rest') :
    Serving requests (done ++ [r]) rest xs c' := by
  refine ⟨?_, ?_, ?_, ?_, hd.sent.trans hs.sent, hd.queue ▸ hs.segments, hd.removed, hd.size hs.size⟩
  · rw [hs.split, append_assoc]
    rfl
  · rw [hd.out, hs.out, hpkg, map_append]
    rfl
  · rw [hd.rcvd, hs.rcvd, hd.str, hstr, stream_snoc, append_assoc]
  · rw [hd.rcvd, hd.queue]
    exact hs.bytes

lemma idle_of_empty (hreq : c.request = {}) (ho : c.buffer.offset = 0) (hstr : c.buffer.str = []) :
    Idle p todo c := by
  cases todo with
  | nil => exact hstr
  | cons r rest =>
    have hline := r.toWireHeader.line_le
    refine .inl ⟨.inl ⟨hreq, ho⟩, ?_⟩
    show c.buffer.str.length < _
    rw [hstr, length_nil]
    omega

lemma frames_body (hh : ∀ n, h n ≠ .removed) (hs : Serving requests done [r] xs c) (hxs : xs <+: stream requests)
    (hmax : r.bytes.length ≤ p.packageMaxLength) (hq : Headed r.toWireHeader c.request)
    (ht : c.request.triedToDispatch = true) (hn : r.bodyLength ≠ 0) :
    ∃ c', (receiveBody p h c = .inl (.recvData, c') ∨ receiveBody p h c = returnOk c') ∧
      ∃ done' todo', Serving requests done' todo' xs c' ∧ Idle p todo' c' := by
  have hw := WireRequest.wrapped_eq hmax
  have hstr : c.buffer.str <+: r.bytes := by
    have := hs.str_prefix hxs
    rwa [stream_cons, show stream [] = [] from rfl, append_nil] at this
  rw [receiveBody_eq hq, if_neg (by omega)]
  obtain ⟨size, hf, hle, hsize⟩ := c.fit_cases r.wrapped
  rw [hf]
  by_cases hlt : c.buffer.length < r.wrapped
  · rw [if_pos hlt]
    exact ⟨_, .inl rfl, done, [r], { hs with size := Nat.le_trans hs.size hsize },
      .inr ⟨⟨hq, ht, hn, by omega, hle⟩, hlt⟩⟩
  · rw [if_neg hlt]
    have hwhole : c.buffer.str = r.bytes := by
      refine hstr.eq_of_length (Nat.le_antisymm hstr.length_le ?_)
      have hlen : c.buffer.length = c.buffer.str.length := rfl
      omega
    obtain ⟨c', hd, hj⟩ := @dispatchBody_spec h (c.setBuffer { c.buffer with size := size }) r.wrapped
      (wrapped_lt _) (Nat.le_of_not_lt hlt) (hh _) hs.removed
    have hs' : Serving requests done [r] xs (c.setBuffer { c.buffer with size := size }) :=
      { hs with size := Nat.le_trans hs.size hsize }
    refine ⟨c', .inr hj, done ++ [r], [], hs'.dispatched hd ?_ ?_, hd.str⟩
    · show c.buffer.str.take r.wrapped = r.bytes
      rw [hw, hwhole, take_length]
    · rw [append_nil]
      exact hwhole

lemma frames_parse (hreq : Framed p requests) (hh : ∀ n, h n ≠ .removed) (hxs : xs <+: stream requests)
    (hs : Serving requests done todo xs c) (hp : Pending p todo c) :
    (∃ c', (parse p behind base h c = .inl (.recvData, c') ∨ parse p behind base h c = returnOk c') ∧
        ∃ done' todo', Serving requests done' todo' xs c' ∧ Idle p todo' c') ∨
      ∃ c', parse p behind base h c = .inl (.parse, c') ∧
        ∃ done' todo', Serving requests done' todo' xs c' ∧ Pending p todo' c' := by
  obtain ⟨r, rest, rfl, hphase⟩ := hp
  obtain ⟨hk, hfit, hbody⟩ := hreq done r rest hs.split
  have hstr := hs.str_prefix hxs
  have hfinal : r.header <+: stream (r :: rest) := by
    rw [stream_cons, WireRequest.bytes, append_assoc]
    exact prefix_append _ _
  have hlen : c.buffer.length = c.buffer.str.length := rfl
  rcases hphase with hhead | hbodied
  · by_cases hlt : c.buffer.length < r.header.length
    · have hpre : c.buffer.str <+: r.header := prefix_of_prefix_length_le hstr hfinal (by omega)
      obtain ⟨o, request, hhead', hj⟩ := @parse_part p behind base h c r.toWireHeader
        hk hfit hhead hpre hlt hs.size
      exact .inl ⟨_, hj.symm, done, r :: rest, { hs with }, .inl ⟨hhead', hlt⟩⟩
    · have hpre : r.header <+: c.buffer.str := prefix_of_prefix_length_le hfinal hstr (by omega)
      obtain ⟨tail, htail⟩ := hpre
      obtain ⟨request, hq, ht, hj⟩ := @parse_complete p behind base h c r.toWireHeader tail hk hhead htail.symm
      rw [hj, @tryToDispatch_headed p behind base h (c.mark r.header.length request) r.toWireHeader hq ht]
      have hs' : Serving requests done (r :: rest) xs
          { c.mark r.header.length request with request := { request with triedToDispatch := true } } :=
        { hs with }
      by_cases hn : r.bodyLength = 0
      · -- what is left in the buffer belongs to the next requests
        rw [if_pos hn]
        have hline := r.toWireHeader.line_le
        have hbig : bufferSizeBig = 65536 := rfl
        obtain ⟨c', hd, hcase⟩ := @dispatchHeader_spec h
          { c.mark r.header.length request with request := { request with triedToDispatch := true } } tail
            r.header
          hq.headerLength (by omega) (by omega) htail.symm (hh _) hs.removed
        have hnext := hs'.dispatched hd (WireRequest.bytes_of_zero hn).symm
          (by rw [WireRequest.bytes_of_zero hn]; exact htail.symm)
        rcases hcase with ⟨htl, hj'⟩ | ⟨htl, hj'⟩
        · refine .inr ⟨c', hj', done ++ [r], rest, hnext, ?_⟩
          have hpre := hnext.str_prefix hxs
          rw [hd.str] at hpre
          cases rest with
          | nil => exact absurd (prefix_nil.1 hpre) htl
          | cons r' rest => exact ⟨r', rest, rfl, .inl (.inl ⟨hd.request, hd.offset⟩)⟩
        · exact .inl ⟨c', .inr hj', done ++ [r], rest, hnext,
            idle_of_empty hd.request hd.offset (hd.str.trans htl)⟩
      · rw [if_neg hn]
        obtain ⟨rfl, hmax⟩ := hbody.resolve_left hn
        exact .inl (frames_body hh hs' hxs hmax { hq with } rfl hn)
  · obtain ⟨rfl, hmax⟩ := hbody.resolve_left hbodied.nonempty
    rw [parse_bodied hbodied.headed hbodied.tried]
    exact .inl (frames_body hh hs hxs hmax hbodied.headed hbodied.tried hbodied.nonempty)

lemma frames_recv (hreq : Framed p requests) (hxs : xs <+: stream requests)
    (hs : Serving requests done todo xs c) (hi : Idle p todo c) :
    (∃ c', recvData c = returnOk c' ∧ Serving requests done todo xs c' ∧ Idle p todo c') ∨
      ∃ c', recvData c = .inl (.parse, c') ∧ Serving requests done todo xs c' ∧ Pending p todo c' := by
  have hroom : c.buffer.length < c.buffer.size := by
    cases todo with
    | nil =>
      have hzero : c.buffer.length = 0 := congrArg length hi
      have hbig : bufferSizeBig = 65536 := rfl
      have := hs.size
      omega
    | cons r rest => exact Waits.room hi (hreq done r rest hs.split).2.1 hs.size
  rcases recvData_segments hs.segments hroom with ⟨hq, hj⟩ | ⟨bs, es, ht, hj⟩
  · have hbytes := hs.bytes
    rw [hq] at hbytes
    refine .inl ⟨_, hj, { hs with bytes := hbytes, segments := Segments.nil }, ?_⟩
    cases todo with
    | nil => exact hi
    | cons r rest => exact Waits.of_eq hi rfl rfl
  · have hs' : Serving requests done todo xs
        { c with conn := (c.conn.asked (c.buffer.size - c.buffer.length)).got bs es } := by
      refine { hs with rcvd := ?_, bytes := ?_, segments := ht.segments hs.segments }
      · show c.conn.rcvd ++ bs = stream done ++ (c.buffer.str ++ bs)
        rw [hs.rcvd, append_assoc]
      · show (c.conn.rcvd ++ bs) ++ eventBytes es = xs
        rw [append_assoc, ← ht.bytes]
        exact hs.bytes
    refine .inr ⟨_, hj, hs', ?_⟩
    cases todo with
    | nil =>
      -- the peer has nothing more to send
      have hnil : c.buffer.str ++ bs = [] := prefix_nil.1 (hs'.str_prefix hxs)
      exact absurd (append_eq_nil_iff.1 hnil).2 ht.ne_nil
    | cons r rest =>
      refine ⟨r, rest, rfl, ?_⟩
      rcases hi with ⟨hhead, -⟩ | ⟨hbody, -⟩
      · exact .inl hhead
      · exact .inr (hbody.of_eq rfl rfl)

/-! ## whole calls and whole runs -/

def Frames (p : Protocol) (requests : List WireRequest) (xs : Bytes) (s : Label × HttpConn) : Prop :=
  ∃ done todo, Serving requests done todo xs s.2 ∧
    (s.1 = .recvData ∧ Idle p todo s.2 ∨ s.1 = .parse ∧ Pending p todo s.2)

def Served (p : Protocol) (requests : List WireRequest) (xs : Bytes) (s : Status × HttpConn) : Prop :=
  s.1 = .opened ∧ ∃ done todo, Serving requests done todo xs s.2 ∧ Idle p todo s.2

section
variable (hreq : Framed p requests) (hh : ∀ n, h n ≠ .removed)
include hreq hh

lemma frames_next (hxs : xs <+: stream requests) (s : Label × HttpConn) (hs : Frames p requests xs s) :
    (∃ s', httpStep p behind base h s = .inl s' ∧ Frames p requests xs s') ∨
      ∃ e, httpStep p behind base h s = .inr e ∧ Served p requests xs (e.1.status, e.2) := by
  obtain ⟨l, c⟩ := s
  obtain ⟨done, todo, hsv, ⟨hl, hi⟩ | ⟨hl, hp⟩⟩ := hs
  · obtain rfl : l = .recvData := hl
    rcases frames_recv hreq hxs hsv hi with ⟨c', hj, hsv', hi'⟩ | ⟨c', hj, hsv', hp'⟩
    · exact .inr ⟨_, hj, rfl, done, todo, hsv', hi'⟩
    · exact .inl ⟨_, hj, done, todo, hsv', .inr ⟨rfl, hp'⟩⟩
  · obtain rfl : l = .parse := hl
    rcases @frames_parse p behind base h c requests done todo xs hreq hh hxs hsv hp with
      ⟨c', hj | hj, done', todo', hsv', hi'⟩ | ⟨c', hj, done', todo', hsv', hp'⟩
    · exact .inl ⟨_, hj, done', todo', hsv', .inl ⟨rfl, hi'⟩⟩
    · exact .inr ⟨_, hj, rfl, done', todo', hsv', hi'⟩
    · exact .inl ⟨_, hj, done', todo', hsv', .inr ⟨rfl, hp'⟩⟩

/-- **one readiness event** -/
theorem frames_onRead {es : List RecvEvent} (hes : Segments es) (hxs : xs ++ eventBytes es <+: stream requests)
    {s : Status × HttpConn} (hs : Served p requests xs s) :
    ∃ s', onRead p behind base h es s = some s' ∧ Served p requests (xs ++ eventBytes es) s' := by
  obtain ⟨st, c⟩ := s
  obtain ⟨hop, done, todo, hsv, hi⟩ := hs
  obtain rfl : st = .opened := hop
  have hstart : Frames p requests (xs ++ eventBytes es)
      (.recvData, { c with conn := { c.conn with queue := c.conn.queue ++ es } }) := by
    refine ⟨done, todo, { hsv with bytes := ?_, segments := hsv.segments.append hes }, .inl ⟨rfl, ?_⟩⟩
    · rw [eventBytes_append, ← append_assoc, hsv.bytes]
    · cases todo with
      | nil => exact hi
      | cons r rest => exact Waits.of_eq hi rfl rfl
  exact onRead_spec (frames_next hreq hh hxs) hstart

end

lemma served_init (p : Protocol) (requests : List WireRequest) :
    Served p requests [] (.opened, HttpConn.init) :=
  ⟨rfl, [], requests, ⟨rfl, rfl, rfl, rfl, rfl, Segments.nil, rfl, le_memAlignedSize _⟩,
    idle_of_empty rfl rfl rfl⟩

lemma Served.out_eq {s : Status × HttpConn} (hreq : Framed p requests)
    (hs : Served p requests (stream requests) s) (hq : s.2.conn.queue = []) :
    s.2.conn.out = requests.map WireRequest.bytes ∧ s.2.sent = [] := by
  obtain ⟨-, done, todo, hsv, hi⟩ := hs
  refine ⟨?_, hsv.sent⟩
  have hstr : s.2.buffer.str = stream todo := by
    have hbytes := hsv.bytes
    rw [hq, hsv.rcvd, hsv.split, stream_append, append_assoc] at hbytes
    exact (append_nil _).symm.trans (append_cancel_left hbytes)
  cases todo with
  | nil => rw [hsv.out, hsv.split, append_nil]
  | cons r rest =>
    exfalso
    have hlen : s.2.buffer.length = r.bytes.length + (stream rest).length :=
      (congrArg length hstr).trans length_append
    have hbytes := r.bytes_length
    rcases hi with ⟨-, hlt⟩ | ⟨hbody, hlt⟩
    · omega
    · obtain ⟨-, hmax⟩ := (hreq done r rest hsv.split).2.2.resolve_left hbody.nonempty
      rw [WireRequest.wrapped_eq hmax] at hlt
      omega

lemma framed_append {last : Option WireRequest} (hzero : ∀ r ∈ requests, r.bodyLength = 0)
    (hk : ∀ r ∈ requests ++ last.toList, r.Known)
    (hfit : ∀ r ∈ requests ++ last.toList, r.header.length ≤ bufferSizeBig)
    (hmax : ∀ r ∈ last, r.bytes.length ≤ p.packageMaxLength) : Framed p (requests ++ last.toList) := by
  intro a r b hsplit
  have hmem : r ∈ requests ++ last.toList := by
    rw [hsplit]
    exact mem_append_right _ mem_cons_self
  refine ⟨hk r hmem, hfit r hmem, ?_⟩
  cases last with
  | none =>
    rw [Option.toList_none, append_nil] at hmem
    exact .inl (hzero r hmem)
  | some l =>
    rcases eq_nil_or_concat b with rfl | ⟨b', x, rfl⟩
    · have heq := append_inj_right' hsplit rfl
      obtain rfl : l = r := (cons.inj heq).1
      exact .inr ⟨rfl, hmax l rfl⟩
    · rw [concat_eq_append] at hsplit
      have hinit : requests = a ++ r :: b' := by
        have hcat : requests ++ [l] = (a ++ r :: b') ++ [x] := by
          rw [append_assoc, cons_append]
          exact hsplit
        exact append_inj_left' hcat rfl
      exact .inl (hzero r (hinit ▸ mem_append_right _ mem_cons_self))

end

/-- **Every request is dispatched**, for every cutting of the stream. -/
theorem http_frames (p : Protocol) (behind : Bytes → Bytes) (base : Nat) (h : OnPackage)
    (hh : ∀ n, h n ≠ .removed) (requests : List WireRequest) (last : Option WireRequest)
    (hzero : ∀ r ∈ requests, r.bodyLength = 0) (hk : ∀ r ∈ requests ++ last.toList, r.Known)
    (hfit : ∀ r ∈ requests ++ last.toList, r.header.length ≤ bufferSizeBig)
    (hmax : ∀ r ∈ last, r.bytes.length ≤ p.packageMaxLength) (calls : List (List RecvEvent))
    (hcuts : Cuts calls ((requests ++ last.toList).map WireRequest.bytes).flatten) :
    ∃ k c, HttpConn.serve p behind base h (calls ++ replicate k []) = some (.opened, c) ∧
      c.conn.out = (requests ++ last.toList).map WireRequest.bytes ∧ c.sent = [] ∧ c.conn.queue = [] := by
  have hreq := framed_append hzero hk hfit hmax
  obtain ⟨k, ⟨st, c⟩, hrun, hs, hq⟩ := serve_all
    (fun _ _ _ hes hxs hs => frames_onRead hreq hh hes hxs hs) (served_init p _) hcuts
  obtain rfl : st = .opened := hs.1
  obtain ⟨hout, hsent⟩ := hs.out_eq hreq (hq rfl)
  exact ⟨k, c, hrun, hout, hsent, hq rfl⟩

lemma isFields_nil : IsFields none [] := ⟨nofun, nofun, fun hn => absurd rfl hn, nofun⟩

/-- `GET /` without header lines -/
def getRequest : WireRequest where
  method := ascii "GET"
  line := ascii "GET / HTTP/1.1"
  lines := []
  length := none
  requestLine := isRequestLine_get
  fields := isFields_nil
  body := []
  body_length := rfl

def bodyRequest : WireRequest where
  toWireHeader := lengthHeader (ascii "3") 3 isDecimal_three
  body := ascii "abc"
  body_length := rfl

/-- two requests, the first cut in its version and the second in its body -/
theorem http_frames_two : ∃ k c, HttpConn.serve (eofConfig 1000 (by decide)) (fun _ => []) 0 (fun _ => .ok)
        ([[.data (getRequest.bytes.take 12)],
          [.data (getRequest.bytes.drop 12 ++ bodyRequest.bytes.take 38), .data (bodyRequest.bytes.drop 38)]] ++
          replicate k []) = some (.opened, c) ∧
      c.conn.out = [getRequest.bytes, bodyRequest.bytes] ∧ c.sent = [] ∧ c.conn.queue = [] := by
  refine http_frames (eofConfig 1000 (by decide)) (fun _ => []) 0 (fun _ => .ok)
    (fun n => by decide) [getRequest]
    (some bodyRequest) (by decide) ?_ (by decide) (by decide) _ (by decide +kernel)
  intro r hr
  rcases mem_pair.1 hr with rfl | rfl
  · exact ⟨.get, by decide⟩
  · exact ⟨.get, by decide⟩

lemma isRequestLine_trace : IsRequestLine (ascii "TRACE") (ascii "TRACE / HTTP/1.1") :=
  ⟨by decide +kernel, ascii "/", ascii "HTTP/1.1", by decide +kernel, by decide +kernel,
    by decide +kernel, by decide +kernel⟩

/-- `TRACE /` without header lines -/
def traceRequest : WireRequest where
  method := ascii "TRACE"
  line := ascii "TRACE / HTTP/1.1"
  lines := []
  length := none
  requestLine := isRequestLine_trace
  fields := isFields_nil
  body := []
  body_length := rfl

/-- a well-formed request without body, all in one segment: it is refused, and nothing is dispatched -/
theorem trace_refused : traceRequest.bodyLength = 0 ∧ traceRequest.bytes.length = 20 ∧
      (HttpConn.serve (eofConfig 1000 (by decide)) (fun _ => []) 0 (fun _ => .ok)
        [[.data traceRequest.bytes]]).map (fun s => (s.1, s.2.conn.out, s.2.sent)) =
      some (.closed, [], [Refusal.badRequest.packet]) := by
  decide +kernel

end OSW.Http
