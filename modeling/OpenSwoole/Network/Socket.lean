import OpenSwoole.Core.OswString
import OpenSwoole.Lib.Machine

/-!
# A non-blocking stream socket with its receive buffer

What the kernel has to give is a list of `RecvEvent`s; `Conn.recv` is one call of `Socket::recv`
at the end of the receive buffer.  The peer's bytes come in segments: a call takes at most what it
asks for (and at most `MAX_RW_COUNT`), the rest of the segment waits.  No event means `EAGAIN`.

The fields `rcvd`, `out` and `reqs` of a connection are records of its run: the bytes received, the
packages handed to `onPackage`, the `recv` calls issued.

* `OnPackage`   the results of the successive calls of `onPackage`.
-/

namespace OSW
open List Machine

/-- the return values of `Socket::catch_error` -/
inductive CatchError where
  | wait
  | close
  | error
  | invalid
  deriving DecidableEq

inductive RecvEvent where
  | data (bs : Bytes)
  | error (e : CatchError)
  | eof

/-- Linux transfers at most this many bytes in one call -/
def maxRwCount : Nat := 0x7ffff000

/-- one `recv` call: buffer length and size when it was issued, and the size it asked for -/
structure RecvReq where
  length : Nat
  size : Nat
  asked : Nat
  deriving DecidableEq

def RecvReq.InBounds (r : RecvReq) : Prop := r.length + r.asked ≤ r.size

instance (r : RecvReq) : Decidable r.InBounds := inferInstanceAs (Decidable (_ ≤ _))

structure Conn where
  buffer : OswString
  recvWait : Bool
  skipRecv : Bool
  removed : Bool
  queue : List RecvEvent
  rcvd : Bytes
  out : List Bytes
  reqs : List RecvReq

/-- a fresh connection; `get_recv_buffer` allocates `OSW_BUFFER_SIZE_BIG` bytes -/
def Conn.init : Conn := ⟨makeString bufferSizeBig, false, false, false, [], [], [], []⟩

/-! ## receiving -/

inductive RecvRes where
  | data (c : Conn)
  | eof (c : Conn)
  | error (e : CatchError) (c : Conn)
  | overflow (c : Conn)

def Conn.asked (c : Conn) (n : Nat) : Conn :=
  { c with reqs := c.reqs ++ [⟨c.buffer.length, c.buffer.size, n⟩] }

/-- what is left of a segment of which `k` bytes were taken -/
def requeue (bs : Bytes) (k : Nat) (es : List RecvEvent) : List RecvEvent :=
  if bs.length ≤ k then es else .data (bs.drop k) :: es

def Conn.got (c : Conn) (bs : Bytes) (es : List RecvEvent) : Conn :=
  { c with
    buffer := { c.buffer with str := c.buffer.str ++ bs }
    queue := es
    rcvd := c.rcvd ++ bs }

/-- `recv(buffer->str + buffer->length, n, 0)` followed by `buffer->length += n`.
`overflow`: the kernel writes behind the end of the buffer. -/
def Conn.recv (c : Conn) (n : Nat) : RecvRes :=
  let c := c.asked n
  match c.queue with
  | [] => .error .wait c
  | .error e :: es => .error e { c with queue := es }
  | .eof :: _ => .eof c
  | .data bs :: es =>
    let k := min n maxRwCount
    if bs.take k = [] then .eof c
    else if c.buffer.size < c.buffer.length + (bs.take k).length then .overflow c
    else .data (c.got (bs.take k) (requeue bs k es))

/-! ## handing over packages -/

/-- a call of `onPackage`: success, also with the memory taken over (`OSW_EVENT_DATA_POP_PTR`) or the connection
removed from the reactor, or a negative return value -/
inductive PackageRes where
  | ok
  | popped
  | removed
  | fail
  deriving DecidableEq

abbrev OnPackage := Nat → PackageRes

/-- `onPackage` always succeeds and leaves the connection open -/
def Accepts (h : OnPackage) : Prop := ∀ n, h n = .ok ∨ h n = .popped

/-- `recv_buffer->pop(serv->recv_buffer_size)` under the test of `BaseFactory::dispatch`: the
buffer holds exactly the package -/
def OswString.popPackage (b : OswString) : OswString :=
  if 0 < b.offset ∧ b.length = b.offset then makeString bufferSizeBig else b

/-- hand one package over; `false` is a negative return value -/
def Conn.onPackage (h : OnPackage) (c : Conn) (pkg : Bytes) : Bool × Conn :=
  let c' := { c with out := c.out ++ [pkg] }
  match h c.out.length with
  | .ok => (true, c')
  | .popped => (true, { c' with buffer := c'.buffer.popPackage })
  | .removed => (true, { c' with removed := true })
  | .fail => (false, c')

/-! ## the read handler -/

/-- `ok` and `err` are `OSW_OK` and `OSW_ERR`; `abort` is a failed assertion, `overflow` a write
behind the end of a buffer -/
inductive Exit where
  | ok
  | err
  | abort
  | overflow

inductive Status where
  | opened
  | closed
  | crashed
  deriving DecidableEq

/-- the end of `Port_onRead_check_length` and `Port_onRead_check_eof`: an empty buffer that has
grown is freed -/
def Conn.freeBuffer (c : Conn) : Conn :=
  if c.buffer.length = 0 ∧ bufferSizeBig * 2 < c.buffer.size then
    { c with buffer := makeString bufferSizeBig }
  else c

def Exit.status : Exit → Status
  | .ok => .opened
  | .err => .closed
  | .abort | .overflow => .crashed

section
variable (recv : Conn → Option (Exit × Conn))

/-- one readiness event of an open connection: the events `es` have arrived since the last one -/
def Conn.onRead (es : List RecvEvent) :
    Status × Conn → Option (Status × Conn)
  | (.opened, c) => (recv { c with queue := c.queue ++ es }).map fun r => (r.1.status, r.2.freeBuffer)
  | s => some s

/-- the read handler runs once for each readiness event, as long as the connection is open -/
def Conn.serve (calls : List (List RecvEvent)) :
    Option (Status × Conn) :=
  iter (Conn.onRead recv) calls (.opened, Conn.init)

lemma Conn.serve_nil :
    Conn.serve recv [] = some (.opened, Conn.init) := rfl

end

variable {recv : Conn → Option (Exit × Conn)} {calls a b : List (List RecvEvent)}
  {s : Status × Conn} {c : Conn} {es : List RecvEvent} {bs xs : Bytes}

lemma Conn.serve_snoc (h : Conn.serve recv calls = some s) (es : List RecvEvent) :
    Conn.serve recv (calls ++ [es]) = Conn.onRead recv es s := by
  unfold Conn.serve at h ⊢
  rw [iter_append, h]
  exact Option.bind_fun_some _

lemma Conn.iter_onRead_ended (hs : s.1 ≠ .opened) (calls : List (List RecvEvent)) :
    iter (Conn.onRead recv) calls s = some s := by
  obtain ⟨st, c⟩ := s
  induction calls with
  | nil => rfl
  | cons es calls ih =>
    cases st with
    | opened => exact absurd rfl hs
    | closed | crashed => exact ih

lemma Conn.serve_opened_of_append (h : Conn.serve recv (a ++ b) = some (.opened, c)) :
    ∃ c', Conn.serve recv a = some (.opened, c') := by
  unfold Conn.serve at h ⊢
  rw [iter_append] at h
  cases hs : iter (Conn.onRead recv) a (.opened, Conn.init) with
  | none =>
    rw [hs] at h
    cases h
  | some s =>
    rw [hs] at h
    by_cases hst : s.1 = .opened
    · exact ⟨s.2, by rw [← hst]⟩
    · change iter (Conn.onRead recv) b s = _ at h
      rw [Conn.iter_onRead_ended hst] at h
      cases h
      exact absurd rfl hst

/-! ## the events of a run -/

def eventBytes : List RecvEvent → Bytes
  | [] => []
  | .data bs :: es => bs ++ eventBytes es
  | _ :: es => eventBytes es

lemma eventBytes_append (a b : List RecvEvent) : eventBytes (a ++ b) = eventBytes a ++ eventBytes b := by
  induction a with
  | nil => rfl
  | cons e a ih =>
    cases e with
    | data bs =>
      show bs ++ eventBytes (a ++ b) = bs ++ eventBytes a ++ eventBytes b
      rw [ih, append_assoc]
    | error _ | eof => exact ih

/-- non-empty segments only: the peer neither closes nor resets the connection -/
def Segments (es : List RecvEvent) : Prop := ∀ e ∈ es, ∃ bs, e = .data bs ∧ bs ≠ []

/-- the calls `calls` cut the stream `xs` into non-empty segments -/
def Cuts (calls : List (List RecvEvent)) (xs : Bytes) : Prop :=
  (∀ es ∈ calls, Segments es) ∧ eventBytes calls.flatten = xs

instance (es : List RecvEvent) : Decidable (Segments es) :=
  decidable_of_iff (∀ e ∈ es, eventBytes [e] ≠ []) (forall₂_congr fun e _ => by cases e <;> simp [eventBytes])

instance (calls : List (List RecvEvent)) (xs : Bytes) :
    Decidable (Cuts calls xs) := inferInstanceAs (Decidable (_ ∧ _))

/-- how much an event list has to give: every event counts, a segment with its bytes -/
def weight : List RecvEvent → Nat
  | [] => 0
  | .data bs :: es => bs.length + 1 + weight es
  | _ :: es => 1 + weight es

lemma eventBytes_requeue (bs : Bytes) (k : Nat) (es : List RecvEvent) :
    bs.take k ++ eventBytes (requeue bs k es) = bs ++ eventBytes es := by
  unfold requeue
  by_cases h : bs.length ≤ k
  · rw [if_pos h, take_of_length_le h]
  · rw [if_neg h]
    show bs.take k ++ (bs.drop k ++ eventBytes es) = _
    rw [← append_assoc, take_append_drop]

lemma weight_requeue (bs : Bytes) (k : Nat) (es : List RecvEvent) :
    (bs.take k).length + weight (requeue bs k es) ≤ weight (.data bs :: es) := by
  unfold requeue
  rw [length_take]
  by_cases h : bs.length ≤ k
  · rw [if_pos h]
    show min k bs.length + weight es ≤ bs.length + 1 + weight es
    omega
  · rw [if_neg h]
    show min k bs.length + ((bs.drop k).length + 1 + weight es) ≤ bs.length + 1 + weight es
    rw [length_drop]
    omega

lemma Segments.nil : Segments [] := nofun

lemma Segments.append {a b : List RecvEvent} (ha : Segments a) (hb : Segments b) : Segments (a ++ b) := by
  intro e he
  rcases mem_append.1 he with h | h
  · exact ha e h
  · exact hb e h

lemma Segments.requeue {k : Nat} (h : Segments (.data bs :: es)) : Segments (requeue bs k es) := by
  unfold OSW.requeue
  by_cases hk : bs.length ≤ k
  · rw [if_pos hk]
    exact (forall_mem_cons.1 h).2
  · rw [if_neg hk]
    intro e he
    rcases mem_cons.1 he with rfl | he
    · refine ⟨_, rfl, fun hd => ?_⟩
      have := congrArg length hd
      rw [length_drop, length_nil] at this
      omega
    · exact h e (mem_cons_of_mem _ he)

/-- `bs` is what a `recv` call took from the queue `q`, `es` what it left there -/
structure Taken (q : List RecvEvent) (n : Nat) (bs : Bytes) (es : List RecvEvent) : Prop where
  ne_nil : bs ≠ []
  le : bs.length ≤ n
  le_max : bs.length ≤ maxRwCount
  bytes : eventBytes q = bs ++ eventBytes es
  weight_le : bs.length + weight es ≤ weight q
  segments : Segments q → Segments es

lemma Conn.recv_data {n : Nat} (hq : c.queue = .data bs :: es) (hne : bs ≠ []) (hn : bs.length ≤ n)
    (hmax : bs.length ≤ maxRwCount) (hfit : c.buffer.length + bs.length ≤ c.buffer.size) :
    c.recv n = .data ((c.asked n).got bs es) := by
  have hk : bs.length ≤ min n maxRwCount := Nat.le_min.2 ⟨hn, hmax⟩
  unfold Conn.recv
  simp only [show (c.asked n).queue = .data bs :: es from hq, take_of_length_le hk]
  have hov : ¬ (c.asked n).buffer.size < (c.asked n).buffer.length + bs.length := not_lt.mpr hfit
  rw [if_neg hne, if_neg hov, requeue, if_pos hk]

/-- **everything one call of `recv` can do** -/
theorem Conn.recv_cases (c : Conn) (n : Nat) : (∃ e q, c.recv n = .error e { c.asked n with queue := q } ∧
      ((c.queue = [] ∧ q = [] ∨ weight q < weight c.queue) ∧ eventBytes q = eventBytes c.queue) ∧
      (Segments c.queue → e = .wait ∧ c.queue = [] ∧ q = [])) ∨
    (c.recv n = .eof (c.asked n) ∧ (Segments c.queue → n = 0)) ∨
    (∃ bs es, Taken c.queue n bs es ∧
      ((c.buffer.size < c.buffer.length + bs.length ∧ c.recv n = .overflow (c.asked n)) ∨
        (c.buffer.length + bs.length ≤ c.buffer.size ∧ c.recv n = .data ((c.asked n).got bs es)))) := by
  have hq : (c.asked n).queue = c.queue := rfl
  unfold Conn.recv
  simp only [hq]
  cases hc : c.queue with
  | nil =>
    refine .inl ⟨.wait, [], ?_, ⟨.inl ⟨rfl, rfl⟩, rfl⟩, fun _ => ⟨rfl, rfl, rfl⟩⟩
    rw [show c.asked n = { c.asked n with queue := [] } by rw [← hc, ← hq]]
  | cons e es =>
    cases e with
    | error e =>
      refine .inl ⟨e, es, rfl, ⟨.inr ?_, rfl⟩, fun h => ?_⟩
      · show weight es < 1 + weight es
        omega
      obtain ⟨bs, hbs, _⟩ := h _ mem_cons_self
      cases hbs
    | eof =>
      refine .inr (.inl ⟨rfl, fun h => ?_⟩)
      obtain ⟨bs, hbs, _⟩ := h _ mem_cons_self
      cases hbs
    | data bs =>
      by_cases hnil : bs.take (min n maxRwCount) = []
      · refine .inr (.inl ⟨by simp only [hnil, if_true], fun h => ?_⟩)
        obtain ⟨bs', hbs, hne⟩ := h _ mem_cons_self
        cases hbs
        rw [take_eq_nil_iff] at hnil
        rcases hnil with h0 | h0
        · unfold maxRwCount at h0
          omega
        · exact absurd h0 hne
      · refine .inr (.inr ⟨bs.take (min n maxRwCount), requeue bs (min n maxRwCount) es,
          ⟨hnil, ?_, ?_, (eventBytes_requeue _ _ _).symm, weight_requeue _ _ _, Segments.requeue⟩, ?_⟩)
        · rw [length_take]
          omega
        · rw [length_take]
          omega
        · simp only [hnil, if_false]
          by_cases hov : c.buffer.size < c.buffer.length + (bs.take (min n maxRwCount)).length
          · exact .inl ⟨hov, if_pos hov⟩
          · exact .inr ⟨by omega, if_neg hov⟩

lemma Conn.drain {J : Status × Conn → Prop}
    (hstep : ∀ c, J (.opened, c) → ∃ s, Conn.onRead recv [] (.opened, c) = some s ∧
      J s ∧ (s.1 = .opened → weight s.2.queue < weight c.queue ∨ s.2.queue = []))
    (hs : Conn.serve recv calls = some s) (hJ : J s) :
    ∃ k s, Conn.serve recv (calls ++ replicate k []) = some s ∧ J s ∧ (s.1 = .opened → s.2.queue = []) := by
  induction hw : weight s.2.queue using Nat.strongRecOn generalizing calls s with
  | ind n ih =>
    obtain ⟨st, c⟩ := s
    by_cases hst : st = .opened
    · subst hst
      obtain ⟨s', he, hJ', hq⟩ := hstep c hJ
      have hone : Conn.serve recv (calls ++ [[]]) = some s' := (Conn.serve_snoc hs []).trans he
      by_cases hlt : weight s'.2.queue < n
      · obtain ⟨k, t, ht, hk⟩ := ih _ hlt hone hJ' rfl
        refine ⟨k + 1, t, ?_, hk⟩
        rwa [append_assoc] at ht
      · refine ⟨1, s', hone, hJ', fun hst' => (hq hst').resolve_left ?_⟩
        rw [show weight c.queue = n from hw]
        exact hlt
    · refine ⟨0, (st, c), ?_, hJ, fun h0 => absurd h0 hst⟩
      rw [replicate_zero, append_nil]
      exact hs

lemma eventBytes_replicate_nil (calls : List (List RecvEvent)) (k : Nat) :
    eventBytes (calls ++ replicate k []).flatten = eventBytes calls.flatten := by
  rw [flatten_append, flatten_replicate_nil, append_nil]

lemma segments_replicate_nil (h : ∀ es ∈ calls, Segments es) (k : Nat) :
    ∀ es ∈ calls ++ replicate k [], Segments es := by
  intro es he
  rcases mem_append.1 he with he | he
  · exact h es he
  · rw [eq_of_mem_replicate he]
    exact Segments.nil

def oneSegment (bs : Bytes) : List (List RecvEvent) := if bs = [] then [] else [[.data bs]]

lemma cuts_oneSegment (bs : Bytes) : Cuts (oneSegment bs) bs := by
  unfold oneSegment
  by_cases h : bs = []
  · rw [if_pos h, h]
    exact ⟨nofun, rfl⟩
  · rw [if_neg h]
    refine ⟨?_, append_nil _⟩
    intro es hes e he
    rw [mem_singleton.1 hes] at he
    exact ⟨bs, mem_singleton.1 he, h⟩

lemma Cuts.append {ys : Bytes} (ha : Cuts a xs) (hb : Cuts b ys) : Cuts (a ++ b) (xs ++ ys) := by
  constructor
  · intro es hes
    rcases mem_append.1 hes with h | h
    · exact ha.1 es h
    · exact hb.1 es h
  · rw [flatten_append, eventBytes_append, ha.2, hb.2]

lemma Cuts.replicate_nil (ha : Cuts a xs) (k : Nat) : Cuts (a ++ replicate k []) xs :=
  ⟨segments_replicate_nil ha.1 k, by rw [eventBytes_replicate_nil, ha.2]⟩

lemma eventBytes_flatten_snoc (calls : List (List RecvEvent)) (es : List RecvEvent) :
    eventBytes (calls ++ [es]).flatten = eventBytes calls.flatten ++ eventBytes es := by
  rw [flatten_append, eventBytes_append, flatten_singleton]

end OSW
