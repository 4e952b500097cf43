import Mathlib.Data.List.Induction
import OpenSwoole.Protocol.LengthBounds

/-!
# Framing by `recv_with_length_protocol`

The receive function against the framing of the stream by a length function `len`.  `Agrees` says
what the function `f` of the configuration must have in common with `len` along a stream; under it
every call of the receive function either pauses with the undelivered tail in the buffer or refuses
a tail of exactly the static header size whose length is not known.

* `framing_step`   one label keeps the invariant `Progress`;
* `framing_recv`   so one call ends `Paused` or `Refused`;
* `framing_serve`   and so does every run of the read handler;
* `declaredLen`   the framing of `open_length_check`: body offset plus length field.
-/

namespace OSW

open Framing List Machine

section
variable (p : Protocol) (dyn : Option Nat) (f : LengthFunc) (h : OnPackage)
  (len : Bytes → Option Nat) (xs : Bytes)

def headerAsked : Nat := p.packageLengthOffset + packageLengthSizeOf p dyn

/-- the length function of the configuration agrees with `len` on what a receiver of `xs` can have
in its buffer -/
structure Agrees : Prop where
  stable : Stable len
  dyn_ne : dyn ≠ some 0
  asked_pos : 0 < headerAsked p dyn
  asked_le : 2 * headerAsked p dyn ≤ bufferSizeBig
  unknown : ∀ cur rest, Boundary len xs (cur ++ rest) → len cur = none →
    (f cur).1 = 0 ∧ cur.length < headerAsked p dyn
  known : ∀ cur rest n, Boundary len xs (cur ++ rest) → len cur = some n →
    (f cur).1 = n ∧ 0 < n ∧ n ≤ p.packageMaxLength

/-- the receiver of the stream `xs` has delivered the first frames and holds what follows them -/
structure Receives (c : Conn) : Prop where
  bytes : c.rcvd ++ eventBytes c.queue = xs
  boundary : Boundary len xs (c.buffer.str ++ eventBytes c.queue)
  parsed : Parsed len c.rcvd c.out c.buffer.str
  segments : Segments c.queue
  size : bufferSizeBig ≤ c.buffer.size
  fits : c.buffer.length ≤ c.buffer.size
  skip : c.skipRecv = false
  removed : c.removed = false

/-- the buffer holds an incomplete frame, whose length may be known -/
structure Paused (c : Conn) : Prop extends Receives len xs c where
  wait : (c.recvWait = true ∧ len c.buffer.str = some c.buffer.offset ∧ 0 < c.buffer.length ∧
      c.buffer.length < c.buffer.offset ∧ c.buffer.offset ≤ c.buffer.size ∧
      c.buffer.offset < 2^32) ∨
    (c.recvWait = false ∧ c.buffer.offset = 0 ∧ (∀ n, ¬ Complete len c.buffer.str n) ∧
      c.buffer.length < headerAsked p dyn ∧
      (c.buffer.length = 0 ∨ c.buffer.length ≠ p.headerLen))

/-- the test for `no length found` has fired -/
structure Refused (c : Conn) : Prop extends Receives len xs c where
  unknown : len c.buffer.str = none
  pos : 0 < c.buffer.length
  static : c.buffer.length = p.headerLen

/-- the invariant of the loop; `w` bounds what the queue has to give, and falls with every `recv` -/
def Progress (w : Nat) : Label × Conn → Prop
  | (.doRecv, c) => Paused p dyn len xs c ∧ weight c.queue ≤ w
  | (.doGetLength, c) => Receives len xs c ∧ weight c.queue < w ∧ c.recvWait = false ∧
      c.buffer.offset = 0 ∧ 0 < c.buffer.length
  | (.doDispatch, c) => Receives len xs c ∧ weight c.queue < w ∧ c.recvWait = true ∧
      Complete len c.buffer.str c.buffer.offset

def ProgressExit (w : Nat) (r : Exit × Conn) : Prop :=
  (r.1 = .ok ∧ Paused p dyn len xs r.2 ∧ (weight r.2.queue < w ∨ r.2.queue = [])) ∨
  (r.1 = .err ∧ Refused p len xs r.2)

end

section
variable {p : Protocol} {dyn : Option Nat} {f : LengthFunc} {h : OnPackage}
  {len : Bytes → Option Nat} {xs : Bytes} {c : Conn} {w : Nat}

lemma Paused.not_complete (hc : Paused p dyn len xs c) (n : Nat) : ¬ Complete len c.buffer.str n := by
  rcases hc.wait with ⟨_, hlen, _, hlt, _⟩ | ⟨_, _, hn, _⟩
  · rintro ⟨hn, _, hle⟩
    rw [hlen] at hn
    cases hn
    exact absurd hle (not_le.mpr hlt)
  · exact hn n

lemma Paused.frames (hc : Paused p dyn len xs c) : Framing.frames len c.rcvd = (c.out, c.buffer.str) :=
  hc.parsed.final hc.not_complete

lemma Receives.fed {n : Nat} {bs : Bytes} {es : List RecvEvent} (ha : Stable len)
    (hc : Receives len xs c) (ht : Taken c.queue n bs es)
    (hfit : c.buffer.length + bs.length ≤ c.buffer.size) : Receives len xs (c.fed n bs es) := by
  refine ⟨?_, ?_, hc.parsed.recv ha bs, ht.segments hc.segments, hc.size, ?_, hc.skip, hc.removed⟩
  · rw [Conn.fed_rcvd, Conn.fed_queue, append_assoc, ← ht.bytes]
    exact hc.bytes
  · rw [Conn.fed_str, Conn.fed_queue, append_assoc, ← ht.bytes]
    exact hc.boundary
  · rw [Conn.fed_length]
    exact hfit

section
variable (ha : Agrees p dyn f len xs)
include ha

lemma Paused.asks (hc : Paused p dyn len xs c) :
    0 < recvSize p dyn c ∧ c.buffer.length + recvSize p dyn c ≤ c.buffer.size := by
  have hle := ha.asked_le
  have hsize := hc.size
  rcases hc.wait with ⟨_, _, _, hlt, ho, h32⟩ | ⟨_, ho, _, hl, _⟩
  · rw [recvSize_offset (by omega) (by omega), Nat.mod_eq_of_lt (by omega)]
    omega
  · have : recvSize p dyn c = headerAsked p dyn := by
      unfold recvSize
      rw [if_neg (by omega)]
      rfl
    omega

lemma framing_doRecv (hc : Progress p dyn len xs w (.doRecv, c)) :
    Steps (lengthStep p dyn f h) (Progress p dyn len xs w) lengthMeasure
      (ProgressExit p dyn len xs w) (.doRecv, c) := by
  obtain ⟨hc, hw⟩ := hc
  obtain ⟨hpos, hfit⟩ := hc.asks ha
  rcases doRecv_cases hc.removed with ⟨x, q, he, _, hs⟩ | ⟨_, hs⟩ | ⟨bs, es, ht, hd⟩
  · obtain ⟨rfl, hq, rfl⟩ := hs hc.segments
    have hsame : { c.asked (recvSize p dyn c) with queue := [] } = c.asked (recvSize p dyn c) := by
      rw [← hq]
      rfl
    rw [hsame] at he
    exact .inr ⟨_, he, .inl ⟨rfl, ⟨{ hc with }, hc.wait⟩, .inr hq⟩⟩
  · have := hs hc.segments
    omega
  have hle := ht.le
  have hne := length_pos_iff.2 ht.ne_nil
  have hwt := ht.weight_le
  rcases hd with ⟨hov, _⟩ | ⟨hroom, he⟩
  · omega
  have hfed := hc.toReceives.fed ha.stable ht hroom
  have hlt : weight (c.fed (recvSize p dyn c) bs es).queue < w := by
    rw [Conn.fed_queue]
    omega
  have hμ := lengthMeasure_fed ht
  rcases hc.wait with ⟨hwait, hlen, hp0, hoff, ho, h32⟩ | ⟨hwait, ho, _, hl⟩
  · have hlen' : len (c.buffer.str ++ bs) = some c.buffer.offset := ha.stable _ _ _ hlen
    rw [hwait] at he
    by_cases hge : c.buffer.offset ≤ c.buffer.length + bs.length
    · rw [if_pos hge] at he
      refine .inl ⟨_, he, ⟨hfed, hlt, hwait, hlen', ?_, ?_⟩, hμ _⟩
      · rw [Conn.fed_offset]
        omega
      · exact le_trans hge (le_of_eq (Conn.fed_length c _ bs es).symm)
    · rw [if_neg hge] at he
      refine .inr ⟨_, he, .inl ⟨rfl, ⟨hfed, .inl ⟨hwait, hlen', ?_⟩⟩, .inl hlt⟩⟩
      rw [Conn.fed_offset, Conn.fed_length, Conn.fed_size]
      omega
  · rw [hwait] at he
    refine .inl ⟨_, he, ⟨hfed, hlt, hwait, ho, ?_⟩, hμ _⟩
    rw [Conn.fed_length]
    omega

lemma framing_doGetLength (hc : Progress p dyn len xs w (.doGetLength, c)) :
    Steps (lengthStep p dyn f h) (Progress p dyn len xs w) lengthMeasure
      (ProgressExit p dyn len xs w) (.doGetLength, c) := by
  obtain ⟨hc, hw, hwait, ho, hpos⟩ := hc
  cases hlen : len c.buffer.str with
  | none =>
    obtain ⟨hz, hl⟩ := ha.unknown _ _ hc.boundary hlen
    have hn : ∀ n, ¬ Complete len c.buffer.str n := by
      rintro n ⟨hn, _⟩
      rw [hlen] at hn
      cases hn
    rcases doGetLength_cases (p := p) (f := f) (c := c) with
      ⟨hneg, _⟩ | ⟨_, hs, he⟩ | ⟨_, hs, he⟩ | ⟨hbig, _⟩ | ⟨n, hn', hn0, _⟩
    · omega
    · exact .inr ⟨_, he, .inr ⟨rfl, ⟨hc, hlen, hpos, hs⟩⟩⟩
    · exact .inr ⟨_, he, .inl ⟨rfl, ⟨hc, .inr ⟨hwait, ho, hn, hl, .inr hs⟩⟩, .inl hw⟩⟩
    · omega
    · omega
  | some n =>
    obtain ⟨hn, hn0, hmax⟩ := ha.known _ _ _ hc.boundary hlen
    rcases doGetLength_cases (p := p) (f := f) (c := c) with
      ⟨hneg, _⟩ | ⟨hz, _⟩ | ⟨hz, _⟩ | ⟨hbig, _⟩ | ⟨m, hm, _, _, he⟩
    · omega
    · omega
    · omega
    · omega
    obtain rfl : m = n := by omega
    have hsz := c.buffer.size_le_expecting m
    have hrec : Receives len xs (c.expecting m) :=
      { hc with size := Nat.le_trans hc.size hsz, fits := Nat.le_trans hc.fits hsz }
    by_cases hge : m ≤ c.buffer.length
    · rw [if_pos hge] at he
      exact .inl ⟨_, he, ⟨hrec, hw, rfl, hlen, hn0, hge⟩, Nat.lt_succ_self _⟩
    · rw [if_neg hge] at he
      have h32 := p.max_lt
      exact .inl ⟨_, he, ⟨⟨hrec, .inl ⟨rfl, hlen, hpos, Nat.lt_of_not_le hge,
        c.buffer.le_expecting m, Nat.lt_of_le_of_lt hmax h32⟩⟩, Nat.le_of_lt hw⟩,
        Nat.lt_add_of_pos_right Nat.two_pos⟩

end

section
variable (hh : Accepts h) (ha : Agrees p dyn f len xs)
include hh ha

lemma framing_doDispatch (hc : Progress p dyn len xs w (.doDispatch, c)) :
    Steps (lengthStep p dyn f h) (Progress p dyn len xs w) lengthMeasure
      (ProgressExit p dyn len xs w) (.doDispatch, c) := by
  obtain ⟨hc, hw, hwait, hcomp⟩ := hc
  have hpos := hcomp.2.1
  have hle : c.buffer.offset ≤ c.buffer.length := hcomp.2.2
  have hfits := hc.fits
  rcases doDispatch_cases (h := h) hc.removed hpos hle with
    ⟨_, hn⟩ | ⟨_, hn⟩ | ⟨hlt, he⟩ | ⟨heq, size, hs, he⟩
  · exact absurd hh hn
  · exact absurd hh hn
  · have hlen : c.advanced.buffer.length = c.buffer.length - c.buffer.offset := length_drop
    refine .inl ⟨_, he, ⟨⟨hc.bytes, hc.boundary.deliver ha.stable hcomp, hc.parsed.deliver hcomp,
      hc.segments, hc.size, ?_, hc.skip, hc.removed⟩, hw, rfl, rfl, by omega⟩, ?_⟩
    · show c.advanced.buffer.length ≤ c.buffer.size
      omega
    · show 3 * (2 * weight c.queue + c.advanced.buffer.length) + 2 <
        3 * (2 * weight c.queue + c.buffer.length) + 1
      omega
  · have hnil : c.buffer.str.drop c.buffer.offset = [] := drop_of_length_le (le_of_eq heq.symm)
    have hbd := hc.boundary.deliver ha.stable hcomp
    have hpd := hc.parsed.deliver hcomp
    rw [hnil] at hbd hpd
    refine .inr ⟨_, he, .inl ⟨rfl, ⟨⟨hc.bytes, hbd, hpd, hc.segments, ?_, Nat.zero_le _,
      hc.skip, hc.removed⟩, .inr ⟨rfl, rfl, ?_, ha.asked_pos, .inl rfl⟩⟩, .inl hw⟩⟩
    · rcases hs with rfl | rfl
      · exact hc.size
      · exact le_rfl
    · rintro n ⟨_, hn, hn'⟩
      exact absurd hn (not_lt.mpr hn')

lemma framing_step (s : Label × Conn) (hs : Progress p dyn len xs w s) :
    Steps (lengthStep p dyn f h) (Progress p dyn len xs w) lengthMeasure
      (ProgressExit p dyn len xs w) s := by
  obtain ⟨l, c⟩ := s
  cases l with
  | doRecv => exact framing_doRecv ha hs
  | doGetLength => exact framing_doGetLength ha hs
  | doDispatch => exact framing_doDispatch hh ha hs

lemma framing_recv (hc : Paused p dyn len xs c) : ∃ r, recvWithLengthProtocol p dyn f h c = some r ∧
      ProgressExit p dyn len xs (weight c.queue) r := by
  unfold recvWithLengthProtocol
  rw [if_neg ha.dyn_ne, hc.skip]
  exact run_spec (framing_step hh ha) (s := (.doRecv, c)) ⟨hc, le_rfl⟩ (Nat.lt_succ_self _)

/-! ## the read handler -/

end

lemma Agrees.of_append {ys : Bytes} (ha : Agrees p dyn f len (xs ++ ys)) : Agrees p dyn f len xs := by
  have hb : ∀ cur rest, Boundary len xs (cur ++ rest) → Boundary len (xs ++ ys) (cur ++ (rest ++ ys)) := by
    intro cur rest hb
    rw [← append_assoc]
    exact hb.append ha.stable ys
  exact ⟨ha.stable, ha.dyn_ne, ha.asked_pos, ha.asked_le,
    fun cur rest h1 h2 => ha.unknown cur _ (hb cur rest h1) h2,
    fun cur rest n h1 h2 => ha.known cur _ n (hb cur rest h1) h2⟩

lemma Paused.enqueue {es : List RecvEvent} (hs : Stable len) (hc : Paused p dyn len xs c)
    (hes : Segments es) :
    Paused p dyn len (xs ++ eventBytes es) { c with queue := c.queue ++ es } := by
  refine ⟨{ hc with bytes := ?_, boundary := ?_, segments := hc.segments.append hes }, hc.wait⟩
  · rw [eventBytes_append, ← append_assoc, hc.bytes]
  · rw [eventBytes_append, ← append_assoc]
    exact hc.boundary.append hs _

lemma Paused.freeBuffer (hp : 0 < headerAsked p dyn) (hc : Paused p dyn len xs c) :
    Paused p dyn len xs c.freeBuffer := by
  unfold Conn.freeBuffer
  by_cases hf : c.buffer.length = 0 ∧ bufferSizeBig * 2 < c.buffer.size
  · rw [if_pos hf]
    have hnil : c.buffer.str = [] := length_eq_zero_iff.mp hf.1
    have hbd := hc.boundary
    have hpd := hc.parsed
    rw [hnil] at hbd hpd
    refine ⟨⟨hc.bytes, hbd, hpd, hc.segments, le_rfl, Nat.zero_le _, hc.skip, hc.removed⟩, ?_⟩
    rcases hc.wait with ⟨_, _, hpos, _⟩ | ⟨hw, _, hn, _⟩
    · omega
    · rw [hnil] at hn
      exact .inr ⟨hw, rfl, hn, hp, .inl rfl⟩
  · rw [if_neg hf]
    exact hc

lemma Paused.init (hp : 0 < headerAsked p dyn) : Paused p dyn len [] Conn.init := by
  refine ⟨⟨rfl, .refl _, rfl, Segments.nil, le_rfl, Nat.zero_le _, rfl,
    rfl⟩, .inr ⟨rfl, rfl, ?_, hp, .inl rfl⟩⟩
  rintro n ⟨_, hn, hn'⟩
  exact absurd hn (not_lt.mpr hn')

lemma Refused.frames (hc : Refused p len xs c) : Framing.frames len c.rcvd = (c.out, c.buffer.str) := by
  refine hc.parsed.final ?_
  rintro n ⟨hn, _⟩
  rw [hc.unknown] at hn
  cases hn

lemma freeBuffer_of_pos (hc : 0 < c.buffer.length) : c.freeBuffer = c := by
  exact if_neg fun hf => absurd hf.1 (ne_of_gt hc)

lemma freeBuffer_queue (c : Conn) : c.freeBuffer.queue = c.queue := by
  unfold Conn.freeBuffer
  split <;> rfl

/-- the state of a connection after the bytes `xs` have been sent to it -/
def FramingState (p : Protocol) (dyn : Option Nat) (len : Bytes → Option Nat) (xs : Bytes) :
    Status × Conn → Prop
  | (.opened, c) => Paused p dyn len xs c
  | (.closed, c) => ∃ zs, zs <+: xs ∧ Refused p len zs c
  | (.crashed, _) => False

lemma FramingState.append {s : Status × Conn} (hs : FramingState p dyn len xs s)
    (hst : s.1 ≠ .opened) (ys : Bytes) : FramingState p dyn len (xs ++ ys) s := by
  obtain ⟨st, c⟩ := s
  cases st with
  | opened => exact absurd rfl hst
  | closed =>
    obtain ⟨zs, hz, hr⟩ := hs
    exact ⟨zs, hz.trans (prefix_append _ _), hr⟩
  | crashed => exact hs

section
variable (hh : Accepts h)
include hh

lemma framing_onRead {es : List RecvEvent} (hes : Segments es)
    (ha : Agrees p dyn f len (xs ++ eventBytes es)) (hc : Paused p dyn len xs c) :
    ∃ s, Conn.onRead (recvWithLengthProtocol p dyn f h) es (.opened, c) = some s ∧
      FramingState p dyn len (xs ++ eventBytes es) s ∧
      (s.1 = .opened → weight s.2.queue < weight (c.queue ++ es) ∨ s.2.queue = []) := by
  obtain ⟨⟨x, c'⟩, he, hx⟩ := framing_recv hh ha (hc.enqueue ha.stable hes)
  refine ⟨(x.status, c'.freeBuffer), by simp only [Conn.onRead, he, Option.map_some], ?_⟩
  rcases hx with ⟨hx, hp, hw⟩ | ⟨hx, hr⟩
  · cases hx
    refine ⟨hp.freeBuffer ha.asked_pos, fun _ => ?_⟩
    rw [freeBuffer_queue]
    exact hw
  · cases hx
    rw [freeBuffer_of_pos hr.pos]
    exact ⟨⟨_, prefix_refl _, hr⟩, fun h0 => Status.noConfusion h0⟩

variable (calls : List (List RecvEvent)) (hseg : ∀ es ∈ calls, Segments es)
  (ha : Agrees p dyn f len (eventBytes calls.flatten))
include calls hseg ha

lemma framing_serve : ∃ s, Conn.serve (recvWithLengthProtocol p dyn f h) calls = some s ∧
      FramingState p dyn len (eventBytes calls.flatten) s := by
  induction calls using reverseRecOn with
  | nil => exact ⟨_, Conn.serve_nil _, Paused.init ha.asked_pos⟩
  | append_singleton calls es ih =>
    rw [eventBytes_flatten_snoc] at ha ⊢
    obtain ⟨⟨st, c⟩, hs, hc⟩ := ih (fun e he => hseg e (mem_append_left _ he)) ha.of_append
    have hes := hseg es (mem_concat_self)
    cases st with
    | opened =>
      obtain ⟨s, he, hs', _⟩ := framing_onRead hh hes ha hc
      exact ⟨s, (Conn.serve_snoc hs es).trans he, hs'⟩
    | closed | crashed => exact ⟨_, Conn.serve_snoc hs es, hc.append nofun _⟩

lemma framing_drain :
    ∃ k s, Conn.serve (recvWithLengthProtocol p dyn f h) (calls ++ replicate k []) = some s ∧
      FramingState p dyn len (eventBytes calls.flatten) s ∧ (s.1 = .opened → s.2.queue = []) := by
  obtain ⟨s, hs, hc⟩ := framing_serve hh calls hseg ha
  refine Conn.drain (J := FramingState p dyn len (eventBytes calls.flatten)) (fun c hc => ?_) hs hc
  have hnil : eventBytes calls.flatten ++ eventBytes [] = eventBytes calls.flatten := append_nil _
  obtain ⟨s', he, hs', hq⟩ := framing_onRead hh Segments.nil (hnil.symm ▸ ha) hc
  rw [hnil] at hs'
  rw [append_nil] at hq
  exact ⟨s', he, hs', hq⟩

end

lemma FramingState.opened {s : Status × Conn} (hs : FramingState p dyn len xs s)
    (hno : ∀ zs, zs <+: xs → ∀ c, ¬ Refused p len zs c) :
    ∃ c, s = (.opened, c) ∧ Paused p dyn len xs c := by
  obtain ⟨st, c⟩ := s
  cases st with
  | opened => exact ⟨c, rfl, hs⟩
  | closed =>
    obtain ⟨zs, hz, hr⟩ := hs
    exact absurd hr (hno zs hz c)
  | crashed => exact hs.elim

lemma Paused.frames_all (hc : Paused p dyn len xs c) (hq : c.queue = []) :
    Framing.frames len xs = (c.out, c.buffer.str) := by
  have hb := hc.bytes
  rw [hq] at hb
  rw [← hb, show eventBytes [] = [] from rfl, append_nil]
  exact hc.frames

end

/-! ## `open_length_check` -/

def lengthField (p : Protocol) (data : Bytes) : Int :=
  unpack p.packageLengthType (data.drop p.packageLengthOffset)

def declaredLen (p : Protocol) (data : Bytes) : Option Nat :=
  if data.length < p.headerLen then none
  else some (p.packageBodyOffset + lengthField p data).toNat

/-- each successive length field is non-negative as an `int32_t`, and each declared length is
positive, an `int32_t` and at most `package_max_length` -/
def Declares (p : Protocol) (xs : Bytes) : Prop :=
  ∀ ys, Boundary (declaredLen p) xs ys → p.headerLen ≤ ys.length →
    0 ≤ lengthField p ys ∧ 1 ≤ p.packageBodyOffset + lengthField p ys ∧
      p.packageBodyOffset + lengthField p ys ≤ p.packageMaxLength ∧
      p.packageBodyOffset + lengthField p ys < 2^31

lemma unpack_append {t : LengthType} {data : Bytes} (ht : t ≠ .none)
    (hd : typeSize t ≤ data.length) (ys : Bytes) : unpack t (data ++ ys) = unpack t data := by
  cases t with
  | none => exact absurd rfl ht
  | _ =>
    unfold unpack
    simp only [typeSize] at hd
    simp only [take_append_of_le_length hd]

section
variable {p : Protocol} {data : Bytes}

lemma lengthField_append (hp : p.LengthCheck) (hd : p.headerLen ≤ data.length) (ys : Bytes) :
    lengthField p (data ++ ys) = lengthField p data := by
  have hs := hp.size_eq
  unfold Protocol.headerLen at hd
  unfold lengthField
  rw [drop_append_of_le_length (by omega)]
  exact unpack_append hp.type_ne (by rw [length_drop]; omega) ys

lemma declaredLen_full (hd : p.headerLen ≤ data.length) :
    declaredLen p data = some (p.packageBodyOffset + lengthField p data).toNat :=
  if_neg (not_lt.mpr hd)

lemma declaredLen_eq_some {n : Nat} (h : declaredLen p data = some n) :
    p.headerLen ≤ data.length ∧ n = (p.packageBodyOffset + lengthField p data).toNat := by
  unfold declaredLen at h
  by_cases hd : data.length < p.headerLen
  · rw [if_pos hd] at h
    cases h
  · rw [if_neg hd] at h
    cases h
    exact ⟨Nat.le_of_not_lt hd, rfl⟩

lemma declaredLen_stable (hp : p.LengthCheck) : Stable (declaredLen p) := by
  intro xs ys n h
  obtain ⟨hd, rfl⟩ := declaredLen_eq_some h
  rw [declaredLen_full (by rw [length_append]; omega), lengthField_append hp hd]

lemma declares_agrees (hp : p.LengthCheck) (hh : p.headerLen ≤ 32768) {xs : Bytes}
    (hx : Declares p xs) : Agrees p none (defaultLengthFunc p) (declaredLen p) xs := by
  refine ⟨declaredLen_stable hp, by decide, hp.headerLen_pos, ?_, ?_, ?_⟩
  · show 2 * p.headerLen ≤ 65536
    omega
  · intro cur rest _ hn
    have hd : cur.length < p.headerLen := by
      by_contra hd
      rw [declaredLen_full (by omega)] at hn
      cases hn
    rw [defaultLengthFunc_short hp hd]
    exact ⟨rfl, hd⟩
  · intro cur rest n hb hn
    obtain ⟨hd, rfl⟩ := declaredLen_eq_some hn
    have hgood := hx (cur ++ rest) hb (by rw [length_append]; omega)
    rw [lengthField_append hp hd] at hgood
    obtain ⟨h0, h1, hmax, h31⟩ := hgood
    have hneg : ¬ unpack p.packageLengthType (cur.drop p.packageLengthOffset) < 0 := by
      exact not_lt.2 h0
    rw [defaultLengthFunc_full hp hd, if_neg hneg]
    show toSigned 32 (p.packageBodyOffset + (lengthField p cur).toNat) = _ ∧ _
    rw [toSigned_of_lt (by omega)]
    omega

end

/-- **Length-protocol framing does not depend on segmentation.** -/
theorem recvWithLengthProtocol_frames (p : Protocol) (hp : p.LengthCheck)
    (hh : p.headerLen ≤ 32768) (h : OnPackage) (ha : Accepts h) (xs : Bytes) (hx : Declares p xs)
    (calls : List (List RecvEvent)) (hc : Cuts calls xs) :
    (∃ c, Conn.serve (recvWithLengthProtocol p none (defaultLengthFunc p) h) calls =
        some (.opened, c) ∧ c.rcvd ++ eventBytes c.queue = xs ∧
      frames (declaredLen p) c.rcvd = (c.out, c.buffer.str)) ∧
    ∃ k c, Conn.serve (recvWithLengthProtocol p none (defaultLengthFunc p) h)
        (calls ++ replicate k []) = some (.opened, c) ∧
      frames (declaredLen p) xs = (c.out, c.buffer.str) := by
  obtain ⟨hseg, rfl⟩ := hc
  have hag := declares_agrees hp hh hx
  have hno : ∀ zs, zs <+: eventBytes calls.flatten → ∀ c, ¬ Refused p (declaredLen p) zs c := by
    intro zs _ c hr
    have hlen : declaredLen p c.buffer.str = none := hr.unknown
    rw [declaredLen_full (le_of_eq hr.static.symm)] at hlen
    cases hlen
  constructor
  · obtain ⟨s, hs, hstate⟩ := framing_serve ha calls hseg hag
    obtain ⟨c, rfl, hp⟩ := hstate.opened hno
    exact ⟨c, hs, hp.bytes, hp.frames⟩
  · obtain ⟨k, s, hs, hstate, hq⟩ := framing_drain ha calls hseg hag
    obtain ⟨c, rfl, hp⟩ := hstate.opened hno
    exact ⟨k, c, hs, hp.frames_all (hq rfl)⟩

lemma declares_single {p : Protocol} {xs : Bytes} (hl : declaredLen p xs = some xs.length)
    (hh : 0 < p.headerLen)
    (hx : 0 ≤ lengthField p xs ∧ 1 ≤ p.packageBodyOffset + lengthField p xs ∧
      p.packageBodyOffset + lengthField p xs ≤ p.packageMaxLength ∧
      p.packageBodyOffset + lengthField p xs < 2^31) : Declares p xs := by
  intro ys hys hlen
  rcases hys.single hl with rfl | rfl
  · exact hx
  · exact absurd hlen (not_le.mpr hh)

/-- one package of five bytes, cut in two -/
theorem recvWithLengthProtocol_frames_five :
    (∃ c, Conn.serve (recvWithLengthProtocol (lengthConfig 4 65536 (by decide) (by decide)) none
          (defaultLengthFunc (lengthConfig 4 65536 (by decide) (by decide))) (fun _ => .ok))
          [[.data [0, 0]], [.data [0, 1, 7]]] = some (.opened, c) ∧
        c.rcvd ++ eventBytes c.queue = [0, 0, 0, 1, 7] ∧
        frames (declaredLen (lengthConfig 4 65536 (by decide) (by decide))) c.rcvd =
          (c.out, c.buffer.str)) ∧
      ∃ k c, Conn.serve (recvWithLengthProtocol (lengthConfig 4 65536 (by decide) (by decide)) none
          (defaultLengthFunc (lengthConfig 4 65536 (by decide) (by decide))) (fun _ => .ok))
          ([[.data [0, 0]], [.data [0, 1, 7]]] ++ replicate k []) = some (.opened, c) ∧
        frames (declaredLen (lengthConfig 4 65536 (by decide) (by decide))) [0, 0, 0, 1, 7] =
          (c.out, c.buffer.str) := by
  refine recvWithLengthProtocol_frames _ ⟨rfl, by decide⟩ (by decide) _ (fun _ => .inl rfl)
    [0, 0, 0, 1, 7] (declares_single (by decide) (by decide) (by decide)) _ ?_
  decide

/-- a signed 16-bit length field counted from a body offset of ten -/
def signedConfig : Protocol where
  splitByEof := false
  packageEof := []
  packageLengthType := .s
  packageLengthSize := 2
  packageLengthOffset := 0
  packageBodyOffset := 10
  packageMaxLength := 65536
  eof_le := noEof_le
  size_lt := by decide
  offset_lt := defaultOffset_lt
  body_lt := by decide
  max_lt := by decide

/-- a length field of `-1` declares a package of nine bytes; the connection is closed -/
theorem recvWithLengthProtocol_negative_field : signedConfig.LengthCheck ∧
    declaredLen signedConfig [0xff, 0xff, 0, 0, 0, 0, 0, 0, 0] = some 9 ∧
    (Conn.serve (recvWithLengthProtocol signedConfig none (defaultLengthFunc signedConfig)
      (fun _ => .ok)) [[.data [0xff, 0xff, 0, 0, 0, 0, 0, 0, 0]]]).map (fun s => (s.1, s.2.out)) =
      some (.closed, []) :=
  ⟨⟨rfl, by decide⟩, by decide, by decide⟩

end OSW
