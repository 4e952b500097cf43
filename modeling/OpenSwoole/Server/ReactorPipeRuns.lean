import OpenSwoole.Server.ReactorPipe

/-!
# What the reactor threads make of the responses

A *way* is a worker number together with a pipe.  Every way has a buffer in a reactor thread and the
datagrams between the worker and that buffer, the *flight*.  The reader never looks at `BEGIN`, so a
response whose chunks end without `END` stays in the buffer, and the next chunked response of the way is
appended to it.

* `PipeOp.Clean`   no chunked response starts behind an unfinished one, and `END` is not set for a chunk
    that is then sent smaller.
-/

namespace OSW
open Function Machine List Option

/-! ## datagrams of a way -/

/-- how far a way has got: numbers below `low` are settled; `part` is the response that is put together
and its bytes so far -/
structure Mark where
  low : Nat
  part : Option (Nat × Bytes)

/-- `got` are the bytes in front of a chunk of response `i` -/
def Joins (part : Option (Nat × Bytes)) (i : Nat) (got : Bytes) : Prop :=
  part = none ∧ got = [] ∨ part = some (i, got)

/-- the datagram belongs to the response `r`, which is not settled; `cap` bounds its length -/
structure Belongs (cap : Nat) (R : List Response) (w : WorkerId) (p : PipeFd) (low : Nat) (d : RespDatagram)
    (r : Response) : Prop where
  get : R[d.resp]? = some r
  worker : r.worker = w
  pipe : r.pipe = p
  session : d.fd = r.session
  short : r.payload.length < 2^32
  serverFd : d.serverFd = w
  fits : d.data.length ≤ cap
  low_le : low ≤ d.resp

/-- a datagram between two marks -/
inductive Carries (cap : Nat) (R : List Response) (w : WorkerId) (p : PipeFd) :
    Mark → RespDatagram → Mark → Prop
  | control {m : Mark} {d : RespDatagram} {t : Control} (hw : d.serverFd = w)
      (hc : d.info.isChunk = false) (ht : d.type = some t) : Carries cap R w p m d m
  | whole {m : Mark} {d : RespDatagram} {r : Response} (hof : Belongs cap R w p m.low d r)
      (hc : d.info.isChunk = false) (ht : d.type = none) (hdata : d.data = r.payload)
      (hlen : d.info.len = r.payload.length) : Carries cap R w p m d ⟨d.resp + 1, m.part⟩
  | more {m : Mark} {d : RespDatagram} {r : Response} {got : Bytes} (hof : Belongs cap R w p m.low d r)
      (hc : d.info.isChunk = true) (he : d.info.isEnd = false) (hj : Joins m.part d.resp got) :
      Carries cap R w p m d ⟨m.low, some (d.resp, got ++ d.data)⟩
  | last {m : Mark} {d : RespDatagram} {r : Response} {got : Bytes} (hof : Belongs cap R w p m.low d r)
      (hc : d.info.isChunk = true) (he : d.info.isEnd = true) (hj : Joins m.part d.resp got)
      (hall : got ++ d.data = r.payload) : Carries cap R w p m d ⟨d.resp + 1, none⟩

section

variable {cap : Nat} {R : List Response} {w : WorkerId} {p : PipeFd} {m m' : Mark} {d : RespDatagram}
  {L : List RespDatagram}

lemma Carries.low_le (h : Carries cap R w p m d m') : m.low ≤ m'.low := by
  cases h with
  | control | more => exact le_rfl
  | whole hof | last hof => exact Nat.le_succ_of_le hof.low_le

lemma low_le_of_walks (h : Walks (Carries cap R w p) L m m') : m.low ≤ m'.low := by
  induction L generalizing m with
  | nil =>
    obtain rfl : m = m' := h
    exact le_rfl
  | cons d L ih =>
    obtain ⟨u, hu, hL⟩ := h
    exact le_trans hu.low_le (ih hL)

variable {r : Response}

lemma getElem?_append_of_some {x : Response} {i : Nat} (h : R[i]? = some r) :
    (R ++ [x])[i]? = some r := by
  obtain ⟨hi, hr⟩ := List.getElem?_eq_some_iff.1 h
  rw [getElem?_append_left hi]
  exact h

lemma Belongs.grow (h : Belongs cap R w p m.low d r) (x : Response) : Belongs cap (R ++ [x]) w p m.low d r :=
  { h with get := getElem?_append_of_some h.get }

lemma Carries.grow (h : Carries cap R w p m d m') (x : Response) : Carries cap (R ++ [x]) w p m d m' := by
  cases h with
  | control hw hc ht => exact .control hw hc ht
  | whole hof hc ht hdata hlen => exact .whole (hof.grow x) hc ht hdata hlen
  | more hof hc he hj => exact .more (hof.grow x) hc he hj
  | last hof hc he hj hall => exact .last (hof.grow x) hc he hj hall

/-- whether a response is unfinished behind the datagrams `L` -/
def unfinished (L : List RespDatagram) (b : Bool) : Bool :=
  L.foldl (fun b d => if d.info.isChunk then !d.info.isEnd else b) b

lemma isSome_part (h : Walks (Carries cap R w p) L m m') :
    m'.part.isSome = unfinished L m.part.isSome := by
  induction L generalizing m with
  | nil =>
    obtain rfl : m = m' := h
    rfl
  | cons d L ih =>
    obtain ⟨u, hu, hL⟩ := h
    rw [ih hL]
    refine congrArg (unfinished L) ?_
    cases hu with
    | control _ hc | whole _ hc => simp [hc]
    | more _ hc he | last _ hc he => simp [hc, he]

end

/-! ## calls of `process_send_packet` -/

/-- what is known of a call: the response it sends, how much of it is left -/
structure Sending.Sound (cap : Nat) (R : List Response) (w : WorkerId) (snd : Sending) (r : Response) :
    Prop where
  get : R[snd.resp]? = some r
  worker : r.worker = w
  pipe : r.pipe = snd.pipe
  session : snd.fd = r.session
  serverFd : snd.serverFd = w
  short : r.payload.length < 2^32
  chunk : snd.info.isChunk = !snd.direct
  len : snd.info.len = r.payload.length
  fits : min snd.data.length snd.maxLength ≤ cap
  fresh : snd.direct = true ∨ snd.info.isBegin = true → snd.data = r.payload
  single : snd.direct = true → snd.data.length ≤ snd.maxLength
  pos : snd.direct = false → 0 < snd.data.length
  early : snd.info.isEnd = true → snd.data.length ≤ snd.maxLength

/-- the bytes in front of a call that has sent a chunk -/
def Sending.Follows (snd : Sending) (r : Response) (part : Option (Nat × Bytes)) : Prop :=
  snd.direct = false → snd.info.isBegin = false →
    ∃ got, part = some (snd.resp, got) ∧ got ++ snd.data = r.payload

section

variable {cap : Nat} {R : List Response} {w : WorkerId} {p : PipeFd} {m : Mark} {snd : Sending}
  {r : Response}

lemma Sending.start_sound {c : PipeConfig} {session : Nat} {payload : Bytes} {msgId : Nat}
    (hlen : payload.length < 2^32) :
    (Sending.start c.ipcMaxSize msgId R.length p session w payload).Sound (c.ipcMaxSize - dataHeadSize)
      (R ++ [⟨w, p, session, payload⟩]) w ⟨w, p, session, payload⟩ := by
  unfold Sending.start
  by_cases hle : payload.length ≤ c.ipcMaxSize - dataHeadSize
  · exact { get := getElem?_concat_length, worker := rfl, pipe := rfl, session := rfl,
            serverFd := rfl, short := hlen, chunk := by simp [hle], len := by simp [hle],
            fits := min_le_right _ _, fresh := fun _ => rfl, single := fun _ => hle,
            pos := by simp [hle], early := fun _ => hle }
  · exact { get := getElem?_concat_length, worker := rfl, pipe := rfl, session := rfl,
            serverFd := rfl, short := hlen, chunk := by simp [hle, chunkHead],
            len := by simp [hle, chunkHead], fits := min_le_right _ _, fresh := fun _ => rfl,
            single := by simp [hle], pos := fun _ => by dsimp only; omega,
            early := by simp [hle, chunkHead] }

lemma Sending.Sound.isEnd_eq (h : snd.Sound cap R w r) (hlt : snd.maxLength < snd.data.length) :
    snd.info.isEnd = false :=
  Bool.eq_false_iff.2 fun he => not_le.2 hlt (h.early he)

lemma Sending.copyN_eq (snd : Sending) : snd.copyN = min snd.data.length snd.maxLength := by
  unfold Sending.copyN Sending.isLast
  by_cases hle : snd.data.length ≤ snd.maxLength
  · rw [decide_eq_true hle, if_pos rfl, min_eq_left hle]
  · rw [decide_eq_false hle, if_neg (by decide)]
    omega

lemma Sending.carries_direct (h : snd.Sound cap R w r) (hd : snd.direct = true) (hlow : m.low ≤ snd.resp) :
    Carries cap R w snd.pipe m snd.datagram ⟨snd.resp + 1, m.part⟩ := by
  have hp : snd.packet = ⟨snd.info, snd.data⟩ := if_pos hd
  have hinfo : snd.datagram.info = snd.info := congrArg Datagram.info hp
  have hdata : snd.datagram.data = snd.data := congrArg Datagram.data hp
  have hfits := h.fits
  rw [min_eq_left (h.single hd), ← hdata] at hfits
  refine .whole { h with fits := hfits, low_le := hlow } ?_ rfl (hdata.trans (h.fresh (.inl hd))) ?_
  · rw [hinfo, h.chunk, hd]
    rfl
  · rw [hinfo]
    exact h.len

lemma Sending.carries_chunk (h : snd.Sound cap R w r) (hd : snd.direct = false) (hlow : m.low ≤ snd.resp)
    {got : Bytes} (hj : Joins m.part snd.resp got) (hgot : got ++ snd.data = r.payload) :
    (snd.data.length ≤ snd.maxLength ∧ Carries cap R w snd.pipe m snd.datagram ⟨snd.resp + 1, none⟩) ∨
      (snd.maxLength < snd.data.length ∧ snd.info.isEnd = false ∧ Carries cap R w snd.pipe m snd.datagram
          ⟨m.low, some (snd.resp, got ++ snd.data.take snd.copyN)⟩) := by
  have hp : snd.packet = ⟨snd.chunkInfo, snd.data.take snd.copyN⟩ := if_neg (by rw [hd]; decide)
  have hchunk : snd.datagram.info.isChunk = true := by
    refine (congrArg (fun q => q.info.isChunk) hp).trans (h.chunk.trans ?_)
    rw [hd]
    rfl
  have hdata : snd.datagram.data = snd.data.take snd.copyN := congrArg Datagram.data hp
  have hof : Belongs cap R w snd.pipe m.low snd.datagram r := by
    refine { h with fits := ?_, low_le := hlow }
    have := h.fits
    rw [hdata, length_take, Sending.copyN_eq]
    omega
  have hend : snd.datagram.info.isEnd = (snd.info.isEnd || snd.isLast) :=
    congrArg (fun q => q.info.isEnd) hp
  by_cases hle : snd.data.length ≤ snd.maxLength
  · refine .inl ⟨hle, .last hof hchunk ?_ hj ?_⟩
    · rw [hend, Sending.isLast, decide_eq_true hle, Bool.or_true]
    · rw [hdata, Sending.copyN_eq, Nat.min_eq_left hle, take_length]
      exact hgot
  · have hfalse := h.isEnd_eq (Nat.lt_of_not_le hle)
    refine .inr ⟨by omega, hfalse, ?_⟩
    rw [← hdata]
    refine .more hof hchunk ?_ hj
    rw [hend, hfalse, Sending.isLast, decide_eq_false hle]
    rfl

variable {snd' : Sending}

lemma Sending.loop_sending (h : snd.loop.sending = some snd') : 0 < snd.data.length ∧ snd' = snd := by
  unfold Sending.loop at h
  by_cases hpos : 0 < snd.data.length
  · rw [if_pos hpos] at h
    exact ⟨hpos, (some.inj h).symm⟩
  · rw [if_neg hpos] at h
    cases h

def Sending.behind (snd : Sending) : Sending :=
  { snd with info := { snd.chunkInfo with isBegin := false }, data := snd.data.drop snd.copyN }

lemma Sending.result_ok_chunk (hd : snd.direct = false) : snd.result .ok = snd.behind.loop :=
  if_neg (by rw [hd]; decide)

lemma Sending.behind_sound (h : snd.Sound cap R w r) (hd : snd.direct = false)
    (hlt : snd.maxLength < snd.data.length) : snd.behind.Sound cap R w r := by
  have hlen : snd.behind.data.length = snd.data.length - snd.maxLength := by
    show (snd.data.drop snd.copyN).length = _
    rw [length_drop, Sending.copyN_eq]
    omega
  have hend : snd.behind.info.isEnd = false := by
    show (snd.info.isEnd || snd.isLast) = false
    rw [h.isEnd_eq hlt, Sending.isLast, decide_eq_false (by omega)]
    rfl
  have hfits := h.fits
  exact { h with
          fits := by
            show min _ snd.maxLength ≤ cap
            omega
          fresh := fun hf => by
            rcases hf with hf | hf
            · cases hd.symm.trans hf
            · exact absurd (show false = true from hf) (by decide)
          single := fun hf => absurd (hd.symm.trans hf) (by decide)
          pos := fun _ => by omega
          early := fun he => absurd (hend.symm.trans he) (by decide) }

/-- `END` is not set for a rest that the smaller chunks cannot hold -/
def Sending.NotEarly (snd : Sending) : Prop :=
  snd.direct = false → bufferSizeStd < snd.maxLength → snd.data.length ≤ snd.maxLength →
    snd.data.length ≤ ipcBufferSize

lemma Sending.enobufs_sound (h : snd.Sound cap R w r) (hn : snd.NotEarly)
    (hs : (snd.result .enobufs).sending = some snd') :
    snd'.Sound cap R w r ∧ snd'.resp = snd.resp ∧ snd'.pipe = snd.pipe ∧
      ∀ x part, snd.Follows x part → snd'.Follows x part := by
  have hfits := h.fits
  unfold Sending.result at hs
  simp only at hs
  by_cases hd : snd.direct = true
  · rw [if_pos hd] at hs
    obtain ⟨hpos, rfl⟩ := Sending.loop_sending hs
    have hone := h.single hd
    refine ⟨{ h with
              chunk := rfl, fits := ?_, fresh := fun _ => h.fresh (.inl hd),
              single := nofun, pos := fun _ => hpos, early := nofun }, rfl, rfl, nofun⟩
    show min snd.data.length ipcBufferSize ≤ cap
    omega
  · rw [if_neg hd] at hs
    have hd' : snd.direct = false := by simpa using hd
    by_cases hlarge : bufferSizeStd < snd.maxLength
    · rw [if_pos hlarge] at hs
      obtain rfl := (some.inj hs).symm
      refine ⟨{ h with fits := ?_, single := fun hf => absurd hf hd, early := fun he => ?_ }, rfl, rfl,
        fun x part hf => hf⟩
      · show min snd.data.length ipcBufferSize ≤ cap
        have : ipcBufferSize < bufferSizeStd := by decide
        omega
      · have he' : (snd.info.isEnd || snd.isLast) = true := he
        refine hn hd' hlarge ?_
        rw [Bool.or_eq_true] at he'
        exact he'.elim h.early of_decide_eq_true
    · rw [if_neg hlarge] at hs
      cases hs

end

/-! ## the invariant of a way -/

/-- The buffer `B` of a way and the flight `L` behind it lead to the call `S` of the worker.  Deliveries
from this way have numbers below `n`. -/
def Way (cap : Nat) (R : List Response) (n : Nat) (w : WorkerId) (p : PipeFd) (L : List RespDatagram)
    (B : Option Bytes) (S : Option Sending) : Prop :=
  ∃ m m' : Mark, m.low = n ∧ B = m.part.map Prod.snd ∧ Walks (Carries cap R w p) L m m' ∧
    m'.low ≤ R.length ∧ ∀ snd, S = some snd →
      m'.low ≤ snd.resp ∧ (snd.pipe = p → ∀ r, R[snd.resp]? = some r → snd.Follows r m'.part)

section

variable {cap n : Nat} {R : List Response} {w : WorkerId} {p : PipeFd} {L L' : List RespDatagram}
  {B : Option Bytes} {S : Option Sending} {snd snd' : Sending} {r : Response}

lemma Way.idle (h : Way cap R n w p L B S) : Way cap R n w p L B none := by
  obtain ⟨m, m', hm, hB, hL, hle, -⟩ := h
  exact ⟨m, m', hm, hB, hL, hle, nofun⟩

lemma Way.cut (h : Way cap R n w p (L ++ L') B S) : Way cap R n w p L B none := by
  obtain ⟨m, m', hm, hB, hL, hle, -⟩ := h
  obtain ⟨u, hu, hu'⟩ := walks_append.1 hL
  exact ⟨m, u, hm, hB, hu, le_trans (low_le_of_walks hu') hle, nofun⟩

lemma Way.control (h : Way cap R n w p L B S) {d : RespDatagram} (hw : d.serverFd = w)
    (hc : d.info.isChunk = false) {t : Control} (ht : d.type = some t) :
    Way cap R n w p (L ++ [d]) B S := by
  obtain ⟨m, m', hm, hB, hL, hle, hS⟩ := h
  exact ⟨m, m', hm, hB, hL.snoc (.control hw hc ht), hle, hS⟩

lemma Way.start (h : Way cap R n w p L B none) {x : Response} (hresp : snd.resp = R.length)
    (hbegin : snd.direct = false → snd.info.isBegin = true) :
    Way cap (R ++ [x]) n w p L B (some snd) := by
  obtain ⟨m, m', hm, hB, hL, hle, -⟩ := h
  refine ⟨m, m', hm, hB, hL.mono (fun _ _ _ hd => hd.grow x), ?_, ?_⟩
  · rw [length_append]
    omega
  · rintro _ ⟨⟩
    exact ⟨by omega, fun _ r _ hd hb => absurd ((hbegin hd).symm.trans hb) (by decide)⟩

lemma Way.grow (h : Way cap R n w p L B S) (hS : ∀ snd, S = some snd → snd.resp < R.length)
    (x : Response) : Way cap (R ++ [x]) n w p L B S := by
  obtain ⟨m, m', hm, hB, hL, hle, hsnd⟩ := h
  refine ⟨m, m', hm, hB, hL.mono (fun _ _ _ hd => hd.grow x), ?_, fun snd he => ?_⟩
  · rw [length_append]
    omega
  · refine ⟨(hsnd snd he).1, fun hp r hr => (hsnd snd he).2 hp r ?_⟩
    rwa [getElem?_append_left (hS snd he)] at hr

lemma Way.next (h : Way cap R n w p L B (some snd)) (hr : snd'.resp = snd.resp) (hp : snd'.pipe = snd.pipe)
    (hf : snd.pipe = p → ∀ r part, snd.Follows r part → snd'.Follows r part) :
    Way cap R n w p L B (some snd') := by
  obtain ⟨m, m', hm, hB, hL, hle, hS⟩ := h
  refine ⟨m, m', hm, hB, hL, hle, ?_⟩
  rintro _ ⟨⟩
  obtain ⟨h1, h2⟩ := hS snd rfl
  refine ⟨by omega, fun hp' r hget => ?_⟩
  rw [hr] at hget
  exact hf (hp ▸ hp') r _ (h2 (hp ▸ hp') r hget)

variable (h : Way cap R n w snd.pipe L B (some snd)) (hs : snd.Sound cap R w r)
include h hs

lemma Way.sent_direct (hd : snd.direct = true) : Way cap R n w snd.pipe (L ++ [snd.datagram]) B none := by
  obtain ⟨m, m', hm, hB, hL, hle, hS⟩ := h
  have hlt := (List.getElem?_eq_some_iff.1 hs.get).1
  exact ⟨m, _, hm, hB, hL.snoc (Sending.carries_direct hs hd (hS snd rfl).1), hlt, nofun⟩

lemma Way.sent_chunk (hd : snd.direct = false)
    (hclean : snd.info.isBegin = true → unfinished L B.isSome = false) :
    (snd.data.length ≤ snd.maxLength ∧ Way cap R n w snd.pipe (L ++ [snd.datagram]) B none) ∨
      (snd.maxLength < snd.data.length ∧
        Way cap R n w snd.pipe (L ++ [snd.datagram]) B (some snd.behind)) := by
  obtain ⟨m, m', hm, hB, hL, hle, hS⟩ := h
  obtain ⟨hlow, hfol⟩ := hS snd rfl
  have hlt := (List.getElem?_eq_some_iff.1 hs.get).1
  obtain ⟨got, hj, hgot⟩ : ∃ got, Joins m'.part snd.resp got ∧ got ++ snd.data = r.payload := by
    by_cases hb : snd.info.isBegin = true
    · have hpart := isSome_part hL
      have hBS : B.isSome = m.part.isSome := by rw [hB, isSome_map]
      rw [← hBS, hclean hb] at hpart
      exact ⟨[], Or.inl ⟨by simpa using hpart, rfl⟩, hs.fresh (Or.inr hb)⟩
    · obtain ⟨got, hpart, hgot⟩ := hfol rfl r hs.get hd (by simpa using hb)
      exact ⟨got, Or.inr hpart, hgot⟩
  rcases Sending.carries_chunk hs hd hlow hj hgot with ⟨hlast, hc⟩ | ⟨hmore, he, hc⟩
  · exact Or.inl ⟨hlast, m, _, hm, hB, hL.snoc hc, hlt, nofun⟩
  · refine Or.inr ⟨hmore, m, _, hm, hB, hL.snoc hc, hle, ?_⟩
    rintro _ ⟨⟩
    refine ⟨hlow, fun _ r' hget _ _ => ⟨_, rfl, ?_⟩⟩
    obtain rfl : r = r' := some.inj (hs.get.symm.trans hget)
    show got ++ snd.data.take snd.copyN ++ snd.data.drop snd.copyN = r.payload
    rw [append_assoc, take_append_drop, hgot]

end

/-! ## steps of the server -/

namespace PipeServer

/-- the datagrams between a worker and the buffer of the reactor thread -/
def flight (s : PipeServer) (w : WorkerId) (p : PipeFd) : List RespDatagram :=
  (s.pipes p).filter (fun d => d.serverFd = w) ++ s.outBuffer w p

def buffer (c : PipeConfig) (s : PipeServer) (w : WorkerId) (p : PipeFd) : Option Bytes :=
  s.sendBuffers (c.thread p) (pipeKey p w)

/-- the deliveries are whole responses; those from a way have numbers below `n` -/
def Done (R : List Response) (n : WorkerId → PipeFd → Nat) (D : List Delivery) : Prop :=
  ∀ e ∈ D, ∃ r, R[e.resp]? = some r ∧ e.session = r.session ∧ e.payload = r.payload ∧ e.resp < n r.worker r.pipe

/-- the invariant -/
structure Good (c : PipeConfig) (n : WorkerId → PipeFd → Nat) (s : PipeServer) : Prop where
  nodup : (s.delivered.map Delivery.resp).Nodup
  done : Done s.responses n s.delivered
  senders : ∀ w snd, s.workers w = some snd → ∃ r, snd.Sound (c.ipcMaxSize - dataHeadSize) s.responses w r
  ways : ∀ w p, Way (c.ipcMaxSize - dataHeadSize) s.responses (n w p) w p (s.flight w p)
    (s.buffer c w p) (s.workers w)

section

variable {c : PipeConfig} {n : WorkerId → PipeFd → Nat} {s : PipeServer}

lemma update_update_of_ne {α β γ : Type} [DecidableEq α] [DecidableEq β] {f : α → β → γ} {a a' : α} {b b' : β}
    (h : ¬ (a' = a ∧ b' = b)) (v : γ) : update f a (update (f a) b v) a' b' = f a' b' := by
  by_cases ha : a' = a
  · rw [ha, update_self, update_of_ne fun hb => h ⟨ha, hb⟩]
  · rw [update_of_ne ha]

lemma init_good : init.Good c fun _ _ => 0 where
  nodup := nodup_nil
  done := nofun
  senders := nofun
  ways _ _ := ⟨⟨0, none⟩, ⟨0, none⟩, rfl, rfl, rfl, le_rfl, nofun⟩

lemma flight_setWorker (s : PipeServer) (w : WorkerId) (S : Option Sending) :
    (s.setWorker w S).flight = s.flight := rfl

lemma flight_enqueue_self (s : PipeServer) (w : WorkerId) (p : PipeFd) (d : RespDatagram) :
    (s.enqueue w p d).flight w p = s.flight w p ++ [d] := by
  unfold flight enqueue
  dsimp only
  rw [update_self, update_self, append_assoc]

variable {w w' : WorkerId} {p p' : PipeFd} {d : RespDatagram} {snd : Sending}

lemma flight_enqueue_of_ne (h : ¬ (w' = w ∧ p' = p)) (d : RespDatagram) :
    (s.enqueue w p d).flight w' p' = s.flight w' p' := by
  unfold flight enqueue
  dsimp only
  rw [update_update_of_ne h]

section
variable (h : s.Good c n)
include h

lemma Good.finish (w : WorkerId) (session reactorId : Nat) (payload : Bytes) :
    (s.finish c w session reactorId payload).Good c n := by
  unfold PipeServer.finish
  cases hw : s.workers w with
  | some snd => exact h
  | none =>
    by_cases hlen : c.outputBufferSize % 2^32 < payload.length
    · rw [if_pos hlen]
      exact h
    rw [if_neg hlen]
    have hshort : payload.length < 2^32 := by omega
    refine { nodup := h.nodup, done := ?_, senders := ?_, ways := ?_ }
    · intro e he
      obtain ⟨r, hr, hrest⟩ := h.done e he
      exact ⟨r, getElem?_append_of_some hr, hrest⟩
    · intro w' snd hs
      by_cases hww : w' = w
      · subst hww
        obtain rfl : _ = snd := some.inj ((update_self w' _ s.workers).symm.trans hs)
        exact ⟨_, Sending.start_sound hshort⟩
      · obtain ⟨r, hr⟩ := h.senders w' snd ((update_of_ne hww _ s.workers).symm.trans hs)
        exact ⟨r, { hr with get := getElem?_append_of_some hr.get }⟩
    · intro w' p
      show Way _ _ (n w' p) w' p (s.flight w' p) (s.buffer c w' p) (update s.workers w _ w')
      have hway := h.ways w' p
      by_cases hww : w' = w
      · subst hww
        rw [update_self]
        rw [hw] at hway
        refine hway.start rfl fun hd => ?_
        have hd' : decide (payload.length ≤ c.ipcMaxSize - dataHeadSize) = false := hd
        simp only [Sending.start, hd', Bool.false_eq_true, if_false, chunkHead]
      · rw [update_of_ne hww]
        refine hway.grow (fun snd hs => ?_) _
        obtain ⟨r, hr⟩ := h.senders w' snd hs
        exact (List.getElem?_eq_some_iff.1 hr.get).1

lemma Good.replace {s' : PipeServer} {S : Option Sending} (hR : s'.responses = s.responses)
    (hD : s'.delivered = s.delivered) (hB : s'.sendBuffers = s.sendBuffers)
    (hS : s'.workers = update s.workers w S) (hfl : ∀ w' p, w' ≠ w → s'.flight w' p = s.flight w' p)
    (hsnd : ∀ snd, S = some snd → ∃ r, snd.Sound (c.ipcMaxSize - dataHeadSize) s.responses w r)
    (hway : ∀ p, Way (c.ipcMaxSize - dataHeadSize) s.responses (n w p) w p (s'.flight w p) (s.buffer c w p) S) :
    s'.Good c n := by
  refine { nodup := by rw [hD]; exact h.nodup, done := by rw [hD, hR]; exact h.done, senders := ?_,
           ways := ?_ }
  · intro w' snd hs
    rw [hS] at hs
    rw [hR]
    by_cases hw : w' = w
    · subst hw
      rw [update_self] at hs
      exact hsnd snd hs
    · rw [update_of_ne hw] at hs
      exact h.senders w' snd hs
  · intro w' p
    unfold buffer
    rw [hR, hB, hS]
    by_cases hw : w' = w
    · subst hw
      rw [update_self]
      exact hway p
    · rw [update_of_ne hw, hfl w' p hw]
      exact h.ways w' p

lemma Good.die (w : WorkerId) : (s.die w).Good c n := by
  have hout : ∀ w', w' ≠ w → (s.die w).outBuffer w' = s.outBuffer w' := fun w' hw => update_of_ne hw _ _
  refine h.replace (S := none) rfl rfl rfl rfl ?_ nofun ?_
  · intro w' p hw
    unfold flight
    rw [hout w' hw]
    rfl
  · intro p
    have hself : (s.die w).outBuffer w = fun _ => [] := update_self _ _ _
    have hway := h.ways w p
    unfold flight at hway ⊢
    rw [hself, append_nil]
    exact hway.cut

lemma Good.control (p : PipeFd) (hw : d.serverFd = w) (hc : d.info.isChunk = false) {t : Control}
    (ht : d.type = some t) : (s.enqueue w p d).Good c n := by
  refine { h with ways := fun w' p' => ?_ }
  by_cases hwp : w' = w ∧ p' = p
  · obtain ⟨rfl, rfl⟩ := hwp
    rw [flight_enqueue_self]
    exact (h.ways w' p').control hw hc ht
  · rw [flight_enqueue_of_ne hwp]
    exact h.ways w' p'

lemma Good.flush (w : WorkerId) (p : PipeFd) : (s.flush w p).Good c n := by
  unfold PipeServer.flush
  cases hout : s.outBuffer w p with
  | nil => exact h
  | cons d ds =>
    have hd : d.serverFd = w := by
      obtain ⟨m, m', -, -, hL, -⟩ := h.ways w p
      obtain ⟨u, v, huv⟩ := hL.mem (i := d) (mem_append_right _ (hout ▸ mem_cons_self))
      cases huv with
      | control hw => exact hw
      | whole hof | more hof | last hof => exact hof.serverFd
    refine { h with ways := fun w' p' => ?_ }
    refine cast (congrArg (fun L => Way _ _ _ w' p' L _ _) ?_) (h.ways w' p')
    -- the flight of every way is what it was
    unfold flight
    dsimp only
    by_cases hp : p' = p
    · subst hp
      rw [update_self, filter_append]
      by_cases hw : w' = w
      · subst hw
        have hone : [d].filter (fun d => d.serverFd = w') = [d] := by simp [hd]
        rw [update_self, update_self, hout, hone, append_assoc]
        rfl
      · have hnone : [d].filter (fun d => d.serverFd = w') = [] := by simp [hd, Ne.symm hw]
        rw [update_of_ne hw, hnone, append_nil]
    · rw [update_of_ne hp, update_update_of_ne fun h => hp h.2]

lemma Good.refused (hw : s.workers w = some snd) {r : SendRes} (hr : r ≠ .ok)
    (hn : r = .enobufs → snd.NotEarly) : (s.result w r).Good c n := by
  have he : s.result w r = s.setWorker w (snd.result r).sending := by
    unfold PipeServer.result
    rw [hw]
    simp only [if_neg hr]
  rw [he]
  obtain ⟨x, hx⟩ := h.senders w snd hw
  cases r with
  | ok => exact absurd rfl hr
  | failed => exact h.replace rfl rfl rfl rfl (fun _ _ _ => rfl) nofun fun p => (h.ways w p).idle
  | enobufs =>
    refine h.replace rfl rfl rfl rfl (fun _ _ _ => rfl) (fun snd' hs => ?_) fun p => ?_
    · exact ⟨x, (Sending.enobufs_sound hx (hn rfl) hs).1⟩
    · have hway := h.ways w p
      rw [hw] at hway
      cases hs : (snd.result .enobufs).sending with
      | none => exact hway.idle
      | some snd' =>
        obtain ⟨-, hresp, hpipe, hf⟩ := Sending.enobufs_sound hx (hn rfl) hs
        exact hway.next hresp hpipe fun _ => hf

lemma Good.accepted (hw : s.workers w = some snd)
    (hclean : snd.direct = false → snd.info.isBegin = true →
      unfinished (s.flight w snd.pipe) (s.buffer c w snd.pipe).isSome = false) :
    (s.result w .ok).Good c n := by
  have he : s.result w .ok = (s.enqueue w snd.pipe snd.datagram).setWorker w (snd.result .ok).sending := by
    unfold PipeServer.result
    rw [hw]
    rfl
  have hself : (s.result w .ok).flight w snd.pipe = s.flight w snd.pipe ++ [snd.datagram] := by
    rw [he, flight_setWorker]
    exact flight_enqueue_self _ _ _ _
  have hother : ∀ w' p, ¬ (w' = w ∧ p = snd.pipe) → (s.result w .ok).flight w' p = s.flight w' p := by
    intro w' p hne
    rw [he, flight_setWorker]
    exact flight_enqueue_of_ne hne _
  -- what is to be shown for the call `S` that follows
  have hnext : ∀ S, (snd.result .ok).sending = S →
      (∀ snd', S = some snd' → ∃ r, snd'.Sound (c.ipcMaxSize - dataHeadSize) s.responses w r) →
      Way (c.ipcMaxSize - dataHeadSize) s.responses (n w snd.pipe) w snd.pipe
        (s.flight w snd.pipe ++ [snd.datagram]) (s.buffer c w snd.pipe) S →
      (∀ p, p ≠ snd.pipe →
        Way (c.ipcMaxSize - dataHeadSize) s.responses (n w p) w p (s.flight w p) (s.buffer c w p) S) →
      (s.result w .ok).Good c n := by
    rintro S rfl hsound hsent hrest
    refine h.replace (by rw [he]; rfl) (by rw [he]; rfl) (by rw [he]; rfl) (by rw [he]; rfl)
      (fun w' p hne => hother w' p fun hwp => hne hwp.1) hsound fun p => ?_
    by_cases hp : p = snd.pipe
    · rw [hp, hself]
      exact hsent
    · rw [hother w p fun hwp => hp hwp.2]
      exact hrest p hp
  obtain ⟨x, hx⟩ := h.senders w snd hw
  have hway : ∀ p, Way (c.ipcMaxSize - dataHeadSize) s.responses (n w p) w p (s.flight w p)
      (s.buffer c w p) (some snd) := fun p => hw ▸ h.ways w p
  by_cases hd : snd.direct = true
  · have hret : (snd.result .ok).sending = none := congrArg SendOutcome.sending (if_pos hd)
    exact hnext none hret nofun ((hway _).sent_direct hx hd) fun p _ => (hway p).idle
  · have hd' : snd.direct = false := by simpa using hd
    have hres : (snd.result .ok).sending = snd.behind.loop.sending := by rw [Sending.result_ok_chunk hd']
    rcases (hway snd.pipe).sent_chunk hx hd' (hclean hd') with ⟨hlast, hsent⟩ | ⟨hmore, hsent⟩
    · refine hnext none (hres.trans ?_) nofun hsent fun p _ => (hway p).idle
      cases hs : snd.behind.loop.sending with
      | none => rfl
      | some snd' =>
        have hpos := (Sending.loop_sending hs).1
        have : snd.behind.data.length = snd.data.length - snd.copyN := length_drop
        rw [Sending.copyN_eq] at this
        omega
    · have hsound := Sending.behind_sound hx hd' hmore
      have hsome : snd.behind.loop.sending = some snd.behind :=
        congrArg SendOutcome.sending (if_pos (hsound.pos hd'))
      refine hnext _ (hres.trans hsome) ?_ hsent fun p hp =>
        (hway p).next rfl rfl fun hp' => absurd hp'.symm hp
      rintro _ ⟨⟩
      exact ⟨x, hsound⟩

end

lemma pipeKey_inj (h : pipeKey p w = pipeKey p' w') : w = w' ∧ p = p' := by
  have h1 := w.toNat_lt
  have h2 := w'.toNat_lt
  unfold pipeKey at h
  exact ⟨UInt16.toNat_inj.1 (by omega), UInt16.toNat_inj.1 (by omega)⟩

lemma buffer_setBuffer_self (s : PipeServer) (w : WorkerId) (p : PipeFd) (b : Option Bytes) :
    (s.setBuffer (c.thread p) (pipeKey p w) b).buffer c w p = b := by
  unfold buffer setBuffer
  dsimp only
  rw [update_self, update_self]

lemma buffer_setBuffer_of_ne (h : ¬ (w' = w ∧ p' = p)) (b : Option Bytes) :
    (s.setBuffer (c.thread p) (pipeKey p w) b).buffer c w' p' = s.buffer c w' p' := by
  unfold buffer setBuffer
  dsimp only
  by_cases ht : c.thread p' = c.thread p
  · rw [ht, update_self, update_of_ne fun hk => h (pipeKey_inj hk)]
  · rw [update_of_ne ht]

lemma Good.delivery (h : s.Good c n) {cap : Nat} {r : Response} (hof : Belongs cap s.responses w p (n w p) d r) :
    ((s.delivered ++ [Delivery.mk d.resp d.fd r.payload]).map Delivery.resp).Nodup ∧
      Done s.responses (update n w (update (n w) p (d.resp + 1)))
        (s.delivered ++ [Delivery.mk d.resp d.fd r.payload]) := by
  constructor
  · rw [map_append, nodup_append]
    refine ⟨h.nodup, pairwise_singleton _ _, ?_⟩
    intro i hi j hj
    obtain ⟨e, he, rfl⟩ := mem_map.1 hi
    rw [mem_singleton.1 hj]
    rintro heq
    obtain ⟨r', hr', -, -, hlt⟩ := h.done e he
    rw [heq, hof.get, some.injEq] at hr'
    subst hr'
    rw [hof.worker, hof.pipe] at hlt
    have : e.resp = d.resp := heq
    have hlow := hof.low_le
    omega
  · intro e he
    rcases mem_append.1 he with he | he
    · obtain ⟨r', hr', h1, h2, hlt⟩ := h.done e he
      refine ⟨r', hr', h1, h2, ?_⟩
      by_cases hwp : r'.worker = w ∧ r'.pipe = p
      · rw [hwp.1, hwp.2] at hlt ⊢
        rw [update_self, update_self]
        exact Nat.lt_succ_of_lt (lt_of_lt_of_le hlt hof.low_le)
      · rwa [update_update_of_ne hwp]
    · obtain rfl := mem_singleton.1 he
      refine ⟨r, hof.get, hof.session, rfl, ?_⟩
      rw [hof.worker, hof.pipe, update_self, update_self]
      exact Nat.lt_succ_self _

lemma getD_buffer {part : Option (Nat × Bytes)} {i : Nat} {got : Bytes}
    (hB : s.buffer c w p = part.map Prod.snd) (hj : Joins part i got) :
    (s.sendBuffers (c.thread p) (pipeKey p w)).getD [] = got := by
  have hB' : s.sendBuffers (c.thread p) (pipeKey p w) = part.map Prod.snd := hB
  rw [hB']
  rcases hj with ⟨rfl, rfl⟩ | rfl <;> rfl

lemma Good.took (h : s.Good c n) {ds : List RespDatagram} (hp : s.pipes p = d :: ds) {u : Mark}
    (hway : Way (c.ipcMaxSize - dataHeadSize) s.responses u.low d.serverFd p
      ((ds.filter fun e => e.serverFd = d.serverFd) ++ s.outBuffer d.serverFd p) (u.part.map Prod.snd)
        (s.workers d.serverFd))
    (s' : PipeServer) (h1 :
      s' = { s with pipes := update s.pipes p ds, sendBuffers := s'.sendBuffers, delivered := s'.delivered })
    (h5 : s'.buffer c d.serverFd p = u.part.map Prod.snd)
    (h6 : ∀ w p', ¬ (w = d.serverFd ∧ p' = p) → s'.buffer c w p' = s.buffer c w p')
    (h7 : (s'.delivered.map Delivery.resp).Nodup)
    (h8 : Done s.responses (update n d.serverFd (update (n d.serverFd) p u.low)) s'.delivered) :
    s'.Good c (update n d.serverFd (update (n d.serverFd) p u.low)) := by
  obtain ⟨S, O, P, B, R, D⟩ := s'
  cases h1
  refine ⟨h7, h8, h.senders, fun w p' => ?_⟩
  unfold flight
  dsimp only
  by_cases hwp : w = d.serverFd ∧ p' = p
  · obtain ⟨rfl, rfl⟩ := hwp
    rw [h5, update_self, update_self, update_self]
    exact hway
  · rw [h6 w p' hwp]
    have hf : (update s.pipes p ds p').filter (fun e => e.serverFd = w) =
        (s.pipes p').filter fun e => e.serverFd = w := by
      by_cases hp' : p' = p
      · subst hp'
        rw [update_self, hp, filter_cons_of_neg]
        rw [decide_eq_true_eq]
        exact fun he => hwp ⟨he.symm, rfl⟩
      · rw [update_of_ne hp']
    rw [update_update_of_ne hwp, hf]
    exact h.ways w p'

lemma Good.read (h : s.Good c n) (p : PipeFd) : ∃ n', (s.read c p).Good c n' := by
  unfold PipeServer.read
  cases hp : s.pipes p with
  | nil => exact ⟨n, h⟩
  | cons d ds =>
    have hflight : s.flight d.serverFd p =
        d :: ((ds.filter fun e => e.serverFd = d.serverFd) ++ s.outBuffer d.serverFd p) := by
      unfold flight
      rw [hp]
      simp
    obtain ⟨m, m', hm, hB, hL, hle, hS⟩ := h.ways d.serverFd p
    rw [hflight] at hL
    obtain ⟨u, hu, hrest⟩ := hL
    have htook := h.took hp (u := u) ⟨u, m', rfl, rfl, hrest, hle, hS⟩
    have hdone : u.low = n d.serverFd p →
        Done s.responses (update n d.serverFd (update (n d.serverFd) p u.low)) s.delivered := by
      intro hlow
      rw [hlow, update_eq_self, update_eq_self]
      exact h.done
    simp only
    cases hu with
    | control _ hc ht =>
      rw [hc, if_neg (by decide), ht]
      exact ⟨_, htook _ rfl hB (fun _ _ _ => rfl) h.nodup (hdone hm)⟩
    | @whole r hof hc ht hdata hlen =>
      have hpay : r.payload = d.data.take d.info.len := by rw [hlen, ← hdata, take_length]
      have hdel := h.delivery (hm ▸ hof)
      rw [hpay] at hdel
      rw [hc, if_neg (by decide), ht, take_of_length_le hof.fits]
      exact ⟨_, htook _ rfl hB (fun _ _ _ => rfl) hdel.1 hdel.2⟩
    | more hof hc he hj =>
      rw [hc, if_pos rfl, take_of_length_le hof.fits]
      unfold PipeServer.readChunk
      rw [he, if_neg (by decide), getD_buffer hB hj]
      exact ⟨_, htook _ rfl (buffer_setBuffer_self _ _ _ _)
        (fun _ _ hne => buffer_setBuffer_of_ne hne _) h.nodup (hdone hm)⟩
    | last hof hc he hj hall =>
      have hdel := h.delivery (hm ▸ hof)
      rw [hc, if_pos rfl, take_of_length_le hof.fits]
      unfold PipeServer.readChunk
      rw [he, if_pos rfl, getD_buffer hB hj, hall, Nat.mod_eq_of_lt hof.short]
      unfold PipeServer.deliver
      rw [take_length]
      exact ⟨_, htook _ rfl (buffer_setBuffer_self _ _ _ _)
        (fun _ _ hne => buffer_setBuffer_of_ne hne _) hdel.1 hdel.2⟩

end

/-! ## runs -/

def Clean (c : PipeConfig) : PipeOp → PipeServer → Prop
  | .result w .ok, s => ∀ snd ∈ s.workers w, snd.direct = false → snd.info.isBegin = true →
      unfinished (s.flight w snd.pipe) (s.buffer c w snd.pipe).isSome = false
  | .result w .enobufs, s => ∀ snd ∈ s.workers w, snd.NotEarly
  | _, _ => True

instance (c : PipeConfig) : (op : PipeOp) → (s : PipeServer) → Decidable (Clean c op s)
  | .result w .ok, s => inferInstanceAs (Decidable (∀ snd ∈ s.workers w, _))
  | .result w .enobufs, s =>
    inferInstanceAs (Decidable (∀ snd ∈ s.workers w, snd.direct = false → _ → _ → _))
  | .result _ .failed, _ | .finish .., _ | .flush .., _ | .die _, _ | .control .., _ | .read _, _ =>
      .isTrue trivial

lemma Good.step {c : PipeConfig} (op : PipeOp) (s : PipeServer) (hc : Clean c op s)
    (h : ∃ n, s.Good c n) : ∃ n, (step c op s).Good c n := by
  obtain ⟨n, h⟩ := h
  cases op with
  | finish w session reactorId payload => exact ⟨n, h.finish w session reactorId payload⟩
  | flush w p => exact ⟨n, h.flush w p⟩
  | die w => exact ⟨n, h.die w⟩
  | control w session reactorId type => exact ⟨n, h.control _ rfl rfl rfl⟩
  | read p => exact h.read p
  | result w r =>
    refine ⟨n, ?_⟩
    cases hw : s.workers w with
    | none =>
      have : s.result w r = s := by
        unfold PipeServer.result
        rw [hw]
      show (s.result w r).Good c n
      rw [this]
      exact h
    | some snd =>
      cases r with
      | ok => exact h.accepted hw (hc snd hw)
      | enobufs => exact h.refused hw nofun fun _ => hc snd hw
      | failed => exact h.refused hw nofun nofun

end PipeServer

end OSW
