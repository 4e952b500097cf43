import OpenSwoole.Server.Reassembly

/-!
# What a worker makes of the datagrams of `process_send_packet`

A successful send leaves behind the datagrams of a chunked message, unless the loop has set `END` for
a chunk, the send of that chunk has failed with `ENOBUFS`, and the rest does not fit into one of
the smaller chunks: then `END` goes out with the first of them already.

* `CutShort`   a chunk with `END` that is followed by another chunk of the message.
-/

namespace OSW
open Machine List Option

section
variable {results : Nat → SendRes} {fuel i maxLength cap : Nat} {info : DataHead} {data : Bytes}
  {ds : List Datagram}

lemma ipcBufferSize_eq : ipcBufferSize = 8152 := rfl
lemma bufferSizeStd_eq : bufferSizeStd = 8192 := rfl

lemma sendChunks_total (hM : 0 < maxLength)
    (hfuel : data.length + (if bufferSizeStd < maxLength then 1 else 0) < fuel) :
    ∃ r, sendChunks results fuel i maxLength info data = some r := by
  induction fuel generalizing i maxLength info data with
  | zero => exact absurd hfuel (Nat.not_lt_zero _)
  | succ fuel ih =>
    rcases Nat.eq_zero_or_pos data.length with h0 | hpos
    · rw [length_eq_zero_iff.1 h0]
      exact ⟨_, rfl⟩
    cases hr : results i with
    | failed => exact ⟨_, sendChunks_failed fuel hr hpos⟩
    | enobufs =>
      rw [sendChunks_enobufs fuel hr hpos]
      split
      · rename_i hlarge
        rw [if_pos hlarge] at hfuel
        exact ih (by decide) (by rw [if_neg (by decide)]; omega)
      · exact ⟨_, rfl⟩
    | ok =>
      by_cases hlast : data.length ≤ maxLength
      · obtain ⟨fuel, rfl⟩ : ∃ k, fuel = k + 1 := ⟨fuel - 1, by omega⟩
        exact ⟨_, sendChunks_ok_last fuel hr hpos hlast⟩
      · rw [sendChunks_ok_more fuel hr (by omega)]
        obtain ⟨r, he⟩ : ∃ r, sendChunks results fuel (i + 1) maxLength
            { info with isBegin := false } (data.drop maxLength) = some r :=
          ih hM (by rw [length_drop]; omega)
        rw [he]
        exact ⟨_, rfl⟩

/-- the datagrams are those of a message with this header, in chunks of at most `cap` bytes -/
def SentAs (info : DataHead) (cap : Nat) (data : Bytes) (ds : List Datagram) : Prop :=
  ∃ cs : List Bytes, cs ≠ [] ∧ (∀ c ∈ cs, c.length ≤ cap) ∧ cs.flatten = data ∧
    ds = chunkDatagrams info.msgId info.len info.isBegin cs

lemma SentAs.last (hc : info.isChunk = true) (h : data.length ≤ cap) :
    SentAs info cap data [⟨{ info with isEnd := true }, data⟩] := by
  refine ⟨[data], cons_ne_nil _ _, ?_, ?_, ?_⟩
  · intro c hmem
    rw [mem_singleton.1 hmem]
    exact h
  · rw [flatten_cons, flatten_nil, append_nil]
  · obtain ⟨id, len, _, _, _⟩ := info
    cases hc
    rfl

lemma SentAs.mono {cap' : Nat} (h : SentAs info cap data ds) (hle : cap ≤ cap') :
    SentAs info cap' data ds := by
  obtain ⟨cs, hne, hfit, hcs⟩ := h
  exact ⟨cs, hne, fun c hc => le_trans (hfit c hc) hle, hcs⟩

lemma SentAs.of_length (h : SentAs info cap data ds) : SentAs info data.length data ds := by
  obtain ⟨cs, hne, hfit, rfl, hcs⟩ := h
  exact ⟨cs, hne, fun c hc => (sublist_flatten_of_mem hc).length_le, rfl, hcs⟩

lemma SentAs.more {c rest : Bytes} (hc : info.isChunk = true) (he : info.isEnd = false)
    (hcap : c.length ≤ cap) (h : SentAs { info with isBegin := false } cap rest ds) :
    SentAs info cap (c ++ rest) (⟨info, c⟩ :: ds) := by
  obtain ⟨cs, hne, hfit, rfl, rfl⟩ := h
  refine ⟨c :: cs, cons_ne_nil _ _, ?_, rfl, ?_⟩
  · intro x hx
    rcases mem_cons.1 hx with rfl | hx
    · exact hcap
    · exact hfit x hx
  · obtain ⟨id, len, _, _, _⟩ := info
    obtain ⟨c', cs, rfl⟩ := exists_cons_of_ne_nil hne
    cases hc
    cases he
    rfl

lemma sendChunks_cases (hpos : 0 < data.length)
    (h : sendChunks results (fuel + 1) i maxLength info data = some (true, ds)) :
    (results i = .ok ∧ data.length ≤ maxLength ∧ ds = [⟨{ info with isEnd := true }, data⟩]) ∨
    (results i = .ok ∧ maxLength < data.length ∧
      ∃ rest, sendChunks results fuel (i + 1) maxLength { info with isBegin := false }
          (data.drop maxLength) = some (true, rest) ∧ ds = ⟨info, data.take maxLength⟩ :: rest) ∨
    (results i = .enobufs ∧ bufferSizeStd < maxLength ∧ sendChunks results fuel (i + 1) ipcBufferSize
        { info with isEnd := info.isEnd || decide (data.length ≤ maxLength) } data = some (true, ds)) := by
  cases hr : results i with
  | failed =>
    rw [sendChunks_failed fuel hr hpos] at h
    cases h
  | enobufs =>
    rw [sendChunks_enobufs fuel hr hpos] at h
    split at h
    · exact .inr (.inr ⟨rfl, ‹_›, h⟩)
    · cases h
  | ok =>
    by_cases hlast : data.length ≤ maxLength
    · left
      cases fuel with
      | zero =>
        rw [sendChunks, if_pos hpos, hr] at h
        cases h
      | succ fuel =>
        rw [sendChunks_ok_last fuel hr hpos hlast] at h
        cases h
        exact ⟨rfl, hlast, rfl⟩
    · right
      left
      rw [sendChunks_ok_more fuel hr (by omega)] at h
      obtain ⟨⟨ok, rest⟩, he, hds⟩ := map_eq_some_iff.1 h
      cases hds
      exact ⟨rfl, by omega, rest, he, rfl⟩

section
variable (h : sendChunks results fuel i maxLength info data = some (true, ds))
  (hsmall : maxLength ≤ bufferSizeStd) (hpos : 0 < data.length)
include h hsmall hpos

lemma sendChunks_small (hc : info.isChunk = true) (hend : info.isEnd = false ∨ data.length ≤ maxLength) :
    SentAs info maxLength data ds := by
  induction fuel generalizing i info data ds with
  | zero => cases h
  | succ fuel ih =>
    obtain ⟨-, hlast, rfl⟩ | ⟨-, hmore, rest, hrest, rfl⟩ | ⟨-, hlarge, -⟩ := sendChunks_cases hpos h
    · exact SentAs.last hc hlast
    · have he : info.isEnd = false := hend.resolve_right (by omega)
      have hdrop := length_drop (i := maxLength) (l := data)
      have hmsg : SentAs { info with isBegin := false } maxLength (data.drop maxLength) rest :=
        ih hrest (by omega) hc (.inl he)
      have := SentAs.more (c := data.take maxLength) hc he (by rw [length_take]; omega) hmsg
      rwa [take_append_drop] at this
    · omega

lemma sendChunks_head :
    ∃ d rest, ds = d :: rest ∧ d.info.msgId = info.msgId ∧ d.info.isChunk = info.isChunk ∧
      d.info.isBegin = info.isBegin := by
  cases fuel with
  | zero => cases h
  | succ fuel =>
    obtain ⟨-, -, rfl⟩ | ⟨-, -, rest, -, rfl⟩ | ⟨-, hlarge, -⟩ := sendChunks_cases hpos h
    · exact ⟨_, [], rfl, rfl, rfl, rfl⟩
    · exact ⟨_, rest, rfl, rfl, rfl, rfl⟩
    · omega

end

def CutShort (msgId : Nat) (ds : List Datagram) : Prop :=
  ∃ pre d d' post, ds = pre ++ d :: d' :: post ∧ (d.info.msgId = msgId ∧ d.info.isEnd = true) ∧
    d'.info.msgId = msgId ∧ d'.info.isChunk = true ∧ d'.info.isBegin = false

lemma CutShort.cons {msgId : Nat} (d : Datagram) (h : CutShort msgId ds) : CutShort msgId (d :: ds) := by
  obtain ⟨pre, d1, d2, post, rfl, hd⟩ := h
  exact ⟨d :: pre, d1, d2, post, rfl, hd⟩

lemma sendChunks_cutShort (h : sendChunks results fuel i maxLength info data = some (true, ds))
    (hsmall : maxLength ≤ bufferSizeStd) (hmore : maxLength < data.length)
    (hc : info.isChunk = true) (hend : info.isEnd = true) :
    CutShort info.msgId ds := by
  cases fuel with
  | zero => cases h
  | succ fuel =>
    obtain ⟨-, hlast, -⟩ | ⟨-, -, rest, hrest, rfl⟩ | ⟨-, hlarge, -⟩ := sendChunks_cases (by omega) h
    · omega
    · obtain ⟨d, post, rfl, hid, hchunk, hbegin⟩ :=
        sendChunks_head hrest hsmall (by rw [length_drop]; omega)
      exact ⟨[], _, d, post, rfl, ⟨rfl, hend⟩, hid, hchunk.trans hc, hbegin⟩
    · omega

/-- attempt `i + q` is the first that fails, with `ENOBUFS`, for the last of the chunks, larger than a small one
-/
def EndedEarly (results : Nat → SendRes) (maxLength i l : Nat) : Prop :=
  ∃ q, (∀ j < q, results (i + j) = .ok) ∧ results (i + q) = .enobufs ∧
    q * maxLength < l ∧ l ≤ (q + 1) * maxLength ∧ ipcBufferSize < l - q * maxLength

lemma endedEarly_ok_last {l : Nat} (hr : results i = .ok) (h : l ≤ maxLength) :
    ¬ EndedEarly results maxLength i l := by
  rintro ⟨q, -, hq, hlt, -⟩
  cases q with
  | zero =>
    rw [add_zero, hr] at hq
    cases hq
  | succ q =>
    rw [Nat.succ_mul] at hlt
    omega

lemma endedEarly_ok_more {l : Nat} (hr : results i = .ok) (h : maxLength < l) :
    EndedEarly results maxLength i l ↔ EndedEarly results maxLength (i + 1) (l - maxLength) := by
  constructor
  · rintro ⟨q, hok, hq, hlt, hle, hbig⟩
    cases q with
    | zero =>
      rw [add_zero, hr] at hq
      cases hq
    | succ q =>
      refine ⟨q, fun j hj => ?_, ?_, ?_⟩
      · rw [add_assoc, add_comm 1]
        exact hok (j + 1) (by omega)
      · rw [add_assoc, add_comm 1]
        exact hq
      · simp only [Nat.succ_mul] at hlt hle hbig ⊢
        omega
  · rintro ⟨q, hok, hq, hlt, hle, hbig⟩
    refine ⟨q + 1, fun j hj => ?_, ?_, ?_⟩
    · cases j with
      | zero => exact hr
      | succ j =>
        rw [add_comm j, ← add_assoc]
        exact hok j (by omega)
    · rw [add_comm q, ← add_assoc]
      exact hq
    · simp only [Nat.succ_mul] at hlt hle hbig ⊢
      omega

lemma endedEarly_enobufs {l : Nat} (hr : results i = .enobufs) (hpos : 0 < l) :
    EndedEarly results maxLength i l ↔ l ≤ maxLength ∧ ipcBufferSize < l := by
  constructor
  · rintro ⟨q, hok, -, -, hle, hbig⟩
    cases q with
    | zero =>
      rw [Nat.zero_mul, Nat.sub_zero] at hbig
      exact ⟨by omega, hbig⟩
    | succ q =>
      have := hok 0 (by omega)
      rw [add_zero, hr] at this
      cases this
  · rintro ⟨hle, hbig⟩
    refine ⟨0, fun j hj => absurd hj (Nat.not_lt_zero j), hr, ?_, ?_, ?_⟩ <;> omega

/-- **Large chunks**: a success has sent the message as it should be, or has cut it short. -/
theorem sendChunks_large (h : sendChunks results fuel i maxLength info data = some (true, ds))
    (hlarge : bufferSizeStd < maxLength) (hpos : 0 < data.length)
    (hc : info.isChunk = true) (hend : info.isEnd = false) :
    (EndedEarly results maxLength i data.length ∧ CutShort info.msgId ds) ∨
      (¬ EndedEarly results maxLength i data.length ∧ SentAs info maxLength data ds) := by
  have h8 := ipcBufferSize_eq
  have h9 := bufferSizeStd_eq
  induction fuel generalizing i info data ds with
  | zero => cases h
  | succ fuel ih =>
    obtain ⟨hr, hlast, rfl⟩ | ⟨hr, hmore, rest, hrest, rfl⟩ | ⟨hr, -, hsmall⟩ := sendChunks_cases hpos h
    · exact .inr ⟨endedEarly_ok_last hr hlast, SentAs.last hc hlast⟩
    · have hdrop := length_drop (i := maxLength) (l := data)
      rw [endedEarly_ok_more hr hmore, ← hdrop]
      refine (ih hrest (by omega) hc hend).imp ?_ ?_
      · exact fun hcut => ⟨hcut.1, hcut.2.cons _⟩
      · intro hsent
        have := SentAs.more (c := data.take maxLength) hc hend (by rw [length_take]; omega) hsent.2
        rw [take_append_drop] at this
        exact ⟨hsent.1, this⟩
    · rw [endedEarly_enobufs hr hpos]
      by_cases hcut : data.length ≤ maxLength ∧ ipcBufferSize < data.length
      · have hshort := sendChunks_cutShort hsmall (by omega) hcut.2 hc (by simp [hcut.1])
        exact .inl ⟨hcut, hshort⟩
      · have hend' : (info.isEnd || decide (data.length ≤ maxLength)) = false ∨
            data.length ≤ ipcBufferSize := by
          by_cases hle : data.length ≤ maxLength
          · exact .inr (not_lt.mp fun hgt => hcut ⟨hle, hgt⟩)
          · exact .inl (by rw [hend, decide_eq_false hle]; rfl)
        have hsent := sendChunks_small hsmall (by omega) hpos hc hend'
        exact .inr ⟨hcut, hsent.mono (by omega)⟩

end

/-! ## what the worker makes of it -/

/-- a worker without a buffer for the message reads the pipe empty and hands on `payload`, once, and nothing else
-/
def Delivers (ipcMax msgId : Nat) (ds : List Datagram) (payload : Bytes) : Prop :=
  ∀ w : Worker, w.buffers msgId = none → ∀ calls, arrivals calls = ds → ∀ n, ds.length ≤ n →
    (servePipe ipcMax (calls ++ replicate n .quiet) ⟨w, []⟩).queue = [] ∧
    (servePipe ipcMax (calls ++ replicate n .quiet) ⟨w, []⟩).worker.delivered =
      w.delivered ++ [(msgId, payload)]

/-- `BEGIN` on the first chunk only, `END` on the last only -/
def FlagsRight (ds : List Datagram) : Prop :=
  ∀ pre d post, ds = pre ++ d :: post → d.info.isChunk = true →
    (d.info.isBegin = true ↔ pre = []) ∧ (d.info.isEnd = true ↔ post = [])

/-- the inputs for which a success is reported and the payload is lost -/
def SendLost (ipcMax : Nat) (results : Nat → SendRes) (data : Bytes) : Prop :=
  (data = [] ∧ results 0 = .enobufs) ∨
  (ipcMax - dataHeadSize < data.length ∧ bufferSizeStd < ipcMax - dataHeadSize ∧
    EndedEarly results (ipcMax - dataHeadSize) 0 data.length)

section
variable {ipcMax msgId : Nat} {data : Bytes} {ds : List Datagram}

lemma delivers_of_iter
    (h : ∀ w : Worker, w.buffers msgId = none → ∃ v, iter (Worker.receive ipcMax) ds w = some v ∧
      v.delivered = w.delivered ++ [(msgId, data)]) : Delivers ipcMax msgId ds data := by
  intro w hw calls hcalls n hn
  obtain ⟨v, hv, hd⟩ := h w hw
  rw [← hcalls] at hv hn
  rw [servePipe_drain (p := ⟨w, []⟩) calls hv hn]
  exact ⟨rfl, hd⟩

lemma flagsRight_chunkDatagrams {len : Nat} (isBegin : Bool) (cs : List Bytes) {pre post : List Datagram}
    {d : Datagram} (h : chunkDatagrams msgId len isBegin cs = pre ++ d :: post) :
    (d.info.isBegin = true ↔ isBegin = true ∧ pre = []) ∧ (d.info.isEnd = true ↔ post = []) := by
  induction cs generalizing isBegin pre with
  | nil => cases pre <;> cases h
  | cons c cs ih =>
    cases cs with
    | nil =>
      cases pre with
      | nil =>
        cases h
        simp
      | cons d' pre => cases pre <;> cases h
    | cons c' cs =>
      cases pre with
      | nil =>
        obtain ⟨rfl, rfl⟩ := cons.inj h
        cases cs <;> simp [chunkDatagrams]
      | cons d' pre =>
        have := ih false (cons.inj h).2
        simpa using this

/-- **A message that was sent as it should be is delivered.** -/
theorem SentAs.delivers (h : SentAs (chunkHead msgId data.length) (ipcMax - dataHeadSize) data ds)
    (hlen : data.length < 2^32) : Delivers ipcMax msgId ds data ∧ FlagsRight ds := by
  obtain ⟨cs, hne, hfit, rfl, rfl⟩ := h
  constructor
  · apply delivers_of_iter
    intro w hw
    obtain ⟨writes, hrun, -⟩ :=
      (ChunkedMessage.mk msgId cs hne hfit hlen : ChunkedMessage ipcMax).iter_receive hw
    exact ⟨_, hrun, rfl⟩
  · intro pre d post hds _
    have := flagsRight_chunkDatagrams true cs hds
    simpa using this

lemma CutShort.iter_receive (h : CutShort msgId ds) (w : Worker) :
    iter (Worker.receive ipcMax) ds w = none := by
  obtain ⟨pre, d, d', post, rfl, ⟨hid, hend⟩, hid', hchunk, hbegin⟩ := h
  rw [iter_append]
  cases iter (Worker.receive ipcMax) pre w with
  | none => rfl
  | some w1 =>
    show (w1.receive ipcMax d).bind _ = none
    cases hr : w1.receive ipcMax d with
    | none => rfl
    | some w2 =>
      -- `END` has freed the buffer
      have hknown : w2.known msgId = false := by
        rw [receive_known hr, knownAfter, if_pos hend, hid, Function.update_self]
      have hnone : w2.receive ipcMax d' = none := by
        rw [← isSome_eq_false_iff.trans isNone_iff_eq_none, receive_isSome, hchunk, hbegin, hid', hknown]
        rfl
      show (w2.receive ipcMax d').bind _ = none
      rw [hnone]
      rfl

lemma arrivals_at_once (ds : List Datagram) (n : Nat) :
    arrivals ([⟨ds, fun _ => none⟩] ++ replicate n .quiet) = ds := by
  unfold arrivals
  rw [flatMap_append, flatMap_eq_nil_iff.2 (calls_quiet _)]
  simp

/-- **A message that was cut short leaves an orphan behind**, and the pipe is never read empty. -/
theorem CutShort.not_delivers (h : CutShort msgId ds) : ¬ Delivers ipcMax msgId ds data := by
  intro hdel
  obtain ⟨hq, -⟩ := hdel .fresh rfl [⟨ds, fun _ => none⟩] (append_nil ds) ds.length le_rfl
  have hs := servePipe_iter ipcMax ([⟨ds, fun _ => none⟩] ++ replicate ds.length .quiet) ⟨.fresh, []⟩ []
  rw [hq, arrivals_at_once, append_nil, append_nil, nil_append, h.iter_receive] at hs
  cases hs

lemma delivers_direct (h : data.length ≤ ipcMax - dataHeadSize) :
    Delivers ipcMax msgId [⟨⟨msgId, data.length, false, false, false⟩, data⟩] data ∧
      FlagsRight [⟨⟨msgId, data.length, false, false, false⟩, data⟩] := by
  constructor
  · apply delivers_of_iter
    intro w _
    refine ⟨_, rfl, ?_⟩
    simp [Worker.acceptTask, take_of_length_le h]
  · intro pre d post hds hchunk
    cases pre with
    | nil =>
      cases hds
      cases hchunk
    | cons d' pre => cases pre <;> cases hds

lemma not_delivers_nil : ¬ Delivers ipcMax msgId [] data := by
  intro hdel
  obtain ⟨-, hd⟩ := hdel .fresh rfl [] rfl 0 le_rfl
  cases hd

end

section
variable {ipcMax : Nat} {results : Nat → SendRes} {data : Bytes}

lemma sendLost_fit (h : data.length ≤ ipcMax - dataHeadSize) :
    SendLost ipcMax results data ↔ data = [] ∧ results 0 = .enobufs := by
  constructor
  · rintro (h0 | ⟨hlt, -⟩)
    · exact h0
    · omega
  · exact .inl

lemma sendLost_more (h : ipcMax - dataHeadSize < data.length) :
    SendLost ipcMax results data ↔ bufferSizeStd < ipcMax - dataHeadSize ∧
      EndedEarly results (ipcMax - dataHeadSize) 0 data.length := by
  constructor
  · rintro (⟨rfl, -⟩ | ⟨-, hlost⟩)
    · exact absurd h (Nat.not_lt_zero _)
    · exact hlost
  · exact fun hlost => .inr ⟨h, hlost⟩

lemma processSendPacket_fit (msgId : Nat) (hlen : data.length < 2^32)
    (hfit : data.length ≤ ipcMax - dataHeadSize) :
    ∃ ok ds, processSendPacket ipcMax msgId results data = some (ok, ds) ∧
      (ok = true → ((Delivers ipcMax msgId ds data ∧ FlagsRight ds) ↔ ¬ SendLost ipcMax results data)) := by
  unfold processSendPacket
  rw [if_pos hfit]
  simp only [sendLost_fit hfit]
  cases results 0 with
  | ok => exact ⟨true, _, rfl, fun _ => iff_of_true (delivers_direct hfit) fun h => nomatch h.2⟩
  | failed => exact ⟨false, [], rfl, nofun⟩
  | enobufs =>
    rcases Nat.eq_zero_or_pos data.length with h0 | hpos
    · obtain rfl := length_eq_zero_iff.1 h0
      exact ⟨true, [], rfl, fun _ => iff_of_false (fun h => not_delivers_nil h.1) fun h => h ⟨rfl, rfl⟩⟩
    · obtain ⟨⟨ok, ds⟩, hrun⟩ : ∃ r, sendChunks results (data.length + 3) 1 ipcBufferSize
          (chunkHead msgId data.length) data = some r :=
        sendChunks_total (by decide) (by rw [if_neg (by decide)]; omega)
      refine ⟨ok, ds, hrun, fun hok => iff_of_true ?_ fun h => ?_⟩
      · subst hok
        have hsent := sendChunks_small hrun (by decide) hpos rfl (.inl rfl)
        exact (hsent.of_length.mono hfit).delivers hlen
      · rw [h.1] at hpos
        exact absurd hpos (Nat.not_lt_zero _)

lemma processSendPacket_more (msgId : Nat) (hipc : dataHeadSize < ipcMax)
    (hlen : data.length < 2^32) (hmore : ipcMax - dataHeadSize < data.length) :
    ∃ ok ds, processSendPacket ipcMax msgId results data = some (ok, ds) ∧
      (ok = true → ((Delivers ipcMax msgId ds data ∧ FlagsRight ds) ↔ ¬ SendLost ipcMax results data)) := by
  have hpos : 0 < data.length := by omega
  obtain ⟨⟨ok, ds⟩, hrun⟩ : ∃ r, sendChunks results (data.length + 3) 0 (ipcMax - dataHeadSize)
      (chunkHead msgId data.length) data = some r :=
    sendChunks_total (by omega) (by split <;> omega)
  refine ⟨ok, ds, ?_, fun hok => ?_⟩
  · unfold processSendPacket
    rw [if_neg (by omega)]
    exact hrun
  subst hok
  rw [sendLost_more hmore]
  by_cases hlarge : bufferSizeStd < ipcMax - dataHeadSize
  · obtain ⟨hearly, hcut⟩ | ⟨hearly, hsent⟩ := sendChunks_large hrun hlarge hpos rfl rfl
    · exact iff_of_false (fun h => hcut.not_delivers h.1) fun h => h ⟨hlarge, hearly⟩
    · exact iff_of_true (hsent.delivers hlen) fun h => hearly h.2
  · have hsent := sendChunks_small hrun (by omega) hpos rfl (.inl rfl)
    exact iff_of_true (hsent.delivers hlen) fun h => hlarge h.1

end

/-- **Master-to-worker messages survive chunking, except for the inputs of `SendLost`.** -/
theorem processSendPacket_delivers_iff {ipcMax : Nat} (msgId : Nat) (results : Nat → SendRes)
    {data : Bytes} (hipc : dataHeadSize < ipcMax) (hlen : data.length < 2^32) :
    ∃ ok ds, processSendPacket ipcMax msgId results data = some (ok, ds) ∧
      (ok = true → ((Delivers ipcMax msgId ds data ∧ FlagsRight ds) ↔ ¬ SendLost ipcMax results data)) := by
  rcases lt_or_ge (ipcMax - dataHeadSize) data.length with hmore | hfit
  · exact processSendPacket_more msgId hipc hlen hmore
  · exact processSendPacket_fit msgId hlen hfit

/-- three bytes in two chunks -/
theorem processSendPacket_delivers_iff_three : dataHeadSize < 42 ∧ ([1, 2, 3] : Bytes).length < 2^32 ∧
    ∃ ok ds, processSendPacket 42 7 (fun _ => .ok) [1, 2, 3] = some (ok, ds) ∧
      (ok = true → ((Delivers 42 7 ds [1, 2, 3] ∧ FlagsRight ds) ↔
        ¬ SendLost 42 (fun _ => .ok) [1, 2, 3])) :=
  ⟨by decide, by decide, processSendPacket_delivers_iff 7 (fun _ => .ok) (by decide) (by decide)⟩

/-- success is reported for an empty payload that was not sent, and for a chunk that has `END` and is not the
last -/
theorem processSendPacket_lost : (processSendPacket 212960 7 (fun _ => .enobufs) [] = some (true, []) ∧
      ¬ Delivers 212960 7 [] []) ∧
    ∃ ds, processSendPacket 212960 7 (fun i => if i = 1 then .enobufs else .ok)
        (replicate 221073 0) = some (true, ds) ∧
      ¬ Delivers 212960 7 ds (replicate 221073 0) := by
  refine ⟨⟨rfl, not_delivers_nil⟩, ?_⟩
  have hlen (n : Nat) : (replicate n (0 : UInt8)).length = n := length_replicate
  refine ⟨[⟨⟨7, 221073, true, true, false⟩, replicate 212920 0⟩,
    ⟨⟨7, 221073, true, false, true⟩, replicate 8152 0⟩,
    ⟨⟨7, 221073, true, false, true⟩, replicate 1 0⟩], ?_, ?_⟩
  · unfold processSendPacket
    simp only [hlen]
    rw [if_neg (by decide), sendChunks_ok_more 221075 rfl (by rw [hlen]; decide), drop_replicate,
      sendChunks_enobufs 221074 rfl (by rw [hlen]; decide),
      sendChunks_ok_more 221073 rfl (by rw [hlen]; decide), drop_replicate]
    simp only [take_replicate, hlen]
    rfl
  · apply CutShort.not_delivers
    exact ⟨[_], _, _, [], rfl, ⟨rfl, rfl⟩, rfl, rfl, rfl⟩

/-! ## several sends at the same time -/

section
variable {ipcMax k : Nat} {ds : List Datagram} {data : Bytes} {w : Worker}

lemma Delivers.iter (h : Delivers ipcMax k ds data) (hw : w.buffers k = none) :
    ∃ v, Machine.iter (Worker.receive ipcMax) ds w = some v ∧ v.delivered = w.delivered ++ [(k, data)] := by
  obtain ⟨hq, hd⟩ := h w hw [⟨ds, fun _ => none⟩] (append_nil ds) ds.length le_rfl
  have hs := servePipe_iter ipcMax ([⟨ds, fun _ => none⟩] ++ replicate ds.length .quiet) ⟨w, []⟩ []
  rw [hq, arrivals_at_once, append_nil, append_nil, nil_append] at hs
  exact ⟨_, hs.symm, hd⟩

/-- the datagrams of a successful send that loses nothing; none without a message -/
def SentBy (ipcMax k : Nat) (results : Nat → SendRes) (ds : List Datagram) : Option Bytes → Prop
  | none => ds = []
  | some data => data.length < 2^32 ∧ ¬ SendLost ipcMax results data ∧
      processSendPacket ipcMax k results data = some (true, ds)

lemma SentBy.iter {results : Nat → SendRes} {msg : Option Bytes} (hipc : dataHeadSize < ipcMax)
    (h : SentBy ipcMax k results ds msg) (hw : msg.isSome → w.buffers k = none) :
    ∃ v, Machine.iter (Worker.receive ipcMax) ds w = some v ∧
      v.delivered = w.delivered ++ msg.toList.map ((k, ·)) := by
  cases msg with
  | none =>
    cases h
    exact ⟨w, rfl, (append_nil _).symm⟩
  | some data =>
    obtain ⟨hlen, hlost, hsend⟩ := h
    have hdel : Delivers ipcMax k ds data := by
      rcases lt_or_ge (ipcMax - dataHeadSize) data.length with hmore | hfit
      · obtain ⟨_, _, he, hd⟩ := processSendPacket_more k hipc hlen hmore
        cases hsend.symm.trans he
        exact ((hd rfl).2 hlost).1
      · obtain ⟨_, _, he, hd⟩ := processSendPacket_fit k hlen hfit
        cases hsend.symm.trans he
        exact ((hd rfl).2 hlost).1
    exact hdel.iter (hw rfl)

/-- **Messages sent at the same time arrive, each once**, whatever the order of their datagrams in the pipe. -/
theorem processSendPacket_interleaved {msgs : Nat → Option Bytes} (results : Nat → Nat → SendRes)
    {calls : List PipeCall} (hipc : dataHeadSize < ipcMax)
    (hsent : ∀ k, SentBy ipcMax k (results k) (Keyed.own (·.info.msgId) k (arrivals calls)) (msgs k))
    (hw : ∀ k, (msgs k).isSome → w.buffers k = none) {n : Nat} (hn : (arrivals calls).length ≤ n) :
    ∃ v, servePipe ipcMax (calls ++ replicate n .quiet) ⟨w, []⟩ = ⟨v, []⟩ ∧
      ∀ k, v.delivered.filter (fun x => x.1 = k) =
        w.delivered.filter (fun x => x.1 = k) ++ (msgs k).toList.map ((k, ·)) := by
  have hown (k : Nat) := (hsent k).iter (w := w.restrict k) hipc fun hm => by
    simpa [Worker.restrict] using hw k hm
  choose t hrun hdel using hown
  obtain ⟨v, hv, hproj⟩ := Keyed.iter_of_proj (receive_local ipcMax) (arrivals calls) hrun
  refine ⟨v, servePipe_drain (p := ⟨w, []⟩) calls hv hn, fun k => ?_⟩
  have := hdel k
  rwa [← hproj] at this

end

/-- two messages of three bytes, the second between the chunks of the first -/
theorem processSendPacket_interleaved_two :
    ∃ v, servePipe 42 ([⟨[⟨⟨1, 3, true, true, false⟩, [8, 9]⟩, ⟨⟨0, 3, true, true, false⟩, [8, 9]⟩,
        ⟨⟨0, 3, true, false, true⟩, [7]⟩, ⟨⟨1, 3, true, false, true⟩, [7]⟩], fun _ => none⟩] ++
          replicate 4 .quiet) ⟨.fresh, []⟩ = ⟨v, []⟩ ∧
      ∀ k, v.delivered.filter (fun x => x.1 = k) =
        (if k < 2 then some [8, 9, 7] else none : Option Bytes).toList.map ((k, ·)) := by
  refine processSendPacket_interleaved (fun _ _ => .ok) (by decide) (fun k => ?_) (fun _ _ => rfl)
    (le_refl 4)
  match k with
  | 0 | 1 => exact ⟨by decide, by simp [SendLost, dataHeadSize, bufferSizeStd], rfl⟩
  | k + 2 => exact Keyed.own_eq_nil (by simp [arrivals])

end OSW
