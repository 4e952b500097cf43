import Mathlib.Data.List.Nodup
import OpenSwoole.Lib.Machine
import OpenSwoole.Lib.PartialMap

/-!
# Suspended sends

`php_openswoole_server_send_yield` of `ext-src/openswoole_server.cc`, with the handlers of `BUFFER_EMPTY` and of
the close event that wake what it has suspended, for one session and the worker that it belongs to.  A send is
refused while the flag `overflow` of the connection is set; the coroutine then enters itself in the list of
the session and is suspended.  A handler takes the list out of `send_coroutine_map` and resumes all that it
holds; a resumed coroutine sends again at once, and when refused enters itself again in the list it has.

In BASE mode the worker itself sends; in process mode the reactor thread may change the connection while a
handler runs.  The field `stale` records whether a handler has resumed a coroutine that was not suspended
there.

* `SendConn.send`   `Server::send` for the connection, in both modes, and `Refuses`, when it says no;
* `YieldRun.step`   a coroutine sends or gives up, a handler starts or goes on;
* `YieldRun.Woken`   the invariant: the lists hold the suspended coroutines, and that of a handler is not in
    the map.
-/

namespace OSW
open Function PartialMap List Option Machine

/-- `base` is BASE mode -/
structure SendCfg where
  base : Bool
  bufferSize : Nat
  outputBufferSize : Nat

/-- `closed` is set when the close handler has ended; `buffered` is the length of `out_buffer` -/
structure SendConn where
  active : Bool
  peerClosed : Bool
  closed : Bool
  overflow : Bool
  buffered : Nat
  deriving DecidableEq

/-- `refused` is false with `OSW_ERROR_OUTPUT_SEND_YIELD`, `failed` false with another error -/
inductive SendVerdict where
  | ok
  | refused
  | failed
  deriving DecidableEq

namespace SendConn

/-- `Server::send_to_connection` in BASE mode; the kernel takes `n` bytes where the buffer is empty -/
def sendToConnection (c : SendCfg) (conn : SendConn) (len n : Nat) : SendVerdict × SendConn :=
  if conn.active = false then (.failed, conn)
  else if conn.overflow then (.refused, conn)
  else if conn.buffered = 0 ∧ n = len then (.ok, conn)
  -- `return false`, which is `OSW_OK`
  else if conn.peerClosed then (.ok, conn)
  else (.ok, { conn with
    overflow := decide (c.bufferSize ≤ conn.buffered)
    buffered := conn.buffered + (len - if conn.buffered = 0 then n else 0) })

/-- `ProcessFactory::finish`; the reactor thread gets the data -/
def finish (c : SendCfg) (conn : SendConn) (len : Nat) : SendVerdict :=
  if len > c.outputBufferSize then .failed
  else if conn.active = false then .failed
  else if conn.closed ∨ conn.peerClosed then .failed
  else if conn.overflow then .refused
  else .ok

def send (c : SendCfg) (conn : SendConn) (len n : Nat) : SendVerdict × SendConn :=
  if c.base then conn.sendToConnection c len n else (conn.finish c len, conn)

/-- the flag `overflow` is found; in process mode the checks in front of it pass -/
def Refuses (c : SendCfg) (conn : SendConn) (len : Nat) : Prop :=
  conn.active = true ∧ conn.overflow = true ∧
    (c.base = true ∨ (len ≤ c.outputBufferSize ∧ conn.closed = false ∧ conn.peerClosed = false))

instance (c : SendCfg) (conn : SendConn) (len : Nat) : Decidable (conn.Refuses c len) :=
  inferInstanceAs (Decidable (_ ∧ _))

lemma refuses_of_send {c : SendCfg} {conn : SendConn} {len n : Nat} (h : (conn.send c len n).1 = .refused) :
    conn.Refuses c len := by
  unfold send sendToConnection finish at h
  unfold Refuses
  split at h <;> repeat' split at h
  all_goals simp_all

end SendConn

/-- a handler under way: the list that it empties, and whether it is the one of the close event -/
structure Drain where
  list : Option Nat
  close : Bool
  deriving DecidableEq

structure YieldRun where
  conn : SendConn
  /-- the entry of `send_coroutine_map` -/
  entry : Option Nat
  lists : Nat → List Nat
  /-- lists made so far -/
  made : Nat
  /-- the suspended coroutines, with their lists and the length of their data -/
  cos : Nat → Option (Nat × Nat)
  /-- the handlers under way, the innermost first -/
  drains : List Drain
  stale : Bool

inductive YieldEvent where
  /-- a coroutine sends -/
  | send (co len n : Nat)
  /-- the send timeout or a cancellation -/
  | giveUp (co : Nat)
  | bufferEmpty
  | close
  /-- the innermost handler goes on with its loop -/
  | drain (n : Nat)
  /-- the reactor changes the connection -/
  | reactor (active peerClosed overflow : Bool) (buffered : Nat)

namespace YieldEvent

def drains : YieldEvent → Nat
  | .drain _ => 1
  | _ => 0

lemma drains_le (e : YieldEvent) : e.drains ≤ 1 := by cases e <;> simp [drains]

end YieldEvent

namespace YieldRun

def start (conn : SendConn) : YieldRun := ⟨conn, none, fun _ => [], 0, fun _ => none, [], false⟩

/-- `coros_list->push_back(co)`, and the suspension -/
def push (s : YieldRun) (list co len : Nat) : YieldRun :=
  { s with lists := update s.lists list (s.lists list ++ [co]), cos := update s.cos co (some (list, len)) }

/-- `php_openswoole_server_send_yield` up to its first suspension -/
def sendYield (s : YieldRun) (co len : Nat) : YieldRun :=
  match s.entry with
  | some list => s.push list co len
  | none => { s with entry := some s.made, made := s.made + 1 }.push s.made co len

def send (c : SendCfg) (s : YieldRun) (co len n : Nat) : YieldRun :=
  let r := s.conn.send c len n
  let s := { s with conn := r.2 }
  if r.1 = .refused then s.sendYield co len else s

/-- `co->resume()` in a handler: the loop of `php_openswoole_server_send_yield` goes on -/
def resume (c : SendCfg) (s : YieldRun) (co n : Nat) : YieldRun :=
  match s.cos co with
  | some (list, len) =>
    let r := s.conn.send c len n
    let s := { s with conn := r.2 }
    if r.1 = .refused then s.push list co len else { s with cos := update s.cos co none }
  | none => { s with stale := true }

def enter (s : YieldRun) (close : Bool) : YieldRun :=
  { s with entry := none, drains := ⟨s.entry, close⟩ :: s.drains }

/-- a handler ends; behind the close handler the connection is marked as closed, and in BASE mode
`BaseFactory::end` frees it where nothing is left to send, also below another handler -/
def leave (c : SendCfg) (s : YieldRun) (d : Drain) (rest : List Drain) : YieldRun :=
  let freed := c.base && d.close && (s.conn.buffered == 0 || s.conn.peerClosed)
  { s with
    drains := rest, conn :=
      { s.conn with closed := s.conn.closed || d.close, active := s.conn.active && !freed } }

def pending (s : YieldRun) (d : Drain) : List Nat := d.list.elim [] s.lists

def drain (c : SendCfg) (s : YieldRun) (n : Nat) : Option YieldRun :=
  match s.drains with
  | [] => none
  | d :: rest =>
    match d.list, s.pending d with
    | some list, co :: cos => some ({ s with lists := update s.lists list cos }.resume c co n)
    | _, _ => some (s.leave c d rest)

def ending (s : YieldRun) : Bool := s.conn.closed || s.drains.any Drain.close

def step (c : SendCfg) : YieldEvent → YieldRun → Option YieldRun
  | .send co len n, s => if s.cos co = none ∧ 0 < len then some (s.send c co len n) else none
  | .giveUp co, s => if s.cos co ≠ none then some { s with cos := update s.cos co none } else none
  | .bufferEmpty, s => if s.drains = [] ∧ ¬ (c.base ∧ s.conn.closed) then some (s.enter false) else none
  | .close, s => if s.ending = false then some (s.enter true) else none
  | .drain n, s => s.drain c n
  | .reactor active peerClosed overflow buffered, s =>
    if c.base = false ∨ s.drains = [] then
      some { s with conn := ⟨active, peerClosed, s.conn.closed, overflow, buffered⟩ }
    else none

/-- the coroutine that the innermost handler resumes next -/
def front (s : YieldRun) : Option Nat := s.drains.head?.bind fun d => (s.pending d).head?

/-- no suspended coroutine gives up; the connection does not refuse a resumed one again, nor any when the close
event has begun -/
def Careful (c : SendCfg) : YieldEvent → YieldRun → Prop
  | .giveUp _, _ => False
  | .drain _, s => ∀ w ∈ s.front.bind s.cos, ¬ s.conn.Refuses c w.2
  | .send _ len _, s => s.ending = true → ¬ s.conn.Refuses c len
  | _, _ => True

instance (c : SendCfg) (e : YieldEvent) (s : YieldRun) : Decidable (Careful c e s) := by
  cases e <;> dsimp only [Careful] <;> infer_instance

/-- the steps of the handler at the place `depth` of the stack until it ends, in a run of any events -/
def ownSteps (c : SendCfg) (depth : Nat) : List YieldEvent → YieldRun → Nat
  | [], _ => 0
  | e :: events, s =>
    if s.drains.length < depth then 0
    else (if s.drains.length = depth then e.drains else 0) + (step c e s).elim 0 (ownSteps c depth events)

/-- the list will be emptied: it is in the map, or a handler has it -/
def Reached (s : YieldRun) (list : Nat) : Prop := s.entry = some list ∨ ∃ d ∈ s.drains, d.list = some list

structure Woken (s : YieldRun) : Prop where
  fresh : s.stale = false
  made : ∀ list, s.Reached list → list < s.made
  apart : ∀ d ∈ s.drains, ∀ list, d.list = some list → s.entry ≠ some list
  listed : ∀ list co, co ∈ s.lists list → ∃ len, s.cos co = some (list, len)
  waits : ∀ co list len, s.cos co = some (list, len) → co ∈ s.lists list ∧ s.Reached list
  nodup : ∀ list, (s.lists list).Nodup
  ended : s.ending = true → s.entry = none

variable {c : SendCfg} {s s' : YieldRun}

lemma Woken.setConn (hs : s.Woken) {conn : SendConn} (hclosed : conn.closed = s.conn.closed) :
    Woken { s with conn } := by
  refine { hs with ended := fun hending => hs.ended ?_ }
  rw [ending, hclosed] at hending
  exact hending

lemma send_closed (c : SendCfg) (conn : SendConn) (len n : Nat) :
    (conn.send c len n).2.closed = conn.closed := by
  unfold SendConn.send SendConn.sendToConnection
  repeat' split
  all_goals rfl

variable {lists : Nat → List Nat} {list co l k len n : Nat} {d : Drain} {rest : List Drain} {cos : List Nat}

lemma mem_lists_push :
    k ∈ update lists list (lists list ++ [co]) l ↔ k ∈ lists l ∨ (k = co ∧ l = list) := by
  by_cases hl : l = list
  · rw [hl, update_self, mem_append, mem_singleton]
    exact or_congr_right (and_iff_left rfl).symm
  · rw [update_of_ne hl]
    exact (or_iff_left fun h => hl h.2).symm

lemma Woken.push (hs : s.Woken) (hco : s.cos co = none) (hending : s.ending = false)
    (hentry : s.entry = some list ∨ s.entry = none) {made : Nat} (hmade : s.made ≤ made) (hlist : list < made)
    (hapart : ∀ d ∈ s.drains, d.list ≠ some list) :
    (YieldRun.push { s with entry := some list, made } list co len).Woken := by
  have hnot : ∀ l, co ∉ s.lists l := by
    intro l hmem
    obtain ⟨len, hlen⟩ := hs.listed l co hmem
    exact some_ne_none _ (hlen.symm.trans hco)
  refine ⟨hs.fresh, ?_, fun d hd l hl he => hapart d hd (hl.trans he.symm),
    fun l k hk => ?_, fun k l m hk => ?_, ?_, fun h => absurd (hending.symm.trans h) Bool.false_ne_true⟩
  · rintro l (he | hd)
    · exact some.inj he ▸ hlist
    · exact lt_of_lt_of_le (hs.made l (.inr hd)) hmade
  · rcases mem_lists_push.1 hk with hk | ⟨rfl, rfl⟩
    · obtain ⟨m, hm⟩ := hs.listed l k hk
      exact ⟨m, update_some_eq_some.2 (.inr ⟨fun he => hnot l (he ▸ hk), hm⟩)⟩
    · exact ⟨len, update_self ..⟩
  · rcases update_some_eq_some.1 hk with ⟨rfl, he⟩ | ⟨-, hk⟩
    · obtain ⟨rfl, -⟩ := Prod.mk.inj he
      exact ⟨mem_lists_push.2 (.inr ⟨rfl, rfl⟩), .inl rfl⟩
    · obtain ⟨hmem, hreached⟩ := hs.waits k l m hk
      refine ⟨mem_lists_push.2 (.inl hmem), hreached.imp_left fun hmap => ?_⟩
      rcases hentry with h | h
      · exact h.symm.trans hmap
      · cases hmap.symm.trans h
  · refine (forall_update_iff s.lists fun _ l => l.Nodup).2 ⟨?_, fun l _ => hs.nodup l⟩
    rw [← concat_eq_append]
    exact (hs.nodup list).concat (hnot list)

lemma Woken.send (hs : s.Woken) (hco : s.cos co = none)
    (hcond : s.ending = true → ¬ s.conn.Refuses c len) : (s.send c co len n).Woken := by
  have hconn : Woken { s with conn := (s.conn.send c len n).2 } := hs.setConn (send_closed c s.conn len n)
  unfold YieldRun.send
  dsimp only
  split
  · next hrefused =>
    have hending : ending { s with conn := (s.conn.send c len n).2 } = false := by
      rw [ending, send_closed]
      exact Bool.eq_false_iff.2 fun h => hcond h (SendConn.refuses_of_send hrefused)
    cases hentry : s.entry with
    | some list =>
      exact hconn.push hco hending (.inl hentry) (le_refl s.made) (hs.made list (.inl hentry))
        fun d hd hl => hs.apart d hd list hl hentry
    | none =>
      exact hconn.push hco hending (.inr hentry) (Nat.le_succ s.made) (Nat.lt_succ_self s.made)
        fun d hd hl => lt_irrefl _ (hs.made s.made (.inr ⟨d, hd, hl⟩))
  · exact hconn

lemma reached_enter (close : Bool) : (s.enter close).Reached list ↔ s.Reached list := by
  constructor
  · rintro (h | ⟨d, hd, hlist⟩)
    · cases h
    · rcases mem_cons.1 hd with rfl | hd
      · exact .inl hlist
      · exact .inr ⟨d, hd, hlist⟩
  · rintro (hmap | ⟨d, hd, hlist⟩)
    · exact .inr ⟨⟨s.entry, close⟩, mem_cons_self, hmap⟩
    · exact .inr ⟨d, mem_cons_of_mem _ hd, hlist⟩

lemma Woken.enter (hs : s.Woken) (close : Bool) : (s.enter close).Woken := by
  refine ⟨hs.fresh, fun list h => hs.made list ((reached_enter close).1 h), fun _ _ _ _ => nofun, hs.listed,
    fun co list len hco => ?_, hs.nodup, fun _ => rfl⟩
  obtain ⟨hmem, hreached⟩ := hs.waits co list len hco
  exact ⟨hmem, (reached_enter close).2 hreached⟩

lemma Woken.leave (hs : s.Woken) (hdrains : s.drains = d :: rest) (hempty : s.pending d = []) :
    (s.leave c d rest).Woken := by
  have hrest : ∀ d' ∈ rest, d' ∈ s.drains := fun d' hd' => hdrains ▸ mem_cons_of_mem _ hd'
  refine ⟨hs.fresh, fun list h => hs.made list (h.imp_right fun ⟨d', hd', hlist⟩ => ⟨d', hrest d' hd', hlist⟩),
    fun d' hd' => hs.apart d' (hrest d' hd'), hs.listed, fun co list len hco => ?_, hs.nodup,
    fun h => hs.ended ?_⟩
  · obtain ⟨hmem, hreached⟩ := hs.waits co list len hco
    refine ⟨hmem, hreached.imp_right ?_⟩
    rintro ⟨d', hd', hlist⟩
    rw [hdrains] at hd'
    rcases mem_cons.1 hd' with rfl | hd'
    · -- nobody waits in the list of the handler
      rw [pending, hlist] at hempty
      exact absurd (hempty ▸ hmem : co ∈ []) not_mem_nil
    · exact ⟨d', hd', hlist⟩
  · rw [ending, hdrains, any_cons, ← Bool.or_assoc]
    exact h

lemma mem_lists_pop (hlist : lists list = co :: cos) (hnodup : (lists list).Nodup) :
    k ∈ update lists list cos l ↔ k ∈ lists l ∧ ¬ (k = co ∧ l = list) := by
  by_cases hl : l = list
  · rw [hlist] at hnodup
    rw [hl, update_self, hlist, mem_cons]
    constructor
    · exact fun hk => ⟨.inr hk, fun he => hnodup.notMem (he.1 ▸ hk)⟩
    · exact fun hk => hk.1.resolve_left fun he => hk.2 ⟨he, rfl⟩
  · rw [update_of_ne hl]
    exact (and_iff_left fun h => hl h.2).symm

lemma Woken.released (hs : s.Woken) (hlist : s.lists list = co :: cos)
    (hco : s.cos co = some (list, len)) {conn : SendConn} (hclosed : conn.closed = s.conn.closed) :
    Woken { s with lists := update s.lists list cos, conn, cos := update s.cos co none } := by
  refine ⟨hs.fresh, hs.made, hs.apart, fun l k hk => ?_, fun k l m hk => ?_, ?_, fun h => hs.ended ?_⟩
  · obtain ⟨hmem, hne⟩ := (mem_lists_pop hlist (hs.nodup list)).1 hk
    obtain ⟨m, hm⟩ := hs.listed l k hmem
    refine ⟨m, update_none_eq_some.2 ⟨fun he => hne ⟨he, ?_⟩, hm⟩⟩
    rw [he] at hm
    exact (Prod.mk.inj (some.inj (hm.symm.trans hco))).1
  · obtain ⟨hne, hk⟩ := update_none_eq_some.1 hk
    obtain ⟨hmem, hreached⟩ := hs.waits k l m hk
    exact ⟨(mem_lists_pop hlist (hs.nodup list)).2 ⟨hmem, fun he => hne he.1⟩, hreached⟩
  · refine (forall_update_iff s.lists fun _ l => l.Nodup).2 ⟨?_, fun l _ => hs.nodup l⟩
    have hnodup := hs.nodup list
    rw [hlist] at hnodup
    exact hnodup.of_cons
  · rw [ending, hclosed] at h
    exact h

lemma drain_leave (c : SendCfg) (n : Nat) (hdrains : s.drains = d :: rest)
    (hempty : s.pending d = []) : s.drain c n = some (s.leave c d rest) := by
  unfold drain
  simp only [hdrains, hempty]
  cases d.list <;> rfl

lemma drain_resume (c : SendCfg) (n : Nat) (hdrains : s.drains = d :: rest)
    (hlist : d.list = some list) (hcos : s.lists list = co :: cos) :
    s.drain c n = some ({ s with lists := update s.lists list cos }.resume c co n) := by
  unfold drain pending
  simp only [hdrains, hlist, elim_some, hcos]

lemma Woken.drain_cases (hs : s.Woken) (hdrains : s.drains = d :: rest) (hcond : Careful c (.drain n) s) :
    (s.pending d = [] ∧ s.drain c n = some (s.leave c d rest)) ∨
      ∃ s', s.drain c n = some s' ∧ s'.Woken ∧ s'.drains = d :: rest ∧
        (s.pending d).length = (s'.pending d).length + 1 ∧
        ∀ d', (s'.pending d').length ≤ (s.pending d').length := by
  by_cases hempty : s.pending d = []
  · exact .inl ⟨hempty, drain_leave c n hdrains hempty⟩
  · obtain ⟨co, cos, hcos⟩ := exists_cons_of_ne_nil hempty
    obtain ⟨list, hlist⟩ : ∃ list, d.list = some list := by
      refine ne_none_iff_exists'.1 fun hnone => hempty ?_
      rw [pending, hnone]
      rfl
    have hpending : s.pending d = s.lists list := by
      rw [pending, hlist]
      rfl
    rw [hpending] at hcos
    obtain ⟨len, hco⟩ := hs.listed list co (hcos ▸ mem_cons_self)
    have hfront : s.front.bind s.cos = some (list, len) := by
      rw [front, hdrains, head?_cons, bind_some, hpending, hcos, head?_cons, bind_some, hco]
    have hsend : (s.conn.send c len n).1 ≠ .refused :=
      fun h => hcond (list, len) (hfront ▸ rfl) (SendConn.refuses_of_send h)
    refine .inr ⟨{ s with
      lists := update s.lists list cos, conn := (s.conn.send c len n).2, cos := update s.cos co none }, ?_,
      hs.released hcos hco (send_closed c s.conn len n), hdrains, ?_, fun d' => ?_⟩
    · rw [drain_resume c n hdrains hlist hcos, resume]
      simp only [hco]
      rw [if_neg hsend]
    · rw [hpending, hcos, length_cons, pending, hlist]
      show cos.length + 1 = (update s.lists list cos list).length + 1
      rw [update_self]
    · rw [pending, pending]
      cases hl : d'.list with
      | none => exact le_rfl
      | some l =>
        show (update s.lists list cos l).length ≤ (s.lists l).length
        by_cases he : l = list
        · rw [he, update_self, hcos]
          exact Nat.le_succ _
        · exact le_of_eq (by rw [update_of_ne he])

lemma Woken.step {e : YieldEvent} (hcond : Careful c e s) (hs : s.Woken) (h : YieldRun.step c e s = some s') :
    s'.Woken := by
  cases e with
  | send co len n =>
    obtain ⟨⟨hco, -⟩, h⟩ := ite_none_right_eq_some.1 h
    exact some.inj h ▸ hs.send hco hcond
  | giveUp co => exact hcond.elim
  | bufferEmpty =>
    obtain ⟨-, rfl⟩ := ite_some_none_eq_some.1 h
    exact hs.enter false
  | close =>
    obtain ⟨-, rfl⟩ := ite_some_none_eq_some.1 h
    exact hs.enter true
  | drain n =>
    have h : s.drain c n = some s' := h
    cases hdrains : s.drains with
    | nil =>
      rw [YieldRun.drain, hdrains] at h
      cases h
    | cons d rest =>
      rcases hs.drain_cases hdrains hcond with ⟨hempty, he⟩ | ⟨t, he, ht, -⟩
      · exact some.inj (he.symm.trans h) ▸ hs.leave hdrains hempty
      · exact some.inj (he.symm.trans h) ▸ ht
  | reactor active peerClosed overflow buffered =>
    obtain ⟨-, rfl⟩ := ite_some_none_eq_some.1 h
    exact hs.setConn rfl

/-! ## handlers end -/

/-- a refused coroutine goes into the list of the map, which is not the one of a handler -/
lemma Woken.send_pending (hs : s.Woken) (co len n : Nat) (hd : d ∈ s.drains) :
    (s.send c co len n).drains = s.drains ∧ (s.send c co len n).pending d = s.pending d := by
  have hpush : ∀ (t : YieldRun) (l : Nat), t.lists = s.lists → t.drains = s.drains → d.list ≠ some l →
      (t.push l co len).drains = s.drains ∧ (t.push l co len).pending d = s.pending d := by
    intro t l hlists hdrains hne
    refine ⟨hdrains, ?_⟩
    rw [pending, pending]
    cases hl : d.list with
    | none => rfl
    | some l' =>
      show update t.lists l _ l' = s.lists l'
      rw [update_of_ne fun he => hne (hl.trans (congrArg some he)), hlists]
  unfold YieldRun.send sendYield
  dsimp only
  split
  · split
    · next l hentry => exact hpush _ l rfl rfl fun hl => hs.apart d hd l hl hentry
    · exact hpush _ s.made rfl rfl fun hl => lt_irrefl _ (hs.made s.made (.inr ⟨d, hd, hl⟩))
  · exact ⟨rfl, rfl⟩

/-- **the handler `d` ends with its own step, or its list gets no longer, and shorter by an own step** -/
theorem Woken.step_handler {e : YieldEvent} (hcond : Careful c e s) (hs : s.Woken) {inner : List Drain}
    (hdrains : s.drains = inner ++ d :: rest) (h : YieldRun.step c e s = some s') :
    (inner = [] ∧ s.pending d = [] ∧ s'.drains = rest) ∨ ∃ inner', s'.drains = inner' ++ d :: rest ∧
        (s'.pending d).length + (if inner = [] then e.drains else 0) ≤ (s.pending d).length := by
  have hd : d ∈ s.drains := hdrains ▸ mem_append_right _ mem_cons_self
  cases e with
  | send co len n =>
    obtain ⟨-, h⟩ := ite_none_right_eq_some.1 h
    obtain ⟨hstack, hpending⟩ := hs.send_pending (c := c) co len n hd
    cases h
    exact .inr ⟨inner, hstack.trans hdrains, by rw [hpending]; split <;> exact le_rfl⟩
  | giveUp co => exact hcond.elim
  | bufferEmpty | close =>
    obtain ⟨-, rfl⟩ := ite_some_none_eq_some.1 h
    exact .inr ⟨_ :: inner, congrArg (_ :: ·) hdrains, by split <;> exact le_rfl⟩
  | reactor active peerClosed overflow buffered =>
    obtain ⟨-, rfl⟩ := ite_some_none_eq_some.1 h
    exact .inr ⟨inner, hdrains, by split <;> exact le_rfl⟩
  | drain n =>
    cases inner with
    | nil =>
      rcases hs.drain_cases hdrains hcond with ⟨hempty, he⟩ | ⟨t, he, -, ht, hlen, -⟩
      · exact .inl ⟨rfl, hempty, some.inj (h.symm.trans he) ▸ rfl⟩
      · obtain rfl := some.inj (h.symm.trans he)
        exact .inr ⟨[], ht, by rw [if_pos rfl]; exact le_of_eq hlen.symm⟩
    | cons i inner =>
      rcases hs.drain_cases hdrains hcond with ⟨-, he⟩ | ⟨t, he, -, ht, -, hle⟩
      · obtain rfl := some.inj (h.symm.trans he)
        exact .inr ⟨inner, rfl, le_rfl⟩
      · obtain rfl := some.inj (h.symm.trans he)
        exact .inr ⟨i :: inner, ht, hle d⟩

lemma ownSteps_of_ended (hdrains : s.drains = rest) (events : List YieldEvent) :
    ownSteps c (rest.length + 1) events s = 0 := by
  cases events with
  | nil => rfl
  | cons e events => exact if_pos (hdrains ▸ Nat.lt_succ_self _)

/-- by induction over the run, with the handlers that have started inside of `d` -/
lemma Woken.ownSteps_le (hs : s.Woken) {inner : List Drain} (hdrains : s.drains = inner ++ d :: rest)
    (events : List YieldEvent) (hcond : Along (YieldRun.step c) (Careful c) events s) :
    ownSteps c (rest.length + 1) events s ≤ (s.pending d).length + 1 := by
  induction events generalizing s inner with
  | nil => exact Nat.zero_le _
  | cons e events ih =>
    have hlength : s.drains.length = inner.length + (rest.length + 1) := by
      rw [hdrains, length_append, length_cons]
    have hinner : s.drains.length = rest.length + 1 ↔ inner = [] := by
      rw [hlength, ← length_eq_zero_iff]
      omega
    rw [ownSteps, if_neg (by omega)]
    simp only [hinner]
    cases hstep : YieldRun.step c e s with
    | none =>
      show _ + 0 ≤ _
      have := e.drains_le
      split <;> omega
    | some s' =>
      show _ + ownSteps c (rest.length + 1) events s' ≤ _
      rcases hs.step_handler hcond.1 hdrains hstep with ⟨hnil, -, hended⟩ | ⟨inner', hdrains', hlen⟩
      · rw [ownSteps_of_ended hended]
        have := e.drains_le
        split <;> omega
      · have hrest := ih (hs.step hcond.1 hstep) hdrains' (hcond.2 s' hstep)
        omega

/-- **Suspended coroutines are woken safely** in careful runs: whatever happens between its steps, a handler
makes at most one more than its list has coroutines. -/
theorem woken_safely (c : SendCfg) (conn : SendConn) (hconn : conn.closed = false) (events : List YieldEvent)
    (hevents : Along (YieldRun.step c) (Careful c) events (start conn)) (s : YieldRun)
    (hs : iter (YieldRun.step c) events (start conn) = some s) :
    s.stale = false ∧ (∀ d ∈ s.drains, ∀ list, d.list = some list → s.entry ≠ some list) ∧
      (∀ inner d rest more, s.drains = inner ++ d :: rest → Along (YieldRun.step c) (Careful c) more s →
        ownSteps c (rest.length + 1) more s ≤ (s.pending d).length + 1) ∧
      (∀ n, s.drains ≠ [] → ∃ t, YieldRun.step c (.drain n) s = some t) ∧
      (s.conn.closed = true → s.drains = [] → ∀ co, s.cos co = none) := by
  have hwoken : s.Woken := by
    refine iter_keeps (fun e s s' hcond hs h => hs.step hcond h) events hevents
      ⟨rfl, ?_, nofun, nofun, ?_, ?_, ?_⟩ hs
    · rintro list (h | ⟨d, hd, -⟩)
      · cases h
      · cases hd
    · exact fun co list len hco => absurd hco.symm (some_ne_none _)
    · exact fun list => nodup_nil
    · intro h
      rw [ending, start, hconn] at h
      cases h
  refine ⟨hwoken.fresh, hwoken.apart, fun inner d rest more hdrains hmore =>
    hwoken.ownSteps_le hdrains more hmore, fun n hne => ?_, ?_⟩
  · obtain ⟨d, rest, hdrains⟩ := exists_cons_of_ne_nil hne
    show ∃ t, s.drain c n = some t
    unfold YieldRun.drain
    rw [hdrains]
    dsimp only
    split
    · exact ⟨_, rfl⟩
    · exact ⟨_, rfl⟩
  intro hclosed hdrains co
  by_contra hco
  obtain ⟨⟨list, len⟩, hwait⟩ := ne_none_iff_exists'.1 hco
  have hentry := hwoken.ended (by rw [ending, hclosed, Bool.true_or])
  rcases (hwoken.waits co list len hwait).2 with hmap | ⟨d, hd, -⟩
  · exact some_ne_none _ (hmap.symm.trans hentry)
  · rw [hdrains] at hd
    exact not_mem_nil hd

def tenBytes : SendCfg := ⟨true, 10, 0⟩

/-- the output buffer overflows, and the coroutines `2` and `3` are suspended -/
def overflowing : List YieldEvent := [.send 1 10 0, .send 1 5 0, .send 2 3 0, .send 3 4 0]

theorem woken_safely_two : ∃ s, iter (YieldRun.step tenBytes)
    (overflowing ++ [.reactor true false false 0, .bufferEmpty, .drain 0, .send 4 2 0,
      .drain 0, .close, .drain 0, .drain 0]) (start ⟨true, false, false, false, 0⟩) = some s ∧
    s.stale = false ∧ s.conn.buffered = 9 ∧ ∀ co, s.cos co = none := by
  refine exists_of_map (fun s => (s.conn, s.drains))
    (show _ = some (⟨true, false, true, false, 9⟩, []) by decide +kernel) fun s hs hstate => ?_
  obtain ⟨hconn, hdrains⟩ := Prod.mk.inj hstate
  obtain ⟨hstale, -, -, -, hclosed⟩ := woken_safely tenBytes _ rfl _ (by decide +kernel) s hs
  exact ⟨hstale, by rw [hconn], hclosed (by rw [hconn]) hdrains⟩

/-- a close handler in BASE mode whose coroutine is refused again and again -/
structure Spins (s : YieldRun) : Prop where
  conn : s.conn = ⟨true, true, false, true, 15⟩
  drains : s.drains = [⟨some 0, true⟩]
  list : s.lists 0 = [2]
  co : s.cos 2 = some (0, 3)

lemma Spins.drain (hs : s.Spins) (h : s.drain tenBytes n = some s') : s'.Spins := by
  rw [drain_resume tenBytes n hs.drains rfl hs.list, resume] at h
  simp only [hs.co] at h
  have hrefused : s.conn.send tenBytes 3 n = (.refused, ⟨true, true, false, true, 15⟩) := by
    rw [hs.conn]
    rfl
  rw [hrefused, if_pos rfl] at h
  cases h
  refine ⟨rfl, hs.drains, ?_, ?_⟩
  · show update (update s.lists 0 []) 0 (update s.lists 0 [] 0 ++ [2]) 0 = [2]
    rfl
  · show update s.cos 2 (some (0, 3)) 2 = some (0, 3)
    rw [update_self]

/-- the close handler resumes a coroutine that is back in its list; and one that has given up is resumed -/
theorem close_never_ends : (∃ s, iter (YieldRun.step tenBytes)
        [.send 1 10 0, .send 1 5 0, .send 2 3 0, .reactor true true true 15, .close]
        (start ⟨true, false, false, false, 0⟩) = some s ∧
      ∀ (ns : List Nat) t, iter (YieldRun.step tenBytes) (ns.map .drain) s = some t → t.drains ≠ []) ∧
    (iter (YieldRun.step tenBytes)
      [.send 1 10 0, .send 1 5 0, .send 2 3 0, .giveUp 2, .reactor true false false 0, .bufferEmpty, .drain 0]
      (start ⟨true, false, false, false, 0⟩)).map (fun s => s.stale) = some true := by
  refine ⟨?_, by decide +kernel⟩
  refine exists_of_map (fun s => (s.conn, s.drains, s.lists 0, s.cos 2))
    (show _ = some (⟨true, true, false, true, 15⟩, [⟨some 0, true⟩], [2], some (0, 3)) by decide +kernel)
    fun s hs hstate ns t ht => ?_
  have hspins : t.Spins := by
    have hspin : s.Spins := by
      obtain ⟨hconn, hdrains, hlist, hco⟩ := by simpa only [Prod.mk.injEq] using hstate
      exact ⟨hconn, hdrains, hlist, hco⟩
    clear hs hstate
    induction ns generalizing s with
    | nil => exact some.inj ht ▸ hspin
    | cons n ns ih =>
      obtain ⟨s', he, ht'⟩ := bind_eq_some_iff.1 ht
      exact ih s' ht' (hspin.drain he)
  rw [hspins.drains]
  exact cons_ne_nil _ _

end YieldRun

end OSW
