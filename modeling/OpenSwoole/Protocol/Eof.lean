import OpenSwoole.Protocol.Base

/-!
# `Protocol::recv_with_eof_protocol`

The receive function for packages that end with a delimiter, and `recv_split_by_eof` with the scan
`String::split` it resumes from `buffer->offset`.  The page size of the host is a parameter.

* `split_spec`   a scan that resumes behind ruled-out positions finds the leftmost non-overlapping pieces,
    `frames (eofLen d)`;
* `recvSplitByEof_spec`   so the buffer is cut into its frames and the undelivered tail.
-/

namespace OSW

open Framing List

/-- `OSW_OK`, `OSW_CONTINUE` and `OSW_CLOSE` -/
inductive SplitRes where
  | ok
  | continue
  | close

/-- the lambda of `recv_split_by_eof`.  `onPackage` never takes the memory of the buffer over here:
the delimiter just found is behind `offset`. -/
def splitHandler (h : OnPackage) (c : Conn) (data : Bytes) : Bool × Conn :=
  match c.onPackage h data with
  | (false, c) => (false, c)
  | (true, c) => (!c.removed, c)

section
variable (p : Protocol) (pagesize : Nat) (h : OnPackage)

def recvSplitByEof (c : Conn) : Option (SplitRes × Conn) :=
  if c.buffer.length < p.packageEof.length then some (.continue, c)
  else
    (c.buffer.split p.packageEof (splitHandler h) c).map fun (n, b, s) =>
      let c := { s with buffer := b }
      if c.removed then (.close, c)
      else
        match n with
        | none => (.close, c)
        | some n =>
          if n = 0 then (.continue, c)
          else if n < b.length then
            let b := b.reduce n
            (.ok, { c with buffer := { b with offset := b.length - p.packageEof.length } })
          else (.ok, { c with buffer := b.clear })

/-- `buf_size`: an `int`, at most `OSW_BUFFER_SIZE_STD`, converted to `size_t` by the call -/
def bufSize (b : OswString) : Nat :=
  let n := toSigned 32 (b.size - b.length)
  ((if bufferSizeStd < n then (bufferSizeStd : Int) else n) % 2^64).toNat

/-- `extend_size`: a `uint32_t` -/
def extendSize (b : OswString) : Nat := min (sizeAlign (b.size * 2) pagesize % 2^32) p.packageMaxLength

/-- the code behind the search: the length limit, growth of a full buffer, the next turn -/
def eofAgain (again : Bool) (c : Conn) : (Bool × Conn) ⊕ Option (Exit × Conn) :=
  if c.buffer.length = p.packageMaxLength then .inr (some (.err, c))
  else if c.buffer.length = c.buffer.size then
    if c.buffer.size < p.packageMaxLength then
      match c.buffer.extend (extendSize p pagesize c.buffer) with
      | none => .inr (some (.abort, c))
      | some b => .inl (true, { c with buffer := b })
    else .inl (true, c)
  else if again then .inl (true, c)
  else .inr (some (.ok, c))

/-- the code from `buffer->length += n` on -/
def eofReceived (again : Bool) (c : Conn) : (Bool × Conn) ⊕ Option (Exit × Conn) :=
  if c.buffer.length < p.packageEof.length then .inr (some (.ok, c))
  else if p.splitByEof then
    match recvSplitByEof p h c with
    | none => .inr none
    | some (.continue, c) => eofAgain p pagesize true c
    | some (.close, c) => .inr (some (.err, c))
    | some (.ok, c) => .inr (some (.ok, c))
  else if c.buffer.str.drop (c.buffer.length - p.packageEof.length) = p.packageEof then
    let c := { c with buffer := { c.buffer with offset := c.buffer.length } }
    match c.onPackage h c.buffer.str with
    | (false, c) => .inr (some (.err, c))
    | (true, c) =>
      if c.removed then .inr (some (.ok, c))
      else .inr (some (.ok, { c with buffer := c.buffer.clear }))
  else eofAgain p pagesize again c

/-- from the label `_recv_data` to the next jump or return; `again` is the local `recv_again` -/
def eofStep : Bool × Conn → (Bool × Conn) ⊕ Option (Exit × Conn)
  | (again, c) =>
    match c.recv (bufSize c.buffer) with
    | .error e c => .inr (some (if e = .close then .err else .ok, c))
    | .eof c => .inr (some (.err, c))
    | .overflow c => .inr (some (.overflow, c))
    | .data c => eofReceived p pagesize h again c

def recvWithEofProtocol (c : Conn) : Option (Exit × Conn) :=
  (Machine.run (eofStep p pagesize h) (weight c.queue + 1) (false, c)).join

end

/-! ## the scan -/

/-- `s'` is `s` after the packages `fs`, whatever buffer is put into it -/
def Handed (s s' : Conn) (fs : List Bytes) : Prop :=
  ∀ b, { s' with buffer := b } = { s with out := s.out ++ fs, buffer := b }

lemma Handed.cons {s s' s'' : Conn} {f : Bytes} {fs : List Bytes} (h1 : Handed s s' [f])
    (h2 : Handed s' s'' fs) : Handed s s'' (f :: fs) := by
  intro b
  have e1 := h1 b
  have e2 := h2 b
  simp only [Conn.mk.injEq, true_and] at e1 e2 ⊢
  obtain ⟨a1, a2, a3, a4, a5, a6, a7⟩ := e1
  obtain ⟨b1, b2, b3, b4, b5, b6, b7⟩ := e2
  refine ⟨b1.trans a1, b2.trans a2, b3.trans a3, b4.trans a4, b5.trans a5, ?_, b7.trans a7⟩
  rw [b6, a6, append_assoc]
  rfl

lemma Handed.removed {s s' : Conn} {fs : List Bytes} (h : Handed s s' fs) : s'.removed = s.removed := by
  have hb := h s.buffer
  simp only [Conn.mk.injEq] at hb
  exact hb.2.2.2.1

lemma splitHandler_accepts {h : OnPackage} (ha : Accepts h) {s : Conn} (hr : s.removed = false)
    (pkg : Bytes) : ∃ s', splitHandler h s pkg = (true, s') ∧ Handed s s' [pkg] := by
  unfold splitHandler Conn.onPackage
  rcases ha s.out.length with h1 | h1
  · rw [h1]
    exact ⟨{ s with out := s.out ++ [pkg] }, by simp only [hr, Bool.not_false], fun _ => rfl⟩
  · rw [h1]
    exact ⟨{ s with out := s.out ++ [pkg], buffer := s.buffer.popPackage },
      by simp only [hr, Bool.not_false], fun _ => rfl⟩

section
variable {d : Bytes} {h : OnPackage} {b : OswString} {s : Conn}

lemma splitLoop_spec (hd : d ≠ []) (ha : Accepts h) (hlt : b.length < 2^32) {fuel : Nat} {o : Nat}
    (ho : 0 < o) (hle : o ≤ b.length) (hfuel : b.length - o < fuel) (hr : s.removed = false) :
    ∃ s', OswString.splitLoop d (splitHandler h) fuel { b with offset := o } 0 s =
        some (some (b.length - (frames (eofLen d) (b.str.drop o)).2.length),
          { b with offset := b.length - (frames (eofLen d) (b.str.drop o)).2.length }, s') ∧
      Handed s s' (frames (eofLen d) (b.str.drop o)).1 := by
  induction fuel generalizing o s with
  | zero => exact absurd hfuel (Nat.not_lt_zero _)
  | succ fuel ih =>
    have hlen : (b.str.drop o).length = b.length - o := length_drop
    have hfirst : strnstr (b.str.drop o) (b.length - o) d = first d (b.str.drop o) := by
      rw [← hlen]
      exact strnstr_eq_first hd (by omega)
    cases hf : first d (b.str.drop o) with
    | none =>
      rw [frames_stop (eofLen_not_complete hf)]
      have hz : ¬ 0 = o := by omega
      have hb : b.length - (b.str.drop o).length = o := by omega
      refine ⟨s, ?_, fun b => by rw [append_nil]⟩
      rw [OswString.splitLoop_none (hfirst.trans hf), hb]
      simp only [if_neg hz, Nat.sub_zero]
    | some i =>
      have hc := eofLen_complete hd hf
      have hdpos := length_pos_of_ne_nil hd
      have hcle := hc.2.2
      rw [frames_step hc, drop_drop]
      obtain ⟨s₁, hs₁, hh₁⟩ := splitHandler_accepts ha hr ((b.str.drop o).take (i + d.length))
      obtain ⟨s₂, hs₂, hh₂⟩ := ih (o := o + (i + d.length)) (s := s₁) (by omega) (by omega)
        (by omega) (hh₁.removed.trans hr)
      refine ⟨s₂, ?_, hh₁.cons hh₂⟩
      rw [OswString.splitLoop_ok (hfirst.trans hf) hs₁]
      exact hs₂

lemma split_spec (hd : d ≠ []) (ha : Accepts h) (hlt : b.length < 2^32)
    (hclean : Clean d b.str b.offset) (ho : b.offset ≤ b.length) (hr : s.removed = false) :
    ((∀ n, ¬ Complete (eofLen d) b.str n) ∧ b.split d (splitHandler h) s =
        some (some 0, { b with offset := b.length - d.length }, s)) ∨
    (∃ n s', Complete (eofLen d) b.str n ∧ b.split d (splitHandler h) s =
        some (some (b.length - (frames (eofLen d) b.str).2.length),
          { b with offset := b.length - (frames (eofLen d) b.str).2.length }, s') ∧
      Handed s s' (frames (eofLen d) b.str).1) := by
  have hlen : (b.str.drop b.offset).length = b.length - b.offset := length_drop
  have hfirst : strnstr (b.str.drop b.offset) (b.length - b.offset) d = first d (b.str.drop b.offset) := by
    rw [← hlen]
    exact strnstr_eq_first hd (by omega)
  have hres := first_resume hd hclean
  unfold OswString.split
  cases hf : first d (b.str.drop b.offset) with
  | none =>
    rw [hf] at hres
    refine .inl ⟨eofLen_not_complete hres, ?_⟩
    rw [OswString.splitLoop_none (hfirst.trans hf), if_pos rfl, Nat.sub_self]
  | some i =>
    rw [hf] at hres
    have hc := eofLen_complete hd hres
    have hdpos := length_pos_of_ne_nil hd
    have hcle : i + b.offset + d.length ≤ b.length := hc.2.2
    have hn : b.offset + (i + d.length) = i + b.offset + d.length := by omega
    have hn' : i + d.length + b.offset = i + b.offset + d.length := by omega
    obtain ⟨s₁, hs₁, hh₁⟩ := splitHandler_accepts ha hr (b.str.take (i + b.offset + d.length))
    obtain ⟨s₂, hs₂, hh₂⟩ := splitLoop_spec (s := s₁) (o := i + b.offset + d.length) hd ha hlt
      (by omega) hcle (show _ < b.length by omega) (hh₁.removed.trans hr)
    refine .inr ⟨_, s₂, hc, ?_, ?_⟩
    · have hok : splitHandler h s ((b.str.drop (b.offset - b.offset)).take (i + d.length + b.offset)) =
          (true, s₁) := by rw [Nat.sub_self, drop_zero, hn', hs₁]
      rw [frames_step hc, OswString.splitLoop_ok (hfirst.trans hf) hok, hn]
      exact hs₂
    · rw [frames_step hc]
      exact hh₁.cons hh₂

end

lemma recvSplitByEof_spec {p : Protocol} {h : OnPackage} {c : Conn} (hd : p.packageEof ≠ [])
    (ha : Accepts h) (hlt : c.buffer.length < 2^32) (hle : p.packageEof.length ≤ c.buffer.length)
    (hclean : Clean p.packageEof c.buffer.str c.buffer.offset)
    (ho : c.buffer.offset ≤ c.buffer.length) (hr : c.removed = false) :
    ((∀ n, ¬ Complete (eofLen p.packageEof) c.buffer.str n) ∧
      recvSplitByEof p h c = some (.continue, { c with
        buffer := { c.buffer with offset := c.buffer.length - p.packageEof.length } })) ∨
    (∃ fs t, frames (eofLen p.packageEof) c.buffer.str = (fs, t) ∧ t.length < c.buffer.length ∧
      recvSplitByEof p h c = some (.ok, { c with
        out := c.out ++ fs, buffer := ⟨t, c.buffer.size, t.length - p.packageEof.length⟩ })) := by
  unfold recvSplitByEof
  rw [if_neg (by omega)]
  rcases split_spec hd ha hlt hclean ho hr with ⟨hn, he⟩ | ⟨n, s', hc, he, hh⟩
  · refine .inl ⟨hn, ?_⟩
    rw [he, Option.map_some]
    simp only [hr, Bool.false_eq_true, if_false, if_true]
  · right
    have hflat := frames_flatten (eofLen p.packageEof) c.buffer.str
    have htlt : (frames (eofLen p.packageEof) c.buffer.str).2.length < c.buffer.str.length := by
      have h1 := congrArg length (frames_flatten (eofLen p.packageEof) (c.buffer.str.drop n))
      rw [length_append, length_drop] at h1
      have h2 := hc.2.1
      have h3 := hc.2.2
      rw [frames_step hc]
      show (frames (eofLen p.packageEof) (c.buffer.str.drop n)).2.length < _
      omega
    generalize frames (eofLen p.packageEof) c.buffer.str = ft at he hh hflat htlt ⊢
    obtain ⟨fs, t⟩ := ft
    refine ⟨fs, t, rfl, htlt, ?_⟩
    change t.length < c.buffer.str.length at htlt
    have hpos : ¬ c.buffer.str.length - t.length = 0 := by omega
    have hdrop : c.buffer.str.drop (c.buffer.str.length - t.length) = t := by
      rw [← hflat, length_append, Nat.add_sub_cancel]
      exact drop_left
    have hs' : s' = { c with out := c.out ++ fs, buffer := s'.buffer } := hh s'.buffer
    generalize s'.buffer = x at hs'
    subst hs'
    rw [he, Option.map_some]
    simp only [hr, Bool.false_eq_true, if_false, OswString.length, OswString.reduce,
      OswString.clear, if_neg hpos, hdrop]
    by_cases ht : c.buffer.str.length - t.length < c.buffer.str.length
    · rw [if_pos ht]
    · have hnil : t = [] := length_eq_zero_iff.1 (by omega)
      rw [if_neg ht, hnil]
      simp only [length_nil, Nat.zero_sub]

end OSW
