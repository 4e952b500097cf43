import OpenSwoole.Protocol.Base

/-!
# `Protocol::recv_with_length_protocol`

The receive function of `src/protocol/base.cc` is a loop over three labels.  `doRecv`,
`doGetLength` and `doDispatch` are the code from one label to the next jump or return, and
`recvWithLengthProtocol` runs them from the entry of the function.  The length function and the
size returned by `get_package_length_size` are parameters.

* `doRecv_cases`, `doGetLength_cases`, `doDispatch_cases`   everything the code at one label can do;
* `lengthMeasure`   what every jump lowers: bytes move from the queue to the buffer and from the buffer to
    `onPackage`.
-/

namespace OSW

inductive Label where
  | doRecv
  | doGetLength
  | doDispatch

abbrev LengthStep := (Label × Conn) ⊕ (Exit × Conn)

section
variable (p : Protocol) (dyn : Option Nat) (f : LengthFunc) (h : OnPackage)

/-- `_package_length_size`: the size for this connection if `get_package_length_size` is set -/
def packageLengthSizeOf : Nat := dyn.getD p.packageLengthSize

/-- the size of the next `recv`, a `uint32_t` -/
def recvSize (c : Conn) : Nat :=
  if 0 < c.buffer.offset then (((c.buffer.offset : Int) - c.buffer.length) % 2^32).toNat
  else p.packageLengthOffset + packageLengthSizeOf p dyn

def doRecv (c : Conn) : LengthStep :=
  if c.removed then .inr (.ok, c)
  else
    match c.recv (recvSize p dyn c) with
    | .error e c => .inr (if e = .close then .err else .ok, c)
    | .eof c => .inr (.err, c)
    | .overflow c => .inr (.overflow, c)
    | .data c =>
      if c.recvWait then
        if c.buffer.offset ≤ c.buffer.length then .inl (.doDispatch, c) else .inr (.ok, c)
      else .inl (.doGetLength, c)

def doGetLength (c : Conn) : LengthStep :=
  let packageLength := (f c.buffer.str).1
  if packageLength < 0 then .inr (.err, c)
  else if packageLength = 0 then
    -- the size field of the port is read here, not the size of this connection
    if c.buffer.length = p.packageLengthOffset + p.packageLengthSize then .inr (.err, c)
    else .inr (.ok, c)
  else if p.packageMaxLength < packageLength then .inr (.err, c)
  else
    let n := packageLength.toNat
    match (if c.buffer.size < n then c.buffer.extend n else some c.buffer) with
    | none => .inr (.abort, c)
    | some b =>
      let c := { c with recvWait := true, buffer := { b with offset := n } }
      if n ≤ c.buffer.length then .inl (.doDispatch, c) else .inl (.doRecv, c)

def doDispatch (c : Conn) : LengthStep :=
  match c.onPackage h (c.buffer.str.take c.buffer.offset) with
  | (false, c) => .inr (.err, c)
  | (true, c) =>
    if c.removed then .inr (.ok, c)
    else if c.buffer.offset < c.buffer.length then
      .inl (.doGetLength, { c with recvWait := false, buffer := c.buffer.reduce c.buffer.offset })
    else .inr (.ok, { c with recvWait := false, buffer := c.buffer.clear })

def lengthStep : Label × Conn → LengthStep
  | (.doRecv, c) => doRecv p dyn c
  | (.doGetLength, c) => doGetLength p f c
  | (.doDispatch, c) => doDispatch h c

def Label.rank : Label → Nat
  | .doRecv => 0
  | .doGetLength => 2
  | .doDispatch => 1

def lengthMeasure (s : Label × Conn) : Nat := 3 * (2 * weight s.2.queue + s.2.buffer.length) + s.1.rank

def recvWithLengthProtocol (c : Conn) : Option (Exit × Conn) :=
  if dyn = some 0 then some (.err, c)
  else
    let s := if c.skipRecv then (Label.doGetLength, { c with skipRecv := false }) else (Label.doRecv, c)
    Machine.run (lengthStep p dyn f h) (lengthMeasure s + 1) s

end

/-! ## what the code at one label can do -/

variable {p : Protocol} {dyn : Option Nat} {f : LengthFunc} {h : OnPackage} {c : Conn}

/-- the connection after `recv` has put `bs` into its buffer -/
def Conn.fed (c : Conn) (n : Nat) (bs : Bytes) (es : List RecvEvent) : Conn := (c.asked n).got bs es

section
variable (c) (n : Nat) (bs : Bytes) (es : List RecvEvent)

@[simp] lemma Conn.fed_str : (c.fed n bs es).buffer.str = c.buffer.str ++ bs := rfl
@[simp] lemma Conn.fed_length : (c.fed n bs es).buffer.length = c.buffer.length + bs.length := List.length_append
@[simp] lemma Conn.fed_size : (c.fed n bs es).buffer.size = c.buffer.size := rfl
@[simp] lemma Conn.fed_offset : (c.fed n bs es).buffer.offset = c.buffer.offset := rfl
@[simp] lemma Conn.fed_queue : (c.fed n bs es).queue = es := rfl
@[simp] lemma Conn.fed_rcvd : (c.fed n bs es).rcvd = c.rcvd ++ bs := rfl

end

lemma lengthMeasure_fed {n : Nat} {bs : Bytes} {es : List RecvEvent} (ht : Taken c.queue n bs es) (l : Label) :
    lengthMeasure (l, c.fed n bs es) < lengthMeasure (.doRecv, c) := by
  have hrank : l.rank ≤ 2 := by cases l <;> decide
  have hpos := List.length_pos_iff.2 ht.ne_nil
  have hwt := ht.weight_le
  show 3 * (2 * weight es + (c.fed n bs es).buffer.length) + l.rank <
    3 * (2 * weight c.queue + c.buffer.length) + 0
  rw [Conn.fed_length]
  omega

lemma doRecv_cases (hr : c.removed = false) :
    (∃ x q, doRecv p dyn c = .inr (x, { c.asked (recvSize p dyn c) with queue := q }) ∧
      (x = .ok ∨ x = .err) ∧ (Segments c.queue → x = .ok ∧ c.queue = [] ∧ q = [])) ∨
    (doRecv p dyn c = .inr (.err, c.asked (recvSize p dyn c)) ∧ (Segments c.queue → recvSize p dyn c = 0)) ∨
    (∃ bs es, Taken c.queue (recvSize p dyn c) bs es ∧ ((c.buffer.size < c.buffer.length + bs.length ∧
          doRecv p dyn c = .inr (.overflow, c.asked (recvSize p dyn c))) ∨
        (c.buffer.length + bs.length ≤ c.buffer.size ∧ doRecv p dyn c = if c.recvWait then
              if c.buffer.offset ≤ c.buffer.length + bs.length then
                .inl (.doDispatch, c.fed (recvSize p dyn c) bs es)
              else .inr (.ok, c.fed (recvSize p dyn c) bs es)
            else .inl (.doGetLength, c.fed (recvSize p dyn c) bs es)))) := by
  unfold doRecv
  rw [hr]
  simp only [Bool.false_eq_true, if_false]
  rcases c.recv_cases (recvSize p dyn c) with ⟨e, q, he, _, hs⟩ | ⟨he, hs⟩ | ⟨bs, es, ht, hd⟩
  · refine .inl ⟨if e = .close then .err else .ok, q, by rw [he], ?_, fun hq => ?_⟩
    · by_cases hc : e = .close
      · exact .inr (if_pos hc)
      · exact .inl (if_neg hc)
    · obtain ⟨rfl, h1, h2⟩ := hs hq
      exact ⟨rfl, h1, h2⟩
  · exact .inr (.inl ⟨by rw [he], hs⟩)
  · refine .inr (.inr ⟨bs, es, ht, ?_⟩)
    rcases hd with ⟨hov, he⟩ | ⟨hfit, he⟩
    · exact .inl ⟨hov, by rw [he]⟩
    · refine .inr ⟨hfit, ?_⟩
      rw [he, ← Conn.fed_length c (recvSize p dyn c) bs es]
      rfl

def OswString.expecting (b : OswString) (n : Nat) : OswString :=
  { b with size := if b.size < n then memAlignedSize n else b.size, offset := n }

lemma OswString.le_expecting (b : OswString) (n : Nat) : n ≤ (b.expecting n).size := by
  show n ≤ if b.size < n then memAlignedSize n else b.size
  have := le_memAlignedSize n
  split <;> omega

lemma OswString.size_le_expecting (b : OswString) (n : Nat) : b.size ≤ (b.expecting n).size := by
  show b.size ≤ if b.size < n then memAlignedSize n else b.size
  have := le_memAlignedSize n
  split <;> omega

def Conn.expecting (c : Conn) (n : Nat) : Conn :=
  { c with recvWait := true, buffer := c.buffer.expecting n }

lemma doGetLength_cases : ((f c.buffer.str).1 < 0 ∧ doGetLength p f c = .inr (.err, c)) ∨
    ((f c.buffer.str).1 = 0 ∧ c.buffer.length = p.headerLen ∧ doGetLength p f c = .inr (.err, c)) ∨
    ((f c.buffer.str).1 = 0 ∧ c.buffer.length ≠ p.headerLen ∧ doGetLength p f c = .inr (.ok, c)) ∨
    ((p.packageMaxLength : Int) < (f c.buffer.str).1 ∧ doGetLength p f c = .inr (.err, c)) ∨
    (∃ n : Nat, (f c.buffer.str).1 = n ∧ 0 < n ∧ n ≤ p.packageMaxLength ∧ doGetLength p f c =
        if n ≤ c.buffer.length then .inl (.doDispatch, c.expecting n)
        else .inl (.doRecv, c.expecting n)) := by
  unfold doGetLength
  by_cases h1 : (f c.buffer.str).1 < 0
  · exact .inl ⟨h1, if_pos h1⟩
  by_cases h2 : (f c.buffer.str).1 = 0
  · by_cases h3 : c.buffer.length = p.headerLen
    · refine .inr (.inl ⟨h2, h3, ?_⟩)
      simp only [if_neg h1, if_pos h2]
      exact if_pos h3
    · refine .inr (.inr (.inl ⟨h2, h3, ?_⟩))
      simp only [if_neg h1, if_pos h2]
      exact if_neg h3
  by_cases h3 : (p.packageMaxLength : Int) < (f c.buffer.str).1
  · refine .inr (.inr (.inr (.inl ⟨h3, ?_⟩)))
    simp only [if_neg h1, if_neg h2, if_pos h3]
  · obtain ⟨n, hn⟩ := Int.eq_ofNat_of_zero_le (show 0 ≤ (f c.buffer.str).1 by omega)
    refine .inr (.inr (.inr (.inr ⟨n, hn, by omega, by omega, ?_⟩)))
    rw [hn] at h1 h2 h3 ⊢
    simp only [if_neg h1, if_neg h2, if_neg h3, Int.toNat_natCast]
    unfold Conn.expecting OswString.expecting OswString.extend
    by_cases hs : c.buffer.size < n
    · simp only [if_pos hs]
      rfl
    · simp only [if_neg hs]
      rfl

/-- the connection while `onPackage` has the package -/
def Conn.handed (c : Conn) : Conn := { c with out := c.out ++ [c.buffer.str.take c.buffer.offset] }

/-- the connection when all its bytes have been handed over; a base-mode worker may have taken the
memory and left a fresh buffer -/
def Conn.emptied (c : Conn) (size : Nat) : Conn :=
  { c.handed with recvWait := false, buffer := ⟨[], size, 0⟩ }

/-- the connection after a package, when more bytes follow it -/
def Conn.advanced (c : Conn) : Conn :=
  { c.handed with
    recvWait := false
    buffer := { c.buffer with str := c.buffer.str.drop c.buffer.offset, offset := 0 } }

lemma doDispatch_cases (hr : c.removed = false) (ho : 0 < c.buffer.offset)
    (hl : c.buffer.offset ≤ c.buffer.length) :
    (doDispatch h c = .inr (.err, c.handed) ∧ ¬ Accepts h) ∨
    (doDispatch h c = .inr (.ok, { c.handed with removed := true }) ∧ ¬ Accepts h) ∨
    (c.buffer.offset < c.buffer.length ∧ doDispatch h c = .inl (.doGetLength, c.advanced)) ∨
    (c.buffer.offset = c.buffer.length ∧ ∃ size, (size = c.buffer.size ∨ size = bufferSizeBig) ∧
      doDispatch h c = .inr (.ok, c.emptied size)) := by
  have hone : c.buffer.offset ≠ 0 := by omega
  have hopen : ¬ c.removed = true := ne_true_of_eq_false hr
  unfold doDispatch Conn.onPackage
  cases hres : h c.out.length with
  | fail =>
    refine .inl ⟨rfl, fun ha => ?_⟩
    rcases ha c.out.length with h1 | h1 <;> rw [hres] at h1 <;> cases h1
  | removed =>
    refine .inr (.inl ⟨rfl, fun ha => ?_⟩)
    rcases ha c.out.length with h1 | h1 <;> rw [hres] at h1 <;> cases h1
  | ok =>
    simp only [if_neg hopen]
    by_cases hlt : c.buffer.offset < c.buffer.length
    · refine .inr (.inr (.inl ⟨hlt, ?_⟩))
      rw [if_pos hlt]
      rw [OswString.reduce_of_pos _ (pos_of_ne_zero hone)]
      rfl
    · refine .inr (.inr (.inr ⟨by omega, c.buffer.size, .inl rfl, ?_⟩))
      rw [if_neg hlt]
      rfl
  | popped =>
    simp only [if_neg hopen]
    unfold OswString.popPackage
    by_cases hlt : c.buffer.offset < c.buffer.length
    · refine .inr (.inr (.inl ⟨hlt, ?_⟩))
      have hpop : ¬ (0 < c.buffer.offset ∧ c.buffer.length = c.buffer.offset) := by omega
      rw [if_neg hpop, if_pos hlt]
      rw [OswString.reduce_of_pos _ (pos_of_ne_zero hone)]
      rfl
    · have hpop : 0 < c.buffer.offset ∧ c.buffer.length = c.buffer.offset := by omega
      refine .inr (.inr (.inr ⟨by omega, bufferSizeBig, .inr rfl, ?_⟩))
      rw [if_pos hpop]
      rfl

end OSW
