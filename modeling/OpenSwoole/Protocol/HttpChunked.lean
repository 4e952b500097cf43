import OpenSwoole.Protocol.Http

/-!
# Chunked bodies

`Request::get_chunked_body_length` walks from size line to size line.  The next position is a sum of
64 bits that nothing checks for overflow, `openswoole_hex2dec` takes every letter for a digit and
reads on to the first byte that is none, and neither the line feed of a size line nor the line end
behind the data is looked at.

* `chunkStep_cases`   everything one turn of the loop can do;
* `Overflows`   a size whose sum comes out at or before the size line itself.
-/

namespace OSW
namespace Http
open List Machine

/-! ## one turn of the loop -/

section
variable (memory : Bytes) (base length : Nat)

/-- the size line at the address `p`: its value, and the number of its characters -/
def sizeLine (p : Nat) : Nat × Nat := hex2dec (memory.drop (p - base))

/-- the address behind the chunk at `p` -/
def nextChunk (p : Nat) : Nat := (p + (sizeLine memory base p).2 + 2 + (sizeLine memory base p).1 + 2) % 2^64

/-- `content_length_` once the chunk at `p` is known -/
def withLength (request : Request) (p : Nat) : Request :=
  { request with contentLength := ((p - (base + request.headerLength) : Int) % 2^32).toNat }

/-- a size line stands at the address: there are three bytes, and a carriage return behind the digits -/
structure HasSizeLine (p : Nat) : Prop where
  base_le : base ≤ p
  room : 3 ≤ base + length - p
  cr : memory[p + (sizeLine memory base p).2 - base]? = some 13

end

section
variable {memory : Bytes} {base length : Nat}

lemma chunkStep_cases (memory : Bytes) (base length p : Nat) (request : Request) (offset : Nat) :
    (p < base ∧ chunkStep memory base length (p, request, offset) = .inr .wild) ∨
    (base ≤ p ∧ base + length - p < 3 ∧
      chunkStep memory base length (p, request, offset) = .inr (.more request offset)) ∨
    (base ≤ p ∧ 3 ≤ base + length - p ∧ ¬ HasSizeLine memory base length p ∧
      chunkStep memory base length (p, request, offset) =
        .inr (.excepted { request with excepted := true } offset)) ∨
    (HasSizeLine memory base length p ∧
      ((base + length < nextChunk memory base p ∧ chunkStep memory base length (p, request, offset) =
          .inr (.more (withLength base request (nextChunk memory base p)) offset)) ∨
        (nextChunk memory base p ≤ base + length ∧ (sizeLine memory base p).1 = 0 ∧
          chunkStep memory base length (p, request, offset) =
            .inr (.ok { withLength base request (nextChunk memory base p) with knownLength := true }
              (nextChunk memory base p - base))) ∨
        (nextChunk memory base p ≤ base + length ∧ (sizeLine memory base p).1 ≠ 0 ∧
          chunkStep memory base length (p, request, offset) =
            .inl (nextChunk memory base p, withLength base request (nextChunk memory base p),
              nextChunk memory base p - base)))) := by
  unfold chunkStep
  simp only
  by_cases hb : p < base
  · exact .inl ⟨hb, if_pos hb⟩
  rw [if_neg hb]
  by_cases hr : base + length - p < 3
  · exact .inr (.inl ⟨by omega, hr, if_pos hr⟩)
  rw [if_neg hr]
  by_cases hcr : memory[p + (hex2dec (memory.drop (p - base))).2 - base]? ≠ some 13
  · exact .inr (.inr (.inl ⟨by omega, by omega, fun h => hcr h.cr, if_pos hcr⟩))
  rw [if_neg hcr]
  refine .inr (.inr (.inr ⟨⟨by omega, by omega, not_not.1 hcr⟩, ?_⟩))
  by_cases hlt : base + length < nextChunk memory base p
  · exact .inl ⟨hlt, if_pos hlt⟩
  by_cases hz : (sizeLine memory base p).1 = 0
  · exact .inr (.inl ⟨by omega, hz, (if_neg hlt).trans (if_pos hz)⟩)
  · exact .inr (.inr ⟨by omega, hz, (if_neg hlt).trans (if_neg hz)⟩)

lemma hexLoop_lt (cs : Bytes) {value : Nat} (h : value < 2^64) : (hexLoop cs value).1 < 2^64 := by
  induction cs generalizing value with
  | nil => exact h
  | cons c cs ih =>
    unfold hexLoop
    cases hexDigit c with
    | none => exact h
    | some d => exact ih (Nat.mod_lt _ (by decide))

/-! ## where the walk goes -/

/-- the memory that the scan may look at: the received bytes and what is behind them, in the lower half
of the address space -/
structure Mapped (memory : Bytes) (base length : Nat) : Prop where
  received : length ≤ memory.length
  address : base + memory.length < 2^63

structure Overflows (memory : Bytes) (base length p : Nat) : Prop where
  line : HasSizeLine memory base length p
  size_ne : (sizeLine memory base p).1 ≠ 0
  sum_ge : 2^64 ≤ p + (sizeLine memory base p).2 + 2 + (sizeLine memory base p).1 + 2
  back : (sizeLine memory base p).2 + 2 + (sizeLine memory base p).1 + 2 ≤ 2^64

/-- a turn that goes on, goes forward, and not past the received bytes -/
def Forward (memory : Bytes) (base length : Nat) (s : Nat × Request × Nat) : Prop :=
  ∀ s', chunkStep memory base length s = .inl s' → s.1 < s'.1 ∧ s'.1 ≤ base + length

lemma HasSizeLine.head_lt {p : Nat} (h : HasSizeLine memory base length p) (hm : Mapped memory base length) :
    p + (sizeLine memory base p).2 < 2^63 := by
  have h1 := (List.getElem?_eq_some_iff.1 h.cr).1
  have h3 := hm.address
  omega

lemma forward_iff (hm : Mapped memory base length) (p : Nat) (request : Request) (offset : Nat) :
    Forward memory base length (p, request, offset) ↔ ¬ Overflows memory base length p := by
  have hlt : (sizeLine memory base p).1 < 2^64 := hexLoop_lt _ (by decide)
  have hstops : ∀ r, chunkStep memory base length (p, request, offset) = .inr r →
      Forward memory base length (p, request, offset) := by
    intro r he s' hs
    rw [he] at hs
    cases hs
  rcases chunkStep_cases memory base length p request offset with
    ⟨hb, he⟩ | ⟨hb, hr, he⟩ | ⟨hb, hr, hno, he⟩ | ⟨hline, ⟨hgt, he⟩ | ⟨hle, hz, he⟩ | ⟨hle, hz, he⟩⟩
  · exact ⟨fun _ h => not_lt.2 h.line.base_le hb, fun _ => hstops _ he⟩
  · exact ⟨fun _ h => not_lt.2 h.line.room hr, fun _ => hstops _ he⟩
  · exact ⟨fun _ h => hno h.line, fun _ => hstops _ he⟩
  · refine ⟨fun _ h => ?_, fun _ => hstops _ he⟩
    have h1 := h.sum_ge
    have h2 := h.back
    have h3 := h.line.room
    unfold nextChunk at hgt
    omega
  · exact ⟨fun _ h => h.size_ne hz, fun _ => hstops _ he⟩
  · have hhead := hline.head_lt hm
    constructor
    · intro hf h
      have h1 := h.sum_ge
      have h2 := h.back
      have hstep : p < nextChunk memory base p := (hf _ he).1
      unfold nextChunk at hstep
      omega
    · intro hno s' hs
      rw [he] at hs
      obtain rfl := Sum.inl.inj hs
      refine ⟨?_, hle⟩
      by_contra hback
      unfold nextChunk at hback
      exact hno ⟨hline, hz, by omega, by omega⟩

/-- `buffer_->offset` when the function returns -/
def ChunkRes.offset : ChunkRes → Nat
  | .ok _ offset | .more _ offset | .excepted _ offset => offset
  | .wild => 0

lemma chunkStep_returns {p : Nat} {request : Request} {offset : Nat} {r : ChunkRes} (hb : base ≤ p)
    (hoff : offset ≤ length) (he : chunkStep memory base length (p, request, offset) = .inr r) :
    r ≠ .wild ∧ r.offset ≤ length := by
  rcases chunkStep_cases memory base length p request offset with
    ⟨hlt, he'⟩ | ⟨_, _, he'⟩ | ⟨_, _, _, he'⟩ | ⟨_, ⟨_, he'⟩ | ⟨hle, _, he'⟩ | ⟨_, _, he'⟩⟩
  · omega
  · obtain rfl := Sum.inr.inj (he.symm.trans he')
    exact ⟨by simp, hoff⟩
  · obtain rfl := Sum.inr.inj (he.symm.trans he')
    exact ⟨by simp, hoff⟩
  · obtain rfl := Sum.inr.inj (he.symm.trans he')
    exact ⟨by simp, hoff⟩
  · obtain rfl := Sum.inr.inj (he.symm.trans he')
    refine ⟨by simp, ?_⟩
    show nextChunk memory base p - base ≤ length
    omega
  · rw [he] at he'
    cases he'

lemma chunkStep_saves {p : Nat} {request : Request} {offset : Nat} {s' : Nat × Request × Nat}
    (he : chunkStep memory base length (p, request, offset) = .inl s') : s'.2.2 = s'.1 - base := by
  rcases chunkStep_cases memory base length p request offset with
    ⟨_, he'⟩ | ⟨_, _, he'⟩ | ⟨_, _, _, he'⟩ | ⟨_, ⟨_, he'⟩ | ⟨_, _, he'⟩ | ⟨_, _, he'⟩⟩
  · rw [he] at he'
    cases he'
  · rw [he] at he'
    cases he'
  · rw [he] at he'
    cases he'
  · rw [he] at he'
    cases he'
  · rw [he] at he'
    cases he'
  · obtain rfl := Sum.inl.inj (he.symm.trans he')
    rfl

lemma run_returns (hm : Mapped memory base length) {s : Nat × Request × Nat} (hs : base ≤ s.1)
    (hle : s.1 ≤ base + length) (hoff : s.2.2 ≤ length) {fuel : Nat} (hfuel : base + length - s.1 < fuel)
    (hc : Throughout (chunkStep memory base length) (fun s => ¬ Overflows memory base length s.1) fuel s) :
    ∃ r, run (chunkStep memory base length) fuel s = some r ∧ r ≠ .wild ∧ r.offset ≤ length := by
  refine run_throughout (I := fun s => base ≤ s.1 ∧ s.1 ≤ base + length ∧ s.2.2 ≤ length)
    (μ := fun s => base + length - s.1) ?_ hc ⟨hs, hle, hoff⟩ hfuel
  rintro ⟨p, request, offset⟩ ⟨hb, hp, ho⟩ hno
  cases he : chunkStep memory base length (p, request, offset) with
  | inl s' =>
    obtain ⟨h1, h2⟩ := (forward_iff hm p request offset).2 hno s' he
    have h3 := chunkStep_saves he
    refine .inl ⟨s', he, ⟨by omega, h2, by omega⟩, ?_⟩
    show base + length - s'.1 < base + length - p
    omega
  | inr r => exact .inr ⟨r, he, chunkStep_returns hb ho he⟩

end

/-- **Chunked-body scanning ends** exactly if no size line of the walk overflows. -/
theorem chunked_terminates_iff (memory : Bytes) (base length : Nat) (hm : Mapped memory base length)
    (request : Request) (offset : Nat) (hoff : offset ≤ length) :
    ((∃ r, getChunkedBodyLength memory base length request offset = some r ∧ r ≠ .wild ∧ r.offset ≤ length) ∧
      ∀ n, Throughout (chunkStep memory base length) (Forward memory base length) n
        (base + offset, request, offset)) ↔
    ∀ n, Throughout (chunkStep memory base length) (fun s => ¬ Overflows memory base length s.1) n
      (base + offset, request, offset) := by
  constructor
  · rintro ⟨-, hall⟩ n
    exact (hall n).imp fun s hs => (forward_iff hm s.1 s.2.1 s.2.2).1 hs
  · intro hall
    refine ⟨run_returns hm (Nat.le_add_right _ _) (Nat.add_le_add_left hoff _) hoff ?_ (hall _), fun n => ?_⟩
    · omega
    · exact (hall n).imp fun s hs => (forward_iff hm s.1 s.2.1 s.2.2).2 hs

def twoChunks : Bytes := ascii "3\r\nabc\r\n0\r\n\r\n"

theorem chunked_terminates_two :
    ((∃ r, getChunkedBodyLength twoChunks 4096 13 {} 0 = some r ∧ r ≠ .wild ∧ r.offset ≤ 13) ∧
      ∀ n, Throughout (chunkStep twoChunks 4096 13) (Forward twoChunks 4096 13) n (4096, {}, 0)) ↔
    ∀ n, Throughout (chunkStep twoChunks 4096 13) (fun s => ¬ Overflows twoChunks 4096 13 s.1) n (4096, {}, 0) :=
  chunked_terminates_iff twoChunks 4096 13 ⟨by decide, by decide⟩ {} 0 (by decide)

/-- a size of `2^64 - 20` in a size line of eighteen bytes: the next chunk is the same one -/
theorem chunked_endless : getChunkedBodyLength (ascii "FFFFFFFFFFFFFFEC\r\n") 4096 18 {} 0 = none ∧
    chunkStep (ascii "FFFFFFFFFFFFFFEC\r\n") 4096 18 (4096, {}, 0) = .inl (4096, {}, 0) := by
  have hstep : chunkStep (ascii "FFFFFFFFFFFFFFEC\r\n") 4096 18 (4096, {}, 0) = .inl (4096, {}, 0) := rfl
  exact ⟨run_fixed hstep _, hstep⟩

/-! ## the chunks that `Response::write` sends -/

def digit (d : Nat) : UInt8 := (ascii "0123456789abcdefghijklmnopqrstuvwxyz").getD d 0

/-- the loop of `openswoole_dec2hex`, with room for `n` digits; the later ones stand in front -/
def dec2hexLoop (base : Nat) : Nat → Nat → Bytes
  | 0, _ => []
  | n + 1, value =>
    (if value / base = 0 then [] else dec2hexLoop base n (value / base)) ++ [digit (value % base)]

def dec2hex (value base : Nat) : Bytes := dec2hexLoop base 64 value

def chunk (body : Bytes) : Bytes := dec2hex body.length 16 ++ ascii "\r\n" ++ body ++ ascii "\r\n"

/-- the body of a response without trailers: the chunks of `write`, which refuses empty data, and the end -/
def chunkedBody (writes : List Bytes) : Bytes :=
  writes.flatMap (fun data => if data.length = 0 then [] else chunk data) ++ ascii "0\r\n\r\n"

lemma digit_spec : ∀ d < 16, hexDigit (digit d) = some d ∧ toLower (digit d) ≠ 120 := by decide

lemma hexLoop_dec2hex {n v : Nat} (hn : v < 16^n) (hv : v < 2^64) (rest : Bytes) :
    hexLoop (dec2hexLoop 16 n v ++ rest) 0 =
      ((hexLoop rest v).1, (hexLoop rest v).2 + (dec2hexLoop 16 n v).length) ∧
    ∀ b ∈ dec2hexLoop 16 n v, toLower b ≠ 120 := by
  induction n generalizing v rest with
  | zero =>
    obtain rfl : v = 0 := by simpa using hn
    exact ⟨rfl, nofun⟩
  | succ n ih =>
    obtain ⟨hd, hx⟩ := digit_spec (v % 16) (Nat.mod_lt _ (by decide))
    have hstep : hexLoop (digit (v % 16) :: rest) (v / 16) = ((hexLoop rest v).1, (hexLoop rest v).2 + 1) := by
      rw [hexLoop, hd]
      simp only [show (v / 16 * 16 + v % 16) % 2^64 = v by omega]
    obtain ⟨hloop, hmem⟩ := ih (v := v / 16) (by omega) (by omega) (digit (v % 16) :: rest)
    rw [dec2hexLoop, append_assoc]
    split
    · rename_i h0
      rw [h0] at hstep
      simpa [hx] using hstep
    · simp_all [or_imp, forall_and]
      omega

lemma hex2dec_dec2hex {v : Nat} (hv : v < 2^64) (rest : Bytes) :
    hex2dec (dec2hex v 16 ++ 13 :: rest) = (v, (dec2hex v 16).length) := by
  obtain ⟨hloop, hx⟩ := hexLoop_dec2hex (n := 64) (by omega) hv (13 :: rest)
  -- no digit is the `x` of a prefix
  have hno : ((dec2hexLoop 16 64 v ++ 13 :: rest).take 2).map toLower ≠ ascii "0x" :=
    match dec2hexLoop 16 64 v, hx with
    | [], _ => fun h => nomatch (cons.inj h).1
    | [_], _ => fun h => nomatch (cons.inj (cons.inj h).2).1
    | _ :: b :: _, hx => fun h => hx b (by simp) (cons.inj (cons.inj h).2).1
  unfold hex2dec dec2hex
  rw [if_neg hno]
  simp [hloop, hexLoop, show hexDigit 13 = none by decide]

section
variable {memory : Bytes} {base length p q : Nat} {rest : Bytes}

lemma chunkStep_chunk {body : Bytes} (hm : Mapped memory base length) (hp : base ≤ p)
    (hmem : memory.drop (p - base) = chunk body ++ rest) (hq : p + (chunk body).length = q)
    (hle : q ≤ base + length) (request : Request) (offset : Nat) :
    p < q ∧ chunkStep memory base length (p, request, offset) =
      if body.length = 0 then .inr (.ok { withLength base request q with knownLength := true } (q - base))
      else .inl (q, withLength base request q, q - base) := by
  obtain ⟨hrec, haddr⟩ := hm
  have hlen : (chunk body).length = (dec2hex body.length 16).length + body.length + 4 := by
    simp +arith [chunk, ascii]
  have hsize : hex2dec (memory.drop (p - base)) = (body.length, (dec2hex body.length 16).length) := by
    rw [hmem, ← hex2dec_dec2hex (by omega) (10 :: (body ++ ascii "\r\n" ++ rest))]
    simp [chunk, ascii]
  have hcr : memory[p + (dec2hex body.length 16).length - base]? = some 13 := by
    rw [Nat.sub_add_comm hp, ← getElem?_drop, hmem]
    simp [chunk, ascii]
  have hnext : (p + (dec2hex body.length 16).length + 2 + body.length + 2) % 2^64 = q := by omega
  refine ⟨by omega, ?_⟩
  unfold chunkStep
  simp only [hsize, hcr, hnext]
  rw [if_neg (by omega), if_neg (by omega), if_neg (by simp), if_neg (by omega)]
  rfl

lemma run_chunks {writes : List Bytes} {fuel : Nat} (hm : Mapped memory base length) (hp : base ≤ p)
    (hmem : memory.drop (p - base) = chunkedBody writes ++ rest) (hq : p + (chunkedBody writes).length = q)
    (hle : q ≤ base + length) (hfuel : q - p < fuel) (request : Request) (offset : Nat) :
    run (chunkStep memory base length) fuel (p, request, offset) =
      some (.ok { withLength base request q with knownLength := true } (q - base)) := by
  induction writes generalizing p request offset fuel with
  | nil =>
    obtain ⟨fuel, rfl⟩ : ∃ k, fuel = k + 1 := ⟨fuel - 1, by omega⟩
    -- the end is the chunk of no data
    exact run_inr (chunkStep_chunk hm hp (show _ = chunk [] ++ rest from hmem) hq hle _ _).2 fuel
  | cons data writes ih =>
    obtain ⟨fuel, rfl⟩ : ∃ k, fuel = k + 1 := ⟨fuel - 1, by omega⟩
    simp only [chunkedBody, flatMap_cons, append_assoc] at hmem hq ih
    split at hmem
    · rename_i h0
      rw [if_pos h0] at hq
      exact ih hp hmem hq hfuel _ _
    · rename_i h0
      rw [if_neg h0, length_append] at hq
      obtain ⟨hlt, hstep⟩ := chunkStep_chunk hm hp hmem rfl (by omega) request offset
      rw [if_neg h0] at hstep
      rw [run_inl hstep]
      refine ih (by omega) ?_ (by omega) (by omega) _ _
      rw [Nat.sub_add_comm hp, ← drop_drop, hmem, drop_left]

/-- **The reader of chunked bodies finds the end of what the writer sends**, whatever follows it. -/
theorem chunked_written {writes : List Bytes} {offset : Nat} (hm : Mapped memory base length)
    (hmem : memory.drop offset = chunkedBody writes ++ rest)
      (hle : offset + (chunkedBody writes).length ≤ length)
    (request : Request) :
    getChunkedBodyLength memory base length request offset =
      some (.ok
        { withLength base request (base + offset + (chunkedBody writes).length) with knownLength := true }
        (offset + (chunkedBody writes).length)) := by
  have h := run_chunks hm (Nat.le_add_right base offset) (by simpa using hmem) rfl (by omega)
    (show _ < length + 2 by omega) request offset
  rw [getChunkedBodyLength, h]
  congr 2
  omega

end

theorem chunked_written_two : getChunkedBodyLength (ascii "1\r\na\r\n0\r\n\r\nGET") 4096 14 {} 0 =
      some (.ok { contentLength := 11, knownLength := true } 11) :=
  chunked_written ⟨by decide, by decide⟩ (show _ = chunkedBody [[97], []] ++ ascii "GET" from rfl) (by decide) {}

end Http
end OSW
