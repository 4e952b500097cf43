import OpenSwoole.Protocol.RedisFraming

/-!
# `redis::parse`

The second parser of `src/protocol/redis.cc`: it takes a whole command apart.  The number of strings
is read and not used; the loop goes on up to the end of the data.
-/

namespace OSW
namespace Redis
open Core List Machine

structure Scan where
  state : State := .receiveTotalLine
  length : Int := 0
  p : Nat := 0
  result : List Bytes := []

section
variable (memory : Bytes) (pe : Nat)

/-- `while (p < pe)` -/
def Scan.again (s : Scan) : Scan ⊕ Option (List Bytes) := if s.p < pe then .inl s else .inr (some s.result)

def Scan.string (s : Scan) : Scan ⊕ Option (List Bytes) :=
  if s.length < 0 ∨ 2^31 ≤ s.length + 2 ∨ memory.length < s.p + s.length.toNat then .inr none
  else Scan.again pe { s with
    result := s.result ++ [(memory.drop s.p).take s.length.toNat],
    p := s.p + s.length.toNat + 2, state := .receiveLength }

/-- where `get_number` gives a null pointer the next test reads it -/
def Scan.size (s : Scan) : Scan ⊕ Option (List Bytes) :=
  if memory[s.p]? = some 36 then
    match getNumber memory s.p with
    | none => .inr none
    | some (ret, p) =>
      if ret = -1 then Scan.again pe { s with p := p }
      else Scan.again pe { s with length := ret, state := .receiveString, p := p }
  else if memory[s.p]? = some 58 then
    match getNumber memory s.p with
    | none => .inr none
    | some (ret, p) => Scan.again pe { s with
        result := s.result ++ [(toString ret).toList.map fun c => c.toNat.toUInt8], p := p }
  else Scan.string memory pe s

def Scan.total (s : Scan) : Scan ⊕ Option (List Bytes) :=
  if memory[s.p]? = some 42 then
    match getNumber memory s.p with
    | none => .inr none
    | some (_, p) => Scan.again pe { s with state := .receiveLength, p := p }
  else Scan.size memory pe s

def Scan.step (s : Scan) : Scan ⊕ Option (List Bytes) :=
  match s.state with
  | .receiveTotalLine => Scan.total memory pe s
  | .receiveLength => Scan.size memory pe s
  | .receiveString => Scan.string memory pe s

/-- every turn moves `p`, so the loop has ended after `len + 1` turns -/
def parse (len : Nat) : Option (List Bytes) := (run (Scan.step memory len) (len + 1) {}).join

end

/-- what `p += length + OSW_CRLF_LEN` can pass over -/
def Passable (items : List Bytes) : Prop := ∀ item ∈ items, item.length < 2^31 - 2

instance (items : List Bytes) : Decidable (Passable items) :=
  inferInstanceAs (Decidable (∀ item ∈ items, _))

section
variable {pe p : Nat} {state : State} {length : Int} {result : List Bytes}

lemma Scan.again_inl (h : p < pe) : Scan.again pe ⟨state, length, p, result⟩ = .inl ⟨state, length, p, result⟩ :=
  if_pos h

lemma Scan.again_inr (h : pe ≤ p) : Scan.again pe ⟨state, length, p, result⟩ = .inr (some result) :=
  if_neg (not_lt.2 h)

end

variable {memory bytes behind : Bytes} {items : List Bytes}

/-- **the strings of an array**, behind those that have been taken -/
theorem scan_bulks (h : IsBulks items bytes) (hne : items ≠ []) (hlen : ∀ item ∈ items, item.length < 2^31)
    {p fuel : Nat} (hm : memory.drop p = bytes ++ behind) (hfuel : bytes.length < fuel) (length : Int)
    (result : List Bytes) :
    run (Scan.step memory (p + bytes.length)) fuel ⟨.receiveLength, length, p, result⟩ =
      some (if Passable items then some (result ++ items) else none) := by
  induction h generalizing p fuel length result with
  | nil => exact absurd rfl hne
  | @cons item items bulk rest hb hs ih =>
    obtain ⟨ds, hds, rfl⟩ := hb
    have hitem := hlen item mem_cons_self
    have hm₁ : memory.drop p = [36] ++ (ds ++ (crlf ++ (item ++ (crlf ++ (rest ++ behind))))) := by
      simp only [hm, append_assoc, cons_append, nil_append]
    have hm₂ := drop_line hm₁
    have hm₃ := drop_crlf hm₂
    have hbound : p + 1 + ds.length + 2 + item.length ≤ memory.length := by
      have := congrArg List.length hm₂
      simp only [length_drop, length_append, crlf, length_cons] at this
      omega
    have hpe : p + (36 :: (ds ++ (crlf ++ (item ++ crlf))) ++ rest).length =
        p + 1 + ds.length + 2 + item.length + 2 + rest.length := by
      simp only [length_append, length_cons, crlf, length_nil]
      omega
    rw [hpe]
    obtain ⟨fuel, rfl⟩ : ∃ k, fuel = k + 2 := ⟨fuel - 2, by omega⟩
    have hsize : Scan.step memory (p + 1 + ds.length + 2 + item.length + 2 + rest.length)
        ⟨.receiveLength, length, p, result⟩ =
          .inl ⟨.receiveString, item.length, p + 1 + ds.length + 2, result⟩ := by
      have hhead : memory[p]? = some 36 := by rw [← head?_drop, hm₁]; rfl
      simp only [Scan.step, Scan.size, hhead, if_true, getNumber_decimal hds hitem hm₁]
      rw [if_neg (by omega), Scan.again_inl (by omega)]
    rw [run_inl hsize]
    by_cases hpass : item.length < 2^31 - 2
    · have hstring : Scan.step memory (p + 1 + ds.length + 2 + item.length + 2 + rest.length)
          ⟨.receiveString, item.length, p + 1 + ds.length + 2, result⟩ =
            Scan.again (p + 1 + ds.length + 2 + item.length + 2 + rest.length)
              ⟨.receiveLength, item.length, p + 1 + ds.length + 2 + item.length + 2, result ++ [item]⟩ := by
        simp only [Scan.step, Scan.string, Int.toNat_natCast, hm₂, take_left]
        exact if_neg (by omega)
      have hiff : Passable (item :: items) ↔ Passable items := forall_mem_cons.trans (and_iff_right hpass)
      simp only [hiff]
      by_cases hlast : items = []
      · subst hlast
        cases hs
        rw [run_inr (hstring.trans (Scan.again_inr le_rfl))]
        simp [Passable]
      · rw [run_inl (hstring.trans (Scan.again_inl (Nat.lt_add_of_pos_right (hs.pos hlast)))),
          ih hlast (fun i hi => hlen i (mem_cons_of_mem _ hi)) hm₃ (by omega), append_assoc]
        rfl
    · have hbad : ¬ Passable (item :: items) := fun hp => hpass (hp item mem_cons_self)
      rw [if_neg hbad]
      refine run_inr ?_ fuel
      simp only [Scan.step, Scan.string]
      exact if_pos (by omega)

lemma parse_array_eq (h : IsArray items bytes) (hlen : ∀ item ∈ items, item.length < 2^31) (behind : Bytes) :
    parse (bytes ++ behind) bytes.length = if Passable items then some items else none := by
  obtain ⟨ds, body, hds, hbody, rfl⟩ := h
  have hm₁ : (42 :: (ds ++ (crlf ++ body)) ++ behind).drop 0 = [42] ++ (ds ++ (crlf ++ (body ++ behind))) := by
    simp only [drop_zero, append_assoc, cons_append, nil_append]
  have hm₂ := drop_line hm₁
  have hpe : (42 :: (ds ++ (crlf ++ body))).length = 0 + 1 + ds.length + 2 + body.length := by
    simp only [length_append, length_cons, crlf, length_nil]
    omega
  have htotal : Scan.step (42 :: (ds ++ (crlf ++ body)) ++ behind) (0 + 1 + ds.length + 2 + body.length) {} =
      Scan.again (0 + 1 + ds.length + 2 + body.length) ⟨.receiveLength, 0, 0 + 1 + ds.length + 2, []⟩ := by
    show Scan.total _ _ _ = _
    have hhead : (42 :: (ds ++ (crlf ++ body)) ++ behind)[0]? = some 42 := rfl
    simp only [Scan.total, hhead, if_true, getNumber_line hds hm₁]
  rw [parse, hpe]
  by_cases hne : items = []
  · subst hne
    cases hbody
    rw [run_inr (htotal.trans (Scan.again_inr le_rfl))]
    rfl
  · rw [run_inl (htotal.trans (Scan.again_inl (Nat.lt_add_of_pos_right (hbody.pos hne)))),
      scan_bulks hbody hne hlen hm₂ (by omega), nil_append, Option.join_some]

/-- **Parsing gives back the strings of an array, unless one of them has `2^31 - 2` bytes or more.** -/
theorem parse_isArray (items : List Bytes) (bytes behind : Bytes) (h : IsArray items bytes)
    (hlen : ∀ item ∈ items, item.length < 2^31) :
    parse (bytes ++ behind) bytes.length = some items ↔ ∀ item ∈ items, item.length < 2^31 - 2 := by
  rw [parse_array_eq h hlen behind]
  refine ⟨fun he => ?_, fun hp => if_pos hp⟩
  by_contra hp
  rw [if_neg (show ¬ Passable items from hp)] at he
  cases he

/-- a string with a line break and a `$` -/
theorem parse_isArray_dollar : ∃ bytes, IsArray [[13, 10, 36]] bytes ∧
    parse (bytes ++ []) bytes.length = some [[13, 10, 36]] := by
  have h : IsArray [[13, 10, 36]]
      (42 :: ([49] ++ (crlf ++ (36 :: ([51] ++ (crlf ++ ([13, 10, 36] ++ crlf))) ++ [])))) :=
    ⟨[49], _, ⟨nofun, by decide +kernel, rfl⟩, .cons ⟨[51], ⟨nofun, by decide +kernel, rfl⟩, rfl⟩ .nil, rfl⟩
  exact ⟨_, h, (parse_isArray _ _ [] h (by decide)).2 (by decide)⟩

def longDigits : Bytes := [50, 49, 52, 55, 52, 56, 51, 54, 52, 54]

def longItem : Bytes := .replicate (2^31 - 2) 0

def longArray : Bytes := 42 :: ([49] ++ (crlf ++ (36 :: (longDigits ++ (crlf ++ (longItem ++ crlf))) ++ [])))

lemma longItem_length : longItem.length = 2^31 - 2 := length_replicate

lemma longArray_isArray : IsArray [longItem] longArray := by
  refine ⟨[49], _, ⟨nofun, by decide +kernel, rfl⟩,
    .cons ⟨longDigits, ⟨nofun, by decide +kernel, ?_⟩, rfl⟩ .nil, rfl⟩
  rw [longItem_length]
  rfl

theorem longArray_fails : IsArray [longItem] longArray ∧ longItem.length < 2^31 ∧
    parse (longArray ++ []) longArray.length ≠ some [longItem] := by
  have hlen := longItem_length
  refine ⟨longArray_isArray, by omega, ?_⟩
  rw [parse_array_eq longArray_isArray (forall_mem_singleton.2 (by omega)) [],
    if_neg fun hp => absurd (hp longItem mem_cons_self) (by omega)]
  exact (Option.some_ne_none _).symm

end Redis

end OSW
