import OpenSwoole.Server.StaticHandler

/-!
# Host names and certificate names

`ssl_matches_wildcard_name` of `src/server/port.cc`.  Names are C strings.  A read behind the end of a name
gives `none`.

* `Matches`   the names are equal, or the star stands for a string without dots;
* `Overlaps`   the host name begins and ends as it should, but these two parts overlap.
-/

namespace OSW
open List

/-- `strcasecmp(a, b) == 0` -/
def strcaseeq (a b : Bytes) : Bool := a.map tolower == b.map tolower

/-- `memchr(s, '.', n) != NULL`; a negative `n` is a `size_t` above the size of any object -/
def memchrDot (s : Bytes) (n : Int) : Option Bool :=
  if n < 0 then if dot ∈ s then some true else none else some (dot ∈ s.take n.toNat)

/-- what stands in front of the first star, and behind it -/
def beforeStar (certname : Bytes) : Bytes := certname.take (certname.idxOf 42)
def behindStar (certname : Bytes) : Bytes := certname.drop (certname.idxOf 42 + 1)

def sslMatchesWildcardName (subjectname certname : Bytes) : Option Bool :=
  let prefixLen := certname.idxOf 42
  let suffixLen := (behindStar certname).length
  if strcaseeq subjectname certname then some true
  else if 42 ∉ certname ∨ dot ∈ beforeStar certname then some false
  else if prefixLen ≠ 0 ∧ strncaseeq prefixLen subjectname certname = false then some false
  else if suffixLen ≤ subjectname.length then
    if strcaseeq (behindStar certname) (subjectname.drop (subjectname.length - suffixLen)) then
      (memchrDot (subjectname.drop prefixLen) (subjectname.length - suffixLen - prefixLen)).map (!·)
    else some false
  else some false

def Matches (subject cert : Bytes) : Prop :=
  strcaseeq subject cert ∨ 42 ∈ cert ∧ dot ∉ beforeStar cert ∧
    ∃ mid, dot ∉ mid ∧ strcaseeq subject (beforeStar cert ++ (mid ++ behindStar cert))

/-- the parts of the host name that are compared with the two parts of the certificate name -/
def Framed (subject pre suf : Bytes) : Prop :=
  strcaseeq (subject.take pre.length) pre ∧ strcaseeq suf (subject.drop (subject.length - suf.length)) ∧
    suf.length ≤ subject.length

def Overlaps (subject cert : Bytes) : Prop :=
  42 ∈ cert ∧ dot ∉ beforeStar cert ∧ Framed subject (beforeStar cert) (behindStar cert) ∧
    subject.length < (beforeStar cert).length + (behindStar cert).length ∧
      dot ∉ subject.drop (beforeStar cert).length

section
variable {a b : Bytes} {n : Nat}

lemma strcaseeq_iff : strcaseeq a b = true ↔ a.map tolower = b.map tolower := beq_iff_eq

lemma strncaseeq_iff (h0 : 0 ∉ a) : strncaseeq n a b = true ↔ strcaseeq (a.take n) (b.take n) = true := by
  rw [strcaseeq_iff]
  induction n generalizing a b with
  | zero => simp [strncaseeq]
  | succ n ih =>
    cases a with
    | nil => cases b <;> simp [strncaseeq]
    | cons x a =>
      cases b with
      | nil => simp [strncaseeq]
      | cons y b =>
        rw [mem_cons, not_or] at h0
        simp [strncaseeq, ih h0.2, Ne.symm h0.1]

lemma length_of_strcaseeq (h : strcaseeq a b = true) : a.length = b.length := by
  simpa using congrArg length (strcaseeq_iff.1 h)

lemma tolower_dot : ∀ c : UInt8, tolower c = dot ↔ c = dot := forall_byte (by decide +kernel)

lemma dot_mem_of_strcaseeq (h : strcaseeq a b = true) : dot ∈ a ↔ dot ∈ b := by
  have hmem : ∀ x : Bytes, dot ∈ x ↔ dot ∈ x.map tolower := by
    intro x
    simp [tolower_dot]
  rw [hmem a, hmem b, strcaseeq_iff.1 h]

end

section
variable {s pre suf : Bytes}

/-- the star stands for what is between the two parts -/
lemma replaced_iff (hlen : pre.length + suf.length ≤ s.length) :
    (∃ mid, dot ∉ mid ∧ strcaseeq s (pre ++ (mid ++ suf)) = true) ↔ Framed s pre suf ∧
      dot ∉ (s.drop pre.length).take (s.length - suf.length - pre.length) := by
  have hs : s = s.take pre.length ++ ((s.drop pre.length).take (s.length - suf.length - pre.length) ++
      s.drop (s.length - suf.length)) := by
    have hdrop : s.drop (s.length - suf.length) =
        (s.drop pre.length).drop (s.length - suf.length - pre.length) := by
      rw [drop_drop]
      congr 1
      omega
    rw [hdrop, take_append_drop, take_append_drop]
  constructor
  · rintro ⟨mid, hmid, he⟩
    have hmidlen := length_of_strcaseeq he
    rw [strcaseeq_iff, hs] at he
    simp only [map_append] at he
    simp only [length_append] at hmidlen
    obtain ⟨h1, h2⟩ := append_inj he (by simp; omega)
    obtain ⟨h2, h3⟩ := append_inj h2 (by simp; omega)
    refine ⟨⟨strcaseeq_iff.2 h1, strcaseeq_iff.2 h3.symm, by omega⟩, fun hd => hmid ?_⟩
    exact (dot_mem_of_strcaseeq (strcaseeq_iff.2 h2)).1 hd
  · rintro ⟨⟨h1, h3, -⟩, hd⟩
    refine ⟨_, hd, ?_⟩
    rw [strcaseeq_iff] at h1 h3 ⊢
    conv_lhs => rw [hs]
    simp only [map_append, h1, h3]

end

variable {subject cert : Bytes}

lemma length_beforeStar (h : 42 ∈ cert) : (beforeStar cert).length = cert.idxOf 42 :=
  length_take_of_le (Nat.le_of_lt (idxOf_lt_length_iff.2 h))

lemma length_cert (h : 42 ∈ cert) : cert.length = (beforeStar cert).length + 1 + (behindStar cert).length := by
  have := idxOf_lt_length_iff.2 h
  rw [length_beforeStar h, behindStar, length_drop]
  omega

lemma prefix_iff (hs : 0 ∉ subject) (hstar : 42 ∈ cert) :
    ¬ (cert.idxOf 42 ≠ 0 ∧ strncaseeq (cert.idxOf 42) subject cert = false) ↔
      strcaseeq (subject.take (beforeStar cert).length) (beforeStar cert) = true := by
  rw [length_beforeStar hstar, ← Bool.not_eq_true, strncaseeq_iff hs, beforeStar]
  by_cases hzero : cert.idxOf 42 = 0
  · simp [hzero, strcaseeq]
  · simp [hzero]

/-- behind the comparisons with the two parts; an empty one in front of the star is not made -/
lemma matches_framed (hs : 0 ∉ subject) (heq : strcaseeq subject cert = false) (hstar : 42 ∈ cert)
    (hdot : dot ∉ beforeStar cert) (h : Framed subject (beforeStar cert) (behindStar cert)) :
    sslMatchesWildcardName subject cert = (memchrDot (subject.drop (beforeStar cert).length)
      (subject.length - (behindStar cert).length - (beforeStar cert).length)).map (!·) := by
  have hpre := (prefix_iff hs hstar).2 h.1
  simp [sslMatchesWildcardName, heq, hstar, hdot, hpre, h.2.1, h.2.2, length_beforeStar hstar]

lemma matches_not_framed (hs : 0 ∉ subject) (heq : strcaseeq subject cert = false) (hstar : 42 ∈ cert)
    (h : ¬ Framed subject (beforeStar cert) (behindStar cert)) :
    sslMatchesWildcardName subject cert = some false := by
  unfold sslMatchesWildcardName
  simp only [heq, Bool.false_eq_true, if_false]
  split
  · rfl
  split
  · rfl
  · rename_i hpre
    split
    · split
      · rename_i hle hsuf
        exact absurd ⟨(prefix_iff hs hstar).1 hpre, hsuf, hle⟩ h
      · rfl
    · rfl

/-- **Matching is exact, and stays inside of the names, exactly if the parts of the host name do not overlap.**
-/
theorem wildcard_exact_iff (subject cert : Bytes) (hs : 0 ∉ subject) :
    (∃ b, sslMatchesWildcardName subject cert = some b ∧ (b = true ↔ Matches subject cert)) ↔
      ¬ Overlaps subject cert := by
  by_cases heq : strcaseeq subject cert = true
  · have hno : ¬ Overlaps subject cert := by
      rintro ⟨hstar, -, -, hlt, -⟩
      have := length_of_strcaseeq heq
      have := length_cert hstar
      omega
    simp [sslMatchesWildcardName, heq, hno, Matches]
  by_cases hstar : 42 ∉ cert ∨ dot ∈ beforeStar cert
  · have hnot : ∀ {P : Prop}, ¬ (42 ∈ cert ∧ dot ∉ beforeStar cert ∧ P) := by tauto
    simp [sslMatchesWildcardName, heq, hstar, Overlaps, Matches, hnot]
  rw [not_or, not_not] at hstar
  obtain ⟨hstar, hdot⟩ := hstar
  rw [Bool.not_eq_true] at heq
  have hmatch : Matches subject cert ↔ ∃ mid, dot ∉ mid ∧
      strcaseeq subject (beforeStar cert ++ (mid ++ behindStar cert)) = true := by
    simp [Matches, heq, hstar, hdot]
  have hover : Overlaps subject cert ↔ Framed subject (beforeStar cert) (behindStar cert) ∧
      subject.length < (beforeStar cert).length + (behindStar cert).length ∧
      dot ∉ subject.drop (beforeStar cert).length := by
    simp [Overlaps, hstar, hdot]
  rw [hmatch, hover]
  have hle : (∃ mid, dot ∉ mid ∧ strcaseeq subject (beforeStar cert ++ (mid ++ behindStar cert)) = true) →
      (beforeStar cert).length + (behindStar cert).length ≤ subject.length := by
    rintro ⟨mid, -, he⟩
    rw [length_of_strcaseeq he, length_append, length_append]
    omega
  by_cases hframed : Framed subject (beforeStar cert) (behindStar cert)
  · rw [matches_framed hs heq hstar hdot hframed, memchrDot]
    by_cases hlen : (beforeStar cert).length + (behindStar cert).length ≤ subject.length
    · have hsub : ((subject.length : Int) - (behindStar cert).length - (beforeStar cert).length).toNat =
          subject.length - (behindStar cert).length - (beforeStar cert).length := by
        omega
      rw [if_neg (by omega), hsub, replaced_iff hlen]
      simp [hframed, Nat.not_lt.2 hlen, em]
    · rw [if_pos (by omega)]
      by_cases hd : dot ∈ subject.drop (beforeStar cert).length
      · simp [hd, mt hle hlen]
      · simp [hd, hframed, Nat.not_le.1 hlen]
  · rw [matches_not_framed hs heq hstar hframed]
    have hno : ¬ ∃ mid, dot ∉ mid ∧ strcaseeq subject (beforeStar cert ++ (mid ++ behindStar cert)) = true :=
      fun h => hframed ((replaced_iff (hle h)).1 h).1
    simp [hframed, hno]

/-- `f*.c` and `foo.c` -/
theorem wildcard_exact_foo : ∃ b, sslMatchesWildcardName [102, 111, 111, 46, 99] [102, 42, 46, 99] = some b ∧
    (b = true ↔ Matches [102, 111, 111, 46, 99] [102, 42, 46, 99]) :=
  (wildcard_exact_iff _ _ (by decide)).2 fun h => absurd h.2.2.2.1 (by decide)

/-- `a*a` and `a`: behind the first letter `2^64 - 1` bytes are searched for a dot -/
theorem wildcard_overlap : sslMatchesWildcardName [97] [97, 42, 97] = none := by decide

end OSW
