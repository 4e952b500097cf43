import OpenSwoole.Protocol.Http

/-!
# Header blocks, and what the parser reads off them

A header block is a request line and header lines, each ended by `\r\n`, and an empty line.  The parser
is called on what has been received of it, at any length.

* `WireHeader`, `WireRequest`   header blocks with their `Content-Length`, and requests;
* `getProtocol_line`   **on every part of a block the request line is taken, or left for later, with an
    offset inside of it**;
* `getHeaderLength_block`, `getHeaderLength_part`   the empty line is found where it is;
* `parseHeaderInfo_block`   **the length of the body is the one of the header lines**.
-/

namespace OSW.Http
open List Option

/-! ## header blocks -/

def isTchar (b : UInt8) : Bool :=
  isDigit b || (65 ≤ b && b ≤ 90) || (97 ≤ b && b ≤ 122) || (ascii "!#$%&'*+-.^_`|~").contains b

def IsRequestLine (method line : Bytes) : Prop :=
  (method ≠ [] ∧ ∀ b ∈ method, isTchar b = true) ∧
    ∃ url version, url ≠ [] ∧ (∀ b ∈ url, isSpace b = false) ∧
      version ∈ [ascii "HTTP/1.1", ascii "HTTP/1.0"] ∧ line = method ++ 32 :: (url ++ 32 :: version)

/-- a line is not empty and does not end before its end -/
def IsLine (line : Bytes) : Prop := line ≠ [] ∧ 13 ∉ line ∧ 10 ∉ line

/-- lines, each with its end, and the empty line -/
def block : List Bytes → Bytes
  | [] => crlf
  | line :: lines => line ++ (crlf ++ block lines)

/-- the line starts with `name`, in upper or lower case -/
def Named (name line : Bytes) : Prop := (line.take name.length).map toLower = name.map toLower

instance (name line : Bytes) : Decidable (Named name line) := inferInstanceAs (Decidable (_ = _))

def IsOws (ws : Bytes) : Prop := ∀ b ∈ ws, b = 32 ∨ b = 9

/-- `Content-Length:` with the number `n` -/
def IsContentLength (n : Nat) (line : Bytes) : Prop :=
  ∃ name ws ds ws', Named (ascii "Content-Length:") name ∧ name.length = 15 ∧ IsOws ws ∧ IsDecimal ds n ∧
    IsOws ws' ∧ line = name ++ (ws ++ (ds ++ ws'))

/-- `Transfer-Encoding: chunked` -/
def IsChunked (line : Bytes) : Prop :=
  Named (ascii "Transfer-Encoding:") line ∧ Named (ascii "chunked") ((line.drop 18).dropWhile (· == 32))

/-- the header lines of a request whose body has the length `n`, or of one without `Content-Length` -/
structure IsFields (n : Option Nat) (lines : List Bytes) : Prop where
  line : ∀ line ∈ lines, IsLine line
  length : ∀ line ∈ lines, Named (ascii "Content-Length:") line → ∃ k, n = some k ∧ IsContentLength k line
  known : n ≠ none → ∃ line ∈ lines, Named (ascii "Content-Length:") line
  notChunked : ∀ line ∈ lines, ¬ IsChunked line

structure WireHeader where
  method : Bytes
  line : Bytes
  lines : List Bytes
  length : Option Nat
  requestLine : IsRequestLine method line
  fields : IsFields length lines

def WireHeader.header (r : WireHeader) : Bytes := block (r.line :: r.lines)

/-- `get_protocol` knows the method -/
def WireHeader.Known (r : WireHeader) : Prop := ∃ m, (r.method, m) ∈ methods

def WireHeader.bodyLength (r : WireHeader) : Nat := r.length.getD 0

structure WireRequest extends WireHeader where
  body : Bytes
  body_length : body.length = toWireHeader.bodyLength

def WireRequest.bytes (r : WireRequest) : Bytes := r.header ++ r.body

/-! ## the request line -/

/-- a request after `get_protocol` and before the end of the header: the request line ends at `bound` -/
structure Begun (bound : Nat) (request : Request) : Prop where
  method : request.method ≠ none
  info : request.toHeaderInfo = {}
  excepted : request.excepted = false
  headerParsed : request.headerParsed = false
  triedToDispatch : request.triedToDispatch = false
  nobodyChunked : request.nobodyChunked = false
  headerLength : request.headerLength = 0
  requestLineLength : request.requestLineLength ≤ bound

section
variable {t url us version more : Bytes} {p : Nat} {request : Request}

def Scanned (request request' : Request) : Prop :=
  ∃ offset length version', request' =
    { request with urlOffset := offset, urlLength := length, version := version' }

lemma Scanned.refl (request : Request) : Scanned request request :=
  ⟨request.urlOffset, request.urlLength, request.version, rfl⟩

lemma Scanned.trans {r r' r'' : Request} (h : Scanned r r') (h' : Scanned r' r'') : Scanned r r'' := by
  obtain ⟨_, _, _, rfl⟩ := h
  obtain ⟨o, l, v, rfl⟩ := h'
  exact ⟨o, l, v, rfl⟩

/-- the loop ends with `_end` not behind `bound`, or for lack of data -/
def LineEnd (request : Request) (bound : Nat) (length : Nat) (r : LineRes) : Prop :=
  ∃ request', Scanned request request' ∧
    ((r = .short request' ∧ length < bound) ∨ ∃ q, r = .found q request' ∧ q + 8 ≤ bound)

lemma LineEnd.of_scanned {r r' : Request} {bound n : Nat} {res : LineRes} (hs : Scanned r r')
    (h : LineEnd r' bound n res) : LineEnd r bound n res := by
  obtain ⟨r'', hs', hend⟩ := h
  exact ⟨r'', hs.trans hs', hend⟩

lemma scanLine_nil {bound : Nat} (state : LineState) (h : p + 8 ≤ bound) (n : Nat) :
    LineEnd request bound n (scanLine state p [] request) :=
  ⟨request, .refl _, .inr ⟨p, rfl, h⟩⟩

lemma version_spec : ∀ version ∈ [ascii "HTTP/1.1", ascii "HTTP/1.0"],
    version.length = 8 ∧ version.head? = some 72 ∧ 13 ∉ version ∧ 10 ∉ version := by
  decide

variable (hv : version ∈ [ascii "HTTP/1.1", ascii "HTTP/1.0"])
include hv

lemma scanLine_version (ht : t <+: version ++ more) :
    LineEnd request (p + 8) (p + t.length) (scanLine .beforeVersion p t request) := by
  obtain ⟨hlen, hhead, -⟩ := version_spec version hv
  cases t with
  | nil => exact scanLine_nil _ le_rfl _
  | cons c cs =>
    have hc : isSpace c = false := by
      obtain ⟨tail, htail⟩ := head?_eq_some_iff.1 hhead
      obtain ⟨rfl, -⟩ := cons_prefix_cons.1 (htail ▸ ht)
      decide
    unfold scanLine
    rw [if_neg (ne_true_of_eq_false hc)]
    by_cases hshort : (c :: cs).length < 8
    · rw [if_pos hshort]
      exact ⟨request, .refl _, .inl ⟨rfl, by omega⟩⟩
    · rw [if_neg hshort]
      have hpre : version <+: c :: cs := prefix_of_prefix_length_le (prefix_append _ _) ht (by omega)
      by_cases h11 : ascii "HTTP/1.1" <+: c :: cs
      · rw [if_pos h11]
        exact ⟨_, ⟨_, _, some .v11, rfl⟩, .inr ⟨p, rfl, le_rfl⟩⟩
      · rw [if_neg h11]
        rcases mem_pair.1 hv with rfl | rfl
        · exact absurd hpre h11
        · rw [if_pos hpre]
          exact ⟨_, ⟨_, _, some .v10, rfl⟩, .inr ⟨p, rfl, le_rfl⟩⟩

lemma scanLine_url (hus : ∀ b ∈ us, isSpace b = false) (ht : t <+: us ++ 32 :: (version ++ more)) :
    LineEnd request (p + us.length + 9) (p + t.length) (scanLine .url p t request) := by
  induction us generalizing p t request with
  | nil =>
    cases t with
    | nil => exact scanLine_nil _ (by omega) _
    | cons c cs =>
      obtain ⟨rfl, ht'⟩ := cons_prefix_cons.1 ht
      unfold scanLine
      refine .of_scanned ⟨request.urlOffset, p - request.urlOffset, request.version, rfl⟩ ?_
      rw [length_nil, length_cons, add_comm cs.length, ← add_assoc]
      exact scanLine_version hv ht'
  | cons u us ih =>
    cases t with
    | nil => exact scanLine_nil _ (by omega) _
    | cons c cs =>
      obtain ⟨rfl, ht'⟩ := cons_prefix_cons.1 ht
      have hc : isSpace c = false := hus c mem_cons_self
      unfold scanLine
      rw [if_neg (ne_true_of_eq_false hc), length_cons, length_cons, add_comm us.length, add_comm cs.length,
        ← add_assoc, ← add_assoc]
      exact ih (forall_mem_cons.1 hus).2 ht'

lemma scanLine_line (hne : url ≠ []) (hurl : ∀ b ∈ url, isSpace b = false)
    (ht : t <+: 32 :: (url ++ 32 :: (version ++ more))) :
    LineEnd request (p + url.length + 10) (p + t.length) (scanLine .beforeUrl p t request) := by
  cases t with
  | nil => exact scanLine_nil _ (by omega) _
  | cons c cs =>
    obtain ⟨rfl, ht'⟩ := cons_prefix_cons.1 ht
    unfold scanLine
    rw [if_pos (by decide)]
    obtain ⟨u, us, rfl⟩ := exists_cons_of_ne_nil hne
    cases cs with
    | nil => exact scanLine_nil _ (by rw [length_cons]; omega) _
    | cons c cs =>
      obtain ⟨rfl, ht''⟩ := cons_prefix_cons.1 ht'
      have hc : isSpace c = false := hurl c mem_cons_self
      unfold scanLine
      rw [if_neg (ne_true_of_eq_false hc)]
      refine .of_scanned ⟨p + 1, request.urlLength, request.version, rfl⟩ ?_
      rw [show p + (c :: us).length + 10 = p + 1 + 1 + us.length + 9 by rw [length_cons]; omega,
        show p + (32 :: c :: cs).length = p + 1 + 1 + cs.length by rw [length_cons, length_cons]; omega]
      exact scanLine_url hv (forall_mem_cons.1 hurl).2 ht''

end

lemma methods_prefix_unique : ∀ a ∈ methods, ∀ b ∈ methods, a.1 <+: b.1 → a = b := by decide

lemma methods_length : ∀ a ∈ methods, a.1.length ≤ 9 := by decide

lemma find_method {name data : Bytes} {m : Method} (hm : (name, m) ∈ methods) (hd : name <+: data) :
    (methods.find? fun m => m.1.isPrefixOf data) = some (name, m) := by
  cases hf : methods.find? fun m => m.1.isPrefixOf data with
  | none =>
    have := find?_eq_none.1 hf _ hm
    exact absurd (List.isPrefixOf_iff_prefix.2 hd) this
  | some x =>
    have hx : x ∈ methods := mem_of_find?_eq_some hf
    have hfound : x.1.isPrefixOf data = true :=
      @find?_some _ (fun m : Bytes × Method => m.1.isPrefixOf data) _ _ hf
    have hpre : x.1 <+: data := isPrefixOf_iff_prefix.1 hfound
    rcases le_total x.1.length name.length with hle | hle
    · rw [methods_prefix_unique x hx _ hm (prefix_of_prefix_length_le hpre hd hle)]
    · rw [methods_prefix_unique _ hm x hx (prefix_of_prefix_length_le hd hpre hle)]

lemma getProtocol_line {name line more : Bytes} {m : Method} (hm : (name, m) ∈ methods)
    (hline : IsRequestLine name line) {b : OswString} (hb : b.str <+: line ++ more) (hlen : 16 ≤ b.length) :
    ∃ request, Begun line.length request ∧
      (getProtocol {} b = (false, request, b) ∧ b.length < line.length ∨
        ∃ o, o ≤ line.length ∧ getProtocol {} b = (true, request, { b with offset := o })) := by
  obtain ⟨-, url, version, hne, hurl, hv, rfl⟩ := hline
  have hnine := methods_length _ hm
  have hstr : 16 ≤ b.str.length := hlen
  have hname : name <+: b.str := by
    refine prefix_of_prefix_length_le ?_ hb (le_trans hnine (by omega))
    rw [append_assoc]
    exact prefix_append _ _
  have hvlen := (version_spec version hv).1
  have htail : b.str.drop name.length <+: 32 :: (url ++ 32 :: (version ++ more)) := by
    obtain ⟨ys, hys⟩ := hb
    refine ⟨ys, ?_⟩
    rw [← drop_append_of_le_length hname.length_le, hys, append_assoc, drop_left,
      cons_append, append_assoc, cons_append]
  obtain ⟨request, ⟨uo, ul, v, rfl⟩, hend⟩ :=
    @scanLine_line _ url version more name.length { method := some m } hv hne hurl htail
  have hbound : name.length + url.length + 10 = (name ++ 32 :: (url ++ 32 :: version)).length := by
    simp only [length_append, length_cons]
    omega
  have hdata : name.length + (b.str.drop name.length).length = b.length := by
    show _ = b.str.length
    rw [length_drop]
    have := hname.length_le
    omega
  rw [hbound, hdata] at hend
  have hsixteen : ¬ b.length < (ascii "GET / HTTP/1.x\r\n").length := not_lt.2 hlen
  unfold getProtocol
  simp only [if_neg hsixteen, find_method hm hname]
  rcases hend with ⟨hs, hlt⟩ | ⟨q, hs, hle⟩
  · refine ⟨{ method := some m, urlOffset := uo, urlLength := ul, version := v }, ?_, .inl ⟨?_, hlt⟩⟩
    · exact ⟨some_ne_none _, rfl, rfl, rfl, rfl, rfl, rfl, Nat.zero_le _⟩
    · rw [hs]
  · refine ⟨{ method := some m, urlOffset := uo, urlLength := ul, version := v, requestLineLength := q + 8 },
      ?_, .inr ⟨q + 8, hle, ?_⟩⟩
    · exact ⟨some_ne_none _, rfl, rfl, rfl, rfl, rfl, rfl, hle⟩
    · rw [hs]

/-! ## the empty line -/

section
variable {line rest : Bytes} {lines : List Bytes}

lemma headerEnd_at {xs : Bytes} {j : Nat} (h : headerEnd <+: xs.drop j) :
    xs[j]? = some 13 ∧ xs[j + 2]? = some 13 := by
  obtain ⟨ys, hys⟩ := h
  have hget : ∀ i, xs[j + i]? = (headerEnd ++ ys)[i]? := by
    intro i
    rw [hys, getElem?_drop]
  exact ⟨hget 0, hget 2⟩

lemma clean_line (hl : IsLine line) {ys : Bytes} (hys : ys[0]? ≠ some 13) :
    Framing.Clean headerEnd (line ++ (crlf ++ ys)) (line.length + 2) := by
  intro j hj hp
  obtain ⟨h0, h2⟩ := headerEnd_at hp
  by_cases hin : j < line.length
  · rw [getElem?_append_left hin] at h0
    exact hl.2.1 (mem_of_getElem? h0)
  · rw [getElem?_append_right (by omega)] at h0 h2
    have hcase : j = line.length ∨ j = line.length + 1 := by omega
    rcases hcase with rfl | rfl
    · rw [show line.length + 2 - line.length = 2 by omega] at h2
      exact hys h2
    · rw [show line.length + 1 - line.length = 1 by omega] at h0
      have hlf : (crlf ++ ys)[1]? = some 10 := rfl
      cases hlf.symm.trans h0

lemma clean_last (hl : IsLine line) (ys : Bytes) : Framing.Clean headerEnd (line ++ ys) line.length := by
  intro j hj hp
  obtain ⟨h0, -⟩ := headerEnd_at hp
  rw [getElem?_append_left hj] at h0
  exact hl.2.1 (mem_of_getElem? h0)

lemma length_block_cons (line : Bytes) (lines : List Bytes) :
    (block (line :: lines)).length = line.length + (2 + (block lines).length) := by
  rw [block, length_append, length_append]
  rfl

lemma block_cons_append (line : Bytes) (lines : List Bytes) (rest : Bytes) :
    block (line :: lines) ++ rest = line ++ (crlf ++ (block lines ++ rest)) := by
  rw [block, append_assoc, append_assoc]

lemma two_le_length_block (lines : List Bytes) : 2 ≤ (block lines).length := by
  cases lines with
  | nil => exact le_refl 2
  | cons line lines =>
    rw [length_block_cons]
    omega

lemma block_length_ge (h : lines ≠ []) : 4 ≤ (block lines).length := by
  obtain ⟨line, lines, rfl⟩ := exists_cons_of_ne_nil h
  have := two_le_length_block lines
  rw [length_block_cons]
  omega

variable (hl : ∀ line ∈ lines, IsLine line) (hne : lines ≠ [])
include hl hne

/-- **the empty line is at the end of the block, and nowhere before** -/
theorem first_block (rest : Bytes) :
    Framing.first headerEnd (block lines ++ rest) = some ((block lines).length - 4) := by
  have hend : headerEnd ≠ [] := by decide
  induction lines with
  | nil => exact absurd rfl hne
  | cons line lines ih =>
    have hline := hl line mem_cons_self
    rw [block_cons_append, length_block_cons]
    cases lines with
    | nil =>
      rw [Framing.first_resume hend (clean_last hline _), drop_left]
      show some (0 + line.length) = some (line.length + (2 + 2) - 4)
      rw [zero_add]
      rfl
    | cons next lines =>
      have hnext := hl next (mem_cons_of_mem _ mem_cons_self)
      obtain ⟨x, xs, hx⟩ := exists_cons_of_ne_nil hnext.1
      have hhead : (block (next :: lines) ++ rest)[0]? ≠ some 13 := by
        intro h
        rw [hx] at h
        obtain rfl : x = 13 := some.inj h
        exact hnext.2.1 (hx ▸ mem_cons_self)
      have hdrop : (line ++ (crlf ++ (block (next :: lines) ++ rest))).drop (line.length + 2) =
          block (next :: lines) ++ rest := by
        rw [← drop_drop, drop_left]
        rfl
      have hge := block_length_ge (cons_ne_nil next lines)
      rw [Framing.first_resume hend (clean_line hline hhead), hdrop,
        ih (forall_mem_cons.1 hl).2 (cons_ne_nil _ _), map_some]
      congr 1
      omega

lemma clean_block (rest : Bytes) {o : Nat} (ho : o ≤ (block lines).length - 4) :
    Framing.Clean headerEnd (block lines ++ rest) o :=
  Framing.Clean.mono ((Framing.first_eq_some_iff (by decide) _ _).1 (first_block hl hne rest)).2 ho

lemma getHeaderLength_block (request : Request) {b : OswString} (hb : b.str = block lines ++ rest)
    (ho : b.offset ≤ (block lines).length - 4) :
    getHeaderLength request b = (true, { request with headerLength := (block lines).length },
      { b with offset := (block lines).length }) := by
  have hge := block_length_ge hne
  have hfirst := first_block hl hne rest
  rw [Framing.first_resume (by decide) (clean_block hl hne rest ho), ← hb] at hfirst
  obtain ⟨i, hi, hio⟩ := map_eq_some_iff.1 hfirst
  have hsum : b.offset + i + 4 = (block lines).length := by omega
  unfold getHeaderLength
  rw [hi]
  simp only [hsum]

lemma getHeaderLength_part (request : Request) {b : OswString} (hb : b.str <+: block lines)
    (hlt : b.length < (block lines).length) (ho : b.offset ≤ (block lines).length - 4) :
    ∃ o, o ≤ (block lines).length - 4 ∧
      getHeaderLength request b = (false, request, { b with offset := o }) := by
  have hnone : Framing.first headerEnd (b.str.drop b.offset) = none := by
    refine (Framing.first_eq_none_iff (by decide) _).2 fun j hj => ?_
    have hlen := Framing.prefix_drop_le (by decide) hj
    rw [drop_drop] at hj
    obtain ⟨ys, hys⟩ := hb
    have hin : headerEnd <+: (block lines ++ []).drop (b.offset + j) := by
      rw [append_nil, ← hys]
      refine (Framing.prefix_drop_append ?_).2 hj
      rw [length_drop] at hlen
      have : headerEnd.length = 4 := rfl
      omega
    rw [length_drop, show headerEnd.length = 4 from rfl] at hlen
    have hb : b.length = b.str.length := rfl
    exact (clean_block hl hne [] le_rfl) _ (by omega) hin
  refine ⟨max b.offset (b.length - 3), by omega, ?_⟩
  unfold getHeaderLength
  rw [hnone]

end

/-! ## the header lines -/

section
variable {memory line rest name : Bytes} {p pe : Nat} {info : HeaderInfo}

lemma Named.length_le (h : Named name line) : name.length ≤ line.length := by
  have := congrArg length h
  rw [length_map, length_map, length_take] at this
  omega

section
variable (hm : memory.drop p = line ++ (crlf ++ rest))
include hm

lemma strcasect_line (hpe : p + line.length ≤ pe) (hname : 13 ∉ name.map toLower) :
    strcasect memory p pe name = true ↔ Named name line := by
  unfold strcasect Named
  rw [Bool.and_eq_true, decide_eq_true_eq, beq_iff_eq, hm]
  by_cases hle : name.length ≤ line.length
  · rw [take_append_of_le_length hle]
    exact ⟨And.right, fun h => ⟨by omega, h⟩⟩
  · -- the byte behind the line is no part of a name
    constructor
    · rintro ⟨-, h⟩
      refine absurd ?_ hname
      rw [← h]
      refine mem_map.2 ⟨13, ?_, rfl⟩
      rw [take_append]
      refine mem_append.2 (.inr ?_)
      obtain ⟨k, hk⟩ : ∃ k, name.length - line.length = k + 1 := ⟨name.length - line.length - 1, by omega⟩
      rw [hk]
      exact mem_cons_self
    · exact fun h => absurd (Named.length_le h) hle

lemma drop_line {k : Nat} (hk : k ≤ line.length) : memory.drop (p + k) = line.drop k ++ (crlf ++ rest) := by
  rw [← drop_drop, hm, drop_append_of_le_length hk]

lemma skipSpaces_line {k : Nat} (hk : k ≤ line.length) :
    ∃ j, skipSpaces memory (p + k) = p + j ∧ k ≤ j ∧ j ≤ line.length ∧
      (line.drop k).dropWhile (· == 32) = line.drop j := by
  have htake : (line.drop k ++ (crlf ++ rest)).takeWhile (· == 32) = (line.drop k).takeWhile (· == 32) := by
    rw [takeWhile_append]
    split
    · rename_i h
      have hcr : (crlf ++ rest).takeWhile (· == 32) = [] := rfl
      rw [hcr, append_nil]
      exact ((List.takeWhile_prefix _).eq_of_length h).symm
    · rfl
  have hle : ((line.drop k).takeWhile (· == 32)).length ≤ line.length - k := by
    rw [← length_drop]
    exact (List.takeWhile_prefix _).length_le
  refine ⟨k + ((line.drop k).takeWhile (· == 32)).length, ?_, by omega, by omega, ?_⟩
  · unfold skipSpaces
    rw [drop_line hm hk, htake, add_assoc]
  · rw [← drop_drop]
    have hsplit := congrArg (drop ((line.drop k).takeWhile (· == 32)).length)
      (@takeWhile_append_dropWhile _ (· == (32 : UInt8)) (line.drop k))
    rwa [drop_left] at hsplit

end

structure Told (n : Option Nat) (seen : Bool) (info : HeaderInfo) : Prop where
  known : info.knownLength = seen
  length : info.contentLength = if seen then min (n.getD 0) (2^32 - 1) else 0
  notChunked : info.chunked = false

lemma isOws_isSpace {ws : Bytes} (h : IsOws ws) : ∀ b ∈ ws, isSpace b = true := by
  intro b hb
  rcases h b hb with rfl | rfl
  · decide
  · decide

lemma dropWhile_ows {ws ds rest : Bytes} {n : Nat} (hws : IsOws ws) (hds : IsDecimal ds n) :
    ∃ ws', IsOws ws' ∧ (ws ++ (ds ++ rest)).dropWhile (· == 32) = ws' ++ (ds ++ rest) := by
  induction ws with
  | nil =>
    refine ⟨[], hws, ?_⟩
    obtain ⟨d, ds, rfl⟩ := exists_cons_of_ne_nil hds.ne_nil
    have hd : (d == 32) = false := by
      refine beq_eq_false_iff_ne.2 ?_
      rintro rfl
      cases hds.digits 32 mem_cons_self
    exact dropWhile_cons_of_neg (ne_true_of_eq_false hd)
  | cons w ws ih =>
    rcases hws w mem_cons_self with rfl | rfl
    · exact ih (forall_mem_cons.1 hws).2
    · exact ⟨9 :: ws, hws, rfl⟩

lemma strtoull_contentLength {n j : Nat} (hm : memory.drop p = line ++ (crlf ++ rest))
    (hline : IsContentLength n line) (hj : line.drop j = (line.drop 15).dropWhile (· == 32))
      (hle : j ≤ line.length) :
    strtoull (memory.drop (p + j)) = min n (2^64 - 1) := by
  obtain ⟨start, ws, ds, ws', -, hlen, hws, hds, hws', rfl⟩ := hline
  have hvalue : (start ++ (ws ++ (ds ++ ws'))).drop 15 = ws ++ (ds ++ ws') := by rw [← hlen, drop_left]
  obtain ⟨ws₂, hws₂, hd⟩ := @dropWhile_ows ws ds ws' n hws hds
  rw [hvalue, hd] at hj
  have hmem : memory.drop (p + j) = ws₂ ++ (ds ++ (ws' ++ (crlf ++ rest))) := by
    rw [drop_line hm hle, hj]
    simp only [append_assoc]
  rw [hmem]
  refine strtoull_decimal (isOws_isSpace hws₂) hds ?_
  intro b hb
  cases ws' with
  | nil =>
    cases hb
    decide
  | cons w ws' =>
    cases hb
    rcases hws' _ mem_cons_self with rfl | rfl
    · decide
    · decide

/-- **one header line**: the cascade of comparisons stays inside of the line and takes its value -/
theorem headerField_line {n : Option Nat} {seen : Bool} (hm : memory.drop p = line ++ (crlf ++ rest))
    (hpe : p + line.length ≤ pe)
    (hlength : Named (ascii "Content-Length:") line → ∃ k, n = some k ∧ IsContentLength k line)
    (hchunked : ¬ IsChunked line) (hinfo : Told n seen info) :
    ∃ info' j, headerField memory pe p info = (info', p + j) ∧ j ≤ line.length ∧
      Told n (seen || decide (Named (ascii "Content-Length:") line)) info' := by
  unfold headerField
  by_cases hcl : Named (ascii "Content-Length:") line
  · rw [if_pos ((strcasect_line hm hpe (by decide)).2 hcl)]
    obtain ⟨k, rfl, hk⟩ := hlength hcl
    obtain ⟨j, hj, hge, hle, hdrop⟩ := skipSpaces_line (k := 15) hm hcl.length_le
    have hvalue := strtoull_contentLength hm hk hdrop.symm hle
    simp only [hj, hvalue]
    refine ⟨_, j, rfl, hle, ?_⟩
    rw [decide_eq_true hcl, Bool.or_true]
    refine ⟨rfl, ?_, hinfo.notChunked⟩
    show min (min k (2^64 - 1)) (2^32 - 1) = min k (2^32 - 1)
    omega
  · rw [if_neg (mt (strcasect_line hm hpe (by decide)).1 hcl), decide_eq_false hcl, Bool.or_false]
    by_cases hconn : Named (ascii "Connection:") line
    · rw [if_pos ((strcasect_line hm hpe (by decide)).2 hconn)]
      obtain ⟨j, hj, hge, hle, -⟩ := skipSpaces_line (k := 11) hm hconn.length_le
      simp only [hj]
      refine ⟨_, j, rfl, hle, ?_⟩
      split
      · exact { hinfo with }
      · exact hinfo
    · rw [if_neg (mt (strcasect_line hm hpe (by decide)).1 hconn)]
      by_cases hte : Named (ascii "Transfer-Encoding:") line
      · rw [if_pos ((strcasect_line hm hpe (by decide)).2 hte)]
        obtain ⟨j, hj, hge, hle, hdrop⟩ := skipSpaces_line (k := 18) hm hte.length_le
        simp only [hj]
        refine ⟨_, j, rfl, hle, ?_⟩
        have hno : ¬ strcasect memory (p + j) pe (ascii "chunked") = true := by
          intro h
          refine hchunked ⟨hte, ?_⟩
          rw [hdrop]
          refine (strcasect_line (drop_line hm hle) ?_ (by decide)).1 h
          rw [length_drop]
          omega
        rw [if_neg hno]
        exact hinfo
      · rw [if_neg (mt (strcasect_line hm hpe (by decide)).1 hte)]
        exact ⟨info, 0, rfl, Nat.zero_le _, hinfo⟩

lemma headerLoop_done (hp : pe ≤ p) (fuel : Nat) : headerLoop memory pe fuel p info = info := by
  cases fuel with
  | zero => rfl
  | succ fuel =>
    unfold headerLoop
    rw [if_neg (by omega)]

lemma headerLoop_skip {q fuel : Nat} (hpq : p ≤ q) (hq : q ≤ pe)
    (hno : ∀ i, p ≤ i → i < q → memory[i - 1]? ≠ some 10) (hfuel : pe ≤ p + fuel) :
    ∃ fuel', pe ≤ q + fuel' ∧ headerLoop memory pe fuel p info = headerLoop memory pe fuel' q info := by
  induction hk : q - p generalizing p fuel with
  | zero =>
    obtain rfl : p = q := by omega
    exact ⟨fuel, hfuel, rfl⟩
  | succ k ih =>
    obtain ⟨fuel, rfl⟩ : ∃ f, fuel = f + 1 := ⟨fuel - 1, by omega⟩
    obtain ⟨fuel', hf, he⟩ := @ih (p + 1) fuel (by omega) (fun i hi hiq => hno i (by omega) hiq) (by omega)
      (by omega)
    refine ⟨fuel', hf, ?_⟩
    rw [headerLoop, if_pos (by omega), if_neg (fun h => hno p le_rfl (by omega) h.1)]
    exact he

lemma no_lineFeed (hl : IsLine line) (hm : memory.drop p = line ++ (crlf ++ rest)) {i : Nat} (hi : p < i)
    (hle : i < p + line.length + 2) : memory[i - 1]? ≠ some 10 := by
  obtain ⟨k, rfl⟩ : ∃ k, i = p + k + 1 := ⟨i - p - 1, by omega⟩
  rw [Nat.add_sub_cancel, ← getElem?_drop, hm]
  by_cases hk : k < line.length
  · rw [getElem?_append_left hk]
    exact fun h => hl.2.2 (mem_of_getElem? h)
  · obtain rfl : k = line.length := by omega
    rw [getElem?_append_right le_rfl, Nat.sub_self]
    have hcr : (crlf ++ rest)[0]? = some 13 := rfl
    rw [hcr]
    decide

lemma next_line {ys : Bytes} (hm : memory.drop p = line ++ (crlf ++ ys)) :
    memory.drop (p + line.length + 2) = ys ∧ memory[p + line.length + 2 - 1]? = some 10 ∧
      memory[p + line.length + 2 - 2]? = some 13 := by
  have hend : memory.drop (p + line.length) = crlf ++ ys := by rw [← drop_drop, hm, drop_left]
  refine ⟨?_, ?_, ?_⟩
  · rw [← drop_drop, hend]
    rfl
  · rw [show p + line.length + 2 - 1 = p + line.length + 1 by omega, ← getElem?_drop, hend]
    rfl
  · rw [show p + line.length + 2 - 2 = p + line.length + 0 by omega, ← getElem?_drop, hend]
    rfl

lemma headerLoop_next {lines : List Bytes} {j fuel : Nat} (hl : IsLine line)
    (hm : memory.drop p = line ++ (crlf ++ (block lines ++ rest)))
    (hpe : pe + 4 = p + line.length + 2 + (block lines).length) (hj : p < j) (hle : j ≤ p + line.length + 2)
    (hfuel : pe ≤ j + fuel) :
    ∃ fuel', pe ≤ p + line.length + 2 + fuel' ∧
      headerLoop memory pe fuel j info = headerLoop memory pe fuel' (p + line.length + 2) info := by
  by_cases hlast : lines = []
  · subst hlast
    have htwo : (block []).length = 2 := rfl
    have hdone : headerLoop memory pe 0 (p + line.length + 2) info = info := headerLoop_done (by omega) 0
    refine ⟨0, by omega, ?_⟩
    rw [hdone]
    by_cases hjpe : j ≤ pe
    · have hskip : ∃ fuel', pe ≤ pe + fuel' ∧
          headerLoop memory pe fuel j info = headerLoop memory pe fuel' pe info :=
        headerLoop_skip hjpe le_rfl (fun i hi hip => no_lineFeed hl hm (by omega) (by omega)) hfuel
      obtain ⟨fuel', -, he⟩ := hskip
      rw [he, headerLoop_done le_rfl]
    · exact headerLoop_done (by omega) _
  · have hge := block_length_ge hlast
    exact headerLoop_skip hle (by omega) (fun i hi hip => no_lineFeed hl hm (by omega) hip) hfuel

/-- **all header lines**, by induction on them -/
theorem headerLoop_lines {lines : List Bytes} {n : Option Nat} {seen : Bool} {fuel : Nat}
    (hl : ∀ line ∈ lines, IsLine line)
    (hlength : ∀ line ∈ lines, Named (ascii "Content-Length:") line → ∃ k, n = some k ∧ IsContentLength k line)
    (hchunked : ∀ line ∈ lines, ¬ IsChunked line) (hm : memory.drop p = block lines ++ rest)
    (hpe : pe + 4 = p + (block lines).length) (hlf : memory[p - 1]? = some 10) (hcr : memory[p - 2]? = some 13)
    (hfuel : pe ≤ p + fuel) (hinfo : Told n seen info) :
    Told n (seen || lines.any fun line => decide (Named (ascii "Content-Length:") line))
      (headerLoop memory pe fuel p info) := by
  induction lines generalizing p seen info fuel with
  | nil =>
    have htwo : (block []).length = 2 := rfl
    rw [headerLoop_done (by omega), any_nil, Bool.or_false]
    exact hinfo
  | cons line lines ih =>
    have hline := hl line mem_cons_self
    have hpos := length_pos_of_ne_nil hline.1
    have htwo := two_le_length_block lines
    rw [block_cons_append] at hm
    rw [length_block_cons] at hpe
    obtain ⟨info', j, hf, hj, htold⟩ := headerField_line hm (show p + line.length ≤ pe by omega)
      (hlength line mem_cons_self) (hchunked line mem_cons_self) hinfo
    obtain ⟨fuel, rfl⟩ : ∃ f, fuel = f + 1 := ⟨fuel - 1, by omega⟩
    have hturn : headerLoop memory pe (fuel + 1) p info = headerLoop memory pe fuel (p + j + 1) info' := by
      rw [headerLoop, if_pos (by omega), if_pos ⟨hlf, hcr⟩, hf]
    have hend : pe + 4 = p + line.length + 2 + (block lines).length := by omega
    obtain ⟨fuel', hfuel', hnext⟩ := @headerLoop_next memory line rest p pe info' lines (p + j + 1) fuel hline hm
      hend (by omega) (by omega) (by omega)
    obtain ⟨hdrop, hlf', hcr'⟩ := next_line hm
    rw [hturn, hnext, any_cons, ← Bool.or_assoc]
    exact ih (forall_mem_cons.1 hl).2 (forall_mem_cons.1 hlength).2 (forall_mem_cons.1 hchunked).2 hdrop hend
      hlf' hcr' hfuel' htold

end

lemma isLine_requestLine {method line : Bytes} (h : IsRequestLine method line) : IsLine line := by
  obtain ⟨⟨hne, htok⟩, url, version, -, hurl, hv, rfl⟩ := h
  have hno : ∀ x, isTchar x = false → isSpace x = true → x ≠ 32 →
      x ∉ version → x ∉ method ++ 32 :: (url ++ 32 :: version) := by
    intro x hx hs h32 hver hmem
    rcases mem_append.1 hmem with h | h
    · cases (htok x h).symm.trans hx
    · rcases mem_cons.1 h with h | h
      · exact h32 h
      · rcases mem_append.1 h with h | h
        · cases (hurl x h).symm.trans hs
        · rcases mem_cons.1 h with h | h
          · exact h32 h
          · exact hver h
  obtain ⟨-, -, h13, h10⟩ := version_spec version hv
  refine ⟨?_, hno 13 (by decide) (by decide) (by decide) h13, hno 10 (by decide) (by decide) (by decide) h10⟩
  intro h
  exact hne (append_eq_nil_iff.1 h).1

lemma requestLine_length {method line : Bytes} (h : IsRequestLine method line) : 12 ≤ line.length := by
  obtain ⟨⟨hne, -⟩, url, version, hurl, -, hv, rfl⟩ := h
  have h1 := length_pos_of_ne_nil hne
  have h2 := length_pos_of_ne_nil hurl
  have h3 := (version_spec version hv).1
  simp only [length_append, length_cons]
  omega

lemma IsFields.any_named {n : Option Nat} {lines : List Bytes} (h : IsFields n lines) :
    (lines.any fun line => decide (Named (ascii "Content-Length:") line)) = n.isSome := by
  cases n with
  | none =>
    refine any_eq_false.2 fun line hline => ?_
    intro hd
    obtain ⟨k, hk, -⟩ := h.length line hline (of_decide_eq_true hd)
    cases hk
  | some n =>
    obtain ⟨line, hline, hnamed⟩ := h.known (some_ne_none _)
    exact any_eq_true.2 ⟨line, hline, decide_eq_true hnamed⟩

lemma parseHeaderInfo_block {n : Option Nat} {line rest : Bytes} {lines : List Bytes} {request : Request}
    (hline : IsLine line) (hf : IsFields n lines) (hr : Begun line.length request) :
    ∃ info, Told n n.isSome info ∧ parseHeaderInfo (block (line :: lines) ++ rest)
        { request with headerLength := (block (line :: lines)).length } =
        { request with
          headerLength := (block (line :: lines)).length
          toHeaderInfo := info
          headerParsed := true } := by
  have hlen := length_block_cons line lines
  have hge := block_length_ge (cons_ne_nil line lines)
  have hstart := hr.requestLineLength
  have hm : (block (line :: lines) ++ rest).drop 0 = line ++ (crlf ++ (block lines ++ rest)) :=
    block_cons_append line lines rest
  have hpe : (block (line :: lines)).length - 4 + 4 = 0 + line.length + 2 + (block lines).length := by omega
  obtain ⟨fuel', hfuel', hnext⟩ := @headerLoop_next (block (line :: lines) ++ rest) line rest 0
    ((block (line :: lines)).length - 4) {} lines (request.requestLineLength + 2)
    ((block (line :: lines)).length - 4) hline hm hpe (by omega) (by omega) (by omega)
  obtain ⟨hdrop, hlf, hcr⟩ := next_line hm
  have htold := headerLoop_lines hf.line hf.length hf.notChunked hdrop hpe hlf hcr hfuel'
    (⟨rfl, rfl, rfl⟩ : Told n false {})
  rw [hf.any_named, ← hnext] at htold
  refine ⟨_, htold, ?_⟩
  unfold parseHeaderInfo
  simp only [hr.info, htold.notChunked, Bool.false_and]
  rw [← hr.nobodyChunked]

end OSW.Http
