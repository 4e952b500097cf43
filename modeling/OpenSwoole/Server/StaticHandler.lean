import Mathlib.Data.List.Induction
import OpenSwoole.Lib.PathTree
import OpenSwoole.Core.OswString

/-!
# The static file handler

`StaticHandler::hit` of `src/server/static_handler.cc` and `url_decode` of `src/protocol/http.cc`, over
a file system without symbolic links.

* `hit`   the handler; `junk` is what the array `real_path` holds behind the string.
-/

namespace OSW
open PathTree List

/-! ## characters -/

def slash : UInt8 := 47

def isdigit (c : UInt8) : Bool := 48 ≤ c && c ≤ 57
def isupper (c : UInt8) : Bool := 65 ≤ c && c ≤ 90
def tolower (c : UInt8) : UInt8 := if isupper c then c + 32 else c
def isxdigit (c : UInt8) : Bool := isdigit c || (65 ≤ c && c ≤ 70) || (97 ≤ c && c ≤ 102)

/-- `strncasecmp(a, b, n) == 0` -/
def strncaseeq : Nat → Bytes → Bytes → Bool
  | 0, _, _ | _ + 1, [], [] => true
  | n + 1, a :: as, b :: bs => tolower a == tolower b && (a == 0 || strncaseeq n as bs)
  | _ + 1, _, _ => false

def strcasect (pstr sstr : Bytes) : Bool :=
  decide (sstr.length ≤ pstr.length) && strncaseeq sstr.length pstr sstr

/-! ## decoding -/

def hexValue (c : UInt8) : UInt8 :=
  let c := tolower c
  if isdigit c then c - 48 else c - 97 + 10

/-- `url_htoi`, as the `char` it is stored in -/
def urlHtoi (a b : UInt8) : UInt8 := hexValue a * 16 + hexValue b

/-- a byte that does not start an escape -/
def urlPlain (c : UInt8) : UInt8 := if c = 43 then 32 else c

/-- `url_decode`.  It works in place, but never writes behind the byte it reads. -/
def urlDecode : Bytes → Bytes
  | c :: a :: b :: rest =>
    if c = 37 ∧ isxdigit a ∧ isxdigit b then urlHtoi a b :: urlDecode rest
    else urlPlain c :: urlDecode (a :: b :: rest)
  | [c, a] => [urlPlain c, urlPlain a]
  | [c] => [urlPlain c]
  | [] => []

/-- a `char` array read as a string -/
def cString (bs : Bytes) : Bytes := bs.takeWhile (· ≠ 0)

/-! ## the file system -/

inductive FileKind where
  | dir
  | regular (size : Nat)
  | other
  deriving DecidableEq

abbrev FileSystem := Tree Bytes FileKind.dir

def step (name : Bytes) : Step Bytes :=
  if name = [] ∨ name = [dot] then .here
  else if name = [dot, dot] then .up
  else .name name

/-- the components of an absolute path; an empty one, also behind a last slash, stays at its directory -/
def components (path : Bytes) : List (Step Bytes) := (path.splitOn slash).map step

/-- `realpath`'s spelling of a path -/
def pathString (names : List Bytes) : Bytes := if names = [] then [slash] else names.flatMap (slash :: ·)

def lstat (fs : FileSystem) (path : Bytes) : Option FileKind := (fs.walk [] (components path)).bind fs.kind

def realpath (fs : FileSystem) (path : Bytes) : Option Bytes :=
  (fs.walk [] (components path)).map pathString

/-- the array `real_path` at `i`: the string, its terminator, and then what was there before -/
def realPathAt (realPath : Bytes) (junk : Nat → UInt8) (i : Nat) : UInt8 :=
  if i < realPath.length then realPath.getD i 0 else if i = realPath.length then 0 else junk i

/-! ## the handler -/

def pathMax : Nat := 4096

/-- `document_root`, which `set_document_root` has taken from `realpath` -/
structure DocumentRoot where
  names : List Bytes
  valid : ∀ x ∈ names, slash ∉ x ∧ 0 ∉ x ∧ x ≠ [] ∧ x ≠ [dot] ∧ x ≠ [dot, dot]
  short : (pathString names).length < pathMax

def DocumentRoot.path (root : DocumentRoot) : Bytes := pathString root.names

/-- the settings of the server; `mimeExists` is `mime_type::exists`, a table that can be changed -/
structure StaticServer where
  locations : List Bytes
  httpIndexFiles : List Bytes
  httpAutoindex : Bool
  mimeExists : Bytes → Bool

/-- the fields of the handler that describe what to serve -/
structure Served where
  filename : Bytes
  dirPath : Bytes
  isDir : Bool
  length : Nat
  deriving DecidableEq

/-- `false`; `true` with status 404; `true` with something to serve -/
inductive Hit where
  | no
  | notFound
  | serve (s : Served)
  deriving DecidableEq

/-- the length of the URL without its parameters: up to the first `?`, else up to the first `#` -/
def urlPathLength (url : Bytes) : Nat :=
  if 63 ∈ url then url.idxOf 63 else if 35 ∈ url then url.idxOf 35 else url.length

def taskFilename (root : DocumentRoot) (url : Bytes) : Bytes :=
  cString (urlDecode (root.path ++ url.take (urlPathLength url)))

/-- `openswoole_strnpos(url, n, "..") != -1` -/
def hasDotDot (url : Bytes) : Bool := (strnstr url (urlPathLength url) [dot, dot]).isSome

/-- the code behind `_detect_mime_type` -/
def detectMimeType (server : StaticServer) (fs : FileSystem) (missing : Hit) (filename dirPath : Bytes) :
    Hit :=
  match lstat fs filename with
  | none => missing
  | some kind =>
    if (!server.httpIndexFiles.isEmpty || server.httpAutoindex) && kind == .dir then
      .serve ⟨filename, dirPath, true, 0⟩
    else if !server.mimeExists filename then .no
    else
      match kind with
      | .regular size => .serve ⟨filename, dirPath, false, size⟩
      | _ => .no

def hit (root : DocumentRoot) (server : StaticServer) (fs : FileSystem) (junk : Nat → UInt8)
    (url : Bytes) : Hit :=
  let n := urlPathLength url
  let last := server.locations.any (strcasect url)
  let missing := if last then Hit.notFound else .no
  if !server.locations.isEmpty && !last then .no
  else if pathMax ≤ root.path.length + n then .no
  else
    let filename := taskFilename root url
    let dirPath := url.take n
    if !hasDotDot url then detectMimeType server fs missing filename dirPath
    else
      match realpath fs filename with
      | none => missing
      | some realPath =>
        if realPathAt realPath junk root.path.length ≠ slash then .no
        else if realPath = root.path then .no
        else detectMimeType server fs missing filename dirPath

/-! ## what is served -/

/-- after resolving `.` and `..`, the path is the document root or below it -/
def Inside (root : DocumentRoot) (filename : Bytes) : Prop :=
  root.names <+: resolve [] (components filename)

def resolvedPath (filename : Bytes) : Bytes := pathString (resolve [] (components filename))

/-- `real_path` is looked at, and the resolved path has no slash where the document root ends -/
def Caught (root : DocumentRoot) (url : Bytes) : Prop :=
  hasDotDot url = true ∧ root.path.length ≤ (resolvedPath (taskFilename root url)).length ∧
    (resolvedPath (taskFilename root url))[root.path.length]? ≠ some slash

section
variable {root : DocumentRoot} {server : StaticServer} {fs : FileSystem} {junk : Nat → UInt8}
  {url filename dirPath : Bytes} {missing : Hit} {s : Served}

lemma realpath_eq {realPath : Bytes} (h : realpath fs filename = some realPath) :
    realPath = resolvedPath filename := by
  obtain ⟨p, hp, rfl⟩ := Option.map_eq_some_iff.1 h
  rw [Tree.walk_eq_resolve hp]
  rfl

lemma realPathAt_eq_slash {realPath : Bytes} {i : Nat} (hi : i ≤ realPath.length) :
    realPathAt realPath junk i = slash ↔ realPath[i]? = some slash := by
  unfold realPathAt
  rcases Nat.lt_or_eq_of_le hi with hlt | rfl
  · rw [if_pos hlt, getD_eq_getElem?_getD, getElem?_eq_getElem hlt]
    simp
  · simp [slash]

lemma detectMimeType_serve (hm : ∀ s, missing ≠ .serve s)
    (h : detectMimeType server fs missing filename dirPath = .serve s) : s.filename = filename := by
  unfold detectMimeType at h
  split at h
  · exact absurd h (hm s)
  split at h
  · cases h
    rfl
  split at h
  · cases h
  split at h
  · cases h
    rfl
  · cases h

lemma hit_serve (h : hit root server fs junk url = .serve s) :
    s.filename = taskFilename root url ∧ root.path.length + urlPathLength url < pathMax ∧
      ¬ Caught root url := by
  have hm : ∀ s, (if server.locations.any (strcasect url) then Hit.notFound else .no) ≠ .serve s := by
    intro s
    split <;> exact Hit.noConfusion
  unfold hit at h
  dsimp only at h
  split at h
  · cases h
  split at h
  · cases h
  rename_i hlong
  split at h
  · rename_i hdots
    refine ⟨detectMimeType_serve hm h, by omega, fun hcaught => ?_⟩
    rw [hcaught.1] at hdots
    cases hdots
  split at h
  · exact absurd h (hm s)
  rename_i realPath hreal
  split at h
  · cases h
  rename_i hslash
  split at h
  · cases h
  refine ⟨detectMimeType_serve hm h, by omega, fun hcaught => ?_⟩
  obtain rfl := realpath_eq hreal
  exact hcaught.2.2 ((realPathAt_eq_slash hcaught.2.1).1 (Decidable.not_not.1 hslash))

def listingServer : StaticServer := ⟨[], [], true, fun _ => false⟩

def fullDirs : FileSystem := Tree.full FileKind.dir

lemma detectMimeType_full : detectMimeType listingServer fullDirs missing filename dirPath =
      .serve ⟨filename, dirPath, true, 0⟩ := by
  unfold detectMimeType lstat fullDirs
  rw [Tree.walk_full]
  rfl

lemma hit_full (hlong : root.path.length + urlPathLength url < pathMax) (hcaught : ¬ Caught root url) :
    hit root listingServer fullDirs (fun _ => slash) url =
      .serve ⟨taskFilename root url, url.take (urlPathLength url), true, 0⟩ := by
  have hreal : realpath fullDirs (taskFilename root url) = some (resolvedPath (taskFilename root url)) := by
    unfold realpath fullDirs
    rw [Tree.walk_full]
    rfl
  show (if pathMax ≤ root.path.length + urlPathLength url then Hit.no else _) = _
  rw [if_neg (Nat.not_le.mpr hlong)]
  cases hdots : hasDotDot url with
  | false => exact detectMimeType_full
  | true =>
    have hslash : realPathAt (resolvedPath (taskFilename root url)) (fun _ => slash)
        root.path.length = slash := by
      by_cases hle : root.path.length ≤ (resolvedPath (taskFilename root url)).length
      · rw [realPathAt_eq_slash hle]
        by_contra hne
        exact hcaught ⟨hdots, hle, hne⟩
      · unfold realPathAt
        rw [if_neg (by omega), if_neg (by omega)]
    have hne : resolvedPath (taskFilename root url) ≠ root.path := by
      intro he
      refine hcaught ⟨hdots, Nat.le_of_eq (congrArg length he.symm), ?_⟩
      rw [he, getElem?_length]
      exact nofun
    rw [hreal]
    simp only [hslash, ne_eq, not_true_eq_false, hne, if_false]
    exact detectMimeType_full

end

/-- **What the handler serves is inside the document root exactly when** the request is too long to be served,
its decoded path is inside, or the test of `real_path` catches it. -/
theorem hit_inside_iff (root : DocumentRoot) (url : Bytes) :
    (∀ server fs junk s, hit root server fs junk url = .serve s → Inside root s.filename) ↔
      pathMax ≤ root.path.length + urlPathLength url ∨ Caught root url ∨
        Inside root (taskFilename root url) := by
  constructor
  · intro h
    by_cases hlong : pathMax ≤ root.path.length + urlPathLength url
    · exact .inl hlong
    by_cases hcaught : Caught root url
    · exact .inr (.inl hcaught)
    exact .inr (.inr (h _ _ _ _ (hit_full (Nat.not_le.mp hlong) hcaught)))
  · rintro h server fs junk s hs
    obtain ⟨hname, hlong, hcaught⟩ := hit_serve hs
    rw [hname]
    rcases h with h | h | h
    · omega
    · exact absurd h hcaught
    · exact h

def varWww : DocumentRoot where
  names := [[118, 97, 114], [119, 119, 119]]
  valid := by decide
  short := by decide

/-- the directories `/`, `/var` and `/var/www`, and the file `/var/a.txt` of 5 bytes -/
def smallTree : FileSystem where
  kind p :=
    if p = [] ∨ p = [[118, 97, 114]] ∨ p = [[118, 97, 114], [119, 119, 119]] then some .dir
    else if p = [[118, 97, 114], [97, 46, 116, 120, 116]] then some (.regular 5)
    else none
  root := rfl
  parent p x h := by
    rcases p with _ | ⟨a, _ | ⟨b, p⟩⟩
    · rfl
    · by_cases ha : a = [118, 97, 114]
      · rw [ha]
        rfl
      · simp [ha] at h
    · simp at h

/-- `/%2e%2e/a.txt` has no `..`, so nothing is tested, and `/var/a.txt` is served. -/
theorem hit_outside : hit varWww ⟨[], [], false, fun _ => true⟩ smallTree (fun _ => 0)
        [47, 37, 50, 101, 37, 50, 101, 47, 97, 46, 116, 120, 116] =
      .serve ⟨[47, 118, 97, 114, 47, 119, 119, 119, 47, 46, 46, 47, 97, 46, 116, 120, 116],
        [47, 37, 50, 101, 37, 50, 101, 47, 97, 46, 116, 120, 116], false, 5⟩ ∧
    ¬ Inside varWww [47, 118, 97, 114, 47, 119, 119, 119, 47, 46, 46, 47, 97, 46, 116, 120, 116] := by
  unfold Inside
  decide

end OSW
