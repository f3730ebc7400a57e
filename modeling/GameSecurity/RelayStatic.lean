import Mathlib.Data.List.TakeWhile
import GameSecurity.LexicalPath
import GameSecurity.RelayConfig

/- The relay's static files: `New` opens the directory, `handleStatic` serves from it. Paths are
   those of Unix; what `os` and `filepath` ask the system for is a parameter. -/
namespace RelayStatic
open RelayRoom RelayConfig LexicalPath

abbrev Path := Bytes

def separator : UInt8 := 47
def period : UInt8 := 46

/-- What `os.Stat` finds, links followed. -/
inductive FileKind
  | regular | directory | other
  deriving DecidableEq, Repr

structure FileSystem where
  getwd : Option Path
  stat : Path → Option FileKind
  evalSymlinks : Path → Option Path
  opens : Path → Bool

def cleanPath (p : Path) : Path := clean separator period p

def joinPath (a b : Path) : Path := join separator period a b

def parts (p : Path) : List Bytes := segments separator period p

def abs (fs : FileSystem) (p : Path) : Option Path :=
  if isRooted separator p then some (cleanPath p) else fs.getwd.map fun wd => joinPath wd p

/-- The static root of `New`; none where it returns an error, some none without a directory. -/
def openStatic (fs : FileSystem) (staticDir : Path) : Option (Option Path) :=
  if staticDir = [] then some none
  else do
    let root ← abs fs staticDir
    let root ← fs.evalSymlinks root
    if fs.stat root = some .directory then return some root else none

inductive CachePolicy
  | unset | noStore | immutable
  deriving DecidableEq, Repr

/-- A file is what `http.ServeFile` is called with, which may still refuse it; one that is not
    found is answered with `no-store`. -/
inductive Response
  | methodNotAllowed
  | notFound
  | file (target : Path) (cache : CachePolicy)
  deriving DecidableEq, Repr

def indexName : Bytes := bytes "index.html"

/- `strings.TrimPrefix(path, "/")`. -/
def trimSlash : Bytes → Bytes
  | [] => []
  | c :: rest => if c = separator then rest else c :: rest

def requestedPath (path : Bytes) : Path :=
  let requested := cleanPath (trimSlash path)
  if requested = [period] then indexName else requested

def hasHiddenPathSegment (path : Bytes) : Bool :=
  (path.splitOn separator).any fun s => decide (s.head? = some period)

def pathWithinRoot (root target : Path) : Bool :=
  decide (target = root) || (root ++ [separator]).isPrefixOf target

def shouldFallbackToIndex (requested : Path) : Bool :=
  let first := ((requested.splitOn separator).head?).getD []
  if first = bytes "assets" ∨ first = bytes "maps" then false
  else decide (ext separator period requested = [])

def hashCharacter (c : UInt8) : Bool :=
  (decide (97 ≤ c) && decide (c ≤ 122)) || (decide (65 ≤ c) && decide (c ≤ 90)) ||
    (decide (48 ≤ c) && decide (c ≤ 57)) || decide (c = 95)

def isHashedAssetPath (requested : Path) : Bool :=
  if ¬ bytes "assets/" <+: requested then false
  else
    let name := base separator period requested
    let extension := ext separator period name
    let stem := name.take (name.length - extension.length)
    -- What follows the last dash of the stem.
    let hash := (stem.reverse.takeWhile (· ≠ 45)).reverse
    if extension = [] ∨ 45 ∉ stem ∨ hash.length < 8 then false else hash.all hashCharacter

def cachePolicy (requested target : Path) : CachePolicy :=
  if base separator period target = indexName then .noStore
  else if isHashedAssetPath requested then .immutable
  else .unset

/-- The file to look at: the one asked for, or the page itself. -/
def choose (fs : FileSystem) (root requested target : Path) : Option Path :=
  if fs.stat target = some .regular then some target
  else if shouldFallbackToIndex requested = false then none
  else
    let index := joinPath root indexName
    if fs.stat index = some .regular then some index else none

def handleStatic (fs : FileSystem) (staticRoot : Option Path) (method path : Bytes) : Response :=
  if method ≠ bytes "GET" ∧ method ≠ bytes "HEAD" then .methodNotAllowed
  else
    match staticRoot with
    | none => .notFound
    | some root =>
      if bytes "/api/" <+: path ∨ hasHiddenPathSegment path = true then .notFound
      else
        let requested := requestedPath path
        match abs fs (joinPath root requested) with
        | none => .notFound
        | some target =>
          if pathWithinRoot root target = false then .notFound
          else
            match (choose fs root requested target).bind fs.evalSymlinks with
            | none => .notFound
            | some resolved =>
              if pathWithinRoot root resolved = false then .notFound
              else .file resolved (cachePolicy requested resolved)

/-- What the client is answered with. -/
inductive Answer
  | methodNotAllowed
  | notFound
  | badRequest
  | redirect (cache : CachePolicy)
  | unopened
  | content (target : Path) (cache : CachePolicy)
  deriving DecidableEq, Repr

/-- An element of two dots, between slashes or backslashes. -/
def containsDotDot (path : Bytes) : Bool :=
  (path.splitOnP fun c => decide (c = separator ∨ c = 92)).contains (bytes "..")

/-- What `http.ServeFile` documents: a request with an element of two dots is refused, and one for
    a page by its name is sent to the directory, whatever file it is to serve. -/
def serveFile (fs : FileSystem) (path : Bytes) (target : Path) (cache : CachePolicy) : Answer :=
  if containsDotDot path then .badRequest
  else if bytes "/index.html" <:+ path then .redirect cache
  else if fs.opens target then .content target cache
  else .unopened

def answerStatic (fs : FileSystem) (staticRoot : Option Path) (method path : Bytes) : Answer :=
  match handleStatic fs staticRoot method path with
  | .methodNotAllowed => .methodNotAllowed
  | .notFound => .notFound
  | .file target cache => serveFile fs path target cache

theorem serveFile_content_iff {fs : FileSystem} {path : Bytes} {target served : Path}
    {cache sent : CachePolicy} : serveFile fs path target cache = .content served sent ↔
      (target = served ∧ cache = sent) ∧ containsDotDot path = false ∧
        ¬ bytes "/index.html" <:+ path ∧ fs.opens served = true := by
  unfold serveFile
  constructor
  · intro answered
    split at answered
    · cases answered
    · next dots =>
      split at answered
      · cases answered
      · next page =>
        split at answered
        · next opened =>
          cases answered
          exact ⟨⟨rfl, rfl⟩, by simpa using dots, page, opened⟩
        · cases answered
  · rintro ⟨⟨rfl, rfl⟩, dots, page, opened⟩
    rw [dots, if_neg Bool.false_ne_true, if_neg page, if_pos opened]

theorem answerStatic_content_iff {fs : FileSystem} {root : Option Path} {method path : Bytes}
    {target : Path} {cache : CachePolicy} :
    answerStatic fs root method path = .content target cache ↔
      handleStatic fs root method path = .file target cache ∧ containsDotDot path = false ∧
        ¬ bytes "/index.html" <:+ path ∧ fs.opens target = true := by
  unfold answerStatic
  cases handleStatic fs root method path with
  | methodNotAllowed => simp
  | notFound => simp
  | file found policy => simp [serveFile_content_iff]

/-- `EvalSymlinks` cleans what it returns, and leads from absolute paths to absolute paths. -/
def Documented (fs : FileSystem) : Prop :=
  ∀ p q, fs.evalSymlinks p = some q → isRooted separator p = true →
    isRooted separator q = true ∧ cleanPath q = q

structure StaticRoot where
  path : Path
  rooted : isRooted separator path = true
  clean : cleanPath path = path
  below : parts path ≠ []

def StaticRoot.under (root : StaticRoot) (names : List Bytes) : Path :=
  render separator period true (parts root.path ++ names)

/-- The segments a request asks for. -/
def asked (path : Bytes) : List Bytes := ((requestedPath path).splitOn separator).filter (· ≠ [])

theorem abs_rooted {fs : FileSystem} {p q : Path}
    (docs : fs.getwd.map (isRooted separator) ≠ some false) (some_ : abs fs p = some q) :
    isRooted separator q = true := by
  unfold abs at some_
  split at some_
  · next rooted =>
    cases some_
    rw [cleanPath, clean_rooted rooted]
    exact isRooted_render _
  · cases wd : fs.getwd with
    | none =>
      rw [wd] at some_
      cases some_
    | some w =>
      rw [wd] at some_ docs
      have rooted : isRooted separator w = true := by simpa using docs
      cases some_
      have whole : isRooted separator (w ++ separator :: p) = true := isRooted_append rooted _
      simp only [joinPath, join]
      rw [if_neg (ne_nil_of_rooted rooted), clean_rooted whole]
      exact isRooted_render _

/-- What `New` opens below the system's root is a static root. -/
theorem open_root {fs : FileSystem} {dir path : Path} (docs : Documented fs)
    (absolute : fs.getwd.map (isRooted separator) ≠ some false)
    (opened : openStatic fs dir = some (some path)) (below : parts path ≠ []) :
    ∃ root : StaticRoot, root.path = path := by
  unfold openStatic at opened
  split at opened
  · cases opened
  · simp only [bind, Option.bind_eq_some_iff] at opened
    obtain ⟨start, begun, resolved, links, opened⟩ := opened
    split at opened
    · cases opened
      obtain ⟨rooted, cleaned⟩ := docs start path links (abs_rooted absolute begun)
      exact ⟨⟨path, rooted, cleaned, below⟩, rfl⟩
    · cases opened

def names (path : Bytes) : List Bytes := (path.splitOn separator).filter (· ≠ [])

def Plain (p : Bytes) : Prop := ∀ s ∈ p.splitOn separator, s.head? ≠ some period

theorem plain_iff {path : Bytes} : hasHiddenPathSegment path = false ↔ Plain path := by
  simp [hasHiddenPathSegment, Plain]

theorem trimSlash_split (path : Bytes) : names (trimSlash path) = names path ∧
    (Plain path → Plain (trimSlash path)) := by
  cases path with
  | nil => exact ⟨rfl, id⟩
  | cons c rest =>
    rw [trimSlash]
    by_cases slash : c = separator
    · subst slash
      rw [if_pos rfl]
      constructor
      · rw [names, names, splitOn_rooted, List.filter_cons_of_neg (by simp)]
      · intro plain s member
        refine plain s ?_
        rw [splitOn_rooted]
        exact List.mem_cons_of_mem [] member
    · rw [if_neg slash]
      exact ⟨rfl, id⟩

theorem names_proper {path : Bytes} (plain : Plain path) :
    ∀ s ∈ names path, Proper separator period s ∧ s.head? ≠ some period := by
  intro s member
  obtain ⟨listed, some_⟩ := List.mem_filter.mp member
  have head := plain s listed
  refine ⟨⟨of_decide_eq_true some_, ?_, ?_, not_mem_of_mem_splitOn listed⟩, head⟩
  · intro same
    subst same
    exact head rfl
  · intro same
    subst same
    exact head rfl

/-- What `handleStatic` makes of a path without hidden segments: the segments it is written with,
    or the page's name if there are none. -/
theorem requestedPath_split {path : Bytes} (plain : Plain path) :
    Plain (requestedPath path) ∧ asked path =
      (if names path = [] ∧ isRooted separator (trimSlash path) = false then [indexName]
       else names path) := by
  obtain ⟨same, keeps⟩ := trimSlash_split path
  have trimmed := keeps plain
  have kept : segments separator period (trimSlash path) = names path := by
    rw [segments_plain trimmed, ← same, names]
  have proper := names_proper plain
  have filtered : (names path).filter (· ≠ []) = names path := by
    rw [names, List.filter_filter]
    simp
  have page : indexName.splitOn separator = [indexName] := by
    exact List.splitOn_eq_singleton (by decide)
  have pagePlain : Plain indexName := by
    intro s member
    rw [page, List.mem_singleton] at member
    subst member
    decide
  rw [asked, requestedPath, cleanPath, clean, kept]
  cases rooted : isRooted separator (trimSlash path) with
  | true =>
    have apart : render separator period true (names path) ≠ [period] := by
      simp [render, separator, period]
    have split_ := splitOn_render (fun s member => (proper s member).1)
    simp only [if_neg apart, Bool.true_eq_false, and_false, if_false]
    constructor
    · intro s member
      rw [split_] at member
      rcases List.mem_cons.mp member with rfl | member
      · decide
      · split at member
        · rw [List.mem_singleton.mp member]
          decide
        · exact (proper s member).2
    · rw [split_, List.filter_cons_of_neg (by simp)]
      split
      · next empty =>
        rw [empty]
        rfl
      · exact filtered
  | false =>
    by_cases empty : names path = []
    · rw [empty]
      have dots : render separator period false ([] : List Bytes) = [period] := rfl
      simp only [dots, if_true, and_self]
      refine ⟨pagePlain, ?_⟩
      rw [page]
      rfl
    · have joined : render separator period false (names path) =
          [separator].intercalate (names path) := by
        simp [render, empty]
      have split_ : ([separator].intercalate (names path)).splitOn separator = names path :=
        List.splitOn_intercalate separator (fun s member => (proper s member).1.noSlash) empty
      have apart : [separator].intercalate (names path) ≠ [period] := by
        intro single
        rw [single] at split_
        have listed : [period] ∈ names path := by
          rw [← split_]
          decide
        exact (proper _ listed).1.noDot rfl
      simp only [joined, if_neg apart, empty, false_and, if_false]
      refine ⟨fun s member => ?_, ?_⟩
      · rw [split_] at member
        exact (proper s member).2
      · rw [split_, filtered]

theorem StaticRoot.proper (root : StaticRoot) : ∀ s ∈ parts root.path, Proper separator period s :=
  segments_proper root.rooted

theorem StaticRoot.render_parts (root : StaticRoot) :
    render separator period true (parts root.path) = root.path := by
  have same := root.clean
  rw [cleanPath, clean_rooted root.rooted] at same
  exact same

theorem StaticRoot.within (root : StaticRoot) {target : Path}
    (rooted : isRooted separator target = true) (cleaned : cleanPath target = target) :
    pathWithinRoot root.path target = true ↔ parts root.path <+: parts target := by
  have same : render separator period true (parts target) = target := by
    rw [cleanPath, clean_rooted rooted] at cleaned
    exact cleaned
  have within := within_iff root.below root.proper (segments_proper rooted)
  change render separator period true (parts target) = _ ∨
    _ <+: render separator period true (parts target) ↔ _
    at within
  rw [same, root.render_parts] at within
  simp only [pathWithinRoot, Bool.or_eq_true, decide_eq_true_eq, List.isPrefixOf_iff_prefix]
  exact within

theorem StaticRoot.under_clean (root : StaticRoot) {names : List Bytes}
    (proper : ∀ s ∈ names, Proper separator period s) :
    isRooted separator (root.under names) = true ∧ cleanPath (root.under names) = root.under names ∧
      parts (root.under names) = parts root.path ++ names := by
  have all : ∀ s ∈ parts root.path ++ names, Proper separator period s := by
    intro s member
    rcases List.mem_append.mp member with old | new
    · exact root.proper s old
    · exact proper s new
  have rooted : isRooted separator (root.under names) = true := isRooted_render _
  have segments_ : parts (root.under names) = parts root.path ++ names := segments_render all
  refine ⟨rooted, ?_, segments_⟩
  rw [cleanPath, clean_rooted rooted]
  exact congrArg _ segments_

theorem asked_proper {path : Bytes} (plain : Plain path) :
    ∀ s ∈ asked path, Proper separator period s := by
  intro s member
  rw [(requestedPath_split plain).2] at member
  split at member
  · rw [List.mem_singleton.mp member]
    exact ⟨by decide, by decide, by decide, by decide⟩
  · exact (names_proper plain s member).1

theorem StaticRoot.join (root : StaticRoot) {p : Path} (plain : Plain p) :
    joinPath root.path p = root.under ((p.splitOn separator).filter (· ≠ [])) :=
  join_rooted root.rooted plain

theorem StaticRoot.join_index (root : StaticRoot) :
    joinPath root.path indexName = root.under [indexName] := by
  have page : indexName.splitOn separator = [indexName] := List.splitOn_eq_singleton (by decide)
  have plain : Plain indexName := by
    intro s member
    rw [page, List.mem_singleton] at member
    subst member
    decide
  rw [root.join plain, page]
  rfl

/-- The file of the root that is looked at for a request: the one asked for, if it is a regular
    file; else the page, unless an asset, a map or a name with an extension is asked for. -/
def Looked (fs : FileSystem) (root : StaticRoot) (path : Bytes) (place : Path) : Prop :=
  fs.stat place = some .regular ∧ (place = root.under (asked path) ∨
    fs.stat (root.under (asked path)) ≠ some .regular ∧
      shouldFallbackToIndex (requestedPath path) = true ∧ place = root.under [indexName])

theorem choose_iff {fs : FileSystem} {root : StaticRoot} {path : Bytes} {place : Path} :
    choose fs root.path (requestedPath path) (root.under (asked path)) = some place ↔
      Looked fs root path place := by
  unfold choose Looked
  split
  · next found =>
    simp only [Option.some.injEq]
    constructor
    · intro same
      subst same
      exact ⟨found, Or.inl rfl⟩
    · intro looked
      rcases looked.2 with same | other
      · exact same.symm
      · exact absurd found other.1
  · next missing =>
    split
    · next stays =>
      rw [stays]
      constructor
      · intro none_
        cases none_
      · intro looked
        rcases looked.2 with same | other
        · rw [← same] at missing
          exact absurd looked.1 missing
        · exact absurd other.2.1 Bool.false_ne_true
    · next falls =>
      have falls : shouldFallbackToIndex (requestedPath path) = true := by simpa using falls
      simp only [root.join_index]
      constructor
      · intro taken
        split at taken
        · next found =>
          cases taken
          exact ⟨found, Or.inr ⟨missing, falls, rfl⟩⟩
        · cases taken
      · intro looked
        rcases looked.2 with same | other
        · rw [← same] at missing
          exact absurd looked.1 missing
        · obtain ⟨-, -, rfl⟩ := other
          rw [if_pos looked.1]

theorem looked_clean {fs : FileSystem} {root : StaticRoot} {path : Bytes} {place : Path}
    (plain : Plain path) (looked : Looked fs root path place) :
    isRooted separator place = true := by
  rcases looked.2 with same | other
  · rw [same]
    exact (root.under_clean (asked_proper plain)).1
  · rw [other.2.2]
    exact isRooted_render _

theorem asked_reached (fs : FileSystem) (root : StaticRoot) {path : Bytes} (plain : Plain path) :
    abs fs (joinPath root.path (requestedPath path)) = some (root.under (asked path)) ∧
      pathWithinRoot root.path (root.under (asked path)) = true := by
  obtain ⟨rooted, cleaned, segments_⟩ := root.under_clean (asked_proper plain)
  have place_ : joinPath root.path (requestedPath path) = root.under (asked path) :=
    root.join (requestedPath_split plain).1
  constructor
  · rw [place_, abs, if_pos rooted, cleaned]
  · rw [root.within rooted cleaned, segments_]
    exact List.prefix_append _ _

theorem looked_within {fs : FileSystem} (docs : Documented fs) (root : StaticRoot) {path : Bytes}
    {place target : Path} (plain : Plain path) (looked : Looked fs root path place)
    (links : fs.evalSymlinks place = some target) :
    pathWithinRoot root.path target = true ↔ parts root.path <+: parts target := by
  obtain ⟨rooted, cleaned⟩ := docs place target links (looked_clean plain looked)
  exact root.within rooted cleaned

theorem served_looked {fs : FileSystem} (docs : Documented fs) (root : StaticRoot)
    {method path : Bytes} {target : Path} {cache : CachePolicy}
    (served : handleStatic fs (some root.path) method path = .file target cache) :
    (method = bytes "GET" ∨ method = bytes "HEAD") ∧ ¬ bytes "/api/" <+: path ∧
      hasHiddenPathSegment path = false ∧ cache = cachePolicy (requestedPath path) target ∧
      ∃ place, Looked fs root path place ∧ fs.evalSymlinks place = some target ∧
        parts root.path <+: parts target := by
  unfold handleStatic at served
  split at served
  · cases served
  · next method_ =>
    have method_ : method = bytes "GET" ∨ method = bytes "HEAD" := by
      by_contra neither
      exact method_ (not_or.mp neither)
    simp only at served
    split at served
    · cases served
    · next refused =>
      obtain ⟨api, hidden⟩ := not_or.mp refused
      have visible : hasHiddenPathSegment path = false := by simpa using hidden
      have plain := plain_iff.mp visible
      obtain ⟨reached, inside⟩ := asked_reached fs root plain
      simp only [reached, inside, Bool.true_eq_false, if_false] at served
      split at served
      · cases served
      · next resolved found =>
        obtain ⟨place, chosen, links⟩ := Option.bind_eq_some_iff.mp found
        have looked := choose_iff.mp chosen
        split at served
        · cases served
        · next within =>
          cases served
          have within : pathWithinRoot root.path target = true := by simpa using within
          exact ⟨method_, api, visible, rfl, place, looked, links,
            (looked_within docs root plain looked links).mp within⟩

theorem handleStatic_file_iff {fs : FileSystem} (docs : Documented fs) (root : StaticRoot)
    (method path : Bytes) (target : Path) (cache : CachePolicy) :
    handleStatic fs (some root.path) method path = .file target cache ↔
      (method = bytes "GET" ∨ method = bytes "HEAD") ∧ ¬ bytes "/api/" <+: path ∧
      hasHiddenPathSegment path = false ∧ cache = cachePolicy (requestedPath path) target ∧
      ∃ place, Looked fs root path place ∧ fs.evalSymlinks place = some target ∧
        parts root.path <+: parts target := by
  constructor
  · intro served
    exact served_looked docs root served
  · intro served
    obtain ⟨method_, api, visible, same, place, looked, links, within⟩ := served
    have plain := plain_iff.mp visible
    obtain ⟨reached, inside⟩ := asked_reached fs root plain
    have allowed : ¬ (method ≠ bytes "GET" ∧ method ≠ bytes "HEAD") := by
      intro neither
      rcases method_ with get | head
      · exact neither.1 get
      · exact neither.2 head
    have admitted : ¬ (bytes "/api/" <+: path ∨ hasHiddenPathSegment path = true) := by
      intro refused
      rcases refused with starts | hidden
      · exact api starts
      · rw [visible] at hidden
        cases hidden
    have found : (choose fs root.path (requestedPath path) (root.under (asked path))).bind
        fs.evalSymlinks = some target := by
      rw [choose_iff.mpr looked, Option.bind_some, links]
    unfold handleStatic
    rw [if_neg allowed]
    simp only
    rw [if_neg admitted, reached]
    simp only [inside, Bool.true_eq_false, if_false]
    rw [found]
    simp only [(looked_within docs root plain looked links).mpr within, Bool.true_eq_false, if_false]
    rw [same]

/-- The relay answers with a file exactly if the request is a GET or a HEAD outside the API without
    a segment that starts with a dot, nor one of two dots behind a backslash, and does not ask for
    a page by its name, and the file looked at for it resolves, all links followed, to this file at
    or below the static root, which can be opened. -/
theorem static_exact {fs : FileSystem} (docs : Documented fs) (root : StaticRoot)
    (method path : Bytes) (target : Path) (cache : CachePolicy) :
    answerStatic fs (some root.path) method path = .content target cache ↔
      ((method = bytes "GET" ∨ method = bytes "HEAD") ∧ ¬ bytes "/api/" <+: path ∧
        hasHiddenPathSegment path = false ∧ cache = cachePolicy (requestedPath path) target ∧
        ∃ place, Looked fs root path place ∧ fs.evalSymlinks place = some target ∧
          parts root.path <+: parts target) ∧
      containsDotDot path = false ∧ ¬ bytes "/index.html" <:+ path ∧ fs.opens target = true := by
  rw [answerStatic_content_iff, handleStatic_file_iff docs]

/-- A site with a page and one asset, where nothing is linked. -/
def site : FileSystem where
  getwd := some (bytes "/")
  stat p :=
    if p = bytes "/www/index.html" ∨ p = bytes "/www/assets/app-0123abcd.js" then some .regular
    else if p = bytes "/www" then some .directory
    else none
  evalSymlinks p := some (cleanPath p)
  opens _ := true

theorem site_documented : Documented site := by
  intro p q links rooted
  cases links
  rw [cleanPath]
  refine ⟨?_, clean_clean rooted⟩
  rw [clean_rooted rooted]
  exact isRooted_render _

def www : StaticRoot where
  path := bytes "/www"
  rooted := by decide
  clean := by decide
  below := by decide

theorem static_exact_page :
    answerStatic site (some www.path) (bytes "GET") (bytes "/settings") =
      .content (bytes "/www/index.html") .noStore := by
  refine (static_exact site_documented www _ _ _ _).mpr ⟨⟨Or.inl rfl, by decide, by decide,
    by decide, bytes "/www/index.html", ⟨by decide, Or.inr ⟨by decide, by decide, by decide⟩⟩,
    by decide, by decide⟩, by decide, by decide, rfl⟩

/-- A name with at least eight characters of a hash between its last dash and its extension. -/
def Hashed (name : Bytes) : Prop :=
  ∃ stem hash extension, name = stem ++ 45 :: (hash ++ period :: extension) ∧ 8 ≤ hash.length ∧
    hash.all hashCharacter = true

theorem base_asked {path : Bytes} {first : Bytes} {rest : List Bytes}
    (some_ : requestedPath path ≠ []) (asks : asked path = first :: rest) :
    base separator period (requestedPath path) = (first :: rest).getLast (List.cons_ne_nil _ _) := by
  rw [base, if_neg some_]
  rw [asked] at asks
  simp only [asks]

theorem prefix_assets {requested : Path} (starts : bytes "assets/" <+: requested) :
    ∃ rest, requested.splitOn separator = bytes "assets" :: rest := by
  obtain ⟨rest, same⟩ := starts
  have slash : bytes "assets/" ++ rest = bytes "assets" ++ separator :: rest := rfl
  rw [slash] at same
  refine ⟨rest.splitOn separator, ?_⟩
  rw [← same]
  exact List.splitOn_append_cons_self_of_not_mem (by decide) rest

/-- Assets never fall back to the page. -/
theorem assets_stay {requested : Path} (starts : bytes "assets/" <+: requested) :
    shouldFallbackToIndex requested = false := by
  obtain ⟨rest, split_⟩ := prefix_assets starts
  simp [shouldFallbackToIndex, split_]

theorem hashed_name {name : Bytes} (free : separator ∉ name)
    (some_ : ext separator period name ≠ [])
    (dash : 45 ∈ name.take (name.length - (ext separator period name).length))
    (long : 8 ≤ ((name.take (name.length - (ext separator period name).length)).reverse.takeWhile
      (· ≠ 45)).reverse.length)
    (hashes : ((name.take (name.length - (ext separator period name).length)).reverse.takeWhile
      (· ≠ 45)).reverse.all hashCharacter = true) : Hashed name := by
  obtain ⟨stem, suffix, starts, whole⟩ := ext_name free some_
  have trimmed : name.take (name.length - (ext separator period name).length) = stem := by
    rw [starts]
    conv_lhs => rw [whole]
    simp
  rw [trimmed] at dash long hashes
  have parts_ := List.takeWhile_append_dropWhile (p := (· ≠ 45)) (l := stem.reverse)
  cases tail : stem.reverse.dropWhile (· ≠ 45) with
  | nil =>
    rw [tail, List.append_nil] at parts_
    have listed : 45 ∈ stem.reverse.takeWhile (· ≠ 45) := by
      rw [parts_, List.mem_reverse]
      exact dash
    have apart := List.mem_takeWhile_imp listed
    simp at apart
  | cons c rest =>
    have stop := List.head?_dropWhile_not (p := (· ≠ 45)) (l := stem.reverse)
    rw [tail] at stop parts_
    have same : c = 45 := by simpa using stop
    subst same
    refine ⟨rest.reverse, (stem.reverse.takeWhile (· ≠ 45)).reverse, suffix, ?_, long, hashes⟩
    have back := congrArg List.reverse parts_
    rw [List.reverse_reverse] at back
    conv_lhs => rw [whole, ← back]
    simp

theorem hashed_asset {path : Bytes} (plain : Plain path)
    (hashed : isHashedAssetPath (requestedPath path) = true) :
    ∃ middle name, asked path = bytes "assets" :: (middle ++ [name]) ∧ Hashed name := by
  unfold isHashedAssetPath at hashed
  split at hashed
  · cases hashed
  · next starts =>
    have starts := not_not.mp starts
    simp only at hashed
    split at hashed
    · cases hashed
    · next fine =>
      simp only [not_or, not_lt, not_not] at fine
      obtain ⟨rest, split_⟩ := prefix_assets starts
      have some_ : requestedPath path ≠ [] := by
        intro empty
        rw [empty] at starts
        exact absurd starts (by decide)
      have asks : asked path = bytes "assets" :: rest.filter (· ≠ []) := by
        rw [asked, split_, List.filter_cons_of_pos (by decide)]
      have proper := asked_proper plain
      rw [base_asked some_ asks] at fine hashed
      rcases List.eq_nil_or_concat (rest.filter (· ≠ [])) with none_ | ⟨middle, name, last⟩
      · simp only [none_, List.getLast_singleton] at fine
        exact absurd fine.2.1 (by decide)
      · rw [last] at asks
        have name_ : (bytes "assets" :: rest.filter (· ≠ [])).getLast (List.cons_ne_nil _ _) = name := by
          simp only [last, List.concat_eq_append]
          simp
        rw [name_] at fine hashed
        rw [List.concat_eq_append] at asks
        refine ⟨middle, name, asks, ?_⟩
        have free : separator ∉ name := by
          refine (proper name ?_).noSlash
          rw [asks]
          simp
        exact hashed_name free fine.1 fine.2.1 fine.2.2 hashed

/-- What the relay lets a browser keep for ever is a file with a hash in its name under `assets`,
    and it is the file that was asked for and never the page in its place; whatever resolves to a
    page is not to be stored. -/
theorem static_cached {fs : FileSystem} (docs : Documented fs) (root : StaticRoot)
    {method path : Bytes} {target : Path} {cache : CachePolicy}
    (served : handleStatic fs (some root.path) method path = .file target cache) :
    (cache = .noStore ↔ base separator period target = indexName) ∧
      (cache = .immutable → base separator period target ≠ indexName ∧
        fs.stat (root.under (asked path)) = some .regular ∧
        fs.evalSymlinks (root.under (asked path)) = some target ∧
        ∃ middle name, asked path = bytes "assets" :: (middle ++ [name]) ∧ Hashed name) := by
  obtain ⟨-, -, visible, rfl, place, looked, links, -⟩ := served_looked docs root served
  unfold cachePolicy
  by_cases page : base separator period target = indexName
  · rw [if_pos page]
    exact ⟨⟨fun _ => page, fun _ => rfl⟩, fun same => (by cases same)⟩
  · rw [if_neg page]
    cases hashed : isHashedAssetPath (requestedPath path) with
    | false =>
      rw [if_neg Bool.false_ne_true]
      exact ⟨⟨fun same => (by cases same), fun same => absurd same page⟩, fun same => (by cases same)⟩
    | true =>
      rw [if_pos rfl]
      have starts : bytes "assets/" <+: requestedPath path := by
        by_contra other
        rw [isHashedAssetPath, if_pos other] at hashed
        cases hashed
      refine ⟨⟨fun same => (by cases same), fun same => absurd same page⟩, fun _ => ?_⟩
      rcases looked.2 with same | other
      · subst same
        exact ⟨page, looked.1, links, hashed_asset (plain_iff.mp visible) hashed⟩
      · have falls := other.2.1
        rw [assets_stay starts] at falls
        cases falls

theorem static_cached_asset :
    handleStatic site (some www.path) (bytes "GET") (bytes "/assets/app-0123abcd.js") =
        .file (bytes "/www/assets/app-0123abcd.js") .immutable ∧
      ∃ middle name, asked (bytes "/assets/app-0123abcd.js") = bytes "assets" :: (middle ++ [name]) ∧
        Hashed name := by
  have served : handleStatic site (some www.path) (bytes "GET") (bytes "/assets/app-0123abcd.js") =
      .file (bytes "/www/assets/app-0123abcd.js") .immutable := by decide
  exact ⟨served, ((static_cached site_documented www served).2 rfl).2.2.2⟩

end RelayStatic
