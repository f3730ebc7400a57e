import GameSecurity.LayoutFile
import GameSecurity.PatternParser
import GameSecurity.SortedMap
import GameSecurity.TargetProcess

/- SignatureDatabase of runtime_config.cpp, the file that it is extended by, and
   resolve_signature of analysis.cpp. -/
namespace OffsetSignatures
open AsciiText LayoutFile PatternScanner PortableExecutable PatternParser TargetProcess
open SortedMap
open IntervalScan (sole gather sole_gather_iff)

inductive SignatureValueKind where
  | rva
  | immediate
  deriving DecidableEq, Repr

inductive SignatureCallback where
  | none
  | viewAngles
  | localPlayerPawn
  deriving DecidableEq, Repr

structure SignatureCandidate where
  module : Text
  name : Text
  kind : SignatureValueKind
  callback : SignatureCallback
  pattern : Text
  external : Bool
  deriving DecidableEq, Repr

structure SignatureDatabase where
  candidates_ : List SignatureCandidate
  deriving DecidableEq, Repr

def splitPipe (line : Text) : List Text := (line.splitOn 124).map trim

def parseKind (s : Text) : Except Text SignatureValueKind :=
  let s := trim s
  if s = text "rva" then .ok .rva
  else if s = text "imm" then .ok .immediate
  else .error (text "unknown signature value kind: " ++ s)

def parseCallback (s : Text) : Except Text SignatureCallback :=
  let s := trim s
  if s = text "none" then .ok .none
  else if s = text "view_angles" then .ok .viewAngles
  else if s = text "local_player_pawn" then .ok .localPlayerPawn
  else .error (text "unknown signature callback: " ++ s)

/-- One turn of the loop, up to push_back; nothing: the line is skipped. -/
def readCandidate (lineNo : Nat) (line : Text) : Except Text (Option SignatureCandidate) :=
  let line := trim line
  if line = [] ∨ line.head? = some 35 then .ok none
  else
    match splitPipe line with
    | [module, name, kind, callback, pattern] => do
      let kind ← parseKind kind
      let callback ← parseCallback callback
      .ok (some ⟨module, name, kind, callback, pattern, true⟩)
    | _ => .error (text "invalid signature line " ++ numeral 10 lineNo ++
        text ": expected module|name|kind|callback|pattern")

def readCandidates (lineNo : Nat) : List Text → Except Text (List SignatureCandidate)
  | [] => .ok []
  | line :: rest => do
    let candidate ← readCandidate (lineNo + 1) line
    let later ← readCandidates (lineNo + 1) rest
    .ok (candidate.toList ++ later)

/-- prepend_file, given the text of the file where it can be opened; an exception leaves the
   database as it was. -/
def SignatureDatabase.prependFile (db : SignatureDatabase) (path : Text) (file : Option Text) :
    SignatureDatabase × Except Text Unit :=
  match file with
  | none => (db, .error (text "unable to open signature file: " ++ path))
  | some content =>
    match readCandidates 0 (lines content) with
    | .error what => (db, .error what)
    | .ok external => (⟨external ++ db.candidates_⟩, .ok ())

def isCandidate (module name : Text) (c : SignatureCandidate) : Bool :=
  c.module = module ∧ c.name = name

def SignatureDatabase.candidates (db : SignatureDatabase) (module name : Text) :
    List SignatureCandidate :=
  db.candidates_.filter (isCandidate module name)

/-- std::pair of a module's name and an offset's, in the order of the pairs. -/
structure GroupKey where
  module : Text
  name : Text
  deriving DecidableEq, Repr

instance : LT GroupKey where
  lt a b := a.module < b.module ∨ a.module = b.module ∧ a.name < b.name

instance : DecidableLT GroupKey := fun a b =>
  inferInstanceAs (Decidable (a.module < b.module ∨ a.module = b.module ∧ a.name < b.name))

instance groupTrans : Trans (fun a b : GroupKey => a < b) (fun a b : GroupKey => a < b)
    fun a b : GroupKey => a < b where
  trans := by
    rintro a b c (low | ⟨same, low⟩) (high | ⟨same', high⟩)
    · exact .inl (Trans.trans low high)
    · exact .inl (same' ▸ low)
    · exact .inl (same ▸ high)
    · exact .inr ⟨same.trans same', Trans.trans low high⟩

instance groupTrichotomous : Std.Trichotomous fun a b : GroupKey => a < b where
  trichotomous := by
    rintro ⟨m, n⟩ ⟨m', n'⟩ notLow notHigh
    have notLow : ¬ (m < m' ∨ m = m' ∧ n < n') := notLow
    have notHigh : ¬ (m' < m ∨ m' = m ∧ n' < n) := notHigh
    rw [not_or, not_and] at notLow notHigh
    obtain rfl : m = m' := Std.Trichotomous.trichotomous (r := fun a b : Text => a < b) m m'
      notLow.1 notHigh.1
    obtain rfl : n = n' := Std.Trichotomous.trichotomous (r := fun a b : Text => a < b) n n'
      (notLow.2 rfl) (notHigh.2 rfl)
    rfl

def internal (c : SignatureCandidate) : Bool := (text "__").isPrefixOf c.name

def addToGroup (out : Map GroupKey (List SignatureCandidate)) (c : SignatureCandidate) :
    Map GroupKey (List SignatureCandidate) :=
  if internal c then out
  else
    let key := ⟨c.module, c.name⟩
    out.set key ((out.find? key).getD [] ++ [c])

def SignatureDatabase.offsetGroups (db : SignatureDatabase) :
    Map GroupKey (List SignatureCandidate) :=
  db.candidates_.foldl addToGroup empty

def inRange (mv : ModuleView) (kind : SignatureValueKind) (value : Rva) : Bool :=
  match kind with
  | .rva => value < mv.module.size.toNat
  | .immediate => value ≤ 0x10000000

/-- One turn of the loop over the candidates; `.ok none`: it goes on to the next one, as it
   does where the pattern is invalid. -/
def tryCandidate (mv : ModuleView) (c : SignatureCandidate) : Analysis (Option Rva) :=
  match parse c.pattern with
  | .error (.thrown _) => .ok none
  | .error .unfinished => .error .endless
  | .ok ops =>
    match findUniqueCode mv.pe ops with
    | .error _ => .error .fault
    | .ok none => .ok none
    | .ok (some saves) =>
      match saves[1]? with
      | none => .ok none
      | some value => if inRange mv c.kind value then .ok (some value) else .ok none

def resolveFrom (mv : ModuleView) : List SignatureCandidate → Analysis (Option Rva)
  | [] => .ok none
  | c :: rest => do
    match ← tryCandidate mv c with
    | some value => .ok (some value)
    | none => resolveFrom mv rest

def resolveSignature (mv : ModuleView) (db : SignatureDatabase) (name : Text) :
    Analysis (Option Rva) :=
  resolveFrom mv (db.candidates mv.module.name name)

def kindText : SignatureValueKind → Text
  | .rva => text "rva"
  | .immediate => text "imm"

def callbackText : SignatureCallback → Text
  | .none => text "none"
  | .viewAngles => text "view_angles"
  | .localPlayerPawn => text "local_player_pawn"

/-- A line of the documented form: five texts between bars, blanks around them. -/
def Entry (line : Text) (c : SignatureCandidate) : Prop :=
  ¬ Skipped line ∧ ∃ a b k f p : Text, (∀ piece ∈ [a, b, k, f, p], 124 ∉ piece) ∧
    trim line = a ++ 124 :: (b ++ 124 :: (k ++ 124 :: (f ++ 124 :: p))) ∧
    c = ⟨trim a, trim b, c.kind, c.callback, trim p, true⟩ ∧ trim k = kindText c.kind ∧
    trim f = callbackText c.callback

/-- The pattern of the candidate means one address of the module's code, and the first value
   that it saves there is in range. -/
def Resolves (mv : ModuleView) (c : SignatureCandidate) (value : Rva) : Prop :=
  ∃ ops, parse c.pattern = .ok ops ∧ inRange mv c.kind value = true ∧
    ∃ start after more, InCode mv.pe start ∧ Matches (span mv.bytes) ops start after (value :: more) ∧
      ∀ other, InCode mv.pe other → (∃ after saves, Matches (span mv.bytes) ops other after saves) →
        other = start

def FirstResolves (mv : ModuleView) (candidates : List SignatureCandidate) (value : Rva) : Prop :=
  ∃ before c after, candidates = before ++ c :: after ∧ Resolves mv c value ∧
    ∀ earlier ∈ before, ∀ other, ¬ Resolves mv earlier other

section File

variable {line : Text} {c : SignatureCandidate} {cs : List SignatureCandidate}

theorem splitOn_free (bar : UInt8) (s : Text) : ∀ piece ∈ s.splitOn bar, bar ∉ piece := by
  induction s with
  | nil => simp
  | cons x rest ih =>
    rw [List.splitOn_cons_eq_if_modifyHead]
    split
    · exact List.forall_mem_cons.mpr ⟨List.not_mem_nil, ih⟩
    · rename_i other
      cases pieces : rest.splitOn bar with
      | nil => exact absurd pieces (List.splitOn_ne_nil _ _)
      | cons first later =>
        rw [pieces, List.forall_mem_cons] at ih
        rw [List.modifyHead_cons, List.forall_mem_cons]
        refine ⟨?_, ih.2⟩
        rw [List.mem_cons, not_or]
        exact ⟨fun same => other (by simp [same]), ih.1⟩

theorem splitOn_five_iff (s a b k f p : Text) : s.splitOn 124 = [a, b, k, f, p] ↔
    (∀ piece ∈ [a, b, k, f, p], 124 ∉ piece) ∧
      s = a ++ 124 :: (b ++ 124 :: (k ++ 124 :: (f ++ 124 :: p))) := by
  have joined : [(124 : UInt8)].intercalate [a, b, k, f, p] =
      a ++ 124 :: (b ++ 124 :: (k ++ 124 :: (f ++ 124 :: p))) := by
    simp [List.intercalate]
  constructor
  · intro split
    refine ⟨fun piece member => splitOn_free 124 s piece (split ▸ member), ?_⟩
    rw [← joined, ← split, List.intercalate_splitOn]
  · rintro ⟨free, rfl⟩
    rw [← joined, List.splitOn_intercalate 124 free (List.cons_ne_nil _ _)]

theorem parseKind_iff {s : Text} {kind : SignatureValueKind} :
    parseKind s = .ok kind ↔ trim s = kindText kind := by
  unfold parseKind
  cases kind with
  | rva =>
    by_cases first : trim s = text "rva"
    · simp [first, kindText]
    · by_cases second : trim s = text "imm" <;> simp [first, second, kindText]
  | immediate =>
    by_cases first : trim s = text "rva"
    · have other : text "rva" ≠ text "imm" := by decide
      simp [first, kindText, other]
    · by_cases second : trim s = text "imm"
      · have other : text "imm" ≠ text "rva" := by decide
        simp [second, kindText, other]
      · simp [first, second, kindText]

theorem parseCallback_iff {s : Text} {callback : SignatureCallback} :
    parseCallback s = .ok callback ↔ trim s = callbackText callback := by
  unfold parseCallback
  have apart : text "none" ≠ text "view_angles" ∧ text "none" ≠ text "local_player_pawn" ∧
      text "view_angles" ≠ text "local_player_pawn" := by decide
  by_cases first : trim s = text "none"
  · cases callback <;> simp [first, callbackText, apart]
  · by_cases second : trim s = text "view_angles"
    · cases callback <;> simp [second, callbackText, apart, Ne.symm apart.1]
    · by_cases third : trim s = text "local_player_pawn"
      · cases callback <;>
          simp [third, callbackText, Ne.symm apart.2.1, Ne.symm apart.2.2]
      · cases callback <;> simp [first, second, third, callbackText]

theorem readCandidate_skipped (skipped : Skipped line) (lineNo : Nat) :
    readCandidate lineNo line = .ok none := if_pos skipped

theorem readCandidate_none {lineNo : Nat} (read : readCandidate lineNo line = .ok none) :
    Skipped line := by
  by_contra solid
  have going : ¬ (trim line = [] ∨ (trim line).head? = some 35) := solid
  unfold readCandidate at read
  simp only [going, if_false] at read
  split at read
  · simp only [bind_eq_ok_iff] at read
    obtain ⟨kind, -, callback, -, same⟩ := read
    cases same
  · cases read

/-- A line that is not skipped gives a candidate exactly where it is an entry. -/
theorem readCandidate_iff (lineNo : Nat) :
    readCandidate lineNo line = .ok (some c) ↔ Entry line c := by
  unfold readCandidate Entry
  by_cases skipped : Skipped line
  · have skip : trim line = [] ∨ (trim line).head? = some 35 := skipped
    simp [skip, skipped]
  · have going : ¬ (trim line = [] ∨ (trim line).head? = some 35) := skipped
    simp only [going, if_false, skipped, not_false_eq_true, true_and]
    constructor
    · intro read
      split at read
      · rename_i m n k f p pieces
        obtain ⟨a, rest₁, pieces, rfl, pieces₁⟩ := List.map_eq_cons_iff.mp pieces
        obtain ⟨b, rest₂, rfl, rfl, pieces₂⟩ := List.map_eq_cons_iff.mp pieces₁
        obtain ⟨k', rest₃, rfl, rfl, pieces₃⟩ := List.map_eq_cons_iff.mp pieces₂
        obtain ⟨f', rest₄, rfl, rfl, pieces₄⟩ := List.map_eq_cons_iff.mp pieces₃
        obtain ⟨p', rest₅, rfl, rfl, pieces₅⟩ := List.map_eq_cons_iff.mp pieces₄
        obtain rfl := List.map_eq_nil_iff.mp pieces₅
        obtain ⟨free, whole⟩ := (splitOn_five_iff _ _ _ _ _ _).mp pieces
        simp only [bind_eq_ok_iff, parseKind_iff, parseCallback_iff, trim_trim] at read
        obtain ⟨kind, kindRead, callback, callbackRead, same⟩ := read
        cases same
        exact ⟨a, b, k', f', p', free, whole, rfl, kindRead, callbackRead⟩
      · cases read
    · rintro ⟨a, b, k, f, p, free, whole, same, kind, callback⟩
      have pieces : splitPipe (trim line) = [trim a, trim b, trim k, trim f, trim p] := by
        rw [splitPipe, (splitOn_five_iff _ a b k f p).mpr ⟨free, whole⟩]
        rfl
      rw [pieces]
      simp only [bind_eq_ok_iff, parseKind_iff, parseCallback_iff, trim_trim]
      exact ⟨c.kind, kind, c.callback, callback, congrArg (Except.ok ∘ some) same.symm⟩

/-- A file is read exactly where its lines other than blank lines and comments are entries. -/
theorem readCandidates_iff (lineNo : Nat) (ls : List Text) : readCandidates lineNo ls = .ok cs ↔
    List.Forall₂ Entry (ls.filter (¬ Skipped ·)) cs := by
  induction ls generalizing lineNo cs with
  | nil =>
    rw [readCandidates, List.filter_nil, List.forall₂_nil_left_iff, Except.ok.injEq, eq_comm]
  | cons line rest ih =>
    simp only [readCandidates, bind_eq_ok_iff, ih]
    by_cases skipped : Skipped line
    · rw [List.filter_cons_of_neg (by simpa using skipped), readCandidate_skipped skipped]
      simp
    · rw [List.filter_cons_of_pos (by simpa using skipped), List.forall₂_cons_left_iff]
      constructor
      · rintro ⟨candidate, first, later, others, same⟩
        cases candidate with
        | none => exact absurd (readCandidate_none first) skipped
        | some c =>
          cases same
          exact ⟨c, later, (readCandidate_iff _).mp first, others, rfl⟩
      · rintro ⟨c, later, entry, others, rfl⟩
        exact ⟨some c, (readCandidate_iff _).mpr entry, later, others, rfl⟩

def Entries (content : Text) (entries : List SignatureCandidate) : Prop :=
  List.Forall₂ Entry ((lines content).filter (¬ Skipped ·)) entries

theorem prependFile_entries {db : SignatureDatabase} {path content : Text}
    (entries : Entries content cs) :
    db.prependFile path (some content) = (⟨cs ++ db.candidates_⟩, .ok ()) := by
  have read : readCandidates 0 (lines content) = .ok cs := (readCandidates_iff 0 _).mpr entries
  rw [SignatureDatabase.prependFile, read]

theorem prependFile_refused {db : SignatureDatabase} {path content : Text}
    (refused : ∀ cs, ¬ Entries content cs) :
    ∃ what, db.prependFile path (some content) = (db, .error what) := by
  rw [SignatureDatabase.prependFile]
  cases read : readCandidates 0 (lines content) with
  | error what => exact ⟨what, rfl⟩
  | ok cs => exact absurd ((readCandidates_iff 0 _).mp read) (refused cs)

end File

section Resolution

variable {mv : ModuleView} {c : SignatureCandidate} {cs : List SignatureCandidate} {value : Rva}

theorem scan_meaning (small : mv.bytes.length < 2 ^ 32) (ops : List Op) :
    ∃ result, findUniqueCode mv.pe ops = .ok result ∧ ∀ saves, result = some saves ↔
      ∃ start after more, InCode mv.pe start ∧ Matches (span mv.bytes) ops start after more ∧
        saves = start :: more ∧
        ∀ other, InCode mv.pe other → (∃ after more, Matches (span mv.bytes) ops other after more) →
          other = start := by
  obtain ⟨image, inside⟩ := ofBytes_codeRange_le (span mv.bytes)
  change mv.pe.image = span mv.bytes at image
  change mv.pe.codeRange.2 ≤ (span mv.bytes).size at inside
  have scan : findUniqueCode mv.pe ops = _ :=
    findUniqueCode_eq (by rwa [image]) (by rwa [image]) ops
  have hits {start : Nat} (here : InCode mv.pe start) (saves : List Nat) :
      hit (span mv.bytes) ops start = some saves ↔
        ∃ after more, Matches (span mv.bytes) ops start after more ∧ saves = start :: more :=
    hit_iff small (Nat.le_of_lt (Nat.lt_of_lt_of_le here.2 inside))
  rw [image] at scan
  refine ⟨_, scan, fun saves => ?_⟩
  rw [sole_gather_iff]
  constructor
  · rintro ⟨start, low, high, found, only⟩
    obtain ⟨after, more, matched, behind⟩ := (hits ⟨low, high⟩ saves).mp found
    refine ⟨start, after, more, ⟨low, high⟩, matched, behind, ?_⟩
    rintro other there ⟨after', more', matched'⟩
    exact only other there.1 there.2
      (Option.isSome_iff_exists.mpr ⟨_, (hits there _).mpr ⟨after', more', matched', rfl⟩⟩)
  · rintro ⟨start, after, more, here, matched, behind, only⟩
    refine ⟨start, here.1, here.2, (hits here saves).mpr ⟨after, more, matched, behind⟩, ?_⟩
    intro other low high found
    obtain ⟨saves', there⟩ := Option.isSome_iff_exists.mp found
    obtain ⟨after', more', matched', -⟩ := (hits ⟨low, high⟩ saves').mp there
    exact only other ⟨low, high⟩ ⟨after', more', matched'⟩

/-- A candidate is tried without a fault, and gives the value it resolves to. -/
theorem tryCandidate_spec (small : mv.bytes.length < 2 ^ 32) (c : SignatureCandidate) :
    ∃ result, tryCandidate mv c = .ok result ∧ ∀ v, result = some v ↔ Resolves mv c v := by
  unfold tryCandidate
  rcases parse_ends c.pattern with ⟨ops, parsed⟩ | ⟨what, failed⟩
  · obtain ⟨result, scanned, meaning⟩ := scan_meaning small ops
    rw [parsed]
    simp only [scanned]
    cases result with
    | none =>
      refine ⟨none, rfl, fun v => iff_of_false (Option.some_ne_none v).symm ?_⟩
      rintro ⟨ops', parsed', -, start, after, more, here, matched, only⟩
      rw [parsed] at parsed'
      cases parsed'
      have := (meaning _).mpr ⟨start, after, v :: more, here, matched, rfl, only⟩
      cases this
    | some saves =>
      obtain ⟨start, after, more, here, matched, rfl, only⟩ := (meaning _).mp rfl
      have known {v : Rva} (resolves : Resolves mv c v) :
          inRange mv c.kind v = true ∧ ∃ later, more = v :: later := by
        obtain ⟨ops', parsed', inside, start', after', later, here', matched', only'⟩ := resolves
        rw [parsed] at parsed'
        cases parsed'
        have same := (meaning _).mpr ⟨start', after', v :: later, here', matched', rfl, only'⟩
        cases same
        exact ⟨inside, later, rfl⟩
      cases more with
      | nil =>
        refine ⟨none, rfl, fun v => iff_of_false (Option.some_ne_none v).symm fun resolves => ?_⟩
        obtain ⟨-, later, impossible⟩ := known resolves
        cases impossible
      | cons first later =>
        by_cases inside : inRange mv c.kind first = true
        · refine ⟨some first, if_pos inside, fun v => ?_⟩
          constructor
          · rintro ⟨⟩
            exact ⟨ops, parsed, inside, start, after, later, here, matched, only⟩
          · intro resolves
            obtain ⟨-, later', same⟩ := known resolves
            cases same
            rfl
        · refine ⟨none, if_neg inside, fun v => iff_of_false (Option.some_ne_none v).symm fun resolves => ?_⟩
          obtain ⟨inside', later', same⟩ := known resolves
          cases same
          exact inside inside'
  · rw [failed]
    refine ⟨none, rfl, fun v => iff_of_false (Option.some_ne_none v).symm ?_⟩
    rintro ⟨ops, parsed, -⟩
    rw [failed] at parsed
    cases parsed

def attempt (mv : ModuleView) (c : SignatureCandidate) : Option Rva :=
  match tryCandidate mv c with
  | .ok result => result
  | .error _ => none

theorem attempt_iff (small : mv.bytes.length < 2 ^ 32) :
    attempt mv c = some value ↔ Resolves mv c value := by
  obtain ⟨result, tried, meaning⟩ := tryCandidate_spec small c
  rw [attempt, tried]
  exact meaning value

theorem resolveFrom_eq (small : mv.bytes.length < 2 ^ 32) (cs : List SignatureCandidate) :
    resolveFrom mv cs = .ok (cs.findSome? (attempt mv)) := by
  induction cs with
  | nil => rfl
  | cons c rest ih =>
    obtain ⟨result, tried, -⟩ := tryCandidate_spec small c
    rw [resolveFrom, tried, ok_bind, List.findSome?_cons, attempt, tried]
    cases result with
    | none => exact ih
    | some v => rfl

theorem firstResolves_iff (small : mv.bytes.length < 2 ^ 32) :
    cs.findSome? (attempt mv) = some value ↔ FirstResolves mv cs value := by
  rw [List.findSome?_eq_some_iff]
  apply exists_congr
  intro before
  apply exists_congr
  intro c
  apply exists_congr
  intro after
  rw [attempt_iff small]
  refine and_congr Iff.rfl (and_congr Iff.rfl (forall₂_congr fun earlier _ => ?_))
  rw [Option.eq_none_iff_forall_ne_some]
  exact forall_congr' fun other => not_congr (attempt_iff small)

theorem resolveSignature_spec (small : mv.bytes.length < 2 ^ 32) (db : SignatureDatabase)
    (name : Text) : ∃ found, resolveSignature mv db name = .ok found ∧
      ∀ v, found = some v ↔ FirstResolves mv (db.candidates mv.module.name name) v :=
  ⟨_, resolveFrom_eq small _, fun _ => firstResolves_iff small⟩

end Resolution

/-- A signature file extends the database as a whole or not at all. Where it does, a signature is
   resolved by the first of the file's candidates that resolves, and by those known before
   where none does, so that it is resolved wherever it was; no scan looks outside the module. -/
theorem signature_file_extends (db : SignatureDatabase) (path content : Text) :
    (∀ entries, Entries content entries →
      db.prependFile path (some content) = (⟨entries ++ db.candidates_⟩, .ok ()) ∧
      ∀ mv : ModuleView, mv.bytes.length < 2 ^ 32 → ∀ name, ∃ found,
        resolveSignature mv ⟨entries ++ db.candidates_⟩ name = .ok found ∧
        ∀ v, found = some v ↔
          FirstResolves mv (entries.filter (isCandidate mv.module.name name)) v ∨
          (∀ w, ¬ FirstResolves mv (entries.filter (isCandidate mv.module.name name)) w) ∧
            FirstResolves mv (db.candidates mv.module.name name) v) ∧
    ((∀ entries, ¬ Entries content entries) →
      ∃ what, db.prependFile path (some content) = (db, .error what)) := by
  refine ⟨fun entries listed => ⟨prependFile_entries listed, fun mv small name => ?_⟩,
    prependFile_refused⟩
  refine ⟨_, resolveFrom_eq small _, fun v => ?_⟩
  simp only [← firstResolves_iff small, SignatureDatabase.candidates, List.filter_append,
    List.findSome?_append]
  cases (entries.filter (isCandidate mv.module.name name)).findSome? (attempt mv) with
  | none => simp
  | some w => simp

end OffsetSignatures
