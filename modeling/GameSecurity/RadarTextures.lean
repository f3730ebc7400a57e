import Mathlib.Algebra.Group.Int.Defs
import Mathlib.Algebra.Group.Nat.Defs
import GameSecurity.OwnedHandles
import GameSecurity.Recency
import GameSecurity.Runs
import Mathlib.Data.List.MinMax
import Mathlib.Data.List.TakeWhile

/- The texture cache of local_fixed_radar.cpp and the life of the renderer in sdl_renderer.cpp. The
   64-bit counters of requests and of renderers are not exhausted. -/
namespace RadarTextures
open OwnedHandles (Handle Ledger)
open Recency (LastRequest)

/-- A texture and the renderer it was created with. -/
abbrev Texture := Handle

def maxPngFileBytes : Nat := 16 * 1024 * 1024
def maxDecodedBytes : Nat := 64 * 1024 * 1024
def maxTextureDimension : Nat := 4096
def radarTextureDimension : Nat := 1024
def maxCachedRadarTextures : Nat := 4

/-- Two seconds of the steady clock, which counts nanoseconds. -/
def retryDelay : Int := 2000000000

/-- What the file system, the imaging component and SDL answer about an image. -/
structure Image where
  regularFile : Bool := true
  fileBytes : Option Nat := some 1
  com : Bool := true
  factory : Bool := true
  decoder : Bool := true
  frame : Bool := true
  size : Option (Nat × Nat) := some (1024, 1024)
  converter : Bool := true
  converted : Bool := true
  copied : Bool := true
  created : Bool := true
  updated : Bool := true
  blended : Bool := true
  scaled : Bool := true
  deriving DecidableEq, Repr

def refusal (image : Image) : Option String :=
  let fileBytes := image.fileBytes.getD 0
  let width := (image.size.getD (0, 0)).1
  let height := (image.size.getD (0, 0)).2
  let stride := width * 4
  let decodedBytes := stride * height
  if ¬ image.regularFile then some "map PNG is missing from local-radar"
  else if fileBytes = 0 ∨ fileBytes > maxPngFileBytes then some "map PNG has an invalid file size"
  else if ¬ image.com then some "Windows imaging initialization failed"
  else if ¬ image.factory then some "Windows Imaging Component is unavailable"
  else if ¬ image.decoder then some "map PNG could not be decoded"
  else if ¬ image.frame then some "map PNG contains no image frame"
  else if width = 0 ∨ height = 0 ∨ width > maxTextureDimension ∨ height > maxTextureDimension then
    some "map PNG dimensions are invalid"
  else if width ≠ radarTextureDimension ∨ height ≠ radarTextureDimension then
    some "map PNG must be 1024 x 1024"
  else if ¬ image.converter then some "map pixel converter could not be created"
  else if ¬ image.converted then some "map pixels could not be converted to RGBA"
  else if stride ≥ 2 ^ 32 ∨ decodedBytes > maxDecodedBytes ∨ decodedBytes ≥ 2 ^ 32 then
    some "decoded map image is too large"
  else if ¬ image.copied then some "map pixels could not be read"
  else none

def loadPngTexture (sdl : Ledger) (image : Image) : (Option Texture × String) × Ledger :=
  match sdl.owner with
  | none => ((none, "SDL renderer is unavailable"), sdl)
  | some renderer =>
    match refusal image with
    | some error => ((none, error), sdl)
    | none =>
      if ¬ image.created then ((none, "SDL could not create the map texture"), sdl)
      else
        let texture := sdl.next renderer
        let sdl := sdl.create renderer
        if image.updated ∧ image.blended ∧ image.scaled then ((some texture, ""), sdl)
        else ((none, "SDL could not upload the map texture"), sdl.release texture)

structure TextureCacheEntry where
  texture : Option Texture := none
  imagePath : String
  error : String := ""
  retryAfter : Int := 0
  lastUsed : Nat := 0
  deriving DecidableEq, Repr

structure TextureCache where
  rendererRevision : Nat := 0
  usageSerial : Nat := 0
  entries : List TextureCacheEntry := []
  error : String := ""
  deriving DecidableEq, Repr

structure State where
  window : Bool := false
  imguiInitialized : Bool := false
  rendererRevision : Nat := 0
  sdl : Ledger := {}
  textureCache : TextureCache := {}
  deriving DecidableEq, Repr

def discardStale (s : State) : State :=
  if s.textureCache.rendererRevision ≠ s.rendererRevision then
    { s with textureCache := { rendererRevision := s.rendererRevision } }
  else s

/-- Loads the image of an entry; without a texture it may be tried again after a while. -/
def loadEntry (sdl : Ledger) (entry : TextureCacheEntry) (now : Int) (image : Image) :
    TextureCacheEntry × Ledger :=
  let ((texture, error), sdl) := loadPngTexture sdl image
  let retryAfter := if texture = none then now + retryDelay else 0
  ({ entry with texture, error, retryAfter }, sdl)

def renewEntry (sdl : Ledger) (cached : TextureCacheEntry) (now : Int) (image : Image) :
    TextureCacheEntry × Ledger :=
  if cached.texture = none ∧ now ≥ cached.retryAfter then loadEntry sdl cached now image
  else (cached, sdl)

def useCached (s : State) (before : List TextureCacheEntry) (cached : TextureCacheEntry)
    (behind : List TextureCacheEntry) (now : Int) (image : Image) : Option Texture × State :=
  let usageSerial := s.textureCache.usageSerial + 1
  let (cached, sdl) := renewEntry s.sdl { cached with lastUsed := usageSerial } now image
  let textureCache := { s.textureCache with
    usageSerial, entries := before ++ cached :: behind, error := cached.error }
  (cached.texture, { s with sdl, textureCache })

def destroyEntry (sdl : Ledger) (entry : TextureCacheEntry) : Ledger :=
  match entry.texture with
  | some texture => sdl.release texture
  | none => sdl

/-- Makes room for one entry; the serials differ, so the least is at one place. -/
def evict (s : State) : State :=
  if s.textureCache.entries.length ≥ maxCachedRadarTextures then
    match s.textureCache.entries.argmin TextureCacheEntry.lastUsed with
    | none => s
    | some leastRecentlyUsed =>
      let sdl := if s.sdl.owner.isSome then destroyEntry s.sdl leastRecentlyUsed else s.sdl
      let entries := s.textureCache.entries.erase leastRecentlyUsed
      { s with sdl, textureCache := { s.textureCache with entries } }
  else s

def addEntry (s : State) (imagePath : String) (now : Int) (image : Image) :
    Option Texture × State :=
  let usageSerial := s.textureCache.usageSerial + 1
  let (entry, sdl) := loadEntry s.sdl { imagePath, lastUsed := usageSerial } now image
  let textureCache := { s.textureCache with
    usageSerial, entries := s.textureCache.entries ++ [entry], error := entry.error }
  (entry.texture, { s with sdl, textureCache })

def textureForImage (s : State) (imagePath : String) (now : Int) (image : Image) :
    Option Texture × State :=
  let s := discardStale s
  let before := s.textureCache.entries.takeWhile fun entry => entry.imagePath ≠ imagePath
  match s.textureCache.entries.dropWhile fun entry => entry.imagePath ≠ imagePath with
  | cached :: behind => useCached s before cached behind now image
  | [] => addEntry (evict s) imagePath now image

def reset (s : State) : State :=
  let sdl :=
    if s.textureCache.rendererRevision = s.rendererRevision ∧ s.sdl.owner.isSome then
      s.textureCache.entries.foldl destroyEntry s.sdl
    else s.sdl
  { s with sdl, textureCache := {} }

structure Creation where
  vsync : Bool := true
  accelerated : Bool := true
  software : Bool := true
  blendMode : Bool := true
  deriving DecidableEq, Repr

/-- The state holds the renderer that is returned, or none. -/
def createRenderer (s : State) (creation : Creation) : State :=
  if ¬ (creation.vsync ∨ creation.accelerated ∨ creation.software) then
    { s with sdl := s.sdl.dismiss }
  else if ¬ creation.blendMode then { s with sdl := s.sdl.appoint.dismiss }
  else { s with sdl := s.sdl.appoint, rendererRevision := s.rendererRevision + 1 }

/-- SDL_DestroyRenderer takes the renderer's textures with it. -/
def destroyRenderer (s : State) : State := { s with sdl := s.sdl.dismiss }

def recoverRenderer (s : State) (creation : Creation) (platformRecovered rendererRecovered : Bool) :
    Bool × State :=
  if ¬ s.window then (false, s)
  else
    let restoreImGui := s.imguiInitialized
    let s := createRenderer (destroyRenderer s) creation
    if s.sdl.owner = none then (false, { s with imguiInitialized := false })
    else if restoreImGui ∧ ¬ (platformRecovered ∧ rendererRecovered) then
      (false, { destroyRenderer s with imguiInitialized := false })
    else (true, s)

def openRenderer (s : State) (creation : Creation) : Bool × State :=
  let s := createRenderer s creation
  (s.sdl.owner.isSome, { s with window := s.sdl.owner.isSome })

def destroy (s : State) : State := { destroyRenderer s with window := false }

inductive Action where
  | request (imagePath : String) (now : Int) (image : Image)
  | reset
  | recover (creation : Creation) (platformRecovered rendererRecovered : Bool)
  | openWindow (creation : Creation)
  | initImGui (works : Bool)
  | shutdownImGui
  | destroy
  deriving DecidableEq, Repr

/-- A frame is begun with a renderer; a window is opened where there is none. -/
def step (s : State) : Action → Option State
  | .request imagePath now image =>
    if s.sdl.owner.isSome then some (textureForImage s imagePath now image).2 else none
  | .reset => some (RadarTextures.reset s)
  | .recover creation platformRecovered rendererRecovered =>
    some (recoverRenderer s creation platformRecovered rendererRecovered).2
  | .openWindow creation =>
    if ¬ s.window ∧ s.sdl.owner = none then some (openRenderer s creation).2 else none
  | .initImGui works => some { s with imguiInitialized := s.imguiInitialized || works }
  | .shutdownImGui => some { s with imguiInitialized := false }
  | .destroy => some (RadarTextures.destroy s)

def machine : Runs.Machine State Action where
  init s := s = {}
  step := step

def requested (actions : List Action) : List String :=
  actions.filterMap fun action => match action with
    | .request imagePath _ _ => some imagePath
    | _ => none

def textures (entries : List TextureCacheEntry) : List Texture :=
  entries.filterMap TextureCacheEntry.texture

theorem textures_append (left right : List TextureCacheEntry) :
    textures (left ++ right) = textures left ++ textures right := List.filterMap_append

theorem textures_cons (entry : TextureCacheEntry) (rest : List TextureCacheEntry) :
    textures (entry :: rest) = entry.texture.toList ++ textures rest := by
  unfold textures
  rw [List.filterMap_cons]
  cases entry.texture <;> rfl

theorem loadPngTexture_sound {sdl : Ledger} {held : List Texture} (sound : sdl.Sound held)
    (image : Image) :
    let loaded := loadPngTexture sdl image
    loaded.2.Sound (held ++ loaded.1.1.toList) ∧ loaded.2.owner = sdl.owner ∧
      ∀ texture ∈ loaded.1.1, sdl.owner = some texture.owner := by
  intro loaded
  have none_ : sdl.Sound (held ++ []) := by
    rw [List.append_nil]
    exact sound
  cases here : sdl.owner with
  | none =>
    have refused : loaded = ((none, "SDL renderer is unavailable"), sdl) := by
      simp only [loaded, loadPngTexture, here]
    rw [refused]
    exact ⟨none_, here, by simp⟩
  | some renderer =>
    cases checks : refusal image with
    | some error =>
      have refused : loaded = ((none, error), sdl) := by
        simp only [loaded, loadPngTexture, here, checks]
      rw [refused]
      exact ⟨none_, here, by simp⟩
    | none =>
      by_cases made : image.created = true
      · have created := sound.create here
        by_cases uploaded : image.updated ∧ image.blended ∧ image.scaled
        · have done : loaded =
              ((some (sdl.next renderer), ""), sdl.create renderer) := by
            simp only [loaded, loadPngTexture, here, checks, made, uploaded, not_true_eq_false,
              if_false, if_true, and_self]
          rw [done]
          refine ⟨created, here, ?_⟩
          rintro _ ⟨⟩
          rfl
        · have failed : loaded = ((none, "SDL could not upload the map texture"),
              (sdl.create renderer).release (sdl.next renderer)) := by
            simp only [loaded, loadPngTexture, here, checks, made, if_neg uploaded,
              not_true_eq_false, if_false]
          rw [failed]
          exact ⟨created.release here, here, by simp⟩
      · have failed : loaded = ((none, "SDL could not create the map texture"), sdl) := by
          simp only [loaded, loadPngTexture, here, checks, if_pos made]
        rw [failed]
        exact ⟨none_, here, by simp⟩

/-- What holds of the cache and the textures in every reachable state. -/
structure Ok (requests : List String) (s : State) : Prop where
  few : s.textureCache.entries.length ≤ maxCachedRadarTextures
  recent : Recency.Ordered TextureCacheEntry.imagePath TextureCacheEntry.lastUsed requests
    s.textureCache.usageSerial s.textureCache.entries
  sound : s.sdl.Sound (textures s.textureCache.entries)
  behind : s.textureCache.rendererRevision ≤ s.rendererRevision
  current : s.textureCache.rendererRevision = s.rendererRevision → ∀ renderer ∈ s.sdl.owner,
    ∀ texture ∈ textures s.textureCache.entries, texture.owner = renderer
  stale : s.textureCache.rendererRevision ≠ s.rendererRevision →
    ∀ texture ∈ textures s.textureCache.entries, s.sdl.owner ≠ some texture.owner

theorem ok_initial : Ok [] {} where
  few := Nat.zero_le _
  recent := Recency.Ordered.nil
  sound := OwnedHandles.Ledger.Sound.initial
  behind := le_rfl
  current _ _ _ _ member := absurd member List.not_mem_nil
  stale _ _ member := absurd member List.not_mem_nil

theorem ok_empty {requests : List String} {s : State} {cache : TextureCache}
    (sound : s.sdl.Sound []) (none_ : cache.entries = [])
    (behind : cache.rendererRevision ≤ s.rendererRevision) :
    Ok requests { s with textureCache := cache } where
  few := by
    rw [show _ = cache.entries from rfl, none_]
    exact Nat.zero_le _
  recent := by
    change Recency.Ordered _ _ _ _ cache.entries
    rw [none_]
    exact Recency.Ordered.nil
  sound := by
    change s.sdl.Sound (textures cache.entries)
    rw [none_]
    exact sound
  behind := behind
  current _ _ _ texture member := by
    change texture ∈ textures cache.entries at member
    rw [none_] at member
    cases member
  stale _ texture member := by
    change texture ∈ textures cache.entries at member
    rw [none_] at member
    cases member

theorem destroyEntry_sound {sdl : Ledger} {left right : List Texture} {entry : TextureCacheEntry}
    (sound : sdl.Sound (left ++ (entry.texture.toList ++ right)))
    (alive : ∀ texture ∈ entry.texture, sdl.owner = some texture.owner) :
    (destroyEntry sdl entry).Sound (left ++ right) ∧ (destroyEntry sdl entry).owner = sdl.owner := by
  unfold destroyEntry
  cases held : entry.texture with
  | none =>
    rw [held] at sound
    exact ⟨sound, rfl⟩
  | some texture =>
    rw [held] at sound
    exact ⟨sound.release (alive texture held), rfl⟩

theorem destroyEntries_sound (entries : List TextureCacheEntry) :
    ∀ sdl : Ledger, sdl.Sound (textures entries) →
    (∀ texture ∈ textures entries, sdl.owner = some texture.owner) →
    (entries.foldl destroyEntry sdl).Sound [] := by
  induction entries with
  | nil =>
    intro sdl sound _
    exact sound
  | cons entry rest ih =>
    intro sdl sound alive
    rw [textures_cons] at sound alive
    obtain ⟨released, owner⟩ := @destroyEntry_sound sdl [] _ entry sound fun texture held =>
      alive texture (List.mem_append_left _ (Option.mem_toList.mpr held))
    refine ih _ released ?_
    intro texture member
    rw [owner]
    exact alive texture (List.mem_append_right _ member)

variable {requests : List String} {s : State}

theorem ok_reset (ok : Ok requests s) : Ok requests (reset s) := by
  unfold reset
  by_cases live : s.textureCache.rendererRevision = s.rendererRevision ∧ s.sdl.owner.isSome
  · obtain ⟨fresh, some_⟩ := live
    obtain ⟨renderer, here⟩ := Option.isSome_iff_exists.mp some_
    have alive : ∀ texture ∈ textures s.textureCache.entries,
        s.sdl.owner = some texture.owner := by
      intro texture member
      rw [ok.current fresh renderer here texture member]
      exact here
    have released := destroyEntries_sound s.textureCache.entries s.sdl ok.sound alive
    rw [if_pos ⟨fresh, some_⟩]
    exact @ok_empty requests { s with sdl := s.textureCache.entries.foldl destroyEntry s.sdl } {}
      released rfl (Nat.zero_le _)
  · rw [if_neg live]
    refine @ok_empty requests s {} (ok.sound.drop (List.nil_sublist _) ?_) rfl (Nat.zero_le _)
    intro texture member
    right
    by_cases fresh : s.textureCache.rendererRevision = s.rendererRevision
    · intro here
      exact live ⟨fresh, Option.isSome_iff_exists.mpr ⟨_, here⟩⟩
    · exact ok.stale fresh texture member

theorem ok_discardStale (ok : Ok requests s) :
    Ok requests (discardStale s) ∧ (discardStale s).sdl = s.sdl ∧
      (discardStale s).textureCache.rendererRevision = (discardStale s).rendererRevision := by
  unfold discardStale
  by_cases old : s.textureCache.rendererRevision ≠ s.rendererRevision
  · rw [if_pos old]
    refine ⟨ok_empty (ok.sound.drop (List.nil_sublist _) ?_) rfl le_rfl, rfl, rfl⟩
    intro texture member
    exact Or.inr (ok.stale old texture member)
  · rw [if_neg old]
    exact ⟨ok, rfl, not_not.mp old⟩

theorem ok_dismiss {window imgui : Bool} (ok : Ok requests s) :
    Ok requests
      { s with sdl := s.sdl.dismiss, window := window, imguiInitialized := imgui } where
  few := ok.few
  recent := ok.recent
  sound := ok.sound.dismiss
  behind := ok.behind
  current _ _ here := by cases here
  stale _ _ _ := (Option.some_ne_none _).symm

theorem ok_createRenderer (ok : Ok requests s) (creation : Creation) :
    Ok requests (createRenderer s creation) := by
  unfold createRenderer
  split
  · exact ok_dismiss ok
  · split
    · refine ⟨ok.few, ok.recent, ok.sound.appoint.dismiss, ok.behind, ?_, ?_⟩
      · intro _ _ here
        cases here
      · intro _ _ _
        exact (Option.some_ne_none _).symm
    · refine ⟨ok.few, ok.recent, ok.sound.appoint, Nat.le_succ_of_le ok.behind, ?_, ?_⟩
      · intro fresh
        have behind := ok.behind
        change s.textureCache.rendererRevision = s.rendererRevision + 1 at fresh
        omega
      · intro _ texture member same
        have made := (ok.sound.valid texture member).1
        have older := (ok.sound.numbered texture made).2
        have newest : s.sdl.owners = texture.owner := Option.some.inj same
        omega

theorem ok_recoverRenderer (ok : Ok requests s) (creation : Creation)
    (platformRecovered rendererRecovered : Bool) :
    Ok requests (recoverRenderer s creation platformRecovered rendererRecovered).2 := by
  have created := ok_createRenderer (ok_dismiss ok : Ok requests (destroyRenderer s)) creation
  unfold recoverRenderer
  split
  · exact ok
  · simp only
    split
    · exact ⟨created.few, created.recent, created.sound, created.behind, created.current,
        created.stale⟩
    · split
      · exact @ok_dismiss requests (createRenderer (destroyRenderer s) creation) _ false created
      · exact created

theorem loadEntry_sound {sdl : Ledger} {held : List Texture} (sound : sdl.Sound held)
    (entry : TextureCacheEntry) (now : Int) (image : Image) :
    let loaded := loadEntry sdl entry now image
    loaded.1.imagePath = entry.imagePath ∧ loaded.1.lastUsed = entry.lastUsed ∧
      loaded.2.Sound (held ++ loaded.1.texture.toList) ∧ loaded.2.owner = sdl.owner ∧
      ∀ texture ∈ loaded.1.texture, sdl.owner = some texture.owner :=
  ⟨rfl, rfl, loadPngTexture_sound sound image⟩

/-- The state behind a request that leaves textures of the one renderer. -/
theorem Ok.request {imagePath error : String} {renderer : Nat} {entries : List TextureCacheEntry}
    {sdl : Ledger} (ok : Ok requests s)
    (fresh : s.textureCache.rendererRevision = s.rendererRevision)
    (few : entries.length ≤ maxCachedRadarTextures)
    (recent : Recency.Ordered TextureCacheEntry.imagePath TextureCacheEntry.lastUsed
      (requests ++ [imagePath]) (s.textureCache.usageSerial + 1) entries)
    (sound : sdl.Sound (textures entries)) (owner : sdl.owner = some renderer)
    (alive : ∀ texture ∈ textures entries, texture.owner = renderer) :
    Ok (requests ++ [imagePath])
      { s with
        sdl := sdl
        textureCache := { s.textureCache with
          usageSerial := s.textureCache.usageSerial + 1, entries := entries, error := error } }
    where
  few := few
  recent := recent
  sound := sound
  behind := ok.behind
  current _ _ here texture member := by
    rw [alive texture member]
    exact Option.some.inj (owner.symm.trans here)
  stale old := absurd fresh old

theorem renewEntry_sound {sdl : Ledger} {left right : List Texture} {cached : TextureCacheEntry}
    (sound : sdl.Sound (left ++ (cached.texture.toList ++ right))) (now : Int) (image : Image) :
    let renewed := renewEntry sdl cached now image
    renewed.1.imagePath = cached.imagePath ∧ renewed.1.lastUsed = cached.lastUsed ∧
      renewed.2.Sound (left ++ (renewed.1.texture.toList ++ right)) ∧
      renewed.2.owner = sdl.owner ∧
      ∀ texture ∈ renewed.1.texture,
        texture ∈ cached.texture ∨ sdl.owner = some texture.owner := by
  intro renewed
  by_cases due : cached.texture = none ∧ now ≥ cached.retryAfter
  · have loaded : renewed = loadEntry sdl cached now image := if_pos due
    rw [due.1] at sound
    obtain ⟨path, used, held, owner, alive⟩ := loadEntry_sound sound cached now image
    rw [loaded]
    refine ⟨path, used, held.perm ?_, owner, fun texture member => Or.inr (alive texture member)⟩
    rw [Option.toList_none, List.nil_append, List.append_assoc]
    exact List.Perm.append_left left List.perm_append_comm
  · have kept : renewed = (cached, sdl) := if_neg due
    rw [kept]
    exact ⟨rfl, rfl, sound, rfl, fun texture member => Or.inl member⟩

/-- What a request leaves: its path is the one requested last, and the texture it gives is cached
    and of the renderer there is. -/
structure Requested (requests : List String) (imagePath : String) (renderer : Nat)
    (result : Option Texture × State) : Prop where
  ok : Ok (requests ++ [imagePath]) result.2
  cached : ∀ texture ∈ result.1, texture ∈ textures result.2.textureCache.entries
  owner : result.2.sdl.owner = some renderer
  fresh : result.2.textureCache.rendererRevision = result.2.rendererRevision

theorem mem_textures {entries : List TextureCacheEntry} {texture : Texture} :
    texture ∈ textures entries ↔ ∃ entry ∈ entries, entry.texture = some texture :=
  List.mem_filterMap

theorem useCached_requested {before behind : List TextureCacheEntry} {cached : TextureCacheEntry}
    {renderer : Nat} (ok : Ok requests s)
    (fresh : s.textureCache.rendererRevision = s.rendererRevision)
    (owner : s.sdl.owner = some renderer)
    (found : s.textureCache.entries = before ++ cached :: behind) (now : Int) (image : Image) :
    Requested requests cached.imagePath renderer (useCached s before cached behind now image) := by
  have few := ok.few
  have recent := ok.recent
  have sound := ok.sound
  have alive := ok.current fresh renderer owner
  rw [found] at few recent sound alive
  rw [textures_append, textures_cons] at sound
  let used := { cached with lastUsed := s.textureCache.usageSerial + 1 }
  obtain ⟨path, stamp, held, owner', given⟩ := @renewEntry_sound s.sdl _ _ used sound now image
  generalize renewed_ : renewEntry s.sdl used now image = renewed at path stamp held owner' given
  have result : useCached s before cached behind now image = (renewed.1.texture, { s with
      sdl := renewed.2
      textureCache := { s.textureCache with
        usageSerial := s.textureCache.usageSerial + 1
        entries := before ++ renewed.1 :: behind
        error := renewed.1.error } }) := by
    rw [← renewed_]
    rfl
  rw [← textures_cons, ← textures_append] at held
  rw [result]
  refine ⟨?_, ?_, owner'.trans owner, fresh⟩
  · refine ok.request fresh ?_ (recent.touch path stamp) held (owner'.trans owner) ?_
    · rw [List.length_append, List.length_cons] at few ⊢
      exact few
    · intro texture member
      obtain ⟨entry, inside, holds⟩ := mem_textures.mp member
      have older (there : entry ∈ before ++ cached :: behind) : texture.owner = renderer :=
        alive texture (mem_textures.mpr ⟨entry, there, holds⟩)
      rcases List.mem_append.mp inside with left | right
      · exact older (List.mem_append_left _ left)
      · rcases List.mem_cons.mp right with here | right
        · subst here
          rcases given texture holds with was | made
          · exact alive texture (mem_textures.mpr
              ⟨cached, List.mem_append_right _ List.mem_cons_self, was⟩)
          · exact Option.some.inj (made.symm.trans owner)
        · exact older (List.mem_append_right _ (List.mem_cons_of_mem _ right))
  · intro texture member
    exact mem_textures.mpr ⟨renewed.1, List.mem_append_right _ List.mem_cons_self, member⟩

theorem addEntry_requested {imagePath : String} {renderer : Nat} (ok : Ok requests s)
    (fresh : s.textureCache.rendererRevision = s.rendererRevision)
    (owner : s.sdl.owner = some renderer)
    (room : s.textureCache.entries.length < maxCachedRadarTextures)
    (new : imagePath ∉ s.textureCache.entries.map TextureCacheEntry.imagePath) (now : Int)
    (image : Image) :
    Requested requests imagePath renderer (addEntry s imagePath now image) := by
  let entry : TextureCacheEntry :=
    { imagePath := imagePath, lastUsed := s.textureCache.usageSerial + 1 }
  obtain ⟨path, stamp, held, owner', given⟩ := loadEntry_sound ok.sound entry now image
  generalize loaded_ : loadEntry s.sdl entry now image = loaded at path stamp held owner' given
  have result : addEntry s imagePath now image = (loaded.1.texture, { s with
      sdl := loaded.2
      textureCache := { s.textureCache with
        usageSerial := s.textureCache.usageSerial + 1
        entries := s.textureCache.entries ++ [loaded.1]
        error := loaded.1.error } }) := by
    rw [← loaded_]
    rfl
  have whole : textures (s.textureCache.entries ++ [loaded.1]) =
      textures s.textureCache.entries ++ loaded.1.texture.toList := by
    rw [textures_append, textures_cons]
    exact congrArg _ (List.append_nil _)
  rw [← whole] at held
  have inserted := ok.recent.insert (e := loaded.1) (by rw [path]; exact new) stamp
  rw [path] at inserted
  rw [result]
  refine ⟨?_, ?_, owner'.trans owner, fresh⟩
  · refine ok.request fresh ?_ inserted held (owner'.trans owner) ?_
    · rw [List.length_append, List.length_singleton]
      exact room
    · intro texture member
      rw [whole] at member
      rcases List.mem_append.mp member with older | newest
      · exact ok.current fresh renderer owner texture older
      · exact Option.some.inj ((given texture (Option.mem_toList.mp newest)).symm.trans owner)
  · intro texture member
    exact mem_textures.mpr ⟨loaded.1, List.mem_append_right _ List.mem_cons_self, member⟩

/-- Room for an entry: what is in the cache is kept but for one entry of a full cache, the one
    requested longest ago. -/
structure Evicted (requests : List String) (renderer : Nat) (s evicted : State) : Prop where
  ok : Ok requests evicted
  owner : evicted.sdl.owner = some renderer
  fresh : evicted.textureCache.rendererRevision = evicted.rendererRevision
  room : evicted.textureCache.entries.length < maxCachedRadarTextures
  kept : s.textureCache.entries.length < maxCachedRadarTextures ∧ evicted = s ∨
    ∃ oldest ∈ s.textureCache.entries,
      LastRequest TextureCacheEntry.imagePath requests
        (fun other => other ∈ s.textureCache.entries ∧ other ≠ oldest) oldest ∧
      evicted.textureCache.entries = s.textureCache.entries.erase oldest

theorem evict_evicted {renderer : Nat} (ok : Ok requests s)
    (fresh : s.textureCache.rendererRevision = s.rendererRevision)
    (owner : s.sdl.owner = some renderer) : Evicted requests renderer s (evict s) := by
  unfold evict
  by_cases full : s.textureCache.entries.length ≥ maxCachedRadarTextures
  · rw [if_pos full]
    cases least : s.textureCache.entries.argmin TextureCacheEntry.lastUsed with
    | none =>
      rw [List.argmin_eq_none.mp least] at full
      exact absurd full (by decide)
    | some oldest =>
      have member := List.argmin_mem least
      have last := ok.recent.oldest member fun other there => List.le_of_mem_argmin there least
      obtain ⟨left, right, -, whole, erased⟩ := List.exists_erase_eq member
      have sub : (left ++ right).Sublist s.textureCache.entries := by
        rw [whole]
        exact List.Sublist.append_left (List.sublist_cons_self oldest right) left
      have shorter : (left ++ right).length < maxCachedRadarTextures := by
        have few := ok.few
        rw [whole] at few
        rw [List.length_append, List.length_cons] at few
        rw [List.length_append]
        omega
      have sound := ok.sound
      rw [whole, textures_append, textures_cons] at sound
      have alive := ok.current fresh renderer owner
      have some_ : s.sdl.owner.isSome = true := by rw [owner]; rfl
      obtain ⟨released, owner'⟩ := destroyEntry_sound sound fun texture held => by
        rw [alive texture (mem_textures.mpr ⟨oldest, member, held⟩)]
        exact owner
      rw [← textures_append] at released
      simp only [erased, if_pos some_]
      refine ⟨⟨shorter.le, ok.recent.sublist sub, released, ok.behind, ?_, ?_⟩,
        owner'.trans owner, fresh, shorter, Or.inr ⟨oldest, member, last, erased.symm⟩⟩
      · intro _ other here texture held
        obtain ⟨entry, inside, holds⟩ := mem_textures.mp held
        rw [alive texture (mem_textures.mpr ⟨entry, sub.subset inside, holds⟩)]
        exact Option.some.inj ((owner'.trans owner).symm.trans here)
      · exact fun old => absurd fresh old
  · rw [if_neg full]
    have room := not_le.mp full
    exact ⟨ok, owner, fresh, room, Or.inl ⟨room, rfl⟩⟩

def live (s : State) : List TextureCacheEntry := (discardStale s).textureCache.entries

theorem textureForImage_cached {imagePath : String} {now : Int} {image : Image}
    (known : imagePath ∈ (live s).map TextureCacheEntry.imagePath) :
    ∃ before cached behind, live s = before ++ cached :: behind ∧ cached.imagePath = imagePath ∧
      textureForImage s imagePath now image =
        useCached (discardStale s) before cached behind now image := by
  have whole := @List.takeWhile_append_dropWhile _
    (fun entry : TextureCacheEntry => entry.imagePath ≠ imagePath) (live s)
  unfold textureForImage
  cases rest : (discardStale s).textureCache.entries.dropWhile
      fun entry => entry.imagePath ≠ imagePath with
  | nil =>
    obtain ⟨entry, inside, same⟩ := List.mem_map.mp known
    have passed := List.dropWhile_eq_nil_iff.mp rest entry inside
    exact absurd same (of_decide_eq_true passed)
  | cons cached behind =>
    rw [live, rest] at whole
    have stops := List.head_dropWhile_not (fun entry : TextureCacheEntry =>
      entry.imagePath ≠ imagePath) (l := live s) (by rw [live, rest]; exact List.cons_ne_nil _ _)
    refine ⟨_, cached, behind, whole.symm, ?_, ?_⟩
    · simp only [live, rest, List.head_cons] at stops
      simpa using stops
    · simp only [rest]

theorem textureForImage_new {imagePath : String} {now : Int} {image : Image}
    (new : imagePath ∉ (live s).map TextureCacheEntry.imagePath) :
    textureForImage s imagePath now image =
      addEntry (evict (discardStale s)) imagePath now image := by
  have passed : (discardStale s).textureCache.entries.dropWhile
      (fun entry => entry.imagePath ≠ imagePath) = [] := by
    rw [List.dropWhile_eq_nil_iff]
    intro entry inside
    rw [decide_eq_true_eq]
    exact fun same => new (List.mem_map.mpr ⟨entry, inside, same⟩)
  unfold textureForImage
  simp only [passed]

theorem textureForImage_requested {renderer : Nat} (ok : Ok requests s)
    (owner : s.sdl.owner = some renderer) (imagePath : String) (now : Int) (image : Image) :
    Requested requests imagePath renderer (textureForImage s imagePath now image) := by
  obtain ⟨ok, same, fresh⟩ := ok_discardStale ok
  rw [← same] at owner
  by_cases known : imagePath ∈ (live s).map TextureCacheEntry.imagePath
  · obtain ⟨before, cached, behind, whole, rfl, result⟩ := textureForImage_cached known
    rw [result]
    exact useCached_requested ok fresh owner whole now image
  · have evicted := evict_evicted ok fresh owner
    rw [textureForImage_new known]
    refine addEntry_requested evicted.ok evicted.fresh evicted.owner evicted.room ?_ now image
    intro there
    obtain ⟨entry, inside, path⟩ := List.mem_map.mp there
    rcases evicted.kept with ⟨-, kept⟩ | ⟨oldest, -, -, kept⟩
    · rw [kept] at inside
      exact known (List.mem_map.mpr ⟨entry, inside, path⟩)
    · rw [kept] at inside
      exact known (List.mem_map.mpr ⟨entry, List.mem_of_mem_erase inside, path⟩)

theorem textureForImage_evicts {renderer : Nat} (ok : Ok requests s)
    (owner : s.sdl.owner = some renderer) {imagePath : String} (now : Int) (image : Image)
    (new : imagePath ∉ (live s).map TextureCacheEntry.imagePath)
    (full : maxCachedRadarTextures ≤ (live s).length) :
    ∃ oldest ∈ live s, LastRequest TextureCacheEntry.imagePath requests
        (fun other => other ∈ live s ∧ other ≠ oldest) oldest ∧
      ∃ fresh, fresh.imagePath = imagePath ∧
        (textureForImage s imagePath now image).2.textureCache.entries =
          (live s).erase oldest ++ [fresh] := by
  obtain ⟨ok, same, fresh⟩ := ok_discardStale ok
  rw [← same] at owner
  rw [textureForImage_new new]
  rcases (evict_evicted ok fresh owner).kept with ⟨room, -⟩ | ⟨oldest, inside, last, kept⟩
  · exact absurd room (not_lt.mpr full)
  · have added := congrArg (· ++ [(loadEntry (evict (discardStale s)).sdl
      { imagePath, lastUsed := (evict (discardStale s)).textureCache.usageSerial + 1 } now
      image).1]) kept
    exact ⟨oldest, inside, last, _, rfl, added⟩

theorem ok_step {past : List Action} {a : Action} {t : State} (ok : Ok (requested past) s)
    (taken : machine.step s a = some t) : Ok (requested (past ++ [a])) t := by
  have whole : requested (past ++ [a]) = requested past ++ requested [a] := List.filterMap_append
  have same (t : State) (still : Ok (requested past) t) (none_ : requested [a] = []) :
      Ok (requested (past ++ [a])) t := by
    rw [whole, none_, List.append_nil]
    exact still
  cases a with
  | request imagePath now image =>
    obtain ⟨some_, requested_⟩ := Option.ite_none_right_eq_some.mp taken
    cases requested_
    obtain ⟨renderer, owner⟩ := Option.isSome_iff_exists.mp some_
    rw [whole]
    exact (textureForImage_requested ok owner imagePath now image).ok
  | reset =>
    cases taken
    exact same _ (ok_reset ok) rfl
  | recover creation platformRecovered rendererRecovered =>
    cases taken
    exact same _ (ok_recoverRenderer ok creation platformRecovered rendererRecovered) rfl
  | openWindow creation =>
    obtain ⟨-, opened⟩ := Option.ite_none_right_eq_some.mp taken
    cases opened
    have created := ok_createRenderer ok creation
    exact same _ ⟨created.few, created.recent, created.sound, created.behind, created.current,
      created.stale⟩ rfl
  | initImGui works =>
    cases taken
    exact same _ ⟨ok.few, ok.recent, ok.sound, ok.behind, ok.current, ok.stale⟩ rfl
  | shutdownImGui =>
    cases taken
    exact same _ ⟨ok.few, ok.recent, ok.sound, ok.behind, ok.current, ok.stale⟩ rfl
  | destroy =>
    cases taken
    exact same _ (@ok_dismiss _ s false s.imguiInitialized ok) rfl

theorem ok_exec {actions : List Action} (run : machine.exec {} actions = some s) :
    Ok (requested actions) s := by
  have kept : ∀ past u a t, Ok (requested past) u → machine.step u a = some t →
      Ok (requested (past ++ [a])) t := fun past u a t ok taken => ok_step ok taken
  exact @Runs.exec_preserves_past _ _ machine _ kept [] actions {} s ok_initial run

/-- The textures of the cache are owned well along every run: few entries, none twice; what a
    request gives is alive and of the renderer there is; the entry requested longest ago makes
    room; and no texture is leaked, destroyed twice or destroyed after its renderer. -/
theorem textures_owned (actions : List Action) (s : State)
    (run : machine.exec {} actions = some s) :
    s.textureCache.entries.length ≤ 4 ∧
    (s.textureCache.entries.map TextureCacheEntry.imagePath).Nodup ∧
    (∀ imagePath now image, s.sdl.owner.isSome →
      let result := textureForImage s imagePath now image
      (∀ texture ∈ result.1, texture ∈ result.2.sdl.created ∧
        result.2.sdl.releases texture = [] ∧ result.2.sdl.owner = some texture.owner) ∧
      (imagePath ∉ (live s).map TextureCacheEntry.imagePath → (live s).length = 4 →
        ∃ oldest ∈ live s, LastRequest TextureCacheEntry.imagePath (requested actions)
            (fun other => other ∈ live s ∧ other ≠ oldest) oldest ∧
          ∃ fresh, fresh.imagePath = imagePath ∧
            result.2.textureCache.entries = (live s).erase oldest ++ [fresh])) ∧
    ∀ texture ∈ s.sdl.created, texture ∈ textures s.textureCache.entries ∨
      s.sdl.releases texture = [true] ∨
      s.sdl.owner ≠ some texture.owner ∧ s.sdl.releases texture = [] := by
  have ok := ok_exec run
  refine ⟨ok.few, ok.recent.keys, ?_, ok.sound.settled⟩
  intro imagePath now image some_ result
  obtain ⟨renderer, owner⟩ := Option.isSome_iff_exists.mp some_
  have after := textureForImage_requested ok owner imagePath now image
  constructor
  · intro texture given
    have held := after.cached texture given
    obtain ⟨made, unreleased⟩ := after.ok.sound.valid texture held
    refine ⟨made, unreleased, ?_⟩
    rw [after.ok.current after.fresh renderer after.owner texture held]
    exact after.owner
  · intro new full
    exact textureForImage_evicts ok owner now image new full.ge

/-- Five floors, a lost device in between, a reset and a floor that cannot be uploaded. -/
theorem textures_owned_five :
    let actions : List Action := [.openWindow {}, .initImGui true, .request "a" 0 {},
      .recover {} true true, .request "a" 1 {}, .request "b" 2 {}, .request "c" 3 {},
      .request "d" 4 {}, .request "a" 5 {}, .request "e" 6 {}, .reset,
      .request "b" 7 { updated := false }]
    ∃ s, machine.exec {} actions = some s ∧
      (s.textureCache.entries.map TextureCacheEntry.imagePath).Nodup ∧
      s.sdl.created.map s.sdl.releases = [[], [true], [true], [true], [true], [true], [true]] := by
  intro actions
  have ran : (machine.exec {} actions).isSome = true := by decide
  obtain ⟨s, run⟩ := Option.isSome_iff_exists.mp ran
  refine ⟨s, run, (textures_owned actions s run).2.1, ?_⟩
  have counted : (machine.exec {} actions).map (fun s => s.sdl.created.map s.sdl.releases) =
      some [[], [true], [true], [true], [true], [true], [true]] := by decide
  rw [run] at counted
  exact Option.some.inj counted

end RadarTextures
