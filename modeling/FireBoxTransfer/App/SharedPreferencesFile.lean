import FireBoxTransfer.Framework.AssocMap
import FireBoxTransfer.Framework.Json
import Mathlib.Data.List.Infix

/-!
# The settings file

`SharedPreferencesFile` keeps the settings in a JSON file and a cache of them,
which is read from the file when it is first needed. `setValue` and `remove`
change the cache and write it to the file. `clear` writes an empty object and
leaves the cache as it is, so what was cleared is still answered and comes back
with the next write, unless the cache was not read yet or is empty.
-/

namespace FireBoxTransfer

/-! ## §1  JSON texts -/

/-- The encoders of the store and its decoder. The values are those that
survive JSON; `decode` is `none` for a text that is no object. -/
structure JsonCodec (V : Type) where
  encoder : AssocMap String V → Bytes
  beautyEncoder : AssocMap String V → Bytes
  decode : Bytes → Option (AssocMap String V)
  decode_encoder : ∀ m, decode (encoder m) = some m
  decode_beautyEncoder : ∀ m, decode (beautyEncoder m) = some m

/-! ## §2  The store -/

/-- The file may not exist yet; `cache` is `none` until it is first used. -/
structure SharedPreferencesFile (V : Type) where
  file : Option Bytes
  beautify : Bool
  cache : Option (AssocMap String V)

namespace SharedPreferencesFile

variable {V : Type}

/-- A new instance on the file. -/
def new (file : Option Bytes) (beautify : Bool) : SharedPreferencesFile V := ⟨file, beautify, none⟩

section Store

variable (json : JsonCodec V) (s : SharedPreferencesFile V)

/-- `_getAll`, on the text of the file; a file that is missing is created empty. -/
def readAll (file : Option Bytes) : AssocMap String V :=
  (json.decode (file.getD [])).getD .empty

/-- The late field `_cache`. -/
def cached : AssocMap String V := s.cache.getD (readAll json s.file)

def load : SharedPreferencesFile V :=
  match s.cache with
  | some _ => s
  | none => { s with file := some (s.file.getD []), cache := some (readAll json s.file) }

/-- `_write`. -/
def write (data : AssocMap String V) : SharedPreferencesFile V :=
  { s with file := some ((if s.beautify then json.beautyEncoder else json.encoder) data) }

def clear : SharedPreferencesFile V := s.write json .empty

/-- `_cache[key] = value` or `_cache.remove(key)`, and `_write(_cache)`. -/
def update (f : AssocMap String V → AssocMap String V) : SharedPreferencesFile V :=
  let s := s.load json
  let cache := f (s.cached json)
  { s with cache := some cache }.write json cache

def remove (key : String) : SharedPreferencesFile V :=
  s.update json fun cache => cache.filter fun k _ => k ≠ key

def setValue (key : String) (value : V) : SharedPreferencesFile V :=
  s.update json fun cache => cache.insert key value

def getAll : AssocMap String V × SharedPreferencesFile V := (s.cached json, s.load json)

end Store

end SharedPreferencesFile

/-! ## §3  Calls -/

inductive PreferencesCall (V : Type) where
  | setValue (key : String) (value : V)
  | remove (key : String)
  | clear
  | getAll
deriving DecidableEq

namespace PreferencesCall

variable {V : Type}

def step (json : JsonCodec V) (s : SharedPreferencesFile V) :
    PreferencesCall V → SharedPreferencesFile V
  | .setValue key value => s.setValue json key value
  | .remove key => s.remove json key
  | .clear => s.clear json
  | .getAll => (s.getAll json).2

def run (json : JsonCodec V) (s : SharedPreferencesFile V) (calls : List (PreferencesCall V)) :
    SharedPreferencesFile V := calls.foldl (step json) s

/-- What a call does to the map of the settings. -/
def apply (m : AssocMap String V) : PreferencesCall V → AssocMap String V
  | .setValue key value => m.insert key value
  | .remove key => m.filter fun k _ => k ≠ key
  | .clear => .empty
  | .getAll => m

def applyAll (m : AssocMap String V) (calls : List (PreferencesCall V)) : AssocMap String V :=
  calls.foldl apply m

end PreferencesCall

open PreferencesCall

/-! ## §4  When the store is its map -/

section Refinement

variable {V : Type} {json : JsonCodec V} {s : SharedPreferencesFile V} {m : AssocMap String V}

/-- `getAll` answers the map, and so does a new instance on the same file. -/
def SharedPreferencesFile.Stores (json : JsonCodec V) (s : SharedPreferencesFile V)
    (m : AssocMap String V) : Prop :=
  (s.getAll json).1 = m ∧
    ((SharedPreferencesFile.new s.file s.beautify : SharedPreferencesFile V).getAll json).1 = m

/-- A `clear` comes before anything that reads the file, or when no setting is left. -/
def ClearsInTime (m : AssocMap String V) (calls : List (PreferencesCall V)) : Prop :=
  ∀ before, before ++ [.clear] <+: calls →
    (∀ c ∈ before, c = .clear) ∨ (applyAll m before).isEmpty = true

theorem readAll_write (data : AssocMap String V) :
    SharedPreferencesFile.readAll json (s.write json data).file = data := by
  unfold SharedPreferencesFile.readAll SharedPreferencesFile.write
  cases s.beautify with
  | true => exact congrArg (Option.getD · _) (json.decode_beautyEncoder data)
  | false => exact congrArg (Option.getD · _) (json.decode_encoder data)

theorem stores_iff : s.Stores json m ↔
    SharedPreferencesFile.readAll json s.file = m ∧ ∀ c, s.cache = some c → c = m := by
  unfold SharedPreferencesFile.Stores SharedPreferencesFile.getAll SharedPreferencesFile.cached
  cases s.cache with
  | none =>
      constructor
      · intro h
        exact ⟨h.2, nofun⟩
      · intro h
        exact ⟨h.1, h.1⟩
  | some c =>
      constructor
      · intro h
        exact ⟨h.2, fun _ hc => (Option.some.inj hc).symm.trans h.1⟩
      · intro h
        exact ⟨h.2 c rfl, h.1⟩

theorem cached_load : (s.load json).cached json = s.cached json := by
  unfold SharedPreferencesFile.load SharedPreferencesFile.cached
  cases hc : s.cache with
  | none => rfl
  | some c =>
      show s.cache.getD _ = c
      rw [hc]
      rfl

theorem stores_load (h : s.Stores json m) : (s.load json).Stores json m := by
  obtain ⟨hfile, hcache⟩ := stores_iff.mp h
  refine stores_iff.mpr ?_
  unfold SharedPreferencesFile.load
  cases hc : s.cache with
  | none =>
      refine ⟨?_, ?_⟩
      · rw [← hfile]
        rfl
      · rintro _ ⟨⟩
        exact hfile
  | some c => exact ⟨hfile, hcache⟩

theorem stores_update (h : s.Stores json m) (f : AssocMap String V → AssocMap String V) :
    (s.update json f).Stores json (f m) := by
  have hcached : s.cached json = m := h.1
  refine stores_iff.mpr ⟨?_, ?_⟩
  · refine (readAll_write _).trans ?_
    rw [cached_load, hcached]
  · intro c hc
    have hc : f ((s.load json).cached json) = c := Option.some.inj hc
    rw [← hc, cached_load, hcached]

/-- A call other than `clear` keeps the store its map. -/
theorem stores_step (h : s.Stores json m) {c : PreferencesCall V} (hc : c ≠ .clear) :
    (step json s c).Stores json (apply m c) := by
  cases c with
  | setValue key value => exact stores_update h _
  | remove key => exact stores_update h _
  | clear => exact absurd rfl hc
  | getAll => exact stores_load h

theorem stores_clear : (s.clear json).Stores json .empty ↔ ∀ c, s.cache = some c → c = .empty := by
  rw [stores_iff]
  exact and_iff_right (readAll_write _)

/-- The cache is read by every call but `clear`. -/
theorem cache_step {c : PreferencesCall V} :
    (step json s c).cache = none ↔ s.cache = none ∧ c = .clear := by
  have hload : (s.load json).cache ≠ none := by
    unfold SharedPreferencesFile.load
    cases hc : s.cache with
    | none => simp
    | some c => simp [hc]
  cases c with
  | setValue key value => simp [step, SharedPreferencesFile.setValue, SharedPreferencesFile.update,
      SharedPreferencesFile.write]
  | remove key => simp [step, SharedPreferencesFile.remove, SharedPreferencesFile.update,
      SharedPreferencesFile.write]
  | clear => exact (and_iff_left rfl).symm
  | getAll => exact iff_of_false hload (by simp)

theorem run_concat (calls : List (PreferencesCall V)) (c : PreferencesCall V) :
    run json s (calls ++ [c]) = step json (run json s calls) c :=
  List.foldl_concat ..

theorem applyAll_concat (calls : List (PreferencesCall V)) (c : PreferencesCall V) :
    applyAll m (calls ++ [c]) = apply (applyAll m calls) c :=
  List.foldl_concat ..

/-- Nothing but `clear` was called while the cache is not read. -/
theorem cache_run {file : Option Bytes} {beautify : Bool} (calls : List (PreferencesCall V)) :
    (run json (.new file beautify) calls).cache = none ↔ ∀ c ∈ calls, c = .clear := by
  induction calls using List.reverseRecOn with
  | nil => exact iff_of_true rfl nofun
  | append_singleton calls c ih =>
      rw [run_concat, cache_step, ih, List.forall_mem_append]
      exact and_congr_right fun _ => (by simp)

theorem isEmpty_iff : m.isEmpty = true ↔ m = .empty := by
  constructor
  · intro h
    exact AssocMap.ext (List.isEmpty_iff.mp h)
  · rintro rfl
    rfl

/-- **The store is its map**: for every text of the file and every sequence of calls, after each
call `getAll` and a new instance answer the map of the settings exactly if no `clear` meets a
cache that was read and is not empty. -/
theorem stores_map_iff (json : JsonCodec V) (file : Option Bytes) (beautify : Bool)
    (calls : List (PreferencesCall V)) :
    (∀ before, before <+: calls →
      (run json (.new file beautify) before).Stores json
        (applyAll (SharedPreferencesFile.readAll json file) before)) ↔
      ClearsInTime (SharedPreferencesFile.readAll json file) calls := by
  constructor
  · intro h before hpre
    have hbefore := h before ((List.prefix_append _ _).trans hpre)
    have hclear := h _ hpre
    rw [run_concat, applyAll_concat] at hclear
    cases hcache : (run json (.new file beautify) before).cache with
    | none => exact .inl ((cache_run before).mp hcache)
    | some c =>
        -- the cache is the map before the call, and must be the empty one behind it
        have hempty : c = .empty := stores_clear.mp hclear c hcache
        rw [← (stores_iff.mp hbefore).2 c hcache]
        exact .inr (isEmpty_iff.mpr hempty)
  · intro h before
    induction before using List.reverseRecOn with
    | nil =>
        intro _
        exact stores_iff.mpr ⟨rfl, nofun⟩
    | append_singleton before c ih =>
        intro hpre
        have hbefore := ih ((List.prefix_append _ _).trans hpre)
        rw [run_concat, applyAll_concat]
        by_cases hc : c = .clear
        · subst hc
          refine stores_clear.mpr fun cache hcache => ?_
          rcases h before hpre with hclears | hempty
          · rw [(cache_run before).mpr hclears] at hcache
            cases hcache
          · rw [(stores_iff.mp hbefore).2 cache hcache]
            exact isEmpty_iff.mp hempty
        · exact stores_step hbefore hc

end Refinement

/-! ## §5  A store with one setting -/

/-- Settings that are strings, with the encoders as they lay out their text. -/
def JsonCodec.strings : JsonCodec String where
  encoder m := Json.writeMap ⟨[], [], []⟩ m.entries
  beautyEncoder m := Json.writeMap ⟨[10, 32, 32], [32], [10]⟩ m.entries
  decode text := (Json.readMap text).map .ofList
  decode_encoder m := by
    have hblank : Json.Layout.Blank ⟨[], [], []⟩ :=
      ⟨List.all_eq_true.mp rfl, List.all_eq_true.mp rfl, List.all_eq_true.mp rfl⟩
    rw [Json.readMap_write hblank, Option.map_some, AssocMap.ofList_entries]
  decode_beautyEncoder m := by
    have hblank : Json.Layout.Blank ⟨[10, 32, 32], [32], [10]⟩ :=
      ⟨List.all_eq_true.mp rfl, List.all_eq_true.mp rfl, List.all_eq_true.mp rfl⟩
    rw [Json.readMap_write hblank, Option.map_some, AssocMap.ofList_entries]

/-- A setting that was cleared is still answered, and the next write stores it again. -/
theorem cleared_setting_returns :
    let json := JsonCodec.strings
    let calls : List (PreferencesCall String) := [.setValue "pin" "1234", .clear]
    let s := run json (.new none false) calls
    ¬ s.Stores json (applyAll (SharedPreferencesFile.readAll json none) calls) ∧
      (SharedPreferencesFile.readAll json (s.setValue json "port" "53317").file).get? "pin" =
        some "1234" := by
  constructor
  · intro h
    have hcleared := congrArg AssocMap.entries ((stores_iff.mp h).2 _ rfl)
    cases hcleared
  · let s : SharedPreferencesFile String := .new none false
    let data : AssocMap String String := .ofList [("pin", "1234"), ("port", "53317")]
    have hfile : SharedPreferencesFile.readAll .strings (s.write .strings data).file = data :=
      readAll_write data
    exact (congrArg (AssocMap.get? · "pin") hfile).trans (by decide)

end FireBoxTransfer
