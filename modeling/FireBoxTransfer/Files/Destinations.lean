import FireBoxTransfer.Files.Names
import FireBoxTransfer.Framework.TaskPool
import Mathlib.Algebra.Order.BigOperators.Group.List
import Mathlib.Algebra.Order.Group.Nat

/-!
# Destinations of uploads

An upload asks whether a file has the name it wants, and counts on until it
finds a name that is free. The file is created later, by another layer, and
whoever asks in between finds the name free as well. Two uploads keep apart as
long as nobody finds a path free that another one was promised.
-/

namespace FireBoxTransfer

open TaskPool Runs

/-! ## §1  How a path is chosen -/

/-- What comes before the first look at the disk: a name to count on from, after
these directories were created, or a name for a document of Android. -/
inductive Choice where
  | probe (dirs : List String) (dir name : String)
  | document (parentUri name : String)

/-- How an application chooses destinations: the paths it tries one after the
other, whether a directory in the way counts as well as a file does, and
whether a second attempt at a file writes to the destination of the first. -/
structure PathChoice where
  start : String → String → Except String Choice
  candidate : String → String → ℕ → String
  /-- The directory in which Android has to create a file with that path. -/
  safParent : String → Option String
  seesDirectories : Bool
  reopens : Bool

namespace SavePlatform

variable (P : SavePlatform)

/-- `String.parentPath`. -/
def parentPath (path : String) : String :=
  "/".intercalate (((path.replace "\\" "/").splitOn "/").dropLast)

/-- The text after the first `/tree/`, or after five characters. -/
def afterTree (uri : String) : String :=
  match uri.splitOn "/tree/" with
  | _ :: after :: rest => "/tree/".intercalate (after :: rest)
  | _ => .ofList (uri.toList.drop 5)

def convertTreeUriToDocumentUri (treeUri : String) (suffix : Option String) : String :=
  match suffix with
  | none => treeUri ++ "/document/" ++ afterTree treeUri
  | some suffix => treeUri ++ "/document/" ++ afterTree treeUri ++ "%2F" ++ P.encodeComponent suffix

def encodeTreeUri (uri : String) : String :=
  match uri.splitOn "/tree/" with
  | before :: after :: rest =>
      let path := P.decodeComponent ("/tree/".intercalate (after :: rest))
      before ++ "/tree/" ++ P.encodeComponent path
  | _ => uri

def isHexDigit (c : Char) : Bool :=
  c.isDigit || ('A' ≤ c && c ≤ 'F') || ('a' ≤ c && c ≤ 'f')

/-- The identifier of an SD card, and the path on it. -/
def getSdCardPath (path : String) : Option (String × String) :=
  let after := path.toList.drop "/storage/".length
  let (cardId, rest) := (after.take 9, after.drop 10)
  if "/storage/".toList.isPrefixOf path.toList && cardId.length = 9 && cardId[4]? = some '-' &&
      (cardId.eraseIdx 4).all isHexDigit && after[9]? = some '/' && !rest.any isLineTerminator then
    some (.ofList cardId, .ofList rest)
  else none

/-- The directories on the way to a directory, itself included. -/
def onTheWay (dir : String) : List String := (P.paths.split dir).inits.tail.map P.paths.joinAll

/-- `digestFilePathAndPrepareDirectory` up to the first look at the disk, and
the branches of `prepareFileSaveTarget` that create a document. -/
def digestFilePath : PathChoice where
  start parentDirectory fileName := do
    let components ← P.sanitizeRelativeName fileName
    let fileName := "/".intercalate components
    if "content://".toList.isPrefixOf parentDirectory.toList then
      -- a tree is picked on Android only
      let suffix := if contains fileName '/' then some (parentPath fileName) else none
      .ok (.document (P.convertTreeUriToDocumentUri parentDirectory suffix)
        (P.paths.basename fileName))
    else
      let dir := P.paths.joinAll (parentDirectory :: components.dropLast)
      if components.length > 1 && !P.paths.isWithin parentDirectory dir then
        .error "Path traversal detected"
      else .ok (.probe (P.onTheWay dir) dir (components.getLast?.getD ""))
  candidate
    | dir, name, 0 => P.paths.joinAll [dir, name]
    | dir, name, i + 1 => P.paths.joinAll [dir, P.withCount name (i + 2)]
  safParent path :=
    if P.androidSdkInt.isNone then none
    else (getSdCardPath path).map fun (cardId, path) =>
      "content://com.android.externalstorage.documents/tree/" ++ cardId ++ ":" ++
        P.encodeTreeUri (parentPath path)
  seesDirectories := false
  reopens := true

/-- `unique_path` of the command line. -/
def uniquePath : PathChoice where
  start dir fileName := .ok (.probe [] dir (Filename.sanitizePath fileName P.rules))
  candidate := P.uniqueCandidate
  safParent _ := none
  seesDirectories := true
  reopens := false

/-- The documented behaviour of Android: what it creates did not exist. -/
def FreshDocuments : Prop :=
  ∀ present parentUri name, P.key (P.createDocument present parentUri name) ∉ present

end SavePlatform

/-! ## §2  Uploads and their steps -/

/-- The keys of the files and of the directories. -/
structure SavedFiles where
  files : List String
  dirs : List String

inductive SavePoint where
  /-- About to choose a path. -/
  | digest (directory fileName : String)
  | probing (dir name : String) (i : ℕ)
  /-- The path was free when the disk was looked at. -/
  | found (path : String)
  /-- Android is asked for a document; a path on an SD card is promised. -/
  | document (parentUri name : String) (promised : Option String)
  /-- The server knows the path, and has not opened it yet. -/
  | handed (path : String)
  | saving (path : String)
  | failed (path : String) (created : Bool)
  /-- Saved to the cache, and offered to the gallery. -/
  | gallery (path : String)
  | saved (path : String)
  | ended

/-- An upload. One that goes to the gallery is saved to the cache first, and
moved to `fallback`, a directory with a name, if the gallery refuses it. -/
structure IncomingFile where
  fallback : Option (String × String)
  cached : Option String
  point : SavePoint

inductive SaveAct where
  | go | fail
deriving DecidableEq

/-- A destination is handed out; something existed there or not. -/
structure HandedOut where
  path : String
  existed : Bool

/-- An upload into a directory, for the gallery by way of the cache. -/
inductive SaveEvent where
  | upload (directory fileName : String)
  | toGallery (cacheDirectory directory fileName : String)

def IncomingFile.at (t : IncomingFile) (point : SavePoint) : IncomingFile := { t with point }

section Steps

variable (P : SavePlatform) (C : PathChoice) (s : SavedFiles)

/-- The application takes something for a file in the way. -/
def PathChoice.exists (path : String) : Bool :=
  P.key path ∈ s.files || (C.seesDirectories && P.key path ∈ s.dirs)

/-- The keys that a step takes from what is free: a path that is found free, a
document, directories. -/
def IncomingFile.claims (t : IncomingFile) : SaveAct → List String
  | .fail => []
  | .go =>
      match t.point with
      | .digest directory fileName =>
          match C.start directory fileName with
          | .ok (.probe dirs _ _) => dirs.map P.key
          | _ => []
      | .probing dir name i =>
          if C.exists P s (C.candidate dir name i) then [] else [P.key (C.candidate dir name i)]
      | .document parentUri name _ => [P.key (P.createDocument (s.files ++ s.dirs) parentUri name)]
      | _ => []

def digestStep (t : IncomingFile) (directory fileName : String) :
    Outcome SavedFiles IncomingFile HandedOut :=
  match C.start directory fileName with
  | .error _ => { shared := s, task := t.at .ended }
  | .ok (.document parentUri name) =>
      -- a file cannot be moved to a document
      { shared := s
        task := t.at (if t.cached.isSome then .ended else .document parentUri name none) }
  | .ok (.probe dirs dir name) =>
      -- no directory can be created where a file is
      if dirs.any fun dir => P.key dir ∈ s.files then { shared := s, task := t.at .ended }
      else
        { shared := { s with dirs := dirs.map P.key ++ s.dirs }
          task := t.at (.probing dir name 0) }

def probeStep (t : IncomingFile) (dir name : String) (i : ℕ) :
    Outcome SavedFiles IncomingFile HandedOut :=
  let path := C.candidate dir name i
  { shared := s
    task := t.at (if C.exists P s path then .probing dir name (i + 1) else .found path) }

/-- What existed at a destination when it was handed out. -/
def handOut (path : String) : HandedOut := ⟨path, P.key path ∈ s.files ++ s.dirs⟩

def foundStep (t : IncomingFile) (path : String) : Outcome SavedFiles IncomingFile HandedOut where
  shared := s
  task := t.at <|
    match if t.fallback.isSome then none else C.safParent path with
    | some parentUri => .document parentUri (P.paths.basename path) (some path)
    | none => .handed path
  seen := [handOut P s path]

def documentStep (t : IncomingFile) (parentUri name : String) (promised : Option String) :
    Outcome SavedFiles IncomingFile HandedOut :=
  let uri := P.createDocument (s.files ++ s.dirs) parentUri name
  { shared := { s with files := P.key uri :: promised.toList.map P.key ++ s.files }
    task := t.at (.saving uri)
    seen := [handOut P s uri] }

/-- The server creates the file, or the file in the cache is moved. -/
def createStep (t : IncomingFile) (path : String) : Outcome SavedFiles IncomingFile HandedOut :=
  match t.cached with
  | none => { shared := { s with files := P.key path :: s.files }, task := t.at (.saving path) }
  | some cached =>
      { shared := { s with files := P.key path :: s.files.filter (· ≠ P.key cached) }
        task := ⟨none, none, .saved path⟩ }

def saveStep (t : IncomingFile) : SaveAct → Option (Outcome SavedFiles IncomingFile HandedOut)
  | .go =>
      match t.point with
      | .digest directory fileName => some (digestStep P C s t directory fileName)
      | .probing dir name i => some (probeStep P C s t dir name i)
      | .found path => some (foundStep P C s t path)
      | .document parentUri name promised => some (documentStep P s t parentUri name promised)
      | .handed path => some (createStep P s t path)
      | .saving path =>
          some
            { shared := s
              task := t.at (if t.fallback.isSome then .gallery path else .saved path) }
      | .failed path created =>
          -- the file is sent again
          if C.reopens then
            some { shared := s, task := t.at (if created then .saving path else .handed path) }
          else none
      | .gallery path =>
          some
            { shared := { s with files := s.files.filter (· ≠ P.key path) }
              task := t.at .ended }
      | .saved _ | .ended => none
  | .fail =>
      match t.point with
      | .digest _ _ | .document _ _ _ => some { shared := s, task := t.at .ended }
      | .handed path =>
          some
            { shared := s
              task := t.at (if t.cached.isSome then .ended else .failed path false) }
      | .saving path => some { shared := s, task := t.at (.failed path true) }
      | .failed _ _ => some { shared := s, task := t.at .ended }
      | .gallery path =>
          t.fallback.map fun (directory, fileName) =>
            { shared := s, task := ⟨t.fallback, some path, .digest directory fileName⟩ }
      | .probing _ _ _ | .found _ | .saved _ | .ended => none

def saveEnv : SaveEvent → Option (SavedFiles × List IncomingFile)
  | .upload directory fileName => some (s, [⟨none, none, .digest directory fileName⟩])
  | .toGallery cacheDirectory directory fileName =>
      some (s, [⟨some (directory, fileName), none, .digest cacheDirectory fileName⟩])

end Steps

def saveMachine (P : SavePlatform) (C : PathChoice) :
    Machine SavedFiles IncomingFile SaveAct SaveEvent HandedOut where
  step := saveStep P C
  env := saveEnv

abbrev SavePool : Type := Pool SavedFiles IncomingFile HandedOut
abbrev SaveLabel : Type := Label SaveAct SaveEvent

def SavePool.init (files dirs : List String) : SavePool := ⟨⟨files, dirs⟩, [], []⟩

/-! ## §3  What one step does -/

/-- The destinations of an upload whose file exists. -/
def IncomingFile.created (t : IncomingFile) : List String :=
  t.cached.toList ++
    match t.point with
    | .saving path | .failed path true | .gallery path | .saved path => [path]
    | _ => []

/-- The destinations of an upload whose file is still to be created. -/
def IncomingFile.promised (t : IncomingFile) : List String :=
  match t.point with
  | .found path | .handed path | .failed path false => [path]
  | .document _ _ promised => promised.toList
  | _ => []

def IncomingFile.destinations (t : IncomingFile) : List String := t.created ++ t.promised

/-- No path is taken as free that another upload was promised, or where a
directory is. -/
def Undisturbed (P : SavePlatform) (C : PathChoice) (p : SavePool) : SaveLabel → Prop
  | .task i a => ∀ t ∈ p.tasks[i]?, ∀ k ∈ t.claims P C p.shared a,
      (∀ path ∈ (p.tasks.eraseIdx i).flatMap IncomingFile.promised, P.key path ≠ k) ∧
        (t.point matches .probing _ _ _ → k ∉ p.shared.dirs)
  | .env _ => True

section Facts

variable {P : SavePlatform} {C : PathChoice} {s : SavedFiles} {t : IncomingFile} {a : SaveAct}
  {o : Outcome SavedFiles IncomingFile HandedOut}

/-- What a step does to the disk and to the destinations of its upload. -/
structure SaveFrame (P : SavePlatform) (C : PathChoice) (s : SavedFiles) (t : IncomingFile)
    (a : SaveAct) (o : Outcome SavedFiles IncomingFile HandedOut) : Prop where
  spawned : o.spawned = []
  destinations : ∀ path ∈ o.task.destinations,
    path ∈ t.destinations ∨ (P.key path ∈ t.claims P C s a ∧ P.key path ∉ s.files)
  files : ∀ k ∈ o.shared.files, k ∈ s.files ∨ k ∈ t.promised.map P.key ∨ k ∈ t.claims P C s a
  dirs : ∀ k ∈ o.shared.dirs, k ∈ s.dirs ∨ k ∈ t.claims P C s a
  kept : ∀ k ∈ s.files, k ∈ o.shared.files ∨ k ∈ t.created.map P.key

/-- A step that leaves the disk alone, and takes nothing that is free. -/
theorem SaveFrame.same (hdest : ∀ path ∈ o.task.destinations, path ∈ t.destinations)
    (hshared : o.shared = s) (hspawned : o.spawned = []) : SaveFrame P C s t a o where
  spawned := hspawned
  destinations path hpath := .inl (hdest path hpath)
  files _ hk := .inl (hshared ▸ hk)
  dirs _ hk := .inl (hshared ▸ hk)
  kept _ hk := .inl (hshared ▸ hk)

theorem digestStep_frame {directory fileName : String} (ht : t.point = .digest directory fileName) :
    SaveFrame P C s t .go (digestStep P C s t directory fileName) := by
  obtain ⟨fallback, cached, point⟩ := t
  obtain rfl : point = .digest directory fileName := ht
  have hclaims : (⟨fallback, cached, .digest directory fileName⟩ : IncomingFile).claims P C s .go =
      match C.start directory fileName with
      | .ok (.probe dirs _ _) => dirs.map P.key
      | _ => [] := rfl
  unfold digestStep
  cases hstart : C.start directory fileName with
  | error err => exact .same (fun path hpath => hpath) rfl rfl
  | ok choice =>
      cases choice with
      | document parentUri name =>
          cases cached with
          | none => exact .same (fun path hpath => hpath) rfl rfl
          | some cached => exact .same (fun path hpath => hpath) rfl rfl
      | probe dirs dir name =>
          rw [hstart] at hclaims
          simp only
          split_ifs with hblocked
          · exact .same (fun path hpath => hpath) rfl rfl
          · refine ⟨rfl, fun path hpath => .inl hpath, fun k hk => .inl hk, fun k hk => ?_,
              fun k hk => .inl hk⟩
            rw [hclaims]
            exact (List.mem_append.mp hk).symm

theorem probeStep_frame {dir name : String} {i : ℕ} (ht : t.point = .probing dir name i) :
    SaveFrame P C s t .go (probeStep P C s t dir name i) := by
  obtain ⟨fallback, cached, point⟩ := t
  obtain rfl : point = .probing dir name i := ht
  refine ⟨rfl, fun path hpath => ?_, fun k hk => .inl hk, fun k hk => .inl hk, fun k hk => .inl hk⟩
  unfold probeStep at hpath
  simp only at hpath
  by_cases hexists : C.exists P s (C.candidate dir name i) = true
  · rw [if_pos hexists] at hpath
    exact .inl hpath
  · rw [if_neg hexists] at hpath
    rcases List.mem_append.mp hpath with hpath | hpath
    · exact .inl (List.mem_append_left _ hpath)
    · -- the path that was found free
      obtain rfl := List.mem_singleton.mp hpath
      right
      unfold PathChoice.exists at hexists
      simp only [Bool.or_eq_true, decide_eq_true_eq, not_or] at hexists
      refine ⟨?_, hexists.1⟩
      simp [IncomingFile.claims, PathChoice.exists, hexists]

theorem foundStep_frame {path : String} (ht : t.point = .found path) :
    SaveFrame P C s t .go (foundStep P C s t path) := by
  obtain ⟨fallback, cached, point⟩ := t
  obtain rfl : point = .found path := ht
  refine .same (fun path' hpath => ?_) rfl rfl
  unfold foundStep at hpath
  simp only at hpath
  split at hpath <;> exact hpath

theorem documentStep_frame (hP : P.FreshDocuments) {parentUri name : String}
    {promised : Option String} (ht : t.point = .document parentUri name promised) :
    SaveFrame P C s t .go (documentStep P s t parentUri name promised) := by
  obtain ⟨fallback, cached, point⟩ := t
  obtain rfl : point = .document parentUri name promised := ht
  have hfresh := hP (s.files ++ s.dirs) parentUri name
  refine ⟨rfl, fun path hpath => ?_, fun k hk => ?_, fun k hk => .inl hk, fun k hk => .inl ?_⟩
  · rcases List.mem_append.mp hpath with hpath | hpath
    · rcases List.mem_append.mp hpath with hpath | hpath
      · exact .inl (List.mem_append_left _ (List.mem_append_left _ hpath))
      · -- the document
        obtain rfl := List.mem_singleton.mp hpath
        exact .inr ⟨List.mem_singleton_self _, fun hmem => hfresh (List.mem_append_left _ hmem)⟩
    · cases hpath
  · rcases List.mem_cons.mp hk with rfl | hk
    · exact .inr (.inr (List.mem_singleton_self _))
    · exact ((List.mem_append.mp hk).symm).imp id .inl
  · exact List.mem_cons_of_mem _ (List.mem_append_right _ hk)

theorem createStep_frame {path : String} (ht : t.point = .handed path) :
    SaveFrame P C s t .go (createStep P s t path) := by
  obtain ⟨fallback, cached, point⟩ := t
  obtain rfl : point = .handed path := ht
  cases cached with
  | none =>
      refine ⟨rfl, fun path' hpath => .inl ?_, fun k hk => ?_, fun k hk => .inl hk,
        fun k hk => .inl (List.mem_cons_of_mem _ hk)⟩
      · simpa [createStep, IncomingFile.destinations, IncomingFile.created, IncomingFile.promised,
          IncomingFile.at] using hpath
      · rcases List.mem_cons.mp hk with rfl | hk
        · exact .inr (.inl (List.mem_singleton_self _))
        · exact .inl hk
  | some cached =>
      refine ⟨rfl, fun path' hpath => .inl ?_, fun k hk => ?_, fun k hk => .inl hk, fun k hk => ?_⟩
      · refine List.mem_append_right _ ?_
        simpa [createStep, IncomingFile.destinations, IncomingFile.created, IncomingFile.promised]
          using hpath
      · rcases List.mem_cons.mp hk with rfl | hk
        · exact .inr (.inl (List.mem_singleton_self _))
        · exact .inl (List.mem_of_mem_filter hk)
      · by_cases hcached : k = P.key cached
        · exact .inr (hcached ▸ List.mem_cons_self)
        · exact .inl (List.mem_cons_of_mem _ (List.mem_filter.mpr ⟨hk, by simpa using hcached⟩))

/-- **One step** and the disk. -/
theorem saveStep_frame (hP : P.FreshDocuments) (h : saveStep P C s t a = some o) :
    SaveFrame P C s t a o := by
  obtain ⟨fallback, cached, point⟩ := t
  cases a with
  | fail =>
      cases point with
      | digest directory fileName =>
          obtain rfl := Option.some.inj h
          exact .same (fun path hpath => hpath) rfl rfl
      | document parentUri name promised =>
          obtain rfl := Option.some.inj h
          refine .same (fun path hpath => ?_) rfl rfl
          exact List.mem_append_left _ (by simpa [IncomingFile.destinations,
            IncomingFile.promised, IncomingFile.at, IncomingFile.created] using hpath)
      | handed path =>
          obtain rfl := Option.some.inj h
          refine .same (fun path' hpath => ?_) rfl rfl
          cases cached with
          | none => exact hpath
          | some cached => exact List.mem_append_left _ hpath
      | saving path =>
          obtain rfl := Option.some.inj h
          exact .same (fun path hpath => hpath) rfl rfl
      | failed path created =>
          obtain rfl := Option.some.inj h
          refine .same (fun path' hpath => ?_) rfl rfl
          have hcached : path' ∈ cached.toList := by
            simpa [IncomingFile.destinations, IncomingFile.promised, IncomingFile.at,
              IncomingFile.created] using hpath
          exact List.mem_append_left _ (List.mem_append_left _ hcached)
      | gallery path =>
          obtain ⟨⟨directory, fileName⟩, -, rfl⟩ := Option.map_eq_some_iff.mp h
          refine .same (fun path' hpath => ?_) rfl rfl
          have hpath : path' = path := by
            simpa [IncomingFile.destinations, IncomingFile.promised, IncomingFile.created]
              using hpath
          subst hpath
          exact List.mem_append_left _ (List.mem_append_right _ List.mem_cons_self)
      | probing dir name i => cases h
      | found path => cases h
      | saved path => cases h
      | ended => cases h
  | go =>
      cases point with
      | digest directory fileName =>
          obtain rfl := Option.some.inj h
          exact digestStep_frame rfl
      | probing dir name i =>
          obtain rfl := Option.some.inj h
          exact probeStep_frame rfl
      | found path =>
          obtain rfl := Option.some.inj h
          exact foundStep_frame rfl
      | document parentUri name promised =>
          obtain rfl := Option.some.inj h
          exact documentStep_frame hP rfl
      | handed path =>
          obtain rfl := Option.some.inj h
          exact createStep_frame rfl
      | saving path =>
          obtain rfl := Option.some.inj h
          refine .same (fun path' hpath => ?_) rfl rfl
          cases fallback <;> exact hpath
      | failed path created =>
          obtain ⟨-, hsome⟩ := Option.ite_none_right_eq_some.mp h
          obtain rfl := Option.some.inj hsome
          refine .same (fun path' hpath => ?_) rfl rfl
          cases created <;> exact hpath
      | gallery path =>
          obtain rfl := Option.some.inj h
          refine ⟨rfl, fun path' hpath => .inl ?_, fun k hk => .inl (List.mem_of_mem_filter hk),
            fun k hk => .inl hk, fun k hk => ?_⟩
          · have hcached : path' ∈ cached.toList := by
              simpa [IncomingFile.destinations, IncomingFile.promised, IncomingFile.at,
                IncomingFile.created] using hpath
            exact List.mem_append_left _ (List.mem_append_left _ hcached)
          · by_cases hsame : k = P.key path
            · right
              subst hsame
              exact List.mem_map_of_mem (List.mem_append_right _ List.mem_cons_self)
            · exact .inl (List.mem_filter.mpr ⟨hk, by simpa using hsame⟩)
      | saved path => cases h
      | ended => cases h

/-- The destinations of an upload are on the disk as they should be. -/
structure SavedAt (P : SavePlatform) (s : SavedFiles) (t : IncomingFile) : Prop where
  created : ∀ path ∈ t.created, P.key path ∈ s.files
  promised : ∀ path ∈ t.promised, P.key path ∉ s.files ++ s.dirs
  distinct : (t.destinations.map P.key).Nodup

/-- A step that leaves the disk alone. -/
theorem SavedAt.same {u : IncomingFile} (ht : SavedAt P s t)
    (hcreated : u.created.Sublist t.created) (hpromised : u.promised.Sublist t.promised) :
    SavedAt P s u where
  created path hpath := ht.created path (hcreated.subset hpath)
  promised path hpath := ht.promised path (hpromised.subset hpath)
  distinct := ht.distinct.sublist ((hcreated.append hpromised).map P.key)

theorem SavedAt.digest {directory fileName : String} (ht : SavedAt P s t)
    (hpoint : t.point = .digest directory fileName) :
    SavedAt P (digestStep P C s t directory fileName).shared
      (digestStep P C s t directory fileName).task := by
  obtain ⟨fallback, cached, point⟩ := t
  obtain rfl : point = .digest directory fileName := hpoint
  unfold digestStep
  cases C.start directory fileName with
  | error err => exact ht.same (.refl _) (.refl _)
  | ok choice =>
      cases choice with
      | document parentUri name =>
          cases cached with
          | none => exact ht.same (.refl _) (.refl _)
          | some cached => exact ht.same (.refl _) (.refl _)
      | probe dirs dir name =>
          simp only
          split_ifs
          · exact ht.same (.refl _) (.refl _)
          · exact ⟨ht.created, fun path hpath => absurd hpath List.not_mem_nil, ht.distinct⟩

theorem SavedAt.probe {dir name : String} {i : ℕ} (ht : SavedAt P s t)
    (hpoint : t.point = .probing dir name i) (hclear : ∀ k ∈ t.claims P C s .go, k ∉ s.dirs) :
    SavedAt P s (probeStep P C s t dir name i).task := by
  obtain ⟨fallback, cached, point⟩ := t
  obtain rfl : point = .probing dir name i := hpoint
  unfold probeStep
  simp only
  by_cases hexists : C.exists P s (C.candidate dir name i) = true
  · rw [if_pos hexists]
    exact ht.same (.refl _) (.refl _)
  · rw [if_neg hexists]
    have hdirs := hclear (P.key (C.candidate dir name i)) (by
      simp only [IncomingFile.claims, if_neg hexists]
      exact List.mem_singleton_self _)
    unfold PathChoice.exists at hexists
    simp only [Bool.or_eq_true, decide_eq_true_eq, not_or] at hexists
    refine ⟨ht.created, fun path hpath => ?_, ?_⟩
    · obtain rfl := List.mem_singleton.mp hpath
      simp [hexists.1, hdirs]
    · -- the file in the cache exists, the path that was found free does not
      have hdistinct := ht.distinct
      cases cached with
      | none => exact List.nodup_singleton _
      | some cached =>
          have hcached : P.key cached ∈ s.files := ht.created cached List.mem_cons_self
          refine List.nodup_cons.mpr ⟨fun hmem => ?_, List.nodup_singleton _⟩
          exact hexists.1 (List.mem_singleton.mp hmem ▸ hcached)

theorem SavedAt.create {path : String} (ht : SavedAt P s t) (hpoint : t.point = .handed path) :
    SavedAt P (createStep P s t path).shared (createStep P s t path).task := by
  obtain ⟨fallback, cached, point⟩ := t
  obtain rfl : point = .handed path := hpoint
  cases cached <;>
    exact ⟨fun path' hpath => List.mem_singleton.mp hpath ▸ List.mem_cons_self,
      fun path' hpath => absurd hpath List.not_mem_nil, List.nodup_singleton _⟩

theorem SavedAt.document {parentUri name : String} {promised : Option String}
    (hP : P.FreshDocuments) (ht : SavedAt P s t)
    (hpoint : t.point = .document parentUri name promised) :
    SavedAt P (documentStep P s t parentUri name promised).shared
      (documentStep P s t parentUri name promised).task := by
  obtain ⟨fallback, cached, point⟩ := t
  obtain rfl : point = .document parentUri name promised := hpoint
  have hfresh := hP (s.files ++ s.dirs) parentUri name
  refine ⟨fun path hpath => ?_, fun path hpath => absurd hpath List.not_mem_nil, ?_⟩
  · rcases List.mem_append.mp hpath with hpath | hpath
    · have hfile : P.key path ∈ s.files := ht.created path (List.mem_append_left _ hpath)
      exact List.mem_cons_of_mem _ (List.mem_append_right _ hfile)
    · exact List.mem_singleton.mp hpath ▸ List.mem_cons_self
  · cases cached with
    | none => exact List.nodup_singleton _
    | some cached =>
        have hcached : P.key cached ∈ s.files := ht.created cached List.mem_cons_self
        refine List.nodup_cons.mpr ⟨fun hmem => ?_, List.nodup_singleton _⟩
        exact hfresh (List.mem_singleton.mp hmem ▸ List.mem_append_left _ hcached)

/-- What the gallery took is gone from the cache. -/
theorem SavedAt.gallery {path : String} (ht : SavedAt P s t) (hpoint : t.point = .gallery path) :
    SavedAt P { s with files := s.files.filter (· ≠ P.key path) } (t.at .ended) := by
  obtain ⟨fallback, cached, point⟩ := t
  obtain rfl : point = .gallery path := hpoint
  have hdistinct := ht.distinct
  refine ⟨fun path' hpath => ?_, fun path' hpath => absurd hpath List.not_mem_nil, ?_⟩
  · have hcached : path' ∈ cached.toList := by
      simpa [IncomingFile.created, IncomingFile.at] using hpath
    refine List.mem_filter.mpr ⟨ht.created path' (List.mem_append_left _ hcached), ?_⟩
    simp only [IncomingFile.destinations, IncomingFile.created, IncomingFile.promised,
      List.append_nil, List.map_append, List.nodup_append] at hdistinct
    simpa using hdistinct.2.2 (P.key path') (List.mem_map_of_mem hcached) (P.key path)
      List.mem_cons_self
  · refine hdistinct.sublist (List.Sublist.map _ ?_)
    simp [IncomingFile.destinations, IncomingFile.created, IncomingFile.promised, IncomingFile.at]

/-- **One step** and the upload that takes it. -/
theorem saveStep_own (hP : P.FreshDocuments) (h : saveStep P C s t a = some o)
    (ht : SavedAt P s t)
    (hclear : t.point matches .probing _ _ _ → ∀ k ∈ t.claims P C s a, k ∉ s.dirs) :
    SavedAt P o.shared o.task ∧ ∀ handed ∈ o.seen, handed.existed = false := by
  obtain ⟨fallback, cached, point⟩ := t
  cases a with
  | fail =>
      cases point with
      | digest directory fileName =>
          obtain rfl := Option.some.inj h
          exact ⟨ht.same (.refl _) (.refl _), nofun⟩
      | document parentUri name promised =>
          obtain rfl := Option.some.inj h
          exact ⟨ht.same (.refl _) (List.nil_sublist _), nofun⟩
      | handed path =>
          obtain rfl := Option.some.inj h
          cases cached with
          | none => exact ⟨ht.same (.refl _) (.refl _), nofun⟩
          | some cached => exact ⟨ht.same (.refl _) (List.nil_sublist _), nofun⟩
      | saving path =>
          obtain rfl := Option.some.inj h
          exact ⟨ht.same (.refl _) (.refl _), nofun⟩
      | failed path created =>
          obtain rfl := Option.some.inj h
          refine ⟨ht.same ?_ (List.nil_sublist _), nofun⟩
          exact List.Sublist.append_left (List.nil_sublist _) cached.toList
      | gallery path =>
          obtain ⟨⟨directory, fileName⟩, -, rfl⟩ := Option.map_eq_some_iff.mp h
          refine ⟨ht.same ?_ (.refl _), nofun⟩
          exact List.sublist_append_right cached.toList [path]
      | probing dir name i => cases h
      | found path => cases h
      | saved path => cases h
      | ended => cases h
  | go =>
      cases point with
      | digest directory fileName =>
          obtain rfl := Option.some.inj h
          refine ⟨ht.digest rfl, ?_⟩
          unfold digestStep
          split
          · exact nofun
          · exact nofun
          · split <;> exact nofun
      | probing dir name i =>
          obtain rfl := Option.some.inj h
          exact ⟨ht.probe rfl (hclear rfl), nofun⟩
      | found path =>
          obtain rfl := Option.some.inj h
          constructor
          · unfold foundStep
            simp only
            split
            · exact ht.same (.refl _) (.refl _)
            · exact ht.same (.refl _) (.refl _)
          · intro handed hhanded
            obtain rfl := List.mem_singleton.mp hhanded
            exact decide_eq_false (ht.promised path (List.mem_singleton_self _))
      | document parentUri name promised =>
          obtain rfl := Option.some.inj h
          refine ⟨ht.document hP rfl, fun handed hhanded => ?_⟩
          obtain rfl := List.mem_singleton.mp hhanded
          exact decide_eq_false (hP (s.files ++ s.dirs) parentUri name)
      | handed path =>
          obtain rfl := Option.some.inj h
          refine ⟨ht.create rfl, ?_⟩
          cases cached <;> exact nofun
      | saving path =>
          obtain rfl := Option.some.inj h
          refine ⟨?_, nofun⟩
          cases fallback <;> exact ht.same (.refl _) (.refl _)
      | failed path created =>
          obtain ⟨-, hsome⟩ := Option.ite_none_right_eq_some.mp h
          obtain rfl := Option.some.inj hsome
          refine ⟨?_, nofun⟩
          cases created <;> exact ht.same (.refl _) (.refl _)
      | gallery path =>
          obtain rfl := Option.some.inj h
          exact ⟨ht.gallery rfl, nofun⟩
      | saved path => cases h
      | ended => cases h

end Facts

/-! ## §4  Every run -/

/-- The destinations of different uploads are different files, and nothing
existed at any of them when it was handed out. -/
structure DestinationsApart (P : SavePlatform) (p : SavePool) : Prop where
  distinct : ∀ {i j : ℕ} {t u : IncomingFile}, i ≠ j → p.tasks[i]? = some t → p.tasks[j]? = some u →
    ∀ x ∈ t.destinations, ∀ y ∈ u.destinations, P.key x ≠ P.key y
  fresh : ∀ handed ∈ p.log, handed.existed = false

def destinations (P : SavePlatform) : Assertion SavedFiles IncomingFile HandedOut where
  glob log _ := ∀ handed ∈ log, handed.existed = false
  loc _ s t := SavedAt P s t
  pair t u := ∀ x ∈ t.destinations, ∀ y ∈ u.destinations, P.key x ≠ P.key y

section Runs

variable {P : SavePlatform} {C : PathChoice} {p : SavePool} {i j : ℕ} {a : SaveAct}
  {t u : IncomingFile} {o : Outcome SavedFiles IncomingFile HandedOut}

theorem promised_ne (h : Undisturbed P C p (.task i a)) (ht : p.tasks[i]? = some t)
    (hji : j ≠ i) (hu : p.tasks[j]? = some u) {path k : String} (hpath : path ∈ u.promised)
    (hk : k ∈ t.claims P C p.shared a) : P.key path ≠ k := by
  refine (h t ht k hk).1 path (List.mem_flatMap.mpr ⟨u, ?_, hpath⟩)
  exact List.mem_eraseIdx_iff_getElem?.mpr ⟨j, hji, hu⟩

/-- An upload that begins has no destination yet. -/
theorem saveEnv_destinations {s s' : SavedFiles} {e : SaveEvent} {ts : List IncomingFile}
    (h : saveEnv s e = some (s', ts)) : s' = s ∧ ∃ t, ts = [t] ∧ t.destinations = [] := by
  cases e with
  | upload directory fileName =>
      cases h
      exact ⟨rfl, _, rfl, rfl⟩
  | toGallery cacheDirectory directory fileName =>
      cases h
      exact ⟨rfl, _, rfl, rfl⟩

theorem savedAt_nil {s : SavedFiles} (h : t.destinations = []) : SavedAt P s t := by
  obtain ⟨hcreated, hpromised⟩ := List.append_eq_nil_iff.mp h
  refine ⟨?_, ?_, ?_⟩
  · rw [hcreated]
    exact fun path hpath => absurd hpath List.not_mem_nil
  · rw [hpromised]
    exact fun path hpath => absurd hpath List.not_mem_nil
  · rw [h]
    exact List.nodup_nil

/-- **The other uploads** after a step. -/
theorem SavedAt.frame (hu : SavedAt P p.shared u) (hframe : SaveFrame P C p.shared t a o)
    (hapart : ∀ x ∈ t.destinations, ∀ y ∈ u.destinations, P.key x ≠ P.key y)
    (hfree : ∀ path ∈ u.promised, ∀ k ∈ t.claims P C p.shared a, P.key path ≠ k) :
    SavedAt P o.shared u where
  created path hpath := by
    refine (hframe.kept _ (hu.created path hpath)).resolve_right fun hmem => ?_
    obtain ⟨x, hx, hkey⟩ := List.mem_map.mp hmem
    exact hapart x (List.mem_append_left _ hx) path (List.mem_append_left _ hpath) hkey
  promised path hpath := by
    have hbefore := hu.promised path hpath
    rw [List.mem_append, not_or] at hbefore ⊢
    constructor
    · intro hmem
      rcases hframe.files _ hmem with hmem | hmem | hmem
      · exact hbefore.1 hmem
      · obtain ⟨x, hx, hkey⟩ := List.mem_map.mp hmem
        exact hapart x (List.mem_append_right _ hx) path (List.mem_append_right _ hpath) hkey
      · exact hfree path hpath _ hmem rfl
    · intro hmem
      rcases hframe.dirs _ hmem with hmem | hmem
      · exact hbefore.2 hmem
      · exact hfree path hpath _ hmem rfl
  distinct := hu.distinct

/-- **Two uploads** after a step of one of them. -/
theorem SaveFrame.apart (hframe : SaveFrame P C p.shared t a o) (hu : SavedAt P p.shared u)
    (hapart : ∀ x ∈ t.destinations, ∀ y ∈ u.destinations, P.key x ≠ P.key y)
    (hfree : ∀ path ∈ u.promised, ∀ k ∈ t.claims P C p.shared a, P.key path ≠ k) :
    ∀ x ∈ o.task.destinations, ∀ y ∈ u.destinations, P.key x ≠ P.key y := by
  intro x hx y hy
  rcases hframe.destinations x hx with hx | ⟨hclaim, hfile⟩
  · exact hapart x hx y hy
  · rcases List.mem_append.mp hy with hy | hy
    · -- the file of the other one exists
      intro hkey
      exact hfile (hkey ▸ hu.created y hy)
    · exact Ne.symm (hfree y hy _ hclaim)

theorem destinations_stable (hP : P.FreshDocuments) :
    (destinations P).Stable (saveMachine P C) (Undisturbed P C) where
  symm h x hx y hy := Ne.symm (h y hy x hx)
  own hp hok ht ho := by
    obtain ⟨hown, hseen⟩ := saveStep_own hP ho (hp.loc ht) fun hprobing k hk =>
      (hok _ ht k hk).2 hprobing
    refine ⟨fun handed hmem => ?_, fun u hu => ?_⟩
    · rcases List.mem_append.mp hmem with hmem | hmem
      · exact hp.glob handed hmem
      · exact hseen handed hmem
    · rw [(saveStep_frame hP ho).spawned] at hu
      obtain rfl := List.mem_singleton.mp hu
      exact hown
  frame hp hok ht ho hji hu :=
    (hp.loc hu).frame (saveStep_frame hP ho) (hp.pair (Ne.symm hji) ht hu) fun _ hpath _ hk =>
      promised_ne hok ht hji hu hpath hk
  apart hp hok ht ho hji hu v hv := by
    have hframe := saveStep_frame hP ho
    rw [hframe.spawned] at hv
    obtain rfl := List.mem_singleton.mp hv
    exact hframe.apart (hp.loc hu) (hp.pair (Ne.symm hji) ht hu) fun _ hpath _ hk =>
      promised_ne hok ht hji hu hpath hk
  fork hp hok ht ho := by
    rw [(saveStep_frame hP ho).spawned]
    exact List.pairwise_singleton _ _
  env hp _ he := by
    obtain ⟨rfl, t, rfl, hnil⟩ := saveEnv_destinations he
    refine ⟨hp.glob, fun hu => hp.loc hu, fun u hu => ?_, fun _ v hv x hx => ?_,
      List.pairwise_singleton _ _⟩
    · obtain rfl := List.mem_singleton.mp hu
      exact savedAt_nil hnil
    · obtain rfl := List.mem_singleton.mp hv
      rw [hnil] at hx
      cases hx

theorem destinationsApart_of_run (hP : P.FreshDocuments) {files dirs : List String}
    (hrun : Run (saveMachine P C).poolStep (Undisturbed P C) (SavePool.init files dirs) p) :
    DestinationsApart P p := by
  have hholds := (destinations_stable hP).run
    (Assertion.holds_nil (fun handed hmem => absurd hmem List.not_mem_nil)) hrun
  exact ⟨hholds.pair, hholds.glob⟩

end Runs

instance (P : SavePlatform) (C : PathChoice) (p : SavePool) :
    ∀ l : SaveLabel, Decidable (Undisturbed P C p l)
  | .task i a =>
      inferInstanceAs (Decidable (∀ t ∈ p.tasks[i]?, ∀ k ∈ t.claims P C p.shared a, _ ∧ _))
  | .env _ => .isTrue trivial

/-- **Uploads keep apart**, those of the application and those of the command
line, as long as nobody takes a path that another upload was promised. -/
theorem uploads_apart (P : SavePlatform) (hP : P.FreshDocuments) (files dirs : List String) :
    (∀ p, Run (saveMachine P P.digestFilePath).poolStep (Undisturbed P P.digestFilePath)
      (SavePool.init files dirs) p → DestinationsApart P p) ∧
    ∀ p, Run (saveMachine P P.uniquePath).poolStep (Undisturbed P P.uniquePath)
      (SavePool.init files dirs) p → DestinationsApart P p :=
  ⟨fun _ hrun => destinationsApart_of_run hP hrun, fun _ hrun => destinationsApart_of_run hP hrun⟩

/-! ## §5  Two files of one name -/

namespace Sample

/-- A document has the name that was asked for, or a number longer than all
the others. -/
def createDocument (present : List String) (parentUri name : String) : String :=
  let uri := parentUri ++ "%2F" ++ name
  if uri ∈ present then
    uri ++ .ofList (List.replicate ((present.map String.length).sum + 1) '1')
  else uri

def linux : SavePlatform where
  androidSdkInt := none
  paths := .posix
  rootPrefix path := if PathContext.Posix.isAbsolute path then "/" else ""
  rules := .posix
  toLowerCase := id
  encodeComponent := id
  decodeComponent := id
  key := id
  createDocument := createDocument

theorem linux_freshDocuments : linux.FreshDocuments := by
  intro present parentUri name
  show createDocument present parentUri name ∉ present
  unfold createDocument
  simp only
  split_ifs with h
  · intro hmem
    have hlength := List.le_sum_of_mem (List.mem_map_of_mem (f := String.length) hmem)
    simp only [String.length_append, String.length_ofList, List.length_replicate] at hlength
    omega
  · exact h

/-- An upload of `a.txt`, in task `i`, until it is promised a path. -/
def upload (i : ℕ) : List SaveLabel :=
  [.env (.upload "/in" "a.txt"), .task i .go, .task i .go, .task i .go]

end Sample

/-- The second upload of a name comes after the file of the first. -/
theorem uploads_apart_numbered : ∃ p : SavePool,
    p.log.map HandedOut.path = ["/in/a.txt", "/in/a (2).txt"] ∧
      DestinationsApart Sample.linux p := by
  obtain ⟨p, hp, hcheck⟩ := exists_of_exec_any
    (saveMachine Sample.linux Sample.linux.digestFilePath).poolStep (SavePool.init [] [])
    (Sample.upload 0 ++ [.task 0 .go] ++ Sample.upload 1 ++ [.task 1 .go])
    (fun p => p.log.map HandedOut.path = ["/in/a.txt", "/in/a (2).txt"]) (by decide)
  have hrun : Run (saveMachine Sample.linux Sample.linux.digestFilePath).poolStep
      (Undisturbed Sample.linux Sample.linux.digestFilePath) (SavePool.init [] []) p :=
    run_of_exec hp (by decide)
  exact ⟨p, of_decide_eq_true hcheck,
    (uploads_apart Sample.linux Sample.linux_freshDocuments [] []).1 p hrun⟩

/-- Both applications promise a name a second time before the first file of that
name is created. -/
theorem uploads_share_path :
    (∃ p, Reach (saveMachine Sample.linux Sample.linux.digestFilePath).poolStep
      (SavePool.init [] []) p ∧ ¬ DestinationsApart Sample.linux p) ∧
    ∃ p, Reach (saveMachine Sample.linux Sample.linux.uniquePath).poolStep
      (SavePool.init [] []) p ∧ ¬ DestinationsApart Sample.linux p := by
  have hshared : ∀ p : SavePool,
      p.tasks.map IncomingFile.destinations = [["/in/a.txt"], ["/in/a.txt"]] →
        ¬ DestinationsApart Sample.linux p := by
    intro p htasks hapart
    obtain ⟨t, rest, hp, ht, hrest⟩ := List.map_eq_cons_iff.mp htasks
    obtain ⟨u, last, hu, hudest, -⟩ := List.map_eq_cons_iff.mp hrest
    have hfirst : p.tasks[0]? = some t := by rw [hp]; rfl
    have hsecond : p.tasks[1]? = some u := by rw [hp, hu]; rfl
    exact hapart.distinct (by decide) hfirst hsecond "/in/a.txt" (ht ▸ List.mem_singleton_self _)
      "/in/a.txt" (hudest ▸ List.mem_singleton_self _) rfl
  constructor
  · obtain ⟨p, hp, hcheck⟩ := exists_of_exec_any
      (saveMachine Sample.linux Sample.linux.digestFilePath).poolStep (SavePool.init [] [])
      (Sample.upload 0 ++ Sample.upload 1)
      (fun p => p.tasks.map IncomingFile.destinations = [["/in/a.txt"], ["/in/a.txt"]]) (by decide)
    exact ⟨p, reach_of_exec hp, hshared p (of_decide_eq_true hcheck)⟩
  · obtain ⟨p, hp, hcheck⟩ := exists_of_exec_any
      (saveMachine Sample.linux Sample.linux.uniquePath).poolStep (SavePool.init [] [])
      (Sample.upload 0 ++ Sample.upload 1)
      (fun p => p.tasks.map IncomingFile.destinations = [["/in/a.txt"], ["/in/a.txt"]]) (by decide)
    exact ⟨p, reach_of_exec hp, hshared p (of_decide_eq_true hcheck)⟩

end FireBoxTransfer
