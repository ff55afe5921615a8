import FireBoxTransfer.Explorer.LocalClient
import FireBoxTransfer.Explorer.Moves
import FireBoxTransfer.Explorer.NetworkFiles

/-!
# Copies within one root

For a copy within one root the service asks the client, and each client has a
program of its own for it. The clients of a remote device and of Android call
their own methods; the local client calls `dart:io`. Each looks first whether a
folder would be copied into itself, by the paths that it was given: where two
paths lead to one place it does not see that. A copy that keeps clear of its
source ends and writes only where it should.
-/

namespace FireBoxTransfer

/-! ## §1  Copies by the methods of a client -/

/-- The methods of a client that its `copy` calls. -/
structure CopyMethods (ε Op : Type) (Ans : Op → Type) where
  thrown : RemoteFileSystemException → ε
  outOfFuel : ε
  createDirectory : String → String → Program Unit ε Op Ans ExplorerFileEntry
  listDirectory : String → Program Unit ε Op Ans ExplorerDirectoryListing
  writeFile : String → ExplorerFileEntry → ℕ → Program Unit ε Op Ans Unit
  getMetadata : String → Program Unit ε Op Ans ExplorerFileEntry

/-- `copy`, for at most `levels` levels of directories: what a client checks
first is `check`, and `noSize` is its error for a file of which it does not know
the size. -/
def CopyMethods.copy {ε Op : Type} {Ans : Op → Type} (methods : CopyMethods ε Op Ans)
    (check : ExplorerFileEntry → String → ExplorerResult Unit)
    (noSize : RemoteFileSystemException) :
    ℕ → ExplorerFileEntry → String → Program Unit ε Op Ans ExplorerFileEntry
  | 0, _, _ => .throw methods.outOfFuel
  | levels + 1, entry, destinationPath =>
      match check entry destinationPath with
      | .error error => .throw (methods.thrown error)
      | .ok _ =>
          if entry.isDirectory then do
            let created ← methods.createDirectory destinationPath entry.name
            let listing ← methods.listDirectory entry.path
            Program.foldl (fun _ child => do
              let _ ← copy methods check noSize levels child created.path
              pure ()) () listing.entries
            pure created
          else
            match entry.sizeBytes with
            | none => .throw (methods.thrown noSize)
            | some size => do
                methods.writeFile destinationPath entry size
                methods.getMetadata
                  (NetworkRemoteFileSystemClient.childPath destinationPath entry.name)

namespace NetworkRemoteFileSystemClient

open NetworkClient

/-- What `copy` checks first. -/
def copyCheck (entry : ExplorerFileEntry) (destinationPath : String) : ExplorerResult Unit := do
  validatePath entry.path
  validatePath destinationPath
  validateName entry.name
  explorerCheck (!sameOrDescendant destinationPath entry.path)
    (explorerError "conflict" "No se puede copiar una carpeta dentro de sí misma.")

def copyNoSize : RemoteFileSystemException :=
  explorerError "missing_size" "El dispositivo no informó el tamaño del archivo."

def copyMethods (tryParse : String → Option Int)
    (storageByRoot : String → Option ExplorerStorageInfo) (pages : ℕ) (root : ExplorerRoot) :
    CopyMethods NetworkFailure NetworkOp NetworkOp.Answer where
  thrown := .exception
  outOfFuel := .outOfFuel
  createDirectory := createDirectory tryParse root
  listDirectory := listDirectory tryParse storageByRoot pages root
  writeFile destinationPath entry size :=
    writeFile root destinationPath entry.name (openRead root entry 0) (some size)
  getMetadata := getMetadata tryParse root

/-- The `copy` of the client is the one by its methods. -/
theorem copy_eq (tryParse : String → Option Int)
    (storageByRoot : String → Option ExplorerStorageInfo) (pages : ℕ) (root : ExplorerRoot)
    (levels : ℕ) : copy tryParse storageByRoot pages root levels =
      (copyMethods tryParse storageByRoot pages root).copy copyCheck copyNoSize levels := by
  induction levels with
  | zero => rfl
  | succ levels ih =>
      funext entry destinationPath
      unfold copy CopyMethods.copy copyCheck
      rw [ih]
      cases validatePath entry.path with
      | error e => rfl
      | ok _ =>
          cases validatePath destinationPath with
          | error e => rfl
          | ok _ =>
              cases validateName entry.name with
              | error e => rfl
              | ok _ =>
                  cases hwithin : sameOrDescendant destinationPath entry.path with
                  | false => rfl
                  | true => rfl

end NetworkRemoteFileSystemClient

namespace AndroidSafClient

def validateRelativePath (path : String) : ExplorerResult Unit :=
  explorerCheck (!(path.toList.head? = some '/' || path.toList.getLast? = some '/' ||
      contains path '\\' || (splitSlash path).any fun part =>
        part = "" || part = "." || part = ".."))
    (explorerError "invalid_path" "La ruta no es válida.")

def relativePath (root : ExplorerRoot) (path : String) : ExplorerResult String := do
  if path = root.initialPath || path = "" then pure ""
  else do
    explorerCheck (!"content://".toList.isPrefixOf path.toList)
      (explorerError "invalid_path" "La ruta no pertenece a esta raíz compartida.")
    validateRelativePath path
    pure path

/-- What `copy` checks first. -/
def copyCheck (root : ExplorerRoot) (entry : ExplorerFileEntry) (destinationPath : String) :
    ExplorerResult Unit := do
  explorerCheck root.capabilities.write (explorerError "permission_denied"
    "La operación no está permitida en esta ubicación.")
  let sourcePath ← relativePath root entry.path
  let targetPath ← relativePath root destinationPath
  explorerCheck (!(entry.isDirectory && (targetPath = sourcePath ||
      (sourcePath ≠ "" && (sourcePath ++ "/").toList.isPrefixOf targetPath.toList))))
    (explorerError "conflict" "No se puede copiar una carpeta dentro de sí misma.")

def copyNoSize : RemoteFileSystemException :=
  explorerError "missing_size" "Android no informó el tamaño del archivo."

end AndroidSafClient

/-! ## §2  Clients -/

open Program Volume

/-- A client, and where its paths lead. The paths of the local client are those
of the file system, in normal form. -/
inductive ExplorerClient where
  | localFileSystem (X : ExplorerExternals) (place : String → List String)
  | networkRemote (place : ExplorerRoot → String → List String)
  | androidSaf (place : ExplorerRoot → String → List String)

structure ExplorerClients where
  client : ClientId → ExplorerClient
  shows : ClientId → String → VolumeNode → Bool

namespace ExplorerClients

variable (E : ExplorerClients)

/-- What the service takes from them. -/
def clients : Clients where
  locate id root path :=
    match E.client id with
    | .localFileSystem X place => place (LocalClient.normal X path)
    | .networkRemote place | .androidSaf place => place root path
  shows := E.shows

/-- Every new entry of the client is new: it replaces nothing. -/
def creates (id : ClientId) : Bool :=
  match E.client id with
  | .localFileSystem _ _ => false
  | .networkRemote _ | .androidSaf _ => true

/-- Android gives a new entry another name where its own is taken. -/
def renames (id : ClientId) : Bool :=
  match E.client id with
  | .localFileSystem _ _ | .networkRemote _ => false
  | .androidSaf _ => true

/-- Where the client may put a new entry. -/
structure Puts (id : ClientId) (parent : List String) (name : String) (d : Volume)
    (loc : List String) : Prop where
  inside : ∃ given, loc = parent ++ [given] ∧ (E.renames id = false → given = name)
  free : E.creates id = true → d loc = none

/-- Where a copy within one root may go to. -/
def CopyLands (id : ClientId) (root : ExplorerRoot) (entry : ExplorerFileEntry)
    (destinationPath : String) (d : Volume) (loc : List String) : Prop :=
  match E.client id with
  | .localFileSystem X place => loc = place (LocalClient.normal X
      (LocalClient.join X (LocalClient.normal X destinationPath) entry.name))
  | .networkRemote place | .androidSaf place =>
      E.Puts id (place root destinationPath) entry.name d loc

/-- The client refuses a copy within one root: by the paths, for a directory as it
stands in `d₀`. -/
def Refuses (id : ClientId) (root : ExplorerRoot) (entry : ExplorerFileEntry)
    (destinationPath : String) (d₀ : Volume) : Prop :=
  match E.client id with
  | .localFileSystem X place =>
      let source := LocalClient.normal X entry.path
      let destination := LocalClient.normal X
        (LocalClient.join X (LocalClient.normal X destinationPath) entry.name)
      d₀ (place source) = some .directory ∧
        (LocalClient.samePath X source destination ||
          LocalClient.isWithin X source destination) = true
  | .networkRemote _ => NetworkRemoteFileSystemClient.copyCheck entry destinationPath ≠ .ok ()
  | .androidSaf _ => AndroidSafClient.copyCheck root entry destinationPath ≠ .ok ()

/-- What a call may answer and leave, by where the client puts new entries. -/
def CallAnswers (d d' : Volume) : (op : ClientOp) → Except ExplorerFailure op.Answer → Prop
  | .createDirectory id root parentPath name, .ok created =>
      E.Puts id (E.clients.locate id root parentPath) name d
          (E.clients.locate id root created.path) ∧
        d' = d.write (E.clients.locate id root created.path) .directory
  | .createDirectory id root parentPath name, .error _ =>
      d' = d ∨ ∃ loc, E.Puts id (E.clients.locate id root parentPath) name d loc ∧ OnlyAt loc d d'
  | .writeFile id root destinationPath fileName content _, .ok _ =>
      ∃ loc, E.Puts id (E.clients.locate id root destinationPath) fileName d loc ∧
        Written (E.clients.locate content.client content.root content.entry.path) loc d d'
  | .writeFile id root destinationPath fileName _ _, .error _ =>
      d' = d ∨ ∃ loc, E.Puts id (E.clients.locate id root destinationPath) fileName d loc ∧
        OnlyAt loc d d'
  | op, a => E.clients.Answers d d' op a

/-- Executions in which the clients call their methods. Only a copy within one root may want for
fuel. -/
def callSpec : Spec Unit ExplorerFailure ClientOp ClientOp.Answer Volume where
  mayRead _ := True
  reads d _ d' := d' = d
  mayCall _ _ := True
  answers op d a d' := (a = .error .outOfFuel → op.isCopy = true) ∧ E.CallAnswers d d' op a

/-- The methods of a client that calls its own. -/
def methods (id : ClientId) (root : ExplorerRoot) :
    CopyMethods ExplorerFailure ClientOp ClientOp.Answer where
  thrown := .exception
  outOfFuel := .outOfFuel
  createDirectory parentPath name := await (ClientOp.createDirectory id root parentPath name)
  listDirectory path := await (ClientOp.listDirectory id root path)
  writeFile destinationPath entry size := await
    (ClientOp.writeFile id root destinationPath entry.name ⟨id, root, entry⟩ (some size))
  getMetadata path := await (ClientOp.getMetadata id root path)

end ExplorerClients

/-! ## §3  `dart:io` on a volume -/

/-- The type of what stands at a location. -/
def nodeType : Option VolumeNode → FileSystemEntityType
  | none => .notFound
  | some (.file _) => .file
  | some .directory => .directory
  | some .link => .link
  | some .other => .other

/-- A name that is one component of a path. -/
structure IsComponent (X : ExplorerExternals) (name : String) : Prop where
  basename : X.path.basename name = name
  no_slash : contains name '/' = false
  ne_empty : name ≠ ""
  ne_here : name ≠ "."
  ne_up : name ≠ ".."

/-- What a call of `dart:io` that a copy makes may answer and leave. What is said of a
change is said where no link stands at the path; the names in a directory that was just
created lead into it. -/
def IoAnswers (X : ExplorerExternals) (place : String → List String) (d d' : Volume) :
    (op : IoOp) → Except ExplorerFailure (IoOp.Answer op) → Prop
  | .type path, .ok type => d' = d ∧ type = nodeType (d (place path))
  | .list path, .ok children => d' = d ∧ (d (place path) = some .directory →
      ∀ child ∈ children, IsComponent X (X.path.basename child) ∧
        place child = place path ++ [X.path.basename child] ∧ d (place child) ≠ none)
  | .create path, .ok _ => d (place path) ≠ some .link →
      d' = d.write (place path) .directory ∧ ∀ name, IsComponent X name →
        place (LocalClient.join X path name) = place path ++ [name]
  | .create path, .error _ => d (place path) ≠ some .link → OnlyAt (place path) d d'
  | .copyFile source destination, .ok _ => d (place destination) ≠ some .link →
      Written (place source) (place destination) d d'
  | .copyFile _ destination, .error _ => d (place destination) ≠ some .link →
      OnlyAt (place destination) d d'
  | .renameDirectory _ _, _ | .renameFile _ _, _ | .deleteDirectory _, _ | .deleteFile _, _
  | .openWrite _, _ | .addStream _ _, _ | .close _, _ => True
  | _, _ => d' = d

def diskSpec (X : ExplorerExternals) (place : String → List String) :
    Spec Unit ExplorerFailure IoOp IoOp.Answer Volume where
  mayRead _ := True
  reads d _ d' := d' = d
  mayCall _ _ := True
  answers op d a d' := a ≠ .error .outOfFuel ∧ IoAnswers X place d d' op a

/-- A failure that is none for want of fuel and leaves everything. -/
def Halts (d : Volume) (e : ExplorerFailure) (d' : Volume) : Prop := e ≠ .outOfFuel ∧ d' = d

section Looks

variable {X : ExplorerExternals} {place : String → List String} {root : ExplorerRoot}
  {d d₁ : Volume} {path : String}

theorem wp_localCheck {c : Bool} {code message : String} {Q : Unit → Volume → Prop}
    (hQ : c = true → Q () d) (hd : d = d₁) :
    wp (diskSpec X place) (LocalClient.check c code message) Q (Halts d₁) d := by
  unfold LocalClient.check LocalClient.failWith
  split_ifs with hc
  · exact wp_pure.mpr (hQ hc)
  · exact wp_throw.mpr ⟨nofun, hd⟩

/-- A call that only looks. -/
theorem wp_diskLook {op : IoOp} {Q : op.Answer → Volume → Prop}
    (hsame : ∀ a d', IoAnswers X place d d' op a → d' = d)
    (hQ : ∀ a, IoAnswers X place d d op (.ok a) → Q a d) :
    wp (diskSpec X place) (await op) Q (Halts d) d := by
  refine wp_await trivial (fun a d' hans => ?_) fun e d' hans => ?_
  · obtain rfl : d' = d := hsame _ _ hans.2
    exact hQ a hans.2
  · exact ⟨fun heq => hans.1 (congrArg Except.error heq), hsame _ _ hans.2⟩

theorem wp_type {Q : FileSystemEntityType → Volume → Prop}
    (hQ : Q (nodeType (d (place path))) d) :
    wp (diskSpec X place) (await (IoOp.type path)) Q (Halts d) d := by
  refine wp_diskLook (fun a d' hans => ?_) fun type hans => ?_
  · cases a with
    | ok type => exact hans.1
    | error e => exact hans
  · rw [hans.2]
    exact hQ

theorem wp_resolveSymbolicLinks {Q : String → Volume → Prop} (hQ : ∀ resolved, Q resolved d) :
    wp (diskSpec X place) (await (IoOp.resolveSymbolicLinks path)) Q (Halts d) d := by
  refine wp_diskLook (fun a d' hans => ?_) fun resolved _ => hQ resolved
  cases a with
  | ok resolved => exact hans
  | error e => exact hans

theorem wp_resolveLexically {Q : String → Volume → Prop} (hQ : Q (LocalClient.normal X path) d) :
    wp (diskSpec X place) (LocalClient.resolveLexically X root path) Q (Halts d) d := by
  unfold LocalClient.resolveLexically
  rw [wp_bind]
  exact wp_localCheck (fun _ => wp_pure.mpr hQ) rfl

/-- A path that is accepted is only brought into normal form. -/
theorem wp_existingPath {Q : String → Volume → Prop} (hQ : Q (LocalClient.normal X path) d) :
    wp (diskSpec X place) (LocalClient.existingPath X root path) Q (Halts d) d := by
  unfold LocalClient.existingPath
  rw [wp_bind]
  refine wp_resolveLexically ?_
  rw [wp_catching]
  refine wp_mono (E := Halts d) ?_ (fun _ _ h => h) fun e d' hhalts => ?_
  · rw [wp_bind]
    refine wp_resolveSymbolicLinks fun _ => ?_
    rw [wp_bind]
    refine wp_type ?_
    rw [wp_bind]
    refine wp_localCheck (fun _ => ?_) rfl
    rw [wp_bind]
    refine wp_resolveSymbolicLinks fun _ => ?_
    rw [wp_bind]
    exact wp_localCheck (fun _ => wp_pure.mpr hQ) rfl
  · cases e with
    | fileSystem => exact wp_throw.mpr ⟨nofun, hhalts.2⟩
    | exception error => exact wp_throw.mpr hhalts
    | outOfFuel => exact wp_throw.mpr hhalts

theorem wp_rejectSymbolicLink {Q : Unit → Volume → Prop}
    (hQ : d (place path) ≠ some .link → Q () d) :
    wp (diskSpec X place) (LocalClient.rejectSymbolicLink path) Q (Halts d) d := by
  unfold LocalClient.rejectSymbolicLink
  rw [wp_bind]
  refine wp_type (wp_localCheck (fun htype => hQ fun hlink => ?_) rfl)
  rw [hlink] at htype
  exact of_decide_eq_true htype rfl

theorem wp_entryNow {Q : ExplorerFileEntry → Volume → Prop} (hQ : ∀ entry, Q entry d) :
    wp (diskSpec X place) (LocalClient.entryNow X path) Q (Halts d) d := by
  unfold LocalClient.entryNow LocalClient.entry
  rw [wp_bind]
  refine wp_type ?_
  rw [wp_bind]
  refine wp_diskLook (fun a d' hans => ?_) fun stat _ => wp_pure.mpr (hQ _)
  cases a with
  | ok stat => exact hans
  | error e => exact hans

/-- The first part of a program, which halts when it fails. -/
theorem wp_first {α β : Type} {p : LocalM β} {f : β → LocalM α} {Q : α → Volume → Prop}
    {E : ExplorerFailure → Volume → Prop} (hE : ∀ e d', Halts d e d' → E e d')
    (h : wp (diskSpec X place) p (fun b => wp (diskSpec X place) (f b) Q E) (Halts d) d) :
    wp (diskSpec X place) (p >>= f) Q E d := by
  rw [wp_bind]
  exact wp_mono h (fun _ _ h => h) hE

end Looks

/-! ## §4  Copies of the local client -/

section LocalCopy

variable {X : ExplorerExternals} {place : String → List String} {root : ExplorerRoot}
  {d₀ d d' d'' : Volume} {s t : List String} {source destination destinationPath : String}
  {copied : ExplorerFileEntry} {fuel : ℕ} {e : ExplorerFailure}

theorem Halts.copyFailed (hstray : Strayed d₀ s t d d') (h : Halts d' e d'') :
    CopyFailed d₀ s t fuel d e d'' := by
  obtain ⟨hfuel, rfl⟩ := h
  exact ⟨hstray, fun _ _ => hfuel⟩

/-- What a call leaves that only changes the top of the copy. -/
theorem copyFailed_of_onlyAt (hfuel : e ≠ .outOfFuel) (honly : OnlyAt t d d') :
    CopyFailed d₀ s t fuel d e d' :=
  ⟨strayed_of_onlyAt honly, fun _ _ => hfuel⟩

/-- The copy of something inside failed. -/
theorem CopyFailed.of_child {name : String} (hstray : Strayed d₀ s t d d')
    (hname : d₀ (s ++ [name]) ≠ none)
    (h : CopyFailed d₀ (s ++ [name]) (t ++ [name]) fuel d' e d'') :
    CopyFailed d₀ s t (fuel + 1) d e d'' := by
  refine ⟨hstray.trans (h.1.of_child hname), fun _ hdepth => ?_⟩
  have hone : [name].length < fuel + 1 := hdepth [name] hname
  refine h.2 (Nat.lt_of_succ_lt_succ hone) fun rel hrel => ?_
  have hrel' := hdepth (name :: rel) (by simpa using hrel)
  exact Nat.lt_of_succ_lt_succ hrel'

theorem nodeType_eq_directory {node : Option VolumeNode} (h : nodeType node = .directory) :
    node = some .directory := by
  cases node with
  | none => cases h
  | some node => cases node with
    | directory => rfl
    | file _ => cases h
    | link => cases h
    | other => cases h

/-- **One entity is copied.** The induction is on the fuel; one level of a directory is a
loop over its listing. -/
theorem wp_copyEntity (hs : place source = s) (ht : place destination = t)
    (hclear : Clear d₀ s t s) (hsame : Unchanged d₀ s d) :
    wp (diskSpec X place) (LocalClient.copyEntity X fuel source destination)
      (fun _ => Strayed d₀ s t d) (CopyFailed d₀ s t fuel d) d := by
  induction fuel generalizing source destination s t d with
  | zero => exact wp_throw.mpr ⟨strayed_refl, fun hpos => absurd hpos (lt_irrefl 0)⟩
  | succ fuel ih =>
      have hhalts : ∀ e d', Halts d e d' → CopyFailed d₀ s t (fuel + 1) d e d' :=
        fun _ _ => Halts.copyFailed strayed_refl
      unfold LocalClient.copyEntity
      refine wp_first hhalts (wp_rejectSymbolicLink fun hlink => ?_)
      refine wp_first hhalts (wp_type ?_)
      split
      · refine wp_await trivial (fun _ d' hans => ?_) fun e d' hans => ?_
        · obtain ⟨bytes, rfl, -⟩ := hans.2 hlink
          rw [ht]
          exact strayed_of_onlyAt onlyAt_write
        · exact copyFailed_of_onlyAt (fun heq => hans.1 (congrArg Except.error heq))
            (ht ▸ hans.2 hlink)
      · refine wp_first hhalts (wp_localCheck (fun htype => ?_) rfl)
        have hdirectory : d s = some .directory := by
          rw [← hs]
          exact nodeType_eq_directory (of_decide_eq_true htype)
        rw [wp_bind]
        refine wp_await trivial (fun _ d₁ hans => ?_) fun e d' hans => ?_
        · obtain ⟨rfl, hjoin⟩ := hans.2 hlink
          rw [ht] at hjoin ⊢
          have hstray : Strayed d₀ s t d (d.write t .directory) :=
            strayed_of_onlyAt onlyAt_write
          have hsame₁ := hsame.strayed hstray hclear
          rw [wp_bind]
          refine wp_await trivial (fun children d' hans => ?_) fun e d' hans =>
            Halts.copyFailed hstray ⟨fun heq => hans.1 (congrArg Except.error heq), hans.2⟩
          obtain ⟨rfl, hlists⟩ := hans.2
          have htop : d.write t .directory s = d s := by
            simpa using (hsame₁ []).trans (hsame []).symm
          have hchildren := hlists (by rw [hs, htop, hdirectory])
          refine wp_mono (wp_foldl (I := fun _ => Strayed d₀ s t (d.write t .directory))
            (E := CopyFailed d₀ s t (fuel + 1) d) strayed_refl fun _ child d' hchild h => ?_)
            (fun _ _ h => hstray.trans h) fun _ _ h => h
          obtain ⟨hcomponent, hplace, hexists⟩ := hchildren child hchild
          rw [hs] at hplace
          have hname : d₀ (s ++ [X.path.basename child]) ≠ none := by
            rw [← hsame₁, ← hplace]
            exact hexists
          refine wp_first (fun _ _ => Halts.copyFailed (hstray.trans h)) (wp_type ?_)
          split
          · exact wp_pure.mpr h
          · have hbelow := (hclear.child hname).below
              (List.prefix_append s [X.path.basename child])
            refine wp_mono (ih hplace (hjoin _ hcomponent) hbelow
              (hsame₁.strayed h hclear).child) (fun _ d'' hleft => ?_) fun e d'' hfailed => ?_
            · exact h.trans (hleft.of_child hname)
            · exact hfailed.of_child (hstray.trans h) hname
        · exact copyFailed_of_onlyAt (fun heq => hans.1 (congrArg Except.error heq))
            (ht ▸ hans.2 hlink)

/-- What is left to be done once the paths are brought into normal form. -/
theorem wp_localCopy_paths {Q : ExplorerFileEntry → Volume → Prop}
    {E : ExplorerFailure → Volume → Prop} (hE : ∀ e d', Halts d e d' → E e d')
    (hs : LocalClient.normal X copied.path = source)
    (ht : LocalClient.normal X
      (LocalClient.join X (LocalClient.normal X destinationPath) copied.name) = destination)
    (h : wp (diskSpec X place) (do
      LocalClient.rejectNested X (nodeType (d (place source))) source destination
        "A folder cannot be copied into itself."
      LocalClient.rejectSymbolicLink destination
      LocalClient.copyEntity X fuel source destination
      LocalClient.entryNow X destination) Q E d) :
    wp (diskSpec X place) (LocalClient.copy X root fuel copied destinationPath) Q E d := by
  unfold LocalClient.copy LocalClient.require LocalClient.rejectRootMutation
  refine wp_first hE (wp_localCheck (fun _ => ?_) rfl)
  refine wp_first hE (wp_existingPath ?_)
  refine wp_first hE (wp_localCheck (fun _ => ?_) rfl)
  refine wp_first hE (wp_existingPath ?_)
  refine wp_first hE (wp_resolveLexically ?_)
  refine wp_first hE (wp_type ?_)
  rw [hs, ht]
  exact h

/-- A copy that keeps clear of its source. -/
theorem wp_localCopy (hs : place (LocalClient.normal X copied.path) = s)
    (ht : place (LocalClient.normal X
      (LocalClient.join X (LocalClient.normal X destinationPath) copied.name)) = t)
    (hclear : Clear d₀ s t s) (hsame : Unchanged d₀ s d) :
    wp (diskSpec X place) (LocalClient.copy X root fuel copied destinationPath)
      (fun _ => Strayed d₀ s t d) (CopyFailed d₀ s t fuel d) d := by
  have hhalts : ∀ e d', Halts d e d' → CopyFailed d₀ s t fuel d e d' :=
    fun _ _ => Halts.copyFailed strayed_refl
  refine wp_localCopy_paths hhalts rfl rfl ?_
  unfold LocalClient.rejectNested
  refine wp_first hhalts (wp_localCheck (fun _ => ?_) rfl)
  refine wp_first hhalts (wp_rejectSymbolicLink fun _ => ?_)
  rw [wp_bind]
  refine wp_mono (wp_copyEntity hs ht hclear hsame) (fun _ d' hstray => ?_) fun _ _ h => h
  exact wp_mono (wp_entryNow fun _ => hstray) (fun _ _ h => h) fun _ _ => Halts.copyFailed hstray

/-- A directory is not copied into itself. -/
theorem wp_localCopy_refused
    (hdirectory : d (place (LocalClient.normal X copied.path)) = some .directory)
    (hnested : (LocalClient.samePath X (LocalClient.normal X copied.path) (LocalClient.normal X
        (LocalClient.join X (LocalClient.normal X destinationPath) copied.name)) ||
      LocalClient.isWithin X (LocalClient.normal X copied.path) (LocalClient.normal X
        (LocalClient.join X (LocalClient.normal X destinationPath) copied.name))) = true) :
    wp (diskSpec X place) (LocalClient.copy X root fuel copied destinationPath)
      (fun _ _ => False) (Halts d) d := by
  refine wp_localCopy_paths (fun _ _ h => h) rfl rfl ?_
  unfold LocalClient.rejectNested
  refine wp_first (fun _ _ h => h) (wp_localCheck (fun hallowed => ?_) rfl)
  rw [hdirectory, hnested] at hallowed
  cases hallowed

end LocalCopy

/-! ## §5  Copies by calls -/

namespace ExplorerClients

open ExplorerTransferService

section Spared

variable (E : ExplorerClients)

/-- A copy from `s` to `loc` writes nothing at or below `u`. Below an entry that is new, a
client that creates may put anything. -/
def Spares (id : ClientId) (d₀ : Volume) (s loc u : List String) : Prop :=
  if E.creates id then ¬ u <+: loc ∧ ¬ loc <+: u else Clear d₀ s loc u

/-- The locations `us` are as they were, and where all that is put is new, what stood still
stands. -/
structure Spared (id : ClientId) (us : List (List String)) (d₀ d : Volume) : Prop where
  unchanged : ∀ u ∈ us, Unchanged d₀ u d
  stands : E.creates id = true → ∀ loc, d₀ loc ≠ none → d loc = d₀ loc

/-- What is at `s`, in one of `us`, may be copied into `parent`. -/
structure MayCopy (id : ClientId) (us : List (List String)) (d₀ : Volume) (s parent : List String)
    (name : String) : Prop where
  inside : ∃ u ∈ us, u <+: s
  spares : ∀ loc, E.Puts id parent name d₀ loc → ∀ u ∈ us, E.Spares id d₀ s loc u

/-- A copy that fails spares what it has to, and it does not fail for want of fuel if there is
more of it than there are levels below `s`. -/
def SparedFailed (id : ClientId) (us : List (List String)) (d₀ : Volume) (s : List String)
    (fuel : ℕ) (e : ExplorerFailure) (d : Volume) : Prop :=
  E.Spared id us d₀ d ∧
    (0 < fuel → (∀ rel, d₀ (s ++ rel) ≠ none → rel.length < fuel) → e ≠ .outOfFuel)

end Spared

variable {E : ExplorerClients} {id sourceId : ClientId} {root sourceRoot : ExplorerRoot}
  {us : List (List String)} {d₀ d d' : Volume} {s loc u parent : List String}
  {name path parentPath : String} {fuel : ℕ} {entry : ExplorerFileEntry}

theorem Spares.top (h : E.Spares id d₀ s loc u) : ¬ u <+: loc := by
  unfold Spares at h
  split_ifs at h
  · exact h.1
  · exact h.top

theorem Puts.of_not_creates (hcreates : E.creates id = false) (h : E.Puts id parent name d loc) :
    loc = parent ++ [name] := by
  have hrenames : E.renames id = false := by
    unfold creates at hcreates
    unfold renames
    split at hcreates
    · rfl
    · cases hcreates
    · cases hcreates
  obtain ⟨given, rfl, hgiven⟩ := h.inside
  rw [hgiven hrenames]

/-- What is free now was free in the beginning. -/
theorem Spared.puts (h : E.Spared id us d₀ d) (hputs : E.Puts id parent name d loc) :
    E.Puts id parent name d₀ loc where
  inside := hputs.inside
  free hcreates := by
    by_contra hstood
    rw [← h.stands hcreates loc hstood, hputs.free hcreates] at hstood
    exact hstood rfl

/-- One entry is put. -/
theorem Spared.put (h : E.Spared id us d₀ d) (hmay : E.MayCopy id us d₀ s parent name)
    (hputs : E.Puts id parent name d loc) (honly : OnlyAt loc d d') : E.Spared id us d₀ d' where
  unchanged u hu rel := by
    have htop := (hmay.spares loc (h.puts hputs) u hu).top
    rw [honly _ fun heq => htop (heq ▸ List.prefix_append u rel)]
    exact h.unchanged u hu rel
  stands hcreates m hm := by
    have hfree := (h.puts hputs).free hcreates
    rw [honly m fun heq => hm (heq ▸ hfree)]
    exact h.stands hcreates m hm

theorem MayCopy.unchanged (h : E.MayCopy id us d₀ s parent name) (hspared : E.Spared id us d₀ d) :
    Unchanged d₀ s d := by
  obtain ⟨u, hu, rel, rfl⟩ := h.inside
  intro rel'
  rw [List.append_assoc]
  exact hspared.unchanged u hu (rel ++ rel')

/-- What is inside may be copied into the new entry. -/
theorem MayCopy.child {child : String} (h : E.MayCopy id us d₀ s parent name)
    (hputs : E.Puts id parent name d₀ loc) (hchild : d₀ (s ++ [child]) ≠ none) :
    E.MayCopy id us d₀ (s ++ [child]) loc child where
  inside := by
    obtain ⟨u, hu, hprefix⟩ := h.inside
    exact ⟨u, hu, hprefix.trans (List.prefix_append s [child])⟩
  spares loc' hputs' u hu := by
    have hspares := h.spares loc hputs u hu
    unfold Spares at hspares ⊢
    split_ifs at hspares ⊢ with hcreates
    · obtain ⟨given, rfl, -⟩ := hputs'.inside
      refine ⟨fun hprefix => ?_, fun hprefix =>
        hspares.2 ((List.prefix_append loc [given]).trans hprefix)⟩
      rcases List.prefix_concat_iff.mp hprefix with heq | hbelow
      · exact hspares.2 (heq ▸ List.prefix_append loc [given])
      · exact hspares.1 hbelow
    · obtain rfl := hputs'.of_not_creates (Bool.eq_false_of_not_eq_true hcreates)
      exact hspares.child hchild

/-- A directory is put, and what it is a copy of is listed. -/
theorem wp_directory {β : Type} {k : ExplorerFileEntry → ExplorerDirectoryListing → ExplorerM β}
    {Q : β → Volume → Prop} {Er : ExplorerFailure → Volume → Prop}
    (hs : E.clients.locate sourceId sourceRoot path = s)
    (hmay : E.MayCopy id us d₀ s (E.clients.locate id root parentPath) name)
    (hspared : E.Spared id us d₀ d)
    (hE : ∀ e d', e ≠ .outOfFuel → E.Spared id us d₀ d' → Er e d')
    (hk : ∀ created listing d', E.Spared id us d₀ d' →
      (∀ child ∈ listing.entries, d₀ (s ++ [child.name]) ≠ none ∧
        E.clients.locate sourceId sourceRoot child.path = s ++ [child.name] ∧
        E.MayCopy id us d₀ (s ++ [child.name]) (E.clients.locate id root created.path)
          child.name) → wp E.callSpec (k created listing) Q Er d') :
    wp E.callSpec (do
      let created ← await (ClientOp.createDirectory id root parentPath name)
      let listing ← await (ClientOp.listDirectory sourceId sourceRoot path)
      k created listing) Q Er d := by
  rw [wp_bind]
  refine wp_await trivial (fun created d₁ hans => ?_) fun e d₁ hans => ?_
  · obtain ⟨hputs, rfl⟩ := hans.2
    have hspared₁ : E.Spared id us d₀ (d.write (E.clients.locate id root created.path)
        .directory) := hspared.put hmay hputs onlyAt_write
    rw [wp_bind]
    refine wp_await trivial (fun listing d₂ hans => ?_) fun e d₂ hans => ?_
    · obtain ⟨rfl, hlists⟩ := hans.2
      rw [hs] at hlists
      refine hk created listing _ hspared₁ fun child hchild => ?_
      obtain ⟨hlocate, hexists⟩ := hlists.entry child hchild
      have hname : d₀ (s ++ [child.name]) ≠ none := by
        rw [← hmay.unchanged hspared₁]
        exact hexists
      exact ⟨hname, hlocate, hmay.child (hspared.puts hputs) hname⟩
    · obtain rfl := hans.2
      exact hE e _ (fun heq => Bool.false_ne_true (hans.1 (congrArg Except.error heq))) hspared₁
  · refine hE e d₁ (fun heq => Bool.false_ne_true (hans.1 (congrArg Except.error heq))) ?_
    rcases hans.2 with rfl | ⟨loc, hputs, honly⟩
    · exact hspared
    · exact hspared.put hmay hputs honly

/-- A file is put. -/
theorem wp_putFile {content : ReadStream} {lengthBytes : Option ℕ}
    (hmay : E.MayCopy id us d₀ s (E.clients.locate id root path) name)
    (hspared : E.Spared id us d₀ d) :
    wp E.callSpec (await (ClientOp.writeFile id root path name content lengthBytes))
      (fun _ => E.Spared id us d₀) (E.SparedFailed id us d₀ s fuel) d := by
  refine wp_await trivial (fun _ d₁ hans => ?_) fun e d₁ hans => ⟨?_, fun _ _ heq =>
    Bool.false_ne_true (hans.1 (congrArg Except.error heq))⟩
  · obtain ⟨loc, hputs, bytes, rfl, -⟩ := hans.2
    exact hspared.put hmay hputs onlyAt_write
  · rcases hans.2 with rfl | ⟨loc, hputs, honly⟩
    · exact hspared
    · exact hspared.put hmay hputs honly

/-- One level of a directory takes one unit of fuel. -/
theorem SparedFailed.of_child {e : ExplorerFailure} (hname : d₀ (s ++ [name]) ≠ none)
    (h : E.SparedFailed id us d₀ (s ++ [name]) fuel e d) :
    E.SparedFailed id us d₀ s (fuel + 1) e d := by
  refine ⟨h.1, fun _ hdepth => ?_⟩
  have hone : [name].length < fuel + 1 := hdepth [name] hname
  refine h.2 (Nat.lt_of_succ_lt_succ hone) fun rel hrel => ?_
  have hrel' := hdepth (name :: rel) (by simpa using hrel)
  exact Nat.lt_of_succ_lt_succ hrel'

/-- **One entry is copied by the service.** The induction is on the fuel. -/
theorem wp_copyEntry {source target : Side}
    (hs : E.clients.locate source.client source.root entry.path = s)
    (hmay : E.MayCopy target.client us d₀ s (E.clients.locate target.client target.root path)
      entry.name) (hspared : E.Spared target.client us d₀ d) :
    wp E.callSpec (copyEntry source target fuel entry path)
      (fun _ => E.Spared target.client us d₀) (E.SparedFailed target.client us d₀ s fuel) d := by
  induction fuel generalizing entry path s d with
  | zero => exact wp_throw.mpr ⟨hspared, fun hpos => absurd hpos (lt_irrefl 0)⟩
  | succ fuel ih =>
      unfold copyEntry
      split
      · exact wp_putFile hmay hspared
      · refine wp_directory hs hmay hspared (fun e d' hfuel h => ⟨h, fun _ _ => hfuel⟩) ?_
        intro created listing d' h hchildren
        refine wp_foldl (I := fun _ => E.Spared target.client us d₀) h fun _ child d' hchild h => ?_
        obtain ⟨hname, hlocate, hmay'⟩ := hchildren child hchild
        exact wp_mono (ih hlocate hmay' h) (fun _ _ h => h) fun _ _ h => h.of_child hname

/-- **One entry is copied by a client.** -/
theorem wp_copy {check : ExplorerFileEntry → String → ExplorerResult Unit}
    {noSize : RemoteFileSystemException} (hs : E.clients.locate id root entry.path = s)
    (hmay : E.MayCopy id us d₀ s (E.clients.locate id root path) entry.name)
    (hspared : E.Spared id us d₀ d) :
    wp E.callSpec ((methods id root).copy check noSize fuel entry path)
      (fun _ => E.Spared id us d₀) (E.SparedFailed id us d₀ s fuel) d := by
  induction fuel generalizing entry path s d with
  | zero => exact wp_throw.mpr ⟨hspared, fun hpos => absurd hpos (lt_irrefl 0)⟩
  | succ fuel ih =>
      unfold CopyMethods.copy
      split
      · exact wp_throw.mpr ⟨hspared, fun _ _ => nofun⟩
      split
      · refine wp_directory hs hmay hspared (fun e d' hfuel h => ⟨h, fun _ _ => hfuel⟩) ?_
        intro created listing d' h hchildren
        rw [wp_bind]
        refine wp_mono (wp_foldl (I := fun _ => E.Spared id us d₀) h fun _ child d' hchild h => ?_)
          (fun _ _ h => wp_pure.mpr h) fun _ _ h => h
        obtain ⟨hname, hlocate, hmay'⟩ := hchildren child hchild
        rw [wp_bind]
        exact wp_mono (ih hlocate hmay' h) (fun _ _ h => wp_pure.mpr h)
          fun _ _ h => h.of_child hname
      · split
        · exact wp_throw.mpr ⟨hspared, fun _ _ => nofun⟩
        · rw [wp_bind]
          refine wp_mono (wp_putFile hmay hspared) (fun _ d' h => ?_) fun _ _ h => h
          refine wp_await trivial (fun _ d'' hans => ?_) fun e d'' hans => ⟨?_, fun _ _ heq =>
            Bool.false_ne_true (hans.1 (congrArg Except.error heq))⟩
          · obtain rfl := hans.2
            exact h
          · obtain rfl := hans.2
            exact h

/-- A copy that the client refuses. -/
theorem wp_copy_refused {check : ExplorerFileEntry → String → ExplorerResult Unit}
    {noSize : RemoteFileSystemException} (hcheck : check entry path ≠ .ok ()) :
    wp E.callSpec ((methods id root).copy check noSize (fuel + 1) entry path)
      (fun _ _ => False) (Halts d) d := by
  unfold CopyMethods.copy
  split
  · exact wp_throw.mpr ⟨nofun, rfl⟩
  · rename_i hok
    exact absurd hok hcheck

/-! ## §6  Every copy within one root -/

/-- The `copy` of a client runs, and answers `a`. -/
def CopyRuns (E : ExplorerClients) (fuel : ℕ) (id : ClientId) (root : ExplorerRoot)
    (entry : ExplorerFileEntry) (destinationPath : String) (d : Volume)
    (a : Except ExplorerFailure ExplorerFileEntry) (d' : Volume) : Prop :=
  match E.client id with
  | .localFileSystem X place => Reaches (diskSpec X place)
      (LocalClient.copy X root fuel entry destinationPath) d (Program.ofExcept a) d'
  | .networkRemote _ => Reaches E.callSpec ((methods id root).copy
      NetworkRemoteFileSystemClient.copyCheck NetworkRemoteFileSystemClient.copyNoSize fuel entry
      destinationPath) d (Program.ofExcept a) d'
  | .androidSaf _ => Reaches E.callSpec ((methods id root).copy
      (AndroidSafClient.copyCheck root) AndroidSafClient.copyNoSize fuel entry
      destinationPath) d (Program.ofExcept a) d'

/-- A copy that was run. -/
theorem wp_copied {Op : Type} {Ans : Op → Type} {S : Spec Unit ExplorerFailure Op Ans Volume}
    {p : Program Unit ExplorerFailure Op Ans ExplorerFileEntry}
    {a : Except ExplorerFailure ExplorerFileEntry}
    (h : wp S p (fun _ => E.Spared id us d₀) (E.SparedFailed id us d₀ s fuel) d)
    (hreach : Reaches S p d (Program.ofExcept a) d') (hpos : 0 < fuel)
    (hfuel : ∀ rel, d₀ (s ++ rel) ≠ none → rel.length < fuel) :
    E.Spared id us d₀ d' ∧ a ≠ .error .outOfFuel := by
  cases a with
  | ok created =>
      have hend := wp_reaches h hreach
      unfold Program.ofExcept at hend
      rw [wp_ret] at hend
      exact ⟨hend, nofun⟩
  | error e =>
      have hend := wp_reaches h hreach
      unfold Program.ofExcept at hend
      rw [wp_throw] at hend
      exact ⟨hend.1, fun heq => hend.2 hpos hfuel (Except.error.inj heq)⟩

/-- **A copy within one root** is refused, or it keeps clear of what is to be spared: it spares
that, and it ends. -/
theorem CopyRuns.spared {destinationPath : String}
    {a : Except ExplorerFailure ExplorerFileEntry}
    (hrun : E.CopyRuns fuel id root entry destinationPath d a d')
    (hs : E.clients.locate id root entry.path = s) (hinside : s ∈ us)
    (hspared : E.Spared id us d₀ d)
    (h : E.Refuses id root entry destinationPath d₀ ∨
      ∀ loc, E.CopyLands id root entry destinationPath d₀ loc → ∀ u ∈ us, E.Spares id d₀ s loc u)
    (hpos : 0 < fuel) (hfuel : ∀ rel, d₀ (s ++ rel) ≠ none → rel.length < fuel) :
    E.Spared id us d₀ d' ∧ a ≠ .error .outOfFuel := by
  have hhalts : ∀ e d', Halts d e d' → E.SparedFailed id us d₀ s fuel e d' := by
    rintro e d' ⟨hne, rfl⟩
    exact ⟨hspared, fun _ _ => hne⟩
  obtain ⟨fuel, rfl⟩ := Nat.exists_eq_succ_of_ne_zero hpos.ne'
  unfold CopyRuns at hrun
  unfold Refuses CopyLands at h
  have hlocate := hs
  unfold clients at hlocate
  cases hclient : E.client id with
  | localFileSystem X place =>
      simp only [hclient] at hrun h hlocate
      refine wp_copied ?_ hrun hpos hfuel
      rcases h with ⟨hdirectory, hnested⟩ | hclear
      · refine wp_mono (wp_localCopy_refused ?_ hnested) (fun _ _ h => h.elim) hhalts
        rw [hlocate] at hdirectory ⊢
        have htop := hspared.unchanged s hinside []
        rw [List.append_nil] at htop
        rw [htop, hdirectory]
      · have hcreates : E.creates id = false := by
          unfold creates
          rw [hclient]
        have hclear : ∀ u ∈ us, Clear d₀ s _ u := fun u hu => by
          have hspares := hclear _ rfl u hu
          unfold Spares at hspares
          rwa [if_neg (by rw [hcreates]; exact Bool.false_ne_true)] at hspares
        have hkept : ∀ d', Strayed d₀ s _ d d' → E.Spared id us d₀ d' := fun d' hstray =>
          ⟨fun u hu => (hspared.unchanged u hu).strayed hstray (hclear u hu), fun heq => by
            rw [hcreates] at heq
            cases heq⟩
        exact wp_mono (wp_localCopy hlocate rfl (hclear s hinside) (hspared.unchanged s hinside))
          (fun _ d' hstray => hkept d' hstray) fun e d' hfailed => ⟨hkept d' hfailed.1, hfailed.2⟩
  | networkRemote place | androidSaf place =>
      simp only [hclient] at hrun h hlocate
      refine wp_copied ?_ hrun hpos hfuel
      rcases h with hrefused | hmay
      · exact wp_mono (wp_copy_refused hrefused) (fun _ _ h => h.elim) hhalts
      · refine wp_copy hs ⟨⟨s, hinside, List.prefix_refl s⟩, fun loc hputs => hmay loc ?_⟩ hspared
        unfold clients at hputs
        simpa only [hclient] using hputs

end ExplorerClients

end FireBoxTransfer
