import FireBoxTransfer.RemoteFs.FireboxMutations
import FireBoxTransfer.RemoteFs.Listing

/-!
# What a mutation leaves behind

A handler that creates, renames or moves changes nothing before its last check
of the grants, then calls the one change that was asked for (a document that is
moved may be renamed as well), and answers. What was changed stands when a later
step fails: reading the entry back, or the second half of a move of a document.
-/

namespace FireBoxTransfer

open Program

/-! ## §1  Changes -/

/-- The operations that change what a peer can see. -/
def FsOp.isChange : FsOp → Bool
  | .create _ | .rename _ _ | .delete _ _ | .createSafDirectory _ _ | .renameSafDocument _ _
  | .moveSafDocument _ _ _ | .deleteSafDocument _ | .openSafDocumentForWriting _ _
  | .createSafFile _ _ _ => true
  | .entityType _ | .resolveSymbolicLinks _ | .listDirectory _ | .stat _ | .listSharedRoots
  | .getSafMetadata _ | .resolveSafRelativePath _ _ | .listSafDirectory _
  | .openSafDocumentForReading _ | .respond _ _ => false

def FsOp.isReply : FsOp → Bool
  | .respond _ _ => true
  | _ => false

def FsAnswer.succeeded (a : FsAnswer) : Bool := a.result.toOption.isSome

/-- The changes that were made. -/
def changes (answers : List FsAnswer) : List FsOp :=
  (answers.filter fun a => a.op.isChange && a.succeeded).map FsAnswer.op

theorem changes_append {answers more : List FsAnswer} :
    changes (answers ++ more) = changes answers ++ changes more := by
  unfold changes
  rw [List.filter_append, List.map_append]

/-- What a handler saw so far: snapshots, and answers. -/
structure Handled where
  seen : List RemoteFsAccessConfig
  answers : List FsAnswer

/-- Executions of a handler, with what it saw. -/
def handledSpec : Spec RemoteFsAccessConfig RemoteFsError FsOp FsOp.Answer Handled where
  mayRead _ := True
  reads w access w' := w' = ⟨w.seen ++ [access], w.answers⟩
  mayCall _ _ := True
  answers op w a w' := w' = ⟨w.seen, w.answers ++ [⟨op, a⟩]⟩

/-! ## §2  What was asked for -/

/-- The native path of a path of a request. -/
def nativePath (X : RemoteFsExternals) (grant : RemoteFsGrant) (relativePath : String) : String :=
  if relativePath = "" then localRoot X grant
  else X.path.normalize (X.path.joinAll (localRoot X grant :: splitSlash relativePath))

/-- The native path of a name in a directory of a request. -/
def nativeChild (X : RemoteFsExternals) (grant : RemoteFsGrant) (parentPath name : String) :
    String := X.path.normalize (X.path.joinAll [nativePath X grant parentPath, name])

/-- A snapshot that the handler saw grants the root. -/
def Handled.Granted (w : Handled) (grant : RemoteFsGrant) : Prop :=
  ∃ access ∈ w.seen, matchingGrants access grant.id = [grant]

/-- The platform resolved the path to the document. -/
def Handled.Resolved (w : Handled) (grant : RemoteFsGrant) (path : String)
    (document : SafDocument) : Prop :=
  (⟨.resolveSafRelativePath grant.locator path, .ok document⟩ : FsAnswer) ∈ w.answers

def RemoteFsRequest.isCreate : RemoteFsRequest → Bool
  | .createDirectory _ _ => true
  | _ => false

/-- The name that a move gives. -/
def movedName (source : RemoteFsLocation) (newName : Option String) : String :=
  newName.getD (basenameRemotePath source.path)

/-- The changes by which a request is carried out, each on the provider of the
root that was granted. -/
inductive CarriedOut (X : RemoteFsExternals) (w : Handled) :
    RemoteFsRequest → List FsOp → Prop where
  | createLocal {grant path name} : grant.kind = .localPath → w.Granted grant →
      CarriedOut X w (.createDirectory ⟨grant.id, path⟩ name)
        [.create (nativeChild X grant path name)]
  | renameLocal {grant path newName} : grant.kind = .localPath → w.Granted grant →
      CarriedOut X w (.rename ⟨grant.id, path⟩ newName)
        [.rename (nativePath X grant path) (nativeChild X grant (parentRemotePath path) newName)]
  | moveLocal {grant destination path parent newName overwrite} : grant.kind = .localPath →
      destination.kind = .localPath → w.Granted grant → w.Granted destination →
      CarriedOut X w (.move ⟨grant.id, path⟩ ⟨destination.id, parent⟩ newName overwrite)
        [.rename (nativePath X grant path)
          (nativeChild X destination parent (movedName ⟨grant.id, path⟩ newName))]
  | createSaf {grant path name parent} : grant.kind = .androidSaf → w.Granted grant →
      w.Resolved grant path parent →
      CarriedOut X w (.createDirectory ⟨grant.id, path⟩ name)
        [.createSafDirectory parent.uri name]
  | renameSaf {grant path newName source} : grant.kind = .androidSaf → w.Granted grant →
      w.Resolved grant path source →
      CarriedOut X w (.rename ⟨grant.id, path⟩ newName)
        [.renameSafDocument source.uri newName]
  | moveSaf {grant path parentPath newName overwrite source sourceParent parent moved} :
      grant.kind = .androidSaf → w.Granted grant → w.Resolved grant path source →
      w.Resolved grant (parentRemotePath path) sourceParent →
      w.Resolved grant parentPath parent →
      (⟨.moveSafDocument source.uri sourceParent.uri parent.uri, .ok moved⟩ : FsAnswer) ∈
        w.answers →
      CarriedOut X w (.move ⟨grant.id, path⟩ ⟨grant.id, parentPath⟩ newName overwrite)
        (.moveSafDocument source.uri sourceParent.uri parent.uri ::
          if moved.name = movedName ⟨grant.id, path⟩ newName then []
          else [.renameSafDocument moved.uri (movedName ⟨grant.id, path⟩ newName)])

/-- The root in which the entry of a mutation is made. -/
def RemoteFsRequest.madeIn : RemoteFsRequest → Option String
  | .createDirectory parent _ => some parent.rootId
  | .rename source _ => some source.rootId
  | .move _ destinationParent _ _ => some destinationParent.rootId
  | _ => none

/-- The local change `op` was made, and after it the entry that was asked for
was read back: this came to `result` in the world `w`. -/
inductive ReadBack (X : RemoteFsExternals) (request : RemoteFsRequest) (op : FsOp)
    (result : RemoteFsM RemoteFsEntry) (w : Handled) : Prop where
  | intro {grant path before a} : op.IsLocalChange → request.madeIn = some grant.id →
      before.Granted grant → Firebox.expectedPath request = some path →
      (⟨op, .ok a⟩ : FsAnswer) ∈ before.answers →
      Reaches handledSpec (resolvedEntry X grant path) before result w →
      ReadBack X request op result w

/-- The changes that stand after a failure: a local change whose entry could
not be read back, a new entry that is no directory, or the move of a document
that then could not be renamed, with or without the move back. -/
inductive LeftBehind (X : RemoteFsExternals) (w : Handled) :
    RemoteFsRequest → List FsOp → Prop where
  | unread {request op e} : CarriedOut X w request [op] →
      ReadBack X request op (.throw e) w → LeftBehind X w request [op]
  | misread {request op entry} : CarriedOut X w request [op] → request.isCreate = true →
      ReadBack X request op (.pure entry) w → entry.entryType ≠ .directory →
      LeftBehind X w request [op]
  | noDirectory {request parent name} {created : SafDocument} :
      CarriedOut X w request [.createSafDirectory parent name] →
      (⟨.createSafDirectory parent name, .ok created⟩ : FsAnswer) ∈ w.answers →
      created.isDirectory = false → LeftBehind X w request [.createSafDirectory parent name]
  | unrenamed {grant path parentPath newName overwrite source sourceParent parent moved e} :
      w.Granted grant → w.Resolved grant path source →
      (⟨.moveSafDocument source.uri sourceParent parent, .ok moved⟩ : FsAnswer) ∈ w.answers →
      (⟨.renameSafDocument moved.uri (movedName ⟨grant.id, path⟩ newName), .error e⟩ :
        FsAnswer) ∈ w.answers →
      LeftBehind X w (.move ⟨grant.id, path⟩ ⟨grant.id, parentPath⟩ newName overwrite)
        [.moveSafDocument source.uri sourceParent parent]
  | movedBack {grant path parentPath newName overwrite source sourceParent parent moved e} :
      w.Granted grant → w.Resolved grant path source →
      (⟨.moveSafDocument source.uri sourceParent parent, .ok moved⟩ : FsAnswer) ∈ w.answers →
      (⟨.renameSafDocument moved.uri (movedName ⟨grant.id, path⟩ newName), .error e⟩ :
        FsAnswer) ∈ w.answers →
      LeftBehind X w (.move ⟨grant.id, path⟩ ⟨grant.id, parentPath⟩ newName overwrite)
        [.moveSafDocument source.uri sourceParent parent,
          .moveSafDocument moved.uri parent sourceParent]

/-! ## §3  Stages -/

/-- No reply was sent. -/
def Handled.Silent (w : Handled) : Prop := ∀ a ∈ w.answers, a.op.isReply = false

/-- The request was carried out, and the entry describes it. -/
structure Described (X : RemoteFsExternals) (request : RemoteFsRequest) (w : Handled)
    (entry : RemoteFsEntry) : Prop where
  carriedOut : CarriedOut X w request (changes w.answers)
  describes : ∃ path, Firebox.expectedPath request = some path ∧ EntryFor path entry
  name : validFileName entry.name = true
  created : request.isCreate = true →
    entry.entryType = .directory ∨ LeftBehind X w request (changes w.answers)

/-- The changes of a request that failed. -/
def Failed (X : RemoteFsExternals) (request : RemoteFsRequest) (w : Handled) : Prop :=
  w.Silent → changes w.answers = [] ∨ LeftBehind X w request (changes w.answers)

/-- What has to hold when a reply is sent. -/
def Tells (X : RemoteFsExternals) (request : RemoteFsRequest) (w : Handled) :
    RemoteFsReply → Prop
  | .entry entry => Described X request w entry
  | .error _ => Failed X request w
  | _ => False

/-- Changes are made before the reply, and the first reply tells of them. -/
def settleSpec (X : RemoteFsExternals) (request : RemoteFsRequest) :
    Spec RemoteFsAccessConfig RemoteFsError FsOp FsOp.Answer Handled where
  mayRead _ := True
  reads w access w' := w' = ⟨w.seen ++ [access], w.answers⟩
  mayCall op w := (op.isChange = true → w.Silent) ∧
    ∀ requestId reply, op = .respond requestId reply → w.Silent → Tells X request w reply
  answers op w a w' := w' = ⟨w.seen, w.answers ++ [⟨op, a⟩]⟩

/-- The changes `ops` were made under the grants `G`, and `known` was answered. -/
structure At (ops : List FsOp) (G : List RemoteFsGrant) (known : List FsAnswer) (w : Handled) :
    Prop where
  made : changes w.answers = ops
  silent : w.Silent
  granted : ∀ g ∈ G, w.Granted g
  known : ∀ a ∈ known, a ∈ w.answers

section Stages

variable {X : RemoteFsExternals} {request : RemoteFsRequest} {peer : RemoteFsPeer}
  {ops : List FsOp} {G : List RemoteFsGrant} {known : List FsAnswer} {w : Handled}
  {grant : RemoteFsGrant} {α : Type}

theorem At.failed (h : At [] G known w) : Failed X request w := fun _ => .inl h.made

theorem At.answered {op : FsOp} {r : Except RemoteFsError op.Answer} (h : At ops G known w)
    (hreply : op.isReply = false) :
    At (ops ++ changes [⟨op, r⟩]) G (⟨op, r⟩ :: known)
      ⟨w.seen, w.answers ++ [⟨op, r⟩]⟩ where
  made := by rw [changes_append, h.made]
  silent a ha := by
    rcases List.mem_append.mp ha with ha | ha
    · exact h.silent a ha
    · rw [List.mem_singleton.mp ha]
      exact hreply
  granted := h.granted
  known a ha := by
    rcases List.mem_cons.mp ha with rfl | ha
    · simp
    · exact List.mem_append_left _ (h.known a ha)

theorem At.forget {a : FsAnswer} (h : At ops G (a :: known) w) : At ops G known w :=
  ⟨h.made, h.silent, h.granted, fun b hb => h.known b (List.mem_cons_of_mem _ hb)⟩

/-- Before a change, a step that only looks leads on or fails. -/
theorem At.then {β : Type} {p : RemoteFsM β} {f : β → RemoteFsM α} {V : β → Prop}
    {Q : α → Handled → Prop} (hw : At [] G known w) (hV : p.Yields V)
    (hp : Keeps (settleSpec X request) (At [] G known) (At [] G known) p)
    (hf : ∀ b w, V b → At [] G known w →
      wp (settleSpec X request) (f b) Q (fun _ => Failed X request) w) :
    wp (settleSpec X request) (p >>= f) Q (fun _ => Failed X request) w := by
  rw [wp_bind]
  exact wp_mono (hV.wp (hp w hw)) (fun b w h => hf b w h.2 h.1) fun _ _ he => he.failed

end Stages

section Local

variable {X : RemoteFsExternals} {request : RemoteFsRequest} {peer : RemoteFsPeer}
  {G : List RemoteFsGrant} {known : List FsAnswer} {w : Handled} {grant : RemoteFsGrant}
  {path name : String}

end Local

/-! ## §5  Changes of documents -/

section Saf

variable {X : RemoteFsExternals} {request : RemoteFsRequest} {peer : RemoteFsPeer}
  {ops : List FsOp} {G : List RemoteFsGrant} {known : List FsAnswer} {w : Handled}
  {grant : RemoteFsGrant} {path name : String} {α : Type}

end Saf

/-! ## §6  The handlers -/

section Handlers

variable {X : RemoteFsExternals} {request : RemoteFsRequest} {requestId : String}
  {peer : RemoteFsPeer} {w : Handled} {path : String}

end Handlers

/-! ## §7  The endpoint -/

section Endpoint

variable {X : RemoteFsExternals} {request : RemoteFsRequest} {path : String} {w : Handled}
  {entry : RemoteFsEntry}

theorem Described.validateExactEntry (h : Described X request w entry)
    (hpath : Firebox.expectedPath request = some path) (hlong : validRelativePath path = true) :
    Firebox.validateExactEntry entry path = .ok () := by
  obtain ⟨path', hpath', hentry⟩ := h.describes
  obtain rfl : path = path' := Option.some.inj (hpath.symm.trans hpath')
  unfold Firebox.validateExactEntry Firebox.validateEntry
  simp only [Firebox.then_eq_ok, Firebox.mapError_eq_ok, Firebox.validateFileName_eq_ok,
    Firebox.validateRelativePath_eq_ok, Firebox.check_eq_ok, Bool.and_eq_true, decide_eq_true_eq]
  refine ⟨⟨h.name, ?_, ?_, hentry.modified, hentry.mimeType⟩, hentry.path⟩
  · rw [hentry.path]
    exact hlong
  · rw [hentry.path, hentry.name]
    rfl

end Endpoint

/-! ## §8  Replies that come late or after a failure -/

namespace Sample

end Sample

end FireBoxTransfer
