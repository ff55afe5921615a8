import FireBoxTransfer.RemoteFs.Handlers

/-!
# What the providers do

The functions of a provider look at the snapshot only where they make sure
that the grant is still current, right before a change, and otherwise call the
operations of that provider. So what holds before, between and after follows
from what these calls and that check do.
-/

namespace FireBoxTransfer

open Program

/-! ## §1  Operations -/

def FsOp.IsLocal : FsOp → Prop
  | .entityType _ | .resolveSymbolicLinks _ | .listDirectory _ | .stat _ | .create _
  | .rename _ _ | .delete _ _ => True
  | _ => False

def FsOp.IsSaf : FsOp → Prop
  | .listSharedRoots | .getSafMetadata _ | .resolveSafRelativePath _ _ | .listSafDirectory _
  | .createSafDirectory _ _ | .renameSafDocument _ _ | .moveSafDocument _ _ _
  | .deleteSafDocument _ | .openSafDocumentForReading _ | .openSafDocumentForWriting _ _
  | .createSafFile _ _ _ => True
  | _ => False

/-- The operations of the local provider that look at one path. -/
def FsOp.IsLookup : FsOp → Prop
  | .entityType _ | .resolveSymbolicLinks _ | .stat _ => True
  | _ => False

/-- The operations of the local provider that leave the tree as it is. -/
def FsOp.IsQuiet : FsOp → Prop
  | .entityType _ | .resolveSymbolicLinks _ | .listDirectory _ | .stat _ => True
  | _ => False

/-- The operations of the document provider that only inspect. -/
def FsOp.IsSafQuery : FsOp → Prop
  | .listSharedRoots | .getSafMetadata _ | .resolveSafRelativePath _ _
  | .listSafDirectory _ => True
  | _ => False

/-- The operations of the local provider that change the tree. -/
def FsOp.IsLocalChange : FsOp → Prop
  | .create _ | .rename _ _ | .delete _ _ => True
  | _ => False

/-- The operations of the document provider that change a tree or open one of
its documents. -/
def FsOp.IsSafChange : FsOp → Prop
  | .createSafDirectory _ _ | .renameSafDocument _ _ | .moveSafDocument _ _ _
  | .deleteSafDocument _ | .openSafDocumentForReading _ | .openSafDocumentForWriting _ _
  | .createSafFile _ _ _ => True
  | _ => False

theorem FsOp.IsLookup.isQuiet {op : FsOp} (h : op.IsLookup) : op.IsQuiet := by
  cases op <;> first | exact h.elim | trivial

theorem FsOp.IsQuiet.isLocal {op : FsOp} (h : op.IsQuiet) : op.IsLocal := by
  cases op <;> first | exact h.elim | trivial

theorem FsOp.IsSafQuery.isSaf {op : FsOp} (h : op.IsSafQuery) : op.IsSaf := by
  cases op <;> first | exact h.elim | trivial

theorem FsOp.IsLocalChange.isLocal {op : FsOp} (h : op.IsLocalChange) : op.IsLocal := by
  cases op <;> first | exact h.elim | trivial

theorem FsOp.IsSafChange.isSaf {op : FsOp} (h : op.IsSafChange) : op.IsSaf := by
  cases op <;> first | exact h.elim | trivial

section Uses

variable {A : FsOp → Prop} {α : Type}

theorem uses_fail {code : RemoteFsErrorCode} : (fail code : RemoteFsM α).Uses A := uses_throw

theorem uses_require {c : Bool} {code : RemoteFsErrorCode} : (require c code).Uses A := by
  unfold require
  split
  · exact uses_pure
  · exact uses_fail

theorem uses_validateRelativePath {path : String} : (validateRelativePath path).Uses A :=
  uses_require

theorem uses_decodeListCursor {cursor : Option String} : (decodeListCursor cursor).Uses A := by
  unfold decodeListCursor
  split
  · exact uses_pure
  · split
    · split
      · exact uses_pure
      · exact uses_fail
    · exact uses_fail

theorem uses_mapFileSystem {code : Option Int → RemoteFsErrorCode} {p : RemoteFsM α}
    (h : p.Uses A) : (mapFileSystem code p).Uses A := by
  refine h.catching fun e => ?_
  split
  · exact uses_fail
  · exact uses_throw

theorem uses_mapSaf {p : RemoteFsM α} (h : p.Uses A) : (mapSaf p).Uses A := by
  refine h.catching fun e => ?_
  split
  · exact uses_fail
  · exact uses_throw

theorem uses_quiet {p : RemoteFsM α} (h : p.Uses FsOp.IsLookup) : p.Uses FsOp.IsQuiet :=
  h.mono fun _ => FsOp.IsLookup.isQuiet

end Uses

/-! ## §2  The local provider -/

section Local

variable {X : RemoteFsExternals} {grant : RemoteFsGrant} {path : String}

theorem uses_entityType : (entityType path).Uses FsOp.IsLookup :=
  uses_await (FsOp.entityType path) trivial

theorem uses_resolveSymbolicLinks {code : Option Int → RemoteFsErrorCode} :
    (mapFileSystem code (resolveSymbolicLinks path)).Uses FsOp.IsLookup :=
  uses_mapFileSystem (uses_await (FsOp.resolveSymbolicLinks path) trivial)

theorem uses_resolveLocalRoot : (resolveLocalRoot X grant).Uses FsOp.IsLookup := by
  unfold resolveLocalRoot
  exact uses_entityType.bind fun _ => uses_require.bind fun _ => uses_require.bind fun _ =>
    uses_resolveSymbolicLinks.bind fun _ => uses_pure

theorem uses_lexicalLocalPath {relativePath : String} :
    (lexicalLocalPath X grant relativePath).Uses FsOp.IsLookup := by
  unfold lexicalLocalPath
  exact uses_validateRelativePath.bind fun _ => uses_require.bind fun _ => uses_pure

theorem uses_resolveExistingLocal {relativePath : String} :
    (resolveExistingLocal X grant relativePath).Uses FsOp.IsLookup := by
  unfold resolveExistingLocal
  exact uses_resolveLocalRoot.bind fun _ => uses_lexicalLocalPath.bind fun _ =>
    uses_entityType.bind fun _ => uses_require.bind fun _ => uses_require.bind fun _ =>
    uses_require.bind fun _ => uses_resolveSymbolicLinks.bind fun _ =>
    uses_require.bind fun _ => uses_pure

theorem uses_resolveNewLocalChild {parentPath name : String} :
    (resolveNewLocalChild X grant parentPath name).Uses FsOp.IsLookup := by
  unfold resolveNewLocalChild validateFileName
  exact uses_require.bind fun _ => uses_resolveExistingLocal.bind fun _ =>
    uses_require.bind fun _ => uses_resolveLocalRoot.bind fun _ => uses_require.bind fun _ =>
    uses_entityType.bind fun _ => uses_require.bind fun _ => uses_pure

theorem uses_localEntry {relativePath : String} {type : FileSystemEntityType} :
    (localEntry X path relativePath type grant).Uses FsOp.IsLookup := by
  unfold localEntry
  exact (uses_await (FsOp.stat path) trivial).bind fun _ => uses_require.bind fun _ =>
    uses_require.bind fun _ => uses_pure

theorem uses_resolvedEntry {relativePath : String} :
    (resolvedEntry X grant relativePath).Uses FsOp.IsLookup := by
  unfold resolvedEntry
  exact uses_resolveExistingLocal.bind fun _ => uses_localEntry

theorem uses_listLocalEntity {relativePath : String} {entries : List RemoteFsEntry} :
    (listLocalEntity X grant relativePath entries path).Uses FsOp.IsLookup := by
  unfold listLocalEntity
  refine uses_entityType.bind fun _ => ?_
  dsimp only
  split
  · exact uses_pure
  · refine (uses_resolvedEntry.bind fun _ => uses_pure).catching fun e => ?_
    split <;> first | exact uses_pure | exact uses_throw

theorem uses_listLocalDirectory {relativePath : String} :
    (listLocalDirectory X grant relativePath).Uses FsOp.IsQuiet := by
  unfold listLocalDirectory
  refine (uses_quiet uses_resolveExistingLocal).bind fun resolved => uses_require.bind fun _ => ?_
  refine uses_mapFileSystem ?_
  exact (uses_await (FsOp.listDirectory resolved.path) trivial).bind fun _ =>
    uses_foldl (fun _ _ => uses_quiet uses_listLocalEntity) _ _

theorem uses_requireEmpty {source : ResolvedLocalPath} {recursive : Bool} :
    (requireEmpty source recursive).Uses FsOp.IsQuiet := by
  unfold requireEmpty
  split
  · exact (uses_await (FsOp.listDirectory source.path) trivial).bind fun _ => uses_require
  · exact uses_pure

theorem uses_prepareLocalWriteTarget {relativePath : String} {overwrite : Bool} :
    (prepareLocalWriteTarget X grant relativePath overwrite).Uses FsOp.IsLookup := by
  unfold prepareLocalWriteTarget validateFileName
  exact uses_require.bind fun _ => uses_resolveNewLocalChild.bind fun _ =>
    uses_entityType.bind fun _ => uses_require.bind fun _ => uses_require.bind fun _ =>
    uses_require.bind fun _ => uses_require.bind fun _ => uses_pure

end Local

/-! ## §3  The document provider -/

section Saf

variable {X : RemoteFsExternals} {peer : RemoteFsPeer} {grant : RemoteFsGrant}
  {path uri name : String}

theorem uses_resolveSafDocument : (resolveSafDocument grant path).Uses FsOp.IsSafQuery := by
  unfold resolveSafDocument
  exact uses_validateRelativePath.bind fun _ =>
    uses_mapSaf (uses_await (FsOp.resolveSafRelativePath grant.locator path) trivial)

theorem uses_safEntryForPath : (safEntryForPath X grant path).Uses FsOp.IsSafQuery := by
  unfold safEntryForPath
  exact uses_resolveSafDocument.bind fun _ => uses_pure

theorem uses_availableRemoteFsRoot (hkind : grant.kind = .androidSaf) :
    (availableRemoteFsRoot X grant).Uses FsOp.IsSafQuery := by
  unfold availableRemoteFsRoot
  rw [hkind]
  refine Uses.catching ?_ fun _ => uses_pure
  refine (uses_await FsOp.listSharedRoots trivial).bind fun shared => ?_
  split
  · exact uses_pure
  · split
    · exact uses_pure
    · exact (uses_await (FsOp.getSafMetadata grant.locator) trivial).bind fun _ => uses_pure

/-- Collecting the roots only inspects them, whatever their providers. -/
theorem uses_addRoot {access : RemoteFsAccessConfig} {roots : List RemoteFsRoot} :
    (addRoot X access roots grant).Uses fun op => op.IsQuiet ∨ op.IsSafQuery := by
  unfold addRoot
  split
  · exact uses_pure
  refine Uses.bind ?_ fun _ => uses_pure
  cases hkind : grant.kind with
  | localPath =>
      unfold availableRemoteFsRoot
      rw [hkind]
      refine Uses.catching ?_ fun _ => uses_pure
      exact ((uses_quiet uses_resolveLocalRoot).mono fun _ h => .inl h).bind fun _ => uses_pure
  | androidSaf => exact (uses_availableRemoteFsRoot hkind).mono fun _ h => .inr h

theorem uses_listSafDirectory : (listSafDirectory X grant path).Uses FsOp.IsSafQuery := by
  unfold listSafDirectory
  refine uses_resolveSafDocument.bind fun directory => uses_require.bind fun _ => ?_
  exact uses_mapSaf
    ((uses_await (FsOp.listSafDirectory directory.uri) trivial).bind fun _ => uses_pure)

theorem uses_findSafChild : (findSafChild uri name).Uses FsOp.IsSafQuery := by
  unfold findSafChild
  exact uses_mapSaf ((uses_await (FsOp.listSafDirectory uri) trivial).bind fun _ =>
    uses_require.bind fun _ => uses_pure)

theorem uses_safChildExists : (safChildExists uri name).Uses FsOp.IsSafQuery := by
  unfold safChildExists
  exact uses_findSafChild.bind fun _ => uses_pure

theorem uses_requireNoCollision {source : SafDocument} :
    (requireNoCollision source uri name).Uses FsOp.IsSafQuery := by
  unfold requireNoCollision
  split
  · exact uses_findSafChild.bind fun _ => uses_require
  · exact uses_pure

theorem uses_renameMoved {moved : SafDocument} {destination : String} :
    (renameMoved moved name uri destination).Uses FsOp.IsSafChange := by
  unfold renameMoved
  split
  · exact uses_pure
  · refine (uses_await (FsOp.renameSafDocument moved.uri name) trivial).catching fun e => ?_
    split
    · refine Uses.bind (Uses.catching ?_ fun _ => uses_pure) fun _ => uses_throw
      exact (uses_await (FsOp.moveSafDocument moved.uri destination uri) trivial).bind
        fun _ => uses_pure
    · exact uses_throw

theorem uses_requireEmptySaf {target : SafDocument} {recursive : Bool} :
    (requireEmptySaf target recursive).Uses FsOp.IsSafQuery := by
  unfold requireEmptySaf
  split
  · exact uses_mapSaf ((uses_await (FsOp.listSafDirectory target.uri) trivial).bind
      fun _ => uses_require)
  · exact uses_pure

end Saf

/-! ## §4  Changes -/

/-- The stages of a change: before the grant was looked at again (`I`), right
after that (`J`), once the change was called (`K`). Queries are in `A`, changes
in `B`. -/
structure Stages {W : Type*} (S : Spec RemoteFsAccessConfig RemoteFsError FsOp FsOp.Answer W)
    (A B : FsOp → Prop) (I J K E : W → Prop) : Prop where
  query : CallsKeep S A I
  change : ∀ op, B op → Leads S J K E (await op)
  after : CallsKeep S A K
  waits : ∀ w, I w → E w
  checked : ∀ w, J w → E w
  changed : ∀ w, K w → E w

section Changes

variable {W : Type*}
  {S : Spec RemoteFsAccessConfig RemoteFsError FsOp FsOp.Answer W} {I J K E : W → Prop}
  {X : RemoteFsExternals} {peer : RemoteFsPeer} {grant : RemoteFsGrant} {α : Type}

/-- One invariant may do for all stages. -/
theorem Stages.same {A B C : FsOp → Prop} (h : CallsKeep S C I) (hA : ∀ op, A op → C op)
    (hB : ∀ op, B op → C op) (hE : ∀ w, I w → E w) : Stages S A B I I I E where
  query := h.mono hA
  change op hop := (uses_await op (hB op hop)).keeps h hE
  after := h.mono hA
  waits := hE
  checked := hE
  changed := hE

theorem leads_mapFileSystem {code : Option Int → RemoteFsErrorCode} {p : RemoteFsM α}
    (h : Leads S I J E p) : Leads S I J E (mapFileSystem code p) := by
  refine h.rethrow fun e => ?_
  cases e with
  | fileSystem osCode => exact ⟨_, rfl⟩
  | _ => exact ⟨_, rfl⟩

theorem leads_mapSaf {p : RemoteFsM α} (h : Leads S I J E p) : Leads S I J E (mapSaf p) := by
  refine h.rethrow fun e => ?_
  cases e with
  | platform code => exact ⟨_, rfl⟩
  | _ => exact ⟨_, rfl⟩

theorem leads_require {c : Bool} {code : RemoteFsErrorCode} (h : ∀ w, I w → E w) :
    Leads S I I E (require c code) := by
  unfold require
  split
  · exact leads_pure fun _ hw => hw
  · exact leads_throw h

section LocalChanges

variable (h : Stages S FsOp.IsQuiet FsOp.IsLocalChange I J K E)
include h

theorem leads_createLocalDirectory {parentPath name childPath : String}
    (hcurrent : Leads S I J E (ensureGrantCurrent X peer grant .createDirectory)) :
    Leads S I K E (createLocalDirectory X peer grant parentPath name childPath) := by
  unfold createLocalDirectory
  refine Leads.bind ((uses_quiet uses_resolveNewLocalChild).keeps h.query h.waits) fun target => ?_
  refine Leads.bind ((uses_quiet uses_entityType).keeps h.query h.waits) fun _ => ?_
  refine (leads_require h.waits).bind fun _ => hcurrent.bind fun _ => ?_
  refine (leads_mapFileSystem (h.change (FsOp.create target) trivial)).bind fun _ => ?_
  exact (uses_quiet uses_resolvedEntry).keeps h.after h.changed

theorem leads_renameLocalEntry {sourcePath newName renamedPath : String}
    (hcurrent : Leads S I J E (ensureGrantCurrent X peer grant .rename)) :
    Leads S I K E (renameLocalEntry X peer grant sourcePath newName renamedPath) := by
  unfold renameLocalEntry
  refine Leads.bind ((uses_quiet uses_resolveExistingLocal).keeps h.query h.waits) fun source => ?_
  refine Leads.bind ((uses_quiet uses_resolveNewLocalChild).keeps h.query h.waits)
    fun destination => ?_
  refine Leads.bind ((uses_quiet uses_entityType).keeps h.query h.waits) fun _ => ?_
  refine (leads_require h.waits).bind fun _ => hcurrent.bind fun _ => ?_
  refine (leads_mapFileSystem (h.change (FsOp.rename source.path destination) trivial)).bind
    fun _ => ?_
  exact (uses_quiet uses_resolvedEntry).keeps h.after h.changed

/-- The grants of a move are checked one right after the other. -/
theorem leads_moveLocalEntry {sourceGrant destinationGrant : RemoteFsGrant}
    {sourcePath destinationParentPath newName destinationPath : String} {overwrite : Bool}
    (hcurrent : Leads S I J E (ensureGrantCurrent X peer sourceGrant .move >>= fun _ =>
      ensureGrantCurrent X peer destinationGrant .write)) :
    Leads S I K E (moveLocalEntry X peer sourceGrant destinationGrant sourcePath
      destinationParentPath newName destinationPath overwrite) := by
  unfold moveLocalEntry
  refine Leads.bind ((uses_quiet uses_resolveExistingLocal).keeps h.query h.waits) fun source => ?_
  refine Leads.bind ((uses_quiet uses_resolveNewLocalChild).keeps h.query h.waits)
    fun destination => ?_
  refine (leads_require h.waits).bind fun _ => ?_
  refine Leads.bind ((uses_quiet uses_entityType).keeps h.query h.waits) fun _ => ?_
  refine (leads_require h.waits).bind fun _ => hcurrent.pair fun _ => ?_
  refine (leads_mapFileSystem (h.change (FsOp.rename source.path destination) trivial)).bind
    fun _ => ?_
  exact (uses_quiet uses_resolvedEntry).keeps h.after h.changed

theorem leads_deleteLocalEntry {path : String} {recursive : Bool}
    (hcurrent : Leads S I J E (ensureGrantCurrent X peer grant .delete)) :
    Leads S I K E (deleteLocalEntry X peer grant path recursive) := by
  unfold deleteLocalEntry
  refine Leads.bind ((uses_quiet uses_resolveExistingLocal).keeps h.query h.waits) fun source => ?_
  refine Leads.bind (uses_requireEmpty.keeps h.query h.waits) fun _ => hcurrent.bind fun _ => ?_
  exact leads_mapFileSystem (h.change (FsOp.delete source.path _) trivial)

end LocalChanges

section SafChanges

variable (h : Stages S FsOp.IsSafQuery FsOp.IsSafChange I J K E)
include h

theorem leads_createSafDirectory {parentPath name childPath : String}
    (hcurrent : Leads S I J E (ensureGrantCurrent X peer grant .createDirectory)) :
    Leads S I K E (createSafDirectory X peer grant parentPath name childPath) := by
  unfold createSafDirectory
  refine Leads.bind (uses_resolveSafDocument.keeps h.query h.waits) fun parent => ?_
  refine (leads_require h.waits).bind fun _ => ?_
  refine Leads.bind (uses_safChildExists.keeps h.query h.waits) fun _ => ?_
  refine (leads_require h.waits).bind fun _ => hcurrent.bind fun _ => ?_
  refine leads_mapSaf ((h.change (FsOp.createSafDirectory parent.uri name) trivial).bind ?_)
  exact fun _ => leads_pure fun _ hw => hw

theorem leads_renameSafEntry {sourcePath newName renamedPath : String}
    (hcurrent : Leads S I J E (ensureGrantCurrent X peer grant .rename)) :
    Leads S I K E (renameSafEntry X peer grant sourcePath newName renamedPath) := by
  unfold renameSafEntry
  refine Leads.bind (uses_resolveSafDocument.keeps h.query h.waits) fun source => ?_
  refine Leads.bind (uses_resolveSafDocument.keeps h.query h.waits) fun parent => ?_
  refine Leads.bind (uses_safChildExists.keeps h.query h.waits) fun _ => ?_
  refine (leads_require h.waits).bind fun _ => hcurrent.bind fun _ => ?_
  refine leads_mapSaf ((h.change (FsOp.renameSafDocument source.uri newName) trivial).bind ?_)
  exact fun _ => leads_pure fun _ hw => hw

/-- The check of the current grant is needed only where both grants are for
the same tree; the moved document may be renamed after it. -/
theorem leads_moveSafEntry {sourceGrant destinationGrant : RemoteFsGrant}
    {sourcePath destinationParentPath newName destinationPath : String} {overwrite : Bool}
    (hsource : sourceGrant.id = destinationGrant.id →
      Leads S I J E (ensureGrantCurrent X peer sourceGrant .move))
    (hagain : ∀ {moved : SafDocument} {name uri destination : String},
      Leads S K K E (renameMoved moved name uri destination)) :
    Leads S I K E (moveSafEntry X peer sourceGrant destinationGrant sourcePath
      destinationParentPath newName destinationPath overwrite) := by
  unfold moveSafEntry
  by_cases hsame : (sourceGrant.id = destinationGrant.id &&
      sourceGrant.locator = destinationGrant.locator) = true
  · have hid : sourceGrant.id = destinationGrant.id := by
      simpa using (Bool.and_eq_true ..).mp hsame |>.1
    refine (leads_require h.waits).bind fun _ => ?_
    refine Leads.bind (uses_resolveSafDocument.keeps h.query h.waits) fun source => ?_
    refine Leads.bind (uses_resolveSafDocument.keeps h.query h.waits) fun sourceParent => ?_
    refine Leads.bind (uses_resolveSafDocument.keeps h.query h.waits) fun destinationParent => ?_
    refine Leads.bind (uses_findSafChild.keeps h.query h.waits) fun existing => ?_
    refine (leads_require h.waits).bind fun _ => ?_
    refine Leads.bind (uses_requireNoCollision.keeps h.query h.waits) fun _ => ?_
    refine (hsource hid).bind fun _ => leads_mapSaf ?_
    refine (h.change
      (FsOp.moveSafDocument source.uri sourceParent.uri destinationParent.uri) trivial).bind
      fun moved => ?_
    refine hagain.bind fun _ => ?_
    exact leads_pure fun _ hw => hw
  · rw [Bool.not_eq_true] at hsame
    rw [hsame]
    exact leads_throw h.waits

theorem leads_deleteSafEntry {path : String} {recursive : Bool}
    (hcurrent : Leads S I J E (ensureGrantCurrent X peer grant .delete)) :
    Leads S I K E (deleteSafEntry X peer grant path recursive) := by
  unfold deleteSafEntry
  refine Leads.bind (uses_resolveSafDocument.keeps h.query h.waits) fun target => ?_
  refine Leads.bind (uses_requireEmptySaf.keeps h.query h.waits) fun _ =>
    hcurrent.bind fun _ => ?_
  exact leads_mapSaf (h.change (FsOp.deleteSafDocument target.uri) trivial)

theorem leads_prepareSafWriteTarget {path : String} {overwrite : Bool}
    (hcurrent : Leads S I J E (ensureGrantCurrent X peer grant .write)) :
    Leads S I K E (prepareSafWriteTarget X peer grant path overwrite) := by
  unfold prepareSafWriteTarget validateFileName
  refine (leads_require h.waits).bind fun _ => ?_
  refine Leads.bind (uses_resolveSafDocument.keeps h.query h.waits) fun parent => ?_
  refine (leads_require h.waits).bind fun _ => ?_
  refine Leads.bind (uses_findSafChild.keeps h.query h.waits) fun existing =>
    hcurrent.bind fun _ => ?_
  cases existing with
  | some existing =>
      refine (leads_require h.checked).bind fun _ => (leads_require h.checked).bind fun _ => ?_
      exact h.change (FsOp.openSafDocumentForWriting existing.uri true) trivial
  | none => exact leads_mapSaf (h.change (FsOp.createSafFile parent.uri _ _) trivial)

end SafChanges

end Changes

end FireBoxTransfer
