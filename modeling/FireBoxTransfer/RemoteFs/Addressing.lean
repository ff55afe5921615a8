import FireBoxTransfer.RemoteFs.SafTrees

/-!
# The paths of listed entries

An entry of a list reply is asked for again under its path, with the same
snapshot and the same answers of the providers. The local provider looks it up
as the listing did. The document provider follows the names of the path, and
takes neither more than 256 of them nor one that two documents share.
-/

namespace FireBoxTransfer

open Program

section Replies

variable {X : RemoteFsExternals} {access : RemoteFsAccessConfig}
  {answer : (op : FsOp) → Except RemoteFsError op.Answer} {peer : RemoteFsPeer}
  {rootId path requestId : String} {capability : RemoteFsCapability} {grant : RemoteFsGrant}
  {location : RemoteFsLocation} {entry : RemoteFsEntry}

/-! ## §1  List replies -/

theorem calls_authorizeGrant :
    (authorizeGrant X peer rootId capability).calls access answer = [] := by
  rw [List.eq_nil_iff_forall_not_mem]
  intro op hop
  have hrequire : ∀ {c : Bool} {code : RemoteFsErrorCode},
      op ∉ (require c code).calls access answer := by
    intro c code hmem
    rw [calls_require] at hmem
    cases hmem
  unfold authorizeGrant requireTrustedPeer at hop
  rcases mem_calls_bind hop with hop | ⟨_, -, hop⟩
  · rcases mem_calls_bind hop with hop | ⟨_, -, hop⟩
    · exact hrequire hop
    · rcases mem_calls_bind hop with hop | ⟨_, -, hop⟩
      · cases hop
      · exact hrequire hop
  · rcases mem_calls_bind hop with hop | ⟨_, -, hop⟩
    · cases hop
    · split at hop
      · rcases mem_calls_bind hop with hop | ⟨_, -, hop⟩
        · exact hrequire hop
        · rcases mem_calls_bind hop with hop | ⟨_, -, hop⟩
          · exact hrequire hop
          · cases hop
      · cases hop

theorem allowed_of_run
    (h : (authorizeGrant X peer rootId capability).run access answer = .ok grant) :
    Allowed X access peer rootId capability grant := by
  unfold authorizeGrant requireTrustedPeer at h
  obtain ⟨_, htrusted, h⟩ := run_bind_eq_ok.mp h
  obtain ⟨_, hknown, htrusted⟩ := run_bind_eq_ok.mp htrusted
  obtain ⟨_, hget, htrusted⟩ := run_bind_eq_ok.mp htrusted
  obtain rfl := Except.ok.inj hget
  obtain ⟨_, hget, h⟩ := run_bind_eq_ok.mp h
  obtain rfl := Except.ok.inj hget
  split at h
  · rename_i only honly
    obtain ⟨_, hvalid, h⟩ := run_bind_eq_ok.mp h
    obtain ⟨_, hwritable, h⟩ := run_bind_eq_ok.mp h
    obtain rfl := Except.ok.inj h
    exact ⟨of_decide_eq_true (run_require_eq_ok.mp hknown),
      by simpa using run_require_eq_ok.mp htrusted, honly, run_require_eq_ok.mp hvalid,
      run_require_eq_ok.mp hwritable⟩
  · cases h

/-- A page comes from a listing that the peer was allowed. -/
theorem listed_of_reply {cursor : Option String} {limit : ℕ} {page : RemoteFsListResponse}
    (h : firstReply X access answer ⟨requestId, peer, .list location cursor limit⟩ =
      some (.list page)) :
    ∃ grant entries, Allowed X access peer location.rootId .browse grant ∧
      (listDirectoryOf X grant location.path).run access answer = .ok entries ∧
      ∀ entry ∈ page.entries, entry ∈ entries := by
  obtain ⟨op, hop, hreply⟩ := List.exists_of_findSome?_eq_some h
  obtain ⟨replyId, rfl⟩ : ∃ replyId, op = .respond replyId (.list page) := by
    cases op <;> cases hreply
    exact ⟨_, rfl⟩
  have hquiet : ∀ {α : Type} {p : RemoteFsM α}, p.Uses (fun op => op.reply? = none) →
      FsOp.respond replyId (.list page) ∉ p.calls access answer := by
    intro α p hp hmem
    cases hp.calls _ hmem
  unfold handleRemoteFsEvent at hop
  rw [calls_catching, List.mem_append] at hop
  rcases hop with hop | hop
  · change _ ∈ (respondRemoteFsList X requestId peer location cursor limit).calls _ _ at hop
    unfold respondRemoteFsList at hop
    rcases mem_calls_bind hop with hop | ⟨grant, hgrant, hop⟩
    · rw [calls_authorizeGrant] at hop
      cases hop
    rcases mem_calls_bind hop with hop | ⟨_, -, hop⟩
    · exact (hquiet uses_validateRelativePath hop).elim
    change _ ∈ (listDirectoryOf X grant location.path >>= _).calls _ _ at hop
    rcases mem_calls_bind hop with hop | ⟨entries, hentries, hop⟩
    · refine (hquiet (uses_listDirectoryOf.mono fun op hop => ?_) hop).elim
      cases op <;> first | rfl | exact (hop.elim id id).elim
    rcases mem_calls_bind hop with hop | ⟨offset, -, hop⟩
    · exact (hquiet uses_decodeListCursor hop).elim
    rcases mem_calls_bind hop with hop | ⟨_, -, hop⟩
    · exact (hquiet uses_require hop).elim
    rcases mem_calls_bind hop with hop | ⟨_, -, hop⟩
    · unfold ensureGrantCurrent at hop
      rcases mem_calls_bind hop with hop | ⟨_, -, hop⟩
      · rw [calls_authorizeGrant] at hop
        cases hop
      · exact (hquiet uses_require hop).elim
    unfold respond at hop
    rw [calls_await, List.mem_singleton] at hop
    obtain rfl := RemoteFsReply.list.inj (FsOp.respond.inj hop).2
    refine ⟨grant, entries, allowed_of_run hgrant, hentries, fun entry hentry => ?_⟩
    have hmem := List.mem_of_mem_take (List.mem_of_mem_drop hentry)
    exact (List.mergeSort_perm entries _).mem_iff.mp hmem
  · split at hop
    · cases hop
    · rw [calls_catching, List.mem_append] at hop
      unfold respond at hop
      rw [calls_await] at hop
      rcases hop with hop | hop
      · cases List.mem_singleton.mp hop
      · split at hop
        · cases hop
        · cases hop

/-! ## §2  Metadata replies -/

/-- The entry of a path by the provider of its root. -/
def entryForPathOf (X : RemoteFsExternals) (grant : RemoteFsGrant) (path : String) :
    RemoteFsM RemoteFsEntry :=
  match grant.kind with
  | .localPath => localEntryForPath X grant path
  | .androidSaf => safEntryForPath X grant path

theorem uses_entryForPathOf :
    (entryForPathOf X grant path).Uses fun op => op.reply? = none := by
  unfold entryForPathOf
  split
  · refine (uses_resolvedEntry : (resolvedEntry X grant path).Uses _).mono fun op hop => ?_
    cases op <;> first | rfl | exact hop.elim
  · refine uses_safEntryForPath.mono fun op hop => ?_
    cases op <;> first | rfl | exact hop.elim

/-- **The reply to a metadata request** is the entry, or the error of looking
it up. -/
theorem firstReply_metadata (hallowed : Allowed X access peer location.rootId .browse grant)
    (hpath : validRelativePath location.path = true) (hne : location.path ≠ "") :
    firstReply X access answer ⟨requestId, peer, .metadata location⟩ =
      some (match (entryForPathOf X grant location.path).run access answer with
        | .ok entry => .entry entry
        | .error e => .error (remoteFsErrorCode e)) := by
  have hvalid : (validateRelativePath location.path).run access answer = .ok () :=
    run_require_eq_ok.mpr hpath
  have hrequire : (requireEntryPath location.path).run access answer = .ok () :=
    (run_bind_ok hvalid).trans (run_require_eq_ok.mpr (decide_eq_true hne))
  have hcalls : (requireEntryPath location.path).calls access answer = [] := by
    unfold requireEntryPath
    rw [calls_bind_ok hvalid, calls_require]
    unfold validateRelativePath
    rw [calls_require]
    rfl
  have hquiet : ((entryForPathOf X grant location.path).calls access answer).findSome?
      FsOp.reply? = none :=
    List.findSome?_eq_none_iff.mpr fun op hop => uses_entryForPathOf.calls op hop
  have hstart : (respondRemoteFsMetadata X requestId peer location).calls access answer =
      (entryForPathOf X grant location.path >>= fun entry => do
        ensureGrantCurrent X peer grant .browse
        respond requestId (.entry entry)).calls access answer := by
    unfold respondRemoteFsMetadata
    rw [calls_bind_ok hallowed.run_authorize, hallowed.calls_authorize, calls_bind_ok hrequire,
      hcalls]
    rfl
  have hrun : (respondRemoteFsMetadata X requestId peer location).run access answer =
      (entryForPathOf X grant location.path >>= fun entry => do
        ensureGrantCurrent X peer grant .browse
        respond requestId (.entry entry)).run access answer := by
    unfold respondRemoteFsMetadata
    rw [run_bind_ok hallowed.run_authorize, run_bind_ok hrequire]
    rfl
  unfold firstReply handleRemoteFsEvent
  have hhandler : respondRemoteFs X ⟨requestId, peer, .metadata location⟩ =
    respondRemoteFsMetadata X requestId peer location := rfl
  rw [calls_catching, hhandler, hstart, hrun]
  cases hentry : (entryForPathOf X grant location.path).run access answer with
  | ok entry =>
      rw [calls_bind_ok hentry, calls_bind_ok hallowed.run_ensureCurrent,
        hallowed.calls_ensureCurrent, List.nil_append, List.append_assoc, List.findSome?_append,
        hquiet]
      unfold respond
      rw [calls_await]
      rfl
  | error e =>
      have herror : (entryForPathOf X grant location.path >>= fun entry => do
          ensureGrantCurrent X peer grant .browse
          respond requestId (.entry entry)).run access answer = .error e := by
        rw [run_bind, hentry]
        rfl
      rw [calls_bind_error hentry, herror, List.findSome?_append, hquiet]
      dsimp only
      rw [calls_catching]
      unfold respond
      rw [calls_await]
      rfl

/-! ## §3  Local entries -/

/-- An entity adds the entry of its path, or nothing. -/
theorem entry_of_listLocalEntity {entity : String} {found : List RemoteFsEntry}
    (hrun : (listLocalEntity X grant path [] entity).run access answer = .ok found)
    (hentry : entry ∈ found) :
    ∃ name, validFileName name = true ∧ validRelativePath (childRemotePath path name) = true ∧
      (resolvedEntry X grant (childRemotePath path name)).run access answer = .ok entry := by
  unfold listLocalEntity at hrun
  obtain ⟨type, -, hrun⟩ := run_bind_eq_ok.mp hrun
  dsimp only at hrun
  split at hrun
  · obtain rfl := Except.ok.inj hrun
    cases hentry
  · rename_i hkept
    simp only [Bool.or_eq_true, not_or, Bool.not_eq_true, Bool.not_eq_false'] at hkept
    rw [run_catching] at hrun
    split at hrun
    · rename_i entries hentries
      obtain ⟨e, he, hpure⟩ := run_bind_eq_ok.mp hentries
      obtain rfl := Except.ok.inj hrun
      obtain rfl := Except.ok.inj hpure
      obtain rfl := List.mem_singleton.mp hentry
      exact ⟨_, hkept.1.2, hkept.2, he⟩
    · split at hrun
      · obtain rfl := Except.ok.inj hrun
        cases hentry
      · obtain rfl := Except.ok.inj hrun
        cases hentry
      · cases hrun

theorem path_of_resolvedEntry {relativePath : String}
    (hrun : (resolvedEntry X grant relativePath).run access answer = .ok entry) :
    entry.path = relativePath := by
  unfold resolvedEntry localEntry at hrun
  obtain ⟨resolved, -, hrun⟩ := run_bind_eq_ok.mp hrun
  obtain ⟨stat, -, hrun⟩ := run_bind_eq_ok.mp hrun
  obtain ⟨_, -, hrun⟩ := run_bind_eq_ok.mp hrun
  obtain ⟨_, -, hrun⟩ := run_bind_eq_ok.mp hrun
  obtain rfl := Except.ok.inj hrun
  rfl

theorem childRemotePath_ne_empty {name : String} (hname : validFileName name = true) :
    childRemotePath path name ≠ "" := by
  intro heq
  have hsegments : segments (childRemotePath path name) = segments path ++ [name] :=
    segments_child hname
  rw [heq] at hsegments
  exact absurd hsegments (by simp [segments])

/-- The local provider finds a listed entry as the listing did. -/
theorem local_entry_addressed {entries : List RemoteFsEntry}
    (hlist : (listLocalDirectory X grant path).run access answer = .ok entries)
    (hentry : entry ∈ entries) :
    validRelativePath entry.path = true ∧ entry.path ≠ "" ∧
      (localEntryForPath X grant entry.path).run access answer = .ok entry := by
  unfold listLocalDirectory at hlist
  obtain ⟨resolved, -, hlist⟩ := run_bind_eq_ok.mp hlist
  obtain ⟨_, -, hlist⟩ := run_bind_eq_ok.mp hlist
  obtain ⟨entities, -, hlist⟩ := run_bind_eq_ok.mp (run_mapFileSystem_eq_ok.mp hlist)
  rw [run_listLocalEntities] at hlist
  obtain ⟨hall, rfl⟩ := foldlM_collect.mp hlist
  rw [List.nil_append] at hentry
  obtain ⟨entity, hentity, hfound⟩ := List.mem_flatMap.mp hentry
  obtain ⟨found, hrun⟩ := hall entity hentity
  rw [hrun] at hfound
  obtain ⟨name, hname, hvalid, hresolved⟩ := entry_of_listLocalEntity hrun hfound
  have hpath := path_of_resolvedEntry hresolved
  rw [hpath]
  exact ⟨hvalid, childRemotePath_ne_empty hname, hresolved⟩

/-! ## §4  Entries of document trees -/

/-- The operations on document trees are answered by the platform. -/
structure AnsweredBy (P : SafPlatform)
    (answer : (op : FsOp) → Except RemoteFsError op.Answer) : Prop where
  resolve : ∀ rootUri relativePath, answer (.resolveSafRelativePath rootUri relativePath) =
    handleSafResolvePath P rootUri relativePath
  list : ∀ directoryUri, answer (.listSafDirectory directoryUri) =
    handleSafListDirectory P directoryUri

theorem run_mapSaf_platform {α : Type} {p : RemoteFsM α} {code : String}
    (h : p.run access answer = .error (.platform code)) :
    (mapSaf p).run access answer = .error (.failure (mapSafException code)) := by
  unfold mapSaf
  rw [run_catching, h]
  rfl

variable {P : SafPlatform}

/-- What the platform says of a path is what the peer gets. -/
theorem run_safEntryForPath (hpath : validRelativePath path = true) :
    (safEntryForPath X grant path).run access answer =
      ((mapSaf (await (FsOp.resolveSafRelativePath grant.locator path))).run access answer).map
        fun document => safEntry X document path grant := by
  have hvalid : (validateRelativePath path).run access answer = .ok () :=
    run_require_eq_ok.mpr hpath
  unfold safEntryForPath resolveSafDocument
  rw [run_bind, run_bind_ok hvalid]
  cases (mapSaf (await (FsOp.resolveSafRelativePath grant.locator path))).run access answer <;> rfl

/-- A listing of a document tree comes from a directory that the platform
found and listed. -/
theorem directory_of_listSafDirectory (hP : P.StaticTree) (hanswer : AnsweredBy P answer)
    {entries : List RemoteFsEntry}
    (hlist : (listSafDirectory X grant path).run access answer = .ok entries) :
    ∃ documents root current rows,
      ListedDirectory P grant.locator path documents root current rows ∧
        ∀ entry ∈ entries, ∃ document ∈ documents, validFileName document.name = true ∧
          validRelativePath (childRemotePath path document.name) = true ∧
          entry = safEntry X document (childRemotePath path document.name) grant := by
  unfold listSafDirectory resolveSafDocument at hlist
  obtain ⟨directory, hdirectory, hlist⟩ := run_bind_eq_ok.mp hlist
  obtain ⟨_, hpath, hdirectory⟩ := run_bind_eq_ok.mp hdirectory
  obtain ⟨_, -, hlist⟩ := run_bind_eq_ok.mp hlist
  obtain ⟨documents, hdocuments, hlist⟩ := run_bind_eq_ok.mp (run_mapSaf_eq_ok.mp hlist)
  rw [run_mapSaf_eq_ok, run_await, hanswer.resolve] at hdirectory
  rw [run_await, hanswer.list] at hdocuments
  obtain ⟨root, current, rows, hlisted⟩ :=
    exists_listedDirectory hP (run_require_eq_ok.mp hpath) hdirectory hdocuments
  refine ⟨documents, root, current, rows, hlisted, fun entry hentry => ?_⟩
  obtain rfl := Except.ok.inj hlist
  obtain ⟨document, hdocument, rfl⟩ := List.mem_map.mp hentry
  obtain ⟨hmem, hkept⟩ := List.mem_filter.mp hdocument
  obtain ⟨hname, hvalid⟩ := (Bool.and_eq_true ..).mp hkept
  exact ⟨document, hmem, hname, hvalid, rfl⟩

/-- The document provider finds a listed entry if its path is not too deep and
no other document has its name; else it says which of the two it is. -/
theorem saf_entry_addressed (hP : P.StaticTree) (hanswer : AnsweredBy P answer)
    {documents : List SafDocument} {root current : GrantedSafDocument} {rows : List SafRow}
    (hlisted : ListedDirectory P grant.locator path documents root current rows)
    (hnames : ∀ row ∈ rows, row.displayName ≠ none) {document : SafDocument}
    (hdocument : document ∈ documents) (hname : validFileName document.name = true)
    (hchild : validRelativePath (childRemotePath path document.name) = true) :
    (safEntryForPath X grant (childRemotePath path document.name)).run access answer =
      if 256 < (segments (childRemotePath path document.name)).length then
        .error (.failure .invalidPath)
      else if (rows.filter (named document.name)).length = 1 then
        .ok (safEntry X document (childRemotePath path document.name) grant)
      else .error (.failure .conflict) := by
  have hresolve := hlisted.resolve_child hP hdocument hname hchild hnames
  have hrun : (await (FsOp.resolveSafRelativePath grant.locator
      (childRemotePath path document.name)) : RemoteFsM SafDocument).run access answer = _ :=
    (run_await _).trans ((hanswer.resolve _ _).trans hresolve)
  rw [run_safEntryForPath hchild]
  split_ifs at hrun ⊢ with hdeep hunique
  · rw [run_mapSaf_platform hrun]
    rfl
  · rw [run_mapSaf_eq_ok.mpr hrun]
    rfl
  · rw [run_mapSaf_platform hrun]
    rfl

/-- What a metadata request for an entry of a list reply is answered with. In a
tree the directory is the one to which the platform's own steps lead from the
root that the grant names; if it has nameless documents nothing is said. -/
structure Addressed (X : RemoteFsExternals) (P : SafPlatform) (access : RemoteFsAccessConfig)
    (answer : (op : FsOp) → Except RemoteFsError op.Answer) (peer : RemoteFsPeer)
    (location : RemoteFsLocation) (entry : RemoteFsEntry) (grant : RemoteFsGrant) : Prop where
  isShared : matchingGrants access location.rootId = [grant]
  localPath : grant.kind = .localPath → ∀ requestId,
    firstReply X access answer ⟨requestId, peer, .metadata ⟨location.rootId, entry.path⟩⟩ =
      some (.entry entry)
  androidSaf : grant.kind = .androidSaf → ∃ root directory rows,
    RootGranted P grant.locator root ∧
      (segments location.path).foldlM (resolveSegment P) root = .ok directory ∧
      P.At root.treeUri (segments location.path) directory.documentUri ∧
      P.queryChildren directory.documentUri = .ok (some rows) ∧
      ((∀ row ∈ rows, row.displayName ≠ none) → ∀ requestId,
        firstReply X access answer ⟨requestId, peer, .metadata ⟨location.rootId, entry.path⟩⟩ =
          some (if 256 < (segments entry.path).length then .error .invalidPath
            else if (rows.filter (named entry.name)).length = 1 then .entry entry
            else .error .conflict))

/-- **A listed entry is addressed by its path**, on the local provider always,
in a document tree up to a depth and unless two documents share the name. -/
theorem listed_entry_addressed (hP : P.StaticTree) (hanswer : AnsweredBy P answer)
    {cursor : Option String} {limit : ℕ} {page : RemoteFsListResponse}
    (hlist : firstReply X access answer ⟨requestId, peer, .list location cursor limit⟩ =
      some (.list page)) (hentry : entry ∈ page.entries) :
    ∃ grant, Addressed X P access answer peer location entry grant := by
  obtain ⟨grant, entries, hallowed, hrun, hmem⟩ := listed_of_reply hlist
  have hentry := hmem entry hentry
  refine ⟨grant, hallowed.unique, fun hkind requestId => ?_, fun hkind => ?_⟩
  · unfold listDirectoryOf at hrun
    rw [hkind] at hrun
    obtain ⟨hvalid, hne, hfound⟩ := local_entry_addressed hrun hentry
    have hallowed' : Allowed X access peer
        (⟨location.rootId, entry.path⟩ : RemoteFsLocation).rootId .browse grant := hallowed
    rw [firstReply_metadata hallowed' hvalid hne]
    unfold entryForPathOf
    rw [hkind]
    dsimp only
    rw [hfound]
  · unfold listDirectoryOf at hrun
    rw [hkind] at hrun
    obtain ⟨documents, root, current, rows, hlisted, hdocuments⟩ :=
      directory_of_listSafDirectory hP hanswer hrun
    obtain ⟨document, hdocument, hname, hchild, rfl⟩ := hdocuments entry hentry
    obtain ⟨-, hrows⟩ := childRows_eq_ok.mp hlisted.listed
    refine ⟨root, current, rows, hlisted.granted, hlisted.found, hlisted.position, hrows,
      fun hnames requestId => ?_⟩
    have hallowed' : Allowed X access peer (⟨location.rootId, childRemotePath location.path
        document.name⟩ : RemoteFsLocation).rootId .browse grant := hallowed
    have hentryName : (safEntry X document (childRemotePath location.path document.name)
        grant).name = document.name := basenameRemotePath_child hname
    rw [hentryName]
    change firstReply _ _ _ ⟨_, _, .metadata ⟨_, childRemotePath location.path document.name⟩⟩ =
      some (if 256 < (segments (childRemotePath location.path document.name)).length then _ else _)
    rw [firstReply_metadata hallowed' hchild (childRemotePath_ne_empty hname)]
    unfold entryForPathOf
    rw [hkind]
    dsimp only
    rw [saf_entry_addressed hP hanswer hlisted hnames hdocument hname hchild]
    split_ifs <;> rfl

end Replies

/-! ## §5  Two documents of one name -/

namespace Sample

def docsTree : SafUri := ⟨"docs", some "root", none⟩

/-- A row of the sample tree. -/
def docsRow (id name mimeType : String) : SafRow :=
  ⟨some id, some name, some mimeType, none, none, none⟩

/-- The root holds two documents of one name and one of another. -/
def docsRows : List SafRow :=
  [docsRow "1" "a.txt" "text/plain", docsRow "2" "a.txt" "text/plain",
    docsRow "3" "b.txt" "text/plain"]

def docsUri : SafUri → String
  | ⟨authority, treeId, none⟩ => "content://" ++ authority ++ "/tree/" ++ treeId.getD ""
  | ⟨authority, treeId, some id⟩ =>
      "content://" ++ authority ++ "/tree/" ++ treeId.getD "" ++ "/document/" ++ id

/-- A provider of one tree, which the user shared. -/
def docsPlatform : SafPlatform where
  parse value :=
    if value = "content://docs/tree/root" then some docsTree
    else ["root", "1", "2", "3"].findSome? fun id =>
      let uri := docsTree.buildDocumentUriUsingTree id
      if value = docsUri uri then some uri else none
  render := docsUri
  isBlank value := value.toList.all (· = ' ')
  sharedRoots := ["content://docs/tree/root"]
  persistedUriPermissions := [⟨docsTree, true, true⟩]
  checksAncestry := true
  isChildDocument _ uri := .ok (uri.getDocumentId ∈ ["1", "2", "3"])
  query uri := .ok (some (if uri.getDocumentId = "root" then
      [docsRow "root" "Documents" "vnd.android.document/directory"]
    else docsRows.filter fun row => row.documentId = uri.documentId))
  queryChildren uri := .ok (some (if uri.getDocumentId = "root" then docsRows else []))

theorem registered_docs : registeredSharedRootUris docsPlatform = [docsTree] := by
  decide +kernel

/-- Only the root has children. -/
theorem children_docs {directory : SafUri} {rows : List SafRow} {row : SafRow} {id : String}
    (hrows : docsPlatform.queryChildren directory = .ok (some rows)) (hrow : row ∈ rows)
    (hid : row.documentId = some id) : row ∈ docsRows ∧ id ∈ ["1", "2", "3"] := by
  change Except.ok (some (ite _ docsRows [])) = _ at hrows
  split_ifs at hrows
  · obtain rfl := Option.some.inj (Except.ok.inj hrows)
    have hids : ∀ row ∈ docsRows, ∀ id ∈ row.documentId, id ∈ ["1", "2", "3"] := by decide
    exact ⟨hrow, hids row hrow id hid⟩
  · obtain rfl := Option.some.inj (Except.ok.inj hrows)
    cases hrow

theorem document_docs {uri : SafUri} (h : docsPlatform.Document docsTree uri) :
    ∃ id ∈ ["root", "1", "2", "3"], uri = docsTree.buildDocumentUriUsingTree id := by
  cases h with
  | root => exact ⟨"root", List.mem_cons_self, rfl⟩
  | child hdirectory hrows hrow hid =>
      exact ⟨_, List.mem_cons_of_mem _ (children_docs hrows hrow hid).2, rfl⟩

theorem static_docs : docsPlatform.StaticTree where
  parse_render tree uri htree huri := by
    have hall : ∀ id ∈ ["root", "1", "2", "3"],
        docsPlatform.parse (docsPlatform.render (docsTree.buildDocumentUriUsingTree id)) =
          some (docsTree.buildDocumentUriUsingTree id) := by
      decide +kernel
    rw [registered_docs] at htree
    obtain rfl := List.mem_singleton.mp htree
    obtain ⟨id, hid, rfl⟩ := document_docs huri
    exact hall id hid
  inside tree uri htree huri hne := by
    have hall : ∀ id ∈ ["root", "1", "2", "3"],
        (docsTree.buildDocumentUriUsingTree id).getDocumentId ≠ docsTree.getTreeDocumentId →
        docsPlatform.isChildDocument (rootUri docsTree) (docsTree.buildDocumentUriUsingTree id) =
          .ok true := by decide
    rw [registered_docs] at htree
    obtain rfl := List.mem_singleton.mp htree
    obtain ⟨id, hid, rfl⟩ := document_docs huri
    exact hall id hid hne
  same_row tree directory rows row id htree hdirectory hrows hrow hid := by
    have hall : ∀ row ∈ docsRows, ∀ id ∈ row.documentId, docsPlatform.query
        (docsTree.buildDocumentUriUsingTree id) = .ok (some [row]) := by decide
    rw [registered_docs] at htree
    obtain rfl := List.mem_singleton.mp htree
    exact ⟨[], hall row (children_docs hrows hrow hid).1 id hid⟩

def docsAccess : RemoteFsAccessConfig where
  trustedFingerprints := ["AA"]
  grants := [⟨"docs", "Documents", .androidSaf, "content://docs/tree/root", false⟩]

def docsAnswer : (op : FsOp) → Except RemoteFsError op.Answer
  | .resolveSafRelativePath rootUri relativePath =>
      handleSafResolvePath docsPlatform rootUri relativePath
  | .listSafDirectory directoryUri => handleSafListDirectory docsPlatform directoryUri
  | _ => .error .other

theorem answered_docs : AnsweredBy docsPlatform docsAnswer where
  resolve _ _ := rfl
  list _ := rfl

/-- A document of the sample tree as it is listed. -/
def docsEntry (name : String) : RemoteFsEntry :=
  ⟨name, name, .file, none, none, some "text/plain", [.read]⟩

/-- The first page of the sample tree shows all three documents. -/
theorem reply_docs : ∃ page, firstReply remoteFsExternals docsAccess docsAnswer
    ⟨"1", docsPeer, .list ⟨"docs", ""⟩ none 500⟩ = some (.list page) ∧
    ∀ entry ∈ [docsEntry "a.txt", docsEntry "a.txt", docsEntry "b.txt"],
      entry ∈ page.entries := by
  have hallowed : Allowed remoteFsExternals docsAccess docsPeer docsPage.location.rootId .browse
      ⟨"docs", "Documents", .androidSaf, "content://docs/tree/root", false⟩ :=
    ⟨by decide, by decide, by decide, by decide +kernel, by decide⟩
  have hlist : (listDirectoryOf remoteFsExternals
      ⟨"docs", "Documents", .androidSaf, "content://docs/tree/root", false⟩
      docsPage.location.path).run docsAccess docsAnswer =
      .ok [docsEntry "a.txt", docsEntry "a.txt", docsEntry "b.txt"] := by decide +kernel
  refine ⟨_, firstReply_list hallowed (by decide) hlist rfl (by decide), fun entry hentry => ?_⟩
  change entry ∈ pageOf _ _ _
  rw [pageOf_eq_sortedEntries rfl (by decide)]
  exact sortedEntries_perm.mem_iff.mpr hentry

end Sample

/-- A document whose name is its own is addressed. -/
theorem listed_entry_addressed_alone : ∃ page grant,
    firstReply Sample.remoteFsExternals Sample.docsAccess Sample.docsAnswer
      ⟨"1", Sample.docsPeer, .list ⟨"docs", ""⟩ none 500⟩ = some (.list page) ∧
    Sample.docsEntry "b.txt" ∈ page.entries ∧
    Addressed Sample.remoteFsExternals Sample.docsPlatform Sample.docsAccess Sample.docsAnswer
      Sample.docsPeer ⟨"docs", ""⟩ (Sample.docsEntry "b.txt") grant := by
  obtain ⟨page, hpage, hentries⟩ := Sample.reply_docs
  have hentry := hentries (Sample.docsEntry "b.txt") (by simp)
  obtain ⟨grant, hgrant⟩ :=
    listed_entry_addressed Sample.static_docs Sample.answered_docs hpage hentry
  exact ⟨page, grant, hpage, hentry, hgrant⟩

/-- One of two documents of the same name is listed, and its path is refused. -/
theorem listed_entry_ambiguous : ∃ page,
    Sample.docsPlatform.StaticTree ∧ AnsweredBy Sample.docsPlatform Sample.docsAnswer ∧
    firstReply Sample.remoteFsExternals Sample.docsAccess Sample.docsAnswer
      ⟨"1", Sample.docsPeer, .list ⟨"docs", ""⟩ none 500⟩ = some (.list page) ∧
    Sample.docsEntry "a.txt" ∈ page.entries ∧
    firstReply Sample.remoteFsExternals Sample.docsAccess Sample.docsAnswer
      ⟨"2", Sample.docsPeer, .metadata ⟨"docs", (Sample.docsEntry "a.txt").path⟩⟩ =
      some (.error .conflict) := by
  obtain ⟨page, hpage, hentries⟩ := Sample.reply_docs
  exact ⟨page, Sample.static_docs, Sample.answered_docs, hpage,
    hentries (Sample.docsEntry "a.txt") (by simp), by decide +kernel⟩

end FireBoxTransfer
