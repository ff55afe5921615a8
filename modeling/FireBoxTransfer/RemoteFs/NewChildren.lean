import FireBoxTransfer.RemoteFs.Confinement
import FireBoxTransfer.RemoteFs.Serving
import FireBoxTransfer.RemoteFs.Validators

/-!
# New entries in listed directories

A directory is listed when what it resolves to lies inside what the root
resolves to. For a new entry in it the resolved root is compared with the path
as it is written, so that a link above the root makes the two disagree.
-/

namespace FireBoxTransfer

open Program FileTree

/-! ## §1  What the resolvers return -/

/-- The path that a relative path stands for below the root as it was chosen. -/
def writtenPath (X : RemoteFsExternals) (grant : RemoteFsGrant) (relativePath : String) : String :=
  if relativePath = "" then localRoot X grant
  else X.path.normalize (X.path.joinAll (localRoot X grant :: splitSlash relativePath))

def writtenChild (X : RemoteFsExternals) (grant : RemoteFsGrant) (parentPath name : String) :
    String :=
  X.path.normalize (X.path.joinAll [writtenPath X grant parentPath, name])

section Run

variable {X : RemoteFsExternals} {t : FileTree} {access : RemoteFsAccessConfig}
  {answer : (op : FsOp) → Except RemoteFsError op.Answer} {grant : RemoteFsGrant}
  {relativePath : String}

/-- The root is resolved by two answers. -/
theorem run_resolveLocalRoot {resolved : String}
    (hrun : (resolveLocalRoot X grant).run access answer = .ok resolved) :
    ∃ links, answer (.resolveSymbolicLinks (localRoot X grant)) = .ok links ∧
      resolved = X.path.normalize links := by
  unfold resolveLocalRoot at hrun
  obtain ⟨type, -, hrun⟩ := run_bind_eq_ok.mp hrun
  obtain ⟨_, -, hrun⟩ := run_bind_eq_ok.mp hrun
  obtain ⟨_, -, hrun⟩ := run_bind_eq_ok.mp hrun
  obtain ⟨links, hlinks, hrun⟩ := run_bind_eq_ok.mp hrun
  rw [run_mapFileSystem_eq_ok, resolveSymbolicLinks, run_await] at hlinks
  exact ⟨links, hlinks, (Except.ok.inj hrun).symm⟩

theorem resolves_of_run (hanswer : ∀ op, Honest X t op (answer op)) {resolved : String}
    (hrun : (resolveLocalRoot X grant).run access answer = .ok resolved) :
    X.path.Normal resolved ∧
      t.Resolves [] (X.path.split (localRoot X grant)) (X.path.split resolved) := by
  obtain ⟨links, hlinks, rfl⟩ := run_resolveLocalRoot hrun
  have hhonest := hanswer (.resolveSymbolicLinks (localRoot X grant))
  rw [hlinks] at hhonest
  obtain ⟨hnormal, hresolves⟩ : X.path.Normal links ∧ _ := hhonest
  rw [hnormal.2]
  exact ⟨hnormal, hresolves⟩

/-- An existing entry is returned under its written path. -/
theorem written_of_run {r : ResolvedLocalPath}
    (hrun : (resolveExistingLocal X grant relativePath).run access answer = .ok r) :
    (∃ root, (resolveLocalRoot X grant).run access answer = .ok root) ∧
      validRelativePath relativePath = true ∧ r.path = writtenPath X grant relativePath := by
  unfold resolveExistingLocal at hrun
  obtain ⟨root, hroot, hrun⟩ := run_bind_eq_ok.mp hrun
  obtain ⟨candidate, hcandidate, hrun⟩ := run_bind_eq_ok.mp hrun
  obtain ⟨type, -, hrun⟩ := run_bind_eq_ok.mp hrun
  obtain ⟨_, -, hrun⟩ := run_bind_eq_ok.mp hrun
  obtain ⟨_, -, hrun⟩ := run_bind_eq_ok.mp hrun
  obtain ⟨_, -, hrun⟩ := run_bind_eq_ok.mp hrun
  obtain ⟨links, -, hrun⟩ := run_bind_eq_ok.mp hrun
  obtain ⟨_, -, hrun⟩ := run_bind_eq_ok.mp hrun
  obtain rfl := Except.ok.inj hrun
  unfold lexicalLocalPath validateRelativePath at hcandidate
  obtain ⟨_, hvalid, hcandidate⟩ := run_bind_eq_ok.mp hcandidate
  obtain ⟨_, -, hcandidate⟩ := run_bind_eq_ok.mp hcandidate
  exact ⟨⟨root, hroot⟩, run_require_eq_ok.mp hvalid, (Except.ok.inj hcandidate).symm⟩

/-- What is listed is a directory that the resolver accepts. -/
theorem directory_of_listed {entries : List RemoteFsEntry}
    (hlist : (listLocalDirectory X grant relativePath).run access answer = .ok entries) :
    ∃ r, (resolveExistingLocal X grant relativePath).run access answer = .ok r ∧
      r.type = .directory := by
  unfold listLocalDirectory at hlist
  obtain ⟨r, hr, hlist⟩ := run_bind_eq_ok.mp hlist
  obtain ⟨_, hdirectory, -⟩ := run_bind_eq_ok.mp hlist
  exact ⟨r, hr, of_decide_eq_true (run_require_eq_ok.mp hdirectory)⟩

/-! ## §2  Where a new entry is accepted -/

theorem normal_writtenPath (hX : X.path.Lawful X.fold)
    (hvalid : validRelativePath relativePath = true) :
    X.path.Normal (writtenPath X grant relativePath) ∧
      X.path.split (writtenPath X grant relativePath) =
        X.path.split (localRoot X grant) ++ segments relativePath := by
  have hroot := normal_localRoot hX grant
  unfold writtenPath segments
  split_ifs with hempty
  · exact ⟨hroot, (List.append_nil _).symm⟩
  · have hnames : ∀ c ∈ splitSlash relativePath, PathContext.FileName c :=
      fun c => fileName_of_mem hvalid hempty
    exact ⟨hX.normal_join _ _ hroot hnames, hX.split_join _ _ hroot hnames⟩

/-- The comparisons decide whether one path lies inside the other. -/
theorem compare_iff_inside (hX : X.path.Exact X.fold) {a b : String} (ha : X.path.Normal a)
    (hb : X.path.Normal b) :
    (sameLocalPath X a b || isWithinLocalPath X a b) = true ↔
      Inside X.fold (X.path.split a) (X.path.split b) := by
  constructor
  · exact inside_of_compare hX.toLawful ha hb
  · intro hinside
    rw [Bool.or_eq_true]
    by_cases heq : (X.path.split a).map X.fold = (X.path.split b).map X.fold
    · exact .inl (hX.equals_complete a b ha hb heq)
    · exact .inr (hX.isWithin_complete a b ha hb hinside heq)

/-- After a listing only the comparison of the written path with the resolved
root is left to fail. -/
theorem run_resolveNewLocalChild {name : String} {entries : List RemoteFsEntry}
    (hlist : (listLocalDirectory X grant relativePath).run access answer = .ok entries)
    (hname : validFileName name = true)
    (hnew : answer (.entityType (writtenChild X grant relativePath name)) = .ok .notFound)
    {root : String} (hroot : (resolveLocalRoot X grant).run access answer = .ok root) :
    (resolveNewLocalChild X grant relativePath name).run access answer =
      if (sameLocalPath X root (writtenChild X grant relativePath name) ||
        isWithinLocalPath X root (writtenChild X grant relativePath name)) = true then
        .ok (writtenChild X grant relativePath name)
      else .error (.failure .invalidPath) := by
  obtain ⟨r, hr, hdirectory⟩ := directory_of_listed hlist
  obtain ⟨-, -, hpath⟩ := written_of_run hr
  have hvalid : (validateFileName name).run access answer = .ok () :=
    run_require_eq_ok.mpr hname
  have hparent : (require (r.type = .directory) .notDirectory).run access answer = .ok () :=
    run_require_eq_ok.mpr (decide_eq_true hdirectory)
  have htype : (entityType (writtenChild X grant relativePath name)).run access answer =
      .ok .notFound := (run_await _).trans hnew
  unfold resolveNewLocalChild
  rw [run_bind_ok hvalid, run_bind_ok hr, run_bind_ok hparent]
  have hchild : X.path.normalize (X.path.joinAll [writtenPath X grant relativePath, name]) =
    writtenChild X grant relativePath name := rfl
  simp only [hpath, hchild]
  rw [run_bind_ok hroot, run_bind, run_require]
  split_ifs with hcompare
  · have hfree : (require (FileSystemEntityType.notFound ≠ .link) .permissionDenied).run
        access answer = .ok () := rfl
    exact (run_bind_ok htype).trans (run_bind_ok hfree)
  · rfl

/-- **A listed directory takes a new entry** exactly if what the root resolves
to lies, as a location, on the written path of that entry. -/
theorem LocalProvider.accepts_new_child_iff (hX : X.path.Exact X.fold)
    (hanswer : ∀ op, Honest X t op (answer op)) {name : String} {entries : List RemoteFsEntry}
    (hlist : (listLocalDirectory X grant relativePath).run access answer = .ok entries)
    (hname : validFileName name = true)
    (hnew : answer (.entityType (writtenChild X grant relativePath name)) = .ok .notFound)
    {root : List String} (hroot : t.Resolves [] (X.path.split (localRoot X grant)) root) :
    (∃ child, (resolveNewLocalChild X grant relativePath name).run access answer = .ok child) ↔
      Inside X.fold root
        (X.path.split (localRoot X grant) ++ segments relativePath ++ [name]) := by
  obtain ⟨r, hr, -⟩ := directory_of_listed hlist
  obtain ⟨⟨resolved, hresolved⟩, hvalid, -⟩ := written_of_run hr
  obtain ⟨hnormal, hresolves⟩ := resolves_of_run hanswer hresolved
  obtain rfl := hroot.unique hresolves
  have hparent : X.path.Normal (writtenPath X grant relativePath) ∧
      X.path.split (writtenPath X grant relativePath) =
        X.path.split (localRoot X grant) ++ segments relativePath :=
    normal_writtenPath hX.toLawful hvalid
  have hnames : ∀ c ∈ [name], PathContext.FileName c := by
    simpa using fileName_of_valid hname
  have hchild := hX.normal_join _ _ hparent.1 hnames
  have hsplit := hX.split_join _ _ hparent.1 hnames
  rw [hparent.2] at hsplit
  rw [run_resolveNewLocalChild hlist hname hnew hresolved, ← hsplit,
    ← compare_iff_inside hX hnormal hchild]
  split_ifs with hcompare
  · exact iff_of_true ⟨_, rfl⟩ hcompare
  · exact iff_of_false (fun ⟨_, h⟩ => by cases h) hcompare

end Run

/-! ## §3  A root behind a link -/

namespace Sample

/-- `/link` leads to `/data`, which holds the shared directory. -/
def linkedTree : FileTree where
  entry
    | [], "/" => some ("/", .directory)
    | ["/"], "link" => some ("link", .link ⟨true, ["/", "data"]⟩)
    | ["/"], "data" => some ("data", .directory)
    | ["/", "data"], "share" => some ("share", .directory)
    | _, _ => none

/-- The directory shared under the path `parent/share`. -/
def shared (parent : String) : RemoteFsGrant :=
  ⟨"share", "Share", .localPath, parent ++ "/share", false⟩

def linkedAnswer : (op : FsOp) → Except RemoteFsError op.Answer
  | .entityType "/link/share" | .entityType "/data/share" => .ok .directory
  | .entityType "/link/share/new" | .entityType "/data/share/new" => .ok .notFound
  | .resolveSymbolicLinks "/link/share" | .resolveSymbolicLinks "/data/share" =>
      .ok "/data/share"
  | .listDirectory "/link/share" | .listDirectory "/data/share" => .ok []
  | _ => .error .other

theorem resolves_share : linkedTree.Resolves [] ["/", "data", "share"] ["/", "data", "share"] :=
  .step rfl (.step rfl (.step rfl .nil))

theorem resolves_linked : linkedTree.Resolves [] ["/", "link", "share"] ["/", "data", "share"] :=
  .step rfl (.step rfl (.step rfl (.step rfl (.step rfl .nil))))

theorem names_share : linkedTree.Names ["/", "data", "share"] ["/", "data"] "share" where
  isName := ⟨by decide, by decide⟩
  resolves := ⟨["/", "data"], rfl, .step rfl (.step rfl .nil)⟩

theorem names_linked : linkedTree.Names ["/", "link", "share"] ["/", "data"] "share" where
  isName := ⟨by decide, by decide⟩
  resolves := ⟨["/", "link"], rfl, .step rfl (.step rfl (.step rfl (.step rfl .nil)))⟩

theorem names_new :
    linkedTree.Names ["/", "data", "share", "new"] ["/", "data", "share"] "new" where
  isName := ⟨by decide, by decide⟩
  resolves := ⟨["/", "data", "share"], rfl, resolves_share⟩

theorem names_linkedNew :
    linkedTree.Names ["/", "link", "share", "new"] ["/", "data", "share"] "new" where
  isName := ⟨by decide, by decide⟩
  resolves := ⟨["/", "link", "share"], rfl, resolves_linked⟩

theorem honest_linkedAnswer (op : FsOp) :
    Honest remoteFsExternals linkedTree op (linkedAnswer op) := by
  have hlink : remoteFsExternals.path.split "/link/share" = ["/", "link", "share"] := by
    decide +kernel
  have hdata : remoteFsExternals.path.split "/data/share" = ["/", "data", "share"] := by
    decide +kernel
  have hlinkNew : remoteFsExternals.path.split "/link/share/new" =
      ["/", "link", "share", "new"] := by decide +kernel
  have hdataNew : remoteFsExternals.path.split "/data/share/new" =
      ["/", "data", "share", "new"] := by decide +kernel
  unfold linkedAnswer
  split
  · exact typeOf_of_names _ _ (hlink ▸ names_linked)
  · exact typeOf_of_names _ _ (hdata ▸ names_share)
  · exact typeOf_of_names _ _ (hlinkNew ▸ names_linkedNew)
  · exact typeOf_of_names _ _ (hdataNew ▸ names_new)
  · refine ⟨⟨by decide +kernel, by decide +kernel⟩, ?_⟩
    rw [hlink, hdata]
    exact resolves_linked
  · refine ⟨⟨by decide +kernel, by decide +kernel⟩, ?_⟩
    rw [hdata]
    exact resolves_share
  · trivial
  · trivial
  · cases op <;> trivial

end Sample

theorem LocalProvider.accepts_new_child_unlinked : ∃ child,
    (resolveNewLocalChild Sample.remoteFsExternals (Sample.shared "/data") "" "new").run .empty
      Sample.linkedAnswer = .ok child := by
  have hroot : Sample.remoteFsExternals.path.split
      (localRoot Sample.remoteFsExternals (Sample.shared "/data")) = ["/", "data", "share"] := by
    decide +kernel
  have hX : Sample.remoteFsExternals.path.Exact Sample.remoteFsExternals.fold :=
    PathContext.Posix.exact
  have hlist : (listLocalDirectory Sample.remoteFsExternals (Sample.shared "/data") "").run .empty
      Sample.linkedAnswer = .ok [] := by decide +kernel
  have hnew : Sample.linkedAnswer (.entityType
      (writtenChild Sample.remoteFsExternals (Sample.shared "/data") "" "new")) =
      .ok .notFound := by decide +kernel
  refine (accepts_new_child_iff hX Sample.honest_linkedAnswer hlist (by decide +kernel) hnew
    (hroot ▸ Sample.resolves_share)).mpr ?_
  rw [hroot]
  exact ⟨["new"], by decide +kernel⟩

/-- The same directory under the path through the link: it is listed, and
nothing can be created in it. -/
theorem LocalProvider.rejects_listed_directory :
    (∀ op, Honest Sample.remoteFsExternals Sample.linkedTree op (Sample.linkedAnswer op)) ∧
      (listLocalDirectory Sample.remoteFsExternals (Sample.shared "/link") "").run .empty
        Sample.linkedAnswer = .ok [] ∧
      validFileName "new" = true ∧
      Sample.linkedAnswer (.entityType
        (writtenChild Sample.remoteFsExternals (Sample.shared "/link") "" "new")) =
        .ok .notFound ∧
      (resolveNewLocalChild Sample.remoteFsExternals (Sample.shared "/link") "" "new").run .empty
        Sample.linkedAnswer = .error (.failure .invalidPath) :=
  ⟨Sample.honest_linkedAnswer, by decide +kernel, by decide +kernel, by decide +kernel,
    by decide +kernel⟩

end FireBoxTransfer
