import FireBoxTransfer.Framework.FileTree
import FireBoxTransfer.RemoteFs.AccessControl

/-!
# Path confinement

The local provider against a file tree with links anywhere. A path it returns
lies inside the root as written, and what it resolves to lies inside what the
root resolves to; the tree stays as it is between the check and the operation.
-/

namespace FireBoxTransfer

open Program FileTree

/-! ## §1  The file system -/

def FileSystemEntityType.ofKind : Option FileKind → FileSystemEntityType
  | none => .notFound
  | some .file => .file
  | some .directory => .directory
  | some (.link _) => .link
  | some .other => .other

/-- The paths through which an operation lists, reads, writes, creates,
renames, moves or deletes; the two operations of the checks themselves only
inspect. -/
def FsOp.localPaths : FsOp → List String
  | .listDirectory path | .stat path | .create path | .delete path _ => [path]
  | .rename path destination => [path, destination]
  | .respond _ (.read _ (.path path)) | .respond _ (.write (.path path)) => [path]
  | _ => []

/-- The tree and the snapshots the handler looked at. -/
structure Disk where
  tree : FileTree
  seen : List RemoteFsAccessConfig

section Disk

variable (X : RemoteFsExternals) (t : FileTree)

/-- `FileSystemEntity.type`: the kind of the entry that the path names. -/
def TypeOf (path : String) (type : FileSystemEntityType) : Prop :=
  (∀ dir name, t.Names (X.path.split path) dir name → .ofKind (t.kind dir name) = type) ∧
    (type ≠ .notFound → ∃ dir name, t.Names (X.path.split path) dir name)

theorem typeOf_of_names {path : String} {dir : List String} {name : String}
    (h : t.Names (X.path.split path) dir name) :
    TypeOf X t path (.ofKind (t.kind dir name)) := by
  refine ⟨fun dir' name' h' => ?_, fun _ => ⟨dir, name, h⟩⟩
  obtain ⟨rfl, rfl⟩ := h.unique h'
  rfl

/-- What the tree lets the file system answer. `resolveSymbolicLinks` gives a
normalized path to the location. -/
def Honest : (op : FsOp) → Except RemoteFsError op.Answer → Prop
  | .entityType path, .ok type => TypeOf X t path type
  | .resolveSymbolicLinks path, .ok resolved =>
      X.path.Normal resolved ∧ t.Resolves [] (X.path.split path) (X.path.split resolved)
  | _, _ => True

/-- Everything touched through the path lies inside the resolved root. -/
def Confined (grant : RemoteFsGrant) (path : String) : Prop :=
  ∃ root, t.Resolves [] (X.path.split (localRoot X grant)) root ∧
    ∀ loc, t.Touched (X.path.split path) loc → Inside X.fold root loc

end Disk

/-- A grant of a root that the request names, from a snapshot the handler
looked at. -/
def GrantNamed (event : RemoteFsEvent) (seen : List RemoteFsAccessConfig) (grant : RemoteFsGrant) :
    Prop :=
  grant.id ∈ event.request.rootIds ∧ ∃ access ∈ seen, grant ∈ access.grants

/-- An operation may be called if all its paths are confined to a root that
the request names. Looking may give any snapshot; the tree changes by the
operations that change it only, and by these in any way. -/
def treeSpec (X : RemoteFsExternals) (event : RemoteFsEvent) :
    Spec RemoteFsAccessConfig RemoteFsError FsOp FsOp.Answer Disk where
  mayRead _ := True
  reads w access w' := w' = { w with seen := w.seen ++ [access] }
  mayCall op w := ∀ path ∈ op.localPaths,
    ∃ grant, GrantNamed event w.seen grant ∧ Confined X w.tree grant path
  answers op w a w' := w'.seen = w.seen ∧ (op.IsQuiet → w' = w) ∧ Honest X w.tree op a

/-! ## §2  Confined paths -/

section Paths

variable {X : RemoteFsExternals} {t : FileTree} {grant : RemoteFsGrant}

/-- A path that `resolveExistingLocal` returns. -/
structure Existing (X : RemoteFsExternals) (t : FileTree) (grant : RemoteFsGrant)
    (r : ResolvedLocalPath) : Prop where
  normal : X.path.Normal r.path
  lexical : X.path.split (localRoot X grant) <+: X.path.split r.path
  entry : ∃ dir name, t.Names (X.path.split r.path) dir name ∧
    .ofKind (t.kind dir name) = r.type ∧ r.type ≠ .link
  physical : ∃ root loc, t.Resolves [] (X.path.split (localRoot X grant)) root ∧
    t.Resolves [] (X.path.split r.path) loc ∧ Inside X.fold root loc

/-- A path that `resolveNewLocalChild` returns. -/
structure NewChild (X : RemoteFsExternals) (t : FileTree) (grant : RemoteFsGrant)
    (path : String) : Prop where
  lexical : X.path.split (localRoot X grant) <+: X.path.split path
  physical : ∃ root dir name, t.Resolves [] (X.path.split (localRoot X grant)) root ∧
    t.Names (X.path.split path) dir name ∧ Inside X.fold root dir ∧
    .ofKind (t.kind dir name) ≠ FileSystemEntityType.link

theorem kind_ne_link {kind : Option FileKind}
    (h : FileSystemEntityType.ofKind kind ≠ .link) (target : LinkTarget) :
    kind ≠ some (.link target) := by
  rintro rfl
  exact h rfl

theorem Existing.confined {r : ResolvedLocalPath} (h : Existing X t grant r) :
    Confined X t grant r.path := by
  obtain ⟨root, loc, hroot, hloc, hinside⟩ := h.physical
  obtain ⟨dir, name, hnames, htype, hlink⟩ := h.entry
  have hkind := kind_ne_link (htype ▸ hlink)
  refine ⟨root, hroot, fun touched htouched => ?_⟩
  rw [hnames.eq_child hkind hloc] at hinside
  exact hinside.below (hnames.touched hkind htouched)

theorem NewChild.confined {path : String} (h : NewChild X t grant path) :
    Confined X t grant path := by
  obtain ⟨root, dir, name, hroot, hnames, hinside, hlink⟩ := h.physical
  refine ⟨root, hroot, fun touched htouched => ?_⟩
  have hchild : dir <+: t.child dir name := List.prefix_append _ _
  exact (hinside.below hchild).below (hnames.touched (kind_ne_link hlink) htouched)

end Paths

/-! ## §3  Reading the tree -/

section Returns

variable {X : RemoteFsExternals} {event : RemoteFsEvent} {w : Disk} {α β : Type}

/-- Run on `w`, the program changes nothing and what it returns satisfies
`P`. -/
def Returns (X : RemoteFsExternals) (event : RemoteFsEvent) (w : Disk) (p : RemoteFsM α)
    (P : α → Prop) : Prop :=
  wp (treeSpec X event) p (fun a w' => w' = w ∧ P a) (fun _ w' => w' = w) w

theorem returns_pure {a : α} {P : α → Prop} (h : P a) : Returns X event w (Pure.pure a) P :=
  wp_pure.mpr ⟨rfl, h⟩

theorem Returns.bind {p : RemoteFsM β} {f : β → RemoteFsM α} {P : β → Prop} {Q : α → Prop}
    (hp : Returns X event w p P) (hf : ∀ b, P b → Returns X event w (f b) Q) :
    Returns X event w (p >>= f) Q := by
  unfold Returns
  rw [wp_bind]
  refine wp_mono hp (fun b w' h => ?_) fun _ _ he => he
  obtain ⟨rfl, hb⟩ := h
  exact hf b hb

theorem Returns.mono {p : RemoteFsM α} {P Q : α → Prop} (hp : Returns X event w p P)
    (h : ∀ a, P a → Q a) : Returns X event w p Q :=
  wp_mono hp (fun a _ ha => ⟨ha.1, h a ha.2⟩) fun _ _ he => he

theorem Returns.catching {p : RemoteFsM α} {h : RemoteFsError → RemoteFsM α} {P : α → Prop}
    (hp : Returns X event w p P) (hh : ∀ e, Returns X event w (h e) P) :
    Returns X event w (p.catching h) P := by
  unfold Returns
  rw [wp_catching]
  refine wp_mono hp (fun a w' h => h) fun e w' he => ?_
  subst he
  exact hh e

theorem Returns.reaches {p : RemoteFsM α} {P : α → Prop} {a : α} {w' : Disk}
    (hp : Returns X event w p P) (hreach : Reaches (treeSpec X event) p w (.pure a) w') :
    w' = w ∧ P a := by
  have h : wp (treeSpec X event) (.pure a) (fun a w' => w' = w ∧ P a) (fun _ w' => w' = w) w' :=
    wp_reaches hp hreach
  rwa [wp_ret] at h

theorem returns_throw {e : RemoteFsError} {P : α → Prop} :
    Returns X event w (.throw e : RemoteFsM α) P := wp_throw.mpr rfl

theorem returns_require {c : Bool} {code : RemoteFsErrorCode} :
    Returns X event w (require c code) fun _ => c = true := by
  unfold require fail
  split
  · rename_i hc
    exact returns_pure hc
  · exact returns_throw

theorem returns_mapFileSystem {p : RemoteFsM α} {code : Option Int → RemoteFsErrorCode}
    {P : α → Prop} (h : Returns X event w p P) : Returns X event w (mapFileSystem code p) P := by
  refine h.catching fun e => ?_
  split
  · exact returns_throw
  · exact returns_throw

/-- A quiet operation on confined paths answers from the tree. -/
theorem returns_await (op : FsOp) (hquiet : op.IsQuiet)
    (hpaths : ∀ path ∈ op.localPaths,
      ∃ grant, GrantNamed event w.seen grant ∧ Confined X w.tree grant path) :
    Returns X event w (await op) fun a => Honest X w.tree op (.ok a) := by
  refine wp_await hpaths (fun a w' hans => ?_) fun e w' hans => ?_
  · exact ⟨hans.2.1 hquiet, hans.2.2⟩
  · exact hans.2.1 hquiet

theorem returns_entityType {path : String} :
    Returns X event w (entityType path) (TypeOf X w.tree path) :=
  returns_await (FsOp.entityType path) trivial (by simp [FsOp.localPaths])

theorem returns_resolveSymbolicLinks {path : String} {code : Option Int → RemoteFsErrorCode} :
    Returns X event w (mapFileSystem code (resolveSymbolicLinks path)) fun resolved =>
      X.path.Normal resolved ∧
        w.tree.Resolves [] (X.path.split path) (X.path.split resolved) :=
  returns_mapFileSystem
    (returns_await (FsOp.resolveSymbolicLinks path) trivial (by simp [FsOp.localPaths]))

end Returns

/-! ## §4  Resolving -/

/-- A component of a relative path that passes the check is one name on every
platform. -/
theorem fileName_of_mem {path c : String} (h : validRelativePath path = true) (hne : path ≠ "")
    (hc : c ∈ splitSlash path) : PathContext.FileName c := by
  rw [validRelativePath, if_neg hne] at h
  split_ifs at h with hbad hany
  simp only [Bool.or_eq_true, not_or, contains, List.contains_iff_mem] at hbad
  have hc' : ¬ (c = "" ∨ c = "." ∨ c = "..") := fun hdots =>
    hany (List.any_eq_true.mpr ⟨c, hc, by simpa [or_assoc] using hdots⟩)
  obtain ⟨piece, hpiece, rfl⟩ := List.mem_map.mp hc
  refine ⟨fun h => hc' (.inl h), fun h => hc' (.inr (.inl h)), fun h => hc' (.inr (.inr h)),
    fun hmem => ?_, fun hmem => ?_⟩
  · rw [String.toList_ofList] at hmem
    exact (mem_piece hpiece hmem).1 rfl
  · rw [String.toList_ofList] at hmem
    exact hbad.1.1.2 (mem_piece hpiece hmem).2

theorem fileName_of_valid {name : String} (h : validFileName name = true) :
    PathContext.FileName name := by
  simp only [validFileName, contains, Bool.and_eq_true, Bool.not_eq_true', decide_eq_true_eq,
    List.contains_eq_mem, decide_eq_false_iff_not] at h
  obtain ⟨⟨⟨⟨⟨⟨hempty, hhere⟩, hup⟩, -⟩, hslash⟩, hbackslash⟩, -⟩ := h
  exact ⟨hempty, hhere, hup, hslash, hbackslash⟩

section Resolving

variable {X : RemoteFsExternals} {event : RemoteFsEvent} {w : Disk} {grant : RemoteFsGrant}

/-- The comparisons of the code compare components. -/
theorem inside_of_compare (hX : X.path.Lawful X.fold) {a b : String} (ha : X.path.Normal a)
    (hb : X.path.Normal b) (h : (sameLocalPath X a b || isWithinLocalPath X a b) = true) :
    Inside X.fold (X.path.split a) (X.path.split b) := by
  rcases (Bool.or_eq_true ..).mp h with h | h
  · rw [Inside, hX.equals_sound a b ha hb h]
  · exact hX.isWithin_sound a b ha hb h

theorem normal_localRoot (hX : X.path.Lawful X.fold) (grant : RemoteFsGrant) :
    X.path.Normal (localRoot X grant) :=
  hX.normal_absolute _

theorem returns_resolveLocalRoot :
    Returns X event w (resolveLocalRoot X grant) fun root =>
      X.path.Normal root ∧
        w.tree.Resolves [] (X.path.split (localRoot X grant)) (X.path.split root) := by
  unfold resolveLocalRoot
  refine returns_entityType.bind fun type _ => ?_
  refine returns_require.bind fun _ _ => returns_require.bind fun _ _ => ?_
  refine returns_resolveSymbolicLinks.bind fun resolved h => returns_pure ?_
  rw [h.1.2]
  exact h

/-- The candidate is the root with the components of the relative path. -/
theorem returns_lexicalLocalPath (hX : X.path.Lawful X.fold) {relativePath : String} :
    Returns X event w (lexicalLocalPath X grant relativePath) fun candidate =>
      X.path.Normal candidate ∧
        X.path.split (localRoot X grant) <+: X.path.split candidate := by
  unfold lexicalLocalPath validateRelativePath
  refine returns_require.bind fun _ hvalid => ?_
  refine returns_require.bind fun _ _ => returns_pure ?_
  have hroot := normal_localRoot hX grant
  split_ifs with hempty
  · exact ⟨hroot, List.prefix_rfl⟩
  · have hnames : ∀ c ∈ splitSlash relativePath, PathContext.FileName c :=
      fun c => fileName_of_mem hvalid hempty
    refine ⟨hX.normal_join _ _ hroot hnames, ?_⟩
    rw [hX.split_join _ _ hroot hnames]
    exact List.prefix_append _ _

theorem returns_resolveExistingLocal (hX : X.path.Lawful X.fold) {relativePath : String} :
    Returns X event w (resolveExistingLocal X grant relativePath) (Existing X w.tree grant) := by
  unfold resolveExistingLocal
  refine returns_resolveLocalRoot.bind fun root hroot => ?_
  refine (returns_lexicalLocalPath hX).bind fun candidate hcandidate => ?_
  refine returns_entityType.bind fun type htype => ?_
  refine returns_require.bind fun _ hlink => returns_require.bind fun _ hfound => ?_
  refine returns_require.bind fun _ _ => ?_
  refine returns_resolveSymbolicLinks.bind fun links hlinks => ?_
  refine returns_require.bind fun _ hcompare => returns_pure ?_
  rw [hlinks.1.2] at hcompare
  obtain ⟨dir, name, hnames⟩ := htype.2 (of_decide_eq_true hfound)
  exact {
    normal := hcandidate.1
    lexical := hcandidate.2
    entry := ⟨dir, name, hnames, htype.1 dir name hnames, of_decide_eq_true hlink⟩
    physical := ⟨_, _, hroot.2, hlinks.2, inside_of_compare hX hroot.1 hlinks.1 hcompare⟩ }

theorem returns_resolveNewLocalChild (hX : X.path.Lawful X.fold) {parentPath name : String} :
    Returns X event w (resolveNewLocalChild X grant parentPath name)
      (NewChild X w.tree grant) := by
  unfold resolveNewLocalChild validateFileName
  refine returns_require.bind fun _ hvalid => ?_
  refine (returns_resolveExistingLocal hX).bind fun parent hparent => ?_
  refine returns_require.bind fun _ _ => returns_resolveLocalRoot.bind fun root _ => ?_
  refine returns_require.bind fun _ _ => returns_entityType.bind fun type htype => ?_
  refine returns_require.bind fun _ hlink => returns_pure ?_
  have hname := fileName_of_valid hvalid
  have hsplit := hX.split_join parent.path [name] hparent.normal (by simpa using hname)
  obtain ⟨rootLoc, dir, hroot, hdir, hinside⟩ := hparent.physical
  have hnames : w.tree.Names
      (X.path.split (X.path.normalize (X.path.joinAll [parent.path, name]))) dir name :=
    ⟨⟨hname.ne_here, hname.ne_up⟩, ⟨_, hsplit, hdir⟩⟩
  constructor
  · rw [hsplit]
    exact hparent.lexical.trans (List.prefix_append _ _)
  · refine ⟨rootLoc, dir, name, hroot, hnames, hinside, ?_⟩
    rw [htype.1 dir name hnames]
    exact of_decide_eq_true hlink

end Resolving

/-! ## §5  Entries and listings -/

section Entries

variable {X : RemoteFsExternals} {event : RemoteFsEvent} {w : Disk} {grant : RemoteFsGrant}
  {relativePath : String}

theorem returns_localEntry {path : String} {type : FileSystemEntityType}
    (hnamed : GrantNamed event w.seen grant) (hconfined : Confined X w.tree grant path) :
    Returns X event w (localEntry X path relativePath type grant) fun _ => True := by
  unfold localEntry
  refine Returns.bind (P := fun _ => True) ((returns_await (FsOp.stat path) trivial ?_).mono
    fun _ _ => trivial) fun stat _ => ?_
  · simpa [FsOp.localPaths] using ⟨grant, hnamed, hconfined⟩
  · exact returns_require.bind fun _ _ => returns_require.bind fun _ _ => returns_pure trivial

theorem returns_resolvedEntry (hX : X.path.Lawful X.fold) (hnamed : GrantNamed event w.seen grant) :
    Returns X event w (resolvedEntry X grant relativePath) fun _ => True := by
  unfold resolvedEntry
  exact (returns_resolveExistingLocal hX).bind fun resolved h =>
    returns_localEntry hnamed h.confined

theorem returns_listLocalEntity (hX : X.path.Lawful X.fold) (hnamed : GrantNamed event w.seen grant)
    {entries : List RemoteFsEntry} {path : String} :
    Returns X event w (listLocalEntity X grant relativePath entries path) fun _ => True := by
  unfold listLocalEntity
  refine returns_entityType.bind fun type _ => ?_
  dsimp only
  split
  · exact returns_pure trivial
  · refine Returns.catching ?_ fun e => ?_
    · exact (returns_resolvedEntry hX hnamed).bind fun _ _ => returns_pure trivial
    · split <;> first | exact returns_pure trivial | exact returns_throw

theorem returns_foldl {σ β : Type} {f : σ → β → RemoteFsM σ} {s : σ} {bs : List β}
    (hf : ∀ s b, Returns X event w (f s b) fun _ => True) :
    Returns X event w (Program.foldl f s bs) fun _ => True := by
  have hloop : wp (treeSpec X event) (Program.foldl f s bs) (fun _ w' => w' = w)
      (fun _ w' => w' = w) w := by
    refine wp_foldl (I := fun _ w' => w' = w) rfl fun s b w' _ hw' => ?_
    subst hw'
    exact wp_mono (hf s b) (fun _ _ h => h.1) fun _ _ he => he
  exact wp_mono hloop (fun _ _ h => ⟨h, trivial⟩) fun _ _ he => he

/-- Listing a directory that was resolved. -/
theorem returns_listDirectory {path : String} (hnamed : GrantNamed event w.seen grant)
    (hconfined : Confined X w.tree grant path) :
    Returns X event w (await (FsOp.listDirectory path)) fun _ => True := by
  refine (returns_await (FsOp.listDirectory path) trivial ?_).mono fun _ _ => trivial
  simpa [FsOp.localPaths] using ⟨grant, hnamed, hconfined⟩

theorem returns_listLocalDirectory (hX : X.path.Lawful X.fold)
    (hnamed : GrantNamed event w.seen grant) :
    Returns X event w (listLocalDirectory X grant relativePath) fun _ => True := by
  unfold listLocalDirectory
  refine (returns_resolveExistingLocal hX).bind fun resolved h => ?_
  refine returns_require.bind fun _ _ => returns_mapFileSystem ?_
  exact (returns_listDirectory hnamed h.confined).bind fun _ _ =>
    returns_foldl fun _ _ => returns_listLocalEntity hX hnamed

theorem returns_requireEmpty {source : ResolvedLocalPath} {recursive : Bool}
    (hnamed : GrantNamed event w.seen grant) (hconfined : Confined X w.tree grant source.path) :
    Returns X event w (requireEmpty source recursive) fun _ => True := by
  unfold requireEmpty
  split
  · exact (returns_listDirectory hnamed hconfined).bind fun _ _ =>
      returns_require.mono fun _ _ => trivial
  · exact returns_pure trivial

theorem returns_prepareLocalWriteTarget (hX : X.path.Lawful X.fold) {overwrite : Bool} :
    Returns X event w (prepareLocalWriteTarget X grant relativePath overwrite)
      (NewChild X w.tree grant) := by
  unfold prepareLocalWriteTarget validateFileName
  refine returns_require.bind fun _ _ => ?_
  refine (returns_resolveNewLocalChild hX).bind fun target htarget => ?_
  refine returns_entityType.bind fun _ _ => returns_require.bind fun _ _ => ?_
  refine returns_require.bind fun _ _ => returns_require.bind fun _ _ => ?_
  exact returns_require.bind fun _ _ => returns_pure htarget

end Entries

/-! ## §6  Changes -/

/-- The grants that a handler holds are of roots that its request names, and
come from snapshots it looked at. -/
def Holding (event : RemoteFsEvent) (grants : List RemoteFsGrant) (w : Disk) : Prop :=
  ∀ grant ∈ grants, GrantNamed event w.seen grant

/-- The part of a handler that calls confined operations only. -/
abbrev KeepsHolding {α : Type} (X : RemoteFsExternals) (event : RemoteFsEvent)
    (grants : List RemoteFsGrant) (p : RemoteFsM α) : Prop :=
  Keeps (treeSpec X event) (Holding event grants) (fun _ => True) p

section Holding

variable {X : RemoteFsExternals} {event : RemoteFsEvent} {w w' : Disk} {α β : Type}
  {grant : RemoteFsGrant} {grants : List RemoteFsGrant} {Q : α → Disk → Prop}

theorem GrantNamed.mono {seen seen' : List RemoteFsAccessConfig} (h : GrantNamed event seen grant)
    (hseen : seen <+: seen') : GrantNamed event seen' grant := by
  obtain ⟨hroot, access, hmem, hgrant⟩ := h
  exact ⟨hroot, access, hseen.subset hmem, hgrant⟩

theorem Holding.mono (h : Holding event grants w) (hseen : w.seen <+: w'.seen) :
    Holding event grants w' := fun grant hmem => (h grant hmem).mono hseen

/-- A program that changes nothing, and what comes after it. -/
theorem Returns.then {p : RemoteFsM β} {f : β → RemoteFsM α} {P : β → Prop}
    (hp : Returns X event w p P)
    (hf : ∀ b, P b → wp (treeSpec X event) (f b) Q (fun _ _ => True) w) :
    wp (treeSpec X event) (p >>= f) Q (fun _ _ => True) w := by
  rw [wp_bind]
  refine wp_mono hp (fun b w' h => ?_) fun _ _ _ => trivial
  obtain ⟨rfl, hb⟩ := h
  exact hf b hb

theorem Returns.holding {p : RemoteFsM α} {P : α → Prop} (hp : Returns X event w p P)
    (hw : Holding event grants w) :
    wp (treeSpec X event) p (fun _ => Holding event grants) (fun _ _ => True) w := by
  refine wp_mono hp (fun a w' h => ?_) fun _ _ _ => trivial
  obtain ⟨rfl, -⟩ := h
  exact hw

theorem returns_keeps {p : RemoteFsM α} {P : α → Prop}
    (hp : ∀ w, Holding event grants w → Returns X event w p P) :
    KeepsHolding X event grants p := fun w hw => (hp w hw).holding hw

theorem keepsHolding_require {c : Bool} {code : RemoteFsErrorCode} :
    KeepsHolding X event grants (require c code) := returns_keeps fun _ _ => returns_require

theorem keepsHolding_requireEntryPath {path : String} :
    KeepsHolding X event grants (requireEntryPath path) :=
  keepsHolding_require.bind fun _ => keepsHolding_require

/-- Any operation on paths that are confined to the grants held. -/
theorem holding_await {op : FsOp} (hw : Holding event grants w)
    (hpaths : ∀ path ∈ op.localPaths, ∃ grant ∈ grants, Confined X w.tree grant path) :
    wp (treeSpec X event) (await op) (fun _ => Holding event grants) (fun _ _ => True) w := by
  refine wp_await (fun path hmem => ?_) (fun a w' hans => ?_) fun _ _ _ => trivial
  · obtain ⟨grant, hgrant, hconfined⟩ := hpaths path hmem
    exact ⟨grant, hw grant hgrant, hconfined⟩
  · exact hw.mono (hans.1 ▸ List.prefix_rfl)

theorem holding_change {op : FsOp} (hw : Holding event grants w)
    (hpaths : ∀ path ∈ op.localPaths, ∃ grant ∈ grants, Confined X w.tree grant path) :
    wp (treeSpec X event) (mapFileSystem mapFileSystemException (await op))
      (fun _ => Holding event grants) (fun _ _ => True) w := by
  unfold mapFileSystem
  rw [wp_catching]
  refine wp_mono (holding_await hw hpaths) (fun _ _ h => h) fun e w' _ => ?_
  split
  · exact wp_throw.mpr trivial
  · exact wp_throw.mpr trivial

theorem keepsHolding_await {op : FsOp} (hop : op.localPaths = []) :
    KeepsHolding X event grants (await op) := fun _ hw => holding_await hw (by simp [hop])

/-- The document provider uses no path. -/
theorem callsKeep_holding : CallsKeep (treeSpec X event) FsOp.IsSaf (Holding event grants) where
  may op w hop _ := by
    cases op with
    | listDirectory | stat | create | rename | delete | respond => exact hop.elim
    | _ => exact fun path hmem => (List.not_mem_nil hmem).elim
  keep op a w w' _ hw hans := hw.mono (hans.1 ▸ List.prefix_rfl)

theorem keepsHolding_saf {p : RemoteFsM α} (h : p.Uses FsOp.IsSafQuery) :
    KeepsHolding X event grants p :=
  (h.mono fun _ hop => hop.isSaf).keeps callsKeep_holding fun _ _ => trivial

/-- The document provider uses no local path, before or after a change. -/
theorem holdingStages : Stages (treeSpec X event) FsOp.IsSafQuery FsOp.IsSafChange
    (Holding event grants) (Holding event grants) (Holding event grants) (fun _ => True) :=
  Stages.same callsKeep_holding (fun _ h => h.isSaf) (fun _ h => h.isSaf) fun _ _ => trivial

/-- Looking at the snapshot leaves the tree as it is. -/
theorem wp_look {f : RemoteFsAccessConfig → RemoteFsM α} {E : RemoteFsError → Disk → Prop}
    (hf : ∀ access, wp (treeSpec X event) (f access) Q E { w with seen := w.seen ++ [access] }) :
    wp (treeSpec X event) (Program.get >>= f) Q E w := by
  rw [wp_bind]
  refine wp_get trivial fun access w' hread => ?_
  obtain rfl := hread
  exact hf access

theorem holding_requireTrustedPeer {peer : RemoteFsPeer} {Q : Unit → Disk → Prop}
    (hQ : ∀ w', w'.tree = w.tree → w.seen <+: w'.seen → Q () w') :
    wp (treeSpec X event) (requireTrustedPeer X peer) Q (fun _ _ => True) w := by
  unfold requireTrustedPeer
  refine wp_require_then trivial fun _ => wp_look fun access => ?_
  refine wp_mono returns_require (fun _ w' h => ?_) fun _ _ _ => trivial
  obtain ⟨rfl, -⟩ := h
  exact hQ _ rfl (List.prefix_append _ _)

/-- An authorised root is held from then on. -/
theorem holding_authorizeGrant {peer : RemoteFsPeer} {rootId : String}
    {capability : RemoteFsCapability} {Q : RemoteFsGrant → Disk → Prop}
    (hQ : ∀ grant w', w'.tree = w.tree → w.seen <+: w'.seen → grant.id = rootId →
      (∃ access ∈ w'.seen, grant ∈ access.grants) → Q grant w') :
    wp (treeSpec X event) (authorizeGrant X peer rootId capability) Q (fun _ _ => True) w := by
  unfold authorizeGrant
  rw [wp_bind]
  refine holding_requireTrustedPeer fun w₁ htree hseen => wp_look fun access => ?_
  split
  · rename_i grant hmatch
    have hmem : grant ∈ matchingGrants access rootId := hmatch ▸ List.mem_singleton_self grant
    obtain ⟨hgrant, hid⟩ := List.mem_filter.mp hmem
    refine wp_require_then trivial fun _ => wp_require_then trivial fun _ => wp_pure.mpr ?_
    exact hQ grant _ htree (hseen.trans (List.prefix_append _ _)) (of_decide_eq_true hid)
      ⟨access, by simp, hgrant⟩
  · exact wp_throw.mpr trivial

theorem holding_ensureGrantCurrent {peer : RemoteFsPeer} {capability : RemoteFsCapability}
    {Q : Unit → Disk → Prop} (hw : Holding event grants w)
    (hQ : ∀ w', w'.tree = w.tree → Holding event grants w' → Q () w') :
    wp (treeSpec X event) (ensureGrantCurrent X peer grant capability) Q (fun _ _ => True) w := by
  unfold ensureGrantCurrent
  rw [wp_bind]
  refine holding_authorizeGrant fun current w' htree hseen _ _ => ?_
  refine wp_mono returns_require (fun _ w'' h => ?_) fun _ _ _ => trivial
  obtain ⟨rfl, -⟩ := h
  exact hQ _ htree (hw.mono hseen)

theorem keepsHolding_ensureGrantCurrent {peer : RemoteFsPeer} {capability : RemoteFsCapability} :
    KeepsHolding X event grants (ensureGrantCurrent X peer grant capability) := fun _ hw =>
  holding_ensureGrantCurrent hw fun _ _ hw' => hw'

end Holding

section Changes

variable {X : RemoteFsExternals} {event : RemoteFsEvent} {w : Disk} {peer : RemoteFsPeer}
  {grant : RemoteFsGrant} {grants : List RemoteFsGrant} {path name : String}

/-- The last two steps of a change: the operation, and the entry it leaves,
resolved in what is then the tree. -/
theorem holding_changeEntry (hX : X.path.Lawful X.fold) (hgrant : grant ∈ grants) {op : FsOp}
    (hw : Holding event grants w)
    (hpaths : ∀ path ∈ op.localPaths, ∃ grant ∈ grants, Confined X w.tree grant path) :
    wp (treeSpec X event)
      (mapFileSystem mapFileSystemException (await op) >>= fun _ => resolvedEntry X grant path)
      (fun _ => Holding event grants) (fun _ _ => True) w := by
  rw [wp_bind]
  refine wp_mono (holding_change hw hpaths) (fun _ w' hw' => ?_) fun _ _ _ => trivial
  exact (returns_resolvedEntry hX (hw' grant hgrant)).holding hw'

theorem keepsHolding_resolvedEntry (hX : X.path.Lawful X.fold) (hgrant : grant ∈ grants) :
    KeepsHolding X event grants (resolvedEntry X grant path) :=
  returns_keeps fun _ hw => returns_resolvedEntry hX (hw grant hgrant)

theorem keepsHolding_createLocalDirectory (hX : X.path.Lawful X.fold) (hgrant : grant ∈ grants)
    {childPath : String} :
    KeepsHolding X event grants (createLocalDirectory X peer grant path name childPath) := by
  intro w hw
  unfold createLocalDirectory
  refine (returns_resolveNewLocalChild hX).then fun target htarget => ?_
  refine returns_entityType.then fun _ _ => wp_require_then trivial fun _ => ?_
  rw [wp_bind]
  refine holding_ensureGrantCurrent hw fun w' htree hw' => ?_
  refine holding_changeEntry hX hgrant hw' ?_
  rw [htree]
  simpa [FsOp.localPaths] using ⟨grant, hgrant, htarget.confined⟩

theorem keepsHolding_renameLocalEntry (hX : X.path.Lawful X.fold) (hgrant : grant ∈ grants)
    {renamedPath : String} :
    KeepsHolding X event grants (renameLocalEntry X peer grant path name renamedPath) := by
  intro w hw
  unfold renameLocalEntry
  refine (returns_resolveExistingLocal hX).then fun source hsource => ?_
  refine (returns_resolveNewLocalChild hX).then fun destination hdestination => ?_
  refine returns_entityType.then fun _ _ => wp_require_then trivial fun _ => ?_
  rw [wp_bind]
  refine holding_ensureGrantCurrent hw fun w' htree hw' => ?_
  refine holding_changeEntry hX hgrant hw' ?_
  rw [htree]
  simpa [FsOp.localPaths] using
    ⟨⟨grant, hgrant, hsource.confined⟩, ⟨grant, hgrant, hdestination.confined⟩⟩

theorem keepsHolding_moveLocalEntry (hX : X.path.Lawful X.fold) {destinationGrant : RemoteFsGrant}
    (hsourceGrant : grant ∈ grants) (hdestinationGrant : destinationGrant ∈ grants)
    {destinationParentPath destinationPath : String} {overwrite : Bool} :
    KeepsHolding X event grants (moveLocalEntry X peer grant destinationGrant path
      destinationParentPath name destinationPath overwrite) := by
  intro w hw
  unfold moveLocalEntry
  refine (returns_resolveExistingLocal hX).then fun source hsource => ?_
  refine (returns_resolveNewLocalChild hX).then fun destination hdestination => ?_
  refine wp_require_then trivial fun _ => returns_entityType.then fun _ _ =>
    wp_require_then trivial fun _ => ?_
  rw [wp_bind]
  refine holding_ensureGrantCurrent hw fun w₁ htree₁ hw₁ => ?_
  rw [wp_bind]
  refine holding_ensureGrantCurrent hw₁ fun w₂ htree₂ hw₂ => ?_
  refine holding_changeEntry hX hdestinationGrant hw₂ ?_
  rw [htree₂, htree₁]
  simpa [FsOp.localPaths] using ⟨⟨grant, hsourceGrant, hsource.confined⟩,
    ⟨destinationGrant, hdestinationGrant, hdestination.confined⟩⟩

theorem keepsHolding_deleteLocalEntry (hX : X.path.Lawful X.fold) (hgrant : grant ∈ grants)
    {recursive : Bool} :
    KeepsHolding X event grants (deleteLocalEntry X peer grant path recursive) := by
  intro w hw
  unfold deleteLocalEntry
  refine (returns_resolveExistingLocal hX).then fun source hsource => ?_
  refine (returns_requireEmpty (hw grant hgrant) hsource.confined).then fun _ _ => ?_
  rw [wp_bind]
  refine holding_ensureGrantCurrent hw fun w' htree hw' => holding_change hw' ?_
  rw [htree]
  simpa [FsOp.localPaths] using ⟨grant, hgrant, hsource.confined⟩

theorem keepsHolding_readLocal (hX : X.path.Lawful X.fold) (hgrant : grant ∈ grants)
    {requestId : String} : KeepsHolding X event grants (readLocal X requestId peer grant path) := by
  intro w hw
  unfold readLocal
  refine (returns_resolveExistingLocal hX).then fun resolved hresolved => ?_
  refine wp_require_then trivial fun _ => wp_require_then trivial fun _ => ?_
  refine (returns_localEntry (hw grant hgrant) hresolved.confined).then fun entry _ => ?_
  rw [wp_bind]
  refine holding_ensureGrantCurrent hw fun w' htree hw' => holding_await hw' ?_
  rw [htree]
  simpa [FsOp.localPaths] using ⟨grant, hgrant, hresolved.confined⟩

theorem keepsHolding_writeLocal (hX : X.path.Lawful X.fold) (hgrant : grant ∈ grants)
    {requestId : String} {overwrite : Bool} :
    KeepsHolding X event grants (writeLocal X requestId peer grant path overwrite) := by
  intro w hw
  unfold writeLocal
  refine (returns_prepareLocalWriteTarget hX).then fun target htarget => ?_
  rw [wp_bind]
  refine holding_ensureGrantCurrent hw fun w' htree hw' => holding_await hw' ?_
  rw [htree]
  simpa [FsOp.localPaths] using ⟨grant, hgrant, htarget.confined⟩

end Changes

/-! ## §7  The handlers -/

section Handlers

variable {X : RemoteFsExternals} {event : RemoteFsEvent} {peer : RemoteFsPeer}
  {requestId : String} {grants : List RemoteFsGrant}

/-- A handler of a root that the request names holds its grant. -/
theorem keepsHolding_authorizeGrant {rootId : String} {capability : RemoteFsCapability}
    {body : RemoteFsGrant → RemoteFsM Unit} (hroot : rootId ∈ event.request.rootIds)
    (hbody : ∀ grant, KeepsHolding X event (grant :: grants) (body grant)) :
    KeepsHolding X event grants (authorizeGrant X peer rootId capability >>= body) := by
  intro w hw
  rw [wp_bind]
  refine holding_authorizeGrant fun grant w' _ hseen hid haccess => ?_
  have hgrant : GrantNamed event w'.seen grant := ⟨hid ▸ hroot, haccess⟩
  refine wp_mono (hbody grant w' ?_) (fun _ w'' hw'' => ?_) fun _ _ _ => trivial
  · exact List.forall_mem_cons.mpr ⟨hgrant, hw.mono hseen⟩
  · exact (List.forall_mem_cons.mp hw'').2

theorem keepsHolding_respond {reply : RemoteFsReply}
    (h : (FsOp.respond requestId reply).localPaths = []) :
    KeepsHolding X event grants (respond requestId reply) := keepsHolding_await h

theorem keepsHolding_addRoot {access : RemoteFsAccessConfig} {roots : List RemoteFsRoot}
    {grant : RemoteFsGrant} : KeepsHolding X event grants (addRoot X access roots grant) := by
  unfold addRoot
  split
  · exact keeps_pure
  · refine Keeps.bind ?_ fun _ => keeps_pure
    cases hkind : grant.kind with
    | localPath =>
        unfold availableRemoteFsRoot
        rw [hkind]
        refine returns_keeps (P := fun _ => True) fun w _ => Returns.catching ?_ fun _ => ?_
        · exact returns_resolveLocalRoot.bind fun _ _ => returns_pure trivial
        · exact returns_pure trivial
    | androidSaf => exact keepsHolding_saf (uses_availableRemoteFsRoot hkind)

theorem keepsHolding_roots :
    KeepsHolding X event grants (respondRemoteFsRoots X requestId peer) := by
  intro w hw
  unfold respondRemoteFsRoots
  rw [wp_bind]
  refine holding_requireTrustedPeer fun w₁ _ hseen => wp_look fun access => ?_
  have hlooked : Holding event grants { w₁ with seen := w₁.seen ++ [access] } :=
    hw.mono (hseen.trans (List.prefix_append _ _))
  refine (keeps_foldl fun _ _ => keepsHolding_addRoot).bind (fun roots w₂ hw₂ => ?_) _ hlooked
  rw [wp_bind]
  refine holding_requireTrustedPeer fun w₃ _ hseen => ?_
  exact keepsHolding_respond rfl w₃ (hw₂.mono hseen)

theorem keepsHolding_list (hX : X.path.Lawful X.fold) {location : RemoteFsLocation}
    {cursor : Option String} {limit : ℕ} (hroot : location.rootId ∈ event.request.rootIds) :
    KeepsHolding X event grants (respondRemoteFsList X requestId peer location cursor limit) := by
  unfold respondRemoteFsList
  refine keepsHolding_authorizeGrant hroot fun grant => ?_
  refine keepsHolding_require.bind fun _ => Keeps.bind ?_ fun entries => ?_
  · split
    · exact returns_keeps fun w hw =>
        returns_listLocalDirectory hX (hw grant List.mem_cons_self)
    · exact keepsHolding_saf uses_listSafDirectory
  refine (keepsHolding_saf uses_decodeListCursor).bind fun offset => ?_
  refine keepsHolding_require.bind fun _ => keepsHolding_ensureGrantCurrent.bind fun _ => ?_
  exact keepsHolding_respond rfl

theorem keepsHolding_metadata (hX : X.path.Lawful X.fold) {target : RemoteFsLocation}
    (hroot : target.rootId ∈ event.request.rootIds) :
    KeepsHolding X event grants (respondRemoteFsMetadata X requestId peer target) := by
  unfold respondRemoteFsMetadata
  refine keepsHolding_authorizeGrant hroot fun grant => ?_
  refine keepsHolding_requireEntryPath.bind fun _ => Keeps.bind ?_ fun entry => ?_
  · split
    · exact keepsHolding_resolvedEntry hX List.mem_cons_self
    · exact keepsHolding_saf uses_safEntryForPath
  exact keepsHolding_ensureGrantCurrent.bind fun _ => keepsHolding_respond rfl

theorem keepsHolding_createDirectory (hX : X.path.Lawful X.fold) {parent : RemoteFsLocation}
    {name : String} (hroot : parent.rootId ∈ event.request.rootIds) :
    KeepsHolding X event grants (respondRemoteFsCreateDirectory X requestId peer parent name) := by
  unfold respondRemoteFsCreateDirectory validateFileName
  refine keepsHolding_authorizeGrant hroot fun grant => ?_
  refine keepsHolding_require.bind fun _ => keepsHolding_require.bind fun _ => ?_
  refine Keeps.bind ?_ fun _ => keepsHolding_respond rfl
  split
  · exact keepsHolding_createLocalDirectory hX List.mem_cons_self
  · exact leads_createSafDirectory holdingStages keepsHolding_ensureGrantCurrent

theorem keepsHolding_rename (hX : X.path.Lawful X.fold) {source : RemoteFsLocation}
    {name : String} (hroot : source.rootId ∈ event.request.rootIds) :
    KeepsHolding X event grants (respondRemoteFsRename X requestId peer source name) := by
  unfold respondRemoteFsRename validateFileName
  refine keepsHolding_authorizeGrant hroot fun grant => ?_
  refine keepsHolding_requireEntryPath.bind fun _ => keepsHolding_require.bind fun _ => ?_
  refine Keeps.bind ?_ fun _ => keepsHolding_respond rfl
  split
  · exact keepsHolding_renameLocalEntry hX List.mem_cons_self
  · exact leads_renameSafEntry holdingStages keepsHolding_ensureGrantCurrent

theorem keepsHolding_requireRename {sourceGrant : RemoteFsGrant} {source : RemoteFsLocation}
    {name : String} (hroot : source.rootId ∈ event.request.rootIds) :
    KeepsHolding X event grants (requireRename X peer sourceGrant source name) := by
  unfold requireRename
  split
  · exact keepsHolding_authorizeGrant hroot fun _ => keepsHolding_require
  · exact keeps_pure

theorem keepsHolding_move (hX : X.path.Lawful X.fold)
    {source destinationParent : RemoteFsLocation} {newName : Option String} {overwrite : Bool}
    (hsource : source.rootId ∈ event.request.rootIds)
    (hdestination : destinationParent.rootId ∈ event.request.rootIds) :
    KeepsHolding X event grants
      (respondRemoteFsMove X requestId peer source destinationParent newName overwrite) := by
  unfold respondRemoteFsMove validateFileName
  refine keepsHolding_authorizeGrant hsource fun sourceGrant => ?_
  refine keepsHolding_authorizeGrant hdestination fun destinationGrant => ?_
  refine keepsHolding_requireEntryPath.bind fun _ => keepsHolding_require.bind fun _ => ?_
  refine keepsHolding_require.bind fun _ => ?_
  refine (keepsHolding_requireRename hsource).bind fun _ => ?_
  refine keepsHolding_require.bind fun _ => Keeps.bind ?_ fun _ => keepsHolding_respond rfl
  split
  · exact keepsHolding_moveLocalEntry hX (List.mem_cons_of_mem _ List.mem_cons_self)
      List.mem_cons_self
  · exact leads_moveSafEntry holdingStages (fun _ => keepsHolding_ensureGrantCurrent)
      ((uses_renameMoved.mono fun _ hop => hop.isSaf).keeps callsKeep_holding fun _ _ => trivial)

theorem keepsHolding_delete (hX : X.path.Lawful X.fold) {target : RemoteFsLocation}
    {recursive : Bool} (hroot : target.rootId ∈ event.request.rootIds) :
    KeepsHolding X event grants (respondRemoteFsDelete X requestId peer target recursive) := by
  unfold respondRemoteFsDelete
  refine keepsHolding_authorizeGrant hroot fun grant => ?_
  refine keepsHolding_requireEntryPath.bind fun _ => ?_
  refine Keeps.bind ?_ fun _ => keepsHolding_respond rfl
  split
  · exact keepsHolding_deleteLocalEntry hX List.mem_cons_self
  · exact leads_deleteSafEntry holdingStages keepsHolding_ensureGrantCurrent

theorem keepsHolding_read (hX : X.path.Lawful X.fold) {target : RemoteFsLocation}
    (hroot : target.rootId ∈ event.request.rootIds) :
    KeepsHolding X event grants (respondRemoteFsRead X requestId peer target) := by
  unfold respondRemoteFsRead
  refine keepsHolding_authorizeGrant hroot fun grant => ?_
  refine keepsHolding_requireEntryPath.bind fun _ => ?_
  split
  · exact keepsHolding_readLocal hX List.mem_cons_self
  · unfold readSaf
    refine (keepsHolding_saf uses_resolveSafDocument).bind fun document => ?_
    refine keepsHolding_require.bind fun _ => keepsHolding_ensureGrantCurrent.bind fun _ => ?_
    exact (keepsHolding_await rfl).bind fun descriptor => keepsHolding_respond rfl

theorem keepsHolding_write (hX : X.path.Lawful X.fold) {target : RemoteFsLocation}
    {overwrite : Bool} (hroot : target.rootId ∈ event.request.rootIds) :
    KeepsHolding X event grants (respondRemoteFsWrite X requestId peer target overwrite) := by
  unfold respondRemoteFsWrite
  refine keepsHolding_authorizeGrant hroot fun grant => ?_
  refine keepsHolding_requireEntryPath.bind fun _ => ?_
  split
  · exact keepsHolding_writeLocal hX List.mem_cons_self
  · unfold writeSaf
    refine Keeps.bind ?_ fun _ => keepsHolding_respond rfl
    exact leads_prepareSafWriteTarget holdingStages keepsHolding_ensureGrantCurrent

theorem keepsHolding_respondRemoteFs (hX : X.path.Lawful X.fold) :
    KeepsHolding X event [] (respondRemoteFs X event) := by
  obtain ⟨requestId, peer, request⟩ := event
  cases request with
  | roots => exact keepsHolding_roots
  | list => exact keepsHolding_list hX List.mem_cons_self
  | metadata => exact keepsHolding_metadata hX List.mem_cons_self
  | createDirectory => exact keepsHolding_createDirectory hX List.mem_cons_self
  | rename => exact keepsHolding_rename hX List.mem_cons_self
  | move =>
      exact keepsHolding_move hX List.mem_cons_self (List.mem_cons_of_mem _ List.mem_cons_self)
  | delete => exact keepsHolding_delete hX List.mem_cons_self
  | read => exact keepsHolding_read hX List.mem_cons_self
  | write => exact keepsHolding_write hX List.mem_cons_self

/-- An error reply uses no path. -/
theorem wp_handleConfined (hX : X.path.Lawful X.fold) (w : Disk) :
    wp (treeSpec X event) (handleRemoteFsEvent X event) (fun _ _ => True) (fun _ _ => True) w := by
  unfold handleRemoteFsEvent
  rw [wp_catching]
  refine wp_mono (keepsHolding_respondRemoteFs hX w (by simp [Holding])) (fun _ _ _ => trivial)
    fun error w' _ => ?_
  rw [wp_catching]
  refine wp_mono ((keepsHolding_respond rfl : KeepsHolding X event [] _) w' (by simp [Holding]))
    (fun _ _ _ => trivial) fun _ _ _ => wp_pure.mpr trivial

end Handlers

/-- Paths that a handler may use in a tree with links anywhere. -/
structure PathConfined (X : RemoteFsExternals) : Prop where
  existing : ∀ event grant relativePath w r w',
    Reaches (treeSpec X event) (resolveExistingLocal X grant relativePath) w (.pure r) w' →
      w' = w ∧ Existing X w.tree grant r
  newChild : ∀ event grant parentPath name w path w',
    Reaches (treeSpec X event) (resolveNewLocalChild X grant parentPath name) w (.pure path) w' →
      w' = w ∧ NewChild X w.tree grant path
  operations : ∀ event w op k w',
    Reaches (treeSpec X event) (handleRemoteFsEvent X event) w (.call op k) w' →
      ∀ path ∈ op.localPaths,
        ∃ grant, GrantNamed event w'.seen grant ∧ Confined X w'.tree grant path

/-- **Path confinement.** -/
theorem path_confinement {X : RemoteFsExternals} (hX : X.path.Lawful X.fold) :
    PathConfined X where
  existing _ _ _ _ _ _ hreach := (returns_resolveExistingLocal hX).reaches hreach
  newChild _ _ _ _ _ _ _ hreach := (returns_resolveNewLocalChild hX).reaches hreach
  operations _ w _ _ _ hreach :=
    (wp_call.mp (wp_reaches (wp_handleConfined hX w) hreach)).1

/-! ## §8  A path through a link -/

namespace Sample

/-- The shared directory `/home/music` holds the link `latest` to its
directory `albums`, and the link `etc` that leaves it. -/
def musicTree : FileTree where
  entry
    | [], "/" => some ("/", .directory)
    | ["/"], "home" => some ("home", .directory)
    | ["/", "home"], "music" => some ("music", .directory)
    | ["/", "home", "music"], "albums" => some ("albums", .directory)
    | ["/", "home", "music"], "latest" => some ("latest", .link ⟨false, ["albums"]⟩)
    | ["/", "home", "music"], "etc" => some ("etc", .link ⟨true, ["/", "etc"]⟩)
    | ["/", "home", "music", "albums"], "song.ogg" => some ("song.ogg", .file)
    | _, _ => none

def music : RemoteFsGrant := ⟨"music", "Music", .localPath, "/home/music", true⟩

/-- Answers from the tree for the path `latest/song.ogg`. -/
def musicAnswer : (op : FsOp) → Except RemoteFsError op.Answer
  | .entityType "/home/music" => .ok .directory
  | .entityType "/home/music/latest/song.ogg" => .ok .file
  | .resolveSymbolicLinks "/home/music" => .ok "/home/music"
  | .resolveSymbolicLinks "/home/music/latest/song.ogg" => .ok "/home/music/albums/song.ogg"
  | _ => .error .other

theorem resolves_music : musicTree.Resolves [] ["/", "home", "music"] ["/", "home", "music"] :=
  .step rfl (.step rfl (.step rfl .nil))

theorem resolves_latest :
    musicTree.Resolves [] ["/", "home", "music", "latest"] ["/", "home", "music", "albums"] :=
  .step rfl (.step rfl (.step rfl (.step rfl (.step rfl .nil))))

theorem resolves_song : musicTree.Resolves [] ["/", "home", "music", "latest", "song.ogg"]
    ["/", "home", "music", "albums", "song.ogg"] :=
  .step rfl (.step rfl (.step rfl (.step rfl (.step rfl (.step rfl .nil)))))

theorem names_music : musicTree.Names ["/", "home", "music"] ["/", "home"] "music" where
  isName := ⟨by decide, by decide⟩
  resolves := ⟨["/", "home"], rfl, .step rfl (.step rfl .nil)⟩

theorem names_song : musicTree.Names ["/", "home", "music", "latest", "song.ogg"]
    ["/", "home", "music", "albums"] "song.ogg" where
  isName := ⟨by decide, by decide⟩
  resolves := ⟨["/", "home", "music", "latest"], rfl, resolves_latest⟩

theorem honest_musicAnswer (op : FsOp) :
    Honest remoteFsExternals musicTree op (musicAnswer op) := by
  have hmusic : remoteFsExternals.path.split "/home/music" = ["/", "home", "music"] := by
    decide +kernel
  have hsong : remoteFsExternals.path.split "/home/music/latest/song.ogg" =
      ["/", "home", "music", "latest", "song.ogg"] := by decide +kernel
  have halbums : remoteFsExternals.path.split "/home/music/albums/song.ogg" =
      ["/", "home", "music", "albums", "song.ogg"] := by decide +kernel
  unfold musicAnswer
  split
  · exact typeOf_of_names _ _ (hmusic ▸ names_music)
  · exact typeOf_of_names _ _ (hsong ▸ names_song)
  · exact ⟨⟨by decide +kernel, by decide +kernel⟩, hmusic.symm ▸ resolves_music⟩
  · refine ⟨⟨by decide +kernel, by decide +kernel⟩, ?_⟩
    rw [hsong, halbums]
    exact resolves_song
  · cases op <;> trivial

end Sample

theorem path_confinement_linked : ∃ w,
    Reaches (treeSpec Sample.remoteFsExternals Sample.deletion)
      (resolveExistingLocal Sample.remoteFsExternals Sample.music "latest/song.ogg")
      ⟨Sample.musicTree, []⟩ (.pure ⟨"/home/music/latest/song.ogg", .file⟩) w ∧
      Existing Sample.remoteFsExternals Sample.musicTree Sample.music
        ⟨"/home/music/latest/song.ogg", .file⟩ := by
  have hX : Sample.remoteFsExternals.path.Lawful Sample.remoteFsExternals.fold :=
    PathContext.Posix.lawful
  have hrun : (resolveExistingLocal Sample.remoteFsExternals Sample.music "latest/song.ogg").run
      .empty Sample.musicAnswer = .ok ⟨"/home/music/latest/song.ogg", .file⟩ := by
    decide +kernel
  have hstart := Reaches.refl (S := treeSpec Sample.remoteFsExternals Sample.deletion)
    (p := resolveExistingLocal Sample.remoteFsExternals Sample.music "latest/song.ogg")
    (w := ⟨Sample.musicTree, []⟩)
  obtain ⟨w, hw⟩ := hstart.run (r := RemoteFsAccessConfig.empty)
    (J := fun w => w.tree = Sample.musicTree)
    (fun w hw => ⟨{ w with seen := w.seen ++ [.empty] }, rfl, hw⟩)
    (fun op w hw => by
      have hhonest := Sample.honest_musicAnswer op
      rw [← hw] at hhonest
      exact ⟨w, ⟨rfl, fun _ => rfl, hhonest⟩, hw⟩) rfl
  rw [hrun] at hw
  exact ⟨w, hw, ((path_confinement hX).existing _ _ _ _ _ _ hw).2⟩

end FireBoxTransfer
