import FireBoxTransfer.RemoteFs.Listing
import FireBoxTransfer.RemoteFs.Pages
import FireBoxTransfer.RemoteFs.SafChannel
import FireBoxTransfer.RemoteFs.Validators
import Mathlib.Algebra.Order.BigOperators.Group.List
import Mathlib.Algebra.Order.Group.Nat

/-!
# Document trees that stay as they are

A tree that does not change gives the same rows again: a document of a listing
is the document that its own URI names, and lies inside the shared tree. Then
a name leads to the one child that has it, if every child has a name.
-/

namespace FireBoxTransfer

/-! ## §1  Documents of a tree -/

def rootUri (tree : SafUri) : SafUri := tree.buildDocumentUriUsingTree tree.getTreeDocumentId

namespace SafPlatform

/-- The documents that listings lead to, from the root of a tree. -/
inductive Document (P : SafPlatform) (tree : SafUri) : SafUri → Prop where
  | root : P.Document tree (rootUri tree)
  | child {directory rows row id} : P.Document tree directory →
      P.queryChildren directory = .ok (some rows) → row ∈ rows → row.documentId = some id →
      P.Document tree (tree.buildDocumentUriUsingTree id)

/-- `P.At tree names uri`: the names lead from the root of the tree to the
document, each of them the display name of a child. -/
inductive At (P : SafPlatform) (tree : SafUri) : List String → SafUri → Prop where
  | root : P.At tree [] (rootUri tree)
  | child {names directory rows row name id} : P.At tree names directory →
      P.queryChildren directory = .ok (some rows) → row ∈ rows → row.displayName = some name →
      row.documentId = some id → P.At tree (names ++ [name]) (tree.buildDocumentUriUsingTree id)

/-- What a provider of trees that stay as they are promises: a document is
queried as it is listed, it is inside its tree, and its URI can be read
again. -/
structure StaticTree (P : SafPlatform) : Prop where
  parse_render : ∀ tree uri, tree ∈ registeredSharedRootUris P → P.Document tree uri →
    P.parse (P.render uri) = some uri
  inside : ∀ tree uri, tree ∈ registeredSharedRootUris P → P.Document tree uri →
    uri.getDocumentId ≠ tree.getTreeDocumentId → P.isChildDocument (rootUri tree) uri = .ok true
  same_row : ∀ tree directory rows row id, tree ∈ registeredSharedRootUris P →
    P.Document tree directory → P.queryChildren directory = .ok (some rows) → row ∈ rows →
    row.documentId = some id →
    ∃ more, P.query (tree.buildDocumentUriUsingTree id) = .ok (some (row :: more))

end SafPlatform

theorem ensure_eq_ok {c : Bool} {code : String} {u : Unit} : ensure c code = .ok u ↔ c = true := by
  unfold ensure
  split_ifs with h
  · exact iff_of_true rfl h
  · exact iff_of_false (fun h => by cases h) h

theorem orThrow_eq_ok {α : Type} {code : String} {o : Option α} {a : α} :
    orThrow code o = .ok a ↔ o = some a := by
  cases o with
  | none => exact iff_of_false (fun h => by cases h) fun h => by cases h
  | some b => exact ⟨fun h => congrArg some (Except.ok.inj h), fun h => by cases h; rfl⟩

theorem requiredColumn_eq_ok {column : Option String} {value : String} :
    requiredColumn column = .ok value ↔ column = some value := orThrow_eq_ok

theorem handleSafResult_eq_ok {α : Type} {code : String} {r : Native α} {a : α} :
    handleSafResult code r = .ok a ↔ r = .ok a := by
  cases r with
  | ok b => exact ⟨fun h => by cases h; rfl, fun h => by cases h; rfl⟩
  | error e =>
      refine iff_of_false (fun h => ?_) fun h => by cases h
      cases e <;> cases h

/-! ## §2  Granted documents -/

section Granted

variable {P : SafPlatform} {value : String} {d : GrantedSafDocument} {id : String}

/-- What a grant to read rests on. -/
structure GrantedBy (P : SafPlatform) (requested : SafUri) (permission : SafPermission)
    (d : GrantedSafDocument) : Prop where
  isTree : requested.treeId.isSome = true
  registered : (registeredSharedRootUris P).find? (fun uri => uri.sameTree requested) =
    some d.treeUri
  persisted : P.persistedUriPermissions.find? (fun permission =>
    permission.uri.sameTree d.treeUri) = some permission
  readable : permission.isReadPermission = true
  root : d.rootDocumentId = d.treeUri.getTreeDocumentId
  document : d.documentUri = d.treeUri.buildDocumentUriUsingTree
    (requested.documentId.getD requested.getTreeDocumentId)
  ancestry : checkAncestry P (rootUri d.treeUri) d.documentUri = .ok ()
  canRead : d.canRead = permission.isReadPermission
  canWrite : d.canWrite = permission.isWritePermission

theorem requireGrantedDocument_eq_ok :
    requireGrantedDocument P value false = .ok d ↔
      ∃ requested permission, P.parse value = some requested ∧
        GrantedBy P requested permission d := by
  unfold requireGrantedDocument parseContentUri
  constructor
  · intro h
    obtain ⟨requested, hparse, h⟩ := Except.bind_eq_ok.mp h
    obtain ⟨_, htree, h⟩ := Except.bind_eq_ok.mp h
    obtain ⟨tree, hregistered, h⟩ := Except.bind_eq_ok.mp h
    obtain ⟨permission, hpermission, h⟩ := Except.bind_eq_ok.mp h
    obtain ⟨_, -, h⟩ := Except.bind_eq_ok.mp h
    obtain ⟨_, hread, h⟩ := Except.bind_eq_ok.mp h
    obtain ⟨_, hancestry, h⟩ := Except.bind_eq_ok.mp h
    obtain rfl := Except.ok.inj h
    exact ⟨requested, permission, orThrow_eq_ok.mp hparse, ensure_eq_ok.mp htree,
      orThrow_eq_ok.mp hregistered, orThrow_eq_ok.mp hpermission,
      by simpa using ensure_eq_ok.mp hread, rfl, rfl, hancestry, rfl, rfl⟩
  · rintro ⟨requested, permission, hparse, h⟩
    obtain ⟨tree, rootId, uri, canRead, canWrite⟩ := d
    obtain ⟨htree, hregistered, hpermission, hread, hroot, hdocument, hancestry, hcanRead,
      hcanWrite⟩ := h
    simp only at hregistered hpermission hroot hdocument hancestry hcanRead hcanWrite
    rw [Except.bind_ok (orThrow_eq_ok.mpr hparse),
      Except.bind_ok (a := ()) (ensure_eq_ok.mpr htree),
      Except.bind_ok (orThrow_eq_ok.mpr hregistered),
      Except.bind_ok (orThrow_eq_ok.mpr hpermission),
      Except.bind_ok (a := ()) (ensure_eq_ok.mpr (by simp)),
      Except.bind_ok (a := ()) (ensure_eq_ok.mpr (by simp [hread]))]
    subst hdocument hroot hcanRead hcanWrite
    exact Except.bind_ok hancestry

/-- URIs of the same tree are granted alike. -/
theorem sameTree_build {tree requested : SafUri} (h : tree.sameTree requested = true)
    (uri : SafUri) :
    uri.sameTree (tree.buildDocumentUriUsingTree id) = uri.sameTree requested := by
  unfold SafUri.sameTree at h ⊢
  simp only [Bool.and_eq_true, decide_eq_true_eq] at h
  obtain ⟨⟨⟨hauthority, htree⟩, hrequested⟩, hid⟩ := h
  have hsome : (tree.buildDocumentUriUsingTree id).treeId.isSome = true := htree
  have hsame : (tree.buildDocumentUriUsingTree id).getTreeDocumentId =
    tree.getTreeDocumentId := rfl
  have hauth : (tree.buildDocumentUriUsingTree id).authority = tree.authority := rfl
  rw [hsome, hsame, hauth, hauthority, hrequested, hid]

/-- Another document of the tree is granted in the same way. -/
theorem requireGrantedDocument_sibling (h : requireGrantedDocument P value false = .ok d)
    (hparse : P.parse (P.render (d.treeUri.buildDocumentUriUsingTree id)) =
      some (d.treeUri.buildDocumentUriUsingTree id))
    (hancestry : checkAncestry P (rootUri d.treeUri) (d.treeUri.buildDocumentUriUsingTree id) =
      .ok ()) :
    requireGrantedDocument P (P.render (d.treeUri.buildDocumentUriUsingTree id)) false =
      .ok { d with documentUri := d.treeUri.buildDocumentUriUsingTree id } := by
  obtain ⟨requested, permission, -, hd⟩ := requireGrantedDocument_eq_ok.mp h
  have hsame := List.find?_some hd.registered
  refine requireGrantedDocument_eq_ok.mpr ⟨_, permission, hparse, ?_⟩
  have htree : d.treeUri.treeId.isSome = true := by
    unfold SafUri.sameTree at hsame
    simp only [Bool.and_eq_true] at hsame
    exact hsame.1.1.2
  exact {
    isTree := htree
    registered := by
      rw [← hd.registered]
      exact congrArg (List.find? · _) (funext fun uri => sameTree_build hsame uri)
    persisted := hd.persisted
    readable := hd.readable
    root := hd.root
    document := rfl
    ancestry := hancestry
    canRead := hd.canRead
    canWrite := hd.canWrite }

/-- A document of a shared tree that the platform lets be read. -/
structure SafPlatform.Reads (P : SafPlatform) (d : GrantedSafDocument) : Prop where
  granted : ∃ value, requireGrantedDocument P value false = .ok d
  registered : d.treeUri ∈ registeredSharedRootUris P
  document : P.Document d.treeUri d.documentUri

theorem SafPlatform.StaticTree.checkAncestry (hP : P.StaticTree) {tree uri : SafUri}
    (htree : tree ∈ registeredSharedRootUris P) (huri : P.Document tree uri) :
    checkAncestry P (rootUri tree) uri = .ok () := by
  unfold FireBoxTransfer.checkAncestry
  split_ifs with hask
  · simp only [Bool.and_eq_true, decide_eq_true_eq] at hask
    rw [hP.inside tree uri htree huri hask.1]
    rfl
  · rfl

/-- The children of a granted document are granted. -/
theorem SafPlatform.Reads.child (hP : P.StaticTree) (h : P.Reads d) {rows : List SafRow}
    {row : SafRow}
    (hrows : P.queryChildren d.documentUri = .ok (some rows)) (hrow : row ∈ rows)
    (hid : row.documentId = some id) :
    requireGrantedDocument P (P.render (d.treeUri.buildDocumentUriUsingTree id)) false =
        .ok { d with documentUri := d.treeUri.buildDocumentUriUsingTree id } ∧
      P.Reads { d with documentUri := d.treeUri.buildDocumentUriUsingTree id } := by
  obtain ⟨value, hvalue⟩ := h.granted
  have hdocument := SafPlatform.Document.child h.document hrows hrow hid
  have hgranted := requireGrantedDocument_sibling hvalue
    (hP.parse_render _ _ h.registered hdocument) (hP.checkAncestry h.registered hdocument)
  exact ⟨hgranted, ⟨_, hgranted⟩, h.registered, hdocument⟩

/-- A granted document is granted again under its own URI. -/
theorem SafPlatform.Reads.again (hP : P.StaticTree) (h : P.Reads d) :
    requireGrantedDocument P (P.render d.documentUri) false = .ok d := by
  obtain ⟨value, hvalue⟩ := h.granted
  obtain ⟨requested, permission, -, hd⟩ := requireGrantedDocument_eq_ok.mp hvalue
  have hparse := hP.parse_render _ _ h.registered h.document
  have hancestry := hd.ancestry
  rw [hd.document] at hparse hancestry ⊢
  rw [requireGrantedDocument_sibling hvalue hparse hancestry, ← hd.document]

end Granted

/-! ## §3  One name -/

section Names

variable {P : SafPlatform} {d d' : GrantedSafDocument} {segment : String} {rows : List SafRow}

theorem childRows_eq_ok :
    childRows P d = .ok rows ↔
      (∃ metadata, queryDocumentMetadata P d = .ok metadata ∧ metadata.isDirectory = true) ∧
        P.queryChildren d.documentUri = .ok (some rows) := by
  unfold childRows
  constructor
  · intro h
    obtain ⟨metadata, hmetadata, h⟩ := Except.bind_eq_ok.mp h
    obtain ⟨_, hdirectory, h⟩ := Except.bind_eq_ok.mp h
    obtain ⟨cursor, hcursor, h⟩ := Except.bind_eq_ok.mp h
    refine ⟨⟨metadata, hmetadata, ensure_eq_ok.mp hdirectory⟩, ?_⟩
    rw [hcursor, orThrow_eq_ok.mp h]
  · rintro ⟨⟨metadata, hmetadata, hdirectory⟩, hcursor⟩
    rw [Except.bind_ok hmetadata, Except.bind_ok (a := ()) (ensure_eq_ok.mpr hdirectory),
      Except.bind_ok hcursor]
    rfl

/-- A row that has the name, as far as rows have names. -/
def named (segment : String) (row : SafRow) : Bool := row.displayName = some segment

/-- The ids that are found belong to rows of that name. -/
theorem mem_matchingIds {ids : List String} {id : String}
    (h : matchingIds segment rows = .ok ids) (hid : id ∈ ids) :
    ∃ row ∈ rows, row.displayName = some segment ∧ row.documentId = some id := by
  induction rows generalizing ids with
  | nil =>
      obtain rfl := Except.ok.inj h
      cases hid
  | cons row rows ih =>
      unfold matchingIds at h
      obtain ⟨name, hname, h⟩ := Except.bind_eq_ok.mp h
      split_ifs at h with hsegment
      · obtain ⟨rowId, hrowId, h⟩ := Except.bind_eq_ok.mp h
        obtain ⟨rest, hrest, h⟩ := Except.bind_eq_ok.mp h
        obtain rfl := Except.ok.inj h
        rcases List.mem_cons.mp hid with rfl | hid
        · exact ⟨row, List.mem_cons_self, hsegment ▸ requiredColumn_eq_ok.mp hname,
            requiredColumn_eq_ok.mp hrowId⟩
        · obtain ⟨row', hrow', hfound⟩ := ih hrest hid
          exact ⟨row', List.mem_cons_of_mem _ hrow', hfound⟩
      · obtain ⟨row', hrow', hfound⟩ := ih h hid
        exact ⟨row', List.mem_cons_of_mem _ hrow', hfound⟩

/-- Where every row has a name and an id, the rows of the name are found. -/
theorem matchingIds_of_named (hnames : ∀ row ∈ rows, row.displayName ≠ none)
    (hids : ∀ row ∈ rows, row.documentId ≠ none) :
    matchingIds segment rows =
      .ok ((rows.filter (named segment)).filterMap SafRow.documentId) := by
  induction rows with
  | nil => rfl
  | cons row rows ih =>
      obtain ⟨hname, hnames⟩ := List.forall_mem_cons.mp hnames
      obtain ⟨hid, hids⟩ := List.forall_mem_cons.mp hids
      obtain ⟨name, hname⟩ := Option.ne_none_iff_exists'.mp hname
      obtain ⟨id, hid⟩ := Option.ne_none_iff_exists'.mp hid
      unfold matchingIds
      rw [Except.bind_ok (requiredColumn_eq_ok.mpr hname)]
      by_cases hsegment : name = segment
      · have hnamed : named segment row = true := by simp [named, hname, hsegment]
        rw [if_pos hsegment, Except.bind_ok (requiredColumn_eq_ok.mpr hid),
          Except.bind_ok (ih hnames hids), List.filter_cons_of_pos hnamed,
          List.filterMap_cons_some hid]
        rfl
      · have hnamed : ¬ named segment row = true := by simp [named, hname, hsegment]
        rw [if_neg hsegment, ih hnames hids, List.filter_cons_of_neg hnamed]

/-- A name leads to a child that has it, with the grant of its directory. -/
theorem SafPlatform.Reads.of_segment (hP : P.StaticTree) (h : P.Reads d)
    (hrun : resolveSegment P d segment = .ok d') :
    P.Reads d' ∧ (∃ uri, d' = { d with documentUri := uri }) ∧
      ∀ names, P.At d.treeUri names d.documentUri →
        P.At d.treeUri (names ++ [segment]) d'.documentUri := by
  unfold resolveSegment at hrun
  obtain ⟨rows, hrows, hrun⟩ := Except.bind_eq_ok.mp hrun
  obtain ⟨ids, hids, hrun⟩ := Except.bind_eq_ok.mp hrun
  obtain ⟨-, hrows⟩ := childRows_eq_ok.mp hrows
  split at hrun
  · cases hrun
  · rename_i id
    obtain ⟨row, hrow, hname, hid⟩ := mem_matchingIds hids (List.mem_singleton_self id)
    obtain ⟨hgranted, hchild⟩ := h.child hP hrows hrow hid
    obtain rfl := Except.ok.inj (hgranted.symm.trans hrun)
    exact ⟨hchild, ⟨_, rfl⟩, fun names hnames => .child hnames hrows hrow hname hid⟩
  · cases hrun

/-- The run over the names of a path. -/
theorem SafPlatform.Reads.of_segments (hP : P.StaticTree) {names : List String} (h : P.Reads d)
    (hrun : names.foldlM (resolveSegment P) d = .ok d') :
    P.Reads d' ∧ (∃ uri, d' = { d with documentUri := uri }) ∧
      ∀ before, P.At d.treeUri before d.documentUri →
        P.At d.treeUri (before ++ names) d'.documentUri := by
  induction names generalizing d with
  | nil =>
      obtain rfl := Except.ok.inj hrun
      exact ⟨h, ⟨_, rfl⟩, fun before hbefore => (List.append_nil before).symm ▸ hbefore⟩
  | cons name names ih =>
      rw [List.foldlM_cons] at hrun
      obtain ⟨next, hnext, hrun⟩ := Except.bind_eq_ok.mp hrun
      obtain ⟨hgranted, ⟨uri, rfl⟩, hat⟩ := h.of_segment hP hnext
      obtain ⟨hgranted', ⟨uri', rfl⟩, hat'⟩ := ih hgranted hrun
      refine ⟨hgranted', ⟨uri', rfl⟩, fun before hbefore => ?_⟩
      have hrest := hat' _ (hat before hbefore)
      rwa [List.append_assoc, List.singleton_append] at hrest

end Names

/-! ## §4  A relative path -/

section Paths

variable {P : SafPlatform} {path rootUri : String} {root current : GrantedSafDocument}

/-- A string has no more code units than bytes. -/
theorem length_codeUnits_le (s : String) : (codeUnits s).length ≤ s.utf8ByteSize := by
  have hchar : ∀ ch : Char, (charUnits ch).length ≤ ch.utf8Size := by
    intro ch
    have hle : ∀ n hn, ch.val ≤ UInt32.ofNatLT n hn → ch.toNat ≤ n := fun n hn h => by
      simpa using UInt32.le_iff_toNat_le.mp h
    unfold charUnits Char.utf8Size
    dsimp only
    split_ifs with hplane h1 h2 h3 h1 h2 h3
    all_goals simp only [List.length_cons, List.length_nil]
    all_goals try omega
    exact absurd (hle _ _ h1) (by omega)
  rw [codeUnits_eq, List.length_flatMap, Texts.utf8ByteSize_eq_sum]
  exact List.sum_le_sum fun ch _ => hchar ch

theorem mem_segments (h : validRelativePath path = true) {s : String} (hs : s ∈ segments path) :
    Segment s ∧ ∀ ch ∈ s.toList, ch ∈ path.toList := by
  unfold segments at hs
  split_ifs at hs with hempty
  · cases hs
  · obtain ⟨piece, hpiece, rfl⟩ := List.mem_map.mp hs
    have hpath := (validRelativePath_iff.mp h).resolve_left hempty
    have hdots := segments_iff.mp hpath.segments _ hs
    rw [String.toList_ofList]
    refine ⟨⟨fun heq => hdots (.inl heq), fun heq => hdots (.inr (.inl heq)),
      fun heq => hdots (.inr (.inr heq)), fun hmem => ?_⟩, fun ch hch => (mem_piece hpiece hch).2⟩
    rw [String.toList_ofList] at hmem
    exact (mem_piece hpiece hmem).1 rfl

/-- Both sides take a valid path apart in the same way. -/
theorem safSegments_eq (h : validRelativePath path = true) : safSegments path = segments path := by
  unfold safSegments segments
  split_ifs with hempty
  · subst hempty
    rfl
  · have hpath := (validRelativePath_iff.mp h).resolve_left hempty
    have hmap : (path.toList.map fun ch => if ch = '\\' then '/' else ch) = path.toList := by
      conv_rhs => rw [← List.map_id path.toList]
      refine List.map_congr_left fun ch hch => if_neg ?_
      rintro rfl
      exact hpath.backslash hch
    have hne : ∀ piece ∈ path.toList.splitOn '/', decide (piece ≠ []) = true := by
      intro piece hpiece
      have hdots := segments_iff.mp hpath.segments (String.ofList piece)
        (List.mem_map_of_mem hpiece)
      exact decide_eq_true fun hnil => hdots (.inl (hnil ▸ rfl))
    rw [hmap, List.filter_eq_self.mpr hne]
    rfl

theorem forbiddenSegment_eq_false (h : validRelativePath path = true) {s : String}
    (hs : s ∈ segments path) : forbiddenSegment s = false := by
  obtain ⟨hsegment, hchars⟩ := mem_segments h hs
  have hcontrol : '\x00' ∉ s.toList := by
    intro hmem
    rcases validRelativePath_iff.mp h with rfl | hpath
    · cases hs
    · exact hpath.control _ (hchars _ hmem) (.inl (by decide))
  simp [forbiddenSegment, hsegment.ne_dot, hsegment.ne_dots, hcontrol]

/-- A child's path has one name more. -/
theorem segments_child {name : String} (hname : validFileName name = true) :
    segments (childRemotePath path name) = segments path ++ [name] := by
  have hempty : name ≠ "" := by
    rintro rfl
    exact absurd hname (by decide)
  exact segments_childRemotePath hempty (slash_notMem_of_validFileName hname)

/-- The root that a request names. -/
structure RootGranted (P : SafPlatform) (rootUri : String) (root : GrantedSafDocument) :
    Prop where
  filled : P.isBlank rootUri = false
  granted : requireGrantedDocument P rootUri false = .ok root
  isRoot : root.documentUri.getDocumentId = root.rootDocumentId

theorem RootGranted.reads (h : RootGranted P rootUri root) :
    P.Reads root ∧ root.documentUri = FireBoxTransfer.rootUri root.treeUri := by
  obtain ⟨requested, permission, -, hd⟩ := requireGrantedDocument_eq_ok.mp h.granted
  have huri : root.documentUri = FireBoxTransfer.rootUri root.treeUri := by
    have hid := h.isRoot
    rw [hd.root] at hid
    rw [hd.document] at hid ⊢
    exact congrArg root.treeUri.buildDocumentUriUsingTree hid
  exact ⟨⟨⟨_, h.granted⟩, List.mem_of_find?_eq_some hd.registered, huri ▸ .root⟩, huri⟩

/-- A valid path from a granted root: only its depth is bounded, and its names
are followed. -/
theorem handleSafResolvePath_of_root (h : RootGranted P rootUri root)
    (hpath : validRelativePath path = true) :
    handleSafResolvePath P rootUri path =
      if 256 < (segments path).length then .error (.platform "INVALID_PATH")
      else handleSafResult "RESOLVE_FAILED" (do
        let current ← (segments path).foldlM (resolveSegment P) root
        let metadata ← queryDocumentMetadata P current
        pure (documentMetadataMap P metadata current)) := by
  have hroot : requiredString P rootUri = .ok rootUri :=
    Except.bind_ok (a := ()) (ensure_eq_ok.mpr (by simp [h.filled]))
  have hlength : (codeUnits path).length ≤ 4096 ∧
      path.toList.head? ≠ some '/' ∧ path.toList.head? ≠ some '\\' := by
    rcases validRelativePath_iff.mp hpath with rfl | hrelative
    · exact ⟨by decide, by decide, by decide⟩
    · refine ⟨(length_codeUnits_le path).trans hrelative.size, fun hhead => ?_, fun hhead => ?_⟩
      · have hdots := segments_iff.mp hrelative.segments
        exact hdots "" (splitSlash_of_head hhead) (.inl rfl)
      · exact hrelative.backslash (List.mem_of_head? hhead)
  have hforbidden : (segments path).any forbiddenSegment = false := by
    rw [List.any_eq_false]
    intro s hs
    simp [forbiddenSegment_eq_false hpath hs]
  unfold handleSafResolvePath
  rw [safSegments_eq hpath, Except.bind_ok hroot, Except.bind_ok h.granted,
    Except.bind_ok (a := ()) (ensure_eq_ok.mpr (by simpa using h.isRoot)),
    Except.bind_ok (a := ()) (ensure_eq_ok.mpr (by simpa using hlength.1)),
    Except.bind_ok (a := ()) (ensure_eq_ok.mpr (by simp [hlength.2]))]
  dsimp only
  rw [hforbidden, Bool.or_false]
  split_ifs with hdeep
  · have hfalse : (!decide ((segments path).length > 256)) = false := by simpa using hdeep
    rw [hfalse]
    rfl
  · rw [Except.bind_ok (a := ()) (ensure_eq_ok.mpr (by simpa using hdeep))]

theorem rootGranted_of_ok {document : SafDocument}
    (h : handleSafResolvePath P rootUri path = .ok document) :
    ∃ root, RootGranted P rootUri root := by
  unfold handleSafResolvePath at h
  obtain ⟨uri, huri, h⟩ := Except.bind_eq_ok.mp (handleSafResult_eq_ok.mp h)
  obtain ⟨root, hroot, h⟩ := Except.bind_eq_ok.mp h
  obtain ⟨_, hisRoot, -⟩ := Except.bind_eq_ok.mp h
  obtain ⟨_, hfilled, hvalue⟩ := Except.bind_eq_ok.mp huri
  obtain rfl := Except.ok.inj hvalue
  exact ⟨root, by simpa using ensure_eq_ok.mp hfilled, hroot,
    of_decide_eq_true (ensure_eq_ok.mp hisRoot)⟩

end Paths

/-! ## §5  Children of a listed directory -/

theorem mem_mapM {α β : Type} {f : α → Native β} {as : List α} {bs : List β}
    (h : as.mapM f = .ok bs) :
    (∀ a ∈ as, ∃ b, f a = .ok b) ∧ ∀ b ∈ bs, ∃ a ∈ as, f a = .ok b := by
  induction as generalizing bs with
  | nil =>
      rw [List.mapM_nil] at h
      obtain rfl := Except.ok.inj h
      exact ⟨fun a ha => (List.not_mem_nil ha).elim, fun b hb => (List.not_mem_nil hb).elim⟩
  | cons a as ih =>
      rw [List.mapM_cons] at h
      obtain ⟨b, hb, h⟩ := Except.bind_eq_ok.mp h
      obtain ⟨rest, hrest, h⟩ := Except.bind_eq_ok.mp h
      obtain rfl := Except.ok.inj h
      obtain ⟨hall, hmem⟩ := ih hrest
      constructor
      · intro a' ha'
        rcases List.mem_cons.mp ha' with rfl | ha'
        · exact ⟨b, hb⟩
        · exact hall a' ha'
      · intro b' hb'
        rcases List.mem_cons.mp hb' with rfl | hb'
        · exact ⟨a, List.mem_cons_self, hb⟩
        · obtain ⟨a', ha', hfound⟩ := hmem b' hb'
          exact ⟨a', List.mem_cons_of_mem _ ha', hfound⟩

section Listed

variable {P : SafPlatform} {rootUri path : String} {directory : SafDocument}
  {documents : List SafDocument} {root current : GrantedSafDocument} {rows : List SafRow}

/-- A directory that was found under a path and listed. -/
structure ListedDirectory (P : SafPlatform) (rootUri path : String) (documents : List SafDocument)
    (root current : GrantedSafDocument) (rows : List SafRow) : Prop where
  granted : RootGranted P rootUri root
  found : (segments path).foldlM (resolveSegment P) root = .ok current
  reads : P.Reads current
  tree : current.treeUri = root.treeUri
  position : P.At root.treeUri (segments path) current.documentUri
  listed : childRows P current = .ok rows
  mapped : rows.mapM (listedDocument P current) = .ok documents

theorem exists_listedDirectory (hP : P.StaticTree) (hpath : validRelativePath path = true)
    (hdirectory : handleSafResolvePath P rootUri path = .ok directory)
    (hlist : handleSafListDirectory P directory.uri = .ok documents) :
    ∃ root current rows, ListedDirectory P rootUri path documents root current rows := by
  obtain ⟨root, hroot⟩ := rootGranted_of_ok hdirectory
  rw [handleSafResolvePath_of_root hroot hpath] at hdirectory
  split_ifs at hdirectory with hdeep
  obtain ⟨current, hcurrent, hdirectory⟩ :=
    Except.bind_eq_ok.mp (handleSafResult_eq_ok.mp hdirectory)
  obtain ⟨metadata, hmetadata, hdirectory⟩ := Except.bind_eq_ok.mp hdirectory
  obtain rfl := Except.ok.inj hdirectory
  obtain ⟨hreads, ⟨uri, huri⟩, hat⟩ := hroot.reads.1.of_segments hP hcurrent
  have hdocument : metadata.uri = current.documentUri := by
    unfold queryDocumentMetadata at hmetadata
    obtain ⟨cursor, -, hmetadata⟩ := Except.bind_eq_ok.mp hmetadata
    obtain ⟨found, -, hmetadata⟩ := Except.bind_eq_ok.mp hmetadata
    obtain ⟨row, -, hmetadata⟩ := Except.bind_eq_ok.mp hmetadata
    obtain rfl := Except.ok.inj hmetadata
    rfl
  unfold handleSafListDirectory at hlist
  obtain ⟨value, hvalue, hlist⟩ := Except.bind_eq_ok.mp (handleSafResult_eq_ok.mp hlist)
  obtain ⟨_, -, hvalue⟩ := Except.bind_eq_ok.mp hvalue
  obtain rfl := Except.ok.inj hvalue
  obtain ⟨listed, hlisted, hlist⟩ := Except.bind_eq_ok.mp hlist
  obtain ⟨rows, hrows, hlist⟩ := Except.bind_eq_ok.mp hlist
  -- the listing asks for the grant again, under the URI that was found
  change requireGrantedDocument P (P.render metadata.uri) false = _ at hlisted
  rw [hdocument, hreads.again hP] at hlisted
  obtain rfl := Except.ok.inj hlisted
  have hstart : P.At root.treeUri [] root.documentUri := hroot.reads.2 ▸ .root
  exact ⟨root, current, rows, hroot, hcurrent, hreads, by rw [huri],
    hat [] hstart, hrows, hlist⟩

/-- The last name of a child's path is looked up in its directory. -/
theorem ListedDirectory.foldlM_child
    (h : ListedDirectory P rootUri path documents root current rows) {name : String}
    (hname : validFileName name = true) :
    (segments (childRemotePath path name)).foldlM (resolveSegment P) root =
      resolveSegment P current name := by
  rw [segments_child hname, List.foldlM_append, Except.bind_ok h.found, List.foldlM_cons]
  cases resolveSegment P current name <;> rfl

/-- A document of the listing has its row. -/
theorem ListedDirectory.exists_row
    (h : ListedDirectory P rootUri path documents root current rows) {document : SafDocument}
    (hdocument : document ∈ documents) :
    ∃ row ∈ rows, ∃ id, row.documentId = some id ∧
      document = documentMetadataMap P
        (metadataFromCursor row (current.treeUri.buildDocumentUriUsingTree id)) current := by
  obtain ⟨row, hrow, hlisted⟩ := (mem_mapM h.mapped).2 document hdocument
  obtain ⟨id, hid, hlisted⟩ := Except.bind_eq_ok.mp hlisted
  exact ⟨row, hrow, id, requiredColumn_eq_ok.mp hid, (Except.ok.inj hlisted).symm⟩

theorem ListedDirectory.documentId_ne_none
    (h : ListedDirectory P rootUri path documents root current rows) :
    ∀ row ∈ rows, row.documentId ≠ none := by
  intro row hrow
  obtain ⟨listed, hlisted⟩ := (mem_mapM h.mapped).1 row hrow
  obtain ⟨id, hid, -⟩ := Except.bind_eq_ok.mp hlisted
  rw [requiredColumn_eq_ok.mp hid]
  exact Option.some_ne_none id

/-- The only child of a name: it is granted, and its row is the one that was
listed. -/
theorem ListedDirectory.resolve_only (hP : P.StaticTree)
    (h : ListedDirectory P rootUri path documents root current rows) {name id : String}
    {row : SafRow} (hnames : ∀ row ∈ rows, row.displayName ≠ none) (hrow : row ∈ rows)
    (hid : row.documentId = some id) (honly : rows.filter (named name) = [row]) :
    (do
      let child ← resolveSegment P current name
      let metadata ← queryDocumentMetadata P child
      pure (documentMetadataMap P metadata child)) =
      .ok (documentMetadataMap P
        (metadataFromCursor row (current.treeUri.buildDocumentUriUsingTree id)) current) := by
  obtain ⟨-, hrows⟩ := childRows_eq_ok.mp h.listed
  obtain ⟨hgranted, -⟩ := h.reads.child hP hrows hrow hid
  obtain ⟨more, hquery⟩ :=
    hP.same_row _ _ _ _ _ h.reads.registered h.reads.document hrows hrow hid
  have hsegment : resolveSegment P current name =
      .ok { current with documentUri := current.treeUri.buildDocumentUriUsingTree id } := by
    unfold resolveSegment
    rw [Except.bind_ok h.listed,
      Except.bind_ok (matchingIds_of_named hnames h.documentId_ne_none), honly,
      List.filterMap_cons_some hid]
    exact hgranted
  have hmetadata : queryDocumentMetadata P
      { current with documentUri := current.treeUri.buildDocumentUriUsingTree id } =
      .ok (metadataFromCursor row (current.treeUri.buildDocumentUriUsingTree id)) := by
    unfold queryDocumentMetadata
    rw [Except.bind_ok hquery]
    rfl
  rw [Except.bind_ok hsegment, Except.bind_ok hmetadata]
  rfl

/-- Several children of a name. -/
theorem ListedDirectory.resolve_several
    (h : ListedDirectory P rootUri path documents root current rows) {name : String}
    (hnames : ∀ row ∈ rows, row.displayName ≠ none) {first second : SafRow} {more : List SafRow}
    (hseveral : rows.filter (named name) = first :: second :: more) :
    resolveSegment P current name = .error (.operation "AMBIGUOUS_PATH") := by
  have hids : ∀ row ∈ rows.filter (named name), ∃ id, row.documentId = some id := by
    intro row hrow
    exact Option.ne_none_iff_exists'.mp (h.documentId_ne_none row (List.mem_filter.mp hrow).1)
  rw [hseveral] at hids
  obtain ⟨id, hid⟩ := hids first List.mem_cons_self
  obtain ⟨id', hid'⟩ := hids second (List.mem_cons_of_mem _ List.mem_cons_self)
  unfold resolveSegment
  rw [Except.bind_ok h.listed,
    Except.bind_ok (matchingIds_of_named hnames h.documentId_ne_none), hseveral,
    List.filterMap_cons_some hid, List.filterMap_cons_some hid']

/-- **A child is found under its path** if the path is not too deep and no
other child has its name; where every child has one, nothing else can go
wrong. -/
theorem ListedDirectory.resolve_child (hP : P.StaticTree)
    (h : ListedDirectory P rootUri path documents root current rows) {document : SafDocument}
    (hdocument : document ∈ documents) (hname : validFileName document.name = true)
    (hchild : validRelativePath (childRemotePath path document.name) = true)
    (hnames : ∀ row ∈ rows, row.displayName ≠ none) :
    handleSafResolvePath P rootUri (childRemotePath path document.name) =
      if 256 < (segments (childRemotePath path document.name)).length then
        .error (.platform "INVALID_PATH")
      else if (rows.filter (named document.name)).length = 1 then .ok document
      else .error (.platform "AMBIGUOUS_PATH") := by
  obtain ⟨row, hrow, id, hid, hrowOf⟩ := h.exists_row hdocument
  have hdisplay : row.displayName = some document.name := by
    obtain ⟨name, hdisplay⟩ := Option.ne_none_iff_exists'.mp (hnames row hrow)
    rw [hrowOf]
    change _ = some (row.displayName.getD _)
    rw [hdisplay]
    rfl
  have hfilter : row ∈ rows.filter (named document.name) :=
    List.mem_filter.mpr ⟨hrow, decide_eq_true hdisplay⟩
  rw [handleSafResolvePath_of_root h.granted hchild, h.foldlM_child hname]
  split_ifs with hdeep hunique
  · rfl
  · obtain ⟨only, honly⟩ := List.length_eq_one_iff.mp hunique
    obtain rfl : row = only := by
      rw [honly] at hfilter
      exact List.mem_singleton.mp hfilter
    rw [h.resolve_only hP hnames hrow hid honly, ← hrowOf]
    rfl
  · cases hseveral : rows.filter (named document.name) with
    | nil =>
        rw [hseveral] at hfilter
        cases hfilter
    | cons first more =>
        cases more with
        | nil => exact absurd (by rw [hseveral]; rfl) hunique
        | cons second more =>
            rw [h.resolve_several hnames hseveral]
            rfl

end Listed

end FireBoxTransfer
