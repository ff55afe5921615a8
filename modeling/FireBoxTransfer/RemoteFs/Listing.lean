import FireBoxTransfer.Framework.Texts
import FireBoxTransfer.RemoteFs.Serving
import FireBoxTransfer.RemoteFs.AccessControl

/-!
# Pages and the core

Whatever its provider lists, the isolate leaves out the entries that the core
would not accept; what remains to be checked of a page is that it names no
path twice. A directory of the local file system has no two entries of one
name. A document tree may have.
-/

namespace FireBoxTransfer

open Program

/-! ## §1  Listable entries -/

/-- The dates that a handler formats are short texts. -/
structure RemoteFsExternals.ShortDates (X : RemoteFsExternals) : Prop where
  date : ∀ t, Firebox.validText 64 (some (X.iso8601 t)) = true

/-- An entry as the isolate lists it below `parent`. -/
structure Listable (parent : String) (entry : RemoteFsEntry) : Prop where
  name : validFileName entry.name = true
  path : entry.path = childRemotePath parent entry.name
  validPath : validRelativePath entry.path = true
  modified : Firebox.validText 64 entry.modified = true
  mimeType : Firebox.validText 255 entry.mimeType = true
  entryType : entry.entryType ≠ .other
  capabilities : entry.capabilities.length ≤ 7

section Names

variable {parent name : String}

theorem slash_notMem_of_validFileName (h : validFileName name = true) : '/' ∉ name.toList := by
  simp only [validFileName, Bool.and_eq_true, Bool.not_eq_true', contains] at h
  have hslash := h.1.1.2
  rw [List.contains_eq_mem, decide_eq_false_iff_not] at hslash
  exact hslash

/-- The name of a child is the last component of its path. -/
theorem basenameRemotePath_child (h : validFileName name = true) :
    basenameRemotePath (childRemotePath parent name) = name := by
  have hslash := slash_notMem_of_validFileName h
  unfold basenameRemotePath childRemotePath
  split_ifs
  · rw [Texts.takeWhile_reverse_of_notMem hslash, String.ofList_toList]
  · rw [String.toList_append, String.toList_append]
    have hsep : ("/" : String).toList = ['/'] := rfl
    rw [hsep, List.append_assoc, List.singleton_append, Texts.takeWhile_reverse_append hslash,
      String.ofList_toList]

theorem childRemotePath_injective {name' : String}
    (h : childRemotePath parent name = childRemotePath parent name') : name = name' := by
  unfold childRemotePath at h
  split_ifs at h
  · exact h
  · rw [← String.toList_inj] at h ⊢
    simpa using h

theorem safeMimeType_valid {value : Option String} :
    Firebox.validText 255 (safeMimeType value) = true := by
  cases value with
  | none => rfl
  | some v =>
      unfold safeMimeType Firebox.validText
      rw [Firebox.anyControl_eq, Option.filter_some]
      split_ifs with h
      · simpa using h
      · rfl

end Names

section Capabilities

variable {grant : RemoteFsGrant}

theorem length_capabilityIf {c : Bool} {capability : RemoteFsCapability} :
    (capabilityIf c capability).length ≤ 1 := by
  unfold capabilityIf
  split <;> simp

theorem length_localEntryCapabilities {type : FileSystemEntityType} :
    (localEntryCapabilities grant type).length ≤ 7 := by
  have hone := @length_capabilityIf
  have hbrowse := @hone (type = .directory) .browse
  have hread := @hone (type = .file) .read
  have hcreate := @hone (type = .directory) .createDirectory
  have hwrite := @hone (type = .file) .write
  unfold localEntryCapabilities
  split_ifs
  · rw [List.length_append]
    omega
  · simp only [List.length_append, List.length_cons, List.length_nil]
    omega

theorem length_safEntryCapabilities {document : SafDocument} :
    (safEntryCapabilities document grant).length ≤ 7 := by
  have hone := @length_capabilityIf
  have hread : (if document.isDirectory = true then [RemoteFsCapability.browse]
      else capabilityIf document.canRead .read).length ≤ 1 := by
    split
    · exact le_rfl
    · exact hone
  have hwrite := @hone document.canWrite .write
  have hcreate := @hone document.canCreate .createDirectory
  have hrename := @hone document.canRename .rename
  have hmove := @hone document.canMove .move
  have hdelete := @hone document.canDelete .delete
  unfold safEntryCapabilities
  dsimp only
  split
  · exact hread.trans (by omega)
  · simp only [List.length_append]
    omega

end Capabilities

/-! ## §2  The checks of a page -/

namespace Firebox

theorem Listable.validateEntry {parent : String} {entry : RemoteFsEntry}
    (h : Listable parent entry) : validateEntry entry (some parent) = .ok () := by
  unfold Firebox.validateEntry
  simp only [then_eq_ok, mapError_eq_ok, validateFileName_eq_ok, validateRelativePath_eq_ok,
    check_eq_ok, Bool.and_eq_true, childPath_eq]
  exact ⟨h.name, h.validPath, decide_eq_true h.path, h.modified, h.mimeType⟩

/-- Of listable entries, only the paths are left to be compared. -/
theorem validateEntries_eq_ok {parent : String} {entries : List RemoteFsEntry}
    (h : ∀ entry ∈ entries, Listable parent entry) {seen : List String} :
    validateEntries parent seen entries = .ok () ↔
      (entries.map RemoteFsEntry.path).Nodup ∧ ∀ entry ∈ entries, entry.path ∉ seen := by
  induction entries generalizing seen with
  | nil => simp [validateEntries]
  | cons entry entries ih =>
      obtain ⟨hentry, hentries⟩ := List.forall_mem_cons.mp h
      unfold validateEntries
      simp only [then_eq_ok, Listable.validateEntry hentry, check_eq_ok, ih hentries,
        List.map_cons, List.nodup_cons, List.mem_cons, forall_eq_or_imp, List.mem_map,
        List.contains_eq_mem, Bool.not_eq_true', decide_eq_false_iff_not, true_and, not_or]
      constructor
      · rintro ⟨hseen, hnodup, hnew⟩
        refine ⟨⟨?_, hnodup⟩, hseen, fun e he => (hnew e he).2⟩
        rintro ⟨e, he, heq⟩
        exact (hnew e he).1 heq
      · rintro ⟨⟨hnew, hnodup⟩, hseen, hrest⟩
        exact ⟨hseen, hnodup, fun e he => ⟨fun heq => hnew ⟨e, he, heq⟩, hrest e he⟩⟩

/-- Below one parent, paths are told apart by names. -/
theorem nodup_paths {parent : String} {entries : List RemoteFsEntry}
    (h : ∀ entry ∈ entries, Listable parent entry) :
    (entries.map RemoteFsEntry.path).Nodup ↔ (entries.map RemoteFsEntry.name).Nodup := by
  have hpaths : entries.map RemoteFsEntry.path =
      (entries.map RemoteFsEntry.name).map (childRemotePath parent) := by
    rw [List.map_map]
    exact List.map_congr_left fun entry hentry => (h entry hentry).path
  rw [hpaths]
  exact List.nodup_map_iff fun _ _ => childRemotePath_injective

/-- Of a page of listable entries, only the names are left to be compared. -/
theorem validatePage_eq_ok_iff {request : RemoteFsListRequest} {response : RemoteFsListResponse}
    (hlistable : ∀ entry ∈ response.entries, Listable request.location.path entry)
    (hlength : response.entries.length ≤ request.limit)
    (hcursor : response.nextCursor.all validCursor = true) :
    validatePage request response = .ok () ↔
      (response.entries.map RemoteFsEntry.name).Nodup := by
  unfold validatePage
  rw [then_eq_ok, then_eq_ok, check_eq_ok, check_eq_ok, validateEntries_eq_ok hlistable,
    nodup_paths hlistable]
  simp [hlength, hcursor]

/-- The cursor of a page that ends at an offset is a short text. -/
theorem validText_offset {stop : ℕ} (h : stop < 2 ^ 63) :
    validText 23 (some ("v1:" ++ toString stop)) = true := by
  have hsize : (toString stop).utf8ByteSize ≤ 20 :=
    Texts.utf8ByteSize_toString_le (by omega) (by omega)
  have hdigits : (toString stop).toList.any isControl = false := by
    rw [List.any_eq_false]
    intro c hc
    have hdigit := Texts.isDigit_of_mem_toString hc
    simp only [Char.isDigit, Bool.and_eq_true, decide_eq_true_eq] at hdigit
    have hlow : 48 ≤ c.toNat := hdigit.1
    have hhigh : c.toNat ≤ 57 := hdigit.2
    simp only [isControl, Bool.or_eq_true, Bool.and_eq_true, decide_eq_true_eq]
    omega
  have hcontrol : anyControl ("v1:" ++ toString stop) = false := by
    unfold anyControl
    rw [String.toList_append, List.any_append, hdigits, Bool.or_false]
    rfl
  have hlong : ¬ ("v1:" ++ toString stop).utf8ByteSize > 23 := by
    rw [String.utf8ByteSize_append]
    have hprefix : ("v1:" : String).utf8ByteSize = 3 := rfl
    omega
  unfold validText
  rw [Option.any_some, hcontrol, decide_eq_false hlong]
  rfl

theorem validCursor_offset {stop : ℕ} (h : stop < 2 ^ 63) :
    validCursor ("v1:" ++ toString stop) = true := by
  have htext := validText_offset h
  simp only [validText, Option.any_some, Bool.not_eq_true', Bool.or_eq_false_iff,
    decide_eq_false_iff_not] at htext
  have hpos : 0 < ("v1:" ++ toString stop).utf8ByteSize := by
    rw [String.utf8ByteSize_append]
    exact Nat.lt_add_right _ (by decide)
  have hne : "v1:" ++ toString stop ≠ "" := by
    intro heq
    rw [heq] at hpos
    exact absurd hpos (by decide)
  have hlong : ¬ ("v1:" ++ toString stop).utf8ByteSize > maxCursorBytes := by
    unfold maxCursorBytes
    omega
  unfold validCursor
  rw [htext.2, decide_eq_false hne, decide_eq_false hlong]
  rfl

end Firebox

/-! ## §3  Answers of the providers -/

/-- What is taken from the providers: a directory of the local file system has
no two entries of one name, and no listing is longer than an index can count. -/
def Provided (X : RemoteFsExternals) : (op : FsOp) → Except RemoteFsError op.Answer → Prop
  | .listDirectory _, .ok entities =>
      (entities.map X.path.basename).Nodup ∧ entities.length < 2 ^ 63
  | .listSafDirectory _, .ok documents => documents.length < 2 ^ 63
  | _, _ => True

/-- Executions of a handler, with the answers it got; it may see any snapshot. -/
def answeredSpec (X : RemoteFsExternals) :
    Spec RemoteFsAccessConfig RemoteFsError FsOp FsOp.Answer (List FsAnswer) where
  mayRead _ := True
  reads w _ w' := w' = w
  mayCall _ _ := True
  answers op w a w' := Provided X op a ∧ w' = w ++ [⟨op, a⟩]

/-- Directories first, then by name, as the entries of the documents. -/
def compareDocuments (X : RemoteFsExternals) (first second : SafDocument) : Ordering :=
  if first.isDirectory && !second.isDirectory then .lt
  else if second.isDirectory && !first.isDirectory then .gt
  else (compareTo (X.toLowerCase first.name) (X.toLowerCase second.name)).then
    (compareTo first.name second.name)

/-- The documents that may be listed below a path, in order. -/
def listedDocuments (X : RemoteFsExternals) (path : String) (documents : List SafDocument) :
    List SafDocument :=
  (documents.filter fun document => validFileName document.name &&
    validRelativePath (childRemotePath path document.name)).mergeSort
      fun a b => compareDocuments X a b ≠ .gt

/-- The names between an offset and the end of its page. -/
def pageNames (X : RemoteFsExternals) (request : Firebox.RemoteFsListRequest)
    (documents : List SafDocument) : List String :=
  let listed := listedDocuments X request.location.path documents
  let offset := cursorOffset request.cursor
  ((listed.take (min (offset + request.limit) listed.length)).drop offset).map SafDocument.name

/-- No two documents on the page that is asked for have the same name. -/
def DistinctPage (X : RemoteFsExternals) (request : Firebox.RemoteFsListRequest)
    (answers : List FsAnswer) : Prop :=
  ∀ uri documents, (⟨.listSafDirectory uri, .ok documents⟩ : FsAnswer) ∈ answers →
    (pageNames X request documents).Nodup

/-- A page may be answered if the core accepts it just when its names differ. -/
def pageSpec (X : RemoteFsExternals) (request : Firebox.RemoteFsListRequest) :
    Spec RemoteFsAccessConfig RemoteFsError FsOp FsOp.Answer (List FsAnswer) where
  mayRead _ := True
  reads w _ w' := w' = w
  mayCall op w := ∀ requestId response, op = .respond requestId (.list response) →
    (Firebox.validatePage request response = .ok () ↔ DistinctPage X request w)
  answers op w a w' := Provided X op a ∧ w' = w ++ [⟨op, a⟩]

/-- No document tree was listed. -/
def NoTreeListed (answers : List FsAnswer) : Prop :=
  ∀ uri result, (⟨.listSafDirectory uri, result⟩ : FsAnswer) ∉ answers

section Reads

variable {X : RemoteFsExternals} {request : Firebox.RemoteFsListRequest} {w : List FsAnswer}
  {I : List FsAnswer → Prop}

abbrev Whatever (_ : List FsAnswer) : Prop := True

theorem keeps_requireTrustedPeer {peer : RemoteFsPeer} :
    Keeps (pageSpec X request) I Whatever (requireTrustedPeer X peer) := by
  intro w hw
  unfold requireTrustedPeer
  rw [wp_bind]
  refine wp_mono (leads_require (fun _ _ => trivial) w hw) (fun _ w hw => ?_) fun _ _ he => he
  rw [wp_bind]
  refine wp_get trivial fun access w' hread => ?_
  rw [show w' = w from hread]
  exact leads_require (fun _ _ => trivial) w hw

/-- Looking at grants keeps everything. -/
theorem keeps_authorizeGrant {peer : RemoteFsPeer} {rootId : String}
    {capability : RemoteFsCapability} :
    Keeps (pageSpec X request) I Whatever (authorizeGrant X peer rootId capability) := by
  intro w hw
  unfold authorizeGrant
  rw [wp_bind]
  refine wp_mono (keeps_requireTrustedPeer w hw) (fun _ w hw => ?_) fun _ _ he => he
  rw [wp_bind]
  refine wp_get trivial fun access w' hread => ?_
  rw [show w' = w from hread]
  split
  · refine Leads.bind (leads_require fun _ _ => trivial) (fun _ => ?_) w hw
    exact Leads.bind (leads_require fun _ _ => trivial) fun _ => leads_pure fun _ hw => hw
  · exact wp_throw.mpr trivial

theorem keeps_ensureGrantCurrent {peer : RemoteFsPeer} {grant : RemoteFsGrant}
    {capability : RemoteFsCapability} :
    Keeps (pageSpec X request) I Whatever (ensureGrantCurrent X peer grant capability) :=
  Keeps.bind keeps_authorizeGrant fun _ => leads_require fun _ _ => trivial

/-- The operations of the local provider list no document tree. -/
theorem callsKeep_noTree {A : FsOp → Prop} (hrespond : ∀ id reply, ¬ A (.respond id reply))
    (hlist : ∀ uri, ¬ A (.listSafDirectory uri)) :
    CallsKeep (pageSpec X request) A NoTreeListed where
  may op w hop _ requestId response heq := by
    rw [heq] at hop
    exact absurd hop (hrespond _ _)
  keep op a w w' hop hw hans := by
    rw [hans.2]
    intro uri result hmem
    rcases List.mem_append.mp hmem with hmem | hmem
    · exact hw uri result hmem
    · obtain rfl := congrArg FsAnswer.op (List.mem_singleton.mp hmem)
      exact hlist uri hop

end Reads

/-! ## §4  Local listings -/

/-- What a provider lists: only listable entries, and their names on the page
differ if the condition holds. -/
structure Listed (X : RemoteFsExternals) (request : Firebox.RemoteFsListRequest)
    (entries : List RemoteFsEntry) (w : List FsAnswer) : Prop where
  listable : ∀ entry ∈ entries, Listable request.location.path entry
  short : entries.length < 2 ^ 63
  names : ((pageOf X request entries).map RemoteFsEntry.name).Nodup ↔ DistinctPage X request w

/-- An entry that was read for a path. -/
structure EntryFor (path : String) (entry : RemoteFsEntry) : Prop where
  name : entry.name = basenameRemotePath path
  path : entry.path = path
  modified : Firebox.validText 64 entry.modified = true
  mimeType : Firebox.validText 255 entry.mimeType = true
  entryType : entry.entryType ≠ .other
  capabilities : entry.capabilities.length ≤ 7

theorem EntryFor.listable {parent name : String} {entry : RemoteFsEntry}
    (h : EntryFor (childRemotePath parent name) entry) (hname : validFileName name = true)
    (hpath : validRelativePath (childRemotePath parent name) = true) : Listable parent entry := by
  have hentry : entry.name = name := h.name.trans (basenameRemotePath_child hname)
  refine ⟨?_, ?_, ?_, h.modified, h.mimeType, h.entryType, h.capabilities⟩
  · rw [hentry]
    exact hname
  · rw [hentry]
    exact h.path
  · rw [h.path]
    exact hpath

/-- What is known after some entities of a directory were looked at. -/
structure ListedSoFar (X : RemoteFsExternals) (path : String) (rest : List String)
    (entries : List RemoteFsEntry) (w : List FsAnswer) : Prop where
  noTree : NoTreeListed w
  listable : ∀ entry ∈ entries, Listable path entry
  distinct : (entries.map RemoteFsEntry.name ++ rest.map X.path.basename).Nodup
  short : entries.length + rest.length < 2 ^ 63

section Local

variable {X : RemoteFsExternals} {request : Firebox.RemoteFsListRequest} {w : List FsAnswer}
  {grant : RemoteFsGrant}

theorem keepsNoTree_local {α : Type} {p : RemoteFsM α} (h : p.Uses FsOp.IsQuiet) :
    Keeps (pageSpec X request) NoTreeListed NoTreeListed p :=
  h.keeps (callsKeep_noTree (fun _ _ => id) fun _ => id) fun _ hw => hw

theorem yields_resolvedEntry (hX : X.ShortDates) {path : String} :
    (resolvedEntry X grant path).Yields (EntryFor path) := by
  unfold resolvedEntry
  refine yields_bind fun resolved => ?_
  unfold localEntry
  refine yields_bind fun stat => yields_bind fun _ => yields_bind fun _ => yields_pure ?_
  refine ⟨rfl, rfl, hX.date _, ?_, ?_, length_localEntryCapabilities⟩
  · dsimp only
    split_ifs
    · exact safeMimeType_valid
    · rfl
  · dsimp only
    split_ifs <;> simp

theorem wp_resolvedEntry (hX : X.ShortDates) {path : String} (hw : NoTreeListed w) :
    wp (pageSpec X request) (resolvedEntry X grant path)
      (fun entry w' => NoTreeListed w' ∧ EntryFor path entry) (fun _ => NoTreeListed) w :=
  (yields_resolvedEntry hX).wp (keepsNoTree_local (uses_quiet uses_resolvedEntry) w hw)

theorem ListedSoFar.skip {path entity : String} {rest : List String}
    {entries : List RemoteFsEntry} (h : ListedSoFar X path (entity :: rest) entries w)
    {w' : List FsAnswer} (hw' : NoTreeListed w') : ListedSoFar X path rest entries w' where
  noTree := hw'
  listable := h.listable
  distinct := by
    refine h.distinct.sublist (List.Sublist.append_left ?_ _)
    exact List.sublist_cons_self _ _
  short := by
    have hshort := h.short
    rw [List.length_cons] at hshort
    omega

/-- One more entity: it is left out, or listed under its name. -/
theorem wp_listLocalEntity (hX : X.ShortDates) {path entity : String} {rest : List String}
    {entries : List RemoteFsEntry} (h : ListedSoFar X path (entity :: rest) entries w) :
    wp (pageSpec X request) (listLocalEntity X grant path entries entity)
      (ListedSoFar X path rest) (fun _ _ => True) w := by
  unfold listLocalEntity
  rw [wp_bind]
  refine wp_mono (keepsNoTree_local (uses_quiet uses_entityType) w h.noTree) (fun type w hw => ?_)
    fun _ _ _ => trivial
  dsimp only
  split_ifs with hskip
  · exact wp_pure.mpr (h.skip hw)
  simp only [Bool.or_eq_true, not_or, Bool.not_eq_true', Bool.not_eq_false] at hskip
  rw [wp_catching, wp_bind]
  refine wp_mono (wp_resolvedEntry hX hw) (fun entry w hentry => ?_) fun e w hw => ?_
  · refine wp_pure.mpr ⟨hentry.1, fun e he => ?_, ?_, ?_⟩
    · rcases List.mem_append.mp he with he | he
      · exact h.listable e he
      · rw [List.mem_singleton.mp he]
        exact hentry.2.listable hskip.1.2 hskip.2
    · have hname : entry.name = X.path.basename entity :=
        hentry.2.name.trans (basenameRemotePath_child hskip.1.2)
      have hdistinct := h.distinct
      rw [List.map_cons] at hdistinct
      rw [List.map_append, List.map_singleton, hname, List.append_assoc]
      exact hdistinct
    · have hshort := h.short
      rw [List.length_cons] at hshort
      rw [List.length_append, List.length_singleton]
      omega
  · split
    · exact wp_pure.mpr (h.skip hw)
    · exact wp_pure.mpr (h.skip hw)
    · exact wp_throw.mpr trivial

theorem wp_listLocalDirectory (hX : X.ShortDates) (hw : NoTreeListed w) :
    wp (pageSpec X request) (listLocalDirectory X grant request.location.path)
      (Listed X request) (fun _ _ => True) w := by
  unfold listLocalDirectory
  rw [wp_bind]
  refine wp_mono (keepsNoTree_local (uses_quiet uses_resolveExistingLocal) w hw)
    (fun resolved w hw => ?_) fun _ _ _ => trivial
  rw [wp_bind]
  refine wp_mono ((leads_require fun _ _ => trivial :
    Leads (pageSpec X request) NoTreeListed NoTreeListed Whatever _) w hw) (fun _ w hw => ?_)
    fun _ _ _ => trivial
  unfold mapFileSystem
  rw [wp_catching, wp_bind]
  refine wp_await (fun _ _ heq => by cases heq) (fun entities w' hans => ?_) fun e w' _ => ?_
  · have hnone : NoTreeListed w' := by
      rw [hans.2]
      intro uri result hmem
      rcases List.mem_append.mp hmem with hmem | hmem
      · exact hw uri result hmem
      · cases congrArg FsAnswer.op (List.mem_singleton.mp hmem)
    have hstart : ListedSoFar X request.location.path entities [] w' := by
      refine ⟨hnone, by simp, ?_, ?_⟩
      · simpa using hans.1.1
      · simpa using hans.1.2
    refine wp_mono (wp_foldl_rest (I := ListedSoFar X request.location.path) hstart
      fun entries entity rest w h => wp_listLocalEntity hX h) (fun entries w h => ?_)
      fun e w _ => ?_
    · refine ⟨h.listable, ?_, ?_⟩
      · simpa using h.short
      · refine iff_of_true ?_ fun uri documents hmem => absurd hmem (h.noTree uri _)
        have hnames : (entries.map RemoteFsEntry.name).Nodup := by simpa using h.distinct
        have hsorted := (sortedEntries_perm (X := X)).map RemoteFsEntry.name |>.nodup_iff.mpr hnames
        exact hsorted.sublist (pageOf_sublist.map _)
    · split <;> exact wp_throw.mpr trivial
  · split <;> exact wp_throw.mpr trivial

end Local

/-! ## §5  Listings of document trees -/

section Saf

variable {X : RemoteFsExternals} {request : Firebox.RemoteFsListRequest} {w : List FsAnswer}
  {grant : RemoteFsGrant}

/-- Documents are ordered as their entries. -/
theorem compareRemoteFsEntries_safEntry {path : String} {a b : SafDocument}
    (ha : validFileName a.name = true) (hb : validFileName b.name = true) :
    compareRemoteFsEntries X (safEntry X a (childRemotePath path a.name) grant)
      (safEntry X b (childRemotePath path b.name) grant) = compareDocuments X a b := by
  unfold compareRemoteFsEntries compareDocuments safEntry
  rw [basenameRemotePath_child ha, basenameRemotePath_child hb]
  cases a.isDirectory <;> cases b.isDirectory <;> rfl

/-- The entries of the documents that are not left out. -/
def treeEntries (X : RemoteFsExternals) (grant : RemoteFsGrant) (path : String)
    (documents : List SafDocument) : List RemoteFsEntry :=
  (documents.filter fun document => validFileName document.name &&
    validRelativePath (childRemotePath path document.name)).map fun document =>
      safEntry X document (childRemotePath path document.name) grant

theorem entryFor_safEntry (hX : X.ShortDates) {path : String} {document : SafDocument} :
    EntryFor path (safEntry X document path grant) := by
  refine ⟨rfl, rfl, ?_, ?_, ?_, length_safEntryCapabilities⟩
  · unfold safEntry
    dsimp only
    cases document.lastModified.filter (· ≠ 0) with
    | none => rfl
    | some t => exact hX.date t
  · unfold safEntry
    dsimp only
    split_ifs
    · rfl
    · exact safeMimeType_valid
  · unfold safEntry
    dsimp only
    split_ifs <;> simp

theorem listable_safEntry (hX : X.ShortDates) {path : String} {document : SafDocument}
    (hname : validFileName document.name = true)
    (hpath : validRelativePath (childRemotePath path document.name) = true) :
    Listable path (safEntry X document (childRemotePath path document.name) grant) :=
  (entryFor_safEntry hX).listable hname hpath

/-- The page of a document tree has the names that its documents have. -/
theorem map_name_pageOf {documents : List SafDocument} :
    (pageOf X request (treeEntries X grant request.location.path documents)).map
      RemoteFsEntry.name = pageNames X request documents := by
  have hsorted : sortedEntries X (treeEntries X grant request.location.path documents) =
      (listedDocuments X request.location.path documents).map fun document =>
        safEntry X document (childRemotePath request.location.path document.name) grant := by
    unfold sortedEntries treeEntries listedDocuments
    symm
    refine List.map_mergeSort fun a ha b hb => ?_
    have hvalid : ∀ {d : SafDocument}, d ∈ documents.filter (fun document =>
        validFileName document.name &&
          validRelativePath (childRemotePath request.location.path document.name)) →
        validFileName d.name = true := fun hd =>
      ((Bool.and_eq_true ..).mp (List.mem_filter.mp hd).2).1
    rw [compareRemoteFsEntries_safEntry (hvalid ha) (hvalid hb)]
  unfold pageOf pageNames
  dsimp only
  rw [hsorted, List.length_map, ← List.map_take, ← List.map_drop, List.map_map]
  refine List.map_congr_left fun document hdocument => ?_
  have hmem : document ∈ listedDocuments X request.location.path documents :=
    List.mem_of_mem_take (List.mem_of_mem_drop hdocument)
  have hvalid := (List.mem_filter.mp (List.mem_mergeSort.mp hmem)).2
  exact basenameRemotePath_child ((Bool.and_eq_true ..).mp hvalid).1

theorem wp_listSafDirectory (hX : X.ShortDates) (hw : NoTreeListed w) :
    wp (pageSpec X request) (listSafDirectory X grant request.location.path)
      (Listed X request) (fun _ _ => True) w := by
  unfold listSafDirectory
  rw [wp_bind]
  have hresolve : (resolveSafDocument grant request.location.path).Uses
      fun op => ∃ root path, op = .resolveSafRelativePath root path := by
    unfold resolveSafDocument
    exact uses_validateRelativePath.bind fun _ => uses_mapSaf (uses_await _ ⟨_, _, rfl⟩)
  have hkeeps : Keeps (pageSpec X request) NoTreeListed Whatever
      (resolveSafDocument grant request.location.path) := by
    refine hresolve.keeps (callsKeep_noTree ?_ ?_) fun _ _ => trivial
    · rintro id reply ⟨root, path, heq⟩
      cases heq
    · rintro uri ⟨root, path, heq⟩
      cases heq
  refine wp_mono (hkeeps w hw) (fun directory w hw => ?_) fun _ _ _ => trivial
  rw [wp_bind]
  refine wp_mono ((leads_require fun _ _ => trivial :
    Leads (pageSpec X request) NoTreeListed NoTreeListed Whatever _) w hw) (fun _ w hw => ?_)
    fun _ _ _ => trivial
  unfold mapSaf
  rw [wp_catching, wp_bind]
  refine wp_await (fun _ _ heq => by cases heq) (fun documents w' hans => ?_) fun e w' _ => ?_
  · refine wp_pure.mpr ⟨fun entry hentry => ?_, ?_, ?_⟩
    · obtain ⟨document, hdocument, rfl⟩ := List.mem_map.mp hentry
      obtain ⟨hname, hpath⟩ := (Bool.and_eq_true ..).mp (List.mem_filter.mp hdocument).2
      exact listable_safEntry hX hname hpath
    · have hlength : documents.length < 2 ^ 63 := hans.1
      rw [List.length_map]
      exact (List.length_filter_le _ _).trans_lt hlength
    · change ((pageOf X request (treeEntries X grant request.location.path documents)).map
        RemoteFsEntry.name).Nodup ↔ _
      rw [map_name_pageOf, hans.2]
      constructor
      · intro hnodup uri documents' hmem
        rcases List.mem_append.mp hmem with hmem | hmem
        · exact absurd hmem (hw uri _)
        · -- the only tree that was listed
          cases List.mem_singleton.mp hmem
          exact hnodup
      · intro hdistinct
        exact hdistinct directory.uri documents (by simp)
  · split <;> exact wp_throw.mpr trivial

end Saf

/-! ## §6  Pages -/

section Pages

variable {X : RemoteFsExternals} {request : Firebox.RemoteFsListRequest} {w : List FsAnswer}

theorem validatePage_eq_ok {entries : List RemoteFsEntry} {nextCursor : Option String}
    (h : Listed X request entries w)
    (hcursor : ∀ cursor ∈ nextCursor, ∃ stop < 2 ^ 63, cursor = "v1:" ++ toString stop) :
    Firebox.validatePage request ⟨pageOf X request entries, nextCursor⟩ = .ok () ↔
      DistinctPage X request w := by
  have hlistable : ∀ entry ∈ pageOf X request entries, Listable request.location.path entry :=
    fun entry hentry =>
      h.listable entry (sortedEntries_perm.mem_iff.mp (pageOf_sublist.subset hentry))
  have hnext : nextCursor.all Firebox.validCursor = true := by
    cases nextCursor with
    | none => rfl
    | some cursor =>
        obtain ⟨stop, hstop, rfl⟩ := hcursor cursor rfl
        exact Firebox.validCursor_offset hstop
  exact (Firebox.validatePage_eq_ok_iff hlistable length_pageOf_le hnext).trans h.names

theorem wp_listDirectoryOf (hX : X.ShortDates) {grant : RemoteFsGrant} (hw : NoTreeListed w) :
    wp (pageSpec X request) (listDirectoryOf X grant request.location.path)
      (Listed X request) (fun _ _ => True) w := by
  unfold listDirectoryOf
  split
  · exact wp_listLocalDirectory hX hw
  · exact wp_listSafDirectory hX hw

/-- What a provider lists with fixed answers. -/
theorem listed_of_run (hX : X.ShortDates) {grant : RemoteFsGrant} {access : RemoteFsAccessConfig}
    {answer : (op : FsOp) → Except RemoteFsError op.Answer} {entries : List RemoteFsEntry}
    (hprovided : ∀ op, Provided X op (answer op))
    (hrun : (listDirectoryOf X grant request.location.path).run access answer = .ok entries) :
    ∃ w, Listed X request entries w :=
  wp_run (wp_listDirectoryOf hX (w := []) fun uri result hmem => by cases hmem)
    (fun w => ⟨w, rfl⟩) (fun op w => ⟨_, hprovided op, rfl⟩) hrun

/-- The handler answers with pages as `pageSpec` asks for. -/
theorem wp_respondRemoteFsList (hX : X.ShortDates) {requestId : String} {peer : RemoteFsPeer} :
    wp (pageSpec X request)
      (respondRemoteFsList X requestId peer request.location request.cursor request.limit)
      (fun _ _ => True) (fun _ _ => True) [] := by
  have hnone : NoTreeListed [] := fun uri result hmem => by cases hmem
  unfold respondRemoteFsList
  rw [wp_bind]
  refine wp_mono (keeps_authorizeGrant (I := NoTreeListed) [] hnone) (fun grant w hw => ?_)
    fun _ _ _ => trivial
  have hrequire : ∀ {I : List FsAnswer → Prop} {c : Bool} {code : RemoteFsErrorCode},
      Leads (pageSpec X request) I I Whatever (require c code) := leads_require fun _ _ => trivial
  rw [wp_bind]
  refine wp_mono (hrequire w hw) (fun _ w hw => ?_) fun _ _ _ => trivial
  rw [wp_bind]
  refine wp_mono (wp_listDirectoryOf hX hw) (fun entries w h => ?_) fun _ _ _ => trivial
  dsimp only
  rw [wp_bind]
  rcases decodeListCursor_eq request.cursor with hcursor | ⟨e, hcursor⟩
  · rw [hcursor, wp_ret, wp_bind]
    refine wp_mono (hrequire w h) (fun _ w h => ?_) fun _ _ _ => trivial
    rw [wp_bind]
    refine wp_mono (keeps_ensureGrantCurrent w h) (fun _ w h => ?_) fun _ _ _ => trivial
    refine wp_await (fun requestId' response heq => ?_) (fun _ _ _ => trivial) fun _ _ _ => trivial
    obtain rfl := RemoteFsReply.list.inj (FsOp.respond.inj heq).2
    refine validatePage_eq_ok h fun cursor hmem => ?_
    split_ifs at hmem
    · obtain rfl := Option.mem_some.mp hmem
      refine ⟨_, ?_, rfl⟩
      rw [List.length_mergeSort]
      have hshort := h.short
      omega
    · cases hmem
  · rw [hcursor]
    exact wp_throw.mpr trivial

theorem wp_handlePages (hX : X.ShortDates) {requestId : String} {peer : RemoteFsPeer} :
    wp (pageSpec X request) (handleRemoteFsEvent X
      ⟨requestId, peer, .list request.location request.cursor request.limit⟩) (fun _ _ => True)
      (fun _ _ => True) [] := by
  unfold handleRemoteFsEvent respondRemoteFs
  rw [wp_catching]
  refine wp_mono (wp_respondRemoteFsList hX) (fun _ _ _ => trivial) fun error w _ => ?_
  rw [wp_catching]
  refine wp_await (fun _ _ heq => ?_) (fun _ _ _ => trivial) fun _ _ _ => wp_pure.mpr trivial
  cases (FsOp.respond.inj heq).2

/-- **The core accepts a page if and only if its names differ**, whatever the
snapshots and the answers of the providers were. -/
theorem page_accepted_iff (hX : X.ShortDates) {requestId : String} {peer : RemoteFsPeer}
    {replyId : String} {response : RemoteFsListResponse}
    {k : Except RemoteFsError Unit → RemoteFsM Unit}
    (h : Reaches (answeredSpec X) (handleRemoteFsEvent X
      ⟨requestId, peer, .list request.location request.cursor request.limit⟩) []
      (.call (.respond replyId (.list response)) k) w) :
    Firebox.validatePage request response = .ok () ↔ DistinctPage X request w := by
  have hreaches : Reaches (pageSpec X request) _ [] _ w :=
    h.mono (fun _ _ _ hread => hread) fun _ _ _ _ hans => hans
  have hcall := wp_reaches (wp_handlePages hX) hreaches
  exact (wp_call.mp hcall).1 replyId response rfl

end Pages

/-! ## §7  Two documents of one name -/

namespace Sample

def docsPeer : RemoteFsPeer := ⟨"192.0.2.7", "AA"⟩

/-- The first page of the tree. -/
def docsPage : Firebox.RemoteFsListRequest := ⟨⟨"docs", ""⟩, none, 500⟩

/-- A provider with these documents in the root of its tree. -/
def treeAnswer (documents : List SafDocument) :
    (op : FsOp) → Except RemoteFsError op.Answer
  | .resolveSafRelativePath _ _ => .ok (safDocument "tree:docs" "docs" true)
  | .listSafDirectory _ => .ok documents
  | .entityType _ | .resolveSymbolicLinks _ | .listDirectory _ | .stat _ | .create _
  | .rename _ _ | .delete _ _ | .listSharedRoots | .getSafMetadata _ | .createSafDirectory _ _
  | .renameSafDocument _ _ | .moveSafDocument _ _ _ | .deleteSafDocument _
  | .openSafDocumentForReading _ | .openSafDocumentForWriting _ _ | .createSafFile _ _ _
  | .respond _ _ => .error .other

theorem provided_treeAnswer {documents : List SafDocument} (hlength : documents.length < 2 ^ 63)
    (op : FsOp) : Provided remoteFsExternals op (treeAnswer documents op) := by
  cases op <;> trivial

/-- Two documents of the same name. -/
def twins : List SafDocument :=
  [safDocument "doc:1" "a.txt" false, safDocument "doc:2" "a.txt" false]

/-- Two documents of different names. -/
def siblings : List SafDocument :=
  [safDocument "doc:1" "b.txt" false, safDocument "doc:2" "a.txt" false]

theorem shortDates : remoteFsExternals.ShortDates where
  date t := by
    change Firebox.validText 64 (some "1970-01-01T00:00:00.000Z") = true
    decide

/-- The grant of the tree. -/
def docsGrant : RemoteFsGrant := ⟨"docs", "Documents", .androidSaf, "tree:docs", false⟩

theorem docs_allowed :
    Allowed remoteFsExternals treeAccess docsPeer "docs" .browse docsGrant :=
  ⟨by decide, by decide, by decide, by decide, by decide⟩

end Sample

section Twins

variable {X : RemoteFsExternals} {documents : List SafDocument} {entries : List RemoteFsEntry}

/-- A page that is long enough holds the whole listing. -/
theorem pageOf_eq_sortedEntries {request : Firebox.RemoteFsListRequest}
    {entries : List RemoteFsEntry} (hcursor : request.cursor = none)
    (hlimit : entries.length ≤ request.limit) :
    pageOf X request entries = sortedEntries X entries := by
  have hlength : (sortedEntries X entries).length = entries.length := List.length_mergeSort _
  have hoffset : cursorOffset request.cursor = 0 := by
    rw [hcursor]
    rfl
  unfold pageOf
  dsimp only
  rw [hoffset, List.drop_zero]
  exact List.take_of_length_le (by omega)

/-- The handler answers with the page of what the tree holds. -/
theorem reaches_docsPage (hlength : documents.length < 2 ^ 63)
    (hlist : (listDirectoryOf Sample.remoteFsExternals Sample.docsGrant "").run Sample.treeAccess
      (Sample.treeAnswer documents) = .ok entries) :
    ∃ k w, Reaches (answeredSpec Sample.remoteFsExternals)
      (handleRemoteFsEvent Sample.remoteFsExternals ⟨"1", Sample.docsPeer,
        .list Sample.docsPage.location Sample.docsPage.cursor Sample.docsPage.limit⟩) []
      (.call (.respond "1" (.list ⟨pageOf Sample.remoteFsExternals Sample.docsPage entries,
        nextCursorOf Sample.docsPage entries⟩)) k) w := by
  have hcall : FsOp.respond "1" (.list ⟨pageOf Sample.remoteFsExternals Sample.docsPage entries,
      nextCursorOf Sample.docsPage entries⟩) ∈ (handleRemoteFsEvent Sample.remoteFsExternals
        ⟨"1", Sample.docsPeer, .list Sample.docsPage.location Sample.docsPage.cursor
          Sample.docsPage.limit⟩).calls Sample.treeAccess (Sample.treeAnswer documents) := by
    refine calls_list_prefix.subset ?_
    rw [calls_respondRemoteFsList Sample.docs_allowed (by decide) hlist rfl (Nat.zero_le _)]
    simp
  obtain ⟨before, after, hcalls⟩ := List.append_of_mem hcall
  obtain ⟨k, w, h, -⟩ := Reaches.calls_append (S := answeredSpec Sample.remoteFsExternals)
    (w := []) (J := fun _ _ => True) []
    (fun _ w _ => ⟨w, rfl, trivial⟩)
    (fun _ op w _ => ⟨_, ⟨Sample.provided_treeAnswer hlength op, rfl⟩, trivial⟩)
    .refl trivial hcalls
  exact ⟨k, w, h⟩

/-- Two documents of different names: the page is answered, and by
`page_accepted_iff` the core accepts it just when its names differ. -/
theorem page_accepted_siblings : ∃ response k w,
    Reaches (answeredSpec Sample.remoteFsExternals) (handleRemoteFsEvent Sample.remoteFsExternals
      ⟨"1", Sample.docsPeer, .list Sample.docsPage.location Sample.docsPage.cursor
        Sample.docsPage.limit⟩) [] (.call (.respond "1" (.list response)) k) w ∧
    (Firebox.validatePage Sample.docsPage response = .ok () ↔
      DistinctPage Sample.remoteFsExternals Sample.docsPage w) := by
  obtain ⟨k, w, h⟩ := reaches_docsPage (by decide : Sample.siblings.length < 2 ^ 63) rfl
  exact ⟨_, k, w, h, page_accepted_iff Sample.shortDates h⟩

/-- Two documents of one name: the page is answered, and the core rejects it. -/
theorem page_rejected_twins : ∃ response k w, Reaches (answeredSpec Sample.remoteFsExternals)
    (handleRemoteFsEvent Sample.remoteFsExternals ⟨"1", Sample.docsPeer,
      .list Sample.docsPage.location Sample.docsPage.cursor Sample.docsPage.limit⟩) []
    (.call (.respond "1" (.list response)) k) w ∧
    Firebox.validatePage Sample.docsPage response ≠ .ok () := by
  obtain ⟨k, w, h⟩ := reaches_docsPage (by decide : Sample.twins.length < 2 ^ 63) rfl
  refine ⟨_, k, w, h, fun hok => ?_⟩
  have hlistable : ∀ entry ∈ treeEntries Sample.remoteFsExternals Sample.docsGrant "" Sample.twins,
      Listable "" entry := by
    intro entry hentry
    obtain ⟨document, hdocument, rfl⟩ := List.mem_map.mp hentry
    obtain ⟨hname, hpath⟩ := (Bool.and_eq_true ..).mp (List.mem_filter.mp hdocument).2
    exact listable_safEntry Sample.shortDates hname hpath
  have hpage : pageOf Sample.remoteFsExternals Sample.docsPage
      (treeEntries Sample.remoteFsExternals Sample.docsGrant "" Sample.twins) = sortedEntries _ _ :=
    pageOf_eq_sortedEntries rfl (by decide)
  unfold Firebox.validatePage at hok
  rw [Firebox.then_eq_ok, Firebox.then_eq_ok] at hok
  have hentries := hok.2.1
  change Firebox.validateEntries "" [] (pageOf _ _ (treeEntries _ _ _ _)) = _ at hentries
  rw [hpage, Firebox.validateEntries_eq_ok fun entry hentry =>
    hlistable entry (sortedEntries_perm.mem_iff.mp hentry)] at hentries
  have hnodup := (sortedEntries_perm.map RemoteFsEntry.path).nodup_iff.mp hentries.1
  exact absurd hnodup (by decide)

end Twins

end FireBoxTransfer
