import FireBoxTransfer.RemoteFs.Listing
import FireBoxTransfer.RemoteFs.Pages
import FireBoxTransfer.Explorer.NetworkClient
import Mathlib.Algebra.Order.BigOperators.Group.List
import Mathlib.Algebra.BigOperators.Ring.List
import Mathlib.Algebra.Order.Ring.Nat

/-!
# Listing a remote directory to its end

The pages of an unchanged directory follow one another without gap or overlap,
each passes the checks of the core on its way and fits into one response, and
the client stops after the last one. The invariant of its loop says that after
`k` rounds it holds the first `k` pages and the cursor of the next.
-/

namespace FireBoxTransfer

open Program

/-! ## §1  The size of a page -/

namespace Firebox

/-- Without control characters, a character takes at most twice its bytes. -/
theorem charSize_le_of_not_control {ch : Char} (h : isControl ch = false) :
    JsonValue.charSize ch ≤ 2 * ch.utf8Size := by
  have hpos : 0 < ch.utf8Size := Char.utf8Size_pos ch
  simp only [isControl, Bool.or_eq_false_iff, decide_eq_false_iff_not] at h
  unfold JsonValue.charSize
  split_ifs with hquote hescaped hlow
  · omega
  · omega
  · omega
  · omega

theorem stringSize_le_of_not_control {s : String} (h : anyControl s = false) :
    JsonValue.stringSize s ≤ 2 * s.utf8ByteSize + 2 := by
  unfold JsonValue.stringSize
  rw [Texts.utf8ByteSize_eq_sum]
  unfold anyControl at h
  rw [List.any_eq_false] at h
  have hsum : (s.toList.map JsonValue.charSize).sum ≤
      (s.toList.map fun ch => 2 * ch.utf8Size).sum := by
    apply List.sum_le_sum
    intro ch hch
    exact charSize_le_of_not_control (by simpa using h ch hch)
  rw [List.sum_map_mul_left] at hsum
  omega

theorem jsonFieldSize_text_le (key : String) {bound : ℕ} {value : Option String}
    (h : validText bound value = true) :
    jsonFieldSize key JsonValue.stringSize value ≤ key.length + 2 * bound + 6 := by
  cases value with
  | none => exact Nat.zero_le _
  | some v =>
      simp only [validText, Option.any_some, Bool.not_eq_true', Bool.or_eq_false_iff,
        decide_eq_false_iff_not] at h
      have hsize := stringSize_le_of_not_control h.2
      show key.length + 4 + JsonValue.stringSize v ≤ _
      omega

theorem sum_map_le {α : Type} {size : α → ℕ} {bound : ℕ} {values : List α}
    (h : ∀ v ∈ values, size v ≤ bound) : (values.map size).sum ≤ values.length * bound := by
  have hsum := List.sum_le_card_nsmul (values.map size) bound (by simpa using h)
  simpa using hsum

theorem jsonListSize_le {α : Type} {size : α → ℕ} {bound : ℕ} {values : List α}
    (h : ∀ v ∈ values, size v ≤ bound) :
    jsonListSize size values ≤ values.length * (bound + 1) + 2 := by
  have hsum := sum_map_le h
  unfold jsonListSize
  rw [Nat.mul_succ]
  omega

theorem validFileName_size {name : String} (h : validFileName name = true) :
    name.utf8ByteSize ≤ 1024 ∧ anyControl name = false := by
  simp only [validFileName, Bool.and_eq_true, decide_eq_true_eq, Bool.not_eq_true'] at h
  exact ⟨h.1.1.1.2, h.2⟩

theorem validRelativePath_size {path : String} (h : validRelativePath path = true) :
    path.utf8ByteSize ≤ 4096 ∧ anyControl path = false := by
  unfold validRelativePath at h
  split_ifs at h with hempty hbad
  · subst hempty
    decide
  · simp only [Bool.or_eq_true, not_or, Bool.not_eq_true, decide_eq_false_iff_not] at hbad
    obtain ⟨⟨⟨⟨⟨hlong, -⟩, -⟩, -⟩, hcontrol⟩, -⟩ := hbad
    exact ⟨by omega, hcontrol⟩

theorem jsonEntrySize_le {parent : String} {entry : RemoteFsEntry} (h : Listable parent entry)
    (hsize : ∀ size ∈ entry.size, size < 2 ^ 63) : jsonEntrySize entry ≤ 11200 := by
  obtain ⟨hnameBytes, hnameControl⟩ := validFileName_size h.name
  obtain ⟨hpathBytes, hpathControl⟩ := validRelativePath_size h.validPath
  have hname := stringSize_le_of_not_control hnameControl
  have hpath := stringSize_le_of_not_control hpathControl
  have htype : JsonValue.stringSize (entryTypeName entry.entryType) ≤ 11 := by
    cases entry.entryType <;> decide
  have hsizeField :
      jsonFieldSize "size" (fun size => (toString size).length) entry.size ≤ 27 := by
    cases hentry : entry.size with
    | none => exact Nat.zero_le _
    | some size =>
        have hlt : size < 10 ^ 19 := (hsize size hentry).trans (by decide)
        have hdigits : (toString size).length ≤ 19 := by
          rw [← String.length_toList, Texts.toList_toString]
          exact (Nat.length_toDigits_le_iff (by omega) (by omega)).mpr hlt
        show ("size" : String).length + 4 + (toString size).length ≤ 27
        have hkey : ("size" : String).length = 4 := rfl
        omega
  have hmodified := jsonFieldSize_text_le "modified" h.modified
  have hmimeType := jsonFieldSize_text_le "mimeType" h.mimeType
  have hmodifiedKey : ("modified" : String).length = 8 := rfl
  have hmimeTypeKey : ("mimeType" : String).length = 8 := rfl
  have hcapabilities :
      jsonListSize (fun c => JsonValue.stringSize (capabilityName c)) entry.capabilities ≤
        entry.capabilities.length * (18 + 1) + 2 := by
    apply jsonListSize_le
    intro c _
    cases c <;> decide
  have hfew := h.capabilities
  unfold jsonEntrySize
  split_ifs <;> omega

/-- A page of at most 500 entries fits into one response. -/
theorem jsonPageSize_le {parent : String} {response : RemoteFsListResponse}
    (h : ∀ entry ∈ response.entries, Listable parent entry)
    (hsize : ∀ entry ∈ response.entries, ∀ size ∈ entry.size, size < 2 ^ 63)
    (hlength : response.entries.length ≤ 500)
    (hcursor : validText 23 response.nextCursor = true) :
    jsonPageSize response ≤ maxJsonResponseSize := by
  have hentries : jsonListSize jsonEntrySize response.entries ≤
      response.entries.length * (11200 + 1) + 2 :=
    jsonListSize_le fun entry hentry => jsonEntrySize_le (h entry hentry) (hsize entry hentry)
  have hnext := jsonFieldSize_text_le "nextCursor" hcursor
  have hkey : ("nextCursor" : String).length = 10 := rfl
  unfold jsonPageSize maxJsonResponseSize
  omega

end Firebox

/-! ## §2  Requests -/

section Requests

variable {X : RemoteFsExternals} {access : RemoteFsAccessConfig}
  {answer : (op : FsOp) → Except RemoteFsError op.Answer} {grant : RemoteFsGrant}
  {path : String} {entries : List RemoteFsEntry}

theorem utf8Size_of_isIdCharacter {ch : Char} (h : isIdCharacter ch = true) :
    ch.utf8Size = 1 := by
  have hle : ch.toNat ≤ 0x7f := by
    simp only [isIdCharacter, isAsciiLetter, Bool.or_eq_true, Bool.and_eq_true,
      decide_eq_true_eq, Char.le_def] at h
    have hupper : ('Z' : Char).toNat = 90 := rfl
    have hlower : ('z' : Char).toNat = 122 := rfl
    have hdigit : ('9' : Char).toNat = 57 := rfl
    simp only [UInt32.le_iff_toNat_le] at h
    rcases h with (((((h | h) | h) | h) | h) | h) | h
    · exact h.2.trans (by decide)
    · exact h.2.trans (by decide)
    · exact h.2.trans (by decide)
    all_goals
      rw [h]
      decide
  have hval : ch.val ≤ 0x7f := UInt32.le_iff_toNat_le.mpr hle
  simp [Char.utf8Size, hval]

/-- The core accepts the ids of valid roots. -/
theorem validateRootId_of_validPublicRoot (h : validPublicRoot grant = true) :
    Firebox.validateRootId grant.id = .ok () := by
  simp only [validPublicRoot, Bool.and_eq_true, decide_eq_true_eq, List.all_eq_true] at h
  obtain ⟨⟨⟨⟨⟨⟨hpos, hshort⟩, hchars⟩, -⟩, -⟩, -⟩, -⟩ := h
  have hsizes : grant.id.toList.map Char.utf8Size =
      List.replicate grant.id.toList.length 1 := by
    rw [List.eq_replicate_iff]
    refine ⟨List.length_map .., fun b hb => ?_⟩
    obtain ⟨ch, hch, rfl⟩ := List.mem_map.mp hb
    exact utf8Size_of_isIdCharacter (hchars ch hch)
  have hbytes : grant.id.utf8ByteSize = grant.id.length := by
    rw [Texts.utf8ByteSize_eq_sum, hsizes, List.sum_replicate_nat, Nat.mul_one,
      String.length_toList]
  have hne : grant.id ≠ "" := by
    intro heq
    rw [heq] at hpos
    exact absurd hpos (by decide)
  have hroot : grant.id.toList.all Firebox.isRootIdByte = true := by
    rw [List.all_eq_true]
    intro ch hch
    have hid := hchars ch hch
    simp only [isIdCharacter, Bool.or_eq_true, Bool.and_eq_true, decide_eq_true_eq] at hid
    simp only [Firebox.isRootIdByte, Texts.isDigit_eq, Bool.or_eq_true, Bool.and_eq_true,
      decide_eq_true_eq]
    tauto
  rw [Firebox.validateRootId, Firebox.check_eq_ok, hroot]
  simp [hne, hbytes, hshort, Firebox.maxRootIdBytes]

/-- Only directories of valid paths are listed. -/
theorem validRelativePath_of_run
    (h : (listDirectoryOf X grant path).run access answer = .ok entries) :
    validRelativePath path = true := by
  unfold listDirectoryOf at h
  cases hkind : grant.kind with
  | localPath =>
      rw [hkind] at h
      unfold listLocalDirectory resolveExistingLocal lexicalLocalPath at h
      obtain ⟨resolved, h, -⟩ := run_bind_eq_ok.mp h
      obtain ⟨root, -, h⟩ := run_bind_eq_ok.mp h
      obtain ⟨candidate, h, -⟩ := run_bind_eq_ok.mp h
      obtain ⟨_, h, -⟩ := run_bind_eq_ok.mp h
      exact run_require_eq_ok.mp h
  | androidSaf =>
      rw [hkind] at h
      unfold listSafDirectory resolveSafDocument at h
      obtain ⟨directory, h, -⟩ := run_bind_eq_ok.mp h
      obtain ⟨_, h, -⟩ := run_bind_eq_ok.mp h
      exact run_require_eq_ok.mp h

end Requests

/-! ## §3  One page -/

/-- How the isolate comes to serve a request: under a snapshot, with these
answers of the providers. -/
structure Serving where
  requestId : String
  access : RemoteFsAccessConfig
  answer : (op : FsOp) → Except RemoteFsError op.Answer

/-- The device of the isolate, as its peer sees it. -/
def device (X : RemoteFsExternals) (peer : RemoteFsPeer) (serving : ℕ → Serving) :
    NetworkClient.ListService := fun n =>
  Firebox.clientList (Firebox.list fun request =>
    firstReply X (serving n).access (serving n).answer
      ⟨(serving n).requestId, peer, .list request.location request.cursor request.limit⟩)

/-- A directory that stays shared with a peer and does not change from request
to request; `entries` is what is listed of it. -/
structure SharedDirectory (X : RemoteFsExternals) (peer : RemoteFsPeer) (grant : RemoteFsGrant)
    (rootId path : String) (entries : List RemoteFsEntry) (serving : ℕ → Serving) : Prop where
  allowed : ∀ n, Allowed X (serving n).access peer rootId .browse grant
  same : ∀ n, SameDirectory (serving 0).answer (serving n).answer
  provided : ∀ op, Provided X op ((serving 0).answer op)
  listed : (listDirectoryOf X grant path).run (serving 0).access (serving 0).answer = .ok entries
  distinct : (entries.map RemoteFsEntry.name).Nodup
  sizes : ∀ entry ∈ entries, ∀ size ∈ entry.size, size < 2 ^ 63

/-- The page at an offset. -/
def pageAt (X : RemoteFsExternals) (limit : ℕ) (entries : List RemoteFsEntry) (offset : ℕ) :
    RemoteFsListResponse :=
  let stop := min (offset + limit) entries.length
  ⟨((sortedEntries X entries).take stop).drop offset,
    if stop < entries.length then some (cursorOf stop) else none⟩

section Page

variable {X : RemoteFsExternals} {peer : RemoteFsPeer} {grant : RemoteFsGrant}
  {rootId path : String} {entries : List RemoteFsEntry} {serving : ℕ → Serving} {limit : ℕ}

theorem length_sortedEntries {entries : List RemoteFsEntry} :
    (sortedEntries X entries).length = entries.length := List.length_mergeSort _

theorem pageAt_subset {offset : ℕ} :
    ∀ entry ∈ (pageAt X limit entries offset).entries, entry ∈ entries := fun _ hentry =>
  sortedEntries_perm.subset (List.mem_of_mem_take (List.mem_of_mem_drop hentry))

theorem length_pageAt_le {offset : ℕ} : (pageAt X limit entries offset).entries.length ≤ limit := by
  show (((sortedEntries X entries).take _).drop offset).length ≤ limit
  rw [List.length_drop, List.length_take]
  omega

theorem nodup_pageAt {offset : ℕ} (h : (entries.map RemoteFsEntry.name).Nodup) :
    ((pageAt X limit entries offset).entries.map RemoteFsEntry.name).Nodup := by
  have hsorted : ((sortedEntries X entries).map RemoteFsEntry.name).Nodup :=
    (sortedEntries_perm.map _).nodup_iff.mpr h
  refine hsorted.sublist (List.Sublist.map _ ?_)
  exact (List.drop_sublist _ _).trans (List.take_sublist _ _)

theorem nextCursor_pageAt {offset : ℕ} {cursor : String}
    (h : cursor ∈ (pageAt X limit entries offset).nextCursor) :
    offset + limit < entries.length ∧ cursor = cursorOf (offset + limit) := by
  change cursor ∈ (if _ then some _ else none) at h
  split_ifs at h with hmore
  · have hstop : min (offset + limit) entries.length = offset + limit := by omega
    rw [hstop] at h
    exact ⟨by omega, (Option.mem_some.mp h).symm⟩
  · cases h

namespace SharedDirectory

variable (h : SharedDirectory X peer grant rootId path entries serving)

include h

theorem found (n : ℕ) : ∃ found, (listDirectoryOf X grant path).run (serving n).access
    (serving n).answer = .ok found ∧ found.Perm entries :=
  (h.same n).run_listDirectoryOf h.listed

theorem listable (hX : X.ShortDates) :
    (∀ entry ∈ entries, Listable path entry) ∧ entries.length < 2 ^ 63 := by
  obtain ⟨w, hlisted⟩ : ∃ w, Listed X ⟨⟨rootId, path⟩, none, 0⟩ entries w :=
    listed_of_run hX h.provided h.listed
  exact ⟨hlisted.listable, hlisted.short⟩

/-- The isolate answers with the page at the offset of the cursor. -/
theorem firstReply_page (n : ℕ) {offset : ℕ} {cursor : Option String}
    (hcursor : decodeListCursor cursor = .pure offset) (hoffset : offset ≤ entries.length) :
    firstReply X (serving n).access (serving n).answer
      ⟨(serving n).requestId, peer, .list ⟨rootId, path⟩ cursor limit⟩ =
      some (.list (pageAt X limit entries offset)) := by
  obtain ⟨found, hfound, hperm⟩ := h.found n
  have hcursorOffset : cursorOffset cursor = offset := by
    unfold cursorOffset
    rw [hcursor]
  obtain ⟨request, hrequest⟩ : ∃ request : Firebox.RemoteFsListRequest,
      request = ⟨⟨rootId, path⟩, cursor, limit⟩ := ⟨_, rfl⟩
  have hreply : firstReply X (serving n).access (serving n).answer
      ⟨(serving n).requestId, peer, .list request.location request.cursor request.limit⟩ =
        some (.list ⟨pageOf X request found, nextCursorOf request found⟩) := by
    refine firstReply_list (?_ : Allowed X _ peer _ .browse grant) ?_ ?_ ?_ ?_
    · rw [hrequest]
      exact h.allowed n
    · rw [hrequest]
      exact validRelativePath_of_run h.listed
    · rw [hrequest]
      exact hfound
    · rw [hrequest, hcursorOffset]
      exact hcursor
    · rw [hrequest, hcursorOffset, hperm.length_eq]
      exact hoffset
  subst hrequest
  rw [hreply]
  unfold pageOf nextCursorOf pageAt cursorOf
  dsimp only
  rw [hcursorOffset, sortedEntries_congr hperm h.distinct, length_sortedEntries, hperm.length_eq]

/-- **One page**: it passes every check on its way to the client. -/
theorem device_page (hX : X.ShortDates) (n : ℕ) {offset : ℕ} {cursor : Option String}
    (hcursor : decodeListCursor cursor = .pure offset)
    (hvalid : cursor.all Firebox.validCursor = true) (hoffset : offset ≤ entries.length)
    (hlimit : 1 ≤ limit ∧ limit ≤ Firebox.maxListLimit)
    (hfits : limit ≤ NetworkClient.remoteListPageSize ∨
      Firebox.jsonPageSize (pageAt X limit entries offset) ≤ Firebox.maxJsonResponseSize) :
    device X peer serving n ⟨⟨rootId, path⟩, cursor, limit⟩ =
      .ok (pageAt X limit entries offset) := by
  obtain ⟨hlistable, hshort⟩ := h.listable hX
  have hrequest : (⟨⟨rootId, path⟩, cursor, limit⟩ : Firebox.RemoteFsListRequest).validate =
      .ok () := by
    have hroot : Firebox.validateRootId rootId = .ok () := by
      rw [← (h.allowed 0).id_eq]
      exact validateRootId_of_validPublicRoot (h.allowed 0).valid
    have hpath : Firebox.validateRelativePath path = .ok () :=
      Firebox.validateRelativePath_eq_ok.mpr (validRelativePath_of_run h.listed)
    unfold Firebox.RemoteFsListRequest.validate Firebox.validateLocation
    simp only [Firebox.then_eq_ok, Firebox.check_eq_ok]
    exact ⟨⟨hroot, hpath⟩, by simpa using hlimit, hvalid⟩
  have hnext : ∀ c ∈ (pageAt X limit entries offset).nextCursor,
      ∃ stop < 2 ^ 63, c = "v1:" ++ toString stop := by
    intro c hc
    obtain ⟨hmore, rfl⟩ := nextCursor_pageAt hc
    exact ⟨_, hmore.trans hshort, rfl⟩
  have hpage : Firebox.validatePage ⟨⟨rootId, path⟩, cursor, limit⟩
      (pageAt X limit entries offset) = .ok () := by
    refine (Firebox.validatePage_eq_ok_iff (fun entry hentry => hlistable entry
      (pageAt_subset entry hentry)) length_pageAt_le ?_).mpr (nodup_pageAt h.distinct)
    rw [Option.all_eq_true]
    intro c hc
    obtain ⟨stop, hstop, rfl⟩ := hnext c hc
    exact Firebox.validCursor_offset hstop
  refine Firebox.clientList_eq_ok hrequest (h.firstReply_page n hcursor hoffset) hpage ?_
  rcases hfits with hfew | hfits
  · refine Firebox.jsonPageSize_le (fun entry hentry => hlistable entry
      (pageAt_subset entry hentry)) (fun entry hentry => h.sizes entry
      (pageAt_subset entry hentry)) (length_pageAt_le.trans hfew) ?_
    cases hcursor : (pageAt X limit entries offset).nextCursor with
    | none => rfl
    | some c =>
        obtain ⟨stop, hstop, rfl⟩ := hnext c hcursor
        exact Firebox.validText_offset hstop
  · exact hfits

end SharedDirectory

end Page

/-! ## §4  The loop -/

namespace NetworkClient

/-- The client accepts the paths that the core accepts. -/
theorem validPath_of_validRelativePath {path : String} (h : validRelativePath path = true) :
    validPath path = true := by
  unfold validRelativePath at h
  unfold validPath
  split_ifs at h with hempty hsyntax hdotted
  · simp [hempty]
  · simp only [Bool.or_eq_true, not_or, Bool.not_eq_true] at hsyntax hdotted
    obtain ⟨⟨⟨⟨⟨-, hhead⟩, hlast⟩, hbackslash⟩, -⟩, -⟩ := hsyntax
    simp [hhead, hlast, hbackslash, hdotted]

theorem validName_of_validFileName {name : String} (h : validFileName name = true) :
    validName name = true := by
  simp only [validFileName, Bool.and_eq_true, decide_eq_true_eq, Bool.not_eq_true',
    hasControlCharacter, List.any_eq_false, Bool.or_eq_true, not_or] at h
  obtain ⟨⟨⟨⟨⟨⟨hempty, hdot⟩, hdotdot⟩, -⟩, hslash⟩, hbackslash⟩, hcontrol⟩ := h
  have hlow : (name.toList.any fun ch => decide (ch.toNat ≤ 0x1f)) = false := by
    rw [List.any_eq_false]
    intro ch hch
    simpa using (hcontrol ch hch).1
  unfold validName
  simp [hempty, hdot, hdotdot, hslash, hbackslash, hlow]

section Entries

variable {tryParse : String → Option Int} {parent : String}

theorem entry_eq_ok {value : RemoteFsEntry} (h : Listable parent value)
    (hsize : ∀ size ∈ value.size, size < 2 ^ 63) :
    entry tryParse value = .ok (explorerEntry tryParse value) := by
  have hsafe : ∃ size, value.size.mapM safeInt = Except.ok size := by
    cases hvalue : value.size with
    | none => exact ⟨none, rfl⟩
    | some size =>
        have hle : decide (size ≤ 0x7fffffffffffffff) = true :=
          decide_eq_true (Nat.le_of_lt_succ (hsize size hvalue))
        refine ⟨some size, ?_⟩
        show Functor.map some (safeInt size) = _
        unfold safeInt
        rw [hle]
        rfl
  obtain ⟨size, hsafe⟩ := hsafe
  unfold entry validatePath validateName
  rw [decide_eq_true h.entryType, validPath_of_validRelativePath h.validPath,
    validName_of_validFileName h.name, hsafe]
  rfl

/-- Every entry of a page is taken over. -/
theorem mapM_entry {values : List RemoteFsEntry} (h : ∀ v ∈ values, Listable parent v)
    (hsize : ∀ v ∈ values, ∀ size ∈ v.size, size < 2 ^ 63) :
    values.mapM (entry tryParse) = .ok (values.map (explorerEntry tryParse)) := by
  induction values with
  | nil => rfl
  | cons value values ih =>
      obtain ⟨hvalue, hvalues⟩ := List.forall_mem_cons.mp h
      obtain ⟨hsizeValue, hsizeValues⟩ := List.forall_mem_cons.mp hsize
      rw [List.mapM_cons, entry_eq_ok hvalue hsizeValue, ih hvalues hsizeValues]
      rfl

end Entries

section Rounds

variable {X : RemoteFsExternals} {peer : RemoteFsPeer} {grant : RemoteFsGrant}
  {root : ExplorerRoot} {path : String} {entries : List RemoteFsEntry} {serving : ℕ → Serving}
  {tryParse : String → Option Int} {pageSize : ℕ}

/-- What the loop holds after `k` rounds: the first `k` pages, the cursor of
the next one, and no other cursor than those it was given. -/
structure PagedTo (X : RemoteFsExternals) (tryParse : String → Option Int) (pageSize : ℕ)
    (entries : List RemoteFsEntry) (k : ℕ) (paging : Paging) : Prop where
  requests : paging.requests = k
  held : paging.entries =
    ((sortedEntries X entries).take (k * pageSize)).map (explorerEntry tryParse)
  seen : ∀ cursor ∈ paging.seenCursors, ∃ i ≤ k, cursor = cursorOf (i * pageSize)
  decoded : decodeListCursor paging.cursor = .pure (k * pageSize)
  valid : paging.cursor.all Firebox.validCursor = true
  within : k * pageSize ≤ entries.length
  few : k * pageSize ≤ remoteListMaxEntries

theorem pagedTo_init : PagedTo X tryParse pageSize entries 0 .init where
  requests := rfl
  held := by simp [Paging.init]
  seen cursor hmem := by cases hmem
  decoded := by
    rw [Nat.zero_mul]
    rfl
  valid := rfl
  within := by simp
  few := by simp

theorem take_append_pageAt {k : ℕ} :
    (sortedEntries X entries).take (k * pageSize) ++
        (pageAt X pageSize entries (k * pageSize)).entries =
      (sortedEntries X entries).take ((k + 1) * pageSize) := by
  show _ ++ ((sortedEntries X entries).take _).drop _ = _
  have hstop : (sortedEntries X entries).take (min (k * pageSize + pageSize) entries.length) =
      (sortedEntries X entries).take ((k + 1) * pageSize) := by
    rw [Nat.succ_mul, List.take_eq_take_iff, length_sortedEntries]
    omega
  rw [hstop]
  have htake : (sortedEntries X entries).take (k * pageSize) =
      ((sortedEntries X entries).take ((k + 1) * pageSize)).take (k * pageSize) := by
    rw [List.take_take, Nat.succ_mul]
    congr 1
    omega
  rw [htake, List.take_append_drop]

/-- The pages that are asked for fit into their responses. -/
def PagesFit (X : RemoteFsExternals) (pageSize : ℕ) (entries : List RemoteFsEntry) : Prop :=
  pageSize ≤ remoteListPageSize ∨ ∀ k, Firebox.jsonPageSize
    (pageAt X pageSize entries (k * pageSize)) ≤ Firebox.maxJsonResponseSize

/-- The error of a directory with too many entries. -/
def tooManyEntries : RemoteFileSystemException :=
  explorerError "payload_too_large"
    "La carpeta contiene demasiados elementos para mostrarla con seguridad."

theorem nextCursor_pageAt_eq {k : ℕ} (hmore : (k + 1) * pageSize < entries.length) :
    (pageAt X pageSize entries (k * pageSize)).nextCursor =
      some (cursorOf ((k + 1) * pageSize)) := by
  have hstop : min (k * pageSize + pageSize) entries.length = (k + 1) * pageSize := by
    rw [Nat.succ_mul] at hmore ⊢
    omega
  show (if min (k * pageSize + pageSize) entries.length < entries.length then
    some (cursorOf (min (k * pageSize + pageSize) entries.length)) else none) = _
  rw [hstop, if_pos hmore]

theorem nextCursor_pageAt_eq_none {k : ℕ} (hlast : entries.length ≤ (k + 1) * pageSize) :
    (pageAt X pageSize entries (k * pageSize)).nextCursor = none := by
  refine if_neg ?_
  rw [Nat.succ_mul] at hlast
  omega

/-- The next round finds the next page, if there is one. -/
theorem PagedTo.next {k : ℕ} {paging : Paging}
    (hp : PagedTo X tryParse pageSize entries k paging)
    (hmore : (k + 1) * pageSize < entries.length)
    (hfew : (k + 1) * pageSize ≤ remoteListMaxEntries) :
    PagedTo X tryParse pageSize entries (k + 1) ⟨k + 1,
      ((sortedEntries X entries).take ((k + 1) * pageSize)).map (explorerEntry tryParse),
      (pageAt X pageSize entries (k * pageSize)).nextCursor.toList ++ paging.seenCursors,
      (pageAt X pageSize entries (k * pageSize)).nextCursor⟩ where
  requests := rfl
  held := rfl
  seen cursor hmem := by
    rw [nextCursor_pageAt_eq hmore] at hmem
    rcases List.mem_cons.mp hmem with rfl | hmem
    · exact ⟨k + 1, le_rfl, rfl⟩
    · obtain ⟨i, hi, heq⟩ := hp.seen cursor hmem
      exact ⟨i, hi.trans (Nat.le_succ k), heq⟩
  decoded := by
    rw [nextCursor_pageAt_eq hmore]
    exact decodeListCursor_cursorOf (hfew.trans_lt (by decide))
  valid := by
    rw [nextCursor_pageAt_eq hmore]
    exact Firebox.validCursor_offset (hfew.trans_lt (by decide))
  within := hmore.le
  few := hfew

variable (h : SharedDirectory X peer grant root.id path entries serving) (hX : X.ShortDates)
  (hsize : 1 ≤ pageSize ∧ pageSize ≤ Firebox.maxListLimit)
  (hfits : PagesFit X pageSize entries)

include h hX hsize hfits

/-- **One round**: the next page is appended, unless there are too many entries. -/
theorem round_eq {k : ℕ} {paging : Paging} (hp : PagedTo X tryParse pageSize entries k paging) :
    paging.round (device X peer serving) tryParse pageSize root path =
      if min ((k + 1) * pageSize) entries.length ≤ remoteListMaxEntries then
        .ok ⟨k + 1,
          ((sortedEntries X entries).take ((k + 1) * pageSize)).map (explorerEntry tryParse),
          (pageAt X pageSize entries (k * pageSize)).nextCursor.toList ++ paging.seenCursors,
          (pageAt X pageSize entries (k * pageSize)).nextCursor⟩
      else .error tooManyEntries := by
  obtain ⟨hlistable, hshort⟩ := h.listable hX
  have hpath : validatePath path = .ok () := by
    unfold validatePath
    rw [validPath_of_validRelativePath (validRelativePath_of_run h.listed)]
    rfl
  have hpage : device X peer serving paging.requests ⟨⟨root.id, path⟩, paging.cursor, pageSize⟩ =
      .ok (pageAt X pageSize entries (k * pageSize)) :=
    h.device_page hX _ hp.decoded hp.valid hp.within hsize (hfits.imp_right fun hall => hall k)
  have hmore : (pageAt X pageSize entries (k * pageSize)).entries.mapM (entry tryParse) =
      .ok ((pageAt X pageSize entries (k * pageSize)).entries.map (explorerEntry tryParse)) :=
    mapM_entry (fun v hv => hlistable v (pageAt_subset v hv))
      fun v hv => h.sizes v (pageAt_subset v hv)
  have hentries : paging.entries ++
      (pageAt X pageSize entries (k * pageSize)).entries.map (explorerEntry tryParse) =
        ((sortedEntries X entries).take ((k + 1) * pageSize)).map (explorerEntry tryParse) := by
    rw [hp.held, ← List.map_append, take_append_pageAt]
  have hnew : ((pageAt X pageSize entries (k * pageSize)).nextCursor.all fun cursor =>
      !paging.seenCursors.contains cursor) = true := by
    rw [Option.all_eq_true]
    intro cursor hcursor
    obtain ⟨-, rfl⟩ := nextCursor_pageAt hcursor
    simp only [List.contains_eq_mem, Bool.not_eq_true', decide_eq_false_iff_not]
    intro hseen
    obtain ⟨i, hi, heq⟩ := hp.seen _ hseen
    have hoffset := cursorOf_injective heq
    have hle : i * pageSize ≤ k * pageSize := Nat.mul_le_mul_right _ hi
    omega
  unfold Paging.round location
  rw [hpath]
  show ((device X peer serving paging.requests
    ⟨⟨root.id, path⟩, paging.cursor, pageSize⟩).mapError mapError >>= _) = _
  rw [hpage]
  show ((pageAt X pageSize entries (k * pageSize)).entries.mapM (entry tryParse) >>= _) = _
  rw [hmore]
  show (explorerCheck (decide ((paging.entries ++ (pageAt X pageSize entries
      (k * pageSize)).entries.map (explorerEntry tryParse)).length ≤ remoteListMaxEntries))
      tooManyEntries >>= fun _ => explorerCheck ((pageAt X pageSize entries
        (k * pageSize)).nextCursor.all fun cursor => !paging.seenCursors.contains cursor) _ >>=
      fun _ => pure (⟨paging.requests + 1, paging.entries ++ (pageAt X pageSize entries
        (k * pageSize)).entries.map (explorerEntry tryParse), _, _⟩ : Paging)) = _
  rw [hnew, hentries, hp.requests, List.length_map, List.length_take, length_sortedEntries]
  by_cases hfew : min ((k + 1) * pageSize) entries.length ≤ remoteListMaxEntries
  · rw [if_pos hfew, decide_eq_true hfew]
    rfl
  · rw [if_neg hfew, decide_eq_false hfew]
    rfl

/-- The last round: there is no further page, or there are too many entries. -/
theorem listPages_last {k : ℕ} {paging : Paging}
    (hp : PagedTo X tryParse pageSize entries k paging)
    (hlast : ¬ ((k + 1) * pageSize < entries.length ∧ (k + 1) * pageSize ≤ remoteListMaxEntries)) :
    listPages (device X peer serving) tryParse pageSize root path 1 paging =
      some (if entries.length ≤ remoteListMaxEntries then
        .ok ((sortedEntries X entries).map (explorerEntry tryParse))
      else .error tooManyEntries) := by
  have hround := round_eq h hX hsize hfits hp
  unfold listPages
  rw [hround]
  by_cases hfew : min ((k + 1) * pageSize) entries.length ≤ remoteListMaxEntries
  · have hend : entries.length ≤ (k + 1) * pageSize := by omega
    have hall : (sortedEntries X entries).take ((k + 1) * pageSize) = sortedEntries X entries :=
      List.take_of_length_le (length_sortedEntries.trans_le hend)
    rw [if_pos hfew, if_pos (by omega), nextCursor_pageAt_eq_none hend, hall]
  · rw [if_neg hfew, if_neg (by omega)]

/-- **The loop ends with the whole directory**, however many pages it takes. -/
theorem listPages_eq (remaining : ℕ) {k : ℕ} {paging : Paging}
    (hp : PagedTo X tryParse pageSize entries k paging)
    (hremaining : entries.length ≤ k * pageSize + remaining) :
    ∃ fuel, listPages (device X peer serving) tryParse pageSize root path fuel paging =
      some (if entries.length ≤ remoteListMaxEntries then
        .ok ((sortedEntries X entries).map (explorerEntry tryParse))
      else .error tooManyEntries) := by
  induction remaining generalizing k paging with
  | zero =>
      refine ⟨1, listPages_last h hX hsize hfits hp fun hmore => ?_⟩
      have hpages : (k + 1) * pageSize = k * pageSize + pageSize := Nat.succ_mul k pageSize
      omega
  | succ remaining ih =>
      by_cases hmore :
          (k + 1) * pageSize < entries.length ∧ (k + 1) * pageSize ≤ remoteListMaxEntries
      · have hpages : (k + 1) * pageSize = k * pageSize + pageSize := Nat.succ_mul k pageSize
        obtain ⟨fuel, hrest⟩ := ih (hp.next hmore.1 hmore.2) (by omega)
        refine ⟨fuel + 1, ?_⟩
        unfold listPages
        rw [round_eq h hX hsize hfits hp, if_pos (by omega)]
        rw [nextCursor_pageAt_eq hmore.1] at hrest ⊢
        exact hrest
      · exact ⟨1, listPages_last h hX hsize hfits hp hmore⟩

end Rounds

/-! ## §5  Listings -/

/-- **Pagination is complete**: the listing of an unchanged directory ends, and
holds its entries, each once and in the order of the server, unless there are
more than the client takes. -/
theorem listDirectory_complete {X : RemoteFsExternals} (hX : X.ShortDates) {peer : RemoteFsPeer}
    {grant : RemoteFsGrant} {root : ExplorerRoot} {path : String} {entries : List RemoteFsEntry}
    {serving : ℕ → Serving} (h : SharedDirectory X peer grant root.id path entries serving)
    (tryParse : String → Option Int) (storageByRoot : String → Option ExplorerStorageInfo)
    {pageSize : ℕ} (hsize : 1 ≤ pageSize ∧ pageSize ≤ Firebox.maxListLimit)
    (hfits : PagesFit X pageSize entries) :
    ∃ (sorted : List RemoteFsEntry) (fuel : ℕ), sorted.Perm entries ∧
      sorted.Pairwise (fun a b => (compareRemoteFsEntries X a b).isLE) ∧
      listDirectory (device X peer serving) tryParse pageSize root path storageByRoot fuel =
        some (if entries.length ≤ remoteListMaxEntries then
          .ok (listing root path storageByRoot (sorted.map (explorerEntry tryParse)))
        else .error tooManyEntries) := by
  obtain ⟨fuel, hpages⟩ := listPages_eq h hX hsize hfits entries.length pagedTo_init (by omega)
  refine ⟨sortedEntries X entries, fuel, sortedEntries_perm, pairwise_sortedEntries, ?_⟩
  unfold listDirectory
  rw [hpages]
  split_ifs <;> rfl

end NetworkClient

namespace Sample

/-- The tree of two documents, shared for as long as it takes. -/
def sharing (_ : ℕ) : Serving := ⟨"1", treeAccess, treeAnswer siblings⟩

def docsRoot : ExplorerRoot := ⟨"docs", "Documents", "", ⟨true, true, true, true, true, true, true⟩⟩

theorem sharedDocs : SharedDirectory remoteFsExternals docsPeer docsGrant docsRoot.id ""
    (treeEntries remoteFsExternals docsGrant "" siblings) sharing where
  allowed _ := docs_allowed
  same _ := ⟨fun _ _ => rfl, fun _ _ => rfl, fun _ entities h => ⟨entities, h, .refl _⟩,
    fun _ documents h => ⟨documents, h, .refl _⟩⟩
  provided := provided_treeAnswer (by decide)
  listed := rfl
  distinct := by decide
  sizes := by decide

end Sample

/-- Two documents, one to a page. -/
theorem listDirectory_complete_siblings : ∃ (sorted : List RemoteFsEntry) (fuel : ℕ),
    sorted.Perm (treeEntries Sample.remoteFsExternals Sample.docsGrant "" Sample.siblings) ∧
    sorted.Pairwise
      (fun a b => (compareRemoteFsEntries Sample.remoteFsExternals a b).isLE) ∧
    NetworkClient.listDirectory (device Sample.remoteFsExternals Sample.docsPeer Sample.sharing)
      (fun _ => none) 1 Sample.docsRoot "" (fun _ => none) fuel =
      some (.ok (NetworkClient.listing Sample.docsRoot "" (fun _ => none)
        (sorted.map (NetworkClient.explorerEntry fun _ => none)))) :=
  NetworkClient.listDirectory_complete Sample.shortDates Sample.sharedDocs (fun _ => none)
    (fun _ => none) ⟨by decide, by decide⟩ (.inl (by decide))

end FireBoxTransfer
