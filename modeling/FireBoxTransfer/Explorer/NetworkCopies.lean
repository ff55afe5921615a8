import FireBoxTransfer.Explorer.Moves
import FireBoxTransfer.Explorer.NetworkFiles
import FireBoxTransfer.Explorer.Pagination
import FireBoxTransfer.RemoteFs.Validators

/-!
# A copy on a remote device

The client copies a tree of which it only ever sees one page of one directory,
or one chunk of one file, while its own requests change the tree. Nobody else
changes it. The copy ends, and if no request fails it has made the same tree at
the target and changed nothing elsewhere: what stands below the source is as it
was at every moment, and of a directory that is being copied the entries that
are still to come have nothing at their targets yet.
-/

namespace FireBoxTransfer

open Program Volume NetworkClient

/-! ## §1  The device -/

/-- A write that goes on, and what was sent for it. -/
structure RemoteUpload where
  target : List String
  sent : List UInt8

structure RemoteWorld where
  volume : Volume
  upload : Option RemoteUpload

/-- Where a request leads: below the root that it names. -/
def located (location : RemoteFsLocation) : List String :=
  location.rootId :: segments location.path

def entryTypeOf : VolumeNode → RemoteFsEntryType
  | .file _ => .file
  | .directory => .directory
  | .link | .other => .other

/-- What is listed of a directory: its entries, each once. -/
structure ListedEntries (d : Volume) (location : RemoteFsLocation)
    (entries : List RemoteFsEntry) : Prop where
  path : ∀ e ∈ entries, e.path = childRemotePath location.path e.name
  node : ∀ e ∈ entries, ∃ node, d (located location ++ [e.name]) = some node ∧
    entryTypeOf node = e.entryType ∧
    ∀ content, node = .file content → ∀ size ∈ e.size, size = content.length
  shown : ∀ name, d (located location ++ [name]) ≠ none → ∃ e ∈ entries, e.name = name
  distinct : (entries.map RemoteFsEntry.name).Nodup

/-- How a device orders its entries, and what it lists. -/
structure RemoteDevice where
  externals : RemoteFsExternals
  listed : Volume → RemoteFsLocation → List RemoteFsEntry

/-- Only the target of the write that goes on may have changed. -/
def UploadOnly (w w' : RemoteWorld) : Prop :=
  ∀ m, (∀ u ∈ w.upload, m ≠ u.target) → w'.volume m = w.volume m

/-- What a call may answer, and what it leaves. The volume is the tree as the
device shows it, and nobody else changes it; a listing is cut into the pages that
the isolate serves. -/
def RemoteDevice.answers (device : RemoteDevice) : (op : NetworkOp) → RemoteWorld →
    Except NetworkFailure op.Answer → RemoteWorld → Prop
  | .remoteFsList request, w, answer, w' => w' = w ∧ ∀ page, answer = .ok page →
      let entries := device.listed w.volume request.location
      w.volume (located request.location) = some .directory ∧
      ListedEntries w.volume request.location entries ∧
      ∀ offset, decodeListCursor request.cursor = .pure offset →
        page = pageAt device.externals request.limit entries offset
  | .remoteFsMetadata _, w, _, w' => w' = w
  | .remoteFsCreateDirectory parent name, w, answer, w' =>
      w'.upload = w.upload ∧ match answer with
      | .ok created => created.path = childRemotePath parent.path name ∧
          w.volume (located parent ++ [name]) = none ∧
          w'.volume = w.volume.write (located parent ++ [name]) .directory
      | .error _ => OnlyAt (located parent ++ [name]) w.volume w'.volume
  | .remoteFsOpenRead target, w, answer, w' =>
      w'.upload = w.upload ∧ UploadOnly w w' ∧ ∀ bytes : List (List UInt8),
        answer = .ok (bytes.map .ok) → w.volume (located target) = some (.file bytes.flatten)
  | .remoteFsWrite target _ _, w, _, w' =>
      w'.upload = some ⟨located target, []⟩ ∧ OnlyAt (located target) w.volume w'.volume
  | .sinkAdd data, w, answer, w' => UploadOnly w w' ∧ w'.upload = match answer with
      | .ok _ => w.upload.map fun u => { u with sent := u.sent ++ data }
      | .error _ => w.upload
  | .sinkClose, w, _, w' | .cancel, w, _, w' => w'.upload = w.upload ∧ UploadOnly w w'
  | .writeEvents, w, answer, w' => UploadOnly w w' ∧ match answer with
      | .ok events => w'.upload = none ∧ ∀ n u, .completed n ∈ events → u ∈ w.upload →
          ∃ content, content <+: u.sent ∧ content.length = n ∧
            w'.volume u.target = some (.file content)
      | .error _ => w'.upload = w.upload

/-- There is one write at a time, and while it goes on nothing is asked for but
what it needs. -/
def mayRequest : NetworkOp → RemoteWorld → Prop
  | .remoteFsList _, w | .remoteFsMetadata _, w | .remoteFsCreateDirectory _ _, w
  | .remoteFsWrite _ _ _, w => w.upload = none
  | .remoteFsOpenRead _, _ | .sinkAdd _, _ | .sinkClose, _ | .cancel, _ | .writeEvents, _ => True

def remoteSpec (device : RemoteDevice) :
    Spec Unit NetworkFailure NetworkOp NetworkOp.Answer RemoteWorld where
  mayRead _ := True
  reads w _ w' := w' = w
  mayCall := mayRequest
  answers op w answer w' := answer ≠ .error .outOfFuel ∧ device.answers op w answer w'

/-! ## §2  Rules -/

namespace NetworkRemoteFileSystemClient

/-- A failure that is none for want of fuel, and what is left by it. -/
def Fails (I : RemoteWorld → Prop) (failure : NetworkFailure) (w : RemoteWorld) : Prop :=
  failure ≠ .outOfFuel ∧ I w

section Rules

variable {device : RemoteDevice} {α : Type} {w : RemoteWorld} {Q : α → RemoteWorld → Prop}
  {I J : RemoteWorld → Prop}

theorem Fails.mono {failure : NetworkFailure} (h : Fails I failure w) (hIJ : ∀ w, I w → J w) :
    Fails J failure w := ⟨h.1, hIJ w h.2⟩

/-- A result is taken over, or its exception is thrown. -/
theorem wp_checked {result : ExplorerResult α} (hI : I w) (hQ : ∀ a, result = .ok a → Q a w) :
    wp (remoteSpec device) (checked result) Q (Fails I) w := by
  cases result with
  | ok a =>
      have ha := hQ a rfl
      exact wp_ret.mpr ha
  | error error => exact wp_throw.mpr ⟨nofun, hI⟩

theorem wp_checked_bind {β : Type} {result : ExplorerResult β} {rest : β → NetworkM α}
    (hI : I w) (hQ : ∀ b, result = .ok b → wp (remoteSpec device) (rest b) Q (Fails I) w) :
    wp (remoteSpec device) (checked result >>= rest) Q (Fails I) w := by
  rw [wp_bind]
  exact wp_checked hI hQ

theorem translated_ne {failure : NetworkFailure} (h : failure ≠ .outOfFuel) :
    translated failure ≠ .outOfFuel := by
  cases failure with
  | outOfFuel => exact absurd rfl h
  | exception error => exact h
  | client error => exact nofun
  | bridge => exact h

theorem wp_translate {action : NetworkM α} (h : wp (remoteSpec device) action Q (Fails I) w) :
    wp (remoteSpec device) (translate action) Q (Fails I) w := by
  unfold translate
  rw [wp_catching]
  refine wp_mono h (fun _ _ hq => hq) fun failure w' hfails => ?_
  exact wp_throw.mpr ⟨translated_ne hfails.1, hfails.2⟩

/-- The failure of a call is none for want of fuel. -/
theorem wp_request {op : NetworkOp} {Q : op.Answer → RemoteWorld → Prop} (hmay : mayRequest op w)
    (hQ : ∀ a w', device.answers op w (.ok a) w' → Q a w')
    (hI : ∀ failure w', device.answers op w (.error failure) w' → I w') :
    wp (remoteSpec device) (await op) Q (Fails I) w := by
  refine wp_await hmay (fun a w' hans => hQ a w' hans.2) fun failure w' hans => ?_
  exact ⟨fun heq => hans.1 (congrArg Except.error heq), hI failure w' hans.2⟩

end Rules

/-! ## §3  Listings -/

section Results

variable {α β : Type}

theorem explorerCheck_eq_ok {c : Bool} {error : RemoteFileSystemException} {u : Unit} :
    explorerCheck c error = .ok u ↔ c = true := by
  cases c with
  | false => exact ⟨nofun, nofun⟩
  | true => exact ⟨fun _ => rfl, fun _ => rfl⟩

theorem mapM_eq_ok {f : α → ExplorerResult β} {g : α → β}
    (hfg : ∀ a b, f a = .ok b → b = g a) {values : List α} {results : List β}
    (h : values.mapM f = .ok results) :
    results = values.map g ∧ ∀ a ∈ values, f a = .ok (g a) := by
  induction values generalizing results with
  | nil =>
      obtain rfl := Except.ok.inj h
      exact ⟨rfl, List.forall_mem_nil _⟩
  | cons a values ih =>
      rw [List.mapM_cons] at h
      obtain ⟨b, hb, h⟩ := Except.bind_eq_ok.mp h
      obtain ⟨rest, hrest, h⟩ := Except.bind_eq_ok.mp h
      obtain rfl := Except.ok.inj h
      obtain ⟨rfl, hvalues⟩ := ih hrest
      obtain rfl := hfg a b hb
      exact ⟨rfl, List.forall_mem_cons.mpr ⟨hb, hvalues⟩⟩

end Results

section Listings

variable {device : RemoteDevice} {tryParse : String → Option Int}
  {storageByRoot : String → Option ExplorerStorageInfo} {root : ExplorerRoot} {path : String}
  {value : RemoteFsEntry} {w : RemoteWorld}

/-- An entry that the client takes over. -/
structure TakenOver (tryParse : String → Option Int) (value : RemoteFsEntry) : Prop where
  entry : entry tryParse value = .ok (explorerEntry tryParse value)
  entryType : value.entryType ≠ .other
  name : validName value.name = true

theorem takenOver_of_entry {e : ExplorerFileEntry} (h : entry tryParse value = .ok e) :
    e = explorerEntry tryParse value ∧ TakenOver tryParse value := by
  have hentry := h
  unfold NetworkClient.entry at h
  obtain ⟨_, htype, h⟩ := Except.bind_eq_ok.mp h
  obtain ⟨_, -, h⟩ := Except.bind_eq_ok.mp h
  obtain ⟨_, hname, h⟩ := Except.bind_eq_ok.mp h
  obtain ⟨_, -, h⟩ := Except.bind_eq_ok.mp h
  obtain rfl : explorerEntry tryParse value = e := Except.ok.inj h
  exact ⟨rfl, hentry, of_decide_eq_true (explorerCheck_eq_ok.mp htype),
    explorerCheck_eq_ok.mp hname⟩

/-- The names that pass have no separator. -/
theorem located_child {rootId name : String} (hname : validName name = true) :
    located ⟨rootId, childRemotePath path name⟩ = located ⟨rootId, path⟩ ++ [name] := by
  simp only [validName, Bool.not_eq_true', Bool.or_eq_false_iff, decide_eq_false_iff_not,
    contains] at hname
  obtain ⟨⟨⟨⟨⟨hempty, -⟩, -⟩, hslash⟩, -⟩, -⟩ := hname
  unfold located
  dsimp only
  rw [segments_childRemotePath hempty (by simpa using hslash)]
  rfl

theorem location_eq_ok {location : RemoteFsLocation}
    (h : NetworkClient.location root path = .ok location) : location = ⟨root.id, path⟩ := by
  unfold NetworkClient.location at h
  obtain ⟨_, -, h⟩ := Except.bind_eq_ok.mp h
  exact (Except.ok.inj h).symm

/-- What a round leaves that takes over a page. -/
theorem round_eq_ok {paging next : Paging} {page : RemoteFsListResponse} {pageSize : ℕ}
    (h : paging.round (fun _ _ => .ok page) tryParse pageSize root path = .ok next) :
    next = ⟨paging.requests + 1, paging.entries ++ page.entries.map (explorerEntry tryParse),
      page.nextCursor.toList ++ paging.seenCursors, page.nextCursor⟩ ∧
    (∀ v ∈ page.entries, TakenOver tryParse v) ∧
    next.entries.length ≤ remoteListMaxEntries := by
  unfold Paging.round at h
  obtain ⟨_, -, h⟩ := Except.bind_eq_ok.mp h
  obtain ⟨found, hfound, h⟩ := Except.bind_eq_ok.mp h
  obtain rfl : page = found := Except.ok.inj hfound
  obtain ⟨more, hmore, h⟩ := Except.bind_eq_ok.mp h
  obtain ⟨_, hfew, h⟩ := Except.bind_eq_ok.mp h
  obtain ⟨_, -, h⟩ := Except.bind_eq_ok.mp h
  obtain ⟨rfl, htaken⟩ := mapM_eq_ok (fun v e he => (takenOver_of_entry he).1) hmore
  obtain rfl := Except.ok.inj h
  exact ⟨rfl, fun v hv => (takenOver_of_entry (htaken v hv)).2,
    of_decide_eq_true (explorerCheck_eq_ok.mp hfew)⟩

/-- The listing that comes of the pages. -/
structure WholeListing (device : RemoteDevice) (tryParse : String → Option Int) (d : Volume)
    (location : RemoteFsLocation) (entries : List ExplorerFileEntry) : Prop where
  directory : d (located location) = some .directory
  listed : ListedEntries d location (device.listed d location)
  entries : entries = (sortedEntries device.externals (device.listed d location)).map
    (explorerEntry tryParse)
  taken : ∀ v ∈ device.listed d location, TakenOver tryParse v

/-- **The pages of a listing**: after 200 of them there are too many entries for
another one. -/
theorem wp_listPages {pages k : ℕ} {paging : Paging} {entries : List RemoteFsEntry}
    (hidle : w.upload = none) (hentries : device.listed w.volume ⟨root.id, path⟩ = entries)
    (hp : PagedTo device.externals tryParse remoteListPageSize entries k paging)
    (htaken : ∀ v ∈ (sortedEntries device.externals entries).take (k * remoteListPageSize),
      TakenOver tryParse v) (hpages : 200 < k + pages) :
    wp (remoteSpec device) (listPages tryParse root path pages paging)
      (fun entries w' => w' = w ∧ WholeListing device tryParse w.volume ⟨root.id, path⟩ entries)
      (Fails (· = w)) w := by
  have hstep : (k + 1) * remoteListPageSize = k * remoteListPageSize + remoteListPageSize :=
    Nat.succ_mul k remoteListPageSize
  induction pages generalizing k paging with
  | zero =>
      have hfew := hp.few
      simp only [remoteListPageSize, remoteListMaxEntries] at hfew
      omega
  | succ pages ih =>
      unfold listPages
      refine wp_checked_bind rfl fun location hlocation => ?_
      obtain rfl := location_eq_ok hlocation
      rw [wp_bind]
      refine wp_request hidle (fun page w' hans => ?_) fun failure w' hans => hans.1
      obtain ⟨rfl, hans⟩ := hans
      obtain ⟨hdirectory, hlisted, hpage⟩ := hans page rfl
      dsimp only at hdirectory hlisted hpage
      rw [hentries] at hlisted hpage
      obtain rfl := hpage _ hp.decoded
      refine wp_checked_bind rfl fun next hnext => ?_
      obtain ⟨rfl, hpageTaken, hfew⟩ := round_eq_ok hnext
      -- what is held now are the entries up to the end of this page
      have hheld := hp.held
      have hall : ∀ v ∈ (sortedEntries device.externals entries).take
          ((k + 1) * remoteListPageSize), TakenOver tryParse v := by
        rw [← take_append_pageAt]
        exact List.forall_mem_append.mpr ⟨htaken, hpageTaken⟩
      have happend : paging.entries ++ (pageAt device.externals remoteListPageSize entries
          (k * remoteListPageSize)).entries.map (explorerEntry tryParse) =
            ((sortedEntries device.externals entries).take
              ((k + 1) * remoteListPageSize)).map (explorerEntry tryParse) := by
        rw [hheld, ← List.map_append, take_append_pageAt]
      dsimp only at hfew ⊢
      rw [happend] at hfew ⊢
      by_cases hmore : (k + 1) * remoteListPageSize < entries.length
      · rw [List.length_map, List.length_take, length_sortedEntries, min_eq_left hmore.le] at hfew
        have hrest := ih (hp.next hmore hfew) hall (by omega) (Nat.succ_mul _ _)
        rw [hp.requests]
        rw [nextCursor_pageAt_eq hmore] at hrest ⊢
        exact hrest
      · have hlast := nextCursor_pageAt_eq_none (X := device.externals) (Nat.le_of_not_lt hmore)
        have htake : (sortedEntries device.externals entries).take
            ((k + 1) * remoteListPageSize) = sortedEntries device.externals entries :=
          List.take_of_length_le (length_sortedEntries.trans_le (Nat.le_of_not_lt hmore))
        rw [hlast]
        rw [htake] at hall ⊢
        refine wp_ret.mpr ⟨rfl, hdirectory, ?_, ?_, fun v hv => ?_⟩
        · rw [hentries]
          exact hlisted
        · rw [hentries]
        · rw [hentries] at hv
          exact hall v (sortedEntries_perm.symm.subset hv)

/-- **The listing of a directory.** -/
theorem wp_listDirectory {pages : ℕ} (hpages : 200 < pages) (hidle : w.upload = none) :
    wp (remoteSpec device) (listDirectory tryParse storageByRoot pages root path)
      (fun listing w' => w' = w ∧
        WholeListing device tryParse w.volume ⟨root.id, path⟩ listing.entries)
      (Fails (· = w)) w := by
  unfold listDirectory
  refine wp_translate ?_
  rw [wp_bind]
  refine wp_mono (wp_listPages hidle rfl pagedTo_init (fun v hv => ?_) (by omega))
    (fun entries w' h => wp_pure.mpr h) fun _ _ h => h
  rw [Nat.zero_mul, List.take_zero] at hv
  cases hv

end Listings

/-! ## §4  Files -/

section Uploads

variable {device : RemoteDevice} {root : ExplorerRoot} {d : Volume} {t : List String}
  {w w' : RemoteWorld}

/-- While a file is written at `t`, nothing changes but what is at `t`. -/
structure Uploading (t : List String) (d : Volume) (w : RemoteWorld) : Prop where
  target : ∀ u ∈ w.upload, u.target = t
  only : OnlyAt t d w.volume

theorem Uploading.onlyAt (h : Uploading t d w) (hw : UploadOnly w w') : OnlyAt t d w'.volume := by
  intro m hm
  rw [hw m fun u hu heq => hm (heq.trans (h.target u hu))]
  exact h.only m hm

theorem Uploading.same (h : Uploading t d w) (hupload : w'.upload = w.upload)
    (hw : UploadOnly w w') : Uploading t d w' where
  target u hu := h.target u (hupload ▸ hu)
  only := h.onlyAt hw

theorem consumeWriteEvents_completed {expectedSize : ℕ} {completed : Bool}
    {events : List RsRemoteFsWriteEvent}
    (h : consumeWriteEvents expectedSize completed events = .ok ()) :
    completed = true ∨ .completed expectedSize ∈ events := by
  induction events generalizing completed with
  | nil => exact .inl (explorerCheck_eq_ok.mp h)
  | cons event events ih =>
      cases event with
      | progress n => exact (ih h).imp_right fun hmem => List.mem_cons_of_mem _ hmem
      | completed n =>
          obtain ⟨_, hsize, -⟩ := Except.bind_eq_ok.mp h
          have heq : n = expectedSize := of_decide_eq_true (explorerCheck_eq_ok.mp hsize)
          exact .inr (heq ▸ List.mem_cons_self)
      | failed error => cases h

/-- What a write leaves that was confirmed. -/
structure Confirmed (t : List String) (d : Volume) (size : ℕ) (sent : List UInt8)
    (w : RemoteWorld) : Prop where
  idle : w.upload = none
  only : OnlyAt t d w.volume
  written : ∃ content, content <+: sent ∧ content.length = size ∧
    w.volume t = some (.file content)

theorem wp_writeFuture {expectedSize : ℕ} (h : Uploading t d w) :
    wp (remoteSpec device) (writeFuture expectedSize)
      (fun _ w' => Uploading t d w' ∧ ∀ u ∈ w.upload, Confirmed t d expectedSize u.sent w')
      (Fails (Uploading t d)) w := by
  unfold writeFuture
  rw [wp_bind]
  refine wp_request trivial (fun events w' hans => ?_) fun failure w' hans =>
    h.same hans.2 hans.1
  obtain ⟨honly, hidle, hwritten⟩ := hans
  have hdone : Uploading t d w' := by
    refine ⟨fun u hu => ?_, h.onlyAt honly⟩
    rw [hidle] at hu
    cases hu
  refine wp_checked hdone fun _ hevents => ⟨hdone, fun u hu => ⟨hidle, hdone.only, ?_⟩⟩
  rcases consumeWriteEvents_completed hevents with hfalse | hcompleted
  · cases hfalse
  · have hcontent := hwritten expectedSize u hcompleted hu
    rwa [h.target u hu] at hcontent

/-- A write that is abandoned leaves its mark at its target at most. -/
theorem wp_abandonWrite {Q : Unit → RemoteWorld → Prop} {expectedSize : ℕ}
    {failure : NetworkFailure} (hfailure : failure ≠ .outOfFuel) (h : Uploading t d w) :
    wp (remoteSpec device) (abandonWrite expectedSize failure) Q (Fails (Uploading t d)) w := by
  unfold abandonWrite
  rw [wp_bind]
  refine wp_request trivial (fun _ w₁ hans => ?_) fun _ w₁ hans => h.same hans.1 hans.2
  have h₁ : Uploading t d w₁ := h.same hans.1 hans.2
  rw [wp_bind]
  refine wp_request trivial (fun _ w₂ hans => ?_) fun _ w₂ hans => h₁.same hans.1 hans.2
  have h₂ : Uploading t d w₂ := h₁.same hans.1 hans.2
  rw [wp_bind, wp_catching]
  refine wp_mono (wp_writeFuture h₂) (fun _ w₃ h₃ => ?_) fun _ w₃ h₃ => ?_
  · exact wp_throw.mpr ⟨hfailure, h₃.1⟩
  · exact wp_pure.mpr (wp_throw.mpr ⟨hfailure, h₃.2⟩)

/-- If none of the chunks fails for the client, none did for the bridge. -/
theorem eq_map_ok_of_mapError {α ε ε' : Type} {f : ε → ε'} {results : List (Except ε α)}
    {values : List α} (h : results.map (fun result => result.mapError f) = values.map .ok) :
    results = values.map .ok := by
  induction results generalizing values with
  | nil =>
      obtain rfl := List.map_eq_nil_iff.mp h.symm
      rfl
  | cons result results ih =>
      cases values with
      | nil => cases h
      | cons value values =>
          obtain ⟨hresult, hrest⟩ := List.cons.inj h
          cases result with
          | ok a =>
              obtain rfl : a = value := Except.ok.inj hresult
              rw [ih hrest]
              rfl
          | error error => cases hresult

/-- **A file is read.** If no chunk fails, the chunks make the file. -/
theorem wp_openRead {entry : ExplorerFileEntry} {s : List String} {data : List UInt8}
    (hs : located ⟨root.id, entry.path⟩ = s) (hdata : d s = some (.file data)) (hne : s ≠ t)
    (h : Uploading t d w) :
    wp (remoteSpec device) (openRead root entry 0)
      (fun chunks w' => w'.upload = w.upload ∧ Uploading t d w' ∧
        ∀ bytes : List (List UInt8), chunks = bytes.map .ok → bytes.flatten = data)
      (Fails (Uploading t d)) w := by
  unfold openRead
  refine wp_checked_bind h fun _ _ => wp_checked_bind h fun _ _ => ?_
  rw [wp_bind]
  refine wp_translate (wp_checked_bind h fun target htarget => ?_)
  obtain rfl := location_eq_ok htarget
  refine wp_request trivial (fun remote w' hans => ?_) fun failure w' hans =>
    h.same hans.1 hans.2.1
  obtain ⟨hupload, honly, hcontent⟩ := hans
  refine wp_pure.mpr ⟨hupload, h.same hupload honly, fun bytes hbytes => ?_⟩
  have hfile := hcontent bytes (congrArg _ (eq_map_ok_of_mapError hbytes))
  rw [hs, h.only s hne, hdata] at hfile
  exact (VolumeNode.file.inj (Option.some.inj hfile)).symm

/-- What was sent of the chunks when `rest` of them are still to come. -/
structure SentSoFar (t : List String) (d : Volume)
    (chunks rest : List (ExplorerResult (List UInt8))) (w : RemoteWorld) : Prop where
  uploading : Uploading t d w
  sent : ∃ bytes : List (List UInt8), chunks = bytes.map .ok ++ rest ∧
    w.upload = some ⟨t, bytes.flatten⟩

/-- **A file is sent**, chunk by chunk. -/
theorem wp_sendChunks {expectedSize : ℕ} {content : NetworkStream} {data : List UInt8}
    (hcontent : wp (remoteSpec device) content
      (fun chunks w' => w'.upload = w.upload ∧ Uploading t d w' ∧
        ∀ bytes : List (List UInt8), chunks = bytes.map .ok → bytes.flatten = data)
      (Fails (Uploading t d)) w) (hstart : w.upload = some ⟨t, []⟩) :
    wp (remoteSpec device) (sendChunks expectedSize content)
      (fun _ w' => Uploading t d w' ∧ w'.upload = some ⟨t, data⟩) (Fails (Uploading t d)) w := by
  unfold sendChunks
  rw [wp_bind]
  refine wp_mono hcontent (fun chunks w₁ hchunks => ?_) fun _ _ h => h
  obtain ⟨hupload, hw₁, hdata⟩ := hchunks
  have hbegin : SentSoFar t d chunks chunks w₁ :=
    ⟨hw₁, [], rfl, hupload.trans hstart⟩
  rw [wp_bind]
  refine wp_mono (wp_foldl_rest (I := fun rest _ => SentSoFar t d chunks rest)
    (E := Fails (Uploading t d)) hbegin ?_) (fun _ w₂ h => ?_) fun _ _ h => h
  · intro _ chunk rest w₂ h
    refine wp_checked_bind h.uploading fun data hchunk => ?_
    subst hchunk
    rw [wp_catching]
    refine wp_await trivial (fun _ w₃ hans => ?_) fun failure w₃ hans => ?_
    · obtain ⟨-, honly, hupload⟩ := hans
      obtain ⟨bytes, hchunks, hsent⟩ := h.sent
      rw [hsent] at hupload
      refine ⟨⟨fun u hu => ?_, h.uploading.onlyAt honly⟩, bytes ++ [data], ?_, ?_⟩
      · rw [hupload] at hu
        obtain rfl := Option.mem_some.mp hu
        rfl
      · simpa using hchunks
      · simpa using hupload
    · -- the error of the write comes before that of the sink
      obtain ⟨hfuel, honly, hupload⟩ := hans
      rw [wp_bind]
      refine wp_mono (wp_writeFuture (h.uploading.same hupload honly)) (fun _ w₄ h₄ => ?_)
        fun _ _ h₄ => h₄
      exact wp_throw.mpr ⟨fun heq => hfuel (congrArg Except.error heq), h₄.1⟩
  · obtain ⟨bytes, hchunks, hsent⟩ := h.sent
    rw [List.append_nil] at hchunks
    rw [hdata bytes hchunks] at hsent
    refine wp_request trivial (fun _ w₃ hans => ?_) fun _ w₃ hans =>
      h.uploading.same hans.1 hans.2
    exact ⟨h.uploading.same hans.1 hans.2, hans.1.trans hsent⟩

/-- **A file is written** whole, or not confirmed. -/
theorem wp_writeFile {destinationPath fileName : String} {content : NetworkStream}
    {data : List UInt8} {size : ℕ}
    (hcontent : ∀ w₁, Uploading t w.volume w₁ → wp (remoteSpec device) content
      (fun chunks w₂ => w₂.upload = w₁.upload ∧ Uploading t w.volume w₂ ∧
        ∀ bytes : List (List UInt8), chunks = bytes.map .ok → bytes.flatten = data)
      (Fails (Uploading t w.volume)) w₁)
    (ht : located ⟨root.id, destinationPath⟩ ++ [fileName] = t) (hsize : size = data.length)
    (hidle : w.upload = none) :
    wp (remoteSpec device) (writeFile root destinationPath fileName content (some size))
      (fun _ w' => w'.upload = none ∧ OnlyAt t w.volume w'.volume ∧
        w'.volume t = some (.file data)) (Fails fun w' => OnlyAt t w.volume w'.volume) w := by
  unfold writeFile
  refine wp_checked_bind (fun _ _ => rfl) fun _ _ => ?_
  refine wp_checked_bind (fun _ _ => rfl) fun _ hname => ?_
  have htarget : located ⟨root.id, childPath destinationPath fileName⟩ = t := by
    rw [← ht, ← located_child (explorerCheck_eq_ok.mp hname)]
    rfl
  refine wp_checked_bind (fun _ _ => rfl) fun location hlocation => ?_
  obtain rfl := location_eq_ok hlocation
  rw [wp_bind]
  refine wp_request hidle (fun _ w₁ hans => ?_) fun _ w₁ hans => htarget ▸ hans.2
  obtain ⟨hstart, honly⟩ : w₁.upload = some ⟨t, []⟩ ∧ OnlyAt t w.volume w₁.volume :=
    htarget ▸ hans
  have hw₁ : Uploading t w.volume w₁ := by
    refine ⟨fun u hu => ?_, honly⟩
    rw [hstart] at hu
    obtain rfl := Option.mem_some.mp hu
    rfl
  rw [wp_bind, wp_catching]
  refine wp_mono (wp_sendChunks (hcontent w₁ hw₁) hstart) (fun _ w₂ hsent => ?_)
    fun failure w₂ hfails => ?_
  · refine wp_mono (wp_writeFuture hsent.1) (fun _ w₃ h => ?_) fun _ w₃ h =>
      h.mono fun _ hw => hw.only
    obtain ⟨hidle, honly, content, hprefix, hlength, hfile⟩ := h.2 _ hsent.2
    -- as many bytes were confirmed as the file has
    obtain rfl := hprefix.eq_of_length (hlength.trans hsize)
    exact ⟨hidle, honly, hfile⟩
  · refine wp_mono (wp_abandonWrite hfails.1 hfails.2) (fun _ _ h => h) fun _ w₃ h =>
      h.mono fun _ hw => hw.only

end Uploads

/-! ## §5  Directories -/

section Trees

variable {device : RemoteDevice} {tryParse : String → Option Int}
  {storageByRoot : String → Option ExplorerStorageInfo} {pages : ℕ} {root : ExplorerRoot}
  {d₀ d d' d'' : Volume} {s t : List String} {w : RemoteWorld} {entry : ExplorerFileEntry}

/-- An entry of the explorer as it should be for what stands at a location. -/
structure EntryStands (d₀ : Volume) (s : List String) (entry : ExplorerFileEntry) : Prop where
  directory : entry.isDirectory = true → d₀ s = some .directory
  file : entry.isDirectory = false → ∃ content, d₀ s = some (.file content) ∧
    ∀ size ∈ entry.sizeBytes, size = content.length

/-- What is not at or below `t` is as it was. -/
def OutsideSame (t : List String) (d d' : Volume) : Prop := ∀ m, ¬ t <+: m → d' m = d m

/-- What stood at and below `s` in `d₀` stands at and below `t`, and nothing
else does. -/
def SameTree (d₀ : Volume) (s t : List String) (d : Volume) : Prop :=
  ∀ rel, d (t ++ rel) = d₀ (s ++ rel)

/-- The two locations are not above each other. -/
def Apart (s t : List String) : Prop := ¬ s <+: t ∧ ¬ t <+: s

theorem OutsideSame.trans (h : OutsideSame t d d') (h' : OutsideSame t d' d'') :
    OutsideSame t d d'' := fun m hm => (h' m hm).trans (h m hm)

theorem outsideSame_of_onlyAt (h : OnlyAt t d d') : OutsideSame t d d' := by
  intro m hm
  exact h m fun heq => hm (heq ▸ List.prefix_refl t)

theorem OutsideSame.of_child {name : String} (h : OutsideSame (t ++ [name]) d d') :
    OutsideSame t d d' := fun m hm => h m fun hbelow => hm ((List.prefix_append t _).trans hbelow)

theorem Apart.child (h : Apart s t) {name : String} : Apart (s ++ [name]) (t ++ [name]) := by
  constructor
  · intro hprefix
    rcases List.prefix_concat_iff.mp hprefix with heq | hs
    · obtain rfl := List.append_cancel_right heq
      exact h.1 (List.prefix_refl s)
    · exact h.1 ((List.prefix_append s _).trans hs)
  · intro hprefix
    rcases List.prefix_concat_iff.mp hprefix with heq | ht
    · obtain rfl := List.append_cancel_right heq
      exact h.1 (List.prefix_refl t)
    · exact h.2 ((List.prefix_append t _).trans ht)

/-- A source apart from the target stays as it is. -/
theorem OutsideSame.unchanged (h : OutsideSame t d d') (hapart : Apart s t)
    (hsame : Unchanged d₀ s d) : Unchanged d₀ s d' := by
  intro rel
  rw [h (s ++ rel) ?_]
  · exact hsame rel
  · intro hprefix
    rcases List.prefix_or_prefix_of_prefix hprefix (List.prefix_append s rel) with ht | hs
    · exact hapart.2 ht
    · exact hapart.1 hs

/-- What is listed can be copied. -/
theorem WholeListing.child {location : RemoteFsLocation} {entries : List ExplorerFileEntry}
    (h : WholeListing device tryParse d location entries) {child : ExplorerFileEntry}
    (hchild : child ∈ entries) : EntryStands d (located location ++ [child.name]) child ∧
      located ⟨location.rootId, child.path⟩ = located location ++ [child.name] := by
  rw [h.entries] at hchild
  obtain ⟨value, hvalue, rfl⟩ := List.mem_map.mp hchild
  have hlisted := sortedEntries_perm.subset hvalue
  obtain ⟨node, hnode, htype, hsize⟩ := h.listed.node value hlisted
  have htaken := h.taken value hlisted
  constructor
  · constructor
    · intro hdirectory
      have hkind : value.entryType = .directory := by
        by_contra hother
        simp [ExplorerFileEntry.isDirectory, explorerEntry, hother] at hdirectory
      rw [hkind] at htype
      cases node with
      | directory => exact hnode
      | file content => cases htype
      | link => cases htype
      | other => cases htype
    · intro hfile
      have hkind : value.entryType ≠ .directory := by
        intro hdirectory
        simp [ExplorerFileEntry.isDirectory, explorerEntry, hdirectory] at hfile
      cases node with
      | file content => exact ⟨content, hnode, hsize content rfl⟩
      | directory => exact absurd htype.symm hkind
      | link => exact absurd htype.symm htaken.entryType
      | other => exact absurd htype.symm htaken.entryType
  · rw [show (explorerEntry tryParse value).path = value.path from rfl, h.listed.path value hlisted]
    exact located_child htaken.name

theorem WholeListing.distinct {location : RemoteFsLocation} {entries : List ExplorerFileEntry}
    (h : WholeListing device tryParse d location entries) :
    (entries.map ExplorerFileEntry.name).Nodup := by
  rw [h.entries, List.map_map]
  exact (sortedEntries_perm.map _).nodup_iff.mpr h.listed.distinct

theorem WholeListing.complete {location : RemoteFsLocation} {entries : List ExplorerFileEntry}
    (h : WholeListing device tryParse d location entries) {name : String}
    (hname : d (located location ++ [name]) ≠ none) : ∃ e ∈ entries, e.name = name := by
  obtain ⟨value, hvalue, rfl⟩ := h.listed.shown name hname
  refine ⟨explorerEntry tryParse value, ?_, rfl⟩
  rw [h.entries]
  exact List.mem_map_of_mem (sortedEntries_perm.symm.subset hvalue)

theorem EntryStands.exists {loc : List String} (h : EntryStands d₀ loc entry) : d₀ loc ≠ none := by
  cases hkind : entry.isDirectory with
  | true =>
      rw [h.directory hkind]
      exact nofun
  | false =>
      obtain ⟨content, hcontent, -⟩ := h.file hkind
      rw [hcontent]
      exact nofun

theorem EntryStands.of_unchanged {loc : List String} (h : EntryStands d loc entry)
    (heq : d loc = d₀ loc) : EntryStands d₀ loc entry where
  directory hdirectory := heq ▸ h.directory hdirectory
  file hfile := heq ▸ h.file hfile

/-- What holds while the entries of a directory are copied: `rest` of them are
still to come. -/
structure ChildrenCopied (d₀ : Volume) (s t : List String) (d : Volume)
    (entries rest : List ExplorerFileEntry) (w : RemoteWorld) : Prop where
  idle : w.upload = none
  outside : OutsideSame t d w.volume
  top : w.volume t = some .directory
  pending : ∀ e ∈ rest, ∀ rel, w.volume (t ++ e.name :: rel) = none
  done : ∀ name, (∀ e ∈ rest, e.name ≠ name) → ∀ rel,
    w.volume (t ++ name :: rel) = d₀ (s ++ name :: rel)
  distinct : (rest.map ExplorerFileEntry.name).Nodup
  within : ∀ e ∈ rest, e ∈ entries

/-- One more entry was copied. -/
theorem ChildrenCopied.next {entries rest : List ExplorerFileEntry} {child : ExplorerFileEntry}
    {w' : RemoteWorld} (h : ChildrenCopied d₀ s t d entries (child :: rest) w)
    (hidle : w'.upload = none) (houtside : OutsideSame (t ++ [child.name]) w.volume w'.volume)
    (htree : SameTree d₀ (s ++ [child.name]) (t ++ [child.name]) w'.volume) :
    ChildrenCopied d₀ s t d entries rest w' := by
  obtain ⟨hnew, hdistinct⟩ := List.nodup_cons.mp h.distinct
  have hother : ∀ name, name ≠ child.name → ∀ rel,
      w'.volume (t ++ name :: rel) = w.volume (t ++ name :: rel) := by
    intro name hname rel
    refine houtside _ fun hprefix => ?_
    rw [List.prefix_append_right_inj, List.cons_prefix_cons] at hprefix
    exact hname hprefix.1.symm
  constructor
  · exact hidle
  · exact h.outside.trans houtside.of_child
  · rw [houtside t fun hprefix => ?_]
    · exact h.top
    · have hlength := hprefix.length_le
      simp at hlength
  · intro e he rel
    have hname : e.name ≠ child.name := fun heq =>
      hnew (heq ▸ List.mem_map_of_mem he)
    rw [hother e.name hname rel]
    exact h.pending e (List.mem_cons_of_mem _ he) rel
  · intro name hrest rel
    by_cases hname : name = child.name
    · subst hname
      have hrel := htree rel
      rwa [List.append_assoc, List.append_assoc] at hrel
    · rw [hother name hname rel]
      refine h.done name (List.forall_mem_cons.mpr ⟨?_, hrest⟩) rel
      exact fun heq => hname heq.symm
  · exact hdistinct
  · exact fun e he => h.within e (List.mem_cons_of_mem _ he)

/-- All entries were copied. -/
theorem ChildrenCopied.sameTree {entries : List ExplorerFileEntry}
    (h : ChildrenCopied d₀ s t d entries [] w) (hs : d₀ s = some .directory) :
    SameTree d₀ s t w.volume := by
  intro rel
  cases rel with
  | nil =>
      rw [List.append_nil, List.append_nil, hs]
      exact h.top
  | cons name rel => exact h.done name (List.forall_mem_nil _) rel

/-- Nothing is copied yet: the names that are not listed have nothing in the
source. -/
theorem childrenCopied_start (h₀ : d₀.WellFormed) {entries : List ExplorerFileEntry}
    (hidle : w.upload = none) (hfree : ∀ rel, d (t ++ rel) = none)
    (hwrite : w.volume = d.write t .directory)
    (hcomplete : ∀ name, d₀ (s ++ [name]) ≠ none → ∃ e ∈ entries, e.name = name)
    (hdistinct : (entries.map ExplorerFileEntry.name).Nodup) :
    ChildrenCopied d₀ s t w.volume entries entries w where
  idle := hidle
  outside _ _ := rfl
  top := by rw [hwrite, write_same]
  pending e _ rel := by
    rw [hwrite, write_of_ne (by simp)]
    exact hfree _
  done name hname rel := by
    have habove : d₀ (s ++ [name]) = none := by
      by_contra hexists
      obtain ⟨e, he, rfl⟩ := hcomplete name hexists
      exact hname e he rfl
    rw [hwrite, write_of_ne (by simp), hfree, List.append_cons, h₀.eq_none habove]
  distinct := hdistinct
  within _ he := he

end Trees

/-! ## §6  Trees -/

section Copies

variable {device : RemoteDevice} {tryParse : String → Option Int}
  {storageByRoot : String → Option ExplorerStorageInfo} {pages : ℕ} {root : ExplorerRoot}
  {d₀ : Volume} {s t : List String} {w : RemoteWorld} {entry : ExplorerFileEntry}

theorem wp_createDirectory {parentPath name : String} (hidle : w.upload = none)
    (ht : located ⟨root.id, parentPath⟩ ++ [name] = t) :
    wp (remoteSpec device) (createDirectory tryParse root parentPath name)
      (fun created w' => w'.upload = none ∧ located ⟨root.id, created.path⟩ = t ∧
        w'.volume = w.volume.write t .directory)
      (Fails fun w' => OnlyAt t w.volume w'.volume) w := by
  unfold createDirectory
  refine wp_translate ?_
  refine wp_checked_bind (fun _ _ => rfl) fun _ _ => ?_
  refine wp_checked_bind (fun _ _ => rfl) fun _ hname => ?_
  refine wp_checked_bind (fun _ _ => rfl) fun parent hparent => ?_
  obtain rfl := location_eq_ok hparent
  rw [wp_bind]
  refine wp_request hidle (fun value w' hans => ?_) fun failure w' hans => ?_
  · obtain ⟨hupload, hpath, -, hwrite⟩ := hans
    rw [ht] at hwrite
    refine wp_checked ?_ fun created hcreated => ⟨hupload.trans hidle, ?_, hwrite⟩
    · rw [hwrite]
      exact onlyAt_write
    · obtain ⟨rfl, -⟩ := takenOver_of_entry hcreated
      have hchild : located ⟨root.id, childRemotePath parentPath name⟩ =
          located ⟨root.id, parentPath⟩ ++ [name] :=
        located_child (explorerCheck_eq_ok.mp hname)
      rw [← hpath, ht] at hchild
      exact hchild
  · have honly := hans.2
    rwa [ht] at honly

theorem wp_getMetadata {path : String} (hidle : w.upload = none) :
    wp (remoteSpec device) (getMetadata tryParse root path) (fun _ w' => w' = w)
      (Fails (· = w)) w := by
  unfold getMetadata
  refine wp_translate (wp_checked_bind rfl fun target htarget => ?_)
  rw [wp_bind]
  refine wp_request hidle (fun value w' hans => ?_) fun failure w' hans => hans
  obtain rfl : w' = w := hans
  exact wp_checked rfl fun _ _ => rfl

/-- What a copy leaves. -/
structure TreeCopied (d₀ : Volume) (s t : List String) (w w' : RemoteWorld) : Prop where
  idle : w'.upload = none
  tree : SameTree d₀ s t w'.volume
  outside : OutsideSame t w.volume w'.volume

/-- **One entry is copied.** The induction is on the levels; one level of a
directory is a loop over its listing. -/
theorem wp_copy (h₀ : d₀.WellFormed) {levels : ℕ} {destinationPath : String}
    (hpages : 200 < pages) (hlevels : ∀ rel, d₀ (s ++ rel) ≠ none → rel.length < levels)
    (hentry : EntryStands d₀ s entry) (hs : located ⟨root.id, entry.path⟩ = s)
    (ht : located ⟨root.id, destinationPath⟩ ++ [entry.name] = t) (hapart : Apart s t)
    (hidle : w.upload = none) (hsame : Unchanged d₀ s w.volume)
    (hfree : ∀ rel, w.volume (t ++ rel) = none) :
    wp (remoteSpec device) (copy tryParse storageByRoot pages root levels entry destinationPath)
      (fun _ w' => TreeCopied d₀ s t w w')
      (Fails fun w' => OutsideSame t w.volume w'.volume) w := by
  have hnothing : OutsideSame t w.volume w.volume := fun _ _ => rfl
  induction levels generalizing entry destinationPath s t w with
  | zero =>
      have hexists : d₀ (s ++ []) ≠ none := by
        rw [List.append_nil]
        exact hentry.exists
      exact absurd (hlevels [] hexists) (Nat.not_lt_zero _)
  | succ levels ih =>
      unfold copy
      refine wp_checked_bind hnothing fun _ _ => wp_checked_bind hnothing fun _ _ => ?_
      refine wp_checked_bind hnothing fun _ _ => ?_
      split
      · exact wp_throw.mpr ⟨nofun, hnothing⟩
      split
      · rename_i _ hkind
        have hdirectory := hentry.directory hkind
        rw [wp_bind]
        refine wp_mono (wp_createDirectory hidle ht) (fun created w₁ hcreated => ?_)
          fun _ w₁ h => h.mono fun _ honly => outsideSame_of_onlyAt honly
        obtain ⟨hidle₁, hpath, hwrite⟩ := hcreated
        have houtside₁ : OutsideSame t w.volume w₁.volume := by
          rw [hwrite]
          exact outsideSame_of_onlyAt onlyAt_write
        have hsame₁ := houtside₁.unchanged hapart hsame
        rw [wp_bind]
        refine wp_mono (wp_listDirectory hpages hidle₁) (fun listing w₂ hlisting => ?_)
          fun _ w₂ h => h.mono fun _ heq => heq ▸ houtside₁
        obtain ⟨rfl, hlisting⟩ := hlisting
        have hstart : ChildrenCopied d₀ s t w₂.volume listing.entries listing.entries w₂ := by
          refine childrenCopied_start h₀ hidle₁ hfree hwrite (fun name hname => ?_)
            hlisting.distinct
          refine hlisting.complete ?_
          rw [hs, hsame₁]
          exact hname
        rw [wp_bind]
        refine wp_mono (wp_foldl_rest (I := fun rest _ => ChildrenCopied d₀ s t w₂.volume
          listing.entries rest) (E := Fails fun w' => OutsideSame t w.volume w'.volume)
          hstart ?_) (fun _ w₃ h => ?_) fun _ _ h => h
        · intro _ child rest w₃ h
          obtain ⟨hfor, hlocated⟩ := hlisting.child (h.within child List.mem_cons_self)
          rw [hs] at hfor hlocated
          have hsame₃ := h.outside.unchanged hapart hsame₁
          rw [wp_bind]
          refine wp_mono (ih (s := s ++ [child.name]) (t := t ++ [child.name])
            (fun rel hrel => ?_) (hfor.of_unchanged (hsame₁ [child.name])) hlocated
            (by rw [hpath]) hapart.child h.idle hsame₃.child (fun rel => ?_) fun _ _ => rfl)
            (fun _ w₄ hcopied => ?_) fun _ w₄ hfails => ?_
          · have hdepth := hlevels (child.name :: rel) (by simpa using hrel)
            exact Nat.lt_of_succ_lt_succ hdepth
          · rw [List.append_assoc]
            exact h.pending child List.mem_cons_self rel
          · exact wp_pure.mpr (h.next hcopied.idle hcopied.outside hcopied.tree)
          · exact hfails.mono fun _ houtside =>
              (houtside₁.trans h.outside).trans houtside.of_child
        · exact wp_pure.mpr ⟨h.idle, h.sameTree hdirectory, houtside₁.trans h.outside⟩
      · rename_i _ hkind
        obtain ⟨data, hdata, hsizes⟩ := hentry.file (by simpa using hkind)
        split
        · exact wp_throw.mpr ⟨nofun, hnothing⟩
        rename_i size hsize
        have hnow : w.volume s = some (.file data) := by
          have htop := hsame []
          rwa [List.append_nil, hdata] at htop
        have hne : s ≠ t := fun heq => hapart.1 (heq ▸ List.prefix_refl s)
        rw [wp_bind]
        refine wp_mono (wp_writeFile (fun _ h => wp_openRead hs hnow hne h) ht
          (hsizes size hsize) hidle) (fun _ w₁ h => ?_)
          fun _ w₁ h => h.mono fun _ honly => outsideSame_of_onlyAt honly
        obtain ⟨hidle₁, honly, hfile⟩ := h
        have houtside := outsideSame_of_onlyAt honly
        refine wp_mono (wp_getMetadata hidle₁) (fun _ w₂ heq => ?_)
          fun _ w₂ h => h.mono fun _ heq => heq ▸ houtside
        subst heq
        refine ⟨hidle₁, fun rel => ?_, houtside⟩
        cases rel with
        | nil => rw [List.append_nil, List.append_nil, hfile, hdata]
        | cons name rel =>
            -- nothing stands below a file
            rw [honly _ (by simp), hfree]
            symm
            by_contra hexists
            have habove := h₀.above (List.cons_ne_nil name rel) hexists
            rw [hdata] at habove
            cases habove

end Copies

section Run

variable (device : RemoteDevice) (tryParse : String → Option Int)
  (storageByRoot : String → Option ExplorerStorageInfo) (root : ExplorerRoot)
  (entry : ExplorerFileEntry) (destinationPath : String)

/-- What becomes of a copy, with so much fuel. -/
structure CopyEnds (levels pages : ℕ) (d₀ : Volume) (s t : List String) : Prop where
  terminates : Terminates (remoteSpec device)
    (copy tryParse storageByRoot pages root levels entry destinationPath) ⟨d₀, none⟩
  fuelled : ∀ w, ¬ Reaches (remoteSpec device)
    (copy tryParse storageByRoot pages root levels entry destinationPath) ⟨d₀, none⟩
    (.throw .outOfFuel) w
  copied : ∀ result w, Reaches (remoteSpec device)
    (copy tryParse storageByRoot pages root levels entry destinationPath) ⟨d₀, none⟩
    (.pure result) w → SameTree d₀ s t w.volume ∧ OutsideSame t d₀ w.volume
  failed : ∀ failure w, Reaches (remoteSpec device)
    (copy tryParse storageByRoot pages root levels entry destinationPath) ⟨d₀, none⟩
    (.throw failure) w → OutsideSame t d₀ w.volume

/-- **A copy on a remote device** ends, and if it returns, the same tree stands
at the target and nothing else has changed. -/
theorem copy_ends {d₀ : Volume} (h₀ : d₀.WellFormed) {s t : List String}
    (hs : located ⟨root.id, entry.path⟩ = s)
    (ht : located ⟨root.id, destinationPath⟩ ++ [entry.name] = t)
    (hentry : EntryStands d₀ s entry) (hfree : d₀ t = none) (houtside : ¬ s <+: t) :
    ∃ enough, ∀ levels ≥ enough, ∀ pages > 200,
      CopyEnds device tryParse storageByRoot root entry destinationPath levels pages d₀ s t := by
  obtain ⟨depth, hdepth⟩ := h₀.bounded
  refine ⟨depth + 1, fun levels hlevels pages hpages => ?_⟩
  have hexists : d₀ s ≠ none := hentry.exists
  have hapart : Apart s t := by
    refine ⟨houtside, ?_⟩
    rintro ⟨rel, rfl⟩
    exact hexists (h₀.eq_none hfree rel)
  have hwp : wp (remoteSpec device)
      (copy tryParse storageByRoot pages root levels entry destinationPath)
      (fun _ w => TreeCopied d₀ s t ⟨d₀, none⟩ w) (Fails fun w => OutsideSame t d₀ w.volume)
      ⟨d₀, none⟩ := by
    refine wp_copy h₀ hpages (fun rel hrel => ?_) hentry hs ht hapart rfl (fun _ => rfl)
      (h₀.eq_none hfree)
    have hlength := hdepth _ hrel
    rw [List.length_append] at hlength
    omega
  constructor
  · exact Program.terminates _ _
  · intro w hreach
    exact (wp_throw.mp (wp_reaches hwp hreach)).1 rfl
  · intro result w hreach
    have hcopied := wp_ret.mp (wp_reaches hwp hreach)
    exact ⟨hcopied.tree, hcopied.outside⟩
  · intro failure w hreach
    exact (wp_throw.mp (wp_reaches hwp hreach)).2

end Run

end NetworkRemoteFileSystemClient

open NetworkRemoteFileSystemClient

namespace Sample

def docsVolume : Volume := ofList [([], .directory), (["docs"], .directory),
  (["docs", "a"], .directory), (["docs", "a", "x"], .file [7]), (["docs", "b"], .directory)]

theorem wellFormed_docsVolume : docsVolume.WellFormed := wellFormed_ofList (by decide)

def remoteDirectory (name path : String) : RemoteFsEntry :=
  ⟨name, path, .directory, none, none, none, []⟩

def remoteFile (name path : String) (size : ℕ) : RemoteFsEntry :=
  ⟨name, path, .file, some size, none, none, []⟩

/-- A device with one file in its directory. -/
def docsDevice : RemoteDevice := ⟨remoteFsExternals, fun _ _ => [remoteFile "x" "a/x" 1]⟩

def directoryA : ExplorerFileEntry := explorerEntry (fun _ => none) (remoteDirectory "a" "a")

/-- The tree once the directory is there, and once the file is. -/
def docsCreated : Volume := docsVolume.write ["docs", "b", "a"] .directory

def docsCopied : Volume := docsCreated.write ["docs", "b", "a", "x"] (.file [7])

theorem listedEntries_docs :
    ListedEntries docsCreated ⟨"docs", "a"⟩ [remoteFile "x" "a/x" 1] where
  path e he := by
    obtain rfl := List.mem_singleton.mp he
    decide
  node e he := by
    obtain rfl := List.mem_singleton.mp he
    refine ⟨.file [7], by decide, rfl, fun content hcontent size hsize => ?_⟩
    obtain rfl := VolumeNode.file.inj hcontent
    exact (Option.mem_some.mp hsize).symm
  shown name hname := by
    obtain ⟨node, hnode⟩ := Option.ne_none_iff_exists'.mp hname
    rw [show located ⟨"docs", "a"⟩ = ["docs", "a"] by decide] at hnode
    unfold docsCreated at hnode
    rw [write_of_ne (by simp)] at hnode
    have hmem := mem_of_ofList hnode
    refine ⟨_, List.mem_singleton_self _, ?_⟩
    simp only [List.mem_cons, Prod.mk.injEq, List.cons_append, List.nil_append, List.cons.injEq,
      List.not_mem_nil, reduceCtorEq, and_false, false_and, false_or, or_false, true_and,
      and_true] at hmem
    exact hmem.1.symm
  distinct := by decide

/-- The directory is copied: it is created, its file is read and written. -/
theorem reaches_directoryA (levels : ℕ) : Reaches (remoteSpec docsDevice)
    (copy (fun _ => none) (fun _ => none) 201 docsRoot (levels + 2) directoryA "b")
    ⟨docsVolume, none⟩ (.pure (explorerEntry (fun _ => none) (remoteDirectory "a" "b/a")))
    ⟨docsCopied, none⟩ := by
  have hpage : (⟨[remoteFile "x" "a/x" 1], none⟩ : RemoteFsListResponse) =
      pageAt remoteFsExternals remoteListPageSize [remoteFile "x" "a/x" 1] 0 := by
    unfold pageAt sortedEntries
    rw [List.mergeSort_singleton]
    rfl
  -- the directory is created
  refine Reaches.head (a := .ok (remoteDirectory "a" "b/a")) (v := ⟨docsCreated, none⟩)
    ⟨nofun, rfl, by decide, by decide, rfl⟩ ?_
  -- its entries are listed
  refine Reaches.head (a := .ok ⟨[remoteFile "x" "a/x" 1], none⟩) (v := ⟨docsCreated, none⟩)
    ⟨nofun, rfl, fun page heq => ?_⟩ ?_
  · obtain rfl := Except.ok.inj heq
    refine ⟨by decide, listedEntries_docs, fun offset hoffset => ?_⟩
    obtain rfl : 0 = offset := Program.pure.inj hoffset
    exact hpage
  -- the file is read while it is written
  have hsame : ∀ w : RemoteWorld, UploadOnly w w := fun _ _ _ => rfl
  refine Reaches.head (a := .ok ()) (v := ⟨docsCreated, some ⟨["docs", "b", "a", "x"], []⟩⟩)
    ⟨nofun, rfl, fun _ _ => rfl⟩ ?_
  refine Reaches.head (a := .ok [.ok [7]])
    (v := ⟨docsCreated, some ⟨["docs", "b", "a", "x"], []⟩⟩)
    ⟨nofun, rfl, hsame _, fun bytes hbytes => ?_⟩ ?_
  · obtain rfl : [[7]] = bytes := by
      have hmap : [[7]].map Except.ok = bytes.map Except.ok := Except.ok.inj hbytes
      exact List.map_injective_iff.mpr (fun _ _ => Except.ok.inj) hmap
    decide
  refine Reaches.head (a := .ok ()) (v := ⟨docsCreated, some ⟨["docs", "b", "a", "x"], [7]⟩⟩)
    ⟨nofun, hsame ⟨_, some ⟨_, []⟩⟩, rfl⟩ ?_
  refine Reaches.head (a := .ok ()) (v := ⟨docsCreated, some ⟨["docs", "b", "a", "x"], [7]⟩⟩)
    ⟨nofun, rfl, hsame _⟩ ?_
  refine Reaches.head (a := .ok [.completed 1]) (v := ⟨docsCopied, none⟩)
    ⟨nofun, fun m hm => write_of_ne (hm _ rfl), rfl, fun n u hn hu => ?_⟩ ?_
  · obtain rfl := Option.mem_some.mp hu
    obtain ⟨rfl⟩ := List.mem_singleton.mp hn
    exact ⟨[7], List.prefix_refl _, rfl, by decide⟩
  exact Reaches.head (a := .ok (remoteFile "x" "b/a/x" 1)) ⟨nofun, rfl⟩ .refl

theorem entryFor_directoryA : EntryStands docsVolume ["docs", "a"] directoryA where
  directory _ := by decide
  file hfile := absurd hfile (by decide)

end Sample

/-- A directory with a file is copied into the one next to it. -/
theorem copy_ends_directoryA : ∃ result w levels, Reaches (remoteSpec Sample.docsDevice)
    (copy (fun _ => none) (fun _ => none) 201 Sample.docsRoot levels Sample.directoryA "b")
    ⟨Sample.docsVolume, none⟩ (.pure result) w ∧
    SameTree Sample.docsVolume ["docs", "a"] ["docs", "b", "a"] w.volume := by
  obtain ⟨enough, hends⟩ := copy_ends Sample.docsDevice (fun _ => none) (fun _ => none)
    Sample.docsRoot Sample.directoryA "b" Sample.wellFormed_docsVolume
    (s := ["docs", "a"]) (t := ["docs", "b", "a"]) (by decide) (by decide)
    Sample.entryFor_directoryA (by decide) (by decide)
  have hreach := Sample.reaches_directoryA enough
  exact ⟨_, _, _, hreach,
    ((hends _ (Nat.le_add_right enough 2) 201 (by decide)).copied _ _ hreach).1⟩

end FireBoxTransfer
