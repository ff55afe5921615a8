import FireBoxTransfer.RemoteFs.Firebox
import FireBoxTransfer.RemoteFs.Provider

/-!
# Handlers with fixed answers

What a handler replies while the snapshot stays as it is and every operation
has one answer.
-/

namespace FireBoxTransfer

open Program

/-! ## §1  Replies -/

def FsOp.reply? : FsOp → Option RemoteFsReply
  | .respond _ reply => some reply
  | _ => none

/-- The first reply of a handler; what it sends later reaches nobody. -/
def firstReply (X : RemoteFsExternals) (access : RemoteFsAccessConfig)
    (answer : (op : FsOp) → Except RemoteFsError op.Answer) (event : RemoteFsEvent) :
    Option RemoteFsReply :=
  ((handleRemoteFsEvent X event).calls access answer).findSome? FsOp.reply?

section Fixed

variable {X : RemoteFsExternals} {access : RemoteFsAccessConfig}
  {answer : (op : FsOp) → Except RemoteFsError op.Answer} {peer : RemoteFsPeer}
  {rootId : String} {capability : RemoteFsCapability} {grant : RemoteFsGrant}
  {request : Firebox.RemoteFsListRequest}

theorem run_require {c : Bool} {code : RemoteFsErrorCode} :
    (require c code).run access answer =
      if c then .ok () else .error (.failure code) := by
  unfold require
  split <;> rfl

theorem run_require_eq_ok {c : Bool} {code : RemoteFsErrorCode} {u : Unit} :
    (require c code).run access answer = .ok u ↔ c = true := by
  rw [run_require]
  split <;> simp_all

theorem run_mapFileSystem_eq_ok {α : Type} {code : Option Int → RemoteFsErrorCode}
    {p : RemoteFsM α} {a : α} :
    (mapFileSystem code p).run access answer = .ok a ↔ p.run access answer = .ok a := by
  unfold mapFileSystem
  rw [run_catching]
  cases p.run access answer with
  | ok b => exact .rfl
  | error e => cases e <;> exact iff_of_false nofun nofun

theorem run_mapSaf_eq_ok {α : Type} {p : RemoteFsM α} {a : α} :
    (mapSaf p).run access answer = .ok a ↔ p.run access answer = .ok a := by
  unfold mapSaf
  rw [run_catching]
  cases p.run access answer with
  | ok b => exact .rfl
  | error e => cases e <;> exact iff_of_false nofun nofun

theorem calls_require {c : Bool} {code : RemoteFsErrorCode} :
    (require c code).calls access answer = [] := by
  unfold require
  split <;> rfl

/-! ## §2  Grants -/

/-- The peer is authorised by a snapshot, under this grant. -/
structure Allowed (X : RemoteFsExternals) (access : RemoteFsAccessConfig) (peer : RemoteFsPeer)
    (rootId : String) (capability : RemoteFsCapability) (grant : RemoteFsGrant) : Prop where
  known : normalizeFingerprint X peer.certificateFingerprint ≠ ""
  trusted : normalizeFingerprint X peer.certificateFingerprint ∈ access.trustedFingerprints
  unique : matchingGrants access rootId = [grant]
  valid : validPublicRoot grant = true
  writable : (!(grant.readOnly && isWriteCapability capability)) = true

theorem Allowed.run_trusted (h : Allowed X access peer rootId capability grant) :
    (requireTrustedPeer X peer).run access answer = .ok () := by
  unfold requireTrustedPeer
  have hknown : (decide (normalizeFingerprint X peer.certificateFingerprint ≠ "")) = true :=
    decide_eq_true h.known
  rw [run_bind_ok (by rw [run_require, if_pos hknown]), run_bind_ok run_get, run_require,
    if_pos (by simpa using h.trusted)]

theorem Allowed.run_authorize (h : Allowed X access peer rootId capability grant) :
    (authorizeGrant X peer rootId capability).run access answer = .ok grant := by
  unfold authorizeGrant
  rw [run_bind_ok h.run_trusted, run_bind_ok run_get, h.unique]
  dsimp only
  rw [run_bind_ok (by rw [run_require, if_pos h.valid]),
    run_bind_ok (by rw [run_require, if_pos h.writable]), run_pure]

theorem Allowed.id_eq (h : Allowed X access peer rootId capability grant) : grant.id = rootId := by
  have hmem : grant ∈ matchingGrants access rootId := by
    rw [h.unique]
    exact List.mem_singleton_self grant
  simpa using (List.mem_filter.mp hmem).2

theorem Allowed.run_ensureCurrent (h : Allowed X access peer rootId capability grant) :
    (ensureGrantCurrent X peer grant capability).run access answer = .ok () := by
  unfold ensureGrantCurrent
  rw [h.id_eq, run_bind_ok h.run_authorize, run_require]
  simp

/-- Looking at grants calls nothing. -/
theorem Allowed.calls_authorize (h : Allowed X access peer rootId capability grant) :
    (authorizeGrant X peer rootId capability).calls access answer = [] := by
  have htrusted : (requireTrustedPeer X peer).calls access answer = [] := by
    unfold requireTrustedPeer
    have hknown : (decide (normalizeFingerprint X peer.certificateFingerprint ≠ "")) = true :=
      decide_eq_true h.known
    rw [calls_bind_ok (by rw [run_require, if_pos hknown]), calls_require,
      calls_bind_ok run_get, calls_require]
    rfl
  unfold authorizeGrant
  rw [calls_bind_ok h.run_trusted, htrusted, calls_bind_ok run_get, h.unique]
  dsimp only
  rw [calls_bind_ok (by rw [run_require, if_pos h.valid]), calls_require,
    calls_bind_ok (by rw [run_require, if_pos h.writable]), calls_require]
  rfl

theorem Allowed.calls_ensureCurrent (h : Allowed X access peer rootId capability grant) :
    (ensureGrantCurrent X peer grant capability).calls access answer = [] := by
  unfold ensureGrantCurrent
  rw [h.id_eq, calls_bind_ok h.run_authorize, h.calls_authorize, calls_require]
  rfl

end Fixed

/-! ## §3  Pages -/

/-- The offset that a cursor stands for. -/
def cursorOffset (cursor : Option String) : ℕ :=
  match decodeListCursor cursor with
  | .pure offset => offset
  | _ => 0

/-- The entries sorted as they are paged. -/
def sortedEntries (X : RemoteFsExternals) (entries : List RemoteFsEntry) : List RemoteFsEntry :=
  entries.mergeSort fun a b => compareRemoteFsEntries X a b ≠ .gt

/-- The page that a request gets of a listing. -/
def pageOf (X : RemoteFsExternals) (request : Firebox.RemoteFsListRequest)
    (entries : List RemoteFsEntry) : List RemoteFsEntry :=
  let offset := cursorOffset request.cursor
  ((sortedEntries X entries).take
    (min (offset + request.limit) (sortedEntries X entries).length)).drop offset

/-- The cursor of the next page, if there is one. -/
def nextCursorOf (request : Firebox.RemoteFsListRequest) (entries : List RemoteFsEntry) :
    Option String :=
  let stop := min (cursorOffset request.cursor + request.limit) entries.length
  if stop < entries.length then some ("v1:" ++ toString stop) else none

/-- The listing of a directory by the provider of its root. -/
def listDirectoryOf (X : RemoteFsExternals) (grant : RemoteFsGrant) (path : String) :
    RemoteFsM (List RemoteFsEntry) :=
  match grant.kind with
  | .localPath => listLocalDirectory X grant path
  | .androidSaf => listSafDirectory X grant path

section Pages

variable {X : RemoteFsExternals} {access : RemoteFsAccessConfig}
  {answer : (op : FsOp) → Except RemoteFsError op.Answer} {requestId : String}
  {peer : RemoteFsPeer} {grant : RemoteFsGrant} {request : Firebox.RemoteFsListRequest}
  {entries : List RemoteFsEntry}

theorem pageOf_sublist {entries : List RemoteFsEntry} :
    (pageOf X request entries).Sublist (sortedEntries X entries) :=
  (List.drop_sublist _ _).trans (List.take_sublist _ _)

theorem length_pageOf_le {entries : List RemoteFsEntry} :
    (pageOf X request entries).length ≤ request.limit := by
  unfold pageOf
  rw [List.length_drop, List.length_take]
  omega

theorem sortedEntries_perm {entries : List RemoteFsEntry} :
    (sortedEntries X entries).Perm entries := List.mergeSort_perm _ _

theorem decodeListCursor_eq (cursor : Option String) :
    decodeListCursor cursor = .pure (cursorOffset cursor) ∨
      ∃ e, decodeListCursor cursor = .throw e := by
  have hends : (∃ offset, decodeListCursor cursor = .pure offset) ∨
      ∃ e, decodeListCursor cursor = .throw e := by
    unfold decodeListCursor
    split
    · exact .inl ⟨_, rfl⟩
    · split
      · split
        · exact .inl ⟨_, rfl⟩
        · exact .inr ⟨_, rfl⟩
      · exact .inr ⟨_, rfl⟩
  refine hends.imp_left fun ⟨offset, hoffset⟩ => ?_
  unfold cursorOffset
  rw [hoffset]

theorem uses_listDirectoryOf {path : String} :
    (listDirectoryOf X grant path).Uses fun op => op.IsQuiet ∨ op.IsSafQuery := by
  unfold listDirectoryOf
  split
  · exact uses_listLocalDirectory.mono fun _ h => .inl h
  · exact uses_listSafDirectory.mono fun _ h => .inr h

/-- A listing ends with its page, and replies nothing before. -/
theorem calls_respondRemoteFsList
    (hallowed : Allowed X access peer request.location.rootId .browse grant)
    (hpath : validRelativePath request.location.path = true)
    (hlist : (listDirectoryOf X grant request.location.path).run access answer = .ok entries)
    (hcursor : decodeListCursor request.cursor = .pure (cursorOffset request.cursor))
    (hoffset : cursorOffset request.cursor ≤ entries.length) :
    (respondRemoteFsList X requestId peer request.location request.cursor request.limit).calls
        access answer =
      (listDirectoryOf X grant request.location.path).calls access answer ++
        [.respond requestId
          (.list ⟨pageOf X request entries, nextCursorOf request entries⟩)] := by
  have hlength : (entries.mergeSort fun a b => compareRemoteFsEntries X a b ≠ .gt).length =
      entries.length := List.length_mergeSort _
  have hvalid : (validateRelativePath request.location.path).run access answer = .ok () := by
    unfold validateRelativePath
    rw [run_require, if_pos hpath]
  unfold respondRemoteFsList
  rw [calls_bind_ok hallowed.run_authorize, hallowed.calls_authorize, calls_bind_ok hvalid]
  unfold validateRelativePath
  rw [calls_require, List.nil_append, List.nil_append]
  change calls access answer (listDirectoryOf X grant request.location.path >>= _) = _
  rw [calls_bind_ok hlist]
  congr 1
  dsimp only
  rw [hcursor, calls_bind_ok (b := cursorOffset request.cursor) rfl,
    calls_bind_ok (b := ()) (by rw [run_require, hlength, if_pos (by simpa using hoffset)]),
    calls_require, calls_bind_ok hallowed.run_ensureCurrent, hallowed.calls_ensureCurrent]
  simp only [List.nil_append]
  unfold respond
  rw [calls_await]
  unfold pageOf nextCursorOf sortedEntries
  rw [hlength]
  rfl

/-- The handler of the event calls what the listing calls, and perhaps more
if its reply is not taken. -/
theorem calls_list_prefix :
    (respondRemoteFsList X requestId peer request.location request.cursor request.limit).calls
        access answer <+:
      (handleRemoteFsEvent X ⟨requestId, peer,
        .list request.location request.cursor request.limit⟩).calls access answer :=
  calls_prefix_catching

/-- **The reply to a listing** is its page. -/
theorem firstReply_list
    (hallowed : Allowed X access peer request.location.rootId .browse grant)
    (hpath : validRelativePath request.location.path = true)
    (hlist : (listDirectoryOf X grant request.location.path).run access answer = .ok entries)
    (hcursor : decodeListCursor request.cursor = .pure (cursorOffset request.cursor))
    (hoffset : cursorOffset request.cursor ≤ entries.length) :
    firstReply X access answer
        ⟨requestId, peer, .list request.location request.cursor request.limit⟩ =
      some (.list ⟨pageOf X request entries, nextCursorOf request entries⟩) := by
  obtain ⟨later, hlater⟩ : (respondRemoteFsList X requestId peer request.location request.cursor
      request.limit).calls access answer <+: (handleRemoteFsEvent X ⟨requestId, peer,
        .list request.location request.cursor request.limit⟩).calls access answer :=
    calls_list_prefix
  unfold firstReply
  rw [← hlater, calls_respondRemoteFsList hallowed hpath hlist hcursor hoffset,
    List.append_assoc, List.findSome?_append]
  have hnone : ((listDirectoryOf X grant request.location.path).calls access answer).findSome?
      FsOp.reply? = none := by
    rw [List.findSome?_eq_none_iff]
    intro op hop
    have hquery := uses_listDirectoryOf.calls op hop
    cases op <;> first | rfl | exact (hquery.elim id id).elim
  rw [hnone]
  rfl

end Pages

end FireBoxTransfer
