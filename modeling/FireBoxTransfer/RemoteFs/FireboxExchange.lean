import FireBoxTransfer.RemoteFs.FireboxResponses
import FireBoxTransfer.RemoteFs.Listing
import FireBoxTransfer.RemoteFs.Validators
import Mathlib.Algebra.BigOperators.Ring.List
import Mathlib.Algebra.Order.BigOperators.Group.List
import Mathlib.Algebra.Order.Ring.Nat

/-!
# What the client gets of a response

The client of the core gets every reply that the server lets pass, unless its text is longer
than the client reads. The bounds of the server, which are on names, paths and numbers of
entries, leave room for pages that are.
-/

namespace FireBoxTransfer

namespace Firebox

/-! ## §1  Bodies -/

section Bodies

variable {http : Http} {maxSize status : ℕ} {value : JsonValue}

/-- Chunks that are not too long in all are put together one after the other. -/
theorem foldlM_appendBounded {chunks : List (List UInt8)} {body : List UInt8}
    (h : body.length + chunks.flatten.length ≤ maxSize) :
    chunks.foldlM (appendBounded maxSize) body = .ok (body ++ chunks.flatten) := by
  induction chunks generalizing body with
  | nil => rw [List.foldlM_nil, List.flatten_nil, List.append_nil]; rfl
  | cons chunk chunks ih =>
      rw [List.flatten_cons, List.length_append] at h
      have hchunk : appendBounded maxSize body chunk = .ok (body ++ chunk) := by
        unfold appendBounded
        rw [if_neg (by omega)]
      rw [List.foldlM_cons, hchunk]
      change List.foldlM (appendBounded maxSize) (body ++ chunk) chunks = _
      rw [ih (by rw [List.length_append]; omega), List.flatten_cons, List.append_assoc]

theorem collectBoundedBody_json (hhttp : http.Carries value) :
    collectBoundedBody (http.jsonResponse status value) maxSize =
      if value.size ≤ maxSize then .ok value.text else .error .invalidResponse := by
  have hlength := JsonValue.length_text value
  unfold collectBoundedBody Http.jsonResponse
  rw [Option.any_some, hlength]
  by_cases hsize : value.size ≤ maxSize
  · have hfits : ([] : List UInt8).length + (http.chunks value.text).flatten.length ≤ maxSize := by
      rw [hhttp.arrive, hlength, List.length_nil, Nat.zero_add]
      exact hsize
    have hlong : decide (value.size > maxSize) = false := decide_eq_false (by omega)
    rw [if_pos hsize, hlong, foldlM_appendBounded hfits, hhttp.arrive]
    rfl
  · have hlong : decide (value.size > maxSize) = true := decide_eq_true (by omega)
    rw [if_neg hsize, hlong]
    rfl

/-- A value that can be read is got unless its text is too long. -/
theorem parseJsonResponse_json (hhttp : http.Carries value) (hstatus : isSuccess status = true)
    {α : Type} {read : JsonValue → Option α} {a : α} (hread : read value = some a) :
    parseJsonResponse http read (http.jsonResponse status value) =
      if value.size ≤ maxJsonResponseSize then .ok a else .error .invalidResponse := by
  have hsuccess : ensureSuccess http (http.jsonResponse status value) = .ok () := if_pos hstatus
  unfold parseJsonResponse
  rw [hsuccess, collectBoundedBody_json hhttp]
  split_ifs with hsize
  · have hvalue : (http.readJson value.text).bind read = some a := by
      rw [hhttp.read, Option.bind_some, hread]
    simp only [bind, Except.bind, hvalue]
  · rfl

/-- What follows a value that is got. -/
theorem bind_parse_eq_ok (hhttp : http.Carries value) (hstatus : isSuccess status = true)
    {α β : Type} {read : JsonValue → Option α} {a : α} (hread : read value = some a)
    {f : α → Except RemoteFsClientError β} {b : β} (hf : f a = .ok b) :
    parseJsonResponse http read (http.jsonResponse status value) >>= f = .ok b ↔
      value.size ≤ maxJsonResponseSize := by
  rw [parseJsonResponse_json hhttp hstatus hread]
  split_ifs with hsize
  · exact ⟨fun _ => hsize, fun _ => hf⟩
  · exact ⟨nofun, fun h => absurd h hsize⟩

end Bodies

/-! ## §2  What the server lets pass -/

theorem ok_bind {ε α β : Type} {a : α} {f : α → Except ε β} : Except.ok a >>= f = f a := rfl

theorem map_eq_ok {ε α β : Type} {x : Except ε α} {f : α → β} {b : β} :
    x.map f = .ok b ↔ ∃ a, x = .ok a ∧ f a = b := by
  cases x with
  | ok a => exact ⟨fun h => ⟨a, rfl, Except.ok.inj h⟩, fun ⟨_, ha, hb⟩ => by
      rw [← hb, ← Except.ok.inj ha]
      rfl⟩
  | error e => exact ⟨nofun, fun ⟨_, ha, _⟩ => nomatch ha⟩

theorem dispatchEntry_eq_ok {reply : Option RemoteFsReply} {entry : RemoteFsEntry} :
    dispatchEntry reply = .ok entry ↔ reply = some (.entry entry) := by
  unfold dispatchEntry
  split
  · simp
  · simp
  · rename_i hentry _
    exact ⟨nofun, fun h => absurd h (hentry entry)⟩

section Endpoints

variable {http : Http} {state : RemoteFsState}

theorem roots_eq_ok {reply : List RemoteFsRoot} (h : roots state = .ok reply) :
    state.application.roots = some (.ok reply) ∧ reply.length ≤ 256 ∧
      validateRoots [] reply = .ok () := by
  obtain ⟨answered, hanswer, h⟩ := Except.bind_eq_ok.mp h
  obtain ⟨hlength, h⟩ := then_eq_ok.mp h
  obtain ⟨hroots, h⟩ := then_eq_ok.mp h
  obtain rfl := Except.ok.inj h
  refine ⟨?_, of_decide_eq_true (check_eq_ok.mp hlength), hroots⟩
  cases hreply : state.application.roots with
  | none =>
      rw [hreply] at hanswer
      cases hanswer
  | some result =>
      rw [hreply] at hanswer
      exact congrArg some hanswer

theorem list_eq_ok {isolate : RemoteFsListRequest → Option RemoteFsReply}
    {request : RemoteFsListRequest} {response : RemoteFsListResponse}
    (h : list isolate request = .ok response) :
    request.validate = .ok () ∧ isolate request = some (.list response) ∧
      validatePage request response = .ok () := by
  obtain ⟨hrequest, h⟩ := then_eq_ok.mp h
  obtain ⟨answered, hanswer, h⟩ := Except.bind_eq_ok.mp h
  obtain ⟨hpage, h⟩ := then_eq_ok.mp h
  obtain rfl := Except.ok.inj h
  refine ⟨hrequest, ?_, hpage⟩
  unfold dispatchList at hanswer
  split at hanswer
  · rename_i reply hreply
    rw [hreply, Except.ok.inj hanswer]
  · cases hanswer
  · cases hanswer

theorem list_of_valid {isolate : RemoteFsListRequest → Option RemoteFsReply}
    {request : RemoteFsListRequest} {response : RemoteFsListResponse}
    (hrequest : request.validate = .ok ()) (hreply : isolate request = some (.list response))
    (hpage : validatePage request response = .ok ()) : list isolate request = .ok response := by
  unfold list
  rw [hrequest, hreply]
  change (validatePage request response >>= fun _ => pure response) = _
  rw [hpage]
  rfl

theorem metadata_eq_ok {target : RemoteFsLocation} {entry : RemoteFsEntry}
    (h : metadata state target = .ok entry) :
    validateLocation target = .ok () ∧ requireEntryPath target = .ok () ∧
      state.application.answer (.metadata target) = some (.entry entry) ∧
      validateExactEntry entry target.path = .ok () := by
  obtain ⟨hlocation, h⟩ := then_eq_ok.mp h
  obtain ⟨hpath, h⟩ := then_eq_ok.mp h
  obtain ⟨answered, hanswer, h⟩ := Except.bind_eq_ok.mp h
  obtain ⟨hentry, h⟩ := then_eq_ok.mp h
  obtain rfl := Except.ok.inj h
  exact ⟨hlocation, hpath, dispatchEntry_eq_ok.mp hanswer, hentry⟩

theorem mutate_eq_ok {isolate : RemoteFsRequest → Option RemoteFsReply} {request : RemoteFsRequest}
    {path : String} (hpath : expectedPath request = some path) {entry : RemoteFsEntry}
    (h : mutate isolate request = .ok entry) :
    validateMutation request = .ok () ∧ isolate request = some (.entry entry) ∧
      validateMutated request path entry = .ok () := by
  have hvalid : validateMutation request = .ok () := by
    cases hvalidate : validateMutation request with
    | ok _ => rfl
    | error code =>
        rw [mutate_refused hvalidate] at h
        cases h
  rw [mutate_eq hpath hvalid] at h
  obtain ⟨answered, hanswer, h⟩ := Except.bind_eq_ok.mp h
  obtain ⟨hentry, h⟩ := then_eq_ok.mp h
  obtain rfl := Except.ok.inj h
  exact ⟨hvalid, dispatchEntry_eq_ok.mp hanswer, hentry⟩

theorem delete_eq_ok {target : RemoteFsLocation} {recursive : Bool}
    (h : delete state target recursive = .ok ()) :
    validateLocation target = .ok () ∧ requireEntryPath target = .ok () ∧
      state.application.answer (.delete target recursive) = some .deleted := by
  obtain ⟨hlocation, h⟩ := then_eq_ok.mp h
  obtain ⟨hpath, h⟩ := then_eq_ok.mp h
  refine ⟨hlocation, hpath, ?_⟩
  split at h
  · assumption
  · cases h
  · cases h

theorem read_eq_ok {target : RemoteFsLocation} {headers : ℕ × String}
    (h : read http state target = .ok headers) :
    validateLocation target = .ok () ∧ requireEntryPath target = .ok () ∧
      ∃ entry handle, state.application.answer (.read target) = some (.read entry handle) ∧
        entry.size = some headers.1 ∧ contentType http entry = headers.2 := by
  obtain ⟨hlocation, h⟩ := then_eq_ok.mp h
  obtain ⟨hpath, h⟩ := then_eq_ok.mp h
  refine ⟨hlocation, hpath, ?_⟩
  split at h
  · rename_i entry handle hanswer
    obtain ⟨-, h⟩ := then_eq_ok.mp h
    obtain ⟨-, h⟩ := then_eq_ok.mp h
    split at h
    · rename_i size hsize
      obtain rfl := Except.ok.inj h
      exact ⟨entry, handle, hanswer, hsize, rfl⟩
    · cases h
  · cases h
  · cases h

theorem write_eq_ok {target : RemoteFsLocation} {size : BitVec 64} {overwrite : Bool} {bytes : ℕ}
    (h : write state target size overwrite = .ok bytes) :
    validateLocation target = .ok () ∧ requireEntryPath target = .ok () ∧
      (∃ handle, state.application.answer (.write target size overwrite) =
        some (.write handle)) ∧ size.toNat = bytes := by
  obtain ⟨hlocation, h⟩ := then_eq_ok.mp h
  obtain ⟨hpath, h⟩ := then_eq_ok.mp h
  obtain ⟨-, h⟩ := then_eq_ok.mp h
  refine ⟨hlocation, hpath, ?_⟩
  split at h
  · rename_i handle hanswer
    split at h
    · exact ⟨⟨handle, hanswer⟩, Except.ok.inj h⟩
    · cases h
  · cases h
  · cases h

/-- **What is served is what the application replied.** -/
theorem serve_reply {request : RemoteFsRequest} {response : Response}
    (h : serve http state request = .ok response) :
    state.application.reply http request = some response := by
  unfold Application.reply
  cases request with
  | roots =>
      obtain ⟨reply, hreply, rfl⟩ := map_eq_ok.mp h
      rw [(roots_eq_ok hreply).1]
  | list location cursor limit =>
      obtain ⟨reply, hreply, rfl⟩ := map_eq_ok.mp h
      rw [(list_eq_ok hreply).2.1]
  | metadata target =>
      obtain ⟨reply, hreply, rfl⟩ := map_eq_ok.mp h
      rw [(metadata_eq_ok hreply).2.2.1]
  | createDirectory parent name =>
      obtain ⟨reply, hreply, rfl⟩ := map_eq_ok.mp h
      rw [(mutate_eq_ok rfl hreply).2.1]
  | rename source newName =>
      obtain ⟨reply, hreply, rfl⟩ := map_eq_ok.mp h
      rw [(mutate_eq_ok rfl hreply).2.1]
  | move source destinationParent newName overwrite =>
      obtain ⟨reply, hreply, rfl⟩ := map_eq_ok.mp h
      rw [(mutate_eq_ok rfl hreply).2.1]
  | delete target recursive =>
      obtain ⟨reply, hreply, rfl⟩ := map_eq_ok.mp h
      rw [(delete_eq_ok hreply).2.2]
  | read target =>
      obtain ⟨⟨size, type⟩, hreply, rfl⟩ := map_eq_ok.mp h
      obtain ⟨-, -, entry, handle, hanswer, hsize, htype⟩ := read_eq_ok hreply
      rw [hanswer]
      change some (Response.content entry.size (some (contentType http entry))) = _
      rw [hsize, htype]
  | write target size overwrite =>
      obtain ⟨reply, hreply, rfl⟩ := map_eq_ok.mp h
      obtain ⟨-, -, ⟨handle, hanswer⟩, hbytes⟩ := write_eq_ok hreply
      rw [hanswer]
      change some (Response.written size.toNat) = _
      rw [hbytes]

theorem handle_of_serve {request : RemoteFsRequest} {response : Response}
    (h : serve http state request = .ok response) :
    handle http state request = encode http request response := by
  unfold handle
  rw [h]

end Endpoints

/-! ## §3  What the client gets -/

/-- The JSON value that a response is sent as, if it is sent as one. -/
def Response.json : Response → Option JsonValue
  | .roots reply => some (rootsJson reply)
  | .page reply => some (pageJson reply)
  | .entry reply => some (entryJson reply)
  | .mutated reply => some (mutationJson reply)
  | .written reply => some (writtenJson reply)
  | .deleted | .content _ _ => none

/-- Its text is not longer than what the client reads. -/
def Response.Fits (response : Response) : Prop :=
  ∀ value ∈ response.json, value.size ≤ maxJsonResponseSize

/-- Sizes have 64 bits. -/
def Response.IsU64 : Response → Prop
  | .roots reply => ∀ root ∈ reply, Firebox.IsU64 root.totalBytes ∧ Firebox.IsU64 root.freeBytes
  | .page reply => ∀ listed ∈ reply.entries, Firebox.IsU64 listed.size
  | .entry reply | .mutated reply => Firebox.IsU64 reply.size
  | .deleted | .content _ _ | .written _ => True

theorem map_eq_ok_of_injective {ε α β : Type} {x : Except ε α} {f : α → β}
    (hf : Function.Injective f) {a : α} : x.map f = .ok (f a) ↔ x = .ok a := by
  rw [map_eq_ok]
  constructor
  · rintro ⟨a', hx, ha⟩
    rw [hx, hf ha]
  · exact fun hx => ⟨a, hx, rfl⟩

theorem forall_json {response : Response} {value : JsonValue} {p : JsonValue → Prop}
    (hjson : response.json = some value) (h : p value) : ∀ value ∈ response.json, p value := by
  intro value' hvalue
  rw [hjson] at hvalue
  exact Option.some.inj hvalue ▸ h

theorem fits_iff {response : Response} {value : JsonValue} (h : response.json = some value) :
    response.Fits ↔ value.size ≤ maxJsonResponseSize := by
  unfold Response.Fits
  rw [h]
  exact ⟨fun hfits => hfits value rfl, fun hsize _ hsame => Option.some.inj hsame ▸ hsize⟩

section Answers

variable {http : Http} {state : RemoteFsState}

theorem validateEntryLocation_eq_ok {location : RemoteFsLocation}
    (hlocation : validateLocation location = .ok ()) (hpath : requireEntryPath location = .ok ()) :
    validateEntryLocation location = .ok () := by
  unfold validateEntryLocation
  rw [hlocation, hpath]
  rfl

theorem validateExactResponseEntry_eq_ok {entry : RemoteFsEntry} {path : String}
    (h : validateExactEntry entry path = .ok ()) :
    validateExactResponseEntry entry path = .ok () := by
  obtain ⟨hentry, hpath⟩ := then_eq_ok.mp h
  unfold validateExactResponseEntry
  rw [hentry, check_eq_ok.mp hpath]
  rfl

theorem askRoots_iff {reply : List RemoteFsRoot} (hhttp : http.Carries (rootsJson reply))
    (hserved : roots state = .ok reply) (hu64 : (Response.roots reply).IsU64) :
    askRoots http (handle http state) = .ok reply ↔
      (rootsJson reply).size ≤ maxJsonResponseSize := by
  obtain ⟨-, hlength, hroots⟩ := roots_eq_ok hserved
  have hserve : serve http state .roots = .ok (.roots reply) :=
    map_eq_ok.mpr ⟨reply, hserved, rfl⟩
  unfold askRoots
  rw [handle_of_serve hserve]
  refine bind_parse_eq_ok hhttp rfl (readRoots_json hu64) ?_
  rw [decide_eq_true hlength, hroots]
  rfl

theorem askList_iff {location : RemoteFsLocation} {cursor : Option String} {limit : ℕ}
    {reply : RemoteFsListResponse} (hhttp : http.Carries (pageJson reply))
    (hserved : serve http state (.list location cursor limit) = .ok (.page reply))
    (hu64 : (Response.page reply).IsU64) :
    askList http (handle http state) ⟨location, cursor, limit⟩ = .ok reply ↔
      (pageJson reply).size ≤ maxJsonResponseSize := by
  obtain ⟨answered, hanswer, hpage⟩ := map_eq_ok.mp hserved
  obtain rfl := Response.page.inj hpage
  obtain ⟨hrequest, -, hpage⟩ := list_eq_ok hanswer
  obtain ⟨hlength, hpage⟩ := then_eq_ok.mp hpage
  obtain ⟨hentries, hcursor⟩ := then_eq_ok.mp hpage
  unfold askList
  rw [hrequest, handle_of_serve hserved]
  refine bind_parse_eq_ok hhttp rfl (readPage_json hu64) ?_
  rw [check_eq_ok.mp hlength, check_eq_ok.mp hcursor, hentries]
  rfl

theorem ask_list {server : RemoteFsRequest → HttpResponse} {location : RemoteFsLocation}
    {cursor : Option String} {limit : ℕ} {reply : RemoteFsListResponse} :
    ask http server (.list location cursor limit) = .ok (.page reply) ↔
      askList http server ⟨location, cursor, limit⟩ = .ok reply :=
  map_eq_ok_of_injective fun _ _ => Response.page.inj

theorem askMetadata_iff {target : RemoteFsLocation} {reply : RemoteFsEntry}
    (hhttp : http.Carries (entryJson reply)) (hserved : metadata state target = .ok reply)
    (hu64 : Firebox.IsU64 reply.size) :
    askMetadata http (handle http state) target = .ok reply ↔
      (entryJson reply).size ≤ maxJsonResponseSize := by
  obtain ⟨hlocation, hpath, -, hentry⟩ := metadata_eq_ok hserved
  have hserve : serve http state (.metadata target) = .ok (.entry reply) :=
    map_eq_ok.mpr ⟨reply, hserved, rfl⟩
  unfold askMetadata
  rw [validateEntryLocation_eq_ok hlocation hpath, ok_bind, handle_of_serve hserve]
  refine bind_parse_eq_ok hhttp rfl (readEntry_json hu64) ?_
  rw [validateExactResponseEntry_eq_ok hentry]
  rfl

/-- The client reads a mutation that was served, whichever it is. -/
theorem parseMutationResponse_iff {request : RemoteFsRequest} {path : String}
    {reply : RemoteFsEntry} (hhttp : http.Carries (mutationJson reply))
    (hserved : serve http state request = .ok (.mutated reply))
    (hmutated : validateMutated request path reply = .ok ()) (hu64 : Firebox.IsU64 reply.size) :
    parseMutationResponse http (handle http state request) path = .ok reply ↔
      (mutationJson reply).size ≤ maxJsonResponseSize := by
  have hstatus : isSuccess (mutationStatus request) = true := by cases request <;> rfl
  obtain ⟨hentry, -⟩ := then_eq_ok.mp hmutated
  unfold parseMutationResponse
  rw [handle_of_serve hserved]
  refine bind_parse_eq_ok hhttp hstatus (readMutation_json hu64) ?_
  rw [validateExactResponseEntry_eq_ok hentry]
  rfl

theorem askWrite_iff {target : RemoteFsLocation} {size : BitVec 64} {overwrite : Bool} {reply : ℕ}
    (hhttp : http.Carries (writtenJson reply))
    (hserved : write state target size overwrite = .ok reply) :
    askWrite http (handle http state) target size overwrite = .ok reply ↔
      (writtenJson reply).size ≤ maxJsonResponseSize := by
  obtain ⟨hlocation, hpath, -, hbytes⟩ := write_eq_ok hserved
  have hserve : serve http state (.write target size overwrite) = .ok (.written reply) :=
    map_eq_ok.mpr ⟨reply, hserved, rfl⟩
  have hu64 : reply < 2 ^ 64 := hbytes ▸ size.isLt
  unfold askWrite
  rw [validateEntryLocation_eq_ok hlocation hpath, ok_bind, handle_of_serve hserve]
  refine bind_parse_eq_ok hhttp rfl (readWritten_json hu64) ?_
  rw [hbytes, decide_eq_true rfl]
  rfl

theorem askDelete_eq_ok {target : RemoteFsLocation} {recursive : Bool}
    (hserved : delete state target recursive = .ok ()) :
    askDelete http (handle http state) target recursive = .ok () := by
  obtain ⟨hlocation, hpath, -⟩ := delete_eq_ok hserved
  have hserve : serve http state (.delete target recursive) = .ok .deleted :=
    map_eq_ok.mpr ⟨(), hserved, rfl⟩
  unfold askDelete
  rw [validateEntryLocation_eq_ok hlocation hpath, handle_of_serve hserve]
  rfl

theorem askRead_eq_ok {target : RemoteFsLocation} {headers : ℕ × String}
    (hserved : read http state target = .ok headers) :
    askRead http (handle http state) target = .ok ⟨200, some headers.1, some headers.2, []⟩ := by
  obtain ⟨hlocation, hpath, -⟩ := read_eq_ok hserved
  have hserve : serve http state (.read target) =
      .ok (.content (some headers.1) (some headers.2)) :=
    map_eq_ok.mpr ⟨headers, hserved, rfl⟩
  unfold askRead
  rw [validateEntryLocation_eq_ok hlocation hpath, handle_of_serve hserve]
  rfl

end Answers

/-- **The client gets what the server lets pass, unless its text is too long.** -/
theorem client_accepts_iff {http : Http} {state : RemoteFsState} {request : RemoteFsRequest}
    {reply : Response} (hhttp : ∀ value ∈ reply.json, http.Carries value)
    (hreply : state.application.reply http request = some reply)
    (hserved : (serve http state request).isOk = true) (hu64 : reply.IsU64) :
    ask http (handle http state) request = .ok reply ↔ reply.Fits := by
  have hserve : serve http state request = .ok reply := by
    cases hresponse : serve http state request with
    | ok response =>
        have hsame := (serve_reply hresponse).symm.trans hreply
        rw [Option.some.inj hsame]
    | error code =>
        rw [hresponse] at hserved
        cases hserved
  unfold ask
  cases request with
  | roots =>
      obtain ⟨shared, hshared, rfl⟩ := map_eq_ok.mp hserve
      refine (map_eq_ok_of_injective fun _ _ => Response.roots.inj).trans ?_
      exact (askRoots_iff (hhttp _ rfl) hshared hu64).trans (fits_iff rfl).symm
  | list location cursor limit =>
      obtain ⟨page, hpage, rfl⟩ := map_eq_ok.mp hserve
      exact ask_list.trans ((askList_iff (hhttp _ rfl) hserve hu64).trans (fits_iff rfl).symm)
  | metadata target =>
      obtain ⟨entry, hentry, rfl⟩ := map_eq_ok.mp hserve
      refine (map_eq_ok_of_injective fun _ _ => Response.entry.inj).trans ?_
      exact (askMetadata_iff (hhttp _ rfl) hentry hu64).trans (fits_iff rfl).symm
  | createDirectory parent name =>
      obtain ⟨entry, hentry, rfl⟩ := map_eq_ok.mp hserve
      obtain ⟨hvalid, -, hmutated⟩ := mutate_eq_ok rfl hentry
      obtain ⟨hparent, hname⟩ := then_eq_ok.mp hvalid
      refine (map_eq_ok_of_injective fun _ _ => Response.mutated.inj).trans ?_
      unfold askCreateDirectory
      rw [hparent, hname]
      exact (parseMutationResponse_iff (hhttp _ rfl) hserve hmutated hu64).trans (fits_iff rfl).symm
  | rename source newName =>
      obtain ⟨entry, hentry, rfl⟩ := map_eq_ok.mp hserve
      obtain ⟨hvalid, -, hmutated⟩ := mutate_eq_ok rfl hentry
      obtain ⟨hsource, hvalid⟩ := then_eq_ok.mp hvalid
      obtain ⟨hpath, hname⟩ := then_eq_ok.mp hvalid
      refine (map_eq_ok_of_injective fun _ _ => Response.mutated.inj).trans ?_
      unfold askRename
      rw [validateEntryLocation_eq_ok hsource hpath, hname]
      exact (parseMutationResponse_iff (hhttp _ rfl) hserve hmutated hu64).trans (fits_iff rfl).symm
  | move source destinationParent newName overwrite =>
      obtain ⟨entry, hentry, rfl⟩ := map_eq_ok.mp hserve
      obtain ⟨hvalid, -, hmutated⟩ := mutate_eq_ok rfl hentry
      obtain ⟨hsource, hvalid⟩ := then_eq_ok.mp hvalid
      obtain ⟨hpath, hvalid⟩ := then_eq_ok.mp hvalid
      obtain ⟨hparent, hname⟩ := then_eq_ok.mp hvalid
      refine (map_eq_ok_of_injective fun _ _ => Response.mutated.inj).trans ?_
      unfold askMove
      rw [validateEntryLocation_eq_ok hsource hpath, hparent, hname]
      exact (parseMutationResponse_iff (hhttp _ rfl) hserve hmutated hu64).trans (fits_iff rfl).symm
  | delete target recursive =>
      obtain ⟨_, hdeleted, rfl⟩ := map_eq_ok.mp hserve
      change (askDelete http (handle http state) target recursive).map _ = _ ↔ _
      rw [askDelete_eq_ok hdeleted]
      exact ⟨fun _ => nofun, fun _ => rfl⟩
  | read target =>
      obtain ⟨headers, hread, rfl⟩ := map_eq_ok.mp hserve
      change (askRead http (handle http state) target).map _ = _ ↔ _
      rw [askRead_eq_ok hread]
      exact ⟨fun _ => nofun, fun _ => rfl⟩
  | write target size overwrite =>
      obtain ⟨bytes, hwritten, rfl⟩ := map_eq_ok.mp hserve
      refine (map_eq_ok_of_injective fun _ _ => Response.written.inj).trans ?_
      exact (askWrite_iff (hhttp _ rfl) hwritten).trans (fits_iff rfl).symm

/-! ## §4  A page that is too long -/

namespace Quoted

/-- What is read is the one text. -/
def http (value : JsonValue) : Http where
  readJson bytes := if bytes = value.text then some value else none
  headerValue _ := true
  chunks body := [body]

theorem http_carries (value : JsonValue) : (http value).Carries value where
  read := if_pos rfl
  arrive := List.append_nil _

/-- An application that answers every request with a page. -/
def paging (response : RemoteFsListResponse) : RemoteFsState where
  application := ⟨none, fun _ => some (.list response), fun _ _ => true⟩
  maxWriteSize := 0

theorem serve_paging {http : Http} {response : RemoteFsListResponse} {location : RemoteFsLocation}
    {cursor : Option String} {limit : ℕ}
    (h : list (fun _ => some (.list response)) ⟨location, cursor, limit⟩ = .ok response) :
    serve http (paging response) (.list location cursor limit) = .ok (.page response) :=
  map_eq_ok.mpr ⟨response, h, rfl⟩

def shortPage : RemoteFsListResponse :=
  ⟨[⟨"a.txt", "a.txt", .file, some 3, none, some "text/plain", [.read]⟩], none⟩

end Quoted

theorem client_accepts_short : ask (Quoted.http (pageJson Quoted.shortPage))
    (handle (Quoted.http (pageJson Quoted.shortPage)) (Quoted.paging Quoted.shortPage))
    (.list ⟨"downloads", ""⟩ none 200) = .ok (.page Quoted.shortPage) := by
  refine (client_accepts_iff (forall_json rfl (Quoted.http_carries _)) rfl ?_ ?_).mpr ?_
  · rfl
  · intro listed hlisted size hsize
    obtain rfl := List.mem_singleton.mp hlisted
    obtain rfl := Option.some.inj hsize
    decide
  · refine (fits_iff rfl).mpr ?_
    rw [size_pageJson]
    decide

/-- A quotation mark takes two characters of JSON. -/
theorem le_stringSize (s : String) : 2 * s.toList.count '"' ≤ JsonValue.stringSize s := by
  unfold JsonValue.stringSize
  induction s.toList with
  | nil => exact Nat.zero_le _
  | cons ch chars ih =>
      rw [List.count_cons, List.map_cons, List.sum_cons]
      split_ifs with hquote
      · obtain rfl := beq_iff_eq.mp hquote
        have htwo : JsonValue.charSize '"' = 2 := rfl
        omega
      · omega

theorem le_jsonPageSize {response : RemoteFsListResponse} {bound : ℕ}
    (h : ∀ entry ∈ response.entries, bound ≤ jsonEntrySize entry) :
    response.entries.length * bound ≤ jsonPageSize response := by
  have hsum : response.entries.length * bound ≤ (response.entries.map jsonEntrySize).sum := by
    simpa using
      List.card_nsmul_le_sum (response.entries.map jsonEntrySize) bound (by simpa using h)
  unfold jsonPageSize jsonListSize
  omega

namespace Quoted

/-- A thousand quotation marks and one more letter. -/
def quotedName (n : ℕ) : String := .ofList (List.replicate 1000 '"' ++ [Char.ofNat (0x100 + n)])

def quotedParent : String := .ofList (List.replicate 3000 '"')

def quotedEntry (n : ℕ) : RemoteFsEntry where
  name := quotedName n
  path := quotedParent ++ "/" ++ quotedName n
  entryType := .file
  size := some 0
  modified := none
  mimeType := none
  capabilities := []

def quotedPage (length : ℕ) : RemoteFsListResponse := ⟨(List.range length).map quotedEntry, none⟩

/-- Characters that a name may have. -/
def Plain (ch : Char) : Prop := ch.toNat = 0x22 ∨ 0x100 ≤ ch.toNat

/-- A path of plain segments is a valid one. -/
theorem validRelativePath_of_plain {segments : List String} {path : String} (hne : segments ≠ [])
    (hsegments : ∀ s ∈ segments, 2 < s.toList.length ∧ ∀ ch ∈ s.toList, Plain ch)
    (hpath : path.toList = ['/'].intercalate (segments.map String.toList))
    (hchars : ∀ ch ∈ path.toList, ch = '/' ∨ Plain ch)
    (hsize : path.utf8ByteSize ≤ 4096) (hhead : path.toList.head? = some '"') :
    validRelativePath path = true := by
  refine validRelativePath_iff.mpr (.inr ⟨hsize, fun hmem => ?_, fun ch hch hcontrol => ?_,
    fun letter rest hdrive hletter => ?_, segments, hne, fun s hs => ?_, hpath⟩)
  · rcases hchars _ hmem with h | h | h
    · exact absurd h (by decide)
    · exact absurd h (by decide)
    · exact absurd h (by decide)
  · rcases hchars ch hch with rfl | h | h
    · exact absurd hcontrol (by decide)
    · omega
    · omega
  · rw [hdrive] at hhead
    obtain rfl : letter = '"' := Option.some.inj hhead
    exact absurd hletter (by decide)
  · obtain ⟨hlength, hplain⟩ := hsegments s hs
    refine ⟨?_, ?_, ?_, fun hmem => ?_⟩
    · rintro rfl
      exact absurd hlength (by decide)
    · rintro rfl
      exact absurd hlength (by decide)
    · rintro rfl
      exact absurd hlength (by decide)
    · rcases hplain _ hmem with h | h
      · exact absurd h (by decide)
      · exact absurd h (by decide)

section Names

variable {n : ℕ}

theorem toNat_letter (hn : n < 1000) : (Char.ofNat (0x100 + n)).toNat = 0x100 + n := by
  have hvalid : (0x100 + n).isValidChar := .inl (by omega)
  unfold Char.ofNat
  rw [dif_pos hvalid]
  rfl

theorem toList_quotedName :
    (quotedName n).toList = List.replicate 1000 '"' ++ [Char.ofNat (0x100 + n)] :=
  String.toList_ofList

theorem plain_quotedName (hn : n < 1000) {ch : Char} (hch : ch ∈ (quotedName n).toList) :
    Plain ch := by
  rw [toList_quotedName, List.mem_append, List.mem_singleton] at hch
  rcases hch with hch | rfl
  · rw [List.eq_of_mem_replicate hch]
    exact .inl rfl
  · refine .inr ?_
    rw [toNat_letter hn]
    omega

theorem utf8ByteSize_quotedName : (quotedName n).utf8ByteSize ≤ 1004 := by
  have hletter := Char.utf8Size_le_four (Char.ofNat (0x100 + n))
  have hquote : Char.utf8Size '"' = 1 := rfl
  rw [Texts.utf8ByteSize_eq_sum, toList_quotedName, List.map_append, List.sum_append,
    List.map_replicate, List.sum_replicate_nat, hquote, List.map_singleton, List.sum_singleton]
  omega

theorem toList_quotedParent : quotedParent.toList = List.replicate 3000 '"' := String.toList_ofList

theorem plain_quotedParent {ch : Char} (hch : ch ∈ quotedParent.toList) : Plain ch := by
  rw [toList_quotedParent] at hch
  rw [List.eq_of_mem_replicate hch]
  exact .inl rfl

theorem length_quotedName : (quotedName n).toList.length = 1001 := by
  rw [toList_quotedName, List.length_append, List.length_replicate, List.length_singleton]

theorem length_quotedParent : quotedParent.toList.length = 3000 := by
  rw [toList_quotedParent, List.length_replicate]

theorem utf8ByteSize_quotedParent : quotedParent.utf8ByteSize = 3000 := by
  have hquote : Char.utf8Size '"' = 1 := rfl
  rw [Texts.utf8ByteSize_eq_sum, toList_quotedParent, List.map_replicate, List.sum_replicate_nat,
    hquote]

theorem quotedParent_ne : quotedParent ≠ "" := by
  intro h
  have hlength := length_quotedParent
  rw [h] at hlength
  exact absurd hlength (by decide)

theorem head?_quotedParent (rest : List Char) :
    (quotedParent.toList ++ rest).head? = some '"' := by
  rw [toList_quotedParent]
  exact List.head?_append

theorem toList_path : (quotedEntry n).path.toList =
    quotedParent.toList ++ '/' :: (quotedName n).toList := by
  unfold quotedEntry
  rw [String.toList_append, String.toList_append, List.append_assoc]
  rfl

theorem validFileName_quoted (hn : n < 1000) : validFileName (quotedName n) = true := by
  have hlength := @length_quotedName n
  have hbytes := @utf8ByteSize_quotedName n
  have hne : ∀ s : String, s.toList.length < 3 → quotedName n ≠ s := by
    rintro s hs rfl
    omega
  have hplain : ∀ ch ∈ (quotedName n).toList, Plain ch := fun ch => plain_quotedName hn
  have hnot : ∀ ch, ¬ Plain ch → contains (quotedName n) ch = false := by
    intro ch hch
    unfold contains
    rw [List.contains_eq_mem]
    exact decide_eq_false fun hmem => hch (hplain ch hmem)
  have hcontrol : hasControlCharacter (quotedName n) = false := by
    refine hasControlCharacter_eq_false.mpr fun ch hch hcontrol => ?_
    rcases hplain ch hch with h | h <;> omega
  have hslash : ¬ Plain '/' := by rintro (h | h) <;> exact absurd h (by decide)
  have hbackslash : ¬ Plain '\\' := by rintro (h | h) <;> exact absurd h (by decide)
  unfold validFileName
  rw [decide_eq_true (hne "" (by decide)), decide_eq_true (hne "." (by decide)),
    decide_eq_true (hne ".." (by decide)), decide_eq_true (by omega), hnot '/' hslash,
    hnot '\\' hbackslash, hcontrol]
  rfl

theorem validRelativePath_parent : validRelativePath quotedParent = true := by
  have hlength := length_quotedParent
  refine validRelativePath_of_plain (List.cons_ne_nil quotedParent []) ?_ ?_
    (fun ch hch => .inr (plain_quotedParent hch)) (by rw [utf8ByteSize_quotedParent]; omega) ?_
  · intro s hs
    obtain rfl := List.mem_singleton.mp hs
    exact ⟨by omega, fun ch => plain_quotedParent⟩
  · simp [List.intercalate]
  · have hhead := head?_quotedParent []
    rwa [List.append_nil] at hhead

theorem validRelativePath_path (hn : n < 1000) : validRelativePath (quotedEntry n).path = true := by
  have hparent := length_quotedParent
  have hname := @length_quotedName n
  refine validRelativePath_of_plain (List.cons_ne_nil quotedParent [quotedName n]) ?_ ?_ ?_ ?_ ?_
  · intro s hs
    rcases List.mem_cons.mp hs with rfl | hs
    · exact ⟨by omega, fun ch => plain_quotedParent⟩
    · obtain rfl := List.mem_singleton.mp hs
      exact ⟨by omega, fun ch => plain_quotedName hn⟩
  · rw [toList_path]
    simp [List.intercalate]
  · intro ch hch
    rw [toList_path, List.mem_append, List.mem_cons] at hch
    rcases hch with hch | hch | hch
    · exact .inr (plain_quotedParent hch)
    · exact .inl hch
    · exact .inr (plain_quotedName hn hch)
  · have hbytes := @utf8ByteSize_quotedName n
    have hslash : ("/" : String).utf8ByteSize = 1 := rfl
    unfold quotedEntry
    rw [String.utf8ByteSize_append, String.utf8ByteSize_append, utf8ByteSize_quotedParent, hslash]
    omega
  · rw [toList_path]
    exact head?_quotedParent _

theorem listable_quoted (hn : n < 1000) : Listable quotedParent (quotedEntry n) where
  name := validFileName_quoted hn
  path := (if_neg quotedParent_ne).symm
  validPath := validRelativePath_path hn
  modified := rfl
  mimeType := rfl
  entryType := nofun
  capabilities := Nat.zero_le _

theorem quotedName_injective {m : ℕ} (hn : n < 1000) (hm : m < 1000)
    (h : quotedName n = quotedName m) : n = m := by
  have hlist := congrArg String.toList h
  rw [toList_quotedName, toList_quotedName] at hlist
  have hletter := congrArg Char.toNat (List.singleton_inj.mp (List.append_cancel_left hlist))
  rw [toNat_letter hn, toNat_letter hm] at hletter
  omega

theorem le_quotedEntry : 10000 ≤ jsonEntrySize (quotedEntry n) := by
  have hname := le_stringSize (quotedName n)
  have hpath := le_stringSize (quotedEntry n).path
  have hcount : 1000 ≤ (quotedName n).toList.count '"' := by
    rw [toList_quotedName, List.count_append, List.count_replicate_self]
    omega
  have hparent : quotedParent.toList.count '"' = 3000 := by
    rw [toList_quotedParent, List.count_replicate_self]
  rw [toList_path, List.count_append, hparent, List.count_cons] at hpath
  have hentry : (quotedEntry n).name = quotedName n := rfl
  unfold jsonEntrySize
  rw [hentry]
  omega

end Names

theorem length_quotedPage (length : ℕ) : (quotedPage length).entries.length = length := by
  unfold quotedPage
  rw [List.length_map, List.length_range]

theorem mem_quotedPage {length : ℕ} {entry : RemoteFsEntry}
    (h : entry ∈ (quotedPage length).entries) : ∃ n < length, quotedEntry n = entry := by
  obtain ⟨n, hn, hentry⟩ := List.mem_map.mp h
  exact ⟨n, List.mem_range.mp hn, hentry⟩

/-- The server lets the page pass. -/
theorem list_quotedPage {length : ℕ} (hlength : length ≤ 1000) :
    list (fun _ => some (.list (quotedPage length))) ⟨⟨"downloads", quotedParent⟩, none, 1000⟩ =
      .ok (quotedPage length) := by
  have hpath := validateRelativePath_eq_ok.mpr validRelativePath_parent
  have hrequest : RemoteFsListRequest.validate ⟨⟨"downloads", quotedParent⟩, none, 1000⟩ =
      .ok () := by
    unfold RemoteFsListRequest.validate validateLocation
    rw [hpath]
    rfl
  refine list_of_valid hrequest rfl ?_
  refine (validatePage_eq_ok_iff (fun entry hentry => ?_) ?_ rfl).mpr ?_
  · obtain ⟨n, hn, rfl⟩ := mem_quotedPage hentry
    exact listable_quoted (hn.trans_le hlength)
  · rw [length_quotedPage]
    exact hlength
  · unfold quotedPage
    rw [List.map_map]
    refine List.Nodup.map_on (fun n hn m hm h => ?_) List.nodup_range
    exact quotedName_injective ((List.mem_range.mp hn).trans_le hlength)
      ((List.mem_range.mp hm).trans_le hlength) h

/-- Each of its entries takes ten thousand bytes. -/
theorem le_quotedPage (length : ℕ) : length * 10000 ≤ (pageJson (quotedPage length)).size := by
  have hsize : (quotedPage length).entries.length * 10000 ≤ jsonPageSize (quotedPage length) := by
    refine le_jsonPageSize fun entry hentry => ?_
    obtain ⟨n, -, rfl⟩ := mem_quotedPage hentry
    exact le_quotedEntry
  rw [length_quotedPage] at hsize
  rwa [size_pageJson]

def quotedRequest : RemoteFsRequest := .list ⟨"downloads", quotedParent⟩ none 1000

def quotedState : RemoteFsState := paging (quotedPage 1000)

def quotedHttp : Http := http (pageJson (quotedPage 1000))

theorem page_not_accepted :
    quotedState.application.reply quotedHttp quotedRequest = some (.page (quotedPage 1000)) ∧
      (serve quotedHttp quotedState quotedRequest).isOk = true ∧
      (Response.page (quotedPage 1000)).IsU64 ∧
      ask quotedHttp (handle quotedHttp quotedState) quotedRequest ≠
        .ok (.page (quotedPage 1000)) := by
  have hserved : serve quotedHttp quotedState quotedRequest = .ok (.page (quotedPage 1000)) :=
    serve_paging (list_quotedPage le_rfl)
  have hu64 : (Response.page (quotedPage 1000)).IsU64 := by
    intro entry hentry size hsize
    obtain ⟨n, -, rfl⟩ := mem_quotedPage hentry
    obtain rfl := Option.some.inj hsize
    decide
  refine ⟨serve_reply hserved, by rw [hserved]; rfl, hu64, fun hask => ?_⟩
  have hfits := (askList_iff (http_carries _) hserved hu64).mp (ask_list.mp hask)
  exact absurd ((le_quotedPage 1000).trans hfits) (by decide)

end Quoted

end Firebox

end FireBoxTransfer
