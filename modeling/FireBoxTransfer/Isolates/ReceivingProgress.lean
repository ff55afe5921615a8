import FireBoxTransfer.Framework.Progress
import FireBoxTransfer.Framework.TaskPool
import FireBoxTransfer.Isolates.ReceivingRuns

/-!
# Every upload is resolved

A request that waits for its target has its responder in the bridge, and a responder that the
bridge stores is tended until it is used or dropped: by the event under way to the isolate, by
a call that cancels the session, or by the handler of an upload. What the bridge and the
isolate do on their own comes to an end, and then no request waits.
-/

namespace FireBoxTransfer

open Runs FutureQueue

namespace Receiving

/-! ## §1  Responders that are dropped -/

theorem waiting_of_settle {requests : List TargetRx} {tx tx' : ℕ} {rx : TargetRx}
    (hrx : rx ≠ .waiting) (h : (settle requests tx rx)[tx']? = some .waiting) :
    requests[tx']? = some .waiting ∧ tx' ≠ tx := by
  unfold settle at h
  split at h
  · rename_i hwait
    rw [List.getElem?_set] at h
    by_cases heq : tx = tx'
    · rw [if_pos heq] at h
      split at h
      · exact absurd (Option.some.inj h) hrx
      · cases h
    · rw [if_neg heq] at h
      exact ⟨h, Ne.symm heq⟩
  · rename_i hwait
    refine ⟨h, ?_⟩
    rintro rfl
    exact hwait h

theorem waiting_of_dropped {txs : List ℕ} {requests : List TargetRx} {tx : ℕ}
    (h : (txs.foldl (fun requests tx => settle requests tx .dropped) requests)[tx]? =
      some .waiting) :
    requests[tx]? = some .waiting ∧ tx ∉ txs := by
  induction txs generalizing requests with
  | nil => exact ⟨h, List.not_mem_nil⟩
  | cons tx' txs ih =>
      obtain ⟨hwait, hnot⟩ := ih h
      obtain ⟨hwait, hne⟩ := waiting_of_settle (fun heq => by cases heq) hwait
      exact ⟨hwait, fun hmem => (List.mem_cons.mp hmem).elim hne hnot⟩

section Drop

variable {b : Bridge} {q : String × String → Bool} {key : String × String} {tx : ℕ}

/-- What is stored afterwards was stored before, under another key. -/
theorem get?_dropUploads :
    (b.dropUploads q).pendingUploads.get? key = some tx ↔
      b.pendingUploads.get? key = some tx ∧ q key = false := by
  unfold Bridge.dropUploads
  rw [AssocMap.get?_filter, Option.filter_eq_some_iff, Bool.not_eq_true']

/-- A request that still waits has another responder. -/
theorem waiting_of_dropUploads (h : (b.dropUploads q).requests[tx]? = some .waiting) :
    b.requests[tx]? = some .waiting ∧
      ∀ key, b.pendingUploads.get? key = some tx → q key = false := by
  obtain ⟨hwait, hnot⟩ := waiting_of_dropped h
  refine ⟨hwait, fun key hkey => ?_⟩
  cases hq : q key with
  | false => rfl
  | true =>
      refine absurd (AssocMap.mem_values_iff.mpr ⟨key, ?_⟩) hnot
      rw [AssocMap.get?_filter, hkey]
      simp [hq]

end Drop

/-! ## §2  Requests and responders -/

/-- The responder of a request is on its way to the bridge, or stored there. -/
inductive Bridge.Keeps (b : Bridge) (tx : ℕ) : Prop where
  | event (sessionId fileId : String) (file : FileDto)
      (h : .fileUpload sessionId fileId file tx ∈ b.events)
  | handled (sessionId fileId : String) (file : FileDto)
      (h : b.loop = .handle (.fileUpload sessionId fileId file tx))
  | stored (key : String × String) (h : b.pendingUploads.get? key = some tx)

def Bridge.Waits (b : Bridge) : Prop := ∀ tx, b.requests[tx]? = some .waiting → b.Keeps tx

section Waits

variable {b b' : Bridge} {tx : ℕ}

theorem Bridge.Keeps.mono (h : b.Keeps tx) (hevents : ∀ e ∈ b.events, e ∈ b'.events)
    (hloop : b'.loop = b.loop)
    (hstored : ∀ key, b.pendingUploads.get? key = some tx →
      b'.pendingUploads.get? key = some tx) : b'.Keeps tx := by
  cases h with
  | event sessionId fileId file h => exact .event sessionId fileId file (hevents _ h)
  | handled sessionId fileId file h => exact .handled sessionId fileId file (hloop.trans h)
  | stored key h => exact .stored key (hstored key h)

theorem Bridge.Waits.settle (h : b.Waits) (tx : ℕ) {rx : TargetRx} (hrx : rx ≠ .waiting) :
    (b.settle tx rx).Waits := by
  intro tx' hwait
  exact (h tx' (waiting_of_settle hrx hwait).1).mono (fun _ he => he) rfl fun _ hkey => hkey

theorem Bridge.Waits.dropUploads (h : b.Waits) (q : String × String → Bool) :
    (b.dropUploads q).Waits := by
  intro tx hwait
  obtain ⟨hwait, hother⟩ := waiting_of_dropUploads hwait
  exact (h tx hwait).mono (fun _ he => he) rfl fun key hkey =>
    get?_dropUploads.mpr ⟨hkey, hother key hkey⟩

theorem Bridge.Waits.respondFileUpload (h : b.Waits) (android : Bool) (key : String × String)
    (target : FileSaveTarget) : (b.respondFileUpload android key target).1.Waits := by
  unfold Bridge.respondFileUpload
  split
  · exact h
  · rename_i tx hstored
    -- the responder that is taken is used, unless its request is over
    have hremoved : ∀ requests tx', b.requests[tx']? = some .waiting → tx' ≠ tx →
        { b with
          pendingUploads := b.pendingUploads.filter fun k _ => k ≠ key
          requests }.Keeps tx' := by
      intro requests tx' hwait hne
      refine (h tx' hwait).mono (fun _ he => he) rfl fun key' hkey' => ?_
      rw [AssocMap.get?_filter_ne, if_neg ?_, hkey']
      rintro rfl
      exact hne (Option.some.inj (hkey'.symm.trans hstored))
    dsimp only
    split
    · intro tx' hwait
      obtain ⟨hwait, hne⟩ := waiting_of_settle (fun heq => by cases heq) hwait
      exact hremoved _ tx' hwait hne
    · split
      · intro tx' hwait
        obtain ⟨hwait, hne⟩ := waiting_of_settle (fun heq => by cases heq) hwait
        exact hremoved _ tx' hwait hne
      · rename_i hended
        intro tx' hwait
        refine hremoved _ tx' hwait ?_
        rintro rfl
        exact hended hwait

theorem Bridge.Waits.arrive (h : b.Waits) {event : ServerEventV2}
    (hstep : b.arrive event = some b') : b'.Waits := by
  have hold : ∀ requests tx, b.requests[tx]? = some .waiting →
      { b with events := b.events ++ [event], requests }.Keeps tx := fun requests tx hwait =>
    (h tx hwait).mono (fun e he => List.mem_append_left _ he) rfl fun _ hkey => hkey
  unfold Bridge.arrive at hstep
  split at hstep
  · rename_i sessionId fileId file tx
    split at hstep
    · rename_i hnew
      obtain rfl := Option.some.inj hstep
      intro tx' hwait
      by_cases heq : tx' = tx
      · exact .event sessionId fileId file
          (heq ▸ List.mem_append_right _ (List.mem_singleton_self _))
      · refine hold _ tx' ?_
        have hlt := (List.getElem?_eq_some_iff.mp hwait).1
        rw [List.length_append, List.length_singleton] at hlt
        exact (List.getElem?_append_left (by omega)).symm.trans hwait
    · cases hstep
  · obtain rfl := Option.some.inj hstep
    exact hold _

/-- The bridge stores the responder of the event before it hands the event on. -/
theorem Bridge.Waits.listen (h : b.Waits) (hstep : b.listen = some b') : b'.Waits := by
  unfold Bridge.listen at hstep
  split at hstep
  · rename_i hloop
    split at hstep
    · cases hstep
    · rename_i event events hevents
      obtain rfl := Option.some.inj hstep
      intro tx hwait
      cases h tx hwait with
      | event sessionId fileId file h =>
          rw [hevents] at h
          rcases List.mem_cons.mp h with h | h
          · exact .handled sessionId fileId file (congrArg ListenLoop.handle h.symm)
          · exact .event sessionId fileId file h
      | handled sessionId fileId file h =>
          rw [hloop] at h
          cases h
      | stored key h => exact .stored key h
  · rename_i event hloop
    obtain rfl := Option.some.inj hstep
    -- whatever the bridge does about the event, unless the event is an upload
    have hother : ∀ b₁ : Bridge, b₁.Waits → b₁.loop = b.loop →
        (∀ sessionId fileId file tx, event ≠ .fileUpload sessionId fileId file tx) →
        { b₁ with loop := .emit event.toRs }.Waits := by
      intro b₁ h₁ hsame hnot tx hwait
      cases h₁ tx hwait with
      | event sessionId fileId file h => exact .event sessionId fileId file h
      | handled sessionId fileId file h =>
          rw [hsame, hloop] at h
          exact absurd (ListenLoop.handle.inj h) (hnot sessionId fileId file tx)
      | stored key h => exact .stored key h
    have hdecision : ∀ pendingDecision, { b with pendingDecision }.Waits := fun _ tx hwait =>
      (h tx hwait).mono (fun _ he => he) rfl fun _ hkey => hkey
    cases event with
    | fileUpload sessionId fileId file targetTx =>
        intro tx hwait
        obtain ⟨hwait, hkept⟩ := waiting_of_dropUploads hwait
        by_cases htx : tx = targetTx
        · exact .stored (sessionId, fileId) (by rw [htx]; exact AssocMap.get?_insert_self)
        · cases h tx hwait with
          | event sessionId fileId file h => exact .event sessionId fileId file h
          | handled sessionId fileId file h =>
              rw [hloop] at h
              have heq := ListenLoop.handle.inj h
              injection heq with _ _ _ heq
              exact absurd heq.symm htx
          | stored key h =>
              have hne : key ≠ (sessionId, fileId) := of_decide_eq_false (hkept key h)
              refine .stored key ?_
              exact (AssocMap.get?_insert_ne hne).trans
                (get?_dropUploads.mpr ⟨h, hkept key h⟩)
    | prepareUpload sessionId ip info certFingerprint files decisionTx =>
        exact hother _ (hdecision (some (sessionId, decisionTx))) rfl
          fun _ _ _ _ heq => by cases heq
    | sessionEnd sessionId reason =>
        exact hother _ (h.dropUploads _) rfl fun _ _ _ _ heq => by cases heq
    | prepareUploadAborted sessionId =>
        unfold Bridge.store
        dsimp only
        split
        · exact hother _ (hdecision none) rfl fun _ _ _ _ heq => by cases heq
        · exact hother b h rfl fun _ _ _ _ heq => by cases heq
    | register ip info => exact hother b h rfl fun _ _ _ _ heq => by cases heq
    | cancelReceived ip sessionId => exact hother b h rfl fun _ _ _ _ heq => by cases heq
  · rename_i event hloop
    obtain rfl := Option.some.inj hstep
    intro tx hwait
    cases h tx hwait with
    | event sessionId fileId file h => exact .event sessionId fileId file h
    | handled sessionId fileId file h =>
        rw [hloop] at h
        cases h
    | stored key h => exact .stored key h

theorem Bridge.Waits.runCall (h : b.Waits) {k : ℕ} (hstep : b.runCall k = some b') :
    b'.Waits := by
  unfold Bridge.runCall at hstep
  split at hstep
  · cases hstep
  · obtain rfl := Option.some.inj hstep
    exact fun tx hwait => (h tx hwait).mono (fun _ he => he) rfl fun _ hkey => hkey
  · obtain rfl := Option.some.inj hstep
    exact fun tx hwait => (h tx hwait).mono (fun _ he => he) rfl fun _ hkey => hkey
  · obtain rfl := Option.some.inj hstep
    have hend : (b.endCall k).Waits := fun tx hwait =>
      (h tx hwait).mono (fun _ he => he) rfl fun _ hkey => hkey
    exact hend.dropUploads _

end Waits

/-! ## §3  Who tends a responder -/

/-- The handler has not used or dropped its responder yet. -/
def UploadPoint.isAwaited : UploadPoint → Bool
  | .queued | .preparing _ | .failing _ | .responding _ => true
  | _ => false

def Awaited (uploads : List Upload) (key : String × String) : Prop :=
  ∃ u ∈ uploads, u.key = key ∧ u.point.isAwaited = true

/-- The event about it is under way to the isolate, the session is being cancelled, or a
handler has it. -/
inductive Tended (b : Bridge) (uploads : List Upload) (key : String × String) : Prop where
  | emit (file : FileDto) (h : b.loop = .emit (.fileUpload key.1 key.2 file))
  | sink (file : FileDto) (h : .fileUpload key.1 key.2 file ∈ b.sink)
  | cancelSession (h : .cancelSession key.1 ∈ b.calls)
  | cancelled (h : .cancelled key.1 ∈ b.calls)
  | upload (h : Awaited uploads key)

def AllTended (b : Bridge) (uploads : List Upload) : Prop :=
  ∀ key tx, b.pendingUploads.get? key = some tx → Tended b uploads key

section Tended

variable {android : Bool} {p p' : State} {b b' : Bridge} {us us' : List Upload}
  {key : String × String} {k : ℕ} {u : Upload}

theorem Awaited.append (h : Awaited us key) (vs : List Upload) : Awaited (us ++ vs) key := by
  obtain ⟨u, hu, hand⟩ := h
  exact ⟨u, List.mem_append_left _ hu, hand⟩

/-- An upload that is set is still awaited, or was not. -/
theorem Awaited.set (h : Awaited us key) (hu : us[k]? = some u) {v : Upload} (hkey : v.key = u.key)
    (hv : u.key = key → u.point.isAwaited = true → v.point.isAwaited = true) :
    Awaited (us.set k v) key := by
  have hlt := (List.getElem?_eq_some_iff.mp hu).1
  obtain ⟨w, hw, hwkey, hwawaited⟩ := h
  obtain ⟨j, hj⟩ := List.mem_iff_getElem?.mp hw
  by_cases hkj : k = j
  · subst hkj
    rw [hu] at hj
    obtain rfl := Option.some.inj hj
    exact ⟨v, List.mem_of_getElem? (List.getElem?_set_self hlt), hkey.trans hwkey,
      hv hwkey hwawaited⟩
  · exact ⟨w, List.mem_of_getElem? ((List.getElem?_set_ne hkj).trans hj), hwkey, hwawaited⟩

theorem Awaited.start {q : Isolate} (h : Awaited q.uploads key) (j : ℕ) :
    Awaited (q.start j).uploads key := by
  unfold Isolate.start
  split
  · rename_i v hv
    exact h.set hv rfl fun _ _ => rfl
  · exact h

theorem Tended.mono (h : Tended b us key)
    (hloop : ∀ file, b.loop = .emit (.fileUpload key.1 key.2 file) → Tended b' us' key)
    (hsink : ∀ file, .fileUpload key.1 key.2 file ∈ b.sink → Tended b' us' key)
    (hcalls : ∀ call ∈ b.calls, call ∈ b'.calls) (huploads : Awaited us key → Awaited us' key) :
    Tended b' us' key := by
  cases h with
  | emit file h => exact hloop file h
  | sink file h => exact hsink file h
  | cancelSession h => exact .cancelSession (hcalls _ h)
  | cancelled h => exact .cancelled (hcalls _ h)
  | upload h => exact .upload (huploads h)

/-- Only the uploads change. -/
theorem Tended.uploads (h : Tended b us key) (huploads : Awaited us key → Awaited us' key) :
    Tended b us' key :=
  h.mono (fun file => .emit file) (fun file => .sink file) (fun _ hcall => hcall) huploads

/-- Only what is stored changes. -/
theorem Tended.bridge (h : Tended b us key) (hloop : b'.loop = b.loop) (hsink : b'.sink = b.sink)
    (hcalls : ∀ call ∈ b.calls, call ∈ b'.calls) : Tended b' us key :=
  h.mono (fun file heq => .emit file (hloop.trans heq))
    (fun file hmem => .sink file (hsink ▸ hmem)) hcalls fun h => h

theorem AllTended.settle (h : AllTended b us) (tx : ℕ) (rx : TargetRx) :
    AllTended (b.settle tx rx) us :=
  fun key tx' hkey => (h key tx' hkey).bridge rfl rfl fun _ hcall => hcall

theorem AllTended.call (h : AllTended b us) (call : BridgeCall) : AllTended (b.call call) us :=
  fun key tx hkey => (h key tx hkey).bridge rfl rfl fun _ hcall => List.mem_append_left _ hcall

theorem AllTended.arrive (h : AllTended b us) {event : ServerEventV2}
    (hstep : b.arrive event = some b') : AllTended b' us := by
  unfold Bridge.arrive at hstep
  split at hstep
  · split at hstep
    · obtain rfl := Option.some.inj hstep
      exact fun key tx hkey => (h key tx hkey).bridge rfl rfl fun _ hcall => hcall
    · cases hstep
  · obtain rfl := Option.some.inj hstep
    exact fun key tx hkey => (h key tx hkey).bridge rfl rfl fun _ hcall => hcall

theorem AllTended.listen (h : AllTended b us) (hstep : b.listen = some b') :
    AllTended b' us := by
  unfold Bridge.listen at hstep
  split at hstep
  · rename_i hloop
    split at hstep
    · cases hstep
    · obtain rfl := Option.some.inj hstep
      intro key tx hkey
      refine (h key tx hkey).mono (fun file heq => ?_) (fun file hmem => .sink file hmem)
        (fun _ hcall => hcall) fun h => h
      rw [hloop] at heq
      cases heq
  · rename_i event hloop
    obtain rfl := Option.some.inj hstep
    -- what was stored before is tended as it was
    have hold : ∀ b₁ : Bridge, b₁.sink = b.sink → b₁.calls = b.calls → ∀ key tx,
        b.pendingUploads.get? key = some tx →
        Tended { b₁ with loop := .emit event.toRs } us key := by
      intro b₁ hsink hcalls key tx hkey
      refine (h key tx hkey).mono (fun file heq => ?_)
        (fun file hmem => .sink file (hsink ▸ hmem)) (fun call hcall => hcalls ▸ hcall) fun h => h
      rw [hloop] at heq
      cases heq
    cases event with
    | fileUpload sessionId fileId file targetTx =>
        intro key tx hkey
        have hinsert : (AssocMap.insert (sessionId, fileId) targetTx
          (b.dropUploads fun key => key = (sessionId, fileId)).pendingUploads).get? key =
            some tx := hkey
        rw [AssocMap.get?_insert] at hinsert
        split at hinsert
        · rename_i heq
          exact .emit file (by rw [heq]; rfl)
        · exact hold (b.store (.fileUpload sessionId fileId file targetTx)) rfl rfl key tx
            (get?_dropUploads.mp hinsert).1
    | sessionEnd sessionId reason =>
        exact fun key tx hkey => hold (b.store (.sessionEnd sessionId reason)) rfl rfl key tx
          (get?_dropUploads.mp hkey).1
    | prepareUploadAborted sessionId =>
        unfold Bridge.store
        dsimp only
        split
        · exact hold { b with pendingDecision := none } rfl rfl
        · exact hold b rfl rfl
    | prepareUpload sessionId ip info certFingerprint files decisionTx =>
        exact hold { b with pendingDecision := some (sessionId, decisionTx) } rfl rfl
    | register ip info => exact hold b rfl rfl
    | cancelReceived ip sessionId => exact hold b rfl rfl
  · rename_i event hloop
    obtain rfl := Option.some.inj hstep
    intro key tx hkey
    refine (h key tx hkey).mono (fun file heq => ?_)
      (fun file hmem => .sink file (List.mem_append_left _ hmem)) (fun _ hcall => hcall) fun h => h
    rw [hloop] at heq
    obtain rfl := ListenLoop.emit.inj heq
    exact .sink file (List.mem_append_right _ (List.mem_singleton_self _))

theorem mem_eraseIdx {α : Type*} {xs : List α} {x y : α} {k : ℕ} (hx : xs[k]? = some x)
    (hy : y ∈ xs) (hne : y ≠ x) : y ∈ xs.eraseIdx k := by
  obtain ⟨j, hj⟩ := List.mem_iff_getElem?.mp hy
  refine List.mem_eraseIdx_iff_getElem?.mpr ⟨j, ?_, hj⟩
  rintro rfl
  exact hne (Option.some.inj (hj.symm.trans hx))

/-- A call that cancels a session tends its responders until it has dropped them. -/
theorem AllTended.runCall (h : AllTended b us) (hstep : b.runCall k = some b') :
    AllTended b' us := by
  unfold Bridge.runCall at hstep
  split at hstep
  · cases hstep
  · rename_i acceptedFileIds hcall
    obtain rfl := Option.some.inj hstep
    intro key tx hkey
    cases h key tx hkey with
    | emit file h => exact .emit file h
    | sink file h => exact .sink file h
    | cancelSession h => exact .cancelSession (mem_eraseIdx hcall h fun heq => by cases heq)
    | cancelled h => exact .cancelled (mem_eraseIdx hcall h fun heq => by cases heq)
    | upload h => exact .upload h
  · rename_i sessionId hcall
    obtain rfl := Option.some.inj hstep
    have hlt := (List.getElem?_eq_some_iff.mp hcall).1
    have hmem : ∀ call ∈ b.calls, call ≠ .cancelSession sessionId →
        call ∈ b.calls.set k (.cancelled sessionId) := by
      intro call hmem hne
      obtain ⟨j, hj⟩ := List.mem_iff_getElem?.mp hmem
      refine List.mem_of_getElem? ((List.getElem?_set_ne ?_).trans hj)
      rintro rfl
      exact hne (Option.some.inj (hj.symm.trans hcall))
    intro key tx hkey
    cases h key tx hkey with
    | emit file h => exact .emit file h
    | sink file h => exact .sink file h
    | cancelSession h =>
        by_cases hkey : key.1 = sessionId
        · exact .cancelled (hkey ▸ List.mem_of_getElem? (List.getElem?_set_self hlt))
        · exact .cancelSession (hmem _ h fun heq => hkey (BridgeCall.cancelSession.inj heq))
    | cancelled h => exact .cancelled (hmem _ h fun heq => by cases heq)
    | upload h => exact .upload h
  · rename_i sessionId hcall
    obtain rfl := Option.some.inj hstep
    intro key tx hkey
    obtain ⟨hkey, hother⟩ := get?_dropUploads.mp hkey
    have hne : key.1 ≠ sessionId := of_decide_eq_false hother
    cases h key tx hkey with
    | emit file h => exact .emit file h
    | sink file h => exact .sink file h
    | cancelSession h => exact .cancelSession (mem_eraseIdx hcall h fun heq => by cases heq)
    | cancelled h =>
        exact .cancelled (mem_eraseIdx hcall h fun heq => hne (BridgeCall.cancelled.inj heq))
    | upload h => exact .upload h

/-- The responders that are left are those of other keys. -/
theorem AllTended.of_stored (h : AllTended b us) (b' : Bridge) (v : Upload)
    (hloop : b'.loop = b.loop) (hsink : b'.sink = b.sink) (hcalls : b'.calls = b.calls)
    (hu : us[k]? = some u) (hkey : v.key = u.key)
    (hstored : ∀ key tx, b'.pendingUploads.get? key = some tx →
      b.pendingUploads.get? key = some tx ∧
        (key = u.key → u.point.isAwaited = true → v.point.isAwaited = true)) :
    AllTended b' (us.set k v) := by
  intro key tx hget
  obtain ⟨hget, hawaited⟩ := hstored key tx hget
  have htended : Tended b' us key :=
    (h key tx hget).bridge hloop hsink fun _ hcall => hcalls ▸ hcall
  refine htended.uploads ?_
  exact fun hus => hus.set hu hkey fun heq => hawaited heq.symm

theorem get?_respondFileUpload {key : String × String} {target : FileSaveTarget} {key' tx}
    (h : (b.respondFileUpload android key target).1.pendingUploads.get? key' = some tx) :
    b.pendingUploads.get? key' = some tx ∧ key' ≠ key := by
  unfold Bridge.respondFileUpload at h
  split at h
  · rename_i hnone
    refine ⟨h, ?_⟩
    rintro rfl
    rw [hnone] at h
    cases h
  · have hget : ((b.pendingUploads.filter fun k _ => k ≠ key).get? key') = some tx := by
      dsimp only at h
      split at h
      · exact h
      · split at h
        · exact h
        · exact h
    rw [AssocMap.get?_filter_ne] at hget
    split at hget
    · cases hget
    · exact ⟨hget, by assumption⟩

theorem respondFileUpload_rest (android : Bool) (key : String × String) (target : FileSaveTarget) :
    (b.respondFileUpload android key target).1.loop = b.loop ∧
      (b.respondFileUpload android key target).1.sink = b.sink ∧
      (b.respondFileUpload android key target).1.calls = b.calls ∧
      (b.respondFileUpload android key target).1.events = b.events := by
  unfold Bridge.respondFileUpload
  split
  · exact ⟨rfl, rfl, rfl, rfl⟩
  · dsimp only
    split
    · exact ⟨rfl, rfl, rfl, rfl⟩
    · split
      · exact ⟨rfl, rfl, rfl, rfl⟩
      · exact ⟨rfl, rfl, rfl, rfl⟩

theorem respond_bridge (k : ℕ) (u : Upload) (target : FileSaveTarget) :
    (p.respond android k u target).bridge =
      (p.bridge.respondFileUpload android u.key target).1 := by
  unfold State.respond
  split
  · rename_i heq
    rw [heq]
  · rename_i heq
    rw [heq]

theorem not_awaited_of_isLate {point : UploadPoint} (h : point.isLate = true) :
    point.isAwaited = false := by
  cases point <;> first | rfl | cases h

theorem tended_drain {q : Isolate} (h : AllTended b q.uploads) (hu : q.uploads[k]? = some u)
    (hpoint : u.point = .reported) : AllTended b (q.drain k u).uploads := by
  have hdone : AllTended b (q.setPoint k u .done).uploads :=
    h.of_stored b { u with point := .done } rfl rfl rfl hu rfl fun key tx hkey =>
      ⟨hkey, fun _ hawaited => by
        rw [hpoint] at hawaited
        cases hawaited⟩
  unfold Isolate.drain
  split
  · dsimp only
    split
    · exact hdone
    · intro key tx hkey
      refine (hdone key tx hkey).uploads fun hus => Awaited.start ?_ _
      exact hus
  · exact hdone

theorem tended_handled (h : AllTended p.bridge p.isolate.uploads)
    (hu : p.isolate.uploads[k]? = some u) (hp : Handled android p k u p') :
    AllTended p'.bridge p'.isolate.uploads := by
  have hquiet : ∀ {v : Upload}, v.key = u.key →
      (u.point.isAwaited = true → v.point.isAwaited = true) →
      AllTended p.bridge (p.isolate.uploads.set k v) := fun hkey hawaited =>
    h.of_stored _ _ rfl rfl rfl hu hkey fun _ _ hget => ⟨hget, fun _ => hawaited⟩
  cases hp with
  | placed hpoint hdest => exact hquiet rfl fun _ => rfl
  | unplaced hpoint => exact hquiet rfl fun _ => rfl
  | @failed error hpoint =>
      refine h.of_stored (p.bridge.dropUploads fun key => key = u.key)
        { u with point := .failed error } rfl rfl rfl hu rfl fun key tx hget => ?_
      obtain ⟨hget, hother⟩ := get?_dropUploads.mp hget
      exact ⟨hget, fun heq => absurd heq (of_decide_eq_false hother)⟩
  | @responded target hpoint =>
      obtain ⟨point, hisolate, -⟩ := respond_isolate android p k u target
      obtain ⟨hloop, hsink, hcalls, -⟩ :=
        respondFileUpload_rest (b := p.bridge) android u.key target
      rw [hisolate, respond_bridge]
      refine h.of_stored _ { u with point } hloop hsink hcalls hu rfl fun key tx hget => ?_
      obtain ⟨hget, hne⟩ := get?_respondFileUpload hget
      exact ⟨hget, fun heq => absurd heq hne⟩
  | saved hlate hpoint =>
      refine hquiet rfl fun hawaited => ?_
      rw [not_awaited_of_isLate hlate] at hawaited
      cases hawaited
  | reported hlate =>
      refine hquiet rfl fun hawaited => ?_
      rw [not_awaited_of_isLate hlate] at hawaited
      cases hawaited
  | drained hpoint => exact tended_drain h hu hpoint

theorem awaited_enqueue {q : Isolate} {s : ℕ} {session : ReceiveSession} (key : String × String)
    (hsession : q.sessions[s]? = some session) (sessionId fileId : String) (file : FileDto) :
    Awaited (q.enqueue s sessionId fileId file).uploads (sessionId, fileId) ∧
      (Awaited q.uploads key → Awaited (q.enqueue s sessionId fileId file).uploads key) := by
  have hnew : ∀ us : List Upload,
      Awaited (us ++ [⟨s, sessionId, fileId, file, .queued, none⟩]) (sessionId, fileId) :=
    fun us => ⟨_, List.mem_append_right _ (List.mem_singleton_self _), rfl, rfl⟩
  unfold Isolate.enqueue
  rw [hsession]
  dsimp only
  split
  · exact ⟨Awaited.start (hnew _) _, fun h => Awaited.start (h.append _) _⟩
  · exact ⟨hnew _, fun h => h.append _⟩

/-- The isolate takes an event: it queues the upload, or cancels the session. -/
theorem tended_onEvent {event : RsServerEvent} {sink : List RsServerEvent}
    (h : AllTended p.bridge p.isolate.uploads) (hsink : p.bridge.sink = event :: sink) :
    let p' := { p with bridge := { p.bridge with sink } }.onEvent event
    AllTended p'.bridge p'.isolate.uploads := by
  intro p'
  have hother : (∀ sessionId fileId file, event ≠ .fileUpload sessionId fileId file) →
      AllTended { p.bridge with sink } p.isolate.uploads := by
    intro hne key tx hkey
    refine (h key tx hkey).mono (fun file heq => .emit file heq) (fun file hmem => ?_)
      (fun _ hcall => hcall) fun h => h
    rw [hsink] at hmem
    rcases List.mem_cons.mp hmem with heq | hmem
    · exact absurd heq.symm (hne _ _ _)
    · exact .sink file hmem
  cases event with
  | fileUpload sessionId fileId file =>
      show AllTended (State.onEvent _ _).bridge (State.onEvent _ _).isolate.uploads
      unfold State.onEvent
      dsimp only
      split
      · -- the session is cancelled
        intro key tx hkey
        refine (h key tx hkey).mono (fun file heq => .emit file heq) (fun file' hmem => ?_)
          (fun _ hcall => List.mem_append_left _ hcall) fun h => h
        rw [hsink] at hmem
        rcases List.mem_cons.mp hmem with heq | hmem
        · injection heq with hsession
          exact .cancelSession (List.mem_append_right _ (List.mem_singleton.mpr
            (congrArg BridgeCall.cancelSession hsession)))
        · exact .sink file' hmem
      · rename_i s haccepts
        unfold Isolate.accepts at haccepts
        obtain ⟨-, hallowed⟩ := Option.filter_eq_some_iff.mp haccepts
        obtain ⟨config, hallowed⟩ := Option.isSome_iff_exists.mp hallowed
        unfold uploadAllowed at hallowed
        obtain ⟨hconfig, -⟩ := Option.filter_eq_some_iff.mp hallowed
        obtain ⟨session, hsession, -⟩ := Option.map_eq_some_iff.mp hconfig
        intro key tx hkey
        obtain ⟨hnew, hold⟩ := awaited_enqueue key hsession sessionId fileId file
        refine (h key tx hkey).mono (fun file heq => .emit file heq) (fun file' hmem => ?_)
          (fun _ hcall => hcall) hold
        rw [hsink] at hmem
        rcases List.mem_cons.mp hmem with heq | hmem
        · injection heq with hsession hfile
          refine .upload ?_
          have hkey : key = (sessionId, fileId) := Prod.ext hsession hfile
          exact hkey ▸ hnew
        · exact .sink file' hmem
  | sessionEnd sessionId reason =>
      show AllTended _ (p.isolate.endSession sessionId).uploads
      rw [endSession_uploads]
      exact hother fun _ _ _ heq => by cases heq
  | register ip info => exact hother fun _ _ _ heq => by cases heq
  | prepareUpload sessionId ip info certFingerprint files =>
      exact hother fun _ _ _ heq => by cases heq
  | prepareUploadAborted sessionId => exact hother fun _ _ _ heq => by cases heq
  | cancelReceived ip sessionId => exact hother fun _ _ _ heq => by cases heq

end Tended

theorem waits_handled {android : Bool} {p p' : State} {k : ℕ} {u : Upload} (h : p.bridge.Waits)
    (hp : Handled android p k u p') : p'.bridge.Waits := by
  cases hp with
  | placed hpoint hdest => exact h
  | unplaced hpoint => exact h
  | failed hpoint => exact h.dropUploads _
  | responded hpoint =>
      rw [respond_bridge]
      exact h.respondFileUpload android u.key _
  | saved hlate hpoint => exact h
  | reported hlate => exact h
  | drained hpoint => exact h

theorem waits_step {android : Bool} {p p' : State} {l : Label} (h : p.bridge.Waits)
    (hstep : step android p l = some p') : p'.bridge.Waits := by
  have hcall : ∀ (b : Bridge) (call : BridgeCall), b.Waits → (b.call call).Waits :=
    fun b call h tx hwait => (h tx hwait).mono (fun _ he => he) rfl fun _ hkey => hkey
  cases l with
  | server event =>
      obtain ⟨b', harrive, rfl⟩ := Option.map_eq_some_iff.mp hstep
      exact h.arrive harrive
  | requestEnds tx =>
      obtain rfl := Option.some.inj hstep
      exact h.settle tx fun heq => by cases heq
  | decision config =>
      obtain rfl := Option.some.inj hstep
      exact hcall _ _ h
  | cancel sessionId =>
      obtain rfl := Option.some.inj hstep
      exact hcall _ _ h
  | listen =>
      obtain ⟨b', hlisten, rfl⟩ := Option.map_eq_some_iff.mp hstep
      exact h.listen hlisten
  | event =>
      unfold step State.event at hstep
      dsimp only at hstep
      split at hstep
      · cases hstep
      · rename_i event sink hsink
        obtain rfl := Option.some.inj hstep
        have hsame : { p.bridge with sink }.Waits := fun tx hwait =>
          (h tx hwait).mono (fun _ he => he) rfl fun _ hkey => hkey
        cases event with
        | fileUpload sessionId fileId file =>
            unfold State.onEvent
            dsimp only
            split
            · exact hcall _ _ hsame
            · exact hsame
        | register | prepareUpload | sessionEnd | prepareUploadAborted | cancelReceived =>
            exact hsame
  | call k =>
      obtain ⟨b', hcall, rfl⟩ := Option.map_eq_some_iff.mp hstep
      exact h.runCall hcall
  | upload k a =>
      obtain ⟨u, hu, hp⟩ := Option.bind_eq_some_iff.mp hstep
      exact waits_handled h (handle_cases hp)

theorem tended_step {android : Bool} {p p' : State} {l : Label}
    (h : AllTended p.bridge p.isolate.uploads) (hstep : step android p l = some p') :
    AllTended p'.bridge p'.isolate.uploads := by
  cases l with
  | server event =>
      obtain ⟨b', harrive, rfl⟩ := Option.map_eq_some_iff.mp hstep
      exact h.arrive harrive
  | requestEnds tx =>
      obtain rfl := Option.some.inj hstep
      exact h.settle tx _
  | decision config =>
      obtain rfl := Option.some.inj hstep
      show AllTended (p.bridge.call _) (p.isolate.decided config).uploads
      rw [decided_uploads]
      exact h.call _
  | cancel sessionId =>
      obtain rfl := Option.some.inj hstep
      show AllTended (p.bridge.call _) (p.isolate.endSession sessionId).uploads
      rw [endSession_uploads]
      exact h.call _
  | listen =>
      obtain ⟨b', hlisten, rfl⟩ := Option.map_eq_some_iff.mp hstep
      exact h.listen hlisten
  | event =>
      unfold step State.event at hstep
      dsimp only at hstep
      split at hstep
      · cases hstep
      · rename_i event sink hsink
        obtain rfl := Option.some.inj hstep
        exact tended_onEvent h hsink
  | call k =>
      obtain ⟨b', hcall, rfl⟩ := Option.map_eq_some_iff.mp hstep
      exact h.runCall hcall
  | upload k a =>
      obtain ⟨u, hu, hp⟩ := Option.bind_eq_some_iff.mp hstep
      exact tended_handled h hu (handle_cases hp)

/-! ## §4  Progress -/

/-- The steps that are left to an upload at a point. -/
def UploadPoint.work : UploadPoint → ℕ
  | .queued => 7
  | .preparing _ => 6
  | .responding _ => 5
  | .saving _ => 4
  | .failing _ | .moving _ => 3
  | .failed _ => 2
  | .reported => 1
  | .done => 0

def BridgeCall.work : BridgeCall → ℕ
  | .cancelSession _ => 2
  | .respondPrepareUpload _ | .cancelled _ => 1

def loopWork : ListenLoop → ℕ
  | .recv => 0
  | .handle _ => 10
  | .emit _ => 9

def Bridge.work (b : Bridge) : ℕ :=
  11 * b.events.length + loopWork b.loop + 8 * b.sink.length + (b.calls.map BridgeCall.work).sum

def uploadsWork (uploads : List Upload) : ℕ := (uploads.map fun u => u.point.work).sum

/-- A bound on the steps that the bridge and the isolate take on their own. -/
def State.work (p : State) : ℕ := p.bridge.work + uploadsWork p.isolate.uploads

section Work

variable {android : Bool} {p p' : State} {b b' : Bridge} {q : Isolate} {k : ℕ} {u : Upload}

theorem uploadsWork_set {us : List Upload} (hu : us[k]? = some u) {v : Upload}
    (h : v.point.work < u.point.work) : uploadsWork (us.set k v) < uploadsWork us := by
  have hsum := TaskPool.sum_map_set (fun u => u.point.work) v hu
  unfold uploadsWork
  omega

theorem uploadsWork_append (us : List Upload) (u : Upload) :
    uploadsWork (us ++ [u]) = uploadsWork us + u.point.work := by
  unfold uploadsWork
  rw [List.map_append, List.sum_append]
  rfl

theorem uploadsWork_start (hu : q.uploads[k]? = some u) (hpoint : u.point = .queued) :
    uploadsWork (q.start k).uploads < uploadsWork q.uploads := by
  rw [start_eq hu]
  refine uploadsWork_set hu ?_
  rw [hpoint]
  exact Nat.lt_succ_self 6

theorem uploadsWork_enqueue (s : ℕ) (sessionId fileId : String) (file : FileDto) :
    uploadsWork (q.enqueue s sessionId fileId file).uploads ≤ uploadsWork q.uploads + 7 := by
  have happend := uploadsWork_append q.uploads ⟨s, sessionId, fileId, file, .queued, none⟩
  have hwork : UploadPoint.work .queued = 7 := rfl
  rw [hwork] at happend
  unfold Isolate.enqueue
  split
  · dsimp only
    split
    · refine Nat.le_trans (Nat.le_of_lt (uploadsWork_start List.getElem?_concat_length rfl)) ?_
      exact Nat.le_of_eq happend
    · exact Nat.le_of_eq happend
  · exact Nat.le_add_right _ _

theorem uploadsWork_drain (h : Served q) (hu : q.uploads[k]? = some u)
    (hpoint : u.point = .reported) :
    uploadsWork (q.drain k u).uploads < uploadsWork q.uploads := by
  have hdone : uploadsWork (q.setPoint k u .done).uploads < uploadsWork q.uploads := by
    refine uploadsWork_set hu ?_
    rw [hpoint]
    exact Nat.lt_succ_self 0
  unfold Isolate.drain
  split
  · rename_i old hold
    dsimp only
    split
    · exact hdone
    · rename_i next rest hqueue
      obtain ⟨v, hv, -, hwait⟩ := h.queued.next hold hu (by rw [hpoint]; rfl)
        (by rw [hqueue]; exact List.mem_cons_self)
      refine Nat.lt_trans (uploadsWork_start ?_ hwait) hdone
      exact hv
  · exact hdone

theorem work_handled (h : Served p.isolate) (hu : p.isolate.uploads[k]? = some u)
    (hp : Handled android p k u p') : p'.work < p.work := by
  -- the bridge keeps its events and calls
  have hset : ∀ {v : Upload}, v.point.work < u.point.work →
      uploadsWork (p.isolate.uploads.set k v) < uploadsWork p.isolate.uploads :=
    fun hlt => uploadsWork_set hu hlt
  unfold State.work
  cases hp with
  | placed hpoint hdest =>
      refine Nat.add_lt_add_left (hset ?_) _
      rw [hpoint]
      exact Nat.lt_succ_self 5
  | unplaced hpoint =>
      refine Nat.add_lt_add_left (hset ?_) _
      rw [hpoint]
      exact (by decide : 3 < 6)
  | failed hpoint =>
      refine Nat.add_lt_add_left (hset ?_) _
      rw [hpoint]
      exact Nat.lt_succ_self 2
  | @responded target hpoint =>
      obtain ⟨point, hisolate, hor⟩ := respond_isolate android p k u target
      obtain ⟨hloop, hsink, hcalls, hevents⟩ :=
        respondFileUpload_rest (b := p.bridge) android u.key target
      have hbridge : (p.respond android k u target).bridge.work = p.bridge.work := by
        unfold Bridge.work
        rw [respond_bridge, hloop, hsink, hcalls, hevents]
      rw [hisolate, hbridge]
      refine Nat.add_lt_add_left (hset ?_) _
      rw [hpoint]
      rcases hor with rfl | ⟨error, rfl⟩
      · exact Nat.lt_succ_self 4
      · exact (by decide : 2 < 5)
  | saved hlate hpoint =>
      refine Nat.add_lt_add_left (hset ?_) _
      rcases hpoint with ⟨target, hold, rfl⟩ | ⟨⟨target, hold | hold⟩, error, rfl⟩
      · rw [hold]
        exact Nat.lt_succ_self 3
      · rw [hold]
        exact (by decide : 2 < 4)
      · rw [hold]
        exact Nat.lt_succ_self 2
  | reported hlate =>
      refine Nat.add_lt_add_left (hset ?_) _
      show 1 < u.point.work
      cases hpoint : u.point with
      | saving target => exact (by decide : 1 < 4)
      | moving target => exact (by decide : 1 < 3)
      | failed error => exact (by decide : 1 < 2)
      | queued | preparing | failing | responding | reported | done =>
          rw [hpoint] at hlate
          cases hlate
  | drained hpoint => exact Nat.add_lt_add_left (uploadsWork_drain h hu hpoint) _

theorem work_listen (h : b.listen = some b') : b'.work < b.work := by
  unfold Bridge.listen at h
  split at h
  · rename_i hloop
    split at h
    · cases h
    · rename_i event events hevents
      obtain rfl := Option.some.inj h
      unfold Bridge.work
      dsimp only
      rw [hloop, hevents, List.length_cons]
      show _ + 10 + _ + _ < _ + 0 + _ + _
      omega
  · rename_i event hloop
    obtain rfl := Option.some.inj h
    have hstore : (b.store event).events = b.events ∧ (b.store event).sink = b.sink ∧
        (b.store event).calls = b.calls := by
      cases event with
      | prepareUploadAborted sessionId =>
          unfold Bridge.store
          dsimp only
          split
          · exact ⟨rfl, rfl, rfl⟩
          · exact ⟨rfl, rfl, rfl⟩
      | register | prepareUpload | fileUpload | sessionEnd | cancelReceived =>
          exact ⟨rfl, rfl, rfl⟩
    obtain ⟨hevents, hsink, hcalls⟩ := hstore
    unfold Bridge.work
    dsimp only
    rw [hevents, hsink, hcalls, hloop]
    show _ + 9 + _ + _ < _ + 10 + _ + _
    omega
  · rename_i event hloop
    obtain rfl := Option.some.inj h
    unfold Bridge.work
    dsimp only
    rw [hloop, List.length_append, List.length_singleton]
    show _ + 0 + _ + _ < _ + 9 + _ + _
    omega

theorem work_runCall (h : b.runCall k = some b') : b'.work < b.work := by
  unfold Bridge.runCall at h
  split at h
  · cases h
  · rename_i acceptedFileIds hcall
    obtain rfl := Option.some.inj h
    have hsum := sum_map_eraseIdx BridgeCall.work hcall
    have hwork : BridgeCall.work (.respondPrepareUpload acceptedFileIds) = 1 := rfl
    unfold Bridge.work Bridge.endCall
    dsimp only
    omega
  · rename_i sessionId hcall
    obtain rfl := Option.some.inj h
    have hsum := TaskPool.sum_map_set BridgeCall.work (.cancelled sessionId) hcall
    have hwork : BridgeCall.work (.cancelSession sessionId) = 2 := rfl
    have hwork' : BridgeCall.work (.cancelled sessionId) = 1 := rfl
    unfold Bridge.work
    dsimp only
    omega
  · rename_i sessionId hcall
    obtain rfl := Option.some.inj h
    have hsum := sum_map_eraseIdx BridgeCall.work hcall
    have hwork : BridgeCall.work (.cancelled sessionId) = 1 := rfl
    unfold Bridge.work Bridge.dropUploads Bridge.endCall
    dsimp only
    omega

theorem work_call (call : BridgeCall) : (b.call call).work = b.work + call.work := by
  unfold Bridge.work Bridge.call
  dsimp only
  rw [List.map_append, List.sum_append]
  show _ + (_ + (call.work + 0)) = _
  omega

theorem work_onEvent (p : State) (event : RsServerEvent) :
    (p.onEvent event).work < p.work + 8 := by
  have hsame : ∀ q : Isolate, q.uploads = p.isolate.uploads →
      (⟨p.bridge, q⟩ : State).work < p.work + 8 := by
    intro q huploads
    unfold State.work
    dsimp only
    rw [huploads]
    omega
  cases event with
  | fileUpload sessionId fileId file =>
      unfold State.onEvent
      dsimp only
      split
      · unfold State.work
        dsimp only
        rw [work_call]
        show _ + 2 + _ < _
        omega
      · rename_i s _
        have henqueue := uploadsWork_enqueue (q := p.isolate) s sessionId fileId file
        unfold State.work
        dsimp only
        omega
  | sessionEnd sessionId reason =>
      exact hsame ((p.isolate.endSession sessionId).emit none (.sessionEnd sessionId reason))
        (endSession_uploads sessionId)
  | register ip info => exact hsame (p.isolate.emit none (.register ip info)) rfl
  | prepareUpload sessionId ip info certFingerprint files =>
      exact hsame ({ p.isolate with session := none }.emit none
        (.prepareUpload sessionId ip info certFingerprint files)) rfl
  | prepareUploadAborted sessionId =>
      exact hsame (p.isolate.emit none (.prepareUploadAborted sessionId)) rfl
  | cancelReceived ip sessionId =>
      exact hsame (p.isolate.emit none (.cancelReceived ip sessionId)) rfl

theorem work_sink {event : RsServerEvent} {sink : List RsServerEvent}
    (hsink : p.bridge.sink = event :: sink) :
    { p with bridge := { p.bridge with sink } }.work + 8 = p.work := by
  unfold State.work Bridge.work
  rw [hsink, List.length_cons]
  dsimp only
  omega

/-- **A step that the bridge and the isolate take on their own leaves less to do.** -/
theorem work_step {l : Label} (h : Served p.isolate) (hl : l.isInternal = true)
    (hstep : step android p l = some p') : p'.work < p.work := by
  cases l with
  | server event => cases hl
  | requestEnds tx => cases hl
  | decision config => cases hl
  | cancel sessionId => cases hl
  | listen =>
      obtain ⟨b', hlisten, rfl⟩ := Option.map_eq_some_iff.mp hstep
      exact Nat.add_lt_add_right (work_listen hlisten) _
  | event =>
      unfold step State.event at hstep
      dsimp only at hstep
      split at hstep
      · cases hstep
      · rename_i event sink hsink
        obtain rfl := Option.some.inj hstep
        exact (work_sink hsink).symm ▸ work_onEvent _ event
  | call k =>
      obtain ⟨b', hcall, rfl⟩ := Option.map_eq_some_iff.mp hstep
      exact Nat.add_lt_add_right (work_runCall hcall) _
  | upload k a =>
      obtain ⟨u, hu, hp⟩ := Option.bind_eq_some_iff.mp hstep
      exact work_handled h hu (handle_cases hp)

end Work

/-! ## §5  Every run -/

/-- Nothing is left to do until something comes from elsewhere. -/
def Quiescent (android : Bool) (p : State) : Prop :=
  ∀ l, Label.isInternal l = true → step android p l = none

section Quiescent

variable {android : Bool} {p : State} {k : ℕ} {u : Upload}

/-- A handler that has started can go on. -/
theorem exists_handle (android : Bool) (p : State) (k : ℕ) (hrun : u.point.stage = .running) :
    ∃ a p', p.handle android k u u.point a = some p' := by
  cases hpoint : u.point with
  | queued =>
      rw [hpoint] at hrun
      cases hrun
  | done =>
      rw [hpoint] at hrun
      cases hrun
  | preparing previous =>
      cases previous with
      | none => exact ⟨.prepare (.error ""), _, rfl⟩
      | some previous => exact ⟨.reopen (.error ""), _, rfl⟩
  | failing error => exact ⟨.call, _, rfl⟩
  | responding target => exact ⟨.call, _, rfl⟩
  | saving target => exact ⟨.save (.error ""), _, rfl⟩
  | moving target => exact ⟨.move (.error ""), _, rfl⟩
  | failed error => exact ⟨.report, _, rfl⟩
  | reported => exact ⟨.drain, _, rfl⟩

theorem Quiescent.not_running (h : Quiescent android p) (hu : p.isolate.uploads[k]? = some u) :
    u.point.stage ≠ .running := by
  intro hrun
  obtain ⟨a, p', hp⟩ := exists_handle android p k hrun
  have hstep : step android p (.upload k a) = some p' := by
    show (p.isolate.uploads[k]?.bind fun u => p.handle android k u u.point a) = some p'
    rw [hu]
    exact hp
  exact Option.some_ne_none p' (hstep.symm.trans (h (.upload k a) rfl))

/-- An upload that waits is behind one that runs. -/
theorem Quiescent.done (h : Quiescent android p) (hserved : Served p.isolate)
    (hu : p.isolate.uploads[k]? = some u) : u.point = .done := by
  have hlt := hserved.placed.owned u (List.mem_of_getElem? hu)
  have hserial := hserved.queued u.session _ (List.getElem?_eq_getElem hlt) u.fileId
  have hover : u.point.stage = .finished := by
    cases hstage : u.point.stage with
    | finished => rfl
    | running => exact absurd hstage (h.not_running hu)
    | waiting =>
        obtain ⟨r, hr⟩ :=
          hserial.exists_running ((stages_of_getElem? hu).trans (congrArg some hstage))
        obtain ⟨v, hv, -, hrun⟩ := stages_eq_some.mp hr
        exact absurd hrun (h.not_running hv)
  cases hpoint : u.point <;> rw [hpoint] at hover <;> first | rfl | cases hover

/-- Nothing is under way in the bridge. -/
theorem Quiescent.bridge (h : Quiescent android p) :
    p.bridge.loop = .recv ∧ p.bridge.events = [] ∧ p.bridge.sink = [] ∧ p.bridge.calls = [] := by
  have hlisten : p.bridge.listen = none := Option.map_eq_none_iff.mp (h .listen rfl)
  unfold Bridge.listen at hlisten
  refine ⟨?_, ?_, ?_, ?_⟩
  · split at hlisten
    · assumption
    · cases hlisten
    · cases hlisten
  · split at hlisten
    · split at hlisten
      · assumption
      · cases hlisten
    · cases hlisten
    · cases hlisten
  · have hevent : p.event = none := h .event rfl
    unfold State.event at hevent
    split at hevent
    · assumption
    · cases hevent
  · have hcall : p.bridge.runCall 0 = none := Option.map_eq_none_iff.mp (h (.call 0) rfl)
    unfold Bridge.runCall at hcall
    split at hcall
    · rename_i hnone
      exact List.eq_nil_of_length_eq_zero (Nat.le_zero.mp (List.getElem?_eq_none_iff.mp hnone))
    · cases hcall
    · cases hcall
    · cases hcall

end Quiescent

/-- The invariant of the responders in a run. -/
theorem responders_of_reach {android : Bool} {p : State} (h : Reach (step android) .init p) :
    p.bridge.Waits ∧ AllTended p.bridge p.isolate.uploads := by
  refine h.invariant (I := fun p => p.bridge.Waits ∧ AllTended p.bridge p.isolate.uploads)
    ⟨?_, ?_⟩ ?_
  · intro tx htx
    cases htx
  · intro key tx hkey
    cases hkey
  · rintro m l t ⟨hwaits, htended⟩ - hstep
    exact ⟨waits_step hwaits hstep, tended_step htended hstep⟩

/-- **Every upload is resolved**: what the bridge and the isolate do on their own comes to an
end, and then every handler is done, no responder is stored, and no request waits for its
target. -/
theorem uploads_resolved (android : Bool) (p : State) (h : Reach (step android) .init p) :
    (∀ ls q, (∀ l ∈ ls, Label.isInternal l = true) → exec (step android) p ls = some q →
      ls.length ≤ p.work) ∧
    (∃ ls q, (∀ l ∈ ls, Label.isInternal l = true) ∧ exec (step android) p ls = some q ∧
      Quiescent android q) ∧
    (Quiescent android p → (∀ u ∈ p.isolate.uploads, u.point = .done) ∧
      (∀ key, p.bridge.pendingUploads.get? key = none) ∧ .waiting ∉ p.bridge.requests) := by
  obtain ⟨hserved, -⟩ := isolate_of_reach h
  obtain ⟨hwaits, htended⟩ := responders_of_reach h
  have hkeeps : ∀ m l t, Served m.isolate → step android m l = some t → Served t.isolate :=
    fun m l t hm hstep => served_step hm hstep
  have hown : ∀ m l t, Served m.isolate → Label.isInternal l = true →
      step android m l = some t → t.work < m.work := fun m l t hm hl hstep => work_step hm hl hstep
  refine ⟨fun ls q hls hexec => length_le_of_own hkeeps hown hserved hls hexec,
    exists_exec_stuck hkeeps hown hserved, fun hquiet => ?_⟩
  have hdone : ∀ u ∈ p.isolate.uploads, u.point = .done := by
    intro u hu
    obtain ⟨k, hk⟩ := List.mem_iff_getElem?.mp hu
    exact hquiet.done hserved hk
  obtain ⟨hloop, hevents, hsink, hcalls⟩ := hquiet.bridge
  have hstored : ∀ key, p.bridge.pendingUploads.get? key = none := by
    intro key
    cases hkey : p.bridge.pendingUploads.get? key with
    | none => rfl
    | some tx =>
        cases htended key tx hkey with
        | emit file h =>
            rw [hloop] at h
            cases h
        | sink file h =>
            rw [hsink] at h
            cases h
        | cancelSession h =>
            rw [hcalls] at h
            cases h
        | cancelled h =>
            rw [hcalls] at h
            cases h
        | upload h =>
            obtain ⟨u, hu, -, hawaited⟩ := h
            rw [hdone u hu] at hawaited
            cases hawaited
  refine ⟨hdone, hstored, fun hmem => ?_⟩
  obtain ⟨tx, htx⟩ := List.mem_iff_getElem?.mp hmem
  cases hwaits tx htx with
  | event sessionId fileId file h =>
      rw [hevents] at h
      cases h
  | handled sessionId fileId file h =>
      rw [hloop] at h
      cases h
  | stored key h =>
      rw [hstored key] at h
      cases h

theorem retriedUpload_resolved : ∃ p, exec (step false) .init retriedUpload = some p ∧
    p.isolate.uploads.length = 2 ∧
      ∃ ls q, (∀ l ∈ ls, Label.isInternal l = true) ∧ exec (step false) p ls = some q ∧
        Quiescent false q := by
  obtain ⟨p, hexec, hp⟩ := exists_of_exec_any (step false) .init retriedUpload
    (fun p => p.isolate.uploads.length = 2) (by decide)
  exact ⟨p, hexec, of_decide_eq_true hp, (uploads_resolved false p (reach_of_exec hexec)).2.1⟩

end Receiving

end FireBoxTransfer
