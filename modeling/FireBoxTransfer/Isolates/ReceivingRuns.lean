import FireBoxTransfer.Isolates.Receiving

/-!
# What comes of the uploads

Attempts at one file of a receive session are handled one at a time, in the order of their
events, and go to one place; each tells the main isolate that it starts and, at the end, one
result.
-/

namespace FireBoxTransfer

open Runs FutureQueue

namespace Receiving

/-! ## §1  Stages -/

/-- The stages of the uploads of one file of a session. -/
def stages (uploads : List Upload) (s : ℕ) (fileId : String) (k : ℕ) : Option Stage :=
  (uploads[k]?.filter fun u => u.session = s && u.fileId = fileId).map fun u => u.point.stage

theorem stages_eq_some {us : List Upload} {s k : ℕ} {fileId : String} {a : Stage} :
    stages us s fileId k = some a ↔
      ∃ u, us[k]? = some u ∧ (u.session = s ∧ u.fileId = fileId) ∧ u.point.stage = a := by
  unfold stages
  simp only [Option.map_eq_some_iff, Option.filter_eq_some_iff, Bool.and_eq_true, decide_eq_true_eq,
    and_assoc]

theorem stages_of_getElem? {us : List Upload} {k : ℕ} {u : Upload} (h : us[k]? = some u) :
    stages us u.session u.fileId k = some u.point.stage :=
  stages_eq_some.mpr ⟨u, h, ⟨rfl, rfl⟩, rfl⟩

theorem lt_of_stages {us : List Upload} {s k : ℕ} {fileId : String} {a : Stage}
    (h : stages us s fileId k = some a) : k < us.length := by
  obtain ⟨u, hu, -⟩ := stages_eq_some.mp h
  exact (List.getElem?_eq_some_iff.mp hu).1

section Set

variable {us : List Upload} {s k : ℕ} {fileId : String} {u v : Upload}

theorem stages_set_self (h : us[k]? = some u) (hs : v.session = u.session)
    (hf : v.fileId = u.fileId) :
    stages (us.set k v) u.session u.fileId =
      Function.update (stages us u.session u.fileId) k (some v.point.stage) := by
  have hk := (List.getElem?_eq_some_iff.mp h).1
  ext1 j
  unfold stages
  rw [Function.update_apply]
  by_cases hj : j = k
  · subst hj
    rw [if_pos rfl, List.getElem?_set_self hk]
    simp [Option.filter, hs, hf]
  · rw [if_neg hj, List.getElem?_set_ne (Ne.symm hj)]

theorem stages_set_ne (h : us[k]? = some u) (hs : v.session = u.session)
    (hf : v.fileId = u.fileId) (hne : (u.session, u.fileId) ≠ (s, fileId)) :
    stages (us.set k v) s fileId = stages us s fileId := by
  have hk := (List.getElem?_eq_some_iff.mp h).1
  have hother : ¬ (u.session = s ∧ u.fileId = fileId) := by
    rintro ⟨rfl, rfl⟩
    exact hne rfl
  ext1 j
  unfold stages
  by_cases hj : j = k
  · subst hj
    rw [List.getElem?_set_self hk, h]
    simp [Option.filter, hs, hf, hother]
  · rw [List.getElem?_set_ne (Ne.symm hj)]

/-- An upload that stays in its stage changes no stage. -/
theorem stages_set (h : us[k]? = some u) (hs : v.session = u.session)
    (hf : v.fileId = u.fileId) (hpoint : v.point.stage = u.point.stage) :
    stages (us.set k v) = stages us := by
  funext s fileId
  by_cases hne : (u.session, u.fileId) = (s, fileId)
  · obtain ⟨rfl, rfl⟩ := Prod.mk.inj hne
    rw [stages_set_self h hs hf, Function.update_eq_self_iff, hpoint, stages_of_getElem? h]
  · exact stages_set_ne h hs hf hne

theorem stages_append_self (u : Upload) :
    stages (us ++ [u]) u.session u.fileId =
      Function.update (stages us u.session u.fileId) us.length (some u.point.stage) := by
  ext1 j
  unfold stages
  rw [Function.update_apply]
  by_cases hj : j = us.length
  · subst hj
    rw [if_pos rfl, List.getElem?_concat_length]
    simp [Option.filter]
  · rw [if_neg hj, List.getElem?_append]
    split
    · rfl
    · rw [List.getElem?_singleton, if_neg (by omega), List.getElem?_eq_none (by omega)]

theorem stages_append_ne (hne : (u.session, u.fileId) ≠ (s, fileId)) :
    stages (us ++ [u]) s fileId = stages us s fileId := by
  have hother : ¬ (u.session = s ∧ u.fileId = fileId) := by
    rintro ⟨rfl, rfl⟩
    exact hne rfl
  ext1 j
  unfold stages
  by_cases hj : j = us.length
  · subst hj
    rw [List.getElem?_concat_length, List.getElem?_eq_none (Nat.le_refl _)]
    simp [Option.filter, hother]
  · rw [List.getElem?_append]
    split
    · rfl
    · rw [List.getElem?_singleton, if_neg (by omega), List.getElem?_eq_none (by omega)]

end Set

@[simp] theorem ReceiveSession.queue_insert_self {session : ReceiveSession} {fileId : String}
    {queue : FutureQueue ℕ} :
    ({ session with uploads := session.uploads.insert fileId queue }).queue fileId = queue := by
  unfold ReceiveSession.queue
  rw [AssocMap.get?_insert_self]
  rfl

theorem ReceiveSession.queue_insert_ne {session : ReceiveSession} {fileId fileId' : String}
    {queue : FutureQueue ℕ} (h : fileId' ≠ fileId) :
    ({ session with uploads := session.uploads.insert fileId queue }).queue fileId' =
      session.queue fileId' := by
  unfold ReceiveSession.queue
  rw [AssocMap.get?_insert_ne h]

/-! ## §2  Places -/

/-- The queues have the uploads that are not over. -/
def Queued (q : Isolate) : Prop :=
  ∀ (s : ℕ) (session : ReceiveSession), q.sessions[s]? = some session →
    ∀ fileId, (session.queue fileId).Serial (stages q.uploads s fileId)

/-- An upload goes where its session has the file, and a handler that prepares a place knows
the one that is there. -/
structure Placed (q : Isolate) : Prop where
  owned : ∀ u ∈ q.uploads, u.session < q.sessions.length
  target : ∀ u ∈ q.uploads, ∀ target, u.target = some target →
    ∀ session, q.sessions[u.session]? = some session →
      ∃ first, session.targets.get? u.fileId = some first ∧ first.destination = target.destination
  previous : ∀ u ∈ q.uploads, ∀ previous, u.point = .preparing previous →
    ∀ session, q.sessions[u.session]? = some session →
      previous = session.targets.get? u.fileId

/-- Two attempts at a file that are both under way are one. -/
theorem Queued.unique {q : Isolate} (h : Queued q) (hp : Placed q) {i j : ℕ} {u v : Upload}
    (hu : q.uploads[i]? = some u) (hv : q.uploads[j]? = some v) (hsession : v.session = u.session)
    (hfile : v.fileId = u.fileId) (hrun : u.point.stage = .running)
    (hrun' : v.point.stage = .running) : i = j := by
  have hlt := hp.owned u (List.mem_of_getElem? hu)
  have hserial := h u.session _ (List.getElem?_eq_getElem hlt) u.fileId
  have hi := (hserial.running i).mpr (by rw [stages_of_getElem? hu, hrun])
  have hj := (hserial.running j).mpr
    (by rw [← hsession, ← hfile, stages_of_getElem? hv, hrun'])
  exact Option.some.inj (hi.symm.trans hj)

/-! ## §3  What a step does to the isolate -/

section Steps

variable {q : Isolate} {k : ℕ} {u : Upload}

theorem Queued.emit (h : Queued q) (upload : Option ℕ) (event : HttpServerEvent) :
    Queued (q.emit upload event) := h

theorem Placed.emit (h : Placed q) (upload : Option ℕ) (event : HttpServerEvent) :
    Placed (q.emit upload event) := ⟨h.owned, h.target, h.previous⟩

theorem Queued.setPoint (h : Queued q) (hu : q.uploads[k]? = some u)
    (hrun : u.point.stage = .running) {point : UploadPoint} (hpoint : point.stage = .running) :
    Queued (q.setPoint k u point) := by
  have hsame : stages (q.setPoint k u point).uploads = stages q.uploads :=
    stages_set hu rfl rfl (hpoint.trans hrun.symm)
  intro s session hsession fileId
  rw [hsame]
  exact h s session hsession fileId

theorem Placed.setPoint (h : Placed q) (hu : q.uploads[k]? = some u) {point : UploadPoint}
    (hpoint : ∀ previous, point = .preparing previous → ∀ session,
      q.sessions[u.session]? = some session → previous = session.targets.get? u.fileId) :
    Placed (q.setPoint k u point) := by
  have hmem := List.mem_of_getElem? hu
  constructor
  case owned =>
    intro v hv
    rcases List.mem_or_eq_of_mem_set hv with hv | rfl
    · exact h.owned v hv
    · exact h.owned u hmem
  case target =>
    intro v hv
    rcases List.mem_or_eq_of_mem_set hv with hv | rfl
    · exact h.target v hv
    · exact h.target u hmem
  case previous =>
    intro v hv
    rcases List.mem_or_eq_of_mem_set hv with hv | rfl
    · exact h.previous v hv
    · exact hpoint

theorem modify_eq_set {sessions : List ReceiveSession} {s : ℕ} {session : ReceiveSession}
    (h : sessions[s]? = some session) (f : ReceiveSession → ReceiveSession) :
    sessions.modify s f = sessions.set s (f session) := by
  rw [List.modify_eq_set_getElem?, h]
  rfl

/-- A place that replaces one leads to the same destination. -/
theorem Placed.setTarget (h : Placed q) (hqueued : Queued q) (hu : q.uploads[k]? = some u)
    {previous : Option FileSaveTarget} (hpoint : u.point = .preparing previous)
    {target : FileSaveTarget}
    (hdest : ∀ first, previous = some first → first.destination = target.destination) :
    Placed (q.setTarget k u target) := by
  have hmem := List.mem_of_getElem? hu
  have hlt := h.owned u hmem
  obtain ⟨old, hold⟩ : ∃ old, q.sessions[u.session]? = some old :=
    ⟨_, List.getElem?_eq_getElem hlt⟩
  have hprevious := h.previous u hmem previous hpoint old hold
  have hsessions : (q.setTarget k u target).sessions = q.sessions.set u.session
      { old with targets := old.targets.insert u.fileId target } := modify_eq_set hold _
  -- what the sessions know of a place afterwards
  have hget : ∀ s session, (q.setTarget k u target).sessions[s]? = some session →
      ∃ session', q.sessions[s]? = some session' ∧ ∀ fileId, session.targets.get? fileId =
        if s = u.session ∧ fileId = u.fileId then some target
        else session'.targets.get? fileId := by
    intro s session hsession
    rw [hsessions, List.getElem?_set] at hsession
    by_cases hs : u.session = s
    · subst hs
      rw [if_pos rfl, if_pos hlt] at hsession
      obtain rfl := Option.some.inj hsession
      refine ⟨old, hold, fun fileId => ?_⟩
      by_cases hf : fileId = u.fileId
      · rw [if_pos ⟨rfl, hf⟩, hf, AssocMap.get?_insert_self]
      · rw [if_neg fun hand => hf hand.2, AssocMap.get?_insert_ne hf]
    · rw [if_neg hs] at hsession
      refine ⟨session, hsession, fun fileId => ?_⟩
      rw [if_neg fun hand => hs hand.1.symm]
  constructor
  case owned =>
    intro v hv
    rw [hsessions, List.length_set]
    rcases List.mem_or_eq_of_mem_set hv with hv | rfl
    · exact h.owned v hv
    · exact hlt
  case target =>
    intro v hv target' htarget' session hsession
    obtain ⟨session', hsession', heq⟩ := hget _ _ hsession
    rcases List.mem_or_eq_of_mem_set hv with hv | rfl
    · obtain ⟨first, hfirst, hfirstDest⟩ := h.target v hv target' htarget' session' hsession'
      by_cases hsame : v.session = u.session ∧ v.fileId = u.fileId
      · -- the place is replaced by the one of this upload
        rw [hsame.1, hold] at hsession'
        obtain rfl := Option.some.inj hsession'
        rw [hsame.2, ← hprevious] at hfirst
        refine ⟨target, by rw [heq, if_pos hsame], ?_⟩
        rw [← hdest first hfirst, hfirstDest]
      · exact ⟨first, by rw [heq, if_neg hsame, hfirst], hfirstDest⟩
    · obtain rfl : target = target' := Option.some.inj htarget'
      exact ⟨target, by rw [heq, if_pos ⟨rfl, rfl⟩], rfl⟩
  case previous =>
    intro v hv previous' hpoint' session hsession
    obtain ⟨session', hsession', heq⟩ := hget _ _ hsession
    obtain ⟨j, hj⟩ := List.mem_iff_getElem?.mp hv
    have hset : (q.uploads.set k { u with point := .responding target, target := some target })[j]?
        = some v := hj
    rw [List.getElem?_set] at hset
    by_cases hkj : k = j
    · subst hkj
      rw [if_pos rfl, if_pos (List.getElem?_eq_some_iff.mp hu).1] at hset
      obtain rfl := Option.some.inj hset
      cases hpoint'
    · rw [if_neg hkj] at hset
      have hother : ¬ (v.session = u.session ∧ v.fileId = u.fileId) := fun hsame =>
        hkj (hqueued.unique h hu hset hsame.1 hsame.2 (by rw [hpoint]; rfl) (by rw [hpoint']; rfl))
      rw [heq, if_neg hother]
      exact h.previous v (List.mem_of_getElem? hset) previous' hpoint' session' hsession'

theorem Queued.setTarget (h : Queued q) (hu : q.uploads[k]? = some u)
    (hrun : u.point.stage = .running) (target : FileSaveTarget) :
    Queued (q.setTarget k u target) := by
  have hsame : stages (q.setTarget k u target).uploads = stages q.uploads :=
    stages_set hu rfl rfl hrun.symm
  intro s session hsession fileId
  rw [hsame]
  have hsession' : (q.sessions.modify u.session fun session =>
      { session with targets := session.targets.insert u.fileId target })[s]? = some session :=
    hsession
  rw [List.getElem?_modify] at hsession'
  obtain ⟨session', hold, rfl⟩ := Option.map_eq_some_iff.mp hsession'
  have hserial := h s session' hold fileId
  by_cases hs : u.session = s
  · rw [if_pos hs]
    exact hserial
  · rw [if_neg hs]
    exact hserial

/-! A handler that starts takes its upload out of the queue. -/

theorem start_eq (hu : q.uploads[k]? = some u) : q.start k =
    (q.setPoint k u (.preparing (q.sessions[u.session]?.bind fun session =>
      session.targets.get? u.fileId))).emit (some k) (.fileUpload u.sessionId u.fileId u.file) := by
  unfold Isolate.start
  rw [hu]

theorem Placed.start (h : Placed q) (hu : q.uploads[k]? = some u) : Placed (q.start k) := by
  rw [start_eq hu]
  refine (h.setPoint hu ?_).emit _ _
  intro previous hpoint session hsession
  obtain rfl := UploadPoint.preparing.inj hpoint
  rw [hsession]
  rfl

@[simp] theorem sessions_start : (q.start k).sessions = q.sessions := by
  unfold Isolate.start
  split <;> rfl

@[simp] theorem endSession_uploads (sessionId : String) :
    (q.endSession sessionId).uploads = q.uploads := by
  unfold Isolate.endSession
  split <;> rfl

@[simp] theorem endSession_toMain (sessionId : String) :
    (q.endSession sessionId).toMain = q.toMain := by
  unfold Isolate.endSession
  split <;> rfl

@[simp] theorem decided_uploads (config : Option HttpServerReceiveConfig) :
    (q.decided config).uploads = q.uploads := by
  unfold Isolate.decided
  split <;> rfl

@[simp] theorem decided_toMain (config : Option HttpServerReceiveConfig) :
    (q.decided config).toMain = q.toMain := by
  unfold Isolate.decided
  split <;> rfl

theorem stages_start (hu : q.uploads[k]? = some u) :
    stages (q.start k).uploads u.session u.fileId =
      Function.update (stages q.uploads u.session u.fileId) k (some .running) := by
  rw [start_eq hu]
  exact stages_set_self (v := { u with point := .preparing _ }) hu rfl rfl

theorem stages_start_ne {s : ℕ} {fileId : String} (hu : q.uploads[k]? = some u)
    (hne : (u.session, u.fileId) ≠ (s, fileId)) :
    stages (q.start k).uploads s fileId = stages q.uploads s fileId := by
  rw [start_eq hu]
  exact stages_set_ne hu rfl rfl hne

/-! A queue that is put back. -/

/-- The session with one queue replaced. -/
theorem getElem?_set_queue {sessions : List ReceiveSession} {s s' : ℕ}
    {old session : ReceiveSession} {fileId : String} {queue : FutureQueue ℕ} (fileId' : String)
    (hold : sessions[s]? = some old)
    (h : (sessions.set s { old with uploads := old.uploads.insert fileId queue })[s']? =
      some session) :
    ∃ session', sessions[s']? = some session' ∧ session.targets = session'.targets ∧
      session.config = session'.config ∧
      session.queue fileId' = if (s, fileId) = (s', fileId') then queue
        else session'.queue fileId' := by
  have hlt := (List.getElem?_eq_some_iff.mp hold).1
  rw [List.getElem?_set] at h
  by_cases hs : s = s'
  · subst hs
    rw [if_pos rfl, if_pos hlt] at h
    obtain rfl := Option.some.inj h
    refine ⟨old, hold, rfl, rfl, ?_⟩
    by_cases hf : fileId = fileId'
    · rw [if_pos (by rw [hf]), hf, ReceiveSession.queue_insert_self]
    · rw [if_neg (fun hand => hf (Prod.mk.inj hand).2),
        ReceiveSession.queue_insert_ne (Ne.symm hf)]
  · rw [if_neg hs] at h
    exact ⟨session, h, rfl, rfl, by rw [if_neg fun hand => hs (Prod.mk.inj hand).1]⟩

theorem Placed.of_sessions {q q' : Isolate} (h : Placed q) (huploads : q'.uploads = q.uploads)
    (hlength : q.sessions.length ≤ q'.sessions.length)
    (hsessions : ∀ u ∈ q.uploads, ∀ session, q'.sessions[u.session]? = some session →
      ∃ session', q.sessions[u.session]? = some session' ∧ session.targets = session'.targets) :
    Placed q' where
  owned u hu := Nat.lt_of_lt_of_le (h.owned u (huploads ▸ hu)) hlength
  target u hu target htarget session hsession := by
    rw [huploads] at hu
    obtain ⟨session', hsession', heq⟩ := hsessions u hu session hsession
    rw [heq]
    exact h.target u hu target htarget session' hsession'
  previous u hu previous hpoint session hsession := by
    rw [huploads] at hu
    obtain ⟨session', hsession', heq⟩ := hsessions u hu session hsession
    rw [heq]
    exact h.previous u hu previous hpoint session' hsession'

theorem Placed.append (h : Placed q) {v : Upload} (hlt : v.session < q.sessions.length)
    (htarget : v.target = none) (hpoint : v.point = .queued) :
    Placed { q with uploads := q.uploads ++ [v] } where
  owned u hu := by
    rcases List.mem_append.mp hu with hu | hu
    · exact h.owned u hu
    · rw [List.mem_singleton.mp hu]
      exact hlt
  target u hu target hsome := by
    rcases List.mem_append.mp hu with hu | hu
    · exact h.target u hu target hsome
    · rw [List.mem_singleton.mp hu, htarget] at hsome
      cases hsome
  previous u hu previous hprevious := by
    rcases List.mem_append.mp hu with hu | hu
    · exact h.previous u hu previous hprevious
    · rw [List.mem_singleton.mp hu, hpoint] at hprevious
      cases hprevious

/-- The queue of one file and the stages of its uploads change together. -/
theorem Queued.set_queue (h : Queued q) {s : ℕ} {old : ReceiveSession} {fileId : String}
    (hold : q.sessions[s]? = some old) {q' : Isolate} {queue : FutureQueue ℕ}
    (hsessions : q'.sessions = q.sessions.set s
      { old with uploads := old.uploads.insert fileId queue })
    (hother : ∀ s' fileId', (s, fileId) ≠ (s', fileId') →
      stages q'.uploads s' fileId' = stages q.uploads s' fileId')
    (hself : queue.Serial (stages q'.uploads s fileId)) : Queued q' := by
  intro s' session hsession fileId'
  rw [hsessions] at hsession
  obtain ⟨session', hsession', -, -, hqueue⟩ :=
    getElem?_set_queue fileId' hold hsession
  rw [hqueue]
  by_cases hne : (s, fileId) = (s', fileId')
  · obtain ⟨rfl, rfl⟩ := Prod.mk.inj hne
    rw [if_pos rfl]
    exact hself
  · rw [if_neg hne, hother s' fileId' hne]
    exact h s' session' hsession' fileId'

theorem Placed.set_queue (h : Placed q) {s : ℕ} {old : ReceiveSession} {fileId : String}
    (hold : q.sessions[s]? = some old) (queue : FutureQueue ℕ) :
    Placed { q with
      sessions := q.sessions.set s
        { old with uploads := old.uploads.insert fileId queue } } := by
  refine h.of_sessions rfl (Nat.le_of_eq List.length_set.symm) ?_
  intro u _ session hsession
  obtain ⟨session', hsession', htargets, -⟩ := getElem?_set_queue fileId hold hsession
  exact ⟨session', hsession', htargets⟩

theorem served_enqueue (hq : Queued q) (hp : Placed q) (s : ℕ) (sessionId fileId : String)
    (file : FileDto) :
    Queued (q.enqueue s sessionId fileId file) ∧ Placed (q.enqueue s sessionId fileId file) := by
  unfold Isolate.enqueue
  cases hold : q.sessions[s]? with
  | none => exact ⟨hq, hp⟩
  | some old =>
      dsimp only
      set v : Upload := ⟨s, sessionId, fileId, file, .queued, none⟩ with hv
      set q₁ : Isolate := { q with
        sessions := q.sessions.set s { old with
          uploads := old.uploads.insert fileId ((old.queue fileId).add q.uploads.length) }
        uploads := q.uploads ++ [v] } with hq₁
      have hget : q₁.uploads[q.uploads.length]? = some v := List.getElem?_concat_length
      have hplaced : Placed q₁ := by
        refine Placed.set_queue (hp.append (v := v) ?_ rfl rfl) hold _
        exact (List.getElem?_eq_some_iff.mp hold).1
      have hadd := (hq s old hold fileId).add (k := q.uploads.length)
        fun j a hj => lt_of_stages hj
      have hself : stages q₁.uploads s fileId =
          Function.update (stages q.uploads s fileId) q.uploads.length (some .waiting) :=
        stages_append_self v
      split
      · rename_i hidle
        rw [if_pos hidle] at hadd
        have hstart := stages_start hget
        refine ⟨hq.set_queue hold sessions_start (fun s' fileId' hne => ?_) ?_,
          hplaced.start hget⟩
        · rw [stages_start_ne hget hne]
          exact stages_append_ne hne
        · rw [hstart, hself, Function.update_idem]
          exact hadd
      · rename_i hbusy
        rw [if_neg hbusy] at hadd
        refine ⟨hq.set_queue hold rfl (fun s' fileId' hne => stages_append_ne hne) ?_, hplaced⟩
        rw [hself]
        exact hadd

theorem point_of_stage_waiting {point : UploadPoint} (h : point.stage = .waiting) :
    point = .queued := by
  cases point <;> first | rfl | cases h

/-- The next upload in the queue has not started. -/
theorem Queued.next (h : Queued q) {old : ReceiveSession} {next : ℕ}
    (hold : q.sessions[u.session]? = some old) (hu : q.uploads[k]? = some u)
    (hrun : u.point.stage = .running) (hnext : next ∈ (old.queue u.fileId).queue) :
    ∃ v, (q.setPoint k u .done).uploads[next]? = some v ∧
      (v.session = u.session ∧ v.fileId = u.fileId) ∧ v.point = .queued := by
  have hserial := h u.session old hold u.fileId
  obtain ⟨v, hv, hsame, hwait⟩ := stages_eq_some.mp ((hserial.waiting next).mp hnext)
  have hne : k ≠ next := by
    rintro rfl
    rw [hu] at hv
    obtain rfl := Option.some.inj hv
    rw [hrun] at hwait
    cases hwait
  exact ⟨v, (List.getElem?_set_ne hne).trans hv, hsame, point_of_stage_waiting hwait⟩

/-- What a handler that is over does to its queue. -/
theorem served_drain (hq : Queued q) (hp : Placed q) (hu : q.uploads[k]? = some u)
    (hrun : u.point.stage = .running) : Queued (q.drain k u) ∧ Placed (q.drain k u) := by
  have hmem := List.mem_of_getElem? hu
  have hplaced : Placed (q.setPoint k u .done) :=
    hp.setPoint hu fun previous hpoint => by cases hpoint
  unfold Isolate.drain
  obtain ⟨old, hold⟩ : ∃ old, q.sessions[u.session]? = some old :=
    ⟨_, List.getElem?_eq_getElem (hp.owned u hmem)⟩
  rw [hold]
  dsimp only
  have hserial := hq u.session old hold u.fileId
  have hdrain := hserial.drain ((stages_of_getElem? hu).trans (congrArg some hrun))
  set q₁ : Isolate := { q.setPoint k u .done with
    sessions := q.sessions.set u.session
      { old with uploads := old.uploads.insert u.fileId (old.queue u.fileId).drain } }
  have hplaced₁ : Placed q₁ := hplaced.set_queue hold (old.queue u.fileId).drain
  have hdone : stages q₁.uploads u.session u.fileId =
      Function.update (stages q.uploads u.session u.fileId) k (some .finished) :=
    stages_set_self (v := { u with point := .done }) hu rfl rfl
  have hother : ∀ s' fileId', (u.session, u.fileId) ≠ (s', fileId') →
      stages q₁.uploads s' fileId' = stages q.uploads s' fileId' :=
    fun s' fileId' hne => stages_set_ne hu rfl rfl hne
  cases hqueue : (old.queue u.fileId).queue with
  | nil =>
      rw [hqueue] at hdrain
      refine ⟨hq.set_queue hold rfl hother ?_, hplaced₁⟩
      exact hdone.symm ▸ hdrain
  | cons next rest =>
      rw [hqueue] at hdrain
      dsimp only at hdrain ⊢
      obtain ⟨v, hv, hsame, -⟩ :=
        hq.next hold hu hrun (by rw [hqueue]; exact List.mem_cons_self)
      have hget : q₁.uploads[next]? = some v := hv
      refine ⟨hq.set_queue hold sessions_start (fun s' fileId' hne' => ?_) ?_, hplaced₁.start hget⟩
      · rw [stages_start_ne hget (by rw [hsame.1, hsame.2]; exact hne')]
        exact hother s' fileId' hne'
      · have hstart := stages_start hget
        rw [hsame.1, hsame.2] at hstart
        rw [hstart, hdone]
        exact hdrain

/-- A decision may add a receive session, and takes none away. -/
theorem served_decided (hq : Queued q) (hp : Placed q)
    (config : Option HttpServerReceiveConfig) :
    Queued (q.decided config) ∧ Placed (q.decided config) := by
  unfold Isolate.decided
  split
  case h_2 => exact ⟨hq, hp.owned, hp.target, hp.previous⟩
  case h_1 config _ =>
    refine ⟨fun s session hsession fileId => ?_, hp.of_sessions rfl (by simp) ?_⟩
    · rcases Nat.lt_trichotomy s q.sessions.length with hlt | rfl | hgt
      · exact hq s session ((List.getElem?_append_left hlt).symm.trans hsession) fileId
      · -- the new session has no queue yet
        have hnew : some (ReceiveSession.new config) = some session :=
          List.getElem?_concat_length.symm.trans hsession
        obtain rfl := Option.some.inj hnew
        have hqueue : (ReceiveSession.new config).queue fileId = .empty := rfl
        rw [hqueue]
        refine serial_empty fun k => ?_
        cases hk : stages q.uploads q.sessions.length fileId k with
        | none => rfl
        | some a =>
            obtain ⟨u, hu, ⟨hs, -⟩, -⟩ := stages_eq_some.mp hk
            have hlt := hp.owned u (List.mem_of_getElem? hu)
            omega
      · have hlast := (List.getElem?_eq_some_iff.mp hsession).1
        rw [List.length_append, List.length_singleton] at hlast
        omega
    · intro u hu session hsession
      have hlt := hp.owned u hu
      exact ⟨session, (List.getElem?_append_left hlt).symm.trans hsession, rfl⟩

end Steps

/-! ## §4  Queues and places in a run -/

/-- The handler has its place, or has failed, and the bridge has taken the responder. -/
def UploadPoint.isLate : UploadPoint → Bool
  | .saving _ | .moving _ | .failed _ => true
  | _ => false

/-- What one act of a handler does. -/
inductive Handled (android : Bool) (p : State) (k : ℕ) (u : Upload) : State → Prop where
  | placed {previous : Option FileSaveTarget} {target : FileSaveTarget}
      (hpoint : u.point = .preparing previous)
      (hdest : ∀ first, previous = some first → first.destination = target.destination) :
      Handled android p k u (p.within (p.isolate.setTarget k u target))
  | unplaced {previous : Option FileSaveTarget} {error : String}
      (hpoint : u.point = .preparing previous) :
      Handled android p k u (p.within (p.isolate.setPoint k u (.failing error)))
  | failed {error : String} (hpoint : u.point = .failing error) :
      Handled android p k u
        ⟨p.bridge.dropUploads fun key => key = u.key, p.isolate.setPoint k u (.failed error)⟩
  | responded {target : FileSaveTarget} (hpoint : u.point = .responding target) :
      Handled android p k u (p.respond android k u target)
  | saved {point : UploadPoint} (hlate : u.point.isLate = true)
      (hpoint : (∃ target, u.point = .saving target ∧ point = .moving target) ∨
        (∃ target, u.point = .saving target ∨ u.point = .moving target) ∧
          ∃ error, point = .failed error) :
      Handled android p k u (p.within (p.isolate.setPoint k u point))
  | reported {path : Option String} {savedToGallery : Bool} {error : Option String}
      (hlate : u.point.isLate = true) :
      Handled android p k u (p.within (p.isolate.report k u path savedToGallery error))
  | drained (hpoint : u.point = .reported) :
      Handled android p k u (p.within (p.isolate.drain k u))

theorem handled_prepared {android : Bool} {p : State} {k : ℕ} {u : Upload}
    {previous : Option FileSaveTarget} (hpoint : u.point = .preparing previous)
    (prepared : Except String FileSaveTarget)
    (hdest : ∀ first target, previous = some first → prepared = .ok target →
      first.destination = target.destination) :
    Handled android p k u (p.within (p.isolate.prepared k u prepared)) := by
  cases prepared with
  | ok target => exact .placed hpoint fun first hfirst => hdest first target hfirst rfl
  | error error => exact .unplaced hpoint

theorem handle_cases {android : Bool} {p p' : State} {k : ℕ} {u : Upload} {a : UploadAct}
    (h : p.handle android k u u.point a = some p') : Handled android p k u p' := by
  generalize hpoint : u.point = point at h
  unfold State.handle at h
  split at h
  case h_1 prepared =>
    obtain rfl := Option.some.inj h
    exact handled_prepared hpoint prepared fun first target hfirst => by cases hfirst
  case h_2 previous opened =>
    obtain rfl := Option.some.inj h
    refine handled_prepared hpoint _ fun first target hfirst htarget => ?_
    obtain rfl := Option.some.inj hfirst
    exact (reopenFileSaveTarget_destination htarget).symm
  case h_3 error =>
    obtain rfl := Option.some.inj h
    exact .failed hpoint
  case h_4 target =>
    obtain rfl := Option.some.inj h
    exact .responded hpoint
  case h_5 target error =>
    obtain rfl := Option.some.inj h
    exact .saved (by rw [hpoint]; rfl) (.inr ⟨⟨target, .inl hpoint⟩, error, rfl⟩)
  case h_6 target =>
    obtain ⟨session, -, rfl⟩ := Option.map_eq_some_iff.mp h
    split
    · exact .saved (by rw [hpoint]; rfl) (.inl ⟨target, hpoint, rfl⟩)
    · exact .reported (by rw [hpoint]; rfl)
  case h_7 target error =>
    obtain rfl := Option.some.inj h
    exact .saved (by rw [hpoint]; rfl) (.inr ⟨⟨target, .inr hpoint⟩, error, rfl⟩)
  case h_8 target savedToGallery path =>
    obtain rfl := Option.some.inj h
    exact .reported (by rw [hpoint]; rfl)
  case h_9 error =>
    obtain rfl := Option.some.inj h
    exact .reported (by rw [hpoint]; rfl)
  case h_10 =>
    obtain rfl := Option.some.inj h
    exact .drained hpoint
  case h_11 => cases h

theorem respond_isolate (android : Bool) (p : State) (k : ℕ) (u : Upload)
    (target : FileSaveTarget) :
    ∃ point, (p.respond android k u target).isolate = p.isolate.setPoint k u point ∧
      (point = .saving target ∨ ∃ error, point = .failed error) := by
  unfold State.respond
  split
  · exact ⟨_, rfl, .inl rfl⟩
  · exact ⟨_, rfl, .inr ⟨_, rfl⟩⟩

structure Served (q : Isolate) : Prop where
  queued : Queued q
  placed : Placed q

section Served

variable {android : Bool} {p p' : State} {q : Isolate} {k : ℕ} {u : Upload}

theorem Served.emit (h : Served q) (upload : Option ℕ) (event : HttpServerEvent) :
    Served (q.emit upload event) := ⟨h.queued.emit _ _, h.placed.emit _ _⟩

theorem Served.setSession (h : Served q) (session : Option ℕ) : Served { q with session } :=
  ⟨h.queued, h.placed.owned, h.placed.target, h.placed.previous⟩

theorem Served.endSession (h : Served q) (sessionId : String) :
    Served (q.endSession sessionId) := by
  unfold Isolate.endSession
  split
  · exact h.setSession none
  · exact h

theorem Served.setPoint (h : Served q) (hu : q.uploads[k]? = some u)
    (hrun : u.point.stage = .running) {point : UploadPoint} (hpoint : point.stage = .running)
    (hprevious : ∀ previous, point ≠ .preparing previous) : Served (q.setPoint k u point) :=
  ⟨h.queued.setPoint hu hrun hpoint,
    h.placed.setPoint hu fun previous heq => absurd heq (hprevious previous)⟩

theorem stage_of_isLate {point : UploadPoint} (h : point.isLate = true) :
    point.stage = .running := by
  cases point <;> first | rfl | cases h

theorem served_handled (h : Served p.isolate) (hu : p.isolate.uploads[k]? = some u)
    (hp : Handled android p k u p') : Served p'.isolate := by
  cases hp with
  | placed hpoint hdest =>
      exact ⟨h.queued.setTarget hu (by rw [hpoint]; rfl) _,
        h.placed.setTarget h.queued hu hpoint hdest⟩
  | unplaced hpoint =>
      exact h.setPoint hu (by rw [hpoint]; rfl) rfl fun previous heq => by cases heq
  | failed hpoint =>
      exact h.setPoint hu (by rw [hpoint]; rfl) rfl fun previous heq => by cases heq
  | @responded target hpoint =>
      obtain ⟨point, hisolate, hor⟩ := respond_isolate android p k u target
      rw [hisolate]
      have hrun : u.point.stage = .running := by rw [hpoint]; rfl
      rcases hor with rfl | ⟨error, rfl⟩
      · exact h.setPoint hu hrun rfl fun previous heq => by cases heq
      · exact h.setPoint hu hrun rfl fun previous heq => by cases heq
  | saved hlate hpoint =>
      rcases hpoint with ⟨target, -, rfl⟩ | ⟨-, error, rfl⟩
      · exact h.setPoint hu (stage_of_isLate hlate) rfl fun previous heq => by cases heq
      · exact h.setPoint hu (stage_of_isLate hlate) rfl fun previous heq => by cases heq
  | reported hlate =>
      exact (h.setPoint hu (stage_of_isLate hlate) rfl fun previous heq => by cases heq).emit _ _
  | drained hpoint =>
      obtain ⟨hqueued, hplaced⟩ := served_drain h.queued h.placed hu (by rw [hpoint]; rfl)
      exact ⟨hqueued, hplaced⟩

theorem served_onEvent (h : Served p.isolate) (event : RsServerEvent) :
    Served (p.onEvent event).isolate := by
  cases event with
  | register ip info => exact h.emit _ _
  | prepareUpload sessionId ip info certFingerprint files => exact (h.setSession none).emit _ _
  | fileUpload sessionId fileId file =>
      unfold State.onEvent
      dsimp only
      split
      · exact h
      · rename_i s _
        obtain ⟨hqueued, hplaced⟩ := served_enqueue h.queued h.placed s sessionId fileId file
        exact ⟨hqueued, hplaced⟩
  | sessionEnd sessionId reason => exact (h.endSession sessionId).emit _ _
  | prepareUploadAborted sessionId => exact h.emit _ _
  | cancelReceived ip sessionId => exact h.emit _ _

end Served

/-! The steps of the bridge leave the isolate alone. -/

/-- What a step does, seen from the isolate. -/
inductive Moved (android : Bool) (p p' : State) : Prop where
  | bridge (h : p'.isolate = p.isolate)
  | decision (config : Option HttpServerReceiveConfig) (h : p' = p.onDecision config)
  | cancel (sessionId : String) (h : p' = p.onCancel sessionId)
  | event (event : RsServerEvent) (sink : List RsServerEvent)
      (hsink : p.bridge.sink = event :: sink)
      (h : p' = { p with bridge := { p.bridge with sink } }.onEvent event)
  | upload (k : ℕ) (u : Upload) (hu : p.isolate.uploads[k]? = some u)
      (h : Handled android p k u p')

theorem step_cases {android : Bool} {p p' : State} {l : Label}
    (h : step android p l = some p') : Moved android p p' := by
  cases l with
  | server event =>
      obtain ⟨bridge, -, rfl⟩ := Option.map_eq_some_iff.mp h
      exact .bridge rfl
  | requestEnds tx =>
      obtain rfl := Option.some.inj h
      exact .bridge rfl
  | decision config => exact .decision config (Option.some.inj h).symm
  | cancel sessionId => exact .cancel sessionId (Option.some.inj h).symm
  | listen =>
      obtain ⟨bridge, -, rfl⟩ := Option.map_eq_some_iff.mp h
      exact .bridge rfl
  | event =>
      unfold step State.event at h
      dsimp only at h
      split at h
      · cases h
      · rename_i event sink hsink
        exact .event event sink hsink (Option.some.inj h).symm
  | call k =>
      obtain ⟨bridge, -, rfl⟩ := Option.map_eq_some_iff.mp h
      exact .bridge rfl
  | upload k a =>
      obtain ⟨u, hu, hp⟩ := Option.bind_eq_some_iff.mp h
      exact .upload k u hu (handle_cases hp)

theorem served_step {android : Bool} {p p' : State} {l : Label} (hserved : Served p.isolate)
    (h : step android p l = some p') : Served p'.isolate := by
  cases step_cases h with
  | bridge h => exact h ▸ hserved
  | decision config h =>
      obtain rfl := h
      obtain ⟨hqueued, hplaced⟩ := served_decided hserved.queued hserved.placed config
      exact ⟨hqueued, hplaced⟩
  | cancel sessionId h =>
      obtain rfl := h
      exact hserved.endSession sessionId
  | event event sink _ h =>
      obtain rfl := h
      exact served_onEvent (p := { p with bridge := { p.bridge with sink } }) hserved event
  | upload k u hu h => exact served_handled hserved hu h

theorem served_new : Served .new where
  queued s session h := by simp [Isolate.new] at h
  placed := by constructor <;> intro u hu <;> cases hu

/-! ## §5  What the main isolate hears -/

/-- What the handler of an upload has told the main isolate. -/
def Isolate.told (q : Isolate) (k : ℕ) : List HttpServerEvent :=
  (q.toMain.filter fun e => e.upload = some k).map fun e => e.event

/-- Nothing before the handler starts, then the file, and in the end one result. -/
def Upload.Heard (u : Upload) (told : List HttpServerEvent) : Prop :=
  match u.point with
  | .queued => told = []
  | .reported | .done => ∃ path savedToGallery error, told =
      [.fileUpload u.sessionId u.fileId u.file,
        .fileUploadResult u.sessionId u.fileId path savedToGallery error]
  | _ => told = [.fileUpload u.sessionId u.fileId u.file]

def UploadPoint.isUnderWay : UploadPoint → Bool
  | .queued | .reported | .done => false
  | _ => true

theorem heard_iff {u : Upload} (h : u.point.isUnderWay = true) {told : List HttpServerEvent} :
    u.Heard told ↔ told = [.fileUpload u.sessionId u.fileId u.file] := by
  unfold Upload.Heard
  split
  case h_1 hpoint =>
    rw [hpoint] at h
    cases h
  case h_2 hpoint =>
    rw [hpoint] at h
    cases h
  case h_3 hpoint =>
    rw [hpoint] at h
    cases h
  case h_4 => exact .rfl

theorem isUnderWay_of_isLate {point : UploadPoint} (h : point.isLate = true) :
    point.isUnderWay = true := by
  cases point <;> first | rfl | cases h

structure Told (q : Isolate) : Prop where
  known : ∀ e ∈ q.toMain, ∀ k, e.upload = some k → k < q.uploads.length
  heard : ∀ (k : ℕ) (u : Upload), q.uploads[k]? = some u → u.Heard (q.told k)

section Told

variable {android : Bool} {p p' : State} {q : Isolate} {k : ℕ} {u : Upload}

@[simp] theorem told_emit_none (event : HttpServerEvent) :
    (q.emit none event).told k = q.told k := by
  simp [Isolate.told, Isolate.emit]

@[simp] theorem told_emit_self (event : HttpServerEvent) :
    (q.emit (some k) event).told k = q.told k ++ [event] := by
  simp [Isolate.told, Isolate.emit]

theorem told_emit_ne {j : ℕ} (h : j ≠ k) (event : HttpServerEvent) :
    (q.emit (some j) event).told k = q.told k := by
  simp [Isolate.told, Isolate.emit, h]

theorem Told.emit (h : Told q) (event : HttpServerEvent) : Told (q.emit none event) where
  known e he k hk := by
    rcases List.mem_append.mp he with he | he
    · exact h.known e he k hk
    · rw [List.mem_singleton.mp he] at hk
      cases hk
  heard k u hu := by
    rw [told_emit_none]
    exact h.heard k u hu

/-- One upload is set, and its handler tells something. -/
theorem Told.set (h : Told q) (hu : q.uploads[k]? = some u) {v : Upload} {r : Isolate}
    (huploads : r.uploads = q.uploads.set k v) (htoMain : r.toMain = q.toMain)
    {event : HttpServerEvent} (hheard : v.Heard (q.told k ++ [event])) :
    Told (r.emit (some k) event) := by
  have hlt := (List.getElem?_eq_some_iff.mp hu).1
  have hsame : ∀ j, r.told j = q.told j := fun j => by unfold Isolate.told; rw [htoMain]
  constructor
  case known =>
    intro e he j hj
    show j < r.uploads.length
    rw [huploads, List.length_set]
    rcases List.mem_append.mp he with he | he
    · exact h.known e (htoMain ▸ he) j hj
    · rw [List.mem_singleton.mp he] at hj
      obtain rfl := Option.some.inj hj
      exact hlt
  case heard =>
    intro j w hw
    have hset : (q.uploads.set k v)[j]? = some w := huploads ▸ hw
    rw [List.getElem?_set] at hset
    by_cases hkj : k = j
    · subst hkj
      rw [if_pos rfl, if_pos hlt] at hset
      obtain rfl := Option.some.inj hset
      rw [told_emit_self, hsame]
      exact hheard
    · rw [if_neg hkj] at hset
      rw [told_emit_ne hkj, hsame]
      exact h.heard j w hset

/-- One upload is set, and nothing is told. -/
theorem Told.set_quiet (h : Told q) (hu : q.uploads[k]? = some u) {v : Upload} {r : Isolate}
    (huploads : r.uploads = q.uploads.set k v) (htoMain : r.toMain = q.toMain)
    (hheard : u.Heard (q.told k) → v.Heard (q.told k)) : Told r := by
  have hlt := (List.getElem?_eq_some_iff.mp hu).1
  have hsame : ∀ j, r.told j = q.told j := fun j => by unfold Isolate.told; rw [htoMain]
  constructor
  case known =>
    intro e he j hj
    rw [huploads, List.length_set]
    exact h.known e (htoMain ▸ he) j hj
  case heard =>
    intro j w hw
    rw [huploads, List.getElem?_set] at hw
    rw [hsame]
    by_cases hkj : k = j
    · subst hkj
      rw [if_pos rfl, if_pos hlt] at hw
      obtain rfl := Option.some.inj hw
      exact hheard (h.heard k u hu)
    · rw [if_neg hkj] at hw
      exact h.heard j w hw

theorem Told.start (h : Told q) (hu : q.uploads[k]? = some u) (hpoint : u.point = .queued) :
    Told (q.start k) := by
  have hnone := h.heard k u hu
  unfold Upload.Heard at hnone
  rw [hpoint] at hnone
  rw [start_eq hu]
  refine h.set (r := q.setPoint k u (.preparing _)) hu rfl rfl ?_
  rw [hnone]
  rfl

theorem Told.append (h : Told q) {v : Upload} {q' : Isolate} (hpoint : v.point = .queued)
    (huploads : q'.uploads = q.uploads ++ [v]) (htoMain : q'.toMain = q.toMain) : Told q' := by
  have hsame : ∀ j, q'.told j = q.told j := fun j => by unfold Isolate.told; rw [htoMain]
  constructor
  case known =>
    intro e he j hj
    rw [huploads, List.length_append, List.length_singleton]
    exact Nat.lt_succ_of_lt (h.known e (htoMain ▸ he) j hj)
  case heard =>
    intro j u hu
    rw [hsame]
    rw [huploads, List.getElem?_append] at hu
    split at hu
    · exact h.heard j u hu
    · rename_i hge
      rw [List.getElem?_singleton] at hu
      split at hu
      · obtain rfl := Option.some.inj hu
        unfold Upload.Heard
        rw [hpoint]
        show q.told j = []
        unfold Isolate.told
        rw [List.map_eq_nil_iff, List.filter_eq_nil_iff]
        intro e he hj
        exact hge (h.known e he j (of_decide_eq_true hj))
      · cases hu

theorem told_enqueue (h : Told q) (s : ℕ) (sessionId fileId : String) (file : FileDto) :
    Told (q.enqueue s sessionId fileId file) := by
  unfold Isolate.enqueue
  split
  · rename_i old _
    dsimp only
    have happend : Told { q with
        sessions := q.sessions.set s { old with
          uploads := old.uploads.insert fileId ((old.queue fileId).add q.uploads.length) }
        uploads := q.uploads ++ [⟨s, sessionId, fileId, file, .queued, none⟩] } :=
      h.append rfl rfl rfl
    split
    · exact happend.start List.getElem?_concat_length rfl
    · exact happend
  · exact h

theorem told_drain (h : Told q) (hserved : Served q) (hu : q.uploads[k]? = some u)
    (hpoint : u.point = .reported) : Told (q.drain k u) := by
  unfold Isolate.drain
  have hdone : ∀ q' : Isolate, q'.uploads = (q.setPoint k u .done).uploads →
      q'.toMain = q.toMain → Told q' := fun q' huploads htoMain =>
    h.set_quiet hu huploads htoMain fun hheard => by
      unfold Upload.Heard at hheard ⊢
      rw [hpoint] at hheard
      exact hheard
  split
  · rename_i old hold
    dsimp only
    split
    · exact hdone _ rfl rfl
    · rename_i next rest hqueue
      have hdone := hdone { q.setPoint k u .done with
        sessions := q.sessions.set u.session
          { old with uploads := old.uploads.insert u.fileId (old.queue u.fileId).drain } } rfl rfl
      obtain ⟨v, hv, -, hwait⟩ := hserved.queued.next hold hu (by rw [hpoint]; rfl)
        (by rw [hqueue]; exact List.mem_cons_self)
      exact hdone.start hv hwait
  · exact hdone _ rfl rfl

theorem told_endSession (h : Told q) (sessionId : String) : Told (q.endSession sessionId) := by
  unfold Isolate.endSession
  split
  · exact ⟨h.known, h.heard⟩
  · exact h

theorem told_onEvent (h : Told p.isolate) (event : RsServerEvent) :
    Told (p.onEvent event).isolate := by
  cases event with
  | register ip info => exact h.emit _
  | prepareUpload sessionId ip info certFingerprint files =>
      have hnone : Told { p.isolate with session := none } := ⟨h.known, h.heard⟩
      exact hnone.emit _
  | fileUpload sessionId fileId file =>
      unfold State.onEvent
      dsimp only
      split
      · exact h
      · exact told_enqueue h _ sessionId fileId file
  | sessionEnd sessionId reason => exact (told_endSession h sessionId).emit _
  | prepareUploadAborted sessionId => exact h.emit _
  | cancelReceived ip sessionId => exact h.emit _

theorem Told.setPoint (h : Told q) (hu : q.uploads[k]? = some u)
    (hold : u.point.isUnderWay = true) {point : UploadPoint} (hnew : point.isUnderWay = true) :
    Told (q.setPoint k u point) :=
  h.set_quiet hu rfl rfl fun hheard =>
    (heard_iff (u := { u with point }) hnew).mpr ((heard_iff hold).mp hheard)

theorem told_handled (h : Told p.isolate) (hserved : Served p.isolate)
    (hu : p.isolate.uploads[k]? = some u) (hp : Handled android p k u p') : Told p'.isolate := by
  cases hp with
  | @placed previous target hpoint hdest =>
      have htold := (heard_iff (u := u) (by rw [hpoint]; rfl)).mp (h.heard k u hu)
      refine h.set_quiet hu rfl rfl fun _ => ?_
      exact (heard_iff (u := { u with point := .responding target, target := some target })
        rfl).mpr htold
  | unplaced hpoint => exact h.setPoint hu (by rw [hpoint]; rfl) rfl
  | failed hpoint => exact h.setPoint hu (by rw [hpoint]; rfl) rfl
  | @responded target hpoint =>
      obtain ⟨point, hisolate, hor⟩ := respond_isolate android p k u target
      rw [hisolate]
      have hold : u.point.isUnderWay = true := by rw [hpoint]; rfl
      rcases hor with rfl | ⟨error, rfl⟩
      · exact h.setPoint hu hold rfl
      · exact h.setPoint hu hold rfl
  | saved hlate hpoint =>
      have hold := isUnderWay_of_isLate hlate
      rcases hpoint with ⟨target, -, rfl⟩ | ⟨-, error, rfl⟩
      · exact h.setPoint hu hold rfl
      · exact h.setPoint hu hold rfl
  | @reported path savedToGallery error hlate =>
      have htold := (heard_iff (isUnderWay_of_isLate hlate)).mp (h.heard k u hu)
      refine h.set (r := p.isolate.setPoint k u .reported) hu rfl rfl ?_
      rw [htold]
      exact ⟨path, savedToGallery, error, rfl⟩
  | drained hpoint => exact told_drain h hserved hu hpoint

theorem told_step {l : Label} (h : Told p.isolate) (hserved : Served p.isolate)
    (hp : step android p l = some p') : Told p'.isolate := by
  cases step_cases hp with
  | bridge hp => exact hp ▸ h
  | decision config hp =>
      obtain rfl := hp
      unfold State.onDecision Isolate.decided
      dsimp only
      split
      · exact ⟨h.known, h.heard⟩
      · exact ⟨h.known, h.heard⟩
  | cancel sessionId hp =>
      obtain rfl := hp
      exact told_endSession h sessionId
  | event event sink _ hp =>
      obtain rfl := hp
      exact told_onEvent (p := { p with bridge := { p.bridge with sink } }) h event
  | upload k u hu hp => exact told_handled h hserved hu hp

end Told

/-! ## §6  Every run -/

/-- The place that the handler holds. -/
def UploadPoint.target : UploadPoint → Option FileSaveTarget
  | .responding target | .saving target | .moving target => some target
  | _ => none

def Held (uploads : List Upload) : Prop :=
  ∀ u ∈ uploads, ∀ target, u.point.target = some target → u.target = some target

section Held

variable {android : Bool} {p p' : State} {q : Isolate} {k : ℕ} {u : Upload}

theorem Held.set {us : List Upload} (h : Held us) {v : Upload}
    (hv : ∀ target, v.point.target = some target → v.target = some target) :
    Held (us.set k v) := by
  intro w hw
  rcases List.mem_or_eq_of_mem_set hw with hw | rfl
  · exact h w hw
  · exact hv

theorem held_start (h : Held q.uploads) (k : ℕ) : Held (q.start k).uploads := by
  unfold Isolate.start
  split
  · exact h.set fun target htarget => by cases htarget
  · exact h

theorem held_enqueue (h : Held q.uploads) (s : ℕ) (sessionId fileId : String) (file : FileDto) :
    Held (q.enqueue s sessionId fileId file).uploads := by
  have happend : Held (q.uploads ++ [⟨s, sessionId, fileId, file, .queued, none⟩]) := by
    intro v hv
    rcases List.mem_append.mp hv with hv | hv
    · exact h v hv
    · rw [List.mem_singleton.mp hv]
      intro target htarget
      cases htarget
  unfold Isolate.enqueue
  split
  · dsimp only
    split
    · exact held_start happend _
    · exact happend
  · exact h

theorem held_drain (h : Held q.uploads) (k : ℕ) (u : Upload) : Held (q.drain k u).uploads := by
  have hdone : Held (q.setPoint k u .done).uploads := h.set fun target htarget => by cases htarget
  unfold Isolate.drain
  split
  · dsimp only
    split
    · exact hdone
    · refine held_start ?_ _
      exact hdone
  · exact hdone

theorem held_handled (h : Held p.isolate.uploads) (hu : p.isolate.uploads[k]? = some u)
    (hp : Handled android p k u p') : Held p'.isolate.uploads := by
  have hmem := h u (List.mem_of_getElem? hu)
  cases hp with
  | placed hpoint hdest => exact h.set fun target htarget => htarget
  | unplaced hpoint => exact h.set fun target htarget => by cases htarget
  | failed hpoint => exact h.set fun target htarget => by cases htarget
  | @responded target hpoint =>
      obtain ⟨point, hisolate, hor⟩ := respond_isolate android p k u target
      rw [hisolate]
      rcases hor with rfl | ⟨error, rfl⟩
      · refine h.set fun target' htarget' => hmem target' ?_
        rw [hpoint]
        exact htarget'
      · exact h.set fun target htarget => by cases htarget
  | saved hlate hpoint =>
      rcases hpoint with ⟨target, hold, rfl⟩ | ⟨-, error, rfl⟩
      · refine h.set fun target' htarget' => hmem target' ?_
        rw [hold]
        exact htarget'
      · exact h.set fun target htarget => by cases htarget
  | reported hlate => exact h.set fun target htarget => by cases htarget
  | drained hpoint => exact held_drain h k u

theorem held_step {l : Label} (h : Held p.isolate.uploads) (hp : step android p l = some p') :
    Held p'.isolate.uploads := by
  cases step_cases hp with
  | bridge hp => exact hp ▸ h
  | decision config hp =>
      obtain rfl := hp
      show Held (p.isolate.decided config).uploads
      rw [decided_uploads]
      exact h
  | cancel sessionId hp =>
      obtain rfl := hp
      show Held (p.isolate.endSession sessionId).uploads
      rw [endSession_uploads]
      exact h
  | event event sink _ hp =>
      obtain rfl := hp
      cases event with
      | fileUpload sessionId fileId file =>
          unfold State.onEvent
          dsimp only
          split
          · exact h
          · exact held_enqueue h _ sessionId fileId file
      | sessionEnd sessionId reason =>
          show Held (p.isolate.endSession sessionId).uploads
          rw [endSession_uploads]
          exact h
      | register ip info => exact h
      | prepareUpload sessionId ip info certFingerprint files => exact h
      | prepareUploadAborted sessionId => exact h
      | cancelReceived ip sessionId => exact h
  | upload k u hu hp => exact held_handled h hu hp

end Held

/-- Attempts at one file of a receive session are handled one at a time, in their order; they
all go to one place; and the main isolate hears of each when it starts and of its one result. -/
structure Orderly (q : Isolate) : Prop where
  inOrder : ∀ (i j : ℕ) (u v : Upload), i < j → q.uploads[i]? = some u →
    q.uploads[j]? = some v → v.session = u.session → v.fileId = u.fileId →
    v.point ≠ .queued → u.point = .done
  held : ∀ u ∈ q.uploads, ∀ target, u.point.target = some target → u.target = some target
  destination : ∀ u ∈ q.uploads, ∀ v ∈ q.uploads, v.session = u.session → v.fileId = u.fileId →
    ∀ target target', u.target = some target → v.target = some target' →
      target.destination = target'.destination
  heard : ∀ (k : ℕ) (u : Upload), q.uploads[k]? = some u → u.Heard (q.told k)

theorem Served.inOrder {q : Isolate} (h : Served q) {i j : ℕ} {u v : Upload} (hij : i < j)
    (hu : q.uploads[i]? = some u) (hv : q.uploads[j]? = some v) (hsession : v.session = u.session)
    (hfile : v.fileId = u.fileId) (hstarted : v.point ≠ .queued) : u.point = .done := by
  have hlt := h.placed.owned u (List.mem_of_getElem? hu)
  have hserial := h.queued u.session _ (List.getElem?_eq_getElem hlt) u.fileId
  have hover := hserial.over_of_lt hij (stages_of_getElem? hu)
    (by rw [← hsession, ← hfile, stages_of_getElem? hv])
    fun hwait => hstarted (point_of_stage_waiting hwait)
  cases hpoint : u.point <;> rw [hpoint] at hover <;> first | rfl | cases hover

theorem Placed.destination {q : Isolate} (h : Placed q) {u v : Upload} (hu : u ∈ q.uploads)
    (hv : v ∈ q.uploads) (hsession : v.session = u.session) (hfile : v.fileId = u.fileId)
    {target target' : FileSaveTarget} (htarget : u.target = some target)
    (htarget' : v.target = some target') : target.destination = target'.destination := by
  have hget := List.getElem?_eq_getElem (h.owned u hu)
  obtain ⟨first, hfirst, hdest⟩ := h.target u hu target htarget _ hget
  obtain ⟨first', hfirst', hdest'⟩ :=
    h.target v hv target' htarget' _ (by rw [hsession]; exact hget)
  rw [hfile, hfirst] at hfirst'
  obtain rfl := Option.some.inj hfirst'
  exact hdest.symm.trans hdest'

/-- The invariant of the isolate in a run. -/
theorem isolate_of_reach {android : Bool} {p : State} (h : Reach (step android) .init p) :
    Served p.isolate ∧ Told p.isolate ∧ Held p.isolate.uploads := by
  refine h.invariant (I := fun p => Served p.isolate ∧ Told p.isolate ∧ Held p.isolate.uploads)
    ⟨served_new, ?_, ?_⟩ ?_
  · constructor
    · intro e he
      cases he
    · intro k u hu
      cases hu
  · intro u hu
    cases hu
  · rintro m l t ⟨hserved, htold, hheld⟩ - hstep
    exact ⟨served_step hserved hstep, told_step htold hserved hstep, held_step hheld hstep⟩

/-- **Orderly uploads**: whatever the server sends, whatever the application decides and
cancels, and in whichever order everything is taken. -/
theorem uploads_orderly (android : Bool) (p : State) (h : Reach (step android) .init p) :
    Orderly p.isolate := by
  obtain ⟨hserved, htold, hheld⟩ := isolate_of_reach h
  exact {
    inOrder := fun i j u v hij hu hv hsession hfile => hserved.inOrder hij hu hv hsession hfile
    held := hheld
    destination := fun u hu v hv hsession hfile target target' =>
      hserved.placed.destination hu hv hsession hfile
    heard := htold.heard }

/-- A file is sent again while its first attempt is under way, and the first attempt fails. -/
def retriedUpload : List Label :=
  let file : FileDto := ⟨"f", "a.txt", 1, "text/plain", none, none, none⟩
  let target : FileSaveTarget := ⟨some "/d/a.txt", none, "/d/a.txt"⟩
  [.decision (some ⟨"s", .ofList [("f", "a.txt")], "/d", "/c", false, none⟩),
    .server (.fileUpload "s" "f" file 0), .listen, .listen, .listen, .event,
    .server (.fileUpload "s" "f" file 1), .listen, .listen, .listen, .event,
    .upload 0 (.prepare (.ok target)), .upload 0 .call,
    .upload 0 (.save (.error "Upload request aborted")), .upload 0 .report, .upload 0 .drain,
    .upload 1 (.reopen (.ok 3))]

theorem retriedUpload_orderly : ∃ p, exec (step false) .init retriedUpload = some p ∧
    p.isolate.uploads.map (fun u => u.point.stage) = [.finished, .running] ∧
      Orderly p.isolate := by
  obtain ⟨p, hexec, hp⟩ := exists_of_exec_any (step false) .init retriedUpload
    (fun p => p.isolate.uploads.map (fun u => u.point.stage) = [.finished, .running]) (by decide)
  exact ⟨p, hexec, of_decide_eq_true hp, uploads_orderly false p (reach_of_exec hexec)⟩

end Receiving

end FireBoxTransfer
