import FireBoxTransfer.Cli.ReceiveAccounting

/-!
# The summary of a received session

The application keeps one session. It reports the end of this session once the server
has announced it and the last result is in; the session is lost when another request
is accepted before, and it stays for ever when the sender aborts it after it was
accepted, since the news of an abort is matched against the request in hand only.
-/

namespace FireBoxTransfer

open TaskPool Runs

namespace Cli

/-! ## §1  The reports -/

/-- A summary of `m` files that were received and `k` that failed. -/
def LogLine.Shows : LogLine → ℕ → ℕ → Prop
  | .received _ finished _ n, m, k => finished = m ∧ n = k
  | .cancelledBySender _ finished _, m, _ | .cancelled _ finished _, m, _ => finished = m
  | _, _, _ => False

/-- The summary of a session that the user has cancelled. -/
def LogLine.byUser : LogLine → Bool
  | .cancelled _ _ _ => true
  | _ => false

/-- The end of an accepted session is reported exactly once, with all its results in and
with what was counted for it; every result is counted for its own session; and a session
that the sender has aborted is not the current one. -/
structure Summarized (p : Receiver) : Prop where
  once : (p.reported.map Prod.fst).Nodup
  reported : ∀ sid files reason, (sid, files) ∈ p.accepted → .sessionEnd sid reason ∈ p.received →
    (∀ a ∈ p.attempts, a.sessionId = sid → a.result ≠ none) →
      (p.reported.map Prod.fst).count sid = 1
  ended : ∀ sid line, (sid, line) ∈ p.reported →
    line.byUser = true ∨ ∃ reason, .sessionEnd sid reason ∈ p.received
  complete : ∀ sid line, (sid, line) ∈ p.reported →
    ∀ a ∈ p.attempts, a.sessionId = sid → a.result ≠ none
  attributed : p.counted.Perm (p.attempts.filterMap fun a => a.entry.delivered)
  shown : ∀ sid line, (sid, line) ∈ p.reported →
    line.Shows (countOf p.counted sid true) (countOf p.counted sid false)
  aborted : ∀ sid, .prepareUploadAborted sid ∈ p.received → p.current sid = none

/-- A step that does not lose the current session: no request is accepted as long as
there is one, it is not aborted by its sender, no file of it is announced again that is
in progress, and the user does not cancel it while one is. -/
def Receiver.orderly (p : Receiver) : ReceiverLabel → Bool
  | .event =>
      match p.core.shared.events.queue with
      | .prepareUploadAborted sid :: _ => (p.current sid).isNone
      | .fileUpload sid fid _ _ :: _ =>
          (p.current sid).all fun session => !session.inProgress.contains fid
      | _ => !p.accepts .event || p.app.receive.isNone
  | .ctrlC => p.settled
  | l => !p.accepts l || p.app.receive.isNone

/-- The current session is not reported yet, the application knows whether it has ended,
and it was not aborted. -/
structure Live (reported : List (String × LogLine)) (received : List ServerEventV2)
    (session : ReceiveSession) : Prop where
  unreported : session.sessionId ∉ reported.map Prod.fst
  ending : ∀ reason, .sessionEnd session.sessionId reason ∈ received → session.ended ≠ none
  told : ∀ reason, session.ended = some reason →
    .sessionEnd session.sessionId reason ∈ received
  aborted : .prepareUploadAborted session.sessionId ∉ received

/-- Every session that was accepted is the current one or was reported, once, with what
was counted for it. -/
structure Summed (b : Books) (received : List ServerEventV2) : Prop where
  covered : ∀ sid ∈ b.accepted.map Prod.fst,
    (∃ session, b.receive = some session ∧ session.sessionId = sid) ∨
      sid ∈ b.reported.map Prod.fst
  known : b.reported.map Prod.fst ⊆ b.accepted.map Prod.fst
  once : (b.reported.map Prod.fst).Nodup
  live : ∀ session, b.receive = some session →
    Live b.reported received session
  ended : ∀ sid line, (sid, line) ∈ b.reported →
    line.byUser = true ∨ ∃ reason, .sessionEnd sid reason ∈ received
  shown : ∀ sid line, (sid, line) ∈ b.reported →
    line.Shows (countOf b.counted sid true) (countOf b.counted sid false)

/-- The current session has not ended, or a file is in progress. -/
def Books.Unfinished (b : Books) : Prop :=
  ∀ session, b.receive = some session → session.ended = none ∨ session.inProgress ≠ []

/-! ## §2  Every step keeps them -/

section Steps

variable {p : Receiver} {l : ReceiverLabel} {b : Books} {received new : List ServerEventV2}
  {session : ReceiveSession}

theorem Books.finish_unfinished (b : Books) : b.finish.Unfinished := by
  rcases b.finish_cases with ⟨hsame, hun⟩ | ⟨_, _, -, -, -, hfinish⟩
  · rw [hsame]
    exact hun
  · rw [hfinish]
    rintro _ ⟨⟩

/-- The current session is reported and cleared. -/
theorem Summed.report (h : Summed b received) {line : LogLine} (hr : b.receive = some session)
    (hshows : line.Shows (countOf b.counted session.sessionId true)
      (countOf b.counted session.sessionId false))
    (hended : line.byUser = true ∨ ∃ reason, .sessionEnd session.sessionId reason ∈ received)
    (hknown : session.sessionId ∈ b.accepted.map Prod.fst) :
    Summed { b with receive := none, reported := b.reported ++ [(session.sessionId, line)] }
      received := by
  have hlast : ∀ sid line', (sid, line') ∈ b.reported ++ [(session.sessionId, line)] →
      (sid, line') ∈ b.reported ∨ sid = session.sessionId ∧ line' = line := by
    intro sid line' hm
    rcases List.mem_append.mp hm with hm | hm
    · exact .inl hm
    · exact .inr (Prod.mk.inj (List.mem_singleton.mp hm))
  constructor
  case covered =>
    intro sid hsid
    refine .inr ?_
    rw [List.map_append]
    rcases h.covered sid hsid with ⟨session', hr', rfl⟩ | hm
    · obtain rfl := Option.some.inj (hr.symm.trans hr')
      exact List.mem_append_right _ (List.mem_singleton_self _)
    · exact List.mem_append_left _ hm
  case known =>
    rw [List.map_append]
    exact List.append_subset.mpr ⟨h.known, List.cons_subset.mpr ⟨hknown, List.nil_subset _⟩⟩
  case once =>
    rw [List.map_append]
    have hnew := (h.live session hr).unreported
    exact List.nodup_append_comm.mp (List.nodup_cons.mpr ⟨hnew, h.once⟩)
  case live => rintro _ ⟨⟩
  case ended =>
    intro sid line' hm
    rcases hlast sid line' hm with hold | ⟨rfl, rfl⟩
    · exact h.ended sid line' hold
    · exact hended
  case shown =>
    intro sid line' hm
    rcases hlast sid line' hm with hold | ⟨rfl, rfl⟩
    · exact h.shown sid line' hold
    · exact hshows

/-- The current session is shown when it has ended with nothing outstanding. -/
theorem Summed.finish (h : Summed b received)
    (hknown : ∀ session, b.receive = some session → session.sessionId ∈ b.accepted.map Prod.fst)
    (hb : Booked b) : Summed b.finish received := by
  rcases b.finish_cases with ⟨hsame, -⟩ | ⟨session, reason, hr, hend, -, hfinish⟩
  · rw [hsame]
    exact h
  · rw [hfinish]
    refine h.report hr ?_ (.inr ⟨reason, (h.live session hr).told reason hend⟩) (hknown session hr)
    obtain ⟨hfinished, hfailed⟩ := hb.counters session hr
    cases reason with
    | finished => exact ⟨hfinished, hfailed⟩
    | cancelled => exact hfinished

/-- Events that do not concern the current session were taken. -/
theorem Summed.append (h : Summed b received)
    (hnew : ∀ session, b.receive = some session →
      (∀ reason, .sessionEnd session.sessionId reason ∉ new) ∧
        .prepareUploadAborted session.sessionId ∉ new) :
    Summed b (received ++ new) := by
  refine { h with live := ?_, ended := ?_ }
  · intro session hr
    obtain ⟨hunreported, hending, htold, haborted⟩ := h.live session hr
    obtain ⟨hend, hab⟩ := hnew session hr
    refine ⟨hunreported, fun reason hm => ?_, fun reason he => ?_, fun hm => ?_⟩
    · rcases List.mem_append.mp hm with hm | hm
      · exact hending reason hm
      · exact absurd hm (hend reason)
    · exact List.mem_append_left _ (htold reason he)
    · rcases List.mem_append.mp hm with hm | hm
      · exact haborted hm
      · exact hab hm
  · intro sid line hm
    refine (h.ended sid line hm).imp_right ?_
    rintro ⟨reason, hreason⟩
    exact ⟨reason, List.mem_append_left _ hreason⟩

/-- Something of the current session is updated. -/
theorem Summed.update (h : Summed b received) (hr : b.receive = some session)
    {session' : ReceiveSession} (hid : session'.sessionId = session.sessionId)
    (hended : session'.ended = session.ended) (entries : List Entry) :
    Summed { b with receive := some session', entries } received := by
  refine { h with covered := ?_, live := ?_ }
  · intro sid hsid
    rcases h.covered sid hsid with ⟨session₀, hr₀, rfl⟩ | hm
    · obtain rfl := Option.some.inj (hr.symm.trans hr₀)
      exact .inl ⟨session', rfl, hid⟩
    · exact .inr hm
  · rintro _ ⟨⟩
    obtain ⟨hunreported, hending, htold, haborted⟩ := h.live session hr
    refine ⟨?_, ?_, ?_, ?_⟩
    all_goals rw [hid]
    · exact hunreported
    · rw [hended]
      exact hending
    · rw [hended]
      exact htold
    · exact haborted

/-- A result of the current session is counted. -/
theorem Summed.settle (h : Summed b received) {k : ℕ} {e : Entry}
    (hr : b.receive = some session) (hid : session.sessionId = e.sessionId)
    (result : Except String Unit) : Summed (b.settle k e session result) received := by
  obtain ⟨hsid, -, hended, -⟩ := session.settle_same e.fileId result
  have hupdate := h.update hr hsid hended (b.entries.set k (e.settle result))
  refine ⟨hupdate.covered, hupdate.known, hupdate.once, hupdate.live, hupdate.ended, ?_⟩
  intro sid line hm
  -- a session that was reported is not the current one
  have hne : e.sessionId ≠ sid := by
    rintro rfl
    refine (h.live session hr).unreported ?_
    rw [hid]
    exact List.mem_map_of_mem hm
  have hsame : ∀ success,
      countOf (b.counted ++ [(e.sessionId, e.fileId, result.toBool)]) sid success =
        countOf b.counted sid success := by
    intro success
    rw [countOf, List.countP_append, ← countOf]
    simp [hne]
  show line.Shows (countOf (b.counted ++ [(e.sessionId, e.fileId, result.toBool)]) sid true)
    (countOf (b.counted ++ [(e.sessionId, e.fileId, result.toBool)]) sid false)
  rw [hsame, hsame]
  exact h.shown sid line hm

/-- The application learns that the current session has ended. -/
theorem Summed.ending (h : Summed b received) (hr : b.receive = some session)
    (reason : SessionEndReasonV2) :
    Summed { b with receive := some { session with ended := some reason } }
      (received ++ [.sessionEnd session.sessionId reason]) := by
  obtain ⟨hunreported, hending, htold, haborted⟩ := h.live session hr
  refine ⟨?_, h.known, h.once, ?_, ?_, h.shown⟩
  · intro sid hsid
    rcases h.covered sid hsid with ⟨session₀, hr₀, rfl⟩ | hm
    · obtain rfl := Option.some.inj (hr.symm.trans hr₀)
      exact .inl ⟨_, rfl, rfl⟩
    · exact .inr hm
  · rintro _ ⟨⟩
    refine ⟨hunreported, fun _ _ => Option.some_ne_none _, ?_, fun hm => ?_⟩
    · rintro reason' ⟨⟩
      exact List.mem_append_right _ (List.mem_singleton_self _)
    · rcases List.mem_append.mp hm with hm | hm
      · exact haborted hm
      · cases List.mem_singleton.mp hm
  · intro sid line hm
    refine (h.ended sid line hm).imp_right ?_
    rintro ⟨reason', hreason⟩
    exact ⟨reason', List.mem_append_left _ hreason⟩

/-- A session starts when there is no current one. -/
theorem Summed.start (h : Summed b received) (hnone : b.receive = none) {sid : String}
    (hnew : sid ∉ b.accepted.map Prod.fst)
    (haborted : .prepareUploadAborted sid ∉ received)
    (hend : ∀ reason, .sessionEnd sid reason ∉ received) («alias» : String)
    (sender : SenderTarget) (files : AssocMap String FileDto) :
    Summed (b.start (.new sid «alias» sender files)) received := by
  refine ⟨?_, ?_, h.once, ?_, h.ended, h.shown⟩
  · intro sid' hsid'
    rw [Books.start, List.map_append, List.mem_append] at hsid'
    rcases hsid' with hsid' | hsid'
    · rcases h.covered sid' hsid' with ⟨session, hr, -⟩ | hm
      · rw [hnone] at hr
        cases hr
      · exact .inr hm
    · exact .inl ⟨_, rfl, (List.mem_singleton.mp hsid').symm⟩
  · rw [Books.start, List.map_append]
    exact fun _ hm => List.mem_append_left _ (h.known hm)
  · rintro _ ⟨⟩
    refine ⟨fun hm => hnew (h.known hm), fun reason hm => absurd hm (hend reason), ?_, haborted⟩
    rintro reason ⟨⟩

theorem Summed.init (destination : String) (paired : List String) (web : Option WebMode)
    (directory : List String) :
    Summed (Receiver.init destination paired web directory).books [] where
  covered := by
    intro sid hsid
    cases hsid
  known := List.nil_subset _
  once := List.nodup_nil
  live := by rintro _ ⟨⟩
  ended := by
    intro sid line hm
    cases hm
  shown := by
    intro sid line hm
    cases hm

theorem no_receive_of_orderly (hl : p.orderly l = true) (hacc : p.accepts l = true) :
    p.app.receive = none := by
  cases l with
  | event =>
      cases hq : p.core.shared.events.queue with
      | nil => simp [Receiver.accepts, hq] at hacc
      | cons event rest =>
          cases event with
          | prepareUpload => simpa [Receiver.orderly, hq, hacc] using hl
          | _ => simp [Receiver.accepts, hq] at hacc
  | answer => simpa [Receiver.orderly, hacc] using hl
  | _ => cases hacc

theorem kept_of_orderly (hl : p.orderly l = true) : Kept p l where
  accept hacc := by
    have hnone := no_receive_of_orderly hl hacc
    rw [settled_iff]
    intro session hr
    rw [hr] at hnone
    cases hnone
  cancel := by
    rintro rfl
    exact hl
  upload := by
    intro sid fid file tx session htaken hcurrent
    have hmem : .fileUpload sid fid file tx ∈ p.taken l := by
      rw [htaken]
      exact List.mem_singleton_self _
    obtain ⟨rfl, rest, hq⟩ := mem_taken hmem
    simpa [Receiver.orderly, hq, hcurrent] using hl

theorem not_aborted_of_orderly (hl : p.orderly l = true) {session : ReceiveSession}
    (hr : p.app.receive = some session) :
    .prepareUploadAborted session.sessionId ∉ p.taken l := by
  intro hm
  obtain ⟨rfl, rest, hq⟩ := mem_taken hm
  have hcurrent : p.current session.sessionId = some session :=
    Option.filter_eq_some_iff.mpr ⟨hr, decide_eq_true rfl⟩
  simp [Receiver.orderly, hq, hcurrent] at hl

theorem BooksMove.summed (hm : BooksMove p l b) (hl : p.orderly l = true)
    (hrec : Recorded p.books p.received) (hb : Booked p.books)
    (h : Summed p.books p.received) : Summed b (p.received ++ p.taken l) := by
  have hknown : ∀ session, p.books.receive = some session →
      session.sessionId ∈ p.books.accepted.map Prod.fst :=
    fun session hr => List.mem_map_of_mem (hrec.receive session hr)
  have haborted : ∀ session, p.books.receive = some session →
      .prepareUploadAborted session.sessionId ∉ p.taken l :=
    fun session hr => not_aborted_of_orderly hl hr
  cases hm with
  | still hend =>
      refine h.append fun session hr => ⟨fun reason hm => ?_, haborted session hr⟩
      obtain ⟨rfl, rest, hq⟩ := mem_taken hm
      have hcurrent : p.current session.sessionId = some session :=
        Option.filter_eq_some_iff.mpr ⟨hr, decide_eq_true rfl⟩
      rw [hend _ reason (taken_event hq)] at hcurrent
      cases hcurrent
  | start hacc hnew _ hunaborted hunended =>
      have hnone := no_receive_of_orderly hl hacc
      have happ : Summed p.books (p.received ++ p.taken l) := by
        refine h.append fun session hr => ?_
        rw [show p.books.receive = none from hnone] at hr
        cases hr
      exact happ.start hnone hnew hunaborted hunended _ _ _
  | @upload l sid fid file tx session path htaken hcurrent =>
      obtain ⟨hr, -⟩ := current_eq_some hcurrent
      have happ : Summed p.books (p.received ++ p.taken l) := by
        refine h.append fun session hr => ⟨fun reason hm => ?_, haborted session hr⟩
        rw [htaken] at hm
        cases List.mem_singleton.mp hm
      let session' : ReceiveSession :=
        { session with inProgress := session.inProgress.insert fid }
      have hid : session'.sessionId = session.sessionId := rfl
      have hupdate := happ.update hr hid rfl
        (p.books.entries ++ [⟨session.sessionId, fid, path, none⟩])
      exact ⟨hupdate.covered, hupdate.known, hupdate.once, hupdate.live, hupdate.ended,
        hupdate.shown⟩
  | @ended l sid reason session htaken hcurrent =>
      obtain ⟨hr, rfl⟩ := current_eq_some hcurrent
      rw [htaken]
      refine (h.ending hr reason).finish ?_ (hb.ending hr reason)
      rintro _ ⟨⟩
      exact hknown session hr
  | @result k err e result he hnone =>
      obtain ⟨session, hr, hid, hresult⟩ := hb.current he hnone
      rw [hresult, show p.taken (.result k err) = [] from rfl, List.append_nil]
      refine (h.settle hr hid result).finish ?_ (hb.settle he hnone hr hid result)
      rintro _ ⟨⟩
      rw [(session.settle_same e.fileId result).1]
      exact hknown session hr
  | cancel hr =>
      rw [show p.taken .ctrlC = [] from rfl, List.append_nil]
      exact h.report hr (hb.counters _ hr).1 (.inl rfl) (hknown _ hr)

/-- No step leaves a session in hand that has ended with nothing outstanding. -/
theorem BooksMove.unfinished (hm : BooksMove p l b) (hb : Booked p.books)
    (h : p.books.Unfinished) : b.Unfinished := by
  cases hm with
  | still => exact h
  | start =>
      rintro _ ⟨⟩
      exact .inl rfl
  | upload _ hcurrent =>
      rintro _ ⟨⟩
      refine .inr (List.ne_nil_of_mem (List.mem_insert_self))
  | ended => exact Books.finish_unfinished _
  | result he hnone =>
      obtain ⟨session, -, -, hresult⟩ := hb.current he hnone
      rw [hresult]
      exact Books.finish_unfinished _
  | cancel => rintro _ ⟨⟩

/-- What is known in every state of an orderly run. -/
structure Orderly (X : Externals) (p : Receiver) : Prop where
  asked : Asked X p
  booked : Booked p.books
  summed : Summed p.books p.received
  unfinished : p.books.Unfinished

variable {X : Externals} {P : SavePlatform} {p' : Receiver}

theorem Orderly.step (h : Orderly X p) (hl : p.orderly l = true)
    (hst : receiverStep X P p l = some p') : Orderly X p' := by
  have hm := h.asked.moves hst
  have hrec := h.asked.recorded
  constructor
  · exact h.asked.step hm
  · exact hm.books.booked (kept_of_orderly hl) hrec h.booked
  · rw [hm.received]
    exact hm.books.summed hl hrec h.booked h.summed
  · exact hm.books.unfinished h.booked h.unfinished

theorem orderly_run {destination : String} {paired : List String} {web : Option WebMode}
    {directory : List String}
    (h : Run (receiverStep X P) (fun p l => p.orderly l = true)
      (.init destination paired web directory) p) : Orderly X p := by
  induction h with
  | refl =>
      refine ⟨.init destination paired web directory, .init destination paired web directory,
        .init destination paired web directory, ?_⟩
      rintro _ ⟨⟩
  | snoc _ hl hst ih => exact ih.step hl hst

end Steps

/-! ## §3  The reports are right -/

section Reports

variable {X : Externals} {P : SavePlatform} {p : Receiver}

/-- Nothing is outstanding of a session that was reported. -/
theorem Orderly.complete (h : Orderly X p) {sid : String} (hsid : sid ∈ p.reported.map Prod.fst)
    {a : Attempt} (ha : a ∈ p.attempts) (hasid : a.sessionId = sid) : a.result ≠ none := by
  intro hnone
  have hentry : a.entry ∈ p.books.entries := List.mem_map_of_mem ha
  obtain ⟨session, hr, hid, -⟩ := h.booked.outstanding a.entry hentry hnone
  refine (h.summed.live session hr).unreported ?_
  rw [hid.trans hasid]
  exact hsid

/-- A session that has ended, with all its results in, is not in hand any more. -/
theorem Orderly.is_reported (h : Orderly X p) {sid : String} {files : AssocMap String FileDto}
    {reason : SessionEndReasonV2} (hacc : (sid, files) ∈ p.accepted)
    (hend : .sessionEnd sid reason ∈ p.received)
    (hin : ∀ a ∈ p.attempts, a.sessionId = sid → a.result ≠ none) :
    sid ∈ p.reported.map Prod.fst := by
  rcases h.summed.covered sid (List.mem_map_of_mem hacc) with ⟨session, hr, rfl⟩ | hm
  · exfalso
    have hknown := (h.summed.live session hr).ending reason hend
    obtain ⟨fid, hfid⟩ := List.exists_mem_of_ne_nil _
      ((h.unfinished session hr).resolve_left hknown)
    obtain ⟨e, he, hnone, hkey⟩ := h.booked.awaited session hr fid hfid
    obtain ⟨a, ha, rfl⟩ := List.mem_map.mp he
    exact hin a ha (Prod.mk.inj hkey).1 hnone
  · exact hm

theorem Orderly.summarized (h : Orderly X p) : Summarized p where
  once := h.summed.once
  reported _ _ _ hacc hend hin :=
    List.count_eq_one_of_mem h.summed.once (h.is_reported hacc hend hin)
  ended := h.summed.ended
  complete sid _ hm a ha hasid := h.complete (List.mem_map_of_mem hm) ha hasid
  attributed := by
    have hperm : p.counted.Perm ((p.attempts.map Attempt.entry).filterMap Entry.delivered) :=
      h.booked.counted
    rw [List.filterMap_map] at hperm
    exact hperm
  shown := h.summed.shown
  aborted := by
    intro sid hab
    cases hcurrent : p.current sid with
    | none => rfl
    | some session =>
        obtain ⟨hr, rfl⟩ := current_eq_some hcurrent
        exact absurd hab (h.summed.live session hr).aborted

end Reports

/-- **The reports are right** in every run in which no session is replaced or aborted
while it is the current one, no file is announced again that is in progress, and none is
cancelled while one is. -/
theorem receive_summarized (X : Externals) (P : SavePlatform) {destination : String}
    {paired : List String} {web : Option WebMode} {directory : List String} {p : Receiver}
    (h : Run (receiverStep X P) (fun p l => p.orderly l = true)
      (.init destination paired web directory) p) : Summarized p :=
  (orderly_run h).summarized

/-! ## §4  An abort that comes after the decision -/

/-- A session of one file, received and reported. -/
theorem receive_summarized_once : ∃ p,
    Run Sample.step (fun p l => p.orderly l = true) Sample.receiver p ∧
      p.reported = [("", .received "Sender" 1 3 0)] ∧ Summarized p := by
  obtain ⟨p, hp, hcheck⟩ := exists_of_exec_any Sample.step Sample.receiver
    (Sample.request ++ Sample.acceptance ++ Sample.upload 1 0 .success ++
      [.core (.task 1 .go), .event, .result 0 ""])
    (fun p => p.reported = [("", .received "Sender" 1 3 0)]) rfl
  have hrun : Run Sample.step (fun p l => p.orderly l = true) Sample.receiver p :=
    run_of_exec hp (by decide)
  exact ⟨p, hrun, of_decide_eq_true hcheck, receive_summarized _ _ hrun⟩

/-- The user accepts, and the sender's request is dropped before its handler has read
the decision: the news of the abort is taken, and the session stays. -/
theorem receive_not_summarized : ∃ p, Reach Sample.step Sample.receiver p ∧
    p.accepted.map Prod.fst = [""] ∧ .prepareUploadAborted "" ∈ p.received ∧
    (p.app.receive.map fun session => session.sessionId) = some "" ∧ ¬ Summarized p := by
  obtain ⟨p, hp, hcheck⟩ := exists_of_exec_any Sample.step Sample.receiver
    (Sample.request ++ [.answer .accept, .core (.task 0 .drop), .core (.task 1 .go),
      .core (.task 1 .go), .event])
    (fun p => p.accepted.map Prod.fst = [""] ∧
      .prepareUploadAborted "" ∈ p.received ∧
      (p.app.receive.map fun session => session.sessionId) = some "") rfl
  obtain ⟨haccepted, hmem, hreceive⟩ := of_decide_eq_true hcheck
  refine ⟨p, reach_of_exec hp, haccepted, hmem, hreceive, fun h => ?_⟩
  obtain ⟨session, hr, hid⟩ := Option.map_eq_some_iff.mp hreceive
  have hcurrent : p.current "" = some session :=
    Option.filter_eq_some_iff.mpr ⟨hr, decide_eq_true hid⟩
  rw [h.aborted "" hmem] at hcurrent
  cases hcurrent

end Cli

end FireBoxTransfer
