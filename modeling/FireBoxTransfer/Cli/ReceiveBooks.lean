import FireBoxTransfer.Cli.ReceiveRuns

/-!
# Outstanding results

As long as a session is not replaced or cancelled while its files are on their way,
and no file is announced again while it is, the books are exact: the results that are
outstanding are those of the files in progress of the current session, and what was
counted are the results that came in.
-/

namespace FireBoxTransfer

open TaskPool Runs

namespace Cli

/-! ## §1  The books are exact -/

/-- What is counted for an upload once its result is in. -/
def Entry.delivered (e : Entry) : Option (String × String × Bool) :=
  e.result.map fun result => (e.sessionId, e.fileId, result.toBool)

/-- How many results of this kind the session has counted. -/
def countOf (counted : List (String × String × Bool)) (sid : String) (success : Bool) : ℕ :=
  counted.countP fun c => c.1 = sid && c.2.2 == success

/-- The outstanding results are those of the files in progress of the current session,
each one once; what came in was counted, and the counters of the current session say
how often. -/
structure Booked (b : Books) : Prop where
  outstanding : ∀ e ∈ b.entries, e.result = none → ∃ session, b.receive = some session ∧
    session.sessionId = e.sessionId ∧ e.fileId ∈ session.inProgress
  awaited : ∀ session, b.receive = some session → ∀ fid ∈ session.inProgress,
    ∃ e ∈ b.entries, e.result = none ∧ e.key = (session.sessionId, fid)
  single : ((b.entries.filter fun e => e.result.isNone).map Entry.key).Nodup
  counted : b.counted.Perm (b.entries.filterMap Entry.delivered)
  counters : ∀ session, b.receive = some session →
    session.finishedFiles = countOf b.counted session.sessionId true ∧
      session.failedFiles = countOf b.counted session.sessionId false

/-- The current session has no file in progress. -/
def Receiver.settled (p : Receiver) : Bool :=
  p.app.receive.all fun session => session.inProgress.isEmpty

/-- A step that does not lose or confuse a result: no session is replaced or cancelled
while a file is in progress, and no file is announced again that is in progress. -/
structure Kept (p : Receiver) (l : ReceiverLabel) : Prop where
  accept : p.accepts l = true → p.settled = true
  cancel : l = .ctrlC → p.settled = true
  upload : ∀ {sid fid file tx session}, p.taken l = [.fileUpload sid fid file tx] →
    p.current sid = some session → fid ∉ session.inProgress

section Books

variable {b : Books} {sid fid : String}

theorem settled_iff {p : Receiver} : p.settled = true ↔
    ∀ session, p.app.receive = some session → session.inProgress = [] := by
  unfold Receiver.settled
  cases p.app.receive with
  | none => simp
  | some session => simp

/-- With no file in progress nothing is outstanding. -/
theorem Booked.all_in (h : Booked b)
    (hs : ∀ session, b.receive = some session → session.inProgress = []) :
    ∀ e ∈ b.entries, e.result ≠ none := by
  intro e he hnone
  obtain ⟨session, hr, -, hfid⟩ := h.outstanding e he hnone
  rw [hs session hr] at hfid
  cases hfid

/-- The session is cleared when nothing is outstanding. -/
theorem Booked.clear (h : Booked b)
    (hs : ∀ session, b.receive = some session → session.inProgress = [])
    (reported : List (String × LogLine)) : Booked { b with receive := none, reported } where
  outstanding e he hnone := absurd hnone (h.all_in hs e he)
  awaited _ hr := by cases hr
  single := h.single
  counted := h.counted
  counters _ hr := by cases hr

theorem Booked.finish (h : Booked b) : Booked b.finish := by
  rcases b.finish_cases with ⟨hsame, -⟩ | ⟨session, reason, hr, -, hnil, hfinish⟩
  · rw [hsame]
    exact h
  · rw [hfinish]
    refine h.clear ?_ _
    intro session' hr'
    obtain rfl := Option.some.inj (hr.symm.trans hr')
    exact hnil

/-- What a session has counted came from its own uploads. -/
theorem Booked.mem_counted (h : Booked b) {c : String × String × Bool} (hc : c ∈ b.counted) :
    ∃ e ∈ b.entries, e.key = (c.1, c.2.1) ∧ ∃ result, e.result = some result ∧
      result.toBool = c.2.2 := by
  obtain ⟨e, he, hd⟩ := List.mem_filterMap.mp (h.counted.mem_iff.mp hc)
  obtain ⟨result, hr, rfl⟩ := Option.map_eq_some_iff.mp hd
  exact ⟨e, he, rfl, result, hr, rfl⟩

theorem Booked.counted_of_result (h : Booked b) {e : Entry} (he : e ∈ b.entries)
    {result : Except String Unit} (hr : e.result = some result) :
    (e.sessionId, e.fileId, result.toBool) ∈ b.counted := by
  refine h.counted.mem_iff.mpr (List.mem_filterMap.mpr ⟨e, he, ?_⟩)
  rw [Entry.delivered, hr]
  rfl

theorem Booked.count_eq_zero (h : Booked b) (hsid : ∀ e ∈ b.entries, e.sessionId ≠ sid)
    (success : Bool) : countOf b.counted sid success = 0 := by
  rw [countOf, List.countP_eq_zero]
  intro c hc hcount
  obtain ⟨e, he, hkey, -⟩ := h.mem_counted hc
  have hcid : c.1 = sid := of_decide_eq_true (Bool.and_eq_true_iff.mp hcount).1
  exact hsid e he ((Prod.mk.inj hkey).1.trans hcid)

/-! ## §2  A result comes in -/

theorem countOf_append (counted : List (String × String × Bool)) (sid fid : String)
    (result success : Bool) : countOf (counted ++ [(sid, fid, result)]) sid success =
      countOf counted sid success + if result = success then 1 else 0 := by
  rw [countOf, List.countP_append, ← countOf]
  cases result <;> cases success <;> simp

/-- What was outstanding besides entry `e` has another file, if it has its session. -/
theorem other_file {xs ys : List Entry} {e e' : Entry}
    (h : ((List.filter (fun e => e.result.isNone) (xs ++ e :: ys)).map Entry.key).Nodup)
    (hnone : e.result = none) (he' : e' ∈ xs ++ ys) (hnone' : e'.result = none) :
    e'.key ≠ e.key := by
  rw [List.filter_append, List.filter_cons_of_pos (by rw [hnone]; rfl), List.map_append,
    List.map_cons] at h
  obtain ⟨hnot, -⟩ := List.nodup_cons.mp (List.nodup_middle.mp h)
  intro hkey
  refine hnot ?_
  rw [← hkey, ← List.map_append, ← List.filter_append]
  exact List.mem_map_of_mem (List.mem_filter.mpr ⟨he', by rw [hnone']; rfl⟩)

/-- The result of an entry that was outstanding is counted for its session. -/
theorem Booked.settle (h : Booked b) {k : ℕ} {e : Entry} (he : b.entries[k]? = some e)
    (hnone : e.result = none) {session : ReceiveSession} (hr : b.receive = some session)
    (hid : session.sessionId = e.sessionId) (result : Except String Unit) :
    Booked (b.settle k e session result) := by
  unfold Books.settle
  -- the entries around it are as they were
  obtain ⟨hk, rfl⟩ := List.getElem?_eq_some_iff.mp he
  obtain ⟨xs, ys, hentries, -, hset⟩ : ∃ xs ys, b.entries = xs ++ b.entries[k] :: ys ∧
      xs.length = k ∧ b.entries.set k ((b.entries[k]).settle result) =
        xs ++ (b.entries[k]).settle result :: ys := List.exists_of_set hk
  obtain ⟨hsid, -, -, hprogress⟩ := session.settle_same b.entries[k].fileId result
  generalize b.entries[k] = e at *
  have hother : ∀ e' ∈ xs ++ ys, e'.result = none → e'.key ≠ e.key := by
    intro e' he' hnone'
    have hsingle := h.single
    rw [hentries] at hsingle
    exact other_file hsingle hnone he' hnone'
  have hsub : ∀ e' ∈ xs ++ ys, e' ∈ b.entries := by
    intro e' he'
    rw [hentries]
    rcases List.mem_append.mp he' with he' | he'
    · exact List.mem_append_left _ he'
    · exact List.mem_append_right _ (List.mem_cons_of_mem _ he')
  have hback : ∀ e' ∈ xs ++ e.settle result :: ys, e'.result = none → e' ∈ xs ++ ys := by
    intro e' he' hnone'
    rcases List.mem_append.mp he' with he' | he'
    · exact List.mem_append_left _ he'
    · rcases List.mem_cons.mp he' with rfl | he'
      · cases hnone'
      · exact List.mem_append_right _ he'
  rw [hset]
  constructor
  case outstanding =>
    intro e' he' hnone'
    have hold := hback e' he' hnone'
    obtain ⟨session', hr', hid', hfid'⟩ := h.outstanding e' (hsub e' hold) hnone'
    obtain rfl := Option.some.inj (hr.symm.trans hr')
    refine ⟨_, rfl, hsid.trans hid', ?_⟩
    rw [hprogress, List.mem_filter]
    refine ⟨hfid', decide_eq_true ?_⟩
    intro hsame
    exact hother e' hold hnone' (Prod.ext (hid'.symm.trans hid) hsame)
  case awaited =>
    rintro _ ⟨⟩ fid hmem'
    rw [hprogress, List.mem_filter] at hmem'
    obtain ⟨e', he', hnone', hkey⟩ := h.awaited session hr fid hmem'.1
    have hne : fid ≠ e.fileId := of_decide_eq_true hmem'.2
    refine ⟨e', ?_, hnone', ?_⟩
    · rw [hentries] at he'
      rcases List.mem_append.mp he' with he' | he'
      · exact List.mem_append_left _ he'
      · rcases List.mem_cons.mp he' with rfl | he'
        · exact absurd (Prod.mk.inj hkey).2.symm hne
        · exact List.mem_append_right _ (List.mem_cons_of_mem _ he')
    · rw [hsid]
      exact hkey
  case single =>
    refine List.Nodup.sublist ?_ h.single
    rw [hentries]
    refine List.Sublist.map _ ?_
    rw [List.filter_append, List.filter_append, List.filter_cons_of_neg (by simp [Entry.settle])]
    exact (List.Sublist.refl _).append (List.Sublist.filter _ (List.sublist_cons_self _ _))
  case counted =>
    have hold : e.delivered = none := by rw [Entry.delivered, hnone]; rfl
    have hnew : (e.settle result).delivered = some (e.sessionId, e.fileId, result.toBool) := rfl
    have hperm := h.counted
    rw [hentries, List.filterMap_append, List.filterMap_cons_none hold] at hperm
    rw [List.filterMap_append, List.filterMap_cons_some hnew]
    have hlast := hperm.append_right [(e.sessionId, e.fileId, result.toBool)]
    exact hlast.trans ((List.perm_append_singleton _ _).trans List.perm_middle.symm)
  case counters =>
    rintro _ ⟨⟩
    obtain ⟨hfinished, hfailed⟩ := h.counters session hr
    rw [hsid]
    show _ = countOf (b.counted ++ _) _ _ ∧ _ = countOf (b.counted ++ _) _ _
    rw [hid, countOf_append, countOf_append, ← hid, ← hfinished, ← hfailed]
    cases result with
    | ok => exact ⟨rfl, rfl⟩
    | error err => exact ⟨rfl, rfl⟩

/-- The session of an outstanding entry is the current one. -/
theorem Booked.current (h : Booked b) {k : ℕ} {e : Entry} (he : b.entries[k]? = some e)
    (hnone : e.result = none) : ∃ session, b.receive = some session ∧
      session.sessionId = e.sessionId ∧ ∀ result,
        b.result k e result = (b.settle k e session result).finish := by
  obtain ⟨session, hr, hid, -⟩ := h.outstanding e (List.mem_of_getElem? he) hnone
  refine ⟨session, hr, hid, fun result => ?_⟩
  have hcurrent : b.current e.sessionId = some session :=
    Option.filter_eq_some_iff.mpr ⟨hr, decide_eq_true hid⟩
  rw [Books.result, hcurrent]

theorem Booked.result (h : Booked b) {k : ℕ} {e : Entry} (he : b.entries[k]? = some e)
    (hnone : e.result = none) (result : Except String Unit) : Booked (b.result k e result) := by
  obtain ⟨session, hr, hid, hresult⟩ := h.current he hnone
  rw [hresult]
  exact (h.settle he hnone hr hid result).finish

/-! ## §3  Every step keeps them -/

/-- A file of the current session is given a path. -/
theorem Booked.upload (h : Booked b) {session : ReceiveSession} {path : String}
    (hr : b.receive = some session) (hfid : fid ∉ session.inProgress) :
    Booked (b.upload session fid path) where
  outstanding e he hnone := by
    rcases List.mem_append.mp he with he | he
    · obtain ⟨session', hr', hid, hfid'⟩ := h.outstanding e he hnone
      obtain rfl := Option.some.inj (hr.symm.trans hr')
      exact ⟨_, rfl, hid, List.mem_insert_of_mem hfid'⟩
    · obtain rfl := List.mem_singleton.mp he
      exact ⟨_, rfl, rfl, List.mem_insert_self⟩
  awaited := by
    rintro _ ⟨⟩ fid' hmem
    rcases List.mem_insert_iff.mp hmem with rfl | hmem
    · exact ⟨_, List.mem_append_right _ (List.mem_singleton_self _), rfl, rfl⟩
    · obtain ⟨e, he, hnone, hkey⟩ := h.awaited session hr fid' hmem
      exact ⟨e, List.mem_append_left _ he, hnone, hkey⟩
  single := by
    rw [Books.upload, List.filter_append, List.map_append]
    refine List.nodup_append.mpr ⟨h.single, List.nodup_singleton _, ?_⟩
    intro key hkey key' hkey'
    obtain ⟨e, he, rfl⟩ := List.mem_map.mp hkey
    obtain ⟨he, hnone⟩ := List.mem_filter.mp he
    obtain rfl := List.mem_singleton.mp hkey'
    intro hsame
    -- it would be in progress already
    obtain ⟨session', hr', -, hfid'⟩ :=
      h.outstanding e he (Option.isNone_iff_eq_none.mp hnone)
    obtain rfl := Option.some.inj (hr.symm.trans hr')
    rw [(Prod.mk.inj hsame).2] at hfid'
    exact hfid hfid'
  counted := by
    rw [Books.upload, List.filterMap_append]
    change b.counted.Perm (b.entries.filterMap Entry.delivered ++ [])
    rw [List.append_nil]
    exact h.counted
  counters := by
    rintro _ ⟨⟩
    exact h.counters session hr

/-- The server has reported the end of the current session. -/
theorem Booked.ending (h : Booked b) {session : ReceiveSession} (hr : b.receive = some session)
    (reason : SessionEndReasonV2) :
    Booked { b with receive := some { session with ended := some reason } } where
  outstanding e he hnone := by
    obtain ⟨session', hr', hid, hfid⟩ := h.outstanding e he hnone
    obtain rfl := Option.some.inj (hr.symm.trans hr')
    exact ⟨_, rfl, hid, hfid⟩
  awaited := by
    rintro _ ⟨⟩
    exact h.awaited session hr
  single := h.single
  counted := h.counted
  counters := by
    rintro _ ⟨⟩
    exact h.counters session hr

theorem Booked.ended (h : Booked b) {session : ReceiveSession} (hr : b.receive = some session)
    (reason : SessionEndReasonV2) : Booked (b.ended session reason) :=
  (h.ending hr reason).finish

/-- A session that was never accepted before starts. -/
theorem Booked.start (h : Booked b)
    (hs : ∀ session, b.receive = some session → session.inProgress = [])
    (hsid : ∀ e ∈ b.entries, e.sessionId ≠ sid) («alias» : String) (sender : SenderTarget)
    (files : AssocMap String FileDto) :
    Booked (b.start (.new sid «alias» sender files)) where
  outstanding e he hnone := absurd hnone (h.all_in hs e he)
  awaited := by
    rintro _ ⟨⟩ fid hmem
    cases hmem
  single := h.single
  counted := h.counted
  counters := by
    rintro _ ⟨⟩
    exact ⟨(h.count_eq_zero hsid true).symm, (h.count_eq_zero hsid false).symm⟩

theorem BooksMove.booked {p : Receiver} {l : ReceiverLabel} (hm : BooksMove p l b)
    (hk : Kept p l) (hrec : Recorded p.books p.received) (h : Booked p.books) : Booked b := by
  cases hm with
  | still => exact h
  | start hl hnew =>
      refine h.start (settled_iff.mp (hk.accept hl)) ?_ _ _ _
      rintro e he rfl
      exact hnew (hrec.entries e he)
  | upload htaken hcurrent =>
      exact h.upload (current_eq_some hcurrent).1 (hk.upload htaken hcurrent)
  | ended _ hcurrent => exact h.ended (current_eq_some hcurrent).1 _
  | result he hnone => exact h.result he hnone _
  | cancel => exact h.clear (settled_iff.mp (hk.cancel rfl)) _

theorem Booked.init (destination : String) (paired : List String) (web : Option WebMode)
    (directory : List String) :
    Booked (Receiver.init destination paired web directory).books where
  outstanding e he := absurd he List.not_mem_nil
  awaited := by rintro _ ⟨⟩
  single := List.nodup_nil
  counted := .refl _
  counters := by rintro _ ⟨⟩

end Books

/-! ## §4  What the server did and what the application was told -/

/-- Nothing becomes of an upload any more once something became of it or its result
was handed over, and a result says that the upload succeeded if it did. -/
structure Heard (p : Receiver) : Prop where
  bound : ∀ a ∈ p.attempts, a.targetTx < p.core.shared.targets.length
  done : ∀ a ∈ p.attempts, a.outcome ≠ none ∨ a.result ≠ none → Unheld p.core a.targetTx
  told : ∀ a ∈ p.attempts, ∀ result, a.result = some result →
    (result.toBool = true ↔ a.outcome = some .success)

section Heard

variable {X : Externals} {p p' : Receiver} {l : ReceiverLabel} {c c' : ServerPool}

theorem targets_run {ok : ServerPool → ServerLabel → Prop}
    (hc : Reach (serverStep X) (.init none true 16) c) (h : Run (serverStep X) ok c c') :
    c.shared.targets.length ≤ c'.shared.targets.length ∧
      ∀ {tx}, Unheld c tx → Unheld c' tx := by
  induction h with
  | refl => exact ⟨Nat.le_refl _, fun hu => hu⟩
  | snoc hrun _ hst ih =>
      have hholders := targetHolders_reach (hc.trans hrun.reach)
      exact ⟨Nat.le_trans ih.1 (targets_length_step hholders hst),
        fun hu => (ih.2 hu).step hholders hst⟩

theorem any_holds_iff {tx : ℕ} : c.tasks.any (Task.holdsTarget tx) = false ↔
    ∀ t ∈ c.tasks, t.holdsTarget tx = false := by
  rw [List.any_eq_false]
  exact forall₂_congr fun t _ => Bool.eq_false_iff.symm

/-- A result that comes out of the channel says what became of the upload, and nobody
has its target any more. -/
theorem resultOf_eq_some {a : Attempt} {err : String} {result : Except String Unit}
    (h : p.resultOf a err = some result) (hbound : a.targetTx < p.core.shared.targets.length)
    (hdone : a.outcome ≠ none → Unheld p.core a.targetTx) :
    Unheld p.core a.targetTx ∧ (result.toBool = true ↔ a.outcome = some .success) := by
  unfold Receiver.resultOf at h
  split at h
  · rename_i ho
    cases h
    exact ⟨hdone (by simp [ho]), by simp [ho, Except.toBool]⟩
  · rename_i ho
    cases h
    exact ⟨hdone (by simp [ho]), by simp [ho, Except.toBool]⟩
  · rename_i ho
    cases h
    exact ⟨hdone (by simp [ho]), by simp [ho, Except.toBool]⟩
  · rename_i ho
    split_ifs at h with hany
    cases h
    exact ⟨⟨hbound, any_holds_iff.mp (Bool.eq_false_iff.mpr hany)⟩, by simp [ho, Except.toBool]⟩

/-- What a step of the server does to an upload: it leaves its result alone, and if it
gives it an outcome, then its handler had the target and has it no more. -/
theorem follow_cases {m : ServerLabel} (hc : Reach (serverStep X) (.init none true 16) c)
    (hst : serverStep X c m = some c') (a : Attempt) :
    (a.follow c c' m).targetTx = a.targetTx ∧ (a.follow c c' m).result = a.result ∧
      ((a.follow c c' m).outcome = a.outcome ∨
        ¬ Unheld c a.targetTx ∧ Unheld c' a.targetTx) := by
  unfold Attempt.follow
  split
  · rename_i i result
    split
    · rename_i ctx target sha ht
      split_ifs with htx
      · refine ⟨rfl, rfl, .inr ⟨fun hu => ?_, ?_⟩⟩
        · have hfalse := hu.2 _ (List.mem_of_getElem? ht)
          rw [htx] at hfalse
          exact absurd (decide_eq_true rfl) (Bool.eq_false_iff.mp hfalse)
        · rw [htx]
          exact unheld_saved (targetHolders_reach hc) ht hst
      · exact ⟨rfl, rfl, .inl rfl⟩
    · exact ⟨rfl, rfl, .inl rfl⟩
  · split
    · split_ifs <;> exact ⟨rfl, rfl, .inl rfl⟩
    · exact ⟨rfl, rfl, .inl rfl⟩
  · exact ⟨rfl, rfl, .inl rfl⟩

theorem Heard.step (h : Heard p) (ha : Asked X p) (hm : Moves X p l p') : Heard p' := by
  have hreach := ha.served.reach
  obtain ⟨hlen, hunheld⟩ := targets_run hreach hm.run
  have hattempts := hm.attempts
  generalize hp' : p'.attempts = attempts at hattempts
  -- an upload that is as before, but for the file it is written to
  have hsame : ∀ a ∈ p.attempts, ∀ a' : Attempt, a'.targetTx = a.targetTx →
      a'.outcome = a.outcome → a'.result = a.result →
      a'.targetTx < p'.core.shared.targets.length ∧
        (a'.outcome ≠ none ∨ a'.result ≠ none → Unheld p'.core a'.targetTx) ∧
        ∀ result, a'.result = some result →
          (result.toBool = true ↔ a'.outcome = some .success) := by
    intro a hmem a' htx houtcome hresult
    rw [htx, houtcome, hresult]
    exact ⟨Nat.lt_of_lt_of_le (h.bound a hmem) hlen, fun hd => hunheld (h.done a hmem hd),
      h.told a hmem⟩
  suffices hall : ∀ a ∈ p'.attempts, a.targetTx < p'.core.shared.targets.length ∧
      (a.outcome ≠ none ∨ a.result ≠ none → Unheld p'.core a.targetTx) ∧
      ∀ result, a.result = some result → (result.toBool = true ↔ a.outcome = some .success) from
    ⟨fun a hmem => (hall a hmem).1, fun a hmem => (hall a hmem).2.1,
      fun a hmem => (hall a hmem).2.2⟩
  rw [hp']
  intro a' ha'
  cases hattempts with
  | same => exact hsame a' ha' a' rfl rfl rfl
  | follow hst =>
      obtain ⟨a, hmem, rfl⟩ := List.mem_map.mp ha'
      obtain rfl := Option.some.inj (hst.symm.trans (hm.server _ rfl).2)
      obtain ⟨htx, hresult, houtcome⟩ := follow_cases hreach hst a
      rcases houtcome with houtcome | ⟨hheld, hfree⟩
      · exact hsame a hmem _ htx houtcome hresult
      · -- the handler was at work, so nothing was told so far
        have hnone : a.result = none := by
          by_contra hsome
          exact hheld (h.done a hmem (.inr hsome))
        rw [htx, hresult, hnone]
        exact ⟨Nat.lt_of_lt_of_le (h.bound a hmem) hlen, fun _ => hfree, by simp⟩
  | add hl hevent =>
      rcases List.mem_append.mp ha' with ha' | ha'
      · exact hsame a' ha' a' rfl rfl rfl
      · obtain rfl := List.mem_singleton.mp ha'
        have hlt := (targetHolders_reach hreach).glob _ _ _ _ hevent
        exact ⟨Nat.lt_of_lt_of_le hlt hlen, by simp, by simp⟩
  | create hk =>
      rcases List.mem_or_eq_of_mem_set ha' with ha' | rfl
      · exact hsame a' ha' a' rfl rfl rfl
      · exact hsame _ (List.mem_of_getElem? hk) _ rfl rfl rfl
  | @result k err a result hk hnone hresult =>
      rcases List.mem_or_eq_of_mem_set ha' with ha' | rfl
      · exact hsame a' ha' a' rfl rfl rfl
      · have hmem := List.mem_of_getElem? hk
        obtain ⟨hfree, htold⟩ := resultOf_eq_some hresult (h.bound a hmem)
          (fun ho => h.done a hmem (.inl ho))
        refine ⟨Nat.lt_of_lt_of_le (h.bound a hmem) hlen, fun _ => hunheld hfree, ?_⟩
        rintro _ ⟨⟩
        exact htold

theorem Heard.init (destination : String) (paired : List String) (web : Option WebMode)
    (directory : List String) : Heard (.init destination paired web directory) := by
  constructor
  all_goals
    intro a ha
    cases ha

end Heard

end Cli

end FireBoxTransfer
