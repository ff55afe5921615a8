import FireBoxTransfer.Cli.ReceiveBooks
import FireBoxTransfer.Files.Destinations

/-!
# What a received session adds up to

Every result is counted, whatever attempt of a file it belongs to, and every attempt is
written to a path of its own. So the counters are right as long as the sender begins no
file twice; a checksum mismatch, after which it may, makes them wrong.
-/

namespace FireBoxTransfer

open TaskPool Runs

namespace Cli

/-! ## §1  The accounts -/

/-- The last attempt of a file. -/
def Receiver.lastAttempt (p : Receiver) (sid fid : String) : Option Attempt :=
  (p.attempts.filter fun a => a.sessionId = sid ∧ a.fileId = fid).getLast?

/-- The results that were counted for a session. -/
def Receiver.countedOf (p : Receiver) (sid : String) : List (String × String × Bool) :=
  p.counted.filter fun c => c.1 = sid

/-- Each file is counted at most once, the counters of the session are what was counted
and at most the number of its files; a file whose last attempt succeeded is counted as
finished and not as failed, as soon as the result is in, and the file of this attempt is
the only one that was created for it. -/
structure Accounted (p : Receiver) : Prop where
  once : (p.counted.map fun c => (c.1, c.2.1)).Nodup
  counters : ∀ session, p.app.receive = some session →
    session.finishedFiles + session.failedFiles = (p.countedOf session.sessionId).length
  bounded : ∀ sid files, (sid, files) ∈ p.accepted →
    (p.countedOf sid).length ≤ files.entries.length
  finished : ∀ sid fid a, p.lastAttempt sid fid = some a → a.outcome = some .success →
    a.result ≠ none → (sid, fid, true) ∈ p.counted ∧ (sid, fid, false) ∉ p.counted
  file : ∀ sid fid a, p.lastAttempt sid fid = some a → a.outcome = some .success →
    ∀ a' ∈ p.attempts, a'.sessionId = sid → a'.fileId = fid → a'.file = .created →
      a'.path = a.path

/-- A step that begins no file a second time, and that leaves a session only when none
of its files is on its way. -/
def Receiver.steady (p : Receiver) : ReceiverLabel → Bool
  | .core (.task i .go) => (p.core.tasks[i]?).all (firstAttempt p.core.shared.session)
  | .ctrlC => p.settled
  | l => !p.accepts l || p.settled

/-! ## §2  Files that are begun once -/

section Uploads

variable {X : Externals} {P : SavePlatform} {p p' : Receiver} {l : ReceiverLabel}
  {S : List String} {events : List ServerEventV2} {c c' : ServerPool}

/-- The server goes on by itself. -/
theorem uploadsOnce_external (h : UploadsOnce events c) (hs : Served X S events c)
    {m : ServerLabel} (hm : m.external = true) (hst : serverStep X c m = some c')
    (hfirst : ∀ i t, m = .task i .go → c.tasks[i]? = some t →
      firstAttempt c.shared.session t = true) :
    ∃ new, c'.shared.events.queue = c.shared.events.queue ++ new ∧
      UploadsOnce (events ++ new) c' := by
  rcases external_cases hm hst with ⟨i, t, a, o, rfl, ht, ho, rfl⟩ |
    ⟨e, s, ts, new, he, rfl, hnew, hqueue, -⟩
  · have hnews := hs.news t (List.mem_of_getElem? ht)
    obtain ⟨new, hemits, happ⟩ := taskStep_emits hnews ho
    refine ⟨new, happ, h.task hs.history
      ⟨ownership_reach hs.reach, ht, hnews, ho, hemits, happ⟩ (uploads_reach hs.reach) ?_⟩
    rintro rfl
    exact hfirst i t rfl ht
  · exact ⟨new, hqueue, h.env he hnew⟩

/-- The application uses the server. -/
theorem uploadsOnce_calls (h : UploadsOnce events c)
    (hrun : Run (serverStep X) (fun c m => m = .env .recv ∨ AppCall S c m) c c') :
    UploadsOnce events c' := by
  induction hrun with
  | refl => exact h
  | @snoc _ _ m _ hm hst ih =>
      cases m with
      | task i a =>
          rcases hm with hm | hm
          · cases hm
          · exact hm.elim
      | env e =>
          obtain ⟨s, ts, he, rfl⟩ := poolStep_env.mp hst
          rw [← List.append_nil events]
          exact ih.env he (by simp)

theorem uploadsOnce_moves
    (h : UploadsOnce (p.received ++ p.core.shared.events.queue) p.core) (ha : Asked X p)
    (hm : Moves X p l p') (hl : p.steady l = true) :
    UploadsOnce (p'.received ++ p'.core.shared.events.queue) p'.core := by
  by_cases hcore : ∃ m, l = .core m
  · obtain ⟨m, rfl⟩ := hcore
    obtain ⟨hext, hst⟩ := hm.server m rfl
    obtain ⟨new, hqueue, hnew⟩ := uploadsOnce_external h ha.served hext hst (by
      rintro i t rfl ht
      simpa [Receiver.steady, ht] using hl)
    have hreceived : p'.received = p.received := by
      rw [hm.received]
      exact List.append_nil _
    rw [hqueue, hreceived, ← List.append_assoc]
    exact hnew
  · have hne : ∀ m, l ≠ .core m := fun m hl => hcore ⟨m, hl⟩
    rw [hm.events hne]
    exact uploadsOnce_calls h (hm.run.mono fun _ m hok => hok.resolve_left (hne m))

/-- A file is announced once, so it is not announced again while it is in progress. -/
theorem kept_of_steady (hl : p.steady l = true) (ha : Asked X p) (hb : Booked p.books)
    (hu : UploadsOnce (p.received ++ p.core.shared.events.queue) p.core) : Kept p l where
  accept hacc := by
    cases l with
    | event | answer =>
        simp only [Receiver.steady, Bool.or_eq_true, Bool.not_eq_true'] at hl
        rcases hl with hl | hl
        · rw [hl] at hacc
          cases hacc
        · exact hl
    | _ => cases hacc
  cancel := by
    rintro rfl
    exact hl
  upload := by
    intro sid fid file tx session htaken hcurrent hfid
    obtain ⟨hr, rfl⟩ := current_eq_some hcurrent
    obtain ⟨e, he, -, hkey⟩ := hb.awaited session hr fid hfid
    have hold : (session.sessionId, fid) ∈ p.received.filterMap ServerEventV2.upload? := by
      rw [← hkey]
      exact ha.recorded.uploads.subset (List.mem_map_of_mem he)
    have hnew : (session.sessionId, fid) ∈
        p.core.shared.events.queue.filterMap ServerEventV2.upload? := by
      refine mem_uploads.mpr ⟨file, tx, ?_⟩
      have hmem : .fileUpload session.sessionId fid file tx ∈ p.taken l := by
        rw [htaken]
        exact List.mem_singleton_self _
      cases l with
      | event => exact List.mem_of_mem_take hmem
      | _ => cases hmem
    have honce := hu.once
    rw [List.filterMap_append, List.nodup_append] at honce
    exact honce.2.2 _ hold _ hnew rfl

/-- What is known in every state of a steady run. -/
structure Steady (X : Externals) (p : Receiver) : Prop where
  asked : Asked X p
  heard : Heard p
  booked : Booked p.books
  uploads : UploadsOnce (p.received ++ p.core.shared.events.queue) p.core

theorem Steady.step (h : Steady X p) (hl : p.steady l = true)
    (hst : receiverStep X P p l = some p') : Steady X p' := by
  have hm := h.asked.moves hst
  have hkept := kept_of_steady hl h.asked h.booked h.uploads
  constructor
  · exact h.asked.step hm
  · exact h.heard.step h.asked hm
  · exact hm.books.booked hkept h.asked.recorded h.booked
  · exact uploadsOnce_moves h.uploads h.asked hm hl

theorem Steady.init (destination : String) (paired : List String) (web : Option WebMode)
    (directory : List String) : Steady X (.init destination paired web directory) where
  asked := .init destination paired web directory
  heard := .init destination paired web directory
  booked := .init destination paired web directory
  uploads := ⟨List.nodup_nil, fun hm => absurd hm List.not_mem_nil⟩

theorem steady_run {destination : String} {paired : List String} {web : Option WebMode}
    {directory : List String}
    (h : Run (receiverStep X P) (fun p l => p.steady l = true)
      (.init destination paired web directory) p) : Steady X p := by
  induction h with
  | refl => exact .init destination paired web directory
  | snoc _ hl hst ih => exact ih.step hl hst

end Uploads

/-! ## §3  The accounts are right -/

section Accounts

variable {X : Externals} {P : SavePlatform} {p : Receiver} {sid fid : String}

/-- What was counted are the keys of uploads. -/
theorem delivered_keys (entries : List Entry) :
    ((entries.filterMap Entry.delivered).map fun c => (c.1, c.2.1)).Sublist
      (entries.map Entry.key) := by
  induction entries with
  | nil => exact .slnil
  | cons e entries ih =>
      cases hr : e.result with
      | none =>
          rw [List.filterMap_cons_none (by simp [Entry.delivered, hr])]
          exact ih.cons _
      | some result =>
          have hd : e.delivered = some (e.sessionId, e.fileId, result.toBool) := by
            rw [Entry.delivered, hr]
            rfl
          rw [List.filterMap_cons_some hd]
          exact ih.cons_cons _

theorem countOf_total (counted : List (String × String × Bool)) (sid : String) :
    countOf counted sid true + countOf counted sid false =
      (counted.filter fun c => c.1 = sid).length := by
  induction counted with
  | nil => rfl
  | cons c counted ih =>
      obtain ⟨sid', fid', success⟩ := c
      rw [countOf, countOf, List.countP_cons, List.countP_cons, ← countOf, ← countOf,
        List.filter_cons]
      by_cases hsid : sid' = sid
      · cases success <;> simp [hsid] <;> omega
      · simpa [hsid] using ih

/-- No file is given out twice. -/
theorem Steady.keys_nodup (h : Steady X p) : (p.books.entries.map Entry.key).Nodup := by
  have honce := h.uploads.once
  rw [List.filterMap_append, List.nodup_append] at honce
  exact honce.1.sublist h.asked.recorded.uploads

theorem Steady.counted_nodup (h : Steady X p) :
    (p.counted.map fun c => (c.1, c.2.1)).Nodup := by
  have hperm : p.counted.Perm (p.books.entries.filterMap Entry.delivered) := h.booked.counted
  rw [(hperm.map fun c => (c.1, c.2.1)).nodup_iff]
  exact h.keys_nodup.sublist (delivered_keys _)

/-- Whatever was counted for a session is one of its files. -/
theorem Steady.counted_file (h : Steady X p) {files : AssocMap String FileDto}
    (hacc : (sid, files) ∈ p.accepted) {c : String × String × Bool} (hc : c ∈ p.counted)
    (hsid : c.1 = sid) : c.2.1 ∈ files.keys := by
  obtain ⟨e, he, hkey, -⟩ := h.booked.mem_counted hc
  have hup : (c.1, c.2.1) ∈ p.received.filterMap ServerEventV2.upload? := by
    rw [← hkey]
    exact h.asked.recorded.uploads.subset (List.mem_map_of_mem he)
  obtain ⟨file, tx, hevent⟩ := mem_uploads.mp hup
  have hist := h.asked.served.history
  obtain ⟨⟨files', hoffer, hfile⟩, -⟩ := hist.uploads (List.mem_append_left _ hevent)
  rw [hsid] at hoffer
  -- the session was offered once, so with these files
  have haccepted : (sid, files) ∈ offers (p.received ++ p.core.shared.events.queue) := by
    rw [offers_append]
    exact List.mem_append_left _ (h.asked.recorded.offered hacc)
  have hsame := List.inj_on_of_nodup_map hist.once hoffer haccepted rfl
  rw [AssocMap.mem_keys_iff]
  exact ⟨file, (Prod.mk.inj hsame).2 ▸ hfile⟩

theorem Steady.bounded (h : Steady X p) {files : AssocMap String FileDto}
    (hacc : (sid, files) ∈ p.accepted) : (p.countedOf sid).length ≤ files.entries.length := by
  have hsub : (p.countedOf sid).map (fun c => (c.1, c.2.1)) =
      ((p.countedOf sid).map fun c => c.2.1).map (Prod.mk sid) := by
    rw [List.map_map]
    refine List.map_congr_left fun c hc => ?_
    rw [Receiver.countedOf, List.mem_filter] at hc
    exact Prod.ext (of_decide_eq_true hc.2) rfl
  have hnodup : ((p.countedOf sid).map fun c => c.2.1).Nodup := by
    refine List.Nodup.of_map (Prod.mk sid) ?_
    rw [← hsub]
    exact h.counted_nodup.sublist (List.filter_sublist.map _)
  have hfiles : (p.countedOf sid).map (fun c => c.2.1) ⊆ files.keys := by
    intro fid hfid
    obtain ⟨c, hc, rfl⟩ := List.mem_map.mp hfid
    rw [Receiver.countedOf, List.mem_filter] at hc
    exact h.counted_file hacc hc.1 (of_decide_eq_true hc.2)
  calc (p.countedOf sid).length
      = ((p.countedOf sid).map fun c => c.2.1).length := (List.length_map _).symm
    _ ≤ files.keys.length := (hnodup.subperm hfiles).length_le
    _ = files.entries.length := List.length_map _

theorem lastAttempt_eq_some {a : Attempt} (h : p.lastAttempt sid fid = some a) :
    a ∈ p.attempts ∧ a.sessionId = sid ∧ a.fileId = fid := by
  have hmem := List.mem_of_getLast? h
  rw [List.mem_filter] at hmem
  exact ⟨hmem.1, of_decide_eq_true hmem.2⟩

theorem Steady.finished (h : Steady X p) {a : Attempt} (ha : p.lastAttempt sid fid = some a)
    (hsuccess : a.outcome = some .success) (hin : a.result ≠ none) :
    (sid, fid, true) ∈ p.counted ∧ (sid, fid, false) ∉ p.counted := by
  obtain ⟨hmem, rfl, rfl⟩ := lastAttempt_eq_some ha
  obtain ⟨result, hr⟩ := Option.ne_none_iff_exists'.mp hin
  have hentry : a.entry ∈ p.books.entries := List.mem_map_of_mem hmem
  have hcounted := h.booked.counted_of_result hentry hr
  rw [(h.heard.told a hmem result hr).mpr hsuccess] at hcounted
  refine ⟨hcounted, fun hfailed => ?_⟩
  have hsame := List.inj_on_of_nodup_map h.counted_nodup hcounted hfailed rfl
  cases hsame

/-- A file has one attempt. -/
theorem Steady.attempt_unique (h : Steady X p) {a a' : Attempt} (ha : a ∈ p.attempts)
    (ha' : a' ∈ p.attempts) (hsid : a'.sessionId = a.sessionId)
    (hfid : a'.fileId = a.fileId) : a' = a := by
  have hnodup : (p.attempts.map fun a => a.entry.key).Nodup := by
    have hkeys := h.keys_nodup
    rw [show p.books.entries = p.attempts.map Attempt.entry from rfl, List.map_map] at hkeys
    exact hkeys
  exact List.inj_on_of_nodup_map hnodup ha' ha (Prod.ext hsid hfid)

theorem Steady.accounted (h : Steady X p) : Accounted p where
  once := h.counted_nodup
  counters := by
    intro session hr
    obtain ⟨hfinished, hfailed⟩ := h.booked.counters session hr
    rw [hfinished, hfailed]
    exact countOf_total _ _
  bounded _ _ hacc := h.bounded hacc
  finished _ _ _ := h.finished
  file := by
    intro sid fid a ha _ a' ha' hsid hfid _
    obtain ⟨hmem, rfl, rfl⟩ := lastAttempt_eq_some ha
    rw [h.attempt_unique hmem ha' hsid hfid]

end Accounts

/-- **The accounts are right** in every run in which no file is begun a second time and
no session is left while a file is on its way. -/
theorem receive_accounted (X : Externals) (P : SavePlatform) {destination : String}
    {paired : List String} {web : Option WebMode} {directory : List String} {p : Receiver}
    (h : Run (receiverStep X P) (fun p l => p.steady l = true)
      (.init destination paired web directory) p) : Accounted p :=
  (steady_run h).accounted

/-! ## §4  A file that is sent again -/

namespace Sample

/-- A picture with a checksum. -/
def picture : FileDto := ⟨"f", "a.txt", 3, "image/png", some "abc", none, none⟩

def picturePayload : PrepareUploadRequestDtoV2 :=
  ⟨FireBoxTransfer.Sample.info, .ofList [("f", picture)]⟩

def receiver : Receiver := .init "/in" [] none []

abbrev step : Receiver → ReceiverLabel → Option Receiver :=
  receiverStep .unary FireBoxTransfer.Sample.linux

/-- The sender asks, as task 0 of the server, and the user sees the request. -/
def request : List ReceiverLabel :=
  [.core (.env (.prepareUpload FireBoxTransfer.Sample.sender [])), .core (.task 0 .go),
    .core (.task 0 (.body (.ok picturePayload))), .core (.task 0 .go), .core (.task 0 .go), .event]

/-- The user accepts. -/
def acceptance : List ReceiverLabel :=
  [.answer .accept, .core (.task 0 .decision), .core (.task 0 .go)]

/-- The picture is uploaded by task `i` of the server as attempt `k`, and this comes
of it. -/
def upload (i k : ℕ) (outcome : SaveResult) : List ReceiverLabel :=
  [.core (.env (.upload FireBoxTransfer.Sample.sender
      [("sessionId", ""), ("fileId", "f"), ("token", "u")])),
    .core (.task i .go), .core (.task i .go), .core (.task i .go), .event, .core (.task i .go),
    .create k, .core (.task i (.saved outcome)), .core (.task i .go)]

end Sample

/-- An upload that succeeds at once. -/
theorem receive_accounted_once : ∃ p,
    Run Sample.step (fun p l => p.steady l = true) Sample.receiver p ∧
      p.counted = [("", "f", true)] ∧ Accounted p := by
  obtain ⟨p, hp, hcheck⟩ := exists_of_exec_any Sample.step Sample.receiver
    (Sample.request ++ Sample.acceptance ++ Sample.upload 1 0 .success ++ [.result 0 ""])
    (fun p => p.counted = [("", "f", true)]) rfl
  have hrun : Run Sample.step (fun p l => p.steady l = true) Sample.receiver p :=
    run_of_exec hp (by decide)
  exact ⟨p, hrun, of_decide_eq_true hcheck, receive_accounted _ _ hrun⟩

/-- The checksum of the first attempt does not match, and the sender tries again: one
file of one is counted twice, as failed and as finished, and both attempts have left a
file. -/
theorem receive_not_accounted : ∃ p, Reach Sample.step Sample.receiver p ∧
    p.accepted.map (fun s => (s.1, s.2.keys)) = [("", ["f"])] ∧
    p.counted = [("", "f", false), ("", "f", true)] ∧
    p.attempts.map (fun a => (a.path, a.file, a.outcome)) =
      [("/in/a.txt", .created, some .hashMismatch), ("/in/a (1).txt", .created, some .success)] ∧
    ¬ Accounted p := by
  obtain ⟨p, hp, hcheck⟩ := exists_of_exec_any Sample.step Sample.receiver
    (Sample.request ++ Sample.acceptance ++ Sample.upload 1 0 .hashMismatch ++
      [.result 0 ""] ++ Sample.upload 2 1 .success ++ [.result 1 ""])
    (fun p => p.accepted.map (fun s => (s.1, s.2.keys)) = [("", ["f"])] ∧
      p.counted = [("", "f", false), ("", "f", true)] ∧
      p.attempts.map (fun a => (a.path, a.file, a.outcome)) =
        [("/in/a.txt", .created, some .hashMismatch),
          ("/in/a (1).txt", .created, some .success)]) rfl
  obtain ⟨haccepted, hcounted, hattempts⟩ := of_decide_eq_true hcheck
  refine ⟨p, reach_of_exec hp, haccepted, hcounted, hattempts, fun h => ?_⟩
  have honce := h.once
  rw [hcounted] at honce
  exact absurd honce (by decide)

end Cli

end FireBoxTransfer
