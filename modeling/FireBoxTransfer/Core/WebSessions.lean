import FireBoxTransfer.Core.WebSend
import Mathlib.Data.List.Induction

/-!
# Whose session a browser uses

The sessions of web send stand under the address of the client, not under the
request that asked for them. What an observer notes down tells whose session
stands under an id: requests insert, mark and remove, each its own, as long as
no request of an address is inserted before the one before it is through.
-/

namespace FireBoxTransfer

namespace WebSend

open TaskPool Runs

/-! ## §1  Roles -/

/-- The request has a session in the table that it has yet to settle. -/
def WebTask.open? : WebTask → Option DownloadCtx
  | .prepareDownload (.send ctx) | .prepareDownload (.decision ctx)
  | .prepareDownload (.accept ctx) | .prepareDownload (.clear ctx) | .cleanup ctx => some ctx
  | _ => none

/-- The request was accepted and waits to mark its session. -/
def WebTask.accepting? : WebTask → Option DownloadCtx
  | .prepareDownload (.accept ctx) => some ctx
  | _ => none

/-- The request is about to be answered with the file list. -/
def WebTask.listing? : WebTask → Option (PeerIp × String)
  | .prepareDownload (.list ip sessionId) => some (ip, sessionId)
  | _ => none

/-- The request is about to insert its session. -/
def WebTask.inserting? : WebTask → Option PeerIp
  | .prepareDownload (.insert clientInfo _) => some clientInfo.ip
  | _ => none

/-- A task that has nothing to do with the session table any more. -/
def WebTask.Idle (t : WebTask) : Prop := t.open? = none ∧ t.listing? = none

theorem WebTask.accepting?_of_open? {t : WebTask} (h : t.open? = none) : t.accepting? = none := by
  cases t with
  | prepareDownload pc => cases pc <;> first | rfl | cases h
  | _ => rfl

theorem WebTask.open?_of_accepting? {t : WebTask} {ctx : DownloadCtx}
    (h : t.accepting? = some ctx) : t.open? = some ctx := by
  cases t with
  | prepareDownload pc => cases pc <;> first | exact h | cases h
  | _ => cases h

/-! ## §2  Moves -/

/-- A step that leaves the sessions and the decisions alone. -/
structure Unmoved (s s' : WebPageState) : Prop where
  sessions : s'.sessions = s.sessions
  decisions : s'.decisions = s.decisions

theorem Unmoved.refl {s : WebPageState} : Unmoved s s := ⟨rfl, rfl⟩

/-- Everything a step of a task may do. -/
inductive WebMove (ipText : PeerIp → String) (s : WebPageState) : WebTask → WebStep → Prop
  | rest {t : WebTask} {s' t'} (hs : Unmoved s s') (ht : t'.Idle) :
      WebMove ipText s t ⟨s', t', [], []⟩
  | insert {clientInfo userAgent s' ctx}
      (hctx : ctx = ⟨clientInfo.ip, ipText clientInfo.ip, userAgent, s.decisions.length⟩)
      (hs : s'.sessions = s.sessions.insert ctx.sessionId ⟨ctx.ip, false⟩)
      (hd : s'.decisions = s.decisions ++ [.waiting]) :
      WebMove ipText s (.prepareDownload (.insert clientInfo userAgent))
        ⟨s', .prepareDownload (.send ctx), [], [.inserted ctx.decision ctx.ip ctx.sessionId]⟩
  | keep {t : WebTask} {ctx s' t'} (ht : t.open? = some ctx) (hs : Unmoved s s')
      (ht' : t'.open? = some ctx) (hl : t'.listing? = none)
      (ha : ∀ c, t'.accepting? = some c → s.decisions[ctx.decision]? = some (.sent true)) :
      WebMove ipText s t ⟨s', t', [], []⟩
  | abandon {t : WebTask} {ctx t'} (ht : t.open? = some ctx) (ht' : t'.Idle) :
      WebMove ipText s t ⟨s, t', [.cleanup ctx], []⟩
  | accept {ctx s'}
      (hs : s'.sessions = s.sessions.modify ctx.sessionId fun session =>
        { session with accepted := true })
      (hd : s'.decisions = s.decisions) :
      WebMove ipText s (.prepareDownload (.accept ctx))
        ⟨s', .prepareDownload (.list ctx.ip ctx.sessionId), [],
          [.granted (some ctx.decision) ctx.ip ctx.sessionId]⟩
  | clear {t : WebTask} {ctx t'} (ht : t.open? = some ctx) (ht' : t'.Idle) :
      WebMove ipText s t (clearStep s ctx t')
  | again {t : WebTask} {ip sessionId} (hvalid : s.valid sessionId ip = true) :
      WebMove ipText s t
        ⟨s, .prepareDownload (.list ip sessionId), [], [.granted none ip sessionId]⟩
  | listed {ip sessionId t'} (ht' : t'.Idle) :
      WebMove ipText s (.prepareDownload (.list ip sessionId))
        ⟨s, t', [], [.listed ip sessionId]⟩
  | authorise {t : WebTask} {ip sessionId s' t'} (hvalid : s.valid sessionId ip = true)
      (hs : Unmoved s s') (ht' : t'.Idle) :
      WebMove ipText s t ⟨s', t', [], [.authorised ip sessionId]⟩

section Moves

variable {ipText : PeerIp → String} {s : WebPageState} {o : WebStep}

theorem askPin_move {t : WebTask} {clientInfo : RequestClientInfo}
    {query : AssocMap String String} {userAgent : Option String} :
    WebMove ipText s t (askPin s clientInfo query userAgent) := by
  unfold askPin
  split
  · exact .rest .refl ⟨rfl, rfl⟩
  · exact .rest .refl ⟨rfl, rfl⟩

theorem prepareDownloadStep_move {pc : PrepareDownload} {a : WebAct}
    (h : prepareDownloadStep ipText s pc a = some o) :
    WebMove ipText s (.prepareDownload pc) o := by
  cases a with
  | drop =>
      cases pc with
      | send ctx => cases h; exact .abandon rfl ⟨rfl, rfl⟩
      | decision ctx => cases h; exact .abandon rfl ⟨rfl, rfl⟩
      | accept ctx => cases h; exact .abandon rfl ⟨rfl, rfl⟩
      | _ => cases h; exact .rest .refl ⟨rfl, rfl⟩
  | go =>
      cases pc with
      | start clientInfo query userAgent =>
          simp only [prepareDownloadStep] at h
          split at h
          · cases h
            exact .rest .refl ⟨rfl, rfl⟩
          · cases h
            exact askPin_move
      | session clientInfo query userAgent sessionId =>
          simp only [prepareDownloadStep] at h
          split at h
          · rename_i hvalid
            cases h
            exact .again hvalid
          · cases h
            exact askPin_move
      | pin clientInfo query userAgent requiredPin =>
          simp only [prepareDownloadStep] at h
          split at h
          · cases h
            exact .rest ⟨rfl, rfl⟩ ⟨rfl, rfl⟩
          · cases h
            exact .rest ⟨rfl, rfl⟩ ⟨rfl, rfl⟩
      | insert clientInfo userAgent =>
          cases h
          exact .insert rfl rfl rfl
      | send ctx =>
          simp only [prepareDownloadStep] at h
          split at h
          · cases h
          · cases h
            exact .abandon rfl ⟨rfl, rfl⟩
          · cases h
            exact .keep rfl ⟨rfl, rfl⟩ rfl rfl fun _ heq => by cases heq
      | decision ctx =>
          simp only [prepareDownloadStep] at h
          split at h
          · rename_i hsent
            cases h
            exact .keep rfl .refl rfl rfl fun _ _ => hsent
          · cases h
            exact .keep rfl .refl rfl rfl fun _ heq => by cases heq
          · cases h
            exact .abandon rfl ⟨rfl, rfl⟩
          · cases h
      | accept ctx =>
          cases h
          exact .accept rfl rfl
      | clear ctx =>
          cases h
          exact .clear rfl ⟨rfl, rfl⟩
      | list ip sessionId =>
          cases h
          exact .listed ⟨rfl, rfl⟩

theorem downloadStep_move {pc : Download} {a : WebAct} (h : downloadStep s pc a = some o) :
    WebMove ipText s (.download pc) o := by
  cases a with
  | drop =>
      cases pc <;> cases h <;> exact .rest .refl ⟨rfl, rfl⟩
  | go =>
      cases pc with
      | start clientInfo query =>
          simp only [downloadStep] at h
          split at h <;> cases h <;> exact .rest .refl ⟨rfl, rfl⟩
      | session clientInfo query sessionId =>
          simp only [downloadStep] at h
          split at h
          · rename_i hvalid
            cases h
            unfold requestFile
            split
            · exact .authorise hvalid .refl ⟨rfl, rfl⟩
            · split
              · exact .authorise hvalid .refl ⟨rfl, rfl⟩
              · exact .authorise hvalid ⟨rfl, rfl⟩ ⟨rfl, rfl⟩
          · cases h
            exact .rest .refl ⟨rfl, rfl⟩
      | send ctx =>
          simp only [downloadStep] at h
          split at h
          · cases h
          · cases h
            exact .rest .refl ⟨rfl, rfl⟩
          · cases h
            exact .rest ⟨rfl, rfl⟩ ⟨rfl, rfl⟩
      | content ctx =>
          simp only [downloadStep] at h
          split at h
          · cases h
            exact .rest .refl ⟨rfl, rfl⟩
          · cases h
            exact .rest .refl ⟨rfl, rfl⟩
          · cases h

theorem webTaskStep_move {t : WebTask} {a : WebAct} (h : webTaskStep ipText s t a = some o) :
    WebMove ipText s t o := by
  cases t with
  | prepareDownload pc => exact prepareDownloadStep_move h
  | download pc => exact downloadStep_move h
  | cleanup ctx =>
      cases a with
      | go =>
          cases h
          exact .clear rfl ⟨rfl, rfl⟩
      | drop => cases h
  | answered result => cases h
  | completed => cases h
  | dropped => cases h

end Moves

/-! ## §3  The history -/

/-- Whose session stands under an id. -/
structure Holder where
  request : ℕ
  ip : PeerIp
  accepted : Bool
deriving DecidableEq

/-- The session that the history leaves under an id. -/
def holder (sessionId : String) : List WebSeen → Option Holder :=
  List.foldl (fun h e => match e with
    | .inserted request ip id => if id = sessionId then some ⟨request, ip, false⟩ else h
    | .granted (some _) _ id =>
        if id = sessionId then h.map fun h => { h with accepted := true } else h
    | .removed _ id => if id = sessionId then none else h
    | _ => h) none

/-- What an event may do, by what the history before it left: a request marks
and removes the session that it inserted itself, and what a client fetches it
was accepted for. -/
def Proper (log : List WebSeen) : WebSeen → Prop
  | .inserted _ _ _ => True
  | .granted (some request) ip id => holder id log = some ⟨request, ip, false⟩
  | .granted none ip id | .authorised ip id => ∃ request, holder id log = some ⟨request, ip, true⟩
  | .removed request id => ∃ ip, holder id log = some ⟨request, ip, false⟩
  | .listed ip id => ∃ request, .granted request ip id ∈ log

/-- Every event was proper when it happened. -/
def ProperHistory (log : List WebSeen) : Prop :=
  ∀ before e after, log = before ++ e :: after → Proper before e

section History

variable {log : List WebSeen} {e : WebSeen} {sessionId : String}

theorem holder_append_single : holder sessionId (log ++ [e]) = match e with
    | .inserted request ip id =>
        if id = sessionId then some ⟨request, ip, false⟩ else holder sessionId log
    | .granted (some _) _ id =>
        if id = sessionId then (holder sessionId log).map fun h => { h with accepted := true }
        else holder sessionId log
    | .removed _ id => if id = sessionId then none else holder sessionId log
    | _ => holder sessionId log := by
  unfold holder
  rw [List.foldl_append, List.foldl_cons, List.foldl_nil]

theorem properHistory_nil : ProperHistory [] := by
  intro before e after h
  have hlength := congrArg List.length h
  simp at hlength

theorem properHistory_append_single (h : ProperHistory log) (he : Proper log e) :
    ProperHistory (log ++ [e]) := by
  intro before e' after heq
  rcases List.eq_nil_or_concat after with rfl | ⟨front, last, rfl⟩
  · obtain ⟨rfl, he'⟩ := List.append_inj' heq rfl
    cases he'
    exact he
  · rw [List.concat_eq_append, ← List.cons_append, ← List.append_assoc] at heq
    exact h before e' front (List.append_inj' heq rfl).1

/-- What was granted is held until another session is inserted. -/
theorem held_of_granted {before after : List WebSeen} {request : Option ℕ} {ip : PeerIp}
    (h : ProperHistory (before ++ .granted request ip sessionId :: after))
    (hlast : ∀ r ip', .inserted r ip' sessionId ∉ after) :
    ∃ r, holder sessionId (before ++ .granted request ip sessionId :: after) =
      some ⟨r, ip, true⟩ := by
  induction after using List.reverseRecOn with
  | nil =>
      have hgranted := h before _ [] rfl
      rw [holder_append_single]
      cases request with
      | none => exact hgranted
      | some r =>
          have hholder : holder sessionId before = some ⟨r, ip, false⟩ := hgranted
          exact ⟨r, by simp [hholder]⟩
  | append_singleton after e ih =>
      have hassoc : before ++ .granted request ip sessionId :: (after ++ [e]) =
          (before ++ .granted request ip sessionId :: after) ++ [e] := by simp
      rw [hassoc] at h ⊢
      obtain ⟨r, hr⟩ := ih (fun b e' c heq => h b e' (c ++ [e]) (by rw [heq]; simp))
        fun r ip' hmem => hlast r ip' (List.mem_append_left _ hmem)
      have he := h _ e [] rfl
      rw [holder_append_single]
      cases e with
      | inserted r' ip' id =>
          have hne : id ≠ sessionId := by
            rintro rfl
            exact hlast r' ip' (by simp)
          simp only [if_neg hne]
          exact ⟨r, hr⟩
      | granted request' ip' id =>
          cases request' with
          | none => exact ⟨r, hr⟩
          | some r' =>
              refine ⟨r, ?_⟩
              simp only [hr]
              split <;> rfl
      | removed r' id =>
          have hne : id ≠ sessionId := by
            rintro rfl
            -- a session that was accepted is not removed
            obtain ⟨ip', hip⟩ := he
            rw [hr] at hip
            cases hip
          simp only [if_neg hne]
          exact ⟨r, hr⟩
      | listed ip' id => exact ⟨r, hr⟩
      | authorised ip' id => exact ⟨r, hr⟩

end History

/-! ## §4  The invariant -/

/-- No session is inserted as long as an earlier request has one under the same
id that it has yet to settle. -/
def OneAtATime (ipText : PeerIp → String) (p : WebPool) : WebLabel → Prop
  | .task i .go => ∀ t ∈ p.tasks[i]?, ∀ ip ∈ t.inserting?, ∀ u ∈ p.tasks, ∀ ctx ∈ u.open?,
      ctx.sessionId ≠ ipText ip
  | _ => True

instance (ipText : PeerIp → String) (p : WebPool) : ∀ l, Decidable (OneAtATime ipText p l)
  | .task i .go => inferInstanceAs (Decidable (∀ t ∈ p.tasks[i]?, ∀ ip ∈ t.inserting?,
      ∀ u ∈ p.tasks, ∀ ctx ∈ u.open?, ctx.sessionId ≠ ipText ip))
  | .task _ .drop | .env _ => .isTrue trivial

/-- The application accepted the requests whose sessions were ever marked. -/
def Decided (log : List WebSeen) (decisions : List (Oneshot Bool)) : Prop :=
  ∀ before id h, before <+: log → holder id before = some h → h.accepted = true →
    decisions[h.request]? = some (.sent true)

/-- The shared part: the history is proper, the table is what it leaves, and
only requests that the application accepted are marked. -/
structure WebGlob (log : List WebSeen) (s : WebPageState) : Prop where
  proper : ProperHistory log
  table : ∀ id, s.sessions.get? id = (holder id log).map fun h => ⟨h.ip, h.accepted⟩
  decided : Decided log s.decisions

theorem Decided.append_single {log : List WebSeen} {decisions : List (Oneshot Bool)}
    {e : WebSeen} (h : Decided log decisions)
    (he : ∀ id h, holder id (log ++ [e]) = some h → h.accepted = true →
      decisions[h.request]? = some (.sent true)) : Decided (log ++ [e]) decisions := by
  intro before id h' hbefore hholder haccepted
  rcases List.prefix_concat_iff.mp hbefore with rfl | hbefore
  · exact he id h' hholder haccepted
  · exact h before id h' hbefore hholder haccepted

/-- The part of one task: the session it has yet to settle is its own. -/
structure WebLoc (log : List WebSeen) (s : WebPageState) (t : WebTask) : Prop where
  held : ∀ {ctx}, t.open? = some ctx →
    holder ctx.sessionId log = some ⟨ctx.decision, ctx.ip, false⟩
  accepting : ∀ {ctx}, t.accepting? = some ctx → s.decisions[ctx.decision]? = some (.sent true)
  listing : ∀ {ip id}, t.listing? = some (ip, id) → ∃ request, .granted request ip id ∈ log

/-- The part of two tasks: they have no session under one id to settle. -/
def WebApart (t u : WebTask) : Prop :=
  ∀ {c c'}, t.open? = some c → u.open? = some c' → c.sessionId ≠ c'.sessionId

def webSessions : Assertion WebPageState WebTask WebSeen where
  glob := WebGlob
  loc := WebLoc
  pair t u := WebApart t u

theorem WebTask.Idle.loc {log : List WebSeen} {s : WebPageState} {t : WebTask} (h : t.Idle) :
    WebLoc log s t where
  held hopen := by rw [h.1] at hopen; cases hopen
  accepting haccepting := by
    rw [WebTask.accepting?_of_open? h.1] at haccepting
    cases haccepting
  listing hlisting := by rw [h.2] at hlisting; cases hlisting

theorem WebTask.Idle.apart {t u : WebTask} (h : t.Idle) : WebApart t u := by
  intro c c' hc _
  rw [h.1] at hc
  cases hc

section Invariant

variable {ipText : PeerIp → String} {s : WebPageState} {t : WebTask} {o : WebStep}
  {log : List WebSeen}

theorem WebPageState.valid_iff {sessionId : String} {ip : PeerIp} :
    s.valid sessionId ip = true ↔ s.sessions.get? sessionId = some ⟨ip, true⟩ := by
  unfold WebPageState.valid
  cases h : s.sessions.get? sessionId with
  | none => simp
  | some session =>
      obtain ⟨ip', accepted⟩ := session
      simp [and_comm]

/-- A session that passes the check is held by a request of the same client. -/
theorem WebGlob.valid (h : WebGlob log s) {sessionId : String} {ip : PeerIp} :
    s.valid sessionId ip = true ↔ ∃ request, holder sessionId log = some ⟨request, ip, true⟩ := by
  rw [WebPageState.valid_iff, h.table]
  constructor
  · intro hvalid
    obtain ⟨⟨request, ip', accepted⟩, hholder, heq⟩ := Option.map_eq_some_iff.mp hvalid
    cases heq
    exact ⟨request, hholder⟩
  · rintro ⟨request, hholder⟩
    rw [hholder]
    rfl

/-- The clean-up of a request finds its own session. -/
theorem WebGlob.clear (h : WebGlob log s) {ctx : DownloadCtx} (t' : WebTask)
    (hheld : holder ctx.sessionId log = some ⟨ctx.decision, ctx.ip, false⟩) :
    clearStep s ctx t' =
      ⟨{ s with sessions := s.sessions.filter fun id _ => id ≠ ctx.sessionId }, t', [],
        [.removed ctx.decision ctx.sessionId]⟩ := by
  have hsession : s.sessions.get? ctx.sessionId = some ⟨ctx.ip, false⟩ := by
    rw [h.table, hheld]
    rfl
  simp [clearStep, clearPendingDownload, hsession]

/-- A decision that was made stays. -/
theorem WebMove.decided (h : WebMove ipText s t o) {n : ℕ} {accepted : Bool}
    (hn : s.decisions[n]? = some (.sent accepted)) :
    o.shared.decisions[n]? = some (.sent accepted) := by
  cases h with
  | insert hctx hs hd =>
      rw [hd, List.getElem?_append_left (List.getElem?_eq_some_iff.mp hn).1]
      exact hn
  | rest hs ht => rw [hs.decisions]; exact hn
  | keep ht hs ht' hl ha => rw [hs.decisions]; exact hn
  | accept hs hd => rw [hd]; exact hn
  | authorise hvalid hs ht' => rw [hs.decisions]; exact hn
  | clear ht ht' =>
      rename_i ctx t'
      rcases clearStep_cases s ctx t' with heq | heq
      · rw [heq]
        exact hn
      · rw [heq]
        exact hn
  | abandon => exact hn
  | again => exact hn
  | listed => exact hn

/-- A task changes what is held only under the id of its own session. -/
theorem WebMove.holder_frame (h : WebMove ipText s t o) {id : String}
    (hopen : ∀ ctx, t.open? = some ctx → ctx.sessionId ≠ id)
    (hinsert : ∀ ip c, t.inserting? = some ip → o.task.open? = some c → ipText ip ≠ id) :
    holder id (log ++ o.seen) = holder id log := by
  cases h with
  | insert hctx hs hd =>
      rw [holder_append_single]
      refine if_neg ?_
      rw [hctx]
      exact hinsert _ _ rfl rfl
  | accept hs hd =>
      rw [holder_append_single]
      exact if_neg (hopen _ rfl)
  | clear ht ht' =>
      rename_i ctx t'
      rcases clearStep_cases s ctx t' with heq | heq
      · rw [heq, holder_append_single]
        exact if_neg (hopen _ ht)
      · rw [heq, List.append_nil]
  | rest | keep | abandon => simp
  | again | listed | authorise => rw [holder_append_single]

/-- What a step leaves of the shared part. -/
theorem WebMove.glob (h : WebMove ipText s t o) (hglob : WebGlob log s) (hloc : WebLoc log s t) :
    WebGlob (log ++ o.seen) o.shared := by
  have hall : Decided log o.shared.decisions := fun before id h' hbefore hholder haccepted =>
    h.decided (hglob.decided before id h' hbefore hholder haccepted)
  have hdecided : ∀ id h', holder id log = some h' → h'.accepted = true →
      o.shared.decisions[h'.request]? = some (.sent true) := fun id h' hholder haccepted =>
    hall log id h' List.prefix_rfl hholder haccepted
  cases h with
  | rest hs ht =>
      simp only [List.append_nil]
      refine ⟨hglob.proper, fun id => ?_, hall⟩
      rw [hs.sessions, hglob.table]
  | keep ht hs ht' hl ha =>
      simp only [List.append_nil]
      refine ⟨hglob.proper, fun id => ?_, hall⟩
      rw [hs.sessions, hglob.table]
  | abandon ht ht' =>
      simp only [List.append_nil]
      exact hglob
  | insert hctx hs hd =>
      rename_i ctx
      refine ⟨properHistory_append_single hglob.proper trivial, fun id => ?_,
        hall.append_single fun id h' hholder haccepted => ?_⟩
      · rw [hs, AssocMap.get?_insert, holder_append_single]
        simp only [eq_comm (a := id)]
        split
        · rfl
        · exact hglob.table id
      · rw [holder_append_single] at hholder
        simp only at hholder
        split at hholder
        · -- the new session is not marked yet
          cases hholder
          cases haccepted
        · exact hdecided id h' hholder haccepted
  | accept hs hd =>
      rename_i ctx s'
      have hheld := hloc.held rfl
      refine ⟨properHistory_append_single hglob.proper hheld, fun id => ?_,
        hall.append_single fun id h' hholder haccepted => ?_⟩
      · rw [hs, holder_append_single]
        by_cases hid : ctx.sessionId = id
        · subst hid
          rw [AssocMap.get?_modify_self, hglob.table, hheld]
          simp
        · rw [AssocMap.get?_modify_ne (Ne.symm hid), hglob.table]
          simp [hid]
      · rw [holder_append_single] at hholder
        simp only at hholder
        split at hholder
        · rename_i hid
          subst hid
          rw [hheld] at hholder
          cases hholder
          change s'.decisions[ctx.decision]? = _
          rw [hd]
          exact hloc.accepting rfl
        · exact hdecided id h' hholder haccepted
  | clear ht ht' =>
      rename_i ctx t'
      have hheld := hloc.held ht
      rw [hglob.clear t' hheld] at hdecided hall ⊢
      refine ⟨properHistory_append_single hglob.proper ⟨_, hheld⟩, fun id => ?_,
        hall.append_single fun id h' hholder haccepted => ?_⟩
      · rw [AssocMap.get?_filter, hglob.table, holder_append_single]
        by_cases hid : ctx.sessionId = id
        · subst hid
          simp
        · have hne : decide (id ≠ ctx.sessionId) = true := by simpa using Ne.symm hid
          cases hholder : holder id log with
          | none => simp [hid]
          | some h' => simp [hid, hne]
      · rw [holder_append_single] at hholder
        simp only at hholder
        split at hholder
        · cases hholder
        · exact hdecided id h' hholder haccepted
  | again hvalid =>
      refine ⟨properHistory_append_single hglob.proper (hglob.valid.mp hvalid), fun id => ?_,
        hall.append_single fun id h' hholder haccepted => ?_⟩
      · simp only [holder_append_single]
        exact hglob.table id
      · simp only [holder_append_single] at hholder
        exact hdecided id h' hholder haccepted
  | listed ht' =>
      refine ⟨properHistory_append_single hglob.proper (hloc.listing rfl), fun id => ?_,
        hall.append_single fun id h' hholder haccepted => ?_⟩
      · simp only [holder_append_single]
        exact hglob.table id
      · simp only [holder_append_single] at hholder
        exact hdecided id h' hholder haccepted
  | authorise hvalid hs ht' =>
      refine ⟨properHistory_append_single hglob.proper (hglob.valid.mp hvalid), fun id => ?_,
        hall.append_single fun id h' hholder haccepted => ?_⟩
      · simp only [holder_append_single, hs.sessions]
        exact hglob.table id
      · simp only [holder_append_single] at hholder
        exact hdecided id h' hholder haccepted

/-- What a step leaves of the parts of the moving task and of those it
starts. -/
theorem WebMove.loc (h : WebMove ipText s t o) (hloc : WebLoc log s t) :
    ∀ u ∈ o.task :: o.spawned, WebLoc (log ++ o.seen) o.shared u := by
  cases h with
  | rest hs ht => simpa using ht.loc
  | clear ht ht' =>
      rename_i ctx t'
      rcases clearStep_cases s ctx t' with heq | heq
      · rw [heq]
        simpa using ht'.loc
      · rw [heq]
        simpa using ht'.loc
  | listed ht' => simpa using ht'.loc
  | authorise hvalid hs ht' => simpa using ht'.loc
  | keep ht hs ht' hl ha =>
      rename_i ctx s' t'
      rw [List.forall_mem_singleton, List.append_nil]
      refine ⟨fun {c} hc => ?_, fun {c} hc => ?_, fun hlisting => ?_⟩
      · obtain rfl : c = ctx := Option.some.inj (hc.symm.trans ht')
        exact hloc.held ht
      · obtain rfl : c = ctx :=
          Option.some.inj ((WebTask.open?_of_accepting? hc).symm.trans ht')
        change s'.decisions[c.decision]? = _
        rw [hs.decisions]
        exact ha c hc
      · change t'.listing? = _ at hlisting
        rw [hl] at hlisting
        cases hlisting
  | abandon ht ht' =>
      intro u hu
      rw [List.append_nil]
      rcases List.mem_pair.mp hu with rfl | rfl
      · exact ht'.loc
      · refine ⟨fun hc => ?_, nofun, nofun⟩
        obtain rfl := Option.some.inj hc
        exact hloc.held ht
  | insert hctx hs hd =>
      rw [List.forall_mem_singleton]
      refine ⟨fun {c} hc => ?_, nofun, nofun⟩
      obtain rfl := Option.some.inj hc
      rw [holder_append_single]
      exact if_pos rfl
  | accept hs hd =>
      rw [List.forall_mem_singleton]
      refine ⟨nofun, nofun, fun hlisting => ?_⟩
      cases hlisting
      exact ⟨_, List.mem_append_right _ (List.mem_singleton_self _)⟩
  | again hvalid =>
      rw [List.forall_mem_singleton]
      refine ⟨nofun, nofun, fun hlisting => ?_⟩
      cases hlisting
      exact ⟨_, List.mem_append_right _ (List.mem_singleton_self _)⟩

/-- The sessions that are open after a step were open before, or are inserted
by it. -/
theorem WebMove.open_new (h : WebMove ipText s t o) {u : WebTask} (hu : u ∈ o.task :: o.spawned)
    {ctx : DownloadCtx} (hctx : u.open? = some ctx) :
    t.open? = some ctx ∨
      ∃ ip, t.inserting? = some ip ∧ o.task.open? = some ctx ∧ ctx.sessionId = ipText ip := by
  have hidle : ∀ {t' : WebTask}, t'.Idle → u = t' → False := by
    rintro t' ht' rfl
    rw [ht'.1] at hctx
    cases hctx
  cases h with
  | rest hs ht => exact (hidle ht (List.mem_singleton.mp hu)).elim
  | clear ht ht' =>
      rename_i c t'
      rcases clearStep_cases s c t' with heq | heq
      · rw [heq] at hu
        exact (hidle ht' (List.mem_singleton.mp hu)).elim
      · rw [heq] at hu
        exact (hidle ht' (List.mem_singleton.mp hu)).elim
  | listed ht' => exact (hidle ht' (List.mem_singleton.mp hu)).elim
  | authorise hvalid hs ht' => exact (hidle ht' (List.mem_singleton.mp hu)).elim
  | keep ht hs ht' hl ha =>
      left
      rw [ht, ← hctx, List.mem_singleton.mp hu, ht']
  | abandon ht ht' =>
      rcases List.mem_pair.mp hu with rfl | rfl
      · exact (hidle ht' rfl).elim
      · left
        rw [ht]
        exact hctx
  | insert hc hs hd =>
      right
      rw [List.mem_singleton.mp hu] at hctx
      obtain rfl := Option.some.inj hctx
      exact ⟨_, rfl, rfl, by rw [hc]⟩
  | accept | again =>
      rw [List.mem_singleton.mp hu] at hctx
      cases hctx

/-- Of the tasks that a step leaves, at most one has a session to settle. -/
theorem WebMove.fork (h : WebMove ipText s t o) :
    (o.task :: o.spawned).Pairwise WebApart := by
  cases h with
  | abandon ht ht' => exact List.pairwise_pair.mpr ht'.apart
  | clear ht ht' =>
      rename_i c t'
      rcases clearStep_cases s c t' with heq | heq
      · rw [heq]
        exact List.pairwise_singleton ..
      · rw [heq]
        exact List.pairwise_singleton ..
  | _ => exact List.pairwise_singleton ..

end Invariant

/-- The environment leaves the sessions alone, and the decisions that were
made; what it starts is idle. -/
theorem webEnvStep_eq_some {s s' : WebPageState} {e : WebEnv} {ts : List WebTask}
    (h : webEnvStep s e = some (s', ts)) : s'.sessions = s.sessions ∧
      (∀ {n : ℕ} {accepted : Bool}, s.decisions[n]? = some (.sent accepted) →
        s'.decisions[n]? = some (.sent accepted)) ∧ ∀ t ∈ ts, t.Idle := by
  have hnone : ∀ t ∈ ([] : List WebTask), t.Idle := fun t ht => absurd ht List.not_mem_nil
  cases e with
  | prepareDownload clientInfo query userAgent =>
      cases h
      exact ⟨rfl, fun hn => hn, by simp [WebTask.Idle, WebTask.open?, WebTask.listing?]⟩
  | download clientInfo query =>
      cases h
      exact ⟨rfl, fun hn => hn, by simp [WebTask.Idle, WebTask.open?, WebTask.listing?]⟩
  | recv =>
      simp only [webEnvStep] at h
      split at h
      · cases h
      · cases h
        exact ⟨rfl, fun hn => hn, hnone⟩
  | close =>
      cases h
      exact ⟨rfl, fun hn => hn, hnone⟩
  | decide tx accepted =>
      obtain ⟨decisions, hd, heq⟩ := Option.map_eq_some_iff.mp h
      cases heq
      exact ⟨rfl, resolve_sent hd, hnone⟩
  | dropDecision tx =>
      obtain ⟨decisions, hd, heq⟩ := Option.map_eq_some_iff.mp h
      cases heq
      exact ⟨rfl, resolve_sent hd, hnone⟩
  | provide tx body =>
      obtain ⟨contents, hc, heq⟩ := Option.map_eq_some_iff.mp h
      cases heq
      exact ⟨rfl, fun hn => hn, hnone⟩
  | dropContent tx =>
      obtain ⟨contents, hc, heq⟩ := Option.map_eq_some_iff.mp h
      cases heq
      exact ⟨rfl, fun hn => hn, hnone⟩

/-- A session under the id of a request is not inserted while the request has
it to settle. -/
theorem OneAtATime.inserting {ipText : PeerIp → String} {p : WebPool} {i : ℕ} {a : WebAct}
    {t u : WebTask} {o : WebStep} {ip : PeerIp} {ctx : DownloadCtx}
    (hok : OneAtATime ipText p (.task i a)) (ht : p.tasks[i]? = some t)
    (ho : webTaskStep ipText p.shared t a = some o) (hinserting : t.inserting? = some ip)
    {c : DownloadCtx} (hc : o.task.open? = some c) (hu : u ∈ p.tasks)
    (hctx : u.open? = some ctx) : ctx.sessionId ≠ ipText ip := by
  cases a with
  | go => exact hok t ht ip hinserting u hu ctx hctx
  | drop =>
      -- a request that is dropped before it inserts leaves nothing
      cases t with
      | prepareDownload pc =>
          cases pc with
          | insert clientInfo userAgent =>
              cases ho
              cases hc
          | _ => cases hinserting
      | _ => cases hinserting

theorem webSessions_stable (ipText : PeerIp → String) :
    webSessions.Stable (webMachine ipText) (OneAtATime ipText) where
  symm hapart c c' hc hc' := Ne.symm (hapart hc' hc)
  own hp _ ht ho := by
    have hm := webTaskStep_move ho
    exact ⟨hm.glob hp.glob (hp.loc ht), hm.loc (hp.loc ht)⟩
  frame := by
    intro p i j a t u o hp hok ht ho hji hu
    have hm := webTaskStep_move ho
    have hloc := hp.loc hu
    refine ⟨fun {ctx} hctx => ?_, fun haccepting => hm.decided (hloc.accepting haccepting),
      fun hlisting => ?_⟩
    · -- the moving task has another session to settle, or inserts another one
      have hopen : ∀ c, t.open? = some c → c.sessionId ≠ ctx.sessionId :=
        fun c hc => hp.pair (Ne.symm hji) ht hu hc hctx
      rw [hm.holder_frame hopen fun ip c hip hc => Ne.symm
        (hok.inserting ht ho hip hc (List.mem_of_getElem? hu) hctx)]
      exact hloc.held hctx
    · obtain ⟨request, hgranted⟩ := hloc.listing hlisting
      exact ⟨request, List.mem_append_left _ hgranted⟩
  apart := by
    intro p i j a t u o hp hok ht ho hji hu v hv c c' hc hc'
    rcases (webTaskStep_move ho).open_new hv hc with hopen | ⟨ip, hip, hnew, hid⟩
    · exact hp.pair (Ne.symm hji) ht hu hopen hc'
    · rw [hid]
      exact Ne.symm (hok.inserting ht ho hip hnew (List.mem_of_getElem? hu) hc')
  fork hp _ ht ho := (webTaskStep_move ho).fork
  env := by
    intro p e s ts hp _ he
    obtain ⟨hsessions, hdecisions, hidle⟩ := webEnvStep_eq_some he
    refine ⟨⟨hp.glob.proper, fun id => ?_, fun before id h hbefore hholder haccepted =>
        hdecisions (hp.glob.decided before id h hbefore hholder haccepted)⟩, fun hu => ?_,
      fun u hu => (hidle u hu).loc, fun hu v hv c c' hc hc' => ?_, ?_⟩
    · rw [hsessions]
      exact hp.glob.table id
    · have hloc := hp.loc hu
      exact ⟨hloc.held, fun haccepting => hdecisions (hloc.accepting haccepting), hloc.listing⟩
    · exact (hidle v hv).apart hc hc'
    · exact List.pairwise_of_forall_mem_list fun u hu v _ => (hidle u hu).apart

/-! ## §5  Every run -/

/-- What the table and the history say of each other: every event is proper,
what was granted is authorised until another session is inserted, and a
download is authorised by a request that the application accepted. -/
structure WebAuthorised (p : WebPool) : Prop where
  proper : ProperHistory p.log
  table : ∀ id, p.shared.sessions.get? id = (holder id p.log).map fun h => ⟨h.ip, h.accepted⟩
  kept : ∀ before request ip id after, p.log = before ++ .granted request ip id :: after →
    (∀ r ip', .inserted r ip' id ∉ after) → p.shared.valid id ip = true
  accepted : ∀ before ip id after, p.log = before ++ .authorised ip id :: after →
    ∃ request, holder id before = some ⟨request, ip, true⟩ ∧
      p.shared.decisions[request]? = some (.sent true)

/-- **Downloads are authorised by their own request**, in every run in which
no request inserts a session while an earlier one has a session under the same
id that it has yet to settle. -/
theorem web_authorised {ipText : PeerIp → String} {files : AssocMap String FileDto}
    {pin : Option String} {cap : ℕ} {p : WebPool}
    (hrun : Run (webStep ipText) (OneAtATime ipText) (.init files pin cap) p) :
    WebAuthorised p := by
  have hstart : WebGlob [] (WebPageState.new files pin cap) :=
    ⟨properHistory_nil, fun id => rfl, fun before id h hbefore hholder _ => by
      rw [List.prefix_nil.mp hbefore] at hholder
      cases hholder⟩
  have hp := (webSessions_stable ipText).run (Assertion.holds_nil hstart) hrun
  refine ⟨hp.glob.proper, hp.glob.table, fun before request ip id after hlog hlast => ?_,
    fun before ip id after hlog => ?_⟩
  · have hproper := hp.glob.proper
    rw [hlog] at hproper
    have hheld := held_of_granted hproper hlast
    rw [← hlog] at hheld
    exact hp.glob.valid.mpr hheld
  · obtain ⟨request, hholder⟩ := hp.glob.proper before _ after hlog
    refine ⟨request, hholder, hp.glob.decided before id _ ?_ hholder rfl⟩
    rw [hlog]
    exact List.prefix_append ..

/-! ## §6  Two requests from one address -/

namespace Sample

/-- The text of an address, for the addresses of the runs below. -/
def ipText (ip : PeerIp) : String :=
  match ip.ip with
  | .v4 addr => "v4-" ++ toString addr.toNat
  | .v6 addr => "v6-" ++ toString addr.toNat

def browser : RequestClientInfo := ⟨⟨.v4 7, none⟩, none⟩

def offered : AssocMap String FileDto := .ofList [("1", FireBoxTransfer.Sample.file "1")]

def init : WebPool := .init offered none 16

/-- A browser asks for the list; its request becomes task `i`, and is run until
its event is sent. -/
def ask (i : ℕ) : List WebLabel :=
  [.env (.prepareDownload browser [] none), .task i .go, .task i .go, .task i .go]

/-- The application accepts the request of task `i` with decision `n`. -/
def accept (i n : ℕ) : List WebLabel :=
  [.env (.decide n true), .task i .go, .task i .go]

/-- The browser fetches the file in task `i`. -/
def fetch (i : ℕ) : List WebLabel :=
  [.env (.download browser [("sessionId", "v4-7"), ("fileId", "1")]), .task i .go, .task i .go]

/-- The application accepts, the browser gets its list and fetches a file. -/
def fetched : List WebLabel := ask 0 ++ accept 0 0 ++ [.task 0 .go] ++ fetch 1

/-- The browser asks a second time, and the application accepts the first
request. -/
def askedTwice : List WebLabel := ask 0 ++ ask 1 ++ accept 0 0 ++ fetch 2

/-- What is seen until the second session is marked. -/
def crossed : List WebSeen :=
  [.inserted 0 browser.ip "v4-7", .inserted 1 browser.ip "v4-7",
    .granted (some 0) browser.ip "v4-7"]

end Sample

/-- A browser that was accepted is authorised. -/
theorem web_authorised_fetched : ∃ p,
    Run (webStep Sample.ipText) (OneAtATime Sample.ipText) Sample.init p ∧
      .authorised Sample.browser.ip "v4-7" ∈ p.log ∧ WebAuthorised p := by
  obtain ⟨p, hp, hcheck⟩ := exists_of_exec_any (webStep Sample.ipText) Sample.init Sample.fetched
    (fun p => decide (.authorised Sample.browser.ip "v4-7" ∈ p.log)) (by decide)
  have hrun : Run (webStep Sample.ipText) (OneAtATime Sample.ipText) Sample.init p :=
    run_of_exec hp (by decide)
  exact ⟨p, hrun, of_decide_eq_true hcheck, web_authorised hrun⟩

/-- The first request marks the session of the second one, which nobody has
decided, and a file is fetched with it. -/
theorem undecided_request_authorised : ∃ p, Reach (webStep Sample.ipText) Sample.init p ∧
    p.shared.decisions[1]? = some .waiting ∧ ¬ WebAuthorised p := by
  obtain ⟨p, hp, hcheck⟩ := exists_of_exec_any (webStep Sample.ipText) Sample.init
    Sample.askedTwice (fun p => p.shared.decisions[1]? = some .waiting &&
      decide (p.log = Sample.crossed ++ [.authorised Sample.browser.ip "v4-7"])) (by decide)
  rw [Bool.and_eq_true, decide_eq_true_eq, decide_eq_true_eq] at hcheck
  refine ⟨p, reach_of_exec hp, hcheck.1, fun h => ?_⟩
  obtain ⟨request, hholder, hsent⟩ := h.accepted _ _ _ [] hcheck.2
  obtain rfl : 1 = request := congrArg Holder.request (Option.some.inj hholder)
  rw [hcheck.1] at hsent
  cases hsent

end WebSend

end FireBoxTransfer
