import Mathlib.Logic.Function.Basic
import FireBoxTransfer.Framework.Runs

/-!
# Answers to offers

`send_offer` sends its offer and then registers a callback for the answer, while the
listener of the connection looks up a callback for every answer that it reads. An answer
that is read in between finds none, and nothing keeps it for later.
-/

namespace FireBoxTransfer.WebRTC

open Runs

/-! ## §1  The connection -/

structure WsServerSdpMessage where
  sessionId : String
  sdp : String
deriving DecidableEq

/-- A message of the server; of those that are not answers only that they come. -/
inductive WsServerMessage where
  | answer (sdp : WsServerSdpMessage)
  | other
deriving DecidableEq

/-- Where the `send_offer` of a session is. -/
inductive OfferPhase where
  | idle
  | offering
  /-- The offer is sent, `on_answer` is not called yet. -/
  | registering
  | waiting
  | answered (sdp : String)
deriving DecidableEq

/-- A `ManagedSignalingConnection` with everyone who uses it: the callbacks, the offers
that are with their peers, all answers, and the messages that were not read yet. -/
structure SignalingClient where
  phases : String → OfferPhase
  onAnswer : List String
  offered : List String
  answers : List WsServerSdpMessage
  rx : List WsServerMessage
  forwarded : List WsServerMessage

namespace SignalingClient

inductive Label where
  /-- A `send_offer` with a new session. -/
  | start (sessionId : String)
  | sendOffer (sessionId : String)
  | onAnswer (sessionId : String)
  /-- The peer answers an offer. -/
  | answer (sessionId sdp : String)
  | other
  /-- The listener takes a message. -/
  | read
deriving DecidableEq

def init : SignalingClient where
  phases _ := .idle
  onAnswer := []
  offered := []
  answers := []
  rx := []
  forwarded := []

/-- The listener's part for an answer. -/
def dispatch (c : SignalingClient) : WsServerMessage → SignalingClient
  | .answer sdp =>
      if sdp.sessionId ∈ c.onAnswer then
        { c with
          onAnswer := c.onAnswer.filter (· ≠ sdp.sessionId)
          phases := Function.update c.phases sdp.sessionId (.answered sdp.sdp) }
      else c
  | .other => c

def step (c : SignalingClient) : Label → Option SignalingClient
  | .start id =>
      if c.phases id = .idle then
        some { c with phases := Function.update c.phases id .offering }
      else none
  | .sendOffer id =>
      if c.phases id = .offering then
        some { c with
          phases := Function.update c.phases id .registering
          offered := c.offered ++ [id] }
      else none
  | .onAnswer id =>
      if c.phases id = .registering then
        some { c with
          phases := Function.update c.phases id .waiting
          onAnswer := id :: c.onAnswer }
      else none
  | .answer id sdp =>
      if id ∈ c.offered then
        some { c with
          offered := c.offered.filter (· ≠ id)
          answers := c.answers ++ [⟨id, sdp⟩]
          rx := c.rx ++ [.answer ⟨id, sdp⟩] }
      else none
  | .other => some { c with rx := c.rx ++ [.other] }
  | .read =>
      match c.rx with
      | message :: rx =>
          some ({ c with rx := rx, forwarded := c.forwarded ++ [message] }.dispatch message)
      | [] => none

/-- No answer is read while its `send_offer` is about to register the callback. -/
def Registered (c : SignalingClient) (l : Label) : Prop :=
  l = .read → ∀ sdp, c.rx.head? = some (.answer sdp) → c.phases sdp.sessionId ≠ .registering

instance (c : SignalingClient) : (l : Label) → Decidable (c.Registered l)
  | .read =>
      match h : c.rx.head? with
      | some (.answer sdp) =>
          decidable_of_iff (c.phases sdp.sessionId ≠ .registering)
            ⟨fun hphase _ sdp' hsdp => by
              rw [h] at hsdp
              cases hsdp
              exact hphase, fun hregistered => hregistered rfl sdp h⟩
      | some .other | none =>
          .isTrue fun _ sdp' hsdp => by
            rw [h] at hsdp
            cases hsdp
  | .start _ | .sendOffer _ | .onAnswer _ | .answer _ _ | .other => .isTrue nofun

/-! ## §2  What holds at all times -/

/-- The offer is out and not answered yet as far as `send_offer` knows. -/
def Pending (c : SignalingClient) (id : String) : Prop :=
  c.phases id = .registering ∨ c.phases id = .waiting

/-- The session that a message answers. -/
def sessionOf : WsServerMessage → Option String
  | .answer sdp => some sdp.sessionId
  | .other => none

/-- The offer was sent. -/
def Sent (c : SignalingClient) (id : String) : Prop :=
  c.phases id ≠ .idle ∧ c.phases id ≠ .offering

structure Consistent (c : SignalingClient) : Prop where
  callbacks : ∀ id, id ∈ c.onAnswer ↔ c.phases id = .waiting
  sent : ∀ sdp ∈ c.answers, c.Sent sdp.sessionId
  offered : ∀ id ∈ c.offered,
    c.Pending id ∧ id ∉ c.answers.map WsServerSdpMessage.sessionId
  unread : ∀ sdp, .answer sdp ∈ c.rx → sdp ∈ c.answers ∧ c.Pending sdp.sessionId
  once : (c.rx.filterMap sessionOf).Nodup

theorem Consistent.init : init.Consistent :=
  ⟨fun _ => ⟨nofun, nofun⟩, nofun, nofun, nofun, List.nodup_nil⟩

variable {c c' : SignalingClient}

/-- Another phase of a session keeps what is pending. -/
theorem Pending.update {id id' : String} {phase : OfferPhase} (hpending : c.Pending id)
    (hphase : id = id' → phase = .registering ∨ phase = .waiting) :
    Pending { c with phases := Function.update c.phases id' phase } id := by
  unfold Pending
  simp only [Function.update_apply]
  by_cases hid : id = id'
  · rw [if_pos hid]
    exact hphase hid
  · rw [if_neg hid]
    exact hpending

theorem Sent.update {id id' : String} {phase : OfferPhase} (hsent : c.Sent id)
    (hidle : phase ≠ .idle) (hoffering : id = id' → phase ≠ .offering) :
    Sent { c with phases := Function.update c.phases id' phase } id := by
  unfold Sent
  simp only [Function.update_apply]
  by_cases hid : id = id'
  · rw [if_pos hid]
    exact ⟨hidle, hoffering hid⟩
  · rw [if_neg hid]
    exact hsent

/-- An answer that is not the next one is another session's. -/
theorem Consistent.other_session {message : WsServerMessage} {rx : List WsServerMessage}
    (hconsistent : c.Consistent) (hrx : c.rx = message :: rx) {sdp : WsServerSdpMessage}
    (hsdp : .answer sdp ∈ rx) : sessionOf message ≠ some sdp.sessionId := by
  intro hmessage
  have honce := hconsistent.once
  rw [hrx, List.filterMap_cons, hmessage, List.nodup_cons] at honce
  exact honce.1 (List.mem_filterMap.mpr ⟨_, hsdp, rfl⟩)

/-! ## §3  Every step -/

/-- A session that waits for nothing goes on. -/
theorem Consistent.rephase {id : String} {phase : OfferPhase} (hconsistent : c.Consistent)
    (hold : ¬ c.Pending id) (hidle : phase ≠ .idle) (hwaits : phase ≠ .waiting)
    (hoffering : phase = .offering → ¬ c.Sent id) :
    Consistent { c with phases := Function.update c.phases id phase } := by
  obtain ⟨hcallbacks, hsent, hoffered, hunread, honce⟩ := hconsistent
  have hkeep {id' : String} (hpending : c.Pending id') :
      Pending { c with phases := Function.update c.phases id phase } id' := by
    refine hpending.update fun hid => ?_
    rw [hid] at hpending
    exact absurd hpending hold
  refine ⟨fun id' => ?_, fun sdp hsdp => ?_, fun id' hid' => ?_, fun sdp hsdp => ?_, honce⟩
  · simp only [Function.update_apply]
    by_cases hid : id' = id
    · rw [if_pos hid, hid, hcallbacks]
      exact ⟨fun hwaiting => absurd (.inr hwaiting) hold, fun h => absurd h hwaits⟩
    · rw [if_neg hid]
      exact hcallbacks id'
  · refine (hsent sdp hsdp).update hidle fun hid hphase => hoffering hphase ?_
    rw [← hid]
    exact hsent sdp hsdp
  · exact ⟨hkeep (hoffered id' hid').1, (hoffered id' hid').2⟩
  · exact ⟨(hunread sdp hsdp).1, hkeep (hunread sdp hsdp).2⟩

theorem Consistent.register {id : String} (hconsistent : c.Consistent) :
    Consistent { c with
      phases := Function.update c.phases id .waiting
      onAnswer := id :: c.onAnswer } := by
  obtain ⟨hcallbacks, hsent, hoffered, hunread, honce⟩ := hconsistent
  have hkeep {id' : String} (hpending : c.Pending id') :
      Pending { c with phases := Function.update c.phases id .waiting } id' :=
    hpending.update fun _ => .inr rfl
  refine ⟨fun id' => ?_, fun sdp hsdp => ?_, fun id' hid' => ?_, fun sdp hsdp => ?_, honce⟩
  · simp only [Function.update_apply, List.mem_cons]
    by_cases hid : id' = id
    · simp [hid]
    · rw [if_neg hid, or_iff_right hid]
      exact hcallbacks id'
  · exact (hsent sdp hsdp).update nofun fun _ => nofun
  · exact ⟨hkeep (hoffered id' hid').1, (hoffered id' hid').2⟩
  · exact ⟨(hunread sdp hsdp).1, hkeep (hunread sdp hsdp).2⟩

theorem Pending.sent {id : String} (hpending : c.Pending id) : c.Sent id := by
  unfold Sent
  rcases hpending with h | h
  all_goals
    rw [h]
    exact ⟨nofun, nofun⟩

theorem Consistent.answer {id sdp : String} (hconsistent : c.Consistent) (hid : id ∈ c.offered) :
    Consistent { c with
      offered := c.offered.filter (· ≠ id)
      answers := c.answers ++ [⟨id, sdp⟩]
      rx := c.rx ++ [.answer ⟨id, sdp⟩] } := by
  obtain ⟨hcallbacks, hsent, hoffered, hunread, honce⟩ := hconsistent
  obtain ⟨hpending, hnew⟩ := hoffered id hid
  refine ⟨hcallbacks, fun answer hanswer => ?_, fun id' hid' => ?_, fun answer hanswer => ?_, ?_⟩
  · rcases List.mem_append.mp hanswer with hanswer | hanswer
    · exact hsent answer hanswer
    · rw [List.mem_singleton.mp hanswer]
      exact hpending.sent
  · obtain ⟨hmem, hne⟩ := List.mem_filter.mp hid'
    refine ⟨(hoffered id' hmem).1, ?_⟩
    rw [List.map_append, List.mem_append]
    rintro (hold | hlast)
    · exact (hoffered id' hmem).2 hold
    · exact of_decide_eq_true hne (List.mem_singleton.mp hlast)
  · rcases List.mem_append.mp hanswer with hanswer | hanswer
    · exact ⟨List.mem_append_left _ (hunread answer hanswer).1, (hunread answer hanswer).2⟩
    · cases List.mem_singleton.mp hanswer
      exact ⟨List.mem_append_right _ (List.mem_singleton_self _), hpending⟩
  · rw [List.filterMap_append, List.nodup_append]
    refine ⟨honce, List.pairwise_singleton _ _, ?_⟩
    intro old hold new hlast heq
    have hnew' : new = id := List.mem_singleton.mp hlast
    obtain ⟨message, hmessage, hsession⟩ := List.mem_filterMap.mp hold
    cases message with
    | other => cases hsession
    | answer answer =>
        have hsame : answer.sessionId = id := by
          rw [← hnew', ← heq]
          exact Option.some.inj hsession
        exact hnew (List.mem_map.mpr ⟨answer, (hunread answer hmessage).1, hsame⟩)

/-- Reading a message, whether a callback is found or not. -/
theorem Consistent.read {message : WsServerMessage} {rx : List WsServerMessage}
    (hconsistent : c.Consistent) (hrx : c.rx = message :: rx) :
    Consistent (dispatch { c with rx := rx, forwarded := c.forwarded ++ [message] } message) := by
  have hother {sdp : WsServerSdpMessage} (hsdp : .answer sdp ∈ rx) :=
    hconsistent.other_session hrx hsdp
  obtain ⟨hcallbacks, hsent, hoffered, hunread, honce⟩ := hconsistent
  have hmem {later : WsServerMessage} (hlater : later ∈ rx) : later ∈ c.rx := by
    rw [hrx]
    exact List.mem_cons_of_mem _ hlater
  have honce' : (rx.filterMap sessionOf).Nodup := by
    rw [hrx] at honce
    exact honce.sublist (List.Sublist.filterMap _ (List.sublist_cons_self _ _))
  cases message with
  | other =>
      exact ⟨hcallbacks, hsent, hoffered, fun sdp hsdp => hunread sdp (hmem hsdp), honce'⟩
  | answer answer =>
      unfold dispatch
      simp only
      split_ifs with hfound
      · have hhead : WsServerMessage.answer answer ∈ c.rx := by
          rw [hrx]
          exact List.mem_cons_self
        have hkeep {id : String} (hid : id ≠ answer.sessionId) (hpending : c.Pending id) :
            Pending { c with phases :=
              Function.update c.phases answer.sessionId (.answered answer.sdp) } id :=
          hpending.update fun h => absurd h hid
        refine ⟨fun id => ?_, fun sdp hsdp => ?_, fun id hid => ?_, fun sdp hsdp => ?_, honce'⟩
        · simp only [Function.update_apply, List.mem_filter, decide_eq_true_eq]
          by_cases hid : id = answer.sessionId
          · simp [hid]
          · rw [if_neg hid, and_iff_left hid]
            exact hcallbacks id
        · exact (hsent sdp hsdp).update nofun fun _ => nofun
        · obtain ⟨hpending, hnew⟩ := hoffered id hid
          refine ⟨hkeep (fun h => hnew ?_) hpending, hnew⟩
          exact List.mem_map.mpr ⟨answer, (hunread answer hhead).1, h.symm⟩
        · obtain ⟨hknown, hpending⟩ := hunread sdp (hmem hsdp)
          refine ⟨hknown, hkeep (fun h => hother hsdp ?_) hpending⟩
          rw [h]
          rfl
      · exact ⟨hcallbacks, hsent, hoffered, fun sdp hsdp => hunread sdp (hmem hsdp), honce'⟩

theorem not_pending {id : String} (hphase : c.phases id = .idle ∨ c.phases id = .offering) :
    ¬ c.Pending id := by
  unfold Pending
  rcases hphase with hphase | hphase
  all_goals
    rw [hphase]
    rintro (h | h) <;> cases h

theorem Consistent.step {l : Label} (hconsistent : c.Consistent) (hstep : c.step l = some c') :
    c'.Consistent := by
  cases l with
  | start id =>
      obtain ⟨hphase, hstep⟩ := Option.ite_none_right_eq_some.mp hstep
      cases hstep
      refine hconsistent.rephase (not_pending (.inl hphase)) nofun nofun fun _ hsent => ?_
      exact hsent.1 hphase
  | sendOffer id =>
      obtain ⟨hphase, hstep⟩ := Option.ite_none_right_eq_some.mp hstep
      cases hstep
      have hnew : id ∉ c.answers.map WsServerSdpMessage.sessionId := by
        intro hmem
        obtain ⟨answer, hanswer, rfl⟩ := List.mem_map.mp hmem
        exact (hconsistent.sent answer hanswer).2 hphase
      have hrephased :
          Consistent { c with phases := Function.update c.phases id .registering } :=
        hconsistent.rephase (not_pending (.inr hphase)) nofun nofun nofun
      obtain ⟨hcallbacks, hsent, hoffered, hunread, honce⟩ := hrephased
      refine ⟨hcallbacks, hsent, fun id' hid' => ?_, hunread, honce⟩
      rcases List.mem_append.mp hid' with hid' | hid'
      · exact hoffered id' hid'
      · rw [List.mem_singleton.mp hid']
        refine ⟨.inl ?_, hnew⟩
        exact Function.update_self ..
  | onAnswer id =>
      obtain ⟨-, hstep⟩ := Option.ite_none_right_eq_some.mp hstep
      cases hstep
      exact hconsistent.register
  | answer id sdp =>
      obtain ⟨hid, hstep⟩ := Option.ite_none_right_eq_some.mp hstep
      cases hstep
      exact hconsistent.answer hid
  | other =>
      cases hstep
      obtain ⟨hcallbacks, hsent, hoffered, hunread, honce⟩ := hconsistent
      refine ⟨hcallbacks, hsent, hoffered, fun sdp hsdp => ?_, ?_⟩
      · rcases List.mem_append.mp hsdp with hsdp | hsdp
        · exact hunread sdp hsdp
        · cases List.mem_singleton.mp hsdp
      · rw [List.filterMap_append]
        exact (List.append_nil (c.rx.filterMap sessionOf)).symm ▸ honce
  | read =>
      unfold SignalingClient.step at hstep
      simp only at hstep
      split at hstep
      · rename_i message rx hrx
        cases hstep
        exact hconsistent.read hrx
      · cases hstep

/-! ## §4  Delivered answers -/

/-- Every answer waits to be read or has reached its `send_offer`. -/
def Delivers (c : SignalingClient) : Prop :=
  ∀ sdp ∈ c.answers, .answer sdp ∈ c.rx ∨ c.phases sdp.sessionId = .answered sdp.sdp

/-- A session that has its answer keeps it while others go on. -/
theorem Delivers.rephase {id : String} {phase : OfferPhase} (hdelivers : c.Delivers)
    (hold : ∀ sdp, c.phases id ≠ .answered sdp) :
    Delivers { c with phases := Function.update c.phases id phase } := by
  intro sdp hsdp
  refine (hdelivers sdp hsdp).imp_right fun hphase => ?_
  have hid : sdp.sessionId ≠ id := by
    rintro rfl
    exact hold _ hphase
  show Function.update c.phases id phase sdp.sessionId = _
  rw [Function.update_of_ne hid, hphase]

theorem Delivers.read {message : WsServerMessage} {rx : List WsServerMessage}
    (hconsistent : c.Consistent) (hdelivers : c.Delivers) (hregistered : c.Registered .read)
    (hrx : c.rx = message :: rx) :
    Delivers (dispatch { c with rx := rx, forwarded := c.forwarded ++ [message] } message) := by
  have hrest {sdp : WsServerSdpMessage} (hsdp : sdp ∈ c.answers)
      (hother : message ≠ .answer sdp) :
      .answer sdp ∈ rx ∨ c.phases sdp.sessionId = .answered sdp.sdp := by
    refine (hdelivers sdp hsdp).imp_left fun hmem => ?_
    rw [hrx] at hmem
    exact (List.mem_cons.mp hmem).resolve_left hother.symm
  cases message with
  | other => exact fun sdp hsdp => hrest hsdp nofun
  | answer answer =>
      have hhead : .answer answer ∈ c.rx := by
        rw [hrx]
        exact List.mem_cons_self
      obtain ⟨-, hpending⟩ := hconsistent.unread answer hhead
      have hwaiting : c.phases answer.sessionId = .waiting :=
        hpending.resolve_left (hregistered rfl answer (by rw [hrx]; rfl))
      have hfound : answer.sessionId ∈ c.onAnswer := (hconsistent.callbacks _).mpr hwaiting
      unfold dispatch
      simp only [if_pos hfound]
      intro sdp hsdp
      by_cases hsame : answer = sdp
      · subst hsame
        exact .inr (Function.update_self ..)
      · refine (hrest hsdp fun h => hsame (WsServerMessage.answer.inj h)).imp_right fun hphase => ?_
        have hid : sdp.sessionId ≠ answer.sessionId := by
          intro hid
          rw [hid, hwaiting] at hphase
          cases hphase
        show Function.update c.phases answer.sessionId _ sdp.sessionId = _
        rw [Function.update_of_ne hid, hphase]

theorem Delivers.step {l : Label} (hconsistent : c.Consistent) (hdelivers : c.Delivers)
    (hregistered : c.Registered l) (hstep : c.step l = some c') : c'.Delivers := by
  cases l with
  | start id | sendOffer id | onAnswer id =>
      obtain ⟨hphase, hstep⟩ := Option.ite_none_right_eq_some.mp hstep
      cases hstep
      have hold (sdp : String) : c.phases id ≠ .answered sdp := by
        rw [hphase]
        exact nofun
      exact hdelivers.rephase hold
  | answer id sdp =>
      obtain ⟨-, hstep⟩ := Option.ite_none_right_eq_some.mp hstep
      cases hstep
      intro answer hanswer
      rcases List.mem_append.mp hanswer with hanswer | hanswer
      · exact (hdelivers answer hanswer).imp_left (List.mem_append_left _)
      · rw [List.mem_singleton.mp hanswer]
        exact .inl (List.mem_append_right _ (List.mem_singleton_self _))
  | other =>
      cases hstep
      exact fun sdp hsdp => (hdelivers sdp hsdp).imp_left (List.mem_append_left _)
  | read =>
      unfold SignalingClient.step at hstep
      simp only at hstep
      split at hstep
      · rename_i message rx hrx
        cases hstep
        exact Delivers.read hconsistent hdelivers hregistered hrx
      · cases hstep

/-! ## §5  Answers that are lost -/

/-- The answer was read without a callback; its session still waits for it. -/
structure Lost (c : SignalingClient) (sdp : WsServerSdpMessage) : Prop where
  answered : sdp ∈ c.answers
  gone : ∀ later, .answer later ∈ c.rx → later.sessionId ≠ sdp.sessionId
  pending : c.Pending sdp.sessionId
  taken : sdp.sessionId ∉ c.offered

theorem Lost.phase {sdp : WsServerSdpMessage} (hlost : c.Lost sdp) (answer : String) :
    c.phases sdp.sessionId ≠ .answered answer := by
  rcases hlost.pending with h | h
  all_goals
    rw [h]
    exact nofun

theorem Lost.step {sdp : WsServerSdpMessage} {l : Label} (hlost : c.Lost sdp)
    (hstep : c.step l = some c') : c'.Lost sdp := by
  obtain ⟨hanswered, hgone, hpending, htaken⟩ := hlost
  cases l with
  | start id =>
      obtain ⟨hphase, hstep⟩ := Option.ite_none_right_eq_some.mp hstep
      cases hstep
      refine ⟨hanswered, hgone, hpending.update fun hid => ?_, htaken⟩
      exact absurd hpending (not_pending (.inl (hid ▸ hphase)))
  | sendOffer id =>
      obtain ⟨hphase, hstep⟩ := Option.ite_none_right_eq_some.mp hstep
      cases hstep
      refine ⟨hanswered, hgone, hpending.update fun _ => .inl rfl, fun hmem => ?_⟩
      rcases List.mem_append.mp hmem with hmem | hmem
      · exact htaken hmem
      · rw [List.mem_singleton.mp hmem] at hpending
        exact not_pending (.inr hphase) hpending
  | onAnswer id =>
      obtain ⟨-, hstep⟩ := Option.ite_none_right_eq_some.mp hstep
      cases hstep
      exact ⟨hanswered, hgone, hpending.update fun _ => .inr rfl, htaken⟩
  | answer id answer =>
      obtain ⟨hid, hstep⟩ := Option.ite_none_right_eq_some.mp hstep
      cases hstep
      refine ⟨List.mem_append_left _ hanswered, fun later hlater => ?_, hpending, fun hmem =>
        htaken (List.mem_filter.mp hmem).1⟩
      rcases List.mem_append.mp hlater with hlater | hlater
      · exact hgone later hlater
      · cases List.mem_singleton.mp hlater
        rintro rfl
        exact htaken hid
  | other =>
      cases hstep
      refine ⟨hanswered, fun later hlater => ?_, hpending, htaken⟩
      rcases List.mem_append.mp hlater with hlater | hlater
      · exact hgone later hlater
      · cases List.mem_singleton.mp hlater
  | read =>
      unfold SignalingClient.step at hstep
      simp only at hstep
      split at hstep
      · rename_i message rx hrx
        cases hstep
        have hgone' : ∀ later, .answer later ∈ rx → later.sessionId ≠ sdp.sessionId := by
          intro later hlater
          refine hgone later ?_
          rw [hrx]
          exact List.mem_cons_of_mem _ hlater
        cases message with
        | other => exact ⟨hanswered, hgone', hpending, htaken⟩
        | answer answer =>
            have hid : answer.sessionId ≠ sdp.sessionId := by
              refine hgone answer ?_
              rw [hrx]
              exact List.mem_cons_self
            unfold dispatch
            simp only
            split_ifs
            · exact ⟨hanswered, hgone', hpending.update fun h => absurd h.symm hid, htaken⟩
            · exact ⟨hanswered, hgone', hpending, htaken⟩
      · cases hstep

/-- An answer that is read before the callback is registered is lost. -/
theorem Consistent.exists_lost (hconsistent : c.Consistent) (hnot : ¬ c.Registered .read) :
    ∃ sdp c', c.step .read = some c' ∧ c'.Lost sdp := by
  unfold Registered at hnot
  simp only [not_forall, not_not] at hnot
  obtain ⟨-, sdp, hhead, hphase⟩ := hnot
  obtain ⟨rx, hrx⟩ := List.head?_eq_some_iff.mp hhead
  have hmem : .answer sdp ∈ c.rx := by
    rw [hrx]
    exact List.mem_cons_self
  obtain ⟨hanswered, hpending⟩ := hconsistent.unread sdp hmem
  have hnone : sdp.sessionId ∉ c.onAnswer := by
    rw [hconsistent.callbacks, hphase]
    exact nofun
  refine ⟨sdp, { c with rx := rx, forwarded := c.forwarded ++ [.answer sdp] }, ?_, hanswered,
    fun later hlater heq => ?_, hpending, fun hoffered => ?_⟩
  · unfold SignalingClient.step
    simp only [hrx, dispatch, if_neg hnone]
  · refine hconsistent.other_session hrx hlater ?_
    rw [heq]
    rfl
  · exact (hconsistent.offered _ hoffered).2 (List.mem_map.mpr ⟨sdp, hanswered, rfl⟩)

/-! ## §6  Every schedule -/

theorem consistent_of_reach (hrun : Reach step init c) : c.Consistent :=
  hrun.invariant .init fun _ _ _ hconsistent _ hstep => hconsistent.step hstep

/-- **Answers reach their `send_offer`** in every schedule that reads none before its
callback is registered, and one that is read before it is lost for good. -/
theorem answers_delivered (c : SignalingClient) :
    (Run step Registered init c → c.Delivers) ∧
      (Reach step init c → ¬ c.Registered .read →
        ∃ sdp c', c.step .read = some c' ∧ sdp ∈ c'.answers ∧
          ∀ c'', Reach step c' c'' → .answer sdp ∉ c''.rx ∧
            ∀ answer, c''.phases sdp.sessionId ≠ .answered answer) := by
  constructor
  · intro hrun
    have hinv : c.Consistent ∧ c.Delivers := by
      refine hrun.invariant (I := fun c => c.Consistent ∧ c.Delivers) ⟨.init, nofun⟩ ?_
      rintro m l t ⟨hconsistent, hdelivers⟩ hok hstep
      exact ⟨hconsistent.step hstep, Delivers.step hconsistent hdelivers hok hstep⟩
    exact hinv.2
  · intro hrun hnot
    obtain ⟨sdp, c', hstep, hlost⟩ := (consistent_of_reach hrun).exists_lost hnot
    refine ⟨sdp, c', hstep, hlost.answered, fun c'' hrun' => ?_⟩
    have hlost' : c''.Lost sdp :=
      hrun'.invariant (I := fun c => c.Lost sdp) hlost fun _ _ _ hlost _ hstep => hlost.step hstep
    exact ⟨fun hmem => hlost'.gone sdp hmem rfl, hlost'.phase⟩

/-- An answer that is read after its callback was registered. -/
theorem answers_delivered_registered : ∃ c, Run step Registered init c ∧
    c.answers = [⟨"s", "sdp"⟩] ∧ c.rx = [] ∧ c.Delivers := by
  obtain ⟨c, hexec, hc⟩ := exists_of_exec_any step init
    [.start "s", .sendOffer "s", .answer "s" "sdp", .onAnswer "s", .read]
    (fun c => c.answers = [⟨"s", "sdp"⟩] ∧ c.rx = []) (by decide +kernel)
  obtain ⟨hanswers, hrx⟩ := of_decide_eq_true hc
  have hrun : Run step Registered init c := run_of_exec hexec (by decide +kernel)
  exact ⟨c, hrun, hanswers, hrx, (answers_delivered c).1 hrun⟩

/-- The peer answers at once, and the listener is faster than `send_offer`. -/
theorem answer_lost : ¬ ∀ c, Reach step init c → c.Delivers := by
  intro hall
  obtain ⟨c, hexec, hc⟩ := exists_of_exec_any step init
    [.start "s", .sendOffer "s", .answer "s" "sdp", .read]
    (fun c => c.phases "s" = .registering ∧ c.answers = [⟨"s", "sdp"⟩] ∧ c.rx = [])
    (by decide +kernel)
  obtain ⟨hphase, hanswers, hrx⟩ := of_decide_eq_true hc
  have hmem : (⟨"s", "sdp"⟩ : WsServerSdpMessage) ∈ c.answers := by
    rw [hanswers]
    exact List.mem_singleton_self _
  rcases hall c (run_of_exec hexec (guarded_trivial _ _)) _ hmem with hunread | hphase'
  · rw [hrx] at hunread
    cases hunread
  · rw [hphase] at hphase'
    cases hphase'

end SignalingClient

end FireBoxTransfer.WebRTC
