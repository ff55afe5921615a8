import FireBoxTransfer.Bridge.RemoteFsRequests

/-!
# The steps of remote-filesystem requests

What one step does to the state, and what it does to one request: a request stays what it is,
one that is over stays over, and an answer comes from the identifier that its responder is
stored under.
-/

namespace FireBoxTransfer

namespace RemoteFsBridge

variable {check : ReplyCheck}

/-! ## §1  What a step does -/

/-- What one act of a handler does. -/
inductive Acted (check : ReplyCheck) (p : State) (r : ℕ) (q : Request) : State → Prop where
  | parsed (h : q.phase = .parsing) : Acted check p r q (p.setPhase r q .sending)
  | sent (h : q.phase = .sending) (hloop : p.loop ≠ .ended) :
      Acted check p r q { p.setPhase r q .waiting with channel := p.channel ++ [r] }
  | served {requestId : ℕ} {reply : RemoteFsReply} (h : q.phase = .waiting)
      (hsent : q.responder = .sent requestId reply) (hcheck : check q.request reply = .ok ()) :
      Acted check p r q (p.setPhase r q (.serving reply))
  | closed (outcome : Outcome) (h : q.phase.isLive = true)
      (hanswered : ∀ reply, outcome = .answered reply → q.phase = .serving reply ∨
        ∃ requestId, q.responder = .sent requestId reply ∧ check q.request reply = .ok ()) :
      Acted check p r q (p.close r q outcome)

theorem answered_cases {p : State} {r : ℕ} {q : Request} {requestId : ℕ} {reply : RemoteFsReply}
    (hphase : q.phase = .waiting) (hsent : q.responder = .sent requestId reply) :
    Acted check p r q (p.answered check r q reply) := by
  have hlive : q.phase.isLive = true := hphase ▸ rfl
  unfold State.answered
  split
  · exact .closed _ hlive fun _ heq => by cases heq
  · exact .closed _ hlive fun _ heq => by cases heq
  · rename_i hcheck
    exact .served hphase hsent hcheck
  · rename_i hcheck
    exact .served hphase hsent hcheck
  · rename_i hcheck
    refine .closed _ hlive fun reply' heq => .inr ?_
    obtain rfl := Outcome.answered.inj heq
    exact ⟨requestId, hsent, hcheck⟩

theorem act_cases {p p' : State} {r : ℕ} {q : Request} {a : State.Act}
    (h : p.act check r q q.phase a = some p') : Acted check p r q p' := by
  generalize hphase : q.phase = phase at h
  have hclosed : ∀ outcome, phase.isLive = true → (∀ reply, outcome ≠ .answered reply) →
      Acted check p r q (p.close r q outcome) := by
    intro outcome hlive hne
    exact .closed outcome (hphase ▸ hlive) fun reply heq => absurd heq (hne reply)
  unfold State.act at h
  split at h
  case h_1 =>
    obtain rfl := Option.some.inj h
    exact .parsed hphase
  case h_2 =>
    obtain rfl := Option.some.inj h
    exact hclosed _ rfl fun _ heq => by cases heq
  case h_3 =>
    split at h
    · obtain rfl := Option.some.inj h
      exact hclosed _ rfl fun _ heq => by cases heq
    · rename_i hloop
      split at h
      · obtain rfl := Option.some.inj h
        exact .sent hphase hloop
      · cases h
  case h_4 =>
    split at h
    · cases h
    · rename_i requestId reply hsent
      obtain rfl := Option.some.inj h
      exact answered_cases hphase hsent
    · obtain rfl := Option.some.inj h
      exact hclosed _ rfl fun _ heq => by cases heq
  case h_5 =>
    obtain rfl := Option.some.inj h
    exact hclosed _ rfl fun _ heq => by cases heq
  case h_6 =>
    obtain rfl := Option.some.inj h
    exact hclosed _ rfl fun _ heq => by cases heq
  case h_7 =>
    obtain rfl := Option.some.inj h
    exact hclosed _ rfl fun _ heq => by cases heq
  case h_8 =>
    obtain rfl := Option.some.inj h
    refine .closed _ (hphase ▸ rfl) fun reply heq => .inl ?_
    rw [hphase, Outcome.answered.inj heq]
  case h_9 => cases h
  case h_10 =>
    obtain rfl := Option.some.inj h
    refine hclosed _ ?_ fun _ heq => by cases heq
    cases phase <;> first | rfl | simp_all
  case h_11 => cases h

/-- The request whose event the loop has taken. -/
def Loop.held : Loop → List ℕ
  | .handle r => [r]
  | _ => []

/-- What a step does. -/
inductive Moved (check : ReplyCheck) (p : State) : State → Prop where
  | arrived (request : RemoteFsRequest) : Moved check p (p.arrive request)
  | acted {r : ℕ} {q : Request} {p' : State} (hq : p.requests[r]? = some q)
      (h : Acted check p r q p') : Moved check p p'
  | taken {r : ℕ} {channel : List ℕ} (hloop : p.loop = .idle)
      (hchannel : p.channel = r :: channel) : Moved check p { p with loop := .handle r, channel }
  | handedOn {r requestId : ℕ} (hloop : p.loop = .emit r requestId) :
      Moved check p { p with loop := .idle, sink := p.sink ++ [requestId] }
  | finished (hloop : p.loop.held = []) : Moved check p p.endLoop
  | turned {r : ℕ} (hloop : p.loop = .handle r)
      (hfull : defaultMaxConcurrentRequests ≤ p.prune.pending.entries.length) :
      Moved check p { p.prune.dropResponders [r] with
        loop := .idle, turnedAway := p.turnedAway ++ [r] }
  | drawn {r requestId : ℕ} (hloop : p.loop = .handle r)
      (hroom : p.prune.pending.entries.length < defaultMaxConcurrentRequests)
      (hfresh : p.issued.get? requestId = none) :
      Moved check p { p.prune with
        loop := .emit r requestId
        pending := p.prune.pending.insert requestId r
        issued := p.issued.insert requestId r }
  | pruned (hloop : p.loop = .idle) : Moved check p p.prune
  | closedSink : Moved check p { p with sinkOpen := false }
  | replied {requestId r : ℕ} {reply : RemoteFsReply}
      (hstored : p.pending.get? requestId = some r)
      (hkind : ∀ kind, Kind.ofReply reply = some kind →
        (p.requests[r]?.map fun q => Kind.ofRequest q.request) = some kind) :
      Moved check p ((p.takeResponder requestId).deliver requestId r reply)
  | unusable {requestId r : ℕ} (hstored : p.pending.get? requestId = some r) :
      Moved check p ((p.takeResponder requestId).dropResponders [r])
  | same : Moved check p p

theorem listen_moved {p p' : State} (h : p.listen = some p') : Moved check p p' := by
  unfold State.listen at h
  split at h
  · rename_i hloop
    split at h
    · cases h
    · rename_i r channel hchannel
      obtain rfl := Option.some.inj h
      exact .taken hloop hchannel
  · rename_i r requestId hloop
    split at h
    · obtain rfl := Option.some.inj h
      exact .handedOn hloop
    · obtain rfl := Option.some.inj h
      refine .finished ?_
      rw [hloop]
      rfl
  · cases h
  · cases h

theorem draw_moved {p p' : State} {requestId : ℕ} (h : p.draw requestId = some p') :
    Moved check p p' := by
  unfold State.draw at h
  split at h
  · rename_i r hloop
    split at h
    · rename_i hfresh
      dsimp only at h
      split at h
      · rename_i hfull
        obtain rfl := Option.some.inj h
        exact .turned hloop hfull
      · rename_i hroom
        obtain rfl := Option.some.inj h
        exact .drawn hloop (Nat.lt_of_not_le hroom) hfresh
    · cases h
  · cases h

theorem reply_moved (android : Bool) (p : State) (requestId : ℕ) (reply : RemoteFsReply) :
    Moved check p (p.reply android requestId reply) := by
  unfold State.reply
  split
  · exact .same
  · rename_i r hstored
    dsimp only
    split
    · rename_i hnone
      refine .replied hstored fun kind hkind => ?_
      rw [hnone] at hkind
      cases hkind
    · rename_i kind hsome
      split
      · exact .same
      · rename_i hfits
        have hreplied : Moved check p ((p.takeResponder requestId).deliver requestId r reply) := by
          refine .replied hstored fun kind' hkind' => ?_
          rw [hsome] at hkind'
          rw [← hkind']
          exact Decidable.not_not.mp hfits
        split
        · split
          · exact hreplied
          · exact .same
        · split
          · exact hreplied
          · exact .unusable hstored
        · exact hreplied

theorem step_moved {android : Bool} {p p' : State} {l : Label}
    (h : step android check p l = some p') : Moved check p p' := by
  cases l with
  | request request =>
      obtain rfl := Option.some.inj h
      exact .arrived request
  | act r a =>
      obtain ⟨q, hq, hact⟩ := Option.bind_eq_some_iff.mp h
      exact .acted hq (act_cases hact)
  | listen => exact listen_moved h
  | draw requestId => exact draw_moved h
  | tick =>
      change p.tick = some p' at h
      unfold State.tick at h
      split at h
      · rename_i hloop
        obtain rfl := Option.some.inj h
        exact .pruned hloop
      · cases h
  | stop =>
      change p.stop = some p' at h
      unfold State.stop at h
      split at h
      · rename_i hloop
        obtain rfl := Option.some.inj h
        refine .finished ?_
        rw [hloop.1]
        rfl
      · cases h
  | closeSink =>
      obtain rfl := Option.some.inj h
      exact .closedSink
  | reply requestId reply =>
      obtain rfl := Option.some.inj h
      exact reply_moved android p requestId reply

/-! ## §2  One request -/

@[simp] theorem Request.drop_phase (q : Request) : q.drop.phase = q.phase := by
  unfold Request.drop
  split <;> rfl

@[simp] theorem Request.drop_request (q : Request) : q.drop.request = q.request := by
  unfold Request.drop
  split <;> rfl

@[simp] theorem State.dropResponders_getElem? (p : State) (rs : List ℕ) (r : ℕ) :
    (p.dropResponders rs).requests[r]? =
      p.requests[r]?.map fun q => if r ∈ rs then q.drop else q :=
  List.getElem?_mapIdx

/-- The reply that a handler responds with. -/
def Phase.answers : Phase → Option RemoteFsReply
  | .serving reply | .ended (.answered reply) => some reply
  | _ => none

/-- What one step does to a request. -/
structure Follows (check : ReplyCheck) (p : State) (r : ℕ) (q q' : Request) : Prop where
  request : q'.request = q.request
  finished : q.phase.isLive = false → q'.phase.isLive = false
  answers : ∀ reply, q'.phase.answers = some reply →
    q.phase.answers = some reply ∧ (q.responder = .unsent ∨ q'.responder = q.responder) ∨
    ∃ requestId, q'.responder = .sent requestId reply ∧ check q.request reply = .ok ()
  responder : q'.responder = q.responder ∨ q'.responder = .dropped ∨
    ∃ requestId reply, q'.responder = .sent requestId reply ∧
      p.pending.get? requestId = some r ∧
      ∀ kind, Kind.ofReply reply = some kind → Kind.ofRequest q.request = kind

theorem Follows.refl (p : State) (r : ℕ) (q : Request) : Follows check p r q q :=
  ⟨rfl, fun h => h, fun _ h => .inl ⟨h, .inr rfl⟩, .inl rfl⟩

theorem Follows.setPhase (p : State) (r : ℕ) {q : Request} {phase : Phase}
    (hlive : q.phase.isLive = true)
    (hanswers : ∀ reply, phase.answers = some reply → q.phase = .serving reply ∨
      ∃ requestId, q.responder = .sent requestId reply ∧ check q.request reply = .ok ()) :
    Follows check p r q { q with phase } := by
  refine ⟨rfl, fun hover => ?_, fun reply h => ?_, .inl rfl⟩
  · rw [hlive] at hover
    cases hover
  · rcases hanswers reply h with hserving | hsent
    · exact .inl ⟨by rw [hserving]; rfl, .inr rfl⟩
    · exact .inr hsent

theorem Follows.drop (p : State) (r : ℕ) (q : Request) : Follows check p r q q.drop := by
  refine ⟨q.drop_request, fun hover => by rwa [q.drop_phase], fun reply h => .inl ?_, ?_⟩
  · rw [q.drop_phase] at h
    refine ⟨h, ?_⟩
    unfold Request.drop
    split
    · exact .inl ‹_›
    · exact .inr rfl
  · unfold Request.drop
    split
    · exact .inr (.inl rfl)
    · exact .inl rfl

theorem State.waiting_of_open {p : State} {r : ℕ} {q : Request} (hq : p.requests[r]? = some q)
    (hopen : p.isClosed r = false) : q.phase = .waiting := by
  unfold State.isClosed at hopen
  rwa [hq, Option.any_some, Bool.not_eq_false', decide_eq_true_eq] at hopen

theorem exists_follows_set {p : State} {r r' : ℕ} {q q' v : Request}
    (hq : p.requests[r]? = some q) (hv : p.requests[r']? = some v)
    (h : Follows check p r q q') :
    ∃ v', (p.requests.set r q')[r']? = some v' ∧ Follows check p r' v v' := by
  by_cases hr : r' = r
  · subst hr
    obtain rfl := Option.some.inj (hq.symm.trans hv)
    exact ⟨q', List.getElem?_set_self (List.getElem?_eq_some_iff.mp hq).1, h⟩
  · exact ⟨v, (List.getElem?_set_ne (Ne.symm hr)).trans hv, .refl p r' v⟩

theorem exists_follows_drop {p p' : State} {rs : List ℕ} {r : ℕ} {q : Request}
    (hq : p.requests[r]? = some q) :
    ∃ q', (p.dropResponders rs).requests[r]? = some q' ∧ Follows check p' r q q' := by
  rw [State.dropResponders_getElem?, hq]
  refine ⟨_, rfl, ?_⟩
  split
  · exact .drop p' r q
  · exact .refl p' r q

theorem Acted.follows {p p' : State} {r r' : ℕ} {q v : Request} (h : Acted check p r q p')
    (hq : p.requests[r]? = some q) (hv : p.requests[r']? = some v) :
    ∃ v', p'.requests[r']? = some v' ∧ Follows check p r' v v' := by
  cases h with
  | parsed h =>
      exact exists_follows_set hq hv (.setPhase p _ (h ▸ rfl) fun _ heq => by cases heq)
  | sent h _ =>
      exact exists_follows_set hq hv (.setPhase p _ (h ▸ rfl) fun _ heq => by cases heq)
  | @served requestId reply h hsent hcheck =>
      refine exists_follows_set hq hv (.setPhase p _ (h ▸ rfl) fun reply' heq => .inr ?_)
      obtain rfl := Option.some.inj heq
      exact ⟨requestId, hsent, hcheck⟩
  | closed outcome h hanswered =>
      refine exists_follows_set hq hv (.setPhase p _ h fun reply heq => hanswered reply ?_)
      cases outcome with
      | answered reply' => exact congrArg Outcome.answered (Option.some.inj heq)
      | failed code => cases heq
      | gone => cases heq

theorem Moved.follows {p p' : State} (h : Moved check p p') {r : ℕ} {q : Request}
    (hq : p.requests[r]? = some q) : ∃ q', p'.requests[r]? = some q' ∧ Follows check p r q q' := by
  cases h with
  | arrived request =>
      have hr := (List.getElem?_eq_some_iff.mp hq).1
      unfold State.arrive
      split
      · exact ⟨q, (List.getElem?_append_left hr).trans hq, .refl p r q⟩
      · exact ⟨q, (List.getElem?_append_left hr).trans hq, .refl p r q⟩
  | acted hv h => exact h.follows hv hq
  | finished _ => exact exists_follows_drop hq
  | turned _ _ => exact exists_follows_drop (p := p.prune) hq
  | @replied requestId r' reply hstored hkind =>
      unfold State.deliver
      split
      · rename_i v hv
        split
        · exact exists_follows_drop (p := p.takeResponder requestId) hq
        · rename_i hopen
          have hwait := State.waiting_of_open hv (Bool.eq_false_of_not_eq_true hopen)
          refine exists_follows_set (p := p) hv hq ⟨rfl, fun h => h, fun reply' heq => ?_, ?_⟩
          · change v.phase.answers = some reply' at heq
            rw [hwait] at heq
            cases heq
          · refine .inr (.inr ⟨requestId, reply, rfl, hstored, fun kind hreply => ?_⟩)
            have hfits := hkind kind hreply
            rw [show p.requests[r']? = some v from hv] at hfits
            exact Option.some.inj hfits
      · exact ⟨q, hq, .refl p r q⟩
  | unusable _ => exact exists_follows_drop (p := p.takeResponder _) hq
  | taken _ _ => exact ⟨q, hq, .refl p r q⟩
  | handedOn _ => exact ⟨q, hq, .refl p r q⟩
  | drawn _ _ _ => exact ⟨q, hq, .refl p r q⟩
  | pruned _ => exact ⟨q, hq, .refl p r q⟩
  | closedSink => exact ⟨q, hq, .refl p r q⟩
  | same => exact ⟨q, hq, .refl p r q⟩

theorem deliver_frame (p : State) (requestId r : ℕ) (reply : RemoteFsReply) :
    (p.deliver requestId r reply).pending = p.pending ∧
      (p.deliver requestId r reply).issued = p.issued ∧
      (p.deliver requestId r reply).turnedAway = p.turnedAway := by
  unfold State.deliver
  split
  · split
    · exact ⟨rfl, rfl, rfl⟩
    · exact ⟨rfl, rfl, rfl⟩
  · exact ⟨rfl, rfl, rfl⟩

theorem Acted.frame {p p' : State} {r : ℕ} {q : Request} (h : Acted check p r q p') :
    p'.pending = p.pending ∧ p'.issued = p.issued ∧ p'.turnedAway = p.turnedAway := by
  cases h with
  | parsed _ => exact ⟨rfl, rfl, rfl⟩
  | sent _ _ => exact ⟨rfl, rfl, rfl⟩
  | served _ _ => exact ⟨rfl, rfl, rfl⟩
  | closed _ _ => exact ⟨rfl, rfl, rfl⟩

end RemoteFsBridge

end FireBoxTransfer
