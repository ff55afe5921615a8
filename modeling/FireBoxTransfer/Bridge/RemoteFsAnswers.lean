import FireBoxTransfer.Bridge.RemoteFsSlots
import FireBoxTransfer.Framework.Progress
import FireBoxTransfer.Framework.TaskPool
import Mathlib.Data.Fintype.EquivFin

/-!
# Answers to remote-filesystem requests

A handler responds with what was given for the identifier that was drawn for its request, and
only with that; its responder is in one place until then. Left to themselves the server and the
bridge come to rest, and whoever waits then can be answered. That nobody listens any more is
noticed by the next event only.
-/

namespace FireBoxTransfer

open Runs

namespace RemoteFsBridge

variable {check : ReplyCheck} {android : Bool}

/-! ## §1  What a handler responds with -/

/-- An answer came for the identifier that was drawn for the request, and is of its kind. A
handler that responds has checked it. -/
structure Correlated (check : ReplyCheck) (p : State) : Prop where
  sent : ∀ (r : ℕ) (q : Request), p.requests[r]? = some q → ∀ requestId reply,
    q.responder = .sent requestId reply →
      p.issued.get? requestId = some r ∧
        ∀ kind, Kind.ofReply reply = some kind → Kind.ofRequest q.request = kind
  checked : ∀ (r : ℕ) (q : Request), p.requests[r]? = some q → ∀ reply,
    q.phase.answers = some reply →
      ∃ requestId, q.responder = .sent requestId reply ∧ check q.request reply = .ok ()

theorem Moved.issued {p p' : State} (h : Moved check p p') {requestId r : ℕ}
    (hissued : p.issued.get? requestId = some r) : p'.issued.get? requestId = some r := by
  cases h with
  | arrived request =>
      unfold State.arrive
      split <;> exact hissued
  | acted _ h => rwa [h.frame.2.1]
  | @drawn r' requestId' _ _ hfresh =>
      change (p.issued.insert requestId' r').get? requestId = some r
      rw [AssocMap.get?_insert_ne, hissued]
      rintro rfl
      rw [hfresh] at hissued
      cases hissued
  | replied _ _ => rwa [(deliver_frame _ _ _ _).2.1]
  | finished _ => exact hissued
  | turned _ _ => exact hissued
  | unusable _ => exact hissued
  | pruned _ => exact hissued
  | taken _ _ => exact hissued
  | handedOn _ => exact hissued
  | closedSink => exact hissued
  | same => exact hissued

/-- A request of the next state is one of this state, or it has just arrived. -/
theorem Moved.origin {p p' : State} (h : Moved check p p') {r : ℕ} {q' : Request}
    (hq' : p'.requests[r]? = some q') :
    (∃ q, p.requests[r]? = some q ∧ Follows check p r q q') ∨
      (q'.responder = .unsent ∧ q'.phase.answers = none) := by
  cases hq : p.requests[r]? with
  | some q =>
      obtain ⟨q'', hq'', hfollows⟩ := h.follows hq
      obtain rfl := Option.some.inj (hq''.symm.trans hq')
      exact .inl ⟨q, rfl, hfollows⟩
  | none =>
      right
      have hlen := List.getElem?_eq_none_iff.mp hq
      have hlt := (List.getElem?_eq_some_iff.mp hq').1
      have hnew : ∀ requests : List Request, requests.length = p.requests.length →
          requests[r]? = some q' → q'.responder = .unsent ∧ q'.phase.answers = none := by
        intro requests hlength hsome
        rw [List.getElem?_eq_none (by omega)] at hsome
        cases hsome
      cases h with
      | arrived request =>
          unfold State.arrive at hq'
          split at hq'
          · rw [List.getElem?_append_right hlen, List.getElem?_singleton] at hq'
            split at hq'
            · obtain rfl := Option.some.inj hq'
              exact ⟨rfl, rfl⟩
            · cases hq'
          · rw [List.getElem?_append_right hlen, List.getElem?_singleton] at hq'
            split at hq'
            · obtain rfl := Option.some.inj hq'
              exact ⟨rfl, rfl⟩
            · cases hq'
      | acted _ h =>
          cases h with
          | parsed _ => exact hnew _ List.length_set hq'
          | sent _ _ => exact hnew _ List.length_set hq'
          | served _ _ _ => exact hnew _ List.length_set hq'
          | closed _ _ _ => exact hnew _ List.length_set hq'
      | finished _ => exact hnew _ List.length_mapIdx hq'
      | turned _ _ => exact hnew _ List.length_mapIdx hq'
      | unusable _ => exact hnew _ List.length_mapIdx hq'
      | replied _ _ =>
          unfold State.deliver at hq'
          split at hq'
          · split at hq'
            · exact hnew _ List.length_mapIdx hq'
            · exact hnew _ List.length_set hq'
          · exact hnew _ rfl hq'
      | drawn _ _ _ => exact hnew _ rfl hq'
      | pruned _ => exact hnew _ rfl hq'
      | taken _ _ => exact hnew _ rfl hq'
      | handedOn _ => exact hnew _ rfl hq'
      | closedSink => exact hnew _ rfl hq'
      | same => exact hnew _ rfl hq'

theorem Moved.correlated {p p' : State} (h : Moved check p p') (hknown : Known p)
    (hp : Correlated check p) : Correlated check p' where
  sent r q' hq' requestId reply hsent := by
    rcases h.origin hq' with ⟨q, hq, hfollows⟩ | ⟨hunsent, -⟩
    · rw [hfollows.request]
      rcases hfollows.responder with hsame | hdropped | ⟨requestId', reply', hnow, hstored, hkind⟩
      · obtain ⟨hissued, hkind⟩ := hp.sent r q hq requestId reply (hsame.symm.trans hsent)
        exact ⟨h.issued hissued, hkind⟩
      · rw [hdropped] at hsent
        cases hsent
      · obtain ⟨rfl, rfl⟩ := Responder.sent.inj (hnow.symm.trans hsent)
        exact ⟨h.issued (hknown requestId' r hstored), hkind⟩
    · rw [hunsent] at hsent
      cases hsent
  checked r q' hq' reply hanswers := by
    rcases h.origin hq' with ⟨q, hq, hfollows⟩ | ⟨-, hnone⟩
    · rw [hfollows.request]
      rcases hfollows.answers reply hanswers with ⟨hbefore, hsame⟩ | hchecked
      · obtain ⟨requestId, hsent, hcheck⟩ := hp.checked r q hq reply hbefore
        refine ⟨requestId, ?_, hcheck⟩
        rcases hsame with hunsent | hsame
        · rw [hsent] at hunsent
          cases hunsent
        · exact hsame.trans hsent
      · exact hchecked
    · rw [hnone] at hanswers
      cases hanswers

/-! ## §2  What was handed on -/

/-- A stored responder has an identifier that was handed on, or is about to be; once the loop
is over there is none. -/
structure Traced (p : State) : Prop where
  known : ∀ requestId r, p.pending.get? requestId = some r →
    requestId ∈ p.sink ∨ p.loop = .emit r requestId
  finished : p.loop = .ended → p.held = []

theorem Acted.traced {p p' : State} {r : ℕ} {q : Request} (h : Acted check p r q p')
    (hp : Traced p) : Traced p' := by
  cases h with
  | parsed _ => exact ⟨hp.known, hp.finished⟩
  | sent _ hloop => exact ⟨hp.known, fun hended => absurd hended hloop⟩
  | served _ _ _ => exact ⟨hp.known, hp.finished⟩
  | closed _ _ _ => exact ⟨hp.known, hp.finished⟩

theorem deliver_loop (p : State) (requestId r : ℕ) (reply : RemoteFsReply) :
    (p.deliver requestId r reply).loop = p.loop ∧
      (p.deliver requestId r reply).sink = p.sink ∧
      (p.deliver requestId r reply).held = p.held := by
  unfold State.deliver
  split
  · split
    · exact ⟨rfl, rfl, rfl⟩
    · exact ⟨rfl, rfl, rfl⟩
  · exact ⟨rfl, rfl, rfl⟩

theorem Traced.takeResponder {p : State} (hp : Traced p) (requestId : ℕ) :
    Traced (p.takeResponder requestId) where
  known requestId' r hstored := by
    change (p.pending.filter fun id _ => id ≠ requestId).get? requestId' = some r at hstored
    rw [AssocMap.get?_filter] at hstored
    exact hp.known requestId' r (Option.filter_eq_some_iff.mp hstored).1
  finished hended := by
    have hheld := hp.finished hended
    have hsub : (p.takeResponder requestId).pending.values.Sublist p.pending.values :=
      AssocMap.values_filter_sublist
    have hall := ((hsub.append_left p.loop.held).append_left p.channel)
    exact List.sublist_nil.mp (hheld ▸ hall)

theorem Traced.prune {p : State} (hp : Traced p) : Traced p.prune where
  known requestId r hstored := by
    rw [show p.prune.pending.get? requestId = _ from AssocMap.get?_filter] at hstored
    exact hp.known requestId r (Option.filter_eq_some_iff.mp hstored).1
  finished hended := by
    have hheld := hp.finished hended
    have hsub : p.prune.pending.values.Sublist p.pending.values := AssocMap.values_filter_sublist
    have hall := ((hsub.append_left p.loop.held).append_left p.channel)
    exact List.sublist_nil.mp (hheld ▸ hall)

theorem Moved.traced {p p' : State} (h : Moved check p p') (hp : Traced p) :
    Traced p' := by
  cases h with
  | arrived request =>
      unfold State.arrive
      split <;> exact ⟨hp.known, hp.finished⟩
  | acted _ h => exact h.traced hp
  | @taken r channel hloop hchannel =>
      refine ⟨fun requestId r' hstored => ?_, fun hended => by cases hended⟩
      refine (hp.known requestId r' hstored).imp_right fun hemit => ?_
      rw [hloop] at hemit
      cases hemit
  | @handedOn r requestId hloop =>
      refine ⟨fun requestId' r' hstored => .inl ?_, fun hended => by cases hended⟩
      rcases hp.known requestId' r' hstored with hmem | hemit
      · exact List.mem_append_left _ hmem
      · rw [hloop] at hemit
        obtain ⟨-, rfl⟩ := Loop.emit.inj hemit
        exact List.mem_append_right _ List.mem_cons_self
  | finished _ => exact ⟨fun _ _ hstored => (by cases hstored), fun _ => rfl⟩
  | @turned r hloop _ =>
      refine ⟨fun requestId r' hstored => ?_, fun hended => by cases hended⟩
      refine (hp.prune.known requestId r' hstored).imp_right fun hemit => ?_
      rw [show p.prune.loop = .handle r from hloop] at hemit
      cases hemit
  | @drawn r requestId hloop _ _ =>
      refine ⟨fun requestId' r' hstored => ?_, fun hended => by cases hended⟩
      change (p.prune.pending.insert requestId r).get? requestId' = some r' at hstored
      rw [AssocMap.get?_insert] at hstored
      split at hstored
      · rename_i heq
        obtain rfl := Option.some.inj hstored
        exact .inr (congrArg _ heq.symm)
      · refine (hp.prune.known requestId' r' hstored).imp_right fun hemit => ?_
        rw [show p.prune.loop = .handle r from hloop] at hemit
        cases hemit
  | @replied requestId r reply _ _ =>
      have htaken := hp.takeResponder requestId
      obtain ⟨hloop, hsink, hheld⟩ := deliver_loop (p.takeResponder requestId) requestId r reply
      refine ⟨fun requestId' r' hstored => ?_, fun hended => ?_⟩
      · rw [(deliver_frame _ _ _ _).1] at hstored
        rw [hsink, hloop]
        exact htaken.known requestId' r' hstored
      · rw [hheld]
        exact htaken.finished (hloop ▸ hended)
  | unusable _ => exact ⟨(hp.takeResponder _).known, (hp.takeResponder _).finished⟩
  | pruned _ => exact hp.prune
  | closedSink => exact ⟨hp.known, hp.finished⟩
  | same => exact hp

/-! ## §3  Every run -/

/-- What holds of the answers in every run. -/
structure Sound (check : ReplyCheck) (max : ℕ) (p : State) : Prop where
  inv : Inv max p
  correlated : Correlated check p
  traced : Traced p

theorem Sound.init (check : ReplyCheck) (max : ℕ) : Sound check max (.init max) where
  inv := .init max
  correlated := ⟨fun r q hq => absurd hq (by simp [State.init]),
    fun r q hq => absurd hq (by simp [State.init])⟩
  traced := ⟨fun _ _ hstored => (by cases hstored), fun hended => (by cases hended)⟩

theorem Sound.step {max : ℕ} {p p' : State} {l : Label} (hp : Sound check max p)
    (h : step android check p l = some p') : Sound check max p' := by
  have hmoved := step_moved h
  exact ⟨hp.inv.moved hmoved, hmoved.correlated hp.inv.known hp.correlated,
    hmoved.traced hp.traced⟩

theorem sound_of_reach {max : ℕ} {p : State} (h : Reach (step android check) (.init max) p) :
    Sound check max p :=
  h.invariant (.init check max) fun _ _ _ hp _ hstep => hp.step hstep

/-- Who waits for a responder that was not used has it in one place. -/
theorem count_held {max : ℕ} {p : State} (hp : Sound check max p) {r : ℕ} {q : Request}
    (hq : p.requests[r]? = some q) (hwait : q.phase = .waiting)
    (hunsent : q.responder = .unsent) : p.held.count r = 1 :=
  List.count_eq_one_of_mem hp.inv.kept.nodup (hp.inv.kept.waiting r q hq hwait hunsent)

/-- A handler responds with the answer that was given for an identifier which was drawn for its
request, of the kind of the request, and checked. Until there is an answer the responder is in
one place, and what is stored was handed on, or is about to be. -/
theorem answers_match {max : ℕ} {p : State} (h : Reach (step android check) (.init max) p) :
    (∀ (r : ℕ) (q : Request), p.requests[r]? = some q → ∀ reply, q.phase.answers = some reply →
      ∃ requestId, q.responder = .sent requestId reply ∧ check q.request reply = .ok () ∧
        p.issued.get? requestId = some r ∧
        ∀ kind, Kind.ofReply reply = some kind → Kind.ofRequest q.request = kind) ∧
    (∀ (r : ℕ) (q : Request), p.requests[r]? = some q → q.phase = .waiting →
      q.responder = .unsent → p.held.count r = 1) ∧
    ∀ requestId r, p.pending.get? requestId = some r →
      p.issued.get? requestId = some r ∧ (requestId ∈ p.sink ∨ p.loop = .emit r requestId) := by
  have hp := sound_of_reach h
  refine ⟨?_, fun r q hq hwait hunsent => count_held hp hq hwait hunsent, ?_⟩
  · intro r q hq reply hanswers
    obtain ⟨requestId, hsent, hcheck⟩ := hp.correlated.checked r q hq reply hanswers
    obtain ⟨hissued, hkind⟩ := hp.correlated.sent r q hq requestId reply hsent
    exact ⟨requestId, hsent, hcheck, hissued, hkind⟩
  · exact fun requestId r hstored =>
      ⟨hp.inv.known requestId r hstored, hp.traced.known requestId r hstored⟩

theorem answeredRoots_answers_match :
    ∃ p, exec (step false fun _ _ => .ok ()) (.init 1) answeredRoots = some p ∧
      p.requests[0]? = some ⟨.roots, .ended (.answered (.roots [])), .sent 7 (.roots [])⟩ ∧
      p.issued.get? 7 = some 0 := by
  obtain ⟨p, hexec, hp⟩ := exists_of_exec_any (step false fun _ _ => .ok ()) (.init 1)
    answeredRoots (fun p => p.requests[0]? =
      some ⟨.roots, .ended (.answered (.roots [])), .sent 7 (.roots [])⟩) (by decide)
  have hq := of_decide_eq_true hp
  obtain ⟨requestId, hsent, -, hissued, -⟩ :=
    (answers_match (reach_of_exec hexec)).1 0 _ hq (.roots []) rfl
  obtain ⟨rfl, -⟩ := Responder.sent.inj hsent
  exact ⟨p, hexec, hq, hissued⟩

/-! ## §4  The steps that are left -/

/-- The steps that the server and the bridge take on their own. That the stream was closed is
no such step: `listen` waits for an event. -/
def Label.isOwn : Label → Bool
  | .act _ .send | .act _ .receive | .listen | .draw _ => true
  | _ => false

def Phase.work : Phase → ℕ
  | .sending => 5
  | .waiting => 1
  | _ => 0

def Loop.work : Loop → ℕ
  | .handle _ => 3
  | .emit _ _ => 2
  | .idle => 1
  | .ended => 0

def requestsWork (requests : List Request) : ℕ := (requests.map fun q => q.phase.work).sum

/-- A bound on those steps. -/
def State.work (p : State) : ℕ := requestsWork p.requests + 3 * p.channel.length + p.loop.work

section Work

variable {p p' : State} {r : ℕ} {q : Request}

theorem requestsWork_set (hq : p.requests[r]? = some q) (phase : Phase) :
    requestsWork (p.setPhase r q phase).requests + q.phase.work =
      requestsWork p.requests + phase.work :=
  TaskPool.sum_map_set (fun q => q.phase.work) { q with phase } hq

theorem requestsWork_drop (p : State) (rs : List ℕ) :
    requestsWork (p.dropResponders rs).requests = requestsWork p.requests := by
  unfold requestsWork State.dropResponders
  congr 1
  refine List.ext_getElem? fun r => ?_
  rw [List.getElem?_map, List.getElem?_map, List.getElem?_mapIdx, Option.map_map]
  refine congrFun (congrArg Option.map (funext fun q => ?_)) _
  rw [Function.comp_apply]
  split
  · rw [q.drop_phase]
  · rfl

theorem work_send (hq : p.requests[r]? = some q)
    (h : p.act check r q q.phase .send = some p') : p'.work < p.work := by
  have hset := requestsWork_set hq
  cases hphase : q.phase with
  | sending =>
      rw [hphase] at h hset
      unfold State.act at h
      dsimp only at h
      split at h
      · obtain rfl := Option.some.inj h
        have hover := hset (.ended (.failed .unavailable))
        have hwork : Phase.work .sending = 5 ∧
          Phase.work (.ended (.failed .unavailable)) = 0 := ⟨rfl, rfl⟩
        unfold State.work State.close
        change requestsWork (p.setPhase r q _).requests + 3 * p.channel.length + p.loop.work < _
        omega
      · split at h
        · obtain rfl := Option.some.inj h
          have hwait := hset .waiting
          have hwork : Phase.work .sending = 5 ∧ Phase.work .waiting = 1 := ⟨rfl, rfl⟩
          unfold State.work
          change requestsWork (p.setPhase r q _).requests + 3 * (p.channel ++ [r]).length + _ < _
          rw [List.length_append, List.length_singleton]
          change _ + _ + p.loop.work < _
          omega
        · cases h
  | serving reply =>
      rw [hphase] at h
      cases reply <;> cases h
  | parsing | waiting | ended _ =>
      rw [hphase] at h
      cases h

theorem work_receive (hq : p.requests[r]? = some q)
    (h : p.act check r q q.phase .receive = some p') : p'.work < p.work := by
  have hset := requestsWork_set hq
  cases hphase : q.phase with
  | waiting =>
      rw [hphase] at h hset
      have hclosed : ∀ outcome, (p.close r q outcome).work < p.work := by
        intro outcome
        have hover := hset (.ended outcome)
        have hwork : Phase.work .waiting = 1 ∧ Phase.work (.ended outcome) = 0 := ⟨rfl, rfl⟩
        unfold State.work State.close
        change requestsWork (p.setPhase r q _).requests + 3 * p.channel.length + p.loop.work < _
        omega
      have hserved : ∀ reply, (p.setPhase r q (.serving reply)).work < p.work := by
        intro reply
        have hover := hset (.serving reply)
        have hwork : Phase.work .waiting = 1 ∧ Phase.work (.serving reply) = 0 := ⟨rfl, rfl⟩
        unfold State.work
        change requestsWork (p.setPhase r q _).requests + 3 * p.channel.length + p.loop.work < _
        omega
      unfold State.act at h
      dsimp only at h
      split at h
      · cases h
      · obtain rfl := Option.some.inj h
        unfold State.answered
        split
        · exact hclosed _
        · exact hclosed _
        · exact hserved _
        · exact hserved _
        · exact hclosed _
      · obtain rfl := Option.some.inj h
        exact hclosed _
  | serving reply =>
      rw [hphase] at h
      cases reply <;> cases h
  | parsing | sending | ended _ =>
      rw [hphase] at h
      cases h

theorem work_endLoop (h : 0 < p.loop.work) : p.endLoop.work < p.work := by
  have hdrop := requestsWork_drop p (p.pending.values ++ p.channel)
  unfold State.work State.endLoop
  change requestsWork (p.dropResponders _).requests + 3 * 0 + 0 < _
  omega

theorem work_listen (h : p.listen = some p') : p'.work < p.work := by
  unfold State.listen at h
  split at h
  · rename_i hloop
    split at h
    · cases h
    · rename_i r' channel hchannel
      obtain rfl := Option.some.inj h
      unfold State.work
      dsimp only
      rw [hloop, hchannel, List.length_cons]
      change _ + _ + 3 < _ + _ + 1
      omega
  · rename_i r' requestId hloop
    split at h
    · obtain rfl := Option.some.inj h
      unfold State.work
      dsimp only
      rw [hloop]
      exact Nat.add_lt_add_left (Nat.lt_succ_self 1) _
    · obtain rfl := Option.some.inj h
      refine work_endLoop ?_
      rw [hloop]
      exact Nat.succ_pos 1
  · cases h
  · cases h

theorem work_draw {requestId : ℕ} (h : p.draw requestId = some p') : p'.work < p.work := by
  unfold State.draw at h
  split at h
  · rename_i r' hloop
    split at h
    · dsimp only at h
      split at h
      · obtain rfl := Option.some.inj h
        have hdrop := requestsWork_drop p.prune [r']
        unfold State.work
        change requestsWork (p.prune.dropResponders [r']).requests + 3 * p.channel.length + 1 < _
        rw [hdrop, hloop]
        exact Nat.add_lt_add_left (by decide : 1 < 3) _
      · obtain rfl := Option.some.inj h
        unfold State.work
        rw [hloop]
        exact Nat.add_lt_add_left (Nat.lt_succ_self 2) _
    · cases h
  · cases h

theorem work_step {l : Label} (hl : l.isOwn = true) (h : step android check p l = some p') :
    p'.work < p.work := by
  cases l with
  | act r a =>
      obtain ⟨q, hq, hact⟩ := Option.bind_eq_some_iff.mp h
      cases a with
      | send => exact work_send hq hact
      | receive => exact work_receive hq hact
      | parsed _ | timeout | disconnect | finish _ => cases hl
  | listen => exact work_listen h
  | draw requestId => exact work_draw h
  | request _ | tick | stop | closeSink | reply _ _ => cases hl

end Work

/-! ## §5  At rest -/

/-- The server and the bridge have nothing to do. -/
def AtRest (android : Bool) (check : ReplyCheck) (p : State) : Prop :=
  ∀ l : Label, l.isOwn = true → step android check p l = none

/-- A reply that the bridge takes for a request. -/
structure Fits (android : Bool) (request : RemoteFsRequest) (reply : RemoteFsReply) : Prop where
  kind : ∀ kind, Kind.ofReply reply = some kind → Kind.ofRequest request = kind
  read : ∀ entry source, reply = .read entry source → State.usable android source = true
  write : ∀ target, reply = .write target → State.usable android target = true

section AtRest

variable {p : State} {r : ℕ} {q : Request}

/-- There is always an identifier that was not drawn. -/
theorem exists_draw (hloop : p.loop = .handle r) : ∃ requestId, p.draw requestId ≠ none := by
  obtain ⟨requestId, hnew⟩ := Infinite.exists_notMem_finset p.issued.keys.toFinset
  have hfresh : p.issued.get? requestId = none := by
    refine Option.eq_none_iff_forall_ne_some.mpr fun r' hr' => hnew ?_
    exact List.mem_toFinset.mpr (AssocMap.mem_keys_iff.mpr ⟨r', hr'⟩)
  refine ⟨requestId, ?_⟩
  unfold State.draw
  rw [hloop]
  dsimp only
  rw [if_pos hfresh]
  split
  · exact Option.some_ne_none _
  · exact Option.some_ne_none _

theorem AtRest.loop (h : AtRest android check p) :
    p.loop = .ended ∨ p.loop = .idle ∧ p.channel = [] := by
  have hlisten : p.listen = none := h .listen rfl
  cases hloop : p.loop with
  | ended => exact .inl rfl
  | handle r =>
      obtain ⟨requestId, hdraw⟩ := exists_draw hloop
      exact absurd (h (.draw requestId) rfl) hdraw
  | emit r requestId =>
      unfold State.listen at hlisten
      rw [hloop] at hlisten
      dsimp only at hlisten
      split at hlisten
      · cases hlisten
      · cases hlisten
  | idle =>
      refine .inr ⟨rfl, ?_⟩
      unfold State.listen at hlisten
      rw [hloop] at hlisten
      dsimp only at hlisten
      split at hlisten
      · assumption
      · cases hlisten

theorem AtRest.act (h : AtRest android check p) (hq : p.requests[r]? = some q) {a : State.Act}
    (ha : (Label.act r a).isOwn = true) : p.act check r q q.phase a = none := by
  have hstep := h (.act r a) ha
  change (p.requests[r]?.bind fun q => p.act check r q q.phase a) = none at hstep
  rwa [hq] at hstep

theorem AtRest.not_sending (h : AtRest android check p) (hq : p.requests[r]? = some q) :
    q.phase ≠ .sending := by
  intro hphase
  have hact := h.act hq (a := .send) rfl
  rw [hphase] at hact
  unfold State.act at hact
  dsimp only at hact
  rcases h.loop with hloop | ⟨hloop, hchannel⟩
  · rw [if_pos hloop] at hact
    cases hact
  · rw [if_neg (by rw [hloop]; exact Loop.noConfusion), hchannel, if_pos (by decide)] at hact
    cases hact

theorem AtRest.unsent (h : AtRest android check p) (hq : p.requests[r]? = some q)
    (hphase : q.phase = .waiting) : q.responder = .unsent := by
  have hact := h.act hq (a := .receive) rfl
  rw [hphase] at hact
  unfold State.act at hact
  dsimp only at hact
  split at hact
  · assumption
  · cases hact
  · cases hact

/-- Who waits has its responder under an identifier that was handed on. -/
theorem AtRest.stored {max : ℕ} (h : AtRest android check p) (hp : Sound check max p)
    (hq : p.requests[r]? = some q) (hphase : q.phase = .waiting) :
    p.loop = .idle ∧ ∃ requestId ∈ p.sink, p.pending.get? requestId = some r := by
  have hheld := hp.inv.kept.waiting r q hq hphase (h.unsent hq hphase)
  rcases h.loop with hloop | ⟨hloop, hchannel⟩
  · rw [hp.traced.finished hloop] at hheld
    exact absurd hheld List.not_mem_nil
  · refine ⟨hloop, ?_⟩
    unfold State.held at hheld
    rw [hloop, hchannel] at hheld
    obtain ⟨requestId, hstored⟩ := AssocMap.mem_values_iff.mp hheld
    refine ⟨requestId, (hp.traced.known requestId r hstored).resolve_right ?_, hstored⟩
    rw [hloop]
    exact Loop.noConfusion

theorem reply_delivers {requestId : ℕ} {reply : RemoteFsReply}
    (hstored : p.pending.get? requestId = some r) (hq : p.requests[r]? = some q)
    (hphase : q.phase = .waiting) (hfits : Fits android q.request reply) :
    (p.reply android requestId reply).requests[r]? =
      some { q with responder := .sent requestId reply } := by
  have hdeliver : ((p.takeResponder requestId).deliver requestId r reply).requests[r]? =
      some { q with responder := .sent requestId reply } := by
    unfold State.deliver
    rw [show (p.takeResponder requestId).requests[r]? = some q from hq]
    dsimp only
    rw [if_neg (by
      rw [State.isClosed_of_waiting (p := p.takeResponder requestId) hq hphase]
      exact Bool.false_ne_true)]
    exact List.getElem?_set_self (List.getElem?_eq_some_iff.mp hq).1
  unfold State.reply
  rw [hstored]
  dsimp only
  split
  · exact hdeliver
  · rename_i kind hkind
    rw [if_neg (by
      rw [hq, Option.map_some, hfits.kind kind hkind]
      exact fun hne => hne rfl)]
    split
    · rename_i entry source
      rw [if_pos (hfits.read entry source rfl)]
      exact hdeliver
    · rename_i target
      rw [if_pos (hfits.write target rfl)]
      exact hdeliver
    · exact hdeliver

/-- The loop ends with an event that it cannot hand on, and drops what is stored. -/
theorem stop_drops {requestId : ℕ} (hloop : p.loop = .idle) (hclosed : p.sinkOpen = false)
    (hstored : p.pending.get? requestId = some r) (hq : p.requests[r]? = some q)
    (hunsent : q.responder = .unsent) :
    ∃ p', p.stop = some p' ∧ p'.requests[r]? = some { q with responder := .dropped } := by
  refine ⟨p.endLoop, if_pos ⟨hloop, hclosed⟩, ?_⟩
  have hmem : r ∈ p.pending.values ++ p.channel :=
    List.mem_append_left _ (AssocMap.mem_values_iff.mpr ⟨requestId, hstored⟩)
  unfold State.endLoop State.dropResponders
  dsimp only
  rw [List.getElem?_mapIdx, hq, Option.map_some, if_pos hmem]
  unfold Request.drop
  rw [if_pos hunsent]

end AtRest

/-- The steps that the server and the bridge take on their own come to an end. Then no handler
stands before the event channel, and one that waits has its responder under an identifier that
was handed on: any reply that fits reaches it. If the stream was closed, the next event that
cannot be handed on releases it. -/
theorem requests_resolved {max : ℕ} {p : State} (h : Reach (step android check) (.init max) p) :
    (∀ ls p', (∀ l ∈ ls, Label.isOwn l = true) → exec (step android check) p ls = some p' →
      ls.length ≤ p.work) ∧
    (∃ ls p', (∀ l ∈ ls, Label.isOwn l = true) ∧ exec (step android check) p ls = some p' ∧
      AtRest android check p') ∧
    (AtRest android check p → ∀ (r : ℕ) (q : Request), p.requests[r]? = some q →
      q.phase ≠ .sending ∧
      (q.phase = .waiting → p.loop = .idle ∧
        (∃ requestId ∈ p.sink, ∀ reply, Fits android q.request reply →
          (p.reply android requestId reply).requests[r]? =
            some { q with responder := .sent requestId reply }) ∧
        (p.sinkOpen = false → ∃ p', step android check p .stop = some p' ∧
          p'.requests[r]? = some { q with responder := .dropped }))) := by
  have hp := sound_of_reach h
  have keeps : ∀ (s : State) (l : Label) (t : State), Sound check max s →
      step android check s l = some t → Sound check max t := fun _ _ _ hs hstep => hs.step hstep
  have own : ∀ (s : State) (l : Label) (t : State), Sound check max s → l.isOwn = true →
      step android check s l = some t → t.work < s.work :=
    fun _ _ _ _ hl hstep => work_step hl hstep
  refine ⟨fun ls p' hls hexec => length_le_of_own keeps own hp hls hexec,
    exists_exec_stuck keeps own hp, ?_⟩
  intro hrest r q hq
  refine ⟨hrest.not_sending hq, fun hphase => ?_⟩
  obtain ⟨hloop, requestId, hsink, hstored⟩ := hrest.stored hp hq hphase
  exact ⟨hloop, ⟨requestId, hsink, fun reply hfits => reply_delivers hstored hq hphase hfits⟩,
    fun hclosed => stop_drops hloop hclosed hstored hq (hrest.unsent hq hphase)⟩

theorem answeredRoots_resolved :
    ∃ p, exec (step false fun _ _ => .ok ()) (.init 1) (answeredRoots.take 3) = some p ∧
      p.channel = [0] ∧
      ∃ ls p', (∀ l ∈ ls, Label.isOwn l = true) ∧
        exec (step false fun _ _ => .ok ()) p ls = some p' ∧
        AtRest false (fun _ _ => .ok ()) p' := by
  obtain ⟨p, hexec, hp⟩ := exists_of_exec_any (step false fun _ _ => .ok ()) (.init 1)
    (answeredRoots.take 3) (fun p => p.channel = [0]) (by decide)
  exact ⟨p, hexec, of_decide_eq_true hp, (requests_resolved (reach_of_exec hexec)).2.1⟩

end RemoteFsBridge

end FireBoxTransfer
