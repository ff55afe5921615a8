import FireBoxTransfer.Bridge.RemoteFsSteps
import FireBoxTransfer.Framework.Slots

/-!
# The bounds on remote-filesystem requests

Every handler that is not over holds one of the slots, and a responder that the bridge holds
belongs to a handler of its own that waits, or is over. With no more slots than the bridge
stores responders, its bound keeps nobody out who waits.
-/

namespace FireBoxTransfer

open Runs

namespace RemoteFsBridge

variable {check : ReplyCheck}

/-! ## §1  Slots -/

/-- The handlers that are not over. -/
def State.live (p : State) : ℕ := p.requests.countP fun q => q.phase.isLive

@[simp] theorem State.live_dropResponders (p : State) (rs : List ℕ) :
    (p.dropResponders rs).live = p.live := by
  unfold State.live State.dropResponders
  have hphases : ∀ (qs : List Request) (f : ℕ → Request → Request),
      (∀ r q, (f r q).phase = q.phase) →
      (qs.mapIdx f).countP (fun q => q.phase.isLive) = qs.countP fun q => q.phase.isLive := by
    intro qs
    induction qs with
    | nil => exact fun _ _ => rfl
    | cons q qs ih =>
        intro f hf
        rw [List.mapIdx_cons, List.countP_cons, List.countP_cons, ih _ fun r q => hf (r + 1) q, hf]
  refine hphases _ _ fun r q => ?_
  split
  · exact q.drop_phase
  · rfl

theorem live_set_of_eq {p : State} {r : ℕ} {q : Request} (q' : Request)
    (hq : p.requests[r]? = some q)
    (hlive : q'.phase.isLive = q.phase.isLive) :
    (p.requests.set r q').countP (fun q => q.phase.isLive) = p.live := by
  have hset := Slots.countP_set_add (P := fun q : Request => q.phase.isLive) (y := q') hq
  rw [hlive] at hset
  exact Nat.add_right_cancel hset

theorem live_set_of_over {p : State} {r : ℕ} {q : Request} (q' : Request)
    (hq : p.requests[r]? = some q)
    (hlive : q.phase.isLive = true) (hover : q'.phase.isLive = false) :
    (p.requests.set r q').countP (fun q => q.phase.isLive) + 1 = p.live := by
  have hset := Slots.countP_set_add (P := fun q : Request => q.phase.isLive) (y := q') hq
  rwa [if_pos hlive, if_neg (ne_true_of_eq_false hover)] at hset

/-- The slots that are free, and those that are held. -/
def Balanced (max : ℕ) (p : State) : Prop := p.slots + p.live = max

theorem Acted.balanced {max : ℕ} {p p' : State} {r : ℕ} {q : Request} (h : Acted check p r q p')
    (hq : p.requests[r]? = some q) (hp : Balanced max p) : Balanced max p' := by
  have hmoved : ∀ phase, q.phase.isLive = true → phase.isLive = true →
      Balanced max (p.setPhase r q phase) := by
    intro phase hlive hlive'
    have hset := live_set_of_eq { q with phase } hq (hlive'.trans hlive.symm)
    exact (congrArg (p.slots + ·) hset).trans hp
  cases h with
  | parsed h => exact hmoved _ (h ▸ rfl) rfl
  | sent h _ => exact hmoved _ (h ▸ rfl) rfl
  | served h _ _ => exact hmoved _ (h ▸ rfl) rfl
  | closed outcome h _ =>
      have hset := live_set_of_over { q with phase := .ended outcome } hq h rfl
      unfold Balanced at hp ⊢
      change p.slots + 1 + (p.requests.set r _).countP _ = max
      omega

theorem Moved.balanced {max : ℕ} {p p' : State} (h : Moved check p p') (hp : Balanced max p) :
    Balanced max p' := by
  cases h with
  | arrived request =>
      unfold State.arrive Balanced State.live at *
      split
      · rw [List.countP_append]
        exact hp
      · rw [List.countP_append]
        change p.slots - 1 + (_ + 1) = max
        omega
  | acted hq h => exact h.balanced hq hp
  | finished _ =>
      have hlive := p.live_dropResponders (p.pending.values ++ p.channel)
      unfold Balanced State.endLoop at *
      exact (congrArg (p.slots + ·) hlive).trans hp
  | @turned r _ _ =>
      have hlive := p.prune.live_dropResponders [r]
      unfold Balanced at *
      exact (congrArg (p.slots + ·) hlive).trans hp
  | @replied requestId r reply _ _ =>
      unfold State.deliver
      split
      · rename_i q hq
        split
        · exact (congrArg (p.slots + ·) (State.live_dropResponders _ _)).trans hp
        · have hset := live_set_of_eq { q with responder := .sent requestId reply } hq rfl
          exact (congrArg (p.slots + ·) hset).trans hp
      · exact hp
  | @unusable requestId r _ =>
      exact (congrArg (p.slots + ·) (State.live_dropResponders _ _)).trans hp
  | taken _ _ => exact hp
  | handedOn _ => exact hp
  | drawn _ _ _ => exact hp
  | pruned _ => exact hp
  | closedSink => exact hp
  | same => exact hp

/-! ## §2  Responders -/

/-- The requests whose responders the bridge has. -/
def State.held (p : State) : List ℕ := p.channel ++ (p.loop.held ++ p.pending.values)

/-- A responder that the bridge has was not used, and its handler waits or is over. The bridge
has the responder of every handler that waits for one that was not used. -/
structure Kept (requests : List Request) (held : List ℕ) : Prop where
  nodup : held.Nodup
  stored : ∀ r ∈ held, ∃ q, requests[r]? = some q ∧ q.responder = .unsent ∧
    (q.phase = .waiting ∨ q.phase.isLive = false)
  waiting : ∀ (r : ℕ) (q : Request), requests[r]? = some q → q.phase = .waiting →
    q.responder = .unsent → r ∈ held
  early : ∀ (r : ℕ) (q : Request), requests[r]? = some q →
    q.phase = .parsing ∨ q.phase = .sending → q.responder = .unsent

namespace Kept

variable {requests : List Request} {held held' : List ℕ} {r : ℕ} {q : Request}

theorem perm (h : Kept requests held) (hperm : held.Perm held') : Kept requests held' where
  nodup := hperm.nodup_iff.mp h.nodup
  stored r hr := h.stored r (hperm.mem_iff.mpr hr)
  waiting r q hq hphase hunsent := hperm.mem_iff.mp (h.waiting r q hq hphase hunsent)
  early := h.early

theorem not_mem (h : Kept requests held) (hq : requests[r]? = some q)
    (hne : q.responder = .unsent → q.phase.isLive = true ∧ q.phase ≠ .waiting) : r ∉ held := by
  intro hr
  obtain ⟨q', hq', hunsent, hphase⟩ := h.stored r hr
  obtain rfl := Option.some.inj (hq.symm.trans hq')
  obtain ⟨hlive, hwait⟩ := hne hunsent
  rcases hphase with hphase | hphase
  · exact hwait hphase
  · rw [hlive] at hphase
    cases hphase

theorem append (h : Kept requests held) (hphase : q.phase ≠ .waiting)
    (hunsent : q.responder = .unsent) : Kept (requests ++ [q]) held where
  nodup := h.nodup
  stored r hr := by
    obtain ⟨q', hq', hstored⟩ := h.stored r hr
    refine ⟨q', ?_, hstored⟩
    rw [List.getElem?_append_left (List.getElem?_eq_some_iff.mp hq').1]
    exact hq'
  waiting r q' hq' hwait hresponder := by
    rw [List.getElem?_append] at hq'
    split at hq'
    · exact h.waiting r q' hq' hwait hresponder
    · rw [List.getElem?_singleton] at hq'
      split at hq'
      · obtain rfl := Option.some.inj hq'
        exact absurd hwait hphase
      · cases hq'
  early r q' hq' hwait := by
    rw [List.getElem?_append] at hq'
    split at hq'
    · exact h.early r q' hq' hwait
    · rw [List.getElem?_singleton] at hq'
      split at hq'
      · obtain rfl := Option.some.inj hq'
        exact hunsent
      · cases hq'

/-- One handler goes on. -/
theorem set {q' : Request} (h : Kept requests held) (hq : requests[r]? = some q)
    (hnodup : held'.Nodup) (hothers : ∀ r', r' ≠ r → (r' ∈ held' ↔ r' ∈ held))
    (hstored : r ∈ held' → q'.responder = .unsent ∧
      (q'.phase = .waiting ∨ q'.phase.isLive = false))
    (hwaiting : q'.phase = .waiting → q'.responder = .unsent → r ∈ held')
    (hearly : q'.phase = .parsing ∨ q'.phase = .sending → q'.responder = .unsent) :
    Kept (requests.set r q') held' := by
  have hr := (List.getElem?_eq_some_iff.mp hq).1
  have hcases : ∀ r₁ q₁, (requests.set r q')[r₁]? = some q₁ →
      (r₁ = r ∧ q₁ = q') ∨ (r₁ ≠ r ∧ requests[r₁]? = some q₁) := by
    intro r₁ q₁ hq₁
    by_cases hr₁ : r₁ = r
    · subst hr₁
      rw [List.getElem?_set_self hr] at hq₁
      exact .inl ⟨rfl, (Option.some.inj hq₁).symm⟩
    · rw [List.getElem?_set_ne (Ne.symm hr₁)] at hq₁
      exact .inr ⟨hr₁, hq₁⟩
  refine ⟨hnodup, ?_, ?_, ?_⟩
  · intro r₁ hmem
    by_cases hr₁ : r₁ = r
    · subst hr₁
      exact ⟨q', List.getElem?_set_self hr, hstored hmem⟩
    · rw [List.getElem?_set_ne (Ne.symm hr₁)]
      exact h.stored r₁ ((hothers r₁ hr₁).mp hmem)
  · intro r₁ q₁ hq₁ hphase hunsent
    rcases hcases r₁ q₁ hq₁ with ⟨rfl, rfl⟩ | ⟨hr₁, hq₁⟩
    · exact hwaiting hphase hunsent
    · exact (hothers r₁ hr₁).mpr (h.waiting r₁ q₁ hq₁ hphase hunsent)
  · intro r₁ q₁ hq₁ hphase
    rcases hcases r₁ q₁ hq₁ with ⟨rfl, rfl⟩ | ⟨-, hq₁⟩
    · exact hearly hphase
    · exact h.early r₁ q₁ hq₁ hphase

/-- The bridge drops responders. -/
theorem drop {p : State} (rs : List ℕ) (h : Kept p.requests held)
    (hperm : held.Perm (rs ++ held')) : Kept (p.dropResponders rs).requests held' := by
  have hnodup := hperm.nodup_iff.mp h.nodup
  have hcases : ∀ r q, (p.dropResponders rs).requests[r]? = some q →
      ∃ q₀, p.requests[r]? = some q₀ ∧ q.phase = q₀.phase ∧
        (if r ∈ rs then q₀.drop else q₀) = q := by
    intro r q hq
    rw [State.dropResponders_getElem?, Option.map_eq_some_iff] at hq
    obtain ⟨q₀, hq₀, rfl⟩ := hq
    refine ⟨q₀, hq₀, ?_, rfl⟩
    split
    · exact q₀.drop_phase
    · rfl
  refine ⟨(List.nodup_append.mp hnodup).2.1, ?_, ?_, ?_⟩
  · intro r hr
    obtain ⟨q, hq, hstored⟩ := h.stored r (hperm.mem_iff.mpr (List.mem_append_right rs hr))
    have hnot : r ∉ rs := fun hrs => (List.nodup_append.mp hnodup).2.2 r hrs r hr rfl
    refine ⟨q, ?_, hstored⟩
    rw [State.dropResponders_getElem?, hq, Option.map_some, if_neg hnot]
  · intro r q hq hphase hunsent
    obtain ⟨q₀, hq₀, hsame, hdrop⟩ := hcases r q hq
    split at hdrop
    · subst hdrop
      unfold Request.drop at hunsent
      split at hunsent
      · cases hunsent
      · rename_i hused
        exact absurd hunsent hused
    · rename_i hnot
      subst hdrop
      have hmem := hperm.mem_iff.mp (h.waiting r q₀ hq₀ hphase hunsent)
      exact (List.mem_append.mp hmem).resolve_left hnot
  · intro r q hq hphase
    obtain ⟨q₀, hq₀, hsame, hdrop⟩ := hcases r q hq
    rw [hsame] at hphase
    have hunsent := h.early r q₀ hq₀ hphase
    -- what is held by the bridge is past the event channel
    have hnot : r ∉ rs := by
      refine fun hrs => h.not_mem hq₀ (fun _ => ?_)
        (hperm.mem_iff.mpr (List.mem_append_left held' hrs))
      rcases hphase with hphase | hphase
      · exact ⟨hphase ▸ rfl, fun hwait => by rw [hphase] at hwait; cases hwait⟩
      · exact ⟨hphase ▸ rfl, fun hwait => by rw [hphase] at hwait; cases hwait⟩
    rw [if_neg hnot] at hdrop
    exact hdrop ▸ hunsent

/-- Responders for which nobody waits may be forgotten. -/
theorem sublist (h : Kept requests held) (hsub : held'.Sublist held)
    (hkept : ∀ r q, requests[r]? = some q → q.phase = .waiting → r ∈ held → r ∈ held') :
    Kept requests held' where
  nodup := h.nodup.sublist hsub
  stored r hr := h.stored r (hsub.subset hr)
  waiting r q hq hphase hunsent :=
    hkept r q hq hphase (h.waiting r q hq hphase hunsent)
  early := h.early

end Kept

/-! ## §3  What the bridge stores -/

theorem State.isClosed_of_waiting {p : State} {r : ℕ} {q : Request} (hq : p.requests[r]? = some q)
    (hphase : q.phase = .waiting) : p.isClosed r = false := by
  unfold State.isClosed
  rw [hq, Option.any_some, decide_eq_true hphase]
  rfl

theorem State.mem_prune_iff {p : State} {r : ℕ} :
    r ∈ p.prune.pending.values ↔ r ∈ p.pending.values ∧ p.isClosed r = false := by
  unfold State.prune AssocMap.filter AssocMap.values
  simp only [List.mem_map, List.mem_filter, Bool.not_eq_true']
  constructor
  · rintro ⟨e, ⟨he, hclosed⟩, rfl⟩
    exact ⟨⟨e, he, rfl⟩, hclosed⟩
  · rintro ⟨⟨e, he, rfl⟩, hclosed⟩
    exact ⟨e, ⟨he, hclosed⟩, rfl⟩

/-- What is stored under an identifier is what the identifier was drawn for. -/
def Known (p : State) : Prop :=
  ∀ requestId r, p.pending.get? requestId = some r → p.issued.get? requestId = some r

theorem Known.prune {p : State} (h : Known p) : Known p.prune := by
  intro requestId r hstored
  rw [show p.prune.pending.get? requestId = _ from AssocMap.get?_filter] at hstored
  exact h requestId r (Option.filter_eq_some_iff.mp hstored).1

theorem Kept.prune {p : State} (h : Kept p.requests p.held) : Kept p.requests p.prune.held := by
  have hsub : p.prune.pending.values.Sublist p.pending.values := AssocMap.values_filter_sublist
  refine h.sublist ((hsub.append_left p.loop.held).append_left p.channel) ?_
  intro r q hq hphase hr
  have hclosed := State.isClosed_of_waiting hq hphase
  rcases List.mem_append.mp hr with hr | hr
  · exact List.mem_append_left _ hr
  · rcases List.mem_append.mp hr with hr | hr
    · exact List.mem_append_right _ (List.mem_append_left _ hr)
    · refine List.mem_append_right _ (List.mem_append_right _ ?_)
      exact State.mem_prune_iff.mpr ⟨hr, hclosed⟩

theorem held_perm_of_stored {p : State} {requestId r : ℕ}
    (h : p.pending.get? requestId = some r) :
    p.held.Perm (r :: (p.takeResponder requestId).held) := by
  have hvalues := AssocMap.values_perm_filter_ne h
  refine ((hvalues.append_left p.loop.held).append_left p.channel).trans ?_
  unfold State.held
  rw [← List.append_assoc, ← List.append_assoc]
  exact List.perm_middle

theorem Acted.kept {p p' : State} {r : ℕ} {q : Request} (h : Acted check p r q p')
    (hq : p.requests[r]? = some q) (hp : Kept p.requests p.held) :
    Kept p'.requests p'.held := by
  cases h with
  | parsed h =>
      have hearly := hp.early r q hq (.inl h)
      have hnot : r ∉ p.held := hp.not_mem hq fun _ => by
        rw [h]
        exact ⟨rfl, fun hw => by cases hw⟩
      exact hp.set hq hp.nodup (fun _ _ => Iff.rfl) (fun hr => absurd hr hnot)
        (fun hw => by cases hw) fun _ => hearly
  | sent h hloop =>
      have hearly := hp.early r q hq (.inr h)
      have hnot : r ∉ p.held := hp.not_mem hq fun _ => by
        rw [h]
        exact ⟨rfl, fun hw => by cases hw⟩
      have hperm : (p.channel ++ [r] ++ (p.loop.held ++ p.pending.values)).Perm (r :: p.held) := by
        rw [List.append_assoc]
        exact List.perm_middle
      refine hp.set hq (hperm.nodup_iff.mpr (List.nodup_cons.mpr ⟨hnot, hp.nodup⟩)) ?_
        (fun _ => ⟨hearly, .inl rfl⟩) (fun _ _ => hperm.mem_iff.mpr List.mem_cons_self) ?_
      · intro r' hne
        exact (hperm.mem_iff.trans List.mem_cons).trans (or_iff_right hne)
      · rintro (hw | hw) <;> cases hw
  | served h hsent _ =>
      have hnot : r ∉ p.held := hp.not_mem hq fun hunsent => by
        rw [hsent] at hunsent
        cases hunsent
      refine hp.set hq hp.nodup (fun _ _ => Iff.rfl) (fun hr => absurd hr hnot)
        (fun hw => by cases hw) ?_
      rintro (hw | hw) <;> cases hw
  | closed outcome h _ =>
      refine hp.set hq hp.nodup (fun _ _ => Iff.rfl) ?_ (fun hw => by cases hw) ?_
      · intro hr
        obtain ⟨q', hq', hunsent, -⟩ := hp.stored r hr
        obtain rfl := Option.some.inj (hq.symm.trans hq')
        exact ⟨hunsent, .inr rfl⟩
      · rintro (hw | hw) <;> cases hw

theorem Moved.kept {p p' : State} (h : Moved check p p') (hp : Kept p.requests p.held)
    (hknown : Known p) : Kept p'.requests p'.held := by
  cases h with
  | arrived request =>
      unfold State.arrive
      split
      · exact hp.append (fun hw => by cases hw) rfl
      · exact hp.append (fun hw => by cases hw) rfl
  | acted hq h => exact h.kept hq hp
  | @taken r channel hloop hchannel =>
      refine hp.perm ?_
      unfold State.held
      rw [hloop, hchannel]
      exact List.perm_middle.symm
  | handedOn hloop =>
      unfold State.held at *
      rw [hloop] at hp
      exact hp
  | finished hloop =>
      refine hp.drop (p.pending.values ++ p.channel) ?_
      unfold State.held
      rw [hloop, List.nil_append]
      refine List.perm_append_comm.trans ?_
      exact .of_eq (List.append_nil _).symm
  | @turned r hloop _ =>
      refine Kept.drop (p := p.prune) [r] hp.prune ?_
      unfold State.held
      rw [show p.prune.loop = .handle r from hloop]
      exact List.perm_middle
  | @drawn r requestId hloop _ hfresh =>
      refine hp.prune.perm ?_
      have hnew : requestId ∉ p.prune.pending.keys := by
        intro hmem
        obtain ⟨r', hr'⟩ := AssocMap.mem_keys_iff.mp hmem
        have hdrawn : p.issued.get? requestId = some r' := hknown.prune requestId r' hr'
        rw [hfresh] at hdrawn
        cases hdrawn
      have hvalues :
          (p.prune.pending.insert requestId r).values = p.prune.pending.values ++ [r] := by
        unfold AssocMap.values
        rw [AssocMap.entries_insert_of_not_mem hnew, List.map_append]
        rfl
      change p.prune.held.Perm (p.channel ++ ([] ++ (p.prune.pending.insert requestId r).values))
      rw [hvalues, State.held, show p.prune.loop = .handle r from hloop]
      exact List.perm_append_comm.append_left p.channel
  | pruned _ => exact hp.prune
  | closedSink => exact hp
  | @replied requestId r reply hstored _ =>
      have hperm := held_perm_of_stored hstored
      obtain ⟨q, hq, hunsent, hphase⟩ := hp.stored r (hperm.mem_iff.mpr List.mem_cons_self)
      unfold State.deliver
      rw [show (p.takeResponder requestId).requests = p.requests from rfl, hq]
      dsimp only
      split
      · exact Kept.drop (p := p.takeResponder requestId) [r] hp hperm
      · have hnodup := hperm.nodup_iff.mp hp.nodup
        obtain ⟨hnot, hnodup⟩ := List.nodup_cons.mp hnodup
        refine hp.set hq hnodup ?_ (fun hr => absurd hr hnot) (fun _ hw => by cases hw) ?_
        · intro r' hne
          exact ((hperm.mem_iff.trans List.mem_cons).trans (or_iff_right hne)).symm
        · rintro (hw | hw)
          · rcases hphase with hphase | hphase
            · exact Phase.noConfusion (hw.symm.trans hphase)
            · rw [show q.phase = .parsing from hw] at hphase
              cases hphase
          · rcases hphase with hphase | hphase
            · exact Phase.noConfusion (hw.symm.trans hphase)
            · rw [show q.phase = .sending from hw] at hphase
              cases hphase
  | unusable hstored =>
      exact Kept.drop (p := p.takeResponder _) [_] hp (held_perm_of_stored hstored)
  | same => exact hp

/-! ## §4  Every run -/

theorem Moved.known {p p' : State} (h : Moved check p p') (hp : Known p) : Known p' := by
  have htaken : ∀ requestId, Known (p.takeResponder requestId) := by
    intro requestId requestId' r hstored
    change (p.pending.filter fun id _ => id ≠ requestId).get? requestId' = some r at hstored
    rw [AssocMap.get?_filter] at hstored
    exact hp requestId' r (Option.filter_eq_some_iff.mp hstored).1
  cases h with
  | arrived request =>
      unfold State.arrive
      split
      · exact hp
      · exact hp
  | acted _ h =>
      obtain ⟨hpending, hissued, -⟩ := h.frame
      unfold Known
      rwa [hpending, hissued]
  | finished _ =>
      intro requestId r hstored
      cases hstored
  | @drawn r requestId _ _ _ =>
      intro requestId' r' hstored
      change (p.prune.pending.insert requestId r).get? requestId' = some r' at hstored
      change (p.issued.insert requestId r).get? requestId' = some r'
      rw [AssocMap.get?_insert] at hstored ⊢
      split
      · rename_i heq
        rwa [if_pos heq] at hstored
      · rename_i hne
        rw [if_neg hne] at hstored
        exact hp.prune requestId' r' hstored
  | @replied requestId r reply _ _ =>
      obtain ⟨hpending, hissued, -⟩ := deliver_frame (p.takeResponder requestId) requestId r reply
      unfold Known
      rw [hpending, hissued]
      exact htaken requestId
  | @unusable requestId r _ => exact htaken requestId
  | turned _ _ => exact hp.prune
  | pruned _ => exact hp.prune
  | taken _ _ => exact hp
  | handedOn _ => exact hp
  | closedSink => exact hp
  | same => exact hp

/-- The bound on what the bridge stores. -/
def Bounded (p : State) : Prop := p.pending.entries.length ≤ defaultMaxConcurrentRequests

theorem Moved.bounded {p p' : State} (h : Moved check p p') (hp : Bounded p) : Bounded p' := by
  have hpruned : Bounded p.prune := AssocMap.length_filter_le.trans hp
  cases h with
  | arrived request =>
      unfold State.arrive
      split
      · exact hp
      · exact hp
  | acted _ h =>
      unfold Bounded
      rwa [h.frame.1]
  | finished _ => exact Nat.zero_le _
  | @drawn r requestId _ hroom _ =>
      change (p.prune.pending.insert requestId r).entries.length ≤ defaultMaxConcurrentRequests
      rw [AssocMap.length_insert]
      split
      · exact hpruned
      · exact hroom
  | @replied requestId r reply _ _ =>
      unfold Bounded
      rw [(deliver_frame (p.takeResponder requestId) requestId r reply).1]
      exact AssocMap.length_filter_le.trans hp
  | @unusable requestId r _ => exact AssocMap.length_filter_le.trans hp
  | turned _ _ => exact hpruned
  | pruned _ => exact hpruned
  | taken _ _ => exact hp
  | handedOn _ => exact hp
  | closedSink => exact hp
  | same => exact hp

/-- Nobody who waits was turned away. -/
def Fair (p : State) : Prop :=
  ∀ r ∈ p.turnedAway, ∃ q, p.requests[r]? = some q ∧ q.phase.isLive = false

/-- There are more slots than the handlers whose responders are stored. -/
theorem over_of_full {max : ℕ} {p : State} {r : ℕ} (hmax : max ≤ defaultMaxConcurrentRequests)
    (hbalanced : Balanced max p) (hkept : Kept p.requests p.held) (hloop : p.loop = .handle r)
    (hfull : defaultMaxConcurrentRequests ≤ p.prune.pending.entries.length) :
    ∃ q, p.requests[r]? = some q ∧ q.phase.isLive = false := by
  have hheld : (p.loop.held ++ p.prune.pending.values).Sublist p.prune.held :=
    List.sublist_append_right _ _
  rw [hloop] at hheld
  have hmem : r ∈ p.prune.held := hheld.subset List.mem_cons_self
  obtain ⟨q, hq, -, hphase⟩ := hkept.prune.stored r hmem
  refine ⟨q, hq, hphase.resolve_left fun hwait => ?_⟩
  have hlive : ∀ r' ∈ r :: p.prune.pending.values,
      ∃ q, p.requests[r']? = some q ∧ q.phase.isLive = true := by
    intro r' hr'
    rcases List.mem_cons.mp hr' with rfl | hr'
    · exact ⟨q, hq, hwait ▸ rfl⟩
    · have hclosed := (State.mem_prune_iff.mp hr').2
      obtain ⟨q', hq', -, -⟩ := hkept.prune.stored r' (hheld.subset (List.mem_cons_of_mem r hr'))
      refine ⟨q', hq', ?_⟩
      unfold State.isClosed at hclosed
      rw [hq', Option.any_some, Bool.not_eq_false', decide_eq_true_eq] at hclosed
      rw [hclosed]
      rfl
  have hle := Slots.length_le_countP (hkept.prune.nodup.sublist hheld) hlive
  have hlength : p.prune.pending.values.length = p.prune.pending.entries.length :=
    List.length_map _
  have hbalance : p.slots + p.requests.countP (fun q => q.phase.isLive) = max := hbalanced
  simp only [Loop.held, List.singleton_append, List.length_cons] at hle
  omega

theorem Moved.fair {max : ℕ} {p p' : State} (h : Moved check p p')
    (hmax : max ≤ defaultMaxConcurrentRequests) (hbalanced : Balanced max p)
    (hkept : Kept p.requests p.held) (hp : Fair p) : Fair p' := by
  have hover : ∀ r : ℕ, (∃ q : Request, p.requests[r]? = some q ∧ q.phase.isLive = false) →
      ∃ q : Request, p'.requests[r]? = some q ∧ q.phase.isLive = false := by
    rintro r ⟨q, hq, hphase⟩
    obtain ⟨q', hq', hfollows⟩ := h.follows hq
    exact ⟨q', hq', hfollows.finished hphase⟩
  have hsame : p'.turnedAway = p.turnedAway → Fair p' :=
    fun heq r hr => hover r (hp r (heq ▸ hr))
  cases h with
  | @turned r hloop hfull =>
      intro r' hr'
      refine hover r' ?_
      rcases List.mem_append.mp hr' with hr' | hr'
      · exact hp r' hr'
      · obtain rfl := List.mem_singleton.mp hr'
        exact over_of_full hmax hbalanced hkept hloop hfull
  | arrived request =>
      refine hsame ?_
      unfold State.arrive
      split <;> rfl
  | acted _ h => exact hsame h.frame.2.2
  | replied _ _ => exact hsame (deliver_frame _ _ _ _).2.2
  | finished _ => exact hsame rfl
  | drawn _ _ _ => exact hsame rfl
  | unusable _ => exact hsame rfl
  | pruned _ => exact hsame rfl
  | taken _ _ => exact hsame rfl
  | handedOn _ => exact hsame rfl
  | closedSink => exact hsame rfl
  | same => exact hp

/-- What holds in every run. -/
structure Inv (max : ℕ) (p : State) : Prop where
  balanced : Balanced max p
  kept : Kept p.requests p.held
  known : Known p
  bounded : Bounded p

theorem Inv.init (max : ℕ) : Inv max (.init max) where
  balanced := rfl
  kept := ⟨List.nodup_nil, fun r hr => absurd hr List.not_mem_nil,
    fun r q hq => absurd hq (by simp [State.init]),
    fun r q hq => absurd hq (by simp [State.init])⟩
  known _ _ h := by cases h
  bounded := Nat.zero_le _

theorem Inv.moved {max : ℕ} {p p' : State} (hp : Inv max p) (h : Moved check p p') : Inv max p' :=
  ⟨h.balanced hp.balanced, h.kept hp.kept hp.known, h.known hp.known, h.bounded hp.bounded⟩

/-- A handler has its slot for as long as it is not over, the bridge never stores more than its
bound, and if there are no more slots than that, it turns away nobody who still waits. -/
theorem slots_suffice {android : Bool} {max : ℕ} {p : State}
    (h : Reach (step android check) (.init max) p) :
    p.slots + p.live = max ∧
      p.pending.entries.length ≤ defaultMaxConcurrentRequests ∧
      (max ≤ defaultMaxConcurrentRequests →
        ∀ r ∈ p.turnedAway, ∃ q, p.requests[r]? = some q ∧ q.phase.isLive = false) := by
  have hinv := h.invariant
    (I := fun p => Inv max p ∧ (max ≤ defaultMaxConcurrentRequests → Fair p))
    ⟨.init max, fun _ r hr => absurd hr List.not_mem_nil⟩ (by
      rintro p l p' ⟨hp, hfair⟩ - hstep
      have hmoved := step_moved hstep
      exact ⟨hp.moved hmoved, fun hmax => hmoved.fair hmax hp.balanced hp.kept (hfair hmax)⟩)
  exact ⟨hinv.1.balanced, hinv.1.bounded, hinv.2⟩

/-- With one slot, a second request is turned down while the first is answered. -/
def answeredRoots : List Label :=
  [.request .roots, .act 0 (.parsed (.ok ())), .act 0 .send, .request .roots, .listen, .draw 7,
    .listen, .reply 7 (.roots []), .act 0 .receive, .request .roots]

theorem answeredRoots_slots_suffice :
    ∃ p, exec (step false fun _ _ => .ok ()) (.init 1) answeredRoots = some p ∧
      p.requests.map (fun q => q.phase) =
        [.ended (.answered (.roots [])), .ended (.failed .busy), .parsing] ∧
      p.slots + p.live = 1 ∧
      p.pending.entries.length ≤ defaultMaxConcurrentRequests ∧
      ∀ r ∈ p.turnedAway, ∃ q, p.requests[r]? = some q ∧ q.phase.isLive = false := by
  obtain ⟨p, hexec, hp⟩ := exists_of_exec_any (step false fun _ _ => .ok ()) (.init 1)
    answeredRoots (fun p => p.requests.map (fun q => q.phase) =
      [.ended (.answered (.roots [])), .ended (.failed .busy), .parsing]) (by decide)
  obtain ⟨hslots, hbound, hturned⟩ := slots_suffice (reach_of_exec hexec)
  exact ⟨p, hexec, of_decide_eq_true hp, hslots, hbound, hturned (by decide)⟩

end RemoteFsBridge

end FireBoxTransfer
