import FireBoxTransfer.Signaling.Knowledge
import FireBoxTransfer.Signaling.Rooms

/-!
# What the clients of a group agree on

The table changes under the lock and the clients are told afterwards, each handler
telling at its own pace. For every two clients of a group, one knows what the table
says of the other, or is yet to be told. A message in front of a Hello is undone by
the Hello's list, when the list has the peer that the message is about.
-/

namespace FireBoxTransfer.Signaling

open Runs

/-! ## §1  What a client will know -/

/-- The peer a message is about. -/
def WsServerMessage.about : WsServerMessage → Option PeerId
  | .join peer | .update peer => some peer.id
  | .left peerId => some peerId
  | .hello _ _ | .offer _ | .answer _ | .error _ => none

/-- What it says of that peer. -/
def WsServerMessage.news : WsServerMessage → Option ClientInfoWithoutId
  | .join peer | .update peer => some peer.toClientInfoWithoutId
  | .hello _ _ | .left _ | .offer _ | .answer _ | .error _ => none

def WsServerMessage.isHello : WsServerMessage → Bool
  | .hello _ _ => true
  | _ => false

theorem Peers.learn_eq {v : Peers} {msg : WsServerMessage} (hhello : msg.isHello = false)
    (p : PeerId) : v.learn msg p = if msg.about = some p then msg.news else v p := by
  cases msg with
  | hello => cases hhello
  | offer | answer | error => rfl
  | join peer | update peer =>
      simp only [learn, WsServerMessage.about, WsServerMessage.news, Option.some.injEq]
      by_cases hp : peer.id = p
      · rw [if_pos hp, ← hp, Function.update_self]
      · rw [if_neg hp, Function.update_of_ne (Ne.symm hp)]
  | left peerId =>
      simp only [learn, WsServerMessage.about, WsServerMessage.news, Option.some.injEq]
      by_cases hp : peerId = p
      · rw [if_pos hp, ← hp, Function.update_self]
      · rw [if_neg hp, Function.update_of_ne (Ne.symm hp)]

namespace Handler

/-- The peers of the Hello that is yet to be sent. -/
def pendingPeers (h : Handler) : List ClientInfo :=
  match h.phase with
  | .joining _ peers => peers
  | _ => []

/-- What the client knows once its queue is written and its Hello sent. -/
def outlook (h : Handler) : Peers :=
  ((h.written ++ h.queue).foldl Peers.learn .none).meet h.pendingPeers

theorem outlook_congr {h h' : Handler} (hmessages : h'.written ++ h'.queue = h.written ++ h.queue)
    (hpeers : h'.pendingPeers = h.pendingPeers) : h'.outlook = h.outlook := by
  unfold outlook
  rw [hmessages, hpeers]

@[simp] theorem deliver_pendingPeers (h : Handler) (msg : WsServerMessage) :
    (h.deliver msg).pendingPeers = h.pendingPeers := by
  unfold pendingPeers
  rw [deliver_phase]

/-- A message about `q` changes what will be known of `q` alone, unless the Hello's list
has `q`. -/
theorem outlook_deliver {h : Handler} {msg : WsServerMessage} (halive : h.rxAlive = true)
    (hhello : msg.isHello = false)
    (hahead : ∀ q, msg.about = some q → ∀ c ∈ h.pendingPeers, c.id ≠ q) (p : PeerId) :
    (h.deliver msg).outlook p = if msg.about = some p then msg.news else h.outlook p := by
  have hmessages : (h.deliver msg).written ++ (h.deliver msg).queue =
      (h.written ++ h.queue) ++ [msg] := by
    rw [deliver, if_pos halive, List.append_assoc]
  unfold outlook
  rw [hmessages, deliver_pendingPeers, List.foldl_append, List.foldl_cons, List.foldl_nil]
  split_ifs with hp
  · rw [Peers.meet_of_notMem (hahead p hp), Peers.learn_eq hhello, if_pos hp]
  · refine Peers.meet_congr ?_ _
    rw [Peers.learn_eq hhello, if_neg hp]

/-! ## §2  What is owed -/

/-- The handler has yet to tell `n` what the table says of its client; while it leaves
it has yet to tell everybody. -/
def Owes (h : Handler) (n : PeerId) : Option ClientInfoWithoutId → Prop
  | some _ =>
      (∃ peersTx peers, h.phase = .joining peersTx peers ∧ n ∈ peersTx) ∨
      (∃ peersTx peer, h.recvTask = .sending peersTx (.update peer) ∧ n ∈ peersTx) ∨
      h.phase = .leaving
  | none => ∃ remainingTx, h.phase = .notifying remainingTx ∧ n ∈ remainingTx

/-- The handlers that are on one of the lists of a handler. -/
inductive SendsTo (h : Handler) (t : PeerId) : Prop
  | join {peersTx peers} (phase : h.phase = .joining peersTx peers) (mem : t ∈ peersTx)
  | message {peersTx msg} (recvTask : h.recvTask = .sending peersTx msg) (mem : t ∈ peersTx)
  | left {remainingTx} (phase : h.phase = .notifying remainingTx) (mem : t ∈ remainingTx)

theorem Owes.congr {h h' : Handler} {n : PeerId} {entry : Option ClientInfoWithoutId}
    (howes : h.Owes n entry) (hphase : h'.phase = h.phase) (hrecv : h'.recvTask = h.recvTask) :
    h'.Owes n entry := by
  unfold Owes at *
  rwa [hphase, hrecv]

@[simp] theorem deliver_recvTask (h : Handler) (msg : WsServerMessage) :
    (h.deliver msg).recvTask = h.recvTask := by
  unfold deliver
  split <;> rfl

@[simp] theorem deliver_peer (h : Handler) (msg : WsServerMessage) :
    (h.deliver msg).peer = h.peer := by
  unfold deliver
  split <;> rfl

@[simp] theorem deliver_rxAlive (h : Handler) (msg : WsServerMessage) :
    (h.deliver msg).rxAlive = h.rxAlive := by
  unfold deliver
  split <;> rfl

end Handler

/-! ## §3  The invariant -/

/-- A message of the receive task: an update of its own client, as the table has it
while the client is there, or a relayed one. -/
def Relayable (entry : Option ClientInfoWithoutId) (i : PeerId) (msg : WsServerMessage) : Prop :=
  (∃ peer, msg = .update peer ∧ peer.id = i ∧
    ∀ info, entry = some info → peer.toClientInfoWithoutId = info) ∨
  ∃ sdp, msg = .offer sdp ∨ msg = .answer sdp

/-- What holds of a handler by itself, given the table's entry for its client. -/
structure Handler.Local (entry : Option ClientInfoWithoutId) (i : PeerId) (h : Handler) : Prop where
  fresh : h.phase = .connecting → h.queue = [] ∧ h.written = []
  idle : h.phase.spawned = false → h.recvTask = .waiting ∨ h.recvTask = .ended
  joining : ∀ peersTx peers, h.phase = .joining peersTx peers →
    entry = some h.peer ∧ i ∉ peersTx ∧ ∀ c ∈ peers, c.id ≠ i
  sending : ∀ peersTx msg, h.recvTask = .sending peersTx msg →
    Relayable entry i msg ∧ ∀ peer, msg = .update peer → i ∉ peersTx
  notifying : ∀ remainingTx, h.phase = .notifying remainingTx → i ∉ remainingTx

/-- For every client of a group: it will know of every other one what the table says,
or that one's handler owes it that. -/
structure Agreement (s : Server) : Prop where
  own : ∀ (i : PeerId) (h : Handler), s.handlers[i]? = some h →
    h.Local ((s.members h.ipGroup).get? i) i
  entered : ∀ (i t : PeerId) (h : Handler), s.handlers[i]? = some h → h.SendsTo t →
    ∃ u, s.handlers[t]? = some u ∧ u.phase ≠ .connecting ∧ u.ipGroup = h.ipGroup
  others : ∀ (n p : PeerId) (h : Handler), s.handlers[n]? = some h → h.phase.inserted = true →
    h.rxAlive = true → p ≠ n → h.outlook p = (s.members h.ipGroup).get? p ∨
      ∃ u, s.handlers[p]? = some u ∧ u.Owes n ((s.members h.ipGroup).get? p)
  self : ∀ (n : PeerId) (h : Handler), s.handlers[n]? = some h → h.phase.inserted = true →
    h.rxAlive = true → h.outlook n = none

namespace Agreement

variable {s s' : Server} {i : PeerId} {h : Handler} {f : Handler → Handler}

/-! ## §4  One handler moves -/

/-- A handler moves, and the table changes at most at its client: what has to be shown
is about this handler, what it will know and what it owes. -/
theorem move (hagree : Agreement s) (hh : s.handlers[i]? = some h)
    (hhandlers : s'.handlers = (s.modify i f).handlers)
    (htable : ∀ g p, p ≠ i → (s'.members g).get? p = (s.members g).get? p)
    (hgroup : (f h).ipGroup = h.ipGroup)
    (hlocal : (f h).Local ((s'.members h.ipGroup).get? i) i)
    (hconnecting : h.phase ≠ .connecting → (f h).phase ≠ .connecting)
    (hsends : ∀ t, (f h).SendsTo t → h.SendsTo t ∨ s.room t = some h.ipGroup)
    (hown : (f h).phase.inserted = true → (f h).rxAlive = true →
      (∀ p, p ≠ i → (f h).outlook p = (s.members h.ipGroup).get? p ∨
        ∃ u, s.handlers[p]? = some u ∧ u.Owes i ((s.members h.ipGroup).get? p)) ∧
      (f h).outlook i = none)
    (howes : ∀ (n : PeerId) (u : Handler), s.handlers[n]? = some u → u.phase.inserted = true →
      u.rxAlive = true → n ≠ i → u.outlook i = (s'.members u.ipGroup).get? i ∨
        (f h).Owes n ((s'.members u.ipGroup).get? i)) : Agreement s' := by
  have hself : s'.handlers[i]? = some (f h) := by
    rw [hhandlers]
    exact Server.handlers_modify_self hh
  have hothers : ∀ j, j ≠ i → s'.handlers[j]? = s.handlers[j]? := fun j hj => by
    rw [hhandlers]
    exact Server.handlers_modify_ne (Ne.symm hj)
  have hmoved : ∀ j u, s'.handlers[j]? = some u →
      (j = i ∧ u = f h) ∨ (j ≠ i ∧ s.handlers[j]? = some u) := by
    intro j u hu
    by_cases hji : j = i
    · subst hji
      rw [hself] at hu
      exact .inl ⟨rfl, (Option.some.inj hu).symm⟩
    · rw [hothers j hji] at hu
      exact .inr ⟨hji, hu⟩
  -- who was past connecting still is, in the same group
  have hpast : ∀ (t : PeerId) (u : Handler), s.handlers[t]? = some u → u.phase ≠ .connecting →
      ∃ u', s'.handlers[t]? = some u' ∧ u'.phase ≠ .connecting ∧ u'.ipGroup = u.ipGroup := by
    intro t u hu hphase
    by_cases hti : t = i
    · subst hti
      rw [hh] at hu
      obtain rfl := Option.some.inj hu
      exact ⟨f h, hself, hconnecting hphase, hgroup⟩
    · exact ⟨u, (hothers t hti).trans hu, hphase, rfl⟩
  constructor
  · intro j u hu
    rcases hmoved j u hu with ⟨rfl, rfl⟩ | ⟨hji, hu⟩
    · rw [hgroup]
      exact hlocal
    · rw [htable _ j hji]
      exact hagree.own j u hu
  · intro j t u hu hsend
    have hbefore : (∃ v, s.handlers[j]? = some v ∧ v.SendsTo t ∧ v.ipGroup = u.ipGroup) ∨
        s.room t = some u.ipGroup := by
      rcases hmoved j u hu with ⟨rfl, rfl⟩ | ⟨-, hu⟩
      · rw [hgroup]
        exact (hsends t hsend).imp_left fun hsend => ⟨h, hh, hsend, rfl⟩
      · exact .inl ⟨u, hu, hsend, rfl⟩
    rcases hbefore with ⟨v, hv, hsend, hgroup⟩ | hroom
    · obtain ⟨w, hw, hphase, hw'⟩ := hagree.entered j t v hv hsend
      obtain ⟨w', hw', hphase', hgroup'⟩ := hpast t w hw hphase
      exact ⟨w', hw', hphase', by rw [hgroup', ← hgroup]; assumption⟩
    · obtain ⟨w, hw, hin⟩ := Option.bind_eq_some_iff.mp hroom
      unfold Handler.room at hin
      split_ifs at hin with hinserted
      obtain ⟨w', hw', hphase', hgroup'⟩ := hpast t w hw fun hphase => by
        rw [hphase] at hinserted
        cases hinserted
      exact ⟨w', hw', hphase', by rw [hgroup', Option.some.inj hin]⟩
  · intro n p u hu hinserted halive hpn
    rcases hmoved n u hu with ⟨rfl, rfl⟩ | ⟨hni, hu⟩
    · rw [hgroup, htable _ p hpn]
      rcases (hown hinserted halive).1 p hpn with hknown | ⟨v, hv, howe⟩
      · exact .inl hknown
      · exact .inr ⟨v, (hothers p hpn).trans hv, howe⟩
    · by_cases hpi : p = i
      · subst hpi
        exact (howes n u hu hinserted halive hni).imp_right fun howe => ⟨f h, hself, howe⟩
      · rw [htable _ p hpi, hothers p hpi]
        exact hagree.others n p u hu hinserted halive hpn
  · intro n u hu hinserted halive
    rcases hmoved n u hu with ⟨rfl, rfl⟩ | ⟨-, hu⟩
    · exact (hown hinserted halive).2
    · exact hagree.self n u hu hinserted halive

/-- A move that leaves the table alone and adds nothing to what will be known: what was
owed is known or still owed. -/
theorem moveOwn (hagree : Agreement s) (hh : s.handlers[i]? = some h)
    (hhandlers : s'.handlers = (s.modify i f).handlers)
    (htable : ∀ g, s'.members g = s.members g) (hgroup : (f h).ipGroup = h.ipGroup)
    (hlocal : (f h).Local ((s.members h.ipGroup).get? i) i)
    (hconnecting : h.phase ≠ .connecting → (f h).phase ≠ .connecting)
    (hsends : ∀ t, (f h).SendsTo t → h.SendsTo t ∨ s.room t = some h.ipGroup)
    (hsame : (f h).phase.inserted = true → (f h).rxAlive = true →
      h.phase.inserted = true ∧ h.rxAlive = true ∧ (f h).outlook = h.outlook)
    (howes : ∀ (n : PeerId) (u : Handler), s.handlers[n]? = some u → u.phase.inserted = true →
      u.rxAlive = true → n ≠ i → h.Owes n ((s.members u.ipGroup).get? i) →
        u.outlook i = (s.members u.ipGroup).get? i ∨
          (f h).Owes n ((s.members u.ipGroup).get? i)) : Agreement s' := by
  refine hagree.move hh hhandlers (fun g p _ => by rw [htable]) hgroup (by rwa [htable])
    hconnecting hsends (fun hinserted halive => ?_) fun n u hu hinserted halive hni => ?_
  · obtain ⟨hinserted, halive, hout⟩ := hsame hinserted halive
    rw [hout]
    exact ⟨fun p hp => hagree.others i p h hh hinserted halive hp,
      hagree.self i h hh hinserted halive⟩
  · rw [htable]
    rcases hagree.others n i u hu hinserted halive (Ne.symm hni) with hknown | ⟨v, hv, howe⟩
    · exact .inl hknown
    · rw [hh] at hv
      obtain rfl := Option.some.inj hv
      exact howes n u hu hinserted halive hni howe

/-! ## §5  One message -/

/-- A message is put into a queue that may be told it: nothing of the receiver's own
client, nothing that its Hello would undo, and what the table says or what is still
to be corrected. -/
theorem deliver {p : PeerId} {t : Handler} {msg : WsServerMessage} (hagree : Agreement s)
    (ht : s.handlers[p]? = some t) (hphase : t.phase ≠ .connecting)
    (hhello : msg.isHello = false)
    (hnews : t.phase.inserted = true → ∀ q, msg.about = some q →
      q ≠ p ∧ (∀ c ∈ t.pendingPeers, c.id ≠ q) ∧
        (msg.news = (s.members t.ipGroup).get? q ∨
          ∃ u, s.handlers[q]? = some u ∧ u.Owes p ((s.members t.ipGroup).get? q))) :
    Agreement (s.modify p (·.deliver msg)) := by
  have hown := hagree.own p t ht
  refine hagree.move ht rfl (fun _ _ _ => rfl) (t.deliver_ipGroup msg) ?_
    (by simp) ?_ (fun hinserted halive => ?_) fun n u hu hinserted halive hnp => ?_
  · exact {
      fresh := fun hconnecting => absurd (by simpa using hconnecting) hphase
      idle := by simpa using hown.idle
      joining := by simpa using hown.joining
      sending := by simpa using hown.sending
      notifying := by simpa using hown.notifying }
  · rintro q (⟨hjoin, hmem⟩ | ⟨hrecv, hmem⟩ | ⟨hleft, hmem⟩)
    · exact .inl (.join (by simpa using hjoin) hmem)
    · exact .inl (.message (by simpa using hrecv) hmem)
    · exact .inl (.left (by simpa using hleft) hmem)
  · rw [Handler.deliver_phase] at hinserted
    rw [Handler.deliver_rxAlive] at halive
    have hnews := hnews hinserted
    have hout := Handler.outlook_deliver halive hhello fun q hq => (hnews q hq).2.1
    refine ⟨fun q hq => ?_, ?_⟩
    · rw [hout]
      split_ifs with habout
      · exact (hnews q habout).2.2
      · exact hagree.others p q t ht hinserted halive hq
    · rw [hout, if_neg fun habout => (hnews p habout).1 rfl]
      exact hagree.self p t ht hinserted halive
  · rcases hagree.others n p u hu hinserted halive (Ne.symm hnp) with hknown | ⟨v, hv, howe⟩
    · exact .inl hknown
    · rw [ht] at hv
      obtain rfl := Option.some.inj hv
      exact .inr (howe.congr (Handler.deliver_phase _ msg) (Handler.deliver_recvTask _ msg))

end Agreement

/-! ## §6  Messages in order -/

/-- No message about a peer is put in front of a Hello that lists this peer. -/
def NotAhead (s : Server) (next : PeerId × WsServerMessage) : Prop :=
  ∀ t ∈ s.handlers[next.1]?, ∀ p ∈ next.2.about, ∀ c ∈ t.pendingPeers, c.id ≠ p

/-- An update of a client that has left has the Left still behind it. -/
def NotStale (s : Server) (h : Handler) (next : PeerId × WsServerMessage) : Prop :=
  match h.phase, next.2 with
  | .notifying remainingTx, .update _ =>
      ∀ t ∈ s.handlers[next.1]?, t.phase.inserted = true → next.1 ∈ remainingTx
  | _, _ => True

/-- An update leaves the client's token as it is. -/
def KeepsToken (h : Handler) (a : Act) : Prop :=
  match a, h.recvTask with
  | .lockMessage _, .handling (.update info) => info.token = h.peer.token
  | _, _ => True

/-- What the clients can follow. -/
def InOrder (s : Server) : Label → Prop
  | .act i a =>
      ∀ h ∈ s.handlers[i]?, KeepsToken h a ∧
        ∀ next ∈ h.nextMessage i a, NotAhead s next ∧ NotStale s h next
  | _ => True

instance (s : Server) (next : PeerId × WsServerMessage) : Decidable (NotAhead s next) :=
  inferInstanceAs (Decidable (∀ t ∈ s.handlers[next.1]?, ∀ p ∈ next.2.about,
    ∀ c ∈ t.pendingPeers, c.id ≠ p))

instance (s : Server) (h : Handler) (next : PeerId × WsServerMessage) :
    Decidable (NotStale s h next) := by
  unfold NotStale
  split <;> infer_instance

instance (h : Handler) (a : Act) : Decidable (KeepsToken h a) := by
  unfold KeepsToken
  split <;> infer_instance

instance (s : Server) : (l : Label) → Decidable (InOrder s l)
  | .act i a =>
      inferInstanceAs (Decidable (∀ h ∈ s.handlers[i]?, KeepsToken h a ∧
        ∀ next ∈ h.nextMessage i a, NotAhead s next ∧ NotStale s h next))
  | .connect _ _ | .clear => .isTrue trivial

namespace Agreement

variable {s s' : Server} {i p : PeerId} {h t : Handler} {msg : WsServerMessage}

/-- The receiver of a message knows what it says. -/
theorem outlook_of_told {u : Handler} {q : PeerId} (ht : s.handlers[p]? = some t)
    (hu : (s.modify p (·.deliver msg)).handlers[p]? = some u) (halive : u.rxAlive = true)
    (hhello : msg.isHello = false) (hahead : NotAhead s (p, msg)) (habout : msg.about = some q) :
    u.outlook q = msg.news := by
  rw [Server.handlers_modify_self ht, Option.some.injEq] at hu
  subst hu
  rw [Handler.deliver_rxAlive] at halive
  rw [Handler.outlook_deliver halive hhello (hahead t ht), if_pos habout]

/-- The sender of a message, after it. -/
theorem sender_delivered (p : PeerId) (msg : WsServerMessage) (hh : s.handlers[i]? = some h) :
    ∃ h₁ : Handler, (s.modify p (·.deliver msg)).handlers[i]? = some h₁ ∧ h₁.phase = h.phase ∧
      h₁.recvTask = h.recvTask ∧ h₁.peer = h.peer ∧ h₁.ipGroup = h.ipGroup := by
  by_cases hip : i = p
  · subst hip
    exact ⟨_, Server.handlers_modify_self hh, by simp⟩
  · exact ⟨h, (Server.handlers_modify_ne (Ne.symm hip)).trans hh, rfl, rfl, rfl, rfl⟩

/-! ## §7  A handler sends -/

/-- A handler goes on to `h'` after its message `msg` to `p`: it is done with `p`, as far
as the message says what the table says. -/
structure Advances (i p : PeerId) (msg : WsServerMessage) (h h' : Handler) : Prop where
  group : h'.ipGroup = h.ipGroup
  own : ∀ entry, h.Local entry i → h'.Local entry i
  past : h'.phase ≠ .connecting
  sends : ∀ t, h'.SendsTo t → h.SendsTo t
  same : h'.phase.inserted = true → h'.rxAlive = true →
    h.phase.inserted = true ∧ h.rxAlive = true ∧ h'.outlook = h.outlook
  owesOthers : ∀ n entry, n ≠ p → h.Owes n entry → h'.Owes n entry
  owesTold : ∀ entry, h.Local entry i → h.Owes p entry →
    (msg.about = some i ∧ msg.news = entry) ∨ h'.Owes p entry

/-- **A handler sends a message**, about its own client if about any, and goes on. -/
theorem send {f : Handler → Handler} (hagree : Agreement s) (hh : s.handlers[i]? = some h)
    (ht : s.handlers[p]? = some t) (hpast : t.phase ≠ .connecting)
    (hgroup : t.ipGroup = h.ipGroup) (hhello : msg.isHello = false)
    (habout : ∀ q, msg.about = some q → q = i ∧ i ≠ p) (hahead : NotAhead s (p, msg))
    (hcurrent : t.phase.inserted = true → msg.about = some i →
      msg.news = (s.members h.ipGroup).get? i ∨ h.Owes p ((s.members h.ipGroup).get? i))
    (hf : ∀ h₁ : Handler, h₁.phase = h.phase → h₁.recvTask = h.recvTask → h₁.peer = h.peer →
      Advances i p msg h₁ (f h₁)) :
    Agreement ((s.modify p (·.deliver msg)).modify i f) := by
  have hdelivered : Agreement (s.modify p (·.deliver msg)) := by
    refine hagree.deliver ht hpast hhello fun hinserted q hq => ?_
    obtain ⟨rfl, hip⟩ := habout q hq
    rw [hgroup]
    exact ⟨hip, hahead t ht q hq, (hcurrent hinserted hq).imp_right fun howe => ⟨h, hh, howe⟩⟩
  obtain ⟨h₁, hh₁, hphase₁, hrecv₁, hpeer₁, hgroup₁⟩ := sender_delivered p msg hh
  have hadvance := hf h₁ hphase₁ hrecv₁ hpeer₁
  have hown := hdelivered.own i h₁ hh₁
  refine hdelivered.moveOwn hh₁ rfl (fun _ => rfl) hadvance.group (hadvance.own _ hown)
    (fun _ => hadvance.past) (fun q hq => .inl (hadvance.sends q hq)) hadvance.same
    fun n u hu hinserted halive hni howe => ?_
  by_cases hnp : n = p
  · subst hnp
    -- the receiver is in the sender's group
    have hu' := hu
    rw [Server.handlers_modify_self ht, Option.some.injEq] at hu'
    have hugroup : u.ipGroup = h₁.ipGroup := by
      rw [← hu', Handler.deliver_ipGroup, hgroup, hgroup₁]
    rw [hugroup] at howe ⊢
    refine (hadvance.owesTold _ hown howe).imp_left fun ⟨habout, hnews⟩ => ?_
    rw [outlook_of_told ht hu halive hhello hahead habout, hnews]
  · exact .inr (hadvance.owesOthers n _ hnp howe)

theorem advances_join {rest : List PeerId} {peers : List ClientInfo}
    (hphase : h.phase = .joining (p :: rest) peers) :
    Advances i p (.join (.of h.peer i)) h { h with phase := .joining rest peers } where
  group := rfl
  own entry hown := by
    obtain ⟨hentry, hself, hpeers⟩ := hown.joining _ _ hphase
    exact {
      fresh := fun hfalse => by cases hfalse
      idle := fun _ => hown.idle (by rw [hphase]; rfl)
      joining := by
        rintro _ _ ⟨⟩
        exact ⟨hentry, fun hmem => hself (List.mem_cons_of_mem _ hmem), hpeers⟩
      sending := hown.sending
      notifying := fun _ hfalse => by cases hfalse }
  past hfalse := by cases hfalse
  sends := by
    rintro q (⟨hjoin, hmem⟩ | ⟨hrecv, hmem⟩ | ⟨hleft, hmem⟩)
    · cases hjoin
      exact .join hphase (List.mem_cons_of_mem _ hmem)
    · exact .message hrecv hmem
    · cases hleft
  same _ halive := by
    refine ⟨by rw [hphase]; rfl, halive, Handler.outlook_congr rfl ?_⟩
    unfold Handler.pendingPeers
    rw [hphase]
  owesOthers n entry hnp howe := by
    unfold Handler.Owes at *
    cases entry with
    | none =>
        obtain ⟨_, hleft, -⟩ := howe
        rw [hphase] at hleft
        cases hleft
    | some info =>
        rcases howe with ⟨peersTx, peers', hjoin, hmem⟩ | howe | hleaving
        · rw [hphase] at hjoin
          cases hjoin
          exact .inl ⟨rest, peers, rfl, (List.mem_cons.mp hmem).resolve_left hnp⟩
        · exact .inr (.inl howe)
        · rw [hphase] at hleaving
          cases hleaving
  owesTold entry hown _ := .inl ⟨rfl, (hown.joining _ _ hphase).1.symm⟩

theorem advances_left {rest : List PeerId} (hphase : h.phase = .notifying (p :: rest)) :
    Advances i p (.left i) h { h with phase := .notifying rest } where
  group := rfl
  own entry hown := {
    fresh := fun hfalse => by cases hfalse
    idle := fun hfalse => by cases hfalse
    joining := fun _ _ hfalse => by cases hfalse
    sending := hown.sending
    notifying := by
      rintro _ ⟨⟩
      exact fun hmem => hown.notifying _ hphase (List.mem_cons_of_mem _ hmem) }
  past hfalse := by cases hfalse
  sends := by
    rintro q (⟨hjoin, hmem⟩ | ⟨hrecv, hmem⟩ | ⟨hleft, hmem⟩)
    · cases hjoin
    · exact .message hrecv hmem
    · cases hleft
      exact .left hphase (List.mem_cons_of_mem _ hmem)
  same hfalse := by cases hfalse
  owesOthers n entry hnp howe := by
    unfold Handler.Owes at *
    cases entry with
    | none =>
        obtain ⟨_, hleft, hmem⟩ := howe
        rw [hphase] at hleft
        cases hleft
        exact ⟨rest, rfl, (List.mem_cons.mp hmem).resolve_left hnp⟩
    | some info =>
        rcases howe with ⟨_, _, hjoin, -⟩ | howe | hleaving
        · rw [hphase] at hjoin
          cases hjoin
        · exact .inr (.inl howe)
        · rw [hphase] at hleaving
          cases hleaving
  owesTold entry _ howe := by
    cases entry with
    | none => exact .inl ⟨rfl, rfl⟩
    | some info =>
        rcases howe with ⟨_, _, hjoin, -⟩ | howe | hleaving
        · rw [hphase] at hjoin
          cases hjoin
        · exact .inr (.inr (.inl howe))
        · rw [hphase] at hleaving
          cases hleaving

theorem advances_message {rest : List PeerId} (hpast : h.phase ≠ .connecting)
    (hrecv : h.recvTask = .sending (p :: rest) msg) :
    Advances i p msg h { h with recvTask := .sending rest msg } where
  group := rfl
  own entry hown := {
    fresh := hown.fresh
    idle := fun hspawned => by
      have hidle := hown.idle hspawned
      rw [hrecv] at hidle
      rcases hidle with hfalse | hfalse <;> cases hfalse
    joining := hown.joining
    sending := by
      rintro _ _ ⟨⟩
      obtain ⟨hrelay, hself⟩ := hown.sending _ _ hrecv
      exact ⟨hrelay, fun peer hpeer hmem => hself peer hpeer (List.mem_cons_of_mem _ hmem)⟩
    notifying := hown.notifying }
  past := hpast
  sends := by
    rintro q (⟨hjoin, hmem⟩ | ⟨hsend, hmem⟩ | ⟨hleft, hmem⟩)
    · exact .join hjoin hmem
    · cases hsend
      exact .message hrecv (List.mem_cons_of_mem _ hmem)
    · exact .left hleft hmem
  same hinserted halive := ⟨hinserted, halive, rfl⟩
  owesOthers n entry hnp howe := by
    unfold Handler.Owes at *
    cases entry with
    | none => exact howe
    | some info =>
        rcases howe with howe | ⟨_, peer, hsend, hmem⟩ | hleaving
        · exact .inl howe
        · rw [hrecv] at hsend
          cases hsend
          exact .inr (.inl ⟨rest, peer, rfl, (List.mem_cons.mp hmem).resolve_left hnp⟩)
        · exact .inr (.inr hleaving)
  owesTold entry hown howe := by
    cases entry with
    | none => exact .inr howe
    | some info =>
        rcases howe with howe | ⟨_, peer, hsend, -⟩ | hleaving
        · exact .inr (.inl howe)
        · rw [hrecv] at hsend
          cases hsend
          -- the update says what the table has
          rcases (hown.sending _ _ hrecv).1 with ⟨peer', hpeer, hid, hinfo⟩ | ⟨sdp, hsdp⟩
          · cases hpeer
            exact .inl ⟨by rw [← hid]; rfl, by rw [← hinfo info rfl]; rfl⟩
          · rcases hsdp with hsdp | hsdp <;> cases hsdp
        · exact .inr (.inr (.inr hleaving))

theorem advances_refuse (hpast : h.phase ≠ .connecting) (hrecv : h.recvTask = .refusing) :
    Advances i p (.error Server.tooManyRequests) h { h with recvTask := .ended } where
  group := rfl
  own entry hown := {
    fresh := hown.fresh
    idle := fun _ => .inr rfl
    joining := hown.joining
    sending := fun _ _ hfalse => by cases hfalse
    notifying := hown.notifying }
  past := hpast
  sends := by
    rintro q (⟨hjoin, hmem⟩ | ⟨hsend, hmem⟩ | ⟨hleft, hmem⟩)
    · exact .join hjoin hmem
    · cases hsend
    · exact .left hleft hmem
  same hinserted halive := ⟨hinserted, halive, rfl⟩
  owesOthers n entry _ howe := by
    unfold Handler.Owes at *
    cases entry with
    | none => exact howe
    | some info =>
        rcases howe with howe | ⟨_, _, hsend, -⟩ | hleaving
        · exact .inl howe
        · rw [hrecv] at hsend
          cases hsend
        · exact .inr (.inr hleaving)
  owesTold entry _ howe := by
    unfold Handler.Owes at *
    cases entry with
    | none => exact .inr howe
    | some info =>
        rcases howe with howe | ⟨_, _, hsend, -⟩ | hleaving
        · exact .inr (.inl howe)
        · rw [hrecv] at hsend
          cases hsend
        · exact .inr (.inr (.inr hleaving))

/-- A receive task that is busy belongs to a handler that is past its join. -/
theorem spawned_of_recvTask (hagree : Agreement s) (hh : s.handlers[i]? = some h)
    (hwaiting : h.recvTask ≠ .waiting) (hended : h.recvTask ≠ .ended) : h.phase.spawned = true := by
  by_contra hspawned
  rcases (hagree.own i h hh).idle (Bool.eq_false_iff.mpr hspawned) with hrecv | hrecv
  · exact hwaiting hrecv
  · exact hended hrecv

theorem connecting_of_spawned (hspawned : h.phase.spawned = true) : h.phase ≠ .connecting := by
  intro hphase
  rw [hphase] at hspawned
  cases hspawned

theorem sendJoin {rest : List PeerId} {peers : List ClientInfo} (hagree : Agreement s)
    (hh : s.handlers[i]? = some h) (hphase : h.phase = .joining (p :: rest) peers)
    (hahead : NotAhead s (p, .join (.of h.peer i))) :
    Agreement ((s.modify p (·.deliver (.join (.of h.peer i)))).modify i
      fun h => { h with phase := .joining rest peers }) := by
  obtain ⟨t, ht, hpast, hgroup⟩ := hagree.entered i p h hh (.join hphase (List.mem_cons_self ..))
  obtain ⟨hentry, hself, -⟩ := (hagree.own i h hh).joining _ _ hphase
  refine hagree.send hh ht hpast hgroup rfl (fun q hq => ?_) hahead (fun _ _ => .inl hentry.symm)
    fun h₁ hphase₁ _ hpeer₁ => ?_
  · exact ⟨(Option.some.inj hq).symm, fun heq => hself (heq ▸ List.mem_cons_self ..)⟩
  · rw [← hpeer₁]
    exact advances_join (hphase₁.trans hphase)

theorem sendLeft {rest : List PeerId} (hagree : Agreement s) (howned : Owned s)
    (hh : s.handlers[i]? = some h) (hphase : h.phase = .notifying (p :: rest))
    (hahead : NotAhead s (p, .left i)) :
    Agreement ((s.modify p (·.deliver (.left i))).modify i
      fun h => { h with phase := .notifying rest }) := by
  obtain ⟨t, ht, hpast, hgroup⟩ := hagree.entered i p h hh (.left hphase (List.mem_cons_self ..))
  have hself := (hagree.own i h hh).notifying _ hphase
  have hentry : (s.members h.ipGroup).get? i = none := by
    by_contra hsome
    have hmem := AssocMap.mem_keys_iff.mpr (Option.ne_none_iff_exists'.mp hsome)
    rw [howned, Owned.room_of_not_inserted hh (by rw [hphase]; rfl)] at hmem
    cases hmem
  refine hagree.send hh ht hpast hgroup rfl (fun q hq => ?_) hahead (fun _ _ => .inl hentry.symm)
    fun h₁ hphase₁ _ _ => advances_left (hphase₁.trans hphase)
  exact ⟨(Option.some.inj hq).symm, fun heq => hself (heq ▸ List.mem_cons_self ..)⟩

/-- Whose client is not in the table has left, once its tasks run. -/
theorem notifying_of_entry (howned : Owned s) (hh : s.handlers[i]? = some h)
    (hspawned : h.phase.spawned = true) (hentry : (s.members h.ipGroup).get? i = none) :
    ∃ remainingTx, h.phase = .notifying remainingTx := by
  have hout : h.phase.inserted = false := by
    by_contra hinserted
    have hmem := howned.mem_of_inserted hh (Bool.not_eq_false _ ▸ hinserted)
    obtain ⟨info, hinfo⟩ := AssocMap.mem_keys_iff.mp hmem
    rw [hentry] at hinfo
    cases hinfo
  cases hphase : h.phase with
  | notifying remainingTx => exact ⟨remainingTx, rfl⟩
  | connecting | joining | rejected =>
      rw [hphase] at hspawned
      cases hspawned
  | receiving | leaving =>
      rw [hphase] at hout
      cases hout

theorem sendMessage {rest : List PeerId} (hagree : Agreement s) (howned : Owned s)
    (hh : s.handlers[i]? = some h) (hrecv : h.recvTask = .sending (p :: rest) msg)
    (hahead : NotAhead s (p, msg)) (hstale : NotStale s h (p, msg)) :
    Agreement ((s.modify p (·.deliver msg)).modify i
      fun h => { h with recvTask := .sending rest msg }) := by
  obtain ⟨t, ht, hpast, hgroup⟩ := hagree.entered i p h hh (.message hrecv (List.mem_cons_self ..))
  have hspawned : h.phase.spawned = true :=
    hagree.spawned_of_recvTask hh (by rw [hrecv]; nofun) (by rw [hrecv]; nofun)
  obtain ⟨hrelay, hself⟩ := (hagree.own i h hh).sending _ _ hrecv
  have hadvance : ∀ h₁ : Handler, h₁.phase = h.phase → h₁.recvTask = h.recvTask →
      h₁.peer = h.peer → Advances i p msg h₁ { h₁ with recvTask := .sending rest msg } :=
    fun h₁ hphase₁ hrecv₁ _ => advances_message
      (connecting_of_spawned (hphase₁ ▸ hspawned)) (hrecv₁.trans hrecv)
  rcases hrelay with ⟨peer, rfl, hid, hinfo⟩ | ⟨sdp, rfl | rfl⟩
  · refine hagree.send hh ht hpast hgroup rfl (fun q hq => ?_) hahead (fun hinserted _ => ?_)
      hadvance
    · have hqi : q = i := by
        rw [← hid]
        exact (Option.some.inj hq).symm
      exact ⟨hqi, fun heq => hself peer rfl (heq ▸ List.mem_cons_self ..)⟩
    · cases hentry : (s.members h.ipGroup).get? i with
      | some info => exact .inl (by rw [← hinfo info hentry]; rfl)
      | none =>
          obtain ⟨remainingTx, hphase⟩ := notifying_of_entry howned hh hspawned hentry
          refine .inr ⟨remainingTx, hphase, ?_⟩
          unfold NotStale at hstale
          rw [hphase] at hstale
          exact hstale t ht hinserted
  · exact hagree.send hh ht hpast hgroup rfl (fun _ hfalse => by cases hfalse) hahead
      (fun _ hfalse => by cases hfalse) hadvance
  · exact hagree.send hh ht hpast hgroup rfl (fun _ hfalse => by cases hfalse) hahead
      (fun _ hfalse => by cases hfalse) hadvance

theorem refuse (hagree : Agreement s) (hh : s.handlers[i]? = some h)
    (hrecv : h.recvTask = .refusing) :
    Agreement ((s.modify i (·.deliver (.error Server.tooManyRequests))).modify i
      fun h => { h with recvTask := .ended }) := by
  have hspawned : h.phase.spawned = true :=
    hagree.spawned_of_recvTask hh (by rw [hrecv]; nofun) (by rw [hrecv]; nofun)
  refine hagree.send hh hh (connecting_of_spawned hspawned) rfl rfl
    (fun _ hfalse => by cases hfalse) (fun _ _ _ hfalse => by cases hfalse)
    (fun _ hfalse => by cases hfalse) fun h₁ hphase₁ hrecv₁ _ => ?_
  exact advances_refuse (connecting_of_spawned (hphase₁ ▸ hspawned)) (hrecv₁.trans hrecv)

/-- The Hello changes nothing: its list was counted on. -/
theorem sendHello {peers : List ClientInfo} (hagree : Agreement s)
    (hh : s.handlers[i]? = some h) (hphase : h.phase = .joining [] peers) :
    Agreement ((s.modify i (·.deliver (.hello (.of h.peer i) peers))).modify i
      fun h => { h with phase := .receiving }) := by
  have hown := hagree.own i h hh
  have hmodify : ((s.modify i (·.deliver (.hello (.of h.peer i) peers))).modify i
      fun h => { h with phase := .receiving }).handlers =
      (s.modify i fun h' =>
        { h'.deliver (.hello (.of h.peer i) peers) with phase := .receiving }).handlers := by
    unfold Server.modify
    rw [List.modify_modify_eq]
    rfl
  refine hagree.moveOwn hh hmodify (fun _ => rfl) (h.deliver_ipGroup _) ?_
    (fun _ hfalse => by cases hfalse) ?_ (fun _ halive => ?_) fun n u hu _ _ hni howe => ?_
  · exact {
      fresh := fun hfalse => by cases hfalse
      idle := fun hfalse => by cases hfalse
      joining := fun _ _ hfalse => by cases hfalse
      sending := by simpa using hown.sending
      notifying := fun _ hfalse => by cases hfalse }
  · rintro q (⟨hjoin, hmem⟩ | ⟨hrecv, hmem⟩ | ⟨hleft, hmem⟩)
    · cases hjoin
    · exact .inl (.message (by simpa using hrecv) hmem)
    · cases hleft
  · have halive : h.rxAlive = true := by simpa using halive
    refine ⟨by rw [hphase]; rfl, halive, ?_⟩
    have hpending : h.pendingPeers = peers := by
      unfold Handler.pendingPeers
      rw [hphase]
    unfold Handler.outlook
    rw [hpending, Handler.deliver, if_pos halive, ← List.append_assoc, List.foldl_append]
    rfl
  · -- nobody is left to be told, and nothing else was owed
    cases hentry : (s.members u.ipGroup).get? i with
    | none =>
        rw [hentry] at howe
        obtain ⟨_, hleft, -⟩ := howe
        rw [hphase] at hleft
        cases hleft
    | some info =>
        rw [hentry] at howe
        rcases howe with ⟨_, _, hjoin, hmem⟩ | howe | hleaving
        · rw [hphase] at hjoin
          cases hjoin
          cases hmem
        · exact .inr (.inr (.inl (by simpa using howe)))
        · rw [hphase] at hleaving
          cases hleaving

/-! ## §8  Moves without a message -/

/-- The receive task moves by itself. -/
theorem moveRecv {r : RecvTask} (hagree : Agreement s) (hh : s.handlers[i]? = some h)
    (hhandlers : s'.handlers = (s.modify i fun h => { h with recvTask := r }).handlers)
    (htable : ∀ g, s'.members g = s.members g) (hspawned : h.phase.spawned = true)
    (hsending : ∀ peersTx msg, r = .sending peersTx msg →
      (∃ sdp, msg = .offer sdp ∨ msg = .answer sdp) ∧
        ∀ t ∈ peersTx, s.room t = some h.ipGroup)
    (hlost : ∀ g info n peersTx peer, (s.members g).get? i = some info →
      h.recvTask = .sending peersTx (.update peer) → n ∈ peersTx → h.phase = .leaving) :
    Agreement s' := by
  have hown := hagree.own i h hh
  refine hagree.moveOwn hh hhandlers htable rfl ?_ id ?_
    (fun hinserted halive => ⟨hinserted, halive, rfl⟩) fun n u hu _ _ hni howe => .inr ?_
  · exact {
      fresh := hown.fresh
      idle := fun hfalse => by rw [hspawned] at hfalse; cases hfalse
      joining := hown.joining
      sending := fun peersTx msg hr => by
        obtain ⟨⟨sdp, hsdp⟩, -⟩ := hsending peersTx msg hr
        refine ⟨.inr ⟨sdp, hsdp⟩, fun peer hpeer => ?_⟩
        subst hpeer
        rcases hsdp with hsdp | hsdp <;> cases hsdp
      notifying := hown.notifying }
  · rintro q (⟨hjoin, hmem⟩ | ⟨hrecv, hmem⟩ | ⟨hleft, hmem⟩)
    · exact .inl (.join hjoin hmem)
    · exact .inr ((hsending _ _ hrecv).2 q hmem)
    · exact .inl (.left hleft hmem)
  · cases hentry : (s.members u.ipGroup).get? i with
    | none =>
        rw [hentry] at howe
        exact howe
    | some info =>
        rw [hentry] at howe
        rcases howe with howe | ⟨peersTx, peer, hrecv, hmem⟩ | hleaving
        · exact .inl howe
        · exact .inr (.inr (hlost _ info n peersTx peer hentry hrecv hmem))
        · exact .inr (.inr hleaving)

/-- The queue is written to, or given up. -/
theorem moveQueue {f : Handler → Handler} (hagree : Agreement s) (hh : s.handlers[i]? = some h)
    (hspawned : h.phase.spawned = true) {queue written : List WsServerMessage} {rxAlive : Bool}
    (hf : f h = { h with queue := queue, written := written, rxAlive := rxAlive })
    (hsame : rxAlive = true → h.rxAlive = true ∧ written ++ queue = h.written ++ h.queue) :
    Agreement (s.modify i f) := by
  have hown := hagree.own i h hh
  refine hagree.moveOwn hh rfl (fun _ => rfl) (by rw [hf]) ?_ (by rw [hf]; exact id) ?_
    (fun hinserted halive => ?_) fun n u hu _ _ hni howe => .inr ?_
  · rw [hf]
    exact {
      fresh := fun hphase => absurd hphase (connecting_of_spawned hspawned)
      idle := hown.idle
      joining := hown.joining
      sending := hown.sending
      notifying := hown.notifying }
  · rw [hf]
    rintro q (⟨hjoin, hmem⟩ | ⟨hrecv, hmem⟩ | ⟨hleft, hmem⟩)
    · exact .inl (.join hjoin hmem)
    · exact .inl (.message hrecv hmem)
    · exact .inl (.left hleft hmem)
  · rw [hf] at hinserted halive ⊢
    obtain ⟨halive, hmessages⟩ := hsame halive
    exact ⟨hinserted, halive, Handler.outlook_congr hmessages rfl⟩
  · rw [hf]
    exact howe.congr rfl rfl

theorem stop (hagree : Agreement s) (hh : s.handlers[i]? = some h) (hphase : h.phase = .receiving) :
    Agreement (s.modify i fun h => { h with phase := .leaving }) := by
  have hown := hagree.own i h hh
  refine hagree.moveOwn hh rfl (fun _ => rfl) rfl ?_ (fun _ hfalse => by cases hfalse) ?_
    (fun _ halive => ⟨by rw [hphase]; rfl, halive, ?_⟩) fun n u hu _ _ hni howe => .inr ?_
  · exact {
      fresh := fun hfalse => by cases hfalse
      idle := fun hfalse => by cases hfalse
      joining := fun _ _ hfalse => by cases hfalse
      sending := hown.sending
      notifying := fun _ hfalse => by cases hfalse }
  · rintro q (⟨hjoin, hmem⟩ | ⟨hrecv, hmem⟩ | ⟨hleft, hmem⟩)
    · cases hjoin
    · exact .inl (.message hrecv hmem)
    · cases hleft
  · refine Handler.outlook_congr rfl ?_
    unfold Handler.pendingPeers
    rw [hphase]
  · cases hentry : (s.members u.ipGroup).get? i with
    | none =>
        rw [hentry] at howe
        obtain ⟨_, hleft, -⟩ := howe
        rw [hphase] at hleft
        cases hleft
    | some info => exact .inr (.inr rfl)

/-- A client that is turned away was told nothing and owes nothing. -/
theorem reject (hagree : Agreement s) (hh : s.handlers[i]? = some h)
    (hphase : h.phase = .connecting) (hhandlers : s'.handlers = (s.reject i).handlers)
    (htable : ∀ g, s'.members g = s.members g) : Agreement s' := by
  have hown := hagree.own i h hh
  refine hagree.moveOwn hh hhandlers htable rfl ?_ (fun _ hfalse => by cases hfalse) ?_
    (fun hfalse => by cases hfalse) fun n u hu _ _ hni howe => .inr ?_
  · exact {
      fresh := fun hfalse => by cases hfalse
      idle := fun _ => .inr rfl
      joining := fun _ _ hfalse => by cases hfalse
      sending := fun _ _ hfalse => by cases hfalse
      notifying := fun _ hfalse => by cases hfalse }
  · rintro q (⟨hjoin, hmem⟩ | ⟨hrecv, hmem⟩ | ⟨hleft, hmem⟩)
    · cases hjoin
    · cases hrecv
    · cases hleft
  · have hidle := hown.idle (by rw [hphase]; rfl)
    cases hentry : (s.members u.ipGroup).get? i with
    | none =>
        rw [hentry] at howe
        obtain ⟨_, hleft, -⟩ := howe
        rw [hphase] at hleft
        cases hleft
    | some info =>
        rw [hentry] at howe
        rcases howe with ⟨_, _, hjoin, -⟩ | ⟨_, _, hrecv, -⟩ | hleaving
        · rw [hphase] at hjoin
          cases hjoin
        · rw [hrecv] at hidle
          rcases hidle with hfalse | hfalse <;> cases hfalse
        · rw [hphase] at hleaving
          cases hleaving

/-- In another group a client has no entry. -/
theorem entry_other (howned : Owned s) (hh : s.handlers[i]? = some h) {g : String}
    (hg : g ≠ h.ipGroup) : (s.members g).get? i = none := by
  by_contra hsome
  have hmem := AssocMap.mem_keys_iff.mpr (Option.ne_none_iff_exists'.mp hsome)
  rw [howned, Server.room, hh, Option.bind_some, Handler.room] at hmem
  split_ifs at hmem
  exact hg (Option.some.inj hmem).symm

/-- A client of another group: what it knows of this one is right, if nobody is leaving
its group. -/
theorem known_elsewhere (hagree : Agreement s) (howned : Owned s) (hh : s.handlers[i]? = some h)
    (hphase : ∀ remainingTx, h.phase ≠ .notifying remainingTx) {n : PeerId} {u : Handler}
    (hu : s.handlers[n]? = some u) (hinserted : u.phase.inserted = true)
    (halive : u.rxAlive = true) (hni : n ≠ i) (hg : u.ipGroup ≠ h.ipGroup) :
    u.outlook i = none := by
  have hentry := entry_other howned hh hg
  rcases hagree.others n i u hu hinserted halive (Ne.symm hni) with hknown | ⟨v, hv, howe⟩
  · rw [hknown, hentry]
  · rw [hh] at hv
    obtain rfl := Option.some.inj hv
    rw [hentry] at howe
    obtain ⟨remainingTx, hleft, -⟩ := howe
    exact absurd hleft (hphase remainingTx)

/-! ## §9  Joins, updates, leaves -/

/-- A join: the newcomer's Hello will list the members, who are yet to be told. -/
theorem enter {order : List PeerId} {peers : List ClientInfo} (hagree : Agreement s)
    (howned : Owned s) (hh : s.handlers[i]? = some h) (hphase : h.phase = .connecting)
    (hperm : order.Perm (s.members h.ipGroup).keys)
    (hpeers : peers = order.filterMap fun k =>
      ((s.members h.ipGroup).get? k).map fun info => ClientInfo.of info k)
    (hmembers : ∀ g, s'.members g =
      if g = h.ipGroup then (s.members h.ipGroup).insert i h.peer else s.members g)
    (hhandlers : s'.handlers =
      (s.modify i fun h => { h with phase := .joining order peers }).handlers) :
    Agreement s' := by
  have hown := hagree.own i h hh
  have hroom : s.room i = none := Owned.room_of_not_inserted hh (by rw [hphase]; rfl)
  have hkey : ∀ n, n ∈ order ↔ s.room n = some h.ipGroup := fun n => by
    rw [hperm.mem_iff]
    exact howned h.ipGroup n
  have hself : i ∉ order := fun hmem => by
    rw [hkey, hroom] at hmem
    cases hmem
  have hlisted : ∀ c, c ∈ peers ↔ c.id ∈ order ∧
      (s.members h.ipGroup).get? c.id = some c.toClientInfoWithoutId := by
    intro c
    rw [hpeers, List.mem_filterMap]
    constructor
    · rintro ⟨k, hk, hc⟩
      obtain ⟨info, hinfo, rfl⟩ := Option.map_eq_some_iff.mp hc
      exact ⟨hk, hinfo⟩
    · rintro ⟨hk, hinfo⟩
      exact ⟨c.id, hk, by rw [hinfo]; rfl⟩
  have hentry : ∀ g, (s'.members g).get? i =
      if g = h.ipGroup then some h.peer else (s.members g).get? i := fun g => by
    rw [hmembers]
    split_ifs with hg
    · exact AssocMap.get?_insert_self
    · rfl
  refine hagree.move hh hhandlers (fun g p hp => ?_) rfl ?_ (fun hfalse => absurd hphase hfalse) ?_
    (fun _ _ => ⟨fun p hp => .inl ?_, ?_⟩) fun n u hu hinserted halive hni => ?_
  · rw [hmembers]
    split_ifs with hg
    · rw [hg, AssocMap.get?_insert_ne hp]
    · rfl
  · rw [hentry, if_pos rfl]
    exact {
      fresh := fun hfalse => by cases hfalse
      idle := fun _ => hown.idle (by rw [hphase]; rfl)
      joining := by
        rintro _ _ ⟨⟩
        exact ⟨rfl, hself, fun c hc hid => hself (hid ▸ ((hlisted c).mp hc).1)⟩
      sending := fun peersTx msg hrecv => by
        rcases hown.idle (by rw [hphase]; rfl) with hidle | hidle <;> rw [hidle] at hrecv <;>
          cases hrecv
      notifying := fun _ hfalse => by cases hfalse }
  · rintro q (⟨hjoin, hmem⟩ | ⟨hrecv, hmem⟩ | ⟨hleft, hmem⟩)
    · cases hjoin
      exact .inr ((hkey q).mp hmem)
    · exact .inl (.message hrecv hmem)
    · cases hleft
  · -- what the newcomer will know is the Hello's list
    obtain ⟨hqueue, hwritten⟩ := hown.fresh hphase
    show (((h.written ++ h.queue).foldl Peers.learn .none).meet peers) p = _
    rw [hqueue, hwritten]
    cases hinfo : (s.members h.ipGroup).get? p with
    | some info =>
        have hmem : p ∈ order := hperm.mem_iff.mpr (AssocMap.mem_keys_iff.mpr ⟨info, hinfo⟩)
        refine Peers.meet_of_mem ⟨ClientInfo.of info p, (hlisted _).mpr ⟨hmem, hinfo⟩, rfl⟩ ?_
        rintro c hc rfl
        have hcinfo := ((hlisted c).mp hc).2
        rw [hinfo] at hcinfo
        exact (Option.some.inj hcinfo).symm
    | none =>
        refine Peers.meet_of_notMem fun c hc hid => ?_
        have hcinfo := ((hlisted c).mp hc).2
        rw [hid, hinfo] at hcinfo
        cases hcinfo
  · obtain ⟨hqueue, hwritten⟩ := hown.fresh hphase
    show (((h.written ++ h.queue).foldl Peers.learn .none).meet peers) i = _
    rw [hqueue, hwritten]
    exact Peers.meet_of_notMem fun c hc hid => hself (hid ▸ ((hlisted c).mp hc).1)
  · rw [hentry]
    split_ifs with hg
    · exact .inr (.inl ⟨order, peers, rfl,
        (hkey n).mpr (hg ▸ Owned.room_of_inserted hu hinserted)⟩)
    · rw [entry_other howned hh hg]
      exact .inl (hagree.known_elsewhere howned hh
        (by rw [hphase]; exact fun _ heq => by cases heq) hu hinserted halive hni hg)

/-- An update: the table has the new information, and the other members are yet to be
told. -/
theorem update {order : List PeerId} {info : ClientInfoWithoutId} (hagree : Agreement s)
    (howned : Owned s) (hh : s.handlers[i]? = some h)
    (hrecv : h.recvTask = .handling (.update info)) (hmember : i ∈ (s.members h.ipGroup).keys)
    (hperm : order.Perm ((s.members h.ipGroup).keys.filter (· ≠ i)))
    (hmembers : ∀ g, s'.members g =
      if g = h.ipGroup then (s.members h.ipGroup).insert i info else s.members g)
    (hhandlers : s'.handlers = (s.modify i fun h =>
      { h with recvTask := .sending order (.update (.of info i)) }).handlers) :
    Agreement s' := by
  have hown := hagree.own i h hh
  have hspawned : h.phase.spawned = true :=
    hagree.spawned_of_recvTask hh (by rw [hrecv]; nofun) (by rw [hrecv]; nofun)
  have hinserted : h.phase.inserted = true := by
    have hroom := (howned _ _).mp hmember
    by_contra hout
    rw [Owned.room_of_not_inserted hh (Bool.eq_false_iff.mpr hout)] at hroom
    cases hroom
  have hkey : ∀ n, n ∈ order ↔ s.room n = some h.ipGroup ∧ n ≠ i := fun n => by
    rw [hperm.mem_iff, List.mem_filter, howned, decide_eq_true_eq]
  have hentry : ∀ g, (s'.members g).get? i =
      if g = h.ipGroup then some info else (s.members g).get? i := fun g => by
    rw [hmembers]
    split_ifs with hg
    · exact AssocMap.get?_insert_self
    · rfl
  refine hagree.move hh hhandlers (fun g p hp => ?_) rfl ?_ id ?_
    (fun hinserted halive => ⟨fun p hp => hagree.others i p h hh hinserted halive hp,
      hagree.self i h hh hinserted halive⟩) fun n u hu huinserted halive hni => ?_
  · rw [hmembers]
    split_ifs with hg
    · rw [hg, AssocMap.get?_insert_ne hp]
    · rfl
  · rw [hentry, if_pos rfl]
    exact {
      fresh := hown.fresh
      idle := fun hfalse => by rw [hspawned] at hfalse; cases hfalse
      joining := fun peersTx peers hjoin => by
        have hspawned := hspawned
        rw [hjoin] at hspawned
        cases hspawned
      sending := by
        rintro _ _ ⟨⟩
        refine ⟨.inl ⟨_, rfl, rfl, fun info' hinfo' => ?_⟩,
          fun _ _ hmem => ((hkey i).mp hmem).2 rfl⟩
        exact Option.some.inj hinfo'
      notifying := hown.notifying }
  · rintro q (⟨hjoin, hmem⟩ | ⟨hsend, hmem⟩ | ⟨hleft, hmem⟩)
    · exact .inl (.join hjoin hmem)
    · cases hsend
      exact .inr ((hkey q).mp hmem).1
    · exact .inl (.left hleft hmem)
  · rw [hentry]
    split_ifs with hg
    · exact .inr (.inr (.inl ⟨order, _, rfl,
        (hkey n).mpr ⟨hg ▸ Owned.room_of_inserted hu huinserted, hni⟩⟩))
    · rw [entry_other howned hh hg]
      refine .inl (hagree.known_elsewhere howned hh (fun _ hleft => ?_) hu huinserted halive hni hg)
      rw [hleft] at hinserted
      cases hinserted

/-- A leave: the table has no entry any more, and the members that stay are yet to be
told. -/
theorem leave {order : List PeerId} (hagree : Agreement s) (howned : Owned s)
    (hh : s.handlers[i]? = some h) (hphase : h.phase = .leaving)
    (hkey : ∀ n, n ∈ order ↔ s.room n = some h.ipGroup ∧ n ≠ i)
    (htable : ∀ g p, (s'.members g).get? p =
      if g = h.ipGroup ∧ p = i then none else (s.members g).get? p)
    (hhandlers : s'.handlers =
      (s.modify i fun h => { h with phase := .notifying order }).handlers) :
    Agreement s' := by
  have hown := hagree.own i h hh
  refine hagree.move hh hhandlers (fun g p hp => ?_) rfl ?_ (fun _ hfalse => by cases hfalse) ?_
    (fun hfalse => by cases hfalse) fun n u hu hinserted halive hni => ?_
  · rw [htable, if_neg fun hpi => hp hpi.2]
  · rw [htable, if_pos ⟨rfl, rfl⟩]
    exact {
      fresh := fun hfalse => by cases hfalse
      idle := fun hfalse => by cases hfalse
      joining := fun _ _ hfalse => by cases hfalse
      sending := fun peersTx msg hrecv => by
        obtain ⟨hrelay, hself⟩ := hown.sending peersTx msg hrecv
        refine ⟨hrelay.imp_left ?_, hself⟩
        rintro ⟨peer, hpeer, hid, -⟩
        exact ⟨peer, hpeer, hid, fun _ hfalse => by cases hfalse⟩
      notifying := by
        rintro _ ⟨⟩
        exact fun hmem => ((hkey i).mp hmem).2 rfl }
  · rintro q (⟨hjoin, hmem⟩ | ⟨hrecv, hmem⟩ | ⟨hleft, hmem⟩)
    · cases hjoin
    · exact .inl (.message hrecv hmem)
    · cases hleft
      exact .inr ((hkey q).mp hmem).1
  · rw [htable]
    by_cases hg : u.ipGroup = h.ipGroup
    · rw [if_pos ⟨hg, rfl⟩]
      exact .inr ⟨order, rfl, (hkey n).mpr ⟨hg ▸ Owned.room_of_inserted hu hinserted, hni⟩⟩
    · rw [if_neg fun hgi => hg hgi.1, entry_other howned hh hg]
      exact .inl (hagree.known_elsewhere howned hh (by rw [hphase]; nofun) hu hinserted halive hni
        hg)

end Agreement

end FireBoxTransfer.Signaling
