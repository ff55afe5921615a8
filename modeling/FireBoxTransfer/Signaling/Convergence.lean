import FireBoxTransfer.Signaling.Agreement
import FireBoxTransfer.Signaling.Queues

/-!
# Convergence of the clients of a group

When every handler is quiet and every queue written, each client knows the others as
the table has them, as long as the messages were in order on the way.
-/

namespace FireBoxTransfer.Signaling

open Runs

/-! ## §1  Every act keeps the agreement -/

namespace Agreement

variable {s s' : Server} {i : PeerId} {h : Handler}

theorem act {limits : Limits} {a : Act} (hagree : Agreement s) (howned : Owned s)
    (hh : s.handlers[i]? = some h) (hok : InOrder s (.act i a)) (hacts : Acts limits s i h a s') :
    Agreement s' := by
  have hnext := (hok h hh).2
  cases hacts with
  | full hphase | exhausted hphase =>
      exact hagree.reject hh hphase rfl (Owned.members_again rfl)
  | entered hphase hunder hperm hpeers =>
      refine hagree.enter howned hh hphase hperm hpeers (fun g => ?_) rfl
      rw [Server.members_modify, Server.members_of_insert (s := { s with txMap := _ }) rfl]
      split_ifs with hg
      · rfl
      · exact Owned.members_again rfl g
  | sendJoin hphase hplace =>
      exact hagree.sendJoin hh hphase (hnext (_, _) (by rw [Handler.nextMessage, hphase]; rfl)).1
  | sendHello hphase hplace => exact hagree.sendHello hh hphase
  | write hqueue hspawned halive =>
      refine hagree.moveQueue hh hspawned rfl fun _ => ⟨halive, ?_⟩
      rw [hqueue, List.append_assoc]
      rfl
  | writeFails hspawned halive =>
      exact hagree.moveQueue hh hspawned rfl fun halive => by cases halive
  | receive hspawned hrecv =>
      refine hagree.moveRecv hh rfl (fun _ => rfl) hspawned (fun peersTx msg hsend => ?_)
        fun g info n peersTx peer _ hsend => ?_
      · split_ifs at hsend
      · rw [hrecv] at hsend
        cases hsend
  | nobody hrecv =>
      refine hagree.moveRecv hh rfl (fun _ => rfl) ?_ (fun _ _ heq => by cases heq)
        fun _ _ _ _ _ _ hsend => ?_
      · exact hagree.spawned_of_recvTask hh (by rw [hrecv]; exact fun heq => by cases heq)
          (by rw [hrecv]; exact fun heq => by cases heq)
      · rw [hrecv] at hsend
        cases hsend
  | update hrecv hget hmember hperm =>
      have hmembers := Server.members_eq hget
      refine hagree.update howned hh hrecv (hmembers ▸ hmember) (hmembers ▸ hperm) (fun g => ?_) rfl
      rw [Server.members_modify, Server.members_of_insert rfl, hmembers]
  | relay hrecv hmember hsdp =>
      refine hagree.moveRecv hh rfl (fun _ => rfl) ?_ ?_ fun _ _ _ _ _ _ hsend => ?_
      · exact hagree.spawned_of_recvTask hh (by rw [hrecv]; exact fun heq => by cases heq)
          (by rw [hrecv]; exact fun heq => by cases heq)
      · rintro _ _ ⟨⟩
        refine ⟨hsdp, fun t ht => ?_⟩
        rw [List.mem_singleton.mp ht]
        exact (howned _ _).mp hmember
      · rw [hrecv] at hsend
        cases hsend
  | sent hrecv =>
      refine hagree.moveRecv hh rfl (fun _ => rfl) ?_ (fun _ _ heq => by cases heq)
        fun _ _ _ _ _ _ hsend hmem => ?_
      · exact hagree.spawned_of_recvTask hh (by rw [hrecv]; exact fun heq => by cases heq)
          (by rw [hrecv]; exact fun heq => by cases heq)
      · rw [hrecv] at hsend
        cases hsend
        cases hmem
  | sendMessage hrecv hplace =>
      obtain ⟨hahead, hstale⟩ := hnext (_, _) (by rw [Handler.nextMessage, hrecv]; rfl)
      exact hagree.sendMessage howned hh hrecv hahead hstale
  | refuse hrecv hplace => exact hagree.refuse hh hrecv
  | closes hspawned hrecv =>
      refine hagree.moveRecv hh rfl (fun _ => rfl) hspawned (fun _ _ heq => by cases heq)
        fun _ _ _ _ _ _ hsend => ?_
      rw [hrecv] at hsend
      cases hsend
  | stop hphase hended => exact hagree.stop hh hphase
  | abortSend hstopped halive =>
      have hspawned : h.phase.spawned = true := by
        cases hphase : h.phase <;> rw [hphase] at hstopped <;> first | rfl | cases hstopped
      exact hagree.moveQueue hh hspawned rfl fun halive => by cases halive
  | abortRecv hstopped hrunning =>
      have hspawned : h.phase.spawned = true := by
        cases hphase : h.phase <;> rw [hphase] at hstopped <;> first | rfl | cases hstopped
      refine hagree.moveRecv hh rfl (fun _ => rfl) hspawned (fun _ _ heq => by cases heq)
        fun g info n _ _ hinfo _ _ => ?_
      -- whose client is in the table has not left yet
      have hroom := (howned g i).mp (AssocMap.mem_keys_iff.mpr ⟨info, hinfo⟩)
      cases hphase : h.phase with
      | leaving => rfl
      | notifying remainingTx =>
          rw [Owned.room_of_not_inserted hh (by rw [hphase]; rfl)] at hroom
          cases hroom
      | connecting | joining | receiving | rejected =>
          rw [hphase] at hstopped
          cases hstopped
  | leftAlready hphase hget =>
      -- a handler that is leaving is in the table
      have hmem := Server.get?_of_mem_members (howned.mem_of_inserted hh (by rw [hphase]; rfl))
      rw [hget] at hmem
      cases hmem
  | leftLast hphase hget hlast =>
      have hmembers := Server.members_eq hget
      have hnobody : ∀ n, n ∈ (s.members h.ipGroup).keys → n = i := by
        intro n hn
        by_contra hni
        have hkey := AssocMap.mem_keys_filter_ne.mpr ⟨hn, hni⟩
        rw [hmembers] at hkey
        rw [AssocMap.isEmpty, List.isEmpty_iff] at hlast
        unfold AssocMap.keys at hkey
        rw [hlast] at hkey
        cases hkey
      refine hagree.leave howned hh hphase (fun n => ?_) (fun g p => ?_) rfl
      · refine iff_of_false List.not_mem_nil ?_
        rintro ⟨hroom, hni⟩
        exact hni (hnobody n ((howned _ n).mpr hroom))
      · rw [Server.members_modify, Server.members_of_filter rfl]
        by_cases hg : g = h.ipGroup
        · subst hg
          rw [if_pos rfl]
          by_cases hp : p = i
          · rw [if_pos ⟨rfl, hp⟩]
            rfl
          · rw [if_neg fun hgp => hp hgp.2]
            cases hinfo : (s.members h.ipGroup).get? p with
            | none => rfl
            | some info => exact absurd (hnobody p (AssocMap.mem_keys_iff.mpr ⟨info, hinfo⟩)) hp
        · rw [if_neg hg, if_neg fun hgp => hg hgp.1]
  | left hphase hget hothers hperm =>
      have hmembers := Server.members_eq hget
      refine hagree.leave howned hh hphase (fun n => ?_) (fun g p => ?_) rfl
      · rw [hperm.mem_iff, AssocMap.mem_keys_filter_ne, ← hmembers, howned]
      · rw [Server.members_modify, Server.members_of_insert rfl]
        by_cases hg : g = h.ipGroup
        · subst hg
          rw [if_pos rfl, hmembers, AssocMap.get?_filter_ne]
          by_cases hp : p = i
          · rw [if_pos hp, if_pos ⟨rfl, hp⟩]
          · rw [if_neg hp, if_neg fun hgp => hp hgp.2]
        · rw [if_neg hg, if_neg fun hgp => hg hgp.1]
  | sendLeft hphase hplace =>
      exact hagree.sendLeft howned hh hphase
        (hnext (_, _) (by rw [Handler.nextMessage, hphase]; rfl)).1

/-- A new connection is in no group and knows nobody. -/
theorem connect (hagree : Agreement s) (ipGroup : String)
    (peer : ClientInfoWithoutId) :
    Agreement { s with handlers := s.handlers ++ [.new ipGroup peer] } := by
  have hold : ∀ {j : PeerId} {u : Handler}, s.handlers[j]? = some u →
      (s.handlers ++ [Handler.new ipGroup peer])[j]? = some u := fun {j u} hu => by
    rw [List.getElem?_append_left (List.getElem?_eq_some_iff.mp hu).1, hu]
  have hcases : ∀ {j : PeerId} {u : Handler},
      (s.handlers ++ [Handler.new ipGroup peer])[j]? = some u →
        s.handlers[j]? = some u ∨ (s.handlers[j]? = none ∧ u = .new ipGroup peer) := by
    intro j u hu
    by_cases hj : j < s.handlers.length
    · rw [List.getElem?_append_left hj] at hu
      exact .inl hu
    · refine .inr ⟨List.getElem?_eq_none_iff.mpr (Nat.not_lt.mp hj), ?_⟩
      rw [List.getElem?_append_right (Nat.not_lt.mp hj)] at hu
      exact List.mem_singleton.mp (List.mem_of_getElem? hu)
  constructor
  · intro j u hu
    rcases hcases hu with hu | ⟨hj, rfl⟩
    · exact hagree.own j u hu
    · exact {
        fresh := fun _ => ⟨rfl, rfl⟩
        idle := fun _ => .inl rfl
        joining := fun _ _ hfalse => by cases hfalse
        sending := fun _ _ hfalse => by cases hfalse
        notifying := fun _ hfalse => by cases hfalse }
  · intro j t u hu hsend
    rcases hcases hu with hu | ⟨hj, rfl⟩
    · obtain ⟨v, hv, hphase⟩ := hagree.entered j t u hu hsend
      exact ⟨v, hold hv, hphase⟩
    · rcases hsend with ⟨hjoin, -⟩ | ⟨hrecv, -⟩ | ⟨hleft, -⟩
      · cases hjoin
      · cases hrecv
      · cases hleft
  · intro n p u hu hinserted halive hpn
    rcases hcases hu with hu | ⟨hj, rfl⟩
    · refine (hagree.others n p u hu hinserted halive hpn).imp_right ?_
      rintro ⟨v, hv, howe⟩
      exact ⟨v, hold hv, howe⟩
    · cases hinserted
  · intro n u hu hinserted halive
    rcases hcases hu with hu | ⟨hj, rfl⟩
    · exact hagree.self n u hu hinserted halive
    · cases hinserted

theorem step {limits : Limits} {l : Label} (hagree : Agreement s) (howned : Owned s)
    (hok : InOrder s l) (hstep : Server.step limits s l = some s') : Agreement s' := by
  cases l with
  | connect ipGroup peer =>
      cases hstep
      exact hagree.connect ipGroup peer
  | clear =>
      cases hstep
      exact ⟨hagree.own, hagree.entered, hagree.others, hagree.self⟩
  | act i a =>
      obtain ⟨h, hh, hacts⟩ := Server.step_act hstep
      exact hagree.act howned hh hok hacts

theorem init : Agreement .init where
  own _ _ hh := nomatch hh
  entered _ _ _ hh := nomatch hh
  others _ _ _ hh := nomatch hh
  self _ _ hh := nomatch hh

end Agreement

/-! ## §2  Tokens are kept -/

/-- Everything a handler tells keeps the tokens. -/
structure Handler.TellsTokens (token : PeerId → String) (h : Handler) : Prop where
  listed : ∀ peersTx peers, h.phase = .joining peersTx peers → ∀ c ∈ peers, c.token = token c.id
  sending : ∀ peersTx msg, h.recvTask = .sending peersTx msg → msg.KeepsTokens token
  told : ∀ msg ∈ h.written ++ h.queue, msg.KeepsTokens token

theorem Handler.TellsTokens.setPhase {token : PeerId → String} {h : Handler} {phase : Phase}
    (htells : h.TellsTokens token) (hphase : ∀ peersTx peers, phase ≠ .joining peersTx peers) :
    { h with phase := phase }.TellsTokens token where
  listed _ _ hjoin := absurd hjoin (hphase _ _)
  sending := htells.sending
  told := htells.told

theorem Handler.TellsTokens.setRecvTask {token : PeerId → String} {h : Handler}
    {recvTask : RecvTask} (htells : h.TellsTokens token)
    (hrecv : ∀ peersTx msg, recvTask ≠ .sending peersTx msg) :
    { h with recvTask := recvTask }.TellsTokens token where
  listed := htells.listed
  sending _ _ hsend := absurd hsend (hrecv _ _)
  told := htells.told

structure TokensKept (token : PeerId → String) (s : Server) : Prop where
  table : ∀ g p info, (s.members g).get? p = some info → info.token = token p
  handlers : ∀ (i : PeerId) (h : Handler), s.handlers[i]? = some h → h.TellsTokens token

/-- The tokens are those the peers came with. -/
def TokensOf (token : PeerId → String) (s : Server) : Prop :=
  ∀ (i : PeerId) (h : Handler), s.handlers[i]? = some h → h.peer.token = token i

namespace TokensKept

variable {token : PeerId → String} {s s' : Server} {i p : PeerId} {h : Handler}

/-- A handler's move that keeps tokens, and a table that does. -/
theorem move {f : Handler → Handler} (hkept : TokensKept token s)
    (hh : s.handlers[i]? = some h) (hf : h.TellsTokens token → (f h).TellsTokens token)
    (hhandlers : s'.handlers = (s.modify i f).handlers)
    (htable : ∀ g p info, (s'.members g).get? p = some info → info.token = token p) :
    TokensKept token s' where
  table := htable
  handlers := by
    rw [hhandlers]
    refine Server.forall_modify hkept.handlers fun h' hh' => ?_
    rw [hh] at hh'
    obtain rfl := Option.some.inj hh'
    exact hf (hkept.handlers i h hh)

theorem deliver {msg : WsServerMessage} (hkept : TokensKept token s)
    (hmsg : msg.KeepsTokens token) : TokensKept token (s.modify p (·.deliver msg)) where
  table := hkept.table
  handlers := by
    refine Server.forall_modify hkept.handlers fun t ht => ?_
    have htells := hkept.handlers p t ht
    refine ⟨by simpa using htells.listed, by simpa using htells.sending, ?_⟩
    unfold Handler.deliver
    split_ifs
    · rw [← List.append_assoc]
      exact List.forall_mem_append.mpr ⟨htells.told, List.forall_mem_singleton.mpr hmsg⟩
    · exact htells.told

/-- A message that keeps the tokens, and a move. -/
theorem send {msg : WsServerMessage} {f : Handler → Handler} (hkept : TokensKept token s)
    (hh : s.handlers[i]? = some h) (hmsg : msg.KeepsTokens token)
    (hf : ∀ h₁ : Handler, h₁.phase = h.phase → h₁.recvTask = h.recvTask →
      h₁.TellsTokens token → (f h₁).TellsTokens token) :
    TokensKept token ((s.modify p (·.deliver msg)).modify i f) := by
  obtain ⟨h₁, hh₁, hphase₁, hrecv₁, -, -⟩ :=
    Agreement.sender_delivered p msg hh
  exact (hkept.deliver hmsg).move hh₁ (hf h₁ hphase₁ hrecv₁) rfl hkept.table

/-- The table with one entry set. -/
theorem table_insert (hkept : TokensKept token s) {g : String} {info : ClientInfoWithoutId}
    (hinfo : info.token = token i)
    (hmembers : ∀ g', s'.members g' =
      if g' = g then (s.members g).insert i info else s.members g')
    (g' : String) (p : PeerId) (info' : ClientInfoWithoutId)
    (hget : (s'.members g').get? p = some info') : info'.token = token p := by
  rw [hmembers] at hget
  split_ifs at hget
  · rw [AssocMap.get?_insert] at hget
    split_ifs at hget with hp
    · cases hget
      rw [hp, hinfo]
    · exact hkept.table g p info' hget
  · exact hkept.table g' p info' hget

theorem act {limits : Limits} {a : Act} (hkept : TokensKept token s) (hof : TokensOf token s)
    (hh : s.handlers[i]? = some h) (hok : InOrder s (.act i a)) (hacts : Acts limits s i h a s') :
    TokensKept token s' := by
  have hown := hof i h hh
  cases hacts with
  | full | exhausted =>
      refine hkept.move hh (fun htells => ⟨fun _ _ hf => (by cases hf),
        fun _ _ hf => (by cases hf), htells.told⟩) rfl fun g p info hget => ?_
      rw [Server.reject, Server.members_modify, Owned.members_again rfl] at hget
      exact hkept.table g p info hget
  | entered hphase hunder hperm hpeers =>
      refine hkept.move hh (fun htells => ⟨?_, htells.sending, htells.told⟩) rfl
        (hkept.table_insert (g := h.ipGroup) hown fun g => ?_)
      · rintro _ _ ⟨⟩ c hc
        rw [hpeers, List.mem_filterMap] at hc
        obtain ⟨k, -, hc⟩ := hc
        obtain ⟨info, hinfo, rfl⟩ := Option.map_eq_some_iff.mp hc
        exact hkept.table _ k info hinfo
      · rw [Server.members_modify, Server.members_of_insert (s := { s with txMap := _ }) rfl]
        split_ifs with hg
        · rfl
        · exact Owned.members_again rfl g
  | sendJoin hphase hplace =>
      refine hkept.send hh hown fun h₁ hphase₁ _ htells =>
        ⟨?_, htells.sending, htells.told⟩
      rintro _ _ ⟨⟩
      exact htells.listed _ _ (hphase₁.trans hphase)
  | sendHello hphase hplace =>
      exact hkept.send hh ((hkept.handlers i h hh).listed _ _ hphase) fun h₁ _ _ htells =>
        htells.setPhase fun _ _ heq => by cases heq
  | write hqueue hspawned halive =>
      refine hkept.move hh (fun htells => ⟨htells.listed, htells.sending, ?_⟩) rfl hkept.table
      have htold := htells.told
      rw [hqueue] at htold
      simpa using htold
  | writeFails | abortSend =>
      refine hkept.move hh (fun htells => ⟨htells.listed, htells.sending, ?_⟩) rfl hkept.table
      rw [List.append_nil]
      exact fun msg hmsg => htells.told msg (List.mem_append_left _ hmsg)
  | receive =>
      refine hkept.move hh (fun htells => ⟨htells.listed, ?_, htells.told⟩) rfl hkept.table
      intro peersTx msg hsend
      simp only at hsend
      split_ifs at hsend
  | nobody | sent | closes | abortRecv =>
      exact hkept.move hh (·.setRecvTask fun _ _ heq => by cases heq) rfl hkept.table
  | update hrecv hget hmember hperm =>
      have hinfo := (hok h hh).1
      unfold KeepsToken at hinfo
      rw [hrecv] at hinfo
      refine hkept.move hh (fun htells => ⟨htells.listed, ?_, htells.told⟩) rfl
        (hkept.table_insert (g := h.ipGroup) (hinfo.trans hown) fun g => ?_)
      · rintro _ _ ⟨⟩
        exact hinfo.trans hown
      · rw [Server.members_modify, Server.members_of_insert rfl, Server.members_eq hget]
  | relay hrecv hmember hsdp =>
      refine hkept.move hh (fun htells => ⟨htells.listed, ?_, htells.told⟩) rfl hkept.table
      rintro _ _ ⟨⟩
      obtain ⟨sdp, rfl | rfl⟩ := hsdp <;> trivial
  | sendMessage hrecv hplace =>
      refine hkept.send hh ((hkept.handlers i h hh).sending _ _ hrecv) fun h₁ _ hrecv₁ htells =>
        ⟨htells.listed, ?_, htells.told⟩
      rintro _ _ ⟨⟩
      exact htells.sending _ _ (hrecv₁.trans hrecv)
  | refuse =>
      exact hkept.send hh trivial fun h₁ _ _ htells =>
        htells.setRecvTask fun _ _ heq => by cases heq
  | stop | leftAlready =>
      exact hkept.move hh (·.setPhase fun _ _ heq => by cases heq) rfl hkept.table
  | leftLast =>
      refine hkept.move hh (·.setPhase fun _ _ heq => by cases heq) rfl fun g p info hinfo => ?_
      rw [Server.members_modify, Server.members_of_filter rfl] at hinfo
      split_ifs at hinfo
      · cases hinfo
      · exact hkept.table g p info hinfo
  | left hphase hget =>
      refine hkept.move hh (·.setPhase fun _ _ heq => by cases heq) rfl fun g p info hinfo => ?_
      rw [Server.members_modify, Server.members_of_insert rfl] at hinfo
      split_ifs at hinfo
      · rw [AssocMap.get?_filter_ne] at hinfo
        split_ifs at hinfo
        exact hkept.table h.ipGroup p info (by rwa [Server.members_eq hget])
      · exact hkept.table g p info hinfo
  | sendLeft =>
      exact hkept.send hh trivial fun h₁ _ _ htells =>
        htells.setPhase fun _ _ heq => by cases heq

theorem step {limits : Limits} {l : Label} (hkept : TokensKept token s) (hof : TokensOf token s)
    (hok : InOrder s l) (hstep : Server.step limits s l = some s') : TokensKept token s' := by
  cases l with
  | connect ipGroup peer =>
      cases hstep
      refine ⟨hkept.table, fun i h hh => ?_⟩
      rcases List.mem_append.mp (List.mem_of_getElem? hh) with hmem | hmem
      · obtain ⟨k, hk⟩ := List.mem_iff_getElem?.mp hmem
        exact hkept.handlers k h hk
      · rw [List.mem_singleton.mp hmem]
        exact ⟨fun _ _ hf => (by cases hf), fun _ _ hf => (by cases hf),
          fun _ hfalse => by cases hfalse⟩
  | clear =>
      cases hstep
      exact ⟨hkept.table, hkept.handlers⟩
  | act i a =>
      obtain ⟨h, hh, hacts⟩ := Server.step_act hstep
      exact hkept.act hof hh hok hacts

end TokensKept

/-! ## §3  Every run -/

/-- A client keeps the information it came with, as far as its handler goes. -/
def Server.peer? (s : Server) (i : PeerId) : Option ClientInfoWithoutId :=
  (s.handlers[i]?).map Handler.peer

namespace Server

variable {s s' : Server} {i : PeerId} {h : Handler}

theorem peer?_modify {f : Handler → Handler} (hf : ∀ h, (f h).peer = h.peer) (j : PeerId) :
    (s.modify i f).peer? j = s.peer? j := by
  unfold peer?
  by_cases hji : j = i
  · subst hji
    cases hj : s.handlers[j]? with
    | none => simp [modify, hj]
    | some h =>
        rw [handlers_modify_self hj, Option.map_some, Option.map_some, hf]
  · rw [handlers_modify_ne (Ne.symm hji)]

theorem peer?_act {limits : Limits} {a : Act} (hacts : Acts limits s i h a s') (j : PeerId) :
    s'.peer? j = s.peer? j := by
  cases hacts with
  | full | exhausted | entered | receive | update | leftLast | left | write | writeFails | nobody
  | relay | sent | closes | stop | abortSend | abortRecv | leftAlready =>
      exact peer?_modify (fun h => by rfl) j
  | sendJoin | sendHello | sendMessage | refuse | sendLeft =>
      refine (peer?_modify ?_ j).trans (peer?_modify (fun h => h.deliver_peer _) j)
      exact fun h => rfl

theorem peer?_step {limits : Limits} {l : Label} (hstep : step limits s l = some s')
    (hj : s.handlers[i]? = some h) : s'.peer? i = some h.peer := by
  have hpeer : s.peer? i = some h.peer := by rw [peer?, hj, Option.map_some]
  cases l with
  | connect ipGroup peer =>
      cases hstep
      rw [peer?, List.getElem?_append_left (List.getElem?_eq_some_iff.mp hj).1, ← peer?, hpeer]
  | clear =>
      cases hstep
      exact hpeer
  | act k a =>
      obtain ⟨h', -, hacts⟩ := step_act hstep
      rw [peer?_act hacts, hpeer]

end Server

/-- The handler waits: for the lock of its first visit, for its tasks, or for nothing
any more; and the client has read what it was sent. -/
structure Handler.Quiet (h : Handler) : Prop where
  place : h.phase = .connecting ∨ h.phase = .receiving ∨ h.phase = .notifying [] ∨
    h.phase = .rejected
  waits : h.recvTask = .waiting ∨ h.recvTask = .ended
  consumed : h.rxAlive = true → h.queue = []

instance (h : Handler) : Decidable h.Quiet :=
  decidable_of_iff ((h.phase = .connecting ∨ h.phase = .receiving ∨ h.phase = .notifying [] ∨
      h.phase = .rejected) ∧ (h.recvTask = .waiting ∨ h.recvTask = .ended) ∧
      (h.rxAlive = true → h.queue = []))
    ⟨fun hquiet => ⟨hquiet.1, hquiet.2.1, hquiet.2.2⟩,
      fun hquiet => ⟨hquiet.place, hquiet.waits, hquiet.consumed⟩⟩

def Quiet (s : Server) : Prop :=
  ∀ (i : PeerId) (h : Handler), s.handlers[i]? = some h → h.Quiet

theorem Handler.Quiet.not_owes {h : Handler} (hquiet : h.Quiet) {n : PeerId}
    {entry : Option ClientInfoWithoutId} : ¬ h.Owes n entry := by
  intro howes
  cases entry with
  | none =>
      obtain ⟨remainingTx, hphase, hmem⟩ := howes
      rcases hquiet.place with hplace | hplace | hplace | hplace <;> rw [hphase] at hplace
      case inr.inr.inl =>
        cases hplace
        cases hmem
      all_goals cases hplace
  | some info =>
      rcases howes with ⟨peersTx, peers, hphase, -⟩ | ⟨peersTx, peer, hrecv, -⟩ | hphase
      · rcases hquiet.place with hplace | hplace | hplace | hplace <;> rw [hphase] at hplace <;>
          cases hplace
      · rcases hquiet.waits with hwaits | hwaits <;> rw [hrecv] at hwaits <;> cases hwaits
      · rcases hquiet.place with hplace | hplace | hplace | hplace <;> rw [hphase] at hplace <;>
          cases hplace

/-- In a quiet state a client knows the other members of its group. -/
theorem Agreement.known_of_quiet {s : Server} {n : PeerId} {h : Handler} (hagree : Agreement s)
    (hquiet : Quiet s) (hh : s.handlers[n]? = some h) (hphase : h.phase = .receiving)
    (halive : h.rxAlive = true) (p : PeerId) :
    h.written.foldl Peers.learn .none p =
      if p = n then none else (s.members h.ipGroup).get? p := by
  have hinserted : h.phase.inserted = true := by rw [hphase]; rfl
  have hknown : h.outlook = h.written.foldl Peers.learn .none := by
    unfold Handler.outlook Handler.pendingPeers
    rw [(hquiet n h hh).consumed halive, hphase, List.append_nil]
    rfl
  rw [← hknown]
  split_ifs with hpn
  · subst hpn
    exact hagree.self p h hh hinserted halive
  · rcases hagree.others n p h hh hinserted halive hpn with hsame | ⟨u, hu, howes⟩
    · exact hsame
    · exact absurd howes (hquiet p u hu).not_owes

/-- What the table says of a peer it says with the token that the peer came with. -/
theorem tokensKept_of_run {limits : Limits} {s : Server}
    (hrun : Run (Server.step limits) InOrder .init s) :
    TokensKept (fun p => (s.peer? p).elim "" (·.token)) s := by
  set token : PeerId → String := fun p => (s.peer? p).elim "" (·.token)
  have hlast : TokensOf token s := by
    intro i h hh
    show h.peer.token = (s.peer? i).elim "" (·.token)
    unfold Server.peer?
    rw [hh]
    rfl
  have hback : ∀ m l t, Server.step limits m l = some t → TokensOf token t → TokensOf token m := by
    intro m l t hstep hof i h hh
    obtain ⟨h', hh', hpeer⟩ := Option.map_eq_some_iff.mp (Server.peer?_step hstep hh)
    rw [← hpeer]
    exact hof i h' hh'
  have hinit : TokensKept token .init :=
    { table := fun g p info hget => by cases hget
      handlers := fun i h hh => by cases hh }
  refine (hrun.strengthen_back hlast hback).invariant (I := TokensKept token) hinit ?_
  intro m l t hkept hok hstep
  exact hkept.step hok.2 hok.1 hstep

/-- **The clients converge.** In every run whose messages come in order, once the
handlers are quiet and the queues written, the messages of a connected client, folded,
and the devices the application keeps, are the other members of its group as the table
has them. -/
theorem signaling_converges (limits : Limits) (s : Server)
    (hrun : Run (Server.step limits) InOrder .init s) (hquiet : Quiet s) (n : PeerId)
    (h : Handler) (hh : s.handlers[n]? = some h) (hphase : h.phase = .receiving)
    (halive : h.rxAlive = true) :
    (∀ p, h.written.foldl Peers.learn .none p =
      if p = n then none else (s.members h.ipGroup).get? p) ∧
    ∀ d, (∃ fingerprint devices,
        (h.written.foldl SignalingDevices.receive .empty).get? fingerprint = some devices ∧
          d ∈ devices) ↔
      ∃ p info, p ≠ n ∧ (s.members h.ipGroup).get? p = some info ∧
        d = (ClientInfo.of info p).toDevice := by
  have hagree : Agreement s ∧ Owned s := by
    refine hrun.invariant (I := fun m => Agreement m ∧ Owned m) ⟨Agreement.init, Owned.init⟩ ?_
    rintro m l t ⟨hagree, howned⟩ hok hstep
    exact ⟨hagree.step howned hok hstep, howned.step hstep⟩
  have hknown := hagree.1.known_of_quiet hquiet hh hphase halive
  refine ⟨hknown, fun d => ?_⟩
  have htold := (tokensKept_of_run hrun).handlers n h hh
  have hrepresents := (Represents.empty _).foldl fun msg hmsg =>
    htold.told msg (List.mem_append_left _ hmsg)
  have hholds : (∃ fingerprint devices,
      (h.written.foldl SignalingDevices.receive .empty).get? fingerprint = some devices ∧
        d ∈ devices) ↔ (h.written.foldl SignalingDevices.receive .empty).Holds d := by
    constructor
    · rintro ⟨fingerprint, devices, hget, hd⟩
      exact ⟨devices, by rw [hrepresents.keyed _ _ hget d hd, hget], hd⟩
    · rintro ⟨devices, hget, hd⟩
      exact ⟨_, devices, hget, hd⟩
  rw [hholds, hrepresents.known]
  constructor
  · rintro ⟨info, hinfo, hd⟩
    rw [hknown] at hinfo
    split_ifs at hinfo with hid
    exact ⟨d.signalingId, info, hid, hinfo, hd⟩
  · rintro ⟨p, info, hpn, hinfo, rfl⟩
    refine ⟨info, ?_, rfl⟩
    have hid : (ClientInfo.of info p).toDevice.signalingId = p := rfl
    rw [hid, hknown, if_neg hpn, hinfo]

/-- A second client joins while the first one has not been greeted, and then changes
its name. -/
def joinAndUpdate : List Label :=
  twoJoins ++ [.act 0 .write, .act 0 .write, .act 1 .write,
    .act 1 (.receive (.update { samplePeer with «alias» := "Wolf" })), .act 1 (.lockMessage [0]),
    .act 1 .sendMessage, .act 1 .sendMessage, .act 0 .write]

theorem signaling_converges_joinAndUpdate :
    ∃ s h, Run (Server.step ⟨10, 1000⟩) InOrder .init s ∧ s.handlers[0]? = some h ∧
      h.written.foldl Peers.learn .none 1 = some { samplePeer with «alias» := "Wolf" } := by
  obtain ⟨s, hexec, hs⟩ := exists_of_exec_any (Server.step ⟨10, 1000⟩) .init joinAndUpdate
    (fun s => (s.handlers.all fun h => h.Quiet) ∧
      (s.handlers[0]?).any (fun h => h.phase = .receiving ∧ h.rxAlive = true ∧
        (s.members h.ipGroup).get? 1 = some { samplePeer with «alias» := "Wolf" }))
    (by decide +kernel)
  have hrun : Run (Server.step ⟨10, 1000⟩) InOrder .init s := run_of_exec hexec (by decide +kernel)
  simp only [decide_eq_true_eq, List.all_eq_true, Option.any_eq_true] at hs
  obtain ⟨hquiet, h, hh, hphase, halive, hmember⟩ := hs
  have hconverges := signaling_converges ⟨10, 1000⟩ s hrun
    (fun i h hh => hquiet h (List.mem_of_getElem? hh)) 0 h hh hphase halive
  refine ⟨s, h, hrun, hh, ?_⟩
  rw [hconverges.1, if_neg Nat.one_ne_zero, hmember]

/-! ## §4  A leave in front of a Hello -/

/-- A client leaves after the other one was entered and before it is greeted. -/
def leftBeforeHello : List Label :=
  [.connect "192.0.2.7" samplePeer, .connect "192.0.2.7" samplePeer, .act 1 (.lockJoin []),
    .act 1 .sendHello, .act 0 (.lockJoin [1]), .act 1 .closes, .act 1 .stop, .act 1 .abortSend,
    .act 1 (.lockLeave [0]), .act 1 .sendLeft, .act 0 .sendJoin, .act 0 .sendHello,
    .act 0 .write, .act 0 .write]

/-- The Hello lists the client that has left, behind its Left. -/
theorem left_undone :
    ∃ s h, Reach (Server.step ⟨10, 1000⟩) .init s ∧ Quiet s ∧ s.handlers[0]? = some h ∧
      h.phase = .receiving ∧ h.rxAlive = true ∧ (s.members h.ipGroup).get? 1 = none ∧
      h.written.foldl Peers.learn .none 1 = some samplePeer ∧
      (h.written.foldl SignalingDevices.receive .empty).get? "token" =
        some [(ClientInfo.of samplePeer 1).toDevice] := by
  obtain ⟨s, hexec, hs⟩ := exists_of_exec_any (Server.step ⟨10, 1000⟩) .init leftBeforeHello
    (fun s => (s.handlers.all fun h => h.Quiet) ∧
      (s.handlers[0]?).any (fun h => h.phase = .receiving ∧ h.rxAlive = true ∧
        (s.members h.ipGroup).get? 1 = none ∧
        h.written.foldl Peers.learn .none 1 = some samplePeer ∧
        (h.written.foldl SignalingDevices.receive .empty).get? "token" =
          some [(ClientInfo.of samplePeer 1).toDevice]))
    (by decide +kernel)
  simp only [decide_eq_true_eq, List.all_eq_true, Option.any_eq_true] at hs
  obtain ⟨hquiet, h, hh, hstate⟩ := hs
  exact ⟨s, h, reach_of_exec hexec, fun i h hh => hquiet h (List.mem_of_getElem? hh), hh, hstate⟩

end FireBoxTransfer.Signaling
