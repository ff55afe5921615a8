import FireBoxTransfer.Signaling.Model

/-!
# The rooms of the signaling server

Between two critical sections the table of the groups holds the clients of the
handlers that entered and have not left. A client that is turned away may leave an
empty group behind, and then nobody takes it out again.
-/

namespace FireBoxTransfer.Signaling

open Runs

/-! ## §1  Members are handlers -/

/-- The members of a group are the clients of the handlers that entered it and have
not left. -/
def Owned (s : Server) : Prop := ∀ g i, i ∈ (s.members g).keys ↔ s.room i = some g

namespace Owned

variable {s s' : Server} {g : String} {i : PeerId} {h : Handler}

theorem same (howned : Owned s) (hmembers : ∀ g, s'.members g = s.members g)
    (hroom : ∀ j, s'.room j = s.room j) : Owned s' := by
  intro g i
  rw [hmembers, hroom]
  exact howned g i

/-- One group gets the map `txLocalMap`, and the other groups keep theirs. -/
theorem put (howned : Owned s) {txLocalMap : AssocMap PeerId ClientInfoWithoutId}
    (hmembers : ∀ g', s'.members g' = if g' = g then txLocalMap else s.members g')
    (hown : ∀ i, i ∈ txLocalMap.keys ↔ s'.room i = some g)
    (hothers : ∀ i g', g' ≠ g → (s'.room i = some g' ↔ s.room i = some g')) : Owned s' := by
  intro g' i
  rw [hmembers]
  split_ifs with hg
  · rw [hg]
    exact hown i
  · rw [hothers i g' hg]
    exact howned g' i

/-- What a handler that is turned away writes to the table changes no members. -/
theorem members_again (htable : s'.txMap = s.txMap.insert g (s.members g)) (g' : String) :
    s'.members g' = s.members g' := by
  rw [Server.members_of_insert htable]
  split_ifs with hg
  · rw [hg]
  · rfl

theorem room_of_inserted (hh : s.handlers[i]? = some h) (hinserted : h.phase.inserted = true) :
    s.room i = some h.ipGroup := by
  rw [Server.room, hh, Option.bind_some, Handler.room, if_pos hinserted]

theorem room_of_not_inserted (hh : s.handlers[i]? = some h)
    (hinserted : h.phase.inserted = false) : s.room i = none := by
  rw [Server.room, hh, Option.bind_some, Handler.room, hinserted]
  rfl

theorem mem_of_inserted (howned : Owned s) (hh : s.handlers[i]? = some h)
    (hinserted : h.phase.inserted = true) : i ∈ (s.members h.ipGroup).keys :=
  (howned h.ipGroup i).mpr (room_of_inserted hh hinserted)

theorem entered (howned : Owned s) (hh : s.handlers[i]? = some h)
    (hphase : h.phase = .connecting) {peersTx : List PeerId} {peers : List ClientInfo}
    (hmembers : ∀ g', s'.members g' =
      if g' = h.ipGroup then (s.members h.ipGroup).insert i h.peer else s.members g')
    (hroom : ∀ j, s'.room j =
      (s.modify i fun h => { h with phase := .joining peersTx peers }).room j) : Owned s' := by
  have hold : s.room i = none := room_of_not_inserted hh (by rw [hphase]; rfl)
  have hnew : ∀ j, s'.room j = if j = i then some h.ipGroup else s.room j := fun j => by
    rw [hroom, Server.room_modify hh]
    rfl
  refine howned.put hmembers (fun j => ?_) fun j g' hg => ?_
  · rw [AssocMap.mem_keys_insert, hnew]
    by_cases hji : j = i
    · simp [hji]
    · rw [if_neg hji, or_iff_right hji]
      exact howned h.ipGroup j
  · rw [hnew]
    split_ifs with hji
    · subst hji
      rw [hold]
      simpa using Ne.symm hg
    · rfl

theorem updated (howned : Owned s) {info : ClientInfoWithoutId}
    {txLocalMap : AssocMap PeerId ClientInfoWithoutId} (hget : s.txMap.get? g = some txLocalMap)
    (hmember : i ∈ txLocalMap.keys)
    (hmembers : ∀ g', s'.members g' = if g' = g then txLocalMap.insert i info else s.members g')
    (hroom : ∀ j, s'.room j = s.room j) : Owned s' := by
  refine howned.put hmembers (fun j => ?_) fun j g' _ => by rw [hroom]
  have hkeys : j ∈ (txLocalMap.insert i info).keys ↔ j ∈ txLocalMap.keys := by
    rw [AssocMap.mem_keys_insert, or_iff_right_iff_imp]
    rintro rfl
    exact hmember
  rw [hkeys, hroom, ← Server.members_eq hget]
  exact howned g j

/-- A leave: the handler's group loses its client. -/
theorem leaves (howned : Owned s) (hh : s.handlers[i]? = some h) (hphase : h.phase = .leaving)
    {remainingTx : List PeerId}
    (hmembers : ∀ g' j, j ∈ (s'.members g').keys ↔
      j ∈ (s.members g').keys ∧ ¬ (g' = h.ipGroup ∧ j = i))
    (hroom : ∀ j, s'.room j =
      (s.modify i fun h => { h with phase := .notifying remainingTx }).room j) : Owned s' := by
  have hold : s.room i = some h.ipGroup := room_of_inserted hh (by rw [hphase]; rfl)
  intro g' j
  rw [hmembers, howned, hroom, Server.room_modify hh]
  split_ifs with hji
  · subst hji
    rw [hold]
    simp [Handler.room, Phase.inserted, eq_comm]
  · simp [hji]

theorem act {limits : Limits} {a : Act} (howned : Owned s) (hh : s.handlers[i]? = some h)
    (hacts : Acts limits s i h a s') : Owned s' := by
  -- a handler that is turned away was in no room and is in none
  have hrejected : h.phase = .connecting → ∀ (table : AssocMap String _) counts j,
      (Server.reject { s with txMap := table, requestCountMap := counts } i).room j = s.room j := by
    intro hphase table counts
    refine Server.room_modify_same (s := { s with txMap := _, requestCountMap := _ }) ?_
    intro h' hh'
    rw [hh] at hh'
    obtain rfl := Option.some.inj hh'
    simp [Handler.room, hphase, Phase.inserted]
  cases hacts with
  | full hphase | exhausted hphase =>
      exact howned.same (members_again rfl) (hrejected hphase _ _)
  | entered hphase hunder hperm hpeers =>
      refine howned.entered hh hphase (fun g' => ?_) fun j => rfl
      rw [Server.members_modify, Server.members_of_insert (s := { s with txMap := _ }) rfl]
      split_ifs with hg
      · rfl
      · exact members_again rfl g'
  | sendJoin hphase hplace | sendHello hphase hplace =>
      refine howned.same (fun _ => rfl) (Server.room_send_modify hh ?_ fun h' hh' => ?_)
      · exact fun _ => rfl
      · rw [hh', hphase]
        rfl
  | write | writeFails | nobody | relay | sent | closes | abortSend | abortRecv =>
      refine howned.same (fun _ => rfl) (Server.room_modify_same ?_)
      exact fun _ _ => rfl
  | receive =>
      refine howned.same (fun _ => rfl)
        (Server.room_modify_same (s := { s with requestCountMap := _ }) ?_)
      exact fun _ _ => rfl
  | update hrecv hget hmember hperm =>
      refine howned.updated hget hmember (Server.members_of_insert rfl)
        (Server.room_modify_same (s := { s with txMap := _ }) ?_)
      exact fun _ _ => rfl
  | sendMessage | refuse =>
      refine howned.same (fun _ => rfl) (Server.room_send_modify hh ?_ ?_)
      · exact fun _ => rfl
      · exact fun _ _ => rfl
  | stop hphase hended =>
      refine howned.same (fun _ => rfl) (Server.room_modify_same fun h' hh' => ?_)
      rw [hh] at hh'
      obtain rfl := Option.some.inj hh'
      simp [Handler.room, hphase, Phase.inserted]
  | leftAlready hphase hget =>
      -- a handler that is leaving is in the table
      have hmem := Server.get?_of_mem_members (howned.mem_of_inserted hh (by rw [hphase]; rfl))
      rw [hget] at hmem
      cases hmem
  | leftLast hphase hget hlast =>
      refine howned.leaves hh hphase (fun g' j => ?_) fun j => rfl
      rw [Server.members_modify, Server.members_of_filter rfl]
      split_ifs with hg
      · -- the last one had the group to itself
        subst hg
        refine iff_of_false List.not_mem_nil ?_
        rintro ⟨hmem, hne⟩
        have hkey := AssocMap.mem_keys_filter_ne.mpr ⟨hmem, fun hji => hne ⟨rfl, hji⟩⟩
        rw [Server.members_eq hget] at hkey
        rw [AssocMap.isEmpty, List.isEmpty_iff] at hlast
        unfold AssocMap.keys at hkey
        rw [hlast] at hkey
        cases hkey
      · simp [hg]
  | left hphase hget hothers hperm =>
      refine howned.leaves hh hphase (fun g' j => ?_) fun j => rfl
      rw [Server.members_modify, Server.members_of_insert rfl]
      split_ifs with hg
      · rw [hg, Server.members_eq hget]
        rw [AssocMap.mem_keys_filter_ne]
        simp
      · simp [hg]
  | sendLeft hphase hplace =>
      refine howned.same (fun _ => rfl) (Server.room_send_modify hh ?_ fun h' hh' => ?_)
      · exact fun _ => rfl
      · rw [hh', hphase]
        rfl

theorem step {limits : Limits} {l : Label} (howned : Owned s)
    (hstep : Server.step limits s l = some s') : Owned s' := by
  cases l with
  | connect ipGroup peer =>
      cases hstep
      refine howned.same (fun _ => rfl) fun j => ?_
      unfold Server.room
      by_cases hj : j < s.handlers.length
      · rw [List.getElem?_append_left hj]
      · rw [List.getElem?_append_right (Nat.not_lt.mp hj),
          List.getElem?_eq_none_iff.mpr (Nat.not_lt.mp hj)]
        cases hk : j - s.handlers.length with
        | zero => rfl
        | succ k => rfl
  | clear =>
      cases hstep
      exact howned.same (fun _ => rfl) fun _ => rfl
  | act i a =>
      obtain ⟨h, hh, hacts⟩ := Server.step_act hstep
      exact howned.act hh hacts

theorem init : Owned .init := by
  intro g i
  have hmembers : Server.init.members g = .empty := rfl
  rw [hmembers]
  exact iff_of_false List.not_mem_nil (Option.some_ne_none _ ∘ Eq.symm)

end Owned

/-! ## §2  No group is too large -/

/-- No group has more members than the limit. -/
def Bounded (limits : Limits) (s : Server) : Prop :=
  ∀ g txLocalMap, s.txMap.get? g = some txLocalMap →
    txLocalMap.entries.length ≤ limits.maxConnections

namespace Bounded

variable {limits : Limits} {s s' : Server}

theorem members (hbounded : Bounded limits s) (g : String) :
    (s.members g).entries.length ≤ limits.maxConnections := by
  unfold Server.members
  cases hget : s.txMap.get? g with
  | none => exact Nat.zero_le _
  | some txLocalMap => exact hbounded g txLocalMap hget

theorem insert (hbounded : Bounded limits s) {g : String}
    {txLocalMap : AssocMap PeerId ClientInfoWithoutId}
    (hlen : txLocalMap.entries.length ≤ limits.maxConnections)
    (htable : s'.txMap = s.txMap.insert g txLocalMap) : Bounded limits s' := by
  intro g' txLocalMap' hget
  rw [htable, AssocMap.get?_insert] at hget
  split_ifs at hget with hg
  · cases hget
    exact hlen
  · exact hbounded g' txLocalMap' hget

theorem act {i : PeerId} {h : Handler} {a : Act} (hbounded : Bounded limits s)
    (hacts : Acts limits s i h a s') : Bounded limits s' := by
  cases hacts with
  | full | exhausted => exact hbounded.insert (hbounded.members _) rfl
  | entered hphase hunder =>
      have hfirst : Bounded limits
          { s with txMap := s.txMap.insert h.ipGroup (s.members h.ipGroup) } :=
        hbounded.insert (hbounded.members _) rfl
      refine hfirst.insert ?_ rfl
      rw [AssocMap.length_insert]
      split_ifs
      · exact Nat.le_of_lt hunder
      · exact hunder
  | update hrecv hget hmember =>
      refine hbounded.insert ?_ rfl
      rw [AssocMap.length_insert, if_pos hmember]
      exact hbounded _ _ hget
  | leftLast hphase hget hlast =>
      intro g txLocalMap hget'
      rw [Server.txMap_modify, AssocMap.get?_filter] at hget'
      exact hbounded g txLocalMap (Option.filter_eq_some_iff.mp hget').1
  | left hphase hget =>
      exact hbounded.insert (Nat.le_trans AssocMap.length_filter_le (hbounded _ _ hget)) rfl
  | _ => exact hbounded

theorem step {l : Label} (hbounded : Bounded limits s)
    (hstep : Server.step limits s l = some s') : Bounded limits s' := by
  cases l with
  | connect ipGroup peer =>
      cases hstep
      exact hbounded
  | clear =>
      cases hstep
      exact hbounded
  | act i a =>
      obtain ⟨h, -, hacts⟩ := Server.step_act hstep
      exact hbounded.act hacts

end Bounded

/-! ## §3  No group is empty -/

/-- A client is turned away: the group is full, or its requests are used up. -/
def TurnedAway (limits : Limits) (s : Server) (h : Handler) : Prop :=
  limits.maxConnections ≤ (s.members h.ipGroup).entries.length ∨
    (s.protectDdosRequestCount limits h.ipGroup).2 = false

instance (limits : Limits) (s : Server) (h : Handler) : Decidable (TurnedAway limits s h) :=
  inferInstanceAs (Decidable (_ ∨ _))

/-- Clients are only turned away from groups that are in the table. -/
def FromExisting (limits : Limits) (s : Server) : Label → Prop
  | .act i (.lockJoin _) =>
      ∀ h ∈ s.handlers[i]?, TurnedAway limits s h → (s.txMap.get? h.ipGroup).isSome = true
  | _ => True

instance (limits : Limits) (s : Server) : (l : Label) → Decidable (FromExisting limits s l)
  | .act i (.lockJoin _) => inferInstanceAs (Decidable (∀ h ∈ s.handlers[i]?, _ → _))
  | .connect _ _ | .clear | .act _ .sendJoin | .act _ .sendHello | .act _ .write
  | .act _ .writeFails | .act _ (.receive _) | .act _ (.lockMessage _) | .act _ .sendMessage
  | .act _ .closes | .act _ .stop | .act _ .abortSend | .act _ .abortRecv
  | .act _ (.lockLeave _) | .act _ .sendLeft => .isTrue trivial

/-- Every group in the table has a member. -/
def Inhabited (s : Server) : Prop :=
  ∀ g txLocalMap, s.txMap.get? g = some txLocalMap → txLocalMap.isEmpty = false

namespace Inhabited

variable {limits : Limits} {s s' : Server} {g : String} {i : PeerId} {h : Handler}

theorem insert (hinhabited : Inhabited s) {txLocalMap : AssocMap PeerId ClientInfoWithoutId}
    (hne : txLocalMap.isEmpty = false) (htable : s'.txMap = s.txMap.insert g txLocalMap) :
    Inhabited s' := by
  intro g' txLocalMap' hget
  rw [htable, AssocMap.get?_insert] at hget
  split_ifs at hget with hg
  · cases hget
    exact hne
  · exact hinhabited g' txLocalMap' hget

/-- What a handler that is turned away leaves behind was there before. -/
theorem turnedAway (hinhabited : Inhabited s) (hsome : (s.txMap.get? g).isSome = true)
    (htable : s'.txMap = s.txMap.insert g (s.members g)) : Inhabited s' := by
  obtain ⟨txLocalMap, hget⟩ := Option.isSome_iff_exists.mp hsome
  refine hinhabited.insert ?_ htable
  rw [Server.members_eq hget]
  exact hinhabited g txLocalMap hget

theorem act {a : Act} (hinhabited : Inhabited s) (hh : s.handlers[i]? = some h)
    (hok : FromExisting limits s (.act i a)) (hacts : Acts limits s i h a s') :
    Inhabited s' := by
  cases hacts with
  | full hphase hover => exact hinhabited.turnedAway (hok h hh (.inl hover)) rfl
  | exhausted hphase hover => exact hinhabited.turnedAway (hok h hh (.inr hover)) rfl
  | entered =>
      -- the map that is put in first is replaced at once
      intro g txLocalMap hget
      rw [Server.txMap_modify, AssocMap.get?_insert, AssocMap.get?_insert] at hget
      split_ifs at hget with hg
      · cases hget
        exact AssocMap.isEmpty_insert
      · exact hinhabited g txLocalMap hget
  | update => exact hinhabited.insert AssocMap.isEmpty_insert rfl
  | leftLast hphase hget hlast =>
      intro g txLocalMap hget'
      rw [Server.txMap_modify, AssocMap.get?_filter] at hget'
      exact hinhabited g txLocalMap (Option.filter_eq_some_iff.mp hget').1
  | left hphase hget hothers => exact hinhabited.insert hothers rfl
  | _ => exact hinhabited

theorem step {l : Label} (hinhabited : Inhabited s) (hok : FromExisting limits s l)
    (hstep : Server.step limits s l = some s') : Inhabited s' := by
  cases l with
  | connect ipGroup peer =>
      cases hstep
      exact hinhabited
  | clear =>
      cases hstep
      exact hinhabited
  | act i a =>
      obtain ⟨h, hh, hacts⟩ := Server.step_act hstep
      exact hinhabited.act hh hok hacts

end Inhabited

/-! ## §4  Every run -/

/-- The table between critical sections: every group has a member and not too many,
and its members are the clients of the handlers that entered it and have not left. -/
structure TableInv (limits : Limits) (s : Server) : Prop where
  nonempty : ∀ g txLocalMap, s.txMap.get? g = some txLocalMap → txLocalMap.isEmpty = false
  bounded : ∀ g txLocalMap, s.txMap.get? g = some txLocalMap →
    txLocalMap.entries.length ≤ limits.maxConnections
  owned : ∀ g i, i ∈ (s.members g).keys ↔ s.room i = some g

theorem TableInv.init (limits : Limits) : TableInv limits .init where
  nonempty _ _ hget := nomatch hget
  bounded _ _ hget := nomatch hget
  owned := Owned.init

/-- The table is empty when no handler is in a room. -/
theorem TableInv.empty {limits : Limits} {s : Server} (hinv : TableInv limits s)
    (hleft : ∀ (i : PeerId) (h : Handler), s.handlers[i]? = some h → h.phase.inserted = false) :
    s.txMap = .empty := by
  refine AssocMap.ext (List.eq_nil_iff_forall_not_mem.mpr ?_)
  rintro ⟨g, txLocalMap⟩ hmem
  have hget := AssocMap.get?_eq_some_iff.mpr hmem
  obtain ⟨i, info, hi⟩ := AssocMap.exists_get?_of_ne_empty (hinv.nonempty g txLocalMap hget)
  have hkey : i ∈ (s.members g).keys := by
    rw [Server.members_eq hget]
    exact AssocMap.mem_keys_iff.mpr ⟨info, hi⟩
  obtain ⟨h, hh, hroom⟩ := Option.bind_eq_some_iff.mp ((hinv.owned g i).mp hkey)
  simp [Handler.room, hleft i h hh] at hroom

/-- **The table of the groups.** In every run in which clients are only turned away
from groups that exist, the table is in order between critical sections, and empty
once every client has left. -/
theorem room_table (limits : Limits) (s : Server)
    (hrun : Run (Server.step limits) (FromExisting limits) .init s) :
    TableInv limits s ∧
      ((∀ (i : PeerId) (h : Handler), s.handlers[i]? = some h → h.phase.inserted = false) →
        s.txMap = .empty) := by
  have hinv : TableInv limits s := by
    refine hrun.invariant (I := TableInv limits) (.init limits) fun m l t hinv hok hstep => ?_
    exact ⟨Inhabited.step hinv.nonempty hok hstep, Bounded.step hinv.bounded hstep,
      Owned.step hinv.owned hstep⟩
  exact ⟨hinv, hinv.empty⟩

/-! ## §5  A client that is turned away -/

def samplePeer : ClientInfoWithoutId := ⟨"Fox", "2.1", none, none, "token"⟩

/-- One client comes and goes. -/
def oneVisit : List Label :=
  [.connect "192.0.2.7" samplePeer, .act 0 (.lockJoin []), .act 0 .sendHello, .act 0 .closes,
    .act 0 .stop, .act 0 (.lockLeave [])]

theorem room_table_oneVisit :
    ∃ s, Run (Server.step ⟨10, 1⟩) (FromExisting ⟨10, 1⟩) .init s ∧ s.handlers.length = 1 ∧
      s.txMap = .empty := by
  obtain ⟨s, hexec, hs⟩ := exists_of_exec_any (Server.step ⟨10, 1⟩) .init oneVisit
    (fun s => s.handlers.length = 1 ∧ s.handlers.all fun h => !h.phase.inserted) (by decide +kernel)
  have hrun : Run (Server.step ⟨10, 1⟩) (FromExisting ⟨10, 1⟩) .init s :=
    run_of_exec hexec (by decide +kernel)
  simp only [decide_eq_true_eq, List.all_eq_true, Bool.not_eq_true'] at hs
  refine ⟨s, hrun, hs.1, (room_table ⟨10, 1⟩ s hrun).2 fun i h hh => ?_⟩
  exact hs.2 h (List.mem_of_getElem? hh)

/-- The second visit is turned away, because the requests are used up, and leaves an
empty group behind. -/
theorem empty_group :
    ∃ s, Reach (Server.step ⟨10, 1⟩) .init s ∧ ¬ TableInv ⟨10, 1⟩ s ∧
      (∀ h ∈ s.handlers, h.phase.inserted = false) ∧ s.txMap ≠ .empty := by
  obtain ⟨s, hexec, hs⟩ := exists_of_exec_any (Server.step ⟨10, 1⟩) .init
    (oneVisit ++ [.connect "192.0.2.7" samplePeer, .act 1 (.lockJoin [])])
    (fun s => s.txMap.get? "192.0.2.7" = some .empty ∧
      s.handlers.all fun h => !h.phase.inserted) (by decide +kernel)
  simp only [decide_eq_true_eq, List.all_eq_true, Bool.not_eq_true'] at hs
  refine ⟨s, reach_of_exec hexec, fun hinv => ?_, hs.2, fun hempty => ?_⟩
  · have hnonempty := hinv.nonempty "192.0.2.7" .empty hs.1
    cases hnonempty
  · rw [hempty] at hs
    cases hs.1

end FireBoxTransfer.Signaling
