import Mathlib.Algebra.BigOperators.Group.List.Basic
import FireBoxTransfer.Signaling.Rooms

/-!
# The queues of the handlers

A handler can be sent messages as soon as its client is in the map of the group, but
nobody takes them out of its queue before it has put its own Hello there. Four
messages in that window, and it waits for itself.
-/

namespace FireBoxTransfer.Signaling

open Runs

/-! ## §1  The window -/

/-- The Hello is in the queue, or will never be. -/
def Phase.greeted : Phase → Bool
  | .connecting | .joining _ _ => false
  | _ => true

/-- A message to a handler that has not greeted its client leaves a place for the Hello. -/
def LeavesPlace (s : Server) : Label → Prop
  | .act i a =>
      ∀ h ∈ s.handlers[i]?, ∀ next ∈ h.nextMessage i a, ∀ t ∈ s.handlers[next.1]?,
        t.phase.greeted = false → t.queue.length + 1 < capacity
  | _ => True

instance (s : Server) : (l : Label) → Decidable (LeavesPlace s l)
  | .act i a =>
      inferInstanceAs (Decidable (∀ h ∈ s.handlers[i]?, ∀ next ∈ h.nextMessage i a,
        ∀ t ∈ s.handlers[next.1]?, t.phase.greeted = false → t.queue.length + 1 < capacity))
  | .connect _ _ | .clear => .isTrue trivial

/-! ## §2  What has a place -/

/-- Before the Hello there is a place in the queue, and who was turned away has no
queue any more. -/
structure Handler.Placed (h : Handler) : Prop where
  place : h.phase.greeted = false → h.queue.length < capacity
  gone : h.phase = .rejected → h.rxAlive = false

def AllPlaced (s : Server) : Prop :=
  ∀ (i : PeerId) (h : Handler), s.handlers[i]? = some h → h.Placed

theorem Handler.Placed.of_greeted {h : Handler} (hgreeted : h.phase.greeted = true)
    (hphase : h.phase ≠ .rejected) : h.Placed where
  place hfalse := by rw [hgreeted] at hfalse; cases hfalse
  gone hrejected := absurd hrejected hphase

theorem Phase.greeted_of_spawned {phase : Phase} (h : phase.spawned = true) :
    phase.greeted = true := by
  cases phase <;> first | rfl | cases h

theorem Phase.spawned_of_stopped {phase : Phase} (h : phase.stopped = true) :
    phase.spawned = true := by
  cases phase <;> first | rfl | cases h

/-- Of a handler whose tasks run, nothing is asked. -/
theorem Handler.Placed.of_spawned {h : Handler} (hspawned : h.phase.spawned = true) : h.Placed := by
  refine .of_greeted (Phase.greeted_of_spawned hspawned) fun hrejected => ?_
  rw [hrejected] at hspawned
  cases hspawned

/-- A change that keeps the phase and adds nothing to the queue. -/
theorem Handler.Placed.keep {h h' : Handler} (hplaced : h.Placed) (hphase : h'.phase = h.phase)
    (hqueue : h'.queue.length ≤ h.queue.length) (hgone : h.rxAlive = false → h'.rxAlive = false) :
    h'.Placed where
  place hgreeted := Nat.lt_of_le_of_lt hqueue (hplaced.place (hphase ▸ hgreeted))
  gone hrejected := hgone (hplaced.gone (hphase ▸ hrejected))

theorem Handler.Placed.deliver {h : Handler} (hplaced : h.Placed) (msg : WsServerMessage)
    (hlt : h.phase.greeted = false → h.queue.length + 1 < capacity) :
    (h.deliver msg).Placed where
  place hgreeted := by
    rw [Handler.deliver_phase] at hgreeted
    unfold Handler.deliver
    split_ifs
    · simpa using hlt hgreeted
    · exact hplaced.place hgreeted
  gone hrejected := by
    rw [Handler.deliver_phase] at hrejected
    have hgone := hplaced.gone hrejected
    simp [Handler.deliver, hgone]

theorem AllPlaced.modify {s : Server} {i : PeerId} {f : Handler → Handler} (hall : AllPlaced s)
    (hf : ∀ h, s.handlers[i]? = some h → (f h).Placed) : AllPlaced (s.modify i f) :=
  Server.forall_modify hall hf

/-- A handler sends a message to `p` and moves on. -/
theorem AllPlaced.send {s : Server} {i p : PeerId} {h : Handler} {msg : WsServerMessage}
    {f : Handler → Handler} (hall : AllPlaced s) (hh : s.handlers[i]? = some h)
    (hlt : ∀ t, s.handlers[p]? = some t → t.phase.greeted = false →
      t.queue.length + 1 < capacity)
    (hf : ∀ h' : Handler, h'.Placed → h'.phase = h.phase → (f h').Placed) :
    AllPlaced ((s.modify p (·.deliver msg)).modify i f) := by
  have hdelivered : AllPlaced (s.modify p (·.deliver msg)) :=
    hall.modify fun t ht => (hall p t ht).deliver msg (hlt t ht)
  refine hdelivered.modify fun h' hh' => hf h' (hdelivered i h' hh') ?_
  obtain ⟨h₀, hh₀, rfl⟩ := Server.handlers_modify hh'
  rw [hh] at hh₀
  obtain rfl := Option.some.inj hh₀
  split_ifs <;> simp

theorem AllPlaced.act {limits : Limits} {s s' : Server} {i : PeerId} {h : Handler} {a : Act}
    (hall : AllPlaced s) (hh : s.handlers[i]? = some h) (hok : LeavesPlace s (.act i a))
    (hacts : Acts limits s i h a s') : AllPlaced s' := by
  have hplaced := hall i h hh
  have hothers := hok h hh
  -- the handler's own move: the same handlers under changed maps
  have hmove : ∀ (f : Handler → Handler) txMap counts, (f h).Placed →
      AllPlaced (Server.modify { s with txMap := txMap, requestCountMap := counts } i f) := by
    intro f txMap counts hf j h' hh'
    refine AllPlaced.modify (f := f) hall (fun h₀ hh₀ => ?_) j h' hh'
    rw [hh] at hh₀
    obtain rfl := Option.some.inj hh₀
    exact hf
  cases hacts with
  | full | exhausted =>
      exact hmove _ _ _ ⟨fun hfalse => (by cases hfalse), fun _ => rfl⟩
  | entered hphase hunder hperm hpeers =>
      refine hmove _ _ _ ⟨fun _ => hplaced.place ?_, fun hfalse => by cases hfalse⟩
      rw [hphase]
      rfl
  | sendJoin hphase hplace =>
      refine hall.send hh (hothers (_, _) (by rw [Handler.nextMessage, hphase]; rfl)) ?_
      intro h' hplaced' hphase'
      refine ⟨fun _ => hplaced'.place ?_, fun hfalse => by cases hfalse⟩
      rw [hphase', hphase]
      rfl
  | sendHello hphase hplace =>
      intro j h' hh'
      obtain ⟨h₁, hh₁, rfl⟩ := Server.handlers_modify hh'
      obtain ⟨h₀, hh₀, rfl⟩ := Server.handlers_modify hh₁
      by_cases hji : j = i
      · rw [if_pos hji]
        exact .of_spawned rfl
      · rw [if_neg hji, if_neg hji]
        exact hall j h₀ hh₀
  | write hqueue hspawned halive => exact hmove _ _ _ (.of_spawned hspawned)
  | writeFails hspawned halive => exact hmove _ _ _ (.of_spawned hspawned)
  | receive hspawned hrecv => exact hmove _ _ _ (.of_spawned hspawned)
  | nobody hrecv => exact hmove _ _ _ (hplaced.keep rfl (Nat.le_refl _) id)
  | update hrecv hget hmember hperm => exact hmove _ _ _ (hplaced.keep rfl (Nat.le_refl _) id)
  | relay hrecv hsdp => exact hmove _ _ _ (hplaced.keep rfl (Nat.le_refl _) id)
  | sent hrecv => exact hmove _ _ _ (hplaced.keep rfl (Nat.le_refl _) id)
  | sendMessage hrecv hplace =>
      refine hall.send hh (hothers (_, _) (by rw [Handler.nextMessage, hrecv]; rfl)) ?_
      intro h' hplaced' _
      exact hplaced'.keep rfl (Nat.le_refl _) id
  | refuse hrecv hplace =>
      refine hall.send hh (hothers (_, _) (by rw [Handler.nextMessage, hrecv]; rfl)) ?_
      intro h' hplaced' _
      exact hplaced'.keep rfl (Nat.le_refl _) id
  | closes hspawned hrecv => exact hmove _ _ _ (.of_spawned hspawned)
  | stop hphase hended => exact hmove _ _ _ (.of_spawned rfl)
  | abortSend hstopped halive =>
      exact hmove _ _ _ (.of_spawned (Phase.spawned_of_stopped hstopped))
  | abortRecv hstopped => exact hmove _ _ _ (.of_spawned (Phase.spawned_of_stopped hstopped))
  | leftAlready | leftLast | left => exact hmove _ _ _ (.of_spawned rfl)
  | sendLeft hphase hplace =>
      refine hall.send hh (hothers (_, _) (by rw [Handler.nextMessage, hphase]; rfl)) ?_
      intro h' _ _
      exact .of_spawned rfl

theorem AllPlaced.step {limits : Limits} {s s' : Server} {l : Label} (hall : AllPlaced s)
    (hok : LeavesPlace s l) (hstep : Server.step limits s l = some s') : AllPlaced s' := by
  cases l with
  | connect ipGroup peer =>
      cases hstep
      intro j h hh
      rcases List.mem_append.mp (List.mem_of_getElem? hh) with hmem | hmem
      · obtain ⟨k, hk⟩ := List.mem_iff_getElem?.mp hmem
        exact hall k h hk
      · rw [List.mem_singleton.mp hmem]
        exact ⟨fun _ => by simp [Handler.new, capacity], fun hfalse => by cases hfalse⟩
  | clear =>
      cases hstep
      exact hall
  | act i a =>
      obtain ⟨h, hh, hacts⟩ := Server.step_act hstep
      exact hall.act hh hok hacts

/-! ## §3  A server at rest -/

/-- The handler waits for a place in its own queue, which only its `send_task` would
make, and that has not been spawned. -/
def WaitsForItself (s : Server) (i : PeerId) : Prop :=
  ∃ h peers, s.handlers[i]? = some h ∧ h.phase = .joining [] peers ∧ s.hasPlace i = false

/-- The steps that the server takes by itself, writing to its clients among them. -/
def Act.own : Act → Bool
  | .writeFails | .receive _ | .closes => false
  | _ => true

/-- No handler can take a step by itself. -/
def AtRest (limits : Limits) (s : Server) : Prop :=
  ∀ i a, a.own = true → Server.step limits s (.act i a) = none

theorem hasPlace_of_lt {s : Server} {p : PeerId}
    (h : ∀ t, s.handlers[p]? = some t → t.rxAlive = true → t.queue.length < capacity) :
    s.hasPlace p = true := by
  unfold Server.hasPlace
  cases hp : s.handlers[p]? with
  | none => rfl
  | some t =>
      cases halive : t.rxAlive with
      | false => simp [halive]
      | true => simpa [halive] using h t hp halive

theorem AllPlaced.not_waits {s : Server} (hall : AllPlaced s) (i : PeerId) :
    ¬ WaitsForItself s i := by
  rintro ⟨h, peers, hh, hphase, hfull⟩
  have hplace : s.hasPlace i = true := by
    refine hasPlace_of_lt fun t ht _ => (hall i t ht).place ?_
    rw [hh] at ht
    obtain rfl := Option.some.inj ht
    rw [hphase]
    rfl
  rw [hplace] at hfull
  cases hfull

/-- At rest every queue has a place: what is there can be written to the client. -/
theorem AllPlaced.hasPlace_of_rest {limits : Limits} {s : Server} (hall : AllPlaced s)
    (hrest : AtRest limits s) (p : PeerId) : s.hasPlace p = true := by
  refine hasPlace_of_lt fun t ht halive => ?_
  by_cases hgreeted : t.phase.greeted = true
  · -- the tasks have been spawned: a message in the queue could be written
    have hspawned : t.phase.spawned = true := by
      cases hphase : t.phase with
      | connecting => rw [hphase] at hgreeted; cases hgreeted
      | joining peersTx peers => rw [hphase] at hgreeted; cases hgreeted
      | rejected =>
          rw [(hall p t ht).gone hphase] at halive
          cases halive
      | receiving | leaving | notifying => rfl
    have hwrite := hrest p .write rfl
    cases hqueue : t.queue with
    | nil => decide
    | cons m rest => simp [Server.step, ht, Server.act, hqueue, hspawned, halive] at hwrite
  · exact (hall p t ht).place (Bool.eq_false_iff.mpr hgreeted)

/-- **At rest nobody is joining.** -/
theorem AllPlaced.not_joining_of_rest {limits : Limits} {s : Server} (hall : AllPlaced s)
    (hrest : AtRest limits s) {i : PeerId} {h : Handler} (hh : s.handlers[i]? = some h)
    (peersTx : List PeerId) (peers : List ClientInfo) : h.phase ≠ .joining peersTx peers := by
  intro hphase
  cases peersTx with
  | nil =>
      have hhello := hrest i .sendHello rfl
      have hplace := hall.hasPlace_of_rest hrest i
      simp [Server.step, hh, Server.act, hphase, Server.send, hplace] at hhello
  | cons p rest =>
      have hjoin := hrest i .sendJoin rfl
      have hplace := hall.hasPlace_of_rest hrest p
      simp [Server.step, hh, Server.act, hphase, Server.send, hplace] at hjoin

/-! ## §4  Rest is reached -/

/-- The steps that are left to a handler's main task in a group of `n` members; a
message counts twice, for the sending and for the writing. -/
def Phase.work (n : ℕ) : Phase → ℕ
  | .connecting => 4 * n + 5
  | .joining peersTx _ => 2 * peersTx.length + 2 * n + 4
  | .receiving => 2 * n + 2
  | .leaving => 2 * n + 1
  | .notifying remainingTx => 2 * remainingTx.length
  | .rejected => 0

def RecvTask.work (n : ℕ) : RecvTask → ℕ
  | .waiting => 1
  | .handling _ => 2 * n + 5
  | .sending peersTx _ => 2 * peersTx.length + 2
  | .refusing => 2
  | .ended => 0

def Handler.work (n : ℕ) (h : Handler) : ℕ :=
  h.phase.work n + h.recvTask.work n + h.queue.length + if h.rxAlive then 1 else 0

def Server.work (n : ℕ) (s : Server) : ℕ := (s.handlers.map (Handler.work n)).sum

theorem sum_map_modify {α : Type*} (g : α → ℕ) (f : α → α) {l : List α} {i : ℕ} {x : α}
    (h : l[i]? = some x) : ((l.modify i f).map g).sum + g x = (l.map g).sum + g (f x) := by
  induction l generalizing i with
  | nil => cases h
  | cons y l ih =>
      cases i with
      | zero =>
          obtain rfl : y = x := by simpa using h
          simp only [List.modify_zero_cons, List.map_cons, List.sum_cons]
          omega
      | succ i =>
          have hrest := ih (by simpa using h)
          simp only [List.modify_succ_cons, List.map_cons, List.sum_cons]
          omega

theorem work_modify {s : Server} {i : PeerId} {h : Handler} (f : Handler → Handler) (n : ℕ)
    (hh : s.handlers[i]? = some h) :
    (s.modify i f).work n + h.work n = s.work n + (f h).work n :=
  sum_map_modify (Handler.work n) f hh

theorem work_modify_lt {s : Server} {i : PeerId} {h : Handler} {f : Handler → Handler} {n : ℕ}
    (hh : s.handlers[i]? = some h) (hlt : (f h).work n < h.work n) :
    (s.modify i f).work n < s.work n := by
  have := work_modify f n hh
  omega

theorem work_deliver_le (s : Server) (p : PeerId) (msg : WsServerMessage) (n : ℕ) :
    (s.modify p (·.deliver msg)).work n ≤ s.work n + 1 := by
  cases hp : s.handlers[p]? with
  | none =>
      have hlen : s.handlers.length ≤ p := List.getElem?_eq_none_iff.mp hp
      have hsame : (s.modify p (·.deliver msg)).handlers = s.handlers :=
        List.modify_eq_self hlen
      unfold Server.work
      rw [hsame]
      exact Nat.le_succ _
  | some t =>
      have hmodify := work_modify (·.deliver msg) n hp
      have hone : (t.deliver msg).work n ≤ t.work n + 1 := by
        unfold Handler.deliver Handler.work
        split_ifs
        · simp only [List.length_append, List.length_cons, List.length_nil]
          omega
        · omega
      omega

/-- A handler sends a message and is two steps further. -/
theorem work_send_lt {s : Server} {i p : PeerId} {h : Handler} {msg : WsServerMessage}
    {f : Handler → Handler} {n : ℕ} (hh : s.handlers[i]? = some h)
    (hlt : ∀ h' : Handler, h'.phase = h.phase → h'.recvTask = h.recvTask →
      (f h').work n + 2 ≤ h'.work n) :
    ((s.modify p (·.deliver msg)).modify i f).work n < s.work n := by
  obtain ⟨h', hh', hphase, hrecv⟩ : ∃ h' : Handler,
      (s.modify p (·.deliver msg)).handlers[i]? = some h' ∧ h'.phase = h.phase ∧
        h'.recvTask = h.recvTask := by
    by_cases hip : i = p
    · subst hip
      refine ⟨_, Server.handlers_modify_self hh, Handler.deliver_phase h msg, ?_⟩
      unfold Handler.deliver
      split_ifs <;> rfl
    · exact ⟨h, (Server.handlers_modify_ne (Ne.symm hip)).trans hh, rfl, rfl⟩
  have hdeliver := work_deliver_le s p msg n
  have hmodify := work_modify f n hh'
  have hlt := hlt h' hphase hrecv
  omega

/-- **Every step of the server by itself is one step less to go.** -/
theorem work_act_lt {limits : Limits} {s s' : Server} {i : PeerId} {h : Handler} {a : Act}
    (hbounded : Bounded limits s) (hh : s.handlers[i]? = some h) (hown : a.own = true)
    (hacts : Acts limits s i h a s') :
    s'.work limits.maxConnections < s.work limits.maxConnections := by
  -- maps are not work
  have hmove : ∀ (f : Handler → Handler) txMap counts,
      (f h).work limits.maxConnections < h.work limits.maxConnections →
      (Server.modify { s with txMap := txMap, requestCountMap := counts } i f).work
        limits.maxConnections < s.work limits.maxConnections :=
    fun f txMap counts hlt => work_modify_lt (s := { s with txMap := _, requestCountMap := _ })
      (hh : _) hlt
  cases hacts with
  | full hphase | exhausted hphase =>
      refine hmove _ _ _ ?_
      simp only [Handler.work, hphase, Phase.work, RecvTask.work]
      split_ifs <;> omega
  | entered hphase hunder hperm hpeers =>
      refine hmove _ _ _ ?_
      have hlen := hperm.length_eq
      rw [AssocMap.keys, List.length_map] at hlen
      simp only [Handler.work, hphase, Phase.work]
      omega
  | sendJoin hphase hplace =>
      refine work_send_lt hh fun h' hphase' _ => ?_
      simp only [Handler.work, hphase', hphase, Phase.work, List.length_cons]
      omega
  | sendHello hphase hplace =>
      refine work_send_lt hh fun h' hphase' _ => ?_
      simp only [Handler.work, hphase', hphase, Phase.work, List.length_nil]
      omega
  | write hqueue hspawned halive =>
      refine hmove _ _ _ ?_
      simp only [Handler.work, hqueue, List.length_cons]
      omega
  | writeFails => cases hown
  | receive => cases hown
  | nobody hrecv =>
      refine hmove _ _ _ ?_
      simp only [Handler.work, hrecv, RecvTask.work]
      omega
  | @update info order txLocalMap hrecv hget hmember hperm =>
      refine hmove _ _ _ ?_
      have hlen : order.length ≤ limits.maxConnections := by
        calc order.length = (txLocalMap.keys.filter (· ≠ i)).length := hperm.length_eq
          _ ≤ txLocalMap.keys.length := List.length_filter_le _ _
          _ = txLocalMap.entries.length := List.length_map ..
          _ ≤ limits.maxConnections := hbounded _ _ hget
      simp only [Handler.work, hrecv, RecvTask.work]
      omega
  | relay hrecv hsdp =>
      refine hmove _ _ _ ?_
      simp only [Handler.work, hrecv, RecvTask.work, List.length_cons, List.length_nil]
      omega
  | sent hrecv =>
      refine hmove _ _ _ ?_
      simp only [Handler.work, hrecv, RecvTask.work, List.length_nil]
      omega
  | sendMessage hrecv hplace =>
      refine work_send_lt hh fun h' _ hrecv' => ?_
      simp only [Handler.work, hrecv', hrecv, RecvTask.work, List.length_cons]
      omega
  | refuse hrecv hplace =>
      refine work_send_lt hh fun h' _ hrecv' => ?_
      simp only [Handler.work, hrecv', hrecv, RecvTask.work]
      omega
  | closes => cases hown
  | stop hphase hended =>
      refine hmove _ _ _ ?_
      simp only [Handler.work, hphase, Phase.work]
      omega
  | abortSend hstopped halive =>
      refine hmove _ _ _ ?_
      simp only [Handler.work, halive, List.length_nil, if_true, Bool.false_eq_true, if_false]
      omega
  | abortRecv hstopped hrunning =>
      refine hmove _ _ _ ?_
      simp only [Handler.work]
      cases hrecv : h.recvTask with
      | ended => exact absurd hrecv hrunning
      | waiting | handling | sending | refusing =>
          simp only [RecvTask.work]
          omega
  | leftAlready hphase hget | leftLast hphase hget hlast =>
      refine hmove _ _ _ ?_
      simp only [Handler.work, hphase, Phase.work, List.length_nil]
      omega
  | @left order txLocalMap hphase hget hothers hperm =>
      refine hmove _ _ _ ?_
      have hlen : order.length ≤ limits.maxConnections := by
        rw [hperm.length_eq, AssocMap.keys, List.length_map]
        exact Nat.le_trans AssocMap.length_filter_le (hbounded _ _ hget)
      simp only [Handler.work, hphase, Phase.work]
      omega
  | sendLeft hphase hplace =>
      refine work_send_lt hh fun h' hphase' _ => ?_
      simp only [Handler.work, hphase', hphase, Phase.work, List.length_cons]
      omega

def Label.own : Label → Bool
  | .act _ a => a.own
  | _ => false

theorem length_own_le {limits : Limits} {s t : Server} {ls : List Label}
    (hbounded : Bounded limits s) (hown : ∀ l ∈ ls, l.own = true)
    (hexec : exec (Server.step limits) s ls = some t) :
    ls.length ≤ s.work limits.maxConnections := by
  induction ls generalizing s with
  | nil => exact Nat.zero_le _
  | cons l ls ih =>
      obtain ⟨m, hm, hexec⟩ := Option.bind_eq_some_iff.mp hexec
      obtain ⟨hl, hls⟩ := List.forall_mem_cons.mp hown
      have hrest := ih (hbounded.step hm) hls hexec
      cases l with
      | connect | clear => cases hl
      | act i a =>
          obtain ⟨h, hh, hacts⟩ := Server.step_act hm
          have hless := work_act_lt hbounded hh hl hacts
          rw [List.length_cons]
          omega

/-! ## §5  Every run -/

/-- **No handler waits for itself.** In every run in which the messages of others
leave a place for the Hello, nobody waits for a place in its own queue before its
tasks run; the server comes to rest after finitely many steps of its own, and at
rest every handler that entered a group has got past its join. -/
theorem handlers_reach_loop (limits : Limits) (s : Server)
    (hrun : Run (Server.step limits) LeavesPlace .init s) :
    (∀ i, ¬ WaitsForItself s i) ∧
      (AtRest limits s → ∀ (i : PeerId) (h : Handler), s.handlers[i]? = some h →
        ∀ peersTx peers, h.phase ≠ .joining peersTx peers) ∧
      ∃ n, ∀ ls t, (∀ l ∈ ls, Label.own l = true) → exec (Server.step limits) s ls = some t →
        ls.length ≤ n := by
  have hinv : AllPlaced s ∧ Bounded limits s := by
    have hinit : AllPlaced .init ∧ Bounded limits .init :=
      ⟨fun _ _ hh => (nomatch hh), fun _ _ hget => (nomatch hget)⟩
    refine hrun.invariant (I := fun s => AllPlaced s ∧ Bounded limits s) hinit ?_
    rintro m l t ⟨hall, hbounded⟩ hok hstep
    exact ⟨hall.step hok hstep, hbounded.step hstep⟩
  refine ⟨hinv.1.not_waits, fun hrest i h hh => hinv.1.not_joining_of_rest hrest hh,
    s.work limits.maxConnections, fun ls t hown hexec => length_own_le hinv.2 hown hexec⟩

/-! ## §6  A handler that waits for itself -/

/-- A second client joins while the first one has not been greeted. -/
def twoJoins : List Label :=
  [.connect "192.0.2.7" samplePeer, .act 0 (.lockJoin []), .connect "192.0.2.7" samplePeer,
    .act 1 (.lockJoin [0]), .act 1 .sendJoin, .act 0 .sendHello, .act 1 .sendHello]

theorem handlers_reach_loop_twoJoins :
    ∃ s, Run (Server.step ⟨10, 1000⟩) LeavesPlace .init s ∧ s.handlers.length = 2 ∧
      ∀ i, ¬ WaitsForItself s i := by
  obtain ⟨s, hexec, hs⟩ := exists_of_exec_any (Server.step ⟨10, 1000⟩) .init twoJoins
    (fun s => s.handlers.length = 2) (by decide +kernel)
  have hrun : Run (Server.step ⟨10, 1000⟩) LeavesPlace .init s :=
    run_of_exec hexec (by decide +kernel)
  exact ⟨s, hrun, by simpa using hs, (handlers_reach_loop ⟨10, 1000⟩ s hrun).1⟩

/-- The first client is entered, and before its handler puts the Hello into the queue
four others join and put their Joins there. -/
def fourOthers : List Label :=
  [.connect "192.0.2.7" samplePeer, .act 0 (.lockJoin []), .connect "192.0.2.7" samplePeer,
    .act 1 (.lockJoin [0]), .act 1 .sendJoin, .connect "192.0.2.7" samplePeer,
    .act 2 (.lockJoin [0, 1]), .act 2 .sendJoin, .connect "192.0.2.7" samplePeer,
    .act 3 (.lockJoin [0, 1, 2]), .act 3 .sendJoin, .connect "192.0.2.7" samplePeer,
    .act 4 (.lockJoin [0, 1, 2, 3]), .act 4 .sendJoin]

theorem waits_for_itself :
    ∃ s, Reach (Server.step ⟨10, 1000⟩) .init s ∧ WaitsForItself s 0 := by
  obtain ⟨s, hexec, hs⟩ := exists_of_exec_any (Server.step ⟨10, 1000⟩) .init fourOthers
    (fun s => (s.handlers[0]?).any (fun h => h.phase = .joining [] []) ∧ s.hasPlace 0 = false)
    (by decide +kernel)
  simp only [decide_eq_true_eq, Option.any_eq_true] at hs
  obtain ⟨⟨h, hh, hphase⟩, hfull⟩ := hs
  exact ⟨s, reach_of_exec hexec, h, [], hh, by simpa using hphase, hfull⟩

end FireBoxTransfer.Signaling
