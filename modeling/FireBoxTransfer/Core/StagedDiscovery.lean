import FireBoxTransfer.Core.ScanRuns
import FireBoxTransfer.Framework.Progress
import FireBoxTransfer.Framework.TaskPool
import Mathlib.Data.Nat.ModEq

/-!
# Staged discoveries

A staged discovery scans if nothing was confirmed since it began, and only after every channel
that it knows was probed; its scans are dropped with it. Whatever the application does with the
events, scans and discoveries come to an end once their hosts have answered, and then every
interface can be scanned again.
-/

namespace FireBoxTransfer.Discovery

open Runs

variable {V : Setup}

/-! ## §1  The decision -/

/-- What is known of a staged discovery when there were `n` confirmations. -/
structure Staged.Ok (V : Setup) (n : ℕ) (s : Staged) : Prop where
  client : V.clientOk = true
  start : s.start ≤ n
  seen : s.seen = BitVec.ofNat 64 s.start
  takes : s.probes.Takes scanConcurrency s.known
  done : s.stage ≠ .probing → s.probes.isDone = true
  decided : ∀ escalated m, s.decision = some (escalated, m) →
    s.start ≤ m ∧ m ≤ n ∧ (escalated = true ↔ 2 ^ 64 ∣ m - s.start) ∧ s.stage ≠ .probing
  scanning : s.stage = .scanning → ∃ m, s.decision = some (true, m)

theorem Staged.Ok.mono {n n' : ℕ} {s : Staged} (h : s.Ok V n) (hn : n ≤ n') : s.Ok V n' where
  client := h.client
  start := Nat.le_trans h.start hn
  seen := h.seen
  takes := h.takes
  done := h.done
  decided escalated m hm := by
    obtain ⟨hstart, hle, hiff⟩ := h.decided escalated m hm
    exact ⟨hstart, Nat.le_trans hle hn, hiff⟩
  scanning := h.scanning

theorem ofNat_eq_iff {m n : ℕ} (h : m ≤ n) :
    BitVec.ofNat 64 n = BitVec.ofNat 64 m ↔ 2 ^ 64 ∣ n - m := by
  rw [← BitVec.toNat_inj, BitVec.toNat_ofNat, BitVec.toNat_ofNat]
  exact eq_comm.trans (Nat.modEq_iff_dvd' h)

/-- The counter is the same if nothing was confirmed since, or `2 ^ 64` devices were. -/
theorem Staged.Ok.seen_iff {p : DiscoveryState} {s : Staged} (h : s.Ok V p.found.length)
    (hp : Inv V p) : p.confirmations = s.seen ↔ 2 ^ 64 ∣ p.found.length - s.start := by
  rw [hp.confirmations, h.seen]
  exact ofNat_eq_iff h.start

/-! ## §2  Scans of a discovery -/

/-- A scan that a discovery started runs only while the discovery does. -/
def Owned (p : DiscoveryState) : Prop :=
  ∀ scan ∈ p.scans, ∀ j, scan.owner = some j → ∃ s, p.staged[j]? = some s ∧
    s.stage = .scanning ∧ (scan.phase = .running → s.phase = .running)

/-- What holds of the staged discoveries in every run. -/
structure StagedInv (V : Setup) (p : DiscoveryState) : Prop where
  inv : Inv V p
  ok : ∀ (j : ℕ) (s : Staged), p.staged[j]? = some s → s.Ok V p.found.length
  owned : Owned p

section Operations

variable {p p' : DiscoveryState} {j : ℕ} {s s' : Staged}

theorem Grown.length_le (h : Grown p p') : p.found.length ≤ p'.found.length := by
  obtain ⟨more, hmore⟩ := h.found
  rw [hmore, List.length_append]
  exact Nat.le_add_right _ _

theorem StagedInv.grow (h : StagedInv V p) (hgrown : Grown p p') (hinv : Inv V p') :
    StagedInv V p' where
  inv := hinv
  ok j s hj := by
    rw [hgrown.staged] at hj
    exact (h.ok j s hj).mono hgrown.length_le
  owned := by
    unfold Owned
    rw [hgrown.scans, hgrown.staged]
    exact h.owned

theorem Owned.setProbes {k : ℕ} {scan : Scan} (h : Owned p) (hk : p.scans[k]? = some scan)
    (probes : Probes (BitVec 32)) : Owned (p.setProbes k scan probes) := by
  intro v hv j hj
  rcases List.mem_or_eq_of_mem_set hv with hv | rfl
  · exact h v hv j hj
  · exact h scan (List.mem_of_getElem? hk) j hj

/-- A released scan does not run. -/
theorem Owned.release {which : ℕ → Scan → Bool} {phase : RunPhase} (h : Owned p)
    (hphase : phase ≠ .running) : Owned (p.release which phase) := by
  intro v hv j hj
  obtain ⟨k, hk⟩ := List.mem_iff_getElem?.mp hv
  rw [release_getElem?, Option.map_eq_some_iff] at hk
  obtain ⟨scan, hscan, rfl⟩ := hk
  have hmem := List.mem_of_getElem? hscan
  split at hj
  · rename_i hand
    obtain ⟨s, hs, hstage, -⟩ := h scan hmem j hj
    rw [if_pos hand]
    exact ⟨s, hs, hstage, fun hrun => absurd hrun hphase⟩
  · rename_i hnot
    rw [if_neg hnot]
    exact h scan hmem j hj

theorem Owned.setStaged (h : Owned p) (hj : p.staged[j]? = some s)
    (hstage : s.stage = .scanning → s'.stage = .scanning)
    (hphase : ∀ scan ∈ p.scans, scan.owner = some j → scan.phase = .running →
      s'.phase = .running) : Owned (p.setStaged j s') := by
  intro scan hscan i hi
  obtain ⟨v, hv, hscanning, hrun⟩ := h scan hscan i hi
  by_cases hij : i = j
  · subst hij
    obtain rfl := Option.some.inj (hj.symm.trans hv)
    refine ⟨s', List.getElem?_set_self (List.getElem?_eq_some_iff.mp hj).1, hstage hscanning, ?_⟩
    exact hphase scan hscan hi
  · exact ⟨v, (List.getElem?_set_ne (Ne.symm hij)).trans hv, hscanning, hrun⟩

theorem Owned.scanSubnet {owner : Option ℕ} (h : Owned p) (interfaceIp : BitVec 32)
    (port : BitVec 16) (protocol : ProtocolType)
    (howner : ∀ j, owner = some j → ∃ s, p.staged[j]? = some s ∧ s.stage = .scanning ∧
      s.phase = .running) : Owned (p.scanSubnet V interfaceIp port protocol owner) := by
  unfold DiscoveryState.scanSubnet
  split
  · exact h
  · split
    · intro scan hscan j hj
      rcases List.mem_append.mp hscan with hscan | hscan
      · exact h scan hscan j hj
      · obtain rfl := List.mem_singleton.mp hscan
        obtain ⟨s, hs, hstage, hrun⟩ := howner j hj
        exact ⟨s, hs, hstage, fun _ => hrun⟩
    · exact h

theorem scanSubnet_frame (p : DiscoveryState) (interfaceIp : BitVec 32) (port : BitVec 16)
    (protocol : ProtocolType) (owner : Option ℕ) :
    (p.scanSubnet V interfaceIp port protocol owner).staged = p.staged ∧
      (p.scanSubnet V interfaceIp port protocol owner).found = p.found := by
  unfold DiscoveryState.scanSubnet
  split
  · exact ⟨rfl, rfl⟩
  · split
    · exact ⟨rfl, rfl⟩
    · exact ⟨rfl, rfl⟩

theorem scanAll_frame (p : DiscoveryState) (ips : List (BitVec 32)) (port : BitVec 16)
    (protocol : ProtocolType) (owner : Option ℕ) :
    (ips.foldl (fun p ip => p.scanSubnet V ip port protocol owner) p).staged = p.staged ∧
      (ips.foldl (fun p ip => p.scanSubnet V ip port protocol owner) p).found = p.found := by
  induction ips generalizing p with
  | nil => exact ⟨rfl, rfl⟩
  | cons ip ips ih =>
      obtain ⟨hstaged, hfound⟩ := scanSubnet_frame (V := V) p ip port protocol owner
      rw [List.foldl_cons, (ih _).1, (ih _).2]
      exact ⟨hstaged, hfound⟩

theorem Owned.scanAll (h : Owned p) (ips : List (BitVec 32)) (port : BitVec 16)
    (protocol : ProtocolType) (hj : p.staged[j]? = some s) (hstage : s.stage = .scanning)
    (hrun : s.phase = .running) :
    Owned (ips.foldl (fun p ip => p.scanSubnet V ip port protocol (some j)) p) := by
  induction ips generalizing p with
  | nil => exact h
  | cons ip ips ih =>
      refine ih (h.scanSubnet ip port protocol fun i hi => ?_) ?_
      · obtain rfl := Option.some.inj hi
        exact ⟨s, hj, hstage, hrun⟩
      · rw [(scanSubnet_frame p ip port protocol (some j)).1]
        exact hj

theorem mem_scanSubnet (hclient : V.clientOk = true) (p : DiscoveryState)
    (interfaceIp : BitVec 32) (port : BitVec 16) (protocol : ProtocolType) (owner : Option ℕ)
    {ip : BitVec 32} (h : ip ∈ p.scanning ∨ ip = interfaceIp) :
    ip ∈ (p.scanSubnet V interfaceIp port protocol owner).scanning := by
  unfold DiscoveryState.scanSubnet
  split
  · rename_i hmem
    rcases h with h | rfl
    · exact h
    · exact hmem
  · exact List.mem_append.mpr (h.imp_right fun heq => List.mem_singleton.mpr heq)

/-- Every interface is being scanned, if a client can be built. -/
theorem mem_scanAll (hclient : V.clientOk = true) (ips : List (BitVec 32)) (port : BitVec 16)
    (protocol : ProtocolType) (owner : Option ℕ) {ip : BitVec 32}
    (h : ip ∈ p.scanning ∨ ip ∈ ips) :
    ip ∈ (ips.foldl (fun p ip => p.scanSubnet V ip port protocol owner) p).scanning := by
  induction ips generalizing p with
  | nil => exact h.resolve_right List.not_mem_nil
  | cons ip' ips ih =>
      rw [List.mem_cons, ← or_assoc] at h
      exact ih (h.imp_left (mem_scanSubnet hclient p ip' port protocol owner))

theorem StagedInv.setStaged (h : StagedInv V p) (hj : p.staged[j]? = some s)
    (hok : s'.Ok V p.found.length) (hstage : s.stage = .scanning → s'.stage = .scanning)
    (hphase : ∀ scan ∈ p.scans, scan.owner = some j → scan.phase = .running →
      s'.phase = .running) : StagedInv V (p.setStaged j s') where
  inv := h.inv.setStaged j s'
  ok i v hv := by
    by_cases hij : i = j
    · subst hij
      change (p.staged.set i s')[i]? = some v at hv
      rw [List.getElem?_set_self (List.getElem?_eq_some_iff.mp hj).1] at hv
      obtain rfl := Option.some.inj hv
      exact hok
    · exact h.ok i v ((List.getElem?_set_ne (Ne.symm hij)).symm.trans hv)
  owned := h.owned.setStaged hj hstage hphase

end Operations

/-! ## §3  Every run -/

section Steps

variable {p p' : DiscoveryState}

theorem StagedInv.scanSubnet (h : StagedInv V p) (interfaceIp : BitVec 32) (port : BitVec 16)
    (protocol : ProtocolType) : StagedInv V (p.scanSubnet V interfaceIp port protocol none) := by
  obtain ⟨hstaged, hfound⟩ := scanSubnet_frame (V := V) p interfaceIp port protocol none
  refine ⟨h.inv.scanSubnet interfaceIp port protocol none, ?_, ?_⟩
  · rw [hstaged, hfound]
    exact h.ok
  · exact h.owned.scanSubnet interfaceIp port protocol fun j hj => by cases hj

theorem StagedInv.discoverStaged (h : StagedInv V p) (known : List HttpChannel)
    (interfaceIps : List (BitVec 32)) (port : BitVec 16) (protocol : ProtocolType) :
    StagedInv V (p.discoverStaged V known interfaceIps port protocol) := by
  unfold DiscoveryState.discoverStaged
  split
  · rename_i hclient
    refine ⟨⟨h.inv.locked, h.inv.scans, h.inv.devices, h.inv.confirmations⟩, ?_, ?_⟩
    · intro j s hj
      change (p.staged ++ [_])[j]? = some s at hj
      rw [List.getElem?_append] at hj
      split at hj
      · exact h.ok j s hj
      · rw [List.getElem?_singleton] at hj
        split at hj
        · obtain rfl := Option.some.inj hj
          refine ⟨hclient, Nat.le_refl _, h.inv.confirmations, Buffered.takes_ofList _ _,
            fun hne => absurd rfl hne, fun _ _ hm => ?_, fun heq => ?_⟩
          · cases hm
          · cases heq
        · cases hj
    · intro scan hscan j hj
      obtain ⟨s, hs, hrest⟩ := h.owned scan hscan j hj
      refine ⟨s, ?_, hrest⟩
      exact (List.getElem?_append_left (List.getElem?_eq_some_iff.mp hs).1).trans hs
  · exact h

theorem StagedInv.escalate {j : ℕ} {s : Staged} (h : StagedInv V p)
    (hj : p.staged[j]? = some s) (hrun : s.phase = .running) (hstage : s.stage = .grace) :
    StagedInv V (p.escalate V j s) := by
  have hok := h.ok j s hj
  have hdone := hok.done (by rw [hstage]; exact Stage.noConfusion)
  have hdecided : ∀ (escalated : Bool), (escalated = true ↔ p.confirmations = s.seen) →
      ∀ e m, some (escalated, p.found.length) = some (e, m) →
        s.start ≤ m ∧ m ≤ p.found.length ∧ (e = true ↔ 2 ^ 64 ∣ m - s.start) := by
    rintro escalated hiff e m heq
    obtain ⟨rfl, rfl⟩ := Prod.mk.inj (Option.some.inj heq)
    exact ⟨hok.start, Nat.le_refl _, hiff.trans (hok.seen_iff h.inv)⟩
  unfold DiscoveryState.escalate
  split
  · rename_i hseen
    have hset : StagedInv V (p.setStaged j { s with
        stage := .scanning, decision := some (true, p.found.length) }) := by
      refine h.setStaged hj ⟨hok.client, hok.start, hok.seen, hok.takes, fun _ => hdone, ?_,
        fun _ => ⟨_, rfl⟩⟩ (fun _ => rfl) fun _ _ _ _ => hrun
      intro e m hm
      obtain ⟨hstart, hle, hiff⟩ := hdecided true (by simp [hseen]) e m hm
      exact ⟨hstart, hle, hiff, Stage.noConfusion⟩
    obtain ⟨hstaged, hfound⟩ := scanAll_frame (V := V) (p.setStaged j { s with
      stage := .scanning, decision := some (true, p.found.length) }) s.interfaceIps s.port
      s.protocol (some j)
    refine ⟨hset.inv.scanAll _ _ _ _, ?_, hset.owned.scanAll s.interfaceIps s.port s.protocol
      (List.getElem?_set_self (List.getElem?_eq_some_iff.mp hj).1) rfl hrun⟩
    rw [hstaged, hfound]
    exact hset.ok
  · rename_i hseen
    refine h.setStaged hj ⟨hok.client, hok.start, hok.seen, hok.takes, fun _ => hdone, ?_, ?_⟩ ?_ ?_
    · intro e m hm
      obtain ⟨hstart, hle, hiff⟩ := hdecided false (by simp [hseen]) e m hm
      refine ⟨hstart, hle, hiff, ?_⟩
      rw [hstage]
      exact Stage.noConfusion
    · intro heq
      rw [show s.stage = .scanning from heq] at hstage
      cases hstage
    · intro heq
      rw [heq] at hstage
      cases hstage
    · intro scan hscan hscanOwner _
      obtain ⟨v, hv, hscanning, -⟩ := h.owned scan hscan j hscanOwner
      obtain rfl := Option.some.inj (hj.symm.trans hv)
      rw [hscanning] at hstage
      cases hstage

theorem StagedInv.cancel {j : ℕ} {s : Staged} (h : StagedInv V p)
    (hj : p.staged[j]? = some s) :
    StagedInv V ((p.setStaged j { s with phase := .cancelled }).release
      (fun _ scan => scan.owner = some j) .cancelled) := by
  have hlt := (List.getElem?_eq_some_iff.mp hj).1
  have hok := h.ok j s hj
  refine ⟨(h.inv.setStaged j _).release (fun heq => by cases heq) fun heq => (by cases heq), ?_, ?_⟩
  · intro i v hv
    by_cases hij : i = j
    · subst hij
      change (p.staged.set i _)[i]? = some v at hv
      rw [List.getElem?_set_self hlt] at hv
      obtain rfl := Option.some.inj hv
      exact ⟨hok.client, hok.start, hok.seen, hok.takes, hok.done, hok.decided, hok.scanning⟩
    · exact h.ok i v ((List.getElem?_set_ne (Ne.symm hij)).symm.trans hv)
  · intro w hw i hi
    obtain ⟨k, hk⟩ := List.mem_iff_getElem?.mp hw
    rw [release_getElem?, Option.map_eq_some_iff] at hk
    obtain ⟨scan, hscan, rfl⟩ := hk
    have howner : scan.owner = some i := by
      split at hi <;> exact hi
    obtain ⟨v, hv, hscanning, hrun⟩ := h.owned scan (List.mem_of_getElem? hscan) i howner
    by_cases hij : i = j
    · subst hij
      obtain rfl := Option.some.inj (hj.symm.trans hv)
      refine ⟨{ s with phase := .cancelled }, List.getElem?_set_self hlt, hscanning, ?_⟩
      split
      · exact fun heq => by cases heq
      · rename_i hnot
        exact fun heq => absurd ⟨heq, decide_eq_true howner⟩ hnot
    · refine ⟨v, (List.getElem?_set_ne (Ne.symm hij)).trans hv, hscanning, ?_⟩
      split
      · exact fun heq => by cases heq
      · exact hrun

theorem StagedInv.stepped {l : Label} (h : StagedInv V p) (hstep : Stepped V p l p') :
    StagedInv V p' := by
  have hinv := h.inv.stepped hstep
  cases hstep with
  | confirmed c =>
      refine h.grow ?_ hinv
      unfold DiscoveryState.confirmed
      split
      · exact grown_confirmDevice p _
      · exact ⟨⟨[], (List.append_nil _).symm⟩, rfl, rfl, rfl⟩
  | begun interfaceIp port protocol => exact h.scanSubnet interfaceIp port protocol
  | pulled hk _ _ => exact ⟨hinv, h.ok, h.owned.setProbes hk _⟩
  | @answered k i scan ip answer probes hk _ _ _ =>
      have hgrown := grown_probed (V := V) p (hostText ip) scan.port scan.protocol answer
      have hprobed := h.grow hgrown (h.inv.probed _ _ _ answer)
      refine ⟨hinv, hprobed.ok, hprobed.owned.setProbes ?_ probes⟩
      rw [hgrown.scans]
      exact hk
  | ended _ _ _ => exact ⟨hinv, h.ok, h.owned.release fun heq => by cases heq⟩
  | dropped _ _ _ => exact ⟨hinv, h.ok, h.owned.release fun heq => by cases heq⟩
  | begunStaged known interfaceIps port protocol =>
      exact h.discoverStaged known interfaceIps port protocol
  | @pulledKnown j s probes hj hrun hstage hpull =>
      have hok := h.ok j s hj
      exact h.setStaged hj ⟨hok.client, hok.start, hok.seen, hok.takes.pull hpull,
        fun hne => absurd hstage hne, hok.decided, hok.scanning⟩ (fun heq => heq)
        fun _ _ _ _ => hrun
  | @answeredKnown j i s channel answer probes hj hrun hstage hchannel hfinish =>
      have hgrown := grown_probed (V := V) p channel.host channel.port channel.protocol answer
      have hprobed := h.grow hgrown (h.inv.probed _ _ _ answer)
      have hj' := (congrArg (·[j]?) hgrown.staged).trans hj
      have hok := hprobed.ok j s hj'
      exact hprobed.setStaged hj' ⟨hok.client, hok.start, hok.seen, hok.takes.finish hfinish,
        fun hne => absurd hstage hne, hok.decided, hok.scanning⟩ (fun heq => heq)
        fun _ _ _ _ => hrun
  | @probedKnown j s hj hrun hstage hdone =>
      have hok := h.ok j s hj
      refine h.setStaged hj ⟨hok.client, hok.start, hok.seen, hok.takes, fun _ => hdone, ?_,
        fun heq => by cases heq⟩ (fun heq => ?_) fun _ _ _ _ => hrun
      · intro e m hm
        exact absurd hstage (hok.decided e m hm).2.2.2
      · rw [heq] at hstage
        cases hstage
  | elapsed hj hrun hstage => exact h.escalate hj hrun hstage
  | @endedStaged j s hj hrun hstage hnone =>
      have hok := h.ok j s hj
      exact h.setStaged hj ⟨hok.client, hok.start, hok.seen, hok.takes, hok.done, hok.decided,
        hok.scanning⟩ (fun heq => heq) fun scan hscan howner hrunning =>
          absurd howner (hnone scan hscan hrunning)
  | droppedStaged hj _ => exact h.cancel hj
  | received _ => exact ⟨hinv, h.ok, h.owned⟩

end Steps

theorem stagedInv_of_reach {listens : Bool} {p : DiscoveryState}
    (h : Reach (step V) (.init listens) p) : StagedInv V p := by
  refine h.invariant (I := StagedInv V) ⟨.init listens, fun j s hj => ?_, fun _ hscan => ?_⟩
    fun _ _ _ hp _ hstep => hp.stepped (step_stepped hstep)
  · exact absurd hj (by simp [DiscoveryState.init])
  · exact absurd hscan List.not_mem_nil

/-- A staged discovery decides once every channel that it knows was probed, once, and goes on to
scan if nothing was confirmed since it began (or `2 ^ 64` devices were). Then every one of its
interfaces is being scanned. Only then it has scans, and they run only while it does. -/
theorem staged_escalates (listens : Bool) (p : DiscoveryState)
    (h : Reach (step V) (.init listens) p) :
    (∀ (j : ℕ) (s : Staged), p.staged[j]? = some s → ∀ escalated n,
      s.decision = some (escalated, n) →
        s.start ≤ n ∧ n ≤ p.found.length ∧ (escalated = true ↔ 2 ^ 64 ∣ n - s.start) ∧
          s.known.Perm (s.probes.done.map Prod.fst)) ∧
    (∀ scan ∈ p.scans, ∀ j, scan.owner = some j → ∃ s n, p.staged[j]? = some s ∧
      s.decision = some (true, n) ∧ (scan.phase = .running → s.phase = .running)) ∧
    ∀ (j : ℕ) (s : Staged) (p' : DiscoveryState), p.staged[j]? = some s →
      step V p (.staged j .elapsed) = some p' →
      2 ^ 64 ∣ p.found.length - s.start → ∀ ip ∈ s.interfaceIps, ip ∈ p'.scanning := by
  have hp := stagedInv_of_reach h
  refine ⟨fun j s hj escalated n hn => ?_, fun scan hscan j hj => ?_, ?_⟩
  · have hok := hp.ok j s hj
    obtain ⟨hstart, hle, hiff, hstage⟩ := hok.decided escalated n hn
    exact ⟨hstart, hle, hiff, hok.takes.perm_done (hok.done hstage)⟩
  · obtain ⟨s, hs, hstage, hrun⟩ := hp.owned scan hscan j hj
    obtain ⟨n, hn⟩ := (hp.ok j s hs).scanning hstage
    exact ⟨s, n, hs, hn, hrun⟩
  · intro j s p' hj hstep hnone ip hip
    have hok := hp.ok j s hj
    cases step_stepped hstep with
    | elapsed hj' _ _ =>
        obtain rfl := Option.some.inj (hj.symm.trans hj')
        unfold DiscoveryState.escalate
        rw [if_pos ((hok.seen_iff hp.inv).mpr hnone)]
        exact mem_scanAll hok.client s.interfaceIps s.port s.protocol (some j) (.inr hip)

/-- The channel that is known gives no answer, and nobody else does. -/
def Sample.unanswered : List Label :=
  [.discoverStaged [⟨"10.0.0.2", 53317, .https⟩] [0x0a000001] 53317 .https, .staged 0 .pull,
    .staged 0 (.answer 0 none), .staged 0 .probed, .staged 0 .elapsed]

theorem unanswered_escalates : ∃ p,
    exec (step Sample.laptopSetup) (.init false) Sample.unanswered = some p ∧
      p.scans.map Scan.owner = [some 0] ∧
      ∀ scan ∈ p.scans, ∀ j, scan.owner = some j → ∃ s n, p.staged[j]? = some s ∧
        s.decision = some (true, n) ∧ (scan.phase = .running → s.phase = .running) := by
  obtain ⟨p, hexec, hp⟩ := exists_of_exec_any (step Sample.laptopSetup) (.init false)
    Sample.unanswered (fun p => p.scans.map Scan.owner = [some 0]) (by decide)
  exact ⟨p, hexec, of_decide_eq_true hp, (staged_escalates false p (reach_of_exec hexec)).2.1⟩

/-! ## §4  The steps that are left -/

/-- What scans and discoveries do once their hosts have answered. -/
def Label.isOwn : Label → Bool
  | .scan _ .pull | .scan _ (.answer _ _) | .scan _ .finish => true
  | .staged _ .cancel => false
  | .staged _ _ => true
  | _ => false

def Scan.work (scan : Scan) : ℕ := if scan.phase = .running then scan.probes.work + 1 else 0

/-- No scan has more to do than this. -/
def scanBound : ℕ := 513

def Staged.work (s : Staged) : ℕ :=
  if s.phase = .running then
    match s.stage with
    | .probing => s.probes.work + 3 + scanBound * s.interfaceIps.length
    | .grace => 2 + scanBound * s.interfaceIps.length
    | .scanning => 1
  else 0

/-- A bound on those steps. -/
def DiscoveryState.work (p : DiscoveryState) : ℕ :=
  (p.scans.map Scan.work).sum + (p.staged.map Staged.work).sum

section Work

variable {p p' : DiscoveryState}

theorem hosts_length_le (interfaceIp : BitVec 32) : (hosts interfaceIp).length ≤ 256 := by
  refine Nat.le_trans (List.length_filter_le _ _) ?_
  rw [List.length_map, List.length_range]

theorem work_setStaged {j : ℕ} {s s' : Staged} (hj : p.staged[j]? = some s)
    (hlt : s'.work < s.work) : (p.setStaged j s').work < p.work := by
  have hsum := TaskPool.sum_map_set Staged.work s' hj
  unfold DiscoveryState.work
  change (p.scans.map Scan.work).sum + ((p.staged.set j s').map Staged.work).sum < _
  omega

theorem work_setProbes {k : ℕ} {scan : Scan} {probes : Probes (BitVec 32)}
    (hk : p.scans[k]? = some scan) (hrun : scan.phase = .running)
    (hlt : probes.work < scan.probes.work) : (p.setProbes k scan probes).work < p.work := by
  have hsum := TaskPool.sum_map_set Scan.work { scan with probes } hk
  have hscan : Scan.work { scan with probes } < scan.work := by
    unfold Scan.work
    rw [if_pos hrun, if_pos hrun]
    exact Nat.succ_lt_succ hlt
  unfold DiscoveryState.work
  change ((p.scans.set k { scan with probes }).map Scan.work).sum +
    (p.staged.map Staged.work).sum < _
  omega

theorem work_grown (h : Grown p p') : p'.work = p.work := by
  unfold DiscoveryState.work
  rw [h.scans, h.staged]

theorem scans_release_one {k : ℕ} {scan : Scan} {phase : RunPhase} (hk : p.scans[k]? = some scan)
    (hrun : scan.phase = .running) :
    (p.release (fun i _ => i = k) phase).scans = p.scans.set k { scan with phase } := by
  refine List.ext_getElem? fun i => ?_
  rw [release_getElem?]
  by_cases hi : i = k
  · subst hi
    rw [hk, List.getElem?_set_self (List.getElem?_eq_some_iff.mp hk).1, Option.map_some,
      if_pos ⟨hrun, decide_eq_true rfl⟩]
  · rw [List.getElem?_set_ne (Ne.symm hi)]
    have hsame : (fun v : Scan => if v.phase = .running ∧ decide (i = k) = true then
        { v with phase } else v) = id := by
      funext v
      exact if_neg fun hand => hi (of_decide_eq_true hand.2)
    rw [hsame, Option.map_id, id]

theorem work_scanSubnet (p : DiscoveryState) (interfaceIp : BitVec 32) (port : BitVec 16)
    (protocol : ProtocolType) (owner : Option ℕ) :
    (p.scanSubnet V interfaceIp port protocol owner).work ≤ p.work + scanBound := by
  unfold DiscoveryState.scanSubnet
  split
  · exact Nat.le_add_right _ _
  · split
    · have hhosts := hosts_length_le interfaceIp
      unfold DiscoveryState.work scanBound
      dsimp only
      rw [List.map_append, List.sum_append]
      change _ + (2 * (hosts interfaceIp).length + 0 + 1 + 0) + _ ≤ _
      omega
    · exact Nat.le_add_right _ _

theorem work_scanAll (p : DiscoveryState) (ips : List (BitVec 32)) (port : BitVec 16)
    (protocol : ProtocolType) (owner : Option ℕ) :
    (ips.foldl (fun p ip => p.scanSubnet V ip port protocol owner) p).work ≤
      p.work + scanBound * ips.length := by
  induction ips generalizing p with
  | nil => exact Nat.le_refl _
  | cons ip ips ih =>
      have hrest := ih (p.scanSubnet V ip port protocol owner)
      have hone := work_scanSubnet (V := V) p ip port protocol owner
      rw [List.foldl_cons, List.length_cons, Nat.mul_succ]
      omega

theorem work_escalate {j : ℕ} {s : Staged} (hj : p.staged[j]? = some s)
    (hrun : s.phase = .running) (hstage : s.stage = .grace) :
    (p.escalate V j s).work < p.work := by
  have hbefore : s.work = 2 + scanBound * s.interfaceIps.length := by
    unfold Staged.work
    rw [if_pos hrun, hstage]
  unfold DiscoveryState.escalate
  split
  · have hall := work_scanAll (V := V) (p.setStaged j { s with
      stage := .scanning, decision := some (true, p.found.length) }) s.interfaceIps s.port
      s.protocol (some j)
    have hafter : Staged.work { s with
        stage := .scanning, decision := some (true, p.found.length) } = 1 := by
      unfold Staged.work
      rw [if_pos hrun]
    have hsum := TaskPool.sum_map_set Staged.work { s with
      stage := .scanning, decision := some (true, p.found.length) } hj
    have hset : (p.setStaged j { s with
        stage := .scanning, decision := some (true, p.found.length) }).work + s.work =
          p.work + 1 := by
      unfold DiscoveryState.work
      change (p.scans.map Scan.work).sum + ((p.staged.set j _).map Staged.work).sum + s.work = _
      omega
    omega
  · refine work_setStaged hj ?_
    rw [hbefore]
    exact Nat.lt_of_lt_of_le Nat.zero_lt_two (Nat.le_add_right _ _)

theorem work_stepped {l : Label} (hl : l.isOwn = true) (h : Stepped V p l p') :
    p'.work < p.work := by
  cases h with
  | pulled hk hrun hpull => exact work_setProbes hk hrun (Buffered.work_pull hpull)
  | @answered k i scan ip answer probes hk hrun hip hfinish =>
      have hgrown := grown_probed (V := V) p (hostText ip) scan.port scan.protocol answer
      rw [← work_grown hgrown]
      refine work_setProbes ?_ hrun (Buffered.work_finish hfinish)
      rw [hgrown.scans]
      exact hk
  | @ended k scan hk hrun hdone =>
      have hsum := TaskPool.sum_map_set Scan.work { scan with phase := .finished } hk
      have hafter : Scan.work { scan with phase := .finished } = 0 := rfl
      have hbefore : 0 < scan.work := by
        unfold Scan.work
        rw [if_pos hrun]
        exact Nat.succ_pos _
      unfold DiscoveryState.work
      rw [scans_release_one hk hrun]
      change _ + (p.staged.map Staged.work).sum < _
      omega
  | @pulledKnown j s probes hj hrun hstage hpull =>
      have hlt := Buffered.work_pull hpull
      refine work_setStaged hj ?_
      unfold Staged.work
      simp only [hrun, hstage, if_pos]
      omega
  | @answeredKnown j i s channel answer probes hj hrun hstage hchannel hfinish =>
      have hgrown := grown_probed (V := V) p channel.host channel.port channel.protocol answer
      have hlt := Buffered.work_finish hfinish
      rw [← work_grown hgrown]
      refine work_setStaged ((congrArg (·[j]?) hgrown.staged).trans hj) ?_
      unfold Staged.work
      simp only [hrun, hstage, if_pos]
      omega
  | @probedKnown j s hj hrun hstage hdone =>
      refine work_setStaged hj ?_
      unfold Staged.work
      simp only [hrun, hstage, if_pos]
      omega
  | elapsed hj hrun hstage => exact work_escalate hj hrun hstage
  | @endedStaged j s hj hrun hstage hnone =>
      refine work_setStaged hj ?_
      unfold Staged.work
      simp only [hrun, hstage, if_pos]
      exact Nat.zero_lt_one
  | confirmed _ | begun _ _ _ | dropped _ _ _ | begunStaged _ _ _ _ | droppedStaged _ _
  | received _ => cases hl

end Work

/-! ## §5  At rest -/

/-- No scan and no discovery has anything to do. -/
def AtRest (V : Setup) (p : DiscoveryState) : Prop :=
  ∀ l : Label, l.isOwn = true → step V p l = none

section Rest

variable {p : DiscoveryState}

theorem AtRest.not_running (h : AtRest V p) {k : ℕ} {scan : Scan}
    (hk : p.scans[k]? = some scan) : scan.phase ≠ .running := by
  intro hrun
  have hrunning := running?_eq_some.mpr ⟨hk, hrun⟩
  have hact : ∀ a, (Label.scan k a).isOwn = true → p.scanStep V k scan a = none := by
    intro a ha
    have hstep : ((p.running? k).bind fun scan => p.scanStep V k scan a) = none :=
      h (.scan k a) ha
    rwa [hrunning] at hstep
  have hpull := Option.map_eq_none_iff.mp (hact .pull rfl)
  have hactive : scan.probes.active[0]? = none := by
    refine Option.eq_none_iff_forall_ne_some.mpr fun ip hip => ?_
    have hanswer := hact (.answer 0 none) rfl
    unfold DiscoveryState.scanStep at hanswer
    dsimp only at hanswer
    rw [hip, Option.bind_some, Option.map_eq_none_iff, Buffered.finish, hip] at hanswer
    cases hanswer
  have hdone := Buffered.isDone_of_stuck (by decide) hpull hactive
  have hfinish := hact .finish rfl
  unfold DiscoveryState.scanStep at hfinish
  dsimp only at hfinish
  rw [if_pos hdone] at hfinish
  cases hfinish

theorem AtRest.staged_not_running (h : AtRest V p) {j : ℕ} {s : Staged}
    (hj : p.staged[j]? = some s) : s.phase ≠ .running := by
  intro hrun
  have hrunning := runningStaged?_eq_some.mpr ⟨hj, hrun⟩
  have hact : ∀ a, (Label.staged j a).isOwn = true → p.stagedStep V j s a = none := by
    intro a ha
    have hstep : ((p.runningStaged? j).bind fun s => p.stagedStep V j s a) = none :=
      h (.staged j a) ha
    rwa [hrunning] at hstep
  cases hstage : s.stage with
  | probing =>
      have hpull := hact .pull rfl
      unfold DiscoveryState.stagedStep at hpull
      dsimp only at hpull
      rw [if_pos hstage, Option.map_eq_none_iff] at hpull
      have hactive : s.probes.active[0]? = none := by
        refine Option.eq_none_iff_forall_ne_some.mpr fun channel hchannel => ?_
        have hanswer := hact (.answer 0 none) rfl
        unfold DiscoveryState.stagedStep at hanswer
        dsimp only at hanswer
        rw [if_pos hstage, hchannel, Option.bind_some, Option.map_eq_none_iff, Buffered.finish,
          hchannel] at hanswer
        cases hanswer
      have hdone := Buffered.isDone_of_stuck (by decide) hpull hactive
      have hprobed := hact .probed rfl
      unfold DiscoveryState.stagedStep at hprobed
      dsimp only at hprobed
      rw [if_pos ⟨hstage, hdone⟩] at hprobed
      cases hprobed
  | grace =>
      have helapsed := hact .elapsed rfl
      unfold DiscoveryState.stagedStep at helapsed
      dsimp only at helapsed
      rw [if_pos hstage] at helapsed
      cases helapsed
  | scanning =>
      have hfinish := hact .finish rfl
      unfold DiscoveryState.stagedStep at hfinish
      dsimp only at hfinish
      have hnone : ∀ scan ∈ p.scans, scan.phase = .running → scan.owner ≠ some j := by
        intro scan hscan hrunning
        obtain ⟨k, hk⟩ := List.mem_iff_getElem?.mp hscan
        exact absurd hrunning (h.not_running hk)
      rw [if_pos ⟨hstage, hnone⟩] at hfinish
      cases hfinish

theorem AtRest.scanning (h : AtRest V p) (hp : Inv V p) : p.scanning = [] := by
  refine List.eq_nil_iff_forall_not_mem.mpr fun ip hip => ?_
  obtain ⟨k, hk⟩ := (hp.locked.mem ip).mp hip
  obtain ⟨scan, hscan, hrun, -⟩ := runningIp_eq_some.mp hk
  exact h.not_running hscan hrun

end Rest

/-- Whether the application takes events or not: scans and staged discoveries take a bounded
number of steps, hosts that answer late included, and come to an end; then no interface is held,
and a scan of any of them starts. -/
theorem scans_resolved (listens : Bool) (p : DiscoveryState)
    (h : Reach (step V) (.init listens) p) :
    (∀ ls p', (∀ l ∈ ls, Label.isOwn l = true) → exec (step V) p ls = some p' →
      ls.length ≤ p.work) ∧
    (∃ ls p', (∀ l ∈ ls, Label.isOwn l = true) ∧ exec (step V) p ls = some p' ∧ AtRest V p') ∧
    (AtRest V p → (∀ scan ∈ p.scans, scan.phase ≠ .running) ∧
      (∀ s ∈ p.staged, s.phase ≠ .running) ∧ p.scanning = [] ∧
      ∀ interfaceIp port protocol, V.clientOk = true →
        (p.scanSubnet V interfaceIp port protocol none).scans = p.scans ++
          [⟨interfaceIp, port, protocol, none, .ofList (hosts interfaceIp), .running⟩]) := by
  have hp := stagedInv_of_reach h
  have keeps : ∀ s l t, StagedInv V s → step V s l = some t → StagedInv V t :=
    fun _ _ _ hs hstep => hs.stepped (step_stepped hstep)
  have own : ∀ s l t, StagedInv V s → Label.isOwn l = true → step V s l = some t →
      t.work < s.work := fun _ _ _ _ hl hstep => work_stepped hl (step_stepped hstep)
  refine ⟨fun ls p' hls hexec => length_le_of_own keeps own hp hls hexec,
    exists_exec_stuck keeps own hp, fun hrest => ⟨fun scan hscan => ?_, fun s hs => ?_,
    hrest.scanning hp.inv, fun interfaceIp port protocol hclient => ?_⟩⟩
  · obtain ⟨k, hk⟩ := List.mem_iff_getElem?.mp hscan
    exact hrest.not_running hk
  · obtain ⟨j, hj⟩ := List.mem_iff_getElem?.mp hs
    exact hrest.staged_not_running hj
  · unfold DiscoveryState.scanSubnet
    rw [hrest.scanning hp.inv, if_neg List.not_mem_nil, if_pos hclient]

theorem unanswered_resolved : ∃ p,
    exec (step Sample.laptopSetup) (.init false) Sample.unanswered = some p ∧
      p.scans.map Scan.owner = [some 0] ∧
      ∃ ls p', (∀ l ∈ ls, Label.isOwn l = true) ∧
        exec (step Sample.laptopSetup) p ls = some p' ∧ AtRest Sample.laptopSetup p' := by
  obtain ⟨p, hexec, hp⟩ := exists_of_exec_any (step Sample.laptopSetup) (.init false)
    Sample.unanswered (fun p => p.scans.map Scan.owner = [some 0]) (by decide)
  exact ⟨p, hexec, of_decide_eq_true hp, (scans_resolved false p (reach_of_exec hexec)).2.1⟩

end FireBoxTransfer.Discovery
