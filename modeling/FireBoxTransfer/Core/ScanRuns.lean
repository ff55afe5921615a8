import FireBoxTransfer.Core.DeviceStore
import FireBoxTransfer.Core.SubnetScans
import FireBoxTransfer.Framework.Runs

/-!
# What scans do

The set of interfaces that are being scanned is that of the running scans, and no two of them
have the same interface. A scan that runs to its end has probed every other host of the subnet
once, and what it gives are devices that answered on the host they are listed for.
-/

namespace FireBoxTransfer.Discovery

open Runs

variable {V : Setup}

/-! ## §1  Interfaces -/

/-- The interface of a scan that runs. -/
def runningIp (scans : List Scan) (k : ℕ) : Option (BitVec 32) :=
  (scans[k]?.filter fun scan => scan.phase = .running).map Scan.interfaceIp

theorem runningIp_eq_some {scans : List Scan} {k : ℕ} {ip : BitVec 32} :
    runningIp scans k = some ip ↔
      ∃ scan, scans[k]? = some scan ∧ scan.phase = .running ∧ scan.interfaceIp = ip := by
  unfold runningIp
  simp only [Option.map_eq_some_iff, Option.filter_eq_some_iff, decide_eq_true_eq, and_assoc]

/-- Scans have an interface of their own, and the set has those. -/
structure Locked (scanning : List (BitVec 32)) (f : ℕ → Option (BitVec 32)) : Prop where
  mem : ∀ ip, ip ∈ scanning ↔ ∃ k, f k = some ip
  alone : ∀ k k' ip, f k = some ip → f k' = some ip → k = k'

theorem locked_nil : Locked [] (runningIp []) where
  mem ip := by simp [runningIp]
  alone k k' ip h := by simp [runningIp] at h

section Scans

variable {scanning : List (BitVec 32)} {scans : List Scan} {k : ℕ} {scan : Scan}

theorem runningIp_set (hk : scans[k]? = some scan) (probes : Probes (BitVec 32)) :
    runningIp (scans.set k { scan with probes }) = runningIp scans := by
  funext j
  unfold runningIp
  by_cases hj : j = k
  · subst hj
    rw [List.getElem?_set_self (List.getElem?_eq_some_iff.mp hk).1, hk]
    simp [Option.filter]
  · rw [List.getElem?_set_ne (Ne.symm hj)]

theorem Locked.begin (h : Locked scanning (runningIp scans)) (scan : Scan)
    (hphase : scan.phase = .running) (hnew : scan.interfaceIp ∉ scanning) :
    Locked (scanning ++ [scan.interfaceIp]) (runningIp (scans ++ [scan])) := by
  have hold : ∀ j ip, runningIp (scans ++ [scan]) j = some ip ↔
      runningIp scans j = some ip ∨ (j = scans.length ∧ ip = scan.interfaceIp) := by
    intro j ip
    rw [runningIp_eq_some, runningIp_eq_some]
    by_cases hj : j < scans.length
    · rw [List.getElem?_append_left hj]
      exact ⟨.inl, fun hor => hor.resolve_right fun hand => by omega⟩
    · have hnone : scans[j]? = none := List.getElem?_eq_none (by omega)
      rw [List.getElem?_append_right (by omega), List.getElem?_singleton, hnone]
      constructor
      · rintro ⟨v, hv, hrun, rfl⟩
        split at hv
        · obtain rfl := Option.some.inj hv
          exact .inr ⟨by omega, rfl⟩
        · cases hv
      · rintro (⟨v, hv, -⟩ | ⟨rfl, rfl⟩)
        · cases hv
        · exact ⟨scan, by simp, hphase, rfl⟩
  refine ⟨fun ip => ?_, fun j j' ip hj hj' => ?_⟩
  · rw [List.mem_append, List.mem_singleton, h.mem]
    constructor
    · rintro (⟨j, hj⟩ | rfl)
      · exact ⟨j, (hold j ip).mpr (.inl hj)⟩
      · exact ⟨scans.length, (hold _ _).mpr (.inr ⟨rfl, rfl⟩)⟩
    · rintro ⟨j, hj⟩
      exact ((hold j ip).mp hj).imp (fun h => ⟨j, h⟩) fun h => h.2
  · have hother : ∀ j, runningIp scans j = some scan.interfaceIp → False :=
      fun j hj => hnew ((h.mem _).mpr ⟨j, hj⟩)
    rcases (hold j ip).mp hj with hj | ⟨rfl, rfl⟩
    · rcases (hold j' ip).mp hj' with hj' | ⟨rfl, rfl⟩
      · exact h.alone j j' ip hj hj'
      · exact (hother j hj).elim
    · rcases (hold j' _).mp hj' with hj' | ⟨rfl, -⟩
      · exact (hother j' hj').elim
      · rfl

end Scans

section Release

variable {p : DiscoveryState} {which : ℕ → Scan → Bool} {phase : RunPhase}

theorem release_getElem? (k : ℕ) : (p.release which phase).scans[k]? =
    p.scans[k]?.map fun scan =>
      if scan.phase = .running ∧ which k scan = true then { scan with phase } else scan :=
  List.getElem?_mapIdx

theorem mem_release {ip : BitVec 32} : ip ∈ (p.release which phase).scanning ↔
    ip ∈ p.scanning ∧ ¬ ∃ k scan, p.scans[k]? = some scan ∧ scan.phase = .running ∧
      which k scan = true ∧ scan.interfaceIp = ip := by
  change ip ∈ p.scanning.filter _ ↔ _
  rw [List.mem_filter, Bool.not_eq_true', Bool.eq_false_iff, ne_eq, List.any_eq_true]
  refine and_congr_right fun _ => not_congr ⟨?_, ?_⟩
  · rintro ⟨b, hmem, hb⟩
    obtain ⟨k, hk⟩ := List.mem_iff_getElem?.mp hmem
    rw [List.getElem?_mapIdx, Option.map_eq_some_iff] at hk
    obtain ⟨scan, hscan, rfl⟩ := hk
    simp only [id_eq, Bool.and_eq_true, decide_eq_true_eq] at hb
    exact ⟨k, scan, hscan, hb.1.1, hb.1.2, hb.2⟩
  · rintro ⟨k, scan, hscan, hrun, hwhich, hip⟩
    refine ⟨true, List.mem_iff_getElem?.mpr ⟨k, ?_⟩, rfl⟩
    rw [List.getElem?_mapIdx, hscan, Option.map_some]
    simp [hrun, hwhich, hip]

theorem Locked.release (h : Locked p.scanning (runningIp p.scans)) (hphase : phase ≠ .running) :
    Locked (p.release which phase).scanning (runningIp (p.release which phase).scans) := by
  have hleft : ∀ k ip, runningIp (p.release which phase).scans k = some ip ↔
      ∃ scan, p.scans[k]? = some scan ∧ scan.phase = .running ∧ scan.interfaceIp = ip ∧
        which k scan = false := by
    intro k ip
    rw [runningIp_eq_some]
    constructor
    · rintro ⟨v, hv, hrun, hip⟩
      rw [release_getElem?, Option.map_eq_some_iff] at hv
      obtain ⟨scan, hscan, rfl⟩ := hv
      split at hrun
      · exact absurd hrun hphase
      · rename_i hnot
        rw [if_neg hnot] at hip
        refine ⟨scan, hscan, hrun, hip, ?_⟩
        exact Bool.eq_false_iff.mpr fun hwhich => hnot ⟨hrun, hwhich⟩
    · rintro ⟨scan, hscan, hrun, hip, hwhich⟩
      refine ⟨scan, ?_, hrun, hip⟩
      rw [release_getElem?, hscan, Option.map_some, if_neg]
      rw [hwhich]
      exact fun hand => Bool.false_ne_true hand.2
  have hbefore : ∀ k ip, runningIp (p.release which phase).scans k = some ip →
      runningIp p.scans k = some ip := by
    intro k ip hk
    obtain ⟨scan, hscan, hrun, hip, -⟩ := (hleft k ip).mp hk
    exact runningIp_eq_some.mpr ⟨scan, hscan, hrun, hip⟩
  refine ⟨fun ip => ?_, fun k k' ip hk hk' =>
    h.alone k k' ip (hbefore k ip hk) (hbefore k' ip hk')⟩
  rw [mem_release, h.mem]
  constructor
  · rintro ⟨⟨k, hk⟩, hnone⟩
    obtain ⟨scan, hscan, hrun, hip⟩ := runningIp_eq_some.mp hk
    refine ⟨k, (hleft k ip).mpr ⟨scan, hscan, hrun, hip, ?_⟩⟩
    exact Bool.eq_false_iff.mpr fun hwhich => hnone ⟨k, scan, hscan, hrun, hwhich, hip⟩
  · rintro ⟨k, hk⟩
    refine ⟨⟨k, hbefore k ip hk⟩, ?_⟩
    rintro ⟨k', scan', hscan', hrun', hwhich', hip'⟩
    obtain ⟨scan, hscan, -, -, hwhich⟩ := (hleft k ip).mp hk
    have hsame := h.alone k k' ip (hbefore k ip hk)
      (runningIp_eq_some.mpr ⟨scan', hscan', hrun', hip'⟩)
    subst hsame
    obtain rfl := Option.some.inj (hscan.symm.trans hscan')
    rw [hwhich] at hwhich'
    cases hwhich'

end Release

/-! ## §2  Probes -/

/-- Devices are given as they were confirmed, for the channels that were probed. -/
def Answered (V : Setup) (found : List DiscoveredDevice) {α : Type} (channel : α → HttpChannel)
    (probes : Probes α) : Prop :=
  ∀ x d, (x, some d) ∈ probes.done →
    d.device ∈ found ∧ d.device.fingerprint ≠ V.env.fingerprint ∧
      d.device.channel = .http (channel x)

theorem upsert_device (devices : List StatefulDevice) (device : DiscoveredDevice) :
    (upsert devices device).2.2.device = device := by
  unfold upsert
  split
  · split <;> rfl
  · rfl

theorem probe_some {E : Env} {host : String} {port : BitVec 16} {protocol : ProtocolType}
    {answer : HostAnswer} {device : DiscoveredDevice}
    (h : probe E host port protocol answer = some device) :
    device.fingerprint ≠ E.fingerprint ∧ device.channel = .http ⟨host, port, protocol⟩ := by
  unfold probe at h
  split at h
  · cases h
  · dsimp only at h
    split at h
    · cases h
    · split at h
      · cases h
      · rename_i hown
        obtain rfl := Option.some.inj h
        exact ⟨hown, rfl⟩

/-- A probe changes the store, and what counts with it, only. -/
structure Grown (p p' : DiscoveryState) : Prop where
  found : ∃ more, p'.found = p.found ++ more
  scanning : p'.scanning = p.scanning
  scans : p'.scans = p.scans
  staged : p'.staged = p.staged

theorem grown_confirmDevice (p : DiscoveryState) (device : DiscoveredDevice) :
    Grown p (p.confirmDevice V device) :=
  ⟨⟨[device], rfl⟩, rfl, rfl, rfl⟩

theorem grown_probed (p : DiscoveryState) (host : String) (port : BitVec 16)
    (protocol : ProtocolType) (answer : Option HostAnswer) :
    Grown p (p.probed V host port protocol answer).1 := by
  unfold DiscoveryState.probed
  split
  · exact grown_confirmDevice p _
  · exact ⟨⟨[], (List.append_nil _).symm⟩, rfl, rfl, rfl⟩

theorem probed_some {p : DiscoveryState} {host : String} {port : BitVec 16}
    {protocol : ProtocolType} {answer : Option HostAnswer} {d : StatefulDevice}
    (h : (p.probed V host port protocol answer).2 = some d) :
    d.device ∈ (p.probed V host port protocol answer).1.found ∧
      d.device.fingerprint ≠ V.env.fingerprint ∧
      d.device.channel = .http ⟨host, port, protocol⟩ := by
  unfold DiscoveryState.probed at h ⊢
  split
  · rename_i device hdevice
    rw [hdevice] at h
    obtain rfl := Option.some.inj h
    obtain ⟨a, -, hprobe⟩ := Option.bind_eq_some_iff.mp hdevice
    rw [upsert_device]
    exact ⟨List.mem_append_right _ List.mem_cons_self, probe_some hprobe⟩
  · rename_i hnone
    rw [hnone] at h
    cases h

theorem Answered.grow {α : Type} {channel : α → HttpChannel} {probes : Probes α}
    {p p' : DiscoveryState} (h : Answered V p.found channel probes) (hgrown : Grown p p') :
    Answered V p'.found channel probes := by
  intro x d hd
  obtain ⟨hfound, hrest⟩ := h x d hd
  obtain ⟨more, hmore⟩ := hgrown.found
  exact ⟨hmore ▸ List.mem_append_left more hfound, hrest⟩

theorem Answered.finish {α : Type} {channel : α → HttpChannel} {probes probes' : Probes α}
    {p : DiscoveryState} {answer : Option HostAnswer} {i : ℕ} {x : α}
    (h : Answered V p.found channel probes) (hx : probes.active[i]? = some x)
    (hfinish : probes.finish i (p.probed V (channel x).host (channel x).port
      (channel x).protocol answer).2 = some probes') :
    Answered V (p.probed V (channel x).host (channel x).port (channel x).protocol answer).1.found
      channel probes' := by
  obtain ⟨x', hx', rfl⟩ := Option.map_eq_some_iff.mp hfinish
  obtain rfl := Option.some.inj (hx.symm.trans hx')
  intro y d hd
  rcases List.mem_append.mp hd with hd | hd
  · exact h.grow (grown_probed p _ _ _ answer) y d hd
  · obtain ⟨rfl, hresult⟩ := Prod.mk.inj (List.mem_singleton.mp hd)
    exact probed_some hresult.symm

/-! ## §3  What an operation keeps -/

/-- The channel of a host of a scan. -/
def Scan.channel (scan : Scan) (ip : BitVec 32) : HttpChannel :=
  ⟨hostText ip, scan.port, scan.protocol⟩

structure Scan.Ok (V : Setup) (found : List DiscoveredDevice) (scan : Scan) : Prop where
  takes : scan.probes.Takes scanConcurrency (hosts scan.interfaceIp)
  finished : scan.phase = .finished → scan.probes.isDone = true
  answered : Answered V found scan.channel scan.probes

/-- What holds in every run. -/
structure Inv (V : Setup) (p : DiscoveryState) : Prop where
  locked : Locked p.scanning (runningIp p.scans)
  scans : ∀ scan ∈ p.scans, scan.Ok V p.found
  devices : p.devices = store p.found
  confirmations : p.confirmations = BitVec.ofNat 64 p.found.length

theorem Inv.init (listens : Bool) : Inv V (.init listens) where
  locked := locked_nil
  scans _ h := absurd h List.not_mem_nil
  devices := rfl
  confirmations := rfl

section Operations

variable {p p' : DiscoveryState}

theorem Scan.Ok.grow {scan : Scan} (h : scan.Ok V p.found) (hgrown : Grown p p') :
    scan.Ok V p'.found :=
  ⟨h.takes, h.finished, h.answered.grow hgrown⟩

theorem Inv.confirmDevice (h : Inv V p) (device : DiscoveredDevice) :
    Inv V (p.confirmDevice V device) where
  locked := h.locked
  scans scan hscan := (h.scans scan hscan).grow (grown_confirmDevice p device)
  devices := by
    change (upsert p.devices device).1 = store (p.found ++ [device])
    rw [store_append, h.devices]
  confirmations := by
    change p.confirmations + 1 = BitVec.ofNat 64 (p.found ++ [device]).length
    rw [h.confirmations, List.length_append, List.length_singleton, BitVec.ofNat_add]
    rfl

theorem Inv.probed (h : Inv V p) (host : String) (port : BitVec 16) (protocol : ProtocolType)
    (answer : Option HostAnswer) : Inv V (p.probed V host port protocol answer).1 := by
  unfold DiscoveryState.probed
  split
  · exact h.confirmDevice _
  · exact h

theorem Inv.confirmed (h : Inv V p) (c : Confirmation) : Inv V (p.confirmed V c) := by
  unfold DiscoveryState.confirmed
  split
  · exact h.confirmDevice _
  · exact h

theorem Inv.setProbes {k : ℕ} {scan : Scan} {probes : Probes (BitVec 32)} (h : Inv V p)
    (hscan : p.scans[k]? = some scan)
    (hok : ({ scan with probes } : Scan).Ok V p.found) : Inv V (p.setProbes k scan probes) where
  locked := by
    change Locked p.scanning (runningIp (p.scans.set k { scan with probes }))
    rw [runningIp_set hscan]
    exact h.locked
  scans v hv := by
    rcases List.mem_or_eq_of_mem_set hv with hv | rfl
    · exact h.scans v hv
    · exact hok
  devices := h.devices
  confirmations := h.confirmations

theorem Inv.scanSubnet (h : Inv V p) (interfaceIp : BitVec 32) (port : BitVec 16)
    (protocol : ProtocolType) (owner : Option ℕ) :
    Inv V (p.scanSubnet V interfaceIp port protocol owner) := by
  unfold DiscoveryState.scanSubnet
  split
  · exact h
  · rename_i hnew
    split
    · refine ⟨h.locked.begin ⟨interfaceIp, port, protocol, owner, _, .running⟩ rfl hnew,
        fun scan hscan => ?_, h.devices, h.confirmations⟩
      rcases List.mem_append.mp hscan with hscan | hscan
      · exact h.scans scan hscan
      · obtain rfl := List.mem_singleton.mp hscan
        exact ⟨Buffered.takes_ofList _ _, fun hphase => (by cases hphase),
          fun x d hd => absurd hd List.not_mem_nil⟩
    · exact h

theorem Inv.release {which : ℕ → Scan → Bool} {phase : RunPhase} (h : Inv V p)
    (hphase : phase ≠ .running)
    (hdone : phase = .finished → ∀ k scan, p.scans[k]? = some scan → which k scan = true →
      scan.probes.isDone = true) : Inv V (p.release which phase) where
  locked := h.locked.release hphase
  scans v hv := by
    obtain ⟨k, hk⟩ := List.mem_iff_getElem?.mp hv
    rw [release_getElem?, Option.map_eq_some_iff] at hk
    obtain ⟨scan, hscan, rfl⟩ := hk
    have hok := h.scans scan (List.mem_of_getElem? hscan)
    split
    · rename_i hand
      exact ⟨hok.takes, fun heq => hdone heq k scan hscan hand.2, hok.answered⟩
    · exact hok
  devices := h.devices
  confirmations := h.confirmations

theorem Inv.setStaged (h : Inv V p) (j : ℕ) (staged : Staged) : Inv V (p.setStaged j staged) :=
  ⟨h.locked, h.scans, h.devices, h.confirmations⟩

theorem Inv.scanAll (h : Inv V p) (ips : List (BitVec 32)) (port : BitVec 16)
    (protocol : ProtocolType) (owner : Option ℕ) :
    Inv V (ips.foldl (fun p ip => p.scanSubnet V ip port protocol owner) p) := by
  induction ips generalizing p with
  | nil => exact h
  | cons ip ips ih => exact ih (h.scanSubnet ip port protocol owner)

theorem Inv.escalate (h : Inv V p) (j : ℕ) (staged : Staged) : Inv V (p.escalate V j staged) := by
  unfold DiscoveryState.escalate
  split
  · exact (h.setStaged j _).scanAll _ _ _ _
  · exact h.setStaged j _

end Operations

/-! ## §4  Every run -/

/-- What a step does. -/
inductive Stepped (V : Setup) (p : DiscoveryState) : Label → DiscoveryState → Prop where
  | confirmed (c : Confirmation) : Stepped V p (.confirm c) (p.confirmed V c)
  | begun (interfaceIp : BitVec 32) (port : BitVec 16) (protocol : ProtocolType) :
      Stepped V p (.scanSubnet interfaceIp port protocol)
        (p.scanSubnet V interfaceIp port protocol none)
  | pulled {k : ℕ} {scan : Scan} {probes : Probes (BitVec 32)} (hk : p.scans[k]? = some scan)
      (hrun : scan.phase = .running) (hpull : scan.probes.pull scanConcurrency = some probes) :
      Stepped V p (.scan k .pull) (p.setProbes k scan probes)
  | answered {k i : ℕ} {scan : Scan} {ip : BitVec 32} {answer : Option HostAnswer}
      {probes : Probes (BitVec 32)} (hk : p.scans[k]? = some scan)
      (hrun : scan.phase = .running) (hip : scan.probes.active[i]? = some ip)
      (hfinish : scan.probes.finish i
        (p.probed V (hostText ip) scan.port scan.protocol answer).2 = some probes) :
      Stepped V p (.scan k (.answer i answer))
        ((p.probed V (hostText ip) scan.port scan.protocol answer).1.setProbes k scan probes)
  | ended {k : ℕ} {scan : Scan} (hk : p.scans[k]? = some scan) (hrun : scan.phase = .running)
      (hdone : scan.probes.isDone = true) :
      Stepped V p (.scan k .finish) (p.release (fun i _ => i = k) .finished)
  | dropped {k : ℕ} {scan : Scan} (hk : p.scans[k]? = some scan) (hrun : scan.phase = .running)
      (howner : scan.owner = none) :
      Stepped V p (.scan k .cancel) (p.release (fun i _ => i = k) .cancelled)
  | begunStaged (known : List HttpChannel) (interfaceIps : List (BitVec 32))
      (port : BitVec 16) (protocol : ProtocolType) :
      Stepped V p (.discoverStaged known interfaceIps port protocol)
        (p.discoverStaged V known interfaceIps port protocol)
  | pulledKnown {j : ℕ} {staged : Staged} {probes : Probes HttpChannel}
      (hj : p.staged[j]? = some staged) (hrun : staged.phase = .running)
      (hstage : staged.stage = .probing)
      (hpull : staged.probes.pull scanConcurrency = some probes) :
      Stepped V p (.staged j .pull) (p.setStaged j { staged with probes })
  | answeredKnown {j i : ℕ} {staged : Staged} {channel : HttpChannel}
      {answer : Option HostAnswer} {probes : Probes HttpChannel}
      (hj : p.staged[j]? = some staged) (hrun : staged.phase = .running)
      (hstage : staged.stage = .probing) (hchannel : staged.probes.active[i]? = some channel)
      (hfinish : staged.probes.finish i
        (p.probed V channel.host channel.port channel.protocol answer).2 = some probes) :
      Stepped V p (.staged j (.answer i answer))
        ((p.probed V channel.host channel.port channel.protocol answer).1.setStaged j
          { staged with probes })
  | probedKnown {j : ℕ} {staged : Staged} (hj : p.staged[j]? = some staged)
      (hrun : staged.phase = .running) (hstage : staged.stage = .probing)
      (hdone : staged.probes.isDone = true) :
      Stepped V p (.staged j .probed) (p.setStaged j { staged with stage := .grace })
  | elapsed {j : ℕ} {staged : Staged} (hj : p.staged[j]? = some staged)
      (hrun : staged.phase = .running) (hstage : staged.stage = .grace) :
      Stepped V p (.staged j .elapsed) (p.escalate V j staged)
  | endedStaged {j : ℕ} {staged : Staged} (hj : p.staged[j]? = some staged)
      (hrun : staged.phase = .running) (hstage : staged.stage = .scanning)
      (hnone : ∀ scan ∈ p.scans, scan.phase = .running → scan.owner ≠ some j) :
      Stepped V p (.staged j .finish) (p.setStaged j { staged with phase := .finished })
  | droppedStaged {j : ℕ} {staged : Staged} (hj : p.staged[j]? = some staged)
      (hrun : staged.phase = .running) :
      Stepped V p (.staged j .cancel)
        ((p.setStaged j { staged with phase := .cancelled }).release
          (fun _ scan => scan.owner = some j) .cancelled)
  | received {event : DiscoveryEvent} {events : List DiscoveryEvent}
      (h : p.events = some (event :: events)) :
      Stepped V p .receive { p with events := some events }

theorem running?_eq_some {p : DiscoveryState} {k : ℕ} {scan : Scan} :
    p.running? k = some scan ↔ p.scans[k]? = some scan ∧ scan.phase = .running := by
  unfold DiscoveryState.running?
  rw [Option.filter_eq_some_iff, decide_eq_true_eq]

theorem runningStaged?_eq_some {p : DiscoveryState} {j : ℕ} {staged : Staged} :
    p.runningStaged? j = some staged ↔ p.staged[j]? = some staged ∧ staged.phase = .running := by
  unfold DiscoveryState.runningStaged?
  rw [Option.filter_eq_some_iff, decide_eq_true_eq]

theorem scanStep_stepped {p p' : DiscoveryState} {k : ℕ} {scan : Scan} {a : ScanAct}
    (hscan : p.running? k = some scan) (h : p.scanStep V k scan a = some p') :
    Stepped V p (.scan k a) p' := by
  obtain ⟨hk, hrun⟩ := running?_eq_some.mp hscan
  cases a with
  | pull =>
      obtain ⟨probes, hpull, rfl⟩ := Option.map_eq_some_iff.mp h
      exact .pulled hk hrun hpull
  | answer i answer =>
      obtain ⟨ip, hip, hmap⟩ := Option.bind_eq_some_iff.mp h
      obtain ⟨probes, hfinish, rfl⟩ := Option.map_eq_some_iff.mp hmap
      exact .answered hk hrun hip hfinish
  | finish =>
      obtain ⟨hdone, heq⟩ := Option.ite_none_right_eq_some.mp h
      obtain rfl := Option.some.inj heq
      exact .ended hk hrun hdone
  | cancel =>
      obtain ⟨howner, heq⟩ := Option.ite_none_right_eq_some.mp h
      obtain rfl := Option.some.inj heq
      exact .dropped hk hrun howner

theorem stagedStep_stepped {p p' : DiscoveryState} {j : ℕ} {staged : Staged} {a : StagedAct}
    (hstaged : p.runningStaged? j = some staged) (h : p.stagedStep V j staged a = some p') :
    Stepped V p (.staged j a) p' := by
  obtain ⟨hj, hrun⟩ := runningStaged?_eq_some.mp hstaged
  cases a with
  | pull =>
      obtain ⟨hstage, hmap⟩ := Option.ite_none_right_eq_some.mp h
      obtain ⟨probes, hpull, rfl⟩ := Option.map_eq_some_iff.mp hmap
      exact .pulledKnown hj hrun hstage hpull
  | answer i answer =>
      obtain ⟨hstage, hbind⟩ := Option.ite_none_right_eq_some.mp h
      obtain ⟨channel, hchannel, hmap⟩ := Option.bind_eq_some_iff.mp hbind
      obtain ⟨probes, hfinish, rfl⟩ := Option.map_eq_some_iff.mp hmap
      exact .answeredKnown hj hrun hstage hchannel hfinish
  | probed =>
      obtain ⟨⟨hstage, hdone⟩, heq⟩ := Option.ite_none_right_eq_some.mp h
      obtain rfl := Option.some.inj heq
      exact .probedKnown hj hrun hstage hdone
  | elapsed =>
      obtain ⟨hstage, heq⟩ := Option.ite_none_right_eq_some.mp h
      obtain rfl := Option.some.inj heq
      exact .elapsed hj hrun hstage
  | finish =>
      obtain ⟨⟨hstage, hnone⟩, heq⟩ := Option.ite_none_right_eq_some.mp h
      obtain rfl := Option.some.inj heq
      exact .endedStaged hj hrun hstage hnone
  | cancel =>
      obtain rfl := Option.some.inj h
      exact .droppedStaged hj hrun

theorem step_stepped {p p' : DiscoveryState} {l : Label} (h : step V p l = some p') :
    Stepped V p l p' := by
  cases l with
  | confirm c =>
      obtain rfl := Option.some.inj h
      exact .confirmed c
  | scanSubnet interfaceIp port protocol =>
      obtain rfl := Option.some.inj h
      exact .begun interfaceIp port protocol
  | scan k a =>
      obtain ⟨scan, hscan, hact⟩ := Option.bind_eq_some_iff.mp h
      exact scanStep_stepped hscan hact
  | discoverStaged known interfaceIps port protocol =>
      obtain rfl := Option.some.inj h
      exact .begunStaged known interfaceIps port protocol
  | staged j a =>
      obtain ⟨staged, hstaged, hact⟩ := Option.bind_eq_some_iff.mp h
      exact stagedStep_stepped hstaged hact
  | receive =>
      unfold step at h
      dsimp only at h
      split at h
      · rename_i event events hevents
        obtain rfl := Option.some.inj h
        exact .received hevents
      · cases h

theorem Inv.stepped {p p' : DiscoveryState} {l : Label} (h : Inv V p) (hstep : Stepped V p l p') :
    Inv V p' := by
  cases hstep with
  | confirmed c => exact h.confirmed c
  | begun interfaceIp port protocol => exact h.scanSubnet interfaceIp port protocol none
  | @pulled k scan probes hk hrun hpull =>
      have hok := h.scans scan (List.mem_of_getElem? hk)
      refine h.setProbes hk ⟨hok.takes.pull hpull, fun heq => ?_, fun x d hd => ?_⟩
      · rw [show scan.phase = .finished from heq] at hrun
        cases hrun
      · rw [Buffered.done_of_pull hpull] at hd
        exact hok.answered x d hd
  | @answered k i scan ip answer probes hk hrun hip hfinish =>
      have hok := h.scans scan (List.mem_of_getElem? hk)
      have hgrown := grown_probed (V := V) p (hostText ip) scan.port scan.protocol answer
      refine (h.probed _ _ _ answer).setProbes (by rw [hgrown.scans]; exact hk) ?_
      refine ⟨hok.takes.finish hfinish, fun heq => ?_, hok.answered.finish hip hfinish⟩
      rw [show scan.phase = .finished from heq] at hrun
      cases hrun
  | @ended k scan hk hrun hdone =>
      refine h.release (fun heq => by cases heq) fun _ i v hv hwhich => ?_
      obtain rfl := of_decide_eq_true hwhich
      obtain rfl := Option.some.inj (hk.symm.trans hv)
      exact hdone
  | dropped _ _ _ => exact h.release (fun heq => by cases heq) fun heq => by cases heq
  | begunStaged known interfaceIps port protocol =>
      unfold DiscoveryState.discoverStaged
      split
      · exact ⟨h.locked, h.scans, h.devices, h.confirmations⟩
      · exact h
  | pulledKnown _ _ _ _ => exact h.setStaged _ _
  | answeredKnown _ _ _ _ _ => exact (h.probed _ _ _ _).setStaged _ _
  | probedKnown _ _ _ _ => exact h.setStaged _ _
  | elapsed _ _ _ => exact h.escalate _ _
  | endedStaged _ _ _ _ => exact h.setStaged _ _
  | droppedStaged _ _ =>
      exact (h.setStaged _ _).release (fun heq => by cases heq) fun heq => by cases heq
  | received _ => exact ⟨h.locked, h.scans, h.devices, h.confirmations⟩

/-- In every run the set of interfaces is that of the running scans, one for each, at most
`scanConcurrency` hosts of a scan are probed at a time, one that ran to its end has probed every
other host of the subnet once, and a device that it gives was confirmed on the host that it is
listed for. -/
theorem scans_orderly (listens : Bool) (p : DiscoveryState)
    (h : Reach (step V) (.init listens) p) :
    (∀ ip, ip ∈ p.scanning ↔ ∃ k, runningIp p.scans k = some ip) ∧
    (∀ k k' ip, runningIp p.scans k = some ip → runningIp p.scans k' = some ip → k = k') ∧
    p.devices = store p.found ∧
    ∀ scan ∈ p.scans, scan.probes.active.length ≤ scanConcurrency ∧
      (hosts scan.interfaceIp).Perm
        (scan.probes.done.map Prod.fst ++ (scan.probes.active ++ scan.probes.queue)) ∧
      (scan.phase = .finished → (hosts scan.interfaceIp).Perm (scan.probes.done.map Prod.fst)) ∧
      ∀ ip d, (ip, some d) ∈ scan.probes.done →
        d.device ∈ p.found ∧ d.device.fingerprint ≠ V.env.fingerprint ∧
          d.device.channel = .http ⟨hostText ip, scan.port, scan.protocol⟩ := by
  have hinv : Inv V p := h.invariant (.init listens) fun _ _ _ hp _ hstep =>
    hp.stepped (step_stepped hstep)
  refine ⟨hinv.locked.mem, hinv.locked.alone, hinv.devices, fun scan hscan => ?_⟩
  have hok := hinv.scans scan hscan
  exact ⟨hok.takes.bound, hok.takes.perm, fun hphase => hok.takes.perm_done (hok.finished hphase),
    hok.answered⟩

namespace Sample

def laptopSetup : Setup := ⟨laptop, true, 64⟩

/-- The interface `10.0.0.1` is scanned, a second scan of it has no effect, and the second host
that is probed answers first. -/
def scanned : List Label :=
  [.scanSubnet 0x0a000001 53317 .https, .scanSubnet 0x0a000001 53317 .https, .scan 0 .pull,
    .scan 0 .pull,
    .scan 0 (.answer 1 (some ⟨[1, 2], [], 200, some ⟨"Phone", "2.2", none, none, "AA", false⟩⟩))]

end Sample

theorem scanned_orderly : ∃ p,
    exec (step Sample.laptopSetup) (.init true) Sample.scanned = some p ∧
      p.scans.map (fun scan => scan.probes.done.map Prod.fst) = [[0x0a000002]] ∧
      (∀ ip, ip ∈ p.scanning ↔ ∃ k, runningIp p.scans k = some ip) ∧
      p.devices = store p.found := by
  obtain ⟨p, hexec, hp⟩ := exists_of_exec_any (step Sample.laptopSetup) (.init true)
    Sample.scanned
    (fun p => p.scans.map (fun scan => scan.probes.done.map Prod.fst) = [[0x0a000002]])
    (by decide)
  obtain ⟨hlocked, -, hdevices, -⟩ := scans_orderly true p (reach_of_exec hexec)
  exact ⟨p, hexec, of_decide_eq_true hp, hlocked, hdevices⟩

end FireBoxTransfer.Discovery
