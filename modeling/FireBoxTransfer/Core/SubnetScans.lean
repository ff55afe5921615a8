import FireBoxTransfer.Core.Discovery
import FireBoxTransfer.Core.IpAddr
import FireBoxTransfer.Framework.Buffered

/-!
# Scans of a subnet

A scan sends a register request to every other host of the `/24` subnet of an interface, some of
them at a time; one interface has one scan at a time. A staged discovery probes the channels it
knows, waits, and scans the interfaces if nothing was confirmed since it began. All of them run
side by side, and any of them may be dropped before it ends.
-/

namespace FireBoxTransfer.Discovery

/-! ## §1  Scans -/

/-- `SCAN_CONCURRENCY`. -/
def scanConcurrency : ℕ := 50

/-- The other addresses of the `/24` subnet. -/
def hosts (interfaceIp : BitVec 32) : List (BitVec 32) :=
  ((List.range 256).map fun host => BitVec.ofNat 32 (interfaceIp.toNat / 256 * 256 + host)).filter
    fun ip => ip ≠ interfaceIp

def hostText (ip : BitVec 32) : String := .ofList (IpAddr.v4 ip).text

/-- Probes that are under way or over; a host that gave no device has `none`. -/
abbrev Probes (α : Type) : Type := Buffered α (Option StatefulDevice)

/-- How a scan or a staged discovery stands; it is `cancelled` if its future was dropped. -/
inductive RunPhase where
  | running | finished | cancelled
deriving DecidableEq

/-- A scan has an `owner` if a staged discovery started it. -/
structure Scan where
  interfaceIp : BitVec 32
  port : BitVec 16
  protocol : ProtocolType
  owner : Option ℕ
  probes : Probes (BitVec 32)
  phase : RunPhase
deriving DecidableEq

/-- What a staged discovery does while it runs. -/
inductive Stage where
  | probing | grace | scanning
deriving DecidableEq

/-- `seen` is the number of confirmations that it read first. `start` and `decision` are a
history: how many there were, and whether it went on to scan, and how many there were then. -/
structure Staged where
  known : List HttpChannel
  interfaceIps : List (BitVec 32)
  port : BitVec 16
  protocol : ProtocolType
  seen : BitVec 64
  probes : Probes HttpChannel
  stage : Stage
  phase : RunPhase
  start : ℕ
  decision : Option (Bool × ℕ)
deriving DecidableEq

/-! ## §2  The state -/

/-- `events` is the channel to the application. `found` is a history. -/
structure DiscoveryState where
  devices : List StatefulDevice
  confirmations : BitVec 64
  scanning : List (BitVec 32)
  events : Option (List DiscoveryEvent)
  scans : List Scan
  staged : List Staged
  found : List DiscoveredDevice

/-- `clientOk`: a client can be built from the identity of this device. -/
structure Setup where
  env : Env
  clientOk : Bool
  capacity : ℕ

def DiscoveryState.init (listens : Bool) : DiscoveryState where
  devices := []
  confirmations := 0
  scanning := []
  events := if listens then some [] else none
  scans := []
  staged := []
  found := []

variable (V : Setup)

namespace DiscoveryState

/-! ## §3  Confirmations -/

/-- `DiscoveryState::found`. An event for which there is no room is dropped. -/
def confirmDevice (p : DiscoveryState) (device : DiscoveredDevice) : DiscoveryState :=
  { p with
    devices := (upsert p.devices device).1
    confirmations := p.confirmations + 1
    events := p.events.map fun events =>
      if events.length < V.capacity then events ++ [(upsert p.devices device).2.1] else events
    found := p.found ++ [device] }

/-- `DiscoveryState::probe`, with what is returned; a host may give no answer. -/
def probed (p : DiscoveryState) (host : String) (port : BitVec 16) (protocol : ProtocolType)
    (answer : Option HostAnswer) : DiscoveryState × Option StatefulDevice :=
  match answer.bind (probe V.env host port protocol) with
  | some device => (p.confirmDevice V device, some (upsert p.devices device).2.2)
  | none => (p, none)

/-- `discover`, `add_device` and the answer to an announcement. -/
def confirmed (p : DiscoveryState) (c : Confirmation) : DiscoveryState :=
  match c.device? V.env with
  | some device => p.confirmDevice V device
  | none => p

/-! ## §4  Scans that start and end -/

/-- `scan_subnet`, up to its first probe. -/
def scanSubnet (p : DiscoveryState) (interfaceIp : BitVec 32) (port : BitVec 16)
    (protocol : ProtocolType) (owner : Option ℕ) : DiscoveryState :=
  if interfaceIp ∈ p.scanning then p
  else if V.clientOk then
    { p with
      scanning := p.scanning ++ [interfaceIp]
      scans := p.scans ++
        [⟨interfaceIp, port, protocol, owner, .ofList (hosts interfaceIp), .running⟩] }
  else p

/-- Running scans end or are dropped, and the guard of each releases its interface. -/
def release (p : DiscoveryState) (which : ℕ → Scan → Bool) (phase : RunPhase) : DiscoveryState :=
  { p with
    scanning := p.scanning.filter fun ip =>
      !(p.scans.mapIdx fun k scan =>
        scan.phase = .running && which k scan && scan.interfaceIp = ip).any id
    scans := p.scans.mapIdx fun k scan =>
      if scan.phase = .running ∧ which k scan = true then { scan with phase } else scan }

def setProbes (p : DiscoveryState) (k : ℕ) (scan : Scan) (probes : Probes (BitVec 32)) :
    DiscoveryState :=
  { p with scans := p.scans.set k { scan with probes } }

/-! ## §5  Staged discoveries -/

/-- `discover_staged`, up to its first probe. -/
def discoverStaged (p : DiscoveryState) (known : List HttpChannel)
    (interfaceIps : List (BitVec 32)) (port : BitVec 16) (protocol : ProtocolType) :
    DiscoveryState :=
  if V.clientOk then
    { p with
      staged := p.staged ++ [⟨known, interfaceIps, port, protocol, p.confirmations,
        .ofList known, .probing, .running, p.found.length, none⟩] }
  else p

def setStaged (p : DiscoveryState) (j : ℕ) (staged : Staged) : DiscoveryState :=
  { p with staged := p.staged.set j staged }

/-- The grace period is over. -/
def escalate (p : DiscoveryState) (j : ℕ) (staged : Staged) : DiscoveryState :=
  if p.confirmations = staged.seen then
    staged.interfaceIps.foldl
      (fun p ip => p.scanSubnet V ip staged.port staged.protocol (some j))
      (p.setStaged j { staged with stage := .scanning, decision := some (true, p.found.length) })
  else
    p.setStaged j { staged with phase := .finished, decision := some (false, p.found.length) }

end DiscoveryState

/-! ## §6  One step -/

inductive ScanAct where
  | pull
  | answer (i : ℕ) (answer : Option HostAnswer)
  | finish
  | cancel

inductive StagedAct where
  | pull
  | answer (i : ℕ) (answer : Option HostAnswer)
  | probed
  | elapsed
  | finish
  | cancel

inductive Label where
  | confirm (c : Confirmation)
  | scanSubnet (interfaceIp : BitVec 32) (port : BitVec 16) (protocol : ProtocolType)
  | scan (k : ℕ) (a : ScanAct)
  | discoverStaged (known : List HttpChannel) (interfaceIps : List (BitVec 32))
      (port : BitVec 16) (protocol : ProtocolType)
  | staged (j : ℕ) (a : StagedAct)
  /-- The application takes an event. -/
  | receive

namespace DiscoveryState

/-- A scan of a staged discovery is dropped with it only. -/
def scanStep (p : DiscoveryState) (k : ℕ) (scan : Scan) : ScanAct → Option DiscoveryState
  | .pull => (scan.probes.pull scanConcurrency).map (p.setProbes k scan)
  | .answer i answer => scan.probes.active[i]?.bind fun ip =>
      let r := p.probed V (hostText ip) scan.port scan.protocol answer
      (scan.probes.finish i r.2).map (r.1.setProbes k scan)
  | .finish =>
      if scan.probes.isDone then some (p.release (fun i _ => i = k) .finished) else none
  | .cancel =>
      if scan.owner = none then some (p.release (fun i _ => i = k) .cancelled) else none

def stagedStep (p : DiscoveryState) (j : ℕ) (staged : Staged) : StagedAct → Option DiscoveryState
  | .pull =>
      if staged.stage = .probing then
        (staged.probes.pull scanConcurrency).map fun probes => p.setStaged j { staged with probes }
      else none
  | .answer i answer =>
      if staged.stage = .probing then
        staged.probes.active[i]?.bind fun channel =>
          let r := p.probed V channel.host channel.port channel.protocol answer
          (staged.probes.finish i r.2).map fun probes => r.1.setStaged j { staged with probes }
      else none
  | .probed =>
      if staged.stage = .probing ∧ staged.probes.isDone = true then
        some (p.setStaged j { staged with stage := .grace })
      else none
  | .elapsed => if staged.stage = .grace then some (p.escalate V j staged) else none
  | .finish =>
      if staged.stage = .scanning ∧
          ∀ scan ∈ p.scans, scan.phase = .running → scan.owner ≠ some j then
        some (p.setStaged j { staged with phase := .finished })
      else none
  | .cancel =>
      some ((p.setStaged j { staged with phase := .cancelled }).release
        (fun _ scan => scan.owner = some j) .cancelled)

def running? (p : DiscoveryState) (k : ℕ) : Option Scan :=
  p.scans[k]?.filter fun scan => scan.phase = .running

def runningStaged? (p : DiscoveryState) (j : ℕ) : Option Staged :=
  p.staged[j]?.filter fun staged => staged.phase = .running

end DiscoveryState

def step (p : DiscoveryState) : Label → Option DiscoveryState
  | .confirm c => some (p.confirmed V c)
  | .scanSubnet interfaceIp port protocol => some (p.scanSubnet V interfaceIp port protocol none)
  | .scan k a => (p.running? k).bind fun scan => p.scanStep V k scan a
  | .discoverStaged known interfaceIps port protocol =>
      some (p.discoverStaged V known interfaceIps port protocol)
  | .staged j a => (p.runningStaged? j).bind fun staged => p.stagedStep V j staged a
  | .receive =>
      match p.events with
      | some (_ :: events) => some { p with events := some events }
      | _ => none

end FireBoxTransfer.Discovery
