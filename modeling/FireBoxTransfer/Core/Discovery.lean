import FireBoxTransfer.Core.RegisterClient
import Mathlib.Data.List.Induction
import Mathlib.Data.Prod.Lex
import Mathlib.Order.WithBot

/-!
# Discovered devices

A device is known by its fingerprint, and by the channels over which it was
confirmed. A confirmation over HTTPS proves the fingerprint, over HTTP anybody
may claim it, and both are merged into one device. A transfer takes the channel
that ranks first: IPv6 before IPv4, then the one confirmed last.
-/

namespace FireBoxTransfer.Discovery

/-! ## §1  The store -/

/-- How many confirmations a device remembers. -/
def maxLogs : ℕ := 100

/-- The address of an HTTP server; the host may carry a scope. -/
structure HttpChannel where
  host : String
  port : BitVec 16
  protocol : ProtocolType
deriving DecidableEq

inductive DeviceChannel where
  | http (channel : HttpChannel)
deriving DecidableEq

namespace DeviceChannel

def http? : DeviceChannel → Option HttpChannel
  | .http channel => some channel

def host : DeviceChannel → String
  | .http channel => channel.host

def protocol : DeviceChannel → ProtocolType
  | .http channel => channel.protocol

def sameEndpoint (own other : DeviceChannel) : Bool := own.host = other.host

/-- The channel dials an IPv6 address; `parsesAsV6` is the parser of addresses. -/
def isIpv6 (parsesAsV6 : String → Bool) (channel : DeviceChannel) : Bool :=
  parsesAsV6 (.ofList (channel.host.toList.takeWhile (· ≠ '%')))

end DeviceChannel

inductive ChannelStatus where
  | available | notReachable
deriving DecidableEq

structure DiscoveredDevice where
  «alias» : String
  version : String
  deviceModel : Option String
  deviceType : Option DeviceType
  fingerprint : String
  channel : DeviceChannel
  download : Bool
deriving DecidableEq

inductive DeviceLogKind where
  | discovered | updated
deriving DecidableEq

structure DeviceLog where
  kind : DeviceLogKind
  channel : DeviceChannel
deriving DecidableEq

/-- A device in the store. The order of `channels` means nothing: it is a hash
map. -/
structure StatefulDevice where
  device : DiscoveredDevice
  channels : List (DeviceChannel × ChannelStatus)
  logs : List DeviceLog
deriving DecidableEq

inductive DiscoveryEvent where
  | discovered (device : DiscoveredDevice)
  | updated (device : DiscoveredDevice)

/-- A known device that is confirmed again. -/
def StatefulDevice.confirm (known : StatefulDevice) (device : DiscoveredDevice) :
    StatefulDevice :=
  let logs := known.logs ++ [⟨.updated, device.channel⟩]
  { device := device
    channels := (device.channel, .available) ::
      known.channels.filter fun entry => !entry.1.sameEndpoint device.channel
    logs := logs.drop (logs.length - maxLogs) }

def StatefulDevice.new (device : DiscoveredDevice) : StatefulDevice where
  device := device
  channels := [(device.channel, .available)]
  logs := [⟨.discovered, device.channel⟩]

def upsert (devices : List StatefulDevice) (device : DiscoveredDevice) :
    List StatefulDevice × DiscoveryEvent × StatefulDevice :=
  match devices.findIdx? fun known => known.device.fingerprint = device.fingerprint with
  | some i =>
      match devices[i]? with
      | some known => (devices.set i (known.confirm device), .updated device, known.confirm device)
      | none => (devices, .updated device, .new device)
  | none => (devices ++ [.new device], .discovered device, .new device)

def byFingerprint (devices : List StatefulDevice) (fingerprint : String) :
    Option StatefulDevice :=
  devices.find? fun known => known.device.fingerprint = fingerprint

/-! ## §2  Confirmations -/

/-- This device, and what it takes from outside. -/
structure Env where
  certs : PeerCerts
  parsesAsV6 : String → Bool
  fingerprint : String

def confirmedDevice (response : RegisterResponseDtoV2) (host : String) (port : BitVec 16)
    (protocol : ProtocolType) (fingerprint : String) : DiscoveredDevice where
  «alias» := response.alias
  version := response.version
  deviceModel := response.deviceModel
  deviceType := response.deviceType
  fingerprint := fingerprint
  channel := .http ⟨host, port, protocol⟩
  download := response.download

/-- An announcement of another device. -/
structure MulticastMessage where
  port : BitVec 16
  protocol : ProtocolType
  fingerprint : String

/-- What may put a device into the store: a probe or an announcement that was
answered, or a request of the device to this one. -/
inductive Confirmation where
  | probe (host : String) (port : BitVec 16) (protocol : ProtocolType) (answer : HostAnswer)
  | announcement (ip : String) (scopeId : Option ℕ) (message : MulticastMessage)
      (answer : HostAnswer)
  | register (host : String) (info : RegisterDtoV2)

variable (V : Env)

/-- `DiscoveryState::probe`: the device that is put into the store. -/
def probe (host : String) (port : BitVec 16) (protocol : ProtocolType) (answer : HostAnswer) :
    Option DiscoveredDevice :=
  match registerV2 V.certs ⟨none⟩ protocol answer with
  | .error _ => none
  | .ok response =>
      let fingerprint := match protocol with
        | .https => response.certFingerprint
        | .http => some response.body.fingerprint
      match fingerprint with
      | none => none
      | some fingerprint =>
          if fingerprint = V.fingerprint then none
          else some (confirmedDevice response.body host port protocol fingerprint)

def answerAnnouncement (ip : String) (scopeId : Option ℕ) (message : MulticastMessage)
    (answer : HostAnswer) : Option DiscoveredDevice :=
  let host := match scopeId with
    | some scopeId => ip ++ "%" ++ toString scopeId
    | none => ip
  let expectedFingerprint := match message.protocol with
    | .https => some message.fingerprint
    | .http => none
  match registerV2 V.certs ⟨expectedFingerprint⟩ message.protocol answer with
  | .ok response =>
      some (confirmedDevice response.body host message.port message.protocol message.fingerprint)
  | .error _ => none

/-- `device_confirmed` of the command line. -/
def deviceConfirmed (host : String) (info : RegisterDtoV2) : Option DiscoveredDevice :=
  if info.fingerprint = V.fingerprint then none
  else some
    { «alias» := info.alias
      version := info.version
      deviceModel := info.deviceModel
      deviceType := info.deviceType
      fingerprint := info.fingerprint
      channel := .http ⟨host, info.port, info.protocol⟩
      download := info.download }

def Confirmation.device? : Confirmation → Option DiscoveredDevice
  | .probe host port protocol answer => Discovery.probe V host port protocol answer
  | .announcement ip scopeId message answer => answerAnnouncement V ip scopeId message answer
  | .register host info => deviceConfirmed V host info

/-- The store after a confirmation. -/
def confirm (devices : List StatefulDevice) (c : Confirmation) : List StatefulDevice :=
  match c.device? V with
  | some device => (upsert devices device).1
  | none => devices

/-! ## §3  The channel of a transfer -/

/-- The position of the last confirmation of a channel in the logs. -/
def StatefulDevice.lastConfirmed (d : StatefulDevice) (channel : DeviceChannel) : Option ℕ :=
  (d.logs.reverse.findIdx? fun log => log.channel = channel).map fun i => d.logs.length - 1 - i

/-- The same for comparing: a position that is missing is less than all others. -/
def StatefulDevice.recency (d : StatefulDevice) (channel : DeviceChannel) : WithBot ℕ :=
  d.lastConfirmed channel

/-- What channels are compared by; a greater one comes first. -/
def StatefulDevice.rankKey (d : StatefulDevice) (entry : DeviceChannel × ChannelStatus) :
    Bool ×ₗ Bool ×ₗ WithBot ℕ :=
  toLex (entry.2 = .available, toLex (entry.1.isIpv6 V.parsesAsV6, d.recency entry.1))

/-- `get_ranked_channels`; `order` is the order in which the hash map hands out
its entries. -/
def StatefulDevice.rankedChannels (d : StatefulDevice)
    (order : List (DeviceChannel × ChannelStatus)) : List DeviceChannel :=
  (order.mergeSort fun a b => d.rankKey V b ≤ d.rankKey V a).map Prod.fst

/-- Where a transfer connects, and which certificate it demands. -/
structure Dial where
  protocol : ProtocolType
  host : String
  port : BitVec 16
  expectedFingerprint : Option String
deriving DecidableEq

/-- `run_send`, up to its first request; without a channel there is none. -/
def runSend (d : StatefulDevice) (order : List (DeviceChannel × ChannelStatus)) : Option Dial :=
  ((d.rankedChannels V order).head?.bind DeviceChannel.http?).map fun http =>
    { protocol := http.protocol
      host := http.host
      port := http.port
      expectedFingerprint := match http.protocol with
        | .https => some d.device.fingerprint
        | .http => none }

/-! ## §4  Ranking -/

section Ranking

variable {V : Env} {d : StatefulDevice} {order : List (DeviceChannel × ChannelStatus)}
  {entry : DeviceChannel × ChannelStatus}

/-- No other entry ranks higher. -/
def StatefulDevice.Top (V : Env) (d : StatefulDevice) (order : List (DeviceChannel × ChannelStatus))
    (entry : DeviceChannel × ChannelStatus) : Prop :=
  entry ∈ order ∧ ∀ other ∈ order, d.rankKey V other ≤ d.rankKey V entry

theorem rankLe_trans (a b c : DeviceChannel × ChannelStatus)
    (hab : decide (d.rankKey V b ≤ d.rankKey V a) = true)
    (hbc : decide (d.rankKey V c ≤ d.rankKey V b) = true) :
    decide (d.rankKey V c ≤ d.rankKey V a) = true :=
  decide_eq_true ((of_decide_eq_true hbc).trans (of_decide_eq_true hab))

theorem rankLe_total (a b : DeviceChannel × ChannelStatus) :
    (decide (d.rankKey V b ≤ d.rankKey V a) || decide (d.rankKey V a ≤ d.rankKey V b)) = true := by
  simpa using le_total (d.rankKey V b) (d.rankKey V a)

theorem rankedChannels_pairwise : (order.mergeSort fun a b =>
    decide (d.rankKey V b ≤ d.rankKey V a)).Pairwise
      fun a b => d.rankKey V b ≤ d.rankKey V a :=
  (List.pairwise_mergeSort rankLe_trans rankLe_total order).imp fun hle => of_decide_eq_true hle

/-- The first channel is one of those that rank highest. -/
theorem rankedChannels_head {channel : DeviceChannel}
    (h : (d.rankedChannels V order).head? = some channel) :
    ∃ entry, d.Top V order entry ∧ entry.1 = channel := by
  unfold StatefulDevice.rankedChannels at h
  rw [List.head?_map] at h
  obtain ⟨entry, hentry, rfl⟩ := Option.map_eq_some_iff.mp h
  obtain ⟨rest, hsorted⟩ := List.head?_eq_some_iff.mp hentry
  have hpairwise := @rankedChannels_pairwise V d order
  rw [hsorted, List.pairwise_cons] at hpairwise
  have hmem : ∀ {other}, other ∈ order ↔ other = entry ∨ other ∈ rest := by
    intro other
    rw [← List.mem_cons, ← hsorted, List.mem_mergeSort]
  refine ⟨entry, ⟨hmem.mpr (.inl rfl), fun other hother => ?_⟩, rfl⟩
  rcases hmem.mp hother with rfl | hother
  · exact le_refl _
  · exact hpairwise.1 other hother

/-- Any of those may be the first. -/
theorem StatefulDevice.Top.head {rest : List (DeviceChannel × ChannelStatus)}
    (h : d.Top V (entry :: rest) entry) :
    (d.rankedChannels V (entry :: rest)).head? = some entry.1 := by
  obtain ⟨before, after, hsorted, -, hbefore⟩ := @List.mergeSort_cons _
    (fun a b => decide (d.rankKey V b ≤ d.rankKey V a)) rankLe_trans rankLe_total entry rest
  have hnil : before = [] := by
    rw [List.eq_nil_iff_forall_not_mem]
    intro other hother
    have hmem : other ∈ (entry :: rest).mergeSort
        (fun a b => decide (d.rankKey V b ≤ d.rankKey V a)) := by
      rw [hsorted]
      exact List.mem_append_left _ hother
    have hle := h.2 other (List.mem_mergeSort.mp hmem)
    simpa [hle] using hbefore other hother
  unfold StatefulDevice.rankedChannels
  rw [hsorted, hnil]
  rfl

end Ranking

/-! ## §5  What the store keeps of a history -/

section Store

variable {devices : List StatefulDevice} {known d : StatefulDevice} {device : DiscoveredDevice}
  {fingerprint : String} {past : List DeviceChannel}

theorem upsert_cons : (upsert (known :: devices) device).1 =
    if known.device.fingerprint = device.fingerprint then known.confirm device :: devices
    else known :: (upsert devices device).1 := by
  unfold upsert
  rw [List.findIdx?_cons]
  by_cases hsame : known.device.fingerprint = device.fingerprint
  · simp [hsame]
  · simp only [hsame, decide_false, Bool.false_eq_true, if_false]
    cases hfind : devices.findIdx? fun known => known.device.fingerprint = device.fingerprint with
    | none => rfl
    | some i =>
        have hlt := (List.findIdx?_eq_some_iff_getElem.mp hfind).1
        simp [hlt]

/-- The devices that are confirmed again, and the others. -/
theorem byFingerprint_upsert : byFingerprint (upsert devices device).1 fingerprint =
    if device.fingerprint = fingerprint then
      some (((byFingerprint devices fingerprint).map (·.confirm device)).getD (.new device))
    else byFingerprint devices fingerprint := by
  induction devices with
  | nil =>
      show ([StatefulDevice.new device].find? _) = _
      by_cases hsame : device.fingerprint = fingerprint
      · simp [byFingerprint, StatefulDevice.new, hsame]
      · simp [byFingerprint, StatefulDevice.new, hsame]
  | cons known devices ih =>
      rw [upsert_cons]
      unfold byFingerprint at ih ⊢
      by_cases hknown : known.device.fingerprint = fingerprint
      · by_cases hsame : device.fingerprint = fingerprint
        · simp [hknown, hsame, StatefulDevice.confirm]
        · rw [if_neg (by rw [hknown]; exact Ne.symm hsame), if_neg hsame]
          simp [hknown]
      · rw [List.find?_cons_of_neg (by simpa using hknown), ← ih]
        split_ifs with hboth
        · have hsame : device.fingerprint ≠ fingerprint := hboth ▸ hknown
          rw [ih, if_neg hsame,
            List.find?_cons_of_neg (by simpa [StatefulDevice.confirm] using hsame)]
        · exact List.find?_cons_of_neg (by simpa using hknown)

/-- What is stored of a device that was confirmed over the channels `past`, the
last one first. -/
structure Stored (fingerprint : String) (past : List DeviceChannel) (d : StatefulDevice) :
    Prop where
  fingerprint : d.device.fingerprint = fingerprint
  logs : d.logs.reverse.map DeviceLog.channel = past.take maxLogs
  channels : ∀ entry, entry ∈ d.channels ↔ entry.2 = .available ∧
    past.find? (fun channel => channel.sameEndpoint entry.1) = some entry.1

theorem stored_new (h : device.fingerprint = fingerprint) :
    Stored fingerprint [device.channel] (.new device) := by
  refine ⟨h, rfl, fun entry => ?_⟩
  obtain ⟨channel, status⟩ := entry
  show (channel, status) ∈ [(device.channel, ChannelStatus.available)] ↔ _
  rw [List.mem_singleton, Prod.mk.injEq, List.find?_singleton]
  constructor
  · rintro ⟨rfl, rfl⟩
    simp [DeviceChannel.sameEndpoint]
  · rintro ⟨rfl, hfind⟩
    split_ifs at hfind
    exact ⟨(Option.some.inj hfind).symm, rfl⟩

theorem Stored.confirm (h : Stored fingerprint past known)
    (hdevice : device.fingerprint = fingerprint) :
    Stored fingerprint (device.channel :: past) (known.confirm device) := by
  refine ⟨hdevice, ?_, fun entry => ?_⟩
  · have hlogs : (known.confirm device).logs.reverse =
        ((⟨.updated, device.channel⟩ : DeviceLog) :: known.logs.reverse).take maxLogs := by
      have hnew := @List.take_reverse _
        (known.logs ++ [(⟨.updated, device.channel⟩ : DeviceLog)]) maxLogs
      rw [List.reverse_append] at hnew
      exact hnew.symm
    rw [hlogs, List.map_take, List.map_cons, h.logs]
    show device.channel :: (past.take maxLogs).take 99 = device.channel :: past.take 99
    rw [List.take_take]
    rfl
  · obtain ⟨channel, status⟩ := entry
    show (channel, status) ∈ (device.channel, ChannelStatus.available) :: _ ↔ _
    rw [List.mem_cons, Prod.mk.injEq, List.mem_filter, h.channels, List.find?_cons]
    have hsymm : device.channel.sameEndpoint channel = channel.sameEndpoint device.channel := by
      simp [DeviceChannel.sameEndpoint, eq_comm]
    by_cases hsame : channel.sameEndpoint device.channel = true
    · simp only [hsymm, hsame]
      constructor
      · rintro (⟨rfl, rfl⟩ | ⟨-, hfalse⟩)
        · exact ⟨rfl, rfl⟩
        · cases hfalse
      · rintro ⟨rfl, hchannel⟩
        exact .inl ⟨(Option.some.inj hchannel).symm, rfl⟩
    · simp only [hsymm, hsame]
      constructor
      · rintro (⟨rfl, -⟩ | ⟨hbefore, -⟩)
        · exact absurd (by simp [DeviceChannel.sameEndpoint]) hsame
        · exact hbefore
      · intro hbefore
        exact .inr ⟨hbefore, rfl⟩

end Store

/-- The channels over which a fingerprint was confirmed, the last one first. -/
def channelHistory (fingerprint : String) (ds : List DiscoveredDevice) : List DeviceChannel :=
  ((ds.filter fun device => device.fingerprint = fingerprint).map DiscoveredDevice.channel).reverse

/-- The store after these upserts. -/
def store (ds : List DiscoveredDevice) : List StatefulDevice :=
  ds.foldl (fun devices device => (upsert devices device).1) []

/-- The same for confirmations. -/
def past (V : Env) (fingerprint : String) (cs : List Confirmation) : List DeviceChannel :=
  (((cs.filterMap (·.device? V)).filter fun device => device.fingerprint = fingerprint).map
    DiscoveredDevice.channel).reverse

/-- The store after these confirmations. -/
def discovered (V : Env) (cs : List Confirmation) : List StatefulDevice := cs.foldl (confirm V) []

section History

variable {V : Env} {fingerprint : String} {ds : List DiscoveredDevice} {device : DiscoveredDevice}
  {cs : List Confirmation}

theorem store_append : store (ds ++ [device]) = (upsert (store ds) device).1 := by
  unfold store
  rw [List.foldl_append]
  rfl

theorem channelHistory_append : channelHistory fingerprint (ds ++ [device]) =
    if device.fingerprint = fingerprint then device.channel :: channelHistory fingerprint ds
    else channelHistory fingerprint ds := by
  unfold channelHistory
  split_ifs with hsame
  · simp [hsame]
  · simp [hsame]

/-- **The store** follows the history of each device. -/
theorem stored_store : match byFingerprint (store ds) fingerprint with
    | none => channelHistory fingerprint ds = []
    | some d => Stored fingerprint (channelHistory fingerprint ds) d := by
  induction ds using List.reverseRecOn with
  | nil => rfl
  | append_singleton ds device ih =>
      rw [store_append, channelHistory_append, byFingerprint_upsert]
      by_cases hsame : device.fingerprint = fingerprint
      · rw [if_pos hsame, if_pos hsame]
        cases hknown : byFingerprint (store ds) fingerprint with
        | none =>
            rw [hknown] at ih
            rw [show channelHistory fingerprint ds = [] from ih]
            exact stored_new hsame
        | some known =>
            rw [hknown] at ih
            exact Stored.confirm ih hsame
      · rw [if_neg hsame, if_neg hsame]
        exact ih

/-- A confirmation without a device changes nothing. -/
theorem discovered_eq : discovered V cs = store (cs.filterMap (·.device? V)) := by
  unfold discovered store
  rw [List.foldl_filterMap]
  congr 1
  funext devices c
  unfold confirm
  cases c.device? V with
  | none => rfl
  | some device => rfl

theorem stored_discovered : match byFingerprint (discovered V cs) fingerprint with
    | none => past V fingerprint cs = []
    | some d => Stored fingerprint (past V fingerprint cs) d := by
  rw [discovered_eq]
  exact stored_store

end History

/-! ## §6  Which channel comes first -/

/-- A channel of the better kind: IPv6, if there is any. -/
def preferred (V : Env) (history : List DeviceChannel) (channel : DeviceChannel) : Bool :=
  !(history.any fun c => c.isIpv6 V.parsesAsV6) || channel.isIpv6 V.parsesAsV6

/-- The last confirmation over a channel of the better kind was over HTTPS; where
all of those are too long ago to be remembered, the last one at each address. -/
def HttpsFirst (V : Env) (history : List DeviceChannel) : Prop :=
  match (history.take maxLogs).find? (preferred V history) with
  | some channel => channel.protocol = .https
  | none => ∀ channel ∈ history, preferred V history channel = true →
      history.find? (fun c => c.sameEndpoint channel) = some channel → channel.protocol = .https

section First

variable {V : Env} {fingerprint : String} {history : List DeviceChannel} {d : StatefulDevice}
  {channel channel' : DeviceChannel}

theorem isIpv6_of_sameEndpoint (h : channel.sameEndpoint channel' = true) :
    channel.isIpv6 V.parsesAsV6 = channel'.isIpv6 V.parsesAsV6 := by
  unfold DeviceChannel.isIpv6
  rw [of_decide_eq_true h]

theorem preferred_of_sameEndpoint (h : channel.sameEndpoint channel' = true) :
    preferred V history channel = preferred V history channel' := by
  unfold preferred
  rw [isIpv6_of_sameEndpoint h]

/-- The position of the last confirmation, in the history. -/
theorem Stored.lastConfirmed (h : Stored fingerprint history d) :
    d.lastConfirmed channel = ((history.take maxLogs).findIdx? (· = channel)).map fun i =>
      (history.take maxLogs).length - 1 - i := by
  have hlength : d.logs.length = (history.take maxLogs).length := by
    rw [← h.logs, List.length_map, List.length_reverse]
  unfold StatefulDevice.lastConfirmed
  rw [← h.logs, List.findIdx?_map, List.length_map, List.length_reverse]
  rfl

/-- Two channels of the store. -/
theorem rankKey_le : d.rankKey V (channel', .available) ≤ d.rankKey V (channel, .available) ↔
    channel'.isIpv6 V.parsesAsV6 < channel.isIpv6 V.parsesAsV6 ∨
      channel'.isIpv6 V.parsesAsV6 = channel.isIpv6 V.parsesAsV6 ∧
        d.recency channel' ≤ d.recency channel := by
  unfold StatefulDevice.rankKey
  rw [Prod.Lex.toLex_le_toLex, Prod.Lex.toLex_le_toLex]
  simp

theorem isIpv6_lt_of_preferred (h : preferred V history channel = true)
    (h' : preferred V history channel' = false) :
    channel'.isIpv6 V.parsesAsV6 < channel.isIpv6 V.parsesAsV6 := by
  unfold preferred at h h'
  rw [Bool.or_eq_false_iff] at h'
  rw [h'.1, Bool.false_or] at h
  rw [h, h'.2]
  exact Bool.false_lt_true

theorem isIpv6_eq_of_preferred (hmem : channel ∈ history) (hmem' : channel' ∈ history)
    (h : preferred V history channel = true) (h' : preferred V history channel' = true) :
    channel'.isIpv6 V.parsesAsV6 = channel.isIpv6 V.parsesAsV6 := by
  unfold preferred at h h'
  cases hany : history.any fun c => c.isIpv6 V.parsesAsV6 with
  | false =>
      rw [List.any_eq_false] at hany
      rw [Bool.eq_false_iff.mpr (hany channel hmem), Bool.eq_false_iff.mpr (hany channel' hmem')]
  | true =>
      rw [hany] at h h'
      exact h'.trans h.symm

/-- The preferred channel that was confirmed last is stored. -/
theorem find_of_recent
    (h : (history.take maxLogs).find? (preferred V history) = some channel) :
    history.find? (fun c => c.sameEndpoint channel) = some channel := by
  obtain ⟨hpref, before, after, hsplit, hbefore⟩ := List.find?_eq_some_iff_append.mp h
  rw [List.find?_eq_some_iff_append]
  refine ⟨decide_eq_true rfl, before, after ++ history.drop maxLogs, ?_, fun c hc => ?_⟩
  · have hall := List.take_append_drop maxLogs history
    rw [hsplit, List.append_assoc, List.cons_append] at hall
    exact hall.symm
  · -- another one at its address would be preferred as well
    by_contra hsame
    have hsame : c.sameEndpoint channel = true := by simpa using hsame
    have hfirst := hbefore c hc
    rw [preferred_of_sameEndpoint hsame, hpref] at hfirst
    cases hfirst

theorem Stored.recency_lt (hst : Stored fingerprint history d)
    (h : (history.take maxLogs).find? (preferred V history) = some channel)
    (hpref : preferred V history channel' = true) (hne : channel' ≠ channel) :
    d.recency channel' < d.recency channel := by
  obtain ⟨hchannel, before, after, hsplit, hbefore⟩ := List.find?_eq_some_iff_append.mp h
  have hnotMem : ∀ c, preferred V history c = true → c ∉ before := by
    intro c hc hmem
    have hfirst := hbefore c hmem
    rw [hc] at hfirst
    cases hfirst
  have hindex : ∀ c, preferred V history c = true → (history.take maxLogs).findIdx? (· = c) =
      ((channel :: after).findIdx? (· = c)).map (· + before.length) := by
    intro c hc
    rw [hsplit, List.findIdx?_append]
    have hnone : before.findIdx? (· = c) = none := by
      rw [List.findIdx?_eq_none_iff]
      intro x hx
      simp only [decide_eq_false_iff_not]
      rintro rfl
      exact hnotMem x hc hx
    rw [hnone]
    rfl
  unfold StatefulDevice.recency
  rw [hst.lastConfirmed, hst.lastConfirmed, hindex channel hchannel, hindex channel' hpref,
    List.findIdx?_cons, List.findIdx?_cons, hsplit]
  simp only [Ne.symm hne, decide_true, decide_false, if_true, Bool.false_eq_true, if_false,
    Option.map_some, List.length_append, List.length_cons]
  cases hafter : after.findIdx? (· = channel') with
  | none => exact WithBot.bot_lt_coe _
  | some j =>
      have hlt := (List.findIdx?_eq_some_iff_getElem.mp hafter).1
      refine WithBot.coe_lt_coe.mpr ?_
      show before.length + (after.length + 1) - 1 - (j + 1 + before.length) <
        before.length + (after.length + 1) - 1 - (0 + before.length)
      omega

/-- A channel that was forgotten. -/
theorem Stored.recency_none (hst : Stored fingerprint history d)
    (h : channel ∉ history.take maxLogs) : d.recency channel = ⊥ := by
  have hnone : (history.take maxLogs).findIdx? (· = channel) = none := by
    rw [List.findIdx?_eq_none_iff]
    intro c hc
    simp only [decide_eq_false_iff_not]
    rintro rfl
    exact h hc
  unfold StatefulDevice.recency
  rw [hst.lastConfirmed, hnone]
  rfl

theorem Stored.mem_channels (hst : Stored fingerprint history d) :
    (channel, .available) ∈ d.channels ↔
      history.find? (fun c => c.sameEndpoint channel) = some channel := by
  rw [hst.channels]
  exact and_iff_right rfl

/-- A channel of the better kind is stored, if there is a history. -/
theorem exists_preferred (h : history ≠ []) : ∃ channel, preferred V history channel = true ∧
    history.find? (fun c => c.sameEndpoint channel) = some channel := by
  obtain ⟨c, hc, hpref⟩ : ∃ c ∈ history, preferred V history c = true := by
    unfold preferred
    cases hany : history.any fun c => c.isIpv6 V.parsesAsV6 with
    | true => simpa using hany
    | false =>
        obtain ⟨c, hc⟩ := List.exists_mem_of_ne_nil history h
        exact ⟨c, hc, rfl⟩
  -- the last confirmation at its address
  have hself : c.sameEndpoint c = true := decide_eq_true rfl
  obtain ⟨channel, hchannel⟩ := Option.isSome_iff_exists.mp
    (List.find?_isSome (p := fun x => x.sameEndpoint c).mpr ⟨c, hc, hself⟩)
  have hsame : channel.sameEndpoint c = true :=
    List.find?_some (p := fun x : DeviceChannel => x.sameEndpoint c) hchannel
  refine ⟨channel, (preferred_of_sameEndpoint hsame).trans hpref, ?_⟩
  have hhost : channel.host = c.host := of_decide_eq_true hsame
  unfold DeviceChannel.sameEndpoint at hchannel ⊢
  rw [hhost]
  exact hchannel

/-- **The channels that rank highest**, when one of the better kind is
remembered. -/
theorem Stored.top_recent (hst : Stored fingerprint history d)
    (h : (history.take maxLogs).find? (preferred V history) = some channel)
    (entry : DeviceChannel × ChannelStatus) :
    d.Top V d.channels entry ↔ entry = (channel, .available) := by
  have hpref : preferred V history channel = true := List.find?_some h
  have hmem : channel ∈ history := List.mem_of_mem_take (List.mem_of_find?_eq_some h)
  have hstored := hst.mem_channels.mpr (find_of_recent h)
  have hbelow : ∀ other ∈ d.channels, other ≠ (channel, .available) →
      ¬ d.rankKey V (channel, .available) ≤ d.rankKey V other := by
    rintro ⟨other, status⟩ hother hne
    obtain ⟨rfl, hfind⟩ := (hst.channels _).mp hother
    have hne : other ≠ channel := fun heq => hne (by rw [heq])
    rw [rankKey_le, not_or, not_and]
    cases hbetter : preferred V history other with
    | true =>
        have heq := isIpv6_eq_of_preferred hmem (List.mem_of_find?_eq_some hfind) hpref hbetter
        rw [heq]
        exact ⟨lt_irrefl _, fun _ => not_le.mpr (hst.recency_lt h hbetter hne)⟩
    | false =>
        have hlt := isIpv6_lt_of_preferred hpref hbetter
        exact ⟨lt_asymm hlt, fun heq => absurd heq (ne_of_gt hlt)⟩
  constructor
  · rintro ⟨hentry, htop⟩
    by_contra hne
    exact hbelow entry hentry hne (htop _ hstored)
  · rintro rfl
    refine ⟨hstored, fun other hother => ?_⟩
    by_cases hsame : other = (channel, .available)
    · rw [hsame]
    · exact le_of_not_ge (hbelow other hother hsame)

/-- **The channels that rank highest**, when all those of the better kind were
forgotten. -/
theorem Stored.top_forgotten (hst : Stored fingerprint history d) (hne : history ≠ [])
    (h : (history.take maxLogs).find? (preferred V history) = none)
    (entry : DeviceChannel × ChannelStatus) :
    d.Top V d.channels entry ↔ entry ∈ d.channels ∧ preferred V history entry.1 = true := by
  have hforgotten : ∀ c, preferred V history c = true → d.recency c = ⊥ := by
    intro c hc
    refine hst.recency_none fun hmem => ?_
    exact List.find?_eq_none.mp h c hmem hc
  constructor
  · rintro ⟨hentry, htop⟩
    refine ⟨hentry, ?_⟩
    by_contra hworse
    obtain ⟨better, hbetter, hfind⟩ := exists_preferred (V := V) hne
    have hle := htop _ (hst.mem_channels.mpr hfind)
    obtain ⟨channel, status⟩ := entry
    obtain ⟨rfl, -⟩ := (hst.channels _).mp hentry
    have hlt := isIpv6_lt_of_preferred hbetter (Bool.eq_false_iff.mpr hworse)
    rcases rankKey_le.mp hle with hgt | ⟨heq, -⟩
    · exact lt_asymm hgt hlt
    · exact absurd heq (ne_of_gt hlt)
  · rintro ⟨hentry, hpref⟩
    refine ⟨hentry, ?_⟩
    obtain ⟨channel, status⟩ := entry
    obtain ⟨rfl, hchannel⟩ := (hst.channels _).mp hentry
    rintro ⟨other, status⟩ hother
    obtain ⟨rfl, hfind⟩ := (hst.channels _).mp hother
    rw [rankKey_le]
    cases hbetter : preferred V history other with
    | true =>
        refine .inr ⟨?_, ?_⟩
        · exact isIpv6_eq_of_preferred (List.mem_of_find?_eq_some hchannel)
            (List.mem_of_find?_eq_some hfind) hpref hbetter
        · rw [hforgotten other hbetter, hforgotten channel hpref]
    | false => exact .inl (isIpv6_lt_of_preferred hpref hbetter)

/-- What is used of a stored device, whatever the order of the hash map. -/
theorem Stored.runSend_https (hst : Stored fingerprint history d) (hne : history ≠ []) :
    (∀ order, order.Perm d.channels → ∃ dial, runSend V d order = some dial ∧
      dial.protocol = .https ∧ dial.expectedFingerprint = some fingerprint) ↔
    ∀ entry, d.Top V d.channels entry → entry.1.protocol = .https := by
  constructor
  · intro h entry htop
    have hperm := List.perm_cons_erase htop.1
    obtain ⟨dial, hdial, hprotocol, -⟩ := h _ hperm.symm
    have htop' : d.Top V (entry :: d.channels.erase entry) entry :=
      ⟨List.mem_cons_self, fun other hother => htop.2 other (hperm.mem_iff.mpr hother)⟩
    obtain ⟨⟨http⟩, status⟩ := entry
    unfold runSend at hdial
    rw [htop'.head] at hdial
    cases hdial
    exact hprotocol
  · intro h order horder
    obtain ⟨better, -, hfind⟩ := exists_preferred (V := V) hne
    have hmem := horder.mem_iff.mpr (hst.mem_channels.mpr hfind)
    obtain ⟨channel, hchannel⟩ : ∃ channel, (d.rankedChannels V order).head? = some channel := by
      have hmapped : better ∈ d.rankedChannels V order :=
        List.mem_map_of_mem (f := Prod.fst) (List.mem_mergeSort.mpr hmem)
      exact ⟨_, List.head?_eq_some_head (List.ne_nil_of_mem hmapped)⟩
    obtain ⟨entry, ⟨hentry, htop⟩, rfl⟩ := rankedChannels_head hchannel
    have hhttps := h entry ⟨horder.mem_iff.mp hentry,
      fun other hother => htop other (horder.mem_iff.mpr hother)⟩
    obtain ⟨⟨http⟩, status⟩ := entry
    have hhttps : http.protocol = .https := hhttps
    unfold runSend
    rw [hchannel]
    refine ⟨_, rfl, hhttps, ?_⟩
    show (match http.protocol with
      | .https => some d.device.fingerprint
      | .http => none) = some fingerprint
    rw [hhttps, hst.fingerprint]

/-- **One stored device.** -/
theorem Stored.httpsFirst_iff (hst : Stored fingerprint history d) (hne : history ≠ []) :
    (∀ entry, d.Top V d.channels entry → entry.1.protocol = .https) ↔ HttpsFirst V history := by
  unfold HttpsFirst
  cases hrecent : (history.take maxLogs).find? (preferred V history) with
  | some channel =>
      constructor
      · intro h
        exact h _ ((hst.top_recent hrecent _).mpr rfl)
      · rintro h entry htop
        rw [(hst.top_recent hrecent entry).mp htop]
        exact h
  | none =>
      constructor
      · intro h channel _ hpref hfind
        exact h (channel, .available)
          ((hst.top_forgotten hne hrecent _).mpr ⟨hst.mem_channels.mpr hfind, hpref⟩)
      · rintro h ⟨channel, status⟩ htop
        obtain ⟨hmem, hpref⟩ := (hst.top_forgotten hne hrecent _).mp htop
        obtain ⟨rfl, hfind⟩ := (hst.channels _).mp hmem
        exact h channel (List.mem_of_find?_eq_some hfind) hpref hfind

end First

/-! ## §7  Every history -/

def Confirmation.answer? : Confirmation → Option HostAnswer
  | .probe _ _ _ answer | .announcement _ _ _ answer => some answer
  | .register _ _ => none

/-- The device with this fingerprint was confirmed over HTTPS. -/
def Proven (V : Env) (fingerprint : String) (cs : List Confirmation) : Prop :=
  ∃ c ∈ cs, ∃ answer device, c.answer? = some answer ∧ c.device? V = some device ∧
    device.fingerprint = fingerprint ∧ device.channel.protocol = .https

section Every

variable {V : Env} {fingerprint : String} {cs : List Confirmation}

/-- A transfer to the device with this fingerprint connects to nobody who does
not have the certificate. -/
def NoDowngrade (V : Env) (fingerprint : String) (cs : List Confirmation) : Prop :=
  ∀ d, byFingerprint (discovered V cs) fingerprint = some d → ∀ order, order.Perm d.channels →
    ∃ dial, runSend V d order = some dial ∧ dial.protocol = .https ∧
      dial.expectedFingerprint = some fingerprint

theorem noDowngrade_of_past (hne : past V fingerprint cs ≠ []) :
    NoDowngrade V fingerprint cs ↔ HttpsFirst V (past V fingerprint cs) := by
  have hstored := @stored_discovered V fingerprint cs
  cases hfind : byFingerprint (discovered V cs) fingerprint with
  | none =>
      rw [hfind] at hstored
      exact absurd hstored hne
  | some d =>
      rw [hfind] at hstored
      have hst : Stored fingerprint (past V fingerprint cs) d := hstored
      rw [← hst.httpsFirst_iff hne, ← hst.runSend_https hne]
      unfold NoDowngrade
      constructor
      · intro h
        exact h d hfind
      · intro h d' hd'
        obtain rfl : d = d' := Option.some.inj (hfind.symm.trans hd')
        exact h

theorem Proven.past_ne_nil (h : Proven V fingerprint cs) : past V fingerprint cs ≠ [] := by
  obtain ⟨c, hc, -, device, -, hdevice, hfingerprint, -⟩ := h
  refine List.ne_nil_of_mem (a := device.channel) ?_
  unfold past
  rw [List.mem_reverse]
  refine List.mem_map_of_mem (List.mem_filter.mpr ⟨?_, by simpa using hfingerprint⟩)
  exact List.mem_filterMap.mpr ⟨c, hc, hdevice⟩

end Every

/-- **A known device is not downgraded** exactly when the channel of the better
kind over which it was confirmed last is HTTPS. -/
theorem no_downgrade_iff (V : Env) (fingerprint : String) (cs : List Confirmation)
    (hproven : Proven V fingerprint cs) :
    NoDowngrade V fingerprint cs ↔ HttpsFirst V (past V fingerprint cs) :=
  noDowngrade_of_past hproven.past_ne_nil

instance (V : Env) (history : List DeviceChannel) : Decidable (HttpsFirst V history) :=
  match h : (history.take maxLogs).find? (preferred V history) with
  | some channel => decidable_of_iff (channel.protocol = .https) (by rw [HttpsFirst, h])
  | none => decidable_of_iff (∀ channel ∈ history, preferred V history channel = true →
      history.find? (fun c => c.sameEndpoint channel) = some channel → channel.protocol = .https)
      (by rw [HttpsFirst, h])

/-! ## §8  A device that is downgraded -/

namespace Sample

/-- Certificates are valid; the fingerprint counts their bytes. Addresses with a
colon are IPv6. -/
def laptop : Env where
  certs :=
    { verifyCertFromDer _ := true
      verifySignature _ _ := true
      publicKeyFromCertDer _ := some "key"
      fingerprintFromCertDer cert := String.ofList (List.replicate cert.length 'A') }
  parsesAsV6 host := host.toList.contains ':'
  fingerprint := "own"

/-- The phone has the certificate `AA`, and is probed over HTTPS. -/
def probed : Confirmation :=
  .probe "10.0.0.2" 53317 .https ⟨[1, 2], [], 200, some ⟨"Phone", "2.2", none, none, "AA", false⟩⟩

/-- Another host announces the same fingerprint over HTTP, and answers. -/
def claimed : Confirmation :=
  .announcement "10.0.0.9" none ⟨53317, .http, "AA"⟩
    ⟨[], [], 200, some ⟨"Phone", "2.2", none, none, "AA", false⟩⟩

theorem probed_proven {cs : List Confirmation} (h : probed ∈ cs) : Proven laptop "AA" cs :=
  ⟨probed, h, _, _, rfl, rfl, rfl, rfl⟩

end Sample

/-- The phone is probed again after the other host. -/
theorem no_downgrade_probed_again :
    NoDowngrade Sample.laptop "AA" [Sample.probed, Sample.claimed, Sample.probed] :=
  (no_downgrade_iff Sample.laptop "AA" _ (Sample.probed_proven List.mem_cons_self)).mpr (by decide)

/-- The other host comes last, and transfers go to it without any certificate. -/
theorem downgraded_by_claim : Proven Sample.laptop "AA" [Sample.probed, Sample.claimed] ∧
    ¬ NoDowngrade Sample.laptop "AA" [Sample.probed, Sample.claimed] := by
  have hproven := @Sample.probed_proven [Sample.probed, Sample.claimed] List.mem_cons_self
  refine ⟨hproven, fun h => ?_⟩
  exact absurd ((noDowngrade_of_past hproven.past_ne_nil).mp h) (by decide)

end FireBoxTransfer.Discovery
