import Mathlib.Logic.Function.Basic
import FireBoxTransfer.Signaling.Model

/-!
# What a client knows of the others

A client folds the messages of its queue. The application keeps the devices under
their fingerprints and finds them again by their signaling id; as long as every peer
keeps its token this is a map from peers to their last information.
-/

namespace FireBoxTransfer.Signaling

/-! ## §1  Knowledge -/

/-- The last information on each peer that is known. -/
abbrev Peers := PeerId → Option ClientInfoWithoutId

namespace Peers

def none : Peers := fun _ => Option.none

/-- A list of peers, as in a Hello. -/
def meet (v : Peers) (peers : List ClientInfo) : Peers :=
  peers.foldl (fun v c => Function.update v c.id (some c.toClientInfoWithoutId)) v

def learn (v : Peers) : WsServerMessage → Peers
  | .hello _ peers => v.meet peers
  | .join peer | .update peer => Function.update v peer.id (some peer.toClientInfoWithoutId)
  | .left peerId => Function.update v peerId Option.none
  | .offer _ | .answer _ | .error _ => v

theorem meet_of_notMem {v : Peers} {peers : List ClientInfo} {p : PeerId}
    (h : ∀ c ∈ peers, c.id ≠ p) : v.meet peers p = v p := by
  unfold meet
  induction peers generalizing v with
  | nil => rfl
  | cons c peers ih =>
      obtain ⟨hc, hrest⟩ := List.forall_mem_cons.mp h
      rw [List.foldl_cons, ih hrest, Function.update_of_ne (Ne.symm hc)]

/-- A peer of the list is known by its entries, if they all say the same. -/
theorem meet_of_mem {v : Peers} {peers : List ClientInfo} {p : PeerId}
    {info : ClientInfoWithoutId} (hmem : ∃ c ∈ peers, c.id = p)
    (hsame : ∀ c ∈ peers, c.id = p → c.toClientInfoWithoutId = info) :
    v.meet peers p = some info := by
  induction peers generalizing v with
  | nil =>
      obtain ⟨c, hc, -⟩ := hmem
      cases hc
  | cons c peers ih =>
      obtain ⟨hc, hrest⟩ := List.forall_mem_cons.mp hsame
      by_cases hlater : ∃ c' ∈ peers, c'.id = p
      · exact ih hlater hrest
      · have hnot : ∀ c' ∈ peers, c'.id ≠ p := fun c' hc' heq => hlater ⟨c', hc', heq⟩
        obtain ⟨c', hc', hid⟩ := hmem
        obtain rfl : c' = c := by
          rcases List.mem_cons.mp hc' with heq | hc'
          · exact heq
          · exact absurd hid (hnot c' hc')
        have hfold : v.meet (c' :: peers) p =
            meet (Function.update v c'.id (some c'.toClientInfoWithoutId)) peers p := rfl
        rw [hfold, meet_of_notMem hnot, hid, Function.update_self, hc hid]

/-- What is known of a peer after a list does not depend on what is known of others. -/
theorem meet_congr {v w : Peers} {p : PeerId} (h : v p = w p) (peers : List ClientInfo) :
    v.meet peers p = w.meet peers p := by
  unfold meet
  induction peers generalizing v w with
  | nil => exact h
  | cons c peers ih =>
      rw [List.foldl_cons, List.foldl_cons]
      refine ih ?_
      by_cases hp : p = c.id
      · rw [hp, Function.update_self, Function.update_self]
      · rw [Function.update_of_ne hp, Function.update_of_ne hp, h]

end Peers

/-! ## §2  The devices of the application -/

/-- A device as the signaling connection finds it; `DeviceType.desktop` stands for
none. -/
structure Device where
  signalingId : PeerId
  version : String
  fingerprint : String
  «alias» : String
  deviceModel : Option String
  deviceType : DeviceType
deriving DecidableEq

def ClientInfo.toDevice (c : ClientInfo) : Device where
  signalingId := c.id
  version := c.version
  fingerprint := c.token
  «alias» := c.alias
  deviceModel := c.deviceModel
  deviceType := c.deviceType.getD .desktop

/-- `signalingDevices`: the sets of devices with one fingerprint. -/
abbrev SignalingDevices := AssocMap String (List Device)

namespace SignalingDevices

/-- `RegisterSignalingDeviceAction`. -/
def register (device : Device) (m : SignalingDevices) : SignalingDevices :=
  let existingDevices := (m.get? device.fingerprint).getD []
  let existingDevices :=
    match existingDevices.find? fun e => e.signalingId = device.signalingId with
    | some existingDevice => existingDevices.filter (· ≠ existingDevice)
    | none => existingDevices
  m.insert device.fingerprint
    (if device ∈ existingDevices then existingDevices else existingDevices ++ [device])

/-- `UnregisterSignalingDeviceAction`. -/
def unregister (signalingId : PeerId) (m : SignalingDevices) : SignalingDevices :=
  m.mapVal fun _ devices => devices.filter (·.signalingId ≠ signalingId)

/-- The loop over the stream of messages. -/
def receive (m : SignalingDevices) : WsServerMessage → SignalingDevices
  | .hello _ peers => peers.foldl (fun m c => register c.toDevice m) m
  | .join peer | .update peer => register peer.toDevice m
  | .left peerId => unregister peerId m
  | .offer _ | .answer _ | .error _ => m

def Holds (m : SignalingDevices) (d : Device) : Prop :=
  ∃ devices, m.get? d.fingerprint = some devices ∧ d ∈ devices

end SignalingDevices

/-! ## §3  The application knows what the messages say -/

/-- The devices are the peers that are known, each under the token it has kept. -/
structure Represents (token : PeerId → String) (m : SignalingDevices) (v : Peers) : Prop where
  keyed : ∀ fingerprint devices, m.get? fingerprint = some devices →
    ∀ d ∈ devices, d.fingerprint = fingerprint
  known : ∀ d, m.Holds d ↔
    ∃ info, v d.signalingId = some info ∧ d = (ClientInfo.of info d.signalingId).toDevice
  kept : ∀ p info, v p = some info → info.token = token p

/-- A message says of every peer that it has the token it always had. -/
def WsServerMessage.KeepsTokens (token : PeerId → String) : WsServerMessage → Prop
  | .hello _ peers => ∀ c ∈ peers, c.token = token c.id
  | .join peer | .update peer => peer.token = token peer.id
  | .left _ | .offer _ | .answer _ | .error _ => True

namespace Represents

variable {token : PeerId → String} {m : SignalingDevices} {v : Peers}

theorem empty (token : PeerId → String) : Represents token .empty .none where
  keyed fingerprint devices hget := nomatch hget
  known d := by
    constructor
    · rintro ⟨devices, hget, -⟩
      cases hget
    · rintro ⟨info, hinfo, -⟩
      cases hinfo
  kept p info hinfo := nomatch hinfo

theorem unique (h : Represents token m v) {d e : Device} (hd : m.Holds d) (he : m.Holds e)
    (hid : d.signalingId = e.signalingId) : d = e := by
  obtain ⟨info, hinfo, hdevice⟩ := (h.known d).mp hd
  obtain ⟨info', hinfo', hdevice'⟩ := (h.known e).mp he
  rw [hid, hinfo', Option.some.injEq] at hinfo
  rw [hdevice, hdevice', hid, hinfo]

/-- What a registration leaves under the fingerprint. -/
theorem mem_existing (h : Represents token m v) (device d : Device) :
    d ∈ (match ((m.get? device.fingerprint).getD []).find? fun e =>
          e.signalingId = device.signalingId with
        | some existingDevice =>
            ((m.get? device.fingerprint).getD []).filter (· ≠ existingDevice)
        | none => (m.get? device.fingerprint).getD []) ↔
      d ∈ (m.get? device.fingerprint).getD [] ∧ d.signalingId ≠ device.signalingId := by
  have hholds : ∀ e ∈ (m.get? device.fingerprint).getD [], m.Holds e := by
    intro e he
    cases hget : m.get? device.fingerprint with
    | none =>
        rw [hget] at he
        cases he
    | some devices =>
        rw [hget] at he
        exact ⟨devices, by rw [h.keyed _ _ hget e he, hget], he⟩
  split
  · rename_i e hfind
    have he := List.mem_of_find?_eq_some hfind
    have hid : e.signalingId = device.signalingId := by simpa using List.find?_some hfind
    rw [List.mem_filter]
    refine and_congr_right fun hd => ?_
    rw [decide_eq_true_eq, not_iff_not]
    constructor
    · rintro rfl
      exact hid
    · intro hd'
      exact h.unique (hholds d hd) (hholds e he) (hd'.trans hid.symm)
  · rename_i hfind
    have hnot := List.find?_eq_none.mp hfind
    exact ⟨fun hd => ⟨hd, by simpa using hnot d hd⟩, And.left⟩

theorem register (h : Represents token m v) {c : ClientInfo} (hc : c.token = token c.id) :
    Represents token (m.register c.toDevice)
      (Function.update v c.id (some c.toClientInfoWithoutId)) := by
  have hfingerprint : c.toDevice.fingerprint = token c.id := hc
  have hmem : ∀ d devices, (m.register c.toDevice).get? c.toDevice.fingerprint = some devices →
      (d ∈ devices ↔ d = c.toDevice ∨
        (d ∈ (m.get? c.toDevice.fingerprint).getD [] ∧ d.signalingId ≠ c.id)) := by
    intro d devices hget
    rw [SignalingDevices.register, AssocMap.get?_insert_self, Option.some.injEq] at hget
    have hexisting := h.mem_existing c.toDevice d
    rw [← hget, ← show c.toDevice.signalingId = c.id from rfl, ← hexisting]
    split_ifs with hin
    · refine ⟨.inr, ?_⟩
      rintro (rfl | hd)
      · exact hin
      · exact hd
    · rw [List.mem_append, List.mem_singleton, or_comm]
  have hother : ∀ fingerprint, fingerprint ≠ c.toDevice.fingerprint →
      (m.register c.toDevice).get? fingerprint = m.get? fingerprint := fun _ hne =>
    AssocMap.get?_insert_ne hne
  constructor
  · intro fingerprint devices hget d hd
    by_cases hf : fingerprint = c.toDevice.fingerprint
    · subst hf
      rcases (hmem d devices hget).mp hd with rfl | ⟨hd, -⟩
      · rfl
      · cases hold : m.get? c.toDevice.fingerprint with
        | none =>
            rw [hold] at hd
            cases hd
        | some old =>
            rw [hold] at hd
            exact h.keyed _ old hold d hd
    · exact h.keyed fingerprint devices (by rw [← hother _ hf, hget]) d hd
  · intro d
    have hholds : (m.register c.toDevice).Holds d ↔
        d = c.toDevice ∨ (m.Holds d ∧ d.signalingId ≠ c.id) := by
      by_cases hf : d.fingerprint = c.toDevice.fingerprint
      · have hold : d ∈ (m.get? c.toDevice.fingerprint).getD [] ↔ m.Holds d := by
          unfold SignalingDevices.Holds
          rw [hf]
          cases m.get? c.toDevice.fingerprint <;> simp
        rw [← hold]
        constructor
        · rintro ⟨devices, hget, hd⟩
          exact (hmem d devices (hf ▸ hget)).mp hd
        · intro hd
          refine ⟨_, by rw [hf]; exact AssocMap.get?_insert_self, ?_⟩
          exact (hmem d _ AssocMap.get?_insert_self).mpr hd
      · have hne : d ≠ c.toDevice := fun heq => hf (by rw [heq])
        rw [or_iff_right hne]
        unfold SignalingDevices.Holds
        rw [hother _ hf, iff_self_and]
        intro hd hid
        -- the device would be under the token that the peer has kept
        obtain ⟨info, hinfo, hdevice⟩ := (h.known d).mp hd
        refine hf ?_
        rw [hfingerprint, hdevice, ← hid]
        exact h.kept _ info hinfo
    rw [hholds, h.known]
    by_cases hid : d.signalingId = c.id
    · rw [hid, Function.update_self]
      refine ⟨?_, ?_⟩
      · rintro (rfl | ⟨-, hne⟩)
        · exact ⟨c.toClientInfoWithoutId, rfl, rfl⟩
        · exact absurd rfl hne
      · rintro ⟨info, hinfo, hdevice⟩
        cases hinfo
        exact .inl hdevice
    · have hne : d ≠ c.toDevice := fun heq => hid (by rw [heq]; rfl)
      rw [Function.update_of_ne hid, or_iff_right hne, and_iff_left hid]
  · intro p info hinfo
    by_cases hp : p = c.id
    · subst hp
      rw [Function.update_self, Option.some.injEq] at hinfo
      rw [← hinfo]
      exact hc
    · rw [Function.update_of_ne hp] at hinfo
      exact h.kept p info hinfo

theorem registerAll (h : Represents token m v) {peers : List ClientInfo}
    (hpeers : ∀ c ∈ peers, c.token = token c.id) :
    Represents token (peers.foldl (fun m c => m.register c.toDevice) m) (v.meet peers) := by
  induction peers generalizing m v with
  | nil => exact h
  | cons c peers ih =>
      obtain ⟨hc, hrest⟩ := List.forall_mem_cons.mp hpeers
      exact ih (h.register hc) hrest

theorem unregister (h : Represents token m v) (p : PeerId) :
    Represents token (m.unregister p) (Function.update v p none) := by
  have hget : ∀ fingerprint, (m.unregister p).get? fingerprint =
      (m.get? fingerprint).map fun devices => devices.filter (·.signalingId ≠ p) := fun _ =>
    AssocMap.get?_mapVal
  constructor
  · intro fingerprint devices hdevices d hd
    rw [hget, Option.map_eq_some_iff] at hdevices
    obtain ⟨old, hold, rfl⟩ := hdevices
    exact h.keyed fingerprint old hold d (List.mem_filter.mp hd).1
  · intro d
    have hholds : (m.unregister p).Holds d ↔ m.Holds d ∧ d.signalingId ≠ p := by
      unfold SignalingDevices.Holds
      rw [hget]
      cases m.get? d.fingerprint <;> simp
    rw [hholds, h.known]
    by_cases hid : d.signalingId = p
    · subst hid
      simp
    · rw [Function.update_of_ne hid, and_iff_left hid]
  · intro q info hinfo
    by_cases hq : q = p
    · subst hq
      rw [Function.update_self] at hinfo
      cases hinfo
    · rw [Function.update_of_ne hq] at hinfo
      exact h.kept q info hinfo

theorem receive (h : Represents token m v) {msg : WsServerMessage} (hmsg : msg.KeepsTokens token) :
    Represents token (m.receive msg) (v.learn msg) := by
  cases msg with
  | hello client peers => exact h.registerAll hmsg
  | join peer => exact h.register hmsg
  | update peer => exact h.register hmsg
  | left peerId => exact h.unregister peerId
  | offer | answer | error => exact h

/-- **The application folds its messages** into the devices that they make known. -/
theorem foldl (h : Represents token m v) {msgs : List WsServerMessage}
    (hmsgs : ∀ msg ∈ msgs, msg.KeepsTokens token) :
    Represents token (msgs.foldl SignalingDevices.receive m) (msgs.foldl Peers.learn v) := by
  induction msgs generalizing m v with
  | nil => exact h
  | cons msg msgs ih =>
      obtain ⟨hmsg, hrest⟩ := List.forall_mem_cons.mp hmsgs
      exact ih (h.receive hmsg) hrest

end Represents

end FireBoxTransfer.Signaling
