import FireBoxTransfer.Core.Discovery

/-!
# The store of devices

What holds of the store however the devices were found: one entry for each
fingerprint, in the order in which they were first seen, and with it the channels
and the last confirmations. The best channel is found among them; but how
recently a channel was confirmed is looked up in a log that is cut.
-/

namespace FireBoxTransfer.Discovery

/-! ## §1  One device -/

/-- A device that was confirmed as `last` at its latest confirmation, the first one or a
later one. -/
structure StatefulDevice.Consistent (kind : DeviceLogKind) (last : DiscoveredDevice)
    (d : StatefulDevice) : Prop where
  device : d.device = last
  current : (last.channel, .available) ∈ d.channels
  hosts : (d.channels.map fun entry => entry.1.host).Nodup
  logs : d.logs.length ≤ maxLogs
  latest : d.logs.getLast? = some ⟨kind, last.channel⟩

section Device

variable {V : Env} {known d : StatefulDevice} {device last : DiscoveredDevice}
  {kind : DeviceLogKind} {order : List (DeviceChannel × ChannelStatus)}

theorem consistent_new : (StatefulDevice.new device).Consistent .discovered device where
  device := rfl
  current := List.mem_cons_self
  hosts := List.nodup_singleton _
  logs := by
    show 1 ≤ maxLogs
    decide
  latest := rfl

/-- The channels at other hosts stay, and the log is cut from its front. -/
theorem StatefulDevice.Consistent.confirm (h : known.Consistent kind last) :
    (known.confirm device).Consistent .updated device where
  device := rfl
  current := List.mem_cons_self
  hosts := by
    show (device.channel.host :: _).Nodup
    refine List.nodup_cons.mpr ⟨fun hmem => ?_, ?_⟩
    · obtain ⟨entry, hentry, hhost⟩ := List.mem_map.mp hmem
      have hother := (List.mem_filter.mp hentry).2
      simp [DeviceChannel.sameEndpoint, hhost] at hother
    · exact h.hosts.sublist (List.filter_sublist.map _)
  logs := by
    show (List.drop _ _).length ≤ maxLogs
    rw [List.length_drop]
    omega
  latest := by
    show (List.drop _ _).getLast? = _
    have hlogs := h.logs
    rw [List.getLast?_drop, List.length_append, if_neg, List.getLast?_append]
    · rfl
    · show ¬ known.logs.length + 1 ≤ known.logs.length + 1 - maxLogs
      unfold maxLogs
      omega

/-- Some channel comes first, and it is one of the device. -/
theorem StatefulDevice.Consistent.best (h : d.Consistent kind last)
    (horder : order.Perm d.channels) :
    ∃ entry ∈ d.channels, (d.rankedChannels V order).head? = some entry.1 := by
  have hmem : last.channel ∈ d.rankedChannels V order :=
    List.mem_map_of_mem (f := Prod.fst) (List.mem_mergeSort.mpr (horder.mem_iff.mpr h.current))
  have hhead := List.head?_eq_some_head (List.ne_nil_of_mem hmem)
  obtain ⟨entry, ⟨hentry, -⟩, hchannel⟩ := rankedChannels_head hhead
  exact ⟨entry, horder.mem_iff.mp hentry, by rw [hhead, hchannel]⟩

end Device

/-! ## §2  Every device -/

/-- The latest confirmation of a fingerprint. -/
def latest (fingerprint : String) (ds : List DiscoveredDevice) : Option DiscoveredDevice :=
  ds.reverse.find? fun device => device.fingerprint = fingerprint

/-- Whether a fingerprint was confirmed once, or again. -/
def logKind (fingerprint : String) (ds : List DiscoveredDevice) : DeviceLogKind :=
  if (ds.filter fun device => device.fingerprint = fingerprint).length ≤ 1 then .discovered
  else .updated

section Every

variable {devices : List StatefulDevice} {d : StatefulDevice} {device : DiscoveredDevice}
  {fingerprint : String} {ds : List DiscoveredDevice}

theorem latest_append : latest fingerprint (ds ++ [device]) =
    if device.fingerprint = fingerprint then some device else latest fingerprint ds := by
  unfold latest
  rw [List.reverse_append, List.reverse_singleton, List.singleton_append, List.find?_cons]
  split_ifs with hsame
  · simp [hsame]
  · simp [hsame]

theorem filter_eq_nil_of_latest (h : latest fingerprint ds = none) :
    ds.filter (fun device => device.fingerprint = fingerprint) = [] := by
  rw [List.filter_eq_nil_iff]
  intro device hdevice
  exact List.find?_eq_none.mp h device (List.mem_reverse.mpr hdevice)

theorem logKind_append : logKind fingerprint (ds ++ [device]) =
    if device.fingerprint = fingerprint then
      if latest fingerprint ds = none then .discovered else .updated
    else logKind fingerprint ds := by
  unfold logKind
  rw [List.filter_append]
  by_cases hsame : device.fingerprint = fingerprint
  · rw [if_pos hsame]
    by_cases hfirst : latest fingerprint ds = none
    · rw [if_pos hfirst, filter_eq_nil_of_latest hfirst]
      simp [hsame]
    · rw [if_neg hfirst]
      have hmem : ds.filter (fun device => device.fingerprint = fingerprint) ≠ [] := by
        intro hnil
        refine hfirst (List.find?_eq_none.mpr fun x hx => ?_)
        exact List.filter_eq_nil_iff.mp hnil x (List.mem_reverse.mp hx)
      have hpos := List.length_pos_iff.mpr hmem
      simp only [List.length_append, hsame, decide_true, List.filter_cons_of_pos, List.filter_nil,
        List.length_singleton]
      exact if_neg (by omega)
  · rw [if_neg hsame]
    simp [hsame]

/-- What is stored of each fingerprint. -/
theorem consistent_store : match byFingerprint (store ds) fingerprint with
    | none => latest fingerprint ds = none
    | some d => ∃ last, latest fingerprint ds = some last ∧
        d.Consistent (logKind fingerprint ds) last := by
  induction ds using List.reverseRecOn with
  | nil => rfl
  | append_singleton ds device ih =>
      rw [store_append, byFingerprint_upsert, latest_append, logKind_append]
      by_cases hsame : device.fingerprint = fingerprint
      · simp only [if_pos hsame]
        cases hknown : byFingerprint (store ds) fingerprint with
        | none =>
            rw [hknown] at ih
            rw [if_pos ih]
            exact ⟨device, rfl, consistent_new⟩
        | some known =>
            rw [hknown] at ih
            obtain ⟨last, hlast, hknown⟩ := ih
            rw [if_neg (by rw [hlast]; nofun)]
            exact ⟨device, rfl, hknown.confirm⟩
      · simp only [if_neg hsame]
        exact ih

end Every

/-! ## §3  The order of the list -/

section Order

variable {devices : List StatefulDevice} {d : StatefulDevice} {device : DiscoveredDevice}
  {ds : List DiscoveredDevice}

/-- The fingerprints of the store, in its order. -/
def fingerprints (devices : List StatefulDevice) : List String :=
  devices.map fun d => d.device.fingerprint

theorem fingerprints_upsert : fingerprints (upsert devices device).1 =
    if device.fingerprint ∈ fingerprints devices then fingerprints devices
    else fingerprints devices ++ [device.fingerprint] := by
  induction devices with
  | nil => rfl
  | cons known devices ih =>
      rw [upsert_cons]
      unfold fingerprints at ih ⊢
      by_cases hsame : known.device.fingerprint = device.fingerprint
      · rw [if_pos hsame, if_pos (by simp [hsame])]
        exact congrArg (· :: _) hsame.symm
      · have hcons : device.fingerprint ∈ (known :: devices).map (fun d => d.device.fingerprint) ↔
            device.fingerprint ∈ devices.map fun d => d.device.fingerprint := by
          rw [List.map_cons, List.mem_cons, or_iff_right (Ne.symm hsame)]
        rw [if_neg hsame, List.map_cons, ih]
        split_ifs with hmem hmem' hmem'
        · rfl
        · exact absurd (hcons.mpr hmem) hmem'
        · exact absurd (hcons.mp hmem') hmem
        · rfl

theorem eraseDups_concat (seen : List String) (x : String) :
    (seen ++ [x]).eraseDups = if x ∈ seen then seen.eraseDups else seen.eraseDups ++ [x] := by
  rw [List.eraseDups_append]
  split_ifs with hmem
  · simp [List.removeAll, hmem]
  · simp [List.removeAll, hmem, List.eraseDups_cons]

/-- Devices are listed as they were first seen. -/
theorem fingerprints_store :
    fingerprints (store ds) = (ds.map DiscoveredDevice.fingerprint).eraseDups := by
  induction ds using List.reverseRecOn with
  | nil => rfl
  | append_singleton ds device ih =>
      rw [store_append, fingerprints_upsert, ih, List.map_append, List.map_singleton,
        eraseDups_concat]
      simp only [List.mem_eraseDups]

theorem nodup_fingerprints_store : (fingerprints (store ds)).Nodup := by
  induction ds using List.reverseRecOn with
  | nil => exact List.nodup_nil
  | append_singleton ds device ih =>
      rw [store_append, fingerprints_upsert]
      split_ifs with hmem
      · exact ih
      · exact List.nodup_append.mpr ⟨ih, List.nodup_singleton _, fun a ha b hb heq => hmem <| by
          rw [List.mem_singleton] at hb
          rwa [← hb, ← heq]⟩

/-- A device of the store is the one that is found. -/
theorem byFingerprint_of_mem (hnodup : (fingerprints devices).Nodup) (hd : d ∈ devices) :
    byFingerprint devices d.device.fingerprint = some d := by
  induction devices with
  | nil => cases hd
  | cons known devices ih =>
      unfold byFingerprint at ih ⊢
      obtain ⟨hknown, hrest⟩ := List.nodup_cons.mp hnodup
      rcases List.mem_cons.mp hd with rfl | hd
      · exact List.find?_cons_of_pos (by simp)
      · rw [List.find?_cons_of_neg, ih hrest hd]
        intro hsame
        refine hknown (List.mem_map.mpr ⟨d, hd, ?_⟩)
        exact (of_decide_eq_true hsame).symm

end Order

/-! ## §4  Every sequence -/

/-- **The store** after every sequence of upserts. -/
theorem store_invariant (V : Env) (ds : List DiscoveredDevice) :
    (fingerprints (store ds)).Nodup ∧
      fingerprints (store ds) = (ds.map DiscoveredDevice.fingerprint).eraseDups ∧
      ∀ d ∈ store ds, d.channels ≠ [] ∧ (d.device.channel, .available) ∈ d.channels ∧
        (d.channels.map fun entry => entry.1.host).Nodup ∧
        d.logs ≠ [] ∧ d.logs.length ≤ maxLogs ∧
        (∃ last, latest d.device.fingerprint ds = some last ∧ d.device = last ∧
          d.logs.getLast? = some ⟨logKind d.device.fingerprint ds, last.channel⟩) ∧
        ∀ order, order.Perm d.channels →
          ∃ entry ∈ d.channels, (d.rankedChannels V order).head? = some entry.1 := by
  refine ⟨nodup_fingerprints_store, fingerprints_store, fun d hd => ?_⟩
  have hstored := @consistent_store d.device.fingerprint ds
  rw [byFingerprint_of_mem nodup_fingerprints_store hd] at hstored
  obtain ⟨last, hlast, hd⟩ := hstored
  have hcurrent : (d.device.channel, .available) ∈ d.channels := by
    rw [hd.device]
    exact hd.current
  have hlogs : d.logs ≠ [] := by
    intro hnil
    have hlatest := hd.latest
    rw [hnil] at hlatest
    cases hlatest
  exact ⟨List.ne_nil_of_mem hcurrent, hcurrent, hd.hosts, hlogs, hd.logs,
    ⟨last, hlast, hd.device, hd.latest⟩, fun order horder => hd.best horder⟩

/-! ## §5  Channels by recency -/

/-- Two channels of the device that only their last confirmations tell apart. -/
def StatefulDevice.Comparable (V : Env) (d : StatefulDevice) (a b : DeviceChannel) : Prop :=
  a.isIpv6 V.parsesAsV6 = b.isIpv6 V.parsesAsV6 ∧
    ∃ status, (a, status) ∈ d.channels ∧ (b, status) ∈ d.channels

/-- Of two such channels the one that was confirmed last comes first; the history begins with
the latest confirmation. -/
def StatefulDevice.ByRecency (V : Env) (d : StatefulDevice) (history : List DeviceChannel)
    (order : List (DeviceChannel × ChannelStatus)) : Prop :=
  (d.rankedChannels V order).Pairwise fun a b =>
    d.Comparable V a b → history.idxOf a < history.idxOf b

/-- The channel that is known at its address, but is in no log any more. -/
structure Forgotten (history : List DeviceChannel) (channel : DeviceChannel) : Prop where
  known : history.find? (fun c => c.sameEndpoint channel) = some channel
  late : channel ∉ history.take maxLogs

/-- At most one channel of each kind is forgotten. -/
def FewForgotten (V : Env) (history : List DeviceChannel) : Prop :=
  ∀ a b, Forgotten history a → Forgotten history b →
    a.isIpv6 V.parsesAsV6 = b.isIpv6 V.parsesAsV6 → a = b

section Recency

variable {V : Env} {fingerprint : String} {history : List DeviceChannel} {d : StatefulDevice}
  {a b channel : DeviceChannel} {order : List (DeviceChannel × ChannelStatus)}
  {ds : List DiscoveredDevice}

theorem idxOf_lt_of_recent (h : channel ∈ history.take maxLogs) :
    history.idxOf channel < (history.take maxLogs).length ∧
      history.idxOf channel = (history.take maxLogs).idxOf channel := by
  have heq : history.idxOf channel = (history.take maxLogs).idxOf channel := by
    conv_lhs => rw [← List.take_append_drop maxLogs history]
    exact List.idxOf_append_of_mem h
  rw [heq]
  exact ⟨List.idxOf_lt_length_iff.mpr h, rfl⟩

theorem le_idxOf_of_late (h : channel ∉ history.take maxLogs) :
    (history.take maxLogs).length ≤ history.idxOf channel := by
  conv_rhs => rw [← List.take_append_drop maxLogs history]
  rw [List.idxOf_append_of_notMem h]
  exact Nat.le_add_right _ _

/-- A channel that is in the log. -/
theorem Stored.recency_recent (hst : Stored fingerprint history d)
    (h : channel ∈ history.take maxLogs) : d.recency channel =
      WithBot.some ((history.take maxLogs).length - 1 - history.idxOf channel) := by
  unfold StatefulDevice.recency
  rw [hst.lastConfirmed, (idxOf_lt_of_recent h).2,
    List.findIdx?_eq_some_of_exists ⟨channel, h, decide_eq_true rfl⟩]
  rfl

/-- **What the log tells** of two channels, unless it has forgotten both. -/
theorem Stored.idxOf_lt_of_recency_le (hst : Stored fingerprint history d) (hne : a ≠ b)
    (hknown : a ∈ history.take maxLogs ∨ b ∈ history.take maxLogs)
    (hle : d.recency b ≤ d.recency a) (hmem : a ∈ history) :
    history.idxOf a < history.idxOf b := by
  by_cases ha : a ∈ history.take maxLogs
  · obtain ⟨halt, -⟩ := idxOf_lt_of_recent ha
    by_cases hb : b ∈ history.take maxLogs
    · rw [hst.recency_recent ha, hst.recency_recent hb] at hle
      have hle := WithBot.coe_le_coe.mp hle
      obtain ⟨hblt, -⟩ := idxOf_lt_of_recent hb
      have hdiff : history.idxOf a ≠ history.idxOf b := fun heq =>
        hne ((List.idxOf_inj hmem).mp heq)
      omega
    · exact halt.trans_le (le_idxOf_of_late hb)
  · have hb := hknown.resolve_left ha
    rw [hst.recency_recent hb, hst.recency_none ha] at hle
    exact absurd hle (WithBot.not_coe_le_bot _)

theorem exists_stored (h : channelHistory fingerprint ds ≠ []) :
    ∃ d ∈ store ds, Stored fingerprint (channelHistory fingerprint ds) d := by
  have hst := @stored_store fingerprint ds
  cases hfind : byFingerprint (store ds) fingerprint with
  | none =>
      rw [hfind] at hst
      exact absurd hst h
  | some d =>
      rw [hfind] at hst
      exact ⟨d, List.mem_of_find?_eq_some hfind, hst⟩

theorem Stored.mem_history (hst : Stored fingerprint history d) {status : ChannelStatus}
    (h : (channel, status) ∈ d.channels) : channel ∈ history :=
  List.mem_of_find?_eq_some ((hst.channels _).mp h).2

theorem Stored.forgotten (hst : Stored fingerprint history d) {status : ChannelStatus}
    (h : (channel, status) ∈ d.channels) (hlate : channel ∉ history.take maxLogs) :
    Forgotten history channel :=
  ⟨((hst.channels _).mp h).2, hlate⟩

/-- No order of the hash map matters while few channels are forgotten. -/
theorem Stored.byRecency (hst : Stored fingerprint history d) (hfew : FewForgotten V history)
    (hhosts : (d.channels.map fun entry => entry.1.host).Nodup) (horder : order.Perm d.channels) :
    d.ByRecency V history order := by
  unfold StatefulDevice.ByRecency StatefulDevice.rankedChannels
  rw [List.pairwise_map]
  have hperm := (List.mergeSort_perm order
    fun a b => decide (d.rankKey V b ≤ d.rankKey V a)).trans horder
  have hnodup := (hperm.map fun entry => entry.1.host).nodup_iff.mpr hhosts
  have hdistinct : (order.mergeSort fun a b =>
      decide (d.rankKey V b ≤ d.rankKey V a)).Pairwise fun a b => a.1.host ≠ b.1.host :=
    List.pairwise_map.mp hnodup
  refine (rankedChannels_pairwise.and hdistinct).imp_of_mem ?_
  rintro ⟨a, statusA⟩ ⟨b, statusB⟩ hmemA hmemB ⟨hle, hhost⟩ ⟨hfamily, -⟩
  have hmemA := hperm.mem_iff.mp hmemA
  have hmemB := hperm.mem_iff.mp hmemB
  obtain ⟨rfl, -⟩ := (hst.channels _).mp hmemA
  obtain ⟨rfl, -⟩ := (hst.channels _).mp hmemB
  have hne : a ≠ b := fun heq => hhost (by rw [heq])
  refine hst.idxOf_lt_of_recency_le hne ?_ ?_ (hst.mem_history hmemA)
  · by_contra hboth
    rw [not_or] at hboth
    exact hne (hfew a b (hst.forgotten hmemA hboth.1) (hst.forgotten hmemB hboth.2) hfamily)
  · rcases rankKey_le.mp hle with hlt | ⟨-, hle⟩
    · exact absurd hfamily (ne_of_gt hlt)
    · exact hle

/-- Of two channels that are both forgotten, the hash map decides which one comes first. -/
theorem Stored.not_byRecency (hst : Stored fingerprint history d) (ha : Forgotten history a)
    (hb : Forgotten history b) (hfamily : a.isIpv6 V.parsesAsV6 = b.isIpv6 V.parsesAsV6)
    (hlt : history.idxOf b < history.idxOf a) :
    ∃ order, order.Perm d.channels ∧ ¬ d.ByRecency V history order := by
  have hmemA := hst.mem_channels.mpr ha.known
  have hmemB := hst.mem_channels.mpr hb.known
  have hne : ((b, .available) : DeviceChannel × ChannelStatus) ≠ (a, .available) := by
    intro heq
    obtain rfl : b = a := congrArg Prod.fst heq
    exact lt_irrefl _ hlt
  -- the hash map hands out `a` before `b`
  refine ⟨(a, .available) :: (b, .available) ::
    (d.channels.erase (a, .available)).erase (b, .available), ?_, fun hrecency => ?_⟩
  · have hrest := List.perm_cons_erase ((List.mem_erase_of_ne hne).mpr hmemB)
    exact ((List.perm_cons_erase hmemA).trans (hrest.cons _)).symm
  · have hle : d.rankKey V (b, .available) ≤ d.rankKey V (a, .available) := by
      refine rankKey_le.mpr (.inr ⟨hfamily.symm, ?_⟩)
      rw [hst.recency_none ha.late, hst.recency_none hb.late]
    have hfront : [(a, ChannelStatus.available), (b, .available)].Sublist
        ((a, .available) :: (b, .available) ::
          (d.channels.erase (a, .available)).erase (b, .available)) :=
      ((List.nil_sublist _).cons_cons _).cons_cons _
    have hsub := List.pair_sublist_mergeSort rankLe_trans rankLe_total (decide_eq_true hle) hfront
    have hpair := hrecency.sublist (hsub.map Prod.fst)
    have hcompare : d.Comparable V a b := ⟨hfamily, _, hmemA, hmemB⟩
    exact absurd (List.pairwise_pair.mp hpair hcompare) (Nat.lt_asymm hlt)

end Recency

/-- **Channels are ranked by recency**, however the hash map hands them out, exactly while at
most one channel of each kind was last confirmed before the log begins. -/
theorem ranked_by_recency_iff (V : Env) (ds : List DiscoveredDevice) {d : StatefulDevice}
    (hd : d ∈ store ds) :
    (∀ order, order.Perm d.channels →
        d.ByRecency V (channelHistory d.device.fingerprint ds) order) ↔
      FewForgotten V (channelHistory d.device.fingerprint ds) := by
  have hfind := byFingerprint_of_mem nodup_fingerprints_store hd
  have hst := @stored_store d.device.fingerprint ds
  have hconsistent := @consistent_store d.device.fingerprint ds
  rw [hfind] at hst hconsistent
  obtain ⟨last, -, hconsistent⟩ := hconsistent
  constructor
  · intro h a b ha hb hfamily
    rcases Nat.lt_trichotomy ((channelHistory d.device.fingerprint ds).idxOf a)
      ((channelHistory d.device.fingerprint ds).idxOf b) with hlt | heq | hgt
    · obtain ⟨order, horder, hnot⟩ := Stored.not_byRecency hst hb ha hfamily.symm hlt
      exact absurd (h order horder) hnot
    · exact (List.idxOf_inj (List.mem_of_find?_eq_some ha.known)).mp heq
    · obtain ⟨order, horder, hnot⟩ := Stored.not_byRecency hst ha hb hfamily hgt
      exact absurd (h order horder) hnot
  · intro hfew order horder
    exact Stored.byRecency hst hfew hconsistent.hosts horder

/-- Nothing is forgotten before the log is full. -/
theorem fewForgotten_of_length {V : Env} {history : List DeviceChannel}
    (h : history.length ≤ maxLogs) : FewForgotten V history := by
  intro a b ha _ _
  have hmem := List.mem_of_find?_eq_some ha.known
  rw [← List.take_of_length_le h] at hmem
  exact absurd hmem ha.late

/-! ## §6  A log that is too short -/

namespace Sample

/-- The phone, confirmed at this address. -/
def phoneAt (host : String) : DiscoveredDevice :=
  ⟨"Phone", "2.2", none, none, "AA", .http ⟨host, 53317, .https⟩, false⟩

/-- The phone leaves two addresses, and is confirmed at a third one all the time. -/
def moved : List DiscoveredDevice :=
  [phoneAt "10.0.0.2", phoneAt "10.0.0.3"] ++ List.replicate maxLogs (phoneAt "10.0.0.4")

theorem channelHistory_moved : channelHistory "AA" moved =
    List.replicate maxLogs (phoneAt "10.0.0.4").channel ++
      [(phoneAt "10.0.0.3").channel, (phoneAt "10.0.0.2").channel] := by
  have hfilter : moved.filter (fun device => device.fingerprint = "AA") = moved := by
    rw [List.filter_eq_self]
    intro device hdevice
    rcases List.mem_append.mp hdevice with hdevice | hdevice
    · rcases List.mem_cons.mp hdevice with rfl | hdevice
      · rfl
      · obtain rfl := List.mem_singleton.mp hdevice
        rfl
    · rw [List.eq_of_mem_replicate hdevice]
      rfl
  unfold channelHistory
  rw [hfilter, moved, List.map_append, List.map_replicate, List.reverse_append,
    List.reverse_replicate]
  rfl

theorem host_of_mem_replicate {channel : DeviceChannel}
    (h : channel ∈ List.replicate maxLogs (phoneAt "10.0.0.4").channel) :
    channel.host = "10.0.0.4" := by
  rw [List.eq_of_mem_replicate h]
  rfl

theorem forgotten_moved {host : String} (hhost : host ∈ ["10.0.0.2", "10.0.0.3"]) :
    Forgotten (channelHistory "AA" moved) (phoneAt host).channel := by
  rw [channelHistory_moved]
  have hother : host ≠ "10.0.0.4" := by
    rintro rfl
    exact absurd hhost (by decide)
  constructor
  · rw [List.find?_append, List.find?_eq_none.mpr, Option.none_or]
    · rcases List.mem_cons.mp hhost with rfl | hhost
      · rfl
      · rcases List.mem_singleton.mp hhost with rfl
        rfl
    · intro channel hchannel hsame
      exact hother ((of_decide_eq_true hsame).symm.trans (host_of_mem_replicate hchannel))
  · rw [List.take_left' List.length_replicate]
    intro hmem
    exact hother (host_of_mem_replicate hmem)

theorem idxOf_moved : (channelHistory "AA" moved).idxOf (phoneAt "10.0.0.3").channel <
    (channelHistory "AA" moved).idxOf (phoneAt "10.0.0.2").channel := by
  have hlate : ∀ host, host ≠ "10.0.0.4" →
      (phoneAt host).channel ∉ List.replicate maxLogs (phoneAt "10.0.0.4").channel :=
    fun host hother hmem => hother (host_of_mem_replicate hmem)
  rw [channelHistory_moved, List.idxOf_append_of_notMem (hlate _ (by decide)),
    List.idxOf_append_of_notMem (hlate _ (by decide))]
  exact Nat.add_lt_add_left (by decide) _

end Sample

/-- Two confirmations, and the last one comes first. -/
theorem ranked_by_recency_short :
    ∃ d ∈ store [Sample.phoneAt "10.0.0.2", Sample.phoneAt "10.0.0.3"],
      ∀ order, order.Perm d.channels → d.ByRecency Sample.laptop
        (channelHistory d.device.fingerprint
          [Sample.phoneAt "10.0.0.2", Sample.phoneAt "10.0.0.3"]) order := by
  have hmem : (StatefulDevice.new (Sample.phoneAt "10.0.0.2")).confirm
      (Sample.phoneAt "10.0.0.3") ∈
        store [Sample.phoneAt "10.0.0.2", Sample.phoneAt "10.0.0.3"] := by decide
  exact ⟨_, hmem, (ranked_by_recency_iff Sample.laptop _ hmem).mpr
    (fewForgotten_of_length (by decide))⟩

/-- Of the two addresses that the phone left, the hash map decides which one is tried first. -/
theorem ranked_by_map : ∃ d ∈ store Sample.moved, ∃ order, order.Perm d.channels ∧
    ¬ d.ByRecency Sample.laptop (channelHistory d.device.fingerprint Sample.moved) order := by
  have hfirst := @Sample.forgotten_moved "10.0.0.2" (by decide)
  have hsecond := @Sample.forgotten_moved "10.0.0.3" (by decide)
  obtain ⟨d, hd, hst⟩ := exists_stored (List.ne_nil_of_mem (List.mem_of_find?_eq_some hfirst.known))
  obtain ⟨order, horder, hnot⟩ := hst.not_byRecency (V := Sample.laptop) hfirst hsecond
    (by decide) Sample.idxOf_moved
  refine ⟨d, hd, order, horder, ?_⟩
  rw [hst.fingerprint]
  exact hnot

end FireBoxTransfer.Discovery
