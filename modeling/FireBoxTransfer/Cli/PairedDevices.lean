import FireBoxTransfer.Core.Discovery
import FireBoxTransfer.Framework.Printed
import FireBoxTransfer.Framework.Replaced
import Mathlib.Data.String.Basic

/-!
# Paired devices

The command line keeps the devices that the user has paired in a JSON file; their requests are
accepted without asking. Every change is written to a temporary file first, which then takes
the place of the file, and a change that could not be saved is kept for the run.
-/

namespace FireBoxTransfer

open Discovery Replaced Runs

namespace Cli

/-! ## §1  The file -/

def pairedDevicesVersion : ℕ := 1

/-- A channel as it is in the file. -/
structure PairedChannel where
  host : String
  port : BitVec 16
  protocol : ProtocolType
deriving DecidableEq

namespace PairedChannel

def ofHttp (channel : Discovery.HttpChannel) : PairedChannel :=
  ⟨channel.host, channel.port, channel.protocol⟩

/-- The channels of a device, best first. -/
def channelsOf (V : Env) (stored : StatefulDevice) (order : List (DeviceChannel × ChannelStatus)) :
    List PairedChannel :=
  ((stored.rankedChannels V order).filterMap DeviceChannel.http?).map ofHttp

def httpChannel (channel : PairedChannel) : Discovery.HttpChannel :=
  ⟨channel.host, channel.port, channel.protocol⟩

end PairedChannel

structure PairedDevice where
  «alias» : String
  channels : List PairedChannel
deriving DecidableEq

/-- The devices by their fingerprints. -/
structure PairedDevicesFile where
  version : ℕ
  devices : Std.ExtTreeMap String PairedDevice

/-- The JSON library on this file. -/
structure PairedJson where
  toStringPretty : PairedDevicesFile → List UInt8
  readVersion : List UInt8 → Option ℕ
  read : List UInt8 → Option PairedDevicesFile
  readVersion_write : ∀ file, readVersion (toStringPretty file) = some file.version
  read_write : ∀ file, read (toStringPretty file) = some file

/-! ## §2  Its text -/

namespace PrettyJson

def protocol : Printed ProtocolType :=
  Printed.string.map (fun | .http => "HTTP" | .https => "HTTPS")
    (fun text =>
      if text = "HTTP" then some .http else if text = "HTTPS" then some .https else none)
    fun protocol => by cases protocol <;> rfl

def port : Printed (BitVec 16) :=
  Printed.numberComma.map BitVec.toNat (fun n => if n < 2 ^ 16 then some (.ofNat 16 n) else none)
    fun port => by rw [if_pos port.isLt, BitVec.ofNat_toNat, BitVec.setWidth_eq]

def channel : Printed PairedChannel :=
  ((((Printed.string.behind "\x7b\n          \"host\": ").seq
      (port.behind ",\n          \"port\": ")).seq
      (protocol.behind "\n          \"protocol\": ")).before "\n        \x7d").map
    (fun c => ((c.host, c.port), c.protocol)) (fun r => some ⟨r.1.1, r.1.2, r.2⟩) fun _ => rfl

def channelBrackets : Printed.Brackets where
  empty := "[]"
  first := "[\n        "
  between := ",\n        "
  last := "\n      ]"
  not_empty _ := rfl
  not_between _ := rfl
  between_pos := by decide

def device : Printed (String × PairedDevice) :=
  (((Printed.string.seq (Printed.string.behind ": \x7b\n      \"alias\": ")).seq
      ((channel.list channelBrackets).behind ",\n      \"channels\": ")).before
      "\n    \x7d").map
    (fun e => ((e.1, e.2.alias), e.2.channels)) (fun r => some (r.1.1, ⟨r.1.2, r.2⟩)) fun _ => rfl

def deviceBrackets : Printed.Brackets where
  empty := "\x7b\x7d"
  first := "\x7b\n    "
  between := ",\n    "
  last := "\n  \x7d"
  not_empty _ := rfl
  not_between _ := rfl
  between_pos := by decide

theorem ofList_toList (m : Std.ExtTreeMap String PairedDevice) :
    Std.ExtTreeMap.ofList m.toList compare = m := by
  refine Std.ExtTreeMap.ext_getElem? fun k => ?_
  cases hk : m[k]? with
  | none =>
      refine Std.ExtTreeMap.getElem?_ofList_of_contains_eq_false
        (Bool.eq_false_iff.mpr fun hc => ?_)
      obtain ⟨⟨k', v⟩, hmem, rfl⟩ := List.mem_map.mp (List.contains_iff_mem.mp hc)
      rw [Std.ExtTreeMap.mem_toList_iff_getElem?_eq_some.mp hmem] at hk
      cases hk
  | some v =>
      exact Std.ExtTreeMap.getElem?_ofList_of_mem Std.ReflCmp.compare_self
        Std.ExtTreeMap.distinct_keys_toList (Std.ExtTreeMap.mem_toList_iff_getElem?_eq_some.mpr hk)

def version : Printed ℕ := Printed.numberComma.behind "\x7b\n  \"version\": "

def file : Printed PairedDevicesFile :=
  ((version.seq ((device.list deviceBrackets).behind "\n  \"devices\": ")).before
      "\n\x7d").map
    (fun file => (file.version, file.devices.toList))
    (fun r => some ⟨r.1, Std.ExtTreeMap.ofList r.2 compare⟩)
    fun file => by rw [ofList_toList]

end PrettyJson

def pairedJson : PairedJson where
  toStringPretty := PrettyJson.file.print
  readVersion text := (PrettyJson.version.parse text).map Prod.fst
  read := PrettyJson.file.parseAll
  readVersion_write file := by
    show (PrettyJson.version.parse ((PrettyJson.version.print file.version ++ _) ++ _)).map _ = _
    rw [List.append_assoc, PrettyJson.version.parse_print]
    rfl
  read_write := PrettyJson.file.parseAll_print

/-! ## §3  The store -/

/-- The version of the file in memory is always that of this build. -/
structure PairedDevices where
  devices : Std.ExtTreeMap String PairedDevice

namespace PairedDevices

def file (p : PairedDevices) : PairedDevicesFile := ⟨pairedDevicesVersion, p.devices⟩

def path (dir : String) : String := dir ++ "/paired-v2.json"

def temp (dir : String) : String := dir ++ "/paired-v2.json.tmp"

section Store

variable (json : PairedJson) (dir : String)

def load (disk : ReplacedFile) : Except String PairedDevices :=
  match disk.file with
  | none => .ok ⟨∅⟩
  | some text =>
      let invalid := "Invalid paired devices file: " ++ path dir
      match json.readVersion text with
      | none => .error invalid
      | some version =>
          if version = pairedDevicesVersion then
            match json.read text with
            | none => .error invalid
            | some file => .ok ⟨file.devices⟩
          else
            .error (path dir ++ " has version " ++ toString version ++
              ", but this build supports only version " ++ toString pairedDevicesVersion ++
              ". Was it written by a newer FireBoxTransfer CLI?")

/-- `save`; what is told when the file was not replaced names the operation that failed. -/
def save (p : PairedDevices) (disk : ReplacedFile) (a : Replacement) :
    ReplacedFile × Except String Unit :=
  let text := json.toStringPretty p.file
  (disk.replace text a, match a with
    | .renamed => .ok ()
    | .unopened => .error ("Could not write " ++ temp dir)
    | .written n =>
        .error ("Could not write " ++ if n < text.length then temp dir else path dir))

def contains (p : PairedDevices) (fingerprint : String) : Bool := p.devices.contains fingerprint

def insert (p : PairedDevices) (disk : ReplacedFile) (fingerprint «alias» : String)
    (channels : List PairedChannel) (a : Replacement) :
    PairedDevices × ReplacedFile × Except String Unit :=
  let p : PairedDevices := ⟨p.devices.insert fingerprint ⟨«alias», channels⟩⟩
  (p, p.save json dir disk a)

def update (p : PairedDevices) (disk : ReplacedFile) (fingerprint «alias» : String)
    (channels : List PairedChannel) (a : Replacement) :
    PairedDevices × ReplacedFile × Except String Unit :=
  match p.devices[fingerprint]? with
  | none => (p, disk, .ok ())
  | some device =>
      if device.alias = «alias» ∧ device.channels = channels then (p, disk, .ok ())
      else
        let p : PairedDevices := ⟨p.devices.insert fingerprint ⟨«alias», channels⟩⟩
        (p, p.save json dir disk a)

def remove (p : PairedDevices) (disk : ReplacedFile) (fingerprint : String) (a : Replacement) :
    PairedDevices × ReplacedFile × Except String (Option PairedDevice) :=
  match p.devices[fingerprint]? with
  | none => (p, disk, .ok none)
  | some device =>
      let p : PairedDevices := ⟨p.devices.erase fingerprint⟩
      let (disk, result) := p.save json dir disk a
      (p, disk, result.map fun _ => some device)

/-- What the staged discovery probes when the program starts. -/
def knownHttpChannels (p : PairedDevices) : List Discovery.HttpChannel :=
  p.devices.toList.flatMap fun entry => entry.2.channels.map PairedChannel.httpChannel

end Store

end PairedDevices

/-! ## §4  The handlers that use it -/

/-- What uses the store; `stored` is what the discovery knows of the device, `order` the order
in which it hands out the channels. -/
inductive PairingCall where
  | pair (fingerprint : String) (stored : Option StatefulDevice)
      (order : List (DeviceChannel × ChannelStatus))
  | unpair (fingerprint : String)
  /-- The key P on a request. `webReceive` is set while "receive via link" is on. -/
  | acceptAndPair (webReceive : Bool) (fingerprint «alias» : String)
      (stored : Option StatefulDevice) (order : List (DeviceChannel × ChannelStatus))
  /-- A device was confirmed: `refresh_paired_channels`. -/
  | refreshPairedChannels (fingerprint : String) (stored : Option StatefulDevice)
      (order : List (DeviceChannel × ChannelStatus))

namespace PairingCall

def pairedText («alias» : String) : Except String Unit → String
  | .ok () => «alias» ++ ": Paired. Future requests are auto-accepted."
  | .error e => «alias» ++ ": Paired for this run, but saving failed: " ++ e

/-- A handler, and what it writes to the log. -/
def handle (V : Env) (json : PairedJson) (dir : String) (p : PairedDevices) (disk : ReplacedFile)
    (a : Replacement) : PairingCall → PairedDevices × ReplacedFile × Option String
  | .pair fingerprint stored order =>
      match stored with
      | none => (p, disk, none)
      | some stored =>
          let (p, disk, result) := p.insert json dir disk fingerprint stored.device.alias
            (PairedChannel.channelsOf V stored order) a
          (p, disk, some (pairedText stored.device.alias result))
  | .unpair fingerprint =>
      let (p, disk, result) := p.remove json dir disk fingerprint a
      (p, disk, match result with
        | .ok (some device) => some (device.alias ++ ": Unpaired")
        | .ok none => none
        | .error e => some ("Unpaired for this run, but saving failed: " ++ e))
  | .acceptAndPair webReceive fingerprint «alias» stored order =>
      if webReceive then (p, disk, none)
      else
        let channels := (stored.map fun stored => PairedChannel.channelsOf V stored order).getD []
        let (p, disk, result) := p.insert json dir disk fingerprint «alias» channels a
        (p, disk, some (pairedText «alias» result))
  | .refreshPairedChannels fingerprint stored order =>
      if !p.contains fingerprint then (p, disk, none)
      else
        match stored with
        | none => (p, disk, none)
        | some stored =>
            let (p, disk, result) := p.update json dir disk fingerprint stored.device.alias
              (PairedChannel.channelsOf V stored order) a
            (p, disk, match result with
              | .ok () => none
              | .error e => some ("Could not save the paired devices: " ++ e))

/-- What a handler makes of the devices, if there is something to save. -/
def apply (V : Env) (call : PairingCall) (p : PairedDevices) : Option PairedDevices :=
  match call with
  | .pair fingerprint stored order => stored.map fun stored =>
      ⟨p.devices.insert fingerprint ⟨stored.device.alias, PairedChannel.channelsOf V stored order⟩⟩
  | .unpair fingerprint => p.devices[fingerprint]?.map fun _ => ⟨p.devices.erase fingerprint⟩
  | .acceptAndPair webReceive fingerprint «alias» stored order =>
      if webReceive then none
      else
        some ⟨p.devices.insert fingerprint ⟨«alias»,
          (stored.map fun stored => PairedChannel.channelsOf V stored order).getD []⟩⟩
  | .refreshPairedChannels fingerprint stored order =>
      match p.devices[fingerprint]?, stored with
      | some device, some stored =>
          let channels := PairedChannel.channelsOf V stored order
          if device.alias = stored.device.alias ∧ device.channels = channels then none
          else some ⟨p.devices.insert fingerprint ⟨stored.device.alias, channels⟩⟩
      | _, _ => none

/-- The user pairs the device. -/
def Pairs (fingerprint : String) : PairingCall → Prop
  | .pair other stored _ => other = fingerprint ∧ stored.isSome = true
  | .acceptAndPair webReceive other _ _ _ => other = fingerprint ∧ webReceive = false
  | .unpair _ | .refreshPairedChannels _ _ _ => False

end PairingCall

/-! ## §5  The program -/

/-- The store of the program, and its file. -/
abbrev PairingProgram := Stored PairedDevices PairingCall

section Program

variable (V : Env) (json : PairedJson) (dir : String)

def PairingProgram.handle (s : PairingProgram) (p : PairedDevices) (call : PairingCall)
    (a : Replacement) : PairingProgram :=
  let (p', disk, _) := call.handle V json dir p s.disk a
  { s with
    held := some p'
    disk := disk
    recent := if (call.apply V p).isSome then s.recent ++ [(call, a.done)] else s.recent }

/-- One step; a handler may be the last thing that the program does. -/
def PairingProgram.next (s : PairingProgram) :
    Happening PairingCall Replacement → Option PairingProgram
  | .start =>
      match s.held with
      | none => (PairedDevices.load json dir s.disk).toOption.map fun p =>
          ⟨some p, s.disk, s.past ++ s.recent, []⟩
      | some _ => none
  | .change call a => s.held.map fun p => PairingProgram.handle V json dir s p call a
  | .died call a => s.held.map fun p =>
      { PairingProgram.handle V json dir s p call a with held := none }
  | .ended => s.held.map fun _ => { s with held := none }

end Program

/-- Before the first start. -/
def PairingProgram.init : PairingProgram := ⟨none, ⟨none, none⟩, [], []⟩

def PairedJson.format (json : PairedJson) : Format PairedDevices where
  initial := ⟨∅⟩
  write p := json.toStringPretty p.file
  read text := (PairedDevices.load json "" ⟨some text, none⟩).toOption
  read_write p := by
    simp only [PairedDevices.load, json.readVersion_write, json.read_write, PairedDevices.file,
      if_true, Except.toOption]

section Refinement

variable {V : Env} {json : PairedJson} {dir : String} {s : PairingProgram} {p : PairedDevices}
  {disk : ReplacedFile} {call : PairingCall} {a : Replacement}

theorem load_toOption (dir : String) :
    (PairedDevices.load json dir disk).toOption = json.format.load disk := by
  unfold PairedDevices.load Format.load PairedJson.format
  cases disk.file with
  | none => rfl
  | some text =>
      simp only [PairedDevices.load]
      cases json.readVersion text with
      | none => rfl
      | some version =>
          simp only
          split
          · cases json.read text with
            | none | some file => rfl
          · rfl

theorem handle_eq (V : Env) (json : PairedJson) (dir : String) (p : PairedDevices)
    (disk : ReplacedFile) (call : PairingCall) (a : Replacement) :
    (call.handle V json dir p disk a).1 = (call.apply V p).getD p ∧
    (call.handle V json dir p disk a).2.1 = match call.apply V p with
      | none => disk
      | some p' => disk.replace (json.format.write p') a := by
  cases call with
  | pair fingerprint stored order =>
      cases stored with
      | none => exact ⟨rfl, rfl⟩
      | some stored => exact ⟨rfl, rfl⟩
  | unpair fingerprint =>
      simp only [PairingCall.handle, PairingCall.apply, PairedDevices.remove]
      cases p.devices[fingerprint]? with
      | none => exact ⟨rfl, rfl⟩
      | some device => exact ⟨rfl, rfl⟩
  | acceptAndPair webReceive fingerprint «alias» stored order =>
      cases webReceive with
      | true => exact ⟨rfl, rfl⟩
      | false => exact ⟨rfl, rfl⟩
  | refreshPairedChannels fingerprint stored order =>
      have hcontains : p.contains fingerprint = p.devices[fingerprint]?.isSome :=
        Std.ExtTreeMap.contains_eq_isSome_getElem?
      simp only [PairingCall.handle, PairingCall.apply, PairedDevices.update, hcontains]
      cases hdevice : p.devices[fingerprint]? with
      | none => exact ⟨rfl, rfl⟩
      | some device =>
          cases stored with
          | none => exact ⟨rfl, rfl⟩
          | some stored =>
              simp only [Option.isSome_some, Bool.not_true, Bool.false_eq_true, if_false]
              split
              · exact ⟨rfl, rfl⟩
              · exact ⟨rfl, rfl⟩

theorem handle_change (hs : s.held = some p) : PairingProgram.handle V json dir s p call a =
    s.change (PairingCall.apply V) json.format p call a := by
  obtain ⟨hdevices, hdisk⟩ := handle_eq V json dir p s.disk call a
  unfold PairingProgram.handle Stored.change
  cases happly : call.apply V p with
  | none =>
      rw [happly] at hdevices hdisk
      simp only [hdevices, hdisk, Option.getD_none, Option.isSome_none, Bool.false_eq_true,
        if_false, ← hs]
  | some p' =>
      rw [happly] at hdevices hdisk
      simp only [hdevices, hdisk, Option.getD_some, Option.isSome_some, if_true]

/-- The program is one that keeps its value in a file. -/
theorem next_eq (h : Happening PairingCall Replacement) :
    PairingProgram.next V json dir s h = s.step (PairingCall.apply V) json.format h := by
  cases hs : s.held with
  | none =>
      cases h with
      | start => simp only [PairingProgram.next, Stored.step, hs, load_toOption]
      | change call a | died call a | ended =>
          simp only [PairingProgram.next, Stored.step, hs, Option.map_none]
  | some p =>
      cases h with
      | start | ended => simp only [PairingProgram.next, Stored.step, hs]
      | change call a | died call a =>
          simp only [PairingProgram.next, Stored.step, hs, Option.map_some, handle_change hs]

/-! ## §6  What is found again -/

/-- What the program does is what a program does that keeps its value in a file. -/
theorem follows_of_run (hrun : Reach (PairingProgram.next V json dir) PairingProgram.init s) :
    ∃ k, k.Durable (PairingCall.apply V) ⟨∅⟩ ∧ s.Follows json.format k := by
  have hfollows : PairingProgram.init.Follows json.format ⟨none, ⟨∅⟩, [], []⟩ :=
    ⟨rfl, .inl ⟨rfl, rfl⟩, rfl, rfl⟩
  have hstored : Reach (Stored.step (PairingCall.apply V) json.format)
      PairingProgram.init s :=
    hrun.map id fun m h n _ hst => .single trivial (next_eq h ▸ hst)
  obtain ⟨k, hkept, hk⟩ := hfollows.run hstored
  exact ⟨k, Kept.durable_of_run hkept, hk⟩

/-- **Paired devices survive**: whatever fails while the file is written and whenever the program
ends, the file is a whole one, and a program that starts finds what the changes lead to, of
which only some that were not saved are missing. While it runs it holds what it found, with all
the changes since. -/
theorem paired_devices_durable
    (hrun : Reach (PairingProgram.next V json dir) PairingProgram.init s) :
    (∃ kept, PairedDevices.load json dir s.disk = .ok kept ∧
      (s.disk.file = none ∧ kept = ⟨∅⟩ ∨
        s.disk.file = some (json.toStringPretty kept.file)) ∧
      Leads (PairingCall.apply V) ⟨∅⟩ (s.past ++ s.recent) kept) ∧
    ∀ p, s.held = some p → ∃ found, Leads (PairingCall.apply V) ⟨∅⟩ s.past found ∧
      p = applyAll (PairingCall.apply V) found (s.recent.map Prod.fst) := by
  obtain ⟨k, hk, hfollows⟩ := follows_of_run hrun
  constructor
  · refine ⟨k.kept, ?_, ?_, ?_⟩
    · have hload := hfollows.keeps.load
      rw [← load_toOption dir] at hload
      cases hresult : PairedDevices.load json dir s.disk with
      | error e => rw [hresult] at hload; cases hload
      | ok p => rw [hresult] at hload; exact congrArg _ (Option.some.inj hload)
    · rcases hfollows.keeps with ⟨hfile, hinit⟩ | hfile
      · exact .inl ⟨hfile, hinit.symm⟩
      · exact .inr hfile
    · rw [hfollows.past, hfollows.recent]
      exact hk.kept
  · intro p hp
    rw [hfollows.past, hfollows.recent]
    exact hk.held p (hfollows.held.symm.trans hp)

/-- A removal that could not be saved: the device is back when the program starts again. -/
def removalUnsaved : List (Happening PairingCall Replacement) :=
  [.start, .change (.acceptAndPair false "AB12" "Phone" none []) .renamed,
    .change (.unpair "AB12") (.written 7), .ended, .start]

theorem paired_devices_durable_unsaved : ∃ s,
    exec (PairingProgram.next Sample.laptop pairedJson "/home/user/.config") PairingProgram.init
      removalUnsaved = some s ∧ s.disk.temp.map List.length = some 7 ∧
    ∃ kept, PairedDevices.load pairedJson "/home/user/.config" s.disk = .ok kept ∧
      (s.disk.file = none ∧ kept = ⟨∅⟩ ∨
        s.disk.file = some (pairedJson.toStringPretty kept.file)) ∧
      Leads (PairingCall.apply Sample.laptop) ⟨∅⟩ (s.past ++ s.recent) kept := by
  obtain ⟨s, hexec, htemp⟩ := exists_of_exec_any
    (PairingProgram.next Sample.laptop pairedJson "/home/user/.config") PairingProgram.init
    removalUnsaved (fun s => s.disk.temp.map List.length = some 7) (by decide +kernel)
  exact ⟨s, hexec, of_decide_eq_true htemp, (paired_devices_durable (reach_of_exec hexec)).1⟩

/-- The channels of a device that was saved are those that the next start probes. -/
example : let channels : List PairedChannel :=
      [⟨"fe80::1%3", 53317, .https⟩, ⟨"192.168.0.10", 53317, .https⟩]
    let disk := ((⟨∅⟩ : PairedDevices).insert pairedJson "/tmp" ⟨none, none⟩ "FP" "Alias" channels
      .renamed).2.1
    (PairedDevices.load pairedJson "/tmp" disk).map PairedDevices.knownHttpChannels =
      .ok (channels.map PairedChannel.httpChannel) := by decide +kernel

/-! ## §7  Who is trusted -/

variable {fingerprint : String} {h : List (PairingCall × Bool)} {es : List PairingCall}

theorem contains_insert {other : String} {device : PairedDevice} :
    (⟨p.devices.insert other device⟩ : PairedDevices).contains fingerprint = true ↔
      other = fingerprint ∨ p.contains fingerprint = true := by
  unfold PairedDevices.contains
  rw [Std.ExtTreeMap.contains_insert]
  simp

/-- What a handler does to the trust in a device. -/
theorem contains_apply : ((call.apply V p).getD p).contains fingerprint = true ↔
    call.Pairs fingerprint ∨ p.contains fingerprint = true ∧ call ≠ .unpair fingerprint := by
  cases call with
  | pair other stored order =>
      cases stored with
      | none => simp [PairingCall.apply, PairingCall.Pairs]
      | some stored => simp [PairingCall.apply, PairingCall.Pairs, contains_insert]
  | unpair other =>
      simp only [PairingCall.apply, PairingCall.Pairs, false_or, ne_eq, PairingCall.unpair.injEq]
      cases hdevice : p.devices[other]? with
      | none =>
          have hcontains : p.contains other = false := by
            unfold PairedDevices.contains
            rw [Std.ExtTreeMap.contains_eq_isSome_getElem?, hdevice]
            rfl
          constructor
          · rintro hfingerprint
            refine ⟨hfingerprint, ?_⟩
            rintro rfl
            rw [Option.map_none, Option.getD_none, hcontains] at hfingerprint
            cases hfingerprint
          · rintro ⟨hfingerprint, -⟩
            exact hfingerprint
      | some device =>
          simp [PairedDevices.contains, Std.ExtTreeMap.contains_erase, and_comm]
  | acceptAndPair webReceive other «alias» stored order =>
      cases webReceive with
      | true => simp [PairingCall.apply, PairingCall.Pairs]
      | false => simp [PairingCall.apply, PairingCall.Pairs, contains_insert]
  | refreshPairedChannels other stored order =>
      simp only [PairingCall.apply, PairingCall.Pairs, false_or, ne_eq, reduceCtorEq,
        not_false_eq_true, and_true]
      cases hdevice : p.devices[other]? with
      | none => exact Iff.rfl
      | some device =>
          cases stored with
          | none => exact Iff.rfl
          | some stored =>
              simp only
              split
              · exact Iff.rfl
              · rw [Option.getD_some, contains_insert]
                constructor
                · rintro (rfl | hfingerprint)
                  · unfold PairedDevices.contains
                    rw [Std.ExtTreeMap.contains_eq_isSome_getElem?, hdevice]
                    rfl
                  · exact hfingerprint
                · exact .inr

/-- A device that is paired after some changes was paired, before or by one of them, and not
unpaired since. -/
theorem contains_applyAll (hcontains : (applyAll (PairingCall.apply V) p es).contains fingerprint =
    true) : (p.contains fingerprint = true ∧ .unpair fingerprint ∉ es) ∨
      ∃ before call after, es = before ++ call :: after ∧ call.Pairs fingerprint ∧
        .unpair fingerprint ∉ after := by
  induction es generalizing p with
  | nil => exact .inl ⟨hcontains, List.not_mem_nil⟩
  | cons call es ih =>
      rcases ih hcontains with ⟨hnext, hnot⟩ | ⟨before, other, after, rfl, hpairs, hnot⟩
      · rcases contains_apply.mp hnext with hpairs | ⟨hp, hcall⟩
        · exact .inr ⟨[], call, es, rfl, hpairs, hnot⟩
        · refine .inl ⟨hp, fun hmem => ?_⟩
          rcases List.mem_cons.mp hmem with heq | hmem
          · exact hcall heq.symm
          · exact hnot hmem
      · exact .inr ⟨call :: before, other, after, rfl, hpairs, hnot⟩

theorem contains_applyAll_of_not_mem (hp : p.contains fingerprint = true)
    (hnot : .unpair fingerprint ∉ es) :
    (applyAll (PairingCall.apply V) p es).contains fingerprint = true := by
  induction es generalizing p with
  | nil => exact hp
  | cons call es ih =>
      rw [List.mem_cons, not_or] at hnot
      obtain ⟨hcall, hrest⟩ := hnot
      exact ih (contains_apply.mpr (.inr ⟨hp, Ne.symm hcall⟩)) hrest

/-- The user paired the device, and did not unpair it again in one of these ways. -/
def PairedSince (fingerprint : String) (ways : List Bool) (h : List (PairingCall × Bool)) : Prop :=
  ∃ before call saved after, h = before ++ (call, saved) :: after ∧ call.Pairs fingerprint ∧
    ∀ way ∈ ways, (.unpair fingerprint, way) ∉ after

/-- **Only who was paired is trusted**: the requests of a device are accepted without asking only
if the user paired it, and neither unpaired it later so that this was saved, nor unpaired it
since the program started. And a device that was paired stays so, if that was saved, until the
user unpairs it. -/
theorem paired_devices_trusted
    (hrun : Reach (PairingProgram.next V json dir) PairingProgram.init s) (hp : s.held = some p) :
    (p.contains fingerprint = true →
      PairedSince fingerprint [true] (s.past ++ s.recent) ∧
      ((∀ saved, (.unpair fingerprint, saved) ∉ s.recent) ∨
        PairedSince fingerprint [true, false] s.recent)) ∧
    ∀ before call after, s.past ++ s.recent = before ++ (call, true) :: after →
      call.Pairs fingerprint → (∀ saved, (.unpair fingerprint, saved) ∉ after) →
      p.contains fingerprint = true := by
  obtain ⟨k, hk, hfollows⟩ := follows_of_run hrun
  have hheld : k.held = some p := hfollows.held.symm.trans hp
  obtain ⟨es, hes, hp'⟩ := hk.leads hheld
  rw [← hfollows.past, ← hfollows.recent] at hes
  constructor
  · intro hcontains
    constructor
    · -- among all the changes that are left
      have hall := hcontains
      rw [hp'] at hall
      rcases contains_applyAll hall with ⟨hempty, -⟩ | ⟨before, call, after, rfl, hpairs, hnot⟩
      · simp [PairedDevices.contains] at hempty
      · obtain ⟨h₁, saved, h₂, hsplit, hafter⟩ := hes.exists_split
        refine ⟨h₁, call, saved, h₂, hsplit, hpairs, ?_⟩
        rintro _ hway hmem
        obtain rfl := List.mem_singleton.mp hway
        exact hnot (hafter.mem_of_saved hmem)
    · -- among those since the start
      obtain ⟨found, -, hfold⟩ := hk.held p hheld
      rw [← hfollows.recent] at hfold
      rw [hfold] at hcontains
      rcases contains_applyAll hcontains with ⟨-, hnot⟩ |
        ⟨before, call, after, hsplit, hpairs, hnot⟩
      · exact .inl fun saved hmem => hnot (List.mem_map_of_mem (f := Prod.fst) hmem)
      · obtain ⟨h₁, h₂, hrecent, -, hmap⟩ := List.map_eq_append_iff.mp hsplit
        obtain ⟨x, h₃, rfl, rfl, rfl⟩ := List.map_eq_cons_iff.mp hmap
        refine .inr ⟨h₁, x.1, x.2, h₃, hrecent, hpairs, fun way _ hmem => ?_⟩
        exact hnot (List.mem_map_of_mem (f := Prod.fst) hmem)
  · intro before call after hsplit hpairs hnot
    rw [hsplit] at hes
    obtain ⟨es₁, es₂, rfl, -, hes₂⟩ := hes.of_append
    obtain ⟨es₃, rfl, hes₃⟩ : ∃ es₃, es₂ = call :: es₃ ∧ Survives after es₃ := by
      cases hes₂ with
      | kept _ _ hes₃ => exact ⟨_, rfl, hes₃⟩
    rw [hp', applyAll_append]
    generalize applyAll (PairingCall.apply V) ⟨∅⟩ es₁ = q
    show (applyAll (PairingCall.apply V) ((call.apply V q).getD q) es₃).contains _ = true
    refine contains_applyAll_of_not_mem (contains_apply.mpr (.inl hpairs)) fun hmem => ?_
    obtain ⟨saved, hmem⟩ := hes₃.exists_mem hmem
    exact hnot saved hmem

theorem paired_devices_trusted_unsaved : ∃ s p,
    exec (PairingProgram.next Sample.laptop pairedJson "/home/user/.config") PairingProgram.init
      removalUnsaved = some s ∧ s.held = some p ∧ p.contains "AB12" = true ∧
    PairedSince "AB12" [true] (s.past ++ s.recent) ∧
    ((∀ saved, (.unpair "AB12", saved) ∉ s.recent) ∨
      PairedSince "AB12" [true, false] s.recent) := by
  obtain ⟨s, hexec, hheld⟩ := exists_of_exec_any
    (PairingProgram.next Sample.laptop pairedJson "/home/user/.config") PairingProgram.init
    removalUnsaved (fun s => ((s.held.map (·.contains "AB12")) = some true)) (by decide +kernel)
  obtain ⟨p, hp, hcontains⟩ := Option.map_eq_some_iff.mp (of_decide_eq_true hheld)
  obtain ⟨hpaired, hrecent⟩ :=
    (paired_devices_trusted (reach_of_exec hexec) hp).1 hcontains
  exact ⟨s, p, hexec, hp, hcontains, hpaired, hrecent⟩

end Refinement

end Cli

end FireBoxTransfer
