import FireBoxTransfer.App.ReceiveSession
import FireBoxTransfer.Core.RegisterClient
import FireBoxTransfer.Framework.Runs

/-!
# Favourites and the peers trusted with remote files

A favourite is a pinned identity: transfers to it demand its certificate, and
its fingerprint is trusted for remote file access. The dialogs that add and
pick a favourite probe its address and take the fingerprint from the body of
the answer. The certificate the answer came under stays unused, so the
pinned identity is proven exactly when the host tells the truth about it.
-/

namespace FireBoxTransfer

open Runs

/-! ## §1  Devices and favourites -/

structure HttpChannel where
  host : String
  port : ℕ
  https : Bool
deriving DecidableEq

/-- A device found over HTTP. -/
structure Device where
  ip : String
  version : String
  port : ℕ
  https : Bool
  fingerprint : String
  «alias» : String
  deviceModel : Option String
  deviceType : DeviceType
  download : Bool
  channels : List HttpChannel
deriving DecidableEq

def RegisterResponseDto.toDevice (dto : RegisterResponseDto) (ip : String) (port : ℕ)
    (https : Bool) : Device where
  ip := ip
  version := dto.version
  port := port
  https := https
  fingerprint := dto.token
  «alias» := dto.alias
  deviceModel := dto.deviceModel
  deviceType := dto.deviceType.getD .desktop
  download := dto.hasWebInterface
  channels := [⟨ip, port, https⟩]

/-- A favourite as it is persisted. -/
structure StoredFavorite extends FavoriteDevice where
  id : String
  ip : String
  port : ℕ
  customAlias : Bool
deriving DecidableEq

/-- `FavoriteDevice.fromValues`, with the identifier it draws. -/
def StoredFavorite.fromValues (id fingerprint ip : String) (port : ℕ) («alias» : String) :
    StoredFavorite where
  fingerprint := fingerprint
  «alias» := «alias»
  id := id
  ip := ip
  port := port
  customAlias := false

/-! ## §2  The two dialogs -/

/-- `httpProvider.discovery.register`: the discovery client expects no
certificate in particular. -/
def discoveryRegister (K : PeerCerts) (https : Bool) (answer : HostAnswer) :
    Except ClientError ResultWithPublicKeyRegisterResponseDto :=
  rsRegister K ⟨none⟩ (if https then .https else .http) answer

/-- What the user entered for a new favourite; `name` is the trimmed alias and
`port` the number the text field holds. -/
structure FavoriteInput where
  ip : String
  port : ℕ
  name : String
deriving DecidableEq

/-- The favourite that `FavoriteEditDialog` adds, if it adds one. -/
def addedFavorite (K : PeerCerts) (https : Bool) (id : String) (input : FavoriteInput)
    (answer : HostAnswer) : Option StoredFavorite :=
  if input.ip.isEmpty then none
  else
    match discoveryRegister K https answer with
    | .error _ => none
    | .ok response =>
        some (.fromValues id response.body.token input.ip input.port
          (if input.name.isEmpty then response.body.alias else input.name))

/-- The device with which `FavoritesDialog` closes after a favourite was
picked, if it does. -/
def checkConnectionToDevice (K : PeerCerts) (https : Bool) (favorite : StoredFavorite)
    (answer : HostAnswer) : Option Device :=
  match discoveryRegister K https answer with
  | .error _ => none
  | .ok response => some (response.body.toDevice favorite.ip favorite.port https)

/-! ## §3  The favourites service -/

/-- The awaits of an action that changes the list: the list is written to the
storage, its fingerprints are published to the server, the provider of the
access snapshot takes them over, the provider of the favourites takes over the
list. -/
inductive FavoritesUpdate where
  | persist (updated : List StoredFavorite)
  | notify (updated : List StoredFavorite)
  | publish (updated : List StoredFavorite)
  | commit (updated : List StoredFavorite)
deriving DecidableEq

def FavoritesUpdate.list : FavoritesUpdate → List StoredFavorite
  | .persist updated | .notify updated | .publish updated | .commit updated => updated

/-- `trusted` is the set the server checks remote file requests against,
`access` the one in the state of its provider. `editing` are the favourites
for which an edit dialog was opened, `proven` the fingerprints of the
certificates under which probes over HTTPS were answered. -/
structure FavoritesState where
  persisted : List StoredFavorite
  favorites : List StoredFavorite
  access : List String
  trusted : List String
  updates : List FavoritesUpdate
  editing : List StoredFavorite
  proven : List String
deriving DecidableEq

def fingerprints (favorites : List StoredFavorite) : List String :=
  favorites.map fun favorite => favorite.fingerprint

/-- The state after the start of the application. -/
def FavoritesState.start (persisted : List StoredFavorite) (proven : List String) :
    FavoritesState where
  persisted := persisted
  favorites := persisted
  access := fingerprints persisted
  trusted := fingerprints persisted
  updates := []
  editing := []
  proven := proven

inductive FavoritesEvent where
  | add (https : Bool) (id : String) (input : FavoriteInput) (answer : HostAnswer)
  | openEdit (i : ℕ)
  | edit (i : ℕ) (ip : String) (port : ℕ) («alias» : String)
  | discovered (fingerprint «alias» : String)
  | remove (fingerprint : String)
  | setGrants
  | advance (i : ℕ)
  | restart

def FavoritesState.dispatch (s : FavoritesState) (updated : List StoredFavorite) :
    FavoritesState :=
  { s with updates := s.updates ++ [.persist updated] }

/-- `UpdateFavoriteAction`, up to its first await. -/
def FavoritesState.updateFavorite (s : FavoritesState) (device : StoredFavorite) :
    FavoritesState :=
  match s.favorites.findIdx? fun e => e.id = device.id with
  | none => s
  | some index => s.dispatch (s.favorites.set index device)

/-- The next step of a running action. -/
def FavoritesUpdate.next (s : FavoritesState) :
    FavoritesUpdate → FavoritesState × Option FavoritesUpdate
  | .persist updated => ({ s with persisted := updated }, some (.notify updated))
  | .notify updated => ({ s with trusted := fingerprints updated }, some (.publish updated))
  | .publish updated => ({ s with access := fingerprints updated }, some (.commit updated))
  | .commit updated => ({ s with favorites := updated }, none)

def favoritesStep (K : PeerCerts) (s : FavoritesState) : FavoritesEvent → Option FavoritesState
  | .add https id input answer =>
      let s :=
        if https && answer.connects ⟨none⟩ K then
          { s with proven := s.proven ++ [K.fingerprintFromCertDer answer.cert] }
        else s
      match addedFavorite K https id input answer with
      | none => some s
      | some favorite => some (s.dispatch (s.favorites ++ [favorite]))
  | .openEdit i =>
      (s.favorites[i]?).map fun favorite => { s with editing := s.editing ++ [favorite] }
  | .edit i ip port «alias» =>
      (s.editing[i]?).map fun existing =>
        if ip.isEmpty || «alias».isEmpty then s
        else
          s.updateFavorite { existing with
            ip, port, «alias»
            customAlias := existing.customAlias || decide («alias» ≠ existing.alias) }
  | .discovered fingerprint «alias» =>
      -- a favourite without an alias of its own takes over the device's
      match s.favorites.find? fun e => e.fingerprint = fingerprint with
      | some favorite =>
          if favorite.customAlias then some s
          else some (s.updateFavorite { favorite with «alias» })
      | none => some s
  | .remove fingerprint =>
      match s.favorites.findIdx? fun e => e.fingerprint = fingerprint with
      | none => some s
      | some index => some (s.dispatch (s.favorites.eraseIdx index))
  | .setGrants => some { s with trusted := s.access }
  | .advance i =>
      (s.updates[i]?).map fun update =>
        let (s', rest) := update.next s
        { s' with updates := s.updates.eraseIdx i ++ rest.toList }
  | .restart => some (.start s.persisted s.proven)

/-! ## §4  What the dialogs store and hand on -/

section Dialogs

variable {K : PeerCerts} {answer : HostAnswer}

/-- The fingerprint stored for a new favourite is the one of the certificate
of the connection. -/
def AddProven (K : PeerCerts) (id : String) (input : FavoriteInput) (answer : HostAnswer) :
    Prop :=
  ∀ favorite, addedFavorite K true id input answer = some favorite →
    favorite.fingerprint = K.fingerprintFromCertDer answer.cert

/-- The device handed on is the one the certificate of the connection
identifies, and it is the favourite that was picked. -/
def PickProven (K : PeerCerts) (favorite : StoredFavorite) (answer : HostAnswer) : Prop :=
  ∀ device, checkConnectionToDevice K true favorite answer = some device →
    device.fingerprint = K.fingerprintFromCertDer answer.cert ∧
      device.fingerprint = favorite.fingerprint

/-- The body of an accepted answer claims this fingerprint. -/
def Claims (K : PeerCerts) (answer : HostAnswer) (fingerprint : String) : Prop :=
  ∀ body, answer.Accepted K ⟨none⟩ body → body.fingerprint = fingerprint

theorem discoveryRegister_eq_ok {response : ResultWithPublicKeyRegisterResponseDto} :
    discoveryRegister K true answer = .ok response ↔ ∃ body, answer.Accepted K ⟨none⟩ body ∧
      response = ⟨K.publicKeyFromCertDer answer.cert, .ofV2 body⟩ := by
  unfold discoveryRegister
  exact rsRegister_https_eq_ok

theorem addedFavorite_eq_some {id : String} {input : FavoriteInput} {favorite : StoredFavorite} :
    addedFavorite K true id input answer = some favorite ↔ input.ip.isEmpty = false ∧
      ∃ body, answer.Accepted K ⟨none⟩ body ∧ favorite = .fromValues id body.fingerprint
        input.ip input.port (if input.name.isEmpty then body.alias else input.name) := by
  unfold addedFavorite
  constructor
  · intro h
    by_cases hip : input.ip.isEmpty = true
    · rw [if_pos hip] at h
      cases h
    rw [if_neg hip] at h
    refine ⟨by simpa using hip, ?_⟩
    cases hr : discoveryRegister K true answer with
    | error err =>
        rw [hr] at h
        cases h
    | ok response =>
        obtain ⟨body, haccepted, rfl⟩ := discoveryRegister_eq_ok.mp hr
        rw [hr] at h
        exact ⟨body, haccepted, (Option.some.inj h).symm⟩
  · rintro ⟨hip, body, haccepted, rfl⟩
    rw [hip, discoveryRegister_eq_ok.mpr ⟨body, haccepted, rfl⟩]
    rfl

theorem checkConnectionToDevice_eq_some {favorite : StoredFavorite} {device : Device} :
    checkConnectionToDevice K true favorite answer = some device ↔
      ∃ body, answer.Accepted K ⟨none⟩ body ∧
        device = (RegisterResponseDto.ofV2 body).toDevice favorite.ip favorite.port true := by
  unfold checkConnectionToDevice
  constructor
  · intro h
    cases hr : discoveryRegister K true answer with
    | error err =>
        rw [hr] at h
        cases h
    | ok response =>
        obtain ⟨body, haccepted, rfl⟩ := discoveryRegister_eq_ok.mp hr
        rw [hr] at h
        exact ⟨body, haccepted, (Option.some.inj h).symm⟩
  · rintro ⟨body, haccepted, rfl⟩
    rw [discoveryRegister_eq_ok.mpr ⟨body, haccepted, rfl⟩]

theorem addProven_iff {id : String} {input : FavoriteInput} (hip : input.ip.isEmpty = false) :
    AddProven K id input answer ↔ Claims K answer (K.fingerprintFromCertDer answer.cert) := by
  constructor
  · intro h body haccepted
    exact h _ (addedFavorite_eq_some.mpr ⟨hip, body, haccepted, rfl⟩)
  · intro h favorite hfav
    obtain ⟨-, body, haccepted, rfl⟩ := addedFavorite_eq_some.mp hfav
    exact h body haccepted

theorem pickProven_iff {favorite : StoredFavorite} :
    PickProven K favorite answer ↔ Claims K answer (K.fingerprintFromCertDer answer.cert) ∧
      Claims K answer favorite.fingerprint := by
  constructor
  · intro h
    refine ⟨fun body haccepted => ?_, fun body haccepted => ?_⟩
    · exact (h _ (checkConnectionToDevice_eq_some.mpr ⟨body, haccepted, rfl⟩)).1
    · exact (h _ (checkConnectionToDevice_eq_some.mpr ⟨body, haccepted, rfl⟩)).2
  · rintro ⟨hcert, hfav⟩ device hdev
    obtain ⟨body, haccepted, rfl⟩ := checkConnectionToDevice_eq_some.mp hdev
    exact ⟨hcert body haccepted, hfav body haccepted⟩

end Dialogs

/-! ## §5  Who is trusted in a run -/

/-- A fingerprint is vouched for: it was trusted from the start, or a
certificate proved it. -/
def VouchedFor (base : List String) (s : FavoritesState) (fingerprint : String) : Prop :=
  fingerprint ∈ base ∨ fingerprint ∈ s.proven

/-- All fingerprints that are or may become trusted are vouched for. -/
structure Vouched (base : List String) (s : FavoritesState) : Prop where
  persisted : ∀ favorite ∈ s.persisted, VouchedFor base s favorite.fingerprint
  favorites : ∀ favorite ∈ s.favorites, VouchedFor base s favorite.fingerprint
  editing : ∀ favorite ∈ s.editing, VouchedFor base s favorite.fingerprint
  updates : ∀ update ∈ s.updates, ∀ favorite ∈ update.list,
    VouchedFor base s favorite.fingerprint
  access : ∀ fingerprint ∈ s.access, VouchedFor base s fingerprint
  trusted : ∀ fingerprint ∈ s.trusted, VouchedFor base s fingerprint

/-- A favourite is added over HTTPS only, with an answer whose body claims the
fingerprint of its own certificate. -/
def AddsProven (K : PeerCerts) (_ : FavoritesState) : FavoritesEvent → Prop
  | .add https _ _ answer =>
      https = true ∧ Claims K answer (K.fingerprintFromCertDer answer.cert)
  | _ => True

section Vouched

variable {K : PeerCerts} {base : List String} {s s' : FavoritesState}

theorem mem_fingerprints {favorites : List StoredFavorite} {fingerprint : String} :
    fingerprint ∈ fingerprints favorites ↔
      ∃ favorite ∈ favorites, favorite.fingerprint = fingerprint :=
  List.mem_map

theorem Vouched.start (persisted : List StoredFavorite) (proven : List String)
    (h : ∀ favorite ∈ persisted, favorite.fingerprint ∈ base ∨ favorite.fingerprint ∈ proven) :
    Vouched base (.start persisted proven) := by
  have hlist : ∀ fingerprint ∈ fingerprints persisted,
      VouchedFor base (.start persisted proven) fingerprint := by
    intro fingerprint hm
    obtain ⟨favorite, hfav, rfl⟩ := mem_fingerprints.mp hm
    exact h favorite hfav
  exact ⟨h, h, by simp [FavoritesState.start], by simp [FavoritesState.start], hlist, hlist⟩

theorem Vouched.dispatch (h : Vouched base s) {updated : List StoredFavorite}
    (hnew : ∀ favorite ∈ updated, VouchedFor base s favorite.fingerprint) :
    Vouched base (s.dispatch updated) := by
  refine ⟨h.persisted, h.favorites, h.editing, ?_, h.access, h.trusted⟩
  intro update hu favorite hfav
  rcases List.mem_append.mp hu with hu | hu
  · exact h.updates update hu favorite hfav
  · obtain rfl := List.mem_singleton.mp hu
    exact hnew favorite hfav

theorem Vouched.updateFavorite (h : Vouched base s) {device : StoredFavorite}
    (hdev : VouchedFor base s device.fingerprint) : Vouched base (s.updateFavorite device) := by
  unfold FavoritesState.updateFavorite
  split
  · exact h
  · apply h.dispatch
    intro favorite hfav
    rcases List.mem_or_eq_of_mem_set hfav with hfav | rfl
    · exact h.favorites favorite hfav
    · exact hdev

theorem Vouched.advance (h : Vouched base s) {i : ℕ} {update : FavoritesUpdate}
    (hu : s.updates[i]? = some update) : Vouched base
      { (update.next s).1 with
        updates := s.updates.eraseIdx i ++ (update.next s).2.toList } := by
  have hlist : ∀ favorite ∈ update.list, VouchedFor base s favorite.fingerprint :=
    h.updates update (List.mem_of_getElem? hu)
  have hprints : ∀ fingerprint ∈ fingerprints update.list, VouchedFor base s fingerprint := by
    intro fingerprint hm
    obtain ⟨favorite, hfav, rfl⟩ := mem_fingerprints.mp hm
    exact hlist favorite hfav
  have hrest : ∀ rest : Option FavoritesUpdate, (∀ u ∈ rest, u.list = update.list) →
      ∀ u ∈ s.updates.eraseIdx i ++ rest.toList, ∀ favorite ∈ u.list,
        VouchedFor base s favorite.fingerprint := by
    intro rest hsame u hm favorite hfav
    rcases List.mem_append.mp hm with hm | hm
    · exact h.updates u (List.mem_of_mem_eraseIdx hm) favorite hfav
    · rw [hsame u (Option.mem_toList.mp hm)] at hfav
      exact hlist favorite hfav
  cases update with
  | persist updated =>
      exact ⟨hlist, h.favorites, h.editing, hrest _ (by rintro u ⟨⟩; rfl), h.access, h.trusted⟩
  | notify updated =>
      exact ⟨h.persisted, h.favorites, h.editing, hrest _ (by rintro u ⟨⟩; rfl), h.access,
        hprints⟩
  | publish updated =>
      exact ⟨h.persisted, h.favorites, h.editing, hrest _ (by rintro u ⟨⟩; rfl), hprints,
        h.trusted⟩
  | commit updated =>
      exact ⟨h.persisted, hlist, h.editing, hrest _ (by rintro u ⟨⟩), h.access, h.trusted⟩

/-- More proofs vouch for no fewer fingerprints. -/
theorem Vouched.prove (h : Vouched base s) (fingerprint : String) :
    Vouched base { s with proven := s.proven ++ [fingerprint] } := by
  have hmono : ∀ f, VouchedFor base s f →
      VouchedFor base { s with proven := s.proven ++ [fingerprint] } f := by
    rintro f (hf | hf)
    · exact Or.inl hf
    · exact Or.inr (List.mem_append_left _ hf)
  exact ⟨fun f hf => hmono _ (h.persisted f hf), fun f hf => hmono _ (h.favorites f hf),
    fun f hf => hmono _ (h.editing f hf), fun u hu f hf => hmono _ (h.updates u hu f hf),
    fun f hf => hmono _ (h.access f hf), fun f hf => hmono _ (h.trusted f hf)⟩

/-- **One step**: a favourite added with its own fingerprint keeps all
fingerprints vouched for, and no other event brings in a new one. -/
theorem Vouched.step (h : Vouched base s) {e : FavoritesEvent} (hok : AddsProven K s e)
    (hst : favoritesStep K s e = some s') : Vouched base s' := by
  cases e with
  | add https id input answer =>
      obtain ⟨rfl, hclaims⟩ := hok
      simp only [favoritesStep, Bool.true_and] at hst
      cases hadd : addedFavorite K true id input answer with
      | none =>
          rw [hadd] at hst
          obtain rfl := Option.some.inj hst
          split_ifs
          · exact h.prove _
          · exact h
      | some favorite =>
          obtain ⟨-, body, haccepted, rfl⟩ := addedFavorite_eq_some.mp hadd
          rw [hadd, if_pos haccepted.connects] at hst
          obtain rfl := Option.some.inj hst
          have hproved := h.prove (K.fingerprintFromCertDer answer.cert)
          apply hproved.dispatch
          intro favorite hfav
          rcases List.mem_append.mp hfav with hfav | hfav
          · exact hproved.favorites favorite hfav
          · obtain rfl := List.mem_singleton.mp hfav
            refine Or.inr (List.mem_append_right _ (List.mem_singleton.mpr ?_))
            exact hclaims body haccepted
  | openEdit i =>
      obtain ⟨favorite, hfav, rfl⟩ := Option.map_eq_some_iff.mp hst
      refine ⟨h.persisted, h.favorites, ?_, h.updates, h.access, h.trusted⟩
      intro f hf
      rcases List.mem_append.mp hf with hf | hf
      · exact h.editing f hf
      · obtain rfl := List.mem_singleton.mp hf
        exact h.favorites f (List.mem_of_getElem? hfav)
  | edit i ip port «alias» =>
      obtain ⟨existing, hex, rfl⟩ := Option.map_eq_some_iff.mp hst
      split_ifs
      · exact h
      · exact h.updateFavorite (h.editing existing (List.mem_of_getElem? hex))
  | discovered fingerprint «alias» =>
      simp only [favoritesStep] at hst
      split at hst
      · rename_i favorite hfind
        split at hst <;> obtain rfl := Option.some.inj hst
        · exact h
        · exact h.updateFavorite (h.favorites favorite (List.mem_of_find?_eq_some hfind))
      · obtain rfl := Option.some.inj hst
        exact h
  | remove fingerprint =>
      simp only [favoritesStep] at hst
      split at hst <;> obtain rfl := Option.some.inj hst
      · exact h
      · apply h.dispatch
        intro favorite hfav
        exact h.favorites favorite (List.mem_of_mem_eraseIdx hfav)
  | setGrants =>
      obtain rfl := Option.some.inj hst
      exact ⟨h.persisted, h.favorites, h.editing, h.updates, h.access, h.access⟩
  | advance i =>
      obtain ⟨update, hu, rfl⟩ := Option.map_eq_some_iff.mp hst
      exact h.advance hu
  | restart =>
      obtain rfl := Option.some.inj hst
      exact .start s.persisted s.proven h.persisted

/-- **In a run** that adds favourites under their own fingerprint only, every
fingerprint trusted with remote files was trusted before or was proven. -/
theorem trusted_run {persisted : List StoredFavorite}
    (hrun : Run (favoritesStep K) (AddsProven K) (.start persisted []) s) :
    ∀ fingerprint ∈ s.trusted, VouchedFor (fingerprints persisted) s fingerprint := by
  have hstart : Vouched (fingerprints persisted) (.start persisted []) :=
    .start persisted [] fun favorite hfav =>
      Or.inl (mem_fingerprints.mpr ⟨favorite, hfav, rfl⟩)
  have hend : Vouched (fingerprints persisted) s :=
    hrun.invariant hstart fun _ _ _ hm hok hst => hm.step hok hst
  exact hend.trusted

end Vouched

/-! ## §6  Trusted identity -/

/-- **Trusted identity is proven exactly as far as the body tells the truth**:
a new favourite, and the device handed on for a picked one, carry the
fingerprint of the connection's certificate if and only if the body of an
accepted answer claims it (for a picked one, that of the favourite too); and
as long as favourites are added so, only proven fingerprints become trusted
with remote files. -/
theorem trusted_identity (K : PeerCerts) :
    (∀ (id : String) (input : FavoriteInput) (answer : HostAnswer),
      AddProven K id input answer ↔ (input.ip.isEmpty = false →
        Claims K answer (K.fingerprintFromCertDer answer.cert))) ∧
    (∀ (favorite : StoredFavorite) (answer : HostAnswer),
      PickProven K favorite answer ↔ Claims K answer (K.fingerprintFromCertDer answer.cert) ∧
        Claims K answer favorite.fingerprint) ∧
    ∀ (persisted : List StoredFavorite) (s : FavoritesState),
      Run (favoritesStep K) (AddsProven K) (.start persisted []) s →
        ∀ fingerprint ∈ s.trusted, VouchedFor (fingerprints persisted) s fingerprint := by
  refine ⟨fun id input answer => ?_, fun favorite answer => pickProven_iff,
    fun persisted s hrun => trusted_run hrun⟩
  cases hip : input.ip.isEmpty with
  | false => simpa using addProven_iff hip
  | true =>
      refine iff_of_true (fun favorite hfav => ?_) (fun h => by cases h)
      rw [(addedFavorite_eq_some.mp hfav).1] at hip
      cases hip

namespace Sample

/-- Certificates are valid; the fingerprint counts their bytes. -/
def peerCerts : PeerCerts where
  verifyCertFromDer _ := true
  verifySignature _ _ := true
  publicKeyFromCertDer _ := some "key"
  fingerprintFromCertDer cert := String.ofList (List.replicate cert.length 'A')

/-- A host with the certificate `AA` that answers in the name of `fingerprint`. -/
def hostAnswer (fingerprint : String) : HostAnswer :=
  ⟨[1, 2], [], 200, some ⟨"Laptop", "2.2", none, none, fingerprint, false⟩⟩

/-- Add a favourite with this answer and let the action run to its end. -/
def addFavorite (answer : HostAnswer) : List FavoritesEvent :=
  [.add true "id" ⟨"192.168.0.7", 53317, ""⟩ answer, .advance 0, .advance 0, .advance 0,
    .advance 0]

end Sample

/-- A truthful host becomes trusted under its own fingerprint. -/
theorem trusted_identity_truthful : ∃ s : FavoritesState,
    s.trusted = ["AA"] ∧ ∀ fingerprint ∈ s.trusted, VouchedFor [] s fingerprint := by
  obtain ⟨s, hs, hcheck⟩ := exists_of_exec_any (favoritesStep Sample.peerCerts)
    (.start [] []) (Sample.addFavorite (Sample.hostAnswer "AA"))
    (fun s => decide (s.trusted = ["AA"])) rfl
  have hclaims : Claims Sample.peerCerts (Sample.hostAnswer "AA") "AA" := by
    rintro body ⟨-, -, -, hbody⟩
    obtain rfl := Option.some.inj hbody
    rfl
  have hrun : Run (favoritesStep Sample.peerCerts) (AddsProven Sample.peerCerts)
      (.start [] []) s :=
    run_of_exec hs ⟨⟨rfl, hclaims⟩, fun _ _ => ⟨trivial, fun _ _ => ⟨trivial, fun _ _ =>
      ⟨trivial, fun _ _ => ⟨trivial, fun _ _ => trivial⟩⟩⟩⟩⟩
  exact ⟨s, of_decide_eq_true hcheck, (trusted_identity Sample.peerCerts).2.2 [] s hrun⟩

/-- A host with the certificate `AA` that answers in the name of `BB`: the new
favourite is pinned to `BB`, which becomes trusted, and picking a favourite
pinned to `AA` hands on `BB`. -/
theorem trusted_identity_fails :
    ¬ AddProven Sample.peerCerts "id" ⟨"192.168.0.7", 53317, ""⟩ (Sample.hostAnswer "BB") ∧
    ¬ PickProven Sample.peerCerts (.fromValues "id" "AA" "192.168.0.7" 53317 "Laptop")
      (Sample.hostAnswer "BB") ∧
    ∃ s, Reach (favoritesStep Sample.peerCerts) (.start [] []) s ∧
      "BB" ∈ s.trusted ∧ ¬ VouchedFor [] s "BB" := by
  refine ⟨fun h => ?_, fun h => ?_, ?_⟩
  · exact absurd (h _ rfl) (by decide)
  · exact absurd (h _ rfl).2 (by decide)
  · obtain ⟨s, hs, hcheck⟩ := exists_of_exec_any (favoritesStep Sample.peerCerts)
      (.start [] []) (Sample.addFavorite (Sample.hostAnswer "BB"))
      (fun s => decide (s.trusted = ["BB"] ∧ s.proven = ["AA"])) rfl
    obtain ⟨htrusted, hproven⟩ := of_decide_eq_true hcheck
    refine ⟨s, reach_of_exec hs, by rw [htrusted]; exact List.mem_singleton_self _, ?_⟩
    rintro (h | h)
    · cases h
    · rw [hproven, List.mem_singleton] at h
      exact absurd h (by decide)

end FireBoxTransfer
