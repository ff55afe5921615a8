import FireBoxTransfer.App.ReceiveController
import FireBoxTransfer.Core.Listener

/-!
# Automatic acceptance

A request of a favourite (in the application) or of a paired device (in the
command line interface) is accepted without asking. Both recognise the sender
by the fingerprint of its certificate and fall back to the fingerprint the
request claims, so everything depends on when a connection has a certificate.
-/

namespace FireBoxTransfer

/-! ## §1  The request -/

/-- The event of a request, as the application receives it. -/
def requestEvent (X : Externals) (clientInfo : RequestClientInfo)
    (payload : PrepareUploadRequestDtoV2) (sessionId : String) : PrepareUploadEvent where
  sessionId := sessionId
  ip := clientInfo.ip
  info := payload.info
  certFingerprint := clientInfo.cert.map X.fingerprintFromCertDer
  files := payload.files

/-- The message of a request. -/
def PrepareUploadEvent.message (event : PrepareUploadEvent) : Option String :=
  match (sessionFiles event.files).values with
  | [f] => if decodeFromMime f.file.fileType = .text then f.file.preview else none
  | _ => none

/-! ## §2  The rules -/

/-- Quick save from favourites. -/
def favoriteRule (settings : AppSettings) (favorites : List FavoriteDevice)
    (message : Option String) (senderFingerprint : String) : Bool :=
  settings.quickSaveFromFavorites && message.isNone && isFavorite favorites senderFingerprint

/-- What the command line interface does with a request. -/
inductive CliReaction where
  | message (text : String)
  | autoAccept (ids : List String)
  | prompt
deriving DecidableEq

/-- `message_of`. -/
def messageOf (files : AssocMap String FileDto) : Option String :=
  match files.values with
  | [file] =>
      if file.fileType = "text" || startsWith file.fileType "text/" then file.preview else none
  | _ => none

/-- `handle_server_event`, for a prepare-upload request. -/
def cliPrepareUpload (paired : List String) (event : PrepareUploadEvent) : CliReaction :=
  match messageOf event.files with
  | some text => .message text
  | none =>
      if paired.contains event.senderFingerprint then .autoAccept event.files.keys
      else .prompt

/-- `restart_server` serves web pages without TLS only. -/
def cliServerConfig (web : Option WebConfig) : ServerConfig := ⟨web.isNone, web⟩

/-! ## §3  Authentication -/

section Authentication

variable (X : Externals) (T : CertChecks) (server : ServerConfig) (addr : SocketAddr)
  (h : ClientHandshake) (payload : PrepareUploadRequestDtoV2) (sessionId : String)

/-- In the application, a request over this connection is accepted as that of
a favourite only if the handshake verified a favourite's certificate. -/
def FavoriteAuthentic (settings : AppSettings) (favorites : List FavoriteDevice) : Prop :=
  ∀ info, serveConnection T server addr h = some info →
    let event := requestEvent X info payload sessionId
    favoriteRule settings favorites event.message event.senderFingerprint = true →
      ∃ cert, T.Verified h cert ∧ isFavorite favorites (X.fingerprintFromCertDer cert) = true

/-- In the command line interface, it is accepted as that of a paired device
only if the handshake verified a paired certificate. -/
def PairedAuthentic (paired : List String) : Prop :=
  ∀ info, serveConnection T server addr h = some info →
    ∀ ids, cliPrepareUpload paired (requestEvent X info payload sessionId) = .autoAccept ids →
      ∃ cert, T.Verified h cert ∧ X.fingerprintFromCertDer cert ∈ paired

variable {X T server addr h payload sessionId}

/-- With a certificate, the sender is recognised by it. -/
theorem senderFingerprint_cert {info : RequestClientInfo} {cert : CertDer}
    (hc : info.cert = some cert) :
    (requestEvent X info payload sessionId).senderFingerprint =
      X.fingerprintFromCertDer cert := by
  simp [requestEvent, PrepareUploadEvent.senderFingerprint, hc]

/-- Without one, by what the request claims. -/
theorem senderFingerprint_none {info : RequestClientInfo} (hc : info.cert = none) :
    (requestEvent X info payload sessionId).senderFingerprint = payload.info.fingerprint := by
  simp [requestEvent, PrepareUploadEvent.senderFingerprint, hc]

/-- The favourites rule is sound exactly when the listener insists on a
certificate, the client presents one, or the rule would not accept a sender
by the fingerprint that the request claims. -/
theorem favoriteAuthentic_iff (htls : server.tls = true) (settings : AppSettings)
    (favorites : List FavoriteDevice) :
    FavoriteAuthentic X T server addr h payload sessionId settings favorites ↔
      server.mandatoryClientAuth = true ∨ h.certs ≠ [] ∨
        favoriteRule settings favorites
          (requestEvent X ⟨.fromRemoteAddr addr, none⟩ payload sessionId).message
          payload.info.fingerprint = false := by
  constructor
  · intro hauth
    by_contra hno
    simp only [not_or, Bool.not_eq_true, not_not, Bool.not_eq_false] at hno
    obtain ⟨hm, hcerts, hrule⟩ := hno
    obtain ⟨cert, hv, -⟩ := hauth _ (serveConnection_anonymous htls hcerts hm)
      (by rw [senderFingerprint_none rfl]; exact hrule)
    rw [CertChecks.Verified, hcerts] at hv
    cases hv.1
  · intro hcond info hs event hrule
    cases hc : info.cert with
    | some cert =>
        refine ⟨cert, serveConnection_cert hs hc, ?_⟩
        have hfp : (requestEvent X info payload sessionId).senderFingerprint = _ :=
          senderFingerprint_cert hc
        rw [← hfp]
        simp only [favoriteRule, Bool.and_eq_true] at hrule
        exact hrule.2
    | none =>
        obtain ⟨hcerts, hm⟩ := serveConnection_none htls hs hc
        rcases hcond with h1 | h1 | h1
        · rw [hm] at h1
          cases h1
        · exact absurd hcerts h1
        · have hfp : event.senderFingerprint = payload.info.fingerprint :=
            senderFingerprint_none hc
          rw [hfp] at hrule
          exact absurd (hrule.symm.trans h1) (by simp)

/-- The command line interface serves web pages without TLS only, so with TLS
every connection has a certificate. -/
theorem pairedAuthentic (web : Option WebConfig) (htls : (cliServerConfig web).tls = true)
    (paired : List String) :
    PairedAuthentic X T (cliServerConfig web) addr h payload sessionId paired := by
  intro info hs ids hreact
  cases hc : info.cert with
  | some cert =>
      refine ⟨cert, serveConnection_cert hs hc, ?_⟩
      have hfp : (requestEvent X info payload sessionId).senderFingerprint = _ :=
        senderFingerprint_cert hc
      rw [← hfp]
      unfold cliPrepareUpload at hreact
      split at hreact
      · cases hreact
      · split at hreact
        · rename_i hp
          simpa using hp
        · cases hreact
  | none =>
      obtain ⟨-, hm⟩ := serveConnection_none htls hs hc
      have hweb : web = none := by
        simpa [cliServerConfig] using htls
      subst hweb
      cases hm

/-- **Sender authentication**: with TLS, automatic acceptance by a rule for
favourites is authenticated exactly under the condition; the one for paired
devices always is. -/
theorem sender_authentication (X : Externals) (T : CertChecks) (addr : SocketAddr)
    (h : ClientHandshake) (payload : PrepareUploadRequestDtoV2) (sessionId : String) :
    (∀ server : ServerConfig, server.tls = true → ∀ settings favorites,
      (FavoriteAuthentic X T server addr h payload sessionId settings favorites ↔
        server.mandatoryClientAuth = true ∨ h.certs ≠ [] ∨
          favoriteRule settings favorites
            (requestEvent X ⟨.fromRemoteAddr addr, none⟩ payload sessionId).message
            payload.info.fingerprint = false)) ∧
      ∀ web : Option WebConfig, (cliServerConfig web).tls = true → ∀ paired,
        PairedAuthentic X T (cliServerConfig web) addr h payload sessionId paired :=
  ⟨fun _ htls settings favorites => favoriteAuthentic_iff htls settings favorites,
    fun web htls paired => pairedAuthentic web htls paired⟩

end Authentication

/-! ## §4  Concrete requests -/

namespace Sample

/-- Every certificate is valid and every signature right. -/
def checks : CertChecks := ⟨fun _ => true, fun _ _ => true⟩

/-- One certificate, with the fingerprint of the sample sender. -/
def externals : Externals where
  uuid := Externals.unary.uuid
  uuid_injective := Externals.unary.uuid_injective
  fingerprintFromCertDer cert := if cert = [1] then "sender-fingerprint" else ""

def addr : SocketAddr := .v4 1 53317

def favoriteSettings : AppSettings := ⟨false, true, false, false, none⟩

def favorites : List FavoriteDevice := [⟨"sender-fingerprint", "Friend"⟩]

end Sample

/-- While the upload page is served with TLS, a client without a certificate
is accepted as the favourite whose fingerprint it claims. -/
theorem sender_authentication_fails :
    ¬ ∀ server : ServerConfig, server.tls = true → ∀ h settings favorites,
      FavoriteAuthentic Sample.externals Sample.checks server Sample.addr h Sample.payload ""
        settings favorites := by
  intro hall
  have hauth := hall ⟨true, some ⟨false, true⟩⟩ rfl ⟨[], []⟩ Sample.favoriteSettings
    Sample.favorites
  obtain ⟨cert, hv, -⟩ := hauth ⟨.fromRemoteAddr Sample.addr, none⟩ (by decide) (by decide)
  cases hv.1

/-- The same sender with its certificate, served by either application. -/
theorem sender_authentication_with_certificate :
    FavoriteAuthentic Sample.externals Sample.checks ⟨true, some ⟨false, true⟩⟩ Sample.addr
        ⟨[[1]], []⟩ Sample.payload "" Sample.favoriteSettings Sample.favorites ∧
      PairedAuthentic Sample.externals Sample.checks (cliServerConfig none) Sample.addr
        ⟨[[1]], []⟩ Sample.payload "" ["sender-fingerprint"] := by
  obtain ⟨happ, hcli⟩ := sender_authentication Sample.externals Sample.checks Sample.addr
    ⟨[[1]], []⟩ Sample.payload ""
  constructor
  · exact (happ ⟨true, some ⟨false, true⟩⟩ rfl _ _).mpr (.inr (.inl (by simp)))
  · exact hcli none rfl _

end FireBoxTransfer
