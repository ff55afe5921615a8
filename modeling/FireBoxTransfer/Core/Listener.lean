import FireBoxTransfer.Core.Model

/-!
# The listener and the client certificate of a connection

With TLS, a client is always asked for a certificate; whether it must present
one depends on the web pages, because browsers have none. The certificate of
a connection is the one its handshake verified.
-/

namespace FireBoxTransfer

/-! ## §1  The configuration -/

/-- Which web pages are served: the download page and the upload page. -/
structure WebConfig where
  send : Bool
  upload : Bool
deriving DecidableEq

structure ServerConfig where
  tls : Bool
  web : Option WebConfig
deriving DecidableEq

/-- `app_state.web.is_none() && !app_state.web_upload`. -/
def ServerConfig.mandatoryClientAuth (config : ServerConfig) : Bool :=
  !(config.web.any WebConfig.send) && !(config.web.any WebConfig.upload)

/-! ## §2  The handshake -/

/-- What the verifier takes from outside: `verify_cert_from_der` without an
expected key, and the check of the handshake's signature under the key of the
certificate. -/
structure CertChecks where
  verifyCertFromDer : CertDer → Bool
  verifySignature : CertDer → List (BitVec 8) → Bool

/-- The client's side of a handshake: the certificates it presents, if any,
and its signature. -/
structure ClientHandshake where
  certs : List CertDer
  signature : List (BitVec 8)
deriving DecidableEq

/-- `CustomClientCertVerifier`. -/
structure ClientCertVerifier where
  mandatory : Bool

/-- The certificate is the client's own: it is valid, and the handshake is
signed with its key. -/
def CertChecks.Verified (T : CertChecks) (h : ClientHandshake) (cert : CertDer) : Prop :=
  h.certs.head? = some cert ∧ T.verifyCertFromDer cert = true ∧
    T.verifySignature cert h.signature = true

/-- The peer certificates after a successful handshake. -/
def ClientCertVerifier.accept (v : ClientCertVerifier) (T : CertChecks)
    (h : ClientHandshake) : Option (List CertDer) :=
  match h.certs with
  | [] => if v.mandatory then none else some []
  | cert :: rest =>
      if T.verifyCertFromDer cert && T.verifySignature cert h.signature then
        some (cert :: rest)
      else none

/-! ## §3  The client of a connection -/

/-- `serve_connection`, up to the client its requests carry. -/
def serveConnection (T : CertChecks) (config : ServerConfig) (addr : SocketAddr)
    (h : ClientHandshake) : Option RequestClientInfo :=
  if config.tls then
    (ClientCertVerifier.accept ⟨config.mandatoryClientAuth⟩ T h).map fun certs =>
      ⟨.fromRemoteAddr addr, certs.head?⟩
  else some ⟨.fromRemoteAddr addr, none⟩

section Connections

variable {T : CertChecks} {config : ServerConfig} {addr : SocketAddr} {h : ClientHandshake}
  {info : RequestClientInfo}

/-- The certificate of a connection was verified by its handshake. -/
theorem serveConnection_cert (hs : serveConnection T config addr h = some info)
    {cert : CertDer} (hc : info.cert = some cert) : T.Verified h cert := by
  unfold serveConnection at hs
  split at hs
  · obtain ⟨certs, hacc, rfl⟩ := Option.map_eq_some_iff.mp hs
    unfold ClientCertVerifier.accept at hacc
    split at hacc
    · split at hacc
      · cases hacc
      · obtain rfl := Option.some.inj hacc
        cases hc
    · rename_i c rest hcerts
      split at hacc
      · rename_i hok
        obtain rfl := Option.some.inj hacc
        obtain rfl := Option.some.inj hc
        rw [Bool.and_eq_true] at hok
        exact ⟨by rw [hcerts]; rfl, hok.1, hok.2⟩
      · cases hacc
  · obtain rfl := Option.some.inj hs
    cases hc

/-- With TLS, a connection without a certificate is one of a client that
presented none to a listener that does not insist. -/
theorem serveConnection_none (htls : config.tls = true)
    (hs : serveConnection T config addr h = some info) (hc : info.cert = none) :
    h.certs = [] ∧ config.mandatoryClientAuth = false := by
  simp only [serveConnection, htls, if_true] at hs
  obtain ⟨certs, hacc, rfl⟩ := Option.map_eq_some_iff.mp hs
  unfold ClientCertVerifier.accept at hacc
  split at hacc
  · rename_i hcerts
    refine ⟨hcerts, ?_⟩
    split at hacc
    · cases hacc
    · rename_i hm
      simpa using hm
  · split at hacc
    · obtain rfl := Option.some.inj hacc
      cases hc
    · cases hacc

/-- Such a client is served. -/
theorem serveConnection_anonymous (htls : config.tls = true) (hc : h.certs = [])
    (hm : config.mandatoryClientAuth = false) :
    serveConnection T config addr h = some ⟨.fromRemoteAddr addr, none⟩ := by
  simp [serveConnection, htls, ClientCertVerifier.accept, hc, hm]

end Connections

end FireBoxTransfer
