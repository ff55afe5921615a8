import FireBoxTransfer.Core.Listener

/-!
# The register probe of a client

A client that asks a host who it is learns two things: the certificate of the
connection, proven by the handshake, and whatever the host writes into the
body. The discovery client pins no certificate, so it takes any valid one.
-/

namespace FireBoxTransfer

/-! ## §1  Certificates of a peer -/

/-- What a client takes from outside about certificates. -/
structure PeerCerts extends CertChecks where
  publicKeyFromCertDer : CertDer → Option String
  fingerprintFromCertDer : CertDer → String

/-- `PinnedServerCertVerifier`; without an expected fingerprint any valid
certificate will do. -/
structure PinnedServerCertVerifier where
  expectedFingerprint : Option String

def PinnedServerCertVerifier.verifyServerCert (v : PinnedServerCertVerifier) (K : PeerCerts)
    (cert : CertDer) : Bool :=
  K.verifyCertFromDer cert &&
    v.expectedFingerprint.all fun expected => K.fingerprintFromCertDer cert == expected

/-! ## §2  Answers -/

structure RegisterResponseDtoV2 where
  «alias» : String
  version : String
  deviceModel : Option String
  deviceType : Option DeviceType
  fingerprint : String
  download : Bool
deriving DecidableEq

/-- The body in the words of the newer protocol, as the application sees it. -/
structure RegisterResponseDto where
  «alias» : String
  version : String
  deviceModel : Option String
  deviceType : Option DeviceType
  token : String
  hasWebInterface : Bool
deriving DecidableEq

def RegisterResponseDto.ofV2 (v2 : RegisterResponseDtoV2) : RegisterResponseDto where
  «alias» := v2.alias
  version := v2.version
  deviceModel := v2.deviceModel
  deviceType := v2.deviceType
  token := v2.fingerprint
  hasWebInterface := v2.download

/-- What a host answers: its side of the handshake, if there is one, a status
and a body, `none` if that does not parse. -/
structure HostAnswer where
  cert : CertDer
  signature : List (BitVec 8)
  status : ℕ
  body : Option RegisterResponseDtoV2
deriving DecidableEq

structure ResultWithPublicKey (T : Type) where
  publicKey : Option String
  certFingerprint : Option String
  body : T
deriving DecidableEq

inductive ClientError where
  | statusCode (status : ℕ)
  | reqwest
  | other
deriving DecidableEq

/-! ## §3  `register` -/

/-- The handshake of the connection goes through. -/
def HostAnswer.connects (answer : HostAnswer) (v : PinnedServerCertVerifier) (K : PeerCerts) :
    Bool :=
  v.verifyServerCert K answer.cert && K.verifySignature answer.cert answer.signature

/-- `verify_cert_from_res` without an expected key: the key of the certificate. -/
def verifyCertFromRes (K : PeerCerts) (cert : CertDer) : Except ClientError String :=
  if K.verifyCertFromDer cert then
    match K.publicKeyFromCertDer cert with
    | some publicKey => .ok publicKey
    | none => .error .other
  else .error .other

/-- The public key and the fingerprint of the peer, in HTTPS mode. -/
def peerOf (K : PeerCerts) (protocol : ProtocolType) (cert : CertDer) :
    Except ClientError (Option String × Option String) :=
  match protocol with
  | .https =>
      match verifyCertFromRes K cert with
      | .error err => .error err
      | .ok publicKey => .ok (some publicKey, some (K.fingerprintFromCertDer cert))
  | .http => .ok (none, none)

/-- `LsHttpClientV2::register`. -/
def registerV2 (K : PeerCerts) (v : PinnedServerCertVerifier) (protocol : ProtocolType)
    (answer : HostAnswer) :
    Except ClientError (ResultWithPublicKey RegisterResponseDtoV2) :=
  if protocol = .https ∧ answer.connects v K = false then .error .reqwest
  else if answer.status ≠ 200 then .error (.statusCode answer.status)
  else
    match peerOf K protocol answer.cert with
    | .error err => .error err
    | .ok (publicKey, certFingerprint) =>
        match answer.body with
        | none => .error .reqwest
        | some body => .ok ⟨publicKey, certFingerprint, body⟩

/-- `LsHttpClient::register`. -/
def register (K : PeerCerts) (v : PinnedServerCertVerifier) (protocol : ProtocolType)
    (answer : HostAnswer) :
    Except ClientError (ResultWithPublicKey RegisterResponseDto) :=
  (registerV2 K v protocol answer).map fun result =>
    ⟨result.publicKey, result.certFingerprint, .ofV2 result.body⟩

/-- The answer passes every check of an HTTPS probe. -/
structure HostAnswer.Accepted (answer : HostAnswer) (K : PeerCerts)
    (v : PinnedServerCertVerifier) (body : RegisterResponseDtoV2) : Prop where
  connects : answer.connects v K = true
  status : answer.status = 200
  publicKey : (K.publicKeyFromCertDer answer.cert).isSome = true
  body : answer.body = some body

theorem HostAnswer.Accepted.verified {answer : HostAnswer} {K : PeerCerts}
    {v : PinnedServerCertVerifier} {body : RegisterResponseDtoV2}
    (h : answer.Accepted K v body) : K.verifyCertFromDer answer.cert = true := by
  have hconn := h.connects
  simp only [HostAnswer.connects, PinnedServerCertVerifier.verifyServerCert,
    Bool.and_eq_true] at hconn
  exact hconn.1.1

theorem peerOf_https {K : PeerCerts} {cert : CertDer} (h : K.verifyCertFromDer cert = true)
    {publicKey : String} (hkey : K.publicKeyFromCertDer cert = some publicKey) :
    peerOf K .https cert = .ok (some publicKey, some (K.fingerprintFromCertDer cert)) := by
  simp [peerOf, verifyCertFromRes, h, hkey]

/-- The result of an accepted answer: the body as the host wrote it, and the
fingerprint of the certificate the host proved. -/
theorem HostAnswer.Accepted.result {answer : HostAnswer} {K : PeerCerts}
    {v : PinnedServerCertVerifier} {body : RegisterResponseDtoV2}
    (h : answer.Accepted K v body) :
    registerV2 K v .https answer = .ok ⟨K.publicKeyFromCertDer answer.cert,
      some (K.fingerprintFromCertDer answer.cert), body⟩ := by
  obtain ⟨publicKey, hkey⟩ := Option.isSome_iff_exists.mp h.publicKey
  simp [registerV2, h.connects, h.status, h.body, hkey,
    peerOf_https h.verified hkey]

/-- Only accepted answers have a result. -/
theorem accepted_of_registerV2 {K : PeerCerts} {v : PinnedServerCertVerifier}
    {answer : HostAnswer} {result : ResultWithPublicKey RegisterResponseDtoV2}
    (h : registerV2 K v .https answer = .ok result) : answer.Accepted K v result.body := by
  unfold registerV2 at h
  split_ifs at h with hconn hstatus
  have hconn' : answer.connects v K = true := by simpa using hconn
  have hstatus' : answer.status = 200 := by simpa using hstatus
  cases hkey : K.publicKeyFromCertDer answer.cert with
  | none =>
      -- the certificate was checked in the handshake, so only its key can fail
      simp only [HostAnswer.connects, PinnedServerCertVerifier.verifyServerCert,
        Bool.and_eq_true] at hconn'
      simp [peerOf, verifyCertFromRes, hconn'.1.1, hkey] at h
  | some publicKey =>
      cases hbody : answer.body with
      | none =>
          rw [hbody] at h
          split at h <;> cases h
      | some body =>
          have haccepted : answer.Accepted K v body :=
            ⟨hconn', hstatus', by rw [hkey]; rfl, hbody⟩
          rw [peerOf_https haccepted.verified hkey, hbody] at h
          cases h
          exact haccepted

/-! ## §4  What the bridge hands on -/

structure ResultWithPublicKeyRegisterResponseDto where
  publicKey : Option String
  body : RegisterResponseDto
deriving DecidableEq

/-- `RsHttpClient::register`. -/
def rsRegister (K : PeerCerts) (v : PinnedServerCertVerifier) (protocol : ProtocolType)
    (answer : HostAnswer) :
    Except ClientError ResultWithPublicKeyRegisterResponseDto :=
  (register K v protocol answer).map fun response => ⟨response.publicKey, response.body⟩

/-- **Over HTTPS the bridge returns the claims of the body only**: the
fingerprint that the core proved does not reach the application. -/
theorem rsRegister_https_eq_ok {K : PeerCerts} {v : PinnedServerCertVerifier}
    {answer : HostAnswer} {response : ResultWithPublicKeyRegisterResponseDto} :
    rsRegister K v .https answer = .ok response ↔ ∃ body, answer.Accepted K v body ∧
      response = ⟨K.publicKeyFromCertDer answer.cert, .ofV2 body⟩ := by
  unfold rsRegister register
  constructor
  · intro h
    cases hr : registerV2 K v .https answer with
    | error err =>
        rw [hr] at h
        cases h
    | ok result =>
        have haccepted := accepted_of_registerV2 hr
        rw [haccepted.result] at h
        cases h
        exact ⟨_, haccepted, rfl⟩
  · rintro ⟨body, haccepted, rfl⟩
    rw [haccepted.result]
    rfl

end FireBoxTransfer
