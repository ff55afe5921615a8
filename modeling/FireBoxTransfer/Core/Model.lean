import FireBoxTransfer.Framework.AssocMap

/-!
# The data of the v2 protocol

What a request carries and what a handler answers: peer addresses, the
device and file descriptions of the wire format, status codes, errors and
responses. Maps of the protocol are finite maps with the order in which
their entries are visited.
-/

namespace FireBoxTransfer

/-! ## §1  Peers -/

inductive IpAddr where
  | v4 (addr : BitVec 32)
  | v6 (addr : BitVec 128)
deriving DecidableEq

inductive SocketAddr where
  | v4 (ip : BitVec 32) (port : BitVec 16)
  | v6 (ip : BitVec 128) (port : BitVec 16) (scopeId : BitVec 32)
deriving DecidableEq

/-- The IP address of a connected peer, with the scope of a link-local
IPv6 connection. -/
structure PeerIp where
  ip : IpAddr
  scopeId : Option (BitVec 32)
deriving DecidableEq

def PeerIp.fromRemoteAddr : SocketAddr → PeerIp
  | .v4 ip _ => ⟨.v4 ip, none⟩
  | .v6 ip _ scopeId => ⟨.v6 ip, if scopeId ≠ 0 then some scopeId else none⟩

/-- A certificate in DER format. -/
abbrev CertDer : Type := List (BitVec 8)

structure RequestClientInfo where
  ip : PeerIp
  cert : Option CertDer
deriving DecidableEq

/-- `parse_query` on the decoded pairs of the query string: a later pair
overwrites an earlier one with the same key. -/
def parseQuery (pairs : List (String × String)) : AssocMap String String :=
  .ofList pairs

/-! ## §2  Devices and files -/

inductive DeviceType where
  | mobile | desktop | web | headless | server
deriving DecidableEq

inductive ProtocolType where
  | http | https
deriving DecidableEq

structure RegisterDtoV2 where
  «alias» : String
  version : String
  deviceModel : Option String
  deviceType : Option DeviceType
  fingerprint : String
  port : BitVec 16
  protocol : ProtocolType
  download : Bool
deriving DecidableEq

structure FileMetadata where
  modified : Option String
  accessed : Option String
deriving DecidableEq

structure FileDto where
  id : String
  fileName : String
  size : BitVec 64
  fileType : String
  sha256 : Option String
  preview : Option String
  metadata : Option FileMetadata
deriving DecidableEq

structure PrepareUploadRequestDtoV2 where
  info : RegisterDtoV2
  files : AssocMap String FileDto
deriving DecidableEq

structure PrepareUploadResponseDtoV2 where
  sessionId : String
  files : AssocMap String String
deriving DecidableEq

/-! ## §3  Status codes, errors, responses -/

inductive StatusCode where
  | ok | noContent | badRequest | unauthorized | forbidden | notFound
  | conflict | unprocessableEntity | tooManyRequests | internalServerError
deriving DecidableEq

inductive AppError where
  | hyper
  | status (code : StatusCode)
  | badRequest (text : String)
  | message (code : StatusCode) (text : String)
deriving DecidableEq

inductive Body where
  | empty
  | error (message : String)
  | prepared (body : PrepareUploadResponseDtoV2)
deriving DecidableEq

structure Response where
  status : StatusCode
  body : Body
deriving DecidableEq

/-- `Response::new(empty_body())`. -/
def Response.new : Response := ⟨.ok, .empty⟩

end FireBoxTransfer
