import FireBoxTransfer.Core.IpAddr
import FireBoxTransfer.Framework.UrlQuery

/-!
# The query of a v2 request

The client writes the PIN, the session, the file and its token into a URL as they are, and
leaves it to its callers to encode them, which none of them does. The server reads the query
as a form.
-/

namespace FireBoxTransfer

/-! ## §1  The URL of a request -/

/-- The libraries for URLs. -/
structure QueryExternals where
  /-- `Url::parse`, and the query of the URL. -/
  parseUrl : String → Option (Option String)
  /-- `form_urlencoded::parse`. -/
  formUrlencoded : List UInt8 → List (String × String)

def ProtocolType.asStr : ProtocolType → String
  | .http => "http"
  | .https => "https"

inductive ApiVersion where
  | v2 | v3
deriving DecidableEq

structure TargetUrl where
  version : ApiVersion
  protocol : String
  host : String
  port : BitVec 16
  path : String
  params : List (String × String)

namespace ScopedHost

def suffix : String := ".scoped.localsend.internal"

/-- `str::parse::<u32>`. -/
def parseU32 (text : String) : Option ℕ :=
  let digits := match text.toList with
    | '+' :: digits => digits
    | digits => digits
  if digits.isEmpty || !digits.all Char.isDigit then none
  else
    let n := digits.foldl (fun n c => 10 * n + (c.toNat - 0x30)) 0
    if n < 2 ^ 32 then some n else none

/-- An IPv6 address, parsed and displayed again. -/
def ipv6 (text : String) : Option String :=
  (parseIpv6Addr text.toList).map fun address => .ofList (ipv6Text address)

/-- A scoped IPv6 address becomes the name of a host. -/
def encode (host : String) : Option String :=
  match host.toList.dropWhile (· ≠ '%') with
  | [] => none
  | _ :: scope =>
      match ipv6 (String.ofList (host.toList.takeWhile (· ≠ '%'))),
        parseU32 (String.ofList scope) with
      | some address, some scope =>
          if '.' ∈ address.toList then none
          else some (String.ofList (address.toList.map fun c => if c = ':' then '-' else c) ++
            "s" ++ toString scope ++ suffix)
      | _, _ => none

end ScopedHost

/-- The host as a URL has it: an IPv6 address stands in brackets. -/
def TargetUrl.encodedHost (url : TargetUrl) : String :=
  match ScopedHost.encode url.host with
  | some encoded => encoded
  | none => if ':' ∈ url.host.toList then "[" ++ url.host ++ "]" else url.host

def TargetUrl.base (url : TargetUrl) : String :=
  let version := match url.version with
    | .v2 => "v2"
    | .v3 => "v3"
  url.protocol ++ "://" ++ url.encodedHost ++ ":" ++ ToString.toString url.port.toNat ++
    "/api/localsend/" ++ version ++ url.path

def TargetUrl.toString (url : TargetUrl) : String :=
  if url.params.isEmpty then url.base
  else url.base ++ "?" ++ "&".intercalate (url.params.map fun p => p.1 ++ "=" ++ p.2)

/-- The requests of the v2 client that carry a query. -/
inductive V2Request where
  | prepareUpload (pin : Option String)
  | upload (sessionId fileId token : String)
  | cancel (sessionId : String)

namespace V2Request

def path : V2Request → String
  | .prepareUpload _ => "/prepare-upload"
  | .upload _ _ _ => "/upload"
  | .cancel _ => "/cancel"

def params : V2Request → List (String × String)
  | .prepareUpload (some pin) => [("pin", pin)]
  | .prepareUpload none => []
  | .upload sessionId fileId token =>
      [("sessionId", sessionId), ("fileId", fileId), ("token", token)]
  | .cancel sessionId => [("sessionId", sessionId)]

def targetUrl (request : V2Request) (protocol : ProtocolType) (ip : String) (port : BitVec 16) :
    TargetUrl where
  version := .v2
  protocol := protocol.asStr
  host := ip
  port := port
  path := request.path
  params := request.params

end V2Request

/-! ## §2  The query that the server reads -/

/-- `parse_query`. -/
def parseQueryText (X : QueryExternals) : Option String → AssocMap String String
  | none => .empty
  | some query => parseQuery (X.formUrlencoded (Texts.utf8 query))

/-- What the documentation of the libraries says. -/
structure QueryExternals.Documented (X : QueryExternals) : Prop where
  parseUrl : ∀ (protocol : ProtocolType) (rest : String) (query : Option String),
    X.parseUrl (protocol.asStr ++ "://" ++ rest) = some query →
      query = UrlQuery.queryOf (protocol.asStr ++ "://" ++ rest)
  formUrlencoded : ∀ bytes, X.formUrlencoded bytes = UrlQuery.formParse bytes

/-- The IP address of a receiver. -/
structure IpText where
  text : String
  legal : ∀ c ∈ text.toList, c.isAlphanum = true ∨ c = ':' ∨ c = '.' ∨ c = '%' ∨ c = '-'

/-! ## §3  The base of the URL -/

section Base

open UrlQuery

theorem isBase_append {cs ds : List Char} (hcs : IsBase cs) (hds : IsBase ds) :
    IsBase (cs ++ ds) := by
  intro c hc
  rcases List.mem_append.mp hc with hc | hc
  · exact hcs c hc
  · exact hds c hc

theorem isBase_of_isAlphanum {c : Char} (h : c.isAlphanum = true) :
    0x20 < c.toNat ∧ c ≠ '?' ∧ c ≠ '#' := by
  refine ⟨?_, ?_, ?_⟩
  · have hranges : (decide (c.val ≥ 'A'.val ∧ c.val ≤ 'Z'.val) ||
        (decide (c.val ≥ 'a'.val) && decide (c.val ≤ 'z'.val)) ||
        (decide (c.val ≥ '0'.val) && decide (c.val ≤ '9'.val))) = true := h
    simp only [Bool.or_eq_true, Bool.and_eq_true, decide_eq_true_eq, ge_iff_le,
      UInt32.le_iff_toNat_le] at hranges
    have hval : c.toNat = c.val.toNat := rfl
    simp at hranges
    omega
  · rintro rfl
    exact absurd h (by decide)
  · rintro rfl
    exact absurd h (by decide)

theorem isBase_of_isGroupChar {c : Char} (h : InetText.isGroupChar c = true) :
    0x20 < c.toNat ∧ c ≠ '?' ∧ c ≠ '#' := by
  refine ⟨?_, ?_, ?_⟩
  · by_contra hlow
    have hnone : ∀ n ≤ 0x20, InetText.isGroupChar (Char.ofNat n) = false := by decide
    rw [← Char.ofNat_toNat c, hnone _ (Nat.le_of_not_lt hlow)] at h
    cases h
  · rintro rfl
    exact absurd h (by decide)
  · rintro rfl
    exact absurd h (by decide)

theorem isBase_toString (n : ℕ) : IsBase (toString n).toList := by
  intro c hc
  have hdigit := Texts.isDigit_of_mem_toString hc
  refine isBase_of_isAlphanum ?_
  unfold Char.isAlphanum
  rw [hdigit, Bool.or_true]

instance (cs : List Char) : Decidable (IsBase cs) := List.decidableBAll _ cs

theorem isBase_encode {host encoded : String}
    (h : ScopedHost.encode host = some encoded) : IsBase encoded.toList := by
  unfold ScopedHost.encode at h
  split at h
  · cases h
  · split at h
    · rename_i address scope haddress hscope
      split_ifs at h with hdot
      obtain rfl := Option.some.inj h
      rw [String.toList_append, String.toList_append, String.toList_append, String.toList_ofList]
      refine isBase_append (isBase_append (isBase_append ?_ (by decide)) (isBase_toString scope))
        (by decide)
      intro c hc
      obtain ⟨d, hd, rfl⟩ := List.mem_map.mp hc
      obtain ⟨addr, -, rfl⟩ := Option.map_eq_some_iff.mp haddress
      rw [String.toList_ofList] at hdot hd
      split_ifs with hcolon
      · decide
      · have hgroup := mem_ipv6Text (fun hmapped => hdot (dot_mem_ipv6Text.mpr hmapped)) hd
        exact isBase_of_isGroupChar hgroup
    · cases h

theorem isBase_ip (ip : IpText) : IsBase ip.text.toList := by
  intro c hc
  rcases ip.legal c hc with h | rfl | rfl | rfl | rfl
  · exact isBase_of_isAlphanum h
  all_goals decide

end Base

namespace V2Request

/-- The names and values of a request, as characters. -/
def fields (request : V2Request) : List (List Char × List Char) :=
  request.params.map fun p => (p.1.toList, p.2.toList)

theorem texts_fields (request : V2Request) :
    request.fields.map UrlQuery.texts = request.params := by
  unfold fields UrlQuery.texts
  rw [List.map_map]
  refine (List.map_congr_left fun p _ => ?_).trans (List.map_id _)
  simp

theorem isName_fields (request : V2Request) : ∀ p ∈ request.fields, UrlQuery.IsName p.1 := by
  have hnames : ∀ p ∈ request.params, p.1.toList.all Char.isAlpha = true := by
    match request with
    | .prepareUpload none => nofun
    | .prepareUpload (some pin) => simp [params]
    | .upload sessionId fileId token => simp [params]
    | .cancel sessionId => simp [params]
  intro p hp
  obtain ⟨q, hq, rfl⟩ := List.mem_map.mp hp
  exact List.all_eq_true.mp (hnames q hq)

theorem nodup_fields (request : V2Request) : (request.fields.map Prod.fst).Nodup := by
  match request with
  | .prepareUpload none => exact List.nodup_nil
  | .prepareUpload (some pin) => exact List.nodup_singleton _
  | .upload sessionId fileId token =>
      simp [fields, params]
  | .cancel sessionId => exact List.nodup_singleton _

section Url

variable (protocol : ProtocolType) (ip : IpText)
  (port : BitVec 16) (request : V2Request)

theorem isBase_targetUrl :
    UrlQuery.IsBase ((request.targetUrl protocol ip.text port).base).toList := by
  have hhost : UrlQuery.IsBase
      ((request.targetUrl protocol ip.text port).encodedHost).toList := by
    unfold TargetUrl.encodedHost targetUrl
    simp only
    split
    · rename_i encoded hencode
      exact isBase_encode hencode
    · split_ifs
      · rw [String.toList_append, String.toList_append]
        exact isBase_append (isBase_append (by decide) (isBase_ip ip)) (by decide)
      · exact isBase_ip ip
  have hprotocol : UrlQuery.IsBase protocol.asStr.toList := by cases protocol <;> decide
  have hpath : UrlQuery.IsBase request.path.toList := by
    match request with
    | .prepareUpload _ => exact (by decide : UrlQuery.IsBase "/prepare-upload".toList)
    | .upload _ _ _ => exact (by decide : UrlQuery.IsBase "/upload".toList)
    | .cancel _ => exact (by decide : UrlQuery.IsBase "/cancel".toList)
  unfold TargetUrl.base
  simp only [String.toList_append]
  exact isBase_append (isBase_append (isBase_append (isBase_append (isBase_append (isBase_append
    (isBase_append hprotocol (by decide)) hhost) (by decide)) (isBase_toString _)) (by decide))
      (by decide : UrlQuery.IsBase "v2".toList)) hpath

theorem toList_targetUrl : (request.targetUrl protocol ip.text port).toString.toList =
    if request.params.isEmpty then ((request.targetUrl protocol ip.text port).base).toList
    else ((request.targetUrl protocol ip.text port).base).toList ++
      '?' :: UrlQuery.written request.fields := by
  unfold TargetUrl.toString
  change (if request.params.isEmpty then _ else _ : String).toList = _
  split_ifs with hempty
  · rfl
  · rw [String.toList_append, String.toList_append, String.toList_intercalate, List.append_assoc]
    have hfields : (request.params.map fun p => p.1 ++ "=" ++ p.2).map String.toList =
        request.fields.map fun p => UrlQuery.fieldText p.1 p.2 := by
      unfold fields UrlQuery.fieldText
      rw [List.map_map, List.map_map]
      refine List.map_congr_left fun p _ => ?_
      simp
    exact congrArg (fun texts => _ ++ '?' :: ['&'].intercalate texts) hfields

/-- Every URL of the client starts with its protocol. -/
theorem exists_rest : ∃ rest, (request.targetUrl protocol ip.text port).toString =
    protocol.asStr ++ "://" ++ rest := by
  unfold TargetUrl.toString TargetUrl.base
  simp only [String.append_assoc]
  split_ifs <;> exact ⟨_, rfl⟩

/-! ## §4  Values that come back -/

/-- What the server reads is what a form reads in what arrives. -/
theorem parseQueryText_eq {X : QueryExternals} (hX : X.Documented) {query : Option String}
    (h : X.parseUrl (request.targetUrl protocol ip.text port).toString = some query) :
    parseQueryText X query = AssocMap.ofList
      (UrlQuery.entries (UrlQuery.received (UrlQuery.written request.fields))) := by
  have hbase := isBase_targetUrl protocol ip port request
  have htext := toList_targetUrl protocol ip port request
  obtain ⟨rest, hrest⟩ := exists_rest protocol ip port request
  have hquery : query = UrlQuery.queryOf
      (request.targetUrl protocol ip.text port).toString := by
    rw [hrest] at h ⊢
    exact hX.parseUrl protocol rest query h
  rw [← String.ofList_toList (s := (request.targetUrl protocol ip.text port).toString),
    htext] at hquery
  by_cases hempty : request.params.isEmpty = true
  · rw [if_pos hempty, UrlQuery.queryOf_base hbase] at hquery
    have hfields : request.fields = [] := by
      unfold fields
      rw [List.isEmpty_iff.mp hempty, List.map_nil]
    rw [hquery, hfields]
    rfl
  · rw [if_neg hempty, UrlQuery.queryOf_append hbase] at hquery
    rw [hquery]
    unfold parseQueryText parseQuery
    simp only
    rw [hX.formUrlencoded, UrlQuery.formParse_received]

end Url

/-- No value has a character with a meaning of its own in a query, and no control character or
space ends the last one. -/
def Plain (request : V2Request) : Prop := UrlQuery.AllPlain request.fields

instance (request : V2Request) : Decidable request.Plain :=
  inferInstanceAs (Decidable (UrlQuery.AllPlain request.fields))

end V2Request

/-- **The round trip of a query**: the server reads exactly the parameters of the request, if
and only if their values are plain. -/
theorem query_round_trip {X : QueryExternals} (hX : X.Documented) (protocol : ProtocolType)
    (ip : IpText) (port : BitVec 16) (request : V2Request) {query : Option String}
    (hurl : X.parseUrl (request.targetUrl protocol ip.text port).toString = some query) :
    (∀ name, (parseQueryText X query).get? name = (AssocMap.ofList request.params).get? name) ↔
      request.Plain := by
  unfold V2Request.Plain
  rw [V2Request.parseQueryText_eq protocol ip port request hX hurl,
    ← UrlQuery.fields_settled_iff,
    ← UrlQuery.read_iff_settled request.isName_fields request.nodup_fields, request.texts_fields]

/-! ## §5  A PIN with a plus -/

namespace Sample

def queryLibraries : QueryExternals where
  parseUrl url := some (UrlQuery.queryOf url)
  formUrlencoded := UrlQuery.formParse

theorem documented_queryLibraries : queryLibraries.Documented :=
  ⟨fun _ _ _ h => (Option.some.inj h).symm, fun _ => rfl⟩

def receiverIp : IpText where
  text := "192.168.1.1"
  legal := by
    have hlegal : "192.168.1.1".toList.all (fun c => c.isAlphanum || c = '.') = true := by decide
    intro c hc
    have hlegal := List.all_eq_true.mp hlegal c hc
    rw [Bool.or_eq_true, decide_eq_true_eq] at hlegal
    exact hlegal.imp_right fun h => .inr (.inl h)

end Sample

/-- A PIN of digits comes back. -/
theorem query_round_trip_digits :
    (parseQueryText Sample.queryLibraries (UrlQuery.queryOf
      (((V2Request.prepareUpload (some "1234")).targetUrl .https Sample.receiverIp.text
        53317).toString))).get? "pin" =
      (AssocMap.ofList [("pin", "1234")]).get? "pin" :=
  (query_round_trip Sample.documented_queryLibraries .https Sample.receiverIp 53317
    (.prepareUpload (some "1234")) rfl).mpr (by decide) "pin"

/-- The PIN `12+34` is read as `12 34`. -/
theorem query_changed : ¬ ∀ name,
    (parseQueryText Sample.queryLibraries (UrlQuery.queryOf
      (((V2Request.prepareUpload (some "12+34")).targetUrl .https Sample.receiverIp.text
        53317).toString))).get? name =
      (AssocMap.ofList [("pin", "12+34")]).get? name := by
  intro hall
  have hpin := hall "pin"
  rw [V2Request.parseQueryText_eq .https Sample.receiverIp 53317 (.prepareUpload (some "12+34"))
    Sample.documented_queryLibraries rfl] at hpin
  exact absurd hpin (by decide)

end FireBoxTransfer
