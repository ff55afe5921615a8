import FireBoxTransfer.Framework.Base64

/-!
# Tokens

A token names its hash and signature methods and carries a salt, the hash of the
signer's public key with that salt, and a signature of the hash, separated by
dots. The salt is the nonce of the exchange or the time of the signing.
-/

namespace FireBoxTransfer.Token

/-! ## §1  Keys -/

/-- What the crates provide: the Base64 engine, SHA-256, the two signature schemes
and the DER form of their public keys. -/
structure Crates (SigningKey Ed25519Key RsaKey : Type) where
  base64Encode : List UInt8 → String
  base64Decode : String → Option (List UInt8)
  sha256 : List UInt8 → List UInt8
  verifyingKey : SigningKey → Ed25519Key
  sign : SigningKey → List UInt8 → List UInt8
  ed25519Verify : Ed25519Key → List UInt8 → List UInt8 → Bool
  ed25519Der : Ed25519Key → Option (List UInt8)
  rsaVerify : RsaKey → List UInt8 → List UInt8 → Bool
  rsaDer : RsaKey → Option (List UInt8)
  base64_decode_encode : ∀ data, base64Decode (base64Encode data) = some data
  dot_notMem_base64 : ∀ data, '.' ∉ (base64Encode data).toList
  verify_sign : ∀ key msg, ed25519Verify (verifyingKey key) msg (sign key msg) = true

inductive VerifyingTokenKey (Ed25519Key RsaKey : Type) where
  | ed25519 (inner : Ed25519Key)
  | rsaPss (inner : RsaKey)

variable {SK VK RK : Type} (c : Crates SK VK RK)

namespace VerifyingTokenKey

def verify (c : Crates SK VK RK) (key : VerifyingTokenKey VK RK) (msg signature : List UInt8) :
    Bool :=
  match key with
  | .ed25519 inner => c.ed25519Verify inner msg signature
  | .rsaPss inner => c.rsaVerify inner msg signature

def toDer (c : Crates SK VK RK) : VerifyingTokenKey VK RK → Option (List UInt8)
  | .ed25519 inner => c.ed25519Der inner
  | .rsaPss inner => c.rsaDer inner

def signatureMethod : VerifyingTokenKey VK RK → String
  | .ed25519 _ => "ed25519"
  | .rsaPss _ => "rsa-pss"

end VerifyingTokenKey

def toVerifyingKey (key : SK) : VerifyingTokenKey VK RK := .ed25519 (c.verifyingKey key)

/-- Base64 as it is, with stand-ins for the hash and the signatures. -/
def sampleCrates : Crates Unit Unit Unit where
  base64Encode data := String.ofList (Base64.encode data)
  base64Decode text := Base64.decode text.toList
  sha256 data := [UInt8.ofNat data.length]
  verifyingKey := id
  sign _ msg := 7 :: msg
  ed25519Verify _ msg signature := signature = 7 :: msg
  ed25519Der _ := some [1, 2, 3]
  rsaVerify _ msg signature := signature = 9 :: msg
  rsaDer _ := some [4, 5]
  base64_decode_encode data := by rw [String.toList_ofList, Base64.decode_encode]
  dot_notMem_base64 data := by
    rw [String.toList_ofList]
    exact Base64.dot_notMem_encode data
  verify_sign _ _ := by simp

/-! ## §2  Writing a token -/

inductive Failure where
  | error (message : String)
  /-- Errors of the crates and of the clock, passed on. -/
  | base64 | der | systemTime
  | panic
deriving DecidableEq

/-- What is signed: the hash of the public key and the salt. -/
def tokenDigest (der salt : List UInt8) : List UInt8 := c.sha256 (der ++ salt)

def generateTokenNonce (key : SK) (salt : List UInt8) : Except Failure String :=
  match c.ed25519Der (c.verifyingKey key) with
  | none => .error .der
  | some publicKey =>
      let digest := tokenDigest c publicKey salt
      let signature := c.sign key digest
      .ok (".".intercalate ["sha256", c.base64Encode digest, c.base64Encode salt, "ed25519",
        c.base64Encode signature])

/-! ## §3  Checking a token -/

/-- `token.split('.')`. -/
def split (token : String) : List String := (token.toList.splitOn '.').map String.ofList

def verifyTokenWithResult (publicKey : VerifyingTokenKey VK RK) (token : String)
    (verifySalt : List UInt8 → Except Failure Unit) : Except Failure Unit :=
  let parts := split token
  -- `parts[0..5]` panics past the end
  if parts.length < 5 then .error .panic else
  match parts.take 5 with
  | [hashMethod, hashBase64, saltBase64, signMethod, signatureBase64] =>
      if hashMethod ≠ "sha256" then .error (.error "Invalid hash method") else
      if signMethod ≠ publicKey.signatureMethod then .error (.error "Invalid sign method") else
      match c.base64Decode saltBase64 with
      | none => .error .base64
      | some salt =>
          match verifySalt salt with
          | .error failure => .error failure
          | .ok () =>
              match publicKey.toDer c with
              | none => .error .der
              | some publicKeyDer =>
                  let digest := tokenDigest c publicKeyDer salt
                  if c.base64Encode digest ≠ hashBase64 then .error (.error "Hash mismatch") else
                  match c.base64Decode signatureBase64 with
                  | none => .error (.error "Invalid signature base64 encoding")
                  | some signature =>
                      if publicKey.verify c digest signature then .ok ()
                      else .error (.error "Invalid signature")
  | _ => .error (.error "Invalid structure")

/-- The time of a salt of eight bytes, `u64::from_le_bytes`. -/
def saltTime (salt : List UInt8) : UInt64 := .ofNat (LittleEndian.ofBytes salt)

/-- `overflowChecks` is the profile of the build: with them a subtraction below
zero panics, without them it wraps around. -/
def verifySaltTimestamp (overflowChecks : Bool) (now : Option UInt64) (salt : List UInt8) :
    Except Failure Unit :=
  if salt.length ≠ 8 then .error (.error "Invalid salt length") else
  let time := saltTime salt
  match now with
  | none => .error .systemTime
  | some nowSeconds =>
      if overflowChecks ∧ nowSeconds < time then .error .panic else
      if nowSeconds - time > 60 * 60 then .error (.error "Fingerprint timestamp expired")
      else .ok ()

def verifySaltNonce (nonce salt : List UInt8) : Except Failure Unit :=
  if salt ≠ nonce then .error (.error "Invalid nonce") else .ok ()

/-- `is_ok()`; a call that panics returns nothing. -/
def isOk : Except Failure Unit → Option Bool
  | .ok () => some true
  | .error .panic => none
  | .error _ => some false

def verifyTokenTimestamp (overflowChecks : Bool) (now : Option UInt64)
    (publicKey : VerifyingTokenKey VK RK) (token : String) : Option Bool :=
  isOk (verifyTokenWithResult c publicKey token (verifySaltTimestamp overflowChecks now))

def verifyTokenNonce (publicKey : VerifyingTokenKey VK RK) (token : String)
    (nonce : List UInt8) : Option Bool :=
  isOk (verifyTokenWithResult c publicKey token (verifySaltNonce nonce))

theorem isOk_eq_true {r : Except Failure Unit} : isOk r = some true ↔ r = .ok () := by
  rcases r with failure | ⟨⟩
  · cases failure <;> simp [isOk]
  · simp [isOk]

theorem isOk_eq_none {r : Except Failure Unit} : isOk r = none ↔ r = .error .panic := by
  rcases r with failure | ⟨⟩
  · cases failure <;> simp [isOk]
  · simp [isOk]

theorem verifySaltNonce_eq_ok {nonce salt : List UInt8} :
    verifySaltNonce nonce salt = .ok () ↔ salt = nonce := by
  unfold verifySaltNonce
  by_cases h : salt = nonce <;> simp [h]

theorem verifySaltNonce_ne_panic (nonce salt : List UInt8) :
    verifySaltNonce nonce salt ≠ .error .panic := by
  unfold verifySaltNonce
  by_cases h : salt = nonce <;> simp [h]

/-- The salt is the time of an hour that has not passed, as the clock's subtraction
counts it. -/
structure Recent (overflowChecks : Bool) (now : Option UInt64) (salt : List UInt8) : Prop where
  length : salt.length = 8
  elapsed : ∃ seconds, now = some seconds ∧ seconds - saltTime salt ≤ 60 * 60 ∧
    (overflowChecks = true → saltTime salt ≤ seconds)

/-- The salt is a time that the clock has not reached. -/
structure Future (now : Option UInt64) (salt : List UInt8) : Prop where
  length : salt.length = 8
  ahead : ∃ seconds, now = some seconds ∧ seconds < saltTime salt

theorem verifySaltTimestamp_eq_ok {overflowChecks : Bool} {now : Option UInt64}
    {salt : List UInt8} :
    verifySaltTimestamp overflowChecks now salt = .ok () ↔ Recent overflowChecks now salt := by
  unfold verifySaltTimestamp
  by_cases hlength : salt.length = 8
  · cases now with
    | none => exact ⟨by simp [hlength], fun h => by simpa using h.elapsed⟩
    | some seconds =>
        have hrecent : Recent overflowChecks (some seconds) salt ↔
            seconds - saltTime salt ≤ 60 * 60 ∧
              (overflowChecks = true → saltTime salt ≤ seconds) :=
          ⟨fun h => by simpa using h.elapsed, fun h => ⟨hlength, seconds, rfl, h⟩⟩
        rw [hrecent, if_neg (by simpa using hlength)]
        simp only
        split_ifs with hpanic hexpired
        · simp [hpanic.1, UInt64.not_le.mpr hpanic.2]
        · exact iff_of_false (by simp) fun h => UInt64.not_le.mpr hexpired h.1
        · refine iff_of_true rfl ⟨UInt64.not_lt.mp hexpired, fun hchecks => ?_⟩
          exact UInt64.not_lt.mp fun hlt => hpanic ⟨hchecks, hlt⟩
  · rw [if_pos (by simpa using hlength)]
    exact ⟨by simp, fun h => absurd h.length hlength⟩

theorem verifySaltTimestamp_eq_panic {overflowChecks : Bool} {now : Option UInt64}
    {salt : List UInt8} :
    verifySaltTimestamp overflowChecks now salt = .error .panic ↔
      overflowChecks = true ∧ Future now salt := by
  unfold verifySaltTimestamp
  by_cases hlength : salt.length = 8
  · cases now with
    | none => exact ⟨by simp [hlength], fun h => by simpa using h.2.ahead⟩
    | some seconds =>
        have hfuture : Future (some seconds) salt ↔ seconds < saltTime salt :=
          ⟨fun h => by simpa using h.ahead, fun h => ⟨hlength, seconds, rfl, h⟩⟩
        rw [hfuture, if_neg (by simpa using hlength)]
        simp only
        split_ifs with hpanic hexpired
        · simpa using hpanic
        · simpa using hpanic
        · simpa using hpanic
  · rw [if_pos (by simpa using hlength)]
    exact ⟨by simp, fun h => absurd h.2.length hlength⟩

/-- A recent time is not older than the limit, wherever the subtraction wraps. -/
theorem Recent.not_older {overflowChecks : Bool} {now : Option UInt64} {salt : List UInt8}
    (h : Recent overflowChecks now salt) :
    ∃ seconds, now = some seconds ∧ seconds.toNat ≤ (saltTime salt).toNat + 60 * 60 := by
  obtain ⟨seconds, hnow, helapsed, -⟩ := h.elapsed
  refine ⟨seconds, hnow, ?_⟩
  by_cases hle : saltTime salt ≤ seconds
  · have hsub := UInt64.toNat_sub_of_le _ _ hle
    have helapsed := UInt64.le_iff_toNat_le.mp helapsed
    rw [hsub] at helapsed
    have hlimit : (60 * 60 : UInt64).toNat = 60 * 60 := by decide
    omega
  · have hlt := UInt64.lt_iff_toNat_lt.mp (UInt64.not_le.mp hle)
    omega

/-! ## §4  Tokens that are accepted -/

/-- What the five parts of a token say: the methods, and a salt that is admitted, with
the hash of the key and the salt and a signature of that hash. -/
structure Authentic (key : VerifyingTokenKey VK RK) (admits : List UInt8 → Prop)
    (hashMethod hashBase64 saltBase64 signMethod signatureBase64 : String) : Prop where
  hash_method : hashMethod = "sha256"
  sign_method : signMethod = key.signatureMethod
  signed : ∃ salt der signature, c.base64Decode saltBase64 = some salt ∧ admits salt ∧
    key.toDer c = some der ∧ hashBase64 = c.base64Encode (tokenDigest c der salt) ∧
    c.base64Decode signatureBase64 = some signature ∧
    key.verify c (tokenDigest c der salt) signature = true

/-- The first five parts of a token are authentic. -/
def StartsAuthentic (key : VerifyingTokenKey VK RK) (admits : List UInt8 → Prop)
    (token : String) : Prop :=
  ∃ hashMethod hashBase64 saltBase64 signMethod signatureBase64 rest,
    split token = hashMethod :: hashBase64 :: saltBase64 :: signMethod :: signatureBase64 :: rest ∧
      Authentic c key admits hashMethod hashBase64 saltBase64 signMethod signatureBase64

theorem Authentic.imp {key : VerifyingTokenKey VK RK} {admits admits' : List UInt8 → Prop}
    {hm hb sb sm sig : String} (h : Authentic c key admits hm hb sb sm sig)
    (himp : ∀ salt, admits salt → admits' salt) : Authentic c key admits' hm hb sb sm sig := by
  obtain ⟨salt, der, signature, hsalt, hadmits, hrest⟩ := h.signed
  exact ⟨h.hash_method, h.sign_method, salt, der, signature, hsalt, himp salt hadmits, hrest⟩

theorem StartsAuthentic.imp {key : VerifyingTokenKey VK RK} {admits admits' : List UInt8 → Prop}
    {token : String} (h : StartsAuthentic c key admits token)
    (himp : ∀ salt, admits salt → admits' salt) : StartsAuthentic c key admits' token := by
  obtain ⟨hm, hb, sb, sm, sig, rest, hsplit, hauthentic⟩ := h
  exact ⟨hm, hb, sb, sm, sig, rest, hsplit, hauthentic.imp c himp⟩

theorem take_five {l : List String} (h : 5 ≤ l.length) :
    ∃ a b d e f rest, l = a :: b :: d :: e :: f :: rest := by
  match l, h with
  | a :: b :: d :: e :: f :: rest, _ => exact ⟨a, b, d, e, f, rest, rfl⟩

/-- The check of a token with five parts or more. -/
theorem verifyTokenWithResult_cons {key : VerifyingTokenKey VK RK} {token : String}
    {verifySalt : List UInt8 → Except Failure Unit} {hm hb sb sm sig : String}
    {rest : List String} (h : split token = hm :: hb :: sb :: sm :: sig :: rest) :
    verifyTokenWithResult c key token verifySalt =
      if hm ≠ "sha256" then .error (.error "Invalid hash method") else
      if sm ≠ key.signatureMethod then .error (.error "Invalid sign method") else
      match c.base64Decode sb with
      | none => .error .base64
      | some salt =>
          match verifySalt salt with
          | .error failure => .error failure
          | .ok () =>
              match key.toDer c with
              | none => .error .der
              | some der =>
                  if c.base64Encode (tokenDigest c der salt) ≠ hb then
                    .error (.error "Hash mismatch")
                  else
                    match c.base64Decode sig with
                    | none => .error (.error "Invalid signature base64 encoding")
                    | some signature =>
                        if key.verify c (tokenDigest c der salt) signature then .ok ()
                        else .error (.error "Invalid signature") := by
  unfold verifyTokenWithResult
  simp only [h, List.length_cons]
  rw [if_neg (by omega)]
  rfl

theorem verifyTokenWithResult_eq_ok {key : VerifyingTokenKey VK RK} {token : String}
    {verifySalt : List UInt8 → Except Failure Unit} :
    verifyTokenWithResult c key token verifySalt = .ok () ↔
      StartsAuthentic c key (verifySalt · = .ok ()) token := by
  constructor
  · intro h
    by_cases hshort : (split token).length < 5
    · simp [verifyTokenWithResult, hshort] at h
    obtain ⟨hm, hb, sb, sm, sig, rest, hsplit⟩ := take_five (Nat.not_lt.mp hshort)
    rw [verifyTokenWithResult_cons c hsplit] at h
    -- every other branch is an error
    split_ifs at h with hhash hsign
    split at h
    · cases h
    rename_i salt hsalt
    split at h
    · cases h
    rename_i hadmits
    split at h
    · cases h
    rename_i der hder
    split_ifs at h with hdigest
    split at h
    · cases h
    rename_i signature hsignature
    split_ifs at h with hverify
    exact ⟨hm, hb, sb, sm, sig, rest, hsplit, not_not.mp hhash, not_not.mp hsign, salt, der,
      signature, hsalt, hadmits, hder, (not_not.mp hdigest).symm, hsignature, hverify⟩
  · rintro ⟨hm, hb, sb, sm, sig, rest, hsplit, hhash, hsign, salt, der, signature, hsalt, hadmits,
      hder, hdigest, hsignature, hverify⟩
    rw [verifyTokenWithResult_cons c hsplit]
    simp only [hhash, hsign, hsalt, hadmits, hder, hdigest, hsignature, hverify, ne_eq,
      not_true_eq_false, if_false, if_true]

theorem verifyTokenNonce_eq_true {key : VerifyingTokenKey VK RK} {token : String}
    {nonce : List UInt8} :
    verifyTokenNonce c key token nonce = some true ↔
      StartsAuthentic c key (· = nonce) token := by
  simp only [verifyTokenNonce, isOk_eq_true, verifyTokenWithResult_eq_ok, verifySaltNonce_eq_ok]

theorem verifyTokenTimestamp_eq_true {overflowChecks : Bool} {now : Option UInt64}
    {key : VerifyingTokenKey VK RK} {token : String} :
    verifyTokenTimestamp c overflowChecks now key token = some true ↔
      StartsAuthentic c key (Recent overflowChecks now) token := by
  simp only [verifyTokenTimestamp, isOk_eq_true, verifyTokenWithResult_eq_ok,
    verifySaltTimestamp_eq_ok]

/-- What is written with dots between is split there again. -/
theorem split_intercalate {parts : List String} (hne : parts ≠ [])
    (h : ∀ part ∈ parts, '.' ∉ part.toList) : split (".".intercalate parts) = parts := by
  unfold split
  rw [String.toList_intercalate]
  have hdot : ".".toList = ['.'] := by decide
  rw [hdot, List.splitOn_intercalate '.' _ (by simpa using hne)]
  · have hid : String.ofList ∘ String.toList = id := funext fun s => String.ofList_toList
    rw [List.map_map, hid, List.map_id]
  · intro l hl
    obtain ⟨part, hpart, rfl⟩ := List.mem_map.mp hl
    exact h part hpart

/-- A token that was written is authentic for its key. -/
theorem startsAuthentic_generate {key : SK} {salt : List UInt8} {token : String}
    {admits : List UInt8 → Prop} (h : generateTokenNonce c key salt = .ok token)
    (hadmits : admits salt) : StartsAuthentic c (toVerifyingKey c key) admits token := by
  unfold generateTokenNonce at h
  cases hder : c.ed25519Der (c.verifyingKey key) with
  | none => simp [hder] at h
  | some der =>
      simp only [hder, Except.ok.injEq] at h
      subst h
      refine ⟨_, _, _, _, _, [], split_intercalate (by simp) ?_, rfl, rfl, salt, der, _,
        c.base64_decode_encode salt, hadmits, hder, rfl, c.base64_decode_encode _,
        c.verify_sign key _⟩
      simp only [List.forall_mem_cons]
      exact ⟨by decide, c.dot_notMem_base64 _, c.dot_notMem_base64 _, by decide,
        c.dot_notMem_base64 _, List.forall_mem_nil _⟩

/-- **Tokens.** What is written for a key and a nonce is accepted for them, and what
is accepted is authentic: with the nonce as its salt, or with a time that is not older
than an hour. -/
theorem token_sound_complete :
    (∀ key nonce token, generateTokenNonce c key nonce = .ok token →
      verifyTokenNonce c (toVerifyingKey c key) token nonce = some true) ∧
    (∀ key token nonce, verifyTokenNonce c key token nonce = some true →
      StartsAuthentic c key (· = nonce) token) ∧
    ∀ overflowChecks now key token,
      verifyTokenTimestamp c overflowChecks now key token = some true →
        StartsAuthentic c key (fun salt => salt.length = 8 ∧
          ∃ seconds, now = some seconds ∧
            seconds.toNat ≤ (saltTime salt).toNat + 60 * 60) token := by
  refine ⟨fun key nonce token h => ?_, fun key token nonce h => ?_,
    fun checks now key token h => ?_⟩
  · exact (verifyTokenNonce_eq_true c).mpr (startsAuthentic_generate c h rfl)
  · exact (verifyTokenNonce_eq_true c).mp h
  · have hrecent := (verifyTokenTimestamp_eq_true c).mp h
    exact hrecent.imp c fun salt hsalt => ⟨hsalt.length, hsalt.not_older⟩

/-- The token of the nonce `[5, 6]`. -/
theorem token_sound_complete_nonce :
    verifyTokenNonce sampleCrates (toVerifyingKey sampleCrates ()) "sha256.BQ.BQY.ed25519.BwU"
      [5, 6] = some true ∧
    StartsAuthentic sampleCrates (toVerifyingKey sampleCrates ()) (· = [5, 6])
      "sha256.BQ.BQY.ed25519.BwU" :=
  have hsound := token_sound_complete sampleCrates
  have haccepted := hsound.1 () [5, 6] "sha256.BQ.BQY.ed25519.BwU" (by decide +kernel)
  ⟨haccepted, hsound.2.1 _ _ _ haccepted⟩

/-! ## §5  Tokens that panic -/

/-- The methods of a token are right and its salt decodes to one with `p`. -/
def SaltOf (key : VerifyingTokenKey VK RK) (p : List UInt8 → Prop) (token : String) : Prop :=
  ∃ hashBase64 saltBase64 signatureBase64 rest salt,
    split token =
      "sha256" :: hashBase64 :: saltBase64 :: key.signatureMethod :: signatureBase64 :: rest ∧
    c.base64Decode saltBase64 = some salt ∧ p salt

theorem verifyTokenWithResult_eq_panic {key : VerifyingTokenKey VK RK} {token : String}
    {verifySalt : List UInt8 → Except Failure Unit} :
    verifyTokenWithResult c key token verifySalt = .error .panic ↔
      (split token).length < 5 ∨ SaltOf c key (verifySalt · = .error .panic) token := by
  by_cases hshort : (split token).length < 5
  · exact iff_of_true (by simp [verifyTokenWithResult, hshort]) (.inl hshort)
  obtain ⟨hm, hb, sb, sm, sig, rest, hsplit⟩ := take_five (Nat.not_lt.mp hshort)
  rw [verifyTokenWithResult_cons c hsplit, or_iff_right hshort]
  constructor
  · intro h
    -- only the check of the salt can panic
    split_ifs at h with hhash hsign
    · cases h
    · cases h
    split at h
    · cases h
    rename_i salt hsalt
    split at h
    · rename_i failure hpanic
      cases h
      rw [not_not] at hhash hsign
      subst hhash hsign
      exact ⟨hb, sb, sig, rest, salt, hsplit, hsalt, hpanic⟩
    split at h
    · cases h
    split_ifs at h
    · cases h
    split at h
    · cases h
    split_ifs at h
    cases h
  · rintro ⟨hb', sb', sig', rest', salt, hsplit', hsalt, hpanic⟩
    rw [hsplit] at hsplit'
    obtain ⟨rfl, rfl, rfl, rfl, rfl, rfl⟩ : hm = "sha256" ∧ hb = hb' ∧ sb = sb' ∧
        sm = key.signatureMethod ∧ sig = sig' ∧ rest = rest' := by simpa using hsplit'
    simp only [hsalt, hpanic, ne_eq, not_true_eq_false, if_false]

theorem SaltOf.congr {key : VerifyingTokenKey VK RK} {p q : List UInt8 → Prop} {token : String}
    (h : ∀ salt, p salt ↔ q salt) : SaltOf c key p token ↔ SaltOf c key q token := by
  have hpq : p = q := funext fun salt => propext (h salt)
  rw [hpq]

theorem verifyTokenNonce_eq_none {key : VerifyingTokenKey VK RK} {token : String}
    {nonce : List UInt8} :
    verifyTokenNonce c key token nonce = none ↔ (split token).length < 5 := by
  rw [verifyTokenNonce, isOk_eq_none, verifyTokenWithResult_eq_panic, or_iff_left]
  rintro ⟨hb, sb, sig, rest, salt, -, -, hpanic⟩
  exact verifySaltNonce_ne_panic nonce salt hpanic

theorem verifyTokenTimestamp_eq_none {overflowChecks : Bool} {now : Option UInt64}
    {key : VerifyingTokenKey VK RK} {token : String} :
    verifyTokenTimestamp c overflowChecks now key token = none ↔
      (split token).length < 5 ∨ overflowChecks = true ∧ SaltOf c key (Future now) token := by
  rw [verifyTokenTimestamp, isOk_eq_none, verifyTokenWithResult_eq_panic]
  apply or_congr_right
  rw [SaltOf.congr c fun salt => verifySaltTimestamp_eq_panic]
  constructor
  · rintro ⟨hb, sb, sig, rest, salt, hsplit, hsalt, hchecks, hfuture⟩
    exact ⟨hchecks, hb, sb, sig, rest, salt, hsplit, hsalt, hfuture⟩
  · rintro ⟨hchecks, hb, sb, sig, rest, salt, hsplit, hsalt, hfuture⟩
    exact ⟨hb, sb, sig, rest, salt, hsplit, hsalt, hchecks, hfuture⟩

/-! ## §6  Every token, hostile ones included -/

/-- The check of a token returns, and returns false unless the token has exactly five
parts. -/
structure Total (verified : Option Bool) (token : String) : Prop where
  returns : verified ≠ none
  five : (split token).length ≠ 5 → verified = some false

theorem total_iff {verified : Option Bool} {token : String} :
    Total verified token ↔
      verified ≠ none ∧ ((split token).length ≠ 5 → verified ≠ some true) := by
  constructor
  · intro h
    exact ⟨h.returns, fun hne htrue => by simp [h.five hne] at htrue⟩
  · rintro ⟨hreturns, hfive⟩
    refine ⟨hreturns, fun hne => ?_⟩
    rcases verified with _ | _ | _
    · exact absurd rfl hreturns
    · rfl
    · exact absurd rfl (hfive hne)

/-- **Hostile tokens.** The check is total exactly where a token has five parts, or
more of which the first five are not a token already; with overflow checks, a time
ahead of the clock must not be reached. -/
theorem verify_total_iff :
    (∀ key token nonce, Total (verifyTokenNonce c key token nonce) token ↔
      5 ≤ (split token).length ∧
        (5 < (split token).length → ¬ StartsAuthentic c key (· = nonce) token)) ∧
    ∀ overflowChecks now key token,
      Total (verifyTokenTimestamp c overflowChecks now key token) token ↔
        5 ≤ (split token).length ∧
          (overflowChecks = true → ¬ SaltOf c key (Future now) token) ∧
          (5 < (split token).length →
            ¬ StartsAuthentic c key (Recent overflowChecks now) token) := by
  constructor
  · intro key token nonce
    rw [total_iff, ne_eq, verifyTokenNonce_eq_none, ne_eq _ (some true),
      verifyTokenNonce_eq_true, Nat.not_lt]
    refine and_congr_right fun hfive => ?_
    exact ⟨fun h hlt => h (by omega), fun h hne => h (by omega)⟩
  · intro checks now key token
    rw [total_iff, ne_eq, verifyTokenTimestamp_eq_none, ne_eq _ (some true),
      verifyTokenTimestamp_eq_true, not_or, not_and, Nat.not_lt, and_assoc]
    refine and_congr_right fun hfive => and_congr_right fun _ => ?_
    exact ⟨fun h hlt => h (by omega), fun h hne => h (by omega)⟩

/-- A text without dots panics, and a token with a sixth part is accepted. -/
theorem hostile_tokens :
    ¬ Total (verifyTokenNonce sampleCrates (.ed25519 ()) "abc" [5, 6]) "abc" ∧
    ¬ Total (verifyTokenNonce sampleCrates (.ed25519 ()) "sha256.BQ.BQY.ed25519.BwU.x" [5, 6])
      "sha256.BQ.BQY.ed25519.BwU.x" := by
  have hpanics : verifyTokenNonce sampleCrates (.ed25519 ()) "abc" [5, 6] = none := by
    decide +kernel
  have haccepts : verifyTokenNonce sampleCrates (.ed25519 ()) "sha256.BQ.BQY.ed25519.BwU.x"
      [5, 6] = some true := by decide +kernel
  refine ⟨fun h => h.returns hpanics, fun h => ?_⟩
  have hfalse := h.five (by decide +kernel)
  rw [haccepts] at hfalse
  cases hfalse

end FireBoxTransfer.Token
