import Mathlib.Algebra.GroupWithZero.Nat
import Mathlib.Data.List.Basic
import Mathlib.Order.Basic
import Mathlib.Tactic.SplitIfs

/-!
# Reading a remote file

The content of a remote file is pulled chunk by chunk, each call with a token by which it may
be cancelled. The stream counts what it delivers, so that a file that was cut off is not taken
for a whole one. After a failure it drops the response, as it does at the end of the file, and
forgets which of the two it was.
-/

namespace FireBoxTransfer

/-! ## §1  The stream -/

/-- The errors of the remote files that reading has itself. -/
inductive RsRemoteFsClientError where
  | cancelled
  | invalidResponse
  | reqwest (text : String)
deriving DecidableEq

/-- A response, by what its body will give: chunks and transport errors. -/
structure RemoteReadResponse where
  body : List (Except String (List (BitVec 8)))

/-- `Response::chunk`; there is none at the end of the body. -/
def RemoteReadResponse.chunk (response : RemoteReadResponse) :
    Except String (Option (List (BitVec 8))) × RemoteReadResponse :=
  match response.body with
  | [] => (.ok none, response)
  | .ok chunk :: body => (.ok (some chunk), ⟨body⟩)
  | .error text :: body => (.error text, ⟨body⟩)

structure RemoteReadState where
  response : Option RemoteReadResponse
  received : ℕ

structure RsRemoteReadStream where
  contentLength : Option (BitVec 64)
  state : RemoteReadState

/-- `u64::MAX`. -/
def maxU64 : ℕ := 2 ^ 64 - 1

/-- `u64::saturating_add`. -/
def saturatingAddU64 (a b : ℕ) : ℕ := min (a + b) maxU64

namespace RsRemoteReadStream

abbrev ChunkResult : Type := Except RsRemoteFsClientError (Option (List (BitVec 8)))

/-- The stream of a response that was just opened. -/
def opened (contentLength : Option (BitVec 64)) (response : RemoteReadResponse) :
    RsRemoteReadStream :=
  ⟨contentLength, ⟨some response, 0⟩⟩

def dropResponse (stream : RsRemoteReadStream) (received : ℕ) : RsRemoteReadStream :=
  { stream with state := ⟨none, received⟩ }

/-- One call; `cancelled` says that the token is cancelled before the response gives anything. -/
def nextChunk (stream : RsRemoteReadStream) (cancelled : Bool) :
    ChunkResult × RsRemoteReadStream :=
  match stream.state.response with
  | none => (.ok none, stream)
  | some response =>
      if cancelled then (.error .cancelled, stream.dropResponse stream.state.received)
      else
        match response.chunk with
        | (.error text, _) => (.error (.reqwest text), stream.dropResponse stream.state.received)
        | (.ok (some chunk), response) =>
            let received := saturatingAddU64 stream.state.received chunk.length
            if stream.contentLength.any fun expected => expected.toNat < received then
              (.error .invalidResponse, stream.dropResponse received)
            else (.ok (some chunk), { stream with state := ⟨some response, received⟩ })
        | (.ok none, _) =>
            let sizeValid := stream.contentLength.all fun expected =>
              expected.toNat = stream.state.received
            if !sizeValid then
              (.error .invalidResponse, stream.dropResponse stream.state.received)
            else (.ok none, stream.dropResponse stream.state.received)

/-- What a sequence of calls gives; they say which of them are cancelled. -/
def nextChunks (stream : RsRemoteReadStream) : List Bool → List ChunkResult
  | [] => []
  | cancelled :: calls =>
      (stream.nextChunk cancelled).1 :: (stream.nextChunk cancelled).2.nextChunks calls

/-! ## §2  What the caller relies on -/

def deliveredBy : ChunkResult → ℕ
  | .ok (some chunk) => chunk.length
  | _ => 0

/-- The bytes that were delivered. -/
def delivered (results : List ChunkResult) : ℕ := (results.map deliveredBy).sum

def failed : ChunkResult → Prop
  | .error _ => True
  | .ok _ => False

/-- **A whole file or an error**, where `earlier` bytes were delivered already: the end comes
when the announced length was delivered, no chunk goes beyond it, and after a failure there
are only failures. -/
def Sound (contentLength : Option (BitVec 64)) (earlier : ℕ) (results : List ChunkResult) : Prop :=
  ∀ before result after, results = before ++ result :: after →
    match result with
    | .ok none => ∀ n ∈ contentLength, earlier + delivered before = n.toNat
    | .ok (some chunk) =>
        ∀ n ∈ contentLength, earlier + delivered before + chunk.length ≤ n.toNat
    | .error _ => ∀ later ∈ after, failed later

/-- **No call comes after one that fails**, where `received` bytes were received already: one
that is cancelled, or meets a transport error, a chunk beyond the announced length or an end
short of it. A length that the counter cannot exceed is not exceeded. -/
def FailsLast (contentLength : Option (BitVec 64)) :
    ℕ → List (Except String (List (BitVec 8))) → List Bool → Prop
  | _, _, [] => True
  | _, _, true :: calls => calls = []
  | received, [], false :: calls => (∀ n ∈ contentLength, received = n.toNat) ∨ calls = []
  | _, .error _ :: _, false :: calls => calls = []
  | received, .ok chunk :: body, false :: calls =>
      if ∀ n ∈ contentLength, received + chunk.length ≤ n.toNat then
        FailsLast contentLength (received + chunk.length) body calls
      else calls = [] ∧ ∀ n ∈ contentLength, n.toNat < maxU64

/-! ## §3  One call -/

section Calls

variable {contentLength : Option (BitVec 64)} {earlier received : ℕ} {results : List ChunkResult}
  {result : ChunkResult} {chunk : List (BitVec 8)} {error : RsRemoteFsClientError}
  {stream : RsRemoteReadStream} {calls : List Bool}
  {body : List (Except String (List (BitVec 8)))}

theorem sound_nil : Sound contentLength earlier [] := by
  intro before result after h
  exact absurd h (by simp)

/-- The first result, and the others with what it delivered. -/
theorem sound_cons : Sound contentLength earlier (result :: results) ↔
    (match result with
      | .ok none => ∀ n ∈ contentLength, earlier = n.toNat
      | .ok (some chunk) => ∀ n ∈ contentLength, earlier + chunk.length ≤ n.toNat
      | .error _ => ∀ later ∈ results, failed later) ∧
    Sound contentLength (earlier + deliveredBy result) results := by
  constructor
  · intro h
    refine ⟨h [] result results rfl, fun before later after hsplit => ?_⟩
    have hlater := h (result :: before) later after (by rw [hsplit]; rfl)
    have hsize : earlier + delivered (result :: before) =
        earlier + deliveredBy result + delivered before := by
      rw [delivered, List.map_cons, List.sum_cons, ← Nat.add_assoc]
      rfl
    rw [hsize] at hlater
    exact hlater
  · rintro ⟨hfirst, hrest⟩ before later after hsplit
    rcases before with _ | ⟨_, before⟩
    · obtain ⟨rfl, rfl⟩ := List.cons.inj hsplit
      exact hfirst
    · obtain ⟨rfl, rfl⟩ := List.cons.inj hsplit
      have hsize : earlier + delivered (result :: before) =
          earlier + deliveredBy result + delivered before := by
        rw [delivered, List.map_cons, List.sum_cons, ← Nat.add_assoc]
        rfl
      rw [hsize]
      exact hrest before later after rfl

/-- Without a response all calls report the end. -/
theorem nextChunks_none (h : stream.state.response = none) :
    stream.nextChunks calls = List.replicate calls.length (.ok none) := by
  induction calls with
  | nil => rfl
  | cons cancelled calls ih =>
      have hcall : stream.nextChunk cancelled = (.ok none, stream) := by
        unfold nextChunk
        rw [h]
      show (stream.nextChunk cancelled).1 :: (stream.nextChunk cancelled).2.nextChunks calls = _
      rw [hcall, ih]
      rfl

theorem sound_replicate {k : ℕ} : Sound contentLength earlier (List.replicate k (.ok none)) ↔
    k = 0 ∨ ∀ n ∈ contentLength, earlier = n.toNat := by
  induction k with
  | zero => exact iff_of_true sound_nil (.inl rfl)
  | succ k ih =>
      rw [List.replicate_succ, sound_cons]
      show _ ∧ Sound contentLength earlier _ ↔ _
      rw [ih]
      constructor
      · rintro ⟨hend, -⟩
        exact .inr hend
      · intro h
        have hend := h.resolve_left (Nat.succ_ne_zero k)
        exact ⟨hend, .inr hend⟩

/-- After a failure any call is one too many. -/
theorem sound_error (h : stream.state.response = none) :
    Sound contentLength earlier (.error error :: stream.nextChunks calls) ↔ calls = [] := by
  rw [nextChunks_none h, sound_cons]
  constructor
  · rintro ⟨hfailed, -⟩
    cases calls with
    | nil => rfl
    | cons cancelled calls => exact (hfailed (.ok none) List.mem_cons_self).elim
  · rintro rfl
    exact ⟨nofun, sound_nil⟩

/-- At the end all calls say the same. -/
theorem sound_end (h : stream.state.response = none) :
    Sound contentLength earlier (.ok none :: stream.nextChunks calls) ↔
      ∀ n ∈ contentLength, earlier = n.toNat := by
  rw [nextChunks_none h, ← List.replicate_succ, sound_replicate]
  exact or_iff_right (Nat.succ_ne_zero _)

/-- The counter exceeds a length, unless the length is the greatest one. -/
theorem exceeds_iff : (contentLength.any fun n =>
      n.toNat < saturatingAddU64 (min received maxU64) chunk.length) = true ↔
    (∃ n ∈ contentLength, n.toNat < received + chunk.length) ∧
      ∀ n ∈ contentLength, n.toNat < maxU64 := by
  unfold saturatingAddU64
  cases contentLength with
  | none => simp
  | some n =>
      simp only [Option.any_some, decide_eq_true_eq, Option.mem_def, Option.some.injEq,
        exists_eq_left', forall_eq']
      omega

/-- A chunk, and whether it is too long. -/
theorem nextChunk_chunk : nextChunk
      ⟨contentLength, ⟨some ⟨.ok chunk :: body⟩, min received maxU64⟩⟩ false =
    if contentLength.any fun n =>
        n.toNat < saturatingAddU64 (min received maxU64) chunk.length then
      (.error .invalidResponse,
        ⟨contentLength, ⟨none, saturatingAddU64 (min received maxU64) chunk.length⟩⟩)
    else (.ok (some chunk),
      ⟨contentLength, ⟨some ⟨body⟩, min (received + chunk.length) maxU64⟩⟩) := by
  have hsum : saturatingAddU64 (min received maxU64) chunk.length =
      min (received + chunk.length) maxU64 := by
    unfold saturatingAddU64
    omega
  rw [hsum]
  show (if _ then _ else _) = _
  rw [hsum]
  rfl

/-- The end of the body, and whether it is too early. -/
theorem nextChunk_end (h : ∀ n ∈ contentLength, received ≤ n.toNat) :
    nextChunk ⟨contentLength, ⟨some ⟨[]⟩, min received maxU64⟩⟩ false =
      (if contentLength.all fun n => n.toNat = received then .ok none
        else .error .invalidResponse,
        ⟨contentLength, ⟨none, min received maxU64⟩⟩) := by
  have hvalid : (contentLength.all fun n => n.toNat = min received maxU64) =
      contentLength.all fun n => n.toNat = received := by
    cases contentLength with
    | none => rfl
    | some n =>
        have hle := h n rfl
        have hlt := n.isLt
        have hmin : min received maxU64 = received := by
          unfold maxU64
          omega
        rw [hmin]
  rw [← hvalid]
  show (if !_ then _ else _) = _
  cases hall : contentLength.all fun n => n.toNat = min received maxU64 with
  | true => rfl
  | false => rfl

/-! ## §4  Every sequence of calls -/

/-- **The calls on an open stream**, one after the other. -/
theorem sound_open (h : ∀ n ∈ contentLength, received ≤ n.toNat) :
    Sound contentLength received
        (nextChunks ⟨contentLength, ⟨some ⟨body⟩, min received maxU64⟩⟩ calls) ↔
      FailsLast contentLength received body calls := by
  induction calls generalizing received body with
  | nil =>
      rw [FailsLast]
      exact iff_of_true sound_nil trivial
  | cons cancelled calls ih =>
      rw [nextChunks]
      cases cancelled with
      | true =>
          rw [FailsLast]
          exact @sound_error _ _ _ (dropResponse _ _) _ rfl
      | false =>
          cases body with
          | nil =>
              rw [nextChunk_end h, FailsLast]
              split_ifs with hvalid
              · -- the end, again and again
                have hend : ∀ n ∈ contentLength, received = n.toNat := fun n hn => by
                  rw [hn] at hvalid
                  exact (of_decide_eq_true hvalid).symm
                exact iff_of_true ((sound_end rfl).mpr hend) (.inl hend)
              · have hearly : ¬ ∀ n ∈ contentLength, received = n.toNat := fun hall => hvalid <| by
                  cases contentLength with
                  | none => rfl
                  | some n => exact decide_eq_true (hall n rfl).symm
                rw [or_iff_right hearly]
                exact sound_error rfl
          | cons next body =>
              cases next with
              | error text =>
                  rw [FailsLast]
                  exact @sound_error _ _ _ (dropResponse _ _) _ rfl
              | ok chunk =>
                  rw [nextChunk_chunk, FailsLast]
                  by_cases hfits : ∀ n ∈ contentLength, received + chunk.length ≤ n.toNat
                  · have hnot : ¬ (contentLength.any fun n =>
                        n.toNat < saturatingAddU64 (min received maxU64) chunk.length) = true := by
                      rw [exceeds_iff]
                      rintro ⟨⟨n, hn, hlt⟩, -⟩
                      exact absurd (hfits n hn) (Nat.not_le.mpr hlt)
                    rw [if_neg hnot, if_pos hfits, sound_cons]
                    exact (and_iff_right hfits).trans (ih hfits)
                  · have hover : ∃ n ∈ contentLength, n.toNat < received + chunk.length := by
                      by_contra hnone
                      exact hfits fun n hn => Nat.not_lt.mp fun hlt => hnone ⟨n, hn, hlt⟩
                    rw [if_neg hfits]
                    by_cases hmax : ∀ n ∈ contentLength, n.toNat < maxU64
                    · rw [if_pos (exceeds_iff.mpr ⟨hover, hmax⟩)]
                      exact (sound_error rfl).trans (and_iff_left hmax).symm
                    · -- the counter stays at the greatest length
                      rw [if_neg (mt exceeds_iff.mp fun hboth => hmax hboth.2), sound_cons]
                      refine iff_of_false (fun hsound => hfits hsound.1) fun hlast => ?_
                      exact hmax hlast.2

end Calls

/-- **A truncated file is never taken for a whole one**, in a sequence of calls, exactly if no
call comes after one that fails. -/
theorem next_chunks_iff (contentLength : Option (BitVec 64))
    (response : RemoteReadResponse) (calls : List Bool) :
    Sound contentLength 0 ((opened contentLength response).nextChunks calls) ↔
      FailsLast contentLength 0 response.body calls := by
  exact @sound_open contentLength 0 calls response.body fun _ _ => Nat.zero_le _

/-! ## §5  A failure that is forgotten -/

/-- Two bytes are announced, and the connection breaks after the first one. The next call says
that the file is over. -/
theorem failure_forgotten : ¬ Sound (some 2) 0
    ((opened (some 2) ⟨[.ok [7], .error "connection reset"]⟩).nextChunks
      [false, false, false]) := by
  intro h
  have hend := h [.ok (some [7]), .error (.reqwest "connection reset")] (.ok none) [] rfl 2 rfl
  exact absurd hend (by decide)

end RsRemoteReadStream

end FireBoxTransfer
