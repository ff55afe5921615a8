import Mathlib.Data.List.Perm.Subperm
import Mathlib.Data.List.Range
import FireBoxTransfer.Framework.Progress
import FireBoxTransfer.WebRTC.ReceiveLoop

/-!
# The receive loop ends

The delimiter is only looked for when a file has just ended. So the loop ends without an
error if and only if the last file is still open when the delimiter comes, as long as the
application holds on to the files whose content is still to come and the sender keeps the
channel open until the last response is sent.
-/

namespace FireBoxTransfer.WebRTC

open Json Runs

/-! ## §1  The last file -/

namespace Selection

variable (X : Selection)

/-- There is a file, and the last one is not longer than declared. -/
def LastFits (messages : List RTCFile) : Prop :=
  ∃ f, (messages.filter X.accepted).getLast? = some f ∧ X.fits f = true

/-- A file is open at the end of the files `rest`, if one is open in front of them. -/
def EndsOpen (openNow : Prop) : List RTCFile → Prop
  | [] => openNow
  | f :: rest => EndsOpen (X.fits f = true) rest

variable {X}

theorem endsOpen_iff {openNow : Prop} {rest : List RTCFile} :
    X.EndsOpen openNow rest ↔
      (rest = [] ∧ openNow) ∨ ∃ f, rest.getLast? = some f ∧ X.fits f = true := by
  induction rest generalizing openNow with
  | nil => simp [EndsOpen]
  | cons f rest ih =>
      rw [EndsOpen, ih]
      cases rest with
      | nil => simp
      | cons g rest => simp [List.getLast?_cons_cons]

theorem endsOpen_init (messages : List RTCFile) :
    X.EndsOpen False (messages.filter X.accepted) ↔ X.LastFits messages := by
  rw [endsOpen_iff, LastFits, and_false, false_or]

end Selection

/-! ## §2  What the delimiter will find -/

namespace Receiver

variable {X : Selection} {r r' : Receiver} {chunks : List Bytes} {rest : List RTCFile}
  {C : Prop}

/-- A file is open and will be when its chunks have come, or it has just ended. -/
def OpenNow (r : Receiver) (chunks : List Bytes) : Prop :=
  (∃ index lastFileId msg, r.place = .awaiting index lastFileId msg) ∨
    ∃ state ∈ r.fileState, state.received + chunks.flatten.length ≤ state.size

/-- The loop ends well exactly if `C`. -/
inductive Tracks (X : Selection) (C : Prop) (r : Receiver) : Prop
  | going {chunks : List Bytes} {rest : List RTCFile} (hat : r.At X chunks rest)
      (channelOpen : r.channelOpen = true) (ends : X.EndsOpen (r.OpenNow chunks) rest ↔ C)
  | finished (place : r.place = .finished) (incoming : r.incoming = []) (well : C)
  | failed {error : LoopError} (place : r.place = .failed error) (ill : ¬ C)

/-- The application holds on to a file whose content comes, and the sender to the channel
until the last response is sent. -/
def Keeps (r : Receiver) : Label → Prop
  | .loop =>
      ∀ state ∈ r.fileState, ∀ msg ∈ r.incoming.head?, msg.isString = false →
        state.received + msg.data.length ≤ state.size → state.receiverAlive = true
  | .hangUp => r.place = .finished
  | _ => True

instance (r : Receiver) : (l : Label) → Decidable (r.Keeps l)
  | .loop =>
      inferInstanceAs (Decidable (∀ state ∈ r.fileState, ∀ msg ∈ r.incoming.head?,
        msg.isString = false → state.received + msg.data.length ≤ state.size →
          state.receiverAlive = true))
  | .hangUp => inferInstanceAs (Decidable (r.place = .finished))
  | .report _ _ | .dropReceiver | .close => .isTrue trivial

/-! ## §3  Every step -/

theorem openNow_receiving (hplace : r.place = .receiving) :
    r.OpenNow chunks ↔
      ∃ state ∈ r.fileState, state.received + chunks.flatten.length ≤ state.size := by
  refine or_iff_right ?_
  rintro ⟨index, lastFileId, msg, hawaiting⟩
  rw [hplace] at hawaiting
  cases hawaiting

theorem not_openNow (hplace : r.place = .receiving) (hstate : r.fileState = none) :
    ¬ r.OpenNow chunks := by
  rw [openNow_receiving hplace, hstate]
  rintro ⟨state, hmem, -⟩
  cases hmem

theorem Headed.channelOpen_eq (hheaded : Headed X r rest r') :
    r'.channelOpen = r.channelOpen := by
  cases hheaded <;> rfl

theorem Tracks.headed {openNow : Prop} (hheaded : Headed X r rest r')
    (hchannel : r.channelOpen = true)
    (haccepted : ∀ f ∈ rest, X.accepted f = true) (hstate : r.fileState = none)
    (hopen : rest = [] → ¬ openNow) (hends : X.EndsOpen openNow rest ↔ C) : Tracks X C r' := by
  cases rest with
  | nil =>
      cases hheaded with
      | unparsable => exact .failed rfl (mt hends.mpr (hopen rfl))
  | cons f rest =>
      obtain ⟨hat, hplace, hsize, hreceived⟩ := hheaded.next haccepted hstate
      refine .going hat (hheaded.channelOpen_eq.trans hchannel) ?_
      rw [← hends, Selection.EndsOpen]
      refine iff_of_eq (congrArg (X.EndsOpen · rest) (propext ?_))
      rw [openNow_receiving hplace, Selection.fits, ← hsize, flatten_processInChunks]
      cases hopened : r'.fileState with
      | none => simp
      | some state =>
          have hzero := hreceived state hopened
          simp [hzero]

/-- One step of the loop, where it may go on. -/
theorem Tracks.loop_going (hat : r.At X chunks rest) (hchannel : r.channelOpen = true)
    (hends : X.EndsOpen (r.OpenNow chunks) rest ↔ C) (hkeeps : r.Keeps .loop)
    (hcase : LoopCase X r chunks rest r') : Tracks X C r' := by
  have hsame : ∀ {r' : Receiver} {chunks' : List Bytes}, r'.At X chunks' rest →
      r'.channelOpen = r.channelOpen → (r'.OpenNow chunks' ↔ r.OpenNow chunks) → Tracks X C r' :=
    fun hat' hsame hopen => .going hat' (hsame.trans hchannel) (by rw [propext hopen, hends])
  cases hcase with
  | @unheadered chunk chunks rest incoming hplace hstate hincoming =>
      refine hsame (hat.chunk hplace hincoming rfl rfl ?_) rfl ?_
      · rw [error, hstate]
        exact nofun
      · exact iff_of_false (not_openNow rfl hstate) (not_openNow hplace hstate)
  | @exceeded chunk chunks rest incoming state hplace hstate hincoming hsize =>
      refine hsame (hat.chunk hplace hincoming rfl rfl nofun) rfl ?_
      refine iff_of_false (not_openNow rfl rfl) ?_
      rw [openNow_receiving hplace, hstate]
      rintro ⟨_, ⟨⟩, hfits⟩
      rw [List.flatten_cons, List.length_append] at hfits
      omega
  | @forwarded chunk chunks rest incoming state hplace hstate hincoming hsize halive =>
      refine hsame (hat.chunk hplace hincoming hplace rfl ?_) rfl ?_
      · rintro _ ⟨⟩
        exact hsize
      · refine Iff.trans (openNow_receiving (by exact hplace)) ?_
        rw [openNow_receiving hplace, hstate]
        simp [Nat.add_assoc]
  | @dropped chunk chunks rest incoming state hplace hstate hincoming hsize halive =>
      have hkept := hkeeps state hstate (sendBinary chunk) (by rw [hincoming]; rfl) rfl hsize
      rw [halive] at hkept
      cases hkept
  | @ended rest incoming msg state hplace hstate hincoming =>
      have hawaiting : ∃ index lastFileId msg', Place.awaiting state.index state.fileId msg =
          .awaiting index lastFileId msg' := ⟨_, _, _, rfl⟩
      refine hsame ⟨hat.accepted, hat.incoming_eq hplace hincoming, .inr ⟨hawaiting, rfl, rfl⟩⟩
        rfl ?_
      refine iff_of_true (.inl ⟨_, _, _, rfl⟩) ((openNow_receiving hplace).mpr ⟨state, hstate, ?_⟩)
      exact hat.within hplace state hstate
  | @header rest incoming msg r' hplace hstate hincoming hheaded =>
      exact Tracks.headed hheaded hchannel hat.accepted hstate
        (fun _ => not_openNow hplace hstate) hends
  | @last index lastFileId msg error r₀ hplace htaken hincoming =>
      refine .finished rfl ?_ (hends.mp (.inl ⟨index, lastFileId, msg, hplace⟩))
      rw [htaken.eq_results, hincoming]
  | @refused rest index lastFileId msg error r₀ hplace htaken hshut =>
      rw [hchannel] at hshut
      cases hshut
  | @next f rest index lastFileId msg error r₀ r' hplace htaken hheaded =>
      refine Tracks.headed hheaded ?_ hat.accepted ?_ nofun hends
      · rw [htaken.eq_results]
        exact hchannel
      · rw [htaken.eq_results]
        exact hat.idle hplace

theorem Tracks.loop (htracks : Tracks X C r) (hkeeps : r.Keeps .loop)
    (hloop : r.loop X = some r') : Tracks X C r' := by
  cases htracks with
  | going hat hchannel hends =>
      exact Tracks.loop_going hat hchannel hends hkeeps (loop_cases hat hloop)
  | finished hplace | failed hplace =>
      unfold Receiver.loop at hloop
      rw [hplace] at hloop
      cases hloop

theorem Tracks.step {l : Label} (htracks : Tracks X C r) (hkeeps : r.Keeps l)
    (hstep : r.step X l = some r') : Tracks X C r' := by
  cases l with
  | loop => exact htracks.loop hkeeps hstep
  | report index result =>
      obtain ⟨-, hstep⟩ := Option.ite_none_right_eq_some.mp hstep
      cases hstep
      cases htracks with
      | going hat hchannel hends =>
          exact .going ⟨hat.accepted, hat.pending, hat.place⟩ hchannel hends
      | finished hplace hincoming hwell => exact .finished hplace hincoming hwell
      | failed hplace hill => exact .failed hplace hill
  | close =>
      cases hstep
      cases htracks with
      | going hat hchannel hends =>
          exact .going ⟨hat.accepted, hat.pending, hat.place⟩ hchannel hends
      | finished hplace hincoming hwell => exact .finished hplace hincoming hwell
      | failed hplace hill => exact .failed hplace hill
  | dropReceiver =>
      obtain ⟨state, hstate, rfl⟩ := Option.map_eq_some_iff.mp hstep
      cases htracks with
      | finished hplace hincoming hwell => exact .finished hplace hincoming hwell
      | failed hplace hill => exact .failed hplace hill
      | @going chunks rest hat hchannel hends =>
          refine .going (hat.dropped hstate) hchannel ?_
          rw [← hends]
          refine iff_of_eq (congrArg (X.EndsOpen · rest) (propext (or_congr_right ?_)))
          rw [hstate]
          simp
  | hangUp =>
      have hfinished : r.place = .finished := hkeeps
      cases hstep
      cases htracks with
      | going hat =>
          obtain ⟨hreceiving, -⟩ | ⟨⟨index, lastFileId, msg, hawaiting⟩, -⟩ := hat.place
          · rw [hfinished] at hreceiving
            cases hreceiving
          · rw [hfinished] at hawaiting
            cases hawaiting
      | finished hplace hincoming hwell => exact .finished hplace hincoming hwell
      | failed hplace hill => exact .failed hplace hill

/-! ## §4  Results that are owed -/

/-- Every response has taken a report or, with nothing to come any more, none. -/
structure Counted (r : Receiver) : Prop where
  distinct : (r.reported.map Prod.fst).Nodup
  bounded : ∀ index ∈ r.reported.map Prod.fst, index < r.handed.length
  answered : r.responses.length ≤ r.handed.length
  taken : r.closed = false → r.reported.length = r.responses.length + r.results.length

/-- The file that is open, or has just ended, has no response yet. -/
structure Owing (r : Receiver) : Prop extends r.Counted where
  current : (∃ index lastFileId msg, r.place = .awaiting index lastFileId msg) ∨
    r.fileState ≠ none → r.responses.length < r.handed.length

theorem Counted.owing (hcounted : r.Counted) (hplace : ∀ index lastFileId msg,
    r.place ≠ .awaiting index lastFileId msg) (hstate : r.fileState = none) : r.Owing where
  toCounted := hcounted
  current := by
    rintro (⟨index, lastFileId, msg, hawaiting⟩ | hopen)
    · exact absurd hawaiting (hplace index lastFileId msg)
    · exact absurd hstate hopen

theorem Owing.init (incoming : List DataChannelMessage) : (init incoming).Owing := by
  refine Counted.owing ⟨List.nodup_nil, nofun, Nat.le_refl _, fun _ => rfl⟩ nofun rfl

theorem Counted.headed (hcounted : r.Counted) (hstate : r.fileState = none)
    (hheaded : Headed X r rest r') : r'.Owing := by
  obtain ⟨hdistinct, hbounded, hanswered, htaken⟩ := hcounted
  cases hheaded with
  | unparsable => exact Counted.owing ⟨hdistinct, hbounded, hanswered, htaken⟩ nofun hstate
  | unsized => exact Counted.owing ⟨hdistinct, hbounded, hanswered, htaken⟩ nofun hstate
  | @opened f rest size hdeclared hincoming =>
      have hmore : (r.handed ++ [f.fileId]).length = r.handed.length + 1 := by simp
      constructor
      · refine ⟨hdistinct, fun index hindex => ?_, ?_, htaken⟩
        · rw [hmore]
          exact Nat.lt_succ_of_lt (hbounded index hindex)
        · rw [hmore]
          exact Nat.le_succ_of_le hanswered
      · intro _
        rw [hmore]
        exact Nat.lt_succ_of_le hanswered

/-- A response that takes what is there. -/
theorem Owing.respond {index : ℕ} {lastFileId : String} {msg : DataChannelMessage}
    {error : Option String} {r₀ : Receiver} {response : ℕ × RTCSendFileResponse}
    (howing : r.Owing) (hplace : r.place = .awaiting index lastFileId msg)
    (htaken : Taken r error r₀) :
    { r₀ with responses := r.responses ++ [response] }.Counted := by
  have hlt := howing.current (.inl ⟨index, lastFileId, msg, hplace⟩)
  have hmore : (r.responses ++ [response]).length = r.responses.length + 1 := by simp
  rw [htaken.eq_results]
  refine ⟨howing.distinct, howing.bounded, by rw [hmore]; exact hlt, fun hopen => ?_⟩
  cases htaken with
  | none hresults hclosed =>
      have hclosed' : r.closed = false := hopen
      rw [hclosed] at hclosed'
      cases hclosed'
  | @result index result results hresults =>
      show r.reported.length = (r.responses ++ [response]).length + results.length
      rw [howing.taken hopen, hresults, hmore, List.length_cons]
      omega

theorem Owing.loop (howing : r.Owing) (hat : r.At X chunks rest)
    (hchannel : r.channelOpen = true) (hcase : LoopCase X r chunks rest r') : r'.Owing := by
  have hcounted := howing.toCounted
  cases hcase with
  | unheadered hplace hstate =>
      exact Counted.owing
        ⟨hcounted.distinct, hcounted.bounded, hcounted.answered, hcounted.taken⟩ nofun hstate
  | exceeded =>
      exact Counted.owing
        ⟨hcounted.distinct, hcounted.bounded, hcounted.answered, hcounted.taken⟩ nofun rfl
  | forwarded hplace hstate =>
      refine ⟨⟨hcounted.distinct, hcounted.bounded, hcounted.answered, hcounted.taken⟩, fun _ => ?_⟩
      exact howing.current (.inr (by rw [hstate]; exact Option.some_ne_none _))
  | dropped hplace hstate =>
      refine ⟨⟨hcounted.distinct, hcounted.bounded, hcounted.answered, hcounted.taken⟩, fun _ => ?_⟩
      exact howing.current (.inr (by rw [hstate]; exact Option.some_ne_none _))
  | ended hplace hstate =>
      refine ⟨⟨hcounted.distinct, hcounted.bounded, hcounted.answered, hcounted.taken⟩, fun _ => ?_⟩
      exact howing.current (.inr (by rw [hstate]; exact Option.some_ne_none _))
  | @header rest incoming msg r' hplace hstate hincoming hheaded =>
      have hcounted' : Counted { r with incoming := incoming } :=
        ⟨hcounted.distinct, hcounted.bounded, hcounted.answered, hcounted.taken⟩
      exact hcounted'.headed hstate hheaded
  | last hplace htaken =>
      obtain ⟨hdistinct, hbounded, hanswered, htaken'⟩ := howing.respond hplace htaken
      refine Counted.owing ⟨hdistinct, hbounded, hanswered, htaken'⟩ nofun ?_
      rw [htaken.eq_results]
      exact hat.idle hplace
  | refused hplace htaken hshut =>
      rw [hchannel] at hshut
      cases hshut
  | next hplace htaken hheaded =>
      refine (howing.respond hplace htaken).headed ?_ hheaded
      rw [htaken.eq_results]
      exact hat.idle hplace

theorem Owing.step {l : Label} (howing : r.Owing) (htracks : Tracks X C r)
    (hstep : r.step X l = some r') : r'.Owing := by
  cases l with
  | loop =>
      cases htracks with
      | going hat hchannel => exact howing.loop hat hchannel (loop_cases hat hstep)
      | finished hplace | failed hplace =>
          simp only [Receiver.step, Receiver.loop, hplace] at hstep
          cases hstep
  | report index result =>
      obtain ⟨⟨hindex, hnew, -, -⟩, hstep⟩ := Option.ite_none_right_eq_some.mp hstep
      cases hstep
      constructor
      · refine ⟨?_, fun i hi => ?_, howing.answered, fun hopen => ?_⟩
        · rw [List.map_append, List.nodup_append]
          refine ⟨howing.distinct, List.nodup_singleton _, ?_⟩
          rintro i hi j hj rfl
          have hji : i = index := List.mem_singleton.mp hj
          exact hnew (hji ▸ hi)
        · rw [List.map_append] at hi
          rcases List.mem_append.mp hi with hi | hi
          · exact howing.bounded i hi
          · rw [List.mem_singleton.mp hi]
            exact hindex
        · rw [List.length_append, List.length_append, howing.taken hopen, Nat.add_assoc]
      · exact howing.current
  | dropReceiver =>
      obtain ⟨state, hstate, rfl⟩ := Option.map_eq_some_iff.mp hstep
      refine ⟨⟨howing.distinct, howing.bounded, howing.answered, howing.taken⟩, fun _ => ?_⟩
      exact howing.current (.inr (by rw [hstate]; exact Option.some_ne_none _))
  | close =>
      cases hstep
      exact ⟨⟨howing.distinct, howing.bounded, howing.answered, nofun⟩, howing.current⟩
  | hangUp =>
      cases hstep
      exact ⟨⟨howing.distinct, howing.bounded, howing.answered, howing.taken⟩, howing.current⟩

/-- Neither the loop can go on nor the application report. -/
def AtRest (X : Selection) (r : Receiver) : Prop :=
  r.loop X = none ∧ ∀ index result, r.step X (.report index result) = none

/-- While the loop waits for a result, the application has a file to report on. -/
theorem Owing.exists_unreported (howing : r.Owing) {index : ℕ} {lastFileId : String}
    {msg : DataChannelMessage} (hplace : r.place = .awaiting index lastFileId msg)
    (hresults : r.results = []) (hopen : r.closed = false) :
    ∃ i < r.handed.length, i ∉ r.reported.map Prod.fst := by
  by_contra hall
  simp only [not_exists, not_and, not_not] at hall
  have hsubset : List.range r.handed.length ⊆ r.reported.map Prod.fst := fun i hi =>
    hall i (List.mem_range.mp hi)
  have hle := (List.nodup_range.subperm hsubset).length_le
  have hlt := howing.current (.inl ⟨index, lastFileId, msg, hplace⟩)
  rw [List.length_range, List.length_map, howing.taken hopen, hresults] at hle
  exact absurd hle (Nat.not_le.mpr hlt)

theorem exists_loop_of_results {index : ℕ} {lastFileId : String} {msg : DataChannelMessage}
    (hplace : r.place = .awaiting index lastFileId msg) (hresults : r.results ≠ []) :
    ∃ r', r.loop X = some r' := by
  obtain ⟨entry, results, hentry⟩ := List.exists_cons_of_ne_nil hresults
  exact ⟨_, loop_result hplace hentry⟩

/-- A loop that has not ended goes on, at once or after a report. -/
theorem At.moves (hat : r.At X chunks rest) (howing : r.Owing) :
    (∃ r', r.loop X = some r') ∨
      ∃ index, ∀ result, ∃ r₁, r.step X (.report index result) = some r₁ ∧
        ∃ r₂, r₁.loop X = some r₂ := by
  obtain ⟨hplace, -⟩ | ⟨⟨index, lastFileId, msg, hplace⟩, -, -⟩ := hat.place
  · have hpending := hat.pending
    rw [Receiver.pending, hplace] at hpending
    simp only at hpending
    have hne : r.incoming ≠ [] := by
      rw [hpending, Selection.sendFiles, ← List.append_assoc]
      exact List.append_ne_nil_of_right_ne_nil _ (List.cons_ne_nil _ _)
    obtain ⟨msg, incoming, hincoming⟩ := List.exists_cons_of_ne_nil hne
    exact .inl ⟨_, loop_receiving hplace hincoming⟩
  · by_cases hresults : r.results = []
    · cases hclosed : r.closed with
      | true => exact .inl ⟨_, loop_closed hplace hresults hclosed⟩
      | false =>
          obtain ⟨i, hi, hnew⟩ := howing.exists_unreported hplace hresults hclosed
          have hcapacity : r.results.length < fileStatusCapacity := by
            rw [hresults]
            decide
          exact .inr ⟨i, fun result => ⟨_, if_pos ⟨hi, hnew, hcapacity, hclosed⟩,
            exists_loop_of_results hplace
              (List.append_ne_nil_of_right_ne_nil _ (List.cons_ne_nil _ _))⟩⟩
    · exact .inl (exists_loop_of_results hplace hresults)

/-! ## §5  A bounded number of steps -/

/-- The steps of the loop that are left at most. -/
def work (r : Receiver) : ℕ :=
  2 * r.incoming.length +
    match r.place with
    | .awaiting _ _ _ => 1
    | _ => 0

theorem work_step {l : Label} (hl : l ≠ .loop) (hstep : r.step X l = some r') :
    r'.work = r.work := by
  cases l with
  | loop => exact absurd rfl hl
  | report index result =>
      obtain ⟨-, hstep⟩ := Option.ite_none_right_eq_some.mp hstep
      cases hstep
      rfl
  | dropReceiver =>
      obtain ⟨state, -, rfl⟩ := Option.map_eq_some_iff.mp hstep
      rfl
  | close | hangUp =>
      cases hstep
      rfl

/-- The application holds the receiving end of the file that is open. -/
def Held (r : Receiver) : Prop := ∀ state ∈ r.fileState, state.receiverAlive = true

theorem Held.keeps (hheld : r.Held) : r.Keeps .loop :=
  fun state hstate _ _ _ _ => hheld state hstate

theorem Held.headed (hheld : r.Held) (hheaded : Headed X r rest r') : r'.Held := by
  cases hheaded with
  | unparsable | unsized => exact hheld
  | opened =>
      rintro _ ⟨⟩
      rfl

theorem Held.loop (hheld : r.Held) (hcase : LoopCase X r chunks rest r') : r'.Held := by
  cases hcase with
  | unheadered | dropped => exact hheld
  | exceeded | ended => exact nofun
  | forwarded hplace hstate hincoming hsize halive =>
      rintro _ ⟨⟩
      exact halive
  | @header rest incoming msg r' hplace hstate hincoming hheaded =>
      have hheld' : Held { r with incoming := incoming } := hheld
      exact hheld'.headed hheaded
  | last hplace htaken | refused hplace htaken =>
      rw [htaken.eq_results]
      exact hheld
  | @next f rest index lastFileId msg error r₀ r' hplace htaken hheaded =>
      refine Held.headed ?_ hheaded
      rw [htaken.eq_results]
      exact hheld

theorem Tracks.init (X : Selection) (messages : List RTCFile) :
    Tracks X (X.LastFits messages) (init (X.sendFiles messages)) := by
  refine .going (At.init X messages) rfl ?_
  rw [← Selection.endsOpen_init]
  refine iff_of_eq (congrArg (X.EndsOpen · _) (propext ?_))
  exact iff_of_false (not_openNow rfl rfl) id

/-- The channel is closed and the loop has not ended at the delimiter. -/
structure Shut (r : Receiver) : Prop where
  channelOpen : r.channelOpen = false
  place : r.place ≠ .finished

theorem Shut.receiveHeader (hshut : r.channelOpen = false) (msg : DataChannelMessage) :
    (r.receiveHeader X msg).Shut := by
  unfold Receiver.receiveHeader
  split
  · exact ⟨hshut, nofun⟩
  · split
    · split_ifs
      · exact ⟨hshut, nofun⟩
      · split <;> exact ⟨hshut, nofun⟩
    · exact ⟨hshut, nofun⟩

theorem Shut.receiveBinary (hshut : r.Shut) (msg : DataChannelMessage) :
    (r.receiveBinary msg).Shut := by
  unfold Receiver.receiveBinary
  split
  · simp only
    split_ifs
    · exact ⟨hshut.channelOpen, nofun⟩
    · exact ⟨hshut.channelOpen, hshut.place⟩
    · exact ⟨hshut.channelOpen, nofun⟩
  · exact ⟨hshut.channelOpen, nofun⟩

theorem Shut.receiveMessage (hshut : r.Shut) (msg : DataChannelMessage) :
    (r.receiveMessage X msg).Shut := by
  unfold Receiver.receiveMessage
  split_ifs
  · split
    · exact ⟨hshut.channelOpen, nofun⟩
    · exact .receiveHeader hshut.channelOpen msg
  · exact hshut.receiveBinary msg

/-- No response can be sent any more. -/
theorem Shut.respond (hshut : r.channelOpen = false) (index : ℕ) (lastFileId : String)
    (msg : DataChannelMessage) (error : Option String) :
    (r.respond X index lastFileId msg error).Shut := by
  unfold Receiver.respond
  rw [if_neg (Bool.eq_false_iff.mp hshut)]
  exact ⟨hshut, nofun⟩

theorem Shut.loop (hshut : r.Shut) (hloop : r.loop X = some r') : r'.Shut := by
  unfold Receiver.loop at hloop
  split at hloop
  · split at hloop
    · rename_i msg incoming hincoming
      cases hloop
      have hshut' : Shut { r with incoming := incoming } := ⟨hshut.channelOpen, hshut.place⟩
      exact hshut'.receiveMessage msg
    · cases hloop
  · split at hloop
    · cases hloop
      exact .respond (by exact hshut.channelOpen) _ _ _ _
    · split_ifs at hloop
      cases hloop
      exact .respond hshut.channelOpen _ _ _ _
  · cases hloop
  · cases hloop

theorem Shut.step {l : Label} (hshut : r.Shut) (hstep : r.step X l = some r') : r'.Shut := by
  cases l with
  | loop => exact hshut.loop hstep
  | report index result =>
      obtain ⟨-, hstep⟩ := Option.ite_none_right_eq_some.mp hstep
      cases hstep
      exact ⟨hshut.channelOpen, hshut.place⟩
  | dropReceiver =>
      obtain ⟨state, -, rfl⟩ := Option.map_eq_some_iff.mp hstep
      exact ⟨hshut.channelOpen, hshut.place⟩
  | close =>
      cases hstep
      exact ⟨hshut.channelOpen, hshut.place⟩
  | hangUp =>
      cases hstep
      exact ⟨rfl, hshut.place⟩

end Receiver

end FireBoxTransfer.WebRTC
