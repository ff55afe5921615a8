import FireBoxTransfer.WebRTC.Completion

/-!
# The results of the files

The loop takes the next result that was reported for the file that has just ended. As
long as no file was given up, that is the result of this very file. A file that is longer
than declared is given up without a response; its result stays in the queue and is taken
for the next file that ends.
-/

namespace FireBoxTransfer.WebRTC

open Json Runs

/-! ## §1  Responses and reports -/

/-- No file that is longer than declared comes before one that is not. -/
def Selection.NoShift (X : Selection) (messages : List RTCFile) : Prop :=
  (messages.filter X.accepted).Pairwise fun f g => X.exceeds f = true → X.fits g = false

namespace Receiver

variable {X : Selection} {r r' : Receiver} {chunks : List Bytes} {rest : List RTCFile}

/-- A response says what the application has reported for its file, or that it reports
no more. -/
structure Carries (r : Receiver) (index : ℕ) (response : RTCSendFileResponse) : Prop where
  file : r.handed[index]? = some response.id
  result : (∃ result, (index, result) ∈ r.reported ∧
      response = fileResponse response.id result.failure) ∨
    (r.closed = true ∧ index ∉ r.reported.map Prod.fst ∧
      response = fileResponse response.id (some "Failed to receive file result"))

def Attributed (r : Receiver) : Prop :=
  ∀ index response, (index, response) ∈ r.responses → r.Carries index response

theorem Carries.mono {index : ℕ} {response : RTCSendFileResponse}
    (hcarries : r.Carries index response) (hhanded : r.handed <+: r'.handed)
    (hreported : r'.reported = r.reported) (hclosed : r'.closed = r.closed) :
    r'.Carries index response where
  file := by
    obtain ⟨handed, hhanded⟩ := hhanded
    have hlt := (List.getElem?_eq_some_iff.mp hcarries.file).1
    rw [← hhanded, List.getElem?_append_left hlt, hcarries.file]
  result := by
    rw [hreported, hclosed]
    exact hcarries.result

/-! ## §2  As long as no file was given up -/

/-- A result that waits is that of the first file without a response, and every file with
a response has been reported on. -/
structure Queued (r : Receiver) : Prop where
  waiting : ∀ entry ∈ r.results, entry.1 = r.responses.length ∧ entry ∈ r.reported
  capacity : r.results.length ≤ 1
  reported : r.closed = false → ∀ index < r.responses.length, index ∈ r.reported.map Prod.fst
  taken : ∀ index ∈ r.reported.map Prod.fst,
    index < r.responses.length ∨ index ∈ r.results.map Prod.fst

/-- The files that were handed out have their responses in order, apart from one that is
open or has just ended. -/
structure Aligned (r : Receiver) : Prop extends r.Queued where
  count : r.handed.length ≤ r.responses.length + 1
  idle : (∀ index lastFileId msg, r.place ≠ .awaiting index lastFileId msg) →
    r.fileState = none → r.handed.length = r.responses.length
  open_index : ∀ state ∈ r.fileState, state.index = r.responses.length ∧
    r.handed[state.index]? = some state.fileId
  last_index : ∀ index lastFileId msg, r.place = .awaiting index lastFileId msg →
    index = r.responses.length ∧ r.handed[index]? = some lastFileId

theorem Queued.aligned_idle (hqueued : r.Queued) (hstate : r.fileState = none)
    (hplace : ∀ index lastFileId msg, r.place ≠ .awaiting index lastFileId msg)
    (hcount : r.handed.length = r.responses.length) : r.Aligned where
  toQueued := hqueued
  count := Nat.le_succ_of_le (Nat.le_of_eq hcount)
  idle _ _ := hcount
  open_index state hopen := by
    rw [hstate] at hopen
    cases hopen
  last_index index lastFileId msg hawaiting := absurd hawaiting (hplace index lastFileId msg)

theorem Aligned.init (incoming : List DataChannelMessage) : (init incoming).Aligned :=
  Queued.aligned_idle ⟨nofun, Nat.zero_le _, fun _ => nofun, nofun⟩ rfl nofun rfl

theorem Queued.headed (hqueued : r.Queued) (hstate : r.fileState = none)
    (hcount : r.handed.length = r.responses.length) (hheaded : Headed X r rest r') :
    r'.Aligned := by
  obtain ⟨hwaiting, hcapacity, hreported, htaken⟩ := hqueued
  cases hheaded with
  | unparsable =>
      exact Queued.aligned_idle ⟨hwaiting, hcapacity, hreported, htaken⟩ hstate nofun hcount
  | unsized =>
      exact Queued.aligned_idle ⟨hwaiting, hcapacity, hreported, htaken⟩ hstate nofun hcount
  | @opened f rest size hdeclared hincoming =>
      refine ⟨⟨hwaiting, hcapacity, hreported, htaken⟩, ?_, nofun, ?_, nofun⟩
      · show (r.handed ++ [f.fileId]).length ≤ r.responses.length + 1
        rw [List.length_append, hcount]
        exact Nat.le_refl _
      · rintro _ ⟨⟩
        exact ⟨hcount, by simp⟩

/-- The response for the file that has just ended. -/
theorem Aligned.respond {index : ℕ} {lastFileId : String} {msg : DataChannelMessage}
    {error : Option String} {r₀ : Receiver} (haligned : r.Aligned)
    (hplace : r.place = .awaiting index lastFileId msg) (htaken : Taken r error r₀) :
    r.Carries index (fileResponse lastFileId error) ∧
      r.handed.length = r.responses.length + 1 ∧
      Queued { r₀ with responses := r.responses ++ [(index, fileResponse lastFileId error)] } := by
  obtain ⟨hindex, hfile⟩ := haligned.last_index index lastFileId msg hplace
  have hlt := (List.getElem?_eq_some_iff.mp hfile).1
  have hmore : (r.responses ++ [(index, fileResponse lastFileId error)]).length = index + 1 := by
    rw [List.length_append, hindex]
    rfl
  have hcount : r.handed.length = r.responses.length + 1 := by
    have hle := haligned.count
    omega
  have hbefore : ∀ i ∈ r.reported.map Prod.fst, i < index ∨ i ∈ r.results.map Prod.fst := by
    rw [hindex]
    exact haligned.taken
  cases htaken with
  | @result i result results hresults =>
      have hentry : (i, result) ∈ r.results := by
        rw [hresults]
        exact List.mem_cons_self
      obtain ⟨hi, hmem⟩ := haligned.waiting _ hentry
      obtain rfl : i = index := hi.trans hindex.symm
      have hnone : results = [] := by
        have hcapacity := haligned.capacity
        rw [hresults, List.length_cons] at hcapacity
        exact List.length_eq_zero_iff.mp (Nat.le_zero.mp (Nat.le_of_succ_le_succ hcapacity))
      subst hnone
      refine ⟨⟨hfile, .inl ⟨result, hmem, rfl⟩⟩, hcount, nofun, Nat.zero_le _,
        fun hopen j hj => ?_, fun j hj => .inl ?_⟩
      · rw [hmore] at hj
        rcases Nat.lt_succ_iff_lt_or_eq.mp hj with hj | rfl
        · exact haligned.reported hopen j (hindex ▸ hj)
        · exact List.mem_map.mpr ⟨_, hmem, rfl⟩
      · rw [hmore]
        rcases hbefore j hj with hj | hj
        · exact Nat.lt_succ_of_lt hj
        · rw [hresults] at hj
          rw [List.mem_singleton.mp hj]
          exact Nat.lt_succ_self _
  | none hresults hclosed =>
      have hall : ∀ i ∈ r.reported.map Prod.fst, i < index := by
        intro i hi
        refine (hbefore i hi).resolve_right fun hmem => ?_
        rw [hresults] at hmem
        cases hmem
      have hnew : index ∉ r.reported.map Prod.fst := fun hmem =>
        Nat.lt_irrefl _ (hall index hmem)
      refine ⟨⟨hfile, .inr ⟨hclosed, hnew, rfl⟩⟩, hcount, ?_, ?_, fun hopen => ?_,
        fun j hj => .inl ?_⟩
      · rw [hresults]
        exact nofun
      · rw [hresults]
        exact Nat.zero_le _
      · have hclosed' : r.closed = false := hopen
        rw [hclosed] at hclosed'
        cases hclosed'
      · rw [hmore]
        exact Nat.lt_succ_of_lt (hall j hj)

/-! ## §3  After a file was given up -/

/-- Every file that will be open is longer than declared, the one that is open too. -/
structure GivenUp (X : Selection) (r : Receiver) (chunks : List Bytes) (rest : List RTCFile) :
    Prop where
  place : r.place = .receiving
  open_exceeds : ∀ state ∈ r.fileState, state.size < state.received + chunks.flatten.length
  rest_exceeds : ∀ f ∈ rest, X.fits f = false

/-- Where the loop is: no file was given up yet, or only such files are left, or the
loop has ended. -/
inductive Mode (X : Selection) (r : Receiver) : Prop
  | aligned {chunks : List Bytes} {rest : List RTCFile} (hat : r.At X chunks rest)
      (haligned : r.Aligned)
      (hshift : rest.Pairwise fun f g => X.exceeds f = true → X.fits g = false)
      (hexceeds : ∀ state ∈ r.fileState, state.size < state.received + chunks.flatten.length →
        ∀ f ∈ rest, X.fits f = false)
  | givenUp {chunks : List Bytes} {rest : List RTCFile} (hat : r.At X chunks rest)
      (hgivenUp : GivenUp X r chunks rest)
  | ended (place : r.place = .finished ∨ ∃ error, r.place = .failed error)

theorem GivenUp.headed (hheaded : Headed X r rest r') (hstate : r.fileState = none)
    (haccepted : ∀ f ∈ rest, X.accepted f = true) (hrest : ∀ f ∈ rest, X.fits f = false) :
    Mode X r' := by
  cases rest with
  | nil =>
      cases hheaded with
      | unparsable => exact .ended (.inr ⟨_, rfl⟩)
  | cons f rest =>
      obtain ⟨hat, hplace, hsize, hreceived⟩ := hheaded.next haccepted hstate
      refine .givenUp hat ⟨hplace, fun state hopen => ?_, (List.forall_mem_cons.mp hrest).2⟩
      have hfits := (List.forall_mem_cons.mp hrest).1
      rw [hopen] at hsize
      rw [Selection.fits, ← hsize, Option.map_some, Option.any_some, decide_eq_false_iff_not,
        Nat.not_le] at hfits
      rwa [hreceived state hopen, Nat.zero_add, flatten_processInChunks]

theorem Queued.mode (hqueued : r.Queued) (hcount : r.handed.length = r.responses.length)
    (hheaded : Headed X r rest r') (hstate : r.fileState = none)
    (haccepted : ∀ f ∈ rest, X.accepted f = true)
    (hshift : rest.Pairwise fun f g => X.exceeds f = true → X.fits g = false) : Mode X r' := by
  have haligned := hqueued.headed hstate hcount hheaded
  cases rest with
  | nil =>
      cases hheaded with
      | unparsable => exact .ended (.inr ⟨_, rfl⟩)
  | cons f rest =>
      obtain ⟨hat, hplace, hsize, hreceived⟩ := hheaded.next haccepted hstate
      obtain ⟨hfirst, hshift⟩ := List.pairwise_cons.mp hshift
      refine .aligned hat haligned hshift fun state hopen hlong g hg => hfirst g hg ?_
      rw [hopen] at hsize
      rw [Selection.exceeds, ← hsize, Option.map_some, Option.any_some, decide_eq_true_eq]
      rwa [hreceived state hopen, Nat.zero_add, flatten_processInChunks] at hlong

/-! ## §4  Every step -/

theorem Mode.loop_givenUp (hat : r.At X chunks rest) (hgivenUp : GivenUp X r chunks rest)
    (hcase : LoopCase X r chunks rest r') : Mode X r' ∧ r'.responses = r.responses := by
  obtain ⟨hreceiving, hopen, hrest⟩ := hgivenUp
  cases hcase with
  | @unheadered chunk chunks rest incoming hplace hstate hincoming =>
      refine ⟨.givenUp (hat.chunk hplace hincoming rfl rfl ?_) ⟨rfl, ?_, hrest⟩, rfl⟩
      all_goals
        rw [error, hstate]
        exact fun _ heq => by cases heq
  | exceeded hplace hstate hincoming hsize =>
      exact ⟨.givenUp (hat.chunk hplace hincoming rfl rfl fun _ heq => by cases heq)
        ⟨rfl, fun _ heq => (by cases heq), hrest⟩, rfl⟩
  | @forwarded chunk chunks rest incoming state hplace hstate hincoming hsize halive =>
      refine ⟨.givenUp (hat.chunk hplace hincoming hplace rfl ?_) ⟨hplace, ?_, hrest⟩, rfl⟩
      · rintro _ ⟨⟩
        exact hsize
      · rintro _ ⟨⟩
        have hlong := hopen state hstate
        rw [List.flatten_cons, List.length_append] at hlong
        show state.size < state.received + chunk.length + chunks.flatten.length
        omega
  | dropped => exact ⟨.ended (.inr ⟨_, rfl⟩), rfl⟩
  | @ended rest incoming msg state hplace hstate hincoming =>
      -- the file that is open has more chunks to come
      have hlong := hopen state hstate
      have hwithin := hat.within hplace state hstate
      exact absurd hlong (Nat.not_lt.mpr hwithin)
  | @header rest incoming msg r' hplace hstate hincoming hheaded =>
      refine ⟨GivenUp.headed hheaded hstate hat.accepted hrest, ?_⟩
      cases hheaded <;> rfl
  | last hplace | refused hplace | next hplace =>
      rw [hplace] at hreceiving
      cases hreceiving

theorem headed_responses (hheaded : Headed X r rest r') : r'.responses = r.responses := by
  cases hheaded <;> rfl

/-- A response is added for the file that has just ended. -/
def Responds (r r' : Receiver) : Prop :=
  r'.responses = r.responses ∨ ∃ index response,
    r'.responses = r.responses ++ [(index, response)] ∧ r.Carries index response

theorem Mode.loop_aligned (hat : r.At X chunks rest) (haligned : r.Aligned)
    (hshift : rest.Pairwise fun f g => X.exceeds f = true → X.fits g = false)
    (hexceeds : ∀ state ∈ r.fileState, state.size < state.received + chunks.flatten.length →
      ∀ f ∈ rest, X.fits f = false)
    (hcase : LoopCase X r chunks rest r') : Mode X r' ∧ r.Responds r' := by
  obtain ⟨hqueued, hcount, hidle, hopen, hlast⟩ := haligned
  have hqueue := hqueued
  obtain ⟨hwaiting, hcapacity, hreported, htaken⟩ := hqueued
  cases hcase with
  | @unheadered chunk chunks rest incoming hplace hstate hincoming =>
      have hnothing : ∀ {P : RTCFileState → Prop}, ∀ state ∈ r.fileState, P state := by
        rw [hstate]
        exact nofun
      refine ⟨.aligned (hat.chunk hplace hincoming rfl rfl hnothing) ?_ hshift hnothing, .inl rfl⟩
      refine Queued.aligned_idle ⟨hwaiting, hcapacity, hreported, htaken⟩ hstate nofun ?_
      exact hidle (by rw [hplace]; exact nofun) hstate
  | @exceeded chunk chunks rest incoming state hplace hstate hincoming hsize =>
      refine ⟨.givenUp (hat.chunk hplace hincoming rfl rfl nofun) ⟨rfl, nofun, ?_⟩, .inl rfl⟩
      refine hexceeds state hstate ?_
      rw [List.flatten_cons, List.length_append]
      omega
  | @forwarded chunk chunks rest incoming state hplace hstate hincoming hsize halive =>
      refine ⟨.aligned (hat.chunk hplace hincoming hplace rfl ?_)
        ⟨⟨hwaiting, hcapacity, hreported, htaken⟩, hcount, nofun, ?_, hlast⟩ hshift ?_, .inl rfl⟩
      · rintro _ ⟨⟩
        exact hsize
      · rintro _ ⟨⟩
        exact hopen state hstate
      · rintro _ ⟨⟩ hlong
        refine hexceeds state hstate ?_
        rw [List.flatten_cons, List.length_append]
        have hlong' : state.size < state.received + chunk.length + chunks.flatten.length := hlong
        omega
  | dropped => exact ⟨.ended (.inr ⟨_, rfl⟩), .inl rfl⟩
  | @ended rest incoming msg state hplace hstate hincoming =>
      have hawaiting : ∃ index lastFileId msg', Place.awaiting state.index state.fileId msg =
          .awaiting index lastFileId msg' := ⟨_, _, _, rfl⟩
      refine ⟨.aligned ⟨hat.accepted, hat.incoming_eq hplace hincoming,
        .inr ⟨hawaiting, rfl, rfl⟩⟩ ⟨⟨hwaiting, hcapacity, hreported, htaken⟩, hcount, ?_, nofun,
          ?_⟩ hshift nofun, .inl rfl⟩
      · exact fun hnot => absurd rfl (hnot _ _ _)
      · rintro _ _ _ ⟨⟩
        exact hopen state hstate
  | @header rest incoming msg r' hplace hstate hincoming hheaded =>
      have hqueued' : Queued { r with incoming := incoming } :=
        ⟨hwaiting, hcapacity, hreported, htaken⟩
      refine ⟨hqueued'.mode ?_ hheaded hstate hat.accepted hshift,
        .inl (by rw [headed_responses hheaded])⟩
      exact hidle (by rw [hplace]; exact nofun) hstate
  | @last index lastFileId msg error r₀ hplace htaken' hincoming =>
      have hrespond := Aligned.respond ⟨hqueue, hcount, hidle, hopen, hlast⟩ hplace htaken'
      exact ⟨.ended (.inl rfl), .inr ⟨_, _, rfl, hrespond.1⟩⟩
  | refused hplace htaken' =>
      refine ⟨.ended (.inr ⟨_, rfl⟩), .inl ?_⟩
      rw [htaken'.eq_results]
  | @next f rest index lastFileId msg error r₀ r' hplace htaken' hheaded =>
      obtain ⟨hcarries, hmore, hqueued'⟩ :=
        Aligned.respond ⟨hqueue, hcount, hidle, hopen, hlast⟩ hplace htaken'
      have hstate : r₀.fileState = none := by
        rw [htaken'.eq_results]
        exact hat.idle hplace
      have hhanded : r₀.handed = r.handed := by rw [htaken'.eq_results]
      refine ⟨hqueued'.mode ?_ hheaded hstate hat.accepted hshift,
        .inr ⟨_, _, headed_responses hheaded, hcarries⟩⟩
      rw [List.length_append, hhanded, hmore]
      rfl

theorem headed_grows (hheaded : Headed X r rest r') :
    r.handed <+: r'.handed ∧ r'.reported = r.reported ∧ r'.closed = r.closed := by
  cases hheaded with
  | unparsable | unsized => exact ⟨List.prefix_refl _, rfl, rfl⟩
  | opened => exact ⟨List.prefix_append _ _, rfl, rfl⟩

/-- The loop hands out files and does not touch what is reported. -/
theorem LoopCase.grows (hcase : LoopCase X r chunks rest r') :
    r.handed <+: r'.handed ∧ r'.reported = r.reported ∧ r'.closed = r.closed := by
  cases hcase with
  | unheadered | exceeded | forwarded | dropped | ended => exact ⟨List.prefix_refl _, rfl, rfl⟩
  | header hplace hstate hincoming hheaded =>
      have hgrows := headed_grows hheaded
      exact hgrows
  | last hplace htaken | refused hplace htaken =>
      rw [htaken.eq_results]
      exact ⟨List.prefix_refl _, rfl, rfl⟩
  | next hplace htaken hheaded =>
      have hgrows := headed_grows hheaded
      rw [htaken.eq_results] at hgrows
      exact hgrows

theorem Attributed.grow (hattributed : r.Attributed)
    (hgrows : r.handed <+: r'.handed ∧ r'.reported = r.reported ∧ r'.closed = r.closed)
    (hresponds : r.Responds r') : r'.Attributed := by
  obtain ⟨hhanded, hreported, hclosed⟩ := hgrows
  intro index response hmem
  rcases hresponds with hsame | ⟨i, last, hlast, hcarries⟩
  · rw [hsame] at hmem
    exact (hattributed index response hmem).mono hhanded hreported hclosed
  · rw [hlast] at hmem
    rcases List.mem_append.mp hmem with hmem | hmem
    · exact (hattributed index response hmem).mono hhanded hreported hclosed
    · cases List.mem_singleton.mp hmem
      exact hcarries.mono hhanded hreported hclosed

theorem Mode.loop (hmode : Mode X r) (hattributed : r.Attributed) (hloop : r.loop X = some r') :
    Mode X r' ∧ r'.Attributed := by
  cases hmode with
  | ended hplace =>
      unfold Receiver.loop at hloop
      rcases hplace with hplace | ⟨error, hplace⟩
      all_goals
        rw [hplace] at hloop
        cases hloop
  | aligned hat haligned hshift hexceeds =>
      have hcase := loop_cases hat hloop
      obtain ⟨hmode, hresponds⟩ := loop_aligned hat haligned hshift hexceeds hcase
      exact ⟨hmode, hattributed.grow hcase.grows hresponds⟩
  | givenUp hat hgivenUp =>
      have hcase := loop_cases hat hloop
      obtain ⟨hmode, hsame⟩ := loop_givenUp hat hgivenUp hcase
      exact ⟨hmode, hattributed.grow hcase.grows (.inl hsame)⟩

/-- A report, while no file was given up: it is on the file that is open or has just
ended. -/
theorem Aligned.report {index : ℕ} {result : RTCSendFileResponse} (haligned : r.Aligned)
    (hindex : index < r.handed.length) (hnew : index ∉ r.reported.map Prod.fst)
    (hempty : r.results.length < fileStatusCapacity) (hopen : r.closed = false) :
    Aligned { r with
      results := r.results ++ [(index, result)]
      reported := r.reported ++ [(index, result)] } := by
  have hcurrent : index = r.responses.length := by
    have hcount := haligned.count
    have hnot : ¬ index < r.responses.length := fun hlt =>
      hnew (haligned.reported hopen index hlt)
    omega
  have hnone : r.results = [] :=
    List.length_eq_zero_iff.mp (Nat.le_zero.mp (Nat.le_of_lt_succ hempty))
  refine ⟨⟨?_, ?_, fun _ i hi => ?_, fun i hi => ?_⟩, haligned.count, haligned.idle,
    haligned.open_index, haligned.last_index⟩
  · rw [hnone]
    intro entry hentry
    rw [List.mem_singleton.mp hentry]
    exact ⟨hcurrent, List.mem_append_right _ (List.mem_singleton_self _)⟩
  · rw [hnone]
    exact Nat.le_refl _
  · rw [List.map_append]
    exact List.mem_append_left _ (haligned.reported hopen i hi)
  · rw [List.map_append] at hi ⊢
    rcases List.mem_append.mp hi with hi | hi
    · exact (haligned.taken i hi).imp_right (List.mem_append_left _)
    · exact .inr (List.mem_append_right _ hi)

theorem Mode.step {l : Label} (hmode : Mode X r) (hattributed : r.Attributed)
    (hstep : r.step X l = some r') : Mode X r' ∧ r'.Attributed := by
  cases l with
  | loop => exact hmode.loop hattributed hstep
  | report index result =>
      obtain ⟨⟨hindex, hnew, hempty, hopen⟩, hstep⟩ := Option.ite_none_right_eq_some.mp hstep
      cases hstep
      constructor
      · cases hmode with
        | aligned hat haligned hshift hexceeds =>
            exact .aligned ⟨hat.accepted, hat.pending, hat.place⟩
              (haligned.report hindex hnew hempty hopen) hshift hexceeds
        | givenUp hat hgivenUp =>
            exact .givenUp ⟨hat.accepted, hat.pending, hat.place⟩
              ⟨hgivenUp.place, hgivenUp.open_exceeds, hgivenUp.rest_exceeds⟩
        | ended hplace =>
            exact .ended hplace
      · intro i response hmem
        obtain ⟨hfile, hresult⟩ := hattributed i response hmem
        refine ⟨hfile, ?_⟩
        rcases hresult with ⟨given, hgiven, hresponse⟩ | ⟨hclosed, -⟩
        · exact .inl ⟨given, List.mem_append_left _ hgiven, hresponse⟩
        · rw [hopen] at hclosed
          cases hclosed
  | dropReceiver =>
      obtain ⟨state, hstate, rfl⟩ := Option.map_eq_some_iff.mp hstep
      refine ⟨?_, fun i response hmem => ⟨(hattributed i response hmem).file,
        (hattributed i response hmem).result⟩⟩
      cases hmode with
      | ended hplace => exact .ended hplace
      | @aligned chunks rest hat haligned hshift hexceeds =>
          refine .aligned (hat.dropped hstate) ⟨⟨haligned.waiting, haligned.capacity,
            haligned.reported, haligned.taken⟩, haligned.count, nofun, ?_, haligned.last_index⟩
            hshift ?_
          · rintro _ ⟨⟩
            exact haligned.open_index state hstate
          · rintro _ ⟨⟩
            exact hexceeds state hstate
      | @givenUp chunks rest hat hgivenUp =>
          refine .givenUp (hat.dropped hstate) ⟨hgivenUp.place, ?_, hgivenUp.rest_exceeds⟩
          rintro _ ⟨⟩
          exact hgivenUp.open_exceeds state hstate
  | close =>
      cases hstep
      constructor
      · cases hmode with
        | aligned hat haligned hshift hexceeds =>
            refine .aligned ⟨hat.accepted, hat.pending, hat.place⟩ ?_ hshift hexceeds
            exact ⟨⟨haligned.waiting, haligned.capacity, nofun, haligned.taken⟩, haligned.count,
              haligned.idle, haligned.open_index, haligned.last_index⟩
        | givenUp hat hgivenUp =>
            exact .givenUp ⟨hat.accepted, hat.pending, hat.place⟩
              ⟨hgivenUp.place, hgivenUp.open_exceeds, hgivenUp.rest_exceeds⟩
        | ended hplace =>
            exact .ended hplace
      · intro i response hmem
        obtain ⟨hfile, hresult⟩ := hattributed i response hmem
        exact ⟨hfile, hresult.imp_right fun ⟨_, hnew, hresponse⟩ => ⟨rfl, hnew, hresponse⟩⟩
  | hangUp =>
      cases hstep
      refine ⟨?_, fun i response hmem => ⟨(hattributed i response hmem).file,
        (hattributed i response hmem).result⟩⟩
      cases hmode with
      | ended hplace => exact .ended hplace
      | aligned hat haligned hshift hexceeds =>
          refine .aligned ⟨hat.accepted, hat.pending, hat.place⟩ ?_ hshift hexceeds
          exact ⟨⟨haligned.waiting, haligned.capacity, haligned.reported, haligned.taken⟩,
            haligned.count, haligned.idle, haligned.open_index, haligned.last_index⟩
      | givenUp hat hgivenUp =>
          exact .givenUp ⟨hat.accepted, hat.pending, hat.place⟩
            ⟨hgivenUp.place, hgivenUp.open_exceeds, hgivenUp.rest_exceeds⟩

/-- **No result is shifted** in a transfer in which the files that are longer than declared
come last. -/
theorem attributed_of_noShift {messages : List RTCFile} (hshift : X.NoShift messages)
    (hrun : Reach (step X) (init (X.sendFiles messages)) r) : r.Attributed := by
  have hinv : Mode X r ∧ r.Attributed := by
    refine hrun.invariant (I := fun r => Mode X r ∧ r.Attributed) ⟨?_, nofun⟩ ?_
    · exact .aligned (At.init X messages) (Aligned.init _) hshift nofun
    · rintro m l t ⟨hmode, hattributed⟩ - hstep
      exact hmode.step hattributed hstep
  exact hinv.2

/-! ## §5  Files that are given up -/

/-- The sender does not close the channel. -/
def Stays (_ : Receiver) (l : Label) : Prop := l ≠ .hangUp

/-- The loop goes on to the files `rest` with nobody reporting. -/
structure Passes (X : Selection) (r r' : Receiver) (rest : List RTCFile) : Prop where
  run : Run (step X) Stays r r'
  hat : r'.At X [] rest
  place : r'.place = .receiving
  held : r'.Held
  results : r'.results = r.results
  reported : r'.reported = r.reported
  closed : r'.closed = r.closed
  channelOpen : r'.channelOpen = r.channelOpen

theorem Passes.head {r₁ : Receiver} (hpasses : Passes X r₁ r' rest)
    (hloop : r.loop X = some r₁) (hresults : r₁.results = r.results)
    (hreported : r₁.reported = r.reported) (hclosed : r₁.closed = r.closed)
    (hchannel : r₁.channelOpen = r.channelOpen) : Passes X r r' rest where
  run := (Run.single (l := .loop) nofun hloop).trans hpasses.run
  hat := hpasses.hat
  place := hpasses.place
  held := hpasses.held
  results := hpasses.results.trans hresults
  reported := hpasses.reported.trans hreported
  closed := hpasses.closed.trans hclosed
  channelOpen := hpasses.channelOpen.trans hchannel

theorem Passes.trans {r₁ : Receiver} {before : List RTCFile} (hpasses : Passes X r r₁ before)
    (hpasses' : Passes X r₁ r' rest) : Passes X r r' rest where
  run := hpasses.run.trans hpasses'.run
  hat := hpasses'.hat
  place := hpasses'.place
  held := hpasses'.held
  results := hpasses'.results.trans hpasses.results
  reported := hpasses'.reported.trans hpasses.reported
  closed := hpasses'.closed.trans hpasses.closed
  channelOpen := hpasses'.channelOpen.trans hpasses.channelOpen

/-- The chunks of a file: it stays open if they are not longer than declared. -/
theorem reach_chunks (hat : r.At X chunks rest) (hplace : r.place = .receiving) (hheld : r.Held) :
    ∃ r', Passes X r r' rest ∧ r'.handed = r.handed ∧
      r'.fileState.map RTCFileState.index =
        (r.fileState.filter fun state =>
          state.received + chunks.flatten.length ≤ state.size).map RTCFileState.index := by
  induction chunks generalizing r with
  | nil =>
      refine ⟨r, ⟨.refl, hat, hplace, hheld, rfl, rfl, rfl, rfl⟩, rfl, ?_⟩
      cases hstate : r.fileState with
      | none => rfl
      | some state =>
          have hwithin := hat.within hplace state hstate
          rw [Option.filter_some, if_pos (by simpa using hwithin)]
  | cons chunk chunks ih =>
      have hpending := hat.pending
      rw [pending, hplace] at hpending
      have hloop := loop_receiving (X := X) hplace hpending
      have hcase := loop_cases hat hloop
      have hheld₁ := hheld.loop hcase
      generalize Receiver.receiveMessage X _ _ = r₁ at hloop hcase hheld₁
      cases hcase with
      | @unheadered _ _ _ incoming _ hstate hincoming =>
          have hnone (fileId text : String) :
              ({ r with incoming := incoming }.error fileId text).fileState = none := hstate
          have hat₁ : At X ({ r with incoming := incoming }.error "unknown"
              "Received binary data without a header") chunks rest := by
            refine hat.chunk hplace hincoming rfl rfl ?_
            rw [hnone]
            exact fun _ heq => by cases heq
          obtain ⟨r', hpasses, hhanded, hstate'⟩ := ih hat₁ rfl hheld₁
          refine ⟨r', hpasses.head hloop rfl rfl rfl rfl, hhanded, ?_⟩
          rw [hstate', hnone, hstate]
          rfl
      | @exceeded _ _ _ incoming state _ hstate hincoming hsize =>
          have hat₁ : At X { { r with incoming := incoming }.error state.fileId
              (oversizeError state.size (state.received + chunk.length)) with
              fileState := none } chunks rest :=
            hat.chunk hplace hincoming rfl rfl fun _ heq => by cases heq
          obtain ⟨r', hpasses, hhanded, hstate'⟩ := ih hat₁ rfl hheld₁
          refine ⟨r', hpasses.head hloop rfl rfl rfl rfl, hhanded, ?_⟩
          rw [hstate', hstate, Option.filter_some, if_neg]
          · rfl
          · rw [decide_eq_true_eq, List.flatten_cons, List.length_append]
            omega
      | @forwarded _ _ _ incoming state _ hstate hincoming hsize halive =>
          have hat₁ : At X { r with
              incoming := incoming
              fileState := some { state with received := state.received + chunk.length }
              forwarded := r.forwarded ++ [(state.index, chunk)] } chunks rest := by
            refine hat.chunk hplace hincoming hplace rfl ?_
            rintro _ ⟨⟩
            exact hsize
          obtain ⟨r', hpasses, hhanded, hstate'⟩ := ih hat₁ hplace hheld₁
          refine ⟨r', hpasses.head hloop rfl rfl rfl rfl, hhanded, ?_⟩
          rw [hstate', hstate, Option.filter_some, Option.filter_some, List.flatten_cons,
            List.length_append, ← Nat.add_assoc]
          split_ifs <;> rfl
      | dropped _ hstate _ _ halive =>
          rw [hheld _ hstate] at halive
          cases halive

theorem headed_results (hheaded : Headed X r rest r') : r'.results = r.results := by
  cases hheaded <;> rfl

theorem headed_handed {f : RTCFile} (hheaded : Headed X r (f :: rest) r') :
    r'.handed.length = r.handed.length + if (X.declared f).isSome then 1 else 0 := by
  cases hheaded with
  | unsized hdeclared =>
      rw [hdeclared]
      rfl
  | opened hdeclared =>
      rw [hdeclared]
      exact List.length_append

/-- The content behind a header: the file stays open if it is not longer than declared. -/
theorem reach_content {f : RTCFile} (hheaded : Headed X r (f :: rest) r')
    (haccepted : ∀ g ∈ f :: rest, X.accepted g = true) (hstate : r.fileState = none) :
    ∃ t, Passes X r' t rest ∧ t.handed = r'.handed ∧
      t.fileState.map RTCFileState.index = if X.fits f then some r.handed.length else none := by
  obtain ⟨hat, hplace, -, -⟩ := hheaded.next haccepted hstate
  have hheld : r.Held := by
    rw [Held, hstate]
    exact nofun
  obtain ⟨t, hpasses, hhanded, hindex⟩ := reach_chunks hat hplace (hheld.headed hheaded)
  refine ⟨t, hpasses, hhanded, ?_⟩
  rw [hindex, Selection.fits, flatten_processInChunks]
  cases hheaded with
  | unsized hdeclared =>
      have hidle : (r.error f.fileId "Expected size to be available").fileState = none := hstate
      rw [hidle, hdeclared]
      rfl
  | opened hdeclared =>
      rw [hdeclared, Option.filter_some, Option.any_some, Nat.zero_add]
      split_ifs <;> rfl

theorem incoming_ne_nil (hat : r.At X [] rest) (hplace : r.place = .receiving) :
    ∃ msg incoming, r.incoming = msg :: incoming := by
  have hpending := hat.pending
  rw [pending, hplace, List.map_nil, List.nil_append] at hpending
  refine List.exists_cons_of_ne_nil ?_
  show r.incoming ≠ []
  rw [show r.incoming = X.sendFiles rest from hpending, Selection.sendFiles]
  exact List.append_ne_nil_of_right_ne_nil _ (List.cons_ne_nil _ _)

/-- With no file open, the next header is read at once. -/
theorem loop_idle {f : RTCFile} (hat : r.At X [] (f :: rest)) (hplace : r.place = .receiving)
    (hstate : r.fileState = none) :
    ∃ incoming r', r.loop X = some r' ∧
      Headed X { r with incoming := incoming } (f :: rest) r' := by
  obtain ⟨msg, incoming, hincoming⟩ := incoming_ne_nil hat hplace
  have hloop := loop_receiving (X := X) hplace hincoming
  have hcase := loop_cases hat hloop
  generalize Receiver.receiveMessage X _ _ = r' at hloop hcase
  cases hcase with
  | ended _ hopen =>
      rw [hstate] at hopen
      cases hopen
  | header _ _ _ hheaded => exact ⟨_, r', hloop, hheaded⟩
  | refused hawaiting | next hawaiting =>
      rw [hplace] at hawaiting
      cases hawaiting

/-- The files `mid` are not open when they end: nothing is answered and no result is
taken. -/
theorem reach_unfit {mid : List RTCFile} (hat : r.At X [] (mid ++ rest))
    (hplace : r.place = .receiving) (hstate : r.fileState = none)
    (hunfit : ∀ f ∈ mid, X.fits f = false) :
    ∃ r', Passes X r r' rest ∧ r'.fileState = none ∧ r.handed <+: r'.handed := by
  induction mid generalizing r with
  | nil =>
      have hheld : r.Held := by
        rw [Held, hstate]
        exact nofun
      exact ⟨r, ⟨.refl, hat, hplace, hheld, rfl, rfl, rfl, rfl⟩, hstate, List.prefix_refl _⟩
  | cons f mid ih =>
      obtain ⟨incoming, r₁, hloop, hheaded⟩ := loop_idle hat hplace hstate
      obtain ⟨r₂, hpasses, hhanded, hindex⟩ := reach_content hheaded hat.accepted hstate
      obtain ⟨hfirst, hunfit⟩ := List.forall_mem_cons.mp hunfit
      rw [hfirst, if_neg Bool.false_ne_true, Option.map_eq_none_iff] at hindex
      obtain ⟨r', hpasses', hidle, hgrows⟩ := ih hpasses.hat hpasses.place hindex hunfit
      obtain ⟨hmore, hreported, hclosed⟩ := headed_grows hheaded
      have hresults := headed_results hheaded
      have hrun : Passes X r r₂ (mid ++ rest) :=
        hpasses.head hloop hresults hreported hclosed hheaded.channelOpen_eq
      refine ⟨r', hrun.trans hpasses', hidle, ?_⟩
      exact hmore.trans (hhanded ▸ hgrows)

/-- With a file open, the loop goes on to wait for its result. -/
theorem loop_open {state : RTCFileState} (hat : r.At X [] rest) (hplace : r.place = .receiving)
    (hstate : r.fileState = some state) :
    ∃ incoming msg r₁, r₁ = { r with
        incoming := incoming
        fileState := none
        place := .awaiting state.index state.fileId msg } ∧
      r.loop X = some r₁ ∧ r₁.At X [] rest := by
  obtain ⟨msg, incoming, hincoming⟩ := incoming_ne_nil hat hplace
  have hloop := loop_receiving (X := X) hplace hincoming
  have hcase := loop_cases hat hloop
  generalize Receiver.receiveMessage X _ _ = r₁ at hloop hcase
  cases hcase with
  | header _ hidle =>
      rw [hstate] at hidle
      cases hidle
  | last hawaiting | refused hawaiting | next hawaiting =>
      rw [hplace] at hawaiting
      cases hawaiting
  | @ended _ incoming msg open' _ hopen hincoming' =>
      obtain rfl : state = open' := Option.some.inj (hstate.symm.trans hopen)
      have hawaiting : ∃ index lastFileId msg', Place.awaiting state.index state.fileId msg =
          .awaiting index lastFileId msg' := ⟨_, _, _, rfl⟩
      exact ⟨_, _, _, rfl, hloop, hat.accepted, hat.incoming_eq hplace hincoming',
        .inr ⟨hawaiting, rfl, rfl⟩⟩

/-- What is open at the next text message is answered by the result that waits. -/
theorem reach_response {state : RTCFileState} {i : ℕ} {result : RTCSendFileResponse}
    {results : List (ℕ × RTCSendFileResponse)} (hat : r.At X [] rest)
    (hchannel : r.channelOpen = true) (hplace : r.place = .receiving)
    (hstate : r.fileState = some state) (hresults : r.results = (i, result) :: results) :
    ∃ r', Run (step X) Stays r r' ∧
      r'.responses = r.responses ++ [(state.index, fileResponse state.fileId result.failure)] ∧
      r'.reported = r.reported ∧ r'.closed = r.closed := by
  obtain ⟨incoming, msg, r₁, hr₁, hloop, hat₁⟩ := loop_open hat hplace hstate
  have hresponses₁ : r₁.responses = r.responses := by rw [hr₁]
  have hplace₁ : r₁.place = .awaiting state.index state.fileId msg := by rw [hr₁]
  have hresults₁ : r₁.results = (i, result) :: results := by rw [hr₁, ← hresults]
  have hchannel₁ : r₁.channelOpen = true := by rw [hr₁, ← hchannel]
  obtain ⟨r₂, hloop₂⟩ := exists_loop_of_results (X := X) hplace₁
    (by rw [hresults₁]; exact List.cons_ne_nil _ _)
  have htake : ∀ {error : Option String} {r₀ : Receiver}, Taken r₁ error r₀ →
      error = result.failure := by
    intro error r₀ htaken
    cases htaken with
    | result hfirst =>
        obtain ⟨hentry, -⟩ := List.cons.inj (hresults₁.symm.trans hfirst)
        rw [(Prod.mk.inj hentry).2]
    | none hempty =>
        rw [hresults₁] at hempty
        cases hempty
  have hcase := loop_cases hat₁ hloop₂
  have hgrows := hcase.grows.2
  rw [hr₁] at hgrows
  refine ⟨r₂, (Run.single (l := .loop) nofun hloop).snoc (l := .loop) nofun hloop₂, ?_,
    hgrows⟩
  cases hcase with
  | last hplace₂ htaken =>
      cases hplace₁.symm.trans hplace₂
      rw [htake htaken, hresponses₁]
  | refused _ _ hshut =>
      rw [hchannel₁] at hshut
      cases hshut
  | next hplace₂ htaken hheaded =>
      cases hplace₁.symm.trans hplace₂
      rw [htake htaken] at hheaded
      rw [headed_responses hheaded, hresponses₁]
  | header hplace₂ | ended hplace₂ => cases hplace₁.symm.trans hplace₂

/-! ## §6  A file that is given up and one that is not -/

/-- The loop is in front of the files `rest`; no result waits, and none was reported for
the file that is open. -/
structure Between (X : Selection) (r : Receiver) (rest : List RTCFile) : Prop where
  hat : r.At X [] rest
  place : r.place = .receiving
  held : r.Held
  results : r.results = []
  closed : r.closed = false
  channelOpen : r.channelOpen = true
  bounded : ∀ index ∈ r.reported.map Prod.fst, index < r.handed.length
  current : ∀ state ∈ r.fileState,
    state.index < r.handed.length ∧ state.index ∉ r.reported.map Prod.fst

theorem Between.init (X : Selection) (messages : List RTCFile) :
    Between X (init (X.sendFiles messages)) (messages.filter X.accepted) where
  hat := At.init X messages
  place := rfl
  held := nofun
  results := rfl
  closed := rfl
  channelOpen := rfl
  bounded := nofun
  current := nofun

/-- To the header of the next file: the file that is open is reported on as saved. -/
theorem Between.reach_headed {f : RTCFile} (hbetween : Between X r (f :: rest)) :
    ∃ r₀ r₁, Run (step X) Stays r r₁ ∧ Headed X r₀ (f :: rest) r₁ ∧ r₀.fileState = none ∧
      r₀.results = [] ∧ r₀.closed = false ∧ r₀.channelOpen = true ∧ r₀.handed = r.handed ∧
      ∀ index ∈ r₀.reported.map Prod.fst, index < r₀.handed.length := by
  cases hstate : r.fileState with
  | none =>
      obtain ⟨incoming, r₁, hloop, hheaded⟩ := loop_idle hbetween.hat hbetween.place hstate
      exact ⟨_, r₁, Run.single (l := .loop) nofun hloop, hheaded, hstate, hbetween.results,
        hbetween.closed, hbetween.channelOpen, rfl, hbetween.bounded⟩
  | some state =>
      obtain ⟨hindex, hnew⟩ := hbetween.current state hstate
      obtain ⟨incoming, msg, r₁, hr₁, hloop, hat₁⟩ :=
        loop_open hbetween.hat hbetween.place hstate
      have hplace₁ : r₁.place = .awaiting state.index state.fileId msg := by rw [hr₁]
      have hresults₁ : r₁.results = [] := by rw [hr₁, ← hbetween.results]
      have hclosed₁ : r₁.closed = false := by rw [hr₁, ← hbetween.closed]
      have hchannel₁ : r₁.channelOpen = true := by rw [hr₁, ← hbetween.channelOpen]
      have hhanded₁ : r₁.handed = r.handed := by rw [hr₁]
      have hreported₁ : r₁.reported = r.reported := by rw [hr₁]
      let saved : RTCSendFileResponse := ⟨state.fileId, true, none⟩
      have hreport : r₁.step X (.report state.index saved) = some { r₁ with
          results := r₁.results ++ [(state.index, saved)]
          reported := r₁.reported ++ [(state.index, saved)] } := by
        refine if_pos ⟨?_, ?_, ?_, hclosed₁⟩
        · rwa [hhanded₁]
        · rwa [hreported₁]
        · rw [hresults₁]
          decide
      obtain ⟨r₂, hr₂⟩ : ∃ r₂, r₂ = { r₁ with
          results := r₁.results ++ [(state.index, saved)]
          reported := r₁.reported ++ [(state.index, saved)] } := ⟨_, rfl⟩
      rw [← hr₂] at hreport
      have hat₂ : r₂.At X [] (f :: rest) := by
        rw [hr₂]
        exact ⟨hat₁.accepted, hat₁.pending, hat₁.place⟩
      have hplace₂ : r₂.place = .awaiting state.index state.fileId msg := by
        rw [hr₂]
        exact hplace₁
      have hresults₂ : r₂.results = [(state.index, saved)] := by
        rw [hr₂, hresults₁]
        rfl
      have hchannel₂ : r₂.channelOpen = true := by
        rw [hr₂]
        exact hchannel₁
      obtain ⟨r₃, hloop₃⟩ := exists_loop_of_results (X := X) hplace₂
        (by rw [hresults₂]; exact List.cons_ne_nil _ _)
      have hrun : Run (step X) Stays r r₃ :=
        ((Run.single (l := .loop) nofun hloop).snoc nofun hreport).snoc (l := .loop) nofun
          hloop₃
      cases loop_cases hat₂ hloop₃ with
      | header hplace₃ | ended hplace₃ => cases hplace₂.symm.trans hplace₃
      | refused _ _ hshut =>
          rw [hchannel₂] at hshut
          cases hshut
      | next hplace₃ htaken hheaded =>
          refine ⟨_, r₃, hrun, hheaded, ?_⟩
          cases htaken with
          | none hempty =>
              rw [hresults₂] at hempty
              cases hempty
          | @result i result results hfirst =>
              obtain ⟨-, hlater⟩ := List.cons.inj (hresults₂.symm.trans hfirst)
              refine ⟨hat₂.idle hplace₂, hlater.symm, ?_, hchannel₂, ?_, ?_⟩
              · rw [hr₂]
                exact hclosed₁
              · rw [hr₂]
                exact hhanded₁
              · intro index hmem
                simp only [hr₂, hreported₁, hhanded₁] at hmem ⊢
                rw [List.map_append] at hmem
                rcases List.mem_append.mp hmem with hmem | hmem
                · exact hbetween.bounded index hmem
                · rw [List.mem_singleton.mp hmem]
                  exact hindex

/-- Over a file; one that is given up is not reported on. -/
theorem Between.reach_file {f : RTCFile} (hbetween : Between X r (f :: rest)) :
    ∃ r', Run (step X) Stays r r' ∧ Between X r' rest ∧
      r'.handed.length = r.handed.length + (if (X.declared f).isSome then 1 else 0) ∧
      (X.fits f = true → r'.fileState ≠ none) ∧
      (X.exceeds f = true → r'.fileState = none ∧
        ∃ index < r'.handed.length, index ∉ r'.reported.map Prod.fst) := by
  obtain ⟨r₀, r₁, hrun, hheaded, hidle, hresults, hclosed, hchannel, hhanded₀, hbounded⟩ :=
    hbetween.reach_headed
  obtain ⟨r', hpasses, hhanded, hindex⟩ :=
    reach_content hheaded hbetween.hat.accepted hidle
  obtain ⟨hmore, hreported, hclosed₁⟩ := headed_grows hheaded
  have hreported' : r'.reported = r₀.reported := hpasses.reported.trans hreported
  have hgrows : r₀.handed.length ≤ r'.handed.length := by
    rw [hhanded]
    exact hmore.length_le
  have hnew : r₀.handed.length ∉ r'.reported.map Prod.fst := by
    rw [hreported']
    exact fun hmem => Nat.lt_irrefl _ (hbounded _ hmem)
  have hcount := headed_handed hheaded
  refine ⟨r', hrun.trans hpasses.run,
    ⟨hpasses.hat, hpasses.place, hpasses.held, ?_, ?_, ?_, ?_, ?_⟩, ?_, ?_, ?_⟩
  · rw [hpasses.results, headed_results hheaded, hresults]
  · rw [hpasses.closed, hclosed₁, hclosed]
  · rw [hpasses.channelOpen, hheaded.channelOpen_eq, hchannel]
  · intro index hmem
    rw [hreported'] at hmem
    exact Nat.lt_of_lt_of_le (hbounded index hmem) hgrows
  · intro state hopen
    rw [hopen, Option.map_some] at hindex
    split_ifs at hindex with hfits
    obtain ⟨size, hsize, -⟩ := (Option.any_eq_true _ _).mp hfits
    rw [hsize] at hcount
    rw [Option.some.inj hindex, hhanded, hcount]
    exact ⟨Nat.lt_succ_self _, hnew⟩
  · rw [hhanded, hcount, hhanded₀]
  · intro hfits hnone
    rw [hfits, hnone] at hindex
    cases hindex
  · intro hexceeds
    obtain ⟨size, hsize, hlong⟩ := (Option.any_eq_true _ _).mp hexceeds
    have hunfit : X.fits f = false := by
      rw [Selection.fits, hsize, Option.any_some]
      exact decide_eq_false (Nat.not_le.mpr (of_decide_eq_true hlong))
    rw [hunfit, if_neg Bool.false_ne_true, Option.map_eq_none_iff] at hindex
    rw [hsize] at hcount
    refine ⟨hindex, r₀.handed.length, ?_, hnew⟩
    rw [hhanded, hcount]
    exact Nat.lt_succ_self _

theorem Between.reach_files {before : List RTCFile} (hbetween : Between X r (before ++ rest)) :
    ∃ r', Run (step X) Stays r r' ∧ Between X r' rest ∧
      r'.handed.length =
        r.handed.length + before.countP fun f => (X.declared f).isSome := by
  induction before generalizing r with
  | nil => exact ⟨r, .refl, hbetween, rfl⟩
  | cons f before ih =>
      obtain ⟨r₁, hrun, hbetween₁, hone, -⟩ := hbetween.reach_file
      obtain ⟨r', hrun', hbetween', hmore⟩ := ih hbetween₁
      refine ⟨r', hrun.trans hrun', hbetween', ?_⟩
      rw [hmore, hone, List.countP_cons]
      omega

/-- A file that is given up, files that are not open when they end, and one that is. -/
theorem exists_shift {files : List RTCFile}
    (hshift : ¬ files.Pairwise fun f g => X.exceeds f = true → X.fits g = false) :
    ∃ before f mid g behind, files = before ++ f :: (mid ++ g :: behind) ∧
      X.exceeds f = true ∧ X.fits g = true ∧ ∀ m ∈ mid, X.fits m = false := by
  induction files with
  | nil => exact absurd List.Pairwise.nil hshift
  | cons f files ih =>
      by_cases hlater : files.Pairwise fun f g => X.exceeds f = true → X.fits g = false
      · have hfirst : ¬ ∀ g ∈ files, X.exceeds f = true → X.fits g = false := fun h =>
          hshift (List.pairwise_cons.mpr ⟨h, hlater⟩)
        simp only [not_forall, Bool.not_eq_false] at hfirst
        obtain ⟨g, hg, hexceeds, hfits⟩ := hfirst
        have hfound := Option.isSome_iff_exists.mp (List.find?_isSome.mpr ⟨g, hg, hfits⟩)
        obtain ⟨first, hfind⟩ := hfound
        obtain ⟨hfirst, mid, behind, hfiles, hmid⟩ := List.find?_eq_some_iff_append.mp hfind
        refine ⟨[], f, mid, first, behind, by rw [hfiles]; rfl, hexceeds, hfirst, fun m hm => ?_⟩
        simpa using hmid m hm
      · obtain ⟨before, g, mid, first, behind, hfiles, hg⟩ := ih hlater
        exact ⟨f :: before, g, mid, first, behind, by rw [hfiles]; rfl, hg⟩

/-! ## §7  Which transfers shift their results -/

/-- The result of a file that was given up is sent for a later file. -/
theorem exists_shifted {before mid behind : List RTCFile} {f g : RTCFile}
    (hbetween : Between X r (before ++ f :: (mid ++ g :: behind))) (hexceeds : X.exceeds f = true)
    (hfits : X.fits g = true) (hmid : ∀ m ∈ mid, X.fits m = false) :
    ∃ r', Run (step X) Stays r r' ∧ ¬ r'.Attributed := by
  obtain ⟨r₁, hrun₁, hbetween₁, -⟩ := hbetween.reach_files
  obtain ⟨r₂, hrun₂, hbetween₂, -, -, hgivenUp⟩ := hbetween₁.reach_file
  obtain ⟨hidle₂, index, hindex, hnew⟩ := hgivenUp hexceeds
  -- now the application reports on the file that was given up
  let failed : RTCSendFileResponse := ⟨f.fileId, false, none⟩
  have hreport : r₂.step X (.report index failed) = some { r₂ with
      results := r₂.results ++ [(index, failed)]
      reported := r₂.reported ++ [(index, failed)] } := by
    refine if_pos ⟨hindex, hnew, ?_, hbetween₂.closed⟩
    rw [hbetween₂.results]
    decide
  obtain ⟨r₃, hr₃⟩ : ∃ r₃, r₃ = { r₂ with
      results := r₂.results ++ [(index, failed)]
      reported := r₂.reported ++ [(index, failed)] } := ⟨_, rfl⟩
  rw [← hr₃] at hreport
  have hat₃ : r₃.At X [] (mid ++ g :: behind) := by
    rw [hr₃]
    exact ⟨hbetween₂.hat.accepted, hbetween₂.hat.pending, hbetween₂.hat.place⟩
  have hbounded₃ : ∀ i ∈ r₃.reported.map Prod.fst, i < r₃.handed.length := by
    intro i hi
    simp only [hr₃] at hi ⊢
    rw [List.map_append] at hi
    rcases List.mem_append.mp hi with hi | hi
    · exact hbetween₂.bounded i hi
    · rw [List.mem_singleton.mp hi]
      exact hindex
  -- nothing takes this result before `g` has ended
  obtain ⟨r₄, hpasses₄, hidle₄, hgrows₄⟩ := reach_unfit hat₃
    (by rw [hr₃]; exact hbetween₂.place) (by rw [hr₃]; exact hidle₂) hmid
  obtain ⟨incoming, r₅, hloop₅, hheaded⟩ := loop_idle hpasses₄.hat hpasses₄.place hidle₄
  obtain ⟨r₆, hpasses₆, -, hopen₆⟩ := reach_content hheaded hpasses₄.hat.accepted hidle₄
  rw [hfits, if_pos rfl] at hopen₆
  obtain ⟨state, hstate₆, hstateIndex⟩ := Option.map_eq_some_iff.mp hopen₆
  have hresults₅ := headed_results hheaded
  obtain ⟨-, hreported₅, hclosed₅⟩ := headed_grows hheaded
  have hpasses : Passes X r₃ r₆ behind :=
    hpasses₄.trans
      (hpasses₆.head hloop₅ hresults₅ hreported₅ hclosed₅ hheaded.channelOpen_eq)
  have hchannel₆ : r₆.channelOpen = true := by
    rw [hpasses.channelOpen, hr₃]
    exact hbetween₂.channelOpen
  have hresults₆ : r₆.results = [(index, failed)] := by
    rw [hpasses.results, hr₃, hbetween₂.results]
    rfl
  obtain ⟨r', hrun', hresponse, hreported', hclosed'⟩ :=
    reach_response hpasses.hat hchannel₆ hpasses.place hstate₆ hresults₆
  have hgiven : Run (step X) Stays r r₃ :=
    (hrun₁.trans hrun₂).snoc (l := .report index failed) nofun hreport
  refine ⟨r', (hgiven.trans hpasses.run).trans hrun', ?_⟩
  intro hattributed
  have hmem : (state.index, fileResponse state.fileId failed.failure) ∈ r'.responses := by
    rw [hresponse]
    exact List.mem_append_right _ (List.mem_singleton_self _)
  obtain ⟨-, hresult⟩ := hattributed _ _ hmem
  rcases hresult with ⟨result, hmem, -⟩ | ⟨hclosed, -⟩
  · rw [hreported', hpasses.reported] at hmem
    have hlt := hbounded₃ state.index (List.mem_map.mpr ⟨_, hmem, rfl⟩)
    have hle : r₃.handed.length ≤ state.index := by
      rw [hstateIndex]
      exact hgrows₄.length_le
    exact absurd hlt (Nat.not_lt.mpr hle)
  · rw [hclosed', hpasses.closed, hr₃] at hclosed
    rw [hbetween₂.closed] at hclosed
    cases hclosed

/-- **Results stay with their files** in every run of a transfer if and only if no file
that is longer than declared is sent before one that is not. -/
theorem attributed_iff_noShift (X : Selection) (messages : List RTCFile) :
    (∀ r, Reach (step X) (init (X.sendFiles messages)) r → r.Attributed) ↔
      X.NoShift messages := by
  refine ⟨fun hall => ?_, fun hshift r hrun => attributed_of_noShift hshift hrun⟩
  by_contra hshift
  obtain ⟨before, f, mid, g, behind, hfiles, hexceeds, hfits, hmid⟩ := exists_shift hshift
  have hbetween := Between.init X messages
  rw [hfiles] at hbetween
  obtain ⟨r, hrun, hnot⟩ := exists_shifted hbetween hexceeds hfits hmid
  exact hnot (hall r hrun.reach)

/-- Two files, of one byte and of two. -/
def twoFiles : Selection where
  fileList := [⟨"a", 1⟩, ⟨"b", 2⟩]
  fileTokens := .ofList [("a", "t"), ("b", "u")]
  headerJson := sendFileHeaderJson

/-- The first file has a byte too many, and the application says so; the second one is
saved, and its sender is told that it was not. -/
theorem result_shifted :
    ¬ ∀ r, Reach (step twoFiles)
      (init (twoFiles.sendFiles [⟨"a", [[1, 2]]⟩, ⟨"b", [[1, 2]]⟩])) r → r.Attributed := by
  intro hall
  obtain ⟨r, hexec, hr⟩ := exists_of_exec_any (step twoFiles)
    (init (twoFiles.sendFiles [⟨"a", [[1, 2]]⟩, ⟨"b", [[1, 2]]⟩]))
    [.loop, .loop, .report 0 ⟨"a", false, some "too long"⟩, .loop, .loop, .loop, .loop]
    (fun r => r.responses = [(1, ⟨"b", false, some "too long"⟩)] ∧
      r.reported = [(0, ⟨"a", false, some "too long"⟩)] ∧ r.closed = false) (by decide +kernel)
  obtain ⟨hresponses, hreported, hclosed⟩ := of_decide_eq_true hr
  have hrun : Reach (step twoFiles) _ r := run_of_exec hexec (guarded_trivial _ _)
  have hmem : (1, (⟨"b", false, some "too long"⟩ : RTCSendFileResponse)) ∈ r.responses := by
    rw [hresponses]
    exact List.mem_singleton_self _
  obtain ⟨-, hresult⟩ := hall r hrun 1 _ hmem
  rcases hresult with ⟨result, hgiven, -⟩ | ⟨hended, -⟩
  · rw [hreported] at hgiven
    cases List.mem_singleton.mp hgiven
  · rw [hclosed] at hended
    cases hended

end Receiver

end FireBoxTransfer.WebRTC
