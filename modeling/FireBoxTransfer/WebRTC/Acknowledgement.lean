import FireBoxTransfer.Framework.Simulation
import FireBoxTransfer.WebRTC.Contents
import FireBoxTransfer.WebRTC.Results

/-!
# The end of a transfer

The sender puts everything on the channel and then takes one message from it, whatever
that is, before it reports the end. There may be as many responses as files, so the one it
takes is that for the last file only if no file before it is answered.
-/

namespace FireBoxTransfer.WebRTC

open Json Runs

/-! ## §1  Both sides -/

/-- The end of `send_task`, with the receiver at the other end of the channel: what is
still to be sent, the responses that were taken, and whether the end was reported. -/
structure SendTask where
  unsent : List DataChannelMessage
  receiver : Receiver
  taken : List (ℕ × RTCSendFileResponse)
  finished : Bool
deriving DecidableEq

inductive SendLabel where
  | send
  | receiver (l : Label)
  /-- `receive_rx.recv().await`, after the delimiter. -/
  | receive
  /-- `done_rx.recv()`: the peer connection is reported as disconnected. -/
  | disconnect
deriving DecidableEq

namespace SendTask

variable (X : Selection)

def init (messages : List RTCFile) : SendTask where
  unsent := X.sendFiles messages
  receiver := Receiver.init []
  taken := []
  finished := false

def step (t : SendTask) : SendLabel → Option SendTask
  | .send =>
      match t.unsent with
      | msg :: unsent =>
          if t.finished then none else
          some { t with
            unsent := unsent
            receiver := { t.receiver with incoming := t.receiver.incoming ++ [msg] } }
      | [] => none
  | .receiver l =>
      -- the sender closes the channel behind the report of the end
      if l = .hangUp ∧ t.finished = false then none else
      (t.receiver.step X l).map fun receiver => { t with receiver := receiver }
  | .receive =>
      match t.unsent, t.receiver.responses.drop t.taken.length with
      | [], response :: _ =>
          if t.finished then none else
          some { t with taken := t.taken ++ [response], finished := true }
      | _, _ => none
  | .disconnect => if t.finished then none else some { t with finished := true }

/-- The peers stay connected. -/
def Connected (_ : SendTask) (l : SendLabel) : Prop := l ≠ .disconnect

instance (t : SendTask) (l : SendLabel) : Decidable (t.Connected l) :=
  inferInstanceAs (Decidable (l ≠ .disconnect))

/-- The response for the last file that was sent is among those taken. -/
def LastAcknowledged (messages : List RTCFile) (t : SendTask) : Prop :=
  ∃ f, (messages.filter X.accepted).getLast? = some f ∧ (X.declared f).isSome = true ∧
    ∃ index response, (index, response) ∈ t.taken ∧ response.id = f.fileId ∧
      index + 1 = (Receiver.known X messages).length

/-- No file but the last one is received as a whole. -/
def AloneAnswered (messages : List RTCFile) : Prop :=
  ∀ f ∈ (messages.filter X.accepted).dropLast, X.fits f = false

end SendTask

/-! ## §2  The receiver of a transfer -/

namespace Receiver

variable {X : Selection} {r r' : Receiver}

/-- With more to come on the channel. -/
def feed (r : Receiver) (unsent : List DataChannelMessage) : Receiver :=
  { r with incoming := r.incoming ++ unsent }

theorem feed_receiveHeader (unsent : List DataChannelMessage) (msg : DataChannelMessage) :
    (r.feed unsent).receiveHeader X msg = (r.receiveHeader X msg).feed unsent := by
  unfold receiveHeader
  split
  · rfl
  · split
    · split_ifs
      · rfl
      · split <;> rfl
    · rfl

theorem feed_receiveBinary (unsent : List DataChannelMessage) (msg : DataChannelMessage) :
    (r.feed unsent).receiveBinary msg = (r.receiveBinary msg).feed unsent := by
  have hstate : (r.feed unsent).fileState = r.fileState := rfl
  unfold receiveBinary
  rw [hstate]
  split
  · simp only
    split_ifs <;> rfl
  · rfl

theorem feed_respond (unsent : List DataChannelMessage) (index : ℕ) (lastFileId : String)
    (msg : DataChannelMessage) (error : Option String) :
    (r.feed unsent).respond X index lastFileId msg error =
      (r.respond X index lastFileId msg error).feed unsent := by
  unfold respond
  simp only
  have hopen : (r.feed unsent).channelOpen = r.channelOpen := rfl
  rw [hopen]
  split_ifs
  · rfl
  · exact feed_receiveHeader (r := { r with
      responses := r.responses ++ [(index, fileResponse lastFileId error)] }) unsent msg
  · rfl

/-- What is still to come does not change what the receiver does. -/
theorem feed_step {l : Label} (unsent : List DataChannelMessage)
    (hstep : r.step X l = some r') : (r.feed unsent).step X l = some (r'.feed unsent) := by
  cases l with
  | report index result =>
      obtain ⟨hcan, hstep⟩ := Option.ite_none_right_eq_some.mp hstep
      cases hstep
      exact if_pos hcan
  | dropReceiver =>
      obtain ⟨state, hstate, rfl⟩ := Option.map_eq_some_iff.mp hstep
      exact Option.map_eq_some_iff.mpr ⟨state, hstate, rfl⟩
  | close | hangUp =>
      cases hstep
      rfl
  | loop =>
      have hloop : r.loop X = some r' := hstep
      show (r.feed unsent).loop X = some (r'.feed unsent)
      unfold loop at hloop
      split at hloop
      · rename_i hplace
        split at hloop
        · rename_i msg incoming hincoming
          cases hloop
          have hfed : (r.feed unsent).incoming = msg :: (incoming ++ unsent) := by
            rw [feed, hincoming, List.cons_append]
          rw [loop_receiving (by exact hplace) hfed]
          have hrest : { r.feed unsent with incoming := incoming ++ unsent } =
              ({ r with incoming := incoming } : Receiver).feed unsent := rfl
          rw [hrest]
          congr 1
          unfold receiveMessage
          split_ifs
          · have hstate : (({ r with incoming := incoming } : Receiver).feed unsent).fileState =
                ({ r with incoming := incoming } : Receiver).fileState := rfl
            rw [hstate]
            split
            · rfl
            · exact feed_receiveHeader unsent msg
          · exact feed_receiveBinary unsent msg
        · cases hloop
      · rename_i index lastFileId msg hplace
        have hplace' : (r.feed unsent).place = .awaiting index lastFileId msg := hplace
        split at hloop
        · rename_i result results hresults
          cases hloop
          rw [loop_result hplace' (by exact hresults)]
          exact congrArg some (feed_respond (r := { r with results := results }) unsent index
            lastFileId msg result.failure)
        · rename_i hresults
          split_ifs at hloop with hclosed
          cases hloop
          rw [loop_closed hplace' (by exact hresults) (by exact hclosed)]
          exact congrArg some (feed_respond unsent index lastFileId msg _)
      · cases hloop
      · cases hloop

end Receiver

/-! ## §3  What the sender takes -/

namespace SendTask

variable {X : Selection} {t t' : SendTask} {messages : List RTCFile}

/-- The receiver with all that is sent. -/
abbrev whole (t : SendTask) : Receiver := t.receiver.feed t.unsent

theorem whole_init (X : Selection) (messages : List RTCFile) :
    (init X messages).whole = Receiver.init (X.sendFiles messages) := rfl

/-- A step is one of the receiver or none. -/
theorem whole_step {l : SendLabel} (hstep : t.step X l = some t') :
    Reach (Receiver.step X) t.whole t'.whole := by
  cases l with
  | send =>
      unfold step at hstep
      simp only at hstep
      split at hstep
      · rename_i msg unsent hunsent
        split_ifs at hstep
        cases hstep
        have hsame : t.whole = { t.receiver with
            incoming := t.receiver.incoming ++ [msg] }.feed unsent := by
          rw [whole, hunsent, Receiver.feed, Receiver.feed, List.append_assoc,
            List.singleton_append]
        rw [hsame]
        exact .refl
      · cases hstep
  | receiver l =>
      obtain ⟨-, hstep⟩ := Option.ite_none_left_eq_some.mp hstep
      obtain ⟨receiver, hreceiver, rfl⟩ := Option.map_eq_some_iff.mp hstep
      exact Run.single trivial (Receiver.feed_step t.unsent hreceiver)
  | receive =>
      unfold step at hstep
      simp only at hstep
      split at hstep
      · split_ifs at hstep
        cases hstep
        exact .refl
      · cases hstep
  | disconnect =>
      obtain ⟨-, hstep⟩ := Option.ite_none_left_eq_some.mp hstep
      cases hstep
      exact .refl

/-- What was taken are responses, and the end is reported when one was taken. -/
structure Takes (t : SendTask) : Prop where
  responses : ∀ entry ∈ t.taken, entry ∈ t.receiver.responses
  finished : t.finished = true → t.taken ≠ []

theorem responses_step {r r' : Receiver} {l : Label} (hstep : r.step X l = some r') :
    r.responses <+: r'.responses := by
  have hheader (r : Receiver) (msg : DataChannelMessage) :
      (r.receiveHeader X msg).responses = r.responses := by
    unfold Receiver.receiveHeader
    split
    · rfl
    · split
      · split_ifs
        · rfl
        · split <;> rfl
      · rfl
  have hrespond (r : Receiver) (index : ℕ) (lastFileId : String) (msg : DataChannelMessage)
      (error : Option String) :
      r.responses <+: (r.respond X index lastFileId msg error).responses := by
    unfold Receiver.respond
    simp only
    split_ifs
    · exact List.prefix_append _ _
    · rw [hheader]
      exact List.prefix_append _ _
    · exact List.prefix_refl _
  cases l with
  | report index result =>
      obtain ⟨-, hstep⟩ := Option.ite_none_right_eq_some.mp hstep
      cases hstep
      exact List.prefix_refl _
  | dropReceiver =>
      obtain ⟨state, -, rfl⟩ := Option.map_eq_some_iff.mp hstep
      exact List.prefix_refl _
  | close | hangUp =>
      cases hstep
      exact List.prefix_refl _
  | loop =>
      have hloop : r.loop X = some r' := hstep
      unfold Receiver.loop at hloop
      split at hloop
      · split at hloop
        · cases hloop
          unfold Receiver.receiveMessage
          split_ifs
          · split
            · exact List.prefix_refl _
            · exact (hheader _ _).symm ▸ List.prefix_refl _
          · unfold Receiver.receiveBinary
            split
            · simp only
              split_ifs <;> exact List.prefix_refl _
            · exact List.prefix_refl _
        · cases hloop
      · split at hloop
        · rename_i results _
          cases hloop
          exact hrespond { r with results := results } _ _ _ _
        · split_ifs at hloop
          cases hloop
          exact hrespond _ _ _ _ _
      · cases hloop
      · cases hloop

theorem Takes.step {l : SendLabel} (htakes : t.Takes) (hconnected : t.Connected l)
    (hstep : t.step X l = some t') : t'.Takes := by
  obtain ⟨hresponses, hfinished⟩ := htakes
  cases l with
  | send =>
      unfold SendTask.step at hstep
      simp only at hstep
      split at hstep
      · split_ifs at hstep
        cases hstep
        exact ⟨hresponses, hfinished⟩
      · cases hstep
  | receiver l =>
      obtain ⟨-, hstep⟩ := Option.ite_none_left_eq_some.mp hstep
      obtain ⟨receiver, hreceiver, rfl⟩ := Option.map_eq_some_iff.mp hstep
      exact ⟨fun entry hentry => (responses_step hreceiver).subset (hresponses entry hentry),
        hfinished⟩
  | receive =>
      unfold SendTask.step at hstep
      simp only at hstep
      split at hstep
      · rename_i response rest hunsent hresponse
        split_ifs at hstep
        cases hstep
        refine ⟨fun entry hentry => ?_, fun _ => List.append_ne_nil_of_right_ne_nil _ nofun⟩
        rcases List.mem_append.mp hentry with hentry | hentry
        · exact hresponses entry hentry
        · rw [List.mem_singleton.mp hentry]
          refine List.mem_of_mem_drop (i := t.taken.length) ?_
          rw [hresponse]
          exact List.mem_cons_self
      · cases hstep
  | disconnect => exact absurd rfl hconnected

/-- What is taken is the response for a file that was received as a whole. -/
theorem answered_of_run (hrun : Reach (step X) (init X messages) t) :
    ∀ index response, (index, response) ∈ t.receiver.responses →
      ∃ f, (Receiver.known X messages)[index]? = some f ∧ X.fits f = true ∧
        response.id = f.fileId := by
  have hwhole : Reach (Receiver.step X) (init X messages).whole t.whole :=
    hrun.map whole fun _ _ _ _ hstep => whole_step hstep
  rw [whole_init] at hwhole
  intro index response hmem
  cases Receiver.transfers_of_reach hwhole with
  | going passed hat hfiles hkept =>
      obtain ⟨f, hf, hfits, hid⟩ := hkept.answered index response hmem
      refine ⟨f, ?_, hfits, hid⟩
      rw [hfiles, List.getElem?_append_left (List.getElem?_eq_some_iff.mp hf).1, hf]
  | ended hfiles hkept =>
      obtain ⟨f, hf, hfits, hid⟩ := hkept.answered index response hmem
      obtain ⟨later, hlater⟩ := hfiles
      refine ⟨f, ?_, hfits, hid⟩
      rw [← hlater, List.getElem?_append_left (List.getElem?_eq_some_iff.mp hf).1, hf]

/-- A file that fits and has no file that fits before it is the last one. -/
theorem AloneAnswered.last (halone : AloneAnswered X messages) {index : ℕ} {f : RTCFile}
    (hf : (Receiver.known X messages)[index]? = some f) (hfits : X.fits f = true) :
    (messages.filter X.accepted).getLast? = some f ∧ (X.declared f).isSome = true ∧
      index + 1 = (Receiver.known X messages).length := by
  have hdeclared : (X.declared f).isSome = true :=
    (List.mem_filter.mp (List.mem_of_getElem? hf)).2
  rw [← Receiver.known_accepted] at hf ⊢
  obtain hnil | ⟨before, last, hlast⟩ := List.eq_nil_or_concat (messages.filter X.accepted)
  · rw [hnil] at hf
    cases hf
  · rw [List.concat_eq_append] at hlast
    unfold AloneAnswered at halone
    rw [hlast, List.dropLast_concat] at halone
    rw [hlast] at hf ⊢
    unfold Receiver.known at hf ⊢
    rw [List.filter_append] at hf ⊢
    by_cases hlt : index < (before.filter fun f => (X.declared f).isSome).length
    · rw [List.getElem?_append_left hlt] at hf
      have hmem := (List.mem_filter.mp (List.mem_of_getElem? hf)).1
      rw [halone f hmem] at hfits
      cases hfits
    · rw [List.getElem?_append_right (Nat.le_of_not_lt hlt)] at hf
      have hmem := List.mem_of_getElem? hf
      obtain rfl : f = last := List.mem_singleton.mp (List.mem_filter.mp hmem).1
      have hone : ([f].filter fun f => (X.declared f).isSome) = [f] :=
        List.filter_cons_of_pos hdeclared
      rw [hone] at hf ⊢
      have hzero := (List.getElem?_eq_some_iff.mp hf).1
      rw [List.length_singleton] at hzero
      refine ⟨List.getLast?_concat, hdeclared, ?_⟩
      rw [List.length_append, List.length_singleton]
      omega

theorem AloneAnswered.acknowledged (halone : AloneAnswered X messages)
    (hrun : Run (step X) Connected (init X messages) t) (hfinished : t.finished = true) :
    LastAcknowledged X messages t := by
  have htakes : t.Takes := hrun.invariant ⟨nofun, nofun⟩ fun _ _ _ htakes hok hstep =>
    htakes.step hok hstep
  obtain ⟨⟨index, response⟩, hmem⟩ := List.exists_mem_of_ne_nil _ (htakes.finished hfinished)
  obtain ⟨f, hf, hfits, hid⟩ :=
    answered_of_run hrun.reach index response (htakes.responses _ hmem)
  obtain ⟨hlast, hdeclared, hindex⟩ := halone.last hf hfits
  exact ⟨f, hlast, hdeclared, index, response, hmem, hid, hindex⟩

/-! ## §4  A response before the last -/

/-- A file that fits is answered before the last one has been handed out. -/
theorem exists_early {f : RTCFile} (hf : f ∈ (messages.filter X.accepted).dropLast)
    (hfits : X.fits f = true) :
    ∃ r, Run (Receiver.step X) Receiver.Stays (Receiver.init (X.sendFiles messages)) r ∧
      r.responses ≠ [] ∧ ∀ last, (messages.filter X.accepted).getLast? = some last →
        (X.declared last).isSome = true → ∀ index response, (index, response) ∈ r.responses →
          index + 1 < (Receiver.known X messages).length := by
  obtain ⟨before, mid, hsplit⟩ := List.append_of_mem hf
  obtain hnil | ⟨front, last, hlast⟩ := List.eq_nil_or_concat (messages.filter X.accepted)
  · rw [hnil] at hf
    cases hf
  rw [List.concat_eq_append] at hlast
  have hfiles : messages.filter X.accepted = before ++ f :: (mid ++ [last]) := by
    rw [hlast, List.dropLast_concat] at hsplit
    rw [hlast, hsplit, List.append_assoc, List.cons_append]
  have hbetween := Receiver.Between.init X messages
  rw [hfiles] at hbetween
  obtain ⟨r₁, hrun₁, hbetween₁, hcount₁⟩ := hbetween.reach_files
  obtain ⟨r₂, hrun₂, hbetween₂, hcount₂, hopen₂, -⟩ := hbetween₁.reach_file
  obtain ⟨state, hstate⟩ := Option.ne_none_iff_exists'.mp (hopen₂ hfits)
  obtain ⟨hindex, hnew⟩ := hbetween₂.current state hstate
  -- the application reports on the file that is open
  let saved : RTCSendFileResponse := ⟨state.fileId, true, none⟩
  have hreport : r₂.step X (.report state.index saved) = some { r₂ with
      results := r₂.results ++ [(state.index, saved)]
      reported := r₂.reported ++ [(state.index, saved)] } := by
    refine if_pos ⟨hindex, hnew, ?_, hbetween₂.closed⟩
    rw [hbetween₂.results]
    decide
  have hat₃ : Receiver.At X { r₂ with
      results := r₂.results ++ [(state.index, saved)]
      reported := r₂.reported ++ [(state.index, saved)] } [] (mid ++ [last]) :=
    ⟨hbetween₂.hat.accepted, hbetween₂.hat.pending, hbetween₂.hat.place⟩
  obtain ⟨r₄, hrun₄, hresponses₄, -⟩ := Receiver.reach_response hat₃ hbetween₂.channelOpen
    hbetween₂.place hstate (by rw [hbetween₂.results]; rfl)
  have hreached := hrun₁.trans hrun₂
  refine ⟨r₄, (hreached.snoc (l := .report _ _) nofun hreport).trans hrun₄, ?_,
    fun last' hlast' hdeclared => ?_⟩
  · rw [hresponses₄]
    exact List.append_ne_nil_of_right_ne_nil _ nofun
  · have hknown : r₂.handed.length < (Receiver.known X messages).length := by
      have hone : (X.declared f).isSome = true := by
        obtain ⟨size, hsize, -⟩ := (Option.any_eq_true _ _).mp hfits
        rw [hsize]
        rfl
      obtain rfl : last = last' := by
        rw [hlast, List.getLast?_concat] at hlast'
        exact Option.some.inj hlast'
      rw [← Receiver.known_accepted, Receiver.known, ← List.countP_eq_length_filter, hfiles,
        hcount₂, hcount₁, if_pos hone]
      simp only [List.countP_append, List.countP_cons, hone, hdeclared, if_true, Receiver.init,
        List.length_nil]
      omega
    have hbefore : ∀ index response, (index, response) ∈ r₂.responses →
        index < r₂.handed.length := by
      intro index response hmem
      have hanswered {passed : List RTCFile} (hkept : Receiver.Kept X r₂ passed) :
          index < r₂.handed.length := by
        obtain ⟨g, hg, -⟩ := hkept.answered index response hmem
        rw [hkept.handed, List.length_map]
        exact (List.getElem?_eq_some_iff.mp hg).1
      cases Receiver.transfers_of_reach hreached.reach with
      | going passed hat hfiles hkept => exact hanswered hkept
      | ended hfiles hkept => exact hanswered hkept
    intro index response hmem
    rw [hresponses₄] at hmem
    rcases List.mem_append.mp hmem with hmem | hmem
    · exact Nat.lt_of_le_of_lt (hbefore index response hmem) hknown
    · cases List.mem_singleton.mp hmem
      exact Nat.lt_of_le_of_lt hindex hknown

/-- Everything is sent before the receiver goes on. -/
theorem run_sent (r : Receiver) (unsent : List DataChannelMessage) :
    Run (step X) Connected ⟨unsent, r, [], false⟩ ⟨[], r.feed unsent, [], false⟩ := by
  induction unsent generalizing r with
  | nil =>
      have hsame : r.feed [] = r := by rw [Receiver.feed, List.append_nil]
      rw [hsame]
      exact .refl
  | cons msg unsent ih =>
      have hsend : step X ⟨msg :: unsent, r, [], false⟩ .send =
          some ⟨unsent, { r with incoming := r.incoming ++ [msg] }, [], false⟩ := rfl
      have hrest := ih { r with incoming := r.incoming ++ [msg] }
      have hsame : ({ r with incoming := r.incoming ++ [msg] } : Receiver).feed unsent =
          r.feed (msg :: unsent) := by
        rw [Receiver.feed, Receiver.feed, List.append_assoc, List.singleton_append]
      rw [hsame] at hrest
      exact (Run.single nofun hsend).trans hrest

theorem exists_early_end {f : RTCFile} (hf : f ∈ (messages.filter X.accepted).dropLast)
    (hfits : X.fits f = true) :
    ∃ t, Run (step X) Connected (init X messages) t ∧ t.finished = true ∧
      ¬ LastAcknowledged X messages t := by
  obtain ⟨r, hrun, hresponses, hbound⟩ := exists_early hf hfits
  obtain ⟨response, rest, hfirst⟩ := List.exists_cons_of_ne_nil hresponses
  have hsent : Run (step X) Connected (init X messages)
      ⟨[], Receiver.init (X.sendFiles messages), [], false⟩ :=
    run_sent (Receiver.init []) (X.sendFiles messages)
  have hreceived : Run (step X) Connected
      ⟨[], Receiver.init (X.sendFiles messages), [], false⟩ ⟨[], r, [], false⟩ :=
    hrun.map (fun r => (⟨[], r, [], false⟩ : SendTask)) fun m l n hstays hstep =>
      Run.single (l := .receiver l) nofun (Option.ite_none_left_eq_some.mpr
        ⟨fun hhangUp => hstays hhangUp.1, Option.map_eq_some_iff.mpr ⟨n, hstep, rfl⟩⟩)
  have hend : step X ⟨[], r, [], false⟩ .receive = some ⟨[], r, [response], true⟩ := by
    simp only [step, List.length_nil, List.drop_zero, hfirst]
    rfl
  have hconnected : Connected ⟨[], r, [], false⟩ .receive := nofun
  refine ⟨_, (hsent.trans hreceived).snoc hconnected hend, rfl, ?_⟩
  rintro ⟨last, hlast, hdeclared, index, entry, hmem, -, hindex⟩
  have hentry : (index, entry) ∈ r.responses := by
    rw [List.mem_singleton.mp hmem, hfirst]
    exact List.mem_cons_self
  exact absurd hindex (Nat.ne_of_lt (hbound last hlast hdeclared index entry hentry))

/-! ## §5  Which transfers wait -/

/-- **The sender waits for the last response**, in every run in which the peers stay
connected, if and only if no file before the last one is received as a whole; and it reports
the end as soon as they do not. -/
theorem waits_iff_aloneAnswered (X : Selection) (messages : List RTCFile) :
    ((∀ t, Run (step X) Connected (init X messages) t → t.finished = true →
        LastAcknowledged X messages t) ↔ AloneAnswered X messages) ∧
      ∀ t, Reach (step X) (init X messages) t → t.finished = false →
        ∃ t', t.step X .disconnect = some t' ∧ t'.finished = true ∧ t'.taken = t.taken := by
  constructor
  · constructor
    · intro hall f hf
      by_contra hfits
      obtain ⟨t, hrun, hfinished, hnot⟩ := exists_early_end hf (eq_true_of_ne_false hfits)
      exact hnot (hall t hrun hfinished)
    · exact fun halone t hrun hfinished => halone.acknowledged hrun hfinished
  · intro t _ hgoing
    refine ⟨{ t with finished := true }, ?_, rfl, rfl⟩
    unfold step
    rw [hgoing]
    rfl

/-- With two files the response for the first one ends the transfer. -/
theorem first_response_ends :
    ¬ ∀ t, Run (step Receiver.twoFiles) Connected
      (init Receiver.twoFiles [⟨"a", [[1]]⟩, ⟨"b", [[1, 2]]⟩]) t → t.finished = true →
        LastAcknowledged Receiver.twoFiles [⟨"a", [[1]]⟩, ⟨"b", [[1, 2]]⟩] t := by
  intro hall
  obtain ⟨t, hexec, ht⟩ := exists_of_exec_any (step Receiver.twoFiles)
    (init Receiver.twoFiles [⟨"a", [[1]]⟩, ⟨"b", [[1, 2]]⟩])
    [.send, .send, .send, .send, .send, .receiver .loop, .receiver .loop, .receiver .loop,
      .receiver (.report 0 ⟨"a", true, none⟩), .receiver .loop, .receive]
    (fun t => t.finished = true ∧ t.taken = [(0, ⟨"a", true, none⟩)]) (by decide +kernel)
  obtain ⟨hfinished, htaken⟩ := of_decide_eq_true ht
  obtain ⟨f, -, -, index, response, hmem, -, hindex⟩ :=
    hall t (run_of_exec hexec (by decide +kernel)) hfinished
  rw [htaken] at hmem
  cases List.mem_singleton.mp hmem
  have hlength : (Receiver.known Receiver.twoFiles [⟨"a", [[1]]⟩, ⟨"b", [[1, 2]]⟩]).length = 2 := by
    decide +kernel
  rw [hlength] at hindex
  cases hindex

end SendTask

end FireBoxTransfer.WebRTC
