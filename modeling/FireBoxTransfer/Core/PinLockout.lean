import FireBoxTransfer.Core.ServerV2Steps
import FireBoxTransfer.Core.WebSend

/-!
# Lockout after wrong PINs

Both endpoints that ask for a PIN count the wrong ones of each address, in a
cache that holds the counters of the addresses that were seen last. An address
stays locked out as long as its counter stays in the cache.
-/

namespace FireBoxTransfer

open TaskPool Runs

/-! ## §1  The cache -/

namespace LruCache

variable {κ α : Type} [DecidableEq κ]

/-- The key that a new value for `k` drives out. -/
def evicts (c : LruCache κ α) (k : κ) : Option κ :=
  if k ∈ c.entries.map Prod.fst then none
  else if c.entries.length < c.cap then none
  else c.entries.getLast?.map Prod.fst

/-- A cache within its bound. -/
structure Sound (c : LruCache κ α) : Prop where
  bounded : c.entries.length ≤ c.cap
  positive : 0 < c.cap

omit [DecidableEq κ] in
theorem sound_new {cap : ℕ} (h : 0 < cap) : (new cap : LruCache κ α).Sound :=
  ⟨Nat.zero_le _, h⟩

section Entries

variable {l : List (κ × α)} {k k' : κ}

theorem lookup_filter_ne (h : k ≠ k') : (l.filter (·.1 ≠ k')).lookup k = l.lookup k := by
  induction l with
  | nil => rfl
  | cons e l ih =>
      by_cases he : e.1 = k'
      · rw [List.filter_cons_of_neg (by simpa using he), ih, List.lookup_cons,
          beq_eq_false_iff_ne.mpr (by rw [he]; exact h)]
      · rw [List.filter_cons_of_pos (by simpa using he), List.lookup_cons, List.lookup_cons, ih]

/-- A key that is there makes room for its new value. -/
theorem length_filter_lt (h : k ∈ l.map Prod.fst) : (l.filter (·.1 ≠ k)).length < l.length := by
  obtain ⟨e, he, rfl⟩ := List.mem_map.mp h
  exact List.length_filter_lt_length_iff_exists.mpr ⟨e, he, by simp⟩

end Entries

variable {c : LruCache κ α} {k k' : κ} {v : α}

theorem get_fst : (c.get k).1 = c.entries.lookup k := by
  unfold get
  split
  · rename_i h
    exact h.symm
  · rename_i h
    exact h.symm

/-- A hit changes the order only. -/
theorem lookup_get : (c.get k).2.entries.lookup k' = c.entries.lookup k' := by
  unfold get
  split
  · rfl
  · rename_i v h
    by_cases hk : k' = k
    · subst hk
      simp [h]
    · rw [List.lookup_cons, beq_eq_false_iff_ne.mpr hk]
      exact lookup_filter_ne hk

/-- Looking up a key drives nothing out. -/
theorem evicts_get : (c.get k).2.evicts k = c.evicts k := by
  unfold get
  split
  · rfl
  · rename_i v h
    have hmem : k ∈ c.entries.map Prod.fst :=
      List.mem_map.mpr ⟨_, AssocMap.mem_of_lookup_eq_some h, rfl⟩
    unfold evicts
    rw [if_pos hmem]
    exact if_pos List.mem_cons_self

theorem lookup_pop_ne (h : k' ≠ k) : (c.pop k).entries.lookup k' = c.entries.lookup k' :=
  lookup_filter_ne h

theorem lookup_put_self (h : 0 < c.cap) : (c.put k v).entries.lookup k = some v := by
  obtain ⟨n, hn⟩ := Nat.exists_eq_succ_of_ne_zero (Nat.pos_iff_ne_zero.mp h)
  unfold put
  rw [hn, List.take_succ_cons, List.lookup_cons_self]

/-- What is not driven out keeps its value. -/
theorem Sound.lookup_put_ne (hc : c.Sound) (hk : k' ≠ k) (h : c.evicts k ≠ some k') :
    (c.put k v).entries.lookup k' = c.entries.lookup k' := by
  have hfilter := lookup_filter_ne (l := c.entries) hk
  have hlookup : ((k, v) :: c.entries.filter (·.1 ≠ k)).lookup k' = c.entries.lookup k' := by
    rw [List.lookup_cons, beq_eq_false_iff_ne.mpr hk]
    exact hfilter
  unfold put
  by_cases hroom : ((k, v) :: c.entries.filter (·.1 ≠ k)).length ≤ c.cap
  · rw [List.take_of_length_le hroom]
    exact hlookup
  · -- a new key in a full cache: the last entry goes
    have hmem : k ∉ c.entries.map Prod.fst := by
      intro hmem
      have hlt := length_filter_lt hmem
      have hbounded := hc.bounded
      rw [List.length_cons] at hroom
      omega
    have hsame : c.entries.filter (·.1 ≠ k) = c.entries := by
      rw [List.filter_eq_self]
      intro e he
      simp only [ne_eq, decide_eq_true_eq]
      rintro rfl
      exact hmem (List.mem_map.mpr ⟨e, he, rfl⟩)
    rw [hsame] at hroom hlookup ⊢
    have hfull : c.entries.length = c.cap := by
      have hbounded := hc.bounded
      rw [List.length_cons] at hroom
      omega
    obtain ⟨front, last, hlast⟩ : ∃ front last, c.entries = front ++ [last] := by
      rcases List.eq_nil_or_concat c.entries with hnil | ⟨front, last, hlast⟩
      · have hpositive := hc.positive
        rw [← hfull, hnil] at hpositive
        cases hpositive
      · exact ⟨front, last, hlast.trans (List.concat_eq_append ..)⟩
    have hne : k' ≠ last.1 := by
      rintro rfl
      refine h ?_
      unfold evicts
      rw [if_neg hmem, if_neg (by omega), hlast]
      simp
    have htake : ((k, v) :: c.entries).take c.cap = (k, v) :: front := by
      rw [← hfull, hlast, List.length_append, List.length_singleton, List.take_succ_cons,
        List.take_left]
    rw [htake, ← hlookup, hlast, ← List.cons_append, List.lookup_append]
    have hone : [last].lookup k' = none := by
      rw [List.lookup_cons, beq_eq_false_iff_ne.mpr hne]
      rfl
    rw [hone, Option.or_none]

theorem Sound.get (hc : c.Sound) : (c.get k).2.Sound := by
  unfold LruCache.get
  split
  · exact hc
  · rename_i v h
    have hmem : k ∈ c.entries.map Prod.fst :=
      List.mem_map.mpr ⟨_, AssocMap.mem_of_lookup_eq_some h, rfl⟩
    refine ⟨?_, hc.positive⟩
    have hlt := length_filter_lt hmem
    have hbounded := hc.bounded
    show _ + 1 ≤ c.cap
    omega

theorem Sound.pop (hc : c.Sound) : (c.pop k).Sound :=
  ⟨Nat.le_trans (List.length_filter_le ..) hc.bounded, hc.positive⟩

theorem Sound.put (hc : c.Sound) : (c.put k v).Sound :=
  ⟨List.length_take_le .., hc.positive⟩

end LruCache

/-! ## §2  Checks -/

/-- The counter of an address. -/
def attemptsOf (attempts : LruCache IpAddr ℕ) (ip : IpAddr) : ℕ :=
  (attempts.entries.lookup ip).getD 0

/-- A request whose PIN is checked. -/
structure PinCheck where
  ip : IpAddr
  query : AssocMap String String

/-- The PINs that an address gave, one after the other: right or wrong. -/
def tries (requiredPin : String) (ip : IpAddr) (checks : List PinCheck) : List Bool :=
  checks.filterMap fun c =>
    if c.ip = ip then (c.query.get? "pin").map fun pin => decide (pin = requiredPin) else none

/-- Three wrong PINs, with no right one in between. -/
def LockedOut (requiredPin : String) (ip : IpAddr) (checks : List PinCheck) : Prop :=
  [false, false, false] <:+: tries requiredPin ip checks

/-- How many wrong PINs there are at the end. -/
def wrongsAtEnd (l : List Bool) : ℕ := (l.reverse.takeWhile (· = false)).length

/-- The check drives out the counter of `ip`: a wrong PIN of an address without
a counter, when the cache is full and the counter of `ip` the oldest one. -/
def Forgets (requiredPin : String) (attempts : LruCache IpAddr ℕ) (c : PinCheck) (ip : IpAddr) :
    Prop :=
  ((c.query.get? "pin").any fun pin => pin ≠ requiredPin) = true ∧ attempts.evicts c.ip = some ip

instance (requiredPin : String) (attempts : LruCache IpAddr ℕ) (c : PinCheck) (ip : IpAddr) :
    Decidable (Forgets requiredPin attempts c ip) := inferInstanceAs (Decidable (_ ∧ _))

section Checks

variable {requiredPin : String} {attempts : LruCache IpAddr ℕ} {c : PinCheck} {ip : IpAddr}
  {checks : List PinCheck}

theorem wrongs_append_false (l : List Bool) : wrongsAtEnd (l ++ [false]) = wrongsAtEnd l + 1 := by
  simp [wrongsAtEnd]

theorem wrongs_append_true (l : List Bool) : wrongsAtEnd (l ++ [true]) = 0 := by
  simp [wrongsAtEnd]

/-- Three wrong PINs stand in the history, or at its end. -/
theorem three_wrongs {l : List Bool} {b : Bool} (h : [false, false, false] <:+: l ++ [b]) :
    [false, false, false] <:+: l ∨ 3 ≤ wrongsAtEnd (l ++ [b]) := by
  obtain ⟨before, after, heq⟩ := h
  rcases List.eq_nil_or_concat after with rfl | ⟨after, last, rfl⟩
  · right
    rw [List.append_nil] at heq
    rw [← heq]
    simp [wrongsAtEnd]
  · left
    rw [List.concat_eq_append, ← List.append_assoc] at heq
    exact ⟨before, after, (List.append_inj' heq rfl).1⟩

theorem tries_append_single : tries requiredPin ip (checks ++ [c]) = tries requiredPin ip checks ++
    (if c.ip = ip then (c.query.get? "pin").map fun pin => decide (pin = requiredPin)
      else none).toList := by
  unfold tries
  rw [List.filterMap_append, List.filterMap_cons, List.filterMap_nil]
  by_cases hip : c.ip = ip
  · simp only [if_pos hip]
    cases c.query.get? "pin" <;> rfl
  · simp only [if_neg hip]
    rfl

/-- The counter of an address, if it has not been forgotten: as many wrong PINs
as stand at the end, or enough to be locked out. -/
structure Counted (requiredPin : String) (ip : IpAddr) (attempts : LruCache IpAddr ℕ)
    (checks : List PinCheck) : Prop where
  sound : attempts.Sound
  wrongs : wrongsAtEnd (tries requiredPin ip checks) ≤ attemptsOf attempts ip ∨
    maxPinAttempts ≤ attemptsOf attempts ip
  locked : LockedOut requiredPin ip checks → maxPinAttempts ≤ attemptsOf attempts ip

theorem counted_new {cap : ℕ} (h : 0 < cap) : Counted requiredPin ip (.new cap) [] where
  sound := LruCache.sound_new h
  wrongs := .inl (Nat.zero_le _)
  locked hlocked := by
    have hlength := hlocked.length_le
    simp [tries] at hlength

theorem checkPin_blocked (h : maxPinAttempts ≤ attemptsOf attempts ip)
    {query : AssocMap String String} : checkPin requiredPin attempts query ip =
      (.error (.message .tooManyRequests "Too many requests"), (attempts.get ip).2) := by
  unfold checkPin
  simp only [LruCache.get_fst]
  exact if_pos h

section Open

variable {query : AssocMap String String} {pin : String}

theorem checkPin_missing (h : attemptsOf attempts ip < maxPinAttempts)
    (hpin : query.get? "pin" = none) : checkPin requiredPin attempts query ip =
      (.error (.message .unauthorized "PIN required"), (attempts.get ip).2) := by
  unfold checkPin
  simp only [LruCache.get_fst, hpin]
  exact if_neg (Nat.not_le.mpr h)

theorem checkPin_right (h : attemptsOf attempts ip < maxPinAttempts)
    (hpin : query.get? "pin" = some requiredPin) : checkPin requiredPin attempts query ip =
      (.ok (), (attempts.get ip).2.pop ip) := by
  unfold checkPin
  simp only [LruCache.get_fst, hpin, if_true]
  exact if_neg (Nat.not_le.mpr h)

theorem checkPin_wrong (h : attemptsOf attempts ip < maxPinAttempts)
    (hpin : query.get? "pin" = some pin) (hwrong : pin ≠ requiredPin) :
    checkPin requiredPin attempts query ip = (.error (.message .unauthorized "Invalid PIN"),
      (attempts.get ip).2.put ip (attemptsOf attempts ip + 1)) := by
  unfold checkPin
  simp only [LruCache.get_fst, hpin, if_neg hwrong]
  exact if_neg (Nat.not_le.mpr h)

end Open

theorem attemptsOf_get {x : IpAddr} :
    attemptsOf (attempts.get x).2 ip = attemptsOf attempts ip := by
  unfold attemptsOf
  rw [LruCache.lookup_get]

/-- **One check** of an address changes the counter of `ip` only if it is its
own, or makes the cache forget it. -/
theorem attemptsOf_check_ne (h : attempts.Sound) (hne : c.ip ≠ ip)
    (hkeeps : ¬ Forgets requiredPin attempts c ip) :
    attemptsOf (checkPin requiredPin attempts c.query c.ip).2 ip = attemptsOf attempts ip := by
  by_cases hopen : attemptsOf attempts c.ip < maxPinAttempts
  · cases hpin : c.query.get? "pin" with
    | none =>
        rw [checkPin_missing hopen hpin]
        exact attemptsOf_get
    | some pin =>
        by_cases hright : pin = requiredPin
        · subst hright
          rw [checkPin_right hopen hpin]
          have hpop := LruCache.lookup_pop_ne (c := (attempts.get c.ip).2) (Ne.symm hne)
          exact (congrArg (Option.getD · 0) hpop).trans attemptsOf_get
        · rw [checkPin_wrong hopen hpin hright]
          have hevicts : (attempts.get c.ip).2.evicts c.ip ≠ some ip := by
            intro hevicts
            rw [LruCache.evicts_get] at hevicts
            refine hkeeps ⟨?_, hevicts⟩
            rw [hpin]
            simpa using hright
          have hput := h.get.lookup_put_ne (v := attemptsOf attempts c.ip + 1) (Ne.symm hne) hevicts
          exact (congrArg (Option.getD · 0) hput).trans attemptsOf_get
  · rw [checkPin_blocked (Nat.not_lt.mp hopen)]
    exact attemptsOf_get

theorem sound_check (h : attempts.Sound) :
    (checkPin requiredPin attempts c.query c.ip).2.Sound := by
  by_cases hopen : attemptsOf attempts c.ip < maxPinAttempts
  · cases hpin : c.query.get? "pin" with
    | none =>
        rw [checkPin_missing hopen hpin]
        exact h.get
    | some pin =>
        by_cases hright : pin = requiredPin
        · subst hright
          rw [checkPin_right hopen hpin]
          exact h.get.pop
        · rw [checkPin_wrong hopen hpin hright]
          exact h.get.put
  · rw [checkPin_blocked (Nat.not_lt.mp hopen)]
    exact h.get

/-- A check of the address itself that is still open. -/
theorem Counted.check_open (h : Counted requiredPin c.ip attempts checks)
    (hopen : attemptsOf attempts c.ip < maxPinAttempts) :
    wrongsAtEnd (tries requiredPin c.ip (checks ++ [c])) ≤
      attemptsOf (checkPin requiredPin attempts c.query c.ip).2 c.ip := by
  have hwrongs := h.wrongs.resolve_right (Nat.not_le.mpr hopen)
  rw [tries_append_single, if_pos rfl]
  cases hpin : c.query.get? "pin" with
  | none =>
      rw [checkPin_missing hopen hpin, attemptsOf_get]
      simpa using hwrongs
  | some pin =>
      by_cases hright : pin = requiredPin
      · subst hright
        have hright : decide (pin = pin) = true := decide_eq_true rfl
        simp [wrongs_append_true]
      · rw [checkPin_wrong hopen hpin hright]
        have hput :
            attemptsOf ((attempts.get c.ip).2.put c.ip (attemptsOf attempts c.ip + 1)) c.ip =
              attemptsOf attempts c.ip + 1 := by
          unfold attemptsOf
          rw [LruCache.lookup_put_self h.sound.get.positive]
          rfl
        have hfalse : decide (pin = requiredPin) = false := decide_eq_false hright
        simp only [Option.map_some, hfalse, Option.toList_some, wrongs_append_false, hput]
        omega

/-- **One check** that does not make the cache forget the address. -/
theorem Counted.check (h : Counted requiredPin ip attempts checks)
    (hkeeps : ¬ Forgets requiredPin attempts c ip) :
    Counted requiredPin ip (checkPin requiredPin attempts c.query c.ip).2 (checks ++ [c]) := by
  have hsound : (checkPin requiredPin attempts c.query c.ip).2.Sound := sound_check h.sound
  by_cases hip : c.ip = ip
  · subst hip
    by_cases hopen : attemptsOf attempts c.ip < maxPinAttempts
    · have hwrongs := h.check_open hopen
      refine ⟨hsound, .inl hwrongs, fun hlocked => ?_⟩
      unfold LockedOut at hlocked
      rw [tries_append_single, if_pos rfl] at hlocked hwrongs
      have hnot : ¬ LockedOut requiredPin c.ip checks := fun hlocked =>
        Nat.not_le.mpr hopen (h.locked hlocked)
      cases hpin : c.query.get? "pin" with
      | none =>
          rw [hpin] at hlocked
          refine absurd ?_ hnot
          unfold LockedOut
          simpa using hlocked
      | some pin =>
          rw [hpin] at hlocked hwrongs
          have hthree := (three_wrongs hlocked).resolve_left hnot
          exact Nat.le_trans hthree hwrongs
    · -- an address that is locked out keeps its counter
      have hcount : maxPinAttempts ≤
          attemptsOf (checkPin requiredPin attempts c.query c.ip).2 c.ip := by
        rw [checkPin_blocked (Nat.not_lt.mp hopen), attemptsOf_get]
        exact Nat.not_lt.mp hopen
      exact ⟨hsound, .inr hcount, fun _ => hcount⟩
  · have hsame : tries requiredPin ip (checks ++ [c]) = tries requiredPin ip checks := by
      rw [tries_append_single, if_neg hip]
      simp
    have hcount := attemptsOf_check_ne h.sound hip hkeeps
    refine ⟨hsound, ?_, ?_⟩
    · rw [hsame, hcount]
      exact h.wrongs
    · unfold LockedOut
      rw [hsame, hcount]
      exact h.locked

end Checks

/-! ## §3  Gates -/

section Gates

variable {S T A E O : Type}

/-- How a machine asks its requests for a PIN: which step of a task checks one
and against which PIN, which tasks wait for such a step, and which were let in
by it. -/
structure PinView (S T A : Type) where
  pin : S → Option String
  attempts : S → LruCache IpAddr ℕ
  check? : T → A → Option (PinCheck × String)
  asks? : T → Option String
  letIn? : T → Option IpAddr
  /-- The task of a request that was answered with 429. -/
  refused : T

namespace PinView

variable (V : PinView S T A)

/-- A step that checks no PIN: the counters are left alone, what waits for a
check waits for the PIN of the server, and nobody is let in past it. -/
structure Kept (s : S) (o : Outcome S T O) : Prop where
  pin : V.pin o.shared = V.pin s
  attempts : V.attempts o.shared = V.attempts s
  waiting : ∀ u ∈ o.task :: o.spawned, ∀ requiredPin, V.asks? u = some requiredPin →
    V.pin s = some requiredPin
  letIn : ∀ ip, V.letIn? o.task = some ip → V.pin s = none

/-- A step that checks the PIN of a request. -/
structure Checked (s : S) (c : PinCheck) (requiredPin : String) (o : Outcome S T O) : Prop where
  pin : V.pin o.shared = V.pin s
  attempts : V.attempts o.shared = (checkPin requiredPin (V.attempts s) c.query c.ip).2
  spawned : o.spawned = []
  asks : V.asks? o.task = none
  blocked : (checkPin requiredPin (V.attempts s) c.query c.ip).1 =
    .error (.message .tooManyRequests "Too many requests") → o.task = V.refused
  letIn : ∀ ip, V.letIn? o.task = some ip → c.ip = ip

/-- A task that has nothing to do with a PIN. -/
def free (t : T) : Bool := (V.asks? t).isNone && (V.letIn? t).isNone

variable {V} in
theorem Kept.of_free {s : S} {o : Outcome S T O} (hpin : V.pin o.shared = V.pin s)
    (hattempts : V.attempts o.shared = V.attempts s)
    (hfree : (o.task :: o.spawned).all V.free = true) : V.Kept s o where
  pin := hpin
  attempts := hattempts
  waiting u hu requiredPin hasks := by
    have hfree := List.all_eq_true.mp hfree u hu
    simp [free, hasks] at hfree
  letIn ip hlet := by
    have hfree := List.all_eq_true.mp hfree o.task List.mem_cons_self
    simp [free, hlet] at hfree

end PinView

/-- A machine that asks for a PIN: the steps that check none leave the counters
alone, and let nobody in as long as a PIN is required. -/
structure PinGate (M : Machine S T A E O) extends PinView S T A where
  asks_of_check : ∀ {t a c r}, check? t a = some (c, r) → asks? t = some r
  checked : ∀ {s t a o c r}, M.step s t a = some o → check? t a = some (c, r) →
    toPinView.Checked s c r o
  kept : ∀ {s t a o}, M.step s t a = some o → check? t a = none → toPinView.Kept s o
  letIn_refused : letIn? refused = none
  pin_env : ∀ {s e s' ts}, M.env s e = some (s', ts) → pin s' = pin s
  attempts_env : ∀ {s e s' ts}, M.env s e = some (s', ts) → attempts s' = attempts s
  asks_env : ∀ {s e s' ts}, M.env s e = some (s', ts) → ∀ t ∈ ts, asks? t = none

namespace PinGate

variable {M : Machine S T A E O} (G : PinGate M)

/-- The request that a step checks. -/
def checkAt? (p : Pool S T O) : Label A E → Option (PinCheck × String)
  | .task i a => (p.tasks[i]?).bind fun t => G.check? t a
  | .env _ => none

/-- The machine with the requests that are checked, one after the other. -/
abbrev noted : Pool S T O × List PinCheck → Label A E → Option (Pool S T O × List PinCheck) :=
  recorded M.poolStep fun p l => ((G.checkAt? p l).map Prod.fst).toList

/-- No check makes the gate forget the address. -/
def Remembers (ip : IpAddr) (q : Pool S T O × List PinCheck) (l : Label A E) : Prop :=
  ∀ x ∈ G.checkAt? q.1 l, ¬ Forgets x.2 (G.attempts q.1.shared) x.1 ip

/-- Once an address is locked out, every check of it is answered with 429, and
no request of it is let in. -/
def LocksOut (requiredPin : String) (ip : IpAddr) (q : Pool S T O × List PinCheck) : Prop :=
  LockedOut requiredPin ip q.2 → ∀ (i : ℕ) t a o, q.1.tasks[i]? = some t →
    M.step q.1.shared t a = some o →
      (∀ c r, G.check? t a = some (c, r) → c.ip = ip → o.task = G.refused) ∧
        G.letIn? o.task ≠ some ip

/-- The pool requires this PIN, of the requests that wait for a check too. -/
structure AsksPin (requiredPin : String) (p : Pool S T O) : Prop where
  pin : G.pin p.shared = some requiredPin
  waiting : ∀ t ∈ p.tasks, ∀ r, G.asks? t = some r → r = requiredPin

section Steps

variable {s : S} {t : T} {a : A} {o : Outcome S T O}

theorem pin_step (h : M.step s t a = some o) : G.pin o.shared = G.pin s := by
  cases hcheck : G.check? t a with
  | none => exact (G.kept h hcheck).pin
  | some x => exact (G.checked h hcheck).pin

theorem asks_step (h : M.step s t a = some o) :
    ∀ u ∈ o.task :: o.spawned, ∀ r, G.asks? u = some r → G.pin s = some r := by
  intro u hu r hr
  cases hcheck : G.check? t a with
  | none => exact (G.kept h hcheck).waiting u hu r hr
  | some x =>
      have hchecked := G.checked h hcheck
      rw [hchecked.spawned, List.mem_singleton] at hu
      rw [hu, hchecked.asks] at hr
      cases hr

theorem letIn_step {ip : IpAddr} (h : M.step s t a = some o) (hin : G.letIn? o.task = some ip) :
    G.pin s = none ∨ ∃ c r, G.check? t a = some (c, r) ∧ c.ip = ip := by
  cases hcheck : G.check? t a with
  | none => exact .inl ((G.kept h hcheck).letIn ip hin)
  | some x => exact .inr ⟨x.1, x.2, rfl, (G.checked h hcheck).letIn ip hin⟩

end Steps

variable {G} {requiredPin : String} {p p' : Pool S T O} {l : Label A E}

theorem AsksPin.step (h : G.AsksPin requiredPin p) (hst : M.poolStep p l = some p') :
    G.AsksPin requiredPin p' := by
  cases l with
  | task i a =>
      obtain ⟨t, o, ht, ho, rfl⟩ := poolStep_task.mp hst
      refine ⟨(G.pin_step ho).trans h.pin, fun u hu r hr => ?_⟩
      have hnew : u ∈ o.task :: o.spawned → r = requiredPin := fun hu =>
        Option.some.inj ((G.asks_step ho u hu r hr).symm.trans h.pin)
      rcases mem_advance hu with rfl | hu | hu
      · exact hnew List.mem_cons_self
      · exact h.waiting u hu r hr
      · exact hnew (List.mem_cons_of_mem _ hu)
  | env e =>
      obtain ⟨s, ts, he, rfl⟩ := poolStep_env.mp hst
      refine ⟨(G.pin_env he).trans h.pin, fun u hu r hr => ?_⟩
      rcases List.mem_append.mp hu with hu | hu
      · exact h.waiting u hu r hr
      · rw [G.asks_env he u hu] at hr
        cases hr

/-- What a step leaves of the counters. -/
theorem attempts_step (h : G.AsksPin requiredPin p) (hst : M.poolStep p l = some p') :
    match G.checkAt? p l with
    | none => G.attempts p'.shared = G.attempts p.shared
    | some (c, r) => r = requiredPin ∧ G.attempts p'.shared =
        (checkPin requiredPin (G.attempts p.shared) c.query c.ip).2 := by
  cases l with
  | env e =>
      obtain ⟨s, ts, he, rfl⟩ := poolStep_env.mp hst
      exact G.attempts_env he
  | task i a =>
      obtain ⟨t, o, ht, ho, rfl⟩ := poolStep_task.mp hst
      unfold checkAt?
      simp only [ht, Option.bind_some]
      cases hcheck : G.check? t a with
      | none => exact (G.kept ho hcheck).attempts
      | some x =>
          obtain ⟨c, r⟩ := x
          obtain rfl := h.waiting t (List.mem_of_getElem? ht) r (G.asks_of_check hcheck)
          exact ⟨rfl, (G.checked ho hcheck).attempts⟩

/-- **The counter of an address** that the gate does not forget, in every
run. -/
theorem counted {q : Pool S T O × List PinCheck} {ip : IpAddr} {cap : ℕ}
    (hrun : Run G.noted (G.Remembers ip) (p, []) q) (hp : G.AsksPin requiredPin p)
    (hnew : G.attempts p.shared = .new cap) (hcap : 0 < cap) :
    G.AsksPin requiredPin q.1 ∧ Counted requiredPin ip (G.attempts q.1.shared) q.2 := by
  refine hrun.invariant (I := fun q => G.AsksPin requiredPin q.1 ∧
    Counted requiredPin ip (G.attempts q.1.shared) q.2) ⟨hp, ?_⟩ ?_
  · rw [hnew]
    exact counted_new hcap
  · rintro m l t ⟨hasks, hcounted⟩ hok hst
    obtain ⟨hstep, hchecks⟩ := recorded_eq_some.mp hst
    refine ⟨hasks.step hstep, ?_⟩
    have hattempts := attempts_step hasks hstep
    rw [hchecks]
    cases hcheck : G.checkAt? m.1 l with
    | none =>
        rw [hcheck] at hattempts
        rw [show G.attempts t.1.shared = _ from hattempts]
        simpa using hcounted
    | some x =>
        obtain ⟨c, r⟩ := x
        rw [hcheck] at hattempts
        obtain ⟨rfl, hattempts⟩ := hattempts
        rw [hattempts]
        exact hcounted.check (hok (c, r) hcheck)

/-- **Lockout**, in every run in which the gate does not forget the address. -/
theorem locksOut {q : Pool S T O × List PinCheck} {ip : IpAddr} {cap : ℕ}
    (hrun : Run G.noted (G.Remembers ip) (p, []) q) (hp : G.AsksPin requiredPin p)
    (hnew : G.attempts p.shared = .new cap) (hcap : 0 < cap) :
    G.LocksOut requiredPin ip q := by
  intro hlocked i t a o ht ho
  obtain ⟨hasks, hcounted⟩ := counted hrun hp hnew hcap
  have hrefused : ∀ c r, G.check? t a = some (c, r) → c.ip = ip → o.task = G.refused := by
    intro c r hcheck hip
    obtain rfl := hasks.waiting t (List.mem_of_getElem? ht) r (G.asks_of_check hcheck)
    have hblocked := hcounted.locked hlocked
    rw [← hip] at hblocked
    exact (G.checked ho hcheck).blocked (congrArg Prod.fst (checkPin_blocked hblocked))
  refine ⟨hrefused, fun hin => ?_⟩
  rcases G.letIn_step ho hin with hnone | ⟨c, r, hcheck, hip⟩
  · rw [hasks.pin] at hnone
    cases hnone
  · -- only the address that is checked is let in
    rw [hrefused c r hcheck hip, G.letIn_refused] at hin
    cases hin

end PinGate

end Gates

/-! ## §4  Prepare-upload requests -/

/-- The PIN that a waiting request is checked against. -/
def Task.asksPin? : Task → Option String
  | .prepareUpload (.pin _ _ requiredPin) => some requiredPin
  | _ => none

/-- The address whose request was let through. -/
def Task.letIn? : Task → Option IpAddr
  | .prepareUpload (.body clientInfo) => some clientInfo.ip.ip
  | _ => none

/-- The request that a step checks, and the PIN it is checked against. -/
def uploadCheck? : Task → Act → Option (PinCheck × String)
  | .prepareUpload (.pin clientInfo query requiredPin), .go =>
      some (⟨clientInfo.ip.ip, query⟩, requiredPin)
  | _, _ => none

abbrev uploadView : PinView ServerV2 Task Act where
  pin s := s.pin
  attempts s := s.pinAttempts
  check? := uploadCheck?
  asks? := Task.asksPin?
  letIn? := Task.letIn?
  refused := .answered (.error (.message .tooManyRequests "Too many requests"))

section Upload

variable {X : Externals} {s : ServerV2} {o : Step} {a : Act}

theorem taskStep_checked {t : Task} {c : PinCheck} {r : String}
    (h : taskStep X s t a = some o) (hcheck : uploadCheck? t a = some (c, r)) :
    uploadView.Checked s c r o := by
  cases taskStep_cases h with
  | pinRefused hrefused =>
      cases hcheck
      refine ⟨rfl, congrArg Prod.snd hrefused.symm, rfl, rfl, fun hblocked => ?_, nofun⟩
      rw [Except.error.inj ((congrArg Prod.fst hrefused).symm.trans hblocked)]
  | pinPassed hpassed =>
      cases hcheck
      refine ⟨rfl, congrArg Prod.snd hpassed.symm, rfl, rfl, fun hblocked => ?_,
        fun ip hin => Option.some.inj hin⟩
      cases (congrArg Prod.fst hpassed).symm.trans hblocked
  | _ => cases hcheck

theorem taskStep_pinKept {t : Task} (h : taskStep X s t a = some o)
    (hcheck : uploadCheck? t a = none) : uploadView.Kept s o := by
  cases taskStep_cases h with
  | pinRefused | pinPassed => cases hcheck
  | noPin hnone =>
      refine ⟨rfl, rfl, ?_, fun _ _ => hnone⟩
      rw [List.forall_mem_singleton]
      exact nofun
  | needsPin hsome =>
      refine ⟨rfl, rfl, ?_, nofun⟩
      rw [List.forall_mem_singleton]
      exact fun r hr => hsome.trans hr
  | _ => exact .of_free rfl rfl rfl

theorem envStep_pin {e : Env} {s' : ServerV2} {ts : List Task} (h : envStep s e = some (s', ts)) :
    s'.pin = s.pin ∧ s'.pinAttempts = s.pinAttempts ∧ ∀ t ∈ ts, t.asksPin? = none := by
  cases envStep_cases h <;> exact ⟨rfl, rfl, by simp [Task.asksPin?]⟩

end Upload

/-- The requests that offer files. -/
def uploadGate (X : Externals) : PinGate (serverMachine X) where
  toPinView := uploadView
  asks_of_check h := by
    change uploadCheck? _ _ = _ at h
    unfold uploadCheck? at h
    split at h
    · cases h
      rfl
    · cases h
  checked := taskStep_checked
  kept := taskStep_pinKept
  letIn_refused := rfl
  pin_env h := (envStep_pin h).1
  attempts_env h := (envStep_pin h).2.1
  asks_env h := (envStep_pin h).2.2

/-! ## §5  Prepare-download requests -/

namespace WebSend

/-- The PIN that a waiting request is checked against. -/
def WebTask.asksPin? : WebTask → Option String
  | .prepareDownload (.pin _ _ _ requiredPin) => some requiredPin
  | _ => none

/-- The address whose request was let through. -/
def WebTask.letIn? : WebTask → Option IpAddr
  | .prepareDownload (.insert clientInfo _) => some clientInfo.ip.ip
  | _ => none

/-- The request that a step checks, and the PIN it is checked against. -/
def downloadCheck? : WebTask → WebAct → Option (PinCheck × String)
  | .prepareDownload (.pin clientInfo query _ requiredPin), .go =>
      some (⟨clientInfo.ip.ip, query⟩, requiredPin)
  | _, _ => none

abbrev downloadView : PinView WebPageState WebTask WebAct where
  pin s := s.pin
  attempts s := s.pinAttempts
  check? := downloadCheck?
  asks? := WebTask.asksPin?
  letIn? := WebTask.letIn?
  refused := .answered (.error (.message .tooManyRequests "Too many requests"))

section Download

variable {ipText : PeerIp → String} {s : WebPageState} {o : WebStep} {a : WebAct}

theorem askPin_pinKept {clientInfo : RequestClientInfo} {query : AssocMap String String}
    {userAgent : Option String} : downloadView.Kept s (askPin s clientInfo query userAgent) := by
  unfold askPin
  split
  · rename_i hnone
    refine ⟨rfl, rfl, ?_, fun _ _ => hnone⟩
    rw [List.forall_mem_singleton]
    exact nofun
  · rename_i requiredPin hsome
    refine ⟨rfl, rfl, ?_, nofun⟩
    rw [List.forall_mem_singleton]
    intro r hr
    exact hsome.trans hr

theorem clearStep_pinKept {ctx : DownloadCtx} {t : WebTask} (h : downloadView.free t = true) :
    downloadView.Kept s (clearStep s ctx t) := by
  have hfree : [t].all downloadView.free = true := by simpa using h
  rcases clearStep_cases s ctx t with heq | heq
  · rw [heq]
    exact .of_free rfl rfl hfree
  · rw [heq]
    exact .of_free rfl rfl hfree

theorem webTaskStep_checked {t : WebTask} {c : PinCheck} {r : String}
    (h : webTaskStep ipText s t a = some o) (hcheck : downloadCheck? t a = some (c, r)) :
    downloadView.Checked s c r o := by
  unfold downloadCheck? at hcheck
  split at hcheck
  · cases hcheck
    simp only [webTaskStep, prepareDownloadStep] at h
    split at h
    · rename_i err herr
      cases h
      refine ⟨rfl, rfl, rfl, rfl, fun hblocked => ?_, nofun⟩
      rw [Except.error.inj (herr.symm.trans hblocked)]
    · rename_i hok
      cases h
      refine ⟨rfl, rfl, rfl, rfl, fun hblocked => ?_, fun ip hin => Option.some.inj hin⟩
      cases hok.symm.trans hblocked
  · cases hcheck

theorem prepareDownloadStep_pinKept {pc : PrepareDownload}
    (h : prepareDownloadStep ipText s pc a = some o)
    (hcheck : downloadCheck? (.prepareDownload pc) a = none) : downloadView.Kept s o := by
  cases a with
  | drop =>
      cases pc <;> cases h <;> exact .of_free rfl rfl rfl
  | go =>
      cases pc with
      | start clientInfo query userAgent =>
          simp only [prepareDownloadStep] at h
          split at h
          · cases h
            exact .of_free rfl rfl rfl
          · cases h
            exact askPin_pinKept
      | session clientInfo query userAgent sessionId =>
          simp only [prepareDownloadStep] at h
          split at h
          · cases h
            exact .of_free rfl rfl rfl
          · cases h
            exact askPin_pinKept
      | pin clientInfo query userAgent requiredPin => cases hcheck
      | insert clientInfo userAgent =>
          cases h
          exact .of_free rfl rfl rfl
      | send ctx =>
          simp only [prepareDownloadStep] at h
          split at h <;> cases h <;> exact .of_free rfl rfl rfl
      | decision ctx =>
          simp only [prepareDownloadStep] at h
          split at h <;> cases h <;> exact .of_free rfl rfl rfl
      | accept ctx =>
          cases h
          exact .of_free rfl rfl rfl
      | clear ctx =>
          cases h
          exact clearStep_pinKept rfl
      | list ip sessionId =>
          cases h
          exact .of_free rfl rfl rfl

theorem downloadStep_pinKept {pc : Download} (h : downloadStep s pc a = some o) :
    downloadView.Kept s o := by
  cases a with
  | drop => cases pc <;> cases h <;> exact .of_free rfl rfl rfl
  | go =>
      cases pc with
      | session clientInfo query sessionId =>
          simp only [downloadStep] at h
          split at h
          · cases h
            unfold requestFile
            split
            · exact .of_free rfl rfl rfl
            · split <;> exact .of_free rfl rfl rfl
          · cases h
            exact .of_free rfl rfl rfl
      | _ =>
          simp only [downloadStep] at h
          split at h <;> cases h <;> exact .of_free rfl rfl rfl

theorem webTaskStep_pinKept {t : WebTask} (h : webTaskStep ipText s t a = some o)
    (hcheck : downloadCheck? t a = none) : downloadView.Kept s o := by
  cases t with
  | prepareDownload pc => exact prepareDownloadStep_pinKept h hcheck
  | download pc => exact downloadStep_pinKept h
  | cleanup ctx =>
      cases a with
      | go =>
          cases h
          exact clearStep_pinKept rfl
      | drop => cases h
  | answered result => cases h
  | completed => cases h
  | dropped => cases h

theorem webEnvStep_pin {e : WebEnv} {s' : WebPageState} {ts : List WebTask}
    (h : webEnvStep s e = some (s', ts)) :
    s'.pin = s.pin ∧ s'.pinAttempts = s.pinAttempts ∧ ∀ t ∈ ts, t.asksPin? = none := by
  cases e <;> simp only [webEnvStep, Option.some.injEq, Option.map_eq_some_iff] at h <;>
    first
      | (cases h; exact ⟨rfl, rfl, by simp [WebTask.asksPin?]⟩)
      | (obtain ⟨channels, -, h⟩ := h; cases h; exact ⟨rfl, rfl, by simp⟩)
      | (split at h; cases h; cases h; exact ⟨rfl, rfl, by simp⟩)

end Download

/-- The requests of browsers. -/
def downloadGate (ipText : PeerIp → String) : PinGate (webMachine ipText) where
  toPinView := downloadView
  asks_of_check h := by
    change downloadCheck? _ _ = _ at h
    unfold downloadCheck? at h
    split at h
    · cases h
      rfl
    · cases h
  checked := webTaskStep_checked
  kept := webTaskStep_pinKept
  letIn_refused := rfl
  pin_env h := (webEnvStep_pin h).1
  attempts_env h := (webEnvStep_pin h).2.1
  asks_env h := (webEnvStep_pin h).2.2

end WebSend

/-! ## §6  Every run -/

/-- **PIN lockout** at both endpoints, of an address whose counter the cache
does not drop. -/
theorem pin_lockout (X : Externals) (ipText : PeerIp → String) (requiredPin : String)
    (ip : IpAddr) :
    (∀ verify cap q, Run (uploadGate X).noted ((uploadGate X).Remembers ip)
      (ServerPool.init (some requiredPin) verify cap, []) q →
        (uploadGate X).LocksOut requiredPin ip q) ∧
    ∀ files cap q, Run (WebSend.downloadGate ipText).noted
      ((WebSend.downloadGate ipText).Remembers ip)
      (WebSend.WebPool.init files (some requiredPin) cap, []) q →
        (WebSend.downloadGate ipText).LocksOut requiredPin ip q := by
  constructor
  · intro verify cap q hrun
    have hasks : (uploadGate X).AsksPin requiredPin
        (ServerPool.init (some requiredPin) verify cap) :=
      ⟨rfl, fun t ht => absurd ht List.not_mem_nil⟩
    have hnew : (uploadGate X).attempts (ServerPool.init (some requiredPin) verify cap).shared =
        .new 200 := rfl
    exact PinGate.locksOut hrun hasks hnew (by decide)
  · intro files cap q hrun
    have hasks : (WebSend.downloadGate ipText).AsksPin requiredPin
        (WebSend.WebPool.init files (some requiredPin) cap) :=
      ⟨rfl, fun t ht => absurd ht List.not_mem_nil⟩
    have hnew : (WebSend.downloadGate ipText).attempts
        (WebSend.WebPool.init files (some requiredPin) cap).shared = .new 200 := rfl
    exact PinGate.locksOut hrun hasks hnew (by decide)

namespace Sample

/-- The client with the address `n`. -/
def client (n : ℕ) : RequestClientInfo := ⟨⟨.v4 (.ofNat 32 n), none⟩, none⟩

/-- A client gives a wrong PIN, in task `i`. -/
def guess (i n : ℕ) : List ServerLabel :=
  [.env (.prepareUpload (client n) [("pin", "0000")]), .task i .go, .task i .go]

end Sample

instance (X : Externals) (ip : IpAddr) (q : ServerPool × List PinCheck) (l : ServerLabel) :
    Decidable ((uploadGate X).Remembers ip q l) :=
  match h : (uploadGate X).checkAt? q.1 l with
  | none => .isTrue fun x hx => by rw [h] at hx; cases hx
  | some x => decidable_of_iff (¬ Forgets x.2 ((uploadGate X).attempts q.1.shared) x.1 ip) (by
      unfold PinGate.Remembers
      simp only [h, Option.mem_def, Option.some.injEq, forall_eq'])

/-- A client is locked out after its third wrong PIN. -/
theorem pin_lockout_after_three : ∃ q, Run (uploadGate .unary).noted
    ((uploadGate .unary).Remembers (Sample.client 0).ip.ip)
    (ServerPool.init (some "1234") true 16, []) q ∧
      LockedOut "1234" (Sample.client 0).ip.ip q.2 ∧
      (uploadGate .unary).LocksOut "1234" (Sample.client 0).ip.ip q := by
  obtain ⟨q, hq, hcheck⟩ := exists_of_exec_any (uploadGate .unary).noted
    (ServerPool.init (some "1234") true 16, [])
    (Sample.guess 0 0 ++ Sample.guess 1 0 ++ Sample.guess 2 0)
    (fun q => tries "1234" (Sample.client 0).ip.ip q.2 = [false, false, false]) rfl
  have htries := of_decide_eq_true hcheck
  have hrun : Run (uploadGate .unary).noted
      ((uploadGate .unary).Remembers (Sample.client 0).ip.ip)
      (ServerPool.init (some "1234") true 16, []) q := run_of_exec hq (by decide)
  have hlocked : LockedOut "1234" (Sample.client 0).ip.ip q.2 := ⟨[], [], htries.symm⟩
  exact ⟨q, hrun, hlocked,
    (pin_lockout .unary (fun _ => "") "1234" (Sample.client 0).ip.ip).1 true 16 q hrun⟩

/-! ## §7  An address that is forgotten -/

/-- The counters after some checks. -/
def checkAll (requiredPin : String) (attempts : LruCache IpAddr ℕ) (checks : List PinCheck) :
    LruCache IpAddr ℕ :=
  checks.foldl (fun attempts c => (checkPin requiredPin attempts c.query c.ip).2) attempts

/-- The request gives a wrong PIN. -/
def PinCheck.wrong (requiredPin : String) (c : PinCheck) : Prop :=
  ∃ pin, c.query.get? "pin" = some pin ∧ pin ≠ requiredPin

section Forgotten

variable {requiredPin : String} {attempts : LruCache IpAddr ℕ} {ip : IpAddr}

/-- A wrong PIN of an address without a counter. -/
theorem checkPin_fresh {c : PinCheck} (hwrong : c.wrong requiredPin)
    (hfresh : c.ip ∉ attempts.entries.map Prod.fst) :
    (checkPin requiredPin attempts c.query c.ip).2 =
      ⟨attempts.cap, ((c.ip, 1) :: attempts.entries).take attempts.cap⟩ := by
  obtain ⟨pin, hpin, hne⟩ := hwrong
  have hlookup : attempts.entries.lookup c.ip = none := by
    rw [List.lookup_eq_none_iff]
    intro e he
    refine bne_iff_ne.mpr fun heq => hfresh ?_
    rw [heq]
    exact List.mem_map_of_mem he
  have hcount : attemptsOf attempts c.ip = 0 := by
    unfold attemptsOf
    rw [hlookup]
    rfl
  have hget : (attempts.get c.ip).2 = attempts := by
    unfold LruCache.get
    rw [hlookup]
  have hfilter : attempts.entries.filter (·.1 ≠ c.ip) = attempts.entries := by
    rw [List.filter_eq_self]
    intro e he
    simp only [ne_eq, decide_eq_true_eq]
    rintro heq
    exact hfresh (heq ▸ List.mem_map_of_mem he)
  rw [checkPin_wrong (by rw [hcount]; decide) hpin hne, hget, hcount]
  unfold LruCache.put
  rw [hfilter]

/-- Wrong PINs of addresses without counters push the others back. -/
theorem checkAll_fresh {checks : List PinCheck} (hbounded : attempts.entries.length ≤ attempts.cap)
    (hwrong : ∀ c ∈ checks, c.wrong requiredPin)
    (hfresh : (checks.map PinCheck.ip ++ attempts.entries.map Prod.fst).Nodup) :
    checkAll requiredPin attempts checks = ⟨attempts.cap,
      ((checks.reverse.map fun c : PinCheck => (c.ip, 1)) ++ attempts.entries).take
        attempts.cap⟩ := by
  induction checks generalizing attempts with
  | nil =>
      show attempts = _
      rw [List.reverse_nil, List.map_nil, List.nil_append, List.take_of_length_le hbounded]
  | cons c checks ih =>
      have hnotMem : c.ip ∉ attempts.entries.map Prod.fst := by
        rw [List.map_cons, List.cons_append, List.nodup_cons] at hfresh
        exact fun hmem => hfresh.1 (List.mem_append_right _ hmem)
      show checkAll requiredPin (checkPin requiredPin attempts c.query c.ip).2 checks = _
      rw [checkPin_fresh (hwrong c List.mem_cons_self) hnotMem,
        ih (List.length_take_le ..) (fun c hc => hwrong c (List.mem_cons_of_mem _ hc))]
      · simp only [List.reverse_cons, List.map_append, List.map_cons, List.map_nil,
          List.append_assoc, List.cons_append, List.nil_append]
        congr 1
        rw [List.take_append, List.take_append, List.take_take]
        congr 2
        omega
      · -- the new counter is none of those to come
        have hsub : (checks.map PinCheck.ip ++ (c.ip :: attempts.entries.map Prod.fst)).Nodup :=
          (List.perm_middle.nodup_iff).mpr hfresh
        refine hsub.sublist (List.Sublist.append_left ?_ _)
        exact (List.take_sublist _ _).map Prod.fst

/-- **An address is forgotten** once as many others gave a wrong PIN as the
cache holds counters. -/
theorem attemptsOf_forgotten {checks : List PinCheck}
    (hbounded : attempts.entries.length ≤ attempts.cap)
    (hwrong : ∀ c ∈ checks, c.wrong requiredPin)
    (hfresh : (checks.map PinCheck.ip ++ attempts.entries.map Prod.fst).Nodup)
    (hmany : attempts.cap ≤ checks.length) (hip : ip ∉ checks.map PinCheck.ip) :
    attemptsOf (checkAll requiredPin attempts checks) ip = 0 := by
  rw [checkAll_fresh hbounded hwrong hfresh]
  unfold attemptsOf
  rw [List.take_append_of_le_length (by simpa using hmany)]
  have hnone :
      ((checks.reverse.map fun c : PinCheck => (c.ip, 1)).take attempts.cap).lookup ip = none := by
    rw [List.lookup_eq_none_iff]
    intro e he
    obtain ⟨c, hc, rfl⟩ := List.mem_map.mp (List.mem_of_mem_take he)
    refine bne_iff_ne.mpr fun heq => hip ?_
    rw [heq]
    exact List.mem_map_of_mem (List.mem_reverse.mp hc)
  rw [hnone]
  rfl

end Forgotten

section Guesses

variable {X : Externals} {requiredPin : String} {p : ServerPool} {checks : List PinCheck}

theorem noted_reach {q : ServerPool × List PinCheck} {l : ServerLabel} {p' : ServerPool}
    (h : Reach (uploadGate X).noted q (p, checks)) (hst : serverStep X p l = some p') :
    Reach (uploadGate X).noted q
      (p', checks ++ (((uploadGate X).checkAt? p l).map Prod.fst).toList) :=
  h.snoc trivial (recorded_eq_some.mpr ⟨hst, rfl⟩)

/-- A task takes a step, and may be checked by it. -/
theorem noted_task {q : ServerPool × List PinCheck} {i : ℕ} {a : Act} {t : Task} {o : Step}
    (h : Reach (uploadGate X).noted q (p, checks)) (ht : p.tasks[i]? = some t)
    (ho : taskStep X p.shared t a = some o) : Reach (uploadGate X).noted q
      (p.advance i o, checks ++ ((uploadCheck? t a).map Prod.fst).toList) := by
  have hcheck : (uploadGate X).checkAt? p (.task i a) = uploadCheck? t a := by
    unfold PinGate.checkAt?
    simp only [ht, Option.bind_some]
    rfl
  rw [← hcheck]
  exact noted_reach h (poolStep_task.mpr ⟨t, o, ht, ho, rfl⟩)

variable (X checks)

/-- A request comes as far as the check of its PIN. -/
theorem reach_waiting (hpin : p.shared.pin = some requiredPin) (client : RequestClientInfo)
    (query : List (String × String)) : ∃ p', Reach (uploadGate X).noted (p, checks) (p', checks) ∧
      p'.shared = p.shared ∧ p'.tasks[p.tasks.length]? =
        some (.prepareUpload (.pin client (parseQuery query) requiredPin)) := by
  have harrives : Reach (uploadGate X).noted (p, checks)
      (p.enter p.shared [.prepareUpload (.start client (parseQuery query))], checks ++ []) :=
    noted_reach (l := .env (.prepareUpload client query)) .refl rfl
  have htask : (p.enter p.shared [.prepareUpload (.start client (parseQuery query))]).tasks[
      p.tasks.length]? = some (.prepareUpload (.start client (parseQuery query))) :=
    List.getElem?_concat_length ..
  have hstart : taskStep X (p.enter p.shared [.prepareUpload (.start client
      (parseQuery query))]).shared (.prepareUpload (.start client (parseQuery query))) .go =
      some { shared := p.shared
             task := .prepareUpload (.pin client (parseQuery query) requiredPin) } := by
    show prepareUploadStep X p.shared (.start client (parseQuery query)) .go = _
    simp only [prepareUploadStep, hpin]
  have hreach := noted_task harrives htask hstart
  simp only [uploadCheck?, Option.map_none, Option.toList_none, List.append_nil] at hreach
  refine ⟨_, hreach, rfl, ?_⟩
  have hlen := (List.getElem?_eq_some_iff.mp htask).1
  show (_ ++ [])[_]? = _
  rw [List.append_nil, List.getElem?_set_self hlen]

/-- A request whose PIN is checked. -/
theorem reach_guess (hpin : p.shared.pin = some requiredPin) (client : RequestClientInfo)
    (query : List (String × String)) : ∃ p', Reach (uploadGate X).noted (p, checks)
      (p', checks ++ [⟨client.ip.ip, parseQuery query⟩]) ∧ p'.shared.pin = some requiredPin ∧
      p'.shared.pinAttempts = (checkPin requiredPin p.shared.pinAttempts (parseQuery query)
        client.ip.ip).2 := by
  obtain ⟨p₁, hreach, hshared, htask⟩ := reach_waiting X checks hpin client query
  obtain ⟨o, ho⟩ : ∃ o, taskStep X p₁.shared
      (.prepareUpload (.pin client (parseQuery query) requiredPin)) .go = some o := by
    show ∃ o, prepareUploadStep X p₁.shared (.pin client (parseQuery query) requiredPin) .go =
      some o
    simp only [prepareUploadStep]
    split <;> exact ⟨_, rfl⟩
  have hchecked := taskStep_checked ho rfl
  rw [hshared] at hchecked
  exact ⟨_, noted_task hreach htask ho, hchecked.pin.trans hpin, hchecked.attempts⟩

/-- Requests one after the other. -/
theorem reach_guesses (hpin : p.shared.pin = some requiredPin)
    (guesses : List (RequestClientInfo × List (String × String))) :
    ∃ p', Reach (uploadGate X).noted (p, checks)
      (p', checks ++ guesses.map fun g => ⟨g.1.ip.ip, parseQuery g.2⟩) ∧
      p'.shared.pin = some requiredPin ∧ p'.shared.pinAttempts = checkAll requiredPin
        p.shared.pinAttempts (guesses.map fun g => ⟨g.1.ip.ip, parseQuery g.2⟩) := by
  induction guesses generalizing p checks with
  | nil => exact ⟨p, by simpa using .refl, hpin, rfl⟩
  | cons g guesses ih =>
      obtain ⟨p₁, hreach₁, hpin₁, hattempts₁⟩ := reach_guess X checks hpin g.1 g.2
      obtain ⟨p₂, hreach₂, hpin₂, hattempts₂⟩ :=
        ih (checks ++ [⟨g.1.ip.ip, parseQuery g.2⟩]) hpin₁
      refine ⟨p₂, ?_, hpin₂, ?_⟩
      · rw [List.map_cons, List.append_cons]
        exact hreach₁.trans hreach₂
      · rw [hattempts₂, hattempts₁]
        rfl

end Guesses

namespace Sample

/-- A check of a PIN of a client. -/
def pinCheck (n : ℕ) (pin : String) : PinCheck :=
  ⟨(client n).ip.ip, parseQuery [("pin", pin)]⟩

/-- Three wrong PINs of one client, and one of each of two hundred others. -/
def guesses : List (RequestClientInfo × List (String × String)) :=
  List.replicate 3 (client 0, [("pin", "0000")]) ++
    (List.range 200).map fun n => (client (n + 1), [("pin", "0000")])

/-- The checks of the others. -/
def others : List PinCheck := (List.range 200).map fun n => pinCheck (n + 1) "0000"

theorem checks_guesses : guesses.map (fun g => ⟨g.1.ip.ip, parseQuery g.2⟩) =
    List.replicate 3 (pinCheck 0 "0000") ++ others := by
  unfold guesses others
  rw [List.map_append, List.map_map]
  rfl

theorem pinCheck_injective {m n : ℕ} (hm : m < 2 ^ 32) (hn : n < 2 ^ 32) {pin pin' : String}
    (h : (pinCheck m pin).ip = (pinCheck n pin').ip) : m = n := by
  have hnat : m % 2 ^ 32 = n % 2 ^ 32 := congrArg BitVec.toNat (IpAddr.v4.inj h)
  rwa [Nat.mod_eq_of_lt hm, Nat.mod_eq_of_lt hn] at hnat

theorem ips_others : (others.map PinCheck.ip).Nodup ∧ (pinCheck 0 "0000").ip ∉
    others.map PinCheck.ip := by
  unfold others
  rw [List.map_map]
  constructor
  · refine List.Nodup.map_on (fun m hm n hn heq => ?_) List.nodup_range
    have hm := List.mem_range.mp hm
    have hn := List.mem_range.mp hn
    have hsame := pinCheck_injective (by omega) (by omega) heq
    omega
  · intro hmem
    obtain ⟨n, hn, heq⟩ := List.mem_map.mp hmem
    have hn := List.mem_range.mp hn
    have hsame := pinCheck_injective (by omega) (by omega) heq
    omega

theorem wrong_pinCheck (n : ℕ) : (pinCheck n "0000").wrong "1234" :=
  ⟨"0000", rfl, by decide⟩

/-- Nothing is left of the three wrong PINs. -/
theorem attemptsOf_guesses : attemptsOf (checkAll "1234" (.new 200)
    (List.replicate 3 (pinCheck 0 "0000") ++ others)) (client 0).ip.ip = 0 := by
  have hthree : checkAll "1234" (.new 200) (List.replicate 3 (pinCheck 0 "0000")) =
      ⟨200, [((client 0).ip.ip, 3)]⟩ := rfl
  have happend : checkAll "1234" (.new 200) (List.replicate 3 (pinCheck 0 "0000") ++ others) =
      checkAll "1234" ⟨200, [((client 0).ip.ip, 3)]⟩ others := by
    rw [← hthree]
    exact List.foldl_append ..
  obtain ⟨hnodup, hnotMem⟩ := ips_others
  rw [happend]
  refine attemptsOf_forgotten (by decide) (fun c hc => ?_) ?_ ?_ hnotMem
  · obtain ⟨n, -, rfl⟩ := List.mem_map.mp hc
    exact wrong_pinCheck (n + 1)
  · exact List.nodup_append_comm.mpr (List.nodup_cons.mpr ⟨hnotMem, hnodup⟩)
  · have hlength : others.length = 200 := by
      unfold others
      rw [List.length_map, List.length_range]
    exact Nat.le_of_eq hlength.symm

theorem lockedOut_guesses : LockedOut "1234" (client 0).ip.ip
    (List.replicate 3 (pinCheck 0 "0000") ++ others) := by
  refine ⟨[], tries "1234" (client 0).ip.ip others, ?_⟩
  unfold tries
  rw [List.filterMap_append]
  rfl

end Sample

/-- A client that gave three wrong PINs, and that the cache has forgotten since,
is let in with the right one. -/
theorem pin_lockout_forgotten : ∃ q, Reach (uploadGate .unary).noted
    (ServerPool.init (some "1234") true 16, []) q ∧
      LockedOut "1234" (Sample.client 0).ip.ip q.2 ∧
      ¬ (uploadGate .unary).LocksOut "1234" (Sample.client 0).ip.ip q := by
  have hpin : (ServerPool.init (some "1234") true 16).shared.pin = some "1234" := rfl
  obtain ⟨p, hguesses, hpin, hattempts⟩ :=
    reach_guesses .unary [] hpin Sample.guesses
  rw [Sample.checks_guesses] at hguesses hattempts
  rw [List.nil_append] at hguesses
  obtain ⟨p', hwaiting, hshared, htask⟩ := reach_waiting .unary
    (List.replicate 3 (Sample.pinCheck 0 "0000") ++ Sample.others) hpin (Sample.client 0)
    [("pin", "1234")]
  refine ⟨_, hguesses.trans hwaiting, Sample.lockedOut_guesses, fun h => ?_⟩
  have hopen : attemptsOf p'.shared.pinAttempts (Sample.client 0).ip.ip < maxPinAttempts := by
    rw [hshared, hattempts]
    show attemptsOf (checkAll "1234" (.new 200) _) _ < _
    rw [Sample.attemptsOf_guesses]
    decide
  have hright : (parseQuery [("pin", "1234")]).get? "pin" = some "1234" := rfl
  have hstep : taskStep .unary p'.shared (.prepareUpload (.pin (Sample.client 0)
      (parseQuery [("pin", "1234")]) "1234")) .go = some
        { shared := { p'.shared with
            pinAttempts := (p'.shared.pinAttempts.get (Sample.client 0).ip.ip).2.pop
              (Sample.client 0).ip.ip }
          task := .prepareUpload (.body (Sample.client 0)) } := by
    show prepareUploadStep .unary p'.shared (.pin (Sample.client 0)
      (parseQuery [("pin", "1234")]) "1234") .go = _
    simp only [prepareUploadStep, checkPin_right hopen hright]
  exact (h Sample.lockedOut_guesses _ _ Act.go _ htask hstep).2 rfl

end FireBoxTransfer
