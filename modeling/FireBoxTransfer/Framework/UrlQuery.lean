import FireBoxTransfer.Framework.AssocMap
import FireBoxTransfer.Framework.PercentEncoding
import Mathlib.Data.List.DropRight

/-!
# Queries of URLs

A program writes names and values into the query of a URL. The parser of URLs trims the text
of the URL, drops what breaks a line and cuts a fragment off; the reader of a form splits the
query where it finds its separators. The values come back exactly if none of this concerns
them.
-/

namespace UrlQuery

/-! ## §1  Forms -/

def formText (bytes : List UInt8) : String :=
  String.ofList (fromUtf8Lossy (percentDecode (bytes.map plusToSpace)))

/-- The name ends at the first sign of equality. -/
def formEntry (bytes : List UInt8) : String × String :=
  (formText (bytes.takeWhile (· ≠ 0x3D)), formText ((bytes.dropWhile (· ≠ 0x3D)).drop 1))

/-- The names and values of a form, in their order. -/
def formParse (bytes : List UInt8) : List (String × String) :=
  ((bytes.splitOn 0x26).filter fun part => !part.isEmpty).map formEntry

/-- What is read in the text of a form that was encoded. -/
def entries (cs : List Char) : List (String × String) := formParse (wire cs)

def textOf (cs : List Char) : String := String.ofList (fromUtf8Lossy (decoded cs))

theorem mem_wire_iff {sep : Char} (hsep : sep = '&' ∨ sep = '=') (cs : List Char) :
    UInt8.ofNat sep.toNat ∈ wire cs ↔ sep ∈ cs := by
  have hsigns : UInt8.ofNat sep.toNat = 0x26 ∨ UInt8.ofNat sep.toNat = 0x3D := by
    rcases hsep with rfl | rfl
    · exact .inl (by decide)
    · exact .inr (by decide)
  have hsep' : inQuerySet sep = false ∧ sep.toNat < 0x80 := by
    rcases hsep with rfl | rfl <;> decide
  induction cs with
  | nil => exact iff_of_false nofun nofun
  | cons c cs ih =>
      rw [wire_cons, List.mem_append, List.mem_cons]
      refine or_congr ?_ ih
      cases hset : inQuerySet c with
      | true =>
          refine iff_of_false (fun hmem => ?_) ?_
          · rw [wire_of_inQuerySet hset] at hmem
            obtain ⟨b, -, hb⟩ := List.mem_flatMap.mp hmem
            exact mem_encoded (hsigns.imp_right .inr) hb
          · rintro rfl
            rw [hset] at hsep'
            cases hsep'.1
      | false =>
          have hbound := not_inQuerySet hset
          rw [wire_of_not_inQuerySet hset, List.mem_singleton]
          constructor
          · intro heq
            have hnat := congrArg UInt8.toNat heq
            rw [UInt8.toNat_ofNat', UInt8.toNat_ofNat', Nat.mod_eq_of_lt (by omega),
              Nat.mod_eq_of_lt (by omega)] at hnat
            exact Char.toNat_inj.mp hnat
          · rintro rfl
            rfl

/-- A form is read part by part. -/
theorem entries_append (cs ds : List Char) :
    entries (cs ++ '&' :: ds) = entries cs ++ entries ds := by
  have hsign : wire ['&'] = [0x26] := by decide
  unfold entries formParse
  rw [wire_append, wire_cons, hsign, List.singleton_append, List.splitOn_append_cons_self,
    List.filter_append, List.map_append]

/-- The part before a separator, and what comes after. -/
theorem takeWhile_append_cons {α : Type*} [DecidableEq α] {sep : α} {xs : List α}
    (h : sep ∉ xs) (ys : List α) : (xs ++ sep :: ys).takeWhile (· ≠ sep) = xs ∧
      (xs ++ sep :: ys).dropWhile (· ≠ sep) = sep :: ys := by
  have hxs : ∀ x ∈ xs, decide (x ≠ sep) = true := by
    intro x hx
    rw [decide_eq_true_eq]
    rintro rfl
    exact h hx
  rw [List.takeWhile_append_of_pos hxs, List.dropWhile_append_of_pos hxs, List.takeWhile_cons,
    List.dropWhile_cons]
  simp

theorem entries_of_notMem {cs : List Char} (h : '&' ∉ cs) (hne : cs ≠ []) :
    entries cs = [formEntry (wire cs)] := by
  have hsep : (0x26 : UInt8) ∉ wire cs := fun hmem => h ((mem_wire_iff (.inl rfl) cs).mp hmem)
  have hwire : wire cs ≠ [] := by
    cases cs with
    | nil => exact absurd rfl hne
    | cons c cs =>
        obtain ⟨b, bytes, hb, -⟩ := wire_head c
        rw [wire_cons]
        intro hnil
        rw [(List.append_eq_nil_iff.mp hnil).1] at hb
        cases hb
  unfold entries formParse
  rw [List.splitOn_eq_singleton hsep, List.filter_cons, List.filter_nil]
  simp [hwire]

/-- **A name and its value**, where neither ends the other. -/
theorem entries_pair {name value : List Char} (hname : '&' ∉ name) (hequal : '=' ∉ name)
    (hvalue : '&' ∉ value) :
    entries (name ++ '=' :: value) = [(textOf name, textOf value)] := by
  have hmem : '&' ∉ name ++ '=' :: value := by
    rw [List.mem_append, List.mem_cons]
    rintro (h | h | h)
    · exact hname h
    · cases h
    · exact hvalue h
  have hsign : wire ['='] = [0x3D] := by decide
  have hsep : (0x3D : UInt8) ∉ wire name :=
    fun hmem => hequal ((mem_wire_iff (.inr rfl) name).mp hmem)
  obtain ⟨htake, hdrop⟩ := takeWhile_append_cons hsep (wire value)
  rw [entries_of_notMem hmem (by simp), wire_append, wire_cons, hsign, List.singleton_append]
  unfold formEntry
  rw [htake, hdrop]
  rfl

/-! ## §2  Names and values of a form -/

theorem weight_textOf (cs : List Char) : weight (textOf cs).toList ≤ weight cs := by
  unfold textOf
  rw [String.toList_ofList, weight_fromUtf8Lossy]
  have hcount := countP_decoded cs
  omega

/-- What is read in a form is no longer than the form. -/
theorem weight_le_of_mem_entries {cs : List Char} {e : String × String} (h : e ∈ entries cs) :
    weight e.2.toList ≤ weight cs := by
  induction hn : cs.length using Nat.strongRecOn generalizing cs with
  | ind n ih =>
      by_cases hmem : '&' ∈ cs
      · obtain ⟨front, back, rfl, hfront⟩ := List.eq_append_cons_of_mem hmem
        rw [List.length_append, List.length_cons] at hn
        rw [entries_append, List.mem_append] at h
        have hweight : weight (front ++ '&' :: back) = weight front + weight back + 1 := by
          rw [weight_append, weight, weight, weight, List.countP_cons, if_pos (by decide)]
          omega
        rcases h with h | h
        · have hle := ih front.length (by omega) h rfl
          omega
        · have hle := ih back.length (by omega) h rfl
          omega
      · cases hcs : cs with
        | nil =>
            rw [hcs] at h
            cases h
        | cons c rest =>
            rw [← hcs]
            rw [entries_of_notMem hmem (by rw [hcs]; exact List.cons_ne_nil _ _),
              List.mem_singleton] at h
            by_cases hequal : '=' ∈ cs
            · obtain ⟨name, value, rfl, hname⟩ := List.eq_append_cons_of_mem hequal
              rw [List.mem_append, List.mem_cons, not_or, not_or] at hmem
              have hpair := entries_pair hmem.1 hname hmem.2.2
              rw [entries_of_notMem (by
                rw [List.mem_append, List.mem_cons, not_or, not_or]; exact hmem) (by simp)] at hpair
              rw [h, List.singleton_inj.mp hpair, weight_append]
              refine (weight_textOf value).trans ?_
              have hcons : weight ('=' :: value) = weight value + 1 :=
                List.countP_cons_of_pos (by decide)
              omega
            · have hsep : (0x3D : UInt8) ∉ wire cs :=
                fun hmem => hequal ((mem_wire_iff (.inr rfl) cs).mp hmem)
              have hdrop : (wire cs).dropWhile (· ≠ 0x3D) = [] := by
                rw [List.dropWhile_eq_nil_iff]
                intro b hb
                rw [decide_eq_true_eq]
                rintro rfl
                exact hsep hb
              rw [h]
              unfold formEntry
              rw [hdrop]
              exact Nat.zero_le _

/-! ## §3  The query of a URL -/

/-- A control character or a space, which neither begins nor ends a URL. -/
def isBlank (c : Char) : Bool := c.toNat ≤ 0x20

def breaksLine (c : Char) : Bool := c = '\t' || c = '\n' || c = '\r'

def unbroken (cs : List Char) : List Char := cs.filter fun c => !breaksLine c

/-- The text of a URL up to its fragment. -/
def stripped (url : List Char) : List Char :=
  (unbroken ((url.dropWhile isBlank).rdropWhile isBlank)).takeWhile (· ≠ '#')

/-- The query of a URL of `http` or `https`. -/
def queryOf (url : String) : Option String :=
  match (stripped url.toList).dropWhile (· ≠ '?') with
  | [] => none
  | _ :: query => some (String.ofList (query.flatMap queryEncode))

/-- What is left of a query that was written into a URL. -/
def received (query : List Char) : List Char :=
  (unbroken (query.rdropWhile isBlank)).takeWhile (· ≠ '#')

/-- What may stand before the query. -/
def IsBase (base : List Char) : Prop := ∀ c ∈ base, 0x20 < c.toNat ∧ c ≠ '?' ∧ c ≠ '#'

theorem rdropWhile_append_cons {p : Char → Bool} {xs ys : List Char} {x : Char}
    (h : p x = false) : (xs ++ x :: ys).rdropWhile p = xs ++ x :: ys.rdropWhile p := by
  have hx : ¬ p x = true := by simp [h]
  unfold List.rdropWhile
  rw [List.reverse_append, List.reverse_cons, List.append_assoc, List.dropWhile_append]
  split_ifs with hempty
  · rw [List.isEmpty_iff] at hempty
    rw [hempty, List.singleton_append, List.dropWhile_cons, if_neg hx, List.reverse_cons,
      List.reverse_reverse, List.reverse_nil]
  · rw [List.reverse_append, List.reverse_append, List.reverse_reverse, List.reverse_singleton,
      List.append_assoc, List.singleton_append]

theorem unbroken_append (cs ds : List Char) : unbroken (cs ++ ds) = unbroken cs ++ unbroken ds :=
  List.filter_append ..

theorem unbroken_eq {cs : List Char} (h : ∀ c ∈ cs, 0x20 < c.toNat) : unbroken cs = cs := by
  unfold unbroken
  rw [List.filter_eq_self]
  intro c hc
  have hlarge := h c hc
  unfold breaksLine
  simp only [Bool.not_eq_true', Bool.or_eq_false_iff, decide_eq_false_iff_not]
  refine ⟨⟨?_, ?_⟩, ?_⟩ <;> rintro rfl <;> exact absurd hlarge (by decide)

section Base

variable {base : List Char}

theorem IsBase.dropWhile (h : IsBase base) (rest : List Char)
    (hrest : ∀ c, rest.head? = some c → isBlank c = false) :
    (base ++ rest).dropWhile isBlank = base ++ rest := by
  have hhead : ∀ c, (base ++ rest).head? = some c → isBlank c = false := by
    intro c hc
    cases base with
    | nil => exact hrest c hc
    | cons b base =>
        obtain rfl := Option.some.inj hc
        exact decide_eq_false (Nat.not_le.mpr (h b List.mem_cons_self).1)
  cases hall : base ++ rest with
  | nil => rfl
  | cons c cs =>
      rw [hall] at hhead
      rw [List.dropWhile_cons, hhead c rfl]
      rfl

theorem IsBase.takeWhile (h : IsBase base) (rest : List Char) :
    (base ++ rest).takeWhile (· ≠ '#') = base ++ rest.takeWhile (· ≠ '#') := by
  refine List.takeWhile_append_of_pos fun c hc => ?_
  rw [decide_eq_true_eq]
  exact (h c hc).2.2

theorem IsBase.notMem (h : IsBase base) : '?' ∉ base := fun hmem => (h _ hmem).2.1 rfl

/-- A URL without a query. -/
theorem queryOf_base (h : IsBase base) : queryOf (String.ofList base) = none := by
  have hright : base.rdropWhile isBlank = base := by
    rw [List.rdropWhile_eq_self_iff]
    intro hne hblank
    have hlast := (h _ (List.getLast_mem hne)).1
    unfold isBlank at hblank
    rw [decide_eq_true_eq] at hblank
    omega
  have hstripped : stripped base = base := by
    have hleft := h.dropWhile [] nofun
    have htake := h.takeWhile []
    rw [List.append_nil] at hleft htake
    unfold stripped
    rw [hleft, hright, unbroken_eq fun c hc => (h c hc).1, htake, List.takeWhile_nil,
      List.append_nil]
  have hdrop : base.dropWhile (· ≠ '?') = [] := by
    rw [List.dropWhile_eq_nil_iff]
    intro c hc
    rw [decide_eq_true_eq]
    exact (h c hc).2.1
  unfold queryOf
  rw [String.toList_ofList, hstripped, hdrop]

/-- **A query that was written into a URL.** -/
theorem queryOf_append (h : IsBase base) (query : List Char) :
    queryOf (String.ofList (base ++ '?' :: query)) =
      some (String.ofList ((received query).flatMap queryEncode)) := by
  have hstripped : stripped (base ++ '?' :: query) = base ++ '?' :: received query := by
    have hhead : ∀ c, ('?' :: query).head? = some c → isBlank c = false := by
      rintro _ ⟨⟩
      decide
    have hmark : unbroken ['?'] = ['?'] := by decide
    unfold stripped received
    rw [h.dropWhile _ hhead, rdropWhile_append_cons (by decide), unbroken_append,
      unbroken_eq fun c hc => (h c hc).1, h.takeWhile, ← List.singleton_append, unbroken_append,
      hmark, List.singleton_append, List.takeWhile_cons, if_pos (by decide)]
  unfold queryOf
  rw [String.toList_ofList, hstripped, (takeWhile_append_cons h.notMem _).2]

end Base

/-- The form that is read in it. -/
theorem formParse_received (cs : List Char) :
    formParse (Texts.utf8 (String.ofList (cs.flatMap queryEncode))) = entries cs := by
  unfold Texts.utf8 entries wire
  rw [String.toList_ofList]

/-! ## §4  Fields -/

/-- A name with the value that was written, and what arrives of the value. -/
structure Field where
  name : List Char
  value : List Char
  arrived : List Char

def fieldText (name value : List Char) : List Char := name ++ '=' :: value

/-- The fields of a query before its fragment is cut off: only the last value is trimmed. -/
def fields : List (List Char × List Char) → List Field
  | [] => []
  | [(name, value)] => [⟨name, value, unbroken (value.rdropWhile isBlank)⟩]
  | (name, value) :: p :: ps => ⟨name, value, unbroken value⟩ :: fields (p :: ps)

def written (ps : List (List Char × List Char)) : List Char :=
  ['&'].intercalate (ps.map fun p => fieldText p.1 p.2)

def Field.text (f : Field) : List Char := fieldText f.name f.arrived

def arrival (fs : List Field) : List Char := ['&'].intercalate (fs.map Field.text)

/-- What follows the first fragment is cut off. -/
def cut : List Field → List Field
  | [] => []
  | f :: fs =>
      if '#' ∈ f.arrived then [{ f with arrived := f.arrived.takeWhile (· ≠ '#') }]
      else f :: cut fs

/-- The names of a program's fields. -/
def IsName (name : List Char) : Prop := ∀ c ∈ name, c.isAlpha = true

theorem IsName.large {name : List Char} (h : IsName name) : ∀ c ∈ name, 0x40 < c.toNat := by
  intro c hc
  have halpha : (decide (c.val ≥ 'A'.val ∧ c.val ≤ 'Z'.val) ||
      (decide (c.val ≥ 'a'.val) && decide (c.val ≤ 'z'.val))) = true := h c hc
  simp only [Bool.or_eq_true, Bool.and_eq_true, decide_eq_true_eq, ge_iff_le,
    UInt32.le_iff_toNat_le] at halpha
  have hval : c.toNat = c.val.toNat := rfl
  simp at halpha
  omega

theorem IsName.notMem {name : List Char} (h : IsName name) {sep : Char}
    (hsep : sep.toNat ≤ 0x40) : sep ∉ name := fun hmem => by
  have hlarge := h.large sep hmem
  omega

theorem IsName.textOf_eq {name : List Char} (h : IsName name) :
    textOf name = String.ofList name := by
  have hescape : hasEscape name = false := by
    have hpercent : '%' ∉ name := h.notMem (by decide)
    clear h
    induction name with
    | nil => rfl
    | cons c name ih =>
        rw [List.mem_cons, not_or] at hpercent
        simp only [hasEscape, decide_eq_false (Ne.symm hpercent.1), Bool.false_and, Bool.false_or]
        exact ih hpercent.2
  unfold textOf
  rw [(fromUtf8Lossy_decoded_eq_iff name).mpr ⟨h.notMem (by decide), hescape⟩]

theorem unbroken_fieldText {name : List Char} (h : IsName name) (value : List Char) :
    unbroken (fieldText name value) = fieldText name (unbroken value) := by
  have hsign : unbroken ['='] = ['='] := by decide
  have hname : ∀ c ∈ name, 0x20 < c.toNat := fun c hc => by
    have hlarge := h.large c hc
    omega
  unfold fieldText
  rw [unbroken_append, unbroken_eq hname, ← List.singleton_append, unbroken_append, hsign]
  rfl

theorem rdropWhile_fieldText (name value : List Char) :
    (fieldText name value).rdropWhile isBlank = fieldText name (value.rdropWhile isBlank) :=
  rdropWhile_append_cons (by decide)

/-- What is trimmed and joined again. -/
theorem unbroken_written {ps : List (List Char × List Char)} (h : ∀ p ∈ ps, IsName p.1) :
    unbroken ((written ps).rdropWhile isBlank) = arrival (fields ps) := by
  induction ps with
  | nil => rfl
  | cons p ps ih =>
      obtain ⟨name, value⟩ := p
      have hname := h _ List.mem_cons_self
      cases ps with
      | nil =>
          change unbroken ((['&'].intercalate [fieldText name value]).rdropWhile isBlank) =
            ['&'].intercalate [fieldText name (unbroken (value.rdropWhile isBlank))]
          rw [List.intercalate_singleton, List.intercalate_singleton, rdropWhile_fieldText,
            unbroken_fieldText hname]
      | cons p ps =>
          have hrest := ih fun q hq => h q (List.mem_cons_of_mem _ hq)
          have hwritten : written ((name, value) :: p :: ps) =
              fieldText name value ++ '&' :: written (p :: ps) := by
            unfold written
            rw [List.map_cons, List.map_cons, List.intercalate_cons_cons, List.append_assoc]
            rfl
          have harrival : arrival (fields ((name, value) :: p :: ps)) =
              fieldText name (unbroken value) ++ '&' :: arrival (fields (p :: ps)) := by
            have hne : (fields (p :: ps)).map Field.text ≠ [] := by
              cases ps <;> nofun
            unfold arrival
            rw [fields, List.map_cons, List.intercalate_cons_of_ne_nil hne, List.append_assoc]
            rfl
          have hsign : unbroken ['&'] = ['&'] := by decide
          rw [hwritten, harrival, rdropWhile_append_cons (by decide), unbroken_append,
            unbroken_fieldText hname, ← List.singleton_append, unbroken_append, hsign, hrest]
          rfl

theorem takeWhile_fieldText {name : List Char} (h : IsName name) (value : List Char) :
    (fieldText name value).takeWhile (· ≠ '#') = fieldText name (value.takeWhile (· ≠ '#')) := by
  have hname : ∀ c ∈ name, decide (c ≠ '#') = true := by
    intro c hc
    rw [decide_eq_true_eq]
    rintro rfl
    exact h.notMem (by decide) hc
  unfold fieldText
  rw [List.takeWhile_append_of_pos hname, List.takeWhile_cons, if_pos (by decide)]

theorem arrival_cut {fs : List Field} (h : ∀ f ∈ fs, IsName f.name) :
    (arrival fs).takeWhile (· ≠ '#') = arrival (cut fs) := by
  induction fs with
  | nil => rfl
  | cons f fs ih =>
      have hname := h f List.mem_cons_self
      have hrest := ih fun g hg => h g (List.mem_cons_of_mem _ hg)
      have htext : f.text.takeWhile (· ≠ '#') =
          fieldText f.name (f.arrived.takeWhile (· ≠ '#')) := takeWhile_fieldText hname _
      by_cases hmem : '#' ∈ f.arrived
      · have hshort : arrival (cut (f :: fs)) =
            fieldText f.name (f.arrived.takeWhile (· ≠ '#')) := by
          unfold cut
          rw [if_pos hmem]
          exact List.intercalate_singleton
        have hcut : f.text.takeWhile (· ≠ '#') ≠ f.text := by
          rw [Ne, List.takeWhile_eq_self_iff]
          intro hall
          have hhash := hall '#' (List.mem_append_right _ (List.mem_cons_of_mem _ hmem))
          exact absurd hhash (by decide)
        -- nothing of the other fields is taken
        have hstop : ∀ rest, (f.text ++ rest).takeWhile (· ≠ '#') =
            f.text.takeWhile (· ≠ '#') := by
          intro rest
          rw [List.takeWhile_append, if_neg]
          intro hlength
          exact hcut (List.IsPrefix.eq_of_length (List.takeWhile_prefix _) hlength)
        rw [hshort, ← htext]
        cases fs with
        | nil =>
            have hone : arrival [f] = f.text := List.intercalate_singleton
            rw [hone]
        | cons g fs =>
            unfold arrival
            rw [List.map_cons, List.map_cons, List.intercalate_cons_cons, List.append_assoc]
            exact hstop _
      · have hfull : ∀ c ∈ f.text, decide (c ≠ '#') = true := by
          intro c hc
          rw [decide_eq_true_eq]
          rintro rfl
          rcases List.mem_append.mp hc with hc | hc
          · exact hname.notMem (by decide) hc
          · rcases List.mem_cons.mp hc with hc | hc
            · cases hc
            · exact hmem hc
        have hcons : cut (f :: fs) = f :: cut fs := if_neg hmem
        rw [hcons]
        cases fs with
        | nil =>
            have hone : arrival [f] = f.text := List.intercalate_singleton
            have hcutone : arrival (f :: cut []) = f.text := List.intercalate_singleton
            rw [hone, hcutone, List.takeWhile_eq_self_iff]
            exact hfull
        | cons g fs =>
            have hne : (cut (g :: fs)).map Field.text ≠ [] := by
              unfold cut
              split_ifs <;> nofun
            unfold arrival
            rw [List.map_cons, List.map_cons, List.intercalate_cons_cons, List.map_cons,
              List.intercalate_cons_of_ne_nil hne, List.append_assoc, List.append_assoc,
              List.takeWhile_append_of_pos hfull, List.singleton_append, List.singleton_append,
              List.takeWhile_cons, if_pos (by decide)]
            exact congrArg (fun rest => f.text ++ '&' :: rest) hrest

/-- A query is read field by field. -/
theorem entries_arrival (fs : List Field) :
    entries (arrival fs) = fs.flatMap fun f => entries f.text := by
  induction fs with
  | nil => rfl
  | cons f fs ih =>
      cases fs with
      | nil =>
          have hone : arrival [f] = f.text := List.intercalate_singleton
          rw [hone, List.flatMap_singleton]
      | cons g fs =>
          have htwo : arrival (f :: g :: fs) = f.text ++ '&' :: arrival (g :: fs) := by
            unfold arrival
            rw [List.map_cons, List.map_cons, List.intercalate_cons_cons, List.append_assoc]
            rfl
          rw [htwo, entries_append, ih, List.flatMap_cons (x := f)]

/-! ## §5  Values that come back -/

/-- A value that arrives as it was written, and in which a form finds no signs. -/
structure Field.Settled (f : Field) : Prop where
  arrived : f.arrived = f.value
  notHash : '#' ∉ f.value
  notAnd : '&' ∉ f.value
  notPlus : '+' ∉ f.value
  notEscape : hasEscape f.value = false

theorem Field.Settled.entries_eq {f : Field} (h : f.Settled) (hname : IsName f.name) :
    entries f.text = [(String.ofList f.name, String.ofList f.value)] := by
  unfold Field.text fieldText
  rw [h.arrived, entries_pair (hname.notMem (by decide)) (hname.notMem (by decide)) h.notAnd,
    hname.textOf_eq]
  unfold textOf
  rw [(fromUtf8Lossy_decoded_eq_iff f.value).mpr ⟨h.notPlus, h.notEscape⟩]

/-- What is read under the name of a field whose part comes last. -/
theorem read_last {front : List (String × String)} {f : Field} {value : List Char}
    (hname : IsName f.name)
    (h : (AssocMap.ofList (front ++ entries f.text)).get? (String.ofList f.name) =
      some (String.ofList value)) :
    weight value ≤ weight f.arrived ∧ (weight f.arrived ≤ weight value →
      '&' ∉ f.arrived ∧ fromUtf8Lossy (decoded f.arrived) = value) := by
  have hpair : ∀ first, '&' ∉ first →
      entries (fieldText f.name first) = [(String.ofList f.name, textOf first)] := by
    intro first hfirst
    unfold fieldText
    rw [entries_pair (hname.notMem (by decide)) (hname.notMem (by decide)) hfirst, hname.textOf_eq]
  by_cases hmem : '&' ∈ f.arrived
  · obtain ⟨first, rest, harrived, hfirst⟩ := List.eq_append_cons_of_mem hmem
    have htext : f.text = fieldText f.name first ++ '&' :: rest := by
      unfold Field.text fieldText
      rw [harrived, List.append_assoc, List.cons_append]
    have hweight : weight f.arrived = weight first + weight rest + 1 := by
      rw [harrived, weight_append, weight, weight, weight, List.countP_cons, if_pos (by decide)]
      omega
    have hin : (String.ofList f.name, String.ofList value) ∈
        (String.ofList f.name, textOf first) :: entries rest := by
      rw [htext, entries_append, hpair first hfirst, AssocMap.get?_ofList, List.reverse_append,
        List.lookup_append] at h
      have hlast : ∃ w, ([(String.ofList f.name, textOf first)] ++ entries rest).reverse.lookup
          (String.ofList f.name) = some w := by
        rw [← AssocMap.get?_ofList]
        exact AssocMap.exists_get?_ofList List.mem_cons_self
      obtain ⟨w, hw⟩ := hlast
      rw [hw, Option.some_or] at h
      obtain rfl := Option.some.inj h
      exact List.mem_reverse.mp (AssocMap.mem_of_lookup_eq_some hw)
    have hless : weight value < weight f.arrived := by
      rcases List.mem_cons.mp hin with heq | hin
      · have hvalue := congrArg String.toList (Prod.mk.inj heq).2
        have hle := weight_textOf first
        rw [← hvalue, String.toList_ofList] at hle
        omega
      · have hle := weight_le_of_mem_entries hin
        rw [String.toList_ofList] at hle
        omega
    exact ⟨hless.le, fun hle => absurd hless (not_lt.mpr hle)⟩
  · have hvalue : textOf f.arrived = String.ofList value := by
      have hown : entries f.text = [(String.ofList f.name, textOf f.arrived)] := hpair _ hmem
      rw [hown, AssocMap.get?_ofList, List.reverse_append, List.reverse_singleton,
        List.singleton_append, List.lookup_cons_self] at h
      exact Option.some.inj h
    have hlist := congrArg String.toList hvalue
    have hle := weight_textOf f.arrived
    rw [hlist, String.toList_ofList] at hle
    unfold textOf at hlist
    rw [String.toList_ofList, String.toList_ofList] at hlist
    exact ⟨hle, fun _ => ⟨hmem, hlist⟩⟩

/-- The characters that a value loses on the way are one-byte characters. -/
structure Field.Shortened (f : Field) : Prop where
  le : weight f.arrived ≤ weight f.value
  eq : weight f.value ≤ weight f.arrived → f.arrived = f.value

theorem weight_unbroken (cs : List Char) : weight (unbroken cs) ≤ weight cs ∧
    (weight cs ≤ weight (unbroken cs) → unbroken cs = cs) := by
  induction cs with
  | nil => exact ⟨le_rfl, fun _ => rfl⟩
  | cons c cs ih =>
      have hweight : weight (c :: cs) = weight cs + if isAscii c then 1 else 0 := List.countP_cons
      by_cases hbreak : breaksLine c = true
      · have hskip : unbroken (c :: cs) = unbroken cs := List.filter_cons_of_neg (by simp [hbreak])
        have hascii : isAscii c = true := by
          unfold breaksLine at hbreak
          simp only [Bool.or_eq_true, decide_eq_true_eq] at hbreak
          rcases hbreak with (rfl | rfl) | rfl <;> rfl
        rw [hskip, hweight, if_pos hascii]
        exact ⟨ih.1.trans (Nat.le_succ _), fun hle => absurd ih.1 (by omega)⟩
      · have hkeep : unbroken (c :: cs) = c :: unbroken cs :=
          List.filter_cons_of_pos (by simp [hbreak])
        have hweight' : weight (c :: unbroken cs) = weight (unbroken cs) +
            if isAscii c then 1 else 0 := List.countP_cons
        rw [hkeep, hweight, hweight']
        exact ⟨Nat.add_le_add_right ih.1 _, fun hle => by rw [ih.2 (by omega)]⟩

theorem weight_rdropWhile (cs : List Char) : weight (cs.rdropWhile isBlank) ≤ weight cs ∧
    (weight cs ≤ weight (cs.rdropWhile isBlank) → cs.rdropWhile isBlank = cs) := by
  induction cs using List.reverseRecOn with
  | nil => exact ⟨le_rfl, fun _ => rfl⟩
  | append_singleton cs c ih =>
      by_cases hblank : isBlank c = true
      · have hascii : isAscii c = true := by
          unfold isBlank at hblank
          rw [decide_eq_true_eq] at hblank
          exact decide_eq_true (by omega)
        have hone : weight [c] = 1 := List.countP_singleton.trans (if_pos hascii)
        rw [List.rdropWhile_concat_pos _ _ _ hblank, weight_append, hone]
        exact ⟨ih.1.trans (Nat.le_succ _), fun hle => absurd ih.1 (by omega)⟩
      · rw [List.rdropWhile_concat_neg _ _ _ hblank]
        exact ⟨le_rfl, fun _ => rfl⟩

theorem shortened_of_mem {ps : List (List Char × List Char)} :
    ∀ f ∈ fields ps, f.Shortened := by
  induction ps with
  | nil => nofun
  | cons p ps ih =>
      obtain ⟨name, value⟩ := p
      have hline := weight_unbroken value
      cases ps with
      | nil =>
          intro f hf
          obtain rfl := List.mem_singleton.mp hf
          have hend := weight_rdropWhile value
          have hline := weight_unbroken (value.rdropWhile isBlank)
          refine ⟨hline.1.trans hend.1, fun hle => ?_⟩
          change weight value ≤ weight (unbroken (value.rdropWhile isBlank)) at hle
          have hsame := hend.2 (hle.trans hline.1)
          exact (hline.2 (hend.1.trans hle)).trans hsame
      | cons q ps =>
          intro f hf
          rcases List.mem_cons.mp hf with rfl | hf
          · exact ⟨hline.1, hline.2⟩
          · exact ih f hf

theorem fields_pairs (ps : List (List Char × List Char)) :
    (fields ps).map (fun f => (f.name, f.value)) = ps := by
  induction ps with
  | nil => rfl
  | cons p ps ih =>
      cases ps with
      | nil => rfl
      | cons q ps =>
          obtain ⟨name, value⟩ := p
          rw [fields, List.map_cons, ih]

theorem cut_cases (fs : List Field) : (∀ f ∈ fs, '#' ∉ f.arrived) ∧ cut fs = fs ∨
    ∃ front f back, fs = front ++ f :: back ∧ '#' ∈ f.arrived ∧
      cut fs = front ++ [{ f with arrived := f.arrived.takeWhile (· ≠ '#') }] := by
  induction fs with
  | nil => exact .inl ⟨nofun, rfl⟩
  | cons f fs ih =>
      by_cases hmem : '#' ∈ f.arrived
      · exact .inr ⟨[], f, fs, rfl, hmem, if_pos hmem⟩
      · have hcons : cut (f :: fs) = f :: cut fs := if_neg hmem
        rcases ih with ⟨hnone, hcut⟩ | ⟨front, g, back, hfs, hg, hcut⟩
        · exact .inl ⟨List.forall_mem_cons.mpr ⟨hmem, hnone⟩, hcons.trans (by rw [hcut])⟩
        · refine .inr ⟨f :: front, g, back, by rw [hfs, List.cons_append], hg, ?_⟩
          rw [hcons, hcut, List.cons_append]

theorem weight_takeWhile_lt {cs : List Char} (h : '#' ∈ cs) :
    weight (cs.takeWhile (· ≠ '#')) < weight cs := by
  obtain ⟨front, back, rfl, hfront⟩ := List.eq_append_cons_of_mem h
  rw [(takeWhile_append_cons hfront back).1, weight_append]
  have hcons : weight ('#' :: back) = weight back + 1 := List.countP_cons_of_pos (by decide)
  omega

/-- **From the last field to the first**: a value that is read as it was written is settled,
and what stands in its part is read under its own name only. -/
theorem settled_of_read {fs : List Field} (hnames : ∀ f ∈ fs, IsName f.name)
    (hnodup : (fs.map Field.name).Nodup) (hshort : ∀ f ∈ fs, f.Shortened)
    (hhash : ∀ f ∈ fs, '#' ∉ f.arrived)
    (h : ∀ f ∈ fs, (AssocMap.ofList (fs.flatMap fun f => entries f.text)).get?
      (String.ofList f.name) = some (String.ofList f.value)) : ∀ f ∈ fs, f.Settled := by
  induction fs using List.reverseRecOn with
  | nil => nofun
  | append_singleton fs g ih =>
      have hg : g ∈ fs ++ [g] := List.mem_append_right _ List.mem_cons_self
      rw [List.flatMap_append, List.flatMap_singleton] at h
      obtain ⟨hle, hback⟩ := read_last (hnames g hg) (h g hg)
      obtain ⟨hand, hvalue⟩ := hback (hshort g hg).le
      have harrived := (hshort g hg).eq hle
      rw [harrived] at hand hvalue
      have hplain := (fromUtf8Lossy_decoded_eq_iff g.value).mp hvalue
      have hsettled : g.Settled :=
        ⟨harrived, harrived ▸ hhash g hg, hand, hplain.1, hplain.2⟩
      rw [List.map_append, List.nodup_append] at hnodup
      rw [hsettled.entries_eq (hnames g hg)] at h
      intro f hf
      rcases List.mem_append.mp hf with hf | hf
      · refine ih (fun f hf => hnames f (List.mem_append_left _ hf)) hnodup.1
          (fun f hf => hshort f (List.mem_append_left _ hf))
          (fun f hf => hhash f (List.mem_append_left _ hf)) (fun f hf => ?_) f hf
        have hne : String.ofList f.name ≠ String.ofList g.name := by
          intro heq
          have hlist : f.name = g.name := by simpa using congrArg String.toList heq
          exact hnodup.2.2 f.name (List.mem_map_of_mem hf) g.name (by simp) hlist
        have hread := h f (List.mem_append_left _ hf)
        rw [AssocMap.get?_ofList, List.reverse_append, List.reverse_singleton,
          List.singleton_append, List.lookup_cons, beq_eq_false_iff_ne.mpr hne] at hread
        rw [AssocMap.get?_ofList]
        exact hread
      · obtain rfl := List.mem_singleton.mp hf
        exact hsettled

/-- The texts of a name and a value. -/
def texts (p : List Char × List Char) : String × String := (String.ofList p.1, String.ofList p.2)

/-- **The values of a query** are read as they were written exactly if every field is
settled. -/
theorem read_iff_settled {ps : List (List Char × List Char)} (hnames : ∀ p ∈ ps, IsName p.1)
    (hnodup : (ps.map Prod.fst).Nodup) :
    (∀ name, (AssocMap.ofList (entries (received (written ps)))).get? name =
        (AssocMap.ofList (ps.map texts)).get? name) ↔ ∀ f ∈ fields ps, f.Settled := by
  have hpairs := fields_pairs ps
  have hfieldNames : ∀ f ∈ fields ps, IsName f.name := by
    intro f hf
    refine hnames (f.name, f.value) ?_
    rw [← hpairs]
    exact List.mem_map_of_mem hf
  have hreceived : received (written ps) = arrival (cut (fields ps)) := by
    unfold received
    rw [unbroken_written hnames, arrival_cut hfieldNames]
  rw [hreceived, entries_arrival]
  constructor
  · intro h
    have hfst : (ps.map texts).map Prod.fst = (ps.map Prod.fst).map String.ofList := by
      rw [List.map_map, List.map_map]
      rfl
    have hinjective : Function.Injective String.ofList := by
      intro cs ds heq
      simpa using congrArg String.toList heq
    have hread : ∀ f ∈ fields ps, (AssocMap.ofList ((cut (fields ps)).flatMap fun f =>
        entries f.text)).get? (String.ofList f.name) = some (String.ofList f.value) := by
      intro f hf
      have hmem : (f.name, f.value) ∈ ps := by
        rw [← hpairs]
        exact List.mem_map_of_mem hf
      rw [h, AssocMap.get?_ofList_eq_some_iff]
      · exact List.mem_map_of_mem (f := texts) hmem
      · rw [hfst]
        exact hnodup.map hinjective
    have hfieldNodup : ((fields ps).map Field.name).Nodup := by
      rw [← hpairs, List.map_map] at hnodup
      exact hnodup
    rcases cut_cases (fields ps) with ⟨hnone, hcut⟩ | ⟨front, f, back, hfs, hf, hcut⟩
    · rw [hcut] at hread
      exact settled_of_read hfieldNames hfieldNodup shortened_of_mem hnone hread
    · -- the field that is cut off is too short
      have hmem : f ∈ fields ps := by
        rw [hfs]
        exact List.mem_append_right _ List.mem_cons_self
      have hlast := hread f hmem
      rw [hcut, List.flatMap_append, List.flatMap_singleton] at hlast
      have hle := (read_last (f := { f with arrived := f.arrived.takeWhile (· ≠ '#') })
        (hfieldNames f hmem) hlast).1
      have hless := weight_takeWhile_lt hf
      have hshort := (shortened_of_mem f hmem).le
      change weight f.value ≤ weight (f.arrived.takeWhile (· ≠ '#')) at hle
      omega
  · intro h
    have hnone : ∀ f ∈ fields ps, '#' ∉ f.arrived := fun f hf =>
      (h f hf).arrived ▸ (h f hf).notHash
    have hcut : cut (fields ps) = fields ps := by
      rcases cut_cases (fields ps) with ⟨-, hcut⟩ | ⟨front, f, back, hfs, hf, -⟩
      · exact hcut
      · refine absurd hf (hnone f ?_)
        rw [hfs]
        exact List.mem_append_right _ List.mem_cons_self
    have hentries : ((fields ps).flatMap fun f => entries f.text) = ps.map texts := by
      have hsingle : ((fields ps).flatMap fun f => entries f.text) =
          (fields ps).flatMap fun f => [texts (f.name, f.value)] :=
        List.flatMap_congr fun f hf => (h f hf).entries_eq (hfieldNames f hf)
      rw [hsingle]
      conv_rhs => rw [← hpairs, List.map_map]
      exact List.flatMap_pure_eq_map _ _
    rw [hcut, hentries]
    exact fun _ => rfl

/-! What this says of the values. -/

/-- A character with a meaning of its own, wherever it stands in a value. -/
def isSign (c : Char) : Bool := c = '#' || c = '&' || c = '+' || breaksLine c

def Plain (value : List Char) : Prop := (∀ c ∈ value, isSign c = false) ∧ hasEscape value = false

instance (value : List Char) : Decidable (Plain value) :=
  @instDecidableAnd _ _ (List.decidableBAll _ value) inferInstance

/-- Only the last value ends where the URL ends. -/
def AllPlain (ps : List (List Char × List Char)) : Prop :=
  (∀ p ∈ ps, Plain p.2) ∧ ∀ p ∈ ps.getLast?, p.2.getLast?.any isBlank = false

instance (ps : List (List Char × List Char)) : Decidable (AllPlain ps) :=
  inferInstanceAs (Decidable (_ ∧ _))

theorem unbroken_eq_self_iff (cs : List Char) :
    unbroken cs = cs ↔ ∀ c ∈ cs, breaksLine c = false := by
  unfold unbroken
  rw [List.filter_eq_self]
  exact forall₂_congr fun c _ => by rw [Bool.not_eq_true']

theorem settled_iff_plain (name value : List Char) :
    (⟨name, value, unbroken value⟩ : Field).Settled ↔ Plain value := by
  constructor
  · intro h
    refine ⟨fun c hc => ?_, h.notEscape⟩
    have hbreak := (unbroken_eq_self_iff value).mp h.arrived c hc
    unfold isSign
    simp only [Bool.or_eq_false_iff, decide_eq_false_iff_not]
    refine ⟨⟨⟨?_, ?_⟩, ?_⟩, hbreak⟩
    · rintro rfl
      exact h.notHash hc
    · rintro rfl
      exact h.notAnd hc
    · rintro rfl
      exact h.notPlus hc
  · rintro ⟨hsigns, hescape⟩
    refine ⟨(unbroken_eq_self_iff value).mpr fun c hc => ?_, fun hmem => ?_, fun hmem => ?_,
      fun hmem => ?_, hescape⟩
    · have hsign := hsigns c hc
      unfold isSign at hsign
      exact (Bool.or_eq_false_iff.mp hsign).2
    all_goals exact absurd (hsigns _ hmem) (by decide)

theorem rdropWhile_eq_self_iff_getLast? (cs : List Char) :
    cs.rdropWhile isBlank = cs ↔ cs.getLast?.any isBlank = false := by
  rw [List.rdropWhile_eq_self_iff]
  constructor
  · intro h
    cases hlast : cs.getLast? with
    | none => rfl
    | some c =>
        obtain ⟨hne, rfl⟩ := List.mem_getLast?_eq_getLast hlast
        exact Bool.eq_false_iff.mpr (h hne)
  · intro h hne
    rw [List.getLast?_eq_some_getLast hne] at h
    exact Bool.eq_false_iff.mp h

/-- The last value also loses what is blank at its end. -/
theorem settled_last_iff (name value : List Char) :
    (⟨name, value, unbroken (value.rdropWhile isBlank)⟩ : Field).Settled ↔
      Plain value ∧ value.getLast?.any isBlank = false := by
  rw [← rdropWhile_eq_self_iff_getLast?, ← settled_iff_plain name]
  constructor
  · intro h
    have hweight : weight value ≤ weight (unbroken (value.rdropWhile isBlank)) :=
      (congrArg weight h.arrived).symm.le
    have hend := (weight_rdropWhile value).2 (hweight.trans (weight_unbroken _).1)
    refine ⟨⟨?_, h.notHash, h.notAnd, h.notPlus, h.notEscape⟩, hend⟩
    have harrived := h.arrived
    simp only at harrived ⊢
    rwa [hend] at harrived
  · rintro ⟨h, hend⟩
    rwa [hend]

/-- **Every field is settled** exactly if the values are plain. -/
theorem fields_settled_iff (ps : List (List Char × List Char)) :
    (∀ f ∈ fields ps, f.Settled) ↔ AllPlain ps := by
  unfold AllPlain
  induction ps with
  | nil => exact iff_of_true nofun ⟨nofun, nofun⟩
  | cons p ps ih =>
      obtain ⟨name, value⟩ := p
      cases ps with
      | nil =>
          rw [fields, List.forall_mem_singleton, settled_last_iff, List.forall_mem_singleton,
            List.getLast?_singleton]
          simp
      | cons q ps =>
          rw [fields, List.forall_mem_cons, settled_iff_plain, ih,
            List.forall_mem_cons (a := (name, value)), List.getLast?_cons_cons, and_assoc]

end UrlQuery
