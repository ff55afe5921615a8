import FireBoxTransfer.Core.Model
import FireBoxTransfer.Framework.InetText

/-!
# IP addresses as texts

An address as `to_string` writes it and as `parse` reads it. The text of an
IPv6 address that is not mapped has no dot, and reads as the address.
-/

namespace FireBoxTransfer

/-! ## §1  Octets and segments -/

/-- The lowest `k` segments of a number, the highest one first. -/
def segmentsOf : ℕ → ℕ → List ℕ
  | 0, _ => []
  | k + 1, n => segmentsOf k (n / 65536) ++ [n % 65536]

def octets (addr : BitVec 32) : List ℕ :=
  InetText.octetsOfSegments (segmentsOf 2 addr.toNat)

def ipv6Segments (addr : BitVec 128) : List ℕ := segmentsOf 8 addr.toNat

/-- The address with these segments. -/
def ofSegments (segments : List ℕ) : BitVec 128 :=
  .ofNat 128 (segments.foldl (fun n segment => n * 65536 + segment) 0)

theorem length_segmentsOf (k n : ℕ) : (segmentsOf k n).length = k := by
  induction k generalizing n with
  | zero => rfl
  | succ k ih => rw [segmentsOf, List.length_append, ih, List.length_singleton]

theorem lt_of_mem_segmentsOf {k n s : ℕ} (h : s ∈ segmentsOf k n) : s < 65536 := by
  induction k generalizing n with
  | zero => cases h
  | succ k ih =>
      rcases List.mem_append.mp h with h | h
      · exact ih h
      · rw [List.mem_singleton.mp h]
        exact Nat.mod_lt _ (by decide)

theorem foldl_segmentsOf (k n : ℕ) :
    (segmentsOf k n).foldl (fun n segment => n * 65536 + segment) 0 = n % 65536 ^ k := by
  induction k generalizing n with
  | zero => exact (Nat.mod_one n).symm
  | succ k ih =>
      rw [segmentsOf, List.foldl_concat, ih, Nat.pow_succ', Nat.mod_mul]
      omega

theorem ofSegments_ipv6Segments (addr : BitVec 128) : ofSegments (ipv6Segments addr) = addr := by
  have hlt : addr.toNat < 65536 ^ 8 := addr.isLt
  unfold ofSegments ipv6Segments
  rw [foldl_segmentsOf, Nat.mod_eq_of_lt hlt]
  exact (BitVec.ofNat_toNat 128 addr).trans (BitVec.setWidth_eq addr)

/-! ## §2  Texts -/

/-- `::ffff:0:0/96`. -/
def IsIpv4Mapped (addr : BitVec 128) : Prop := InetText.isIpv4Mapped (ipv6Segments addr) = true

instance (addr : BitVec 128) : Decidable (IsIpv4Mapped addr) :=
  inferInstanceAs (Decidable (_ = true))

def ipv6Text (addr : BitVec 128) : List Char := InetText.displayIpv6 (ipv6Segments addr)

/-- `to_string`. -/
def IpAddr.text : IpAddr → List Char
  | .v4 addr => InetText.displayOctets (octets addr)
  | .v6 addr => ipv6Text addr

/-- `parse::<Ipv6Addr>`. -/
def parseIpv6Addr (cs : List Char) : Option (BitVec 128) := (InetText.parseIpv6 cs).map ofSegments

/-! ## §3  The text reads as the address -/

theorem parseIpv6Addr_text {addr : BitVec 128} (h : ¬ IsIpv4Mapped addr) :
    parseIpv6Addr (ipv6Text addr) = some addr := by
  have hparse := InetText.parseIpv6_displayIpv6 (length_segmentsOf 8 addr.toNat)
    (fun _ hs => lt_of_mem_segmentsOf hs) (Bool.eq_false_iff.mpr h)
  unfold parseIpv6Addr ipv6Text ipv6Segments
  rw [hparse]
  exact congrArg some (ofSegments_ipv6Segments addr)

theorem mem_ipv6Text {addr : BitVec 128} (h : ¬ IsIpv4Mapped addr) {c : Char}
    (hc : c ∈ ipv6Text addr) : InetText.isGroupChar c = true :=
  InetText.displayIpv6_chars (Bool.eq_false_iff.mpr h) c hc

/-- A mapped address is written with dots, the others are not. -/
theorem dot_mem_ipv6Text {addr : BitVec 128} : '.' ∈ ipv6Text addr ↔ IsIpv4Mapped addr := by
  constructor
  · intro h
    by_contra hmapped
    exact absurd (mem_ipv6Text hmapped h) (by decide)
  · intro h
    unfold ipv6Text InetText.displayIpv6
    rw [if_pos (show InetText.isIpv4Mapped (ipv6Segments addr) = true from h)]
    refine List.mem_append_right _ ?_
    have hlen : ((ipv6Segments addr).drop 6).length = 2 := by
      rw [List.length_drop]
      unfold ipv6Segments
      rw [length_segmentsOf]
    obtain ⟨one, two, htwo⟩ := List.length_eq_two.mp hlen
    rw [htwo]
    simp [InetText.octetsOfSegments, InetText.displayOctets, List.intercalate]

end FireBoxTransfer
