import XbeeAssignment.Lib.CString
import XbeeAssignment.Lib.Decimal
import Mathlib.Tactic.IntervalCases

/-!
# The printed address of a peer

`accept` prints the address of a peer into the `IpAdr` of its entry, lowest byte first,
and `InitTx` copies the address it is to connect to into an array of its own.  Both write
into arrays of a fixed size without looking at it: for a printed address either is large
enough, and what it holds is read back as the address (`ipAdr_text`).
-/

namespace XbeeAssignment.Socket

/-- `sizeof(IpAdr)`. -/
def sizeofIpAdr : ℕ := 20

/-- `sizeof(ip_adr)`, the array of `InitTx`. -/
def sizeofTxIpAdr : ℕ := 32

/-- `.` -/
def dot : UInt8 := 46

/-- The bytes of `s_addr`, the lowest one first. -/
def octets (sAddr : UInt32) : List UInt8 :=
  [sAddr.toUInt8, (sAddr >>> 8).toUInt8, (sAddr >>> 16).toUInt8, (sAddr >>> 24).toUInt8]

/-- What `accept` prints. -/
def ipAdrBytes (sAddr : UInt32) : List UInt8 :=
  Decimal.joined dot ((octets sAddr).map UInt8.toNat)

/-- The characters are digits and dots. -/
theorem mem_ipAdrBytes {sAddr : UInt32} {char : UInt8} (hchar : char ∈ ipAdrBytes sAddr) :
    char = dot ∨ ∃ d < 10, char = Decimal.digit d :=
  Decimal.mem_joined hchar

/-- The string in the `IpAdr` of the entry. -/
def ipAdr (sAddr : UInt32) : CString where
  bytes := ipAdrBytes sAddr
  no_terminator := by
    intro hzero
    rcases mem_ipAdrBytes hzero with hdot | ⟨d, hd, hdigit⟩
    · cases hdot
    · have htoNat := Decimal.toNat_digit hd
      rw [← hdigit] at htoNat
      have hzero : (0 : UInt8).toNat = 0 := rfl
      omega

/-- The address `InitTx` copies into `ip_adr`. -/
def txIpAdr (ipAddress : CString) : CString :=
  if CString.strcmp ipAddress (.literal "localhost") ≠ 0 then ipAddress else .literal "127.0.0.1"

/-- The address a printed one was printed from. -/
def addressOf (text : CString) : ℕ :=
  Nat.ofDigits 256 (Decimal.values dot text.bytes)

theorem toNat_octets (sAddr : UInt32) : Nat.ofDigits 256 ((octets sAddr).map UInt8.toNat) =
    sAddr.toNat := by
  have hlt := sAddr.toNat_lt
  simp only [octets, List.map_cons, List.map_nil, Nat.ofDigits_cons, Nat.ofDigits_nil,
    UInt32.toNat_toUInt8, UInt32.toNat_shiftRight, UInt32.toNat_ofNat, Nat.shiftRight_eq_div_pow]
  norm_num
  omega

/-- A printed address has at most 15 characters. -/
theorem length_ipAdr_le (sAddr : UInt32) : (ipAdr sAddr).length ≤ 15 := by
  have hthree : ∀ byte : UInt8, (Decimal.decimal byte.toNat).length ≤ 3 := by
    intro byte
    have hlt := byte.toNat_lt
    exact Decimal.length_decimal_le (by omega) (by omega)
  have hfirst := hthree sAddr.toUInt8
  have hsecond := hthree (sAddr >>> 8).toUInt8
  have hthird := hthree (sAddr >>> 16).toUInt8
  have hfourth := hthree (sAddr >>> 24).toUInt8
  simp only [CString.length, ipAdr, ipAdrBytes, Decimal.joined, octets, List.map_cons, List.map_nil,
    List.intercalate_cons_cons, List.intercalate_singleton, List.length_append,
    List.length_singleton]
  omega

theorem addressOf_ipAdr (sAddr : UInt32) : addressOf (ipAdr sAddr) = sAddr.toNat := by
  have hdot : ∀ d < 10, dot ≠ Decimal.digit d := by
    intro d hd
    interval_cases d <;> decide
  have hread := Decimal.values_joined hdot (show (octets sAddr).map UInt8.toNat ≠ [] by
    simp [octets])
  exact (congrArg (Nat.ofDigits 256) hread).trans (toNat_octets sAddr)

/-- A printed address is no name. -/
theorem txIpAdr_ipAdr (sAddr : UInt32) : txIpAdr (ipAdr sAddr) = ipAdr sAddr := by
  refine if_pos fun hname => ?_
  rw [CString.strcmp_eq_zero_iff] at hname
  have hmem : (108 : UInt8) ∈ ipAdrBytes sAddr := by
    show 108 ∈ (ipAdr sAddr).bytes
    rw [hname]
    decide
  rcases mem_ipAdrBytes hmem with hdot | ⟨d, hd, hdigit⟩
  · cases hdot
  · have htoNat := Decimal.toNat_digit hd
    rw [← hdigit] at htoNat
    have hl : (108 : UInt8).toNat = 108 := rfl
    omega

/-- `InitTx` copies inside its array exactly the addresses that are shorter than it. -/
theorem length_txIpAdr_lt_iff (ipAddress : CString) :
    (txIpAdr ipAddress).length < sizeofTxIpAdr ↔ ipAddress.length < sizeofTxIpAdr := by
  unfold txIpAdr
  split
  · exact Iff.rfl
  · next hname =>
      rw [not_not, CString.strcmp_eq_zero_iff] at hname
      rw [hname]
      decide

/-- **The printed address.**  Whatever the address of a peer and whatever the arrays held before,
the text that `accept` prints fits into `IpAdr`, is read back from it and tells the address, and
`InitTx` takes it as it is and copies it inside its own array. -/
theorem ipAdr_text (sAddr : UInt32) (memory memory' : ℕ → UInt8) :
    (ipAdr sAddr).length < sizeofIpAdr ∧
      CString.read (CString.strcpy memory (ipAdr sAddr)) sizeofIpAdr = ipAdr sAddr ∧
      addressOf (ipAdr sAddr) = sAddr.toNat ∧
      (txIpAdr (ipAdr sAddr)).length < sizeofTxIpAdr ∧
      CString.read (CString.strcpy memory' (txIpAdr (ipAdr sAddr))) sizeofTxIpAdr =
        ipAdr sAddr := by
  have hlength := length_ipAdr_le sAddr
  have hfits : (ipAdr sAddr).length < sizeofIpAdr := hlength.trans_lt (by decide)
  have htx : (ipAdr sAddr).length < sizeofTxIpAdr := hlength.trans_lt (by decide)
  refine ⟨hfits, CString.read_strcpy memory hfits, addressOf_ipAdr sAddr,
    (length_txIpAdr_lt_iff _).mpr htx, ?_⟩
  rw [txIpAdr_ipAdr]
  exact CString.read_strcpy memory' htx

end XbeeAssignment.Socket
