/-
  Internet checksums (`utils.cpp`), and the headers that carry them.

  `ducknet_checksum_sum` adds words as the processor reads them, low byte first, in 32 bits;
  `ducknet_checksum` adds the carries at the low end until 16 bits are left, and inverts the result.
  The receiver adds the words as they are on the wire, high byte first, with an end-around carry, and
  expects all ones (`Accepts`).  Both are about the exact sum of the words, `wordSum`, modulo 65535:
  below 2 ^ 16 bytes nothing wraps around (`toNat_checksumSum`), the loop over the carries keeps the
  sum modulo 65535 (`foldCarries_spec`), and so does the order of the bytes (`accepts_iff`).

  The checksum is 0 exactly if the words without it are a positive multiple of 65535
  (`checksum_eq_zero_iff`).  In a UDP header 0 means that there is no checksum, and
  `ducknet_udp_send` does not send all ones in its place.
-/
import JudgeDuck.Ducknet.RoundTrip
import JudgeDuck.Lib.OnesComplement
import Mathlib.Algebra.Order.BigOperators.Group.List
import Mathlib.Data.List.GetD

namespace JudgeDuck.Ducknet

open JudgeDuck.Lib

/-! ## Sums of words -/

/-- The sum of the words in memory, low byte first. -/
def wordSum (bs : List UInt8) : Nat := (wordsLE 256 (bs.map UInt8.toNat)).sum

/-- What a receiver tests: the ones' complement sum of the words on the wire, the last byte padded
    with zero, is all ones. -/
def Accepts (bs : List UInt8) : Prop := onesSum 65535 (wordsBE 256 (bs.map UInt8.toNat)) = 65535

section Sums

variable {bs bs' : List UInt8}

theorem lt_of_mem_digits : ∀ x ∈ bs.map UInt8.toNat, x < 256 := by
  intro x hx
  obtain ⟨b, -, rfl⟩ := List.mem_map.mp hx
  exact b.toNat_lt

theorem accepts_iff : Accepts bs ↔ 0 < wordSum bs ∧ 65535 ∣ wordSum bs :=
  onesSum_wordsBE (by decide) (by decide) lt_of_mem_digits

theorem wordSum_append (h : 2 ∣ bs.length) : wordSum (bs ++ bs') = wordSum bs + wordSum bs' := by
  rw [wordSum, wordsLE, List.map_append, words_append (by rwa [List.length_map]), List.sum_append]
  rfl

theorem wordSum_cons (lo hi : UInt8) :
    wordSum (lo :: hi :: bs) = lo.toNat + 256 * hi.toNat + wordSum bs := by
  rw [wordSum, wordsLE, List.map_cons, List.map_cons, words, List.sum_cons, Nat.one_mul]
  rfl

theorem wordSum_singleton (b : UInt8) : wordSum [b] = b.toNat := by
  rw [wordSum, wordsLE, List.map_singleton, words, List.sum_singleton, Nat.one_mul]

theorem wordSum_le16 (x : UInt16) : wordSum (le16 x) = x.toNat := by
  have hx := x.toNat_lt
  rw [le16, wordSum_cons]
  simp [wordSum, wordsLE, words, Nat.shiftRight_eq_div_pow]
  omega

/-- Words are below 2 ^ 16. -/
theorem wordSum_le (bs : List UInt8) : wordSum bs ≤ 65535 * ((bs.length + 1) / 2) := by
  have hword : ∀ w ∈ wordsLE 256 (bs.map UInt8.toNat), w ≤ 65535 :=
    le_of_mem_words fun x hx => Nat.le_of_lt_succ (lt_of_mem_digits x hx)
  have hsum := List.sum_le_card_nsmul _ 65535 hword
  rw [wordsLE, length_words, List.length_map, Nat.nsmul_eq_mul, Nat.mul_comm] at hsum
  exact hsum

/-! ## `ducknet_checksum_sum` -/

theorem toNat_word (lo hi : UInt8) :
    (lo.toUInt32 + (hi.toUInt32 <<< 8)).toNat = lo.toNat + 256 * hi.toNat := by
  have hlo := lo.toNat_lt
  have hhi := hi.toNat_lt
  simp [Nat.shiftLeft_eq]
  omega

/-- **The loop adds up the words**, as long as the sum fits into 32 bits. -/
theorem toNat_checksumLoop {sum : UInt32} (h : sum.toNat + wordSum bs < 2 ^ 32) :
    (checksumLoop sum bs).toNat = sum.toNat + wordSum bs := by
  induction sum, bs using checksumLoop.induct with
  | case1 sum lo hi bs ih =>
    rw [wordSum_cons] at h ⊢
    have hstep : (sum + (lo.toUInt32 + (hi.toUInt32 <<< 8))).toNat =
        sum.toNat + (lo.toNat + 256 * hi.toNat) := by
      rw [UInt32.toNat_add, toNat_word, Nat.mod_eq_of_lt (by omega)]
    rw [checksumLoop, ih (by omega), hstep]
    omega
  | case2 sum b =>
    rw [wordSum_singleton] at h ⊢
    rw [checksumLoop, UInt32.toNat_add, UInt8.toNat_toUInt32, Nat.mod_eq_of_lt h]
  | case3 sum => rfl

/-- **The sum** of less than 2 ^ 16 bytes is exact. -/
theorem toNat_checksumSum (h : bs.length < 65536) : (checksumSum bs).toNat = wordSum bs := by
  have hle := wordSum_le bs
  rw [checksumSum, toNat_checksumLoop]
  · exact Nat.zero_add _
  · rw [UInt32.toNat_zero]
    omega

end Sums

/-! ## `ducknet_checksum` -/

section Fold

variable {sum : UInt32} {bs : List UInt8}

theorem shift_eq_zero : sum >>> 16 = 0 ↔ sum.toNat ≤ 65535 := by
  rw [← UInt32.toNat_inj, UInt32.toNat_shiftRight]
  simp only [UInt32.reduceToNat, Nat.reduceMod, Nat.shiftRight_eq_div_pow]
  omega

/-- **The loop over the carries** keeps the sum modulo 65535, and makes it 0 only if it was. -/
theorem foldCarries_spec (sum : UInt32) : (foldCarries sum).toNat ≤ 65535 ∧
    (foldCarries sum).toNat % 65535 = sum.toNat % 65535 ∧
    ((foldCarries sum).toNat = 0 ↔ sum.toNat = 0) := by
  induction sum using foldCarries.induct with
  | case1 sum hcarry ih =>
    have hfold := toNat_foldOnce sum
    rw [foldCarries, dif_pos hcarry]
    omega
  | case2 sum hdone =>
    rw [foldCarries, dif_neg hdone]
    exact ⟨shift_eq_zero.mp (not_not.mp hdone), rfl, Iff.rfl⟩

/-- Two turns are enough. -/
theorem foldCarries_turns (sum : UInt32) : ∃ n, n ≤ 2 ∧ foldCarries sum = foldOnce^[n] sum := by
  have hlt := sum.toNat_lt
  have hone := toNat_foldOnce sum
  have htwo := toNat_foldOnce (foldOnce sum)
  by_cases h0 : sum >>> 16 = 0
  · exact ⟨0, by omega, by rw [foldCarries, dif_neg (not_not.mpr h0)]; rfl⟩
  by_cases h1 : foldOnce sum >>> 16 = 0
  · refine ⟨1, by omega, ?_⟩
    rw [foldCarries, dif_pos h0, foldCarries, dif_neg (not_not.mpr h1)]
    rfl
  · have h2 : foldOnce (foldOnce sum) >>> 16 = 0 := by
      rw [shift_eq_zero]
      omega
    refine ⟨2, Nat.le_refl 2, ?_⟩
    rw [foldCarries, dif_pos h0, foldCarries, dif_pos h1, foldCarries, dif_neg (not_not.mpr h2)]
    rfl

theorem toNat_checksum : (checksum bs sum).toNat =
    65535 - (foldCarries (sum + checksumSum bs)).toNat := by
  have hle := (foldCarries_spec (sum + checksumSum bs)).1
  rw [checksum, UInt16.toNat_not, UInt32.toNat_toUInt16, Nat.mod_eq_of_lt (by omega)]
  rfl

/-- **The checksum** makes the sum of the words a positive multiple of 65535. -/
theorem checksum_spec (h : (sum + checksumSum bs).toNat = sum.toNat + wordSum bs) :
    0 < sum.toNat + wordSum bs + (checksum bs sum).toNat ∧
      65535 ∣ sum.toNat + wordSum bs + (checksum bs sum).toNat := by
  obtain ⟨hle, hmod, hzero⟩ := foldCarries_spec (sum + checksumSum bs)
  rw [h] at hmod hzero
  rw [toNat_checksum]
  omega

/-- It is 0 only if the words are such a multiple without it. -/
theorem checksum_eq_zero_iff (h : (sum + checksumSum bs).toNat = sum.toNat + wordSum bs) :
    checksum bs sum = 0 ↔ 0 < sum.toNat + wordSum bs ∧ 65535 ∣ sum.toNat + wordSum bs := by
  obtain ⟨hle, hmod, hzero⟩ := foldCarries_spec (sum + checksumSum bs)
  rw [h] at hmod hzero
  rw [← UInt16.toNat_inj, toNat_checksum, UInt16.toNat_zero]
  omega

end Fold

/-! ## A field for the checksum -/

/-- What is sent behind the bytes `pre`: the checksum stands between `l1` and `l2`. -/
def checksummed (pre l1 l2 : List UInt8) : List UInt8 :=
  l1 ++ le16 (checksum (l1 ++ [0, 0] ++ l2) (checksumSum pre)) ++ l2

section Field

variable {pre bs l1 l2 : List UInt8}

theorem wordSum_field (x : UInt16) (h1 : 2 ∣ l1.length) :
    wordSum (l1 ++ le16 x ++ l2) = wordSum l1 + x.toNat + wordSum l2 := by
  have hfield : 2 ∣ (l1 ++ le16 x).length := by
    rw [List.length_append]
    exact Nat.dvd_add h1 (Nat.dvd_refl 2)
  rw [wordSum_append hfield, wordSum_append h1, wordSum_le16]

/-- The two sums that `ducknet_checksum` adds do not wrap around either. -/
theorem toNat_total (hpre : pre.length < 65536) (hlen : bs.length < 65536) :
    (checksumSum pre + checksumSum bs).toNat = (checksumSum pre).toNat + wordSum bs := by
  have hle := wordSum_le pre
  have hle' := wordSum_le bs
  rw [UInt32.toNat_add, toNat_checksumSum hpre, toNat_checksumSum hlen, Nat.mod_eq_of_lt]
  omega

/-- **What carries its checksum is accepted.** -/
theorem accepts_checksummed (hpre : 2 ∣ pre.length) (hpre' : pre.length < 65536)
    (h1 : 2 ∣ l1.length) (hlen : (l1 ++ [0, 0] ++ l2).length < 65536) :
    Accepts (pre ++ checksummed pre l1 l2) := by
  have hspec := checksum_spec (toNat_total hpre' hlen)
  have hzero : wordSum (l1 ++ [0, 0] ++ l2) = wordSum l1 + 0 + wordSum l2 := wordSum_field 0 h1
  rw [toNat_checksumSum hpre', hzero] at hspec
  rw [accepts_iff, wordSum_append hpre, checksummed, wordSum_field _ h1]
  omega

theorem accepts_checksummed_nil (h1 : 2 ∣ l1.length) (hlen : (l1 ++ [0, 0] ++ l2).length < 65536) :
    Accepts (checksummed [] l1 l2) := by
  have h := @accepts_checksummed [] l1 l2 (Nat.dvd_zero 2) (Nat.zero_lt_succ _) h1 hlen
  exact h

/-- **The checksum is 0** exactly if the bytes are accepted as they are. -/
theorem checksum_eq_zero_iff_accepts (hpre : 2 ∣ pre.length) (hpre' : pre.length < 65536)
    (hlen : bs.length < 65536) : checksum bs (checksumSum pre) = 0 ↔ Accepts (pre ++ bs) := by
  rw [checksum_eq_zero_iff (toNat_total hpre' hlen), toNat_checksumSum hpre', accepts_iff,
    wordSum_append hpre]

end Field

/-! ## The headers -/

theorem ipv4Header_checksummed (hdr : IPv4Header) (h : hdr.checksum = 0) :
    { hdr with checksum := checksum hdr.bytes 0 }.bytes =
      checksummed [] (hdr.bytes.take 10) (hdr.bytes.drop 12) := by
  have hsplit : hdr.bytes = hdr.bytes.take 10 ++ le16 hdr.checksum ++ hdr.bytes.drop 12 := rfl
  have hzero : hdr.bytes.take 10 ++ [0, 0] ++ hdr.bytes.drop 12 = hdr.bytes := by
    rw [h] at hsplit
    exact hsplit.symm
  rw [checksummed, hzero]
  rfl

theorem udpHeader_checksummed (hdr : UdpHeader) (pre content : List UInt8)
    (h : hdr.checksum = 0) :
    { hdr with checksum := checksum (hdr.bytes ++ content) (checksumSum pre) }.bytes ++ content =
      checksummed pre (hdr.bytes.take 6) content := by
  have hsplit : hdr.bytes = hdr.bytes.take 6 ++ le16 hdr.checksum := rfl
  have hzero : hdr.bytes.take 6 ++ [0, 0] = hdr.bytes := by
    rw [h] at hsplit
    exact hsplit.symm
  rw [checksummed, hzero]
  rfl

theorem icmpHeader_checksummed (hdr : IcmpHeader) (content : List UInt8)
    (h : hdr.checksum = 0) :
    { hdr with checksum := checksum (hdr.bytes ++ content) 0 }.bytes ++ content =
      checksummed [] (hdr.bytes.take 2) (hdr.bytes.drop 4 ++ content) := by
  have hsplit : hdr.bytes = hdr.bytes.take 2 ++ le16 hdr.checksum ++ hdr.bytes.drop 4 := rfl
  have hzero : hdr.bytes.take 2 ++ [0, 0] ++ (hdr.bytes.drop 4 ++ content) = hdr.bytes ++ content := by
    rw [h] at hsplit
    rw [← List.append_assoc]
    exact congrArg (· ++ content) hsplit.symm
  rw [checksummed, hzero]
  rfl

/-- The bytes of the header in the packet that `ipv4_build_packet` makes. -/
theorem ipv4BuildPacket_header {s : Stack} {pkt payload buf : Nat → UInt8} {dst : UInt32}
    {protocol : UInt8} {len : Int}
    (h : ipv4BuildPacket s pkt dst protocol payload len = some buf) :
    listOf (behind buf sizeofEtherHeader) sizeofIPv4Header =
      (builtHeader s.ip dst protocol len).bytes := by
  rw [ipv4BuildPacket] at h
  split at h
  · cases h
  split at h
  · cases h
  obtain rfl := Option.some.inj h
  have hput := listOf_putBytes (putBytes pkt 6 (s.mac.bytes ++ le16 (htons ethertypeIPv4)))
    sizeofEtherHeader (builtHeader s.ip dst protocol len).bytes
  refine Eq.trans ?_ hput
  rw [IPv4Header.length_bytes]
  exact listOf_congr fun t ht => memcpy_of_lt (Nat.add_lt_add_left ht sizeofEtherHeader)

/-- The message of an echo request with another header. -/
theorem listOf_putBytes_icmp (pkt : Nat → UInt8) (hdr : IcmpHeader) {n : Nat} (hn : 8 ≤ n) :
    listOf (putBytes pkt 0 hdr.bytes) n = hdr.bytes ++ listOf (behind pkt 8) (n - 8) := by
  have hput := listOf_putBytes pkt 0 hdr.bytes
  simp only [Nat.zero_add] at hput
  obtain ⟨k, rfl⟩ := Nat.exists_eq_add_of_le hn
  rw [listOf_add, Nat.add_sub_cancel_left, ← behind_putBytes (IcmpHeader.length_bytes hdr)]
  exact congrArg (· ++ _) hput

/-! ## What is sent -/

/-- What holds of the checksum that is stored between `l1` and `l2`, with the starting sum of
    `pre`. -/
structure ChecksumSound (pre l1 l2 : List UInt8) : Prop where
  /-- After any number of turns the sums are exact. -/
  exact : ∀ k, (checksumSum (pre.take k)).toNat = wordSum (pre.take k) ∧
    (checksumSum ((l1 ++ [0, 0] ++ l2).take k)).toNat = wordSum ((l1 ++ [0, 0] ++ l2).take k)
  /-- So is the sum of both. -/
  total : (checksumSum pre + checksumSum (l1 ++ [0, 0] ++ l2)).toNat =
    wordSum pre + wordSum (l1 ++ [0, 0] ++ l2)
  /-- The loop over the carries ends after two turns at most. -/
  ends : ∃ n, n ≤ 2 ∧ foldOnce^[n] (checksumSum pre + checksumSum (l1 ++ [0, 0] ++ l2)) >>> 16 = 0 ∧
    checksum (l1 ++ [0, 0] ++ l2) (checksumSum pre) =
      ~~~ (foldOnce^[n] (checksumSum pre + checksumSum (l1 ++ [0, 0] ++ l2))).toUInt16
  /-- The receiver accepts the words. -/
  accepted : Accepts (pre ++ checksummed pre l1 l2)

/-- **The checksum that is written verifies**, for an even pseudo header and a field at an even
    position. -/
theorem checksum_sound {pre l1 l2 : List UInt8} (hpre : 2 ∣ pre.length)
    (hpre' : pre.length < 65536) (h1 : 2 ∣ l1.length)
    (hlen : (l1 ++ [0, 0] ++ l2).length < 65536) : ChecksumSound pre l1 l2 := by
  refine ⟨fun k => ⟨?_, ?_⟩, ?_, ?_, accepts_checksummed hpre hpre' h1 hlen⟩
  · exact toNat_checksumSum (Nat.lt_of_le_of_lt (List.length_take_le' _ _) hpre')
  · exact toNat_checksumSum (Nat.lt_of_le_of_lt (List.length_take_le' _ _) hlen)
  · rw [toNat_total hpre' hlen, toNat_checksumSum hpre']
  · obtain ⟨n, hn, hturns⟩ :=
      foldCarries_turns (checksumSum pre + checksumSum (l1 ++ [0, 0] ++ l2))
    refine ⟨n, hn, ?_, ?_⟩
    · rw [← hturns, shift_eq_zero]
      exact (foldCarries_spec _).1
    · rw [checksum, hturns]

/-- The IPv4 header that `ipv4_build_packet` makes is accepted. -/
theorem accepts_ipv4 {s : Stack} {pkt payload buf : Nat → UInt8} {dst : UInt32} {protocol : UInt8}
    {len : Int} (h : ipv4BuildPacket s pkt dst protocol payload len = some buf) :
    Accepts (listOf (behind buf sizeofEtherHeader) sizeofIPv4Header) := by
  rw [ipv4BuildPacket_header h, builtHeader, ipv4Header_checksummed _ rfl]
  refine accepts_checksummed_nil ?_ ?_
  · rw [List.length_take, IPv4Header.length_bytes]
    decide
  · rw [List.length_append, List.length_append, List.length_take, List.length_drop,
      IPv4Header.length_bytes]
    decide

/-- A UDP datagram is accepted, together with its pseudo header. -/
theorem accepts_udp (src dst : UInt32) (dport sport : UInt16) {content : List UInt8}
    (hlen : content.length + 8 < 65536) :
    Accepts (udpPseudoHeader src dst (UInt16.ofNat (content.length + 8)) ++
      udpDatagram src dst dport sport content) := by
  have hpre : (udpPseudoHeader src dst (UInt16.ofNat (content.length + 8))).length = 12 := rfl
  rw [udpDatagram, udpHeader, udpHeader_checksummed _ _ _ rfl]
  refine accepts_checksummed ?_ ?_ ?_ ?_
  · rw [hpre]
    decide
  · rw [hpre]
    decide
  · rw [List.length_take, UdpHeader.length_bytes]
    decide
  · rw [List.length_append, List.length_append, List.length_take, UdpHeader.length_bytes]
    simp only [List.length_cons, List.length_nil]
    omega

/-- An echo reply is accepted. -/
theorem accepts_echoReply (pkt : Nat → UInt8) {n : Nat} (hn : 8 ≤ n) (hlen : n < 65536) :
    Accepts (listOf (echoReply pkt n) n) := by
  let hdr : IcmpHeader := { IcmpHeader.read pkt with type := icmpEchoReply, checksum := 0 }
  have hreply : listOf (echoReply pkt n) n =
      { hdr with checksum := checksum (hdr.bytes ++ listOf (behind pkt 8) (n - 8)) 0 }.bytes ++
        listOf (behind pkt 8) (n - 8) := by
    have hfirst := listOf_putBytes_icmp pkt hdr hn
    rw [← hfirst, ← behind_putBytes (IcmpHeader.length_bytes hdr)]
    exact listOf_putBytes_icmp _ _ hn
  rw [hreply, icmpHeader_checksummed hdr _ rfl]
  refine accepts_checksummed_nil ?_ ?_
  · rw [List.length_take, IcmpHeader.length_bytes]
    decide
  · simp only [List.length_append, List.length_take, List.length_drop, IcmpHeader.length_bytes,
      List.length_cons, List.length_nil, length_listOf]
    omega

/-- **Checksums verify**: those of any bytes with a field for them at an even offset, and so those of
    the three headers. -/
theorem checksums_verify :
    (∀ pre l1 l2 : List UInt8, 2 ∣ pre.length → pre.length < 65536 → 2 ∣ l1.length →
      (l1 ++ [0, 0] ++ l2).length < 65536 → ChecksumSound pre l1 l2) ∧
    (∀ (s : Stack) (pkt payload buf : Nat → UInt8) (dst : UInt32) (protocol : UInt8) (len : Int),
      ipv4BuildPacket s pkt dst protocol payload len = some buf →
      Accepts (listOf (behind buf sizeofEtherHeader) sizeofIPv4Header)) ∧
    (∀ (src dst : UInt32) (dport sport : UInt16) (content : List UInt8),
      content.length + 8 < 65536 →
      Accepts (udpPseudoHeader src dst (UInt16.ofNat (content.length + 8)) ++
        udpDatagram src dst dport sport content)) ∧
    ∀ (pkt : Nat → UInt8) (n : Nat), 8 ≤ n → n < 65536 → Accepts (listOf (echoReply pkt n) n) := by
  refine ⟨?_, ?_, ?_, ?_⟩
  · intro pre l1 l2 hpre hpre' h1 hlen
    exact checksum_sound hpre hpre' h1 hlen
  · intro s pkt payload buf dst protocol len hbuild
    exact accepts_ipv4 hbuild
  · intro src dst dport sport content hlen
    exact accepts_udp src dst dport sport hlen
  · intro pkt n hn hlen
    exact accepts_echoReply pkt hn hlen

/-- Three bytes of content, so that the last word has one byte. -/
theorem checksums_verify_odd : ChecksumSound [10, 0, 0, 1] [1, 2] [3] ∧
    (∃ buf, ipv4BuildPacket sender (fun _ => 0) 0x0a000002 protocolUdp (fun _ => 0) 3 = some buf ∧
      Accepts (listOf (behind buf sizeofEtherHeader) sizeofIPv4Header)) ∧
    Accepts (udpPseudoHeader 0x0a000001 0x0a000002 11 ++
      udpDatagram 0x0a000001 0x0a000002 8000 1234 [1, 2, 3]) ∧
    Accepts (listOf (echoReply (fun _ => 8) (9 : Nat)) 9) := by
  obtain ⟨hfield, hipv4, hudp, hecho⟩ := checksums_verify
  refine ⟨hfield _ _ _ (by decide) (by decide) (by decide) (by decide), ⟨_, rfl, ?_⟩, ?_, ?_⟩
  · exact hipv4 sender (fun _ => 0) (fun _ => 0) _ 0x0a000002 protocolUdp 3 rfl
  · exact hudp 0x0a000001 0x0a000002 8000 1234 [1, 2, 3] (by decide)
  · exact hecho (fun _ => 8) 9 (by decide) (by decide)

/-! ## The checksum 0 -/

/-- The datagram as it is when its checksum is computed. -/
def udpUnchecked (dport sport : UInt16) (content : List UInt8) : List UInt8 :=
  (udpHton { sport := sport, dport := dport, checksum := 0
             length := UInt16.ofNat (content.length + sizeofUdpHeader) }).bytes ++ content

theorem udpHeader_checksum_eq_zero (src dst : UInt32) (dport sport : UInt16) {content : List UInt8}
    (hlen : content.length + 8 < 65536) :
    (udpHeader src dst dport sport content).checksum = 0 ↔
      Accepts (udpPseudoHeader src dst (UInt16.ofNat (content.length + sizeofUdpHeader)) ++
        udpUnchecked dport sport content) := by
  have hpre : (udpPseudoHeader src dst
      (UInt16.ofNat (content.length + sizeofUdpHeader))).length = 12 := rfl
  refine checksum_eq_zero_iff_accepts ?_ ?_ ?_
  · rw [hpre]
    decide
  · rw [hpre]
    decide
  · rw [List.length_append, UdpHeader.length_bytes, Nat.add_comm]
    exact hlen

/-- The header that stands at the start of a datagram. -/
theorem UdpHeader.read_udpDatagram (src dst : UInt32) (dport sport : UInt16)
    (content : List UInt8) :
    UdpHeader.read (fun t => (udpDatagram src dst dport sport content).getD t 0) =
      udpHeader src dst dport sport content := by
  refine UdpHeader.read_eq ?_
  rw [udpDatagram]
  generalize udpHeader src dst dport sport content = hdr
  rfl

/-- The datagram of a frame is behind the two other headers. -/
theorem getD_udpFrame (s : Stack) (mac : MacAddress) (dst : UInt32) (dport sport : UInt16)
    (content : List UInt8) (t : Nat) :
    (udpFrame s mac dst dport sport content).getD (34 + t) 0 =
      (udpDatagram s.ip dst dport sport content).getD t 0 := by
  rw [udpFrame, List.getD_append_right _ _ _ _ (by rw [EtherHeader.length_bytes]; omega),
    EtherHeader.length_bytes,
    List.getD_append_right _ _ _ _ (by rw [IPv4Header.length_bytes]; omega),
    IPv4Header.length_bytes]
  congr 1
  omega

/-- **A datagram is sent with a checksum** exactly if its words are not accepted without one. -/
theorem udpSend_checksum_ne_zero_iff (s : Stack) (dst : UInt32) (dport sport : UInt16)
    (payload : Nat → UInt8) (len : Int) (hlen : 0 ≤ len)
    (hmtu : len + sizeofUdpHeader + sizeofIPv4Header ≤ ducknetMTU) :
    let content := listOf payload len.toNat
    let datagram := fun t => (udpDatagram s.ip dst dport sport content).getD t 0
    udpSend s dst dport sport payload len =
        ipv4Send s dst protocolUdp datagram (len + sizeofUdpHeader) ∧
      ((UdpHeader.read datagram).checksum ≠ 0 ↔
        ¬ Accepts (udpPseudoHeader s.ip dst (UInt16.ofNat (content.length + sizeofUdpHeader)) ++
          udpUnchecked dport sport content)) := by
  intro content datagram
  have hsizes : (sizeofUdpHeader : Int) + sizeofIPv4Header = 28 := rfl
  have hmax : ducknetMTU = 1500 := rfl
  have hcontent : content.length = len.toNat := length_listOf _ _
  constructor
  · rw [udpSend, if_neg (by omega), if_neg (by omega)]
  · rw [UdpHeader.read_udpDatagram, not_iff_not]
    exact udpHeader_checksum_eq_zero s.ip dst dport sport (by omega)

theorem udpSend_checksum_ne_zero_three :
    let datagram := fun t => (udpDatagram sender.ip 0x0a000002 8000 1234 [1, 2, 3]).getD t 0
    udpSend sender 0x0a000002 8000 1234 (fun t => [1, 2, 3].getD t 0) 3 =
        ipv4Send sender 0x0a000002 protocolUdp datagram (3 + sizeofUdpHeader) ∧
      (UdpHeader.read datagram).checksum ≠ 0 := by
  have h := udpSend_checksum_ne_zero_iff sender 0x0a000002 8000 1234 (fun t => [1, 2, 3].getD t 0) 3
    (by decide) (by decide)
  refine ⟨h.1, h.2.mpr ?_⟩
  rw [accepts_iff]
  decide

/-- **An empty datagram** from port 52379 of 10.0.0.1 to port 8000 of 10.0.0.2: its words are
    accepted without a checksum, and the frame has 0 in the field. -/
theorem udpSend_checksum_zero : ∃ s' r frame,
    udpSend sender 0x0a000002 8000 52379 (fun _ => 0) (0 : Nat) = .ok (s', r) ∧
      s'.phy.calls = [⟨.sendbuf, frame⟩] ∧ frame.length = 42 ∧
      UdpHeader.read (fun t => frame.getD (34 + t) 0) = ⟨htons 52379, htons 8000, htons 8, 0⟩ := by
  obtain ⟨s', r, hsend, hcalls⟩ :=
    udpSend_calls (fun _ => 0) 8000 52379 (Nat.zero_le 1472) sender_lookup
  have hsum : (udpHeader sender.ip 0x0a000002 8000 52379 []).checksum = 0 := by
    rw [udpHeader_checksum_eq_zero _ _ _ _ (by decide), accepts_iff]
    decide
  refine ⟨s', r, _, hsend, hcalls, ?_, ?_⟩
  · rw [udpFrame, List.length_append, List.length_append, EtherHeader.length_bytes,
      IPv4Header.length_bytes, length_udpDatagram, length_listOf]
  · simp only [getD_udpFrame]
    rw [UdpHeader.read_udpDatagram, ← hsum]
    rfl

end JudgeDuck.Ducknet
