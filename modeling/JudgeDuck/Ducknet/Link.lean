/-
  Stations on one link.

  What a station passes to `ducknet_phy_send` may reach any station, any number of times, in any order, with
  padding behind it, or never.  Between that the stations send datagrams and idle, each by its own clock.
  Nobody else is on the link.  Whatever the order is,
    * an address that was resolved is the one of the station that has it (`resolved_is_true`): only replies
      are believed, and a station replies for itself only;
    * a datagram that arrives was sent, by the station whose address it bears, with these ports and this
      content, and to the station where it arrives or to all (`arrived_was_sent`).
-/
import JudgeDuck.Ducknet.Station

namespace JudgeDuck.Ducknet

open JudgeDuck.Lib

/-! ## The link -/

/-- The addresses of the stations. -/
structure Stations (ι : Type) where
  ip : ι → UInt32
  mac : ι → MacAddress

/-- The stations, and a log of the calls of `ducknet_udp_send`. -/
structure Net (ι : Type) where
  host : ι → Host
  sent : List (ι × Datagram)

/-- What happens on the link. -/
inductive LinkEvent (ι : Type) where
  /-- Station `i` sends a datagram. -/
  | send (i : ι) (d : Datagram)
  /-- Station `i` idles. -/
  | idle (i : ι) (now : UInt64)
  /-- The frame that station `j` passed on in its call `k` reaches station `i`. -/
  | receive (i j : ι) (k : Nat) (padding : List UInt8)

/-- Something happens to station `i`. -/
def Net.stepAt {ι : Type} [DecidableEq ι] (n : Net ι) (i : ι) (e : StationEvent) : Except Fault (Net ι) := do
  let h ← (n.host i).step e
  .ok { n with host := Function.update n.host i h }

/-- One event. -/
def Net.step {ι : Type} [DecidableEq ι] (n : Net ι) : LinkEvent ι → Except Fault (Net ι)
  | .send i d => Net.stepAt { n with sent := (i, d) :: n.sent } i (.send d)
  | .idle i now => n.stepAt i (.idle now)
  | .receive i j k padding =>
    match (n.host j).stack.phy.calls[k]? with
    | none => .ok n
    | some call => n.stepAt i (.receive (call.frame ++ padding))

/-- A run. -/
def Net.run {ι : Type} [DecidableEq ι] (n : Net ι) (es : List (LinkEvent ι)) : Except Fault (Net ι) :=
  es.foldlM Net.step n

/-- The stations before the run. -/
structure Net.Fresh {ι : Type} (S : Stations ι) (n : Net ι) : Prop where
  host : ∀ i, (n.host i).Fresh (S.ip i) (S.mac i)
  sent : n.sent = []

/-! ## Reading what a station wrote -/

section Reading

variable {ip ip' : UInt32} {mac mac' : MacAddress} {told : Datagram → Prop}
variable {pkt : Nat → UInt8} {len : Nat} {frame content padding : List UInt8}

/-- The frame of a packet. -/
theorem read_packet {next : MacAddress} {dst : UInt32} {protocol : UInt8}
    (hpkt : listOf pkt len = next.bytes ++ packetOf ip mac dst protocol content ++ padding) :
    EtherHeader.read pkt = ⟨next, mac, htons ethertypeIPv4⟩ ∧
      ipv4Hton (.read (behind pkt 14)) = ipv4Hton (builtHeader ip dst protocol content.length) ∧
      listOf (behind pkt 34) (content.length + padding.length) = content ++ padding := by
  have hether : listOf pkt len = EtherHeader.bytes ⟨next, mac, htons ethertypeIPv4⟩ ++
      ((builtHeader ip dst protocol content.length).bytes ++ (content ++ padding)) := by
    rw [hpkt]
    simp only [packetOf, EtherHeader.bytes, List.append_assoc]
  obtain ⟨hhead, hipv4⟩ := listOf_eq_append hether
  have hcontent : listOf (behind (behind pkt 14) 20) _ = content ++ padding := (listOf_eq_append hipv4).2
  rw [behind_behind, List.length_append] at hcontent
  exact ⟨EtherHeader.read_eq hhead, congrArg ipv4Hton (IPv4Header.read_eq (listOf_eq_append hipv4).1), hcontent⟩

theorem carriesIpv4_iff {next : MacAddress} : CarriesIpv4 mac' ⟨next, mac, htons ethertypeIPv4⟩ ↔
    next = mac' ∨ next = etherBroadcastAddr := by
  constructor
  · exact fun h => h.dst
  · exact fun h => ⟨h, htons_htons _⟩

/-- A header that a stack built, in a frame that holds the whole packet. -/
theorem carriesUdp_iff {dst : UInt32} {protocol : UInt8} {n : Nat} (h8 : 8 ≤ n) (hshort : n ≤ 1480)
    (hfits : n + 34 ≤ len) : CarriesUdp ip' len (ipv4Hton (builtHeader ip dst protocol n)) ↔
      protocol = protocolUdp ∧ (~~~ dst = 0 ∨ dst = ip') := by
  have hlength : (UInt16.ofNat ((n : Int).toNat + sizeofIPv4Header)).toNat = n + 20 := by
    rw [UInt16.toNat_ofNat']
    show ((n : Int).toNat + 20) % 65536 = _
    omega
  rw [ipv4Hton_builtHeader]
  constructor
  · exact fun h => ⟨h.protocol, h.dst⟩
  · rintro ⟨hprotocol, hdst⟩
    refine ⟨rfl, rfl, ?_, UInt16.zero_and, hdst, hprotocol, ?_⟩
    · simp only [hlength]
      omega
    · simp only [hlength]
      omega

/-- **The datagram that a station wrote** is read by the station that it is for. -/
theorem udpIn_datagram {next : MacAddress} {d : Datagram} (hlen : d.content.length ≤ 1472)
    (hframe : frame = next.bytes ++ packetOf ip mac d.dst protocolUdp
      (udpDatagram ip d.dst d.dport d.sport d.content) ++ padding) :
    udpIn ip' mac' frame =
      if (next = mac' ∨ next = etherBroadcastAddr) ∧ (~~~ d.dst = 0 ∨ d.dst = ip') then
        some ⟨ip, d.dst, udpHton (udpHeader ip d.dst d.dport d.sport d.content), d.content⟩
      else none := by
  have hsize := length_udpDatagram ip d.dst d.dport d.sport d.content
  have hwhole : (udpDatagram ip d.dst d.dport d.sport d.content).length + 34 ≤ frame.length := by
    rw [hframe, packetOf]
    simp only [List.length_append, MacAddress.length_bytes, IPv4Header.length_bytes]
    show _ ≤ 6 + (6 + 2 + 20 + _) + _
    omega
  have hcarries : CarriesUdp ip' frame.length (ipv4Hton (builtHeader ip d.dst protocolUdp _)) ↔ _ :=
    carriesUdp_iff (by omega) (by omega) hwhole
  obtain ⟨hether, hipv4, hcontent⟩ := read_packet ((listOf_getD frame 0).trans hframe)
  -- the datagram begins with the header, and its length says where it ends
  rw [udpDatagram, List.append_assoc, List.length_append, UdpHeader.length_bytes] at hcontent
  have hheader : udpHton (.read (behind (fun t => frame.getD t 0) 34)) = _ :=
    congrArg udpHton (UdpHeader.read_eq (listOf_eq_append hcontent).1)
  have hbehind : listOf (behind (behind (fun t => frame.getD t 0) 34) 8) _ = d.content ++ padding :=
    (listOf_eq_append hcontent).2
  have hbody : listOf (behind (fun t => frame.getD t 0) 42) d.content.length = d.content := by
    rw [behind_behind] at hbehind
    exact (listOf_eq_append hbehind).1
  have hlength : (ipv4Hton (builtHeader ip d.dst protocolUdp
      (udpDatagram ip d.dst d.dport d.sport d.content).length)).length.toNat - 28 = d.content.length := by
    rw [ipv4Hton_builtHeader, UInt16.toNat_ofNat', hsize]
    show (((d.content.length + 8 : Nat) : Int).toNat + 20) % 65536 - 28 = _
    omega
  rw [udpIn]
  simp only [hether, hipv4, carriesIpv4_iff, hcarries, true_and, hheader, hlength, hbody]
  rw [ipv4Hton_builtHeader]

/-- Other packets that a station wrote hold no datagram. -/
theorem udpIn_other {next : MacAddress} {dst : UInt32} {protocol : UInt8} (hother : protocol ≠ protocolUdp)
    (hframe : frame = next.bytes ++ packetOf ip mac dst protocol content ++ padding) :
    udpIn ip' mac' frame = none := by
  obtain ⟨-, hipv4, -⟩ := read_packet ((listOf_getD frame 0).trans hframe)
  refine if_neg fun hudp => hother ?_
  have hprotocol := hudp.2.protocol
  simp only [hipv4, ipv4Hton_builtHeader] at hprotocol
  exact hprotocol

/-- The frame of an ARP message. -/
theorem read_arp {next : MacAddress} {op : UInt16} {target : List UInt8}
    (hframe : frame = arpHeaders next mac op ++ (mac.bytes ++ le32 (htonl ip) ++ target) ++ padding) :
    EtherHeader.read (fun t => frame.getD t 0) = ⟨next, mac, htons ethertypeArp⟩ ∧
      listOf (behind (fun t => frame.getD t 0) 22) (frame.length - 22) =
        mac.bytes ++ (le32 (htonl ip) ++ (target ++ padding)) := by
  have hpkt : listOf (fun t => frame.getD t 0) frame.length =
      EtherHeader.bytes ⟨next, mac, htons ethertypeArp⟩ ++
        (ArpHeader.bytes ⟨htons htypeEthernet, htons ptypeIPv4, 6, 4, htons op⟩ ++
          (mac.bytes ++ (le32 (htonl ip) ++ (target ++ padding)))) := by
    rw [listOf_getD, hframe]
    simp only [arpHeaders, EtherHeader.bytes, ArpHeader.bytes, List.append_assoc]
  obtain ⟨hhead, harp⟩ := listOf_eq_append hpkt
  refine ⟨EtherHeader.read_eq hhead, ?_⟩
  have hbehind : listOf (behind (behind (fun t => frame.getD t 0) 14) 8) _ = _ := (listOf_eq_append harp).2
  have hlen := congrArg List.length hpkt
  rw [length_listOf, List.length_append, List.length_append] at hlen
  rw [behind_behind] at hbehind
  refine Eq.trans (congrArg _ ?_) hbehind
  have h14 : (EtherHeader.bytes ⟨next, mac, htons ethertypeArp⟩).length = 14 := rfl
  have h8 : (ArpHeader.bytes ⟨htons htypeEthernet, htons ptypeIPv4, 6, 4, htons op⟩).length = 8 := rfl
  omega

/-- The sender in an ARP message. -/
theorem read_sender {payload : Nat → UInt8} {rest : List UInt8} (h10 : 10 ≤ len)
    (hpayload : listOf payload len = mac.bytes ++ (le32 (htonl ip) ++ rest)) :
    readMac payload 0 = mac ∧ htonl (readU32 payload 6) = ip := by
  have hbyte : ∀ t, t < 10 → payload t = (mac.bytes ++ (le32 (htonl ip) ++ rest)).getD t 0 :=
    fun t ht => apply_of_listOf hpayload (by omega) 0
  refine ⟨?_, ?_⟩
  · rw [readMac]
    simp only [hbyte, Nat.reduceAdd, Nat.reduceLT]
    rfl
  · rw [readU32_eq hpayload (by omega) rfl rfl rfl rfl, htonl_htonl]

theorem udpIn_arp {next : MacAddress} {op : UInt16} {target : List UInt8}
    (hframe : frame = arpHeaders next mac op ++ (mac.bytes ++ le32 (htonl ip) ++ target) ++ padding) :
    udpIn ip' mac' frame = none := by
  refine if_neg fun hudp => ?_
  have htype := hudp.1.ethertype
  rw [(read_arp hframe).1, htons_htons] at htype
  exact absurd htype (by decide)

theorem HonestPacket.exists_packet {packet : List UInt8} (h : HonestPacket ip mac told packet) :
    ∃ dst protocol content, packet = packetOf ip mac dst protocol content := by
  cases h with
  | echo => exact ⟨_, _, _, rfl⟩
  | udp => exact ⟨_, _, _, rfl⟩

end Reading

/-! ## What is known -/

section Knowing

theorem bisect_le (below : Nat → Bool) {turns l r : Nat} (h : l ≤ r) : bisect below turns l r ≤ r := by
  induction turns generalizing l r with
  | zero => exact h
  | succ turns ih =>
    rw [bisect]
    split
    · rename_i hlt
      split
      · exact ih (by omega)
      · exact Nat.le_trans (ih (by omega)) (by omega)
    · exact h

/-- An update adds what it was told, at most; the table need not be sorted. -/
theorem mem_update {a : Arp} {currenttime tscFreq : UInt64} {ip : UInt32} {mac : MacAddress} {e : ArpEntry}
    (he : e ∈ (a.update currenttime tscFreq ip mac).1.entries) : e ∈ a.entries ∨ e.ip = ip ∧ e.mac = mac := by
  have hplace : search (fun i => (a.arpTable i).ip) a.nArpEntries ip ≤ a.nArpEntries :=
    Nat.le_trans (bisect_le _ (Nat.zero_le _)) (Nat.sub_le _ _)
  rw [Arp.update] at he
  generalize search (fun i => (a.arpTable i).ip) a.nArpEntries ip = l at he hplace
  split at he
  · split at he
    · exact .inl he
    · rcases (mem_listOf_insert hplace).mp he with rfl | hold
      · exact .inr ⟨rfl, rfl⟩
      · exact .inl hold
  · obtain ⟨k, hk, hke⟩ := mem_listOf.mp he
    simp only at hk hke
    by_cases hkl : k = l
    · rw [hkl, Function.update_self] at hke
      rw [← hke]
      exact .inr ⟨rfl, rfl⟩
    · rw [Function.update_of_ne hkl] at hke
      exact .inl (mem_listOf.mpr ⟨k, hk, hke⟩)


/-- What is found is in the table; it need not be sorted. -/
theorem mem_of_lookup {a : Arp} {ip : UInt32} {mac : MacAddress} (h : a.lookup ip = some mac) :
    ∃ e ∈ a.entries, e.ip = ip ∧ e.mac = mac := by
  rw [Arp.lookup] at h
  split at h
  · cases h
  · rename_i hfound
    rw [not_or, Nat.not_le, not_not] at hfound
    exact ⟨_, mem_listOf.mpr ⟨_, hfound.1, rfl⟩, hfound.2, Option.some.inj h⟩

variable {s s' : Stack}

theorem phySend_arp (s : Stack) (a : Buffer) (len : Int) : (phySend s a len).1.arp = s.arp := by
  obtain ⟨phy, hs, -⟩ := phySend_spec s a len
  rw [hs]

theorem arpQuery_entries (s : Stack) (ip : UInt32) : (arpQuery s ip).1.arp.entries = s.arp.entries := by
  by_cases hmiss : s.arp.Miss ip
  · by_cases hfull : s.arp.nArpQueries = arpTableSize
    · rw [arpQuery_full hmiss hfull]
    · obtain ⟨sendbuf, phy, -, hs⟩ := arpQuery_new hmiss hfull
      rw [hs]
      rfl
  · rw [arpQuery_found hmiss]

/-- Sending leaves the addresses that are known. -/
theorem ipv4Send_entries {dst : UInt32} {protocol : UInt8} {payload : Nat → UInt8} {len r : Int}
    (hsend : ipv4Send s dst protocol payload len = .ok (s', r)) : s'.arp.entries = s.arp.entries := by
  rw [ipv4Send] at hsend
  split at hsend
  · have hs' : _ = s' := congrArg Prod.fst (Except.ok.inj hsend)
    rw [← hs', sendResolved]
    split
    · rfl
    · rw [phySend_arp]
  · obtain ⟨id?, -, hsend⟩ := bind_ok hsend
    rw [← arpQuery_entries s (etherDst s dst)]
    cases id? with
    | none =>
      cases hsend
      rfl
    | some id =>
      have hs' : _ = s' := congrArg Prod.fst (Except.ok.inj hsend)
      rw [← hs', enqueue]
      split <;> rfl

theorem send_entries {d : Datagram} {r : Int} (hsend : s.send d = .ok (s', r)) :
    s'.arp.entries = s.arp.entries := by
  rw [Stack.send, udpSend] at hsend
  split at hsend
  · cases hsend
    rfl
  split at hsend
  · cases hsend
    rfl
  · exact ipv4Send_entries hsend

theorem sweepSlot_entries (k : Nat) (s : Stack) : (sweepSlot k s).arp.entries = s.arp.entries := by
  rw [sweepSlot]
  split
  · rfl
  split
  · rfl
  split
  · rw [passOn, phySend_arp]
  · rw [arpQuery_entries]

/-- Idling leaves the addresses that are known. -/
theorem stackIdle_entries (s : Stack) (now : UInt64) : (s.idle now).arp.entries = s.arp.entries := by
  rw [← idle_entries s.arp now, Stack.idle, ipv4Idle]
  split
  · rfl
  · refine forUp_inv (fun _ (t : Stack) => t.arp.entries = (s.arp.idle now).entries) ?_ ?_
    · rfl
    · exact fun k _ t ht => (sweepSlot_entries k t).trans ht

/-- The addresses that are known are true. -/
def Knows {ι : Type} (S : Stations ι) (a : Arp) : Prop := ∀ e ∈ a.entries, ∃ j, e.ip = S.ip j ∧ e.mac = S.mac j

variable {ι : Type} {S : Stations ι}

/-- What a station knows depends on its entries only. -/
theorem Knows.congr {a a' : Arp} (h : Knows S a) (ha : a'.entries = a.entries) : Knows S a' := by
  rw [Knows, ha]
  exact h

/-- An ARP message of a station is believed, or not. -/
theorem Knows.arpMessage {op : UInt16} {payload : Nat → UInt8} {len : Nat} {j : ι} {rest : List UInt8}
    (h : Knows S s.arp) (hpayload : listOf payload len = (S.mac j).bytes ++ (le32 (htonl (S.ip j)) ++ rest)) :
    Knows S (arpMessage s op payload len).1.arp := by
  rw [Ducknet.arpMessage]
  split
  · exact h
  rename_i hlong
  have hlen : 10 ≤ len := by
    have h20 : ¬ (len : Int) < 20 := hlong
    omega
  obtain ⟨hsha, hspa⟩ := read_sender hlen hpayload
  rw [hsha, hspa]
  simp only
  split
  · split
    · have hshort : (replyPayload s (S.mac j) (S.ip j) (htonl (readU32 payload 16))).length ≤ 1492 :=
        Nat.le_add_left 20 1472
      obtain ⟨sendbuf, phy, hs, -⟩ := arpSend_spec s (S.mac j) arpReply hshort
      rw [hs]
      exact h
    · exact h
  split
  · intro e he
    rcases mem_update he with hold | ⟨hip, hmac⟩
    · exact h e hold
    · exact ⟨j, hip, hmac⟩
  · exact h

end Knowing

/-! ## Every order of events -/

section Runs

variable {ι : Type} {S : Stations ι}

/-- A datagram that station `i` got was sent, and to it or to all. -/
def Genuine (S : Stations ι) (sent : List (ι × Datagram)) (i : ι) (call : UdpCall) : Prop :=
  ∃ j d, (j, d) ∈ sent ∧ call.src = S.ip j ∧ call.dst = d.dst ∧ (~~~ d.dst = 0 ∨ d.dst = S.ip i) ∧
    call.hdr.dport = d.dport ∧ call.hdr.sport = d.sport ∧ call.content = d.content

/-- What holds of station `i`. -/
structure Net.Sound (S : Stations ι) (sent : List (ι × Datagram)) (i : ι) (h : Host) : Prop where
  honest : h.Honest (S.ip i) (S.mac i) fun d => (i, d) ∈ sent
  knows : Knows S h.stack.arp
  log : ∀ call ∈ h.udpCalls, Genuine S sent i call

variable {sent : List (ι × Datagram)} {i j : ι} {h h' : Host} {frame padding : List UInt8}

theorem Net.Sound.mono (hh : Net.Sound S sent i h) (x : ι × Datagram) : Net.Sound S (x :: sent) i h := by
  refine ⟨⟨hh.honest.stack.mono fun d hd => List.mem_cons_of_mem x hd, hh.honest.hooks⟩, hh.knows, ?_⟩
  intro call hcall
  obtain ⟨j, d, hsent, hrest⟩ := hh.log call hcall
  exact ⟨j, d, List.mem_cons_of_mem x hsent, hrest⟩

/-- A datagram in a frame of a station was sent. -/
theorem genuine_of_udpIn {call : UdpCall}
    (hframe : HonestFrame (S.ip j) (S.mac j) (fun d => (j, d) ∈ sent) frame)
    (hcall : udpIn (S.ip i) (S.mac i) (frame ++ padding) = some call) : Genuine S sent i call := by
  cases hframe with
  | arp =>
    rw [udpIn_arp rfl] at hcall
    cases hcall
  | ipv4 hpacket =>
    cases hpacket with
    | echo =>
      rw [udpIn_other (by decide) rfl] at hcall
      cases hcall
    | @udp d htold hlen =>
      rw [udpIn_datagram hlen rfl] at hcall
      split at hcall
      · rename_i hfor
        cases hcall
        refine ⟨j, d, htold, rfl, rfl, hfor.2, ?_, ?_, rfl⟩
        · rw [udpHton_udpHeader]
        · rw [udpHton_udpHeader]
      · cases hcall

/-- **A frame of a station is received** as what it is. -/
theorem Net.Sound.receives (hh : Net.Sound S sent i h)
    (hframe : HonestFrame (S.ip j) (S.mac j) (fun d => (j, d) ∈ sent) frame)
    (hrecv : h.Receives (frame ++ padding) h') : Net.Sound S sent i h' := by
  have hhonest := hh.honest.receives hrecv
  cases hrecv with
  | refused => exact hh
  | arp op _ harp =>
    refine ⟨hhonest, ?_, hh.log⟩
    cases hframe with
    | @arp next op' target =>
      obtain ⟨frame, hframe⟩ : ∃ frame, frame = arpHeaders next (S.mac j) op' ++
        ((S.mac j).bytes ++ le32 (htonl (S.ip j)) ++ target) ++ padding := ⟨_, rfl⟩
      have hlong : 22 ≤ frame.length := by
        rw [hframe, List.length_append, List.length_append]
        show 22 ≤ 22 + _ + _
        omega
      have hcast : (frame.length : Int) - 22 = (frame.length - 22 : Nat) := by omega
      rw [← hframe, hcast]
      exact hh.knows.arpMessage (read_arp hframe).2
    | ipv4 hpacket =>
      obtain ⟨dst, protocol, content, rfl⟩ := hpacket.exists_packet
      rw [(read_packet (listOf_getD _ 0)).1, htons_htons] at harp
      exact absurd harp (by decide)
  | echo _ _ _ hsend => exact ⟨hhonest, hh.knows.congr (ipv4Send_entries hsend), hh.log⟩
  | @udp call hcall =>
    refine ⟨hhonest, hh.knows, ?_⟩
    intro call' hcall'
    rw [Host.udpCalls, List.filterMap_append, List.mem_append] at hcall'
    rcases hcall' with hold | hnew
    · exact hh.log call' hold
    · rw [List.mem_singleton.mp hnew]
      rw [hh.honest.stack.ip_eq, hh.honest.stack.mac_eq] at hcall
      exact genuine_of_udpIn hframe hcall

/-- **Something happens to a station.** -/
theorem Net.Sound.step {e : StationEvent} (hh : Net.Sound S sent i h) (hsend : ∀ d, e = .send d → (i, d) ∈ sent)
    (hrecv : ∀ frame, e = .receive frame → ∃ j own padding, frame = own ++ padding ∧
      HonestFrame (S.ip j) (S.mac j) (fun d => (j, d) ∈ sent) own)
    (hstep : h.step e = .ok h') : Net.Sound S sent i h' := by
  have hhonest := hh.honest.step hsend hstep
  cases e with
  | send d =>
    obtain ⟨⟨stack, r⟩, hsent, hstep⟩ := bind_ok hstep
    cases hstep
    exact ⟨hhonest, hh.knows.congr (send_entries hsent), hh.log⟩
  | idle now =>
    cases hstep
    exact ⟨hhonest, hh.knows.congr (stackIdle_entries h.stack now), hh.log⟩
  | receive frame =>
    obtain ⟨j, own, padding, rfl, hframe⟩ := hrecv frame rfl
    obtain ⟨⟨h1, r⟩, hreceived, hstep⟩ := bind_ok hstep
    cases hstep
    exact hh.receives hframe (receive_cases hh.honest.hooks hreceived)

variable [DecidableEq ι] {n n' : Net ι}

/-- **One event at one station** keeps all stations sound: what it receives is an honest frame of
    some station, with padding. -/
theorem sound_stepAt {e : StationEvent} (hn : ∀ k, Net.Sound S n.sent k (n.host k))
    (hsend : ∀ d, e = .send d → (i, d) ∈ n.sent)
    (hrecv : ∀ frame, e = .receive frame → ∃ j own padding, frame = own ++ padding ∧
      HonestFrame (S.ip j) (S.mac j) (fun d => (j, d) ∈ n.sent) own) :
    ∃ n', n.stepAt i e = .ok n' ∧ ∀ k, Net.Sound S n'.sent k (n'.host k) := by
  obtain ⟨h, hstep⟩ := exists_hostStep (n.host i) e
  refine ⟨{ n with host := Function.update n.host i h }, by rw [Net.stepAt, bind_of_ok hstep], ?_⟩
  intro k
  by_cases hki : k = i
  · rw [hki]
    simp only [Function.update_self]
    exact (hn i).step hsend hrecv hstep
  · simp only [Function.update_of_ne hki]
    exact hn k

/-- **One event.** -/
theorem sound_step (e : LinkEvent ι) (hn : ∀ k, Net.Sound S n.sent k (n.host k)) :
    ∃ n', n.step e = .ok n' ∧ ∀ k, Net.Sound S n'.sent k (n'.host k) := by
  cases e with
  | send i d =>
    refine sound_stepAt (n := { n with sent := (i, d) :: n.sent }) (fun k => (hn k).mono (i, d)) ?_ ?_
    · rintro d' ⟨⟩
      exact List.mem_cons_self
    · rintro frame ⟨⟩
  | idle i now =>
    refine sound_stepAt hn ?_ ?_
    · rintro d ⟨⟩
    · rintro frame ⟨⟩
  | receive i j k padding =>
    rw [Net.step]
    split
    · exact ⟨n, rfl, hn⟩
    · rename_i call hcall
      refine sound_stepAt hn ?_ ?_
      · rintro d ⟨⟩
      · rintro frame ⟨⟩
        exact ⟨j, call.frame, padding, rfl, (hn j).honest.stack.calls call (List.mem_of_getElem? hcall)⟩

/-- **A run.** -/
theorem sound_run (hn : n.Fresh S) (es : List (LinkEvent ι)) :
    ∃ n', n.run es = .ok n' ∧ ∀ k, Net.Sound S n'.sent k (n'.host k) := by
  refine exists_foldlM (fun n : Net ι => ∀ k, Net.Sound S n.sent k (n.host k)) ?_ ?_
  · exact fun n e _ hn => sound_step e hn
  · intro k
    refine ⟨(hn.host k).honest, ?_, ?_⟩
    · intro e he
      rw [Arp.entries, (hn.host k).entries] at he
      cases he
    · rw [Host.udpCalls, (hn.host k).log]
      intro call hcall
      cases hcall

omit [DecidableEq ι] in
theorem Knows.lookup {a : Arp} {mac : MacAddress} (hip : Function.Injective S.ip) (h : Knows S a)
    (hlookup : a.lookup (S.ip j) = some mac) : mac = S.mac j := by
  obtain ⟨e, he, heip, hemac⟩ := mem_of_lookup hlookup
  obtain ⟨j', hip', hmac'⟩ := h e he
  have hjj : j' = j := hip (hip'.symm.trans heip)
  rw [← hemac, hmac', hjj]

/-- **An address that a station has resolved is the true one**, after any run. -/
theorem resolved_is_true (hip : Function.Injective S.ip) (hn : n.Fresh S) (es : List (LinkEvent ι)) :
    ∃ n', n.run es = .ok n' ∧
      ∀ i j mac, (n'.host i).stack.arp.lookup (S.ip j) = some mac → mac = S.mac j := by
  obtain ⟨n', hrun, hsound⟩ := sound_run hn es
  exact ⟨n', hrun, fun i j mac hlookup => (hsound i).knows.lookup hip hlookup⟩

/-- **A datagram that arrives at a station was sent, as it arrives**, after any run. -/
theorem arrived_was_sent (hn : n.Fresh S) (es : List (LinkEvent ι)) :
    ∃ n', n.run es = .ok n' ∧ ∀ i, ∀ call ∈ (n'.host i).udpCalls, Genuine S n'.sent i call := by
  obtain ⟨n', hrun, hsound⟩ := sound_run hn es
  exact ⟨n', hrun, fun i => (hsound i).log⟩

end Runs

/-! ### Two stations -/

/-- The stations 10.0.0.1 and 10.0.0.2. -/
def pair : Stations Bool where
  ip b := if b then 0x0a000002 else 0x0a000001
  mac b := ⟨2, 0, 0, 0, 0, if b then 2 else 1⟩

def pairNet : Net Bool where
  host b := ⟨{ sender with mac := pair.mac b, ip := pair.ip b, arp := zeroArp }, serverHooks, []⟩
  sent := []

theorem fresh_pairNet : pairNet.Fresh pair := by
  refine ⟨fun i => ⟨rfl, rfl, rfl, ?_, rfl, rfl, rfl⟩, rfl⟩
  intro k hk
  rw [isFree_eq]
  exact mem_allFree hk

/-- A datagram waits, the address is asked for and told, and the datagram is passed on and arrives. -/
def pairRun : List (LinkEvent Bool) :=
  [.send false ⟨0x0a000002, 9999, 1234, [7]⟩, .receive true false 0 [], .receive false true 0 [0, 0],
    .idle false 1, .receive true false 1 []]

theorem pairRun_lookup : (pairNet.run pairRun).toOption.map (fun n => (n.host false).stack.arp.lookup 0x0a000002) =
    some (some (pair.mac true)) := by decide +kernel

theorem pairRun_calls : (pairNet.run pairRun).toOption.map (fun n => (n.host true).udpCalls.map UdpCall.content) =
    some [[7]] := by decide +kernel

theorem resolved_is_true_pair : ∃ n, pairNet.run pairRun = .ok n ∧
    (n.host false).stack.arp.lookup 0x0a000002 = some (pair.mac true) ∧
    ∀ i j mac, (n.host i).stack.arp.lookup (pair.ip j) = some mac → mac = pair.mac j := by
  have hip : Function.Injective pair.ip := by decide
  obtain ⟨n, hrun, htrue⟩ := resolved_is_true hip fresh_pairNet pairRun
  have hlookup := pairRun_lookup
  rw [hrun] at hlookup
  exact ⟨n, hrun, Option.some.inj hlookup, htrue⟩

theorem arrived_was_sent_pair : ∃ n, pairNet.run pairRun = .ok n ∧
    (n.host true).udpCalls.map UdpCall.content = [[7]] ∧
    ∀ i, ∀ call ∈ (n.host i).udpCalls, Genuine pair n.sent i call := by
  obtain ⟨n, hrun, hgenuine⟩ := arrived_was_sent fresh_pairNet pairRun
  have hcalls := pairRun_calls
  rw [hrun] at hcalls
  exact ⟨n, hrun, Option.some.inj hcalls, hgenuine⟩

end JudgeDuck.Ducknet
