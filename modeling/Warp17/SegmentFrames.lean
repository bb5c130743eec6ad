import Warp17.EthernetFrames
import Warp17.ControlBlock
import Warp17.TxTimestamps

/-!
# Segments in frames

`tcp_build_hdr_mbuf()` and `udp_build_hdr_mbuf()` put Ethernet, IPv4 and L4 headers in front of
the data; the receive functions take them off again.  The state machines know only what is
between the two: the packet that one of them hands down, and the packet control block that the
other one is given.

The checksums and the timestamp of the IPv4 option are what the frame has in it when it leaves:
the card fills in the checksums it was asked for, and the timestamp is written last.

**Results**
- `packet_received`: what was handed down is what is received, also with a VLAN tag, with a
  timestamp and with padding.
- `packet_received_software`: the checksums that the program computes pass its own tests.
-/

namespace Warp17
namespace SegmentFrames

open SequenceComparison MbufChains Ipv4Options ReceiveLengths L4Checksum ControlBlock
  TxTimestamps WordBytes EthernetFrames OnesComplement
open ArpTable (U64)

section Source

/-- What the headers are built from: `l4_control_block_t` and its socket options. -/
structure L4Cb where
  srcAddr : U32
  dstAddr : U32
  srcPort : U16
  dstPort : U16
  soVlan : VlanSockopt
  ip4soTos : UInt8
  ip4soTxTstamp : Bool
deriving DecidableEq

/-- The L4 part of a packet that is sent. -/
inductive L4Packet
  | tcp (p : TxPkt)
  | udp (data : List UInt8)
deriving DecidableEq

def L4Packet.proto : L4Packet → UInt8
  | .tcp _ => ipprotoTcp
  | .udp _ => ipprotoUdp

def L4Packet.data : L4Packet → List UInt8
  | .tcp p => p.data
  | .udp data => data

def L4Packet.hdrSize : L4Packet → Nat
  | .tcp _ => rteTcpHdrSize
  | .udp _ => rteUdpHdrSize

/-- `tcp_hdr->tcp_flags` -/
def tcpFlagsByte (flags : TcpFlags) : UInt8 :=
  (if flags.fin then 0x01 else 0) ||| (if flags.syn then 0x02 else 0) |||
    (if flags.rst then 0x04 else 0) ||| (if flags.psh then 0x08 else 0) |||
    (if flags.ack then 0x10 else 0) ||| (if flags.urg then 0x20 else 0)

/-- The flags of a received header. -/
def tcpFlagsOf (x : UInt8) : TcpFlags where
  fin := x &&& 0x01 != 0
  syn := x &&& 0x02 != 0
  rst := x &&& 0x04 != 0
  psh := x &&& 0x08 != 0
  ack := x &&& 0x10 != 0
  urg := x &&& 0x20 != 0

/-- The ports, in front of both headers. -/
def portBytes (cb : L4Cb) : List UInt8 :=
  netBytes 2 cb.srcPort.toNat ++ netBytes 2 cb.dstPort.toNat

/-- The header of `tcp_build_hdr()` in front of its checksum. -/
def tcpHdrBefore (cb : L4Cb) (p : TxPkt) : List UInt8 :=
  portBytes cb ++ (netBytes 4 p.seq.toNat ++ (netBytes 4 p.ack.toNat ++
    (UInt8.ofNat (rteTcpHdrSize >>> 2 <<< 4) :: tcpFlagsByte p.flags :: netBytes 2 p.wnd.toNat)))

/-- The header of `udp_build_hdr()` in front of its checksum. -/
def udpHdrBefore (cb : L4Cb) (data : List UInt8) : List UInt8 :=
  portBytes cb ++ netBytes 2 (data.length + rteUdpHdrSize)

/-- The L4 header in front of its checksum. -/
def L4Packet.before (cb : L4Cb) : L4Packet → List UInt8
  | .tcp p => tcpHdrBefore cb p
  | .udp data => udpHdrBefore cb data

/-- The L4 header behind its checksum: `tcp_urp`. -/
def L4Packet.after : L4Packet → List UInt8
  | .tcp _ => netBytes 2 0
  | .udp _ => []

/-- The L4 header with a checksum. -/
def L4Packet.hdr (cb : L4Cb) (pkt : L4Packet) (cksum : U16) : List UInt8 :=
  pkt.before cb ++ (bytes16 cksum ++ pkt.after)

/-- `ip_hdr_len` -/
def ipv4HdrLen (cb : L4Cb) : Nat :=
  stdIpv4HdrLen + if cb.ip4soTxTstamp then tstampOptionSize else 0

/-- `ipv4_tstamp_option_t` with a timestamp. -/
def tstampOption (tstamp : U64) : List UInt8 :=
  ipoptTs :: UInt8.ofNat tstampOptionSize :: UInt8.ofNat (tstampOptionSize + 1) :: 0 ::
    tstampBytes tstamp

/-- The header of `ipv4_build_hdr()` in front of its checksum. -/
def ipv4HdrBefore (cb : L4Cb) (protocol : UInt8) (l4Len : Nat) : List UInt8 :=
  UInt8.ofNat (4 <<< 4 ||| ipv4HdrLen cb >>> 2) :: cb.ip4soTos ::
    (netBytes 2 (ipv4HdrLen cb + l4Len) ++ (netBytes 2 0 ++ (netBytes 2 0 ++ [60, protocol])))

/-- The header behind its checksum, with a timestamp. -/
def ipv4HdrAfter (cb : L4Cb) (tstamp : U64) : List UInt8 :=
  netBytes 4 cb.srcAddr.toNat ++ (netBytes 4 cb.dstAddr.toNat ++
    if cb.ip4soTxTstamp then tstampOption tstamp else [])

/-- The header with a checksum and a timestamp. -/
def ipv4HdrBytes (cb : L4Cb) (protocol : UInt8) (l4Len : Nat) (cksum : U16) (tstamp : U64) :
    List UInt8 :=
  ipv4HdrBefore cb protocol l4Len ++ (bytes16 cksum ++ ipv4HdrAfter cb tstamp)

/-- The frame that leaves, with the checksums and the timestamp in it. -/
def packetFrame (cb : L4Cb) (dstMac srcMac : U64) (pkt : L4Packet) (ipCksum l4Cksum : U16)
    (tstamp : U64) : List UInt8 :=
  ethBuildHdr cb.soVlan dstMac srcMac rteEtherTypeIpv4 ++
    (ipv4HdrBytes cb pkt.proto (pkt.hdrSize + pkt.data.length) ipCksum tstamp ++
      (pkt.hdr cb l4Cksum ++ pkt.data))

/-- What the session lookup and the state machine get of a packet. -/
structure Received where
  srcAddr : U32
  dstAddr : U32
  proto : UInt8
  srcPort : U16
  dstPort : U16
  /-- `ipv4_tstamp_value` -/
  tstamp : U64
  passed : Passed

/-- `packet_control_block_t`, as the TCP state machine reads it. -/
def Received.pcb (r : Received) : Pcb :=
  let mem := rtePktmbufMtod r.passed.l4Mbuf
  { flags := tcpFlagsOf (mem 13)
    sentSeq := be32 mem 4
    recvAck := be32 mem 8
    rxWin := BitVec.ofNat 16 (be16 mem 14)
    tcpUrp := BitVec.ofNat 16 (be16 mem 18)
    l5Len := r.passed.pcbL5Len.zeroExtend 32
    mbuf := r.passed.pcbMbuf }

/-- The packet of a frame, if `eth_receive_pkt()` finds IPv4. -/
def ipv4Packet (mbuf : Chain) : Option Chain :=
  match ethReceivePkt ((chainBytes mbuf).length + 1) mbuf with
  | some ⟨_, some pkt⟩ => if pkt.etype = rteEtherTypeIpv4 then some pkt.mbuf else none
  | _ => none

/-- `pkt_receive_pkt()` up to the session lookup. -/
def receivePacket (rx : RxPort) (fuel : Nat) (stats : Stats) (mbuf : Chain) : Option Received :=
  (ipv4Packet mbuf).bind fun ip =>
    (ipv4ReceivePkt rx fuel stats ip).bind fun out =>
      out.passed.map fun passed =>
        { srcAddr := be32 (rtePktmbufMtod ip) 12
          dstAddr := be32 (rtePktmbufMtod ip) 16
          proto := nextProtoId (rtePktmbufMtod ip)
          srcPort := BitVec.ofNat 16 (be16 (rtePktmbufMtod passed.l4Mbuf) 0)
          dstPort := BitVec.ofNat 16 (be16 (rtePktmbufMtod passed.l4Mbuf) 2)
          tstamp := ((receiveOptions (rtePktmbufMtod ip) fuel).map
            OptionsOutcome.tstampValue).getD 0
          passed := passed }

end Source

section Headers

variable {cb : L4Cb} {mem : Nat → UInt8} {offset : Nat} {proto : UInt8} {l4Len : Nat}
  {cksum : U16} {tstamp : U64}

theorem tcpFlagsOf_byte
    (flags : TcpFlags) :
    tcpFlagsOf (tcpFlagsByte flags) = flags := by
  obtain ⟨fin, syn, rst, psh, ack, urg⟩ := flags
  revert fin syn rst psh ack urg
  decide

theorem ipv4HdrLen_cases
    (cb : L4Cb) :
    (cb.ip4soTxTstamp = false ∧ ipv4HdrLen cb = 20) ∨
      (cb.ip4soTxTstamp = true ∧ ipv4HdrLen cb = 32) := by
  unfold ipv4HdrLen
  cases cb.ip4soTxTstamp
  · exact .inl ⟨rfl, rfl⟩
  · exact .inr ⟨rfl, rfl⟩

theorem reverse_bytes32
    (x : U32) :
    (bytes32 x).reverse = netBytes 4 x.toNat := by
  have hlow : (x.truncate 16 : U16).toNat = x.toNat % 65536 := by
    rw [BitVec.truncate_eq_setWidth, BitVec.toNat_setWidth]
  have hhigh : ((x >>> 16).truncate 16 : U16).toNat = x.toNat / 65536 := by
    rw [BitVec.truncate_eq_setWidth, BitVec.toNat_setWidth, BitVec.toNat_ushiftRight,
      Nat.shiftRight_eq_div_pow]
    have hx := x.isLt
    omega
  have hbyte : ∀ a b : Nat, a % 256 = b % 256 → UInt8.ofNat a = UInt8.ofNat b := by
    intro a b hab
    rw [← UInt8.toNat_inj, UInt8.toNat_ofNat', UInt8.toNat_ofNat']
    exact hab
  simp only [bytes32, bytes16, hlow, hhigh, netBytes, List.cons_append, List.nil_append,
    List.reverse_cons, List.reverse_nil]
  refine List.cons_eq_cons.2 ⟨hbyte _ _ (by omega), List.cons_eq_cons.2 ⟨hbyte _ _ (by omega),
    List.cons_eq_cons.2 ⟨hbyte _ _ (by omega), List.cons_eq_cons.2 ⟨hbyte _ _ (by omega), rfl⟩⟩⟩⟩

theorem tstampBytes_eq
    (tstamp : U64) :
    tstampBytes tstamp = netBytes 4 ((tstamp.truncate 32 : U32)).toNat ++
      netBytes 4 (((tstamp >>> 32).truncate 32 : U32)).toNat := by
  rw [tstampBytes, reverse_bytes32, reverse_bytes32]

@[simp] theorem length_ipv4HdrBytes :
    (ipv4HdrBytes cb proto l4Len cksum tstamp).length = ipv4HdrLen cb := by
  obtain ⟨hts, hlen⟩ | ⟨hts, hlen⟩ := ipv4HdrLen_cases cb
  · simp [ipv4HdrBytes, ipv4HdrBefore, ipv4HdrAfter, hts, hlen, bytes16]
  · simp [ipv4HdrBytes, ipv4HdrBefore, ipv4HdrAfter, hts, hlen, bytes16, tstampOption,
      tstampBytes_eq]

@[simp] theorem length_bytes16
    (x : U16) :
    (bytes16 x).length = 2 := by
  rfl

@[simp] theorem length_hdr
    (cb : L4Cb) (pkt : L4Packet) (cksum : U16) :
    (pkt.hdr cb cksum).length = pkt.hdrSize := by
  cases pkt with
  | tcp p =>
      simp [L4Packet.hdr, L4Packet.before, L4Packet.after, tcpHdrBefore, portBytes,
        L4Packet.hdrSize, rteTcpHdrSize]
  | udp data =>
      simp [L4Packet.hdr, L4Packet.before, L4Packet.after, udpHdrBefore, portBytes,
        L4Packet.hdrSize, rteUdpHdrSize]

/-- The fields of an IPv4 header that was built. -/
structure Ipv4Built (mem : Nat → UInt8) (cb : L4Cb) (proto : UInt8) (l4Len : Nat) : Prop where
  hdrLen : ipHdrLen mem = ipv4HdrLen cb
  total : totalLength mem = ipv4HdrLen cb + l4Len
  whole : fragmentOffset mem = 0
  proto : nextProtoId mem = proto
  version : (mem 0).toNat &&& 0xF0 = 0x40
  srcAddr : be32 mem 12 = cb.srcAddr
  dstAddr : be32 mem 16 = cb.dstAddr

theorem be16_of_holds_nat
    {v : Nat}
    (h : Holds mem offset (netBytes 2 v))
    (hv : v < 2 ^ 16) :
    be16 mem offset = v := by
  obtain ⟨h0, h1, -⟩ := h
  exact be16_netBytes (by simpa using h0) (by simpa using h1) hv

/-- The first bytes of an mbuf. -/
theorem holds_of_data
    {m : Mbuf} {xs rest : List UInt8}
    (hdata : m.data = xs ++ rest) :
    Holds (rtePktmbufMtod [m]) 0 xs := by
  have hhold := holds_getD [] xs rest
  rw [List.nil_append, ← hdata] at hhold
  exact hhold

theorem ipv4Built_of_holds
    (h : Holds mem 0 (ipv4HdrBytes cb proto l4Len cksum tstamp))
    (hfits : ipv4HdrLen cb + l4Len < 2 ^ 16) :
    Ipv4Built mem cb proto l4Len := by
  simp only [ipv4HdrBytes, ipv4HdrBefore, ipv4HdrAfter, holds_cons, holds_append,
    length_netBytes, length_bytes16, List.length_cons, List.length_append, List.length_nil] at h
  obtain ⟨⟨hversion, -, htotal, -, hfrag, -, hproto, -⟩, -, hsrc, hdst, -⟩ := h
  have hihl : ipHdrLen mem = ipv4HdrLen cb ∧ (mem 0).toNat &&& 0xF0 = 0x40 := by
    rw [ipHdrLen, hversion]
    obtain ⟨-, hlen⟩ | ⟨-, hlen⟩ := ipv4HdrLen_cases cb
    · rw [hlen]
      decide
    · rw [hlen]
      decide
  exact
    { hdrLen := hihl.1
      total := be16_of_holds_nat htotal hfits
      whole := be16_of_holds_nat hfrag (by decide)
      proto := hproto
      version := hihl.2
      srcAddr := be32_of_holds hsrc
      dstAddr := be32_of_holds hdst }

/-- The options of a header that was built are the timestamp, if there is one. -/
theorem receiveOptions_built
    (fuel : Nat)
    (h : Holds mem 0 (ipv4HdrBytes cb proto l4Len cksum tstamp))
    (hbuilt : Ipv4Built mem cb proto l4Len) :
    ∃ out, receiveOptions mem (fuel + 2) = some out ∧ out.accepted = true ∧
      out.tstampValue = if cb.ip4soTxTstamp then tstamp else 0 := by
  simp only [ipv4HdrBytes, ipv4HdrBefore, ipv4HdrAfter, holds_cons, holds_append,
    length_netBytes, length_bytes16, List.length_cons, List.length_append, List.length_nil] at h
  obtain ⟨-, -, -, -, hoption⟩ := h
  rw [receiveOptions, hbuilt.hdrLen]
  obtain ⟨hts, hlen⟩ | ⟨hts, hlen⟩ := ipv4HdrLen_cases cb
  · rw [hlen, hts]
    exact ⟨_, if_neg (by decide), rfl, rfl⟩
  · rw [hts, if_pos rfl, tstampOption, tstampBytes_eq] at hoption
    simp only [holds_cons, holds_append, length_netBytes] at hoption
    obtain ⟨hcode, hoptLen, -, -, hlow, hhigh⟩ := hoption
    have hvalue : ipv4ParseOptionTimestamp mem 20 = tstamp := by
      rw [ipv4ParseOptionTimestamp, be32_of_holds hlow, be32_of_holds hhigh]
      refine BitVec.eq_of_toNat_eq ?_
      have hlt := tstamp.isLt
      rw [toNat_append]
      simp only [BitVec.truncate_eq_setWidth, BitVec.toNat_setWidth, BitVec.toNat_ushiftRight,
        Nat.shiftRight_eq_div_pow]
      omega
    have hcode : mem 20 = ipoptTs := hcode
    have hoptLen : (mem 21).toNat = 12 := by
      rw [show mem 21 = UInt8.ofNat tstampOptionSize from hoptLen]
      rfl
    rw [hlen, hts, if_pos (by decide), ipv4ParseOptions]
    simp [parseOptions, stdIpv4HdrLen, optionHdrSize, hoptLen, hcode, tstampOptionSize, hvalue,
      OptionsOutcome.skip]

end Headers

section Receive

variable {cb : L4Cb} {m : Mbuf} {proto : UInt8} {l4 padding : List UInt8} {ipCksum : U16}
  {tstamp : U64}

/-- The L4 part of a packet, behind its IPv4 header and without the padding. -/
theorem removePadding_built
    (hdata : m.data = ipv4HdrBytes cb proto l4.length ipCksum tstamp ++ (l4 ++ padding))
    (hpkt : m.pktLen = BitVec.ofNat 32 m.data.length)
    (hbuilt : Ipv4Built (rtePktmbufMtod [m]) cb proto l4.length)
    (hfits : ipv4HdrLen cb + l4.length < 2 ^ 16)
    (hl4 : l4 ≠ [])
    (hpadding : padding.length < 2 ^ 16) :
    HeaderAccepted [m] ∧
      ∃ l4Mbuf, removePadding
          (dataAdjChain [m] (BitVec.ofNat 32 (ipHdrLen (rtePktmbufMtod [m]))))
          (pcbL4Len (rtePktmbufMtod [m])) = some [l4Mbuf] ∧
        l4Mbuf.data = l4 ∧ l4Mbuf.pktLen = BitVec.ofNat 32 l4.length ∧ l4Mbuf.id = m.id := by
  have hpos := List.length_pos_iff.2 hl4
  have hlen : m.data.length = ipv4HdrLen cb + (l4.length + padding.length) := by
    rw [hdata, List.length_append, length_ipv4HdrBytes, List.length_append]
  have hlarge : stdIpv4HdrLen ≤ ipv4HdrLen cb := Nat.le_add_right _ _
  have hpktNat : m.pktLen.toNat = m.data.length := by
    rw [hpkt, BitVec.toNat_ofNat, Nat.mod_eq_of_lt (by omega)]
  refine ⟨?_, ?_⟩
  · exact
      { room := by
          simp only [rtePktmbufDataLen]
          omega
        whole := by
          rw [hbuilt.whole]
          exact ⟨rfl, rfl⟩
        inside := by
          rw [hbuilt.hdrLen]
          simp only [rtePktmbufDataLen]
          omega
        large := by
          rw [hbuilt.hdrLen]
          exact hlarge
        total := by
          rw [hbuilt.hdrLen, hbuilt.total, chainPktLen, hpktNat]
          omega
        version := hbuilt.version }
  · have hl4Len : (pcbL4Len (rtePktmbufMtod [m])).toNat = l4.length := by
      rw [pcbL4Len_toNat, hbuilt.total, hbuilt.hdrLen, Nat.add_sub_cancel_left]
    have hrest : m.data.drop (ipv4HdrLen cb) = l4 ++ padding := by
      rw [hdata, List.drop_left' length_ipv4HdrBytes]
    have hpktRest : m.pktLen - BitVec.ofNat 32 (ipv4HdrLen cb) =
        BitVec.ofNat 32 (l4.length + padding.length) := by
      rw [hpkt, hlen, BitVec.ofNat_sub_ofNat_of_le _ _ (by omega) (by omega),
        Nat.add_sub_cancel_left]
    rw [hbuilt.hdrLen, dataAdjChain_inside (by omega) (by omega), hrest, hpktRest, removePadding]
    have hwide : ((pcbL4Len (rtePktmbufMtod [m])).zeroExtend 32).toNat = l4.length := by
      rw [L4Checksum.zeroExtend_toNat, hl4Len]
    have hchain : (BitVec.ofNat 32 (l4.length + padding.length)).toNat =
        l4.length + padding.length := by
      rw [BitVec.toNat_ofNat, Nat.mod_eq_of_lt (by omega)]
    by_cases hnone : padding = []
    · subst hnone
      rw [if_neg]
      · exact ⟨_, rfl, List.append_nil l4, by rw [List.length_nil, Nat.add_zero], rfl⟩
      · simp only [chainPktLen]
        rw [BitVec.lt_def, hwide, hchain]
        simp
    · have hsome := List.length_pos_iff.2 hnone
      have htrim : ((BitVec.ofNat 32 (l4.length + padding.length) -
          (pcbL4Len (rtePktmbufMtod [m])).zeroExtend 32).truncate 16 : U16).toNat =
            padding.length := by
        rw [BitVec.truncate_eq_setWidth, BitVec.toNat_setWidth, BitVec.toNat_sub_of_le
          (by rw [BitVec.le_def, hwide, hchain]; omega), hwide, hchain, Nat.add_sub_cancel_left]
        exact Nat.mod_eq_of_lt hpadding
      rw [if_pos]
      · simp only [chainPktLen, rtePktmbufTrim, trimLastseg, htrim]
        rw [if_neg (by rw [List.length_append]; omega)]
        refine ⟨_, rfl, by simp, ?_, rfl⟩
        have hcut : ((BitVec.ofNat 32 (l4.length + padding.length) -
            (pcbL4Len (rtePktmbufMtod [m])).zeroExtend 32).truncate 16).zeroExtend 32 =
              BitVec.ofNat 32 padding.length := by
          refine BitVec.eq_of_toNat_eq ?_
          rw [L4Checksum.zeroExtend_toNat, htrim, BitVec.toNat_ofNat, Nat.mod_eq_of_lt (by omega)]
        rw [hcut, BitVec.ofNat_sub_ofNat_of_le _ _ (by omega) (by omega), Nat.add_sub_cancel]
      · simp only [chainPktLen]
        rw [BitVec.lt_def, hwide, hchain]
        omega

/-- The checksum test of the protocol of a packet. -/
def l4CksumInvalid (rx : RxPort) (hdr : Ipv4Hdr) (l4Len : U16) : L4Packet → Chain → Bool
  | .tcp _, mbuf => tcpCksumInvalid rx hdr l4Len mbuf
  | .udp _, mbuf => udpCksumInvalid rx hdr mbuf

/-- What was handed down is what is received. -/
structure ReceivedAs (cb : L4Cb) (pkt : L4Packet) (tstamp : U64) (r : Received) : Prop where
  srcAddr : r.srcAddr = cb.srcAddr
  dstAddr : r.dstAddr = cb.dstAddr
  proto : r.proto = pkt.proto
  srcPort : r.srcPort = cb.srcPort
  dstPort : r.dstPort = cb.dstPort
  tstamp : r.tstamp = if cb.ip4soTxTstamp then tstamp else 0
  l5Len : r.passed.pcbL5Len.toNat = pkt.data.length
  data : chainBytes r.passed.pcbMbuf = pkt.data
  chain : pkt.data ≠ [] → ChainOk r.passed.pcbMbuf
  tcp : ∀ p, pkt = .tcp p → r.pcb.flags = p.flags ∧ r.pcb.sentSeq = p.seq ∧
    r.pcb.recvAck = p.ack ∧ r.pcb.rxWin = p.wnd ∧ r.pcb.tcpUrp = 0

/-- The fields of an L4 header that was built. -/
structure L4Built (mem : Nat → UInt8) (cb : L4Cb) (pkt : L4Packet) : Prop where
  srcPort : BitVec.ofNat 16 (be16 mem 0) = cb.srcPort
  dstPort : BitVec.ofNat 16 (be16 mem 2) = cb.dstPort
  hdrLen : ∀ p, pkt = .tcp p → tcpHdrLen mem = rteTcpHdrSize
  tcp : ∀ p, pkt = .tcp p → tcpFlagsOf (mem 13) = p.flags ∧ be32 mem 4 = p.seq ∧
    be32 mem 8 = p.ack ∧ BitVec.ofNat 16 (be16 mem 14) = p.wnd ∧
    BitVec.ofNat 16 (be16 mem 18) = 0

theorem l4Built_of_holds
    {mem : Nat → UInt8} {pkt : L4Packet} {cksum : U16}
    (h : Holds mem 0 (pkt.hdr cb cksum)) :
    L4Built mem cb pkt := by
  cases pkt with
  | tcp p =>
      simp only [L4Packet.hdr, L4Packet.before, L4Packet.after, tcpHdrBefore, portBytes,
        holds_cons, holds_append, length_netBytes, length_bytes16, List.length_append,
        List.length_cons] at h
      obtain ⟨⟨⟨hsport, hdport⟩, hseq, hack, hoff, hflags, hwnd⟩, -, hurp⟩ := h
      have hoff : mem 12 = UInt8.ofNat (rteTcpHdrSize >>> 2 <<< 4) := hoff
      have hflags : mem 13 = tcpFlagsByte p.flags := hflags
      refine ⟨be16_of_holds hsport, be16_of_holds hdport, fun q _ => ?_, fun q hq => ?_⟩
      · rw [tcpHdrLen, hoff]
        rfl
      · obtain rfl := L4Packet.tcp.inj hq
        refine ⟨?_, be32_of_holds hseq, be32_of_holds hack, be16_of_holds hwnd,
          be16_of_holds (v := 0) hurp⟩
        rw [hflags, tcpFlagsOf_byte]
  | udp data =>
      simp only [L4Packet.hdr, L4Packet.before, L4Packet.after, udpHdrBefore, portBytes,
        holds_append, length_netBytes, List.length_append] at h
      obtain ⟨⟨⟨hsport, hdport⟩, -⟩, -⟩ := h
      exact ⟨be16_of_holds hsport, be16_of_holds hdport, (fun q hq => nomatch hq),
        (fun q hq => nomatch hq)⟩

theorem dgramLen_of_holds
    {mem : Nat → UInt8} {data : List UInt8} {cksum : U16}
    (h : Holds mem 0 ((L4Packet.udp data).hdr cb cksum))
    (hfits : data.length + rteUdpHdrSize < 2 ^ 16) :
    dgramLen mem = data.length + rteUdpHdrSize := by
  simp only [L4Packet.hdr, L4Packet.before, L4Packet.after, udpHdrBefore, portBytes,
    holds_append, length_netBytes, List.length_append] at h
  exact be16_of_holds_nat h.1.2 hfits

/-- The L4 functions pass a packet on that was built. -/
theorem ipv4Deliver_built
    {rx : RxPort} {c : Chain} {l4Mbuf : Mbuf} {pkt : L4Packet} {cksum : U16}
    (stats : Stats)
    (hbuilt : Ipv4Built (rtePktmbufMtod c) cb pkt.proto (pkt.hdrSize + pkt.data.length))
    (hfits : ipv4HdrLen cb + (pkt.hdrSize + pkt.data.length) < 2 ^ 16)
    (hremove : removePadding (dataAdjChain c (BitVec.ofNat 32 (ipHdrLen (rtePktmbufMtod c))))
      (pcbL4Len (rtePktmbufMtod c)) = some [l4Mbuf])
    (hdata : l4Mbuf.data = pkt.hdr cb cksum ++ pkt.data)
    (hpkt : l4Mbuf.pktLen = BitVec.ofNat 32 (pkt.hdr cb cksum ++ pkt.data).length)
    (hcksum : l4CksumInvalid rx (pcbIpv4 (rtePktmbufMtod c)) (pcbL4Len (rtePktmbufMtod c)) pkt
      [l4Mbuf] = false) :
    ∃ passed, (ipv4Deliver rx stats c).passed = some passed ∧ passed.l4Mbuf = [l4Mbuf] ∧
      passed.pcbL5Len.toNat = pkt.data.length ∧ chainBytes passed.pcbMbuf = pkt.data ∧
        (pkt.data ≠ [] → ChainOk passed.pcbMbuf) := by
  have hmem : L4Built (rtePktmbufMtod [l4Mbuf]) cb pkt :=
    l4Built_of_holds (holds_of_data hdata)
  have hlen : l4Mbuf.data.length = pkt.hdrSize + pkt.data.length := by
    rw [hdata, List.length_append, length_hdr]
  have hl4 : (pcbL4Len (rtePktmbufMtod c)).toNat = pkt.hdrSize + pkt.data.length := by
    rw [pcbL4Len_toNat, hbuilt.total, hbuilt.hdrLen, Nat.add_sub_cancel_left]
  have hsize : pkt.hdrSize < 2 ^ 16 := by
    cases pkt with
    | tcp p => exact (by decide : rteTcpHdrSize < 2 ^ 16)
    | udp data => exact (by decide : rteUdpHdrSize < 2 ^ 16)
  have hl5 : (pcbL4Len (rtePktmbufMtod c) - BitVec.ofNat 16 pkt.hdrSize).toNat =
      pkt.data.length := by
    have hsizeNat : (BitVec.ofNat 16 pkt.hdrSize).toNat = pkt.hdrSize := by
      rw [BitVec.toNat_ofNat, Nat.mod_eq_of_lt hsize]
    rw [BitVec.toNat_sub_of_le (by rw [BitVec.le_def, hl4, hsizeNat]; omega), hl4, hsizeNat,
      Nat.add_sub_cancel_left]
  have hbehind : chainBytes (dataAdjChain [l4Mbuf] (BitVec.ofNat 32 pkt.hdrSize)) = pkt.data := by
    rw [dataAdjChain_bytes (by omega) hsize, chainBytes_cons, chainBytes_nil, List.append_nil,
      hdata, List.drop_left' (length_hdr cb pkt cksum)]
  have hok : pkt.data ≠ [] → ChainOk (dataAdjChain [l4Mbuf] (BitVec.ofNat 32 pkt.hdrSize)) := by
    intro hsome
    have hpos := List.length_pos_iff.2 hsome
    have hdrop : l4Mbuf.data.drop pkt.hdrSize = pkt.data := by
      rw [hdata, List.drop_left' (length_hdr cb pkt cksum)]
    have hleft : l4Mbuf.pktLen - BitVec.ofNat 32 pkt.hdrSize = BitVec.ofNat 32 pkt.data.length := by
      rw [hpkt, ← hdata, hlen, BitVec.ofNat_sub_ofNat_of_le _ _ (by omega) (by omega),
        Nat.add_sub_cancel_left]
    rw [dataAdjChain_inside (by omega) hsize, hdrop, hleft]
    refine ⟨List.cons_ne_nil _ _, fun x hx => ?_, fun x hx => ?_, ?_⟩
    · rw [List.mem_singleton.1 hx]
      exact hsome
    · rw [List.mem_singleton.1 hx]
      change pkt.data.length < 2 ^ 16
      omega
    · rw [chainBytes_cons, chainBytes_nil, List.append_nil]
      rfl
  simp only [ipv4Deliver, hremove, hbuilt.proto]
  cases pkt with
  | tcp p =>
      have hhdrLen := hmem.hdrLen p rfl
      have hproto : nextProtoId (rtePktmbufMtod c) = ipprotoTcp := hbuilt.proto
      rw [L4Packet.proto, if_pos rfl]
      have haccepted : L4Accepted rx (rtePktmbufMtod c) [l4Mbuf] := by
        rw [L4Accepted, if_pos hproto, hhdrLen]
        refine ⟨le_rfl, ?_, hcksum⟩
        simp only [rtePktmbufDataLen, hlen, L4Packet.hdrSize]
        omega
      refine ⟨_, @tcpReceivePkt_passed rx _ stats _ hproto haccepted, rfl, ?_, ?_, ?_⟩
      · rw [hhdrLen]
        exact hl5
      · rw [hhdrLen]
        exact hbehind
      · rw [hhdrLen]
        exact hok
  | udp data =>
      have hproto : nextProtoId (rtePktmbufMtod c) = ipprotoUdp := hbuilt.proto
      rw [L4Packet.proto, if_neg (by decide), if_pos rfl]
      have haccepted : L4Accepted rx (rtePktmbufMtod c) [l4Mbuf] := by
        rw [L4Accepted, if_neg (by rw [hproto]; decide)]
        refine ⟨hproto, ?_, hcksum⟩
        simp only [rtePktmbufDataLen, hlen, L4Packet.hdrSize]
        omega
      exact ⟨_, @udpReceivePkt_passed rx _ stats _ hproto haccepted, rfl, hl5, hbehind, hok⟩

/-- The IPv4 packet of a frame that was built. -/
theorem ipv4Packet_built
    {payload : List UInt8}
    (vlan : VlanSockopt) (dstMac srcMac : U64)
    (hdata : m.data = ethBuildHdr vlan dstMac srcMac rteEtherTypeIpv4 ++ payload)
    (hpkt : m.pktLen = BitVec.ofNat 32 m.data.length)
    (hpayload : payload ≠ [])
    (hsmall : m.data.length < 2 ^ 32) :
    ∃ ip : Mbuf, ipv4Packet [m] = some [ip] ∧ ip.id = m.id ∧ ip.data = payload ∧
      ip.pktLen = BitVec.ofNat 32 ip.data.length := by
  have hlen : m.data.length =
      (ethBuildHdr vlan dstMac srcMac rteEtherTypeIpv4).length + payload.length := by
    rw [hdata, List.length_append]
  have hbuilt := @ethReceivePkt_built m [] rteEtherTypeIpv4 ((chainBytes [m]).length + 1) _ _ _
    payload (by decide) (by decide) hpayload (Nat.succ_pos _) hdata
  refine ⟨{ m with
    data := payload
    pktLen := m.pktLen -
      BitVec.ofNat 32 (ethBuildHdr vlan dstMac srcMac rteEtherTypeIpv4).length }, ?_, rfl, rfl, ?_⟩
  · rw [ipv4Packet, hbuilt]
    exact if_pos rfl
  have hsub := BitVec.ofNat_sub_ofNat_of_le (w := 32) m.data.length
    (ethBuildHdr vlan dstMac srcMac rteEtherTypeIpv4).length (by omega) (by omega)
  rw [hlen, Nat.add_sub_cancel_left, ← hlen, ← hpkt] at hsub
  exact hsub

/-- A packet whose checksums pass is received as it was handed down. -/
theorem receivePacket_built
    {rx : RxPort} {pkt : L4Packet} {l4Cksum : U16}
    (dstMac srcMac : U64) (fuel : Nat) (stats : Stats)
    (hdata : m.data = packetFrame cb dstMac srcMac pkt ipCksum l4Cksum tstamp ++ padding)
    (hpkt : m.pktLen = BitVec.ofNat 32 m.data.length)
    (hfits : ipv4HdrLen cb + (pkt.hdrSize + pkt.data.length) < 2 ^ 16)
    (hpadding : padding.length < 2 ^ 16)
    (hip : ∀ ip : Mbuf, ip.id = m.id →
      ip.data = ipv4HdrBytes cb pkt.proto (pkt.hdrSize + pkt.data.length) ipCksum tstamp ++
        ((pkt.hdr cb l4Cksum ++ pkt.data) ++ padding) →
      ipv4CksumInvalid rx [ip] (ipv4HdrLen cb) = false)
    (hl4 : ∀ ip l4Mbuf : Mbuf, l4Mbuf.id = m.id →
      Ipv4Built (rtePktmbufMtod [ip]) cb pkt.proto (pkt.hdrSize + pkt.data.length) →
      Holds (rtePktmbufMtod [ip]) 0
        (ipv4HdrBytes cb pkt.proto (pkt.hdrSize + pkt.data.length) ipCksum tstamp) →
      l4Mbuf.data = pkt.hdr cb l4Cksum ++ pkt.data →
      l4CksumInvalid rx (pcbIpv4 (rtePktmbufMtod [ip])) (pcbL4Len (rtePktmbufMtod [ip])) pkt
        [l4Mbuf] = false) :
    ∃ r, receivePacket rx (fuel + 2) stats [m] = some r ∧ ReceivedAs cb pkt tstamp r := by
  have hethLen : (ethBuildHdr cb.soVlan dstMac srcMac rteEtherTypeIpv4).length ≤ 18 := by
    unfold ethBuildHdr frameHdr
    split <;> simp [EtherAddr.bytes]
  have hl4Len : (pkt.hdr cb l4Cksum ++ pkt.data).length = pkt.hdrSize + pkt.data.length := by
    rw [List.length_append, length_hdr]
  have hl4Some : pkt.hdr cb l4Cksum ++ pkt.data ≠ [] := by
    rw [← List.length_pos_iff, hl4Len]
    cases pkt with
    | tcp p => exact Nat.lt_of_lt_of_le (by decide) (Nat.le_add_right rteTcpHdrSize _)
    | udp data => exact Nat.lt_of_lt_of_le (by decide) (Nat.le_add_right rteUdpHdrSize _)
  rw [packetFrame, List.append_assoc, List.append_assoc] at hdata
  obtain ⟨ip, hip4, hid, hipData, hipPkt⟩ := ipv4Packet_built cb.soVlan dstMac srcMac hdata hpkt
    (by simp [ipv4HdrBytes, ipv4HdrBefore]) (by
      rw [hdata, List.length_append, List.length_append, length_ipv4HdrBytes,
        List.length_append, hl4Len]
      omega)
  have hholds : Holds (rtePktmbufMtod [ip]) 0
      (ipv4HdrBytes cb pkt.proto (pkt.hdrSize + pkt.data.length) ipCksum tstamp) :=
    holds_of_data hipData
  have hbuilt := ipv4Built_of_holds hholds hfits
  obtain ⟨options, hoptions, haccepted, htstamp⟩ := receiveOptions_built fuel hholds hbuilt
  obtain ⟨hheader, l4Mbuf, hremove, hl4Data, hl4Pkt, hl4Id⟩ := removePadding_built
    (hl4Len ▸ hipData) hipPkt (hl4Len ▸ hbuilt) (hl4Len ▸ hfits) hl4Some hpadding
  obtain ⟨stats', -, hrun⟩ := @ipv4ReceivePkt_accepted rx [ip] hheader stats
  obtain ⟨passed, hpassed, hl4Chain, hl5, hbehind, hok⟩ := ipv4Deliver_built stats' hbuilt
    hfits hremove hl4Data hl4Pkt (hl4 ip l4Mbuf (hl4Id.trans hid) hbuilt hholds hl4Data)
  have hmem : L4Built (rtePktmbufMtod [l4Mbuf]) cb pkt :=
    l4Built_of_holds (holds_of_data hl4Data)
  have hout : ipv4ReceivePkt rx (fuel + 2) stats [ip] = some (ipv4Deliver rx stats' [ip]) := by
    rw [hrun, hoptions, Option.map_some, if_neg (by rw [haccepted]; decide), hbuilt.hdrLen,
      hip ip hid hipData]
    rfl
  rw [receivePacket, hip4, Option.bind_some, hout, Option.bind_some, hpassed, hoptions]
  refine ⟨_, rfl, ?_⟩
  exact
    { srcAddr := hbuilt.srcAddr
      dstAddr := hbuilt.dstAddr
      proto := hbuilt.proto
      srcPort := by
        simp only [hl4Chain]
        exact hmem.srcPort
      dstPort := by
        simp only [hl4Chain]
        exact hmem.dstPort
      tstamp := htstamp
      l5Len := hl5
      data := hbehind
      chain := hok
      tcp := by
        intro p hp
        obtain ⟨hflags, hseq, hack, hwnd, hurp⟩ := hmem.tcp p hp
        simp only [Received.pcb, hl4Chain]
        exact ⟨hflags, hseq, hack, hwnd, hurp⟩ }

end Receive

section Checksums

variable {cb : L4Cb} {proto : UInt8} {l4Len : Nat} {tstamp : U64}
  {rteRawCksum : List UInt8 → U16}

/-- The checksum of `ipv4_build_hdr()`, over a header with zeros for it and for the timestamp. -/
def ipv4SwCksum (rteRawCksum : List UInt8 → U16) (cb : L4Cb) (proto : UInt8) (l4Len : Nat) :
    U16 :=
  let hdrChecksum := rteRawCksum (ipv4HdrBytes cb proto l4Len 0 0)
  if hdrChecksum = 0xFFFF then hdrChecksum else ~~~hdrChecksum

/-- `pcb_ipv4` of a header that is built. -/
def builtIpv4Hdr (cb : L4Cb) (proto : UInt8) (l4Len : Nat) (ipCksum : U16) : Ipv4Hdr :=
  pcbIpv4 fun i => (ipv4HdrBytes cb proto l4Len ipCksum 0).getD i 0

/-- The mbuf of the headers, the L4 checksum still zero. -/
def hdrMbuf (cb : L4Cb) (dstMac srcMac : U64) (pkt : L4Packet) (ipCksum : U16) : Mbuf where
  id := 0
  data := ethBuildHdr cb.soVlan dstMac srcMac rteEtherTypeIpv4 ++
    ipv4HdrBytes cb pkt.proto (pkt.hdrSize + pkt.data.length) ipCksum 0 ++ pkt.hdr cb 0
  pktLen := BitVec.ofNat 32
    ((ethBuildHdr cb.soVlan dstMac srcMac rteEtherTypeIpv4).length + ipv4HdrLen cb + pkt.hdrSize)
  nbSegs := 1

/-- The checksum of `tcp_build_hdr()` and `udp_build_hdr()`, updated with the data. -/
def l4SwCksum (rteRawCksum : List UInt8 → U16) (cb : L4Cb) (dstMac srcMac : U64)
    (pkt : L4Packet) (ipCksum : U16) (data : Chain) : U16 :=
  sentCksum rteRawCksum (hdrMbuf cb dstMac srcMac pkt ipCksum)
    (builtIpv4Hdr cb pkt.proto (pkt.hdrSize + pkt.data.length) ipCksum)
    (BitVec.ofNat 16 ((ethBuildHdr cb.soVlan dstMac srcMac rteEtherTypeIpv4).length +
      ipv4HdrLen cb))
    (BitVec.ofNat 16 pkt.hdrSize) data

/-- A sum that is not zero folds to all ones when it is a multiple of all ones. -/
theorem folded_eq_ones
    {s : Nat}
    (hpos : s ≠ 0)
    (hzero : (s : Ones) = 0) :
    folded s = 65535 := by
  rw [ZMod.natCast_eq_zero_iff] at hzero
  rw [folded, if_neg hpos]
  omega

/-- The checksum of an IPv4 header makes its words add up to all ones. -/
theorem ipv4SwCksum_valid
    (hraw : RawCksum rteRawCksum)
    (htstamp : cb.ip4soTxTstamp = true → tstamp = 0) :
    rteRawCksum (ipv4HdrBytes cb proto l4Len (ipv4SwCksum rteRawCksum cb proto l4Len) tstamp) =
      0xffff := by
  have hzero : ∀ x : U16, ipv4HdrBytes cb proto l4Len x tstamp =
      ipv4HdrBytes cb proto l4Len x 0 := by
    intro x
    obtain ⟨hts, -⟩ | ⟨hts, -⟩ := ipv4HdrLen_cases cb
    · simp only [ipv4HdrBytes, ipv4HdrAfter, hts, Bool.false_eq_true, if_false]
    · rw [htstamp hts]
  have heven : oddLength (ipv4HdrBefore cb proto l4Len) = false := by
    simp [oddLength, ipv4HdrBefore]
  have hsum : ∀ x : U16, (wordSum (ipv4HdrBytes cb proto l4Len x 0) : Ones) =
      (wordSum (ipv4HdrBefore cb proto l4Len) : Ones) +
        ((x.toNat : Ones) + (wordSum (ipv4HdrAfter cb 0) : Ones)) := by
    intro x
    have hfield : oddLength (bytes16 x) = false := by
      simp [oddLength]
    rw [ipv4HdrBytes, wordSum_append (ipv4HdrBefore cb proto l4Len), heven,
      wordSum_append (bytes16 x), hfield, wordSum_bytes16]
    rfl
  have hpos : ∀ x : U16, wordSum (ipv4HdrBytes cb proto l4Len x 0) ≠ 0 := by
    intro x
    have hfirst : (UInt8.ofNat (4 <<< 4 ||| ipv4HdrLen cb >>> 2)).toNat ≠ 0 := by
      obtain ⟨-, hlen⟩ | ⟨-, hlen⟩ := ipv4HdrLen_cases cb
      · rw [hlen]
        decide
      · rw [hlen]
        decide
    rw [ipv4HdrBytes, ipv4HdrBefore, List.cons_append, List.cons_append, wordSum_cons_cons]
    omega
  have hraw0 := hraw (ipv4HdrBytes cb proto l4Len 0 0)
  have hle := folded_le (wordSum (ipv4HdrBytes cb proto l4Len 0 0))
  have hcast := folded_cast (wordSum (ipv4HdrBytes cb proto l4Len 0 0))
  rw [← hraw0] at hcast
  have hnegated : ((ipv4SwCksum rteRawCksum cb proto l4Len).toNat : Ones) =
      -((rteRawCksum (ipv4HdrBytes cb proto l4Len 0 0)).toNat : Ones) := by
    simp only [ipv4SwCksum]
    split
    · rename_i hall
      rw [hall]
      decide
    · rw [BitVec.toNat_not, ← complement_cast (by omega)]
  refine BitVec.eq_of_toNat_eq ?_
  rw [hraw, hzero]
  refine folded_eq_ones (hpos _) ?_
  rw [hsum, hnegated, hcast, hsum]
  have hnone : ((0 : U16).toNat : Ones) = 0 := rfl
  rw [hnone]
  ring

/-- The pseudo-header is read from the same bytes on both sides. -/
theorem pcbIpv4_of_holds
    {mem : Nat → UInt8} {ipCksum : U16}
    (h : Holds mem 0 (ipv4HdrBytes cb proto l4Len ipCksum tstamp))
    (htstamp : cb.ip4soTxTstamp = true → tstamp = 0) :
    pcbIpv4 mem = builtIpv4Hdr cb proto l4Len ipCksum := by
  have hzero : ipv4HdrBytes cb proto l4Len ipCksum tstamp =
      ipv4HdrBytes cb proto l4Len ipCksum 0 := by
    obtain ⟨hts, -⟩ | ⟨hts, -⟩ := ipv4HdrLen_cases cb
    · simp only [ipv4HdrBytes, ipv4HdrAfter, hts, Bool.false_eq_true, if_false]
    · rw [htstamp hts]
  rw [hzero] at h
  have hlarge : 20 ≤ ipv4HdrLen cb := Nat.le_add_right _ _
  have hbyte : ∀ i, i < 20 →
      mem i = (ipv4HdrBytes cb proto l4Len ipCksum 0).getD i 0 := by
    intro i hi
    have hread := h.getD (i := i) (by rw [length_ipv4HdrBytes]; omega)
    rwa [Nat.zero_add] at hread
  simp only [builtIpv4Hdr, pcbIpv4, le32, nextProtoId, hbyte _ (by decide : 9 < 20),
    hbyte _ (by decide : 12 < 20), hbyte _ (by decide : 12 + 1 < 20),
    hbyte _ (by decide : 12 + 2 < 20), hbyte _ (by decide : 12 + 3 < 20),
    hbyte _ (by decide : 16 < 20), hbyte _ (by decide : 16 + 1 < 20),
    hbyte _ (by decide : 16 + 2 < 20), hbyte _ (by decide : 16 + 3 < 20)]

theorem hdrSize_lt
    (pkt : L4Packet) :
    0 < pkt.hdrSize ∧ pkt.hdrSize < 2 ^ 16 := by
  cases pkt with
  | tcp p => exact (by decide : 0 < rteTcpHdrSize ∧ rteTcpHdrSize < 2 ^ 16)
  | udp data => exact (by decide : 0 < rteUdpHdrSize ∧ rteUdpHdrSize < 2 ^ 16)

/-- The checksum over header and data, as the sender has them in mbufs, is that of the packet. -/
theorem l4SwCksum_valid
    {pkt : L4Packet} {data : Chain} {ipCksum : U16} {l4Length : U16}
    (dstMac srcMac : U64)
    (hraw : RawCksum rteRawCksum)
    (hdata : ChainLen data)
    (hbytes : chainBytes data = pkt.data)
    (hlen : l4Length.toNat = pkt.hdrSize + pkt.data.length)
    (hsums : SentSums (builtIpv4Hdr cb pkt.proto (pkt.hdrSize + pkt.data.length) ipCksum)
      (pkt.hdr cb 0) (BitVec.ofNat 16 pkt.hdrSize) data) :
    CksumValid (psdHeader (builtIpv4Hdr cb pkt.proto (pkt.hdrSize + pkt.data.length) ipCksum)
        l4Length ++
      (pkt.hdr cb (l4SwCksum rteRawCksum cb dstMac srcMac pkt ipCksum data) ++ pkt.data)) := by
  obtain ⟨hpos, hsmall⟩ := hdrSize_lt pkt
  have hlt := l4Length.isLt
  have hsize : (BitVec.ofNat 16 pkt.hdrSize).toNat = pkt.hdrSize := by
    rw [BitVec.toNat_ofNat, Nat.mod_eq_of_lt hsmall]
  have heth : (ethBuildHdr cb.soVlan dstMac srcMac rteEtherTypeIpv4).length ≤ 18 := by
    unfold ethBuildHdr frameHdr
    split <;> simp [EtherAddr.bytes]
  have hip : ipv4HdrLen cb ≤ 32 := by
    obtain ⟨-, hip⟩ | ⟨-, hip⟩ := ipv4HdrLen_cases cb <;> omega
  have hoffset : (BitVec.ofNat 16 ((ethBuildHdr cb.soVlan dstMac srcMac
      rteEtherTypeIpv4).length + ipv4HdrLen cb)).toNat =
        (ethBuildHdr cb.soVlan dstMac srcMac rteEtherTypeIpv4).length + ipv4HdrLen cb := by
    rw [BitVec.toNat_ofNat, Nat.mod_eq_of_lt (by omega)]
  have hhdr : ((hdrMbuf cb dstMac srcMac pkt ipCksum).data.drop
      (BitVec.ofNat 16 ((ethBuildHdr cb.soVlan dstMac srcMac rteEtherTypeIpv4).length +
        ipv4HdrLen cb)).toNat).take (BitVec.ofNat 16 pkt.hdrSize).toNat = pkt.hdr cb 0 := by
    rw [hoffset, hsize, hdrMbuf, List.drop_left' (by
      rw [List.length_append, length_ipv4HdrBytes]), List.take_of_length_le (by
      rw [length_hdr])]
  have hagrees := @sentCksum_agrees _ hraw (hdrMbuf cb dstMac srcMac pkt ipCksum)
    (builtIpv4Hdr cb pkt.proto (pkt.hdrSize + pkt.data.length) ipCksum)
    (BitVec.ofNat 16 ((ethBuildHdr cb.soVlan dstMac srcMac rteEtherTypeIpv4).length +
      ipv4HdrLen cb))
    (BitVec.ofNat 16 pkt.hdrSize) l4Length _ hdata (by rw [hsize, hbytes, hlen])
  rw [hhdr] at hagrees
  have hright := hagrees.2 hsums
  have hdataLen : (chainPktLen data).toNat < 65536 := by
    have hchain : (chainPktLen data).toNat = (chainBytes data).length := hdata
    rw [hchain, hbytes]
    omega
  have heven : oddLength (pkt.before cb) = false := by
    cases pkt with
    | tcp p => simp [oddLength, L4Packet.before, tcpHdrBefore, portBytes]
    | udp data => simp [oddLength, L4Packet.before, udpHdrBefore, portBytes]
  rw [L4Packet.hdr, List.append_assoc, List.append_assoc, hbytes] at hright
  have hvalid := cksumValid_of_agrees (sentCksum_pos hraw hdataLen) (by omega) heven hright
  rw [L4Packet.hdr, List.append_assoc, List.append_assoc]
  exact hvalid

end Checksums

section Results

variable {cb : L4Cb} {pkt : L4Packet} {m : Mbuf} {rx : RxPort} {padding : List UInt8}

/--
A packet whose checksums the card has found good is received as it was handed down, in any frame
that carries it.
-/
theorem packet_received
    (dstMac srcMac : U64) (ipCksum l4Cksum : U16) (tstamp : U64) (fuel : Nat) (stats : Stats)
    (hcard : rx.swChecksumming = false ∨
      (rx.ipv4Cksum = true ∧ rx.tcpCksum = true ∧ rx.udpCksum = true))
    (hgood : rx.olFlags m.id = ⟨false, false⟩)
    (hdata : m.data = packetFrame cb dstMac srcMac pkt ipCksum l4Cksum tstamp ++ padding)
    (hpkt : m.pktLen = BitVec.ofNat 32 m.data.length)
    (hfits : ipv4HdrLen cb + (pkt.hdrSize + pkt.data.length) < 2 ^ 16)
    (hpadding : padding.length < 2 ^ 16) :
    ∃ r, receivePacket rx (fuel + 2) stats [m] = some r ∧ ReceivedAs cb pkt tstamp r := by
  refine receivePacket_built dstMac srcMac fuel stats hdata hpkt hfits hpadding ?_ ?_
  · intro ip hid _
    have hport : (!rx.swChecksumming || rx.ipv4Cksum) = true := by
      rcases hcard with hcard | hcard <;> simp [hcard]
    rw [ipv4CksumInvalid, if_pos hport, hid, hgood]
  · intro ip l4Mbuf hid _ _ _
    cases pkt with
    | tcp p =>
        have hport : (!rx.swChecksumming || rx.tcpCksum) = true := by
          rcases hcard with hcard | hcard <;> simp [hcard]
        rw [l4CksumInvalid, tcpCksumInvalid, if_pos hport, hid, hgood]
    | udp data =>
        have hport : (!rx.swChecksumming || rx.udpCksum) = true := by
          rcases hcard with hcard | hcard <;> simp [hcard]
        rw [l4CksumInvalid, udpCksumInvalid, if_pos hport, hid, hgood]

/-- From 10.0.0.1 to 10.0.0.2 on VLAN 5, with a timestamp. -/
def sampleCb : L4Cb where
  srcAddr := 0x0A000001
  dstAddr := 0x0A000002
  srcPort := 10001
  dstPort := 80
  soVlan := vlanStoreSockopt 5 0
  ip4soTos := 0
  ip4soTxTstamp := true

/-- A segment with three bytes. -/
def samplePkt : L4Packet :=
  .tcp { seq := 1, ack := 101, flags := { psh := true, ack := true }, wnd := 1024,
         data := [1, 2, 3] }

/-- Two bytes of padding behind a tagged segment with a timestamp. -/
theorem packet_received_tagged :
    ∃ r, receivePacket offloadPort 2 (fun _ => 0)
        [receivedMbuf (packetFrame sampleCb 0xB 0xA samplePkt 0 0 0x1122334455667788) [0, 0]] =
          some r ∧
      ReceivedAs sampleCb samplePkt 0x1122334455667788 r :=
  packet_received 0xB 0xA 0 0 0x1122334455667788 0 _ (.inl rfl) rfl rfl rfl (by decide)
    (by decide)

/--
Without a card that computes checksums, a packet is received as it was handed down if the sums
over its data come out right.
-/
theorem packet_received_software
    (data : Chain) (dstMac srcMac : U64) (fuel : Nat) (stats : Stats)
    (hraw : RawCksum rx.rteRawCksum)
    (hsoftware : rx.swChecksumming = true ∧ rx.ipv4Cksum = false ∧ rx.tcpCksum = false ∧
      rx.udpCksum = false)
    (hchain : ChainLen data)
    (hbytes : chainBytes data = pkt.data)
    (hsums : SentSums (builtIpv4Hdr cb pkt.proto (pkt.hdrSize + pkt.data.length)
        (ipv4SwCksum rx.rteRawCksum cb pkt.proto (pkt.hdrSize + pkt.data.length)))
      (pkt.hdr cb 0) (BitVec.ofNat 16 pkt.hdrSize) data)
    (hdata : m.data = packetFrame cb dstMac srcMac pkt
        (ipv4SwCksum rx.rteRawCksum cb pkt.proto (pkt.hdrSize + pkt.data.length))
        (l4SwCksum rx.rteRawCksum cb dstMac srcMac pkt
          (ipv4SwCksum rx.rteRawCksum cb pkt.proto (pkt.hdrSize + pkt.data.length)) data) 0 ++
      padding)
    (hpkt : m.pktLen = BitVec.ofNat 32 m.data.length)
    (hfits : ipv4HdrLen cb + (pkt.hdrSize + pkt.data.length) < 2 ^ 16)
    (hpadding : padding.length < 2 ^ 16) :
    ∃ r, receivePacket rx (fuel + 2) stats [m] = some r ∧ ReceivedAs cb pkt 0 r := by
  obtain ⟨hsw, hipSw, htcpSw, hudpSw⟩ := hsoftware
  refine receivePacket_built dstMac srcMac fuel stats hdata hpkt hfits hpadding ?_ ?_
  · intro ip _ hipData
    rw [ipv4CksumInvalid, hsw, hipSw, hipData, List.take_left' length_ipv4HdrBytes,
      ipv4SwCksum_valid hraw fun _ => rfl]
    rfl
  · intro ip l4Mbuf _ hbuilt hholds hl4Data
    have hl4Len : (pcbL4Len (rtePktmbufMtod [ip])).toNat = pkt.hdrSize + pkt.data.length := by
      rw [pcbL4Len_toNat, hbuilt.total, hbuilt.hdrLen, Nat.add_sub_cancel_left]
    have hpos := (hdrSize_lt pkt).1
    have hvalid := l4SwCksum_valid dstMac srcMac hraw hchain hbytes hl4Len hsums
    have hcheck := (@receiveCheck_iff _ hraw l4Mbuf []
      (pcbIpv4 (rtePktmbufMtod [ip])) (pcbL4Len (rtePktmbufMtod [ip]))
      (by omega) (packetSums_header _ _ _ _)).2 (by
        rw [pcbIpv4_of_holds hholds fun _ => rfl, l4Bytes, chainBytes_nil, List.append_nil, hl4Data]
        rw [hl4Len, List.take_of_length_le (by simp)]
        exact hvalid)
    rw [receiveCheck, decide_eq_true_eq] at hcheck
    cases pkt with
    | tcp p =>
        rw [l4CksumInvalid, tcpCksumInvalid, hsw, htcpSw, hcheck]
        rfl
    | udp bytes =>
        have hdgram := dgramLen_of_holds (holds_of_data hl4Data) (by
          simp only [L4Packet.hdrSize, L4Packet.data] at hfits
          omega)
        have hsame : BitVec.ofNat 16 (dgramLen (rtePktmbufMtod [l4Mbuf])) =
            pcbL4Len (rtePktmbufMtod [ip]) := by
          rw [hdgram, Nat.add_comm]
          refine BitVec.eq_of_toNat_eq ?_
          rw [hl4Len, BitVec.toNat_ofNat]
          exact Nat.mod_eq_of_lt (lt_of_le_of_lt (Nat.le_add_left _ _) hfits)
        rw [l4CksumInvalid, udpCksumInvalid, hsw, hudpSw, hsame, hcheck]
        simp

/-- A port that computes checksums itself. -/
def softwarePort : RxPort where
  rteRawCksum := rawSum
  swChecksumming := true
  ipv4Cksum := false
  tcpCksum := false
  udpCksum := false
  olFlags := fun _ => ⟨true, true⟩

/-- The same addresses, without the timestamp. -/
def plainCb : L4Cb :=
  { sampleCb with ip4soTxTstamp := false }

/-- The same segment, its data in one mbuf. -/
theorem packet_received_software_segment :
    let data : Chain := [sampleMbuf [1, 2, 3]]
    let ipCksum := ipv4SwCksum rawSum plainCb samplePkt.proto
      (samplePkt.hdrSize + samplePkt.data.length)
    ∃ r, receivePacket softwarePort 2 (fun _ => 0)
        [receivedMbuf (packetFrame plainCb 0xB 0xA samplePkt ipCksum
          (l4SwCksum rawSum plainCb 0xB 0xA samplePkt ipCksum data) 0) [0, 0]] = some r ∧
      ReceivedAs plainCb samplePkt 0 r :=
  packet_received_software [sampleMbuf [1, 2, 3]] 0xB 0xA 0 _ rawSum_ok
    ⟨rfl, rfl, rfl, rfl⟩ rfl rfl (by decide +kernel) rfl rfl (by decide) (by decide)

end Results

end SegmentFrames
end Warp17
