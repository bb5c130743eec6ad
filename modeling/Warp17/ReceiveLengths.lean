import Warp17.Ipv4Options
import Warp17.L4Checksum

/-!
# Lengths on receive

`ipv4_receive_pkt`, `tcp_receive_pkt` and `udp_receive_pkt` subtract the header lengths of a
packet from its total length and take the headers and the padding off the chain.  The padding is
what `pkt_len` says beyond the L4 length; `rte_pktmbuf_trim` takes it off the last mbuf, in 16
bits.  When the IPv4 header ends where the first mbuf ends, `pkt_len` is the one of the next mbuf,
which `data_adj_chain` leaves as it is.

The model follows a packet up to the session lookup, in both builds of the checksum tests; the
UDP length is read only for the checksum.

**Results**
- `walk_of_parseOptions`, `parseOptions_of_walk`: when the loop over the options ends.
- `lengthsTrue_iff`: a packet that is passed on has its true lengths if and only if its padding
  has been measured.
- `receiveAccounted_iff`: the frames for which the lengths are accounted for.
-/

namespace Warp17
namespace ReceiveLengths

open SequenceComparison MbufChains L4Checksum Ipv4Options

/-! ## Statistics -/

/-- The counters of the three statistics that the receive functions increment. -/
inductive RxCounter
  | ipsReceivedPkts
  | ipsReceivedBytes
  | ipsProtocolIcmp
  | ipsProtocolTcp
  | ipsProtocolUdp
  | ipsProtocolOther
  | ipsToSmallFragment
  | ipsHdrToSmall
  | ipsInvalidChecksum
  | ipsTotalLengthInvalid
  | ipsReceivedFrags
  | ipsNotV4
  | ipsReservedBitSet
  | ipsInvalidPad
  | ipsInvalidOpt
  | tsReceivedPkts
  | tsReceivedBytes
  | tsToSmallFragment
  | tsHdrToSmall
  | tsInvalidChecksum
  | tsReservedBitSet
  | usReceivedPkts
  | usReceivedBytes
  | usToSmallFragment
  | usInvalidChecksum
deriving DecidableEq, Repr

/-- The counters of packets that go no further. -/
def RxCounter.isDrop : RxCounter → Bool
  | ipsProtocolIcmp | ipsProtocolOther | ipsToSmallFragment | ipsHdrToSmall
  | ipsInvalidChecksum | ipsTotalLengthInvalid | ipsReceivedFrags | ipsNotV4 | ipsInvalidPad
  | ipsInvalidOpt | tsToSmallFragment | tsHdrToSmall | tsInvalidChecksum | usToSmallFragment
  | usInvalidChecksum => true
  | _ => false

abbrev Stats := RxCounter → Nat

/-- `INC_STATS_VAL()` -/
def incStatsVal (stats : Stats) (counter : RxCounter) (val : Nat) : Stats :=
  Function.update stats counter (stats counter + val)

/-- `INC_STATS()` -/
def incStats (stats : Stats) (counter : RxCounter) : Stats :=
  incStatsVal stats counter 1

/-- A packet that goes no further has been counted. -/
def Counted (stats stats' : Stats) : Prop :=
  ∃ counter : RxCounter, counter.isDrop = true ∧ stats counter < stats' counter

/-! ## Packets in memory -/

/-- `rte_pktmbuf_mtod()`: the bytes of the first mbuf. -/
def rtePktmbufMtod : Chain → Nat → UInt8
  | [], _ => 0
  | m :: _, i => m.data.getD i 0

/-- `rte_pktmbuf_data_len()` -/
def rtePktmbufDataLen : Chain → Nat
  | [] => 0
  | m :: _ => m.data.length

/-- A 16-bit field in network order. -/
def be16 (mem : Nat → UInt8) (offset : Nat) : Nat :=
  (mem offset).toNat * 256 + (mem (offset + 1)).toNat

/-- A 32-bit field as it is loaded. -/
def le32 (mem : Nat → UInt8) (offset : Nat) : U32 :=
  (mem (offset + 3)).toBitVec ++ (mem (offset + 2)).toBitVec ++ (mem (offset + 1)).toBitVec ++
    (mem offset).toBitVec

def totalLength (mem : Nat → UInt8) : Nat :=
  be16 mem 2

def fragmentOffset (mem : Nat → UInt8) : Nat :=
  be16 mem 6

def nextProtoId (mem : Nat → UInt8) : UInt8 :=
  mem 9

/-- `pcb_ipv4`, as the checksums read it. -/
def pcbIpv4 (mem : Nat → UInt8) : Ipv4Hdr :=
  ⟨le32 mem 12, le32 mem 16, nextProtoId mem⟩

/-- `(tcp_hdr->data_off >> 4) << 2` -/
def tcpHdrLen (mem : Nat → UInt8) : Nat :=
  ((mem 12).toNat >>> 4) <<< 2

def tcpFlags (mem : Nat → UInt8) : Nat :=
  (mem 13).toNat

def dgramLen (mem : Nat → UInt8) : Nat :=
  be16 mem 4

def dgramCksum (mem : Nat → UInt8) : Nat :=
  be16 mem 6

def ipprotoIcmp : UInt8 := 1

def ipprotoTcp : UInt8 := 6

def ipprotoUdp : UInt8 := 17

/-- `sizeof(struct rte_tcp_hdr)` -/
def rteTcpHdrSize : Nat := 20

/-- `sizeof(struct rte_udp_hdr)` -/
def rteUdpHdrSize : Nat := 8

/-! ## Checksum tests -/

/-- `PKT_RX_IP_CKSUM_BAD` and `PKT_RX_L4_CKSUM_BAD` in `ol_flags`. -/
structure OlFlags where
  rxIpCksumBad : Bool
  rxL4CksumBad : Bool

/-- The build, the offloads of the port, and the flags that it sets on an mbuf. -/
structure RxPort where
  rteRawCksum : List UInt8 → U16
  /-- `TPG_SW_CHECKSUMMING` is defined -/
  swChecksumming : Bool
  ipv4Cksum : Bool
  tcpCksum : Bool
  udpCksum : Bool
  olFlags : Nat → OlFlags

variable (port : RxPort)

def ipv4CksumInvalid : Chain → Nat → Bool
  | [], _ => false
  | m :: _, ipHdrLen =>
      if !port.swChecksumming || port.ipv4Cksum then (port.olFlags m.id).rxIpCksumBad
      else port.rteRawCksum (m.data.take ipHdrLen) != 0xffff

def tcpCksumInvalid (hdr : Ipv4Hdr) (l4Len : U16) : Chain → Bool
  | [] => false
  | m :: rest =>
      if !port.swChecksumming || port.tcpCksum then (port.olFlags m.id).rxL4CksumBad
      else ipv4GeneralL4Cksum port.rteRawCksum m rest hdr 0 l4Len != 0xffff

def udpCksumInvalid (hdr : Ipv4Hdr) : Chain → Bool
  | [] => false
  | m :: rest =>
      if !port.swChecksumming || port.udpCksum then (port.olFlags m.id).rxL4CksumBad
      else dgramCksum (rtePktmbufMtod (m :: rest)) != 0 &&
        ipv4GeneralL4Cksum port.rteRawCksum m rest hdr 0
          (BitVec.ofNat 16 (dgramLen (rtePktmbufMtod (m :: rest)))) != 0xffff

/-! ## The receive functions -/

/-- What the session lookup gets, and the chain that the L4 function got. -/
structure Passed where
  pcbL4Len : U16
  pcbL5Len : U16
  l4Mbuf : Chain
  pcbMbuf : Chain

/-- The statistics at the end, and the packet if it has been passed on. -/
structure RxOutcome where
  stats : Stats
  passed : Option Passed

def dropped (stats : Stats) (counter : RxCounter) : RxOutcome :=
  ⟨incStats stats counter, none⟩

/-- `tcp_receive_pkt()`, up to the session lookup. -/
def tcpReceivePkt (hdr : Ipv4Hdr) (l4Len : U16) (stats : Stats) (mbuf : Chain) : RxOutcome :=
  let mem := rtePktmbufMtod mbuf
  if rtePktmbufDataLen mbuf < rteTcpHdrSize then dropped stats .tsToSmallFragment
  else
    let stats := incStatsVal (incStats stats .tsReceivedPkts) .tsReceivedBytes l4Len.toNat
    if rtePktmbufDataLen mbuf < tcpHdrLen mem then dropped stats .tsToSmallFragment
    else if tcpHdrLen mem < rteTcpHdrSize then dropped stats .tsHdrToSmall
    else
      let stats :=
        if tcpFlags mem &&& 0xC0 ≠ 0 ∨ (mem 12).toNat &&& 0x0F ≠ 0 then
          incStats stats .tsReservedBitSet
        else stats
      if tcpCksumInvalid port hdr l4Len mbuf then dropped stats .tsInvalidChecksum
      else ⟨stats, some
        { pcbL4Len := l4Len
          pcbL5Len := l4Len - BitVec.ofNat 16 (tcpHdrLen mem)
          l4Mbuf := mbuf
          pcbMbuf := dataAdjChain mbuf (BitVec.ofNat 32 (tcpHdrLen mem)) }⟩

/-- `udp_receive_pkt()`, up to the session lookup. -/
def udpReceivePkt (hdr : Ipv4Hdr) (l4Len : U16) (stats : Stats) (mbuf : Chain) : RxOutcome :=
  if rtePktmbufDataLen mbuf < rteUdpHdrSize then dropped stats .usToSmallFragment
  else
    let stats := incStatsVal (incStats stats .usReceivedPkts) .usReceivedBytes l4Len.toNat
    if udpCksumInvalid port hdr mbuf then dropped stats .usInvalidChecksum
    else ⟨stats, some
      { pcbL4Len := l4Len
        pcbL5Len := l4Len - BitVec.ofNat 16 rteUdpHdrSize
        l4Mbuf := mbuf
        pcbMbuf := dataAdjChain mbuf (BitVec.ofNat 32 rteUdpHdrSize) }⟩

/-- The last mbuf without its last `len` bytes. -/
def trimLastseg (len : U16) : Chain → Option Chain
  | [] => none
  | [m] =>
      if m.data.length < len.toNat then none
      else some [{ m with data := m.data.take (m.data.length - len.toNat) }]
  | m :: next :: rest => (trimLastseg len (next :: rest)).map (m :: ·)

/-- `rte_pktmbuf_trim()`, as the DPDK documents it: the length is a `uint16_t`, and `none` is the
result -1. -/
def rtePktmbufTrim (mbuf : Chain) (len : U32) : Option Chain :=
  match trimLastseg (len.truncate 16) mbuf with
  | some (m :: rest) =>
      some ({ m with pktLen := m.pktLen - (len.truncate 16).zeroExtend 32 } :: rest)
  | _ => none

/-- The packet without its padding. -/
def removePadding (mbuf : Chain) (l4Len : U16) : Option Chain :=
  if l4Len.zeroExtend 32 < chainPktLen mbuf then
    rtePktmbufTrim mbuf (chainPktLen mbuf - l4Len.zeroExtend 32)
  else some mbuf

def protocolCounter (proto : UInt8) : RxCounter :=
  if proto = ipprotoTcp then .ipsProtocolTcp
  else if proto = ipprotoUdp then .ipsProtocolUdp
  else if proto = ipprotoIcmp then .ipsProtocolIcmp
  else .ipsProtocolOther

/-- `pcb_l4_len` -/
def pcbL4Len (mem : Nat → UInt8) : U16 :=
  BitVec.ofNat 16 (totalLength mem - ipHdrLen mem)

/-- The end of `ipv4_receive_pkt()`, after the checks of the header. -/
def ipv4Deliver (stats : Stats) (mbuf : Chain) : RxOutcome :=
  let mem := rtePktmbufMtod mbuf
  match removePadding (dataAdjChain mbuf (BitVec.ofNat 32 (ipHdrLen mem))) (pcbL4Len mem) with
  | none => dropped stats .ipsInvalidPad
  | some l4Mbuf =>
      if nextProtoId mem = ipprotoTcp then
        tcpReceivePkt port (pcbIpv4 mem) (pcbL4Len mem) stats l4Mbuf
      else if nextProtoId mem = ipprotoUdp then
        udpReceivePkt port (pcbIpv4 mem) (pcbL4Len mem) stats l4Mbuf
      else ⟨stats, none⟩

/-- `ipv4_receive_pkt()`; without a result it is still in the loop over the options. -/
def ipv4ReceivePkt (fuel : Nat) (stats : Stats) (mbuf : Chain) : Option RxOutcome :=
  let mem := rtePktmbufMtod mbuf
  if rtePktmbufDataLen mbuf < stdIpv4HdrLen then some (dropped stats .ipsToSmallFragment)
  else if fragmentOffset mem &&& 0x2000 ≠ 0 ∨ fragmentOffset mem &&& 0x1FFF ≠ 0 then
    some (dropped stats .ipsReceivedFrags)
  else
    let stats := incStatsVal (incStats stats .ipsReceivedPkts) .ipsReceivedBytes (totalLength mem)
    let stats := incStats stats (protocolCounter (nextProtoId mem))
    if rtePktmbufDataLen mbuf < ipHdrLen mem then some (dropped stats .ipsToSmallFragment)
    else if ipHdrLen mem < stdIpv4HdrLen then some (dropped stats .ipsHdrToSmall)
    else if totalLength mem < ipHdrLen mem ∨ (chainPktLen mbuf).toNat < totalLength mem then
      some (dropped stats .ipsTotalLengthInvalid)
    else if (mem 0).toNat &&& 0xF0 ≠ 0x40 then some (dropped stats .ipsNotV4)
    else
      let stats :=
        if fragmentOffset mem &&& 0x8000 ≠ 0 then incStats stats .ipsReservedBitSet else stats
      (receiveOptions mem fuel).map fun options =>
        if options.accepted = false then
          ⟨incStatsVal stats .ipsInvalidOpt options.ipsInvalidOpt, none⟩
        else if ipv4CksumInvalid port mbuf (ipHdrLen mem) then dropped stats .ipsInvalidChecksum
        else ipv4Deliver port stats mbuf

/-! ## Specification -/

/-- The L4 header of a packet: the one of TCP has its own length. -/
def l4HdrLen (proto : UInt8) (l4Mbuf : Chain) : Nat :=
  if proto = ipprotoTcp then tcpHdrLen (rtePktmbufMtod l4Mbuf) else rteUdpHdrSize

/-- The lengths that are recorded of a frame are those of its parts: no subtraction goes below
zero, and they are the numbers of bytes in the chain. -/
structure LengthsTrue (mbuf : Chain) (passed : Passed) : Prop where
  l4 : passed.pcbL4Len.toNat + ipHdrLen (rtePktmbufMtod mbuf) = totalLength (rtePktmbufMtod mbuf)
  l4Bytes : (chainBytes passed.l4Mbuf).length = passed.pcbL4Len.toNat
  l5 : passed.pcbL5Len.toNat + l4HdrLen (nextProtoId (rtePktmbufMtod mbuf)) passed.l4Mbuf =
    passed.pcbL4Len.toNat
  l5Bytes : (chainBytes passed.pcbMbuf).length = passed.pcbL5Len.toNat

/-- The receive functions return; a frame that they pass on has its true lengths, and any other
one has been counted. -/
def ReceiveAccounted (stats : Stats) (mbuf : Chain) : Prop :=
  ∃ fuel out, ipv4ReceivePkt port fuel stats mbuf = some out ∧
    match out.passed with
    | none => Counted stats out.stats
    | some passed => LengthsTrue mbuf passed

/-- The checks of the header in front of its options. -/
structure HeaderAccepted (mbuf : Chain) : Prop where
  room : stdIpv4HdrLen ≤ rtePktmbufDataLen mbuf
  whole : fragmentOffset (rtePktmbufMtod mbuf) &&& 0x2000 = 0 ∧
    fragmentOffset (rtePktmbufMtod mbuf) &&& 0x1FFF = 0
  inside : ipHdrLen (rtePktmbufMtod mbuf) ≤ rtePktmbufDataLen mbuf
  large : stdIpv4HdrLen ≤ ipHdrLen (rtePktmbufMtod mbuf)
  total : ipHdrLen (rtePktmbufMtod mbuf) ≤ totalLength (rtePktmbufMtod mbuf) ∧
    totalLength (rtePktmbufMtod mbuf) ≤ (chainPktLen mbuf).toNat
  version : (rtePktmbufMtod mbuf 0).toNat &&& 0xF0 = 0x40

/-- How the loop over the options ends, `true` if all of them are stepped over.  An option of
length 0 that is no timestamp has no place in it. -/
inductive OptionsWalk (mem : Nat → UInt8) : Nat → Nat → Bool → Prop
  | done
      (offset : Nat) :
      OptionsWalk mem 0 offset true
  | refused
      {totalLen offset : Nat}
      (hsome : 0 < totalLen)
      (hwhy : totalLen < optionHdrSize ∨ totalLen < (mem (offset + 1)).toNat ∨
        mem offset = ipoptTs ∧ (mem (offset + 1)).toNat < tstampOptionSize) :
      OptionsWalk mem totalLen offset false
  | skip
      {totalLen offset : Nat} {accepted : Bool}
      (hroom : optionHdrSize ≤ totalLen)
      (hinside : (mem (offset + 1)).toNat ≤ totalLen)
      (hts : mem offset = ipoptTs → tstampOptionSize ≤ (mem (offset + 1)).toNat)
      (hrest : OptionsWalk mem (totalLen - (mem (offset + 1)).toNat)
        (offset + (mem (offset + 1)).toNat) accepted) :
      OptionsWalk mem totalLen offset accepted

/-- The walk over the options of a header. -/
def HeaderWalk (mem : Nat → UInt8) (accepted : Bool) : Prop :=
  OptionsWalk mem (ipHdrLen mem - stdIpv4HdrLen) stdIpv4HdrLen accepted

/-- The checks of `tcp_receive_pkt()` or of `udp_receive_pkt()`. -/
def L4Accepted (mem : Nat → UInt8) (l4Mbuf : Chain) : Prop :=
  if nextProtoId mem = ipprotoTcp then
    rteTcpHdrSize ≤ tcpHdrLen (rtePktmbufMtod l4Mbuf) ∧
      tcpHdrLen (rtePktmbufMtod l4Mbuf) ≤ rtePktmbufDataLen l4Mbuf ∧
      tcpCksumInvalid port (pcbIpv4 mem) (pcbL4Len mem) l4Mbuf = false
  else
    nextProtoId mem = ipprotoUdp ∧ rteUdpHdrSize ≤ rtePktmbufDataLen l4Mbuf ∧
      udpCksumInvalid port (pcbIpv4 mem) l4Mbuf = false

/-- The checks of all receive functions; the padding lies in the last mbuf. -/
structure PassesChecks (mbuf : Chain) : Prop where
  header : HeaderAccepted mbuf
  options : HeaderWalk (rtePktmbufMtod mbuf) true
  cksum : ipv4CksumInvalid port mbuf (ipHdrLen (rtePktmbufMtod mbuf)) = false
  l4 : ∃ l4Mbuf, removePadding
      (dataAdjChain mbuf (BitVec.ofNat 32 (ipHdrLen (rtePktmbufMtod mbuf))))
      (pcbL4Len (rtePktmbufMtod mbuf)) = some l4Mbuf ∧
    L4Accepted port (rtePktmbufMtod mbuf) l4Mbuf

/-- The `pkt_len` that stands for the chain behind a header: the one of the first mbuf, and the
one of the next mbuf if the header ends where the first one ends. -/
def pktLenBehind : Chain → Nat → U32
  | [], _ => 0
  | [m], hdrLen => m.pktLen - BitVec.ofNat 32 hdrLen
  | m :: next :: _, hdrLen =>
      if hdrLen < m.data.length then m.pktLen - BitVec.ofNat 32 hdrLen else next.pktLen

/-- What `pkt_len` says beyond the L4 length, in 16 bits. -/
def paddingFound (mbuf : Chain) : Nat :=
  let mem := rtePktmbufMtod mbuf
  let pktLen := (pktLenBehind mbuf (ipHdrLen mem)).toNat
  if totalLength mem - ipHdrLen mem < pktLen then
    (pktLen - (totalLength mem - ipHdrLen mem)) % 2 ^ 16
  else 0

/-- What `pkt_len` says about the padding is what follows the packet in the chain. -/
def PaddingMeasured (mbuf : Chain) : Prop :=
  (chainBytes mbuf).length - totalLength (rtePktmbufMtod mbuf) = paddingFound mbuf ∧
    totalLength (rtePktmbufMtod mbuf) ≤ (chainBytes mbuf).length

instance (mbuf : Chain) : Decidable (PaddingMeasured mbuf) :=
  inferInstanceAs (Decidable (_ ∧ _))

variable {port}

/-! ## Counting -/

theorem le_incStatsVal
    (stats : Stats) (counter : RxCounter) (val : Nat) :
    stats ≤ incStatsVal stats counter val := by
  intro other
  by_cases h : other = counter
  · subst h
    simp [incStatsVal]
  · simp [incStatsVal, Function.update_of_ne h]

theorem counted_incStatsVal
    {stats : Stats} {counter : RxCounter} {val : Nat}
    (hdrop : counter.isDrop = true)
    (hval : 0 < val) :
    Counted stats (incStatsVal stats counter val) := by
  refine ⟨counter, hdrop, ?_⟩
  simp only [incStatsVal, Function.update_self]
  omega

theorem dropped_counted
    (stats : Stats) {counter : RxCounter}
    (hdrop : counter.isDrop = true) :
    Counted stats (dropped stats counter).stats :=
  counted_incStatsVal hdrop Nat.one_pos

/-- Counting before and after does not take back what has been counted. -/
theorem Counted.mono
    {before stats stats' after : Stats}
    (hcounted : Counted stats stats')
    (hbefore : before ≤ stats)
    (hafter : stats' ≤ after) :
    Counted before after := by
  obtain ⟨counter, hdrop, hlt⟩ := hcounted
  exact ⟨counter, hdrop, ((hbefore counter).trans_lt hlt).trans_le (hafter counter)⟩

/-! ## Chains -/

theorem dataLen_le_chainBytes
    (c : Chain) :
    rtePktmbufDataLen c ≤ (chainBytes c).length := by
  cases c with
  | nil =>
      simp [rtePktmbufDataLen]
  | cons m rest =>
      simp [rtePktmbufDataLen]

/-- A trim inside the first mbuf, which goes if nothing of it stays. -/
theorem dataAdjChain_cons
    {m : Mbuf} {rest : Chain} {t : Nat}
    (hsmall : t < 2 ^ 16)
    (hinside : t ≤ m.data.length) :
    dataAdjChain (m :: rest) (BitVec.ofNat 32 t) =
      if t < m.data.length ∨ rest = [] then
        { m with data := m.data.drop t, pktLen := m.pktLen - BitVec.ofNat 32 t } :: rest
      else rest := by
  have hadj := rtePktmbufAdj_eq m hsmall
  rw [if_neg (Nat.not_lt.2 hinside)] at hadj
  simp only [dataAdjChain, hadj]
  rcases Nat.lt_or_ge t m.data.length with hlt | hge
  · have hdata : m.data.drop t ≠ [] := by
      rw [← List.length_pos_iff, List.length_drop]
      omega
    rw [if_pos hdata, if_pos (Or.inl hlt)]
  · have hdata : m.data.drop t = [] := List.drop_eq_nil_of_le hge
    rw [if_neg (not_not.2 hdata)]
    cases rest with
    | nil =>
        rw [if_pos (Or.inr rfl)]
    | cons next tail =>
        rw [if_neg (by simp only [reduceCtorEq, or_false]; omega)]

theorem dataAdjChain_length
    {c : Chain} {t : Nat}
    (hsmall : t < 2 ^ 16)
    (hinside : t ≤ rtePktmbufDataLen c) :
    (chainBytes (dataAdjChain c (BitVec.ofNat 32 t))).length = (chainBytes c).length - t := by
  cases c with
  | nil =>
      simp [dataAdjChain]
  | cons m rest =>
      rw [rtePktmbufDataLen] at hinside
      rw [dataAdjChain_cons hsmall hinside]
      split
      · simp only [chainBytes_cons, List.length_append, List.length_drop]
        omega
      · simp only [chainBytes_cons, List.length_append]
        omega

theorem dataAdjChain_pktLen
    {c : Chain} {t : Nat}
    (hsmall : t < 2 ^ 16)
    (hinside : t ≤ rtePktmbufDataLen c) :
    chainPktLen (dataAdjChain c (BitVec.ofNat 32 t)) = pktLenBehind c t := by
  match c with
  | [] => rfl
  | [m] =>
      rw [dataAdjChain_cons hsmall hinside, if_pos (Or.inr rfl)]
      rfl
  | m :: next :: tail =>
      rw [dataAdjChain_cons hsmall hinside, pktLenBehind]
      simp only [reduceCtorEq, or_false]
      split <;> rfl

/-- By induction on the chain: only its last mbuf is shorter. -/
theorem trimLastseg_length
    {len : U16} {c c' : Chain}
    (htrim : trimLastseg len c = some c') :
    (chainBytes c').length + len.toNat = (chainBytes c).length := by
  induction c generalizing c' with
  | nil =>
      cases htrim
  | cons m rest ih =>
      cases rest with
      | nil =>
          rw [trimLastseg] at htrim
          split at htrim
          · cases htrim
          · obtain rfl := Option.some.inj htrim
            simp only [chainBytes_cons, chainBytes_nil, List.append_nil, List.length_take]
            omega
      | cons next tail =>
          rw [trimLastseg] at htrim
          obtain ⟨rest', hrest, rfl⟩ := Option.map_eq_some_iff.1 htrim
          have hlen := ih hrest
          rw [chainBytes_cons, List.length_append, chainBytes_cons m, List.length_append]
          omega

theorem rtePktmbufTrim_length
    {len : U32} {c c' : Chain}
    (htrim : rtePktmbufTrim c len = some c') :
    (chainBytes c').length + len.toNat % 2 ^ 16 = (chainBytes c).length := by
  rw [rtePktmbufTrim] at htrim
  split at htrim
  next m rest hlast =>
    obtain rfl := Option.some.inj htrim
    have hlen := trimLastseg_length hlast
    rw [BitVec.truncate_eq_setWidth, BitVec.toNat_setWidth] at hlen
    simpa using hlen
  next =>
    cases htrim

theorem ipHdrLen_le
    (mem : Nat → UInt8) :
    ipHdrLen mem ≤ 60 := by
  have hand : (mem 0).toNat &&& 0x0F ≤ 15 := Nat.and_le_right
  rw [ipHdrLen, Nat.shiftLeft_eq]
  omega

theorem tcpHdrLen_le
    (mem : Nat → UInt8) :
    tcpHdrLen mem ≤ 60 := by
  have hbyte := (mem 12).toNat_lt
  rw [tcpHdrLen, Nat.shiftLeft_eq, Nat.shiftRight_eq_div_pow]
  omega

theorem totalLength_lt
    (mem : Nat → UInt8) :
    totalLength mem < 2 ^ 16 := by
  have hhigh := (mem 2).toNat_lt
  have hlow := (mem (2 + 1)).toNat_lt
  simp only [totalLength, be16]
  omega

theorem pcbL4Len_toNat
    (mem : Nat → UInt8) :
    (pcbL4Len mem).toNat = totalLength mem - ipHdrLen mem := by
  have hlt := totalLength_lt mem
  rw [pcbL4Len, BitVec.toNat_ofNat, Nat.mod_eq_of_lt (by omega)]

/-- What is left of the chain behind the IPv4 header. -/
theorem removePadding_length
    {c l4Mbuf : Chain}
    (hinside : ipHdrLen (rtePktmbufMtod c) ≤ rtePktmbufDataLen c)
    (hremove : removePadding
      (dataAdjChain c (BitVec.ofNat 32 (ipHdrLen (rtePktmbufMtod c))))
      (pcbL4Len (rtePktmbufMtod c)) = some l4Mbuf) :
    (chainBytes l4Mbuf).length + paddingFound c =
      (chainBytes c).length - ipHdrLen (rtePktmbufMtod c) := by
  have hsmall : ipHdrLen (rtePktmbufMtod c) < 2 ^ 16 :=
    (ipHdrLen_le _).trans_lt (by decide)
  have hl4 : ((pcbL4Len (rtePktmbufMtod c)).zeroExtend 32).toNat =
      totalLength (rtePktmbufMtod c) - ipHdrLen (rtePktmbufMtod c) := by
    rw [zeroExtend_toNat, pcbL4Len_toNat]
  rw [removePadding, dataAdjChain_pktLen hsmall hinside] at hremove
  rw [← dataAdjChain_length hsmall hinside]
  simp only [paddingFound]
  split at hremove
  next hlt =>
    rw [BitVec.lt_def, hl4] at hlt
    rw [if_pos hlt, ← rtePktmbufTrim_length hremove, BitVec.toNat_sub_of_le
      (by rw [BitVec.le_def, hl4]; exact hlt.le), hl4]
  next hge =>
    rw [BitVec.lt_def, hl4] at hge
    obtain rfl := Option.some.inj hremove
    rw [if_neg hge, Nat.add_zero]

/-! ## The options -/

/-- By induction on the fuel: a run is a walk, and one that ends early is counted. -/
theorem walk_of_parseOptions
    {mem : Nat → UInt8} {fuel totalLen offset : Nat} {tstampValue : BitVec 64}
    {out : OptionsOutcome}
    (hrun : parseOptions mem fuel totalLen offset tstampValue = some out) :
    OptionsWalk mem totalLen offset out.accepted ∧
      (out.accepted = false → 0 < out.ipsInvalidOpt) := by
  induction fuel generalizing totalLen offset tstampValue out with
  | zero =>
      cases hrun
  | succ fuel ih =>
      rcases Nat.eq_zero_or_pos totalLen with rfl | hsome
      · rw [parseOptions, if_pos rfl] at hrun
        obtain rfl := Option.some.inj hrun
        exact ⟨OptionsWalk.done offset, fun hno => Bool.noConfusion hno⟩
      by_cases hwhy : totalLen < optionHdrSize ∨ totalLen < (mem (offset + 1)).toNat ∨
          mem offset = ipoptTs ∧ (mem (offset + 1)).toNat < tstampOptionSize
      · obtain ⟨reads, hrefuse⟩ := @parseOptions_refuse mem fuel totalLen offset tstampValue
          hsome hwhy
        rw [hrefuse] at hrun
        obtain rfl := Option.some.inj hrun
        exact ⟨OptionsWalk.refused hsome hwhy, fun _ => Nat.one_pos⟩
      · rw [not_or, not_or, not_and, not_lt, not_lt, not_lt] at hwhy
        obtain ⟨hroom, hinside, hts⟩ := hwhy
        obtain ⟨tstampValue', reads, hstep⟩ := @parseOptions_step mem totalLen offset tstampValue
          hroom hinside hts
        rw [hstep fuel] at hrun
        obtain ⟨rest, hrest, rfl⟩ := Option.map_eq_some_iff.1 hrun
        obtain ⟨hwalk, hcounted⟩ := ih hrest
        exact ⟨OptionsWalk.skip hroom hinside hts hwalk, hcounted⟩

/-- A walk is a run with enough fuel, by induction on the walk. -/
theorem parseOptions_of_walk
    {mem : Nat → UInt8} {totalLen offset : Nat} {accepted : Bool}
    (hwalk : OptionsWalk mem totalLen offset accepted)
    (tstampValue : BitVec 64) :
    ∃ fuel out, parseOptions mem fuel totalLen offset tstampValue = some out ∧
      out.accepted = accepted := by
  induction hwalk generalizing tstampValue with
  | done offset =>
      exact ⟨1, _, by rw [parseOptions, if_pos rfl], rfl⟩
  | @refused totalLen offset hsome hwhy =>
      obtain ⟨reads, hrun⟩ := @parseOptions_refuse mem 0 totalLen offset tstampValue hsome hwhy
      exact ⟨1, _, hrun, rfl⟩
  | @skip totalLen offset accepted hroom hinside hts hrest ih =>
      obtain ⟨tstampValue', reads, hstep⟩ := @parseOptions_step mem totalLen offset tstampValue
        hroom hinside hts
      obtain ⟨fuel, out, hrun, haccepted⟩ := ih tstampValue'
      refine ⟨fuel + 1, out.skip offset (mem (offset + 1)).toNat reads, ?_, haccepted⟩
      rw [hstep fuel, hrun, Option.map_some]

/-- The bytes decide how the walk ends. -/
theorem OptionsWalk.unique
    {mem : Nat → UInt8} {totalLen offset : Nat} {accepted accepted' : Bool}
    (hwalk : OptionsWalk mem totalLen offset accepted)
    (hwalk' : OptionsWalk mem totalLen offset accepted') :
    accepted = accepted' := by
  have hpos : 0 < optionHdrSize := by
    decide
  induction hwalk with
  | done offset =>
      cases hwalk' with
      | done => rfl
      | refused hsome hwhy => exact absurd hsome (Nat.lt_irrefl 0)
      | skip hroom => exact absurd hroom (Nat.not_le.2 hpos)
  | refused hsome hwhy =>
      cases hwalk' with
      | done => exact absurd hsome (Nat.lt_irrefl 0)
      | refused => rfl
      | skip hroom hinside hts =>
          rcases hwhy with h | h | ⟨hcode, h⟩
          · exact absurd hroom (Nat.not_le.2 h)
          · exact absurd hinside (Nat.not_le.2 h)
          · exact absurd (hts hcode) (Nat.not_le.2 h)
  | skip hroom hinside hts hrest ih =>
      cases hwalk' with
      | done => exact absurd hroom (Nat.not_le.2 hpos)
      | refused hsome hwhy =>
          rcases hwhy with h | h | ⟨hcode, h⟩
          · exact absurd hroom (Nat.not_le.2 h)
          · exact absurd hinside (Nat.not_le.2 h)
          · exact absurd (hts hcode) (Nat.not_le.2 h)
      | skip hroom' hinside' hts' hrest' => exact ih hrest'

/-- The options of a header that has room for them. -/
theorem receiveOptions_walk
    {mem : Nat → UInt8} {fuel : Nat} {out : OptionsOutcome}
    (hrun : receiveOptions mem fuel = some out) :
    HeaderWalk mem out.accepted ∧ (out.accepted = false → 0 < out.ipsInvalidOpt) := by
  rw [receiveOptions] at hrun
  split at hrun
  next =>
    exact walk_of_parseOptions hrun
  next hshort =>
    obtain rfl := Option.some.inj hrun
    rw [HeaderWalk, Nat.sub_eq_zero_of_le (Nat.not_lt.1 hshort)]
    exact ⟨OptionsWalk.done _, fun hno => Bool.noConfusion hno⟩

theorem HeaderWalk.receiveOptions
    {mem : Nat → UInt8} {accepted : Bool}
    (hwalk : HeaderWalk mem accepted) :
    ∃ fuel out, receiveOptions mem fuel = some out ∧ out.accepted = accepted := by
  rcases Nat.lt_or_ge stdIpv4HdrLen (ipHdrLen mem) with hlong | hshort
  · obtain ⟨fuel, out, hrun, haccepted⟩ := parseOptions_of_walk hwalk 0
    exact ⟨fuel, out, by rw [Ipv4Options.receiveOptions, if_pos hlong, ipv4ParseOptions, hrun],
      haccepted⟩
  · rw [HeaderWalk, Nat.sub_eq_zero_of_le hshort] at hwalk
    refine ⟨0, ⟨true, 0, 0, [], []⟩, if_neg (Nat.not_lt.2 hshort), ?_⟩
    exact (OptionsWalk.done _).unique hwalk

/-! ## The lengths -/

/-- The lengths of a packet that is passed on are true if and only if its L4 length is the number
of bytes that are left behind the IPv4 header. -/
theorem lengthsTrue_iff
    {c l4Mbuf : Chain} {hdrLen : Nat}
    (htotal : ipHdrLen (rtePktmbufMtod c) ≤ totalLength (rtePktmbufMtod c))
    (hhdr : l4HdrLen (nextProtoId (rtePktmbufMtod c)) l4Mbuf = hdrLen)
    (hinside : hdrLen ≤ rtePktmbufDataLen l4Mbuf)
    (hsmall : hdrLen < 2 ^ 16) :
    LengthsTrue c
        { pcbL4Len := pcbL4Len (rtePktmbufMtod c)
          pcbL5Len := pcbL4Len (rtePktmbufMtod c) - BitVec.ofNat 16 hdrLen
          l4Mbuf := l4Mbuf
          pcbMbuf := dataAdjChain l4Mbuf (BitVec.ofNat 32 hdrLen) } ↔
      (chainBytes l4Mbuf).length =
        totalLength (rtePktmbufMtod c) - ipHdrLen (rtePktmbufMtod c) := by
  have hl4 := pcbL4Len_toNat (rtePktmbufMtod c)
  constructor
  · intro h
    rw [h.l4Bytes, hl4]
  · intro hbytes
    have hle := dataLen_le_chainBytes l4Mbuf
    have hhdrLen : (BitVec.ofNat 16 hdrLen).toNat = hdrLen := by
      rw [BitVec.toNat_ofNat, Nat.mod_eq_of_lt hsmall]
    have hl5 : (pcbL4Len (rtePktmbufMtod c) - BitVec.ofNat 16 hdrLen).toNat =
        totalLength (rtePktmbufMtod c) - ipHdrLen (rtePktmbufMtod c) - hdrLen := by
      rw [BitVec.toNat_sub_of_le (by rw [BitVec.le_def, hl4, hhdrLen]; omega), hl4, hhdrLen]
    refine ⟨?_, ?_, ?_, ?_⟩
    · rw [hl4]
      omega
    · rw [hl4, hbytes]
    · rw [hl5, hl4, hhdr]
      omega
    · rw [dataAdjChain_length hsmall hinside, hl5, hbytes]

/-- The L4 part is as long as it is said to be if and only if the padding has been measured. -/
theorem l4Bytes_iff
    {c l4Mbuf : Chain}
    (hheader : HeaderAccepted c)
    (hremove : removePadding
      (dataAdjChain c (BitVec.ofNat 32 (ipHdrLen (rtePktmbufMtod c))))
      (pcbL4Len (rtePktmbufMtod c)) = some l4Mbuf) :
    (chainBytes l4Mbuf).length = totalLength (rtePktmbufMtod c) - ipHdrLen (rtePktmbufMtod c) ↔
      PaddingMeasured c := by
  have hlen := removePadding_length hheader.inside hremove
  have hinside := hheader.inside.trans (dataLen_le_chainBytes c)
  have htotal := hheader.total.1
  rw [PaddingMeasured]
  omega

section Handlers

variable {mem : Nat → UInt8} {stats : Stats} {l4Mbuf : Chain}

theorem tcpReceivePkt_passed
    (htcp : nextProtoId mem = ipprotoTcp)
    (haccepted : L4Accepted port mem l4Mbuf) :
    (tcpReceivePkt port (pcbIpv4 mem) (pcbL4Len mem) stats l4Mbuf).passed = some
      { pcbL4Len := pcbL4Len mem
        pcbL5Len := pcbL4Len mem - BitVec.ofNat 16 (tcpHdrLen (rtePktmbufMtod l4Mbuf))
        l4Mbuf := l4Mbuf
        pcbMbuf := dataAdjChain l4Mbuf
          (BitVec.ofNat 32 (tcpHdrLen (rtePktmbufMtod l4Mbuf))) } := by
  rw [L4Accepted, if_pos htcp] at haccepted
  obtain ⟨hlarge, hinside, hcksum⟩ := haccepted
  simp only [tcpReceivePkt, if_neg (Nat.not_lt.2 (hlarge.trans hinside)),
    if_neg (Nat.not_lt.2 hinside), if_neg (Nat.not_lt.2 hlarge), hcksum]
  rfl

theorem tcpReceivePkt_dropped
    (htcp : nextProtoId mem = ipprotoTcp)
    (hrefused : ¬ L4Accepted port mem l4Mbuf) :
    (tcpReceivePkt port (pcbIpv4 mem) (pcbL4Len mem) stats l4Mbuf).passed = none ∧
      Counted stats (tcpReceivePkt port (pcbIpv4 mem) (pcbL4Len mem) stats l4Mbuf).stats := by
  have hle := (le_incStatsVal stats .tsReceivedPkts 1).trans
    (le_incStatsVal (incStats stats .tsReceivedPkts) .tsReceivedBytes (pcbL4Len mem).toNat)
  simp only [tcpReceivePkt]
  split
  next =>
    exact ⟨rfl, dropped_counted stats rfl⟩
  split
  next =>
    exact ⟨rfl, (dropped_counted _ rfl).mono hle le_rfl⟩
  next hinside =>
    split
    next =>
      exact ⟨rfl, (dropped_counted _ rfl).mono hle le_rfl⟩
    next hlarge =>
      have hcksum : tcpCksumInvalid port (pcbIpv4 mem) (pcbL4Len mem) l4Mbuf = true := by
        by_contra hvalid
        rw [L4Accepted, if_pos htcp] at hrefused
        exact hrefused ⟨Nat.not_lt.1 hlarge, Nat.not_lt.1 hinside, Bool.eq_false_iff.2 hvalid⟩
      rw [if_pos hcksum]
      refine ⟨rfl, (dropped_counted _ rfl).mono (hle.trans ?_) le_rfl⟩
      split
      · exact le_incStatsVal _ _ _
      · exact le_rfl

theorem udpReceivePkt_passed
    (hudp : nextProtoId mem = ipprotoUdp)
    (haccepted : L4Accepted port mem l4Mbuf) :
    (udpReceivePkt port (pcbIpv4 mem) (pcbL4Len mem) stats l4Mbuf).passed = some
      { pcbL4Len := pcbL4Len mem
        pcbL5Len := pcbL4Len mem - BitVec.ofNat 16 rteUdpHdrSize
        l4Mbuf := l4Mbuf
        pcbMbuf := dataAdjChain l4Mbuf (BitVec.ofNat 32 rteUdpHdrSize) } := by
  rw [L4Accepted, if_neg (by rw [hudp]; decide)] at haccepted
  obtain ⟨-, hroom, hcksum⟩ := haccepted
  simp only [udpReceivePkt, if_neg (Nat.not_lt.2 hroom), hcksum]
  rfl

theorem udpReceivePkt_dropped
    (hudp : nextProtoId mem = ipprotoUdp)
    (hrefused : ¬ L4Accepted port mem l4Mbuf) :
    (udpReceivePkt port (pcbIpv4 mem) (pcbL4Len mem) stats l4Mbuf).passed = none ∧
      Counted stats (udpReceivePkt port (pcbIpv4 mem) (pcbL4Len mem) stats l4Mbuf).stats := by
  have hle := (le_incStatsVal stats .usReceivedPkts 1).trans
    (le_incStatsVal (incStats stats .usReceivedPkts) .usReceivedBytes (pcbL4Len mem).toNat)
  simp only [udpReceivePkt]
  split
  next =>
    exact ⟨rfl, dropped_counted stats rfl⟩
  next hroom =>
    have hcksum : udpCksumInvalid port (pcbIpv4 mem) l4Mbuf = true := by
      by_contra hvalid
      rw [L4Accepted, if_neg (by rw [hudp]; decide)] at hrefused
      exact hrefused ⟨hudp, Nat.not_lt.1 hroom, Bool.eq_false_iff.2 hvalid⟩
    rw [if_pos hcksum]
    exact ⟨rfl, (dropped_counted _ rfl).mono hle le_rfl⟩

end Handlers

section Frames

variable {c : Chain} {before stats : Stats}

/-- A packet whose L4 header is accepted is passed on. -/
theorem ipv4Deliver_passed
    {l4Mbuf : Chain}
    (hheader : HeaderAccepted c)
    (hremove : removePadding
      (dataAdjChain c (BitVec.ofNat 32 (ipHdrLen (rtePktmbufMtod c))))
      (pcbL4Len (rtePktmbufMtod c)) = some l4Mbuf)
    (haccepted : L4Accepted port (rtePktmbufMtod c) l4Mbuf) :
    ∃ passed, (ipv4Deliver port stats c).passed = some passed ∧
      (LengthsTrue c passed ↔ PaddingMeasured c) := by
  simp only [ipv4Deliver, hremove]
  by_cases htcp : nextProtoId (rtePktmbufMtod c) = ipprotoTcp
  · rw [if_pos htcp]
    refine ⟨_, tcpReceivePkt_passed htcp haccepted, ?_⟩
    rw [L4Accepted, if_pos htcp] at haccepted
    rw [← l4Bytes_iff hheader hremove]
    exact lengthsTrue_iff hheader.total.1 (by rw [l4HdrLen, if_pos htcp]) haccepted.2.1
      ((tcpHdrLen_le _).trans_lt (by decide))
  · have haccepted' := haccepted
    rw [L4Accepted, if_neg htcp] at haccepted'
    obtain ⟨hudp, hroom, -⟩ := haccepted'
    rw [if_neg htcp, if_pos hudp]
    refine ⟨_, udpReceivePkt_passed hudp haccepted, ?_⟩
    rw [← l4Bytes_iff hheader hremove]
    exact lengthsTrue_iff hheader.total.1 (by rw [l4HdrLen, if_neg htcp]) hroom (by decide)

/-- A packet that is not for TCP or UDP has been counted by its protocol. -/
theorem protocolCounter_isDrop
    {proto : UInt8}
    (htcp : proto ≠ ipprotoTcp)
    (hudp : proto ≠ ipprotoUdp) :
    (protocolCounter proto).isDrop = true := by
  rw [protocolCounter, if_neg htcp, if_neg hudp]
  split <;> rfl

theorem ipv4Deliver_dropped
    (hle : incStats before (protocolCounter (nextProtoId (rtePktmbufMtod c))) ≤ stats)
    (hrefused : ¬ ∃ l4Mbuf, removePadding
        (dataAdjChain c (BitVec.ofNat 32 (ipHdrLen (rtePktmbufMtod c))))
        (pcbL4Len (rtePktmbufMtod c)) = some l4Mbuf ∧
      L4Accepted port (rtePktmbufMtod c) l4Mbuf) :
    (ipv4Deliver port stats c).passed = none ∧
      Counted before (ipv4Deliver port stats c).stats := by
  have hbefore : before ≤ stats := (le_incStatsVal _ _ _).trans hle
  simp only [ipv4Deliver]
  split
  next =>
    exact ⟨rfl, (dropped_counted stats rfl).mono hbefore le_rfl⟩
  next l4Mbuf hremove =>
    have hrefused' : ¬ L4Accepted port (rtePktmbufMtod c) l4Mbuf := by
      intro haccepted
      exact hrefused ⟨l4Mbuf, hremove, haccepted⟩
    split
    next htcp =>
      obtain ⟨hpassed, hcounted⟩ := @tcpReceivePkt_dropped port _ stats _ htcp hrefused'
      exact ⟨hpassed, hcounted.mono hbefore le_rfl⟩
    next htcp =>
      split
      next hudp =>
        obtain ⟨hpassed, hcounted⟩ := @udpReceivePkt_dropped port _ stats _ hudp hrefused'
        exact ⟨hpassed, hcounted.mono hbefore le_rfl⟩
      next hudp =>
        refine ⟨rfl, Counted.mono ?_ le_rfl hle⟩
        exact counted_incStatsVal (protocolCounter_isDrop htcp hudp) Nat.one_pos

theorem incStatsVal_mono
    (hle : before ≤ stats)
    (counter : RxCounter) (val : Nat) :
    incStatsVal before counter val ≤ incStatsVal stats counter val := by
  intro other
  by_cases h : other = counter
  · subst h
    simpa [incStatsVal] using hle other
  · simpa [incStatsVal, Function.update_of_ne h] using hle other

/-- The checks in front of the options drop and count, or they all hold. -/
theorem ipv4ReceivePkt_refused
    (hrefused : ¬ HeaderAccepted c)
    (fuel : Nat) :
    ∃ out, ipv4ReceivePkt port fuel stats c = some out ∧ out.passed = none ∧
      Counted stats out.stats := by
  have hle := ((le_incStatsVal stats .ipsReceivedPkts 1).trans
    (le_incStatsVal (incStats stats .ipsReceivedPkts) .ipsReceivedBytes
      (totalLength (rtePktmbufMtod c)))).trans
    (le_incStatsVal _ (protocolCounter (nextProtoId (rtePktmbufMtod c))) 1)
  simp only [ipv4ReceivePkt]
  split
  next =>
    exact ⟨_, rfl, rfl, dropped_counted stats rfl⟩
  next hroom =>
    split
    next =>
      exact ⟨_, rfl, rfl, dropped_counted stats rfl⟩
    next hwhole =>
      split
      next =>
        exact ⟨_, rfl, rfl, (dropped_counted _ rfl).mono hle le_rfl⟩
      next hinside =>
        split
        next =>
          exact ⟨_, rfl, rfl, (dropped_counted _ rfl).mono hle le_rfl⟩
        next hlarge =>
          split
          next =>
            exact ⟨_, rfl, rfl, (dropped_counted _ rfl).mono hle le_rfl⟩
          next htotal =>
            split
            next =>
              exact ⟨_, rfl, rfl, (dropped_counted _ rfl).mono hle le_rfl⟩
            next hversion =>
              rw [not_or, not_not, not_not] at hwhole
              rw [not_or, not_lt, not_lt] at htotal
              exact absurd ⟨Nat.not_lt.1 hroom, hwhole, Nat.not_lt.1 hinside,
                Nat.not_lt.1 hlarge, htotal, not_not.1 hversion⟩ hrefused

/-- Behind the checks the options decide. -/
theorem ipv4ReceivePkt_accepted
    (hheader : HeaderAccepted c)
    (stats : Stats) :
    ∃ stats', incStats stats (protocolCounter (nextProtoId (rtePktmbufMtod c))) ≤ stats' ∧
      ∀ fuel, ipv4ReceivePkt port fuel stats c =
        (receiveOptions (rtePktmbufMtod c) fuel).map fun options =>
          if options.accepted = false then
            ⟨incStatsVal stats' .ipsInvalidOpt options.ipsInvalidOpt, none⟩
          else if ipv4CksumInvalid port c (ipHdrLen (rtePktmbufMtod c)) then
            dropped stats' .ipsInvalidChecksum
          else ipv4Deliver port stats' c := by
  have hle := (le_incStatsVal stats .ipsReceivedPkts 1).trans
    (le_incStatsVal (incStats stats .ipsReceivedPkts) .ipsReceivedBytes
      (totalLength (rtePktmbufMtod c)))
  have hproto := incStatsVal_mono hle (protocolCounter (nextProtoId (rtePktmbufMtod c))) 1
  have hwhole : ¬ (fragmentOffset (rtePktmbufMtod c) &&& 0x2000 ≠ 0 ∨
      fragmentOffset (rtePktmbufMtod c) &&& 0x1FFF ≠ 0) := by
    rw [not_or, not_not, not_not]
    exact hheader.whole
  have htotal : ¬ (totalLength (rtePktmbufMtod c) < ipHdrLen (rtePktmbufMtod c) ∨
      (chainPktLen c).toNat < totalLength (rtePktmbufMtod c)) := by
    rw [not_or, not_lt, not_lt]
    exact hheader.total
  refine ⟨_, hproto.trans ?_, fun fuel => by
    simp only [ipv4ReceivePkt, if_neg (Nat.not_lt.2 hheader.room), if_neg hwhole,
      if_neg (Nat.not_lt.2 hheader.inside), if_neg (Nat.not_lt.2 hheader.large),
      if_neg htotal, if_neg (not_not.2 hheader.version)]
    rfl⟩
  split
  · exact le_incStatsVal _ _ _
  · exact le_rfl

/-- Received frames are accounted for if and only if the loop over their options ends and, if all
checks let them pass, what `pkt_len` says about their padding is what follows them. -/
theorem receiveAccounted_iff
    (port : RxPort) (stats : Stats) (c : Chain) :
    ReceiveAccounted port stats c ↔
      (HeaderAccepted c → ∃ accepted, HeaderWalk (rtePktmbufMtod c) accepted) ∧
        (PassesChecks port c → PaddingMeasured c) := by
  by_cases hheader : HeaderAccepted c
  swap
  · obtain ⟨out, hrun, hpassed, hcounted⟩ := @ipv4ReceivePkt_refused port c stats hheader 0
    refine iff_of_true ⟨0, out, hrun, ?_⟩ ⟨fun h => absurd h hheader,
      fun h => absurd h.header hheader⟩
    rwa [hpassed]
  obtain ⟨stats', hle, hrun⟩ := @ipv4ReceivePkt_accepted port c hheader stats
  have hbefore : stats ≤ stats' := (le_incStatsVal _ _ _).trans hle
  constructor
  · rintro ⟨fuel, out, hout, haccounted⟩
    rw [hrun] at hout
    obtain ⟨options, hoptions, rfl⟩ := Option.map_eq_some_iff.1 hout
    have hwalk := (receiveOptions_walk hoptions).1
    refine ⟨fun _ => ⟨_, hwalk⟩, fun hchecks => ?_⟩
    obtain ⟨l4Mbuf, hremove, hl4⟩ := hchecks.l4
    obtain ⟨passed, hpassed, hlengths⟩ := @ipv4Deliver_passed port c stats' l4Mbuf hheader
      hremove hl4
    have haccepted : options.accepted = true := hwalk.unique hchecks.options
    simp only [haccepted, hchecks.cksum, Bool.false_eq_true, Bool.true_eq_false, if_false,
      hpassed] at haccounted
    exact hlengths.1 haccounted
  · rintro ⟨hends, hmeasured⟩
    obtain ⟨accepted, hwalk⟩ := hends hheader
    obtain ⟨fuel, options, hoptions, rfl⟩ := hwalk.receiveOptions
    refine ⟨fuel, _, by rw [hrun, hoptions, Option.map_some], ?_⟩
    by_cases haccepted : options.accepted = false
    · rw [if_pos haccepted]
      exact (counted_incStatsVal rfl ((receiveOptions_walk hoptions).2 haccepted)).mono
        hbefore le_rfl
    by_cases hcksum : ipv4CksumInvalid port c (ipHdrLen (rtePktmbufMtod c)) = true
    · rw [if_neg haccepted, if_pos hcksum]
      exact (dropped_counted stats' rfl).mono hbefore le_rfl
    rw [if_neg haccepted, if_neg hcksum]
    by_cases hl4 : ∃ l4Mbuf, removePadding
        (dataAdjChain c (BitVec.ofNat 32 (ipHdrLen (rtePktmbufMtod c))))
        (pcbL4Len (rtePktmbufMtod c)) = some l4Mbuf ∧
      L4Accepted port (rtePktmbufMtod c) l4Mbuf
    · obtain ⟨l4Mbuf, hremove, hl4Mbuf⟩ := hl4
      obtain ⟨passed, hpassed, hlengths⟩ := @ipv4Deliver_passed port c stats' l4Mbuf hheader
        hremove hl4Mbuf
      rw [hpassed]
      rw [Bool.not_eq_false] at haccepted
      rw [haccepted] at hwalk
      exact hlengths.2 (hmeasured ⟨hheader, hwalk, Bool.eq_false_iff.2 hcksum,
        ⟨l4Mbuf, hremove, hl4Mbuf⟩⟩)
    · obtain ⟨hpassed, hcounted⟩ := @ipv4Deliver_dropped port c stats stats' hle hl4
      rw [hpassed]
      exact hcounted

/-- In a chain whose mbufs all hold data and whose `pkt_len` is right, the padding is measured
unless it has 2^16 bytes, or the IPv4 header ends where the first mbuf ends and the next one does
not carry the length of the rest. -/
theorem paddingMeasured_of_chainOk
    (hc : ChainOk c)
    (hheader : HeaderAccepted c)
    (hfits : (chainBytes c).length < 2 ^ 32)
    (hpadding : (chainBytes c).length < totalLength (rtePktmbufMtod c) + 2 ^ 16)
    (hexact : AdjExact c 0 (ipHdrLen (rtePktmbufMtod c))) :
    PaddingMeasured c := by
  have hpkt := congrArg BitVec.toNat hc.pktLen
  rw [BitVec.toNat_ofNat, Nat.mod_eq_of_lt hfits] at hpkt
  have htotal := hheader.total
  have hsmall : ipHdrLen (rtePktmbufMtod c) < 2 ^ 16 := (ipHdrLen_le _).trans_lt (by decide)
  have hbehind : (pktLenBehind c (ipHdrLen (rtePktmbufMtod c))).toNat =
      (chainBytes c).length - ipHdrLen (rtePktmbufMtod c) := by
    have hhdr : (BitVec.ofNat 32 (ipHdrLen (rtePktmbufMtod c))).toNat =
        ipHdrLen (rtePktmbufMtod c) := by
      rw [BitVec.toNat_ofNat, Nat.mod_eq_of_lt (by omega)]
    have hfirst : (chainPktLen c - BitVec.ofNat 32 (ipHdrLen (rtePktmbufMtod c))).toNat =
        (chainBytes c).length - ipHdrLen (rtePktmbufMtod c) := by
      rw [BitVec.toNat_sub_of_le (by rw [BitVec.le_def, hhdr]; omega), hhdr, hpkt]
    have hinside := hheader.inside
    match c with
    | [] => exact hfirst
    | [m] => exact hfirst
    | m :: next :: tail =>
        rw [pktLenBehind]
        split
        next =>
          exact hfirst
        next hend =>
          rw [rtePktmbufDataLen] at hinside
          have hstop := le_antisymm hinside (Nat.not_lt.1 hend)
          rw [AdjExact, if_pos (List.length_pos_iff.2 (hc.holdsData m (by simp)))] at hexact
          have hnext := congrArg BitVec.toNat (hexact hstop (List.cons_ne_nil _ _))
          rw [chainBytes_cons, List.length_append] at hfits ⊢
          rw [BitVec.toNat_ofNat, Nat.mod_eq_of_lt (by omega)] at hnext
          rw [hstop, Nat.add_sub_cancel_left]
          exact hnext
  rw [PaddingMeasured, paddingFound, hbehind]
  split <;> omega

end Frames

section Failure

/-- A port that checks the checksums itself. -/
def offloadPort : RxPort where
  rteRawCksum := fun _ => 0
  swChecksumming := false
  ipv4Cksum := true
  tcpCksum := true
  udpCksum := true
  olFlags := fun _ => ⟨false, false⟩

/-- An IPv4 header with total length 24 in an mbuf of its own, and 40 bytes in the next mbuf, whose
`pkt_len` is 0. -/
def splitFrame : Chain :=
  [⟨1, [0x45, 0, 0, 24, 0, 0, 0, 0, 64, 6, 0, 0, 10, 0, 0, 1, 10, 0, 0, 2], 60, 2⟩,
    ⟨2, List.replicate 12 0 ++ [0x50] ++ List.replicate 27 0, 0, 1⟩]

/-- The TCP header is longer than the 4 bytes of the packet: the L5 length is 65520. -/
theorem splitFrame_underflows :
    ¬ ReceiveAccounted offloadPort (fun _ => 0) splitFrame := by
  rintro ⟨fuel, out, hrun, haccounted⟩
  have htcp : nextProtoId (rtePktmbufMtod splitFrame) = ipprotoTcp := by
    decide
  have hheader : HeaderAccepted splitFrame :=
    ⟨by decide, by decide, by decide, by decide, by decide, by decide⟩
  obtain ⟨stats, -, haccepted⟩ := @ipv4ReceivePkt_accepted offloadPort _ hheader fun _ => 0
  have hoptions : receiveOptions (rtePktmbufMtod splitFrame) fuel = some ⟨true, 0, 0, [], []⟩ :=
    if_neg (by decide)
  have hremove : removePadding
      (dataAdjChain splitFrame (BitVec.ofNat 32 (ipHdrLen (rtePktmbufMtod splitFrame))))
      (pcbL4Len (rtePktmbufMtod splitFrame)) = some splitFrame.tail := by
    decide
  have hl4 : L4Accepted offloadPort (rtePktmbufMtod splitFrame) splitFrame.tail := by
    rw [L4Accepted, if_pos htcp]
    exact ⟨by decide, by decide, rfl⟩
  have hout : out = ipv4Deliver offloadPort stats splitFrame := by
    rw [haccepted, hoptions] at hrun
    exact (Option.some.inj hrun).symm
  have hpassed := @tcpReceivePkt_passed offloadPort (rtePktmbufMtod splitFrame) stats _ htcp hl4
  simp only [hout, ipv4Deliver, hremove, if_pos htcp, hpassed] at haccounted
  exact absurd haccounted.l5 (by decide)

end Failure

end ReceiveLengths
end Warp17
