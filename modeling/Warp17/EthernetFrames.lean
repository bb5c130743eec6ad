import Warp17.ReceiveLengths
import Warp17.ArpTable
import Warp17.WordBytes

/-!
# Ethernet frames

`eth_build_hdr_mbuf()` puts an Ethernet header in front of a packet, with a VLAN tag if the
socket options name a VLAN.  `eth_receive_pkt()` takes the header and all tags off and goes by
the type behind the innermost one.

**Results**
- `ethMacToUint64_toNat`, `ethUint64ToMac_macToUint64`: addresses as numbers and as bytes.
- `ethReceivePkt_ends`: the tags of every frame are taken off in a finite loop.
- `ethReceivePkt_built`: a frame that was built is taken apart to what was put in.
-/

namespace Warp17
namespace EthernetFrames

open SequenceComparison MbufChains Ipv4Options ReceiveLengths ArpTable WordBytes
open L4Checksum (U16)

section Addresses

/-- `struct rte_ether_addr` -/
structure EtherAddr where
  a0 : UInt8
  a1 : UInt8
  a2 : UInt8
  a3 : UInt8
  a4 : UInt8
  a5 : UInt8
deriving DecidableEq

/-- `addr_bytes` -/
def EtherAddr.bytes (mac : EtherAddr) : List UInt8 :=
  [mac.a0, mac.a1, mac.a2, mac.a3, mac.a4, mac.a5]

/-- `(uint64_t) mac[i]` -/
def wide (x : UInt8) : U64 :=
  x.toBitVec.setWidth 64

/-- `eth_mac_to_uint64()` -/
def ethMacToUint64 (mac : EtherAddr) : U64 :=
  wide mac.a0 <<< 40 ||| wide mac.a1 <<< 32 ||| wide mac.a2 <<< 24 ||| wide mac.a3 <<< 16 |||
    wide mac.a4 <<< 8 ||| wide mac.a5

/-- `(uint64_mac >> shift) & 0xff` -/
def macByte (mac : U64) (shift : Nat) : UInt8 :=
  UInt8.ofNat ((mac >>> shift) &&& 0xff).toNat

/-- `eth_uint64_to_mac()` -/
def ethUint64ToMac (mac : U64) : EtherAddr where
  a0 := macByte mac 40
  a1 := macByte mac 32
  a2 := macByte mac 24
  a3 := macByte mac 16
  a4 := macByte mac 8
  a5 := macByte mac 0

end Addresses

section Source

/-- `sizeof(struct rte_ether_hdr)` -/
def rteEtherHdrSize : Nat := 14

/-- `sizeof(struct rte_vlan_hdr)` -/
def rteVlanHdrSize : Nat := 4

def rteEtherTypeIpv4 : Nat := 0x0800

def rteEtherTypeArp : Nat := 0x0806

def rteEtherTypeVlan : Nat := 0x8100

def rteEtherTypeIpv6 : Nat := 0x86DD

/-- `VLAN_VID_MASK` -/
def vlanVidMask : U16 := 0x0fff

/-- `VLAN_PRIO_SHIFT` -/
def vlanPrioShift : Nat := 13

/-- `VLAN_NO_TAG` -/
def vlanNoTag : U16 := 0

/-- `VLAN_TAG_ID()` -/
def vlanTagId (vlanTci : U16) : U16 :=
  vlanTci &&& vlanVidMask

/-- `vlan_sockopt_t` -/
structure VlanSockopt where
  vlansoId : U16
  vlansoPri : U16
  vlansoHdrOptLen : Nat
deriving DecidableEq, Repr

/-- `vlan_store_sockopt()` -/
def vlanStoreSockopt (vlansoId vlansoPri : U16) : VlanSockopt where
  vlansoId := vlansoId
  vlansoPri := vlansoPri
  vlansoHdrOptLen := if vlansoId ≠ 0 then rteVlanHdrSize else 0

/-- The tag control field that is sent for a socket. -/
def VlanSockopt.tci (vlan : VlanSockopt) : U16 :=
  vlan.vlansoId ||| (vlan.vlansoPri <<< vlanPrioShift)

/-- An Ethernet header with at most one VLAN tag. -/
def frameHdr (dstMac srcMac : EtherAddr) (tag : Option U16) (etherType : Nat) : List UInt8 :=
  dstMac.bytes ++ srcMac.bytes ++
    match tag with
    | none => netBytes 2 etherType
    | some tci => netBytes 2 rteEtherTypeVlan ++ netBytes 2 tci.toNat ++ netBytes 2 etherType

/-- The header of `eth_build_hdr_mbuf()`. -/
def ethBuildHdr (vlan : VlanSockopt) (dstMac srcMac : U64) (etherType : Nat) : List UInt8 :=
  frameHdr (ethUint64ToMac dstMac) (ethUint64ToMac srcMac)
    (if 0 < vlan.vlansoHdrOptLen then some vlan.tci else none) etherType

/-- A frame in one mbuf, as it is received; short frames are padded. -/
def receivedMbuf (frame padding : List UInt8) : Mbuf where
  id := 0
  data := frame ++ padding
  pktLen := BitVec.ofNat 32 (frame ++ padding).length
  nbSegs := 1

/-- The counters of `tpg_eth_statistics_t` that `eth_receive_pkt()` increments. -/
inductive EthCounter
  | esToSmallFragment
  | esEtypeVlan
  | esEtypeIpv4
  | esEtypeArp
  | esEtypeIpv6
  | esEtypeOther
deriving DecidableEq, Repr

/-- The counter of an Ethernet type. -/
def etypeCounter (etype : Nat) : EthCounter :=
  if etype = rteEtherTypeIpv4 then .esEtypeIpv4
  else if etype = rteEtherTypeArp then .esEtypeArp
  else if etype = rteEtherTypeIpv6 then .esEtypeIpv6
  else .esEtypeOther

/-- A frame behind its Ethernet header: the type, the innermost tag and the chain. -/
structure EthPacket where
  etype : Nat
  vlanTci : U16
  mbuf : Chain

/-- The counters in order, and the packet if the header was complete. -/
structure EthOutcome where
  counters : List EthCounter
  packet : Option EthPacket

/-- The loop that pops the tags. -/
def popVlanTags : Nat → Chain → Option EthOutcome
  | 0, _ => none
  | fuel + 1, mbuf =>
      let mem := rtePktmbufMtod mbuf
      if rtePktmbufDataLen mbuf < rteVlanHdrSize then
        some ⟨[.esToSmallFragment], none⟩
      else
        let etype := be16 mem 2
        let vlanTci := BitVec.ofNat 16 (be16 mem 0)
        let mbuf := dataAdjChain mbuf (BitVec.ofNat 32 rteVlanHdrSize)
        if etype = rteEtherTypeVlan then popVlanTags fuel mbuf
        else some ⟨[etypeCounter etype], some ⟨etype, vlanTci, mbuf⟩⟩

/-- `eth_receive_pkt()` up to the protocol handlers. -/
def ethReceivePkt (fuel : Nat) (mbuf : Chain) : Option EthOutcome :=
  let etype := be16 (rtePktmbufMtod mbuf) 12
  if rtePktmbufDataLen mbuf < rteEtherHdrSize then
    some ⟨[.esToSmallFragment], none⟩
  else
    let mbuf := dataAdjChain mbuf (BitVec.ofNat 32 rteEtherHdrSize)
    if etype = rteEtherTypeVlan then
      (popVlanTags fuel mbuf).map fun out => { out with counters := .esEtypeVlan :: out.counters }
    else some ⟨[etypeCounter etype], some ⟨etype, vlanNoTag, mbuf⟩⟩

end Source

section AddressLemmas

theorem macByte_toNat
    (mac : U64) (shift : Nat) :
    (macByte mac shift).toNat = mac.toNat / 2 ^ shift % 256 := by
  have hmask : (0xff : U64).toNat = 2 ^ 8 - 1 := rfl
  rw [macByte, UInt8.toNat_ofNat', BitVec.toNat_and, hmask, Nat.and_two_pow_sub_one_eq_mod,
    BitVec.toNat_ushiftRight, Nat.shiftRight_eq_div_pow]
  omega

/-- A byte that is shifted into place lies beside a smaller number. -/
theorem or_shiftLeft
    {x y : U64} {k n : Nat}
    (hx : x.toNat < 2 ^ n)
    (hy : y.toNat < 2 ^ k)
    (hfits : k + n ≤ 64) :
    (x <<< k ||| y).toNat = x.toNat * 2 ^ k + y.toNat := by
  have hlt : x.toNat * 2 ^ k < 2 ^ 64 := by
    calc x.toNat * 2 ^ k < 2 ^ n * 2 ^ k := Nat.mul_lt_mul_of_pos_right hx (Nat.two_pow_pos k)
      _ = 2 ^ (n + k) := (pow_add 2 n k).symm
      _ ≤ 2 ^ 64 := Nat.pow_le_pow_right (by decide) (by omega)
  rw [BitVec.toNat_or, BitVec.toNat_shiftLeft, Nat.shiftLeft_eq, Nat.mod_eq_of_lt hlt,
    Nat.mul_comm, Nat.two_pow_add_eq_or_of_lt hy]

theorem wide_toNat
    (x : UInt8) :
    (wide x).toNat = x.toNat := by
  have h := x.toNat_lt
  rw [wide, BitVec.toNat_setWidth, UInt8.toNat_toBitVec]
  omega

theorem wide_lt
    (x : UInt8) :
    (wide x).toNat < 2 ^ 8 := by
  rw [wide_toNat]
  exact x.toNat_lt

/-- An address as a number has its bytes in network order. -/
theorem ethMacToUint64_toNat
    (mac : EtherAddr) :
    (ethMacToUint64 mac).toNat = netValue mac.bytes := by
  have h0 := wide_lt mac.a0
  have h1 := wide_lt mac.a1
  have h2 := wide_lt mac.a2
  have h3 := wide_lt mac.a3
  have h4 := wide_lt mac.a4
  have h5 := wide_lt mac.a5
  have e4 := or_shiftLeft h4 h5 (by decide)
  have e3 := or_shiftLeft (k := 16) h3 (by rw [e4]; omega) (by decide)
  have e2 := or_shiftLeft (k := 24) h2 (by rw [e3, e4]; omega) (by decide)
  have e1 := or_shiftLeft (k := 32) h1 (by rw [e2, e3, e4]; omega) (by decide)
  have e0 := or_shiftLeft (k := 40) h0 (by rw [e1, e2, e3, e4]; omega) (by decide)
  rw [ethMacToUint64, BitVec.or_assoc, BitVec.or_assoc, BitVec.or_assoc, BitVec.or_assoc,
    e0, e1, e2, e3, e4]
  simp only [wide_toNat, EtherAddr.bytes, netValue, List.length_cons, List.length_nil]
  omega

/-- An address survives the way to a number and back. -/
theorem ethUint64ToMac_macToUint64
    (mac : EtherAddr) :
    ethUint64ToMac (ethMacToUint64 mac) = mac := by
  have h1 := mac.a1.toNat_lt
  have h2 := mac.a2.toNat_lt
  have h3 := mac.a3.toNat_lt
  have h4 := mac.a4.toNat_lt
  have h5 := mac.a5.toNat_lt
  have h0 := mac.a0.toNat_lt
  have hnat := ethMacToUint64_toNat mac
  simp only [EtherAddr.bytes, netValue, List.length_cons, List.length_nil] at hnat
  have hbytes : ∀ shift x, (ethMacToUint64 mac).toNat / 2 ^ shift % 256 = UInt8.toNat x →
      macByte (ethMacToUint64 mac) shift = x := by
    intro shift x heq
    rw [← UInt8.toNat_inj, macByte_toNat, heq]
  rw [ethUint64ToMac, hbytes 40 mac.a0 (by omega), hbytes 32 mac.a1 (by omega),
    hbytes 24 mac.a2 (by omega), hbytes 16 mac.a3 (by omega), hbytes 8 mac.a4 (by omega),
    hbytes 0 mac.a5 (by omega)]

/-- A MAC leaves the flags of an entry alone. -/
theorem ethMacToUint64_and_mask
    (mac : EtherAddr) :
    ethMacToUint64 mac &&& macMask = ethMacToUint64 mac := by
  have hlt := netValue_lt mac.bytes
  have hmask : macMask.toNat = 2 ^ 48 - 1 := rfl
  refine BitVec.eq_of_toNat_eq ?_
  rw [BitVec.toNat_and, hmask, Nat.and_two_pow_sub_one_eq_mod, ethMacToUint64_toNat]
  exact Nat.mod_eq_of_lt (lt_of_lt_of_eq hlt (by norm_num [EtherAddr.bytes]))

end AddressLemmas

section Receive

variable {m : Mbuf} {rest : Chain} {len : Nat}

/-- Taking bytes off that lie in the first mbuf. -/
theorem dataAdjChain_inside
    (hlen : len < m.data.length)
    (hsmall : len < 2 ^ 16) :
    dataAdjChain (m :: rest) (BitVec.ofNat 32 len) =
      { m with
        data := m.data.drop len
        pktLen := m.pktLen - BitVec.ofNat 32 len } :: rest := by
  have hkept : m.data.drop len ≠ [] := by
    rw [← List.length_pos_iff, List.length_drop]
    omega
  simp only [dataAdjChain, rtePktmbufAdj_eq m hsmall, if_neg (by omega : ¬ m.data.length < len)]
  rw [if_pos hkept]

/-- Taking bytes off the first mbuf takes them off the chain, also when it ends there. -/
theorem dataAdjChain_bytes
    (hlen : len ≤ m.data.length)
    (hsmall : len < 2 ^ 16) :
    chainBytes (dataAdjChain (m :: rest) (BitVec.ofNat 32 len)) =
      (chainBytes (m :: rest)).drop len := by
  rcases Nat.lt_or_eq_of_le hlen with hlt | heq
  · rw [dataAdjChain_inside hlt hsmall, chainBytes_cons, chainBytes_cons,
      List.drop_append_of_le_length hlen]
  · have hempty : m.data.drop len = [] := by
      rw [heq, List.drop_length]
    simp only [dataAdjChain, rtePktmbufAdj_eq m hsmall,
      if_neg (by omega : ¬ m.data.length < len), hempty]
    rw [if_neg (by simp), chainBytes_cons, heq, List.drop_left]
    cases rest <;> simp

/-- Each tag takes four bytes off the frame. -/
theorem popVlanTags_ends
    (fuel : Nat) (mbuf : Chain)
    (hfuel : (chainBytes mbuf).length < fuel) :
    ∃ out, popVlanTags fuel mbuf = some out := by
  induction fuel generalizing mbuf with
  | zero =>
      omega
  | succ fuel ih =>
      simp only [popVlanTags]
      split
      · exact ⟨_, rfl⟩
      · rename_i hroom
        split
        · cases mbuf with
          | nil =>
              exact absurd (by decide) hroom
          | cons m rest =>
              have hdata : rteVlanHdrSize ≤ m.data.length := Nat.le_of_not_lt hroom
              apply ih
              rw [dataAdjChain_bytes hdata (by decide), List.length_drop, rteVlanHdrSize]
              rw [chainBytes_cons, List.length_append] at hfuel ⊢
              rw [rteVlanHdrSize] at hdata
              omega
        · exact ⟨_, rfl⟩

/-- `eth_receive_pkt()` comes to an end with every frame. -/
theorem ethReceivePkt_ends
    (mbuf : Chain) :
    ∃ fuel out, ethReceivePkt fuel mbuf = some out := by
  refine ⟨(chainBytes (dataAdjChain mbuf (BitVec.ofNat 32 rteEtherHdrSize))).length + 1, ?_⟩
  simp only [ethReceivePkt]
  split
  · exact ⟨_, rfl⟩
  · split
    · obtain ⟨out, hout⟩ := popVlanTags_ends _
        (dataAdjChain mbuf (BitVec.ofNat 32 rteEtherHdrSize)) (Nat.lt_succ_self _)
      rw [hout]
      exact ⟨_, rfl⟩
    · exact ⟨_, rfl⟩

/-- Two bytes of a number, read in network order. -/
theorem be16_netBytes
    {mem : Nat → UInt8} {offset v : Nat}
    (h0 : mem offset = UInt8.ofNat (v / 256))
    (h1 : mem (offset + 1) = UInt8.ofNat v)
    (hv : v < 2 ^ 16) :
    be16 mem offset = v := by
  rw [be16, h0, h1, UInt8.toNat_ofNat', UInt8.toNat_ofNat']
  omega

section Fields

variable {mem : Nat → UInt8} {offset : Nat}

theorem be16_of_holds
    {v : U16}
    (h : Holds mem offset (netBytes 2 v.toNat)) :
    BitVec.ofNat 16 (be16 mem offset) = v := by
  obtain ⟨h0, h1, -⟩ := h
  rw [be16_netBytes (by simpa using h0) (by simpa using h1) v.isLt, BitVec.ofNat_toNat,
    BitVec.setWidth_eq]

theorem be32_of_holds
    {v : U32}
    (h : Holds mem offset (netBytes 4 v.toNat)) :
    be32 mem offset = v := by
  obtain ⟨h0, h1, h2, h3, -⟩ := h
  have hv := v.isLt
  refine BitVec.eq_of_toNat_eq ?_
  simp only [be32, toNat_append, UInt8.toNat_toBitVec]
  rw [h0, h1, h2, h3]
  simp only [UInt8.toNat_ofNat']
  omega

end Fields

/-- A frame that was built is taken apart to what was put in. -/
theorem ethReceivePkt_built
    {etherType fuel : Nat}
    (dstMac srcMac : EtherAddr) (tag : Option U16) (payload : List UInt8)
    (hetype : etherType < 2 ^ 16)
    (hvlan : etherType ≠ rteEtherTypeVlan)
    (hpayload : payload ≠ [])
    (hfuel : 0 < fuel)
    (hdata : m.data = frameHdr dstMac srcMac tag etherType ++ payload) :
    ethReceivePkt fuel (m :: rest) =
      some ⟨(if tag.isSome then [.esEtypeVlan] else []) ++ [etypeCounter etherType], some
        { etype := etherType
          vlanTci := tag.getD vlanNoTag
          mbuf := { m with
            data := payload
            pktLen := m.pktLen -
              BitVec.ofNat 32 (frameHdr dstMac srcMac tag etherType).length } :: rest }⟩ := by
  have hpos := List.length_pos_iff.2 hpayload
  cases tag with
  | none =>
      have hlen : m.data.length = 14 + payload.length := by
        rw [hdata]
        simp [frameHdr, EtherAddr.bytes]
        omega
      have hread : be16 (rtePktmbufMtod (m :: rest)) 12 = etherType := by
        refine be16_netBytes ?_ ?_ hetype <;>
          simp [rtePktmbufMtod, hdata, frameHdr, EtherAddr.bytes, netBytes]
      have hdrop : m.data.drop 14 = payload := by
        rw [hdata]
        simp [frameHdr, EtherAddr.bytes, netBytes]
      simp only [ethReceivePkt, hread]
      rw [if_neg (by simp only [rtePktmbufDataLen, rteEtherHdrSize]; omega), if_neg hvlan,
        rteEtherHdrSize, dataAdjChain_inside (by omega) (by decide), hdrop]
      rfl
  | some tci =>
      have hlen : m.data.length = 18 + payload.length := by
        rw [hdata]
        simp [frameHdr, EtherAddr.bytes]
        omega
      have hread : be16 (rtePktmbufMtod (m :: rest)) 12 = rteEtherTypeVlan := by
        refine be16_netBytes ?_ ?_ (by decide) <;>
          simp [rtePktmbufMtod, hdata, frameHdr, EtherAddr.bytes, netBytes]
      have hdrop : m.data.drop 14 = netBytes 2 tci.toNat ++ netBytes 2 etherType ++ payload := by
        rw [hdata]
        simp [frameHdr, EtherAddr.bytes, netBytes]
      obtain ⟨fuel, rfl⟩ := Nat.exists_eq_add_of_lt hfuel
      have hetype' : be16 (rtePktmbufMtod ({ m with
          data := netBytes 2 tci.toNat ++ netBytes 2 etherType ++ payload
          pktLen := m.pktLen - BitVec.ofNat 32 14 } :: rest)) 2 = etherType := by
        refine be16_netBytes ?_ ?_ hetype <;> simp [rtePktmbufMtod, netBytes]
      have htci : be16 (rtePktmbufMtod ({ m with
          data := netBytes 2 tci.toNat ++ netBytes 2 etherType ++ payload
          pktLen := m.pktLen - BitVec.ofNat 32 14 } :: rest)) 0 = tci.toNat := by
        refine be16_netBytes ?_ ?_ tci.isLt <;> simp [rtePktmbufMtod, netBytes]
      simp only [ethReceivePkt, hread]
      rw [if_neg (by simp only [rtePktmbufDataLen, rteEtherHdrSize]; omega),
        if_pos trivial, rteEtherHdrSize, dataAdjChain_inside (by omega) (by decide), hdrop]
      simp only [popVlanTags, hetype', htci]
      rw [if_neg (by simp [rtePktmbufDataLen, rteVlanHdrSize]; omega), if_neg hvlan,
        rteVlanHdrSize, dataAdjChain_inside (by simp; omega) (by decide)]
      simp [frameHdr, EtherAddr.bytes, netBytes, BitVec.sub_sub]

end Receive

end EthernetFrames
end Warp17
