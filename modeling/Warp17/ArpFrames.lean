import Warp17.EthernetFrames

/-!
# ARP packets

Requests and replies are built in one mbuf, with a VLAN tag if the VLAN has a number.  A request
for a local address is answered, and its sender is entered; a reply enters its sender.

**Results**
- `rteArpHdr_bytes`: a header that was written is read back.
- `arpReceiveFrame_built`: what becomes of a frame that some station built.
- `mem_arpUpdateEntry`, `mem_arpDeleteLocal`: where the entries of a table come from.
-/

namespace Warp17
namespace ArpFrames

open SequenceComparison MbufChains Ipv4Options ReceiveLengths SlotTables ArpTable WordBytes
  EthernetFrames
open L4Checksum (U16)

/-- The bytes of a frame. -/
abbrev Frame := List UInt8

section Source

def rteArpHrdEther : U16 := 1

def rteArpOpRequest : U16 := 1

def rteArpOpReply : U16 := 2

/-- `sizeof(struct rte_arp_hdr)` -/
def rteArpHdrSize : Nat := 28

/-- `struct rte_arp_hdr`, its numbers in host order. -/
structure ArpHdr where
  arpHardware : U16
  arpProtocol : U16
  arpHlen : UInt8
  arpPlen : UInt8
  arpOpcode : U16
  arpSha : EtherAddr
  arpSip : U32
  arpTha : EtherAddr
  arpTip : U32
deriving DecidableEq

/-- The header as it lies in a packet. -/
def ArpHdr.bytes (arp : ArpHdr) : List UInt8 :=
  netBytes 2 arp.arpHardware.toNat ++ (netBytes 2 arp.arpProtocol.toNat ++
    (arp.arpHlen :: arp.arpPlen :: (netBytes 2 arp.arpOpcode.toNat ++ (arp.arpSha.bytes ++
      (netBytes 4 arp.arpSip.toNat ++ (arp.arpTha.bytes ++ netBytes 4 arp.arpTip.toNat))))))

/-- A hardware address in a packet. -/
def etherAddrAt (mem : Nat → UInt8) (offset : Nat) : EtherAddr where
  a0 := mem offset
  a1 := mem (offset + 1)
  a2 := mem (offset + 2)
  a3 := mem (offset + 3)
  a4 := mem (offset + 4)
  a5 := mem (offset + 5)

/-- `rte_pktmbuf_mtod(mbuf, struct rte_arp_hdr *)` -/
def rteArpHdr (mem : Nat → UInt8) : ArpHdr where
  arpHardware := BitVec.ofNat 16 (be16 mem 0)
  arpProtocol := BitVec.ofNat 16 (be16 mem 2)
  arpHlen := mem 4
  arpPlen := mem 5
  arpOpcode := BitVec.ofNat 16 (be16 mem 6)
  arpSha := etherAddrAt mem 8
  arpSip := be32 mem 14
  arpTha := etherAddrAt mem 18
  arpTip := be32 mem 24

/-- An ARP packet in its Ethernet frame. -/
def arpFrame (dst src : EtherAddr) (tag : Option U16) (arp : ArpHdr) : Frame :=
  frameHdr dst src tag rteEtherTypeArp ++ arp.bytes

/-- The tag of an ARP packet that is sent. -/
def arpTag (vlanTci : U16) : Option U16 :=
  if vlanTagId vlanTci = 0 then none else some vlanTci

/-- The counters of `tpg_arp_statistics_t`. -/
inductive ArpCounter
  | asReceivedReq
  | asReceivedRep
  | asReceivedOther
  | asSentReq
  | asSentReqFailed
  | asSentRep
  | asSentRepFailed
  | asReqNotMine
  | asToSmallFragment
  | asInvalidHwSpace
  | asInvalidHwLen
  | asInvalidProtoSpace
  | asInvalidProtoLen
deriving DecidableEq, Repr

/-- What `pkt_mbuf_alloc()` and `pkt_send_with_hash()` do with a packet. -/
inductive TxFate
  | noMbuf
  | notSent
  | sent
deriving DecidableEq, Repr

/-- The result of a send function, its counters, and the frame that goes out. -/
structure ArpSend where
  rc : Bool
  counters : List ArpCounter
  frames : List Frame

/-- The end of a send function. -/
def arpSend (fate : TxFate) (frame : Frame) (sent failed : ArpCounter) : ArpSend :=
  match fate with
  | .noMbuf => ⟨false, [], []⟩
  | .notSent => ⟨false, [failed], []⟩
  | .sent => ⟨true, [sent], [frame]⟩

/-- The header of every packet that is sent. -/
def ipv4ArpHdr (opcode : U16) (sha : EtherAddr) (sip : U32) (tha : EtherAddr) (tip : U32) :
    ArpHdr where
  arpHardware := rteArpHrdEther
  arpProtocol := BitVec.ofNat 16 rteEtherTypeIpv4
  arpHlen := 6
  arpPlen := 4
  arpOpcode := opcode
  arpSha := sha
  arpSip := sip
  arpTha := tha
  arpTip := tip

def arpBcastAddr : EtherAddr := ⟨0xff, 0xff, 0xff, 0xff, 0xff, 0xff⟩

/-- `arp_send_arp_reply()`, with the MAC of the port. -/
def arpSendArpReply (portMac : EtherAddr) (fate : TxFate) (sip dip : U32) (mac : EtherAddr)
    (vlanTci : U16) : ArpSend :=
  arpSend fate
    (arpFrame mac portMac (arpTag vlanTci)
      (ipv4ArpHdr rteArpOpReply portMac sip mac dip))
    .asSentRep .asSentRepFailed

/-- `arp_send_arp_request()`, with the MAC of the port. -/
def arpSendArpRequest (portMac : EtherAddr) (fate : TxFate) (localIp remoteIp : U32)
    (vlanTci : U16) : ArpSend :=
  arpSend fate
    (arpFrame arpBcastAddr portMac (arpTag vlanTci)
      (ipv4ArpHdr rteArpOpRequest portMac localIp ⟨0, 0, 0, 0, 0, 0⟩ remoteIp))
    .asSentReq .asSentReqFailed

/-- `arp_send_grat_arp_request()` -/
def arpSendGratArpRequest (portMac : EtherAddr) (fate : TxFate) (ip : U32) (vlanTci : U16) :
    ArpSend :=
  arpSendArpRequest portMac fate ip ip vlanTci

/-- `arp_send_grat_arp_reply()` -/
def arpSendGratArpReply (portMac : EtherAddr) (fate : TxFate) (ip : U32) (vlanTci : U16) :
    ArpSend :=
  arpSendArpReply portMac fate ip ip arpBcastAddr vlanTci

/-- The counters in order, the entries of the port, and the frames that go out. -/
structure ArpOutcome where
  counters : List ArpCounter
  portEntries : List ArpEntry
  frames : List Frame

/-- `arp_process_request()` -/
def arpProcessRequest (portMac : EtherAddr) (fate : TxFate) (portEntries : List ArpEntry)
    (arpHdr : ArpHdr) (vlanId : U16) : ArpOutcome :=
  match arpLookup portEntries arpHdr.arpTip vlanId with
  | none => ⟨[.asReqNotMine], portEntries, []⟩
  | some localArp =>
      if !isFlagSet localArp flagLocal then
        ⟨[.asReqNotMine], portEntries, []⟩
      else
        let out := arpSendArpReply portMac fate arpHdr.arpTip arpHdr.arpSip arpHdr.arpSha vlanId
        ⟨out.counters,
          (arpUpdateEntry portEntries arpHdr.arpSip (ethMacToUint64 arpHdr.arpSha) false
            (vlanId.setWidth 32)).2,
          out.frames⟩

/-- `arp_process_reply()` -/
def arpProcessReply (portEntries : List ArpEntry) (arpHdr : ArpHdr) (vlanId : U16) :
    List ArpEntry :=
  (arpUpdateEntry portEntries arpHdr.arpSip (ethMacToUint64 arpHdr.arpSha) false
    (vlanId.setWidth 32)).2

/-- The checks of `arp_receive_pkt()` behind the opcode, then the handlers. -/
def arpHandle (portMac : EtherAddr) (fate : TxFate) (portEntries : List ArpEntry)
    (arpHdr : ArpHdr) (vlanTci : U16) : ArpOutcome :=
  if arpHdr.arpHardware ≠ rteArpHrdEther then
    ⟨[.asInvalidHwSpace], portEntries, []⟩
  else if arpHdr.arpProtocol ≠ BitVec.ofNat 16 rteEtherTypeIpv4 then
    ⟨[.asInvalidProtoSpace], portEntries, []⟩
  else if arpHdr.arpHlen ≠ 6 then
    ⟨[.asInvalidHwLen], portEntries, []⟩
  else if arpHdr.arpPlen ≠ 4 then
    ⟨[.asInvalidProtoLen], portEntries, []⟩
  else if arpHdr.arpOpcode = rteArpOpRequest then
    arpProcessRequest portMac fate portEntries arpHdr (vlanTagId vlanTci)
  else
    ⟨[], arpProcessReply portEntries arpHdr (vlanTagId vlanTci), []⟩

/-- `arp_receive_pkt()` on the default core of the port. -/
def arpReceivePkt (portMac : EtherAddr) (fate : TxFate) (portEntries : List ArpEntry)
    (mbuf : Chain) (vlanTci : U16) : ArpOutcome :=
  if rtePktmbufDataLen mbuf < rteArpHdrSize then
    ⟨[.asToSmallFragment], portEntries, []⟩
  else
    let arpHdr := rteArpHdr (rtePktmbufMtod mbuf)
    if arpHdr.arpOpcode = rteArpOpRequest then
      let out := arpHandle portMac fate portEntries arpHdr vlanTci
      { out with counters := .asReceivedReq :: out.counters }
    else if arpHdr.arpOpcode = rteArpOpReply then
      let out := arpHandle portMac fate portEntries arpHdr vlanTci
      { out with counters := .asReceivedRep :: out.counters }
    else
      ⟨[.asReceivedOther], portEntries, []⟩

/-- A frame that comes in, as far as ARP is concerned. -/
def arpReceiveFrame (portMac : EtherAddr) (fate : TxFate) (portEntries : List ArpEntry)
    (mbuf : Chain) : ArpOutcome :=
  match ethReceivePkt ((chainBytes mbuf).length + 1) mbuf with
  | some ⟨_, some pkt⟩ =>
      if pkt.etype = rteEtherTypeArp then
        arpReceivePkt portMac fate portEntries pkt.mbuf pkt.vlanTci
      else
        ⟨[], portEntries, []⟩
  | _ => ⟨[], portEntries, []⟩

end Source

section Headers

variable {mem : Nat → UInt8} {offset : Nat}

theorem etherAddrAt_of_holds
    {mac : EtherAddr}
    (h : Holds mem offset mac.bytes) :
    etherAddrAt mem offset = mac := by
  obtain ⟨h0, h1, h2, h3, h4, h5, -⟩ := h
  rw [etherAddrAt, h0, h1, h2, h3, h4, h5]

@[simp] theorem length_arpHdr_bytes
    (arp : ArpHdr) :
    arp.bytes.length = rteArpHdrSize := by
  simp [ArpHdr.bytes, EtherAddr.bytes, rteArpHdrSize]

/-- A header that was written is read back. -/
theorem rteArpHdr_bytes
    {arp : ArpHdr}
    (h : Holds mem 0 arp.bytes) :
    rteArpHdr mem = arp := by
  simp only [ArpHdr.bytes, holds_append, holds_cons, length_netBytes, EtherAddr.bytes,
    List.length_cons, List.length_nil] at h
  obtain ⟨hhrd, hpro, hhlen, hplen, hop, hsha, hsip, htha, htip⟩ := h
  rw [rteArpHdr, be16_of_holds hhrd, be16_of_holds hpro, be16_of_holds hop, be32_of_holds hsip,
    be32_of_holds htip, etherAddrAt_of_holds hsha, etherAddrAt_of_holds htha, hhlen, hplen]

/-- What becomes of a frame that some station built. -/
theorem arpReceiveFrame_built
    {m : Mbuf} {rest : Chain}
    (portMac : EtherAddr) (fate : TxFate) (portEntries : List ArpEntry) (dst src : EtherAddr)
    (tag : Option U16) (arp : ArpHdr) (padding : List UInt8)
    (hdata : m.data = arpFrame dst src tag arp ++ padding) :
    (arpReceiveFrame portMac fate portEntries (m :: rest)).portEntries =
        (if arp.arpOpcode = rteArpOpRequest ∨ arp.arpOpcode = rteArpOpReply then
          (arpHandle portMac fate portEntries arp (tag.getD vlanNoTag)).portEntries
        else portEntries) ∧
      (arpReceiveFrame portMac fate portEntries (m :: rest)).frames =
        (if arp.arpOpcode = rteArpOpRequest ∨ arp.arpOpcode = rteArpOpReply then
          (arpHandle portMac fate portEntries arp (tag.getD vlanNoTag)).frames
        else []) := by
  have hlen : 0 < (arp.bytes ++ padding).length := by
    rw [List.length_append, length_arpHdr_bytes, rteArpHdrSize]
    omega
  have hread : rteArpHdr (fun i => (arp.bytes ++ padding).getD i 0) = arp := by
    refine rteArpHdr_bytes ?_
    simpa using holds_getD [] arp.bytes padding
  have hframe : m.data = frameHdr dst src tag rteEtherTypeArp ++ (arp.bytes ++ padding) := by
    rw [hdata, arpFrame, List.append_assoc]
  rw [arpReceiveFrame, ethReceivePkt_built dst src tag _ (by decide) (by decide)
    (List.length_pos_iff.1 hlen) (Nat.succ_pos _) hframe]
  dsimp only
  have hroom : ¬ (arp.bytes ++ padding).length < rteArpHdrSize := by
    rw [List.length_append, length_arpHdr_bytes]
    omega
  have hopcodes : rteArpOpReply ≠ rteArpOpRequest := by decide
  rw [if_pos rfl]
  simp only [arpReceivePkt, rtePktmbufDataLen]
  rw [if_neg hroom]
  have hmtod : rteArpHdr (rtePktmbufMtod ({ m with
      data := arp.bytes ++ padding
      pktLen := m.pktLen -
        BitVec.ofNat 32 (frameHdr dst src tag rteEtherTypeArp).length } :: rest)) = arp := hread
  rw [hmtod]
  by_cases hreq : arp.arpOpcode = rteArpOpRequest
  · simp [hreq]
  · by_cases hrep : arp.arpOpcode = rteArpOpReply
    · simp [hrep, hopcodes]
    · simp [hreq, hrep]

/-- What a handler does: nothing, an answer and a new entry, or a new entry. -/
theorem arpHandle_cases
    (portMac : EtherAddr) (fate : TxFate) (portEntries : List ArpEntry) (arp : ArpHdr)
    (vlanTci : U16) :
    let out := arpHandle portMac fate portEntries arp vlanTci
    let learned := (arpUpdateEntry portEntries arp.arpSip (ethMacToUint64 arp.arpSha) false
      ((vlanTagId vlanTci).setWidth 32)).2
    (out.portEntries = portEntries ∧ out.frames = []) ∨
      (out.portEntries = learned ∧
        (∃ e, arpLookup portEntries arp.arpTip (vlanTagId vlanTci) = some e ∧
          isFlagSet e flagLocal = true) ∧
        out.frames = (arpSendArpReply portMac fate arp.arpTip arp.arpSip arp.arpSha
          (vlanTagId vlanTci)).frames) ∨
      (out.portEntries = learned ∧ out.frames = []) := by
  dsimp only
  unfold arpHandle
  split
  · exact .inl ⟨rfl, rfl⟩
  · split
    · exact .inl ⟨rfl, rfl⟩
    · split
      · exact .inl ⟨rfl, rfl⟩
      · split
        · exact .inl ⟨rfl, rfl⟩
        · split
          · unfold arpProcessRequest
            split
            · exact .inl ⟨rfl, rfl⟩
            · rename_i localArp hfound
              by_cases hlocal : isFlagSet localArp flagLocal = true
              · rw [hlocal]
                exact .inr (.inl ⟨rfl, ⟨localArp, hfound, hlocal⟩, rfl⟩)
              · rw [Bool.not_eq_true] at hlocal
                rw [hlocal]
                exact .inl ⟨rfl, rfl⟩
          · exact .inr (.inr ⟨rfl, rfl⟩)

/-- A packet that is sent names the MAC of its port for the address. -/
theorem frame_arpSendArpReply
    {portMac mac : EtherAddr} {fate : TxFate} {sip dip : U32} {vlanTci : U16} {f : Frame}
    (hf : f ∈ (arpSendArpReply portMac fate sip dip mac vlanTci).frames) :
    ∃ dst tag arp, f = arpFrame dst portMac tag arp ∧ arp.arpSip = sip ∧
      arp.arpSha = portMac := by
  cases fate with
  | noMbuf => cases hf
  | notSent => cases hf
  | sent => exact ⟨_, _, _, List.mem_singleton.1 hf, rfl, rfl⟩

theorem frame_arpSendArpRequest
    {portMac : EtherAddr} {fate : TxFate} {localIp remoteIp : U32} {vlanTci : U16} {f : Frame}
    (hf : f ∈ (arpSendArpRequest portMac fate localIp remoteIp vlanTci).frames) :
    ∃ dst tag arp, f = arpFrame dst portMac tag arp ∧ arp.arpSip = localIp ∧
      arp.arpSha = portMac := by
  cases fate with
  | noMbuf => cases hf
  | notSent => cases hf
  | sent => exact ⟨_, _, _, List.mem_singleton.1 hf, rfl, rfl⟩

end Headers

section Entries

variable {portEntries : List ArpEntry} {e x : ArpEntry} {ip : U32} {mac : U64} {isLocal : Bool}
  {vlan : U16}

theorem isFlagSet_local_new
    (vlanId : U32) :
    isFlagSet (newEntry ip mac isLocal vlanId e) flagLocal = isLocal := by
  have hmac : macMask &&& flagsMask &&& flagLocal = 0#64 := by decide
  have huse : flagInUse &&& flagsMask &&& flagLocal = 0#64 := by decide
  have hcell : (if isLocal then flagLocal else 0) &&& flagsMask &&& flagsMask &&& flagLocal =
      if isLocal then flagLocal else 0 := by
    cases isLocal <;> decide
  simp only [isFlagSet, newEntry, setEntryInUse, setMacInEntry]
  rw [BitVec.and_or_distrib_right, BitVec.and_or_distrib_right, huse, BitVec.or_zero,
    BitVec.and_or_distrib_right, BitVec.and_or_distrib_right, BitVec.and_assoc mac,
    BitVec.and_assoc mac, hmac, BitVec.and_zero, BitVec.zero_or, hcell]
  cases isLocal <;> decide

theorem isFlagSet_local_changed
    (vlanId : U32) :
    isFlagSet (changedEntry mac vlanId e) flagLocal = isFlagSet e flagLocal := by
  have hmac : macMask &&& flagsMask &&& flagLocal = 0#64 := by decide
  have hsame : flagsMask &&& flagsMask &&& flagLocal = flagsMask &&& flagLocal := by decide
  simp only [isFlagSet, changedEntry, setMacInEntry]
  rw [BitVec.and_or_distrib_right, BitVec.and_or_distrib_right, BitVec.and_assoc mac,
    BitVec.and_assoc mac, hmac, BitVec.and_assoc e.macFlags, BitVec.and_assoc e.macFlags, hsame,
    BitVec.and_zero, BitVec.zero_or, BitVec.and_assoc]

/-- An entry that is not as before is for the address, and was local if it is. -/
theorem mem_arpUpdateEntry
    (hx : x ∈ (arpUpdateEntry portEntries ip mac isLocal (vlan.setWidth 32)).2) :
    x ∈ portEntries ∨
      (x.ipAddress = ip ∧ getMacFromEntry x = mac &&& macMask ∧
        (isFlagSet x flagLocal = true → isLocal = true ∨
          ∃ e ∈ portEntries, isEntryInUse e = true ∧ e.ipAddress = ip ∧
            isFlagSet e flagLocal = true)) := by
  obtain hx | ⟨e, rfl⟩ | ⟨e, he, hlive, hhit, rfl⟩ := mem_updateSlot_live hx
  · exact .inl hx
  · refine .inr ⟨rfl, getMacFromEntry_new, fun hlocal => .inl ?_⟩
    rwa [isFlagSet_local_new] at hlocal
  · have hip := (beq_iff_eq.1 hhit).symm
    refine .inr ⟨hip, getMacFromEntry_changed e mac _, fun hlocal => .inr ⟨e, he, hlive, hip, ?_⟩⟩
    rwa [isFlagSet_local_changed] at hlocal

/-- The entries that a delete leaves in use were there, at most without their flag. -/
theorem mem_arpDeleteLocal
    (hx : x ∈ (arpDeleteLocal portEntries ip vlan).2)
    (hlive : isEntryInUse x = true) :
    ∃ e ∈ portEntries, isEntryInUse e = true ∧ x.ipAddress = e.ipAddress ∧
      getMacFromEntry x = getMacFromEntry e ∧
      (isFlagSet x flagLocal = true → isFlagSet e flagLocal = true) := by
  have hmask : ~~~flagLocal &&& macMask = macMask := by decide
  have hgone : ~~~flagLocal &&& flagsMask &&& flagLocal = 0#64 := by decide
  have hsame : ∀ y ∈ portEntries, isEntryInUse y = true →
      ∃ e ∈ portEntries, isEntryInUse e = true ∧ y.ipAddress = e.ipAddress ∧
        getMacFromEntry y = getMacFromEntry e ∧
        (isFlagSet y flagLocal = true → isFlagSet e flagLocal = true) :=
    fun y hy hinuse => ⟨y, hy, hinuse, rfl, rfl, id⟩
  unfold arpDeleteLocal at hx
  split at hx
  · exact hsame x hx hlive
  · split at hx
    · exact hsame x hx hlive
    · split at hx
      · exact hsame x hx hlive
      · obtain hx | ⟨e, rfl⟩ := mem_clearSlot hx
        · obtain hx | ⟨e, he, rfl⟩ := mem_modify hx
          · exact hsame x hx hlive
          · refine ⟨e, List.mem_of_getElem? he, isEntryInUse_clearLocal ▸ hlive, rfl, ?_, ?_⟩
            · rw [getMacFromEntry, getMacFromEntry, BitVec.and_assoc, hmask]
            · intro hlocal
              rw [isFlagSet, BitVec.and_assoc e.macFlags, BitVec.and_assoc e.macFlags, hgone,
                BitVec.and_zero] at hlocal
              cases hlocal
        · rw [isEntryInUse_clear] at hlive
          cases hlive

end Entries

end ArpFrames
end Warp17
