import Warp17.ArpFrames
import Warp17.RouteTable

/-!
# Ports on a network

Ports on one Ethernet announce their interfaces, ask for their gateways and answer each other.
A frame that was sent may come to any port, at any time, again, or never; other stations send
what they like.

**Results**
- `nextHops_announced`: after every run each next hop is a MAC that somebody announced for the
  address.
- `gateway_resolves`: a request and its answer make the two ports know each other.
-/

namespace Warp17
namespace ArpNetwork

open GuardedRuns SequenceComparison MbufChains SlotTables ArpTable RouteTable EthernetFrames
  ArpFrames
open L4Checksum (U16)

universe u

section Source

/-- `route_v4_intf_add()` with the packets of `route_intf_add_cb()`. -/
def intfAddPort (portMac : EtherAddr) (fates : Nat → TxFate) (p : RoutePort) (m : RouteIntfMsg)
    (index : Nat) : RoutePort × List Frame :=
  let (status, p) := routeV4IntfAdd (ethMacToUint64 portMac) p m index
  (p,
    if status = .ok then
      (arpSendGratArpRequest portMac (fates 0) m.rimIp m.rimVlanId).frames ++
        ((arpSendGratArpReply portMac (fates 1) m.rimIp m.rimVlanId).frames ++
          if m.rimGw ≠ 0 then
            (arpSendArpRequest portMac (fates 2) m.rimIp m.rimGw m.rimVlanId).frames
          else [])
    else [])

/-- `route_gw_add_cb()` with its packet. -/
def gwAddPort (portMac : EtherAddr) (fate : TxFate) (p : RoutePort) (gw : U32) :
    RoutePort × List Frame :=
  ((routeGwAddCb p gw).2,
    match routeV4FindLocal p.entries gw with
    | none => []
    | some localIntf => (arpSendArpRequest portMac fate localIntf.reNet gw 0).frames)

/-- `pkt_receive_pkt()` for a frame, as far as ARP is concerned. -/
def arrivePort (portMac : EtherAddr) (fate : TxFate) (p : RoutePort) (frame : Frame)
    (padding : List UInt8) : RoutePort × List Frame :=
  let out := arpReceiveFrame portMac fate p.arp [receivedMbuf frame padding]
  ({ p with arp := out.portEntries }, out.frames)

end Source

section Network

variable {P : Type u}

/-- The ports, and every frame that was ever sent. -/
structure Lan (P : Type u) where
  ports : P → RoutePort
  wire : List Frame
  /-- the addresses that a port was told to have -/
  intfs : P → List U32
  /-- what other stations have sent -/
  stations : List ArpHdr

/-- What happens on the network. -/
inductive LanEvent (P : Type u)
  | intfAdd (p : P) (m : RouteIntfMsg) (index : Nat) (fates : Nat → TxFate)
  | intfDel (p : P) (m : RouteIntfMsg)
  | gwAdd (p : P) (gw : U32) (fate : TxFate)
  | gwDel (p : P)
  | station (dst src : EtherAddr) (tag : Option U16) (arp : ArpHdr)
  | arrive (p : P) (n : Nat) (padding : List UInt8) (fate : TxFate)

/-- Before the first event. -/
def lanInit : Lan P where
  ports := fun _ => routePortInit
  wire := []
  intfs := fun _ => []
  stations := []

variable [DecidableEq P]

/-- A port acts, and sends frames. -/
def Lan.act (s : Lan P) (p : P) (out : RoutePort × List Frame) : Lan P :=
  { s with
    ports := Function.update s.ports p out.1
    wire := s.wire ++ out.2 }

/-- One event, with the MACs of the ports. -/
def lanStep (mac : P → EtherAddr) (s : Lan P) : LanEvent P → Lan P
  | .intfAdd p m index fates =>
      { s.act p (intfAddPort (mac p) fates (s.ports p) m index) with
        intfs := Function.update s.intfs p (m.rimIp :: s.intfs p) }
  | .intfDel p m => s.act p ((routeIntfDelCb (s.ports p) m).2, [])
  | .gwAdd p gw fate => s.act p (gwAddPort (mac p) fate (s.ports p) gw)
  | .gwDel p => s.act p ((routeGwDelCb (s.ports p)).2, [])
  | .station dst src tag arp =>
      { s with
        wire := s.wire ++ [arpFrame dst src tag arp]
        stations := arp :: s.stations }
  | .arrive p n padding fate =>
      match s.wire[n]? with
      | none => s
      | some frame => s.act p (arrivePort (mac p) fate (s.ports p) frame padding)

/-- A port has had the address and has this MAC, or another station said so. -/
def Announced (mac : P → EtherAddr) (s : Lan P) (ip : U32) (addr : U64) : Prop :=
  (∃ p, ip ∈ s.intfs p ∧ addr = ethMacToUint64 (mac p)) ∨
    ∃ arp ∈ s.stations, arp.arpSip = ip ∧ addr = ethMacToUint64 arp.arpSha

end Network

section Ports

/-- The tables of a port hold what was said, and as its own what it has. -/
structure PortOk (told : U32 → U64 → Prop) (own : List U32) (p : RoutePort) : Prop where
  entries : ∀ e ∈ p.arp, isEntryInUse e = true → told e.ipAddress (getMacFromEntry e)
  locals : ∀ e ∈ p.arp, isEntryInUse e = true → isFlagSet e flagLocal = true →
    e.ipAddress ∈ own
  routes : ∀ e ∈ p.entries, routeInUse e = true → e.reNet ∈ own

/-- A frame tells what was said. -/
def Truthful (told : U32 → U64 → Prop) (f : Frame) : Prop :=
  ∃ dst src tag arp, f = arpFrame dst src tag arp ∧
    told arp.arpSip (ethMacToUint64 arp.arpSha)

variable {told : U32 → U64 → Prop} {own : List U32} {p : RoutePort} {portMac : EtherAddr}
  {fate : TxFate} {ip : U32}

theorem PortOk.mono
    {told' : U32 → U64 → Prop} {own' : List U32}
    (h : PortOk told own p)
    (htells : ∀ ip addr, told ip addr → told' ip addr)
    (hown : ∀ ip ∈ own, ip ∈ own') :
    PortOk told' own' p :=
  ⟨fun e he hlive => htells _ _ (h.entries e he hlive),
    fun e he hlive hlocal => hown _ (h.locals e he hlive hlocal),
    fun e he hlive => hown _ (h.routes e he hlive)⟩

theorem Truthful.mono
    {told' : U32 → U64 → Prop} {f : Frame}
    (h : Truthful told f)
    (htells : ∀ ip addr, told ip addr → told' ip addr) :
    Truthful told' f := by
  obtain ⟨dst, src, tag, arp, rfl, hsaid⟩ := h
  exact ⟨dst, src, tag, arp, rfl, htells _ _ hsaid⟩

theorem truthful_reply
    {mac : EtherAddr} {dip : U32} {vlanTci : U16} {f : Frame}
    (hsaid : told ip (ethMacToUint64 portMac))
    (hf : f ∈ (arpSendArpReply portMac fate ip dip mac vlanTci).frames) :
    Truthful told f := by
  obtain ⟨dst, tag, arp, rfl, rfl, rfl⟩ := frame_arpSendArpReply hf
  exact ⟨dst, _, tag, arp, rfl, hsaid⟩

theorem truthful_request
    {remoteIp : U32} {vlanTci : U16} {f : Frame}
    (hsaid : told ip (ethMacToUint64 portMac))
    (hf : f ∈ (arpSendArpRequest portMac fate ip remoteIp vlanTci).frames) :
    Truthful told f := by
  obtain ⟨dst, tag, arp, rfl, rfl, rfl⟩ := frame_arpSendArpRequest hf
  exact ⟨dst, _, tag, arp, rfl, hsaid⟩

/-- A table that learns what was said is a table of what was said. -/
theorem PortOk.learn
    {mac : EtherAddr}
    (h : PortOk told own p)
    (vlan : U16) (isLocal : Bool)
    (hsaid : told ip (ethMacToUint64 mac))
    (hlocal : isLocal = true → ip ∈ own) :
    PortOk told own { p with
      arp := (arpUpdateEntry p.arp ip (ethMacToUint64 mac) isLocal (vlan.setWidth 32)).2 } := by
  refine ⟨fun x hx hlive => ?_, fun x hx hlive hflag => ?_, h.routes⟩
  · obtain hx | ⟨rfl, hmac, -⟩ := mem_arpUpdateEntry hx
    · exact h.entries x hx hlive
    · rwa [hmac, ethMacToUint64_and_mask]
  · obtain hx | ⟨rfl, -, hfrom⟩ := mem_arpUpdateEntry hx
    · exact h.locals x hx hlive hflag
    · obtain hnew | ⟨e, he, helive, heip, heflag⟩ := hfrom hflag
      · exact hlocal hnew
      · exact heip ▸ h.locals e he helive heflag

/-- The routes of a port stay its own when one is entered. -/
theorem mem_routeUpdateEntry
    {entries : List RouteEntry} {net mask nh flags : U32} {x : RouteEntry}
    (hx : x ∈ (routeUpdateEntry entries net mask nh flags).2) :
    x ∈ entries ∨ x.reNet = net := by
  obtain hx | ⟨e, rfl⟩ | ⟨e, -, rfl⟩ := mem_updateSlot hx
  · exact .inl hx
  · exact .inr rfl
  · exact .inr rfl

theorem portOk_intfAdd
    {m : RouteIntfMsg} {index : Nat} {fates : Nat → TxFate}
    (h : PortOk told own p)
    (hself : ∀ ip ∈ own, told ip (ethMacToUint64 portMac))
    (hown : m.rimIp ∈ own) :
    PortOk told own (intfAddPort portMac fates p m index).1 ∧
      ∀ f ∈ (intfAddPort portMac fates p m index).2, Truthful told f := by
  have hsaid := hself m.rimIp hown
  have harp := h.learn m.rimVlanId true hsaid fun _ => hown
  have hroutes : ∀ e ∈ (routeUpdateEntry p.entries m.rimIp m.rimMask 0 routeFlagLocal).2,
      routeInUse e = true → e.reNet ∈ own := by
    intro e he hlive
    obtain he | hnet := mem_routeUpdateEntry he
    · exact h.routes e he hlive
    · exact hnet ▸ hown
  obtain ⟨-, hstep⟩ | ⟨-, -, hstep⟩ | ⟨-, -, hstep⟩ :=
    routeV4IntfAdd_cases (ethMacToUint64 portMac) p m index
  · simp only [intfAddPort, hstep]
    exact ⟨⟨harp.entries, harp.locals, h.routes⟩, fun f hf => nomatch hf⟩
  · simp only [intfAddPort, hstep]
    exact ⟨⟨harp.entries, harp.locals, hroutes⟩, fun f hf => nomatch hf⟩
  · simp only [intfAddPort, hstep, if_true]
    refine ⟨⟨harp.entries, harp.locals, hroutes⟩, fun f hf => ?_⟩
    rcases List.mem_append.1 hf with hf | hf
    · exact truthful_request hsaid hf
    · rcases List.mem_append.1 hf with hf | hf
      · exact truthful_reply hsaid hf
      · split at hf
        · exact truthful_request hsaid hf
        · cases hf

theorem portOk_intfDel
    {m : RouteIntfMsg}
    (h : PortOk told own p) :
    PortOk told own (routeIntfDelCb p m).2 := by
  have hentries : ∀ e ∈ (arpDeleteLocal p.arp m.rimIp m.rimVlanId).2, isEntryInUse e = true →
      told e.ipAddress (getMacFromEntry e) := by
    intro e he hlive
    obtain ⟨e', he', hlive', hip, hmac, -⟩ := mem_arpDeleteLocal he hlive
    rw [hip, hmac]
    exact h.entries e' he' hlive'
  have hlocals : ∀ e ∈ (arpDeleteLocal p.arp m.rimIp m.rimVlanId).2, isEntryInUse e = true →
      isFlagSet e flagLocal = true → e.ipAddress ∈ own := by
    intro e he hlive hflag
    obtain ⟨e', he', hlive', hip, -, hflag'⟩ := mem_arpDeleteLocal he hlive
    rw [hip]
    exact h.locals e' he' hlive' (hflag' hflag)
  have hroutes : ∀ e ∈ (routeRemEntry p.entries m.rimIp m.rimMask).2, routeInUse e = true →
      e.reNet ∈ own := by
    intro e he hlive
    obtain he | ⟨e', rfl⟩ := mem_clearSlot he
    · exact h.routes e he hlive
    · rw [routeInUse_clear] at hlive
      cases hlive
  obtain ⟨-, hstep⟩ | ⟨-, hstep⟩ | ⟨-, hstep⟩ := routeIntfDelCb_cases p m
  · rw [hstep]
    exact ⟨hentries, hlocals, h.routes⟩
  · rw [hstep]
    exact ⟨hentries, hlocals, hroutes⟩
  · rw [hstep]
    exact ⟨hentries, hlocals, hroutes⟩

theorem portOk_gwAdd
    {gw : U32}
    (h : PortOk told own p)
    (hself : ∀ ip ∈ own, told ip (ethMacToUint64 portMac)) :
    PortOk told own (gwAddPort portMac fate p gw).1 ∧
      ∀ f ∈ (gwAddPort portMac fate p gw).2, Truthful told f := by
  refine ⟨⟨h.entries, h.locals, h.routes⟩, fun f hf => ?_⟩
  simp only [gwAddPort] at hf
  split at hf
  · cases hf
  · rename_i e he
    have hhit := List.find?_some he
    rw [Bool.and_eq_true, Bool.and_eq_true] at hhit
    exact truthful_request (hself _ (h.routes e (List.mem_of_find?_eq_some he) hhit.1.1)) hf

theorem portOk_arrive
    {frame : Frame}
    (padding : List UInt8)
    (h : PortOk told own p)
    (hself : ∀ ip ∈ own, told ip (ethMacToUint64 portMac))
    (hframe : Truthful told frame) :
    PortOk told own (arrivePort portMac fate p frame padding).1 ∧
      ∀ f ∈ (arrivePort portMac fate p frame padding).2, Truthful told f := by
  obtain ⟨dst, src, tag, arp, rfl, hsaid⟩ := hframe
  obtain ⟨hentries, hframes⟩ := @arpReceiveFrame_built
    (receivedMbuf (arpFrame dst src tag arp) padding) [] portMac fate p.arp dst src tag arp
    padding rfl
  simp only [arrivePort, hentries, hframes]
  split
  · have hlearn := h.learn (vlanTagId (tag.getD vlanNoTag)) false hsaid
      fun hlocal => nomatch hlocal
    obtain ⟨hsame, hnone⟩ | ⟨hlearned, ⟨e, he, hflag⟩, hreply⟩ | ⟨hlearned, hnone⟩ :=
      arpHandle_cases portMac fate p.arp arp (tag.getD vlanNoTag)
    · rw [hsame, hnone]
      exact ⟨h, fun f hf => nomatch hf⟩
    · have hhit := List.find?_some he
      rw [Bool.and_eq_true, Bool.and_eq_true, beq_iff_eq] at hhit
      have hmine := h.locals e (List.mem_of_find?_eq_some he) hhit.1.1 hflag
      rw [hhit.1.2] at hmine
      rw [hlearned, hreply]
      exact ⟨hlearn, fun f hf => truthful_reply (hself _ hmine) hf⟩
    · rw [hlearned, hnone]
      exact ⟨hlearn, fun f hf => nomatch hf⟩
  · exact ⟨h, fun f hf => nomatch hf⟩

end Ports

section Runs

variable {P : Type u} {mac : P → EtherAddr} {s s' : Lan P}

/-- Every port holds what was announced, and every frame tells what was announced. -/
structure LanOk (mac : P → EtherAddr) (s : Lan P) : Prop where
  ports : ∀ p, PortOk (Announced mac s) (s.intfs p) (s.ports p)
  wire : ∀ f ∈ s.wire, Truthful (Announced mac s) f

theorem announced_own
    (mac : P → EtherAddr) (s : Lan P) (p : P) :
    ∀ ip ∈ s.intfs p, Announced mac s ip (ethMacToUint64 (mac p)) :=
  fun _ hip => .inl ⟨p, hip, rfl⟩

theorem Announced.mono
    {ip : U32} {addr : U64}
    (h : Announced mac s ip addr)
    (hintfs : ∀ p, ∀ ip ∈ s.intfs p, ip ∈ s'.intfs p)
    (hstations : ∀ arp ∈ s.stations, arp ∈ s'.stations) :
    Announced mac s' ip addr := by
  obtain ⟨p, hip, haddr⟩ | ⟨arp, harp, hip, haddr⟩ := h
  · exact .inl ⟨p, hintfs p ip hip, haddr⟩
  · exact .inr ⟨arp, hstations arp harp, hip, haddr⟩

theorem LanOk.mono
    (h : LanOk mac s)
    (hports : s'.ports = s.ports)
    (hwire : s'.wire = s.wire)
    (hintfs : ∀ p, ∀ ip ∈ s.intfs p, ip ∈ s'.intfs p)
    (hstations : ∀ arp ∈ s.stations, arp ∈ s'.stations) :
    LanOk mac s' := by
  have htells : ∀ ip addr, Announced mac s ip addr → Announced mac s' ip addr :=
    fun ip addr hsaid => hsaid.mono hintfs hstations
  refine ⟨fun p => ?_, fun f hf => ?_⟩
  · rw [hports]
    exact (h.ports p).mono htells (hintfs p)
  · exact (h.wire f (hwire ▸ hf)).mono htells

theorem lanOk_init : LanOk mac (lanInit : Lan P) := by
  refine ⟨fun p => ⟨fun e he hlive => ?_, fun e he hlive => ?_, fun e he hlive => ?_⟩,
    fun f hf => nomatch hf⟩
  · rw [List.eq_of_mem_replicate he] at hlive
    exact absurd hlive (by decide)
  · rw [List.eq_of_mem_replicate he] at hlive
    exact absurd hlive (by decide)
  · rw [List.eq_of_mem_replicate he] at hlive
    exact absurd hlive (by decide)

variable [DecidableEq P]

@[simp] theorem act_ports_self
    (s : Lan P) (p : P) (out : RoutePort × List Frame) :
    (s.act p out).ports p = out.1 := by
  exact Function.update_self ..

theorem act_ports_ne
    {p q : P} {out : RoutePort × List Frame}
    (hq : q ≠ p) :
    (s.act p out).ports q = s.ports q := by
  exact Function.update_of_ne hq ..

/-- A port that acts on what was announced, and sends such frames. -/
theorem LanOk.act
    {p : P} {out : RoutePort × List Frame}
    (h : LanOk mac s)
    (hout : PortOk (Announced mac s) (s.intfs p) out.1 ∧
      ∀ f ∈ out.2, Truthful (Announced mac s) f) :
    LanOk mac (s.act p out) := by
  refine ⟨fun q => ?_, fun f hf => ?_⟩
  · by_cases hq : q = p
    · subst hq
      rw [act_ports_self]
      exact hout.1
    · rw [act_ports_ne hq]
      exact h.ports q
  · rcases List.mem_append.1 hf with hf | hf
    · exact h.wire f hf
    · exact hout.2 f hf

theorem lanOk_step
    (s : Lan P) (i : LanEvent P)
    (h : LanOk mac s) :
    LanOk mac (lanStep mac s i) := by
  cases i with
  | intfAdd p m index fates =>
      -- the port counts as told before it acts
      have htold : LanOk mac
          { s with intfs := Function.update s.intfs p (m.rimIp :: s.intfs p) } := by
        refine h.mono rfl rfl (fun q ip hip => ?_) fun _ harp => harp
        dsimp only
        by_cases hq : q = p
        · subst hq
          rw [Function.update_self]
          exact List.mem_cons_of_mem _ hip
        · rwa [Function.update_of_ne hq]
      refine htold.act (portOk_intfAdd (htold.ports p) (announced_own mac _ p) ?_)
      dsimp only
      rw [Function.update_self]
      exact List.mem_cons_self
  | intfDel p m =>
      exact h.act ⟨portOk_intfDel (h.ports p), fun f hf => nomatch hf⟩
  | gwAdd p gw fate =>
      exact h.act (portOk_gwAdd (h.ports p) (announced_own mac s p))
  | gwDel p =>
      have hp := h.ports p
      exact h.act ⟨⟨hp.entries, hp.locals, hp.routes⟩, fun f hf => nomatch hf⟩
  | station dst src tag arp =>
      have hsaid : LanOk mac { s with stations := arp :: s.stations } :=
        h.mono rfl rfl (fun _ _ hip => hip) fun _ hother => List.mem_cons_of_mem _ hother
      refine ⟨hsaid.ports, fun f hf => ?_⟩
      rcases List.mem_append.1 hf with hf | hf
      · exact hsaid.wire f hf
      · exact ⟨dst, src, tag, arp, List.mem_singleton.1 hf,
          .inr ⟨arp, List.mem_cons_self, rfl, rfl⟩⟩
  | arrive p n padding fate =>
      simp only [lanStep]
      split
      · exact h
      · rename_i frame hframe
        exact h.act (portOk_arrive padding (h.ports p) (announced_own mac s p)
          (h.wire frame (List.mem_of_getElem? hframe)))

/-- A MAC that is found was said for the address. -/
theorem PortOk.arpLookupMac
    {told : U32 → U64 → Prop} {own : List U32} {port : RoutePort}
    (h : PortOk told own port) (ip : U32) (vlan : U16) :
    arpLookupMac port.arp ip vlan = macNotFound ∨ told ip (arpLookupMac port.arp ip vlan) := by
  unfold ArpTable.arpLookupMac
  split
  · exact .inl rfl
  · rename_i e he
    have hhit := List.find?_some he
    rw [Bool.and_eq_true, Bool.and_eq_true, beq_iff_eq] at hhit
    refine .inr ?_
    rw [← hhit.1.2]
    exact h.entries e (List.mem_of_find?_eq_some he) hhit.1.1

/--
After every run, whatever frames were lost, repeated or delayed, a next hop is a MAC that was
announced for the destination or for a gateway that the port stores.
-/
theorem nextHops_announced
    (mac : P → EtherAddr) (is : List (LanEvent P)) (p : P) (dest : U32) (vlan : U16) :
    let s := run (lanStep mac) lanInit is
    routeV4NhLookup (s.ports p) dest vlan = macNotFound ∨
      ∃ ip, (ip = dest ∨ Stored (s.ports p) vlan ip) ∧
        Announced mac s ip (routeV4NhLookup (s.ports p) dest vlan) := by
  have hok := run_invariant_always (LanOk mac) lanOk_step is lanOk_init
  have hport := hok.ports p
  dsimp only
  obtain hnone | hdest | ⟨gw, hstored, -, hgw⟩ :=
    nhLookup_ok ((run (lanStep mac) lanInit is).ports p) dest vlan
  · exact .inl hnone
  · rw [hdest]
    exact (hport.arpLookupMac dest vlan).imp_right fun hsaid => ⟨dest, .inl rfl, hsaid⟩
  · rw [hgw]
    exact (hport.arpLookupMac gw vlan).imp_right fun hsaid => ⟨gw, .inr hstored, hsaid⟩

end Runs

section Resolution

variable {p : RoutePort} {src : EtherAddr} {ip dip : U32} {vlan : U16} {f : Frame}

instance (t : List ArpEntry) : Decidable (arpLayout.Distinct t) :=
  inferInstanceAs (Decidable (List.Nodup _))

/-- A table that can learn an address: it is a map, stays one, and has room. -/
structure Learns (t : List ArpEntry) (ip : U32) (mac : EtherAddr) (vlan : U16) : Prop where
  one : arpLayout.Distinct t
  meets : arpLayout.UpdateMeets (fun e => ip == e.ipAddress) t (ip, vlan)
  room : (arpUpdateEntry t ip (ethMacToUint64 mac) false (vlan.setWidth 32)).1 = true

theorem Learns.arpLookupMac
    {t : List ArpEntry} {mac : EtherAddr}
    (h : Learns t ip mac vlan) :
    arpLookupMac (arpUpdateEntry t ip (ethMacToUint64 mac) false (vlan.setWidth 32)).2 ip vlan =
      ethMacToUint64 mac := by
  have hmap := (arpUpdateEntry_isMap ip (ethMacToUint64 mac) false vlan
    ⟨h.one, rfl⟩).2 h.meets
  have hfound := congrFun hmap.lookup (ip, vlan)
  rw [if_pos h.room, Function.update_self, ← arpLookup_eq, ethMacToUint64_and_mask,
    Option.map_eq_some_iff] at hfound
  obtain ⟨e, he, hmac⟩ := hfound
  rw [ArpTable.arpLookupMac, he]
  exact hmac

theorem vlanTagId_of_lt
    (hvlan : vlan.toNat < 2 ^ 12) :
    vlanTagId vlan = vlan := by
  have hmask : vlanVidMask.toNat = 2 ^ 12 - 1 := rfl
  refine BitVec.eq_of_toNat_eq ?_
  rw [vlanTagId, BitVec.toNat_and, hmask, Nat.and_two_pow_sub_one_eq_mod, Nat.mod_eq_of_lt hvlan]

/-- The VLAN of a packet that is sent is the VLAN that is received. -/
theorem vlanTagId_arpTag
    (hvlan : vlan.toNat < 2 ^ 12) :
    vlanTagId ((arpTag vlan).getD vlanNoTag) = vlan := by
  unfold arpTag
  rw [vlanTagId_of_lt hvlan]
  split
  · rename_i hzero
    rw [hzero]
    rfl
  · exact vlanTagId_of_lt hvlan

/-- A request for a local address is answered, and its sender is learned. -/
theorem arrive_request
    {e : ArpEntry}
    (portMac : EtherAddr) (fate : TxFate) (padding : List UInt8)
    (hvlan : vlan.toNat < 2 ^ 12)
    (hfound : arpLookup p.arp dip vlan = some e)
    (hlocal : isFlagSet e flagLocal = true)
    (hf : (arpSendArpRequest src .sent ip dip vlan).frames = [f]) :
    arrivePort portMac fate p f padding =
      ({ p with arp := (arpUpdateEntry p.arp ip (ethMacToUint64 src) false
          (vlan.setWidth 32)).2 },
        (arpSendArpReply portMac fate dip ip src vlan).frames) := by
  obtain rfl := List.head_eq_of_cons_eq hf
  obtain ⟨hentries, hframes⟩ := @arpReceiveFrame_built
    (receivedMbuf _ padding) [] portMac fate p.arp arpBcastAddr src (arpTag vlan)
    (ipv4ArpHdr rteArpOpRequest src ip ⟨0, 0, 0, 0, 0, 0⟩ dip) padding rfl
  simp only [arrivePort, hentries, hframes]
  simp [ipv4ArpHdr, arpHandle, rteArpOpRequest, rteArpOpReply, arpProcessRequest,
    vlanTagId_arpTag hvlan, hfound, hlocal]

/-- The sender of a reply is learned. -/
theorem arrive_reply
    {dst : EtherAddr}
    (portMac : EtherAddr) (fate : TxFate) (padding : List UInt8)
    (hvlan : vlan.toNat < 2 ^ 12)
    (hf : (arpSendArpReply src .sent ip dip dst vlan).frames = [f]) :
    arrivePort portMac fate p f padding =
      ({ p with arp := (arpUpdateEntry p.arp ip (ethMacToUint64 src) false
          (vlan.setWidth 32)).2 }, []) := by
  obtain rfl := List.head_eq_of_cons_eq hf
  obtain ⟨hentries, hframes⟩ := @arpReceiveFrame_built
    (receivedMbuf _ padding) [] portMac fate p.arp dst src (arpTag vlan)
    (ipv4ArpHdr rteArpOpReply src ip dst dip) padding rfl
  simp only [arrivePort, hentries, hframes]
  simp [ipv4ArpHdr, arpHandle, rteArpOpRequest, rteArpOpReply, arpProcessReply,
    vlanTagId_arpTag hvlan]

theorem nhLookup_direct
    (h : arpLookupMac p.arp ip vlan ≠ macNotFound) :
    routeV4NhLookup p ip vlan = arpLookupMac p.arp ip vlan := by
  rw [routeV4NhLookup, if_pos h]

theorem ethMacToUint64_ne_macNotFound
    (mac : EtherAddr) :
    ethMacToUint64 mac ≠ macNotFound := by
  intro heq
  have hmask := ethMacToUint64_and_mask mac
  have hnone : macNotFound &&& macMask ≠ macNotFound := by decide
  rw [heq] at hmask
  exact hnone hmask

/-- The packets of an interface that is added. -/
theorem intfAddPort_sent
    {portMac : EtherAddr} {m : RouteIntfMsg} {index : Nat}
    (hgw : m.rimGw ≠ 0)
    (hadded : (routeV4IntfAdd (ethMacToUint64 portMac) p m index).1 = .ok) :
    ∃ a b c, (arpSendArpRequest portMac .sent m.rimIp m.rimGw m.rimVlanId).frames = [c] ∧
      intfAddPort portMac (fun _ => .sent) p m index =
        ((routeV4IntfAdd (ethMacToUint64 portMac) p m index).2, [a, b, c]) := by
  obtain ⟨a, ha⟩ : ∃ a, (arpSendGratArpRequest portMac .sent m.rimIp m.rimVlanId).frames = [a] :=
    ⟨_, rfl⟩
  obtain ⟨b, hb⟩ : ∃ b, (arpSendGratArpReply portMac .sent m.rimIp m.rimVlanId).frames = [b] :=
    ⟨_, rfl⟩
  obtain ⟨c, hc⟩ : ∃ c,
      (arpSendArpRequest portMac .sent m.rimIp m.rimGw m.rimVlanId).frames = [c] := ⟨_, rfl⟩
  refine ⟨a, b, c, hc, ?_⟩
  simp only [intfAddPort, hadded, if_true, if_pos hgw, ha, hb, hc]
  rfl

variable {P : Type u} [DecidableEq P] {mac : P → EtherAddr} {s : Lan P} {p q : P}
  {m : RouteIntfMsg} {index : Nat} {e : ArpEntry}

theorem lanStep_arrive
    (mac : P → EtherAddr)
    {n : Nat} {f : Frame} {padding : List UInt8} {fate : TxFate} {out : RoutePort × List Frame}
    (hf : s.wire[n]? = some f)
    (hout : arrivePort (mac p) fate (s.ports p) f padding = out) :
    lanStep mac s (.arrive p n padding fate) = s.act p out := by
  simp only [lanStep, hf, hout]

/--
A port gets an interface with a gateway, and its request and the answer arrive.  Then both ports
send to each other, and the interface reaches through its gateway whom it does not know.
-/
theorem gateway_resolves
    (fate : TxFate) (padding padding' : List UInt8)
    (hpq : p ≠ q)
    (hvlan : m.rimVlanId.toNat < 2 ^ 12)
    (hgw : m.rimGw ≠ 0)
    (hadded : (routeV4IntfAdd (ethMacToUint64 (mac p)) (s.ports p) m index).1 = .ok)
    (hfound : arpLookup (s.ports q).arp m.rimGw m.rimVlanId = some e)
    (hlocal : isFlagSet e flagLocal = true)
    (hq : Learns (s.ports q).arp m.rimIp (mac p) m.rimVlanId)
    (hp : Learns (routeV4IntfAdd (ethMacToUint64 (mac p)) (s.ports p) m index).2.arp m.rimGw
      (mac q) m.rimVlanId) :
    let s' := run (lanStep mac) s
      [.intfAdd p m index fun _ => .sent,
        .arrive q (s.wire.length + 2) padding .sent,
        .arrive p (s.wire.length + 3) padding' fate]
    routeV4NhLookup (s'.ports q) m.rimIp m.rimVlanId = ethMacToUint64 (mac p) ∧
      routeV4NhLookup (s'.ports p) m.rimGw m.rimVlanId = ethMacToUint64 (mac q) ∧
      ∀ dest, arpLookupMac (s'.ports p).arp dest m.rimVlanId = macNotFound →
        m.rimVlanId ≠ 0 →
        routeV4FindGwPortVlan (s'.ports p).gwPerVlan m.rimVlanId = some m.rimGw →
        routeV4NhLookup (s'.ports p) dest m.rimVlanId = ethMacToUint64 (mac q) := by
  have hpq' := hpq.symm
  simp only [run_cons, run_nil]
  obtain ⟨a, b, c, hc, hsent⟩ := intfAddPort_sent hgw hadded
  -- the interface is added
  generalize hs1 : lanStep mac s (.intfAdd p m index fun _ => .sent) = s1
  have hp1 : s1.ports p = (routeV4IntfAdd (ethMacToUint64 (mac p)) (s.ports p) m index).2 := by
    rw [← hs1, lanStep, hsent]
    exact act_ports_self ..
  have hq1 : s1.ports q = s.ports q := by
    rw [← hs1, lanStep]
    exact act_ports_ne hpq'
  have hw1 : s1.wire = s.wire ++ [a, b, c] := by
    rw [← hs1, lanStep, hsent, Lan.act]
  -- the request arrives
  obtain ⟨d, hd⟩ : ∃ d, (arpSendArpReply (mac q) .sent m.rimGw m.rimIp (mac p)
      m.rimVlanId).frames = [d] := ⟨_, rfl⟩
  have hs2 := lanStep_arrive mac (s := s1) (p := q) (n := s.wire.length + 2) (f := c)
    (by rw [hw1]; simp)
    (arrive_request (mac q) .sent padding hvlan (hq1 ▸ hfound) hlocal hc)
  rw [hd, hq1] at hs2
  generalize lanStep mac s1 (.arrive q (s.wire.length + 2) padding .sent) = s2 at hs2 ⊢
  -- the answer arrives
  have hs3 := lanStep_arrive mac (s := s2) (p := p) (n := s.wire.length + 3) (f := d)
    (by rw [hs2, Lan.act, hw1]; simp)
    (arrive_reply (mac p) fate padding' hvlan hd)
  have hp2 : s2.ports p = (routeV4IntfAdd (ethMacToUint64 (mac p)) (s.ports p) m index).2 := by
    rw [hs2, act_ports_ne hpq, hp1]
  have hq2 : s2.ports q = { s.ports q with
      arp := (arpUpdateEntry (s.ports q).arp m.rimIp (ethMacToUint64 (mac p)) false
        (m.rimVlanId.setWidth 32)).2 } := by
    rw [hs2, act_ports_self]
  have hknown := hp.arpLookupMac
  have hknown' := hq.arpLookupMac
  rw [hs3, act_ports_self, act_ports_ne hpq', hq2, hp2]
  refine ⟨?_, ?_, fun dest hdest hvlan0 hfind => ?_⟩
  · rw [nhLookup_direct, hknown']
    rw [hknown']
    exact ethMacToUint64_ne_macNotFound _
  · rw [nhLookup_direct, hknown]
    rw [hknown]
    exact ethMacToUint64_ne_macNotFound _
  · rw [routeV4NhLookup, if_neg (not_not.2 hdest), if_pos hvlan0, hfind]
    dsimp only
    rw [hknown, if_pos (ethMacToUint64_ne_macNotFound _)]

/-- A gateway on VLAN 5 that is a port of the program too. -/
theorem gateway_resolves_ports :
    let mac : Bool → EtherAddr := fun p => ⟨2, 0, 0, 0, 0, if p then 0xB else 0xA⟩
    let s := lanStep mac lanInit
      (.intfAdd true ⟨0x0A000001, 0xFFFFFF00, 5, 0⟩ 0 fun _ => .noMbuf)
    let s' := run (lanStep mac) s
      [.intfAdd false ⟨0x0A000002, 0xFFFFFF00, 5, 0x0A000001⟩ 0 fun _ => .sent,
        .arrive true (s.wire.length + 2) [] .sent,
        .arrive false (s.wire.length + 3) [] .sent]
    routeV4NhLookup (s'.ports true) 0x0A000002 5 = ethMacToUint64 (mac false) ∧
      routeV4NhLookup (s'.ports false) 0x0A000001 5 = ethMacToUint64 (mac true) ∧
      ∀ dest, arpLookupMac (s'.ports false).arp dest 5 = macNotFound → (5 : U16) ≠ 0 →
        routeV4FindGwPortVlan (s'.ports false).gwPerVlan 5 = some 0x0A000001 →
        routeV4NhLookup (s'.ports false) dest 5 = ethMacToUint64 (mac true) :=
  gateway_resolves (p := false) (q := true) .sent [] [] (by decide) (by decide) (by decide)
    (by decide) rfl (by decide)
    ⟨by decide, by decide, by decide⟩ ⟨by decide, by decide, by decide⟩

end Resolution

end ArpNetwork
end Warp17
