import Warp17.ArpTable

/-!
# The route table and the next hops

A port keeps a table of routes, one gateway for each interface by VLAN, and a default gateway.
Interfaces and the default gateway come and go; a lookup asks the ARP table for the
destination, for the gateway of the VLAN, and for the default gateway.  Deleting an interface
leaves its gateway in the table by VLAN, and deleting the default gateway only clears a flag
that the lookup does not read.

**Results**
- `routeUpdateEntry_isMap`, `routeRemEntry_isMap`: when a call keeps the routes a map.
- `nhLookup_ok`: a lookup answers with a stored gateway whose MAC is known.
- `routes_ok`: after any events that meet their conditions the routes are a map, and every next
  hop is current.
- `deletedGateway_used`: a deleted default gateway still answers.
-/

namespace Warp17
namespace RouteTable

open GuardedRuns SequenceComparison SlotTables ArpTable

section Source

/-- `ROUTE_FLAG_IN_USE`. -/
def routeFlagInUse : U32 := 1

/-- `ROUTE_FLAG_LOCAL`. -/
def routeFlagLocal : U32 := 2

/-- `TPG_ROUTE_PORT_TABLE_SIZE`. -/
def tpgRoutePortTableSize : Nat := tpgArpPortTableSize / 2

/-- `TPG_GW_PORT_VLAN_SIZE`. -/
def tpgGwPortVlanSize : Nat := 10

/-- `route_entry_t`. -/
structure RouteEntry where
  reNet : U32
  reMask : U32
  reNh : U32
  reFlags : U32
deriving DecidableEq, Repr

/-- `gw_per_vlan_t`. -/
structure GwPerVlan where
  vlanId : BitVec 16
  gw : U32
deriving DecidableEq, Repr

/-- What a port knows about its routes, with its ARP table. -/
structure RoutePort where
  entries : List RouteEntry
  defaultGw : RouteEntry
  gwPerVlan : List GwPerVlan
  arp : List ArpEntry

/-- `ROUTE_IS_FLAG_SET`. -/
def routeIsFlagSet (re : RouteEntry) (flag : U32) : Bool :=
  re.reFlags &&& flag != 0

/-- The entries in use. -/
def routeInUse (re : RouteEntry) : Bool :=
  routeIsFlagSet re routeFlagInUse

/-- `ROUTE_V4`. -/
def routeV4 (ip msk nhop flags : U32) : RouteEntry :=
  { reNet := ip, reMask := msk, reNh := nhop, reFlags := flags }

/-- `route_v4_find_gw_port_vlan()`. -/
def routeV4FindGwPortVlan (portEntries : List GwPerVlan) (vlanId : BitVec 16) : Option U32 :=
  (portEntries.find? fun x => x.vlanId == vlanId).map GwPerVlan.gw

/-- `route_update_entry()`: whether there was room, and the entries of the port. -/
def routeUpdateEntry (portEntries : List RouteEntry) (net mask nh flags : U32) :
    Bool × List RouteEntry :=
  updateSlot routeInUse (fun e => net == e.reNet && mask == e.reMask)
    (fun e => routeV4 net mask nh (e.reFlags ||| routeFlagInUse ||| flags))
    (fun e => routeV4 net mask nh (e.reFlags ||| flags)) portEntries

/-- `route_rem_entry()`: whether an entry was there, and the entries of the port. -/
def routeRemEntry (portEntries : List RouteEntry) (net mask : U32) : Bool × List RouteEntry :=
  clearSlot routeInUse (fun e => e.reNet == net && e.reMask == mask)
    (fun e => { e with reFlags := e.reFlags &&& ~~~routeFlagInUse }) portEntries

/-- `route_v4_find_local()`. -/
def routeV4FindLocal (portEntries : List RouteEntry) (dest : U32) : Option RouteEntry :=
  portEntries.find? fun e => routeInUse e && routeIsFlagSet e routeFlagLocal &&
    e.reNet &&& e.reMask == dest &&& e.reMask

/-- What the handlers return; nobody hands it to the sender. -/
inductive RouteStatus
  | ok
  | einval
  | enomem
  | enoent
deriving DecidableEq, Repr

/-- `route_intf_msg_t`, without the port. -/
structure RouteIntfMsg where
  rimIp : U32
  rimMask : U32
  rimVlanId : BitVec 16
  rimGw : U32
deriving DecidableEq, Repr

/-- `route_intf_add_cb()`, with the MAC of the port. -/
def routeIntfAddCb (portMac : U64) (p : RoutePort) (m : RouteIntfMsg) :
    RouteStatus × RoutePort :=
  let (added, arp) := arpAddLocal p.arp portMac m.rimIp m.rimVlanId
  if !added then
    (.enomem, { p with arp := arp })
  else
    let (updated, entries) := routeUpdateEntry p.entries m.rimIp m.rimMask 0 routeFlagLocal
    (if updated then .ok else .enomem, { p with arp := arp, entries := entries })

/-- `route_intf_del_cb()`. -/
def routeIntfDelCb (p : RoutePort) (m : RouteIntfMsg) : RouteStatus × RoutePort :=
  let (deleted, arp) := arpDeleteLocal p.arp m.rimIp m.rimVlanId
  if !deleted then
    (.enoent, { p with arp := arp })
  else
    let (removed, entries) := routeRemEntry p.entries m.rimIp m.rimMask
    (if removed then .ok else .enoent, { p with arp := arp, entries := entries })

/-- `route_gw_add_cb()`. -/
def routeGwAddCb (p : RoutePort) (gw : U32) : RouteStatus × RoutePort :=
  (if (routeV4FindLocal p.entries gw).isSome then .ok else .einval,
    { p with defaultGw := routeV4 0 0 gw routeFlagInUse })

/-- `route_gw_del_cb()`. -/
def routeGwDelCb (p : RoutePort) : RouteStatus × RoutePort :=
  (.ok, { p with
    defaultGw :=
      { p.defaultGw with reFlags := p.defaultGw.reFlags &&& ~~~routeFlagInUse } })

/-- `route_v4_intf_add()`: the gateway is stored before the message is sent. -/
def routeV4IntfAdd (portMac : U64) (p : RoutePort) (m : RouteIntfMsg) (index : Nat) :
    RouteStatus × RoutePort :=
  routeIntfAddCb portMac
    { p with
      gwPerVlan := p.gwPerVlan.set index { vlanId := m.rimVlanId, gw := m.rimGw } } m

/-- `route_v4_nh_lookup()`. -/
def routeV4NhLookup (p : RoutePort) (dest : U32) (vlanId : BitVec 16) : U64 :=
  let byDefault := arpLookupMac p.arp p.defaultGw.reNh vlanId
  if arpLookupMac p.arp dest vlanId ≠ macNotFound then
    arpLookupMac p.arp dest vlanId
  else if vlanId ≠ 0 then
    match routeV4FindGwPortVlan p.gwPerVlan vlanId with
    | none => byDefault
    | some gw =>
        if arpLookupMac p.arp gw vlanId ≠ macNotFound then
          arpLookupMac p.arp gw vlanId
        else
          byDefault
  else
    byDefault

/-- A port from `rte_zmalloc()`. -/
def routePortInit : RoutePort :=
  { entries := List.replicate tpgRoutePortTableSize (routeV4 0 0 0 0)
    defaultGw := routeV4 0 0 0 0
    gwPerVlan := List.replicate tpgGwPortVlanSize { vlanId := 0, gw := 0 }
    arp := arpTablePort }

end Source

section Routes

/-- The routes in use, by network and mask. -/
def routeLayout : Layout RouteEntry (U32 × U32) U32 where
  live := routeInUse
  key := fun e => (e.reNet, e.reMask)
  val := RouteEntry.reNh

theorem routeInUse_or
    (net mask nh x y : U32)
    (h : x &&& routeFlagInUse ≠ 0) :
    routeInUse (routeV4 net mask nh (x ||| y)) = true := by
  simp only [routeInUse, routeIsFlagSet, routeV4, bne_iff_ne, ne_eq]
  rw [BitVec.and_or_distrib_right, BitVec.ofNat_eq_ofNat, BitVec.or_eq_zero_iff]
  exact fun hzero => h hzero.1

theorem routeInUse_clear
    (e : RouteEntry) :
    routeInUse { e with reFlags := e.reFlags &&& ~~~routeFlagInUse } = false := by
  have hnone : ~~~routeFlagInUse &&& routeFlagInUse = 0#32 := by decide
  simp only [routeInUse, routeIsFlagSet]
  rw [BitVec.and_assoc, hnone, BitVec.and_zero]
  rfl

variable {entries : List RouteEntry} {m : U32 × U32 → Option U32} {net mask : U32}

/-- When an update keeps the routes a map. -/
theorem routeUpdateEntry_isMap
    (nh flags : U32)
    (h : routeLayout.IsMap entries m) :
    routeLayout.IsMap (routeUpdateEntry entries net mask nh flags).2
        (if (routeUpdateEntry entries net mask nh flags).1 then
          Function.update m (net, mask) (some nh) else m) ↔
      routeLayout.UpdateMeets (fun e => net == e.reNet && mask == e.reMask) entries
        (net, mask) := by
  refine updateSlot_isMap (L := routeLayout) h ?_ ?_ ?_
  · rintro x hx
    obtain ⟨rfl, rfl⟩ := Prod.mk.inj hx
    simp
  · intro x _
    refine ⟨routeInUse_or _ _ _ _ _ ?_, rfl, rfl⟩
    rw [BitVec.and_or_distrib_right, BitVec.ofNat_eq_ofNat, ne_eq, BitVec.or_eq_zero_iff]
    exact fun hzero => absurd hzero.2 (by decide)
  · intro x hlive _
    exact ⟨routeInUse_or _ _ _ _ _ (bne_iff_ne.1 hlive), rfl, rfl⟩

/-- A removal always keeps the routes a map. -/
theorem routeRemEntry_isMap
    (h : routeLayout.IsMap entries m) :
    routeLayout.IsMap (routeRemEntry entries net mask).2
      (Function.update m (net, mask) none) := by
  refine (clearSlot_isMap (L := routeLayout) h ?_ routeInUse_clear).2 ?_
  · rintro x hx
    obtain ⟨rfl, rfl⟩ := Prod.mk.inj hx
    simp
  · unfold Layout.DeleteMeets
    split
    · trivial
    · rename_i e he
      have hhit := List.find?_some he
      rw [Bool.and_eq_true, Bool.and_eq_true, beq_iff_eq, beq_iff_eq] at hhit
      exact Prod.ext hhit.2.1 hhit.2.2

end Routes

section Lookups

/-- A port stores an address as a gateway of a VLAN. -/
def Stored (p : RoutePort) (vlan : BitVec 16) (ip : U32) : Prop :=
  p.defaultGw.reNh = ip ∨ (vlan ≠ 0 ∧ routeV4FindGwPortVlan p.gwPerVlan vlan = some ip)

instance (p : RoutePort) (vlan : BitVec 16) (ip : U32) : Decidable (Stored p vlan ip) :=
  inferInstanceAs (Decidable (_ ∨ _))

/-- A lookup answers for the destination, or for a stored gateway whose MAC is known. -/
theorem nhLookup_ok
    (p : RoutePort) (dest : U32) (vlan : BitVec 16) :
    routeV4NhLookup p dest vlan = macNotFound ∨
      routeV4NhLookup p dest vlan = arpLookupMac p.arp dest vlan ∨
      ∃ gw, Stored p vlan gw ∧ Known p.arp gw vlan ∧
        routeV4NhLookup p dest vlan = arpLookupMac p.arp gw vlan := by
  have hgw : ∀ gw : U32, Stored p vlan gw → arpLookupMac p.arp gw vlan = macNotFound ∨
      ∃ gw', Stored p vlan gw' ∧ Known p.arp gw' vlan ∧
        arpLookupMac p.arp gw vlan = arpLookupMac p.arp gw' vlan := by
    intro gw hstored
    by_cases hmac : arpLookupMac p.arp gw vlan = macNotFound
    · exact .inl hmac
    · exact .inr ⟨gw, hstored, known_of_arpLookupMac hmac, rfl⟩
  have hdefault := hgw p.defaultGw.reNh (.inl rfl)
  unfold routeV4NhLookup
  dsimp only
  split
  · exact .inr (.inl rfl)
  · split
    · rename_i hvlan
      split
      · exact hdefault.imp_right .inr
      · rename_i gw hfind
        split
        · exact (hgw gw (.inr ⟨hvlan, hfind⟩)).imp_right .inr
        · exact hdefault.imp_right .inr
    · exact hdefault.imp_right .inr

end Lookups

section Runs

/-- What happens on a port; the MAC of a neighbour is learned from its packets. -/
inductive RouteEvent
  | intfAdd (m : RouteIntfMsg) (index : Nat)
  | intfDel (m : RouteIntfMsg)
  | gwAdd (gw : U32)
  | gwDel (gw : U32)
  | learn (ip : U32) (mac : U64) (vlan : BitVec 16)
deriving DecidableEq, Repr

/-- A port, with the routes, the interfaces and the default gateway it was told to have. -/
structure RouteRun where
  port : RoutePort
  routes : U32 × U32 → Option U32
  intfs : List RouteIntfMsg
  gw : Option U32

/-- The interfaces that stay when one is deleted. -/
def others (intfs : List RouteIntfMsg) (m : RouteIntfMsg) : List RouteIntfMsg :=
  intfs.filter fun i =>
    !(i.rimIp == m.rimIp && i.rimMask == m.rimMask && i.rimVlanId == m.rimVlanId)

/-- One event; an interface comes and goes when its handler succeeds. -/
def routeStep (portMac : U64) (s : RouteRun) : RouteEvent → RouteRun
  | .intfAdd m index =>
      let (status, port) := routeV4IntfAdd portMac s.port m index
      if status = .ok then
        { s with
          port := port
          routes := Function.update s.routes (m.rimIp, m.rimMask) (some 0)
          intfs := m :: s.intfs }
      else
        { s with port := port }
  | .intfDel m =>
      let (status, port) := routeIntfDelCb s.port m
      if status = .ok then
        { s with
          port := port
          routes := Function.update s.routes (m.rimIp, m.rimMask) none
          intfs := others s.intfs m }
      else
        { s with port := port }
  | .gwAdd gw => { s with port := (routeGwAddCb s.port gw).2, gw := some gw }
  | .gwDel _ => { s with port := (routeGwDelCb s.port).2, gw := none }
  | .learn ip mac vlan =>
      { s with port :=
          { s.port with arp := (arpUpdateEntry s.port.arp ip mac false (vlan.setWidth 32)).2 } }

/-- A port before the first event. -/
def routeInit : RouteRun :=
  { port := routePortInit, routes := fun _ => none, intfs := [], gw := none }

/-- The gateway of a present interface of the VLAN; 0 is none. -/
def ByIntf (intfs : List RouteIntfMsg) (vlan : BitVec 16) (ip : U32) : Prop :=
  ip ≠ 0 ∧ ∃ i ∈ intfs, i.rimVlanId = vlan ∧ i.rimGw = ip

instance (intfs : List RouteIntfMsg) (vlan : BitVec 16) (ip : U32) :
    Decidable (ByIntf intfs vlan ip) :=
  inferInstanceAs (Decidable (_ ∧ _))

/-- A gateway that is configured at that moment. -/
def Configured (intfs : List RouteIntfMsg) (gw : Option U32) (vlan : BitVec 16) (ip : U32) :
    Prop :=
  ByIntf intfs vlan ip ∨ gw = some ip

instance (intfs : List RouteIntfMsg) (gw : Option U32) (vlan : BitVec 16) (ip : U32) :
    Decidable (Configured intfs gw vlan ip) :=
  inferInstanceAs (Decidable (_ ∨ _))

/-- The routes are a map, and every next hop is current. -/
structure RoutesOk (s : RouteRun) : Prop where
  one : s.port.entries.Pairwise fun e e' => routeInUse e = true → routeInUse e' = true →
    ¬ (e.reNet = e'.reNet ∧ e.reMask = e'.reMask)
  routes : ∀ net mask, routeLayout.lookup s.port.entries (net, mask) = s.routes (net, mask)
  nextHop : ∀ dest vlan,
    routeV4NhLookup s.port dest vlan = macNotFound ∨
      routeV4NhLookup s.port dest vlan = arpLookupMac s.port.arp dest vlan ∨
      ∃ gw, Configured s.intfs s.gw vlan gw ∧
        routeV4NhLookup s.port dest vlan = arpLookupMac s.port.arp gw vlan

/-- There is room for an interface in the ARP table and among the routes. -/
def Room (portMac : U64) (p : RoutePort) (m : RouteIntfMsg) : Prop :=
  (arpAddLocal p.arp portMac m.rimIp m.rimVlanId).1 = true ∧
    (routeUpdateEntry p.entries m.rimIp m.rimMask 0 routeFlagLocal).1 = true

instance (portMac : U64) (p : RoutePort) (m : RouteIntfMsg) : Decidable (Room portMac p m) :=
  inferInstanceAs (Decidable (_ ∧ _))

/-- The interfaces after one was to be added. -/
def withIntf (portMac : U64) (s : RouteRun) (m : RouteIntfMsg) : List RouteIntfMsg :=
  if Room portMac s.port m then m :: s.intfs else s.intfs

/-- What keeps the routes a map and the stored gateways current. -/
def EventMeets (portMac : U64) (s : RouteRun) : RouteEvent → Prop
  | .intfAdd m index =>
      let gws := s.port.gwPerVlan.set index { vlanId := m.rimVlanId, gw := m.rimGw }
      ((arpAddLocal s.port.arp portMac m.rimIp m.rimVlanId).1 = true →
        routeLayout.UpdateMeets (fun e => m.rimIp == e.reNet && m.rimMask == e.reMask)
          s.port.entries (m.rimIp, m.rimMask)) ∧
      (∀ e ∈ s.port.arp, isEntryInUse e = true → e.vlanId ≠ 0 →
        routeV4FindGwPortVlan gws e.vlanId = some e.ipAddress →
          Configured (withIntf portMac s m) s.gw e.vlanId e.ipAddress) ∧
      (Stored { s.port with gwPerVlan := gws } m.rimVlanId m.rimIp →
        Configured (withIntf portMac s m) s.gw m.rimVlanId m.rimIp)
  | .intfDel m =>
      (arpDeleteLocal s.port.arp m.rimIp m.rimVlanId).1 = true →
        ∀ e ∈ s.port.arp, isEntryInUse e = true → e.vlanId = m.rimVlanId →
          Stored s.port e.vlanId e.ipAddress →
            Configured (others s.intfs m) s.gw e.vlanId e.ipAddress
  | .gwAdd gw =>
      ∀ e ∈ s.port.arp, isEntryInUse e = true → s.gw = some e.ipAddress →
        Stored { s.port with defaultGw := routeV4 0 0 gw 0 } e.vlanId e.ipAddress →
          Configured s.intfs (some gw) e.vlanId e.ipAddress
  | .gwDel _ =>
      ∀ e ∈ s.port.arp, isEntryInUse e = true → s.port.defaultGw.reNh = e.ipAddress →
        ByIntf s.intfs e.vlanId e.ipAddress
  | .learn ip _ vlan => Stored s.port vlan ip → Configured s.intfs s.gw vlan ip

instance (portMac : U64) (s : RouteRun) (i : RouteEvent) : Decidable (EventMeets portMac s i) := by
  unfold EventMeets
  cases i <;> infer_instance

/-- The stored gateways whose MACs are known are configured. -/
structure RunOk (s : RouteRun) : Prop where
  isMap : routeLayout.IsMap s.port.entries s.routes
  current : ∀ ip vlan, Known s.port.arp ip vlan → Stored s.port vlan ip →
    Configured s.intfs s.gw vlan ip
  default : ∀ g, s.gw = some g → s.port.defaultGw.reNh = g

variable {portMac : U64} {s : RouteRun}

theorem RunOk.routesOk
    (h : RunOk s) :
    RoutesOk s := by
  constructor
  · have hd := h.isMap.distinct
    rw [Layout.Distinct, List.Nodup, List.pairwise_map, List.pairwise_filter] at hd
    refine hd.imp fun hne hlive hlive' heq => ?_
    exact hne hlive hlive' (Prod.ext heq.1 heq.2)
  · intro net mask
    exact congrFun h.isMap.lookup (net, mask)
  · intro dest vlan
    obtain hnone | hdest | ⟨gw, hstored, hknown, hmac⟩ := nhLookup_ok s.port dest vlan
    · exact .inl hnone
    · exact .inr (.inl hdest)
    · exact .inr (.inr ⟨gw, h.current gw vlan hknown hstored, hmac⟩)

theorem configured_mono
    {intfs intfs' : List RouteIntfMsg} {gw : Option U32} {vlan : BitVec 16} {ip : U32}
    (h : Configured intfs gw vlan ip)
    (hsub : ∀ i ∈ intfs, i.rimVlanId = vlan → i ∈ intfs') :
    Configured intfs' gw vlan ip := by
  refine h.imp_left ?_
  rintro ⟨hne, i, hi, hvlan, hgw⟩
  exact ⟨hne, i, hsub i hi hvlan, hvlan, hgw⟩

/-- What adding an interface does, by the room in the two tables. -/
theorem routeV4IntfAdd_cases
    (portMac : U64) (p : RoutePort) (m : RouteIntfMsg) (index : Nat) :
    let added := arpAddLocal p.arp portMac m.rimIp m.rimVlanId
    let updated := routeUpdateEntry p.entries m.rimIp m.rimMask 0 routeFlagLocal
    let p' := { p with
      gwPerVlan := p.gwPerVlan.set index { vlanId := m.rimVlanId, gw := m.rimGw }
      arp := added.2 }
    (added.1 = false ∧ routeV4IntfAdd portMac p m index = (.enomem, p')) ∨
      (added.1 = true ∧ updated.1 = false ∧
        routeV4IntfAdd portMac p m index = (.enomem, { p' with entries := updated.2 })) ∨
      (added.1 = true ∧ updated.1 = true ∧
        routeV4IntfAdd portMac p m index = (.ok, { p' with entries := updated.2 })) := by
  dsimp only
  unfold routeV4IntfAdd routeIntfAddCb
  dsimp only
  rcases arpAddLocal p.arp portMac m.rimIp m.rimVlanId with ⟨_ | _, arp⟩
  · exact .inl ⟨rfl, rfl⟩
  · rcases routeUpdateEntry p.entries m.rimIp m.rimMask 0 routeFlagLocal with ⟨_ | _, entries⟩
    · exact .inr (.inl ⟨rfl, rfl, rfl⟩)
    · exact .inr (.inr ⟨rfl, rfl, rfl⟩)

/-- What deleting an interface does, by what is found in the two tables. -/
theorem routeIntfDelCb_cases
    (p : RoutePort) (m : RouteIntfMsg) :
    let deleted := arpDeleteLocal p.arp m.rimIp m.rimVlanId
    let removed := routeRemEntry p.entries m.rimIp m.rimMask
    let p' := { p with arp := deleted.2 }
    (deleted.1 = false ∧ routeIntfDelCb p m = (.enoent, p')) ∨
      (removed.1 = false ∧ routeIntfDelCb p m = (.enoent, { p' with entries := removed.2 })) ∨
      (deleted.1 = true ∧ routeIntfDelCb p m = (.ok, { p' with entries := removed.2 })) := by
  dsimp only
  unfold routeIntfDelCb
  dsimp only
  rcases arpDeleteLocal p.arp m.rimIp m.rimVlanId with ⟨_ | _, arp⟩
  · exact .inl ⟨rfl, rfl⟩
  · rcases routeRemEntry p.entries m.rimIp m.rimMask with ⟨_ | _, entries⟩
    · exact .inr (.inl ⟨rfl, rfl⟩)
    · exact .inr (.inr ⟨rfl, rfl⟩)

theorem runOk_intfAdd
    {m : RouteIntfMsg} {index : Nat}
    (h : RunOk s)
    (hmeets : EventMeets portMac s (.intfAdd m index)) :
    RunOk (routeStep portMac s (.intfAdd m index)) := by
  obtain ⟨hmap, hgws, hown⟩ := hmeets
  have hsub : ∀ i ∈ s.intfs, i ∈ withIntf portMac s m := by
    intro i hi
    unfold withIntf
    split
    · exact List.mem_cons_of_mem _ hi
    · exact hi
  have hcurrent : ∀ ip vlan,
      Known (arpAddLocal s.port.arp portMac m.rimIp m.rimVlanId).2 ip vlan →
      Stored { s.port with
        gwPerVlan := s.port.gwPerVlan.set index { vlanId := m.rimVlanId, gw := m.rimGw } }
        vlan ip →
      Configured (withIntf portMac s m) s.gw vlan ip := by
    intro ip vlan hknown hstored
    obtain hknown | ⟨rfl, rfl⟩ := known_update hknown
    · obtain hdefault | ⟨hvlan, hfind⟩ := hstored
      · exact configured_mono (h.current ip vlan hknown (.inl hdefault)) fun i hi _ => hsub i hi
      · obtain ⟨e, he, hlive, rfl, rfl⟩ := hknown
        exact hgws e he hlive hvlan hfind
    · exact hown hstored
  obtain ⟨hadded, hstep⟩ | ⟨hadded, hupdated, hstep⟩ | ⟨hadded, hupdated, hstep⟩ :=
    routeV4IntfAdd_cases portMac s.port m index
  · have hroom : withIntf portMac s m = s.intfs :=
      if_neg fun hroom => Bool.false_ne_true (hadded.symm.trans hroom.1)
    rw [hroom] at hcurrent
    rw [routeStep, hstep]
    exact ⟨h.isMap, hcurrent, h.default⟩
  · have hroom : withIntf portMac s m = s.intfs :=
      if_neg fun hroom => Bool.false_ne_true (hupdated.symm.trans hroom.2)
    have hroutes := (routeUpdateEntry_isMap 0 routeFlagLocal h.isMap).2 (hmap hadded)
    rw [hupdated] at hroutes
    rw [hroom] at hcurrent
    rw [routeStep, hstep]
    exact ⟨hroutes, hcurrent, h.default⟩
  · have hroom : withIntf portMac s m = m :: s.intfs := if_pos ⟨hadded, hupdated⟩
    have hroutes := (routeUpdateEntry_isMap 0 routeFlagLocal h.isMap).2 (hmap hadded)
    rw [hupdated] at hroutes
    rw [hroom] at hcurrent
    rw [routeStep, hstep]
    exact ⟨hroutes, hcurrent, h.default⟩

theorem runOk_intfDel
    {m : RouteIntfMsg}
    (h : RunOk s)
    (hmeets : EventMeets portMac s (.intfDel m)) :
    RunOk (routeStep portMac s (.intfDel m)) := by
  have hcurrent : ∀ ip vlan,
      Known (arpDeleteLocal s.port.arp m.rimIp m.rimVlanId).2 ip vlan →
        Stored s.port vlan ip → Configured s.intfs s.gw vlan ip :=
    fun ip vlan hknown hstored => h.current ip vlan (known_deleteLocal hknown) hstored
  obtain ⟨-, hstep⟩ | ⟨hremoved, hstep⟩ | ⟨hdeleted, hstep⟩ :=
    routeIntfDelCb_cases s.port m
  · rw [routeStep, hstep]
    exact ⟨h.isMap, hcurrent, h.default⟩
  · have hsame : (routeRemEntry s.port.entries m.rimIp m.rimMask).2 = s.port.entries :=
      clearSlot_of_false hremoved
    rw [hsame] at hstep
    rw [routeStep, hstep]
    exact ⟨h.isMap, hcurrent, h.default⟩
  · rw [routeStep, hstep]
    refine ⟨routeRemEntry_isMap h.isMap, fun ip vlan hknown hstored => ?_, h.default⟩
    by_cases hvlan : vlan = m.rimVlanId
    · obtain ⟨e, he, hlive, rfl, rfl⟩ := known_deleteLocal hknown
      exact hmeets hdeleted e he hlive hvlan hstored
    · -- the interfaces of the other VLANs stay
      refine configured_mono (hcurrent ip vlan hknown hstored) fun i hi hi' => ?_
      refine List.mem_filter.2 ⟨hi, ?_⟩
      have hne : ¬ i.rimVlanId = m.rimVlanId := hi' ▸ hvlan
      simp [hne]

theorem runOk_gwAdd
    {gw : U32}
    (h : RunOk s)
    (hmeets : EventMeets portMac s (.gwAdd gw)) :
    RunOk (routeStep portMac s (.gwAdd gw)) := by
  refine ⟨h.isMap, fun ip vlan hknown hstored => ?_, fun g hg => Option.some.inj hg⟩
  obtain hdefault | hfind := hstored
  · exact .inr (congrArg some hdefault)
  · obtain hintf | hgw := h.current ip vlan hknown (.inr hfind)
    · exact .inl hintf
    · obtain ⟨e, he, hlive, rfl, rfl⟩ := hknown
      exact hmeets e he hlive hgw (.inr hfind)

theorem runOk_gwDel
    {gw : U32}
    (h : RunOk s)
    (hmeets : EventMeets portMac s (.gwDel gw)) :
    RunOk (routeStep portMac s (.gwDel gw)) := by
  refine ⟨h.isMap, fun ip vlan hknown hstored => ?_, fun g hg => nomatch hg⟩
  obtain hintf | hgw := h.current ip vlan hknown hstored
  · exact .inl hintf
  · obtain ⟨e, he, hlive, rfl, rfl⟩ := hknown
    exact .inl (hmeets e he hlive (h.default _ hgw))

theorem runOk_learn
    {ip : U32} {mac : U64} {vlan : BitVec 16}
    (h : RunOk s)
    (hmeets : EventMeets portMac s (.learn ip mac vlan)) :
    RunOk (routeStep portMac s (.learn ip mac vlan)) := by
  refine ⟨h.isMap, fun ip' vlan' hknown hstored => ?_, h.default⟩
  obtain hknown | ⟨rfl, rfl⟩ := known_update hknown
  · exact h.current ip' vlan' hknown hstored
  · exact hmeets hstored

theorem runOk_step
    (s : RouteRun) (i : RouteEvent)
    (h : RunOk s)
    (hmeets : EventMeets portMac s i) :
    RunOk (routeStep portMac s i) := by
  cases i with
  | intfAdd m index => exact runOk_intfAdd h hmeets
  | intfDel m => exact runOk_intfDel h hmeets
  | gwAdd gw => exact runOk_gwAdd h hmeets
  | gwDel gw => exact runOk_gwDel h hmeets
  | learn ip mac vlan => exact runOk_learn h hmeets

theorem runOk_init : RunOk routeInit := by
  refine ⟨isMap_empty fun e he => ?_, ?_, fun g hg => nomatch hg⟩
  · rw [List.eq_of_mem_replicate he]
    decide
  · rintro ip vlan ⟨e, he, hlive, -, -⟩ -
    rw [List.eq_of_mem_replicate he] at hlive
    exact absurd hlive (by decide)

/--
After any events that meet their conditions the routes are a map, and every next hop is
current.
-/
theorem routes_ok
    (portMac : U64) (is : List RouteEvent)
    (hrun : Guarded (routeStep portMac) (EventMeets portMac) routeInit is) :
    RoutesOk (run (routeStep portMac) routeInit is) :=
  (run_invariant RunOk runOk_step runOk_init hrun).routesOk

/-- An interface with a gateway on VLAN 5 and a default gateway, both with their MACs. -/
theorem routes_ok_gateways :
    RoutesOk (run (routeStep 0x11) routeInit
      [.intfAdd ⟨0x0A000002, 0xFFFFFF00, 5, 0x0A000001⟩ 0, .gwAdd 0x0A000009,
        .learn 0x0A000001 0x22 5, .learn 0x0A000009 0x33 0]) :=
  routes_ok 0x11 _ (by decide)

/-- A deleted default gateway still answers. -/
theorem deletedGateway_used :
    ¬ ∀ (portMac : U64) (is : List RouteEvent),
      RoutesOk (run (routeStep portMac) routeInit is) := by
  intro hclaim
  have hnext := (hclaim 0x11
    [.gwAdd 0x0A000009, .learn 0x0A000009 0x33 0, .gwDel 0x0A000009]).nextHop 0x0B000001 0
  obtain hnone | hdest | ⟨gw, hconf, -⟩ := hnext
  · exact absurd hnone (by decide)
  · exact absurd hdest (by decide)
  · obtain ⟨-, i, hi, -⟩ | hgw := hconf
    · cases hi
    · cases hgw

end Runs

end RouteTable
end Warp17
