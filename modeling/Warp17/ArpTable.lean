import Warp17.SlotTables
import Warp17.GuardedRuns
import Warp17.SequenceComparison

/-!
# The ARP table

A port has a table of a few entries, each with an address, a VLAN and one word for the MAC and
the flags.  An update and a delete search for the first entry in use with the address alone,
and an update takes a free slot in front of that entry although the entry is there; a lookup
compares the VLAN as well.

**Results**
- `arpUpdateEntry_isMap`, `arpDeleteEntry_isMap`: when a call keeps the table a map from
  addresses and VLANs to MACs.
- `arpTable_ok`: the table is a map after every call of a run exactly when every call meets
  its condition.
- `otherVlan_overwrites`: an update for another VLAN of an address takes its entry away.
-/

namespace Warp17
namespace ArpTable

open GuardedRuns SequenceComparison SlotTables

section Source

abbrev U64 := BitVec 64

/-- `TPG_ARP_PORT_TABLE_SIZE`. -/
def tpgArpPortTableSize : Nat := 24

/-- `TPG_ARP_UINT64_MAC_MASK`. -/
def macMask : U64 := 0x0000FFFFFFFFFFFF

/-- `TPG_ARP_UINT64_FLAGS_MASK`. -/
def flagsMask : U64 := ~~~macMask

/-- `TPG_ARP_FLAG_IN_USE`. -/
def flagInUse : U64 := 0x0001000000000000

/-- `TPG_ARP_FLAG_INCOMPLETE`. -/
def flagIncomplete : U64 := 0x0002000000000000

/-- `TPG_ARP_FLAG_LOCAL`. -/
def flagLocal : U64 := 0x0004000000000000

/-- `TPG_ARP_MAC_NOT_FOUND`. -/
def macNotFound : U64 := flagIncomplete

/-- `arp_entry_t`. -/
structure ArpEntry where
  macFlags : U64
  ipAddress : U32
  vlanId : BitVec 16
deriving DecidableEq, Repr

/-- `ARP_IS_FLAG_SET`. -/
def isFlagSet (arp : ArpEntry) (flag : U64) : Bool :=
  arp.macFlags &&& flagsMask &&& flag != 0

/-- `arp_set_entry_in_use()`. -/
def setEntryInUse (arp : ArpEntry) : ArpEntry :=
  { arp with macFlags := arp.macFlags ||| flagInUse }

/-- `arp_clear_entry_in_use()`. -/
def clearEntryInUse (arp : ArpEntry) : ArpEntry :=
  { arp with macFlags := arp.macFlags &&& ~~~flagInUse }

/-- `arp_is_entry_in_use()`. -/
def isEntryInUse (arp : ArpEntry) : Bool :=
  isFlagSet arp flagInUse

/-- `arp_set_mac_in_entry_as_uint64()`. -/
def setMacInEntry (arp : ArpEntry) (mac : U64) : ArpEntry :=
  { arp with macFlags := (mac &&& macMask) ||| (arp.macFlags &&& flagsMask) }

/-- `arp_get_mac_from_entry_as_uint64()`. -/
def getMacFromEntry (arp : ArpEntry) : U64 :=
  arp.macFlags &&& macMask

/-- A free slot that is used for an address. -/
def newEntry (ip : U32) (mac : U64) (isLocal : Bool) (vlanId : U32) (_ : ArpEntry) : ArpEntry :=
  let arp := { macFlags := if isLocal then flagLocal else 0, ipAddress := ip, vlanId := 0 }
  setEntryInUse { setMacInEntry arp mac with vlanId := vlanId.setWidth 16 }

/-- An entry that is found for an address. -/
def changedEntry (mac : U64) (vlanId : U32) (arp : ArpEntry) : ArpEntry :=
  { setMacInEntry arp mac with vlanId := vlanId.setWidth 16 }

/-- `arp_update_entry()`: whether there was room, and the entries of the port. -/
def arpUpdateEntry (portEntries : List ArpEntry) (ip : U32) (mac : U64) (isLocal : Bool)
    (vlanId : U32) : Bool × List ArpEntry :=
  updateSlot isEntryInUse (fun e => ip == e.ipAddress) (newEntry ip mac isLocal vlanId)
    (changedEntry mac vlanId) portEntries

/-- `arp_delete_entry()`: whether an entry was there, and the entries of the port. -/
def arpDeleteEntry (portEntries : List ArpEntry) (ip : U32) : Bool × List ArpEntry :=
  clearSlot isEntryInUse (fun e => e.ipAddress == ip) clearEntryInUse portEntries

/-- `arp_lookup()`. -/
def arpLookup (portEntries : List ArpEntry) (ip : U32) (vlanId : BitVec 16) :
    Option ArpEntry :=
  portEntries.find? fun e => isEntryInUse e && e.ipAddress == ip && e.vlanId == vlanId

/-- `arp_lookup_mac()`. -/
def arpLookupMac (portEntries : List ArpEntry) (ip : U32) (vlanId : BitVec 16) : U64 :=
  match arpLookup portEntries ip vlanId with
  | none => macNotFound
  | some arp => getMacFromEntry arp

/-- `arp_add_local()`, with the MAC of the port. -/
def arpAddLocal (portEntries : List ArpEntry) (portMac : U64) (ip : U32) (vlanId : BitVec 16) :
    Bool × List ArpEntry :=
  arpUpdateEntry portEntries ip portMac true (vlanId.setWidth 32)

/-- `arp_delete_local()`: the entry that is found loses its flag, the first one is deleted. -/
def arpDeleteLocal (portEntries : List ArpEntry) (ip : U32) (vlanId : BitVec 16) :
    Bool × List ArpEntry :=
  match portEntries.findIdx? fun e =>
      isEntryInUse e && e.ipAddress == ip && e.vlanId == vlanId with
  | none => (false, portEntries)
  | some i =>
      match portEntries[i]? with
      | none => (false, portEntries)
      | some localArp =>
          if !isFlagSet localArp flagLocal then
            (false, portEntries)
          else
            arpDeleteEntry
              (portEntries.modify i fun e => { e with macFlags := e.macFlags &&& ~~~flagLocal })
              ip

/-- The entries of a port from `rte_zmalloc_socket()`. -/
def arpTablePort : List ArpEntry :=
  List.replicate tpgArpPortTableSize { macFlags := 0, ipAddress := 0, vlanId := 0 }

end Source

section Entries

/-- The entries in use, by address and VLAN. -/
def arpLayout : Layout ArpEntry (U32 × BitVec 16) U64 where
  live := isEntryInUse
  key := fun e => (e.ipAddress, e.vlanId)
  val := getMacFromEntry

variable {e : ArpEntry} {ip : U32} {mac : U64} {isLocal : Bool} {vlanId : U32}

theorem isEntryInUse_new :
    isEntryInUse (newEntry ip mac isLocal vlanId e) = true := by
  have hflag : flagInUse &&& flagsMask &&& flagInUse = flagInUse := by decide
  have hne : ¬ flagInUse = 0#64 := by decide
  simp only [isEntryInUse, isFlagSet, newEntry, setEntryInUse, bne_iff_ne, ne_eq]
  rw [BitVec.and_or_distrib_right, BitVec.and_or_distrib_right, hflag, BitVec.ofNat_eq_ofNat,
    BitVec.or_eq_zero_iff]
  exact fun h => hne h.2

theorem isEntryInUse_changed :
    isEntryInUse (changedEntry mac vlanId e) = isEntryInUse e := by
  have hmac : macMask &&& flagsMask &&& flagInUse = 0#64 := by decide
  have hsame : flagsMask &&& flagsMask &&& flagInUse = flagsMask &&& flagInUse := by decide
  simp only [isEntryInUse, isFlagSet, changedEntry, setMacInEntry]
  rw [BitVec.and_or_distrib_right, BitVec.and_or_distrib_right, BitVec.and_assoc mac,
    BitVec.and_assoc mac, hmac, BitVec.and_assoc e.macFlags, BitVec.and_assoc e.macFlags, hsame,
    BitVec.and_zero, BitVec.zero_or, BitVec.and_assoc]

theorem isEntryInUse_clear :
    isEntryInUse (clearEntryInUse e) = false := by
  have hnone : ~~~flagInUse &&& flagsMask &&& flagInUse = 0#64 := by decide
  simp only [isEntryInUse, isFlagSet, clearEntryInUse]
  rw [BitVec.and_assoc e.macFlags, BitVec.and_assoc e.macFlags, hnone, BitVec.and_zero]
  rfl

theorem getMacFromEntry_changed
    (e : ArpEntry) (mac : U64) (vlanId : U32) :
    getMacFromEntry (changedEntry mac vlanId e) = mac &&& macMask := by
  have hmac : macMask &&& macMask = macMask := by decide
  have hnone : flagsMask &&& macMask = 0#64 := by decide
  simp only [getMacFromEntry, changedEntry, setMacInEntry]
  rw [BitVec.and_or_distrib_right, BitVec.and_assoc mac, hmac, BitVec.and_assoc e.macFlags,
    hnone, BitVec.and_zero, BitVec.or_zero]

theorem getMacFromEntry_new :
    getMacFromEntry (newEntry ip mac isLocal vlanId e) = mac &&& macMask := by
  have hnone : flagInUse &&& macMask = 0#64 := by decide
  have hset := getMacFromEntry_changed
    { macFlags := if isLocal then flagLocal else 0, ipAddress := ip, vlanId := 0 } mac vlanId
  simp only [getMacFromEntry, changedEntry] at hset
  simp only [getMacFromEntry, newEntry, setEntryInUse]
  rw [BitVec.and_or_distrib_right, hset, hnone, BitVec.or_zero]

theorem isEntryInUse_clearLocal :
    isEntryInUse { e with macFlags := e.macFlags &&& ~~~flagLocal } = isEntryInUse e := by
  have hsame : ~~~flagLocal &&& flagsMask &&& flagInUse = flagsMask &&& flagInUse := by decide
  simp only [isEntryInUse, isFlagSet]
  rw [BitVec.and_assoc e.macFlags, BitVec.and_assoc e.macFlags, hsame, BitVec.and_assoc]

theorem arpLookup_eq
    (portEntries : List ArpEntry) (vlan : BitVec 16) :
    (arpLookup portEntries ip vlan).map getMacFromEntry =
      arpLayout.lookup portEntries (ip, vlan) := by
  rw [arpLookup, Layout.lookup]
  congr 2
  funext e
  rw [Bool.and_assoc, Bool.eq_iff_iff]
  simp [arpLayout]

end Entries

section Calls

variable {portEntries : List ArpEntry} {m : U32 × BitVec 16 → Option U64}

/-- When an update keeps the table a map. -/
theorem arpUpdateEntry_isMap
    (ip : U32) (mac : U64) (isLocal : Bool) (vlan : BitVec 16)
    (h : arpLayout.IsMap portEntries m) :
    arpLayout.IsMap (arpUpdateEntry portEntries ip mac isLocal (vlan.setWidth 32)).2
        (if (arpUpdateEntry portEntries ip mac isLocal (vlan.setWidth 32)).1 then
          Function.update m (ip, vlan) (some (mac &&& macMask)) else m) ↔
      arpLayout.UpdateMeets (fun e => ip == e.ipAddress) portEntries (ip, vlan) := by
  have hvlan : (vlan.setWidth 32).setWidth 16 = vlan := by
    rw [BitVec.setWidth_setWidth_of_le _ (by decide), BitVec.setWidth_eq]
  refine updateSlot_isMap (L := arpLayout) h ?_ ?_ ?_
  · intro x hx
    exact beq_iff_eq.2 (congrArg Prod.fst hx).symm
  · intro x _
    refine ⟨isEntryInUse_new, ?_, getMacFromEntry_new⟩
    exact congrArg (Prod.mk ip) hvlan
  · intro x hlive hhit
    refine ⟨isEntryInUse_changed.trans hlive, ?_, getMacFromEntry_changed x mac _⟩
    exact Prod.ext (beq_iff_eq.1 hhit).symm hvlan

/-- When a delete keeps the table a map. -/
theorem arpDeleteEntry_isMap
    (ip : U32) (vlan : BitVec 16)
    (h : arpLayout.IsMap portEntries m) :
    arpLayout.IsMap (arpDeleteEntry portEntries ip).2 (Function.update m (ip, vlan) none) ↔
      arpLayout.DeleteMeets (fun e => e.ipAddress == ip) portEntries (ip, vlan) := by
  refine clearSlot_isMap (L := arpLayout) h ?_ fun x => isEntryInUse_clear
  intro x hx
  exact beq_iff_eq.2 (congrArg Prod.fst hx)

/-- The address has an entry in use on the VLAN. -/
def Known (portEntries : List ArpEntry) (ip : U32) (vlan : BitVec 16) : Prop :=
  ∃ e ∈ portEntries, isEntryInUse e = true ∧ e.ipAddress = ip ∧ e.vlanId = vlan

/-- A MAC comes from an entry in use. -/
theorem known_of_arpLookupMac
    {ip : U32} {vlan : BitVec 16}
    (h : arpLookupMac portEntries ip vlan ≠ macNotFound) :
    Known portEntries ip vlan := by
  unfold arpLookupMac at h
  cases hfound : arpLookup portEntries ip vlan with
  | none =>
      rw [hfound] at h
      exact absurd rfl h
  | some e =>
      have hhit := List.find?_some hfound
      rw [Bool.and_eq_true, Bool.and_eq_true, beq_iff_eq, beq_iff_eq] at hhit
      exact ⟨e, List.mem_of_find?_eq_some hfound, hhit.1.1, hhit.1.2, hhit.2⟩

/-- An update makes known what it is about. -/
theorem known_update
    {ip ip' : U32} {mac : U64} {isLocal : Bool} {vlan vlan' : BitVec 16}
    (h : Known (arpUpdateEntry portEntries ip mac isLocal (vlan.setWidth 32)).2 ip' vlan') :
    Known portEntries ip' vlan' ∨ (ip' = ip ∧ vlan' = vlan) := by
  have hvlan : (vlan.setWidth 32).setWidth 16 = vlan := by
    rw [BitVec.setWidth_setWidth_of_le _ (by decide), BitVec.setWidth_eq]
  obtain ⟨x, hx, hlive, rfl, rfl⟩ := h
  obtain hx | ⟨e, rfl⟩ | ⟨e, hhit, rfl⟩ := mem_updateSlot hx
  · exact .inl ⟨x, hx, hlive, rfl, rfl⟩
  · exact .inr ⟨rfl, hvlan⟩
  · exact .inr ⟨(beq_iff_eq.1 hhit).symm, hvlan⟩

/-- Deleting a local entry makes nothing known. -/
theorem known_deleteLocal
    {ip ip' : U32} {vlan vlan' : BitVec 16}
    (h : Known (arpDeleteLocal portEntries ip vlan).2 ip' vlan') :
    Known portEntries ip' vlan' := by
  unfold arpDeleteLocal at h
  split at h
  · exact h
  · rename_i i _
    split at h
    · exact h
    · split at h
      · exact h
      · obtain ⟨x, hx, hlive, rfl, rfl⟩ := h
        obtain hx | ⟨e, rfl⟩ := mem_clearSlot hx
        · obtain hx | ⟨e, he, rfl⟩ := mem_modify hx
          · exact ⟨x, hx, hlive, rfl, rfl⟩
          · exact ⟨e, List.mem_of_getElem? he, isEntryInUse_clearLocal ▸ hlive, rfl, rfl⟩
        · rw [isEntryInUse_clear] at hlive
          cases hlive

end Calls

section Runs

/-- A call on the table of a port; a delete is made for an address and a VLAN. -/
inductive ArpCall
  | update (ip : U32) (mac : U64) (isLocal : Bool) (vlan : BitVec 16)
  | delete (ip : U32) (vlan : BitVec 16)
deriving DecidableEq, Repr

/-- The entries of a port, and the map of the last updates without a delete after them. -/
structure ArpRun where
  portEntries : List ArpEntry
  last : U32 × BitVec 16 → Option U64

/-- Make a call; only an update that succeeds counts. -/
def arpStep (s : ArpRun) : ArpCall → ArpRun
  | .update ip mac isLocal vlan =>
      let (rc, portEntries) := arpUpdateEntry s.portEntries ip mac isLocal (vlan.setWidth 32)
      { portEntries := portEntries
        last := if rc then Function.update s.last (ip, vlan) (some (mac &&& macMask))
          else s.last }
  | .delete ip vlan =>
      { portEntries := (arpDeleteEntry s.portEntries ip).2
        last := Function.update s.last (ip, vlan) none }

/-- A port before the first call. -/
def arpInit : ArpRun :=
  { portEntries := arpTablePort, last := fun _ => none }

/-- The first entry in use with the address is the right one, and no free slot misleads. -/
def CallMeets (s : ArpRun) : ArpCall → Prop
  | .update ip _ _ vlan =>
      arpLayout.UpdateMeets (fun e => ip == e.ipAddress) s.portEntries (ip, vlan)
  | .delete ip vlan =>
      arpLayout.DeleteMeets (fun e => e.ipAddress == ip) s.portEntries (ip, vlan)

instance (s : ArpRun) (i : ArpCall) : Decidable (CallMeets s i) := by
  unfold CallMeets
  cases i <;> infer_instance

/-- The table is a map: each lookup gives the last update, and no two entries have one key. -/
structure TableOk (s : ArpRun) : Prop where
  one : s.portEntries.Pairwise fun e e' => isEntryInUse e = true → isEntryInUse e' = true →
    ¬ (e.ipAddress = e'.ipAddress ∧ e.vlanId = e'.vlanId)
  lookup : ∀ ip vlan,
    (arpLookup s.portEntries ip vlan).map getMacFromEntry = s.last (ip, vlan)

theorem tableOk_iff
    (s : ArpRun) :
    TableOk s ↔ arpLayout.IsMap s.portEntries s.last := by
  have hone : arpLayout.Distinct s.portEntries ↔
      s.portEntries.Pairwise fun e e' => isEntryInUse e = true → isEntryInUse e' = true →
        ¬ (e.ipAddress = e'.ipAddress ∧ e.vlanId = e'.vlanId) := by
    rw [Layout.Distinct, List.Nodup, List.pairwise_map, List.pairwise_filter]
    refine List.Pairwise.iff fun e e' => ?_
    simp [arpLayout, Prod.ext_iff]
  constructor
  · rintro ⟨hpairs, hlookup⟩
    refine ⟨hone.2 hpairs, funext fun k => ?_⟩
    rw [← hlookup k.1 k.2, arpLookup_eq]
  · rintro ⟨hd, hl⟩
    exact ⟨hone.1 hd, fun ip vlan => (arpLookup_eq _ _).trans (congrFun hl (ip, vlan))⟩

theorem arpStep_ok
    (s : ArpRun) (i : ArpCall)
    (h : TableOk s) :
    TableOk (arpStep s i) ↔ CallMeets s i := by
  rw [tableOk_iff] at h ⊢
  cases i with
  | update ip mac isLocal vlan =>
      exact arpUpdateEntry_isMap ip mac isLocal vlan h
  | delete ip vlan =>
      exact arpDeleteEntry_isMap ip vlan h

theorem arpInit_ok : TableOk arpInit := by
  refine (tableOk_iff _).2 (isMap_empty fun e he => ?_)
  rw [List.eq_of_mem_replicate he]
  decide

/--
The table is a map after every call of a run exactly when every call meets its condition.
-/
theorem arpTable_ok
    (is : List ArpCall) :
    Guarded arpStep CallMeets arpInit is ↔
      ∀ js, js <+: is → TableOk (run arpStep arpInit js) :=
  guarded_iff_prefixes TableOk arpStep_ok arpInit_ok

/-- An update for another VLAN of an address takes its entry away. -/
theorem otherVlan_overwrites :
    ¬ ∀ is : List ArpCall, TableOk (run arpStep arpInit is) := by
  intro hclaim
  have hlookup := (hclaim [.update 0x0A000001 0xA false 1, .update 0x0A000001 0xB false 2]).lookup
    0x0A000001 1
  revert hlookup
  decide

end Runs

end ArpTable
end Warp17
