import Warp17.ClientSessions
import Warp17.ReceiveLengths
import Warp17.ToeplitzHashing
import Warp17.WordBytes
import Mathlib.Data.Nat.Bitwise

/-!
# Packets come to the core of their session

A network card hashes the addresses and ports of a packet with the Toeplitz hash and looks the
queue up in its indirection table.  The program computes the same hash of a session from a cache
of 256 words for each byte position, and so knows on which core to open the session.  The cache
is read in two ways: with the words of a packet as they are loaded, and with the words of a
session in host order.

`toeplitz_cache_create()` also computes rows that no address or port uses; the last of them read
behind the key.  What is there is a parameter of the model.

The card is a parameter: it hashes with the key it was given, and applies the table
(`DocumentedCard`).

**Results**
- `cacheEntry_eq`: the rows of the cache are tables of the hash.
- `cachedHash_eq`: both ways to read the cache give the Toeplitz hash of the addresses and ports.
- `sessions_steered`: the card puts the packets of a session into the queue of the core that
  opened it, with the hash under which the core looks it up.
-/

namespace Warp17
namespace ReceiveSteering

open SequenceComparison ClientSessions Ipv4Options ReceiveLengths ToeplitzHashing WordBytes

section Cache

/-- `toeplitz_keyseeds`; the words hold bytes. -/
def toeplitzKeyseeds : List UInt8 :=
  [0x6d, 0x5a, 0x56, 0xda, 0x25, 0x5b, 0x0e, 0xc2,
   0x41, 0x67, 0x25, 0x3d, 0x43, 0xa3, 0x8f, 0xb0,
   0xd0, 0xca, 0x2b, 0xcb, 0xae, 0x7b, 0x30, 0xb4,
   0x77, 0xcb, 0x2d, 0xa3, 0x80, 0x30, 0xf2, 0x0c,
   0x6a, 0x42, 0xb7, 0x3b, 0xbe, 0xac, 0x01, 0xfa]

/-- `TOEPLITZ_KEYSEED_CNT` -/
def toeplitzKeyseedCnt : Nat := 40

/-- `NBBY` -/
def nbby : Nat := 8

/-- `key[b]` of row `i`: the loop over `j`. -/
def rowKey (keyStr : Nat → UInt8) (i b : Nat) : U32 :=
  (List.range 32).foldl
    (fun key j =>
      let bit := i * nbby + b + j
      let shift := nbby - bit % nbby - 1
      if (keyStr (bit / nbby)).toNat &&& 1 <<< shift ≠ 0 then key ||| (1#32 <<< (31 - j)) else key)
    0

/-- `cache[i][val]` of `toeplitz_cache_create()`. -/
def cacheEntry (keyStr : Nat → UInt8) (i val : Nat) : U32 :=
  (List.range nbby).foldl
    (fun res b =>
      let shift := nbby - b - 1
      if val &&& 1 <<< shift ≠ 0 then res ^^^ rowKey keyStr i b else res)
    0

/-- `toeplitz_init()`; the test for a null key tests the local array. -/
def toeplitzSeeds (keyIn : List UInt8) : List UInt8 :=
  if keyIn.length < toeplitzKeyseedCnt then toeplitzKeyseeds else keyIn.take toeplitzKeyseedCnt

/-- The array that `toeplitz_get_key()` fills, and what follows it in memory. -/
def toeplitzKey (behind : Nat → UInt8) (keyIn : List UInt8) (i : Nat) : UInt8 :=
  if i < toeplitzKeyseedCnt then (toeplitzSeeds keyIn).getD (i % toeplitzKeyseedCnt) 0
  else behind i

/-- `toeplitz_cache` after `toeplitz_init()`. -/
def toeplitzCache (behind : Nat → UInt8) (keyIn : List UInt8) : Nat → Nat → U32 :=
  cacheEntry (toeplitzKey behind keyIn)

/-- `(x >> shift) & 0xff` -/
def octet {n : Nat} (x : BitVec n) (shift : Nat) : Nat :=
  ((x >>> shift) &&& 0xff).toNat

variable (cache : Nat → Nat → U32)

def toeplitzRawhashAddrport (faddr laddr : U32) (fport lport : U16) : U32 :=
  cache 0 (octet faddr 0) ^^^ cache 1 (octet faddr 8) ^^^
    cache 2 (octet faddr 16) ^^^ cache 3 (octet faddr 24) ^^^
    cache 4 (octet laddr 0) ^^^ cache 5 (octet laddr 8) ^^^
    cache 6 (octet laddr 16) ^^^ cache 7 (octet laddr 24) ^^^
    cache 8 (octet fport 0) ^^^ cache 9 (octet fport 8) ^^^
    cache 10 (octet lport 0) ^^^ cache 11 (octet lport 8)

def toeplitzCpuhashAddrport (faddr laddr : U32) (fport lport : U16) : U32 :=
  cache 3 (octet faddr 0) ^^^ cache 2 (octet faddr 8) ^^^
    cache 1 (octet faddr 16) ^^^ cache 0 (octet faddr 24) ^^^
    cache 7 (octet laddr 0) ^^^ cache 6 (octet laddr 8) ^^^
    cache 5 (octet laddr 16) ^^^ cache 4 (octet laddr 24) ^^^
    cache 9 (octet fport 0) ^^^ cache 8 (octet fport 8) ^^^
    cache 11 (octet lport 0) ^^^ cache 10 (octet lport 8)

/-- `tlkp_calc_connection_hash()`: the numbers of a session, in host order. -/
def tlkpCalcConnectionHash : ConnectionHash :=
  fun dstAddr srcAddr dstPort srcPort =>
    toeplitzCpuhashAddrport cache dstAddr srcAddr dstPort srcPort

/-- `tlkp_calc_pkt_hash()`: the words of a packet, as they are loaded. -/
def tlkpCalcPktHash (localAddr remoteAddr : U32) (localPort remotePort : U16) : U32 :=
  toeplitzRawhashAddrport cache localAddr remoteAddr localPort remotePort

end Cache

section Packets

/-- A 16-bit field as it is loaded. -/
def le16 (mem : Nat → UInt8) (offset : Nat) : U16 :=
  (mem (offset + 1)).toBitVec ++ (mem offset).toBitVec

/-- The bytes that a card hashes: the addresses of the IPv4 header and the ports behind it. -/
def rssInput (ip l4 : Nat → UInt8) : List UInt8 :=
  [ip 12, ip 13, ip 14, ip 15, ip 16, ip 17, ip 18, ip 19, l4 0, l4 1, l4 2, l4 3]

/-- `tlkp_calc_pkt_hash()` of the headers of a packet. -/
def pktHash (cache : Nat → Nat → U32) (ip l4 : Nat → UInt8) : U32 :=
  tlkpCalcPktHash cache (le32 ip 12) (le32 ip 16) (le16 l4 0) (le16 l4 2)

/-- The session of a packet from the other end, in host order. -/
def sessionOf (ip l4 : Nat → UInt8) : ClientSession where
  srcIp := be32 ip 16
  dstIp := be32 ip 12
  srcPort := BitVec.ofNat 16 (be16 l4 2)
  dstPort := BitVec.ofNat 16 (be16 l4 0)

/-- `tlkp_calc_connection_hash()` of a session: `l4cb_rx_hash`. -/
def connectionHash (cache : Nat → Nat → U32) (s : ClientSession) : U32 :=
  tlkpCalcConnectionHash cache s.dstIp s.srcIp s.dstPort s.srcPort

end Packets

section Card

/-- `RTE_RETA_GROUP_SIZE` -/
def rteRetaGroupSize : Nat := 64

/-- `struct rte_eth_rss_reta_entry64` -/
structure RetaEntry64 where
  mask : BitVec 64
  reta : Nat → U16

/-- One turn of the loop of `port_setup_reta_table()`. -/
def setupEntry (nrOfQueues : Nat) (retaData : Nat → RetaEntry64) (entry : Nat) :
    Nat → RetaEntry64 :=
  let idx := entry / rteRetaGroupSize
  let shift := entry % rteRetaGroupSize
  Function.update retaData idx
    { mask := (retaData idx).mask ||| (1#64 <<< shift)
      reta := Function.update (retaData idx).reta shift (BitVec.ofNat 16 (entry % nrOfQueues)) }

/-- `port_setup_reta_table()`: what is passed to `rte_eth_dev_rss_reta_update()`. -/
def portSetupRetaTable (retaSize nrOfQueues : Nat) : Nat → RetaEntry64 :=
  (List.range retaSize).foldl (setupEntry nrOfQueues) fun _ => ⟨0, fun _ => 0⟩

/-- `port_rss_key` -/
def portRssKey : List UInt8 :=
  toeplitzKeyseeds ++ toeplitzKeyseeds

/-- `port_adjust_info()`: the size of the indirection table that the program goes by. -/
def portAdjustInfo (retaSize qCnt : Nat) : Option Nat :=
  if retaSize ≠ 0 then some retaSize
  else if 1 < qCnt then none
  else some 1

/-- A card: what it says about itself, and what it does with a key and a table. -/
structure RssCard where
  hashKeySize : Nat
  retaSize : Nat
  /-- `hash.rss` of a packet -/
  hash : List UInt8 → (ip l4 : Nat → UInt8) → U32
  /-- the indirection table after `rte_eth_dev_rss_reta_update()` -/
  table : (Nat → RetaEntry64) → Nat → U16
  /-- the queue, from the table and the hash -/
  queue : (Nat → U16) → U32 → Nat

/--
A card with receive side scaling over the addresses and ports: it uses the key for the Toeplitz
hash, stores the entries whose mask bit is set, and indexes the table with the hash.
-/
structure DocumentedCard (card : RssCard) : Prop where
  hash :
    ∀ key ip l4, card.hash key ip l4 = hashBytes 32 (fun i => key.getD i 0) (rssInput ip l4)
  table :
    ∀ data entry, entry < card.retaSize →
      (data (entry / rteRetaGroupSize)).mask.getLsbD (entry % rteRetaGroupSize) = true →
        card.table data entry =
          (data (entry / rteRetaGroupSize)).reta (entry % rteRetaGroupSize)
  queue :
    ∀ table hash, card.retaSize ≠ 0 →
      card.queue table hash = (table (hash.toNat % card.retaSize)).toNat
  single : ∀ table hash, card.retaSize = 0 → card.queue table hash = 0

/-- The key that `port_setup_port()` gives the card, if it accepts the size. -/
def cardKey (card : RssCard) : List UInt8 :=
  portRssKey.take card.hashKeySize

/-- `hash.rss` of a packet. -/
def cardHash (card : RssCard) (ip l4 : Nat → UInt8) : U32 :=
  card.hash (cardKey card) ip l4

/-- The receive queue of a packet. -/
def cardQueue (card : RssCard) (qCnt : Nat) (ip l4 : Nat → UInt8) : Nat :=
  card.queue (card.table (portSetupRetaTable card.retaSize qCnt)) (cardHash card ip l4)

end Card

section CacheRows

theorem and_shift_ne_zero
    (x k : Nat) :
    x &&& 1 <<< k ≠ 0 ↔ x.testBit k = true := by
  rw [Nat.one_shiftLeft, Nat.and_two_pow]
  cases x.testBit k <;> simp

theorem rowKey_eq
    (keyStr : Nat → UInt8) (i b : Nat) :
    rowKey keyStr i b = window 32 (keyBits keyStr) (8 * i + b) := by
  rw [← foldOr_eq, rowKey]
  congr 1
  funext key j
  have hshift : ∀ n, nbby - n % nbby - 1 = 7 - n % 8 := by
    intro n
    rw [nbby]
    omega
  simp only [hshift, and_shift_ne_zero, keyBits, Nat.mul_comm i nbby]
  rfl

/-- A row of the cache is the table of the hashes of the bytes at its position. -/
theorem cacheEntry_eq
    (keyStr : Nat → UInt8) (i : Nat) (x : UInt8) :
    cacheEntry keyStr i x.toNat = hashTable 32 keyStr i x := by
  rw [hashTable, byteBits, ← foldXor_eq, cacheEntry]
  congr 1
  funext res b
  have hshift : nbby - b - 1 = 7 - b := by
    rw [nbby]
    omega
  simp only [hshift, and_shift_ne_zero, rowKey_eq]

/-- The twelve rows that are looked up give the hash of the twelve bytes. -/
theorem rows_eq
    (keyStr : Nat → UInt8) (a0 a1 a2 a3 a4 a5 a6 a7 a8 a9 a10 a11 : UInt8) :
    cacheEntry keyStr 0 a0.toNat ^^^ cacheEntry keyStr 1 a1.toNat ^^^
        cacheEntry keyStr 2 a2.toNat ^^^ cacheEntry keyStr 3 a3.toNat ^^^
        cacheEntry keyStr 4 a4.toNat ^^^ cacheEntry keyStr 5 a5.toNat ^^^
        cacheEntry keyStr 6 a6.toNat ^^^ cacheEntry keyStr 7 a7.toNat ^^^
        cacheEntry keyStr 8 a8.toNat ^^^ cacheEntry keyStr 9 a9.toNat ^^^
        cacheEntry keyStr 10 a10.toNat ^^^ cacheEntry keyStr 11 a11.toNat =
      hashBytes 32 keyStr [a0, a1, a2, a3, a4, a5, a6, a7, a8, a9, a10, a11] := by
  have hstart : hashBytes 32 keyStr [a0, a1, a2, a3, a4, a5, a6, a7, a8, a9, a10, a11] =
      hashFrom 32 (keyBits keyStr) (8 * 0)
        ([a0, a1, a2, a3, a4, a5, a6, a7, a8, a9, a10, a11].flatMap byteBits) := rfl
  simp only [hstart, hashFrom_bytes, cacheEntry_eq, List.flatMap_nil, hashFrom_nil, Nat.zero_add,
    Nat.reduceAdd, BitVec.xor_zero, BitVec.xor_assoc]

end CacheRows

section Words

theorem octet_toNat
    {n : Nat}
    (x : BitVec n) (shift : Nat)
    (hn : 8 ≤ n) :
    octet x shift = x.toNat / 2 ^ shift % 256 := by
  have hmask : (0xff : BitVec n).toNat = 2 ^ 8 - 1 :=
    Nat.mod_eq_of_lt (lt_of_lt_of_le (by decide) (Nat.pow_le_pow_right (by decide) hn))
  rw [octet, BitVec.toNat_and, hmask, Nat.and_two_pow_sub_one_eq_mod, BitVec.toNat_ushiftRight,
    Nat.shiftRight_eq_div_pow]

/-- The octets of a word as it is loaded are the bytes in memory. -/
theorem octet_le32
    (mem : Nat → UInt8) (offset : Nat) :
    octet (le32 mem offset) 0 = (mem offset).toNat ∧
      octet (le32 mem offset) 8 = (mem (offset + 1)).toNat ∧
      octet (le32 mem offset) 16 = (mem (offset + 2)).toNat ∧
      octet (le32 mem offset) 24 = (mem (offset + 3)).toNat := by
  have h0 := (mem offset).toNat_lt
  have h1 := (mem (offset + 1)).toNat_lt
  have h2 := (mem (offset + 2)).toNat_lt
  have h3 := (mem (offset + 3)).toNat_lt
  simp only [octet_toNat _ _ (by decide : 8 ≤ 32), le32, toNat_append, UInt8.toNat_toBitVec]
  omega

theorem octet_le16
    (mem : Nat → UInt8) (offset : Nat) :
    octet (le16 mem offset) 0 = (mem offset).toNat ∧
      octet (le16 mem offset) 8 = (mem (offset + 1)).toNat := by
  have h0 := (mem offset).toNat_lt
  have h1 := (mem (offset + 1)).toNat_lt
  simp only [octet_toNat _ _ (by decide : 8 ≤ 16), le16, toNat_append, UInt8.toNat_toBitVec]
  omega

/-- The octets of a word in host order are the bytes in memory, from the other end. -/
theorem octet_be32
    (mem : Nat → UInt8) (offset : Nat) :
    octet (be32 mem offset) 24 = (mem offset).toNat ∧
      octet (be32 mem offset) 16 = (mem (offset + 1)).toNat ∧
      octet (be32 mem offset) 8 = (mem (offset + 2)).toNat ∧
      octet (be32 mem offset) 0 = (mem (offset + 3)).toNat := by
  have h0 := (mem offset).toNat_lt
  have h1 := (mem (offset + 1)).toNat_lt
  have h2 := (mem (offset + 2)).toNat_lt
  have h3 := (mem (offset + 3)).toNat_lt
  simp only [octet_toNat _ _ (by decide : 8 ≤ 32), be32, toNat_append, UInt8.toNat_toBitVec]
  omega

theorem octet_be16
    (mem : Nat → UInt8) (offset : Nat) :
    octet (BitVec.ofNat 16 (be16 mem offset)) 8 = (mem offset).toNat ∧
      octet (BitVec.ofNat 16 (be16 mem offset)) 0 = (mem (offset + 1)).toNat := by
  have h0 := (mem offset).toNat_lt
  have h1 := (mem (offset + 1)).toNat_lt
  simp only [octet_toNat _ _ (by decide : 8 ≤ 16), BitVec.toNat_ofNat, be16]
  omega

end Words

section Hashes

variable (behind : Nat → UInt8) (keyIn : List UInt8)

/-- The hash of a packet reads the first sixteen bytes of the key. -/
theorem hashBytes_key
    {key : Nat → UInt8}
    (ip l4 : Nat → UInt8)
    (hkey : ∀ i < 16, key i = (toeplitzSeeds keyIn).getD i 0) :
    hashBytes 32 (toeplitzKey behind keyIn) (rssInput ip l4) =
      hashBytes 32 key (rssInput ip l4) := by
  refine hashBytes_congr fun i hi => ?_
  have hlt : i < 16 := by
    simp only [rssInput, List.length_cons, List.length_nil] at hi
    omega
  have hin : i < toeplitzKeyseedCnt := by
    rw [toeplitzKeyseedCnt]
    omega
  rw [toeplitzKey, if_pos hin, Nat.mod_eq_of_lt hin, hkey i hlt]

/-- The words of a packet as they are loaded. -/
theorem pktHash_eq
    (ip l4 : Nat → UInt8) :
    pktHash (toeplitzCache behind keyIn) ip l4 =
      hashBytes 32 (toeplitzKey behind keyIn) (rssInput ip l4) := by
  obtain ⟨hs0, hs1, hs2, hs3⟩ := octet_le32 ip 12
  obtain ⟨hd0, hd1, hd2, hd3⟩ := octet_le32 ip 16
  obtain ⟨hf0, hf1⟩ := octet_le16 l4 0
  obtain ⟨hl0, hl1⟩ := octet_le16 l4 2
  rw [pktHash, tlkpCalcPktHash, toeplitzRawhashAddrport, hs0, hs1, hs2, hs3, hd0, hd1, hd2, hd3,
    hf0, hf1, hl0, hl1]
  exact rows_eq _ _ _ _ _ _ _ _ _ _ _ _ _

/-- The numbers of the session that a packet belongs to, in host order. -/
theorem connectionHash_eq
    (ip l4 : Nat → UInt8) :
    connectionHash (toeplitzCache behind keyIn) (sessionOf ip l4) =
      hashBytes 32 (toeplitzKey behind keyIn) (rssInput ip l4) := by
  obtain ⟨hs0, hs1, hs2, hs3⟩ := octet_be32 ip 12
  obtain ⟨hd0, hd1, hd2, hd3⟩ := octet_be32 ip 16
  obtain ⟨hf0, hf1⟩ := octet_be16 l4 0
  obtain ⟨hl0, hl1⟩ := octet_be16 l4 2
  have hrows := rows_eq (toeplitzKey behind keyIn) (ip 12) (ip 13) (ip 14) (ip 15) (ip 16) (ip 17)
    (ip 18) (ip 19) (l4 0) (l4 1) (l4 2) (l4 3)
  rw [rssInput, ← hrows, connectionHash, tlkpCalcConnectionHash, toeplitzCpuhashAddrport]
  simp only [sessionOf, hs0, hs1, hs2, hs3, hd0, hd1, hd2, hd3, hf0, hf1, hl0, hl1, toeplitzCache]
  -- the rows of a number are added from its last byte to its first
  ac_rfl

/--
The cache, read with the words of a packet as they are loaded or with the numbers of its session
in host order, gives the Toeplitz hash of the addresses and ports, whatever is behind the key.
-/
theorem cachedHash_eq
    (ip l4 : Nat → UInt8) :
    pktHash (toeplitzCache behind keyIn) ip l4 =
        hashBytes 32 (fun i => (toeplitzSeeds keyIn).getD i 0) (rssInput ip l4) ∧
      connectionHash (toeplitzCache behind keyIn) (sessionOf ip l4) =
        hashBytes 32 (fun i => (toeplitzSeeds keyIn).getD i 0) (rssInput ip l4) := by
  rw [pktHash_eq, connectionHash_eq, hashBytes_key behind keyIn ip l4 fun i _ => rfl]
  exact ⟨rfl, rfl⟩

end Hashes

section Table

/-- The entry of the table has its mask bit and this queue. -/
def Entered (retaData : Nat → RetaEntry64) (e : Nat) (queue : U16) : Prop :=
  (retaData (e / rteRetaGroupSize)).mask.getLsbD (e % rteRetaGroupSize) = true ∧
    (retaData (e / rteRetaGroupSize)).reta (e % rteRetaGroupSize) = queue

variable {nr e n : Nat} {retaData : Nat → RetaEntry64} {queue : U16}

theorem setupEntry_self
    (nr : Nat) (retaData : Nat → RetaEntry64) (n : Nat) :
    Entered (setupEntry nr retaData n) n (BitVec.ofNat 16 (n % nr)) := by
  have hbit : n % rteRetaGroupSize < 64 := Nat.mod_lt _ (by decide)
  simp only [Entered, setupEntry, Function.update_self, and_true]
  rw [BitVec.getLsbD_or, ← BitVec.twoPow_eq, BitVec.getLsbD_twoPow]
  simp [hbit]

/-- The other entries stay, also those in the same group. -/
theorem Entered.setupEntry
    (h : Entered retaData e queue)
    (hne : e ≠ n) :
    Entered (setupEntry nr retaData n) e queue := by
  by_cases hgroup : e / rteRetaGroupSize = n / rteRetaGroupSize
  · have hshift : e % rteRetaGroupSize ≠ n % rteRetaGroupSize := by
      intro hshift
      apply hne
      rw [← Nat.div_add_mod e rteRetaGroupSize, hgroup, hshift, Nat.div_add_mod]
    rw [Entered, hgroup] at h
    simp only [Entered, ReceiveSteering.setupEntry, hgroup, Function.update_self,
      Function.update_of_ne hshift]
    exact ⟨by rw [BitVec.getLsbD_or, h.1, Bool.true_or], h.2⟩
  · rw [Entered, ReceiveSteering.setupEntry, Function.update_of_ne hgroup]
    exact h

/-- After the loop the queues take turns. -/
theorem portSetupRetaTable_entered
    (nr : Nat) {retaSize : Nat}
    (he : e < retaSize) :
    Entered (portSetupRetaTable retaSize nr) e (BitVec.ofNat 16 (e % nr)) := by
  rw [portSetupRetaTable]
  induction retaSize with
  | zero =>
      omega
  | succ size ih =>
      rw [List.range_succ, List.foldl_append, List.foldl_cons, List.foldl_nil]
      by_cases hlast : e = size
      · rw [hlast]
        exact setupEntry_self nr _ size
      · exact (ih (by omega)).setupEntry hlast

/-- The queue of a packet is the one that the program computes from the hash. -/
theorem cardQueue_eq
    {card : RssCard} {port : PortInfo}
    (ip l4 : Nat → UInt8)
    (hcard : DocumentedCard card)
    (hport : portAdjustInfo card.retaSize port.qCnt = some port.retaSize)
    (hqueues : port.qCnt < 2 ^ 16) :
    cardQueue card port.qCnt ip l4 = tlkpGetQindexFromHash port (cardHash card ip l4) := by
  rw [tlkpGetQindexFromHash, cardQueue]
  rw [portAdjustInfo] at hport
  split at hport
  · rename_i hreta
    rw [Option.some.injEq] at hport
    have he : (cardHash card ip l4).toNat % card.retaSize < card.retaSize :=
      Nat.mod_lt _ (Nat.pos_of_ne_zero hreta)
    have hlt := Nat.mod_lt ((cardHash card ip l4).toNat % card.retaSize) port.qCnt_pos
    obtain ⟨hmask, hentry⟩ := portSetupRetaTable_entered port.qCnt he
    rw [hcard.queue _ _ hreta, hcard.table _ _ he hmask, hentry, ← hport, BitVec.toNat_ofNat,
      Nat.mod_eq_of_lt (hlt.trans hqueues)]
  · split at hport
    · cases hport
    · rename_i hreta hone
      rw [Option.some.injEq] at hport
      rw [hcard.single _ _ (not_not.1 hreta), ← hport, Nat.mod_one, Nat.zero_mod]

end Table

section Steering

/-- What a core that opened a session relies on, for a packet from the other end. -/
structure Steered (card : RssCard) (port : PortInfo) (cache : Nat → Nat → U32) (rxQueueId : Nat)
    (ip l4 : Nat → UInt8) : Prop where
  queue : cardQueue card port.qCnt ip l4 = rxQueueId
  /-- `pcb_hash`, if the card sets `PKT_RX_RSS_HASH` -/
  byCard : cardHash card ip l4 = connectionHash cache (sessionOf ip l4)
  /-- `pcb_hash`, if it does not -/
  byProgram : pktHash cache ip l4 = connectionHash cache (sessionOf ip l4)

/-- The card and the program have the same key where the hash reads it. -/
theorem cardHash_eq
    {card : RssCard}
    (behind : Nat → UInt8) (ip l4 : Nat → UInt8)
    (hcard : DocumentedCard card)
    (hkey : 16 ≤ card.hashKeySize) :
    cardHash card ip l4 =
      connectionHash (toeplitzCache behind portRssKey) (sessionOf ip l4) := by
  have hseeds : toeplitzSeeds portRssKey = toeplitzKeyseeds := by decide
  rw [cardHash, hcard.hash, connectionHash_eq]
  refine (hashBytes_key behind portRssKey ip l4 fun i hi => ?_).symm
  rw [hseeds, cardKey, portRssKey]
  have hlen : toeplitzKeyseeds.length = 40 := rfl
  rw [List.getD_eq_getElem?_getD, List.getElem?_take_of_lt (by omega),
    List.getElem?_append_left (by omega), List.getD_eq_getElem?_getD]

/--
On a port that was set up, every packet of a session that a packet core opened for the client is
put into the receive queue of this core, and the core looks it up under the hash of the session.
-/
theorem sessions_steered
    {card : RssCard} {port : PortInfo} {cfg : TpgClient} {fuel rxQueueId : Nat}
    {sessions : List ClientSession}
    (behind : Nat → UInt8)
    (hcard : DocumentedCard card)
    (hkey : 16 ≤ card.hashKeySize)
    (hport : portAdjustInfo card.retaSize port.qCnt = some port.retaSize)
    (hqueues : port.qCnt < 2 ^ 16)
    (hvalid : validateTestCaseClient cfg = true)
    (hwalk :
      testCaseForEachClient (tlkpCalcConnectionHash (toeplitzCache behind portRssKey)) port fuel
        cfg rxQueueId = some sessions) :
    ∀ ip l4, sessionOf ip l4 ∈ sessions →
      Steered card port (toeplitzCache behind portRssKey) rxQueueId ip l4 := by
  have hranges := rangesOk_of_validated hvalid
  have hports : ¬ (cfg.tucSports.l4prEnd.toNat = 65535 ∨ cfg.tucDports.l4prEnd.toNat = 65535) := by
    intro hlast
    rw [testCaseForEachClient_endless hranges hlast fuel rxQueueId] at hwalk
    cases hwalk
  have hsports := hranges.sportsEnd
  have hdports := hranges.dportsEnd
  have hsessions := testCaseForEachClient_some hranges (by omega) (by omega) hwalk
  intro ip l4 hmem
  rw [hsessions, List.mem_filter, decide_eq_true_eq] at hmem
  have hhash := cardHash_eq behind ip l4 hcard hkey
  refine ⟨?_, hhash, ?_⟩
  · rw [cardQueue_eq ip l4 hcard hport hqueues, hhash]
    exact hmem.2
  · rw [pktHash_eq, connectionHash_eq]

/-- A card with a table of 128 entries. -/
def plainCard : RssCard where
  hashKeySize := 40
  retaSize := 128
  hash key ip l4 := hashBytes 32 (fun i => key.getD i 0) (rssInput ip l4)
  table data entry := (data (entry / rteRetaGroupSize)).reta (entry % rteRetaGroupSize)
  queue table hash := (table (hash.toNat % 128)).toNat

theorem plainCard_documented :
    DocumentedCard plainCard :=
  ⟨fun _ _ _ => rfl, fun _ _ _ _ => rfl, fun _ _ _ => rfl, fun _ _ h => absurd h (by decide)⟩

/-- The header of a packet from 10.0.0.253 to 10.0.0.1. -/
def replyIp (i : Nat) : UInt8 :=
  [0x45, 0, 0, 40, 0, 0, 0, 0, 60, 6, 0, 0, 10, 0, 0, 253, 10, 0, 0, 1].getD i 0

/-- From port 6000 to port 10001. -/
def replyTcp (i : Nat) : UInt8 :=
  [0x17, 0x70, 0x27, 0x11].getD i 0

theorem sessions_steered_reply :
    ∃ rxQueueId,
      Steered plainCard twoQueues (toeplitzCache (fun _ => 0) portRssKey) rxQueueId replyIp
        replyTcp := by
  have hranges : RangesOk twoPorts := rangesOk_of_validated (by decide)
  have hnamed : Named twoPorts (sessionOf replyIp replyTcp) := by
    constructor <;> decide
  refine ⟨_, sessions_steered (fun _ => 0) plainCard_documented (by decide) (by decide)
    (by decide) (by decide)
    (testCaseForEachClient_ends hranges (by decide) (by decide) le_rfl
      (rxQueue (tlkpCalcConnectionHash (toeplitzCache (fun _ => 0) portRssKey)) twoQueues
        (sessionOf replyIp replyTcp))) _ _ ?_⟩
  exact List.mem_filter.2 ⟨(mem_allSessions hranges _).2 hnamed, decide_eq_true rfl⟩

end Steering

end ReceiveSteering
end Warp17
