import Warp17.ControlBlock

/-!
# Out-of-order receive buffer

`tcp_data_handle` places an arriving segment in the list of received blocks, removes what
the segment makes redundant, and hands the blocks that start at `RCV.NXT` to the
application.

**Algorithm**
- a segment that ends at or before `RCV.NXT` is dropped, one that starts before it is trimmed;
- the list walk (`placeSegment`) finds the block that contains the segment, or inserts it
  before the first block that starts later, or merges it with the block it extends;
- the blocks that follow are dropped or trimmed (`consumeFollowing`);
- the delivery loop runs while the first block is labelled `RCV.NXT`.
-/

namespace Warp17
namespace ReceiveBuffer

open SequenceComparison MbufChains ControlBlock

/-- `TCB_RCVBUF_CONTAINED(a, b)`. -/
def tcbRcvbufContained (a b : TcbBufHdr) : Bool :=
  segGE a.segSeq b.segSeq && segLE a.segEnd b.segEnd

/--
The loop that consumes the blocks after the one that was extended to `segEnd`; `none` is a
failed assertion.  A block that keeps its tail keeps its label.
-/
def consumeFollowing (segEnd : U32) : List TcbBufHdr → Option (List TcbBufHdr)
  | [] => some []
  | old :: rest =>
      if segGE segEnd old.segSeq then
        if segLT segEnd old.segEnd then
          match dataAdjChain old.mbuf (segDIFF segEnd old.segSeq) with
          | [] => none
          | mbuf => some ({ old with mbuf := mbuf } :: rest)
        else
          consumeFollowing segEnd rest
      else
        some (old :: rest)

/-- How the list walk ends. -/
inductive PlaceResult
  | contained
  | stored (buf : List TcbBufHdr)
  | asserted
deriving DecidableEq, Repr

/-- The node that was found or inserted, followed by what is left of the later blocks. -/
def storedBefore (seg : TcbBufHdr) (rest : List TcbBufHdr) : PlaceResult :=
  match consumeFollowing seg.segEnd rest with
  | none => .asserted
  | some rest' => .stored (seg :: rest')

/-- Put a node that the walk has passed back in front of the result. -/
def PlaceResult.prepend (cur : TcbBufHdr) : PlaceResult → PlaceResult
  | .contained => .contained
  | .stored buf => .stored (cur :: buf)
  | .asserted => .asserted

/-- The walk over the received blocks (`LIST_FOREACH`) and the insertion it leads to. -/
def placeSegment (new : TcbBufHdr) : List TcbBufHdr → PlaceResult
  | [] => .stored [new]
  | cur :: rest =>
      if tcbRcvbufContained new cur then
        .contained
      else if segLT new.segSeq cur.segSeq then
        storedBefore new (cur :: rest)
      else if cur.segEnd = new.segSeq then
        storedBefore { cur with mbuf := dataMbufMerge cur.mbuf new.mbuf } rest
      else if segLE cur.segSeq new.segSeq && segLT new.segSeq cur.segEnd then
        match dataAdjChain new.mbuf (segDIFF cur.segEnd new.segSeq) with
        | [] => .asserted
        | mbuf => storedBefore { cur with mbuf := dataMbufMerge cur.mbuf mbuf } rest
      else
        (placeSegment new rest).prepend cur

/-- What the delivery loop returns. -/
structure DeliverResult where
  nxt : U32
  buf : List TcbBufHdr
  delivered : U32
  calls : List DeliverCall
  /-- the callback asked for the connection to be closed -/
  closeAsked : Bool
deriving DecidableEq, Repr

/-- The delivery loop, from its `i`-th call of the callback on. -/
def deliverLoop (answer : DeliverCb) : Nat → U32 → List TcbBufHdr → DeliverResult
  | _, nxt, [] =>
      { nxt := nxt, buf := [], delivered := 0, calls := [], closeAsked := false }
  | i, nxt, seg :: rest =>
      if nxt = seg.segSeq then
        match answer i (chainBytes seg.mbuf) with
        | .close =>
            { nxt := nxt
              buf := { seg with mbuf := dataAdjChain seg.mbuf 0 } :: rest
              delivered := 0
              calls := [{ shown := chainBytes seg.mbuf, consumed := 0 }]
              closeAsked := true }
        | .consume n =>
            if n = seg.pktLen then
              let next := deliverLoop answer (i + 1) (nxt + n) rest
              { next with
                delivered := n + next.delivered
                calls := { shown := chainBytes seg.mbuf, consumed := n } :: next.calls }
            else
              -- the label of the block stays what it was
              { nxt := nxt + n
                buf := { seg with mbuf := dataAdjChain seg.mbuf n } :: rest
                delivered := n
                calls := [{ shown := chainBytes seg.mbuf, consumed := n }]
                closeAsked := false }
      else
        { nxt := nxt, buf := seg :: rest, delivered := 0, calls := [], closeAsked := false }

/-- What `tcp_data_handle` leaves behind. -/
structure HandleResult where
  tcb : Tcb
  delivered : U32
  calls : List DeliverCall
  closeAsked : Bool
  asserted : Bool
deriving DecidableEq, Repr

/-- The `deliver_data` part of `tcp_data_handle`, on the list the walk has left. -/
def deliverData (tcb : Tcb) (buf : List TcbBufHdr) (answer : DeliverCb) : HandleResult :=
  if buf = [] then
    { tcb := tcb, delivered := 0, calls := [], closeAsked := false, asserted := true }
  else
    let r := deliverLoop answer 0 tcb.rcv.nxt buf
    { tcb := { tcb with rcv := { tcb.rcv with nxt := r.nxt }, rcvBuf := r.buf }
      delivered := r.delivered
      calls := r.calls
      closeAsked := r.closeAsked
      asserted := false }

/-- The part of the segment from `RCV.NXT` on is stored, then delivered where possible. -/
def storeSegment (tcb : Tcb) (new : TcbBufHdr) (answer : DeliverCb) : HandleResult :=
  match placeSegment new tcb.rcvBuf with
  | .contained => deliverData tcb tcb.rcvBuf answer
  | .stored buf => deliverData tcb buf answer
  | .asserted =>
      { tcb := tcb, delivered := 0, calls := [], closeAsked := false, asserted := true }

/-- `tcp_data_handle()`. -/
def tcpDataHandle (tcb : Tcb) (mbuf : Chain) (segSeq segLen : U32)
    (answer : DeliverCb) : HandleResult :=
  if segLE (segSeq + segLen) tcb.rcv.nxt then
    { tcb := tcb, delivered := 0, calls := [], closeAsked := false, asserted := false }
  else if segLT segSeq tcb.rcv.nxt && segGT (segSeq + segLen) tcb.rcv.nxt then
    match dataAdjChain mbuf (segDIFF tcb.rcv.nxt segSeq) with
    | [] => { tcb := tcb, delivered := 0, calls := [], closeAsked := false, asserted := true }
    | mbuf' => storeSegment tcb { mbuf := mbuf', segSeq := tcb.rcv.nxt } answer
  else
    storeSegment tcb { mbuf := mbuf, segSeq := segSeq } answer

/-- What the application is shown and asks for depends on `RCV.NXT` and the buffer only. -/
theorem tcpDataHandle_congr
    {tcb tcb' : Tcb}
    (mbuf : Chain) (segSeq segLen : U32) (answer : DeliverCb)
    (hnxt : tcb'.rcv.nxt = tcb.rcv.nxt)
    (hbuf : tcb'.rcvBuf = tcb.rcvBuf) :
    (tcpDataHandle tcb' mbuf segSeq segLen answer).calls =
        (tcpDataHandle tcb mbuf segSeq segLen answer).calls ∧
      (tcpDataHandle tcb' mbuf segSeq segLen answer).closeAsked =
        (tcpDataHandle tcb mbuf segSeq segLen answer).closeAsked := by
  have hdeliver : ∀ buf, (deliverData tcb' buf answer).calls = (deliverData tcb buf answer).calls ∧
      (deliverData tcb' buf answer).closeAsked = (deliverData tcb buf answer).closeAsked := by
    intro buf
    unfold deliverData
    rw [hnxt]
    split <;> exact ⟨rfl, rfl⟩
  have hstore : ∀ new, (storeSegment tcb' new answer).calls = (storeSegment tcb new answer).calls ∧
      (storeSegment tcb' new answer).closeAsked = (storeSegment tcb new answer).closeAsked := by
    intro new
    unfold storeSegment
    rw [hbuf]
    split
    · exact hdeliver _
    · exact hdeliver _
    · exact ⟨rfl, rfl⟩
  unfold tcpDataHandle
  rw [hnxt]
  split
  · exact ⟨rfl, rfl⟩
  · split
    · split
      · exact ⟨rfl, rfl⟩
      · exact hstore _
    · exact hstore _

end ReceiveBuffer
end Warp17
