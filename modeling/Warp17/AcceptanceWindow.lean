import Warp17.ConnectionRuns

/-!
# The receive window on stream positions

RFC 793 states the acceptance test of a segment with a table over the length of the segment
and the receive window.  Here that table is stated on the positions of the stream, which are
unbounded numbers, and compared with what `tsm_do_receive_acceptance_test` computes from the
32-bit numbers.

**Results**
- `inWindow_seqAt`: one end of a segment, at any position less than a whole number space
  after the window.
- `acceptance_on_positions`: the four comparisons and the whole test.
-/

namespace Warp17
namespace AcceptanceWindow

open SequenceComparison SerialArithmetic ControlBlock TcpStateMachine ConnectionRuns

section Rfc

/-- A position inside the receive window. -/
def InReceiveWindow (nxt wnd pos : Nat) : Prop :=
  nxt ≤ pos ∧ pos < nxt + wnd

instance (nxt wnd pos : Nat) : Decidable (InReceiveWindow nxt wnd pos) :=
  inferInstanceAs (Decidable (_ ∧ _))

/-- The table of RFC 793 for a segment of `len` bytes that begins at position `seq`. -/
def Rfc793Acceptable (nxt wnd len seq : Nat) : Prop :=
  if len = 0 then
    if wnd = 0 then seq = nxt else InReceiveWindow nxt wnd seq
  else
    if wnd = 0 then False
    else InReceiveWindow nxt wnd seq ∨ InReceiveWindow nxt wnd (seq + len - 1)

instance (nxt wnd len seq : Nat) : Decidable (Rfc793Acceptable nxt wnd len seq) := by
  unfold Rfc793Acceptable
  infer_instance

end Rfc

section Window

variable (base : U32) {q e : Nat} {wnd : U32}

/--
The two comparisons with the ends of an open window.  The position may lie up to a whole number
space after the start of the window: half of that space after the start `SEG_GE` turns
false, and `SEG_LT` has not turned true again.
-/
theorem inWindow_seqAt
    (hlow : q < e + 2 ^ 31)
    (hhigh : e < q + 2 ^ 32)
    (hopen : 0 < wnd.toNat)
    (hwnd : wnd.toNat < 2 ^ 31) :
    (segGE (seqAt base e) (seqAt base q) && segLT (seqAt base e) (seqAt base q + wnd)) =
      decide (InReceiveWindow q wnd.toNat e) := by
  have hend : seqAt base q + wnd = seqAt base (q + wnd.toNat) := by
    rw [← seqAt_add, BitVec.ofNat_toNat, BitVec.setWidth_eq]
  rw [Bool.eq_iff_iff, Bool.and_eq_true, segGE, segLE_iff, segLT_iff, hend,
    decide_eq_true_eq, InReceiveWindow]
  rcases Nat.lt_or_ge e q with hbefore | hafter
  · -- before the window: the distance from its start goes almost all the way round
    have hstart := seqAt_sub_toNat_of_lt base hbefore (by omega)
    omega
  · have hstart := seqAt_sub_toNat base hafter hhigh
    rcases Nat.lt_or_ge e (q + wnd.toNat) with hinside | hbeyond
    · have hstop := seqAt_sub_toNat base hinside.le (by omega)
      omega
    · rcases Nat.eq_or_lt_of_le hbeyond with hedge | hpast
      · have hstop : (seqAt base (q + wnd.toNat) - seqAt base e).toNat = 0 := by
          rw [hedge, sub_self]
          rfl
        omega
      · have hstop := seqAt_sub_toNat_of_lt base hpast (by omega)
        omega

/-- The position of the last byte of a segment that holds data. -/
theorem seqAt_last
    {p : Nat} {segLen : U32}
    (hlen : segLen ≠ 0) :
    seqAt base p + segLen - 1 = seqAt base (p + segLen.toNat - 1) := by
  have hpos : 0 < segLen.toNat := by
    bv_omega
  rw [sub_eq_iff_eq_add, show (1 : U32) = BitVec.ofNat 32 1 from rfl, seqAt_add,
    Nat.sub_add_cancel (by omega), ← seqAt_add, BitVec.ofNat_toNat, BitVec.setWidth_eq]

end Window

/--
The comparisons agree with the order of the positions, and the acceptance test agrees with
the table of RFC 793, for a segment of up to half of the number space.
-/
theorem acceptance_on_positions
    (base : U32) (p q : Nat)
    (hpq : p < q + 2 ^ 31)
    (hqp : q < p + 2 ^ 31) :
    (segLT (seqAt base p) (seqAt base q) = decide (p < q) ∧
      segLE (seqAt base p) (seqAt base q) = decide (p ≤ q) ∧
      segGT (seqAt base p) (seqAt base q) = decide (p > q) ∧
      segGE (seqAt base p) (seqAt base q) = decide (p ≥ q)) ∧
    ∀ (tcb : Tcb) (segLen : U32),
      tcb.rcv.nxt = seqAt base q → tcb.rcv.wnd.toNat < 2 ^ 31 → segLen.toNat ≤ 2 ^ 31 →
        tsmDoReceiveAcceptanceTest tcb segLen (seqAt base p) =
          decide (Rfc793Acceptable q tcb.rcv.wnd.toNat segLen.toNat p) := by
  refine ⟨⟨segLT_seqAt base hpq hqp.le, segLE_seqAt base hpq hqp.le,
    segLT_seqAt base hqp hpq.le, segLE_seqAt base hqp hpq.le⟩, ?_⟩
  intro tcb segLen hnxt hwnd hlen
  have hempty : segLen.toNat = 0 ↔ segLen = 0 := by bv_omega
  have hclosed : tcb.rcv.wnd.toNat = 0 ↔ tcb.rcv.wnd = 0 := by bv_omega
  simp only [tsmDoReceiveAcceptanceTest, Rfc793Acceptable, hnxt, hempty, hclosed]
  split_ifs with hl hw hw
  · rw [decide_eq_decide]
    exact segEQ_seqAt base (by omega) (by omega)
  · exact inWindow_seqAt base hqp (by omega) (Nat.pos_of_ne_zero (mt hclosed.1 hw)) hwnd
  · rfl
  · have hpos := Nat.pos_of_ne_zero (mt hempty.1 hl)
    have hopen := Nat.pos_of_ne_zero (mt hclosed.1 hw)
    have hlast : q < p + segLen.toNat - 1 + 2 ^ 31 := by omega
    rw [seqAt_last base hl, inWindow_seqAt base hqp (by omega) hopen hwnd,
      inWindow_seqAt base hlast (by omega) hopen hwnd, Bool.decide_or]

/-- A connection that expects the last number before the wrap, with a window of 64. -/
def wrappingTcb : Tcb :=
  { blankTcb with rcv := { nxt := 0xFFFFFFFF, wnd := 64, up := 0, irs := 0 } }

/-- A segment that begins before the wrap, of which only the last byte is in the window. -/
theorem acceptance_on_positions_wrap :
    tsmDoReceiveAcceptanceTest wrappingTcb 16 0xFFFFFFF0 = decide (Rfc793Acceptable 31 64 16 16) ∧
      Rfc793Acceptable 31 64 16 16 :=
  ⟨(acceptance_on_positions 0xFFFFFFE0 16 31 (by decide) (by decide)).2 wrappingTcb 16
    rfl (by decide) (by decide), by decide⟩

end AcceptanceWindow
end Warp17
