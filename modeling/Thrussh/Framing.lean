import Thrussh.Session

/-!
# Packets in the write buffer

`push_packet!` writes the length of a body as a `u32` before it, and `flush`
cuts the buffer by these lengths. A body of `2 ^ 32` bytes or more is cut
short.
-/

namespace Thrussh

/-- The packet that `flush` finds behind the length that `push_packet!` has
written before a body. -/
def framed (body : Bytes) : Bytes := body.take (UInt32.ofNat body.length).toNat

/-- A body whose length is a `u32` is sent as it is. -/
theorem framed_of_lt {body : Bytes} (h : body.length < 2 ^ 32) : framed body = body := by
  have hlength : (UInt32.ofNat body.length).toNat = body.length := by
    rw [UInt32.toNat_ofNat']
    omega
  rw [framed, hlength, List.take_length]

/-- A longer one is cut. -/
theorem length_framed_of_le {body : Bytes} (h : 2 ^ 32 ≤ body.length) :
    (framed body).length + 2 ^ 32 ≤ body.length := by
  rw [framed, List.length_take, UInt32.toNat_ofNat']
  omega

/-- `flush` finds the packet where `push_packet!` has put it. -/
theorem unframe_pushPacket (fuel : Nat) (buffer body : Bytes) :
    unframe (fuel + 1) ((pushPacket buffer body).drop buffer.length) =
      framed body :: unframe fuel (body.drop (UInt32.ofNat body.length).toNat) := by
  have hdrop : (pushPacket buffer body).drop buffer.length =
      be32 (UInt32.ofNat body.length) ++ body := by
    rw [pushPacket, List.append_assoc, List.drop_left]
  have hbody : (be32 (UInt32.ofNat body.length) ++ body).drop 4 = body :=
    drop_append_length (length_be32 _) _
  rw [hdrop]
  simp only [unframe, headBe32_append, hbody, ← List.drop_drop]
  rfl

/-- A packet is written with one body. -/
theorem pushPacket_inj {buffer body body' : Bytes}
    (h : pushPacket buffer body = pushPacket buffer body') : body = body' := by
  unfold pushPacket at h
  rw [List.append_assoc, List.append_assoc] at h
  exact (List.append_inj (List.append_cancel_left h) rfl).2

theorem pushPacket_ne (buffer body : Bytes) : buffer ≠ pushPacket buffer body := by
  intro h
  have hlength := congrArg List.length h
  simp [pushPacket] at hlength

end Thrussh
