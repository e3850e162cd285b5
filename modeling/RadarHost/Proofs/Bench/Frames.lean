import RadarHost.Bench.Board
import RadarHost.Proofs.Packet.Resync

/-!
# Frames of a simulated board

The payload of a frame is a row of samples of two bytes: an even place and the one after it hold
the bytes of a sample (`framePayload_pair`). A payload that fits into a packet makes a frame packet
that a reader takes for it (`framePacket_eq`).
-/

namespace RadarHost

namespace SimulatedBoard

variable {b : SimulatedBoard} {limit : Nat}

/-- The frame of a number. -/
def frame (b : SimulatedBoard) (sequence : UInt32) : Frame :=
  ⟨sequence, 0, b.framePayload sequence⟩

@[simp] theorem length_framePayload (b : SimulatedBoard) (sequence : UInt32) :
    (b.framePayload sequence).length = b.framePayloadLen := by
  rw [framePayload, List.length_map, List.length_range]

theorem fits_frame (h : b.framePayloadLen ≤ FrameHeader.maxPayload limit) (sequence : UInt32) :
    (b.frame sequence).Fits limit := by
  rw [Frame.Fits, frame, length_framePayload]
  exact h

/-- A board makes the packets of its frames. -/
theorem framePacket_eq (h : b.framePayloadLen ≤ FrameHeader.maxPayload limit)
    (sequence : UInt32) : b.framePacket sequence = .ok (b.frame sequence).packet := by
  rw [framePacket, if_neg (Nat.not_lt_of_le (h.trans (Nat.min_le_right ..)))]
  exact Frame.encode_eq (fits_frame h sequence)

theorem sample_lt (sequence : UInt32) (place : Nat) : sample sequence place < 4096 :=
  Nat.mod_lt _ (by decide)

/-- The bytes of a sample stand side by side. -/
theorem framePayload_pair {sequence : UInt32} {place : Nat}
    (h : 2 * place + 2 ≤ b.framePayloadLen) :
    ((b.framePayload sequence).drop (place * 2)).take 2 =
      Bytes.ofNat 2 (sample sequence place) := by
  refine List.ext_getElem ?_ fun i hi hi' => ?_
  · rw [List.length_take, List.length_drop, length_framePayload, Bytes.length_ofNat]
    omega
  · rw [Bytes.length_ofNat] at hi'
    simp only [framePayload, List.getElem_take, List.getElem_drop, List.getElem_map,
      List.getElem_range, frameByte]
    obtain rfl | rfl : i = 0 ∨ i = 1 := by omega
    · rw [if_pos (by omega), show (place * 2 + 0) / 2 = place by omega]
      rfl
    · rw [if_neg (by omega), show (place * 2 + 1) / 2 = place by omega]
      rfl

end SimulatedBoard

end RadarHost
