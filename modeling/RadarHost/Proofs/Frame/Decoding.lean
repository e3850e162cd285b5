import RadarHost.Proofs.Bench.Frames
import RadarHost.Proofs.Frame.Blocks
import RadarHost.Proofs.Link.Damage
import RadarHost.Proofs.Packet.RoundTrip

/-!
# What is streamed is what is decoded

A frame goes through a packet, through the reader of a line (`feed_frame`), through the cursor that
reads its samples and through the transposition that sorts them by antenna
(`decodeFrame_of_length`). `streamed_frame_decodes` follows the sawtooth of a simulated board all
the way.
-/

namespace RadarHost

namespace FrameLayout

variable {l : FrameLayout} {len : Nat}

theorem addressable_of_expectedPayloadLen (h : l.expectedPayloadLen = .ok len) :
    l.Addressable ∧ len = l.payloadSize := by
  rw [expectedPayloadLen_eq] at h
  split at h
  · exact ⟨‹_›, (Except.ok.inj h).symm⟩
  · cases h

/-- A payload of the right size is decoded into one block for each antenna, with what the format
describes for the samples of that antenna, in order. -/
theorem decodeFrame_of_length {frame : Frame} (hm : l.rxMask ≠ 0) (ha : l.Addressable)
    (h : frame.payload.length = l.payloadSize) :
    ∃ samples, l.decodeFrame frame = .ok samples ∧
      ∀ rx < l.numRx, ∃ block, l.antennaBlock samples rx = some block ∧
        block.size = l.antennaSamples ∧ ∀ j < l.antennaSamples,
          block[j]?.map UInt16.toNat = some (l.written frame.payload (rx + j * l.numRx)) := by
  obtain ⟨taken, -, -, -, hdecode, hlength, hwritten⟩ := decodeSamples_of_length hm ha h
  have hsize : taken.toArray.size = l.antennaSamples * l.numRx :=
    hlength.trans (frameSamples_eq l)
  have hmem : taken.toArray.size ≤ largestSize := hlength.trans_le ha.2.1
  have hrows : l.samplesPerAntenna = .ok l.antennaSamples := if_pos ha.1
  obtain ⟨samples, -, hin, ht⟩ := Transpose.transposes_inPlace hsize
  refine ⟨samples, ?_, fun rx hrx => ⟨_, antennaBlock_of_lt ht ha.1 hmem hrx, ?_, fun j hj => ?_⟩⟩
  · simp only [decodeFrame, hdecode, deinterleave, hrows, hin, Bind.bind, Except.bind,
      Except.mapError]
  · have hstop : l.blockStart (rx + 1) ≤ samples.size := ht.size_after ▸ blockStart_le hrx
    rw [Array.size_extract, Nat.min_eq_left hstop, blockStart_succ, Nat.add_sub_cancel_left]
  · have hplace : rx + j * l.numRx < l.frameSamples := by
      rw [frameSamples_eq, Nat.add_comm]
      exact Transpose.coords_lt hj hrx
    rw [getElem?_block ht hrx hj, List.getElem?_toArray, hwritten _ hplace]

end FrameLayout

/-! ## The whole way -/

/-- The sample at a place of a frame, as the format of two bytes describes it. -/
theorem SimulatedBoard.written_framePayload {l : FrameLayout} {board : SimulatedBoard}
    {sequence : UInt32} {place : Nat} (hf : l.sampleFormat = .u16)
    (h : 2 * place + 2 ≤ board.framePayloadLen) :
    l.written (board.framePayload sequence) place =
      (sequence.toNat + place) % 4096 % 2 ^ min l.sampleBits 16 := by
  have hlt := sample_lt sequence place
  have hcap : Bytes.capacity 2 = 65536 := rfl
  rw [FrameLayout.written, hf]
  dsimp only
  rw [Nat.mul_comm 2 place, framePayload_pair h, Bytes.toNat_ofNat (by omega)]
  rfl

/-- A reader that gets one frame packet, in whatever chunks, gives it up and keeps nothing. -/
theorem PacketReader.feed_frame {limit : Nat} {f : Frame} {chunks : List Bytes}
    (h : f.Fits limit) (hc : chunks.flatten = f.packet) :
    ((empty limit).feed chunks).1 = [.frame f.header f.packet] ∧
      ((empty limit).feed chunks).2.bytes = [] := by
  have hsent : Packet.sent [([], .frame f)] [] = f.packet := by
    simp [Packet.sent, Message.bytes]
  have hframing : Packet.framing limit (Packet.sent [([], .frame f)] []) = ⟨_, []⟩ :=
    Packet.framing_sent (List.forall_mem_nil _)
      (List.forall_mem_singleton.2 ⟨List.forall_mem_nil _, h⟩)
  obtain ⟨hpackets, hbytes⟩ := feed_of_drained chunks (empty limit) (Packet.framing_nil limit)
  rw [hc, ← hsent, show (empty limit).bytes = [] from rfl, List.nil_append,
    show (empty limit).limit = limit from rfl, hframing] at hpackets hbytes
  exact ⟨hpackets, hbytes⟩

/-- What a simulated board streams is what is decoded: the frame of a number fits into a packet,
a reader gives that packet up in whatever chunks it arrives, its checksum is right, and the block of
each antenna has the samples of the sawtooth that were taken for it. -/
theorem streamed_frame_decodes {l : FrameLayout} {board : SimulatedBoard} {limit : Nat}
    (hformat : l.sampleFormat = .u16) (hmask : l.rxMask ≠ 0)
    (hlen : l.expectedPayloadLen = .ok board.framePayloadLen)
    (hmax : board.framePayloadLen ≤ Packet.maxFramePayload)
    (hlimit : board.framePayloadLen ≤ limit) (sequence : UInt32) :
    ∃ packet header frame samples, board.framePacket sequence = .ok packet ∧
      (∀ chunks : List Bytes, chunks.flatten = packet →
        ((PacketReader.empty limit).feed chunks).1 = [.frame header packet] ∧
          ((PacketReader.empty limit).feed chunks).2.bytes = []) ∧
      Session.given (header, packet) = .ok frame ∧ frame.sequence = sequence ∧
      l.decodeFrame frame = .ok samples ∧
      ∀ rx < l.numRx, ∃ block, l.antennaBlock samples rx = some block ∧
        block.size = l.numChirps * l.numSamplesPerChirp ∧
        ∀ j < l.numChirps * l.numSamplesPerChirp, block[j]?.map UInt16.toNat =
          some ((sequence.toNat + j * l.numRx + rx) % 4096 % 2 ^ min l.sampleBits 16) := by
  have hmaxPayload : board.framePayloadLen ≤ FrameHeader.maxPayload limit := le_min hlimit hmax
  have hfits := SimulatedBoard.fits_frame hmaxPayload sequence
  have hpayload : l.expectedPayloadLen = .ok (board.frame sequence).payload.length := by
    rw [SimulatedBoard.frame, SimulatedBoard.length_framePayload, hlen]
  obtain ⟨haddr, hsize⟩ := FrameLayout.addressable_of_expectedPayloadLen hpayload
  obtain ⟨samples, hdecode, hblocks⟩ := FrameLayout.decodeFrame_of_length hmask haddr hsize
  refine ⟨_, _, _, samples, SimulatedBoard.framePacket_eq hmaxPayload sequence,
    fun chunks => PacketReader.feed_frame hfits, Session.given_packet hfits, rfl, hdecode,
    fun rx hrx => ?_⟩
  obtain ⟨block, hblock, hcount, hentry⟩ := hblocks rx hrx
  refine ⟨block, hblock, hcount, fun j hj => ?_⟩
  have hplace : rx + j * l.numRx < l.frameSamples := by
    rw [FrameLayout.frameSamples_eq, Nat.add_comm]
    exact Transpose.coords_lt hj hrx
  have hbytes : 2 * l.frameSamples = board.framePayloadLen := by
    rw [FrameLayout.payloadSize, FrameLayout.bytesOf, hformat, SimulatedBoard.frame,
      SimulatedBoard.length_framePayload] at hsize
    exact hsize.symm
  rw [hentry j hj, Nat.add_assoc, Nat.add_comm (j * l.numRx)]
  exact congrArg some (SimulatedBoard.written_framePayload hformat (by omega))

/-- Two antennas, two samples of ten bits each, and a number at which the sawtooth starts over. -/
theorem streamed_frame_decodes_two_antennas :
    let l : FrameLayout := ⟨5, 1, 2, 10, .u16⟩
    let board : SimulatedBoard := { SimulatedBoard.default with framePayloadLen := 8 }
    l.sampleFormat = .u16 ∧ l.rxMask ≠ 0 ∧ l.expectedPayloadLen = .ok board.framePayloadLen ∧
      board.framePayloadLen ≤ Packet.maxFramePayload ∧ board.framePayloadLen ≤ 16 ∧
      ∃ packet header frame samples, board.framePacket 4095 = .ok packet ∧
        ((PacketReader.empty 16).feed [packet.take 5, [], packet.drop 5]).1 =
          [.frame header packet] ∧
        Session.given (header, packet) = .ok frame ∧ l.decodeFrame frame = .ok samples ∧
        ∃ first second, l.antennaBlock samples 0 = some first ∧
          l.antennaBlock samples 1 = some second ∧
          first[0]?.map UInt16.toNat = some 1023 ∧ first[1]?.map UInt16.toNat = some 1 ∧
          second[0]?.map UInt16.toNat = some 0 ∧ second[1]?.map UInt16.toNat = some 2 := by
  intro l board
  have hlen : l.expectedPayloadLen = .ok board.framePayloadLen := by decide +kernel
  have hmax : board.framePayloadLen ≤ Packet.maxFramePayload := by decide
  obtain ⟨packet, header, frame, samples, hpacket, hfeed, hgiven, -, hdecode, hblocks⟩ :=
    @streamed_frame_decodes l board 16 rfl (by decide) hlen hmax (by decide) 4095
  have hrx : l.numRx = 2 := by decide +kernel
  obtain ⟨first, hfirst, -, hf⟩ := hblocks 0 (by omega)
  obtain ⟨second, hsecond, -, hs⟩ := hblocks 1 (by omega)
  have hchunks : [packet.take 5, [], packet.drop 5].flatten = packet := by simp
  simp only [hrx, show min l.sampleBits 16 = 10 from rfl] at hf hs
  exact ⟨rfl, by decide, hlen, hmax, by decide, packet, header, frame, samples, hpacket,
    (hfeed _ hchunks).1, hgiven, hdecode, first, second, hfirst, hsecond,
    hf 0 (by decide), hf 1 (by decide), hs 0 (by decide), hs 1 (by decide)⟩

end RadarHost
