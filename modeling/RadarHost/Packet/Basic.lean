import RadarHost.Packet.Checksum
import RadarHost.Packet.Error

/-!
# What all packets share

A packet begins with the start byte of its kind, says how long its payload is, and ends with the
checksum of all that comes before it, least significant byte first. `checkedBody_withChecksum` says
that a packet closed with its checksum opens again, and `eq_withChecksum_of_checkedBody` that no
other packet does.
-/

namespace RadarHost

namespace Packet

/-- First byte of a request, from the host to the board. -/
def requestStart : UInt8 := 0x01

/-- First byte of a reply, from the board to the host. -/
def replyStart : UInt8 := 0x02

/-- First byte of a frame packet, from the board to the host. -/
def frameStart : UInt8 := 0x03

/-- Bytes of a checksum. -/
def checksumSize : Nat := 2

/-- Longest payload of a request or a reply. -/
def maxReplyPayload : Nat := 1024

/-- Longest payload of a frame packet. -/
def maxFramePayload : Nat := 0x100000

/-- The place of the first `start` byte in some bytes. -/
def findStart (bytes : Bytes) (start : UInt8) : Option Nat := bytes.findIdx? (· == start)

/-- A body closed with its checksum. -/
def withChecksum (body : Bytes) : Bytes :=
  body ++ Bytes.ofNat checksumSize (checksum body).toNat

/-- The body of a packet that carries its own checksum. -/
def checkedBody (packet : Bytes) : Except PacketError Bytes :=
  if packet.length < checksumSize then
    .error (.incompletePacket packet.length checksumSize)
  else
    let body := packet.take (packet.length - checksumSize)
    let received := UInt16.ofNat (Bytes.toNat (packet.drop (packet.length - checksumSize)))
    let computed := checksum body
    if received = computed then .ok body else .error (.checksumMismatch received computed)

theorem checkedBody_withChecksum (body : Bytes) : checkedBody (withChecksum body) = .ok body := by
  have hlen : (withChecksum body).length = body.length + checksumSize := by
    simp [withChecksum]
  have hc : (checksum body).toNat < Bytes.capacity checksumSize := UInt16.toNat_lt _
  unfold checkedBody
  rw [hlen, if_neg (by omega), Nat.add_sub_cancel]
  simp only [withChecksum, List.take_left, List.drop_left, Bytes.toNat_ofNat hc,
    UInt16.ofNat_toNat, if_true]

theorem eq_withChecksum_of_checkedBody {packet body : Bytes} (h : checkedBody packet = .ok body) :
    packet = withChecksum body := by
  unfold checkedBody at h
  split at h
  · cases h
  · rename_i hlen
    dsimp only at h
    split at h
    · rename_i hc
      obtain rfl := Except.ok.inj h
      have hd : (packet.drop (packet.length - checksumSize)).length = checksumSize := by
        rw [List.length_drop]; omega
      have hlt := Bytes.toNat_lt (packet.drop (packet.length - checksumSize))
      rw [hd] at hlt
      have hn := congrArg UInt16.toNat hc
      have hlt' : Bytes.toNat (packet.drop (packet.length - checksumSize)) < 65536 := hlt
      rw [UInt16.toNat_ofNat', Nat.mod_eq_of_lt hlt'] at hn
      conv => lhs; rw [← List.take_append_drop (packet.length - checksumSize) packet]
      rw [withChecksum, ← hn]
      congr 1
      conv => rhs; arg 1; rw [← hd]
      rw [Bytes.ofNat_toNat]
    · cases h

end Packet

end RadarHost
