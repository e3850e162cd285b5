import RadarHost.Bench.Board
import RadarHost.Proofs.Packet.Parsing

/-!
# Commands to a simulated board

A command without payload is one request (`Command.request`), which a board that waits for nothing
else reads whole (`reading_request`). The board does what the command says and queues its reply
behind whatever else waits for the host (`write_request`); the host reads that reply back
(`Reply.parse_packet`).
-/

namespace RadarHost

open Packet

/-! ## Requests -/

/-- The packet of a command without payload. -/
def Command.request (command : Command) : Bytes :=
  withChecksum (requestStart :: command.byte :: (Bytes.ofNat 2 0 ++ []))

theorem encode_request (command : Command) :
    Request.encode ⟨command, []⟩ = .ok command.request := if_neg (Nat.not_lt_zero _)

theorem reading_request (command : Command) :
    BoardLine.reading command.request = .request command command.request.length := by
  cases command <;> decide +kernel

/-! ## Replies -/

/-- A reply is read back from its packet. -/
theorem Reply.parse_packet {r : Reply} {command : Command} (hf : r.Fits)
    (hc : r.command = command.byte) (hs : r.status = 0) : parse r.packet command = .ok r := by
  have h := parse_packet_append hf command []
  rwa [List.append_nil, if_neg (not_not.2 hc), if_neg (not_not.2 hs)] at h

namespace SimulatedBoard

/-- The reply of a board to a command. -/
def replyTo (board : SimulatedBoard) (command : Command) : Reply where
  command := command.byte
  status := 0
  payload :=
    match command with
    | .getBoardInfo => board.info.toBytes
    | _ => []

theorem fits_replyTo (board : SimulatedBoard) (command : Command) :
    (board.replyTo command).Fits := by
  cases command
  · exact board.info.length_toBytes.trans_le (by decide)
  · exact Nat.zero_le _
  · exact Nat.zero_le _

theorem parse_replyTo (board : SimulatedBoard) (command : Command) :
    Reply.parse (board.replyTo command).packet command = .ok (board.replyTo command) :=
  Reply.parse_packet (board.fits_replyTo command) rfl rfl

end SimulatedBoard

namespace BoardLine

variable {l : BoardLine}

/-- What a command changes, its reply aside. -/
def commanded (l : BoardLine) (now : Instant) : Command → BoardLine
  | .getBoardInfo => l
  | .startAcquisition =>
    { l with streaming := true, framesLeft := l.board.frameCount, nextFrameAt := now }
  | .stopAcquisition => { l with streaming := false }

theorem garble_true (bytes : Bytes) : bytes.map (garble true) = bytes := List.map_id' _

theorem send_of_linkOk (h : l.linkOk = true) (bytes : Bytes) :
    l.send bytes = { l with output := l.output ++ bytes } := by
  rw [send, h, garble_true]

theorem reply_eq (hl : l.linkOk = true) (hc : l.board.corruptReplies = false)
    {command : Command} {payload : Bytes} (hf : payload.length ≤ maxReplyPayload) :
    l.reply command payload =
      { l with output := l.output ++ (Reply.packet ⟨command.byte, 0, payload⟩) } := by
  rw [reply, Reply.encode_eq (r := ⟨command.byte, 0, payload⟩) hf, hc]
  exact send_of_linkOk hl _

/-- A board on a line that works does what a command says, and replies. -/
theorem obey_eq (hl : l.linkOk = true) (hc : l.board.corruptReplies = false) (now : Instant)
    (command : Command) :
    l.obey now command =
      { l.commanded now command with
        output := l.output ++ (l.board.replyTo command).packet } := by
  have hf := l.board.fits_replyTo command
  cases command with
  | getBoardInfo => exact reply_eq hl hc hf
  | startAcquisition =>
    rw [obey, show l.reply .startAcquisition [] = _ from reply_eq hl hc hf]
    rfl
  | stopAcquisition =>
    exact reply_eq (l := { l with streaming := false }) hl hc hf

/-- A board skips what cannot begin a request, and handles what it then finds. -/
theorem serve_eq (l : BoardLine) (now : Instant) (input : Bytes) :
    l.serve now input =
      match input.dropWhile (· != requestStart) with
      | [] => { l with input := [] }
      | start :: tail =>
        match reading (start :: tail) with
        | .wait => { l with input := start :: tail }
        | .noise => l.serve now tail
        | .request command size => (l.obey now command).serve now ((start :: tail).drop size) := by
  rw [serve]
  split
  · rename_i hd
    rw [hd]
  · rename_i hd
    rw [hd]
    dsimp only
    split
    all_goals
      rename_i hr
      rw [hr]

theorem serve_nil (l : BoardLine) (now : Instant) : l.serve now [] = { l with input := [] } :=
  serve_eq l now []

theorem serve_request {input tail : Bytes} {start : UInt8} {command : Command} {size : Nat}
    (hd : input.dropWhile (· != requestStart) = start :: tail)
    (hr : reading (start :: tail) = .request command size) (l : BoardLine) (now : Instant) :
    l.serve now input = (l.obey now command).serve now ((start :: tail).drop size) := by
  rw [serve_eq, hd]
  simp only [hr]

/-- A board that gets a whole request obeys it. -/
theorem write_request (hi : l.input = []) (now : Instant) (command : Command) :
    l.write now command.request = { l.obey now command with input := [] } := by
  have hs : l.serve now command.request =
      (l.obey now command).serve now (command.request.drop command.request.length) :=
    serve_request rfl (reading_request command) l now
  rw [List.drop_length, serve_nil] at hs
  rw [write, hi]
  exact hs

end BoardLine

end RadarHost
