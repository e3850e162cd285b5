import RadarHost.Proofs.Bench.Commands
import RadarHost.Proofs.Bench.Delivery
import RadarHost.Proofs.Bench.Frames
import RadarHost.Proofs.Link.Prompt
import RadarHost.Proofs.Packet.Flight

/-!
# Host and board in step

What the reader of a host holds and what waits for it in the line of a simulated board are,
together, the packets of the frames that the board has made and the host has not read
(`BoardLine.InStep`). A frame that is made is one more of them (`InStep.emit`), a frame that is read
one less (`InStep.read`), and a command is answered behind all of them, so that the exchange leaves
none (`ends_command`).
-/

namespace RadarHost

open Dialogue Packet

namespace SimulatedBoard

variable {board : SimulatedBoard} {limit : Nat}

/-- The frames of `n` numbers in a row. -/
def frames (board : SimulatedBoard) (first : UInt32) (n : Nat) : List Frame :=
  (List.range n).map fun i => board.frame (first + UInt32.ofNat i)

theorem ofNat_succ (first : UInt32) (n : Nat) :
    first + UInt32.ofNat (n + 1) = first + 1 + UInt32.ofNat n := by
  rw [UInt32.ofNat_add, UInt32.add_comm (UInt32.ofNat n), ← UInt32.add_assoc]
  rfl

theorem frames_succ (board : SimulatedBoard) (first : UInt32) (n : Nat) :
    board.frames first (n + 1) = board.frame first :: board.frames (first + 1) n := by
  have h0 : first + UInt32.ofNat 0 = first := UInt32.add_zero first
  simp only [frames, List.range_succ_eq_map, List.map_cons, List.map_map, h0]
  refine congrArg _ (List.map_congr_left fun i _ => ?_)
  rw [Function.comp, ofNat_succ]

theorem frames_concat (board : SimulatedBoard) (first : UInt32) (n : Nat) :
    board.frames first (n + 1) =
      board.frames first n ++ [board.frame (first + UInt32.ofNat n)] := by
  rw [frames, List.range_succ, List.map_append]
  rfl

theorem frames_add (board : SimulatedBoard) (first : UInt32) (m n : Nat) :
    board.frames first (m + n) =
      board.frames first m ++ board.frames (first + UInt32.ofNat m) n := by
  rw [frames, frames, frames, List.range_add, List.map_append, List.map_map]
  refine congrArg _ (List.map_congr_left fun i _ => ?_)
  rw [Function.comp, UInt32.ofNat_add, UInt32.add_assoc]

theorem fits_frames (h : board.framePayloadLen ≤ FrameHeader.maxPayload limit) {first : UInt32}
    {n : Nat} : ∀ f ∈ board.frames first n, f.Fits limit := by
  intro f hf
  obtain ⟨i, -, rfl⟩ := List.mem_map.1 hf
  exact fits_frame h _

/-- The length of the packets of a board's frames. -/
def packetLen (board : SimulatedBoard) : Nat :=
  FrameHeader.size + board.framePayloadLen + checksumSize

theorem length_packet_frame (board : SimulatedBoard) (sequence : UInt32) :
    (board.frame sequence).packet.length = board.packetLen := by
  simp only [Frame.packet, withChecksum, frame, packetLen, FrameHeader.size, List.length_append,
    List.length_cons, Bytes.length_ofNat, length_framePayload]
  omega

end SimulatedBoard

namespace BoardLine

variable {board : SimulatedBoard} {first : UInt32} {given waiting : Nat} {held : Bytes}
  {l : BoardLine} {now : Instant}

/-- A line on which the frames from number `first` on are streamed, of which the host has been given
`given`; the packets of `waiting` more are on their way, and the host already holds `held` of
them. -/
structure InStep (board : SimulatedBoard) (first : UInt32) (given waiting : Nat) (held : Bytes)
    (l : BoardLine) : Prop where
  board_eq : l.board = board
  linkOk : l.linkOk = true
  input_eq : l.input = []
  flight : held ++ l.output = stream (board.frames (first + UInt32.ofNat given) waiting)
  /-- No more waits in the line than one frame. -/
  short : l.output.length ≤ board.packetLen
  /-- The next frame follows those on their way. -/
  next : l.streaming = true → l.sequence = first + UInt32.ofNat (given + waiting)
  /-- Frames given, on their way and still to be made are no more than there are. -/
  count : ∀ count, board.frameCount = some count → given + waiting ≤ count ∧
    (l.streaming = true → ∃ left, l.framesLeft = some left ∧ given + waiting + left ≤ count)

/-- The line after its next frame has been made. -/
def withFrame (l : BoardLine) : BoardLine :=
  { l with
    output := l.output ++ (l.board.frame l.sequence).packet
    sequence := l.sequence + 1
    framesLeft := l.framesLeft.map (· - 1)
    nextFrameAt := l.nextFrameAt + l.board.frameInterval }

theorem emitFrame_eq (hl : l.linkOk = true) (hm : l.board.framePayloadLen ≤ maxFramePayload) :
    l.emitFrame now =
      if l.expectsFrames = true ∧ l.nextFrameAt ≤ now then
        ⟨true, l.board.makingTime, [], l.withFrame⟩
      else ⟨false, 0, [], l⟩ := by
  have hfit : l.board.framePayloadLen ≤ FrameHeader.maxPayload maxFramePayload := le_min hm hm
  unfold emitFrame
  by_cases hdue : l.expectsFrames = true ∧ l.nextFrameAt ≤ now
  · rw [if_neg (by simpa [hdue.1] using hdue.2), SimulatedBoard.framePacket_eq hfit,
      if_pos hdue]
    dsimp only
    rw [send_of_linkOk hl]
    rfl
  · rw [if_neg hdue, if_pos (by simpa [← Bool.not_eq_true, imp_iff_not_or] using hdue)]

/-- A read of a line in which nothing waits: a frame is made for it, or it waits out its time. -/
theorem read_of_empty (ho : l.output = []) (hl : l.linkOk = true)
    (hm : l.board.framePayloadLen ≤ maxFramePayload) (max : Nat) (timeout : Duration) :
    (l.expectsFrames = true ∧
        ∃ elapsed, l.read now max timeout = l.withFrame.deliver max elapsed []) ∨
      l.read now max timeout = l.deliver max timeout [] := by
  rw [read, ho, List.isEmpty_nil, if_pos rfl, emitFrame_eq hl hm]
  by_cases hdue : l.expectsFrames = true ∧ l.nextFrameAt ≤ now
  · rw [if_pos hdue]
    exact .inl ⟨hdue.1, _, rfl⟩
  · rw [if_neg hdue]
    dsimp only
    rw [if_neg Bool.false_ne_true]
    by_cases hin : l.expectsFrames = true ∧ l.nextFrameAt - now ≤ timeout
    · obtain ⟨he, hwait⟩ := hin
      have hthen : now + (l.nextFrameAt - now) = l.nextFrameAt :=
        Nat.add_sub_cancel' (Nat.le_of_not_le fun hle => hdue ⟨he, hle⟩)
      rw [if_pos (by simp [he, hwait]), hthen, emitFrame_eq hl hm, if_pos ⟨he, Nat.le_refl _⟩]
      exact .inl ⟨he, _, rfl⟩
    · rw [if_neg (by simpa using hin)]
      exact .inr rfl

theorem InStep.emit (h : l.InStep board first given waiting held) (he : l.expectsFrames = true)
    (ho : l.output = []) : l.withFrame.InStep board first given (waiting + 1) held := by
  obtain ⟨hstreaming, hleft⟩ := Bool.and_eq_true_iff.1 he
  have hnext := h.next hstreaming
  refine ⟨h.board_eq, h.linkOk, h.input_eq, ?_, ?_, fun _ => ?_, fun count hcount => ?_⟩
  · rw [SimulatedBoard.frames_concat, stream_concat, ← h.flight, List.append_assoc,
      UInt32.add_assoc, ← UInt32.ofNat_add, ← hnext, ← h.board_eq]
    rfl
  · show (l.output ++ _).length ≤ _
    rw [ho, List.nil_append, SimulatedBoard.length_packet_frame, h.board_eq]
  · show l.sequence + 1 = _
    rw [hnext, ← Nat.add_assoc, UInt32.ofNat_add _ 1, UInt32.add_assoc]
    rfl
  · obtain ⟨-, hall⟩ := h.count count hcount
    obtain ⟨left, hl, hle⟩ := hall hstreaming
    rw [hl] at hleft
    have hpos : left ≠ 0 := by
      rintro rfl
      cases hleft
    refine ⟨by omega, fun _ => ⟨left - 1, congrArg (Option.map (· - 1)) hl, by omega⟩⟩

theorem InStep.deliver (h : l.InStep board first given waiting held) (n : Nat) :
    { l with output := l.output.drop n }.InStep board first given waiting
      (held ++ l.output.take n) where
  board_eq := h.board_eq
  linkOk := h.linkOk
  input_eq := h.input_eq
  flight := by rw [List.append_assoc, List.take_append_drop, h.flight]
  short := by
    have := h.short
    rw [List.length_drop]
    omega
  next := h.next
  count := h.count

end BoardLine

/-! ## On a bench -/

namespace Bench

variable {b : Bench} {line : Nat} {l : BoardLine} {t : Instant}

/-- At a time, a line is open to a board and is as `l` says. -/
structure BoardAt (line : Nat) (l : BoardLine) (t : Instant) (b : Bench) : Prop where
  clock : b.clock = t
  there : ∃ identifier, b.openEnd? line = some (identifier, .board l)

theorem BoardAt.read (h : BoardAt line l t b) (max : Nat) (timeout : Duration) :
    (b.read line max timeout).1 = .bytes (l.read t max timeout).bytes ∧
      BoardAt line (l.read t max timeout).line (t + (l.read t max timeout).elapsed)
        (b.read line max timeout).2 := by
  obtain ⟨rfl, identifier, ho⟩ := h
  unfold Bench.read
  rw [ho]
  exact ⟨rfl, rfl, identifier, openEnd?_setFarEnd ho _⟩

theorem BoardAt.write (h : BoardAt line l t b) (bytes : Bytes) :
    (b.write line bytes).1 = .ok () ∧
      BoardAt line (l.write t bytes) t (b.write line bytes).2 := by
  obtain ⟨rfl, identifier, ho⟩ := h
  unfold Bench.write
  rw [ho]
  exact ⟨rfl, rfl, identifier, openEnd?_setFarEnd ho _⟩

theorem BoardAt.report (h : BoardAt line l t b) (event : Event) :
    BoardAt line l t (answer (.report event) b).2 := ⟨h.clock, h.there⟩

/-- What waits in the line of a board is given without delay. -/
theorem prompt_board (line : Nat) (l : BoardLine) :
    Prompt answer line fun rest t b => BoardAt line { l with output := rest } t b where
  now h := ⟨h.clock, h⟩
  report event h := h.report event
  read {rest t b} timeout hrest h := by
    have hread : ({ l with output := rest } : BoardLine).read t PacketReader.readChunk timeout =
        BoardLine.deliver { l with output := rest } PacketReader.readChunk 0 [] :=
      if_neg (by rwa [List.isEmpty_iff])
    obtain ⟨hbytes, hline⟩ := h.read PacketReader.readChunk timeout
    rw [hread] at hbytes hline
    refine ⟨_, _, (List.take_append_drop PacketReader.readChunk rest).symm, ?_, hbytes, hline⟩
    obtain ⟨x, tail, rfl⟩ := List.exists_cons_of_ne_nil hrest
    exact nofun

end Bench

section

variable {board : SimulatedBoard} {first : UInt32} {given waiting budget line : Nat}
  {l : BoardLine} {r : PacketReader} {b : Bench} {t : Instant}

/-- A command is answered at once, behind the frames on their way; none of them is left then,
neither with the host nor in the line. -/
theorem ends_command (hc : board.corruptReplies = false)
    (hfit : board.framePayloadLen ≤ FrameHeader.maxPayload r.limit)
    (h : l.InStep board first given waiting r.bytes) (there : Bench.BoardAt line l t b)
    (command : Command) {timeout : Duration} (ht : 0 < timeout)
    (hb : board.packetLen + (board.replyTo command).packet.length < budget) :
    Ends Bench.answer
      (fun x b => x.1 = .ok (board.replyTo command).payload ∧ x.2.limit = r.limit ∧
        x.2.bytes = [] ∧ Bench.BoardAt line { l.commanded t command with output := [] } t b)
      (r.exchange budget line command [] timeout) b := by
  have hwrite : l.write t command.request =
      { l.commanded t command with
        output := l.output ++ (board.replyTo command).packet } := by
    have hinput : (l.commanded t command).input = [] := by
      cases command <;> exact h.input_eq
    rw [BoardLine.write_request h.input_eq, BoardLine.obey_eq h.linkOk (h.board_eq ▸ hc),
      h.board_eq, ← hinput]
  obtain ⟨hw, hline⟩ := there.write command.request
  rw [hwrite] at hline
  have hnext : (takeUntil reply? r.limit
      (r.bytes ++ (l.output ++ (board.replyTo command).packet))).taken =
        (some (board.replyTo command).packet, []) := by
    rw [← List.append_assoc, h.flight]
    exact wanted_reply_of_flight (board.fits_replyTo command) (SimulatedBoard.fits_frames hfit)
  have hlen : (l.output ++ (board.replyTo command).packet).length < budget := by
    have := h.short
    rw [List.length_append]
    omega
  obtain ⟨x, b', hrun, rest, hx, hlimit, hbytes, hafter⟩ :=
    PacketReader.ends_exchange_prompt (Bench.prompt_board line (l.commanded t command))
      (encode_request command) hw hline hnext ht hlen
  obtain ⟨hheld, rfl⟩ := List.append_eq_nil_iff.1 hbytes
  refine ⟨x, b', hrun, hx.trans ?_, hlimit, hheld, hafter⟩
  show PacketReader.replied command (board.replyTo command).packet = _
  rw [PacketReader.replied, board.parse_replyTo]

/-- What is true between the turns of a wait for the next frame: unless it is too late, more turns
are left than bytes in the line, or than a frame needs if none is on its way. -/
def Awaiting (board : SimulatedBoard) (line : Nat) (first : UInt32) (given limit : Nat)
    (deadline : Instant) (k : Nat) (r : PacketReader) (b : Bench) : Prop :=
  ∃ l t waiting, Bench.BoardAt line l t b ∧ l.InStep board first given waiting r.bytes ∧
    r.limit = limit ∧ (t < deadline → l.output.length < k ∧ (waiting = 0 → board.packetLen < k))

/-- What a wait for the next frame leaves: the frame, if one was found, and everything in step. -/
def Heard (board : SimulatedBoard) (line : Nat) (first : UInt32) (given limit : Nat)
    (x : Except TransportError (Option (FrameHeader × Bytes)) × PacketReader) (b : Bench) : Prop :=
  ∃ l t waiting, Bench.BoardAt line l t b ∧ x.2.limit = limit ∧
    ((x.1 = .ok none ∧ l.InStep board first given waiting x.2.bytes) ∨
      let f := board.frame (first + UInt32.ofNat given)
      x.1 = .ok (some (f.header, f.packet)) ∧ l.InStep board first (given + 1) waiting x.2.bytes)

/-- The first frame on its way is given. -/
theorem BoardLine.InStep.give {before held : Bytes}
    (h : l.InStep board first given (waiting + 1) before)
    (hheld : held ++ l.output =
      stream (board.frames (first + UInt32.ofNat given + 1) waiting)) :
    l.InStep board first (given + 1) waiting held where
  board_eq := h.board_eq
  linkOk := h.linkOk
  input_eq := h.input_eq
  flight := by
    rw [hheld, UInt32.ofNat_add, ← UInt32.add_assoc]
    rfl
  short := h.short
  next hs := by rw [h.next hs, Nat.add_assoc, Nat.add_comm 1]
  count count hcount := by
    obtain ⟨hle, hleft⟩ := h.count count hcount
    refine ⟨by omega, fun hs => ?_⟩
    obtain ⟨left, hl, hle⟩ := hleft hs
    exact ⟨left, hl, by omega⟩

/-- A reader takes the first frame on its way, or it keeps what it holds, and then something of that
frame still waits in the line. -/
theorem BoardLine.InStep.take (hfit : board.framePayloadLen ≤ FrameHeader.maxPayload r.limit)
    (h : l.InStep board first given waiting r.bytes) :
    (∃ left, (r.take frame?).packet =
        some ((board.frame (first + UInt32.ofNat given)).header,
          (board.frame (first + UInt32.ofNat given)).packet) ∧
        l.InStep board first (given + 1) left (r.take frame?).reader.bytes) ∨
      (r.take frame?).packet = none ∧ (r.take frame?).reader.bytes = r.bytes ∧
        (l.output = [] ↔ waiting = 0) := by
  have hflight := h.flight
  cases waiting with
  | zero =>
    obtain ⟨hbytes, hout⟩ := List.append_eq_nil_iff.1 hflight
    have ht : (takeUntil frame? r.limit []).taken = (none, []) :=
      wanted_of_none (taken_noise (List.forall_mem_nil _))
    rw [PacketReader.take_packet, PacketReader.bytes_take, hbytes]
    exact .inr ⟨congrArg Prod.fst ht, congrArg Prod.snd ht, fun _ => rfl, fun _ => hout⟩
  | succ waiting =>
    rw [SimulatedBoard.frames_succ] at hflight
    obtain ⟨hp, hleft⟩ | ⟨hp, hkept, hout⟩ :=
      take_of_flight (SimulatedBoard.fits_frame hfit _) hflight
    · exact .inl ⟨waiting, hp, h.give hleft⟩
    · exact .inr ⟨hp, hkept, fun ho => absurd ho hout, nofun⟩

theorem SimulatedBoard.packetLen_pos (board : SimulatedBoard) : 0 < board.packetLen :=
  Nat.lt_add_left _ (by decide)

/-- A read waits out its time, or a frame is on its way after it of which less waits in the line
than before, or than all of it if none was on its way. -/
theorem BoardLine.InStep.read {held : Bytes} (hm : board.framePayloadLen ≤ maxFramePayload)
    (h : l.InStep board first given waiting held) (hwait : l.output = [] ↔ waiting = 0)
    (timeout : Duration) :
    let x := l.read t PacketReader.readChunk timeout
    ∃ left, x.line.InStep board first given left (held ++ x.bytes) ∧
      (timeout ≤ x.elapsed ∨ 0 < left ∧ ∃ m, x.line.output.length < m ∧
        (m = l.output.length ∨ waiting = 0 ∧ m = board.packetLen)) := by
  have hchunk : 0 < PacketReader.readChunk := by decide
  have hpacket := board.packetLen_pos
  by_cases ho : l.output = []
  · obtain ⟨he, elapsed, hx⟩ | hx :=
      BoardLine.read_of_empty ho h.linkOk (h.board_eq ▸ hm) PacketReader.readChunk timeout
    · rw [hx]
      have hlen : l.withFrame.output.length = board.packetLen := by
        show (l.output ++ _).length = _
        rw [ho, List.nil_append, SimulatedBoard.length_packet_frame, h.board_eq]
      refine ⟨waiting + 1, (h.emit he ho).deliver _, .inr ⟨Nat.succ_pos _, _, ?_,
        .inr ⟨hwait.1 ho, rfl⟩⟩⟩
      show (l.withFrame.output.drop _).length < _
      rw [List.length_drop, hlen]
      omega
    · rw [hx]
      exact ⟨waiting, h.deliver _, .inl (Nat.le_refl _)⟩
  · have hx : l.read t PacketReader.readChunk timeout = l.deliver PacketReader.readChunk 0 [] :=
      if_neg (by rwa [List.isEmpty_iff])
    have hlen := List.length_pos_iff.2 ho
    rw [hx]
    refine ⟨waiting, h.deliver _, .inr ⟨Nat.pos_of_ne_zero fun h0 => ho (hwait.2 h0), _, ?_,
      .inl rfl⟩⟩
    show (l.output.drop _).length < _
    rw [List.length_drop]
    omega

/-- One turn of a wait for the next frame. -/
theorem ends_frameTurn {limit : Nat} {deadline : Instant}
    (hm : board.framePayloadLen ≤ maxFramePayload)
    (hfit : board.framePayloadLen ≤ FrameHeader.maxPayload limit) {k : Nat}
    (h : Awaiting board line first given limit deadline k r b) :
    Ends Bench.answer
      (Turned (fun r b => ∃ k' < k, Awaiting board line first given limit deadline k' r b)
        (Heard board line first given limit))
      (PacketReader.frameWait.turn line deadline r) b := by
  obtain ⟨l, t, waiting, there, hstep, rfl, hk⟩ := h
  refine (Ends.reportAll (P := Bench.BoardAt line l t) (fun b event h => h.report event) _
    there).bind ?_
  rintro _ b there
  have hlimit : (r.take frame?).reader.limit = r.limit := PacketReader.limit_take ..
  obtain ⟨left, hp, hgiven⟩ | ⟨hp, hkept, hwait⟩ := hstep.take hfit
  · rw [show (r.take PacketReader.frameWait.wanted).packet = _ from hp]
    exact Ends.done ⟨l, t, left, there, hlimit, .inr ⟨rfl, hgiven⟩⟩
  rw [show (r.take PacketReader.frameWait.wanted).packet = _ from hp]
  refine Ends.ask ?_
  rw [show (Bench.answer .now b).1 = t from there.clock]
  show Ends Bench.answer _ (if deadline ≤ t then _ else _) b
  rw [← hkept] at hstep
  split
  · exact Ends.done ⟨l, t, waiting, there, hlimit, .inl ⟨rfl, hstep⟩⟩
  rename_i hlt
  obtain ⟨hlen, hmake⟩ := hk (Nat.lt_of_not_le hlt)
  obtain ⟨hbytes, hline⟩ := there.read PacketReader.readChunk (deadline - t)
  refine Ends.ask ?_
  rw [show (Bench.answer (.read line PacketReader.readChunk (deadline - t)) b).1 = _ from hbytes]
  obtain ⟨left, hafter, hrank⟩ := hstep.read hm hwait (deadline - t)
  rw [← PacketReader.bytes_append] at hafter
  obtain hover | ⟨hleft, m, hm, hless⟩ := hrank
  · exact Ends.done ⟨0, Nat.zero_lt_of_lt hlen, _, _, left, hline, hafter, hlimit,
      fun h => absurd (Nat.sub_le_iff_le_add'.1 hover) (Nat.not_le_of_lt h)⟩
  · have hmk : m < k := by
      obtain rfl | ⟨h0, rfl⟩ := hless
      · exact hlen
      · exact hmake h0
    exact Ends.done ⟨m, hmk, _, _, left, hline, hafter, hlimit,
      fun _ => ⟨hm, fun h0 => absurd h0 (Nat.ne_of_gt hleft)⟩⟩

theorem ends_nextFrame_board (hm : board.framePayloadLen ≤ maxFramePayload)
    (hfit : board.framePayloadLen ≤ FrameHeader.maxPayload r.limit)
    (h : l.InStep board first given waiting r.bytes) (there : Bench.BoardAt line l t b)
    (timeout : Duration) (hb : board.packetLen + 1 < budget) :
    Ends Bench.answer (Heard board line first given r.limit) (r.nextFrame budget line timeout)
      b := by
  refine Ends.ask ?_
  show Ends Bench.answer _ (loop (PacketReader.frameTurn line _) budget r) b
  rw [PacketReader.frameTurn_eq]
  refine Ends.loop (fun _ _ _ => ends_frameTurn hm hfit) (n := board.packetLen + 1) ?_ hb
  exact ⟨l, t, waiting, there, h, rfl, fun _ => ⟨Nat.lt_succ_of_le h.short,
    fun _ => Nat.lt_succ_self _⟩⟩

end

end RadarHost
