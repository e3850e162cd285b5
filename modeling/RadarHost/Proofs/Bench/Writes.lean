import RadarHost.Proofs.Bench.Commands
import RadarHost.Proofs.Packet.Grammar

/-!
# Requests in pieces

A board reads its input as one stream: how the host cuts what it sends into writes makes no
difference. What the parser says of some bytes is final, and no byte that follows changes it, unless
it says that more have to come (`parse_append`); and then they are kept as they are. So handling
some bytes and then those that follow is handling them at once (`serve_append`), for a list of
writes by induction on the list. The bytes that are kept touch nothing else that the board does
(`holding`), so that the host may also read between the parts of a request.
-/

namespace RadarHost

open Packet

namespace BoardLine

variable {l : BoardLine} {now : Instant} {input tail : Bytes} {start : UInt8} {command : Command}
  {size : Nat}

/-! ## What is read of the start of a stream -/

/-- Bytes that follow do not change what is read of bytes that need not be waited for. -/
theorem parse_append (hr : reading input ≠ .wait) (later : Bytes) :
    Request.parse (input ++ later) = Request.parse input := by
  match input with
  | [] | [_] | [_, _] | [_, _, _] => exact absurd rfl hr
  | start :: command :: l₀ :: l₁ :: rest =>
    unfold reading at hr
    unfold Request.parse at hr ⊢
    simp only [List.cons_append] at hr ⊢
    by_cases hstart : start ≠ requestStart
    · rw [if_pos hstart, if_pos hstart]
    rw [if_neg hstart] at hr ⊢
    rw [if_neg hstart]
    by_cases hmax : maxReplyPayload < Bytes.toNat [l₀, l₁]
    · rw [if_pos hmax, if_pos hmax]
    rw [if_neg hmax] at hr ⊢
    rw [if_neg hmax]
    by_cases hshort : (start :: command :: l₀ :: l₁ :: rest).length <
        Request.headerSize + Bytes.toNat [l₀, l₁] + checksumSize
    · rw [if_pos hshort] at hr
      exact absurd rfl hr
    have hall := Nat.le_of_not_lt hshort
    have hrest : Bytes.toNat [l₀, l₁] ≤ rest.length := by
      simp only [List.length_cons, Request.headerSize] at hall
      omega
    have hall' := hall.trans (List.sublist_append_left _ later).length_le
    have htake := @List.take_append_of_le_length _ _ later _ hall
    simp only [List.cons_append] at hall' htake
    rw [if_neg hshort, if_neg (Nat.not_lt_of_le hall'), htake,
      List.take_append_of_le_length hrest]

theorem reading_append (hr : reading input ≠ .wait) (later : Bytes) :
    reading (input ++ later) = reading input := by
  rw [reading, parse_append hr, ← reading]

theorem le_length_of_reading (hr : reading input = .request command size) :
    size ≤ input.length := by
  unfold reading at hr
  split at hr
  · cases hr
  · cases hr
  · cases hr
  · rename_i hp
    cases hr
    exact (Request.encode_of_parse hp).1

/-- A part of a request has to be waited for. -/
theorem reading_of_part {request : Request} {head : Bytes}
    (h : request.encode = .ok (head ++ tail)) (ht : tail ≠ []) : reading head = .wait := by
  obtain ⟨hf, hpacket⟩ := Request.of_encode h
  have hparse := Request.parse_packet_append hf []
  rw [List.append_nil, hpacket] at hparse
  by_contra hr
  -- Else the request would already be in the part, which is too short for it.
  rw [parse_append hr] at hparse
  have hle := (Request.encode_of_parse hparse).1
  have hpos := List.length_pos_of_ne_nil ht
  rw [List.length_append] at hle
  omega

/-! ## The bytes that a board keeps -/

/-- The line with other bytes kept. -/
def holding (l : BoardLine) (input : Bytes) : BoardLine := { l with input := input }

theorem reply_holding (payload : Bytes) :
    (l.holding input).reply command payload = (l.reply command payload).holding input := by
  unfold reply
  cases Reply.encode ⟨command.byte, 0, payload⟩ <;> rfl

theorem obey_holding : (l.holding input).obey now command = (l.obey now command).holding input := by
  unfold obey
  cases command with
  | getBoardInfo => exact reply_holding _
  | startAcquisition =>
    dsimp only
    rw [reply_holding]
    rfl
  | stopAcquisition => exact reply_holding (l := { l with streaming := false }) _

/-- The line after a frame with other bytes kept. -/
def Emission.holding (input : Bytes) (e : Emission) : Emission :=
  { e with line := e.line.holding input }

/-- The line after a read with other bytes kept. -/
def Reception.holding (input : Bytes) (r : Reception) : Reception :=
  { r with line := r.line.holding input }

theorem emitFrame_holding : (l.holding input).emitFrame now = (l.emitFrame now).holding input := by
  rw [emitFrame, emitFrame, apply_ite (Emission.holding input)]
  refine if_congr Iff.rfl rfl ?_
  rw [show (l.holding input).board.framePacket (l.holding input).sequence =
    l.board.framePacket l.sequence from rfl]
  cases l.board.framePacket l.sequence <;> rfl

theorem read_holding (max : Nat) (timeout : Duration) :
    (l.holding input).read now max timeout = (l.read now max timeout).holding input := by
  rw [read, read, apply_ite (Reception.holding input)]
  refine if_congr Iff.rfl ?_ rfl
  dsimp only
  rw [emitFrame_holding, apply_ite (Reception.holding input)]
  refine if_congr Iff.rfl rfl ?_
  rw [apply_ite (Reception.holding input), Emission.holding, emitFrame_holding]
  exact if_congr Iff.rfl rfl rfl

/-! ## Handling a stream -/

theorem serve_none (hd : input.dropWhile (· != requestStart) = []) :
    l.serve now input = l.holding [] := by
  rw [serve_eq, hd]
  rfl

theorem serve_wait (hd : input.dropWhile (· != requestStart) = start :: tail)
    (hr : reading (start :: tail) = .wait) : l.serve now input = l.holding (start :: tail) := by
  rw [serve_eq, hd]
  simp only [hr]
  rfl

theorem serve_noise (hd : input.dropWhile (· != requestStart) = start :: tail)
    (hr : reading (start :: tail) = .noise) : l.serve now input = l.serve now tail := by
  rw [serve_eq, hd]
  simp only [hr]

theorem serve_congr {input' : Bytes}
    (h : input.dropWhile (· != requestStart) = input'.dropWhile (· != requestStart)) :
    l.serve now input = l.serve now input' := by
  rw [serve_eq, h, ← serve_eq]

/-- What a board keeps is part of what it is given to handle, and not looked at besides. -/
theorem serve_holding (held : Bytes) : (l.holding held).serve now input = l.serve now input := by
  induction l, input using serve.induct (now) with
  | case1 l input hd => rw [serve_none hd, serve_none hd]; rfl
  | case2 l input start tail hd hr => rw [serve_wait hd hr, serve_wait hd hr]; rfl
  | case3 l input start tail hd hr ih => rw [serve_noise hd hr, serve_noise hd hr, ih]
  | case4 l input start tail hd command size hr ih =>
    rw [serve_request hd hr, serve_request hd hr, obey_holding, ih]

theorem write_holding (held bytes : Bytes) :
    (l.holding held).write now bytes = l.serve now (held ++ bytes) := serve_holding held

/-- Handling bytes and then those that follow is handling them at once. -/
theorem serve_append (later : Bytes) :
    (l.serve now input).write now later = l.serve now (input ++ later) := by
  have append (input : Bytes) {start : UInt8} {tail : Bytes}
      (hd : input.dropWhile (· != requestStart) = start :: tail) :
      (input ++ later).dropWhile (· != requestStart) = start :: (tail ++ later) := by
    rw [List.dropWhile_append, hd]
    rfl
  induction l, input using serve.induct (now) with
  | case1 l input hd =>
    rw [serve_none hd, write_holding]
    refine serve_congr (Eq.symm ?_)
    rw [List.dropWhile_append, hd]
    rfl
  | case2 l input start tail hd hr =>
    rw [serve_wait hd hr, write_holding]
    refine serve_congr ?_
    rw [append input hd, append (start :: tail) (hd ▸ List.dropWhile_idempotent ..)]
  | case3 l input start tail hd hr ih =>
    have hr' := (reading_append (hr ▸ nofun) later).trans hr
    rw [serve_noise hd hr, ih, serve_noise (append input hd) hr']
  | case4 l input start tail hd command size hr ih =>
    have hr' := (reading_append (hr ▸ nofun) later).trans hr
    have hdrop := @List.drop_append_of_le_length _ _ later _ (le_length_of_reading hr)
    rw [serve_request hd hr, ih, serve_request (append input hd) hr', ← hdrop]
    rfl

/-! ## Pieces of a stream -/

/-- The reads of a host one after another, each with its time, the number of bytes that it asks for
and the time that it waits: what the host gets, and the line after. -/
def readAll (l : BoardLine) :
    List (Instant × Nat × Duration) → List (Bytes × Duration × List Event) × BoardLine
  | [] => ([], l)
  | (now, max, timeout) :: reads =>
    let r := l.read now max timeout
    let rest := r.line.readAll reads
    ((r.bytes, r.elapsed, r.events) :: rest.1, rest.2)

theorem readAll_holding (l : BoardLine) (input : Bytes) (reads : List (Instant × Nat × Duration)) :
    (l.holding input).readAll reads =
      ((l.readAll reads).1, (l.readAll reads).2.holding input) := by
  induction reads generalizing l with
  | nil => rfl
  | cons read reads ih =>
    simp only [readAll, read_holding, Reception.holding, ih]

/-- Reads leave what a board keeps. -/
theorem input_readAll (l : BoardLine) (reads : List (Instant × Nat × Duration)) :
    (l.readAll reads).2.input = l.input :=
  congrArg (fun after => after.2.input) (readAll_holding l l.input reads)

/-- Pieces that a host writes one after another are handled like all of them at once. -/
theorem foldl_write (l : BoardLine) (now : Instant) (piece : Bytes) (pieces : List Bytes) :
    pieces.foldl (fun l bytes => l.write now bytes) (l.write now piece) =
      l.write now (piece ++ pieces.flatten) := by
  induction pieces generalizing piece with
  | nil => rw [List.foldl_nil, List.flatten_nil, List.append_nil]
  | cons next pieces ih =>
    have hnext : (l.write now piece).write now next = l.write now (piece ++ next) :=
      (serve_append next).trans (congrArg (l.serve now) (List.append_assoc ..))
    rw [List.foldl_cons, hnext, ih, List.append_assoc, List.flatten_cons]

/-- A part of a request is kept whole. -/
theorem write_part (hi : l.input = []) {request : Request} {head : Bytes}
    (h : request.encode = .ok (head ++ tail)) (ht : tail ≠ []) :
    l.write now head = l.holding head := by
  rw [write, hi, List.nil_append]
  have hr := reading_of_part h ht
  obtain ⟨-, hpacket⟩ := Request.of_encode h
  cases head with
  | nil => exact serve_none rfl
  | cons start rest =>
    obtain rfl : requestStart = start := (List.cons.inj hpacket).1
    exact serve_wait rfl hr

/-- How a host cuts what it sends into writes makes no difference to the board. All that the board
is left with is the same: what waits for the host, whether it streams, the frames that are left,
the number of the next one, and the bytes that it has not handled. A part of a request that comes
when no bytes are kept is kept whole, the host reads what it would have read without it, and the
rest of the request then does what the whole request would have done. -/
theorem requests_in_pieces (l : BoardLine) (now : Instant) :
    (∀ pieces : List Bytes, pieces ≠ [] →
      pieces.foldl (fun l bytes => l.write now bytes) l = l.write now pieces.flatten) ∧
    (l.input = [] → ∀ (request : Request) (head tail : Bytes), tail ≠ [] →
      request.encode = .ok (head ++ tail) →
      l.write now head = { l with input := head } ∧
      ∀ (reads : List (Instant × Nat × Duration)) (later : Instant),
        ((l.write now head).readAll reads).1 = (l.readAll reads).1 ∧
        ((l.write now head).readAll reads).2.write later tail =
          (l.readAll reads).2.write later (head ++ tail)) := by
  refine ⟨fun pieces hp => ?_, fun hi request head tail ht h => ?_⟩
  · obtain ⟨piece, pieces, rfl⟩ := List.exists_cons_of_ne_nil hp
    exact foldl_write l now piece pieces
  · have hkept : l.write now head = l.holding head := write_part hi h ht
    refine ⟨hkept, fun reads later => ?_⟩
    rw [hkept, readAll_holding]
    refine ⟨rfl, ?_⟩
    rw [write_holding, write, input_readAll, hi, List.nil_append]

/-- A start in two writes between noise, and one that comes late behind a read: the board replies to
both, and streams from when it gets the rest. -/
theorem start_in_pieces :
    let l := opened { SimulatedBoard.default with frameCount := some 2 } 921600 0
    let request := Command.startAcquisition.request
    let reply := (SimulatedBoard.default.replyTo .startAcquisition).packet
    ([0x00 :: request.take 3, request.drop 3 ++ [0x55, 0x00]].foldl
        (fun l bytes => l.write 0 bytes) l).output = reply ∧
      l.write 0 (request.take 3) = { l with input := request.take 3 } ∧
      let later :=
        ((l.write 0 (request.take 3)).readAll [(0, 4096, 10)]).2.write 10 (request.drop 3)
      later.output = reply ∧ later.nextFrameAt = 10 ∧ later.input = [] := by
  intro l request reply
  have h := requests_in_pieces l 0
  obtain ⟨hkept, hlater⟩ := h.2 rfl ⟨.startAcquisition, []⟩ (request.take 3) (request.drop 3)
    (by decide +kernel) (by rw [List.take_append_drop]; exact encode_request .startAcquisition)
  refine ⟨(congrArg output (h.1 _ (List.cons_ne_nil _ _))).trans (by decide +kernel), hkept, ?_⟩
  rw [(hlater [(0, 4096, 10)] 10).2]
  decide +kernel

end BoardLine

end RadarHost
