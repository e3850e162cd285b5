import RadarHost.Proofs.Bench.Delivery
import RadarHost.Proofs.Packet.Resync

/-!
# Frames after a damaged one

A session that reads frames time and again gives back, in order, every frame packet that a reader
takes off the stream, whatever pieces the stream comes in (`ends_readFrames`). With one packet
damaged these are the packets before it, and after it those that the reader is in step with:
`others_returned_iff` says that all of the others are returned if and only if the damage brings the
reader to the packet after it. Damage that does not costs more than the packet that it is done to
(`next_frame_lost`): a header is believed before its packet is known to be intact, and the packet
that it announces may end inside the next one.
-/

namespace RadarHost

open Dialogue Packet

namespace Session

/-- Reads frames time and again. -/
def readFrames (budget : Nat) (timeout : Duration) : (calls : Nat) → Session →
    Dialogue (List (Except LinkError (Option Frame)) × Session)
  | 0, s => return ([], s)
  | calls + 1, s => do
    let (result, s) ← s.readFrame budget timeout
    let (results, s) ← readFrames budget timeout calls s
    return (result :: results, s)

/-- The frame or the error that a call gave, unless it found nothing in time. -/
def given? : Except LinkError (Option Frame) → Option (Except LinkError Frame)
  | .ok found => found.map .ok
  | .error e => some (.error e)

/-- What a call gives for a frame packet. -/
def given (packet : FrameHeader × Bytes) : Except LinkError Frame :=
  match packet.1.payload packet.2 with
  | .ok payload => .ok ⟨packet.1.sequence, packet.1.flags, payload⟩
  | .error e => .error (.packet e)

theorem given_packet {limit : Nat} {f : Frame} (h : f.Fits limit) :
    given (f.header, f.packet) = .ok f := by
  unfold given
  rw [Frame.payload_packet h]
  rfl

theorem given_placed {limit : Nat} {fs : List Frame} (h : ∀ f ∈ fs, f.Fits limit)
    (later : Bytes) : (placed fs later).map (given ·.1) = fs.map .ok := by
  induction fs with
  | nil => rfl
  | cons f fs ih =>
    obtain ⟨hf, hfs⟩ := List.forall_mem_cons.1 h
    show given (f.header, f.packet) :: _ = _
    rw [given_packet hf, ih hfs]
    rfl

section

variable {σ : Type} {answer : Surroundings σ} {line : Nat} {At : Nat → Bytes → Instant → σ → Prop}
  {limit n budget calls : Nat} {ahead : List ((FrameHeader × Bytes) × Bytes)} {timeout : Duration}

/-- An open session with the frame packets that it has ahead and the reads after which it has them
all. -/
structure Facing (line : Nat) (At : Nat → Bytes → Instant → σ → Prop) (limit n : Nat)
    (ahead : List ((FrameHeader × Bytes) × Bytes)) (s : Session) (world : σ) : Prop where
  line_eq : s.line = some line
  limit_eq : s.reader.limit = limit
  there : ∃ rest t, At n rest t world ∧ allWanted frame? limit (s.reader.bytes ++ rest) = ahead

/-- What a call leaves: it gave the first packet ahead, or it gave nothing and there are fewer reads
left. -/
inductive AfterRead (line : Nat) (At : Nat → Bytes → Instant → σ → Prop) (limit n : Nat) :
    List ((FrameHeader × Bytes) × Bytes) → Except LinkError (Option Frame) × Session → σ → Prop
  | given {packet : (FrameHeader × Bytes) × Bytes} {ahead : List ((FrameHeader × Bytes) × Bytes)}
    {result : Except LinkError (Option Frame)} {s : Session} {world : σ} {m : Nat} (reads : m ≤ n)
    (result_eq : given? result = some (given packet.1))
    (facing : Facing line At limit m ahead s world) :
    AfterRead line At limit n (packet :: ahead) (result, s) world
  | nothing {ahead : List ((FrameHeader × Bytes) × Bytes)} {s : Session} {world : σ} {m : Nat}
    (reads : m ≤ n - 1) (last : m = 0 → ahead = [])
    (facing : Facing line At limit m ahead s world) :
    AfterRead line At limit n ahead (.ok none, s) world

theorem ends_readFrame (hd : Delivers answer line At) (ht : 0 < timeout) {s : Session} {world : σ}
    (hf : Facing line At limit n ahead s world) (hb : n + 2 ≤ budget) :
    Ends answer (AfterRead line At limit n ahead) (s.readFrame budget timeout) world := by
  obtain ⟨hl, rfl, rest, t, there, rfl⟩ := hf
  unfold readFrame
  rw [hl]
  refine (PacketReader.ends_nextFrame hd there hb).bind ?_
  rintro _ world (⟨there, reads, same, next⟩ | ⟨there, reads, facing, none⟩)
  · rename_i rest' t' packet reader
    rw [show allWanted frame? _ _ = _ from allWanted_of_some next]
    obtain ⟨header, packet⟩ := packet
    dsimp only [PacketReader.frameWait]
    cases hp : header.payload packet with
    | error e =>
      have hg : given? (.error (.packet e)) = some (given (header, packet)) := by
        simp only [given?, given, hp]
      exact Ends.done (.given reads hg ⟨rfl, same, _, _, there, rfl⟩)
    | ok payload =>
      have hg : given? (.ok (some ⟨header.sequence, header.flags, payload⟩)) =
          some (given (header, packet)) := by
        simp only [given?, given, hp, Option.map_some]
      refine (hd.reportAll _ there).bind fun _ world there => ?_
      exact Ends.done (.given reads hg ⟨rfl, same, _, _, there, rfl⟩)
  · refine Ends.done (.nothing (reads (Instant.lt_deadlineAfter ht t)) ?_
      ⟨rfl, facing.limit_eq, _, _, there, allWanted_congr facing.taken_eq⟩)
    rintro rfl
    obtain ⟨rfl, -⟩ := hd.readLast 0 there
    exact allWanted_of_none (Prod.ext (facing.none_of_nil none) rfl)

/-- Enough calls give every frame packet ahead, and leave nothing. -/
theorem ends_readFrames (hd : Delivers answer line At) (ht : 0 < timeout) {s : Session}
    {world : σ} (hf : Facing line At limit n ahead s world) (hb : n + 2 ≤ budget)
    (hc : n + ahead.length ≤ calls) :
    Ends answer
      (fun r world => r.1.filterMap given? = ahead.map (given ·.1) ∧
        Facing line At limit 0 [] r.2 world)
      (readFrames budget timeout calls s) world := by
  induction calls generalizing n ahead s world with
  | zero =>
    obtain rfl : n = 0 := by omega
    obtain rfl := List.length_eq_zero_iff.1 (show ahead.length = 0 by omega)
    exact Ends.done ⟨rfl, hf⟩
  | succ calls ih =>
    refine (ends_readFrame hd ht hf hb).bind ?_
    rintro _ world (⟨reads, result_eq, facing⟩ | ⟨reads, last, facing⟩)
    · rw [List.length_cons] at hc
      refine (ih facing (by omega) (by omega)).bind fun r world h => Ends.done ⟨?_, h.2⟩
      rw [List.filterMap_cons, result_eq, h.1]
      rfl
    · rename_i s m
      have hcalls : m + ahead.length ≤ calls := by
        rcases Nat.eq_zero_or_pos m with rfl | hm
        · rw [last rfl]
          exact Nat.zero_le _
        · omega
      exact (ih facing (by omega) hcalls).bind fun r world h => Ends.done h

end

/-! ## One packet damaged -/

section

variable {σ : Type} {answer : Surroundings σ} {line : Nat} {At : Nat → Bytes → Instant → σ → Prop}
  {n budget calls : Nat} {timeout : Duration}

/-- Of a stream of intact frame packets with one that is damaged, in whatever pieces it is
delivered, a session that reads until nothing is left gets the frames before the damage, and then
what is found from the damage on. The packets after the damage are all found there, at their
places, if and only if there are none or the damage brings the reader to the first of them. -/
theorem others_returned_iff (hd : Delivers answer line At) (ht : 0 < timeout)
    {before after : List Frame} {damaged rest : Bytes} {t : Instant} {s : Session} {world : σ}
    (hl : s.line = some line) (there : At n rest t world)
    (hstream : s.reader.bytes ++ rest = stream before ++ (damaged ++ stream after))
    (hfit : ∀ f ∈ before ++ after, f.Fits s.reader.limit) (hb : n + 2 ≤ budget)
    (hc : n + (s.reader.bytes ++ rest).length ≤ calls) :
    ∃ results s' world',
      (readFrames budget timeout calls s).run answer world = (.ok (results, s'), world') ∧
      Facing line At s.reader.limit 0 [] s' world' ∧
      let found := allWanted frame? s.reader.limit (damaged ++ stream after)
      let inStep := after = [] ∨ InStep s.reader.limit damaged (stream after)
      results.filterMap given? = before.map .ok ++ found.map (given ·.1) ∧
        ((placed after []).Sublist found ↔ inStep) ∧
        (inStep → ((before ++ after).map .ok).Sublist (results.filterMap given?)) := by
  obtain ⟨hbefore, hafter⟩ := List.forall_mem_append.1 hfit
  have hahead := allWanted_stream hbefore (damaged ++ stream after)
  rw [← hstream] at hahead
  have hcalls := length_allWanted_le frame? s.reader.limit (s.reader.bytes ++ rest)
  obtain ⟨⟨results, s'⟩, world', hrun, hgiven, hleft⟩ := ends_readFrames hd ht
    ⟨hl, rfl, rest, t, there, rfl⟩ hb (le_trans (Nat.add_le_add_left hcalls n) hc)
  rw [hahead, List.map_append, given_placed hbefore] at hgiven
  refine ⟨results, s', world', hrun, hleft, hgiven, placed_sublist_iff hafter, fun hin => ?_⟩
  have hsub := ((placed_sublist_iff hafter).2 hin).map (given ·.1)
  rw [given_placed hafter] at hsub
  rw [show results.filterMap given? = _ from hgiven, List.map_append]
  exact (List.Sublist.refl _).append hsub

end

/-- An open session on the first line of a bench. -/
def onBench : Session where
  line := some 0
  identifier := "p0"
  baudRate := 921600
  info := ⟨0x058B, 0x0251, 3, ⟨2, 5, 1042⟩⟩
  descriptor := ⟨0x058B, 0x0251, "Radar Baseboard MCU7"⟩
  reader := .empty maxFramePayload
  commandTimeout := Duration.ofMillis 200
  lastSequence := none

/-- The byte of a payload is turned over, and the checksum lost: the frames before and after are
returned. -/
theorem others_returned_payload_damaged :
    let f₀ : Frame := ⟨0, 0, []⟩
    let damaged : Bytes := [3, 0, 1, 0, 0, 0, 1, 0, 0, 0, 8, 0, 0]
    let f₂ : Frame := ⟨2, 0, [9]⟩
    InStep maxFramePayload damaged (stream [f₂]) ∧
      ∃ results s' world',
        (readFrames 43 1 79 onBench).run Bench.answer
          (Bench.playing [f₀.packet, damaged, f₂.packet]) = (.ok (results, s'), world') ∧
        [.ok f₀, .ok f₂].Sublist (results.filterMap given?) := by
  intro f₀ damaged f₂
  have hfit : ∀ f ∈ [f₀] ++ [f₂], f.Fits onBench.reader.limit := by
    simp [f₀, f₂, Frame.Fits, onBench, FrameHeader.maxPayload, PacketReader.empty,
      PacketReader.ofBytes, maxFramePayload]
  have hin : InStep onBench.reader.limit damaged (stream [f₂]) :=
    inStep_of_parse (hfit f₂ (by simp)) []
      (show FrameHeader.parse damaged onBench.reader.limit = .ok ⟨0, 1, 1⟩ by decide) rfl
  obtain ⟨results, s', world', hrun, -, -, -, hsub⟩ :=
    others_returned_iff (Bench.delivers_script 0) (by decide : 0 < 1) (s := onBench) rfl
      (Bench.atScript_playing [f₀.packet, damaged, f₂.packet])
      (show _ = stream [f₀] ++ (damaged ++ stream [f₂]) from rfl) hfit
      (by decide : _ ≤ 43) (by decide : _ ≤ 79)
  exact ⟨hin, results, s', world', hrun, hsub (.inr hin)⟩

/-- A length field is damaged so that the header announces as many bytes more as the next packet
has: the next frame is lost with the damaged one. -/
theorem next_frame_lost :
    let f₀ : Frame := ⟨0, 0, []⟩
    let f₁ : Frame := ⟨1, 0, []⟩
    let damaged : Bytes := [3, 0, 1, 0, 0, 0, 12, 0, 0, 0, 0x25, 0x17]
    let f₂ : Frame := ⟨2, 0, []⟩
    let f₃ : Frame := ⟨3, 0, []⟩
    damaged.length = f₁.packet.length ∧
      ∃ results s' world',
        (readFrames 54 1 100 onBench).run Bench.answer
          (Bench.playing [f₀.packet, damaged, f₂.packet, f₃.packet]) =
            (.ok (results, s'), world') ∧
        Facing 0 (Bench.AtScript 0) maxFramePayload 0 [] s' world' ∧
        results.filterMap given? =
          [.ok f₀, .error (.packet (.checksumMismatch 0xDF50 0xAFD0)), .ok f₃] ∧
        ¬ [.ok f₀, .ok f₂, .ok f₃].Sublist (results.filterMap given?) := by
  intro f₀ f₁ damaged f₂ f₃
  have h₀ : ∀ f ∈ [f₀], f.Fits maxFramePayload := by simp [f₀, Frame.Fits]
  have h₃ : ∀ f ∈ [f₃], f.Fits maxFramePayload := by simp [f₃, Frame.Fits]
  -- from the damage on: what the header announces ends with the next packet
  have hp : FrameHeader.parse (damaged ++ stream [f₂, f₃]) maxFramePayload = .ok ⟨0, 1, 12⟩ := rfl
  have hv := verdict_of_parse hp (by decide)
  have hrest : (damaged ++ stream [f₂, f₃]).drop 24 = stream [f₃] ++ [] := rfl
  have hlost : allWanted frame? maxFramePayload (damaged ++ stream [f₂, f₃]) =
      ((⟨0, 1, 12⟩, damaged ++ f₂.packet), f₃.packet) :: placed [f₃] [] := by
    rw [allWanted_of_packet (taken_of_verdict hv)]
    show _ :: allWanted frame? maxFramePayload ((damaged ++ stream [f₂, f₃]).drop 24) = _
    rw [hrest, allWanted_stream h₃, allWanted_of_none (wanted_of_none (taken_of_noise rfl))]
    rfl
  have hahead : allWanted frame? maxFramePayload
      (onBench.reader.bytes ++ [f₀.packet, damaged, f₂.packet, f₃.packet].flatten) =
        placed [f₀] (damaged ++ stream [f₂, f₃]) ++
          ((⟨0, 1, 12⟩, damaged ++ f₂.packet), f₃.packet) :: placed [f₃] [] := by
    rw [← hlost, ← allWanted_stream h₀]
    rfl
  obtain ⟨⟨results, s'⟩, world', hrun, hgiven, hleft⟩ :=
    ends_readFrames (Bench.delivers_script 0) (by decide : 0 < 1) (s := onBench)
      ⟨rfl, rfl, _, _, Bench.atScript_playing [f₀.packet, damaged, f₂.packet, f₃.packet], hahead⟩
      (by decide : _ ≤ 54) (by decide : _ ≤ 100)
  have hgiven : results.filterMap given? =
      [.ok f₀, .error (.packet (.checksumMismatch 0xDF50 0xAFD0)), .ok f₃] := by
    rw [hgiven]
    decide +kernel
  refine ⟨rfl, results, s', world', hrun, hleft, hgiven, ?_⟩
  rw [hgiven]
  decide

end Session

end RadarHost
