import RadarHost.Proofs.Link.Damage
import RadarHost.Proofs.Link.Hearing

/-!
# Every frame once

The frames that a session is due to report are those of one stream: of the bytes that its reader
held and all that its reads gave, however many calls it took and whatever the calls came to. A call
takes the first of them or finds that there is none (`called_of_follows`), and what it leaves in the
reader is due to the calls after it. `frames_reported_once` says what that makes of any number of
calls, in any surroundings: at no moment has a frame been lost, repeated or put in another's place,
and a call that gives no frame leaves none that has been received.
-/

namespace RadarHost

open Dialogue

/-! ## Frame packets of a stream -/

namespace Packet

variable {limit : Nat} {buffer rest : Bytes}

/-- The frame packets in the framing of a stream, in order. -/
def frames (limit : Nat) (buffer : Bytes) : List (FrameHeader × Bytes) :=
  (framing limit buffer).packets.filterMap frame?

theorem frames_of_some {packet : FrameHeader × Bytes}
    (h : (takeUntil frame? limit buffer).taken = (some packet, rest)) :
    frames limit buffer = packet :: frames limit rest := by
  unfold frames
  rw [← map_fst_allWanted, ← map_fst_allWanted, allWanted_of_some h]
  rfl

theorem frames_of_none (h : (takeUntil frame? limit buffer).packet = none) :
    frames limit buffer = [] := by
  unfold frames
  rw [← map_fst_allWanted, allWanted_of_none (Prod.ext h rfl)]
  rfl

theorem frames_congr {other : Bytes}
    (h : (takeUntil frame? limit buffer).taken = (takeUntil frame? limit other).taken) :
    frames limit buffer = frames limit other := by
  unfold frames
  rw [← map_fst_allWanted, ← map_fst_allWanted, allWanted_congr h]

/-- A frame packet is as long as its header says. -/
theorem length_of_verdict_frame {held packet : Bytes} {header : FrameHeader} {size : Nat}
    (h : verdict limit held = .take (.frame header packet) size) :
    packet.length = header.packetLen := by
  unfold verdict at h
  split at h
  · split at h
    · cases h
    · cases h
    · split at h <;> cases h
  · split at h
    · cases h
    · cases h
    · split at h
      · cases h
      · rename_i hl
        cases h
        rw [List.length_take]
        omega

theorem length_of_mem_frames {header : FrameHeader} {packet : Bytes}
    (h : (header, packet) ∈ frames limit buffer) : packet.length = header.packetLen := by
  unfold frames at h
  rw [← map_fst_allWanted] at h
  obtain ⟨⟨_, rest⟩, h, rfl⟩ := List.mem_map.1 h
  obtain ⟨place, p, size, -, hv, hw, -⟩ := reaches_of_mem_allWanted h
  cases p with
  | reply packet => cases hw
  | frame header packet =>
    cases hw
    exact length_of_verdict_frame hv

end Packet

namespace Session

/-! ## Calls -/

/-- Reads frames with one timeout after the other. -/
def readAll (budget : Nat) : List Duration → Session →
    Dialogue (List (Except LinkError (Option Frame)) × Session)
  | [], s => return ([], s)
  | timeout :: timeouts, s => do
    let (result, s) ← s.readFrame budget timeout
    let (results, s) ← readAll budget timeouts s
    return (result :: results, s)

/-- The frame that a call gave, or what is wrong with it; nothing if there was none in time or the
line failed. -/
def reported? : Except LinkError (Option Frame) → Option (Except LinkError Frame)
  | .ok found => found.map .ok
  | .error (.packet e) => some (.error (.packet e))
  | .error (.transport _) => none

/-- The error of the line in a call. -/
def lineError? : Except LinkError (Option Frame) → Option TransportError
  | .error (.transport e) => some e
  | _ => none

/-- What is to be reported of a frame packet: the frame if the packet carries the checksum of all
that comes before, else that it does not. -/
def report (packet : FrameHeader × Bytes) : Except LinkError Frame :=
  let body := packet.2.take (packet.2.length - Packet.checksumSize)
  let carried := UInt16.ofNat (Bytes.toNat (packet.2.drop (packet.2.length - Packet.checksumSize)))
  if carried = checksum body then
    .ok ⟨packet.1.sequence, packet.1.flags, body.drop FrameHeader.size⟩
  else .error (.packet (.checksumMismatch carried (checksum body)))

theorem given_eq_report {header : FrameHeader} {packet : Bytes}
    (h : packet.length = header.packetLen) : given (header, packet) = report (header, packet) := by
  have hc : ¬ packet.length < Packet.checksumSize := by
    rw [h, FrameHeader.packetLen]
    omega
  unfold given report FrameHeader.payload Packet.checkedBody
  rw [if_neg (not_not.2 h), if_neg hc]
  dsimp only
  generalize UInt16.ofNat _ = carried, packet.take _ = body
  by_cases hs : carried = checksum body
  · rw [if_pos hs, if_pos hs]
    rfl
  · rw [if_neg hs, if_neg hs]
    rfl

/-- What is to be reported of a stream, in order. -/
def due (limit : Nat) (stream : Bytes) : List (Except LinkError Frame) :=
  (Packet.frames limit stream).map report

/-- What a call that heard some reads has made of a session. What it reported was due first, of the
stream that the reads go on with and whatever comes after them, and the rest is due still; and it
reported nothing only if nothing was due. -/
structure Called (s : Session) (line : Nat) (reads : List ReadAnswer)
    (result : Except LinkError (Option Frame)) (s' : Session) : Prop where
  line_eq : s'.line = some line
  limit_eq : s'.reader.limit = s.reader.limit
  due_eq : ∀ later, due s.reader.limit (s.reader.bytes ++ received reads ++ later) =
    (reported? result).toList ++ due s.reader.limit (s'.reader.bytes ++ later)
  due_nil : reported? result = none → due s.reader.limit s'.reader.bytes = []
  errors : reads.filterMap ReadAnswer.error? = (lineError? result).toList

section

variable {s s' : Session} {line budget : Nat} {timeout : Duration} {course : List Exchange}

theorem Called.of_taken {reads : List ReadAnswer} {header : FrameHeader} {packet : Bytes}
    {reader : PacketReader} {result : Except LinkError (Option Frame)}
    (h : Awaits Packet.frame? budget s.reader reads (.ok (.taken (header, packet), reader)))
    (hline : s'.line = some line) (hreader : s'.reader = reader)
    (hgiven : reported? result = some (given (header, packet)))
    (herror : lineError? result = none) : Called s line reads result s' := by
  subst hreader
  have hl (later : Bytes) := Wait.Facing.of_awaits (w := PacketReader.frameWait) later h
    ⟨rfl, rfl⟩
  refine ⟨hline, (hl []).1, fun later => ?_, fun hn => ?_, ?_⟩
  · have hframes := Packet.frames_of_some (hl later).2
    have hmem : (header, packet) ∈ Packet.frames _ _ := hframes ▸ List.mem_cons_self ..
    rw [due, List.append_assoc, hframes, hgiven, given_eq_report (Packet.length_of_mem_frames hmem)]
    rfl
  · cases hgiven.symm.trans hn
  · rw [h.filterMap_error?, herror]
    rfl

theorem Called.of_kept {reads : List ReadAnswer} {waited : Waited (FrameHeader × Bytes)}
    {reader : PacketReader} {result : Except LinkError (Option Frame)}
    (h : Awaits Packet.frame? budget s.reader reads (.ok (waited, reader)))
    (hw : ∀ packet, waited ≠ .taken packet) (hline : s'.line = some line)
    (hreader : s'.reader = reader) (hnone : reported? result = none)
    (herror : lineError? result = waited.error?) : Called s line reads result s' := by
  subst hreader
  have hl (later : Bytes) : PacketReader.frameWait.Facing s.reader.limit
      (s.reader.bytes ++ (received reads ++ later)) s'.reader later ∧
        (Packet.takeUntil Packet.frame? s.reader.limit s'.reader.bytes).packet = none := by
    have hleft := Wait.Facing.of_awaits (w := PacketReader.frameWait) later h ⟨rfl, rfl⟩
    cases waited with
    | taken packet => exact absurd rfl (hw packet)
    | late => exact hleft
    | failed error => exact hleft
  refine ⟨hline, (hl []).1.limit_eq, fun later => ?_, fun _ => ?_, ?_⟩
  · rw [due, List.append_assoc, hnone, ← Packet.frames_congr (hl later).1.taken_eq]
    rfl
  · rw [due, Packet.frames_of_none (hl []).2]
    rfl
  · rw [h.filterMap_error?, herror]
    rfl

/-- What a call comes to, told by what it hears. -/
def CallEnds (s : Session) (line budget : Nat) (reads : List ReadAnswer) :
    Ending (Except LinkError (Option Frame) × Session) → Prop
  | .ok (result, s') => Called s line reads result s'
  | .error why => why.ShownBy budget reads

/-- What a call makes of what its wait finds: a packet is given as a frame or as an error, and
nothing of the session changes but its reader and the last number. -/
inductive CallMakes (s : Session) : Ending (Waited (FrameHeader × Bytes) × PacketReader) →
    Ending (Except LinkError (Option Frame) × Session) → Prop
  | broken (why : Breakdown) : CallMakes s (.error why) (.error why)
  | given {packet : FrameHeader × Bytes} {reader : PacketReader}
    {result : Except LinkError (Option Frame)} (lastSequence : Option UInt32)
    (hg : reported? result = some (given packet)) :
    CallMakes s (.ok (.taken packet, reader)) (.ok (result, { s with reader, lastSequence }))
  | late (reader : PacketReader) :
    CallMakes s (.ok (.late, reader)) (.ok (.ok none, { s with reader }))
  | failed (error : TransportError) (reader : PacketReader) :
    CallMakes s (.ok (.failed error, reader)) (.ok (.error (.transport error), { s with reader }))

/-- A call comes to what its reads make of its wait. -/
theorem callMakes_of_follows {e : Ending (Except LinkError (Option Frame) × Session)}
    (hl : s.line = some line) (h : Follows (s.readFrame budget timeout) course e) :
    ∃ m, Awaits Packet.frame? budget s.reader (reads course) m ∧ CallMakes s m e := by
  cases s
  cases hl
  rcases Follows.of_bind (d := PacketReader.nextFrame budget line timeout _) h with
    ⟨why, hn, rfl⟩ | ⟨⟨found, reader⟩, first, rest, rfl, hn, hr⟩
  · obtain ⟨m, ha, he⟩ := PacketReader.follows_nextFrame hn
    cases m with
    | error why' =>
      cases he
      exact ⟨_, ha, .broken why⟩
    | ok x => cases he
  · obtain ⟨m, ha, he⟩ := PacketReader.follows_nextFrame hn
    rcases m with why | ⟨⟨header, packet⟩ | _ | error, reader⟩
    · cases he
    · cases he
      dsimp only [PacketReader.frameWait, Wait.result] at hr
      cases hp : header.payload packet with
      | error e =>
        rw [hp] at hr
        obtain ⟨rfl, rfl⟩ := Follows.of_done hr
        rw [List.append_nil]
        refine ⟨_, ha, .given _ ?_⟩
        simp only [reported?, Session.given, hp]
      | ok payload =>
        rw [hp] at hr
        rcases Follows.of_bind (d := reportAll _) hr with ⟨why, hg, -⟩ | ⟨_, gaps, _, rfl, hg, hd⟩
        · cases (Follows.of_reportAll hg).2
        obtain ⟨-, hreads, -⟩ := hg.heard_of_reportAll
        obtain ⟨rfl, rfl⟩ := Follows.of_done hd
        rw [List.append_nil, reads_append, hreads, List.append_nil]
        refine ⟨_, ha, .given (some header.sequence) ?_⟩
        simp only [reported?, Session.given, hp, Option.map_some]
    · cases he
      obtain ⟨rfl, rfl⟩ := Follows.of_done hr
      rw [List.append_nil]
      exact ⟨_, ha, .late reader⟩
    · cases he
      obtain ⟨rfl, rfl⟩ := Follows.of_done hr
      rw [List.append_nil]
      exact ⟨_, ha, .failed error reader⟩

theorem lineError?_of_reported? {result : Except LinkError (Option Frame)}
    {given : Except LinkError Frame} (h : reported? result = some given) :
    lineError? result = none := by
  rcases result with (_ | _) | _ | _
  · cases h
  all_goals rfl

theorem eq_of_lineError? {result : Except LinkError (Option Frame)} {error : TransportError}
    (h : lineError? result = some error) : result = .error (.transport error) := by
  rcases result with (_ | _) | _ | _
  all_goals cases h
  rfl

/-- A call takes the first frame that is due, or finds that none is. -/
theorem called_of_follows {e : Ending (Except LinkError (Option Frame) × Session)}
    (hl : s.line = some line) (h : Follows (s.readFrame budget timeout) course e) :
    CallEnds s line budget (reads course) e := by
  obtain ⟨m, ha, hm⟩ := callMakes_of_follows hl h
  cases hm with
  | broken why => exact ha.shownBy
  | given lastSequence hg => exact .of_taken ha hl rfl hg (lineError?_of_reported? hg)
  | late reader => exact .of_kept ha nofun hl rfl rfl rfl
  | failed error reader => exact .of_kept ha nofun hl rfl rfl rfl

end

/-! ## Any number of calls -/

/-- Some calls made one after the other, each with what its reads gave and its result, and what they
make of a session. -/
inductive Calls (line : Nat) :
    Session → List (List ReadAnswer × Except LinkError (Option Frame)) → Session → Prop
  | nil {s : Session} : Calls line s [] s
  | cons {s s₁ s' : Session} {reads : List ReadAnswer}
    {result : Except LinkError (Option Frame)}
    {calls : List (List ReadAnswer × Except LinkError (Option Frame))}
    (h : Called s line reads result s₁) (hs : Calls line s₁ calls s') :
    Calls line s ((reads, result) :: calls) s'

/-- The bytes that arrived in the course of some calls. -/
def arrived (calls : List (List ReadAnswer × Except LinkError (Option Frame))) : Bytes :=
  received (calls.flatMap Prod.fst)

/-- What some calls reported, in order. -/
def reports (calls : List (List ReadAnswer × Except LinkError (Option Frame))) :
    List (Except LinkError Frame) := calls.filterMap (reported? ·.2)

section

variable {s s' : Session} {line budget : Nat} {timeouts : List Duration} {course : List Exchange}
  {calls earlier : List (List ReadAnswer × Except LinkError (Option Frame))}

theorem Calls.upTo (h : Calls line s calls s') (he : earlier <+: calls) :
    ∃ s₁, Calls line s earlier s₁ := by
  induction h generalizing earlier with
  | nil =>
    rw [List.prefix_nil.1 he]
    exact ⟨_, .nil⟩
  | cons hc hs ih =>
    cases earlier with
    | nil => exact ⟨_, .nil⟩
    | cons call earlier =>
      obtain ⟨rfl, htail⟩ := List.cons_prefix_cons.1 he
      obtain ⟨s₁, h₁⟩ := ih htail
      exact ⟨s₁, .cons hc h₁⟩

/-- What was due is what has been reported, and then what is due still. -/
theorem Calls.due_eq (h : Calls line s calls s') (later : Bytes) :
    due s.reader.limit (s.reader.bytes ++ arrived calls ++ later) =
      reports calls ++ due s.reader.limit (s'.reader.bytes ++ later) := by
  induction h with
  | nil =>
    rw [arrived, List.flatMap_nil]
    simp only [received, List.flatMap_nil, List.append_nil]
    rfl
  | @cons s s₁ s' reads result calls hc hs ih =>
    have ha : arrived ((reads, result) :: calls) = received reads ++ arrived calls := by
      simp only [arrived, received, List.flatMap_cons, List.flatMap_append]
    have hr : reports ((reads, result) :: calls) = (reported? result).toList ++ reports calls := by
      unfold reports
      rw [List.filterMap_cons]
      cases reported? result <;> rfl
    rw [ha, hr, ← List.append_assoc, List.append_assoc _ _ later, hc.due_eq, List.append_assoc,
      ← hc.limit_eq, ← ih, List.append_assoc]

/-- After a call that reported nothing, nothing is due. -/
theorem Calls.due_nil (h : Calls line s calls s')
    {call : List ReadAnswer × Except LinkError (Option Frame)} (hlast : calls.getLast? = some call)
    (hnone : reported? call.2 = none) : due s.reader.limit s'.reader.bytes = [] := by
  induction h with
  | nil => cases hlast
  | @cons s s₁ s' reads result calls hc hs ih =>
    cases hs with
    | nil =>
      cases hlast
      exact hc.due_nil hnone
    | cons hc' hs =>
      rw [← hc.limit_eq]
      exact ih (by rwa [List.getLast?_cons_cons] at hlast)

theorem Calls.errors (h : Calls line s calls s') :
    ∀ call ∈ calls, call.1.filterMap ReadAnswer.error? = (lineError? call.2).toList := by
  induction h with
  | nil => exact List.forall_mem_nil _
  | cons hc hs ih => exact List.forall_mem_cons.2 ⟨hc.errors, ih⟩

/-- What some calls come to, told by what they hear. -/
def CallsEnd (s : Session) (line budget calls : Nat) (reads : List ReadAnswer) :
    Ending (List (Except LinkError (Option Frame)) × Session) → Prop
  | .ok (results, s') =>
    ∃ made, Calls line s made s' ∧ made.length = calls ∧ made.map Prod.snd = results ∧
      made.flatMap Prod.fst = reads
  | .error why => why.ShownBy budget reads

theorem calls_of_follows {e : Ending (List (Except LinkError (Option Frame)) × Session)}
    (hl : s.line = some line) (h : Follows (readAll budget timeouts s) course e) :
    CallsEnd s line budget timeouts.length (reads course) e := by
  induction timeouts generalizing s course e with
  | nil =>
    obtain ⟨rfl, rfl⟩ := Follows.of_done h
    exact ⟨[], .nil, rfl, rfl, rfl⟩
  | cons timeout timeouts ih =>
    rcases Follows.of_bind (d := s.readFrame budget timeout) h with
      ⟨why, hc, rfl⟩ | ⟨⟨result, s₁⟩, first, rest, rfl, hc, hr⟩
    · exact called_of_follows hl hc
    · have hc : Called s line (reads first) result s₁ := called_of_follows hl hc
      rw [reads_append]
      rcases Follows.of_bind (d := readAll budget timeouts s₁) hr with
        ⟨why, hs, rfl⟩ | ⟨⟨results, s'⟩, rest, _, rfl, hs, hd⟩
      · exact (ih hc.line_eq hs : why.ShownBy _ _).append_left _
      · obtain ⟨made, hm, hlen, hresults, hreads⟩ := ih hc.line_eq hs
        obtain ⟨rfl, rfl⟩ := Follows.of_done hd
        rw [List.append_nil]
        exact ⟨_, .cons hc hm, congrArg Nat.succ hlen, congrArg (result :: ·) hresults,
          congrArg (reads first ++ ·) hreads⟩

end

/-- Whatever its surroundings answer, an open session that reads frames time and again reports those
of one stream: of the bytes that its reader held, followed by those that its reads have given. At
every moment between the calls the reports are, in order, a beginning of what is due of that stream,
whatever comes after it; and when the last call reported nothing, because nothing came in time or a
read failed, they are all that is due of it. A call gives an error of the line exactly if one of its
reads failed with it. The calls break off only where a read crashed, or with as many reads as one
call may make. -/
theorem frames_reported_once {σ : Type} (answer : Surroundings σ) (world : σ) {s : Session}
    {line : Nat} (hl : s.line = some line) (budget : Nat) (timeouts : List Duration) :
    let heard := reads ((readAll budget timeouts s).course answer world)
    match ((readAll budget timeouts s).run answer world).1 with
    | .ok (results, _) =>
      ∃ calls, calls.length = timeouts.length ∧ calls.map Prod.snd = results ∧
        calls.flatMap Prod.fst = heard ∧
        (∀ earlier, earlier <+: calls →
          let stream := s.reader.bytes ++ arrived earlier
          (∀ later, reports earlier <+: due s.reader.limit (stream ++ later)) ∧
            ∀ call, earlier.getLast? = some call → reported? call.2 = none →
              reports earlier = due s.reader.limit stream) ∧
        ∀ call ∈ calls, call.1.filterMap ReadAnswer.error? = (lineError? call.2).toList
    | .error why => why.ShownBy budget heard := by
  intro heard
  have hends := calls_of_follows hl (follows_course answer (readAll budget timeouts s) world)
  generalize ((readAll budget timeouts s).run answer world).1 = e at hends
  cases e with
  | error why => exact hends
  | ok r =>
    obtain ⟨calls, hcalls, hlen, hresults, hheard⟩ := hends
    refine ⟨calls, hlen, hresults, hheard, fun earlier he => ?_, hcalls.errors⟩
    obtain ⟨s₁, h₁⟩ := hcalls.upTo he
    refine ⟨fun later => ?_, fun call hlast hnone => ?_⟩
    · rw [h₁.due_eq later]
      exact List.prefix_append ..
    · have hdue := h₁.due_eq []
      rw [List.append_nil, List.append_nil, h₁.due_nil hlast hnone, List.append_nil] at hdue
      exact hdue.symm

/-- Two frames with a damaged packet between them, in three pieces that end inside of packets: four
calls give the first frame, the error, the other frame and nothing. -/
theorem frames_reported_once_in_pieces :
    let f₀ : Frame := ⟨0, 0, [7]⟩
    let damaged : Bytes := [3, 0, 1, 0, 0, 0, 0, 0, 0, 0, 0, 0]
    let f₂ : Frame := ⟨2, 1, []⟩
    let pieces := [f₀.packet.take 5, f₀.packet.drop 5 ++ damaged ++ f₂.packet.take 3,
      f₂.packet.drop 3]
    onBench.line = some 0 ∧
      ∃ calls s', ((readAll 9 [1, 1, 1, 1] onBench).run Bench.answer (Bench.playing pieces)).1 =
          .ok (calls.map Prod.snd, s') ∧
        reports calls = [.ok f₀, .error (.packet (.checksumMismatch 0 5925)), .ok f₂] ∧
        reports calls = due Packet.maxFramePayload (arrived calls) := by
  intro f₀ damaged f₂ pieces
  have hline : onBench.line = some 0 := rfl
  have hall := frames_reported_once Bench.answer (Bench.playing pieces) hline 9 [1, 1, 1, 1]
  have hresults : (((readAll 9 [1, 1, 1, 1] onBench).run Bench.answer
      (Bench.playing pieces)).1.map Prod.fst) =
        .ok [.ok (some f₀), .error (.packet (.checksumMismatch 0 5925)), .ok (some f₂),
          .ok none] := by decide +kernel
  dsimp only at hall
  generalize ((readAll 9 [1, 1, 1, 1] onBench).run Bench.answer (Bench.playing pieces)).1 = e
    at hall hresults ⊢
  cases e with
  | error why => cases hresults
  | ok r =>
    obtain ⟨results, s'⟩ := r
    obtain ⟨calls, -, rfl, -, hfaithful, -⟩ := hall
    have hresults : calls.map Prod.snd = _ := Except.ok.inj hresults
    refine ⟨hline, calls, s', rfl, ?_, ?_⟩
    · show calls.filterMap (reported? ∘ Prod.snd) = _
      rw [← List.filterMap_map, hresults]
      rfl
    · have hlast : (calls.getLast?.map Prod.snd) = some (.ok none) := by
        rw [← List.getLast?_map, hresults]
        rfl
      obtain ⟨call, hcall, hnone⟩ := Option.map_eq_some_iff.1 hlast
      exact (hfaithful calls (List.prefix_refl _)).2 call hcall (by rw [hnone]; rfl)

end Session

end RadarHost
