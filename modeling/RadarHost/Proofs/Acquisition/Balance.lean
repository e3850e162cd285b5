import RadarHost.Proofs.Acquisition.Progress
import RadarHost.Proofs.Link.Damage
import RadarHost.Proofs.Packet.RoundTrip

/-!
# Every frame accounted for

The producer, the queue that it shares with others and the counts agree on what became of every
frame packet that has been taken off the line (`Accounted`), at whatever moment the producer is
asked to stop or its line fails, and however others stop and start the queue meanwhile:
`every_frame_accounted`. That the line fails ends the producer if and only if its calls have some
time; one whose calls have none never reads its line, and goes on (`failure_not_noticed`).
-/

namespace RadarHost

open Dialogue

namespace Acquisition

/-- Of some packets, the queue was offered every frame that carries the right checksum, in order,
and accepted just those that it was offered while it ran; they are counted as received and the
others as rejected, and the frame packets that do not carry the right checksum as corrupt. -/
structure Accounted (consumers : Consumers Frame) (packets : List Packet) (shared : Shared) :
    Prop where
  queue_eq : shared.consumers = consumers.steps shared.record
  offered : (consumers.offered shared.record).map Prod.fst = intact packets
  accepted : (consumers.ledger shared.record).accepted =
    ((consumers.offered shared.record).filter Prod.snd).map Prod.fst
  received : shared.counts.framesReceived = (consumers.ledger shared.record).accepted.length
  intact : shared.counts.framesReceived + shared.counts.framesRejected = (intact packets).length
  corrupt : shared.counts.framesCorrupt = damaged packets

variable {s s' : Session} {packets : List Packet} {course : List Exchange}
  {consumers : Consumers Frame} {shared : Shared}

/-- What the course of a producer accounts for, the queue and the counts account for. -/
theorem Produced.accounted (hp : Produced s packets course s')
    (ha : Along (.ofConsumers consumers) course shared) : Accounted consumers packets shared := by
  obtain ⟨hconsumers, hoffered⟩ := ha.consumers_eq
  have hcounts := ha.counts_eq
  rw [AcquisitionStats.foldl_tally] at hcounts
  have hintact : (offers course).map Prod.fst = intact packets := hp.accounts.offered_eq
  have hreceived : shared.counts.framesReceived = (offers course).countP Prod.snd := by
    rw [hcounts, ← hp.accounts.received_eq]
    exact Nat.zero_add _
  have hrejected : shared.counts.framesRejected = (offers course).countP (!·.2) := by
    rw [hcounts, ← hp.accounts.rejected_eq]
    exact Nat.zero_add _
  refine ⟨hconsumers, hoffered ▸ hintact, Consumers.accepted_ledger consumers shared.record,
    ha.received_eq hp.accounts.received_eq, ?_, ?_⟩
  · have hsum := List.length_eq_countP_add_countP Prod.snd (l := offers course)
    rw [hreceived, hrejected, ← hintact, List.length_map, hsum]
    simp
  · rw [hcounts]
    exact (Nat.zero_add _).trans hp.accounts.corrupt_eq

/-- A producer that has stopped the queue leaves it stopped. -/
theorem Halted.queue_stopped (h : Halted s packets course s')
    (ha : Along (.ofConsumers consumers) course shared) (hs : ⟨.stopQueue, ()⟩ ∈ course) :
    shared.consumers.queue.running = false := by
  cases h with
  | stopped calm =>
    rcases List.mem_append.1 hs with hs | hs
    · exact (calm _ hs).elim
    · cases List.mem_singleton.1 hs
  | @failed _ earlier _ _ line error =>
    have hlast : parting line s.identifier error = [⟨.report (.transportFailed s.identifier error),
      ()⟩, ⟨.close line, ()⟩, ⟨.report (.sessionClosed s.identifier), ()⟩] ++ [⟨.stopQueue, ()⟩] :=
      rfl
    rw [hlast, ← List.append_assoc] at ha
    exact ha.stopped
  | closed =>
    have ha : Along _ ([⟨.stopRequested, false⟩, ⟨.report (.transportFailed s.identifier .closed),
      ()⟩] ++ [⟨.stopQueue, ()⟩]) shared := ha
    exact ha.stopped

/-- Whatever its line gives, and whatever others do to the queue meanwhile, a producer that comes to
its end has taken some packets off what its reader held and its line gave, in order, and accounts
for the frame packets among them; every byte behind them is in the reader that it gives back. It
ends where it is asked to stop, with its line still open, or else where its line fails: then it has
taken all packets, and has closed its session and stopped the queue, and nothing after that. It
breaks off only where a read crashed, or with as many reads or turns as it may make.

A producer whose line fails in the end, and which is not asked to stop, does come to its end if its
calls have some time. If they have none, it makes as many turns as it may, without ever reading its
line or stopping the queue. -/
theorem every_frame_accounted {σ : Type} (answer : Surroundings σ) (others : Others σ) (world : σ)
    (consumers : Consumers Frame) (budget : Nat) (readTimeout : Duration) (s : Session) :
    let start := (world, Shared.ofConsumers consumers)
    let course := (produce budget readTimeout s).course (beside answer others) start
    let r := (produce budget readTimeout s).run (beside answer others) start
    (match r.1 with
      | .ok s' =>
        ∃ packets,
          Packet.Took s.reader.limit (s.reader.bytes ++ received (reads course)) packets
            s'.reader.bytes ∧
          Accounted consumers packets r.2.2 ∧ Halted s packets course s' ∧
          (⟨.stopQueue, ()⟩ ∈ course → r.2.2.consumers.queue.running = false)
      | .error why => BrokenOff budget budget course why) ∧
    ∀ (At : Nat → Bytes → Instant → σ → Prop) (line n : Nat) (rest : Bytes) (t : Instant),
      Fails answer line At → At n rest t world → s.line = some line →
      (readTimeout ≠ 0 → n + (s.reader.bytes.length + rest.length) < budget →
        ∃ s', r.1 = .ok s' ∧ s'.line = none) ∧
      (readTimeout = 0 →
        r.1 = .error .exhausted ∧ reads course = [] ∧ ⟨.stopQueue, ()⟩ ∉ course) := by
  intro start course r
  have ha : Along (.ofConsumers consumers) course r.2.2 :=
    along_course answer others (produce budget readTimeout s) world _
  have hr : RunMakes s budget budget course r.1 := produce_of_follows (follows_course _ _ start)
  refine ⟨?_, fun At line n rest t hf there hl => ⟨fun ht hb => ?_, fun ht => ?_⟩⟩
  · generalize r.1 = e at hr ⊢
    cases e with
    | error why => exact hr
    | ok s' =>
      obtain ⟨packets, hp, hh⟩ := hr
      exact ⟨packets, hp.took, hp.accounted ha, hh, hh.queue_stopped ha⟩
  · have hends : Ends (beside answer others) (fun s' _ => s'.line = none)
        (produce budget readTimeout s) start :=
      ends_produce_failing (hf.beside others) (Nat.pos_of_ne_zero ht) hl there hb
    obtain ⟨s', world', hrun, hclosed⟩ := hends
    exact ⟨s', congrArg Prod.fst hrun, hclosed⟩
  · subst ht
    have hu : Undisturbed (beside answer others) t fun w => At n rest t w.1 :=
      .of_fails (hf.beside others)
    exact hu.idle_of_produce_zero hl there budget

/-- Others who stop the queue when it has accepted a frame, and start it again when it has refused
one. -/
def onAndOff : Others Bench where
  steps _ shared :=
    if shared.counts = ⟨1, 0, 0, 0⟩ then [.operate .stop]
    else if shared.counts.framesRejected = 1 then [.operate .start]
    else []
  offerless _ shared event h := by
    split at h
    · rw [List.mem_singleton.1 h]
      rfl
    · split at h
      · rw [List.mem_singleton.1 h]
        rfl
      · cases h

/-- A frame, a reply, a damaged frame packet and two frames more, of which the first comes while the
queue is stopped, and then the line fails. -/
theorem every_frame_accounted_on_and_off :
    let f₀ : Frame := ⟨0, 0, [7]⟩
    let reply : Reply := ⟨Command.startAcquisition.byte, 0, []⟩
    let damaged : Bytes := [3, 0, 1, 0, 0, 0, 0, 0, 0, 0, 0, 0]
    let f₂ : Frame := ⟨2, 0, []⟩
    let f₃ : Frame := ⟨3, 0, [8, 9]⟩
    let pieces :=
      [f₀.packet ++ reply.packet ++ damaged.take 5, damaged.drop 5 ++ f₂.packet, f₃.packet]
    let bench : Bench := { Bench.playing pieces with
      lines := #[⟨"p0", true, .script (pieces.map .data ++ [.io "unplugged"])⟩] }
    let consumers := Consumers.ofQueue (.ofMaxCount 0) 0
    let r := (produce 150 5 Session.onBench).run (beside Bench.answer onAndOff)
      (bench, .ofConsumers consumers)
    ∃ s' packets, r.1 = .ok s' ∧ s'.line = none ∧ Accounted consumers packets r.2.2 ∧
      r.2.2.counts = ⟨2, 1, 1, 0⟩ ∧ (consumers.ledger r.2.2.record).accepted = [f₀, f₃] ∧
      r.2.2.consumers.queue.running = false := by
  intro f₀ reply damaged f₂ f₃ pieces bench consumers r
  obtain ⟨hends, hstops⟩ := every_frame_accounted Bench.answer onAndOff bench consumers 150 5
    Session.onBench
  have hthere : Bench.AtFailing 0 (Script.dataReads pieces) pieces.flatten 0 bench :=
    ⟨rfl, rfl, "p0", pieces, "unplugged", [], rfl, rfl, Nat.le_refl _⟩
  obtain ⟨s', hs', hclosed⟩ := (hstops _ 0 _ _ _ (Bench.fails_script 0) hthere rfl).1 (by decide)
    (by decide +kernel)
  have hcounts : r.2.2.counts = ⟨2, 1, 1, 0⟩ := by decide +kernel
  have haccepted : (consumers.ledger r.2.2.record).accepted = [f₀, f₃] := by decide +kernel
  have hrunning : r.2.2.consumers.queue.running = false := by decide +kernel
  change r.1 = .ok s' at hs'
  rw [hs'] at hends
  obtain ⟨packets, -, haccounted, -, -⟩ := hends
  exact ⟨s', packets, hs', hclosed, haccounted, hcounts, haccepted, hrunning⟩

/-- A line that fails when it is first read. It ends a producer whose calls may wait a nanosecond;
one whose calls have no time makes any number of turns without reading it, and the queue runs on. -/
theorem failure_not_noticed :
    let bench : Bench := { Bench.playing [] with
      lines := #[⟨"p0", true, .script [.io "unplugged"]⟩] }
    let surroundings := beside Bench.answer nobody
    let start := (bench, Shared.ofConsumers (.ofQueue (.ofMaxCount 0) 0))
    (∀ budget,
      ((produce budget 0 Session.onBench).run surroundings start).1 = .error .exhausted ∧
        reads ((produce budget 0 Session.onBench).course surroundings start) = [] ∧
        ⟨.stopQueue, ()⟩ ∉ (produce budget 0 Session.onBench).course surroundings start) ∧
      ((produce 9 1 Session.onBench).run surroundings start).1.map (·.line) = .ok none := by
  intro bench surroundings start
  refine ⟨fun budget => ?_, by decide +kernel⟩
  have hu : Undisturbed surroundings 0 fun w => Bench.AtFailing 0 0 [] 0 w.1 :=
    .of_fails ((Bench.fails_script 0).beside nobody)
  have hthere : Bench.AtFailing 0 0 [] 0 bench :=
    ⟨rfl, rfl, "p0", [], "unplugged", [], rfl, rfl, Nat.le_refl _⟩
  exact hu.idle_of_produce_zero rfl hthere budget

end Acquisition

end RadarHost
