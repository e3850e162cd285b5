import RadarHost.Proofs.Acquisition.Accounts
import RadarHost.Proofs.Bench.Sessions
import RadarHost.Proofs.Link.Damage

/-!
# What the counts of an acquisition cover

An acquisition starts with a queue that may have been used before. Of the four counts that it gives,
three are its own: what it counts as received is what the queue has accepted since the start, which
is also what has left the queue or is queued since (`stats_since_start`). The fourth is the queue's,
which counts its evictions from its making on; so it is that of the acquisition just when nothing
had been evicted before the start (`evictions_carried_over`).

Every dialogue of an acquisition counts as received just what the queue took of its offers, however
it ends (`TalliesOffers`).
-/

namespace RadarHost

open Dialogue

/-! ## Offers that are counted -/

/-- What neither offers a frame nor counts one as received. -/
def Action.Silent : Action → Prop
  | .offer _ | .tally .received => False
  | _ => True

theorem Action.Hears.silent {action : Action} (h : action.Hears) : action.Silent := by
  cases action <;> trivial

namespace Dialogue

variable {α β σ : Type}

/-- A course in which there are counted as received as many frames as the queue took. -/
def Tallied (course : List Exchange) : Prop :=
  (tallies course).count .received = (offers course).countP Prod.snd

theorem Tallied.append {course later : List Exchange} (h : Tallied course) (h' : Tallied later) :
    Tallied (course ++ later) := by
  rw [Tallied, tallies_append, offers_append, List.count_append, List.countP_append, h, h']

theorem tallied_of_silent {course : List Exchange} (h : ∀ x ∈ course, x.1.Silent) :
    Tallied course := by
  have hoffers : offers course = [] := by
    refine List.filterMap_eq_nil_iff.2 fun x hx => ?_
    obtain ⟨action, answer⟩ := x
    cases action <;> first | rfl | exact (h _ hx).elim
  have htallies : FrameFate.received ∉ tallies course := by
    intro hmem
    obtain ⟨⟨action, answer⟩, hx, hfate⟩ := List.mem_filterMap.1 hmem
    cases action <;> cases hfate
    exact h _ hx
  rw [Tallied, hoffers, List.count_eq_zero.2 htallies]
  rfl

/-- Whatever it is answered and however it ends, a dialogue counts what the queue took. -/
def TalliesOffers (d : Dialogue α) : Prop := ∀ course e, Follows d course e → Tallied course

theorem TalliesOffers.of_silent {d : Dialogue α} (h : d.Asks Action.Silent) :
    d.TalliesOffers := fun _ _ hf => tallied_of_silent (hf.asks h)

theorem TalliesOffers.bind {d : Dialogue α} {f : α → Dialogue β} (hd : d.TalliesOffers)
    (hf : ∀ a, (f a).TalliesOffers) : (d.bind f).TalliesOffers := by
  intro course e h
  rcases Follows.of_bind h with ⟨_, hbroken, _⟩ | ⟨a, first, later, rfl, hfirst, hlater⟩
  · exact hd _ _ hbroken
  · exact (hd _ _ hfirst).append (hf a _ _ hlater)

theorem TalliesOffers.protect {cleanup : Dialogue Unit} {d : Dialogue α} (hd : d.TalliesOffers)
    (hc : cleanup.TalliesOffers) : (protect cleanup d).TalliesOffers := by
  intro course e h
  rcases h.of_protect with
    ⟨_, hvalue, _⟩ | ⟨_, first, later, rfl, hfirst, ⟨_, hlater, _⟩ | ⟨hlater, _⟩⟩
  · exact hd _ _ hvalue
  · exact (hd _ _ hfirst).append (hc _ _ hlater)
  · exact (hd _ _ hfirst).append (hc _ _ hlater)

theorem TalliesOffers.loop {turn : σ → Dialogue (σ ⊕ α)} (h : ∀ s, (turn s).TalliesOffers)
    (budget : Nat) (s : σ) : (loop turn budget s).TalliesOffers := by
  induction budget generalizing s with
  | zero => exact .of_silent trivial
  | succ budget ih =>
    refine (h s).bind fun r => ?_
    cases r with
    | inl s => exact ih s
    | inr value => exact .of_silent trivial

end Dialogue

/-! ## What an acquisition asks -/

theorem PacketReader.silent_exchange (r : PacketReader) (budget line : Nat) (command : Command)
    (payload : Bytes) (timeout : Duration) :
    (r.exchange budget line command payload timeout).Asks Action.Silent := by
  unfold exchange
  split
  · trivial
  · refine (Asks.perform trivial).bind fun written => ?_
    split
    · trivial
    · refine (Asks.perform trivial).bind fun started => Asks.loop (fun r => ?_) _ _
      exact (r.asks_replyTurn line command _ _).mono fun _ => Action.Hears.silent

namespace Session

theorem silent_startAcquisition (budget : Nat) (s : Session) :
    (s.startAcquisition budget).Asks Action.Silent := by
  have hcommand : (s.sendCommand budget .startAcquisition).Asks Action.Silent := by
    unfold sendCommand
    split
    · trivial
    · exact (s.reader.silent_exchange _ _ _ _ _).bind fun _ => trivial
  refine hcommand.bind fun r => ?_
  split
  · trivial
  · exact (Asks.perform trivial).bind fun _ => trivial

theorem silent_readFrame (budget : Nat) (timeout : Duration) (s : Session) :
    (s.readFrame budget timeout).Asks Action.Silent :=
  (s.asks_readFrame budget timeout).mono fun _ => Action.Hears.silent

theorem silent_close (s : Session) : s.close.Asks Action.Silent := by
  unfold close
  split
  · trivial
  · exact ⟨trivial, fun _ => ⟨trivial, fun _ => trivial⟩⟩

theorem silent_discard (s : Session) : s.discard.Asks Action.Silent :=
  s.silent_close.bind fun _ => trivial

end Session

namespace Acquisition

/-- An acquisition from its start on: what the thread asks that starts it, and then its producer. -/
def startAndProduce (budget : Nat) (config : AcquisitionConfig) (s : Session) :
    Dialogue (Except LinkError Session) := do
  match ← start budget config s with
  | .error e => return .error e
  | .ok session => return .ok (← produce budget config.readTimeout session)

theorem talliesOffers_start (budget : Nat) (config : AcquisitionConfig) (s : Session) :
    (start budget config s).TalliesOffers := by
  refine TalliesOffers.bind ?_ fun r => .of_silent ?_
  · exact .protect (.of_silent (Session.silent_startAcquisition _ _))
      (.of_silent (Session.silent_discard _))
  · split
    · exact (Session.silent_discard _).bind fun _ => trivial
    · exact ⟨trivial, fun _ => ⟨trivial, fun _ => trivial⟩⟩

theorem talliesOffers_settle (r : Except LinkError (Option Frame) × Session) :
    (settle r).TalliesOffers := by
  unfold settle
  split
  · refine TalliesOffers.bind (fun _ _ h => ?_) fun _ => .of_silent trivial
    exact (handsOver_of_follows h).2.accounts.received_eq
  · exact .of_silent trivial
  · exact .of_silent ⟨trivial, fun _ => ⟨trivial, fun _ => trivial⟩⟩
  · refine .of_silent ⟨trivial, fun _ => (Session.silent_close _).bind fun _ => ?_⟩
    exact ⟨trivial, fun _ => trivial⟩

theorem talliesOffers_turn (budget : Nat) (timeout : Duration) (s : Session) :
    (turn budget timeout s).TalliesOffers := by
  refine TalliesOffers.bind (d := perform .stopRequested) (.of_silent ⟨trivial, fun _ => trivial⟩)
    fun asked => ?_
  split
  · exact .of_silent trivial
  · refine TalliesOffers.bind ?_ talliesOffers_settle
    exact .protect (.of_silent (s.silent_readFrame _ _)) (.of_silent s.silent_discard)

theorem talliesOffers_startAndProduce (budget : Nat) (config : AcquisitionConfig) (s : Session) :
    (startAndProduce budget config s).TalliesOffers := by
  refine (talliesOffers_start budget config s).bind fun r => ?_
  cases r with
  | error e => exact .of_silent trivial
  | ok session =>
    exact (TalliesOffers.loop (talliesOffers_turn _ _) _ _).bind fun _ => .of_silent trivial

/-! ## What the counts cover -/

/-- The evictions that are given are those that the queue had made when the acquisition was started
with it, and those since. -/
structure GivesEvictions (consumers : Consumers Frame) (shared : Shared)
    (stats : AcquisitionStats) : Prop where
  queue_eq : shared.consumers = consumers.steps shared.record
  evicted_eq : stats.framesEvicted =
    consumers.queue.dropped + (consumers.ledger shared.record).evicted.length
  evicted_eq_iff : stats.framesEvicted = (consumers.ledger shared.record).evicted.length ↔
    consumers.queue.dropped = 0

/-- The frames that are given as received are those that the queue has accepted since the start, and
each of them was handed out, evicted or cleared, or is queued. -/
structure GivesReceived (consumers : Consumers Frame) (shared : Shared)
    (stats : AcquisitionStats) : Prop where
  accepted_eq : (consumers.ledger shared.record).accepted =
    (consumers.ownLedger shared.record).gone.map Prod.snd ++ consumers.ownQueued shared.record
  received_eq : stats.framesReceived =
    (consumers.ownLedger shared.record).handedOut.length +
      (consumers.ownLedger shared.record).evicted.length +
      (consumers.ownLedger shared.record).cleared.length +
      (consumers.ownQueued shared.record).length
  /-- An empty queue has evicted no more since. -/
  evicted_le : consumers.queue.frames = [] →
    (consumers.ledger shared.record).evicted.length ≤ stats.framesReceived

/-- Whatever a queue held and had evicted before an acquisition was started with it, and whatever
others do to it besides offering frames: at every moment since the start the evictions that the
acquisition gives are those that the queue had made before the start and those since, so that they
are those since the start just when there were none before. When the producer has ended, the frames
that it gives as received are those that the queue has accepted since the start, each of which was
handed out, evicted or cleared, or is queued; if the queue was empty, no more were evicted. -/
theorem stats_since_start {σ : Type} (answer : Surroundings σ) (others : Others σ) (world : σ)
    (consumers : Consumers Frame) (budget questions : Nat) (config : AcquisitionConfig)
    (s : Session) :
    let moment := (startAndProduce budget config s).progress (beside answer others) questions
      (world, .ofConsumers consumers)
    let asked := beside answer others .stats moment.2
    GivesEvictions consumers asked.2.2 asked.1 ∧
      (moment.1.ended = true → GivesReceived consumers asked.2.2 asked.1) := by
  intro moment asked
  let course := (startAndProduce budget config s).progressCourse (beside answer others) questions
    (world, .ofConsumers consumers)
  have halong : Along (.ofConsumers consumers) (course ++ [⟨.stats, asked.1⟩]) asked.2.2 :=
    (along_progress answer others questions _ world _).concat
      (others.offerless moment.2.1 moment.2.2)
      (Shared.reply_reply _ .stats (answer .stats moment.2.1).1)
  have hsteps := halong.consumers_eq.1
  have hevicted : asked.1.framesEvicted =
      consumers.queue.dropped + (consumers.ledger asked.2.2.record).evicted.length := by
    show asked.2.2.consumers.queue.dropped = _
    rw [hsteps]
    exact (Consumers.conserved_steps consumers asked.2.2.record).dropped
  refine ⟨⟨hsteps, hevicted, ?_⟩, fun hended => ?_⟩
  · rw [hevicted]
    exact Nat.add_eq_right
  · obtain ⟨e, hend⟩ := follows_of_ended hended
    have htallied : Tallied (course ++ [⟨.stats, asked.1⟩]) := by
      refine .append ?_ (tallied_of_silent (List.forall_mem_singleton.2 trivial))
      rw [← List.append_nil course]
      exact talliesOffers_startAndProduce budget config s _ e hend.of_progress
    have hreceived : asked.1.framesReceived =
        (consumers.ledger asked.2.2.record).accepted.length := halong.received_eq htallied
    refine ⟨consumers.accepted_eq_own _, ?_, fun hempty => ?_⟩
    · rw [hreceived, consumers.length_accepted_eq_own]
    · rw [hreceived]
      exact Consumers.length_evicted_le _ hempty

/-- Others who take frames when one has been counted as received. -/
def takers : Others Bench where
  steps _ shared := if shared.counts.framesReceived = 1 then [.operate .dequeue] else []
  offerless _ shared event h := by
    split at h
    · rw [List.mem_singleton.1 h]
      rfl
    · cases h

/-- Five frames come to a queue that was stopped, holds three and has evicted five; then the line
fails. Two of the three are evicted, and others take the third and the first two of the five; of the
rest one is evicted and two are queued. -/
theorem stats_since_start_reused :
    let reply : Reply := ⟨Command.startAcquisition.byte, 0, []⟩
    let f₀ : Frame := ⟨0, 0, [1]⟩
    let f₁ : Frame := ⟨1, 0, [2]⟩
    let f₂ : Frame := ⟨2, 0, []⟩
    let f₃ : Frame := ⟨3, 0, [4]⟩
    let f₄ : Frame := ⟨4, 0, [5]⟩
    let pieces := [reply.packet, f₀.packet ++ f₁.packet, f₂.packet ++ f₃.packet ++ f₄.packet]
    let bench : Bench := { Bench.playing pieces with
      lines := #[⟨"p0", true, .script (pieces.map .data ++ [.io "unplugged"])⟩] }
    let consumers : Consumers Frame :=
      .ofQueue ⟨[⟨7, 0, []⟩, ⟨8, 0, []⟩, ⟨9, 0, []⟩], 0, false, 5⟩ 0
    let config : AcquisitionConfig := { AcquisitionConfig.default with queueCapacity := 2 }
    let moment := (startAndProduce 100 config Session.onBench).progress
      (beside Bench.answer takers) 80 (bench, .ofConsumers consumers)
    let asked := beside Bench.answer takers .stats moment.2
    moment.1.ended = true ∧ GivesReceived consumers asked.2.2 asked.1 ∧
      asked.1 = ⟨5, 0, 0, 8⟩ ∧
      (consumers.ownLedger asked.2.2.record).handedOut = [f₀, f₁] ∧
      (consumers.ownLedger asked.2.2.record).evicted = [f₂] ∧
      consumers.ownQueued asked.2.2.record = [f₃, f₄] := by
  intro reply f₀ f₁ f₂ f₃ f₄ pieces bench consumers config
  have hstats := stats_since_start Bench.answer takers bench consumers 100 80 config Session.onBench
  refine ⟨?_, hstats.2 ?_, ?_, ?_, ?_, ?_⟩
  all_goals decide +kernel

/-- A board streams three frames after each start into a queue that holds one. The second
acquisition is started with an empty queue, which evicts two frames then; yet it gives four, more
than it has received, while its producer waits and when that has ended. -/
theorem evictions_carried_over :
    let board : SimulatedBoard :=
      { SimulatedBoard.default with frameCount := some 3, framePayloadLen := 4 }
    let config : AcquisitionConfig :=
      { AcquisitionConfig.default with queueCapacity := 1, readTimeout := Duration.ofMillis 5 }
    let found := (Bench.ofPorts (.boards [("sim0", board)])).run
      (Discovery.attempt Course.budget .default "sim0" 921600)
    let course : Course := ⟨found.2, found.1.toOption.bind Except.toOption, none⟩
    let before := (course.takeAll [.acquire config, .acquireStop, .queueClear]).2
    let after := (before.take (.acquire config)).2
    before.bench.consumers.queue.frames = [] ∧
      after.bench.consumers.queue.dropped - before.bench.consumers.queue.dropped = 2 ∧
      after.bench.stats = ⟨3, 0, 0, 4⟩ ∧
      (after.take .acquireStop).2.bench.stats = ⟨3, 0, 0, 4⟩ := by
  decide +kernel

end Acquisition

end RadarHost
