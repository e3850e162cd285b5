import RadarHost.Bench.Basic
import RadarHost.Proofs.Discovery.Policy
import RadarHost.Proofs.Link.Scripted

/-!
# Side by side as in order

A search that probes all candidates side by side finds what a search through them in order finds, if
what is heard at a port depends on the candidate and the rate alone (`AnsweredBy`): the one stops at
the first session, and the other one takes all that the threads have found and keeps the first
session of it (`picked`). `parallel_agrees` says so for any candidates, any mix of outcomes and any
order in which the threads ask. The search in order can break off where the other one does not, at a
read that crashes; without one both end alike (`agree_of_not_crashes`).
-/

namespace RadarHost

open Dialogue

namespace Dialogue

/-! ## Ports -/

/-- What a port does whenever a line to it is opened and probed. -/
structure Port where
  opened : Except TransportError Unit
  written : Except TransportError Unit
  /-- What its reads give in the time of a probe, one after the other and idle ones aside. -/
  script : List ReadAnswer
  deriving DecidableEq, Repr

/-- The probe was written, and neither a reply nor an error has been heard. -/
def Call.Unanswered (call : Call) : Prop :=
  call.writes = [.ok ()] ∧ (∀ read ∈ call.reads, read = .bytes read.piece) ∧
    (Packet.takeUntil Packet.reply? Packet.maxFramePayload (received call.reads)).packet = none

instance (call : Call) : Decidable call.Unanswered := inferInstanceAs (Decidable (_ ∧ _ ∧ _))

/-- What is heard in a call is what a port gives: its reads play the script, with idle ones in
between, and there are fewer of them than there may be. How long they took is left open, but a call
that goes unanswered has been given all that the port gives in the time of a probe. -/
structure Call.Plays (budget : Nat) (port : Port) (call : Call) : Prop where
  opened_eq : call.opened.map (fun _ => ()) = port.opened
  written_eq : ∀ result ∈ call.writes, result = port.written
  heard_upTo : heard call.reads <+: port.script
  heardOut : call.Unanswered → heard call.reads = port.script
  turns : call.reads.length < budget

instance (budget : Nat) (port : Port) (call : Call) : Decidable (call.Plays budget port) :=
  decidable_of_iff
    (call.opened.map (fun _ => ()) = port.opened ∧ (∀ result ∈ call.writes, result = port.written) ∧
      heard call.reads <+: port.script ∧ (call.Unanswered → heard call.reads = port.script) ∧
      call.reads.length < budget)
    ⟨fun ⟨ho, hw, hu, hout, ht⟩ => ⟨ho, hw, hu, hout, ht⟩,
      fun h => ⟨h.opened_eq, h.written_eq, h.heard_upTo, h.heardOut, h.turns⟩⟩

/-- In all calls of a course is heard what the ports of their candidates and rates give. -/
def AnsweredBy (budget : Nat) (ports : String → UInt32 → Port) (course : List Exchange) : Prop :=
  ∀ call ∈ calls course, call.Plays budget (ports call.identifier call.baudRate)

instance (budget : Nat) (ports : String → UInt32 → Port) (course : List Exchange) :
    Decidable (AnsweredBy budget ports course) := List.decidableBAll _ (calls course)

/-- A wait that gave up has heard no reply. -/
theorem Call.unanswered_of_late {call : Call} {budget : Nat} {r : PacketReader}
    (hw : call.writes = [.ok ()])
    (ha : Awaits Packet.reply? budget (.empty Packet.maxFramePayload) call.reads
      (.ok (.late, r))) : call.Unanswered := by
  have hf : (PacketReader.replyWait .getBoardInfo 0).Facing Packet.maxFramePayload
      (received call.reads) (.empty Packet.maxFramePayload) (received call.reads ++ []) := by
    rw [List.append_nil]
    exact ⟨rfl, rfl⟩
  obtain ⟨hfacing, hnone⟩ := Wait.Facing.of_awaits [] ha hf
  exact ⟨hw, ha.reads_of_late, hfacing.none_of_nil hnone⟩

/-- Two waits for a reply that hear what one port gives find the same. -/
theorem Call.Plays.awaits_eq {budget : Nat} {port : Port} {call call' : Call}
    (hp : call.Plays budget port) (hp' : call'.Plays budget port) (hw : call.writes = [.ok ()])
    (hw' : call'.writes = [.ok ()]) {e e' : Ending (Waited Bytes × PacketReader)}
    (h : Awaits Packet.reply? budget (.empty Packet.maxFramePayload) call.reads e)
    (h' : Awaits Packet.reply? budget (.empty Packet.maxFramePayload) call'.reads e') :
    e = e' := by
  obtain ⟨turns, ha, hl⟩ := h.heard hp.turns
  obtain ⟨turns', ha', hl'⟩ := h'.heard hp'.turns
  refine ha.eq_of_script ha' hl hl' hp.heard_upTo hp'.heard_upTo (fun r he => ?_) fun r he => ?_
  · exact hp.heardOut (Call.unanswered_of_late hw (he ▸ h))
  · exact hp'.heardOut (Call.unanswered_of_late hw' (he ▸ h'))

end Dialogue

/-! ## But for lines and times -/

/-- A cause, but for the time that was waited. -/
def AttemptError.untimed : AttemptError → AttemptError
  | transport (.timeout _) => transport (.timeout 0)
  | cause => cause

/-- A failure, but for the time that was waited. -/
def AttemptFailure.untimed (failure : AttemptFailure) : AttemptFailure :=
  { failure with cause := failure.cause.untimed }

/-- The failures of a search, but for the times that were waited. -/
def NotFound.untimed (e : NotFound) : NotFound := ⟨e.attempts.map AttemptFailure.untimed⟩

theorem AttemptError.isRetryable_untimed (cause : AttemptError) :
    cause.untimed.isRetryable = cause.isRetryable := by
  unfold untimed
  split <;> rfl

namespace Discovery

/-- A session but for its line, or an error but for the times in it. -/
def bare {ε : Type} (untimed : ε → ε) : Except ε Session → Except ε Session
  | .ok session => .ok { session with line := none }
  | .error e => .error (untimed e)

/-- Two endings that are the same but for lines and times. -/
theorem bare_cases {ε : Type} {untimed : ε → ε} {e e' : Ending (Except ε Session)}
    (h : e.map (bare untimed) = e'.map (bare untimed)) :
    (∃ why, e = .error why ∧ e' = .error why) ∨
      (∃ error error', e = .ok (.error error) ∧ e' = .ok (.error error') ∧
        untimed error = untimed error') ∨
      ∃ session session', e = .ok (.ok session) ∧ e' = .ok (.ok session') ∧
        { session with line := none } = { session' with line := none } := by
  rcases e with why | error | session <;> rcases e' with why' | error' | session'
  · cases h
    exact .inl ⟨why, rfl, rfl⟩
  · cases h
  · cases h
  · cases h
  · exact .inr (.inl ⟨error, error', rfl, rfl, Except.error.inj (Except.ok.inj h)⟩)
  · cases h
  · cases h
  · cases h
  · exact .inr (.inr ⟨session, session', rfl, rfl, Except.ok.inj (Except.ok.inj h)⟩)

/-- How far an attempt gets, told by its port. -/
theorem Attempted.cases_of_plays {budget : Nat} {config : DiscoveryConfig} {port : Port}
    {call : Call} {e : Ending (Except AttemptError Session)} (h : Attempted budget config call e)
    (hp : call.Plays budget port) :
    (∃ error, port.opened = .error error ∧ e = .ok (.error (.transport error))) ∨
      (∃ error, port.opened = .ok () ∧ port.written = .error error ∧
        e = .ok (.error (.transport error))) ∨
      ∃ line m, port.opened = .ok () ∧ port.written = .ok () ∧ call.writes = [.ok ()] ∧
        Awaits Packet.reply? budget (.empty Packet.maxFramePayload) call.reads m ∧
        e = m.map (concluded config call line) := by
  obtain ⟨hopened, hwritten, -, -, -⟩ := hp
  cases h with
  | @notOpened error ho =>
    rw [ho] at hopened
    exact .inl ⟨error, hopened.symm, rfl⟩
  | @notWritten line error ho hw =>
    rw [ho] at hopened
    rw [hw] at hwritten
    exact .inr (.inl ⟨error, hopened.symm, (hwritten _ (List.mem_singleton_self _)).symm, rfl⟩)
  | @awaited line m ho hw ha =>
    rw [ho] at hopened
    have hport : port.written = .ok () :=
      (hwritten _ (hw ▸ List.mem_singleton_self _)).symm
    exact .inr (.inr ⟨line, m, hopened.symm, hport, hw, ha, rfl⟩)

/-- What one port gives decides an attempt. -/
theorem Attempted.bare_eq {budget : Nat} {config : DiscoveryConfig} {port : Port}
    {call call' : Call} {e e' : Ending (Except AttemptError Session)}
    (h : Attempted budget config call e) (h' : Attempted budget config call' e')
    (hid : call.identifier = call'.identifier) (hrate : call.baudRate = call'.baudRate)
    (hp : call.Plays budget port) (hp' : call'.Plays budget port) :
    e.map (bare AttemptError.untimed) = e'.map (bare AttemptError.untimed) := by
  rcases h.cases_of_plays hp with
    ⟨error, ho, rfl⟩ | ⟨error, ho, hw, rfl⟩ | ⟨line, m, ho, hw, hwrites, ha, rfl⟩ <;>
  rcases h'.cases_of_plays hp' with
    ⟨error', ho', rfl⟩ | ⟨error', ho', hw', rfl⟩ | ⟨line', m', ho', hw', hwrites', ha', rfl⟩
  · cases ho.symm.trans ho'
    rfl
  · cases ho.symm.trans ho'
  · cases ho.symm.trans ho'
  · cases ho.symm.trans ho'
  · cases hw.symm.trans hw'
    rfl
  · cases hw.symm.trans hw'
  · cases ho.symm.trans ho'
  · cases hw.symm.trans hw'
  · obtain rfl := hp.awaits_eq hp' hwrites hwrites' ha ha'
    rcases m with why | ⟨packet | _ | error, reader⟩
    · rfl
    · show Except.ok (bare _ ((identified config packet).map _)) =
        Except.ok (bare _ ((identified config packet).map _))
      rw [hid, hrate]
      rcases identified config packet with cause | found <;> rfl
    · rfl
    · rfl

/-- An attempt breaks off only where a read of its port crashes. -/
theorem Attempted.crashed {budget : Nat} {config : DiscoveryConfig} {port : Port} {call : Call}
    {why : Breakdown} (h : Attempted budget config call (.error why))
    (hp : call.Plays budget port) : why = .crashed ∧ .crashed ∈ port.script := by
  generalize he : (Except.error why : Ending (Except AttemptError Session)) = e at h
  cases h with
  | notOpened => cases he
  | notWritten => cases he
  | @awaited line m ho hw ha =>
    cases m with
    | ok x => cases he
    | error why =>
      cases he
      cases why with
      | crashed => exact ⟨rfl, hp.heard_upTo.mem (List.mem_filter.2 ⟨ha.shownBy, rfl⟩)⟩
      | exhausted => exact absurd hp.turns (Nat.not_lt_of_le ha.shownBy)

/-! ## Attempts at the same ports -/

/-- An attempt that came to what it heard, and heard what its port gives. -/
structure Bound (budget : Nat) (config : DiscoveryConfig) (ports : String → UInt32 → Port)
    (t : Try) : Prop where
  attempted : Attempted budget config t.call t.result
  plays : t.call.Plays budget (ports t.call.identifier t.call.baudRate)

/-- Two attempts at one candidate and rate with the same result, but for lines and times. -/
structure Alike (t t' : Try) : Prop where
  identifier_eq : t.call.identifier = t'.call.identifier
  baudRate_eq : t.call.baudRate = t'.call.baudRate
  result_eq : t.result.map (bare AttemptError.untimed) = t'.result.map (bare AttemptError.untimed)

section

variable {budget : Nat} {config : DiscoveryConfig} {ports : String → UInt32 → Port}
  {identifier : String} {baudRate : UInt32} {rates : List UInt32} {t t' : Try}
  {tries tries' : List Try}

theorem Bound.alike (h : Bound budget config ports t) (h' : Bound budget config ports t')
    (hat : t.At identifier baudRate) (hat' : t'.At identifier baudRate) : Alike t t' where
  identifier_eq := hat.identifier_eq.trans hat'.identifier_eq.symm
  baudRate_eq := hat.baudRate_eq.trans hat'.baudRate_eq.symm
  result_eq := by
    have hp := h.plays
    have hp' := h'.plays
    rw [hat.identifier_eq, hat.baudRate_eq] at hp
    rw [hat'.identifier_eq, hat'.baudRate_eq] at hp'
    exact h.attempted.bare_eq h'.attempted (hat.identifier_eq.trans hat'.identifier_eq.symm)
      (hat.baudRate_eq.trans hat'.baudRate_eq.symm) hp hp'

theorem Alike.symm (h : Alike t t') : Alike t' t :=
  ⟨h.identifier_eq.symm, h.baudRate_eq.symm, h.result_eq.symm⟩

/-- Another rate is tried after the one attempt if it is after the other one. -/
theorem Alike.retryable (h : Alike t t') (hr : t.Retryable) : t'.Retryable := by
  obtain ⟨cause, hc⟩ := hr.failed
  have hcause := (Try.retryable_iff hc).1 hr
  rcases bare_cases h.result_eq with
    ⟨why, he, -⟩ | ⟨cause, cause', he, he', hu⟩ | ⟨session, session', he, -, -⟩
  · cases hc.symm.trans he
  · cases hc.symm.trans he
    rw [Try.retryable_iff he', ← AttemptError.isRetryable_untimed, ← hu,
      AttemptError.isRetryable_untimed]
    exact hcause
  · cases hc.symm.trans he

/-- The attempts at one candidate are the same in both searches. -/
theorem Tried.alike (h : Tried identifier rates tries) (h' : Tried identifier rates tries')
    (hb : ∀ t ∈ tries, Bound budget config ports t)
    (hb' : ∀ t ∈ tries', Bound budget config ports t) : List.Forall₂ Alike tries tries' := by
  induction h generalizing tries' with
  | none =>
    cases h'
    exact .nil
  | last hat hr =>
    obtain ⟨hbt, -⟩ := List.forall_mem_cons.1 hb
    cases h' with
    | last hat' hr' =>
      obtain ⟨hbt', -⟩ := List.forall_mem_cons.1 hb'
      exact .cons (hbt.alike hbt' hat hat') .nil
    | next hat' hr' hs' =>
      obtain ⟨hbt', -⟩ := List.forall_mem_cons.1 hb'
      exact absurd ((hbt.alike hbt' hat hat').symm.retryable hr') hr
  | next hat hr hs ih =>
    obtain ⟨hbt, hbs⟩ := List.forall_mem_cons.1 hb
    cases h' with
    | last hat' hr' =>
      obtain ⟨hbt', -⟩ := List.forall_mem_cons.1 hb'
      exact absurd ((hbt.alike hbt' hat hat').retryable hr) hr'
    | next hat' hr' hs' =>
      obtain ⟨hbt', hbs'⟩ := List.forall_mem_cons.1 hb'
      exact .cons (hbt.alike hbt' hat hat') (ih hs' hbs hbs')

theorem map_after (failures : List AttemptFailure) (e : Ending (Except NotFound Session)) :
    (after failures e).map (bare NotFound.untimed) =
      after (failures.map AttemptFailure.untimed) (e.map (bare NotFound.untimed)) := by
  rcases e with why | e | session
  · rfl
  · simp only [after, Except.map, bare, NotFound.untimed, List.map_append]
  · rfl

/-- Attempts that are alike conclude alike. -/
theorem conclude_alike (h : List.Forall₂ Alike tries tries') :
    (conclude tries).map (bare NotFound.untimed) =
      (conclude tries').map (bare NotFound.untimed) := by
  induction h with
  | nil => rfl
  | @cons t t' tries tries' h hs ih =>
    rw [conclude, conclude]
    rcases bare_cases h.result_eq with
      ⟨why, he, he'⟩ | ⟨cause, cause', he, he', hu⟩ | ⟨session, session', he, he', hbare⟩
    · rw [he, he']
    · have hf : AttemptFailure.untimed ⟨t.call.identifier, t.call.baudRate, cause⟩ =
          AttemptFailure.untimed ⟨t'.call.identifier, t'.call.baudRate, cause'⟩ := by
        simp only [AttemptFailure.untimed, h.identifier_eq, h.baudRate_eq, hu]
      rw [he, he']
      dsimp only
      rw [map_after, map_after, ih, List.map_singleton, List.map_singleton, hf]
    · rw [he, he']
      exact congrArg (Except.ok ∘ Except.ok) hbare

theorem Tried.at_of_mem (h : Tried identifier rates tries) :
    ∀ t ∈ tries, ∃ baudRate ∈ rates, t.At identifier baudRate := by
  induction h with
  | none => exact List.forall_mem_nil _
  | last hat hr => exact List.forall_mem_singleton.2 ⟨_, List.mem_cons_self .., hat⟩
  | next hat hr hs ih =>
    refine List.forall_mem_cons.2 ⟨⟨_, List.mem_cons_self .., hat⟩, fun t ht => ?_⟩
    obtain ⟨baudRate, hmem, hat⟩ := ih t ht
    exact ⟨baudRate, List.mem_cons_of_mem _ hmem, hat⟩

/-- The attempts at a candidate break off only where a read of one of its ports crashes. -/
theorem Tried.crashed {why : Breakdown} (h : Tried identifier rates tries)
    (hb : ∀ t ∈ tries, Bound budget config ports t) (he : conclude tries = .error why) :
    why = .crashed ∧ ∃ baudRate ∈ rates, .crashed ∈ (ports identifier baudRate).script := by
  rcases conclude_cases tries with ⟨failures, -, hc⟩ | ⟨earlier, t, later, rfl, -, hd⟩
  · cases hc.symm.trans he
  · have hmem : t ∈ earlier ++ t :: later := List.mem_append_right _ (List.mem_cons_self ..)
    obtain ⟨baudRate, hrate, hat⟩ := h.at_of_mem t hmem
    rw [he] at hd
    cases hd with
    | broken hr =>
      obtain ⟨ha, hp⟩ := hb t hmem
      rw [hr] at ha
      rw [hat.identifier_eq, hat.baudRate_eq] at hp
      obtain ⟨hwhy, hscript⟩ := ha.crashed hp
      exact ⟨hwhy, baudRate, hrate, hscript⟩

end

/-! ## Side by side -/

/-- What a search makes of the end of a thread: one that broke off adds no failure. -/
def settled : Ending (Except NotFound Session) → Except NotFound Session
  | .ok result => result
  | .error _ => .error ⟨[]⟩

/-- The first session of all that the threads found, or else the failures of all. -/
def picked : List (Except NotFound Session) → Ending (Except NotFound Session)
  | [] => .ok (.error ⟨[]⟩)
  | .ok session :: _ => .ok (.ok session)
  | .error e :: results => after e.attempts (picked results)

section

variable {σ : Type} {answer : Surroundings σ} {s : σ}

theorem ends_joined (candidate : String) (ending : Ending (Except NotFound Session)) :
    Ends answer (fun result _ => result = settled ending) (joined candidate ending) s := by
  cases ending with
  | ok result => exact Ends.done rfl
  | error why => exact Ends.ask (Ends.done rfl)

theorem ends_joinAll (threads : List (String × Ending (Except NotFound Session))) :
    Ends answer (fun results _ => results = threads.map fun x => settled x.2)
      (joinAll threads) s := by
  induction threads generalizing s with
  | nil => exact Ends.done rfl
  | cons thread threads ih =>
    obtain ⟨candidate, ending⟩ := thread
    refine (ends_joined candidate ending).bind fun result s hr => ?_
    refine ih.bind fun results s hs => Ends.done ?_
    rw [hr, hs]
    rfl

theorem Session.ends_discard (session : Session) :
    Ends answer (fun _ _ => True) session.discard s := by
  unfold Session.discard Session.close
  cases session.line with
  | none => exact Ends.done trivial
  | some line => exact Ends.ask (Ends.ask (Ends.done trivial))

/-- The session that has been found is kept, whatever comes after it. -/
theorem ends_select_found (results : List (Except NotFound Session)) (session : Session)
    (failures : List AttemptFailure) :
    Ends answer (fun result _ => result = .ok session) (select results (some session) failures)
      s := by
  induction results generalizing s failures with
  | nil => exact Ends.done rfl
  | cons result results ih =>
    cases result with
    | ok extra => exact (Session.ends_discard extra).bind fun _ s _ => ih failures
    | error e => exact ih _

theorem ends_select (results : List (Except NotFound Session)) (failures : List AttemptFailure) :
    Ends answer (fun result _ => .ok result = after failures (picked results))
      (select results none failures) s := by
  induction results generalizing s failures with
  | nil => exact Ends.done (by simp only [picked, after, List.append_nil])
  | cons result results ih =>
    cases result with
    | ok session =>
      have hfound : Ends answer _ (select results (some session) failures) s :=
        ends_select_found results session failures
      obtain ⟨_, s', hrun, rfl⟩ := hfound
      exact ⟨_, s', hrun, rfl⟩
    | error e =>
      obtain ⟨result, s', hrun, hr⟩ := ih (s := s) (failures ++ e.attempts)
      refine ⟨result, s', hrun, ?_⟩
      show Except.ok result = after failures (after e.attempts (picked results))
      rw [hr, after_after]

/-- A search side by side comes to what is picked of the ends of its threads. -/
theorem discoverParallel_eq (answer : Surroundings σ) (schedule : List Nat) (budget : Nat)
    (config : DiscoveryConfig) (candidates : List String) (s : σ) :
    ∃ result s', discoverParallel answer schedule budget config candidates s = (.ok result, s') ∧
      .ok result = picked ((runThreads answer schedule (candidates.map (probe budget config))
        s).1.map settled) := by
  have hlen := length_runThreads answer schedule (candidates.map (probe budget config)) s
  rw [List.length_map] at hlen
  unfold discoverParallel
  generalize runThreads answer schedule (candidates.map (probe budget config)) s = r at hlen ⊢
  obtain ⟨endings, s⟩ := r
  have hends : Ends answer (fun result _ => .ok result = picked (endings.map settled))
      (do select (← joinAll (candidates.zip endings)) none []) s := by
    refine (ends_joinAll _).bind fun results s hr => ?_
    have hselect : Ends answer _ (select results none []) s := ends_select results []
    obtain ⟨result, s', hrun, hresult⟩ := hselect
    have hzip : (candidates.zip endings).map Prod.snd = endings :=
      List.map_snd_zip (Nat.le_of_eq hlen)
    have hresults : results = endings.map settled :=
      calc results = ((candidates.zip endings).map Prod.snd).map settled := by
            rw [hr, List.map_map]
            rfl
        _ = endings.map settled := by rw [hzip]
    refine ⟨result, s', hrun, ?_⟩
    show Except.ok result = picked (endings.map settled)
    rw [hresult, after_nil, hresults]
  obtain ⟨result, s', hrun, hresult⟩ := hends
  exact ⟨result, s', hrun, hresult⟩

end

/-! ## Both searches -/

section

variable {budget : Nat} {config : DiscoveryConfig} {ports : String → UInt32 → Port}
  {candidates : List String} {tries : List Try}

/-- The end of a probe all of whose attempts are bound to the ports. -/
def ProbeBound (budget : Nat) (config : DiscoveryConfig) (ports : String → UInt32 → Port)
    (candidate : String) (ending : Ending (Except NotFound Session)) : Prop :=
  ∃ tries, Tried candidate config.baudRates tries ∧ (∀ t ∈ tries, Bound budget config ports t) ∧
    ending = conclude tries

/-- A read of a port of one of the candidates crashes. -/
def Crashes (config : DiscoveryConfig) (ports : String → UInt32 → Port)
    (candidates : List String) : Prop :=
  ∃ candidate ∈ candidates, ∃ baudRate ∈ config.baudRates,
    .crashed ∈ (ports candidate baudRate).script

theorem Shows.bound {course : List Exchange} (h : Shows budget config course tries)
    (ha : AnsweredBy budget ports course) : ∀ t ∈ tries, Bound budget config ports t := by
  refine fun t ht => ⟨h.attempted t ht, ha t.call ?_⟩
  rw [h.calls_eq]
  exact List.mem_map_of_mem ht

/-- The searches agree: candidate by candidate, until the one in order finds a session. -/
theorem Searched.agrees (h : Searched config candidates tries)
    (hb : ∀ t ∈ tries, Bound budget config ports t)
    {endings : List (Ending (Except NotFound Session))}
    (he : List.Forall₂ (ProbeBound budget config ports) candidates endings) :
    (conclude tries = .error .crashed ∧ Crashes config ports candidates) ∨
      (conclude tries).map (bare NotFound.untimed) =
        (picked (endings.map settled)).map (bare NotFound.untimed) := by
  induction h generalizing endings with
  | none =>
    cases he
    exact .inr rfl
  | @last candidate rest tries h hl =>
    obtain ⟨ending, endings, ⟨tries', htried, hb', rfl⟩, -, rfl⟩ := List.forall₂_cons_left_iff.1 he
    have hlike := conclude_alike (h.alike htried hb hb')
    rcases bare_cases hlike with
      ⟨why, hc, -⟩ | ⟨e, e', hc, -, -⟩ | ⟨session, session', hc, hc', hbare⟩
    · obtain ⟨rfl, hscript⟩ := h.crashed hb hc
      exact .inl ⟨hc, candidate, List.mem_cons_self .., hscript⟩
    · obtain ⟨t, ht, hnot⟩ := hl
      exact absurd (failed_of_failedAs (failedAs_of_conclude hc) t ht) hnot
    · rw [hc, hc']
      exact .inr (congrArg (Except.ok ∘ Except.ok) hbare)
  | @next candidate rest tries later h hf hs ih =>
    obtain ⟨ending, endings, ⟨tries', htried, hb', rfl⟩, hrest, rfl⟩ :=
      List.forall₂_cons_left_iff.1 he
    obtain ⟨hbt, hbl⟩ := List.forall_mem_append.1 hb
    have hlike := conclude_alike (h.alike htried hbt hb')
    rcases conclude_cases tries with ⟨failures, -, hc⟩ | ⟨earlier, t, later', rfl, -, hd⟩
    · rw [conclude_append, hc]
      rcases bare_cases hlike with
        ⟨why, he, -⟩ | ⟨e, e', he, hc', hattempts⟩ | ⟨session, session', he, -, -⟩
      · cases hc.symm.trans he
      · cases hc.symm.trans he
        rw [hc']
        rcases ih hbl hrest with ⟨hw, candidate', hmem, hcrash⟩ | heq
        · refine .inl ⟨?_, candidate', List.mem_cons_of_mem _ hmem, hcrash⟩
          rw [hw]
          rfl
        · refine .inr ?_
          show (after failures (conclude later)).map _ =
            (after e'.attempts (picked (endings.map settled))).map _
          rw [map_after, map_after, heq]
          exact congrArg (after · _) (NotFound.mk.inj hattempts)
      · cases hc.symm.trans he
    · exact absurd (hf t (List.mem_append_right _ (List.mem_cons_self ..))) hd.not_failed

/-- The threads of a search side by side, each with what it has heard. -/
theorem probeBound_runThreads {σ : Type} (answer : Surroundings σ) (schedule : List Nat) (s : σ)
    (hpar : ∀ i < candidates.length, AnsweredBy budget ports
      (threadCourse answer i schedule (candidates.map (probe budget config), s))) :
    List.Forall₂ (ProbeBound budget config ports) candidates
      (runThreads answer schedule (candidates.map (probe budget config)) s).1 := by
  refine List.forall₂_iff_get.2 ⟨?_, fun i hi hi' => ?_⟩
  · rw [length_runThreads, List.length_map]
  · have hthread : (candidates.map (probe budget config))[i]? =
        some (probe budget config candidates[i]) := by
      rw [List.getElem?_map, List.getElem?_eq_getElem hi]
      rfl
    obtain ⟨e, he, hf⟩ := follows_threadCourse answer schedule (s := s) hthread
    obtain ⟨tries, hs, htried, hc⟩ := follows_probe hf
    rw [List.getElem?_eq_getElem hi'] at he
    exact ⟨tries, htried, hs.bound (hpar i hi), (Option.some.inj he).trans hc⟩

section

variable {σ σ' : Type} {answer : Surroundings σ} {answer' : Surroundings σ'} {s : σ} {s' : σ'}
  {schedule : List Nat}
  (hseq : AnsweredBy budget ports ((discover budget config candidates).course answer s))
  (hpar : ∀ i < candidates.length, AnsweredBy budget ports
    (threadCourse answer' i schedule (candidates.map (probe budget config), s')))

include hseq hpar

/-- The search side by side ends, and as the search in order does, unless that one breaks off. -/
theorem agrees_or_crashes :
    ∃ result, (discoverParallel answer' schedule budget config candidates s').1 = .ok result ∧
      ((∃ result', ((discover budget config candidates).run answer s).1 = .ok result' ∧
          bare NotFound.untimed result' = bare NotFound.untimed result) ∨
        (((discover budget config candidates).run answer s).1 = .error .crashed ∧
          Crashes config ports candidates)) := by
  obtain ⟨tries, hs, hsearched, he⟩ :=
    follows_discover (follows_course answer (discover budget config candidates) s)
  obtain ⟨result, w, hrun, hpicked⟩ :=
    discoverParallel_eq answer' schedule budget config candidates s'
  refine ⟨result, by rw [hrun], ?_⟩
  rcases hsearched.agrees (hs.bound hseq) (probeBound_runThreads answer' schedule s' hpar) with
    ⟨hw, hcrash⟩ | heq
  · exact .inr ⟨he.trans hw, hcrash⟩
  · rw [← hpicked] at heq
    rcases hc : conclude tries with why | result' <;> rw [hc] at heq he
    · cases heq
    · exact .inl ⟨result', he, Except.ok.inj heq⟩

/-- Both searches end, and alike, if no read of a port crashes. A read that does breaks off the
search in order with the thread that called for it; side by side it is one thread of the search that
breaks off, and the others go on. -/
theorem agree_of_not_crashes (hcrash : ¬ Crashes config ports candidates) :
    ∃ result result',
      (discoverParallel answer' schedule budget config candidates s').1 = .ok result ∧
      ((discover budget config candidates).run answer s).1 = .ok result' ∧
      bare NotFound.untimed result' = bare NotFound.untimed result := by
  obtain ⟨result, hparallel, ⟨result', hsequential, hbare⟩ | ⟨-, h⟩⟩ := agrees_or_crashes hseq hpar
  · exact ⟨result, result', hparallel, hsequential, hbare⟩
  · exact absurd h hcrash

end

end

/-- Let what is heard at a port depend on the candidate and the rate alone, in the search in order
and in each thread of the search side by side. Then, in whatever order the threads ask, the search
side by side ends, and it finds what the search in order finds: the same session but for the number
of its line, or the same failures in the same order but for the times that were waited. The search
in order may break off instead, but only if a read of a port crashes, and without such a read both
searches end alike (`agree_of_not_crashes`). Either search has closed the lines of all sessions but
that of the one that it found. -/
theorem parallel_agrees {σ σ' : Type} (answer : Surroundings σ) (s : σ) (answer' : Surroundings σ')
    (s' : σ') (schedule : List Nat) (budget : Nat) (config : DiscoveryConfig)
    (candidates : List String) (ports : String → UInt32 → Port)
    (hseq : AnsweredBy budget ports
      ((discover budget config candidates).course (recorded answer) (s, [])))
    (hpar : ∀ i < candidates.length, AnsweredBy budget ports
      (threadCourse (recorded answer') i schedule
        (candidates.map (probe budget config), (s', [])))) :
    let sequential := (discover budget config candidates).run (recorded answer) (s, [])
    let parallel := discoverParallel (recorded answer') schedule budget config candidates (s', [])
    (∃ result, parallel.1 = .ok result ∧
      ((∃ result', sequential.1 = .ok result' ∧
          bare NotFound.untimed result' = bare NotFound.untimed result) ∨
        (sequential.1 = .error .crashed ∧ Crashes config ports candidates))) ∧
      Leakless answer sequential ∧ Leakless answer' parallel :=
  ⟨agrees_or_crashes hseq hpar, leakless_of_custody (custody_discover ..) answer s,
    leakless_discoverParallel schedule budget config candidates answer' s'⟩

/-- A port that cannot be opened and a board that is a candidate twice: both searches find the board
where the caller names it first, though side by side the other thread opens the first line. -/
theorem parallel_agrees_busy_port :
    let reply : Bytes := [2, 0, 0, 0, 10, 0, 0x8B, 5, 0x51, 2, 3, 0, 2, 5, 0x12, 4, 0xE4, 0x5E]
    let bench := Bench.ofPorts
      (.scripts [⟨"a", none, some "busy", []⟩, ⟨"b", none, none, [.data reply]⟩])
    let ports : String → UInt32 → Port := fun identifier baudRate =>
      if identifier = "a" then ⟨.error (.openFailed "a" baudRate "busy"), .ok (), []⟩
      else ⟨.ok (), .ok (), [.bytes reply]⟩
    let candidates := ["a", "b", "b"]
    let schedule := [2, 1, 2, 0, 1, 2, 0, 1, 2, 1]
    let sequential := (discover 9 .default candidates).run (recorded Bench.answer) (bench, [])
    let parallel :=
      discoverParallel (recorded Bench.answer) schedule 9 .default candidates (bench, [])
    AnsweredBy 9 ports
        ((discover 9 .default candidates).course (recorded Bench.answer) (bench, [])) ∧
      (∀ i < candidates.length, AnsweredBy 9 ports
        (threadCourse (recorded Bench.answer) i schedule
          (candidates.map (probe 9 .default), (bench, [])))) ∧
      ∃ session session', sequential.1 = .ok (.ok session) ∧ parallel.1 = .ok (.ok session') ∧
        bare NotFound.untimed (.ok session) = bare NotFound.untimed (.ok session') ∧
        session.identifier = "b" ∧ session.line = some 0 ∧ session'.line = some 1 := by
  intro reply bench ports candidates schedule sequential parallel
  have hseq : AnsweredBy 9 ports
      ((discover 9 .default candidates).course (recorded Bench.answer) (bench, [])) := by
    decide +kernel
  have hpar : ∀ i < candidates.length, AnsweredBy 9 ports
      (threadCourse (recorded Bench.answer) i schedule
        (candidates.map (probe 9 .default), (bench, []))) := by
    decide +kernel
  have hs : sequential.1.map (·.toOption.map fun session => (session.identifier, session.line)) =
      .ok (some ("b", some 0)) := by decide +kernel
  have hp : parallel.1.map (·.toOption.map (·.line)) = .ok (some (some 1)) := by decide +kernel
  obtain ⟨⟨result, hresult, hagree⟩, -⟩ := parallel_agrees Bench.answer bench Bench.answer bench
    schedule 9 .default candidates ports hseq hpar
  change parallel.1 = .ok result at hresult
  refine ⟨hseq, hpar, ?_⟩
  rcases hagree with ⟨result', hresult', hbare⟩ | ⟨hcrashed, -⟩
  · change sequential.1 = .ok result' at hresult'
    rw [hresult'] at hs
    rw [hresult] at hp
    rcases result' with e' | session
    · cases hs
    · rcases result with e | session'
      · cases hp
      · obtain ⟨hid, hline⟩ := Prod.mk.inj (Option.some.inj (Except.ok.inj hs))
        exact ⟨session, session', hresult', hresult, hbare, hid, hline,
          Option.some.inj (Except.ok.inj hp)⟩
  · change sequential.1 = .error .crashed at hcrashed
    rw [hcrashed] at hs
    cases hs

end Discovery

end RadarHost
