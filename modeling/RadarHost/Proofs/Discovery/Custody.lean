import RadarHost.Discovery.Parallel
import RadarHost.Proofs.Link.Custody

/-!
# No line outlives a search

Whatever its surroundings answer, a search for a board ends with no line in its hands but that of
the session it found: `custody_attempt`, `custody_probe` and `custody_discover` say so of the
courses of questions, and `no_line_leaks` of the records of their runs, with what becomes of the
line when the session is closed or given up. Threads that probe side by side are no different: a
session that comes after the first one is closed (`custody_select`).
-/

namespace RadarHost

open Dialogue

/-! ## Exchanges -/

namespace PacketReader

theorem handless_fill (r : PacketReader) (line : Nat) (timeout : Duration) :
    (r.fill line timeout).Handless := by
  refine (Handless.perform rfl).bind fun answer => ?_
  cases answer <;> trivial

theorem handless_replyTurn (line : Nat) (command : Command) (started deadline : Instant)
    (r : PacketReader) : (replyTurn line command started deadline r).Handless := by
  refine (Handless.reportAll _).bind fun _ => ?_
  split
  · split <;> trivial
  · refine (Handless.perform rfl).bind fun now => ?_
    split
    · trivial
    · refine (handless_fill _ _ _).bind fun filled => ?_
      cases filled <;> trivial

theorem handless_exchange (budget line : Nat) (command : Command) (payload : Bytes)
    (timeout : Duration) (r : PacketReader) :
    (r.exchange budget line command payload timeout).Handless := by
  unfold exchange
  split
  · trivial
  · refine (Handless.perform rfl).bind fun written => ?_
    cases written with
    | error e => trivial
    | ok _ =>
      refine (Handless.perform rfl).bind fun started => ?_
      exact Handless.loop (handless_replyTurn _ _ _ _) _ _

end PacketReader

/-! ## Sessions -/

namespace Session

/-- What may be done with a session that is no longer wanted. -/
inductive Parting
  | close
  | discard
  | closeAny

/-- Parts with a session in one way; one that has been given up has no line left. -/
def part : Parting → Session → Dialogue Session
  | .close, s => s.close
  | .discard, s => do
    s.discard
    return { s with line := none }
  | .closeAny, s => do
    closeAny (some s)
    return { s with line := none }

/-- Parts with a session time and again. -/
def partAll : List Parting → Session → Dialogue Session
  | [], s => return s
  | parting :: rest, s => do partAll rest (← s.part parting)

/-- Every way to part with a session is to close it. -/
theorem part_eq_close (parting : Parting) (s : Session) : s.part parting = s.close := by
  obtain ⟨line, identifier, baudRate, info, descriptor, reader, commandTimeout, lastSequence⟩ := s
  cases parting <;> cases line <;> rfl

theorem close_of_closed {s : Session} (h : s.line = none) : s.close = .done s := by
  unfold close
  rw [h]
  rfl

theorem partAll_of_closed {s : Session} (h : s.line = none) (partings : List Parting) :
    partAll partings s = .done s := by
  induction partings with
  | nil => rfl
  | cons parting rest ih =>
    show (s.part parting).bind (partAll rest) = _
    rw [part_eq_close, close_of_closed h]
    exact ih

/-- To part with a session once more makes no difference. -/
theorem partAll_cons (parting : Parting) (partings : List Parting) (s : Session) :
    partAll (parting :: partings) s = s.close := by
  show (s.part parting).bind (partAll partings) = _
  rw [part_eq_close]
  cases hl : s.line with
  | none => rw [close_of_closed hl]; exact partAll_of_closed hl partings
  | some line =>
    have hp := partAll_of_closed (s := { s with line := none }) rfl partings
    unfold close
    rw [hl]
    show ask _ _ = ask _ _
    congr 1
    funext _
    show ask _ _ = ask _ _
    congr 1
    funext _
    exact hp

/-- A session that is closed leaves nothing in hand. -/
theorem custody_close {s : Session} {line : Nat} (h : s.line = some line) :
    s.close.Custody (fun _ held => held = 0) {line} := by
  unfold close
  rw [h]
  exact ⟨Multiset.mem_singleton_self line, fun _ => ⟨trivial, fun _ =>
    Multiset.erase_singleton line⟩⟩

end Session

/-! ## Searches -/

namespace Discovery

/-- What a search has in hand at its end: the line of the session that it found, or nothing. -/
def Owns {ε : Type} : Ending (Except ε Session) → Multiset Nat → Prop
  | .ok (.ok session), held => ∃ line, session.line = some line ∧ held = {line}
  | _, held => held = 0

theorem handless_handshake (budget : Nat) (config : DiscoveryConfig) (line : Nat)
    (reader : PacketReader) : (handshake budget config line reader).Handless := by
  refine (PacketReader.handless_exchange _ _ _ _ _ _).bind fun result => ?_
  obtain ⟨payload | e, reader⟩ := result
  · trivial
  · dsimp only
    split
    · trivial
    · split <;> trivial

/-- An attempt closes the line that it opened, on every way but to a session. -/
theorem custody_attempt (budget : Nat) (config : DiscoveryConfig) (identifier : String)
    (baudRate : UInt32) : (attempt budget config identifier baudRate).Custody Owns 0 := by
  refine ⟨trivial, fun _ => ⟨trivial, fun opened => ?_⟩⟩
  cases opened with
  | error e => rfl
  | ok line =>
    show Custody Owns ((protect _ (handshake _ _ _ _)).bind _) {line}
    refine Custody.bind ((handless_handshake _ _ _ _).custody_protect line) ?_ ?_
    · rintro ⟨e | found, reader⟩ held rfl
      · exact ⟨Multiset.mem_singleton_self line, fun _ => Multiset.erase_singleton line⟩
      · exact ⟨trivial, fun _ => ⟨line, rfl, rfl⟩⟩
    · exact fun why held h => h

theorem custody_probeAt (budget : Nat) (config : DiscoveryConfig) (identifier : String)
    (rates : List UInt32) (failures : List AttemptFailure) :
    (probeAt budget config identifier rates failures).Custody Owns 0 := by
  induction rates generalizing failures with
  | nil => rfl
  | cons baudRate rates ih =>
    refine (custody_attempt budget config identifier baudRate).bind ?_ fun why held h => h
    rintro (cause | session) held h
    · cases h
      refine ⟨trivial, fun _ => ?_⟩
      show Custody Owns (if cause.isRetryable then _ else _) 0
      split
      · exact ih _
      · rfl
    · exact h

theorem custody_probe (budget : Nat) (config : DiscoveryConfig) (identifier : String) :
    (probe budget config identifier).Custody Owns 0 := custody_probeAt _ _ _ _ _

theorem custody_probeAll (budget : Nat) (config : DiscoveryConfig) (candidates : List String)
    (failures : List AttemptFailure) :
    (probeAll budget config candidates failures).Custody Owns 0 := by
  induction candidates generalizing failures with
  | nil => rfl
  | cons candidate rest ih =>
    refine (custody_probe budget config candidate).bind ?_ fun why held h => h
    rintro (e | session) held h
    · cases h
      exact ih _
    · exact h

theorem custody_discover (budget : Nat) (config : DiscoveryConfig) (candidates : List String) :
    (discover budget config candidates).Custody Owns 0 := by
  refine (custody_probeAll budget config candidates []).bind ?_ fun why held h => h
  rintro (e | session) held h
  · cases h
    exact ⟨trivial, fun _ => rfl⟩
  · exact h

/-! ## Side by side -/

/-- Joining a thread adds nothing to what its probe had in hand. -/
theorem custody_joined {ending : Ending (Except NotFound Session)} {held : Multiset Nat}
    (h : Owns ending held) (candidate : String) :
    (joined candidate ending).Custody
      (fun e after => ∃ r, e = .ok r ∧ Owns (.ok r) after) held := by
  cases ending with
  | ok result => exact ⟨result, rfl, h⟩
  | error why => exact ⟨trivial, fun _ => ⟨_, rfl, h⟩⟩

theorem custody_joinAll {endings : List (Ending (Except NotFound Session))} {held : Multiset Nat}
    (h : Shares Owns endings held) {candidates : List String}
    (hl : endings.length = candidates.length) :
    (joinAll (candidates.zip endings)).Custody
      (fun e after => ∃ rs, e = .ok rs ∧ Shares (fun r => Owns (.ok r)) rs after) held := by
  induction endings generalizing candidates held with
  | nil =>
    rw [List.zip_nil_right]
    exact ⟨[], rfl, h⟩
  | cons ending endings ih =>
    obtain _ | ⟨candidate, candidates⟩ := candidates
    · cases hl
    obtain ⟨mine, others, rfl, hm, ho⟩ := h
    refine ((custody_joined hm candidate).frame others).bind ?_ ?_
    · rintro result _ ⟨mine, rfl, _, ⟨⟩, hm⟩
      rw [add_comm]
      refine ((ih ho (Nat.succ.inj hl)).frame mine).bind ?_ ?_
      · rintro results _ ⟨others, rfl, _, ⟨⟩, ho⟩
        exact ⟨_, rfl, mine, others, add_comm others mine, hm, ho⟩
      · rintro why _ ⟨_, _, _, ⟨⟩, _⟩
    · rintro why _ ⟨_, _, _, ⟨⟩, _⟩

theorem discard_of_open {s : Session} {line : Nat} (h : s.line = some line) :
    s.discard =
      ask (.close line) fun _ => ask (.report (.sessionClosed s.identifier)) fun _ => done () := by
  unfold Session.discard Session.close
  rw [h]
  rfl

/-- What the session that is kept has in hand, if there is one yet. -/
def Kept : Option Session → Multiset Nat → Prop
  | some session, held => ∃ line, session.line = some line ∧ held = {line}
  | none, held => held = 0

/-- The session that is kept brings its line, and all others are closed. -/
theorem custody_select {results : List (Except NotFound Session)} {held : Multiset Nat}
    (h : Shares (fun r => Owns (.ok r)) results held) {found : Option Session} {mine : Multiset Nat}
    (hf : Kept found mine) (failures : List AttemptFailure) :
    (select results found failures).Custody Owns (mine + held) := by
  induction results generalizing found mine held failures with
  | nil =>
    cases h
    rw [add_zero]
    cases found with
    | none => exact hf
    | some session => exact hf
  | cons result results ih =>
    obtain ⟨his, others, rfl, hr, ho⟩ := h
    cases result with
    | error e =>
      cases hr
      rw [zero_add]
      cases found with
      | none => exact ih ho hf _
      | some session => exact ih ho hf _
    | ok session =>
      cases found with
      | none =>
        cases hf
        rw [zero_add]
        exact ih ho (show Kept (some session) his from hr) failures
      | some kept =>
        obtain ⟨line, hl, rfl⟩ := hr
        show Custody Owns (session.discard.bind fun _ => select results (some kept) failures) _
        rw [discard_of_open hl, add_left_comm]
        refine ⟨Multiset.mem_add.2 (.inl (Multiset.mem_singleton_self line)), fun _ =>
          ⟨trivial, fun _ => ?_⟩⟩
        show Custody Owns (select results (some kept) failures) (Multiset.erase _ line)
        rw [Multiset.singleton_add, Multiset.erase_cons_head]
        exact ih ho hf failures

/-! ## Records of searches -/

/-- What a search comes to, with the record of it: no line was closed but one that had been opened
and not been closed yet. Without a session, all lines that were opened have been closed. With one,
all but one have, which is the session's own; and to part with the session, in whatever ways and
however often, closes that one line once. -/
def Leakless {ε σ : Type} (answer : Surroundings σ)
    (r : Ending (Except ε Session) × σ × List Exchange) : Prop :=
  NeverOverdrawn r.2.2 ∧
    match r.1 with
    | .ok (.ok session) =>
      ∃ line, session.line = some line ∧ opened r.2.2 = line ::ₘ closed r.2.2 ∧
        ∀ parting partings,
          let r' := (session.partAll (parting :: partings)).run (recorded answer) r.2
          NeverOverdrawn r'.2.2 ∧ opened r'.2.2 = opened r.2.2 ∧
            closed r'.2.2 = line ::ₘ closed r.2.2
    | _ => opened r.2.2 = closed r.2.2

theorem opened_close {σ : Type} (answer : Surroundings σ) (session : Session)
    (w : σ × List Exchange) : opened (session.close.run (recorded answer) w).2.2 = opened w.2 := by
  unfold Session.close
  cases session.line with
  | none => rfl
  | some line =>
    show opened (w.2 ++ [⟨.close line, _⟩] ++ [⟨.report _, _⟩]) = opened w.2
    rw [opened_concat, opened_concat]
    exact (add_zero _).trans (add_zero _)

/-- A sound record with nothing in hand but the line of the session that was found. -/
theorem leakless_of_sound {ε σ : Type} {answer : Surroundings σ}
    {r : Ending (Except ε Session) × σ × List Exchange}
    (h : ∃ after, Owns r.1 after ∧ Sound r.2.2 after) : Leakless answer r := by
  obtain ⟨ending, w⟩ := r
  obtain ⟨after, ho, hs⟩ := h
  refine ⟨hs.covered, ?_⟩
  match ending, ho with
  | .error why, ho =>
    cases ho
    exact hs.balance.trans (add_zero _)
  | .ok (.error e), ho =>
    cases ho
    exact hs.balance.trans (add_zero _)
  | .ok (.ok session), ho =>
    obtain ⟨line, hl, rfl⟩ := ho
    have hb : opened w.2 = line ::ₘ closed w.2 := by
      rw [hs.balance, add_comm, Multiset.singleton_add]
    refine ⟨line, hl, hb, fun parting partings => ?_⟩
    obtain ⟨_, rfl, hc⟩ := (keeps_sound answer).run (Session.custody_close hl) hs
    rw [Session.partAll_cons]
    refine ⟨hc.covered, opened_close answer session w, ?_⟩
    rw [← hb, ← opened_close answer session w, hc.balance, add_zero]

theorem leakless_of_custody {ε σ : Type} {d : Dialogue (Except ε Session)}
    (h : d.Custody Owns 0) (answer : Surroundings σ) (s : σ) :
    Leakless answer (d.run (recorded answer) (s, [])) :=
  leakless_of_sound ((keeps_sound answer).run h sound_nil)

theorem leakless_discoverParallel {σ : Type} (schedule : List Nat) (budget : Nat)
    (config : DiscoveryConfig) (candidates : List String) (answer : Surroundings σ) (s : σ) :
    Leakless answer
      (discoverParallel (recorded answer) schedule budget config candidates (s, [])) := by
  have hp : Shares (·.Custody Owns) (candidates.map (probe budget config)) 0 := by
    induction candidates with
    | nil => rfl
    | cons candidate rest ih => exact ⟨0, 0, rfl, custody_probe budget config candidate, ih⟩
  obtain ⟨after, hw, hs⟩ := (keeps_sound answer).runThreads schedule (s := (s, [])) hp sound_nil
  have hl := length_runThreads (recorded answer) schedule (candidates.map (probe budget config))
    (s, [])
  rw [List.length_map] at hl
  refine leakless_of_sound ((keeps_sound answer).run
    (Custody.bind (custody_joinAll hw hl) ?_ ?_) hs)
  · rintro results held ⟨_, ⟨⟩, hr⟩
    have hc := custody_select hr (show Kept none 0 from rfl) []
    rwa [zero_add] at hc
  · rintro why held ⟨_, ⟨⟩, _⟩

/-- No line leaks out of a search, whatever its surroundings answer: out of an attempt, a probe, a
search through candidates in order, or one of all candidates side by side, in whatever order their
threads ask. -/
theorem no_line_leaks {σ : Type} (answer : Surroundings σ) (s : σ) (budget : Nat)
    (config : DiscoveryConfig) :
    (∀ identifier baudRate,
        Leakless answer
          ((attempt budget config identifier baudRate).run (recorded answer) (s, []))) ∧
      (∀ identifier,
        Leakless answer ((probe budget config identifier).run (recorded answer) (s, []))) ∧
      (∀ candidates,
        Leakless answer ((discover budget config candidates).run (recorded answer) (s, []))) ∧
      ∀ schedule candidates,
        Leakless answer
          (discoverParallel (recorded answer) schedule budget config candidates (s, [])) :=
  ⟨fun identifier baudRate => leakless_of_custody (custody_attempt _ _ identifier baudRate) _ _,
    fun identifier => leakless_of_custody (custody_probe _ _ identifier) _ _,
    fun candidates => leakless_of_custody (custody_discover _ _ candidates) _ _,
    fun schedule candidates => leakless_discoverParallel schedule _ _ candidates _ _⟩

end Discovery

end RadarHost
