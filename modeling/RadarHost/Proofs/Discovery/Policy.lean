import RadarHost.Proofs.Discovery.Attempts

/-!
# The order of a search

A search calls for lines in an order that the results of its attempts decide: the candidates one
after the other (`Searched`), each at the primary rate, and at the fallback rate if the first
attempt says that the link was bad (`Tried`), until one attempt succeeds. What the search comes to
is told by the same attempts (`conclude`). `search_follows_policy` says so of every search, whatever
its surroundings answer.
-/

namespace RadarHost

open Dialogue

namespace Discovery

/-! ## Attempts in order -/

/-- A call for a line, and what came of the attempt that made it. -/
structure Try where
  call : Call
  result : Ending (Except AttemptError Session)

namespace Try

/-- An attempt at a candidate at a rate. -/
structure At (identifier : String) (baudRate : UInt32) (t : Try) : Prop where
  identifier_eq : t.call.identifier = identifier
  baudRate_eq : t.call.baudRate = baudRate

/-- An attempt that was rejected. -/
def Failed (t : Try) : Prop := ∃ cause, t.result = .ok (.error cause)

/-- An attempt that failed because the line did, or because the reply was damaged. -/
def Retryable (t : Try) : Prop :=
  (∃ error, t.result = .ok (.error (.transport error))) ∨
    ∃ error, t.result = .ok (.error (.integrity error))

/-- The failure of an attempt, with the candidate and the rate of its call. -/
structure FailedAs (t : Try) (failure : AttemptFailure) : Prop where
  identifier_eq : failure.identifier = t.call.identifier
  baudRate_eq : failure.baudRate = t.call.baudRate
  cause_eq : t.result = .ok (.error failure.cause)

variable {t : Try} {cause : AttemptError}

theorem retryable_iff (h : t.result = .ok (.error cause)) :
    t.Retryable ↔ cause.isRetryable = true := by
  unfold Retryable
  rw [h]
  cases cause with
  | transport error => exact ⟨fun _ => rfl, fun _ => .inl ⟨error, rfl⟩⟩
  | integrity error => exact ⟨fun _ => rfl, fun _ => .inr ⟨error, rfl⟩⟩
  | refused error => exact ⟨by rintro (⟨_, ⟨⟩⟩ | ⟨_, ⟨⟩⟩), nofun⟩
  | unknownBoard vid pid => exact ⟨by rintro (⟨_, ⟨⟩⟩ | ⟨_, ⟨⟩⟩), nofun⟩

theorem Retryable.failed (h : t.Retryable) : t.Failed := by
  rcases h with ⟨_, h⟩ | ⟨_, h⟩
  · exact ⟨_, h⟩
  · exact ⟨_, h⟩

end Try

/-- The attempts at a candidate: at the first rate, and at the next one if and only if that attempt
failed because the link was bad. -/
inductive Tried (identifier : String) : List UInt32 → List Try → Prop
  | none : Tried identifier [] []
  | last {baudRate : UInt32} {rates : List UInt32} {t : Try} (h : t.At identifier baudRate)
    (hr : ¬ t.Retryable) : Tried identifier (baudRate :: rates) [t]
  | next {baudRate : UInt32} {rates : List UInt32} {t : Try} {tries : List Try}
    (h : t.At identifier baudRate) (hr : t.Retryable) (hs : Tried identifier rates tries) :
    Tried identifier (baudRate :: rates) (t :: tries)

/-- The attempts of a search through candidates: at the first one, and at the next one if and only
if they all failed. -/
inductive Searched (config : DiscoveryConfig) : List String → List Try → Prop
  | none : Searched config [] []
  | last {candidate : String} {rest : List String} {tries : List Try}
    (h : Tried candidate [config.primaryBaudRate, config.fallbackBaudRate] tries)
    (hl : ∃ t ∈ tries, ¬ t.Failed) : Searched config (candidate :: rest) tries
  | next {candidate : String} {rest : List String} {tries later : List Try}
    (h : Tried candidate [config.primaryBaudRate, config.fallbackBaudRate] tries)
    (hf : ∀ t ∈ tries, t.Failed) (hs : Searched config rest later) :
    Searched config (candidate :: rest) (tries ++ later)

/-- An ending, with failures that came before. -/
def after (failures : List AttemptFailure) :
    Ending (Except NotFound Session) → Ending (Except NotFound Session)
  | .ok (.error e) => .ok (.error ⟨failures ++ e.attempts⟩)
  | e => e

/-- What a search comes to, told by its attempts: the first session, or else the failures of all. -/
def conclude : List Try → Ending (Except NotFound Session)
  | [] => .ok (.error ⟨[]⟩)
  | t :: tries =>
    match t.result with
    | .error why => .error why
    | .ok (.ok session) => .ok (.ok session)
    | .ok (.error cause) => after [⟨t.call.identifier, t.call.baudRate, cause⟩] (conclude tries)

/-- An attempt that ends a search, and what the search comes to with it. -/
inductive Try.Decides (t : Try) : Ending (Except NotFound Session) → Prop
  | found {session : Session} (h : t.result = .ok (.ok session)) : t.Decides (.ok (.ok session))
  | broken {why : Breakdown} (h : t.result = .error why) : t.Decides (.error why)

theorem Try.Decides.not_failed {t : Try} {e : Ending (Except NotFound Session)}
    (h : t.Decides e) : ¬ t.Failed := by
  rintro ⟨cause, hc⟩
  cases h with
  | found h => cases h.symm.trans hc
  | broken h => cases h.symm.trans hc

theorem after_nil (e : Ending (Except NotFound Session)) : after [] e = e := by
  rcases e with _ | _ | _ <;> rfl

theorem after_after (failures later : List AttemptFailure) (e : Ending (Except NotFound Session)) :
    after failures (after later e) = after (failures ++ later) e := by
  rcases e with why | e | session
  · rfl
  · simp only [after, List.append_assoc]
  · rfl

section

variable {config : DiscoveryConfig} {identifier : String} {rates : List UInt32}
  {candidates : List String} {tries : List Try}

theorem conclude_append (tries later : List Try) :
    conclude (tries ++ later) =
      match conclude tries with
      | .ok (.error e) => after e.attempts (conclude later)
      | e => e := by
  induction tries with
  | nil => exact (after_nil _).symm
  | cons t tries ih =>
    rw [List.cons_append, conclude, conclude, ih]
    rcases t.result with why | cause | session
    · rfl
    · rcases conclude tries with why | e | session
      · rfl
      · exact after_after ..
      · rfl
    · rfl

/-- A search fails with one failure for each of its attempts, in order, or an attempt decides it. -/
theorem conclude_cases (tries : List Try) :
    (∃ failures, List.Forall₂ Try.FailedAs tries failures ∧
      conclude tries = .ok (.error ⟨failures⟩)) ∨
    ∃ earlier t later, tries = earlier ++ t :: later ∧ (∀ x ∈ earlier, x.Failed) ∧
      t.Decides (conclude tries) := by
  induction tries with
  | nil => exact .inl ⟨[], .nil, rfl⟩
  | cons t tries ih =>
    rw [conclude]
    rcases hr : t.result with why | cause | session
    · exact .inr ⟨[], t, tries, rfl, List.forall_mem_nil _, .broken hr⟩
    · rcases ih with ⟨failures, hf, he⟩ | ⟨earlier, t', later, rfl, hfailed, hd⟩
      · rw [he]
        exact .inl ⟨_, .cons ⟨rfl, rfl, hr⟩ hf, rfl⟩
      · refine .inr ⟨t :: earlier, t', later, rfl,
          List.forall_mem_cons.2 ⟨⟨cause, hr⟩, hfailed⟩, ?_⟩
        generalize conclude (earlier ++ t' :: later) = e at hd
        cases hd with
        | found h => exact .found h
        | broken h => exact .broken h
    · exact .inr ⟨[], t, tries, rfl, List.forall_mem_nil _, .found hr⟩

theorem failed_of_failedAs {failures : List AttemptFailure}
    (h : List.Forall₂ Try.FailedAs tries failures) : ∀ t ∈ tries, t.Failed := by
  induction h with
  | nil => exact List.forall_mem_nil _
  | cons hf _ ih => exact List.forall_mem_cons.2 ⟨⟨_, hf.cause_eq⟩, ih⟩

theorem failedAs_of_conclude {e : NotFound} (h : conclude tries = .ok (.error e)) :
    List.Forall₂ Try.FailedAs tries e.attempts := by
  rcases conclude_cases tries with ⟨failures, hf, hc⟩ | ⟨_, _, _, _, _, hd⟩
  · cases hc.symm.trans h
    exact hf
  · rw [h] at hd
    cases hd

/-- Nothing is tried at a candidate after an attempt that did not fail. -/
theorem Tried.failed_dropLast (h : Tried identifier rates tries) :
    ∀ t ∈ tries.dropLast, t.Failed := by
  induction h with
  | none => exact List.forall_mem_nil _
  | last h hr => exact List.forall_mem_nil _
  | @next baudRate rates t tries h hr hs ih =>
    cases tries with
    | nil => exact List.forall_mem_nil _
    | cons t' tries => exact List.forall_mem_cons.2 ⟨hr.failed, ih⟩

/-- Nothing is tried after an attempt that did not fail. -/
theorem Searched.failed_dropLast (h : Searched config candidates tries) :
    ∀ t ∈ tries.dropLast, t.Failed := by
  induction h with
  | none => exact List.forall_mem_nil _
  | last h hl => exact h.failed_dropLast
  | @next candidate rest tries later h hf hs ih =>
    cases later with
    | nil =>
      rw [List.append_nil]
      exact fun t ht => hf t (List.dropLast_subset tries ht)
    | cons t later =>
      rw [List.dropLast_append_of_ne_nil (List.cons_ne_nil t later)]
      exact List.forall_mem_append.2 ⟨hf, ih⟩

/-! ## Courses -/

/-- The calls in a course are those of some attempts, in order, and each attempt came to what it
heard. -/
structure Shows (budget : Nat) (config : DiscoveryConfig) (course : List Exchange)
    (tries : List Try) : Prop where
  calls_eq : calls course = tries.map Try.call
  muted : Muted course
  attempted : ∀ t ∈ tries, Attempted budget config t.call t.result

variable {budget : Nat} {course later : List Exchange}

theorem Shows.append {tries' : List Try} (h : Shows budget config course tries)
    (h' : Shows budget config later tries') :
    Shows budget config (course ++ later) (tries ++ tries') where
  calls_eq := by rw [calls_append h'.muted, h.calls_eq, h'.calls_eq, List.map_append]
  muted := h.muted.append h'.muted
  attempted := List.forall_mem_append.2 ⟨h.attempted, h'.attempted⟩

theorem shows_nil : Shows budget config [] [] := ⟨rfl, ⟨rfl, rfl, rfl⟩, List.forall_mem_nil _⟩

theorem shows_report (event : Event) : Shows budget config [⟨.report event, ()⟩] [] :=
  ⟨rfl, muted_report event, List.forall_mem_nil _⟩

/-- The course of an attempt shows the attempt. -/
theorem shows_attempt {baudRate : UInt32} {e : Ending (Except AttemptError Session)}
    (h : Follows (attempt budget config identifier baudRate) course e) :
    ∃ t : Try, t.At identifier baudRate ∧ t.result = e ∧ Shows budget config course [t] := by
  obtain ⟨call, hcalls, hmuted, hid, hrate, ha⟩ := follows_attempt h
  exact ⟨⟨call, e⟩, ⟨hid, hrate⟩, rfl, hcalls, hmuted, List.forall_mem_singleton.2 ha⟩

theorem follows_probeAt {failures : List AttemptFailure} {e : Ending (Except NotFound Session)}
    (h : Follows (probeAt budget config identifier rates failures) course e) :
    ∃ tries, Shows budget config course tries ∧ Tried identifier rates tries ∧
      e = after failures (conclude tries) := by
  induction rates generalizing failures course with
  | nil =>
    obtain ⟨rfl, rfl⟩ := Follows.of_done h
    exact ⟨[], shows_nil, .none, by rw [conclude, after, List.append_nil]⟩
  | cons baudRate rates ih =>
    rcases Follows.of_bind (d := attempt budget config identifier baudRate) h with
      ⟨why, ha, rfl⟩ | ⟨result, first, rest, rfl, ha, hn⟩
    · obtain ⟨t, hat, hr, hs⟩ := shows_attempt ha
      refine ⟨[t], hs, .last hat ?_, by rw [conclude, hr]; rfl⟩
      exact fun hf => Try.Decides.not_failed (.broken hr) hf.failed
    · obtain ⟨t, hat, hr, hs⟩ := shows_attempt ha
      cases result with
      | ok session =>
        obtain ⟨rfl, rfl⟩ := Follows.of_done hn
        rw [List.append_nil]
        refine ⟨[t], hs, .last hat ?_, by rw [conclude, hr]; rfl⟩
        exact fun hf => Try.Decides.not_failed (.found hr) hf.failed
      | error cause =>
        have hc (tries : List Try) : after failures (conclude (t :: tries)) =
            after (failures ++ [⟨identifier, baudRate, cause⟩]) (conclude tries) := by
          rw [conclude, hr, hat.identifier_eq, hat.baudRate_eq]
          exact after_after ..
        obtain ⟨_, rest, rfl, hif⟩ := Follows.of_ask hn
        have hs' := hs.append (shows_report (.attemptFailed identifier baudRate cause))
        change Follows (if cause.isRetryable then _ else _) rest e at hif
        split at hif
        · rename_i hretry
          obtain ⟨tries, hlater, htried, rfl⟩ := ih hif
          refine ⟨t :: tries, ?_, .next hat ((Try.retryable_iff hr).2 hretry) htried,
            (hc tries).symm⟩
          have hall := hs'.append hlater
          rwa [List.append_assoc] at hall
        · rename_i hretry
          obtain ⟨rfl, rfl⟩ := Follows.of_done hif
          refine ⟨[t], hs', .last hat fun hf => hretry ((Try.retryable_iff hr).1 hf), ?_⟩
          rw [hc, conclude, after, List.append_nil]

theorem follows_probe {e : Ending (Except NotFound Session)}
    (h : Follows (probe budget config identifier) course e) :
    ∃ tries, Shows budget config course tries ∧ Tried identifier config.baudRates tries ∧
      e = conclude tries := by
  obtain ⟨tries, hs, ht, he⟩ := follows_probeAt h
  exact ⟨tries, hs, ht, by rw [he, after_nil]⟩

theorem Searched.of_decided {candidate : String} (h : Tried candidate config.baudRates tries)
    (hd : ∀ e, conclude tries ≠ .ok (.error e)) (rest : List String) :
    Searched config (candidate :: rest) tries := by
  rcases conclude_cases tries with ⟨failures, -, he⟩ | ⟨earlier, t, later, rfl, -, ht⟩
  · exact absurd he (hd _)
  · exact .last h ⟨t, List.mem_append_right _ (List.mem_cons_self ..), ht.not_failed⟩

theorem follows_probeAll {failures : List AttemptFailure} {e : Ending (Except NotFound Session)}
    (h : Follows (probeAll budget config candidates failures) course e) :
    ∃ tries, Shows budget config course tries ∧ Searched config candidates tries ∧
      e = after failures (conclude tries) := by
  induction candidates generalizing failures course with
  | nil =>
    obtain ⟨rfl, rfl⟩ := Follows.of_done h
    exact ⟨[], shows_nil, .none, by rw [conclude, after, List.append_nil]⟩
  | cons candidate rest ih =>
    rcases Follows.of_bind (d := probe budget config candidate) h with
      ⟨why, hp, rfl⟩ | ⟨result, first, later, rfl, hp, hn⟩
    · obtain ⟨tries, hs, htried, he⟩ := follows_probe hp
      have hsearched := Searched.of_decided htried (fun _ h => nomatch he.trans h) rest
      exact ⟨tries, hs, hsearched, by rw [← he]; rfl⟩
    · obtain ⟨tries, hs, htried, he⟩ := follows_probe hp
      cases result with
      | ok session =>
        obtain ⟨rfl, rfl⟩ := Follows.of_done hn
        rw [List.append_nil]
        have hsearched := Searched.of_decided htried (fun _ h => nomatch he.trans h) rest
        exact ⟨tries, hs, hsearched, by rw [← he]; rfl⟩
      | error notFound =>
        obtain ⟨tries', hlater, hsearched, rfl⟩ := ih hn
        refine ⟨_, hs.append hlater,
          .next htried (failed_of_failedAs (failedAs_of_conclude he.symm)) hsearched, ?_⟩
        rw [conclude_append, ← he]
        exact (after_after ..).symm

theorem follows_discover {e : Ending (Except NotFound Session)}
    (h : Follows (discover budget config candidates) course e) :
    ∃ tries, Shows budget config course tries ∧ Searched config candidates tries ∧
      e = conclude tries := by
  rcases Follows.of_bind (d := probeAll budget config candidates []) h with
    ⟨why, hp, rfl⟩ | ⟨result, first, rest, rfl, hp, hn⟩
  · obtain ⟨tries, hs, hsearched, he⟩ := follows_probeAll hp
    exact ⟨tries, hs, hsearched, he.trans (after_nil _)⟩
  · obtain ⟨tries, hs, hsearched, he⟩ := follows_probeAll hp
    rw [after_nil] at he
    cases result with
    | ok session =>
      obtain ⟨rfl, rfl⟩ := Follows.of_done hn
      rw [List.append_nil]
      exact ⟨tries, hs, hsearched, he⟩
    | error notFound =>
      obtain ⟨_, rest, rfl, hd⟩ := Follows.of_ask hn
      obtain ⟨rfl, rfl⟩ := Follows.of_done hd
      have hall := hs.append (shows_report (.noBoardFound candidates.length))
      rw [List.append_nil] at hall
      exact ⟨tries, hall, hsearched, he⟩

/-! ## Searches -/

/-- The session of a search has the candidate and the rate of a call, and its board is the first
known one with the identity that was heard. -/
structure FoundBy (config : DiscoveryConfig) (call : Call) (session : Session) : Prop where
  identifier_eq : session.identifier = call.identifier
  baudRate_eq : session.baudRate = call.baudRate
  known : session.descriptor.vid = session.info.vid ∧ session.descriptor.pid = session.info.pid
  first : ∃ before later, config.knownBoards = before ++ session.descriptor :: later ∧
    ∀ d ∈ before, ¬ (d.vid = session.info.vid ∧ d.pid = session.info.pid)

theorem findBoard_of_identified {packet : Bytes} {info : BoardInfo} {descriptor : BoardDescriptor}
    (h : identified config packet = .ok (info, descriptor)) :
    config.findBoard info = some descriptor := by
  unfold identified at h
  split at h
  · cases h
  · cases h
  · split at h
    · cases h
    · split at h
      · cases h
      · rename_i hfind
        cases h
        exact hfind

theorem foundBy_of_attempted {call : Call} {session : Session}
    (h : Attempted budget config call (.ok (.ok session))) : FoundBy config call session := by
  generalize he : (Except.ok (Except.ok session) : Ending (Except AttemptError Session)) = e at h
  cases h with
  | notOpened => cases he
  | notWritten => cases he
  | @awaited line m ho hw ha =>
    rcases m with why | ⟨packet | _ | error, reader⟩
    · cases he
    · have he : Except.ok session = (identified config packet).map _ := Except.ok.inj he
      rcases hi : identified config packet with cause | ⟨info, descriptor⟩
      · rw [hi] at he
        cases he
      · rw [hi] at he
        cases he
        obtain ⟨hd, before, later, hk, hb⟩ :=
          List.find?_eq_some_iff_append.1 (findBoard_of_identified hi)
        simp only [BoardDescriptor.describes, Bool.and_eq_true, beq_iff_eq, Bool.not_eq_true',
          Bool.and_eq_false_iff, beq_eq_false_iff_ne, ← not_and_or] at hd hb
        exact ⟨rfl, rfl, hd, before, later, hk, hb⟩
    · cases he
    · cases he

theorem Searched.eq_concat {earlier later : List Try} {t : Try} (ht : ¬ t.Failed)
    (h : Searched config candidates (earlier ++ t :: later)) : later = [] := by
  cases later with
  | nil => rfl
  | cons t' later =>
    have hd := h.failed_dropLast
    rw [List.dropLast_append_of_ne_nil (List.cons_ne_nil _ _)] at hd
    exact absurd (hd t (List.mem_append_right _ (List.mem_cons_self ..))) ht

end

/-- Whatever its surroundings answer, a search calls for lines at the candidates in order: at the
primary rate, and at the fallback rate if and only if the attempt at the primary one failed because
the line did or the reply was damaged; and it makes no call after an attempt that succeeds. If it
finds no board, it gives one failure for each call, in order, with the candidate and the rate of the
call and the cause of its attempt. The session that it finds is that of its last call, and its board
is the first known one with the identity that was heard there. -/
theorem search_follows_policy {σ : Type} (answer : Surroundings σ) (s : σ) (budget : Nat)
    (config : DiscoveryConfig) (candidates : List String) :
    ∃ tries, calls ((discover budget config candidates).course answer s) = tries.map Try.call ∧
      (∀ t ∈ tries, Attempted budget config t.call t.result) ∧ Searched config candidates tries ∧
      match ((discover budget config candidates).run answer s).1 with
      | .ok (.error e) => List.Forall₂ Try.FailedAs tries e.attempts
      | .ok (.ok session) =>
        ∃ earlier t, tries = earlier ++ [t] ∧ (∀ x ∈ earlier, x.Failed) ∧
          t.result = .ok (.ok session) ∧ FoundBy config t.call session
      | .error why =>
        ∃ earlier t, tries = earlier ++ [t] ∧ (∀ x ∈ earlier, x.Failed) ∧
          t.result = .error why := by
  obtain ⟨tries, hs, hsearched, he⟩ :=
    follows_discover (follows_course answer (discover budget config candidates) s)
  refine ⟨tries, hs.calls_eq, hs.attempted, hsearched, ?_⟩
  rw [he]
  rcases conclude_cases tries with ⟨failures, hf, hc⟩ | ⟨earlier, t, later, rfl, hfailed, hd⟩
  · rw [hc]
    exact hf
  · obtain rfl := hsearched.eq_concat hd.not_failed
    have ha := hs.attempted t (List.mem_append_right _ (List.mem_cons_self ..))
    generalize conclude (earlier ++ [t]) = e at hd
    cases hd with
    | found h =>
      rw [h] at ha
      exact ⟨earlier, t, rfl, hfailed, h, foundBy_of_attempted ha⟩
    | broken h => exact ⟨earlier, t, rfl, hfailed, h⟩

end Discovery

end RadarHost
