import RadarHost.Discovery.Probe

/-!
# Probing side by side

All candidates are probed at once, each by a thread of its own. The first session in the order of
the candidates is kept (`discoverParallel`), whatever the order in which the threads come to their
ends.
-/

namespace RadarHost

namespace Discovery

/-- What the probe of a candidate came to, once its thread has ended. A thread that broke off adds
no failure. -/
def joined (candidate : String) : Dialogue.Ending (Except NotFound Session) →
    Dialogue (Except NotFound Session)
  | .ok result => return result
  | .error _ => do
    Dialogue.perform (.report (.probeCrashed candidate))
    return .error ⟨[]⟩

/-- Waits for the threads in order. -/
def joinAll : List (String × Dialogue.Ending (Except NotFound Session)) →
    Dialogue (List (Except NotFound Session))
  | [] => return []
  | (candidate, ending) :: rest => do
    let result ← joined candidate ending
    let results ← joinAll rest
    return result :: results

/-- Keeps the first session and closes the others; gives all failures if there is none. -/
def select : List (Except NotFound Session) → (found : Option Session) →
    List AttemptFailure → Dialogue (Except NotFound Session)
  | [], some session, _ => return .ok session
  | [], none, failures => return .error ⟨failures⟩
  | .ok session :: rest, none, failures => select rest (some session) failures
  | .ok extra :: rest, some session, failures => do
    extra.discard
    select rest (some session) failures
  | .error e :: rest, found, failures => select rest found (failures ++ e.attempts)

/-- Probes all candidates side by side, one thread each, and keeps the first session in the order
of the candidates. The schedule says in which order the threads ask their questions. -/
def discoverParallel {σ : Type} (answer : Dialogue.Surroundings σ) (schedule : List Nat)
    (budget : Nat) (config : DiscoveryConfig) (candidates : List String) (s : σ) :
    Dialogue.Ending (Except NotFound Session) × σ :=
  let (endings, s) :=
    Dialogue.runThreads answer schedule (candidates.map (probe budget config)) s
  Dialogue.run answer
    (do select (← joinAll (candidates.zip endings)) none []) s

end Discovery

end RadarHost
