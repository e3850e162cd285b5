import RadarHost.Proofs.Link.Custody

/-!
# The course of a dialogue

What a dialogue comes to is told by the answers that it is given. `Follows d course e` says that
`d`, given the answers of the exchanges in `course`, asks just their questions, and then ends with
`e`. Nothing is said of the surroundings that gave the answers, so that what is proved of a course
holds in all of them, and for a thread beside others as for a run alone:

* `Follows.of_bind`, `Follows.of_protect`: the course of dialogues put together, taken apart;
* `follows_course`: a run follows its own course;
* `Follows.of_progress`: what a dialogue has asked so far is the beginning of its course;
* `follows_threadCourse`: so does each of several threads, in whatever order their questions come.
-/

namespace RadarHost

namespace Dialogue

variable {α β σ : Type}

/-- Given the answers of some exchanges, a dialogue asks their questions and no others, and then has
come to an ending. -/
inductive Follows : Dialogue α → List Exchange → Ending α → Prop
  | done (value : α) : Follows (done value) [] (.ok value)
  | broken (why : Breakdown) : Follows (broken why) [] (.error why)
  | ask {action : Action} {next : action.Answer → Dialogue α} {course : List Exchange}
    {e : Ending α} (answer : action.Answer) (h : Follows (next answer) course e) :
    Follows (ask action next) (⟨action, answer⟩ :: course) e

/-! ## Dialogues put together -/

theorem bind_done (d : Dialogue α) : d.bind done = d := by
  induction d with
  | done value => rfl
  | broken why => rfl
  | ask action next ih => exact congrArg (ask action) (funext ih)

theorem bind_assoc {γ : Type} (d : Dialogue α) (f : α → Dialogue β) (g : β → Dialogue γ) :
    (d.bind f).bind g = d.bind fun a => (f a).bind g := by
  induction d with
  | done value => rfl
  | broken why => rfl
  | ask action next ih => exact congrArg (ask action) (funext ih)

/-! ## Courses taken apart -/

theorem Follows.of_ask {action : Action} {next : action.Answer → Dialogue α}
    {course : List Exchange} {e : Ending α} (h : Follows (.ask action next) course e) :
    ∃ answer rest, course = ⟨action, answer⟩ :: rest ∧ Follows (next answer) rest e := by
  cases h with
  | ask answer h => exact ⟨answer, _, rfl, h⟩

theorem Follows.of_done {value : α} {course : List Exchange} {e : Ending α}
    (h : Follows (.done value) course e) : course = [] ∧ e = .ok value := by
  cases h
  exact ⟨rfl, rfl⟩

/-- One dialogue after another: either the first one breaks off, or its value starts the second. -/
theorem Follows.of_bind {d : Dialogue α} {f : α → Dialogue β} {course : List Exchange}
    {e : Ending β} (h : Follows (d.bind f) course e) :
    (∃ why, Follows d course (.error why) ∧ e = .error why) ∨
      ∃ a first later, course = first ++ later ∧ Follows d first (.ok a) ∧
        Follows (f a) later e := by
  induction d generalizing course with
  | done value => exact .inr ⟨value, [], course, rfl, .done value, h⟩
  | broken why =>
    cases h
    exact .inl ⟨why, .broken why, rfl⟩
  | ask action next ih =>
    obtain ⟨answer, rest, rfl, hn⟩ := Follows.of_ask h
    rcases ih answer hn with ⟨why, hd, rfl⟩ | ⟨a, first, later, rfl, hd, hf⟩
    · exact .inl ⟨why, .ask answer hd, rfl⟩
    · exact .inr ⟨a, _, later, rfl, .ask answer hd, hf⟩

/-- A dialogue that is tidied up after if it breaks off. -/
theorem Follows.of_protect {cleanup : Dialogue Unit} {d : Dialogue α} {course : List Exchange}
    {e : Ending α} (h : Follows (protect cleanup d) course e) :
    (∃ value, Follows d course (.ok value) ∧ e = .ok value) ∨
      ∃ why first later, course = first ++ later ∧ Follows d first (.error why) ∧
        ((∃ why', Follows cleanup later (.error why') ∧ e = .error why') ∨
          Follows cleanup later (.ok ()) ∧ e = .error why) := by
  induction d generalizing course with
  | done value =>
    cases h
    exact .inl ⟨value, .done value, rfl⟩
  | broken why =>
    refine .inr ⟨why, [], course, rfl, .broken why, ?_⟩
    rcases Follows.of_bind h with ⟨why', hc, rfl⟩ | ⟨_, first, later, rfl, hc, hb⟩
    · exact .inl ⟨why', hc, rfl⟩
    · cases hb
      rw [List.append_nil]
      exact .inr ⟨hc, rfl⟩
  | ask asked next ih =>
    obtain ⟨answer, rest, rfl, hn⟩ := Follows.of_ask h
    rcases ih answer hn with ⟨value, hd, rfl⟩ | ⟨why, first, later, rfl, hd, hc⟩
    · exact .inl ⟨value, .ask answer hd, rfl⟩
    · exact .inr ⟨why, _, later, rfl, .ask answer hd, hc⟩

/-- A dialogue that closes its line if it breaks off. -/
theorem Follows.of_protect_close {d : Dialogue α} {line : Nat} {course : List Exchange}
    {e : Ending α} (h : Follows (protect (perform (.close line)) d) course e) :
    (∃ value, Follows d course (.ok value) ∧ e = .ok value) ∨
      ∃ why first, course = first ++ [⟨.close line, ()⟩] ∧ Follows d first (.error why) ∧
        e = .error why := by
  rcases h.of_protect with hd | ⟨why, first, later, rfl, hd, ⟨_, hc, _⟩ | ⟨hc, rfl⟩⟩
  · exact .inl hd
  · obtain ⟨_, rest, rfl, hn⟩ := Follows.of_ask hc
    cases hn
  · obtain ⟨_, rest, rfl, hn⟩ := Follows.of_ask hc
    cases hn
    exact .inr ⟨why, first, rfl, hd, rfl⟩

theorem Follows.of_reportAll {events : List Event} {course : List Exchange} {e : Ending Unit}
    (h : Follows (reportAll events) course e) :
    course = events.map (fun event => ⟨.report event, ()⟩) ∧ e = .ok () := by
  induction events generalizing course with
  | nil => exact Follows.of_done h
  | cons event events ih =>
    obtain ⟨answer, rest, rfl, hn⟩ := Follows.of_ask h
    obtain ⟨rfl, rfl⟩ := ih hn
    exact ⟨rfl, rfl⟩

/-- A course is of the kind that its dialogue asks for. -/
theorem Follows.asks {kind : Action → Prop} {d : Dialogue α} {course : List Exchange}
    {e : Ending α} (h : Follows d course e) (hd : d.Asks kind) : ∀ x ∈ course, kind x.1 := by
  induction h with
  | done value => exact List.forall_mem_nil _
  | broken why => exact List.forall_mem_nil _
  | ask answer h ih => exact List.forall_mem_cons.2 ⟨hd.1, ih (hd.2 answer)⟩

/-! ## Runs -/

/-- The exchanges of a run, in order. -/
def course (answer : Surroundings σ) : Dialogue α → σ → List Exchange
  | ask action next, s =>
    ⟨action, (answer action s).1⟩ :: (next (answer action s).1).course answer (answer action s).2
  | _, _ => []

theorem follows_course (answer : Surroundings σ) (d : Dialogue α) (s : σ) :
    Follows d (d.course answer s) (d.run answer s).1 := by
  induction d generalizing s with
  | done value => exact .done value
  | broken why => exact .broken why
  | ask action next ih => exact .ask _ (ih _ _)

/-- The record of a run is its course. -/
theorem record_recorded (answer : Surroundings σ) (d : Dialogue α) (s : σ)
    (record : List Exchange) :
    (d.run (recorded answer) (s, record)).2.2 = record ++ d.course answer s := by
  induction d generalizing s record with
  | done value => exact (List.append_nil record).symm
  | broken why => exact (List.append_nil record).symm
  | ask action next ih =>
    rw [course, List.append_cons]
    exact ih _ _ _

/-- An answer in a course was given in some state. -/
theorem exists_of_mem_course {answer : Surroundings σ} {d : Dialogue α} {s : σ} {x : Exchange}
    (h : x ∈ d.course answer s) : ∃ s', x.2 = (answer x.1 s').1 := by
  induction d generalizing s with
  | done value => cases h
  | broken why => cases h
  | ask action next ih =>
    rcases List.mem_cons.1 h with rfl | h
    · exact ⟨s, rfl⟩
    · exact ih _ h

/-- A run of one dialogue after another that comes to its end has come to the end of the first. -/
theorem exists_of_run_bind {answer : Surroundings σ} {d : Dialogue α} {f : α → Dialogue β}
    {s s' : σ} {b : β} (h : (d.bind f).run answer s = (.ok b, s')) :
    ∃ a mid, d.run answer s = (.ok a, mid) ∧ (f a).run answer mid = (.ok b, s') := by
  induction d generalizing s with
  | done value => exact ⟨value, s, rfl, h⟩
  | broken why => cases h
  | ask action next ih => exact ih _ h

/-- A dialogue after one that comes to its end: it is carried on from there. -/
theorem run_bind {answer : Surroundings σ} {d : Dialogue α} {f : α → Dialogue β} {s mid : σ}
    {a : α} (h : d.run answer s = (.ok a, mid)) :
    (d.bind f).run answer s = (f a).run answer mid ∧
      (d.bind f).course answer s = d.course answer s ++ (f a).course answer mid := by
  induction d generalizing s with
  | done value =>
    cases h
    exact ⟨rfl, rfl⟩
  | broken why => cases h
  | ask action next ih =>
    obtain ⟨hrun, hcourse⟩ := ih _ h
    refine ⟨hrun, ?_⟩
    rw [course, List.cons_append, ← hcourse]
    rfl

/-- A dialogue that comes to its end is not tidied up after. -/
theorem run_protect {answer : Surroundings σ} {d : Dialogue α} {s s' : σ} {a : α}
    (cleanup : Dialogue Unit) (h : d.run answer s = (.ok a, s')) :
    (protect cleanup d).run answer s = (.ok a, s') ∧
      (protect cleanup d).course answer s = d.course answer s := by
  induction d generalizing s with
  | done value => exact ⟨h, rfl⟩
  | broken why => cases h
  | ask action next ih =>
    obtain ⟨hrun, hcourse⟩ := ih _ h
    refine ⟨hrun, ?_⟩
    rw [protect, course, course, hcourse]

/-! ## Dialogues in progress -/

/-- The exchange that a dialogue makes when it asks its next question. -/
def exchange? (answer : Surroundings σ) : Dialogue α → σ → Option Exchange
  | ask action _, s => some ⟨action, (answer action s).1⟩
  | _, _ => none

/-- A dialogue and its surroundings when it has asked some number of questions more, or all that it
had left. -/
def progress (answer : Surroundings σ) : (questions : Nat) → Dialogue α → σ → Dialogue α × σ
  | 0, d, s => (d, s)
  | questions + 1, d, s =>
    progress answer questions (d.advance answer s).1 (d.advance answer s).2

/-- The exchanges that it has made by then. -/
def progressCourse (answer : Surroundings σ) : (questions : Nat) → Dialogue α → σ → List Exchange
  | 0, _, _ => []
  | questions + 1, d, s =>
    (d.exchange? answer s).toList ++
      progressCourse answer questions (d.advance answer s).1 (d.advance answer s).2

/-- What a dialogue makes of its next question is the beginning of its course. -/
theorem Follows.of_advance {answer : Surroundings σ} {thread : Dialogue α} {s : σ}
    {rest : List Exchange} {e : Ending α} (h : Follows (thread.advance answer s).1 rest e) :
    Follows thread ((thread.exchange? answer s).toList ++ rest) e := by
  cases thread with
  | done value => exact h
  | broken why => exact h
  | ask action next => exact .ask _ h

theorem Follows.of_progress {answer : Surroundings σ} {questions : Nat} {d : Dialogue α} {s : σ}
    {rest : List Exchange} {e : Ending α} (h : Follows (d.progress answer questions s).1 rest e) :
    Follows d (d.progressCourse answer questions s ++ rest) e := by
  induction questions generalizing d s with
  | zero => exact h
  | succ questions ih =>
    rw [progressCourse, List.append_assoc]
    exact (ih h).of_advance

/-- After the questions of the first of two dialogues, those of the second are asked. -/
theorem progress_bind {answer : Surroundings σ} {d : Dialogue α} {f : α → Dialogue β} {s mid : σ}
    {a : α} (h : d.run answer s = (.ok a, mid)) (questions : Nat) :
    (d.bind f).progress answer ((d.course answer s).length + questions) s =
        (f a).progress answer questions mid ∧
      (d.bind f).progressCourse answer ((d.course answer s).length + questions) s =
        d.course answer s ++ (f a).progressCourse answer questions mid := by
  induction d generalizing s with
  | done value =>
    cases h
    show progress answer (0 + questions) _ _ = _ ∧ progressCourse answer (0 + questions) _ _ = _
    rw [Nat.zero_add]
    exact ⟨rfl, rfl⟩
  | broken why => cases h
  | ask action next ih =>
    obtain ⟨hd, hcourse⟩ := ih _ h
    rw [course, List.length_cons, Nat.add_right_comm, List.cons_append, ← hcourse]
    exact ⟨hd, rfl⟩

/-- After the questions of a turn that goes on, those of the other turns are asked. -/
theorem progress_loop {ρ : Type} {answer : Surroundings σ} {turn : ρ → Dialogue (ρ ⊕ α)} {r r' : ρ}
    {s mid : σ} (h : (turn r).run answer s = (.ok (.inl r'), mid)) (turns questions : Nat) :
    (loop turn (turns + 1) r).progress answer (((turn r).course answer s).length + questions) s =
        (loop turn turns r').progress answer questions mid ∧
      (loop turn (turns + 1) r).progressCourse answer
          (((turn r).course answer s).length + questions) s =
        (turn r).course answer s ++ (loop turn turns r').progressCourse answer questions mid :=
  progress_bind h questions

theorem follows_of_ended {d : Dialogue α} (h : d.ended = true) : ∃ e, Follows d [] e := by
  cases d with
  | done value => exact ⟨_, .done value⟩
  | broken why => exact ⟨_, .broken why⟩
  | ask action next => cases h

/-! ## Threads -/

/-- The course of the thread of a number among threads that are carried through one after the
other. -/
def courseInAll (answer : Surroundings σ) : (i : Nat) → List (Dialogue α) → σ → List Exchange
  | _, [], _ => []
  | 0, thread :: _, s => thread.course answer s
  | i + 1, thread :: rest, s => courseInAll answer i rest (thread.run answer s).2

/-- The course of the thread of a number: its exchanges at its turns in the schedule, and those by
which it is carried through after that. -/
def threadCourse (answer : Surroundings σ) (i : Nat) :
    (schedule : List Nat) → List (Dialogue α) × σ → List Exchange
  | [], world => courseInAll answer i world.1 world.2
  | j :: schedule, world =>
    (if j = i then (world.1[i]?.bind (·.exchange? answer world.2)).toList else []) ++
      threadCourse answer i schedule (turnOf answer world j)

theorem follows_courseInAll (answer : Surroundings σ) {threads : List (Dialogue α)} {i : Nat}
    {thread : Dialogue α} {s : σ} (h : threads[i]? = some thread) :
    ∃ e, (runAll answer threads s).1[i]? = some e ∧
      Follows thread (courseInAll answer i threads s) e := by
  induction threads generalizing i s with
  | nil => cases h
  | cons first rest ih =>
    cases i with
    | zero =>
      cases h
      exact ⟨_, rfl, follows_course answer thread s⟩
    | succ i => exact ih h

/-- Every thread follows its own course to its ending, in whatever order the threads ask. -/
theorem follows_threadCourse (answer : Surroundings σ) (schedule : List Nat) :
    ∀ {threads : List (Dialogue α)} {i : Nat} {thread : Dialogue α} {s : σ},
      threads[i]? = some thread →
      ∃ e, (runThreads answer schedule threads s).1[i]? = some e ∧
        Follows thread (threadCourse answer i schedule (threads, s)) e := by
  induction schedule with
  | nil =>
    intro threads i thread s h
    rw [runThreads_eq]
    exact follows_courseInAll answer h
  | cons j schedule ih =>
    intro threads i thread s h
    rw [runThreads_eq, List.foldl_cons, threadCourse]
    -- whose turn it is decides what this thread has become when the others go on
    cases hj : threads[j]? with
    | none =>
      have hturn : turnOf answer (threads, s) j = (threads, s) := by
        unfold turnOf
        rw [hj]
      have hij : j ≠ i := by
        rintro rfl
        cases hj.symm.trans h
      rw [hturn, if_neg hij, ← runThreads_eq]
      exact ih h
    | some other =>
      have hturn : turnOf answer (threads, s) j =
          (threads.set j (other.advance answer s).1, (other.advance answer s).2) := by
        unfold turnOf
        rw [hj]
      rw [hturn, ← runThreads_eq]
      by_cases hij : j = i
      · subst hij
        cases hj.symm.trans h
        have hlt : j < threads.length := (List.getElem?_eq_some_iff.1 hj).1
        obtain ⟨e, he, hf⟩ := ih (List.getElem?_set_self hlt)
        rw [if_pos rfl, hj]
        exact ⟨e, he, hf.of_advance⟩
      · rw [if_neg hij]
        exact ih ((List.getElem?_set_ne hij).trans h)

end Dialogue

end RadarHost
