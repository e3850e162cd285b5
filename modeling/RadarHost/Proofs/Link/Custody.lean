import Mathlib.Algebra.BigOperators.Group.List.Basic
import Mathlib.Algebra.Order.Group.Multiset
import RadarHost.Link.Session

/-!
# Custody of lines

Who opens a line has to close it or hand it on. `Custody post d held` says of a course of questions
`d`, for every answer to each of them, that it closes lines only out of those in its hands, which
are `held` at the start, and what it has in them at its end. It is a property of the questions
alone, built up along the course:

* `Custody.bind`, `Custody.frame`, `Handless.custody_protect`: courses put together, out of some
  that open and close nothing;
* `Keeps.run`, `Keeps.runThreads`: what it means for a run, of one course or of several threads in
  whatever order their questions come;
* `keeps_sound`: so that the record of a run shows no close but of a line that was open.
-/

namespace RadarHost

/-- The lines in hand after an action, from those before. -/
def Action.linesAfter : (action : Action) → action.Answer → Multiset Nat → Multiset Nat
  | .openLine .., .ok line, held => line ::ₘ held
  | .close line, _, held => held.erase line
  | _, _, held => held

/-- Only a line in hand may be closed. -/
def Action.Entitled (held : Multiset Nat) : Action → Prop
  | .close line => line ∈ held
  | _ => True

/-- Whether an action neither opens nor closes a line. -/
def Action.isHandless : Action → Bool
  | .openLine .. | .close _ => false
  | _ => true

theorem Action.linesAfter_of_isHandless {action : Action} (h : action.isHandless = true)
    (answer : action.Answer) (held : Multiset Nat) : action.linesAfter answer held = held := by
  unfold linesAfter
  split
  · cases h
  · cases h
  · rfl

theorem Action.entitled_of_isHandless {action : Action} (h : action.isHandless = true)
    (held : Multiset Nat) : action.Entitled held := by
  cases action with
  | close line => cases h
  | _ => trivial

/-- What others have in their hands makes no difference. -/
theorem Action.linesAfter_add {action : Action} {held : Multiset Nat} (h : action.Entitled held)
    (answer : action.Answer) (others : Multiset Nat) :
    action.linesAfter answer (held + others) = action.linesAfter answer held + others := by
  cases action with
  | openLine identifier baudRate =>
    cases answer with
    | ok line => exact (Multiset.cons_add line held others).symm
    | error e => rfl
  | close line => exact Multiset.erase_add_left_pos others h
  | _ => rfl

theorem Action.Entitled.add {action : Action} {held : Multiset Nat} (h : action.Entitled held)
    (others : Multiset Nat) : action.Entitled (held + others) := by
  cases action with
  | close line => exact Multiset.mem_add.2 (.inl h)
  | _ => trivial

namespace Dialogue

variable {α β σ : Type}

/-- For every answer to each of its questions, a dialogue that starts with the lines `held` in its
hands closes only lines that are in them, and ends with lines in them as `post` says of its
ending. -/
def Custody (post : Ending α → Multiset Nat → Prop) : Dialogue α → Multiset Nat → Prop
  | done value, held => post (.ok value) held
  | broken why, held => post (.error why) held
  | ask action next, held =>
    action.Entitled held ∧
      ∀ answer, Custody post (next answer) (action.linesAfter answer held)

/-- A dialogue that asks only for actions of one kind, whatever the answers. -/
def Asks (kind : Action → Prop) : Dialogue α → Prop
  | ask action next => kind action ∧ ∀ answer, Asks kind (next answer)
  | _ => True

/-- A dialogue that neither opens nor closes a line, whatever the answers. -/
def Handless : Dialogue α → Prop
  | ask action next => action.isHandless = true ∧ ∀ answer, Handless (next answer)
  | _ => True

/-! ## Courses put together -/

theorem Custody.bind {mid : Ending α → Multiset Nat → Prop} {post : Ending β → Multiset Nat → Prop}
    {d : Dialogue α} {f : α → Dialogue β} {held : Multiset Nat} (hd : d.Custody mid held)
    (hf : ∀ a held, mid (.ok a) held → (f a).Custody post held)
    (hb : ∀ why held, mid (.error why) held → post (.error why) held) :
    (d.bind f).Custody post held := by
  induction d generalizing held with
  | done value => exact hf value held hd
  | broken why => exact hb why held hd
  | ask action next ih => exact ⟨hd.1, fun answer => ih answer (hd.2 answer)⟩

/-- What others have in their hands stays there. -/
theorem Custody.frame {post : Ending α → Multiset Nat → Prop} {d : Dialogue α}
    {held : Multiset Nat} (hd : d.Custody post held) (others : Multiset Nat) :
    d.Custody (fun e after => ∃ mine, after = mine + others ∧ post e mine) (held + others) := by
  induction d generalizing held with
  | done value => exact ⟨held, rfl, hd⟩
  | broken why => exact ⟨held, rfl, hd⟩
  | ask action next ih =>
    refine ⟨hd.1.add others, fun answer => ?_⟩
    rw [Action.linesAfter_add hd.1]
    exact ih answer (hd.2 answer)

section

variable {kind : Action → Prop}

theorem Asks.mono {kind' : Action → Prop} {d : Dialogue α} (hd : d.Asks kind)
    (h : ∀ action, kind action → kind' action) : d.Asks kind' := by
  induction d with
  | done value => trivial
  | broken why => trivial
  | ask action next ih => exact ⟨h action hd.1, fun answer => ih answer (hd.2 answer)⟩

theorem Asks.bind {d : Dialogue α} {f : α → Dialogue β} (hd : d.Asks kind)
    (hf : ∀ a, (f a).Asks kind) : (d.bind f).Asks kind := by
  induction d with
  | done value => exact hf value
  | broken why => trivial
  | ask action next ih => exact ⟨hd.1, fun answer => ih answer (hd.2 answer)⟩

/-- What the actions of its kind keep, a run of a dialogue keeps. -/
theorem Asks.run {answer : Surroundings σ} {kept : σ → Prop} {d : Dialogue α} {s : σ}
    (hd : d.Asks kind) (keep : ∀ action s, kind action → kept s → kept (answer action s).2)
    (hs : kept s) : kept (d.run answer s).2 := by
  induction d generalizing s with
  | done value => exact hs
  | broken why => exact hs
  | ask action next ih => exact ih _ (hd.2 _) (keep action s hd.1 hs)

theorem Asks.perform {action : Action} (h : kind action) : (perform action).Asks kind :=
  ⟨h, fun _ => trivial⟩

theorem Asks.reportAll (h : ∀ event, kind (.report event)) (events : List Event) :
    (reportAll events).Asks kind := by
  induction events with
  | nil => trivial
  | cons event rest ih => exact ⟨h event, fun _ => ih⟩

theorem Asks.loop {turn : σ → Dialogue (σ ⊕ α)} (h : ∀ s, (turn s).Asks kind) (budget : Nat)
    (s : σ) : (loop turn budget s).Asks kind := by
  induction budget generalizing s with
  | zero => trivial
  | succ budget ih =>
    refine (h s).bind fun r => ?_
    cases r with
    | inl s => exact ih s
    | inr value => trivial

end

theorem handless_iff_asks {d : Dialogue α} : d.Handless ↔ d.Asks (·.isHandless = true) := by
  induction d with
  | done value => exact Iff.rfl
  | broken why => exact Iff.rfl
  | ask action next ih => exact and_congr_right fun _ => forall_congr' ih

theorem Handless.bind {d : Dialogue α} {f : α → Dialogue β} (hd : d.Handless)
    (hf : ∀ a, (f a).Handless) : (d.bind f).Handless :=
  handless_iff_asks.2 ((handless_iff_asks.1 hd).bind fun a => handless_iff_asks.1 (hf a))

theorem Handless.perform {action : Action} (h : action.isHandless = true) :
    (perform action).Handless := ⟨h, fun _ => trivial⟩

theorem Handless.reportAll (events : List Event) : (reportAll events).Handless :=
  handless_iff_asks.2 (Asks.reportAll (fun _ => rfl) events)

theorem Handless.loop {turn : σ → Dialogue (σ ⊕ α)} (h : ∀ s, (turn s).Handless) (budget : Nat)
    (s : σ) : (loop turn budget s).Handless :=
  handless_iff_asks.2 (Asks.loop (fun s => handless_iff_asks.1 (h s)) budget s)

/-- A dialogue that uses a line and closes it if it breaks off ends with the line in its hands or
with none. -/
theorem Handless.custody_protect {d : Dialogue α} (h : d.Handless) (line : Nat) :
    (protect (Dialogue.perform (.close line)) d).Custody
      (fun e after => after = match e with | .ok _ => {line} | .error _ => 0) {line} := by
  induction d with
  | done value => rfl
  | broken why => exact ⟨Multiset.mem_singleton_self line, fun _ => Multiset.erase_singleton line⟩
  | ask action next ih =>
    refine ⟨Action.entitled_of_isHandless h.1 {line}, fun answer => ?_⟩
    rw [Action.linesAfter_of_isHandless h.1]
    exact ih answer (h.2 answer)

/-! ## Runs -/

/-- Surroundings keep a relation between their state and the lines in hand, whoever asks. -/
def Keeps (answer : Surroundings σ) (inv : σ → Multiset Nat → Prop) : Prop :=
  ∀ s held action, inv s held → action.Entitled held →
    inv (answer action s).2 (action.linesAfter (answer action s).1 held)

section

variable {answer : Surroundings σ} {inv : σ → Multiset Nat → Prop}
  {post : Ending α → Multiset Nat → Prop}

/-- A run leaves in hand what is said of its ending. -/
theorem Keeps.run (hk : Keeps answer inv) {d : Dialogue α} {held : Multiset Nat} {s : σ}
    (hd : d.Custody post held) (hs : inv s held) :
    ∃ after, post (d.run answer s).1 after ∧ inv (d.run answer s).2 after := by
  induction d generalizing held s with
  | done value => exact ⟨held, hd, hs⟩
  | broken why => exact ⟨held, hd, hs⟩
  | ask action next ih => exact ih _ (hd.2 _) (hk s held action hs hd.1)

/-! ## Threads -/

/-- Of each member of a list it is true with its share of some lines. -/
def Shares {δ : Type} (p : δ → Multiset Nat → Prop) : List δ → Multiset Nat → Prop
  | [], held => held = 0
  | d :: ds, held => ∃ mine others, held = mine + others ∧ p d mine ∧ Shares p ds others

/-- One of the members, its share, and what remains true when another one takes its place. -/
theorem Shares.at {δ : Type} {p : δ → Multiset Nat → Prop} {ds : List δ} {held : Multiset Nat}
    {i : Nat} {d : δ} (h : Shares p ds held) (hi : ds[i]? = some d) :
    ∃ mine others, held = mine + others ∧ p d mine ∧
      ∀ d' mine', p d' mine' → Shares p (ds.set i d') (mine' + others) := by
  induction ds generalizing i held with
  | nil => cases hi
  | cons first rest ih =>
    obtain ⟨share, shares, rfl, hf, hr⟩ := h
    cases i with
    | zero =>
      cases hi
      exact ⟨share, shares, rfl, hf, fun d' mine' hd' => ⟨mine', shares, rfl, hd', hr⟩⟩
    | succ i =>
      obtain ⟨mine, others, rfl, hd, hset⟩ := ih hr hi
      refine ⟨mine, share + others, add_left_comm share mine others, hd, fun d' mine' hd' => ?_⟩
      exact ⟨share, mine' + others, add_left_comm mine' share others, hf, hset d' mine' hd'⟩

/-- A thread that asks one question keeps its custody, of a share that may have changed. -/
theorem Keeps.advance (hk : Keeps answer inv) {d : Dialogue α} {mine others : Multiset Nat} {s : σ}
    (hd : d.Custody post mine) (hs : inv s (mine + others)) :
    ∃ mine', (d.advance answer s).1.Custody post mine' ∧
      inv (d.advance answer s).2 (mine' + others) := by
  cases d with
  | done value => exact ⟨mine, hd, hs⟩
  | broken why => exact ⟨mine, hd, hs⟩
  | ask action next =>
    have hn := hk s _ action hs (hd.1.add others)
    rw [Action.linesAfter_add hd.1] at hn
    exact ⟨_, hd.2 _, hn⟩

/-- The thread of a number asks its next question. -/
def turnOf (answer : Surroundings σ) (world : List (Dialogue α) × σ) (i : Nat) :
    List (Dialogue α) × σ :=
  match world.1[i]? with
  | some thread =>
    (world.1.set i (thread.advance answer world.2).1, (thread.advance answer world.2).2)
  | none => world

/-- Carries threads through, one after the other. -/
def runAll (answer : Surroundings σ) : List (Dialogue α) → σ → List (Ending α) × σ
  | [], s => ([], s)
  | thread :: rest, s =>
    let (ending, s) := thread.run answer s
    let (endings, s) := runAll answer rest s
    (ending :: endings, s)

theorem runThreads_eq (answer : Surroundings σ) (schedule : List Nat) (threads : List (Dialogue α))
    (s : σ) :
    runThreads answer schedule threads s =
      runAll answer (schedule.foldl (turnOf answer) (threads, s)).1
        (schedule.foldl (turnOf answer) (threads, s)).2 := by
  have hturn : (fun (x : List (Dialogue α) × σ) (i : Nat) =>
      match x.1[i]? with
      | some thread => (x.1.set i (thread.advance answer x.2).1, (thread.advance answer x.2).2)
      | none => (x.1, x.2)) = turnOf answer := rfl
  have hall : ∀ (ts : List (Dialogue α)) (s : σ),
      ts.foldr (fun thread rest s =>
        ((thread.run answer s).1 :: (rest (thread.run answer s).2).1,
          (rest (thread.run answer s).2).2)) (fun s => ([], s)) s = runAll answer ts s := by
    intro ts
    induction ts with
    | nil => intro s; rfl
    | cons thread rest ih => intro s; rw [List.foldr_cons, ih]; rfl
  rw [← hall, ← hturn]
  rfl

theorem length_foldl_turnOf (answer : Surroundings σ) (schedule : List Nat)
    (world : List (Dialogue α) × σ) :
    (schedule.foldl (turnOf answer) world).1.length = world.1.length := by
  induction schedule generalizing world with
  | nil => rfl
  | cons i schedule ih =>
    rw [List.foldl_cons, ih, turnOf]
    split
    · exact List.length_set
    · rfl

theorem length_runAll (answer : Surroundings σ) (threads : List (Dialogue α)) (s : σ) :
    (runAll answer threads s).1.length = threads.length := by
  induction threads generalizing s with
  | nil => rfl
  | cons thread rest ih => exact congrArg Nat.succ (ih _)

/-- Every thread comes to an ending. -/
theorem length_runThreads (answer : Surroundings σ) (schedule : List Nat)
    (threads : List (Dialogue α)) (s : σ) :
    (Dialogue.runThreads answer schedule threads s).1.length = threads.length := by
  rw [runThreads_eq, length_runAll, length_foldl_turnOf]

theorem Keeps.turns (hk : Keeps answer inv) (schedule : List Nat) :
    ∀ {threads : List (Dialogue α)} {held : Multiset Nat} {s : σ},
      Shares (·.Custody post) threads held → inv s held →
      ∃ held', Shares (·.Custody post) (schedule.foldl (turnOf answer) (threads, s)).1 held' ∧
        inv (schedule.foldl (turnOf answer) (threads, s)).2 held' := by
  induction schedule with
  | nil => exact fun hd hs => ⟨_, hd, hs⟩
  | cons i schedule ih =>
    intro threads held s hd hs
    rw [List.foldl_cons, turnOf]
    cases hi : threads[i]? with
    | none => exact ih hd hs
    | some thread =>
      obtain ⟨mine, others, rfl, hm, hset⟩ := hd.at hi
      obtain ⟨mine', hm', hs'⟩ := hk.advance hm hs
      exact ih (hset _ _ hm') hs'

theorem Keeps.runAll (hk : Keeps answer inv) {threads : List (Dialogue α)} :
    ∀ {held others : Multiset Nat} {s : σ},
      Shares (·.Custody post) threads held → inv s (held + others) →
      ∃ after, Shares post (runAll answer threads s).1 after ∧
        inv (runAll answer threads s).2 (after + others) := by
  induction threads with
  | nil => exact fun hd hs => ⟨_, hd, hs⟩
  | cons thread rest ih =>
    rintro _ others s ⟨mine, shares, rfl, hm, hr⟩ hs
    rw [add_assoc] at hs
    obtain ⟨_, ⟨mine', rfl, hm'⟩, h⟩ := hk.run (hm.frame _) hs
    rw [add_left_comm] at h
    obtain ⟨shares', hr', h'⟩ := ih hr h
    rw [add_left_comm, ← add_assoc] at h'
    exact ⟨mine' + shares', ⟨mine', shares', rfl, hm', hr'⟩, h'⟩

/-- Threads leave in hand what is said of all their endings, in whatever order they ask. -/
theorem Keeps.runThreads (hk : Keeps answer inv) (schedule : List Nat)
    {threads : List (Dialogue α)} {held : Multiset Nat} {s : σ}
    (hd : Shares (·.Custody post) threads held) (hs : inv s held) :
    ∃ after, Shares post (Dialogue.runThreads answer schedule threads s).1 after ∧
      inv (Dialogue.runThreads answer schedule threads s).2 after := by
  obtain ⟨held', hd', hs'⟩ := hk.turns schedule hd hs
  rw [runThreads_eq]
  rw [← add_zero held'] at hs'
  obtain ⟨after, ha, h⟩ := hk.runAll hd' hs'
  exact ⟨after, ha, by rwa [add_zero] at h⟩

end

/-! ## Records -/

/-- A question and the answer to it. -/
abbrev Exchange : Type := (action : Action) × action.Answer

/-- The line that an exchange opened. -/
def Exchange.opened? : Exchange → Option Nat
  | ⟨.openLine .., .ok line⟩ => some line
  | _ => none

/-- The line that an exchange closed. -/
def Exchange.closed? : Exchange → Option Nat
  | ⟨.close line, _⟩ => some line
  | _ => none

/-- The lines opened in the course of some exchanges. -/
def opened (record : List Exchange) : Multiset Nat := record.filterMap Exchange.opened?

/-- The lines closed in the course of some exchanges. -/
def closed (record : List Exchange) : Multiset Nat := record.filterMap Exchange.closed?

/-- Surroundings that answer as others do and keep a record of all exchanges, in order. -/
def recorded (answer : Surroundings σ) : Surroundings (σ × List Exchange) := fun action w =>
  ((answer action w.1).1, (answer action w.1).2, w.2 ++ [⟨action, (answer action w.1).1⟩])

/-- Keeping a record makes no difference to a run. -/
theorem run_recorded (answer : Surroundings σ) (d : Dialogue α) (s : σ) (record : List Exchange) :
    (d.run (recorded answer) (s, record)).1 = (d.run answer s).1 ∧
      (d.run (recorded answer) (s, record)).2.1 = (d.run answer s).2 := by
  induction d generalizing s record with
  | done value => exact ⟨rfl, rfl⟩
  | broken why => exact ⟨rfl, rfl⟩
  | ask action next ih => exact ih _ _ _

/-- At no moment of a record had more lines been closed than opened: each close is of a line that
had been opened and not been closed since. -/
def NeverOverdrawn (record : List Exchange) : Prop :=
  ∀ earlier, earlier <+: record → closed earlier ≤ opened earlier

/-- A record in which nothing was closed but what had been opened, and after which the lines in hand
are those opened and not closed. -/
structure Sound (record : List Exchange) (held : Multiset Nat) : Prop where
  covered : NeverOverdrawn record
  balance : opened record = closed record + held

theorem opened_append (record later : List Exchange) :
    opened (record ++ later) = opened record + opened later := by
  rw [opened, List.filterMap_append, ← Multiset.coe_add]
  rfl

theorem opened_concat (record : List Exchange) (x : Exchange) :
    opened (record ++ [x]) = opened record + (x.opened?.toList : Multiset Nat) := by
  rw [opened_append]
  cases h : x.opened? <;> simp [opened, h]

theorem closed_append (record later : List Exchange) :
    closed (record ++ later) = closed record + closed later := by
  rw [closed, List.filterMap_append, ← Multiset.coe_add]
  rfl

theorem closed_concat (record : List Exchange) (x : Exchange) :
    closed (record ++ [x]) = closed record + (x.closed?.toList : Multiset Nat) := by
  rw [closed_append]
  cases h : x.closed? <;> simp [closed, h]

theorem sound_nil : Sound [] 0 where
  covered earlier h := by rw [List.prefix_nil.1 h]; exact le_refl _
  balance := rfl

/-- What an exchange adds to the lines opened and to those closed and in hand. -/
theorem linesAfter_balance {action : Action} {held : Multiset Nat} (h : action.Entitled held)
    (answer : action.Answer) :
    held + ((Exchange.opened? ⟨action, answer⟩).toList : Multiset Nat) =
      ((Exchange.closed? ⟨action, answer⟩).toList : Multiset Nat) +
        action.linesAfter answer held := by
  cases action with
  | openLine identifier baudRate =>
    cases answer with
    | ok line =>
      show held + {line} = 0 + line ::ₘ held
      rw [zero_add, add_comm, Multiset.singleton_add]
    | error e => exact (add_zero held).trans (zero_add held).symm
  | close line => exact (add_zero held).trans (Multiset.cons_erase h).symm
  | _ => exact (add_zero held).trans (zero_add held).symm

theorem Sound.of_balance {record : List Exchange} {x : Exchange} {held : Multiset Nat}
    (h : NeverOverdrawn record) (hb : opened (record ++ [x]) = closed (record ++ [x]) + held) :
    Sound (record ++ [x]) held where
  covered earlier he := by
    rcases List.prefix_concat_iff.1 he with rfl | he
    · rw [hb]
      exact Multiset.le_add_right _ _
    · exact h earlier he
  balance := hb

/-- Records stay sound while nobody closes but what is in hand. -/
theorem keeps_sound (answer : Surroundings σ) :
    Keeps (recorded answer) fun w held => Sound w.2 held := by
  rintro ⟨s, record⟩ held action hs he
  refine Sound.of_balance hs.covered ?_
  rw [opened_concat, closed_concat, hs.balance, add_assoc, linesAfter_balance he, add_assoc]
  rfl

end Dialogue

end RadarHost
