import RadarHost.Proofs.Link.Holding

/-!
# Calls with a deadline

Under a clock that only reads move, and none further than it may wait (`Timely`), a wait keeps its
deadline: it asks for reads that end by it at the latest, and comes too late only at it. `Heeds`
carries this along a run: what is true of every question, given the state in which it is asked, and
of the ending, given all that was heard. `Wait.heeds_turn` is what one turn does to what is pending
(`Wait.Pending`), and `Wait.heeds_loop` what a wait comes to.

A wait that is never given anything and never has to wait does not end. `Spends` counts the reads
that come back before their time is out; a wait has two turns more than those.
-/

namespace RadarHost

namespace Dialogue

variable {α β ρ σ : Type} {answer : Surroundings σ}

/-! ## Runs and what they heed -/

/-- The questions of a run, each with the state in which it is asked. -/
def asked (answer : Surroundings σ) : Dialogue α → σ → List (Action × σ)
  | ask action next, s =>
    (action, s) :: (next (answer action s).1).asked answer (answer action s).2
  | _, _ => []

/-- In a run from a state, after some exchanges, every question is as `ok` says of the state in
which it is asked; and the ending is as `post` says, of all exchanges and of the last state. -/
def Heeds (answer : Surroundings σ) (ok : Action → σ → Prop)
    (post : Ending α → List Exchange → σ → Prop) : Dialogue α → List Exchange → σ → Prop
  | done value, past, s => post (.ok value) past s
  | broken why, past, s => post (.error why) past s
  | ask action next, past, s =>
    ok action s ∧ Heeds answer ok post (next (answer action s).1)
      (past ++ [⟨action, (answer action s).1⟩]) (answer action s).2

variable {ok : Action → σ → Prop} {past : List Exchange} {s : σ}

theorem Heeds.sound {post : Ending α → List Exchange → σ → Prop} {d : Dialogue α}
    (h : d.Heeds answer ok post past s) :
    (∀ x ∈ d.asked answer s, ok x.1 x.2) ∧
      post (d.run answer s).1 (past ++ d.course answer s) (d.run answer s).2 := by
  induction d generalizing past s with
  | done value => exact ⟨List.forall_mem_nil _, (List.append_nil past).symm ▸ h⟩
  | broken why => exact ⟨List.forall_mem_nil _, (List.append_nil past).symm ▸ h⟩
  | ask action next ih =>
    obtain ⟨hasked, hpost⟩ := ih _ h.2
    rw [List.append_assoc] at hpost
    exact ⟨List.forall_mem_cons.2 ⟨h.1, hasked⟩, hpost⟩

theorem Heeds.mono {post post' : Ending α → List Exchange → σ → Prop} {d : Dialogue α}
    (h : d.Heeds answer ok post past s) (hp : ∀ e past s, post e past s → post' e past s) :
    d.Heeds answer ok post' past s := by
  induction d generalizing past s with
  | done value => exact hp _ _ _ h
  | broken why => exact hp _ _ _ h
  | ask action next ih => exact ⟨h.1, ih _ h.2⟩

theorem Heeds.bind {mid : Ending α → List Exchange → σ → Prop}
    {post : Ending β → List Exchange → σ → Prop} {d : Dialogue α} {f : α → Dialogue β}
    (hd : d.Heeds answer ok mid past s)
    (hf : ∀ a past s, mid (.ok a) past s → (f a).Heeds answer ok post past s)
    (hb : ∀ why past s, mid (.error why) past s → post (.error why) past s) :
    (d.bind f).Heeds answer ok post past s := by
  induction d generalizing past s with
  | done value => exact hf value past s hd
  | broken why => exact hb why past s hd
  | ask action next ih => exact ⟨hd.1, ih _ hd.2⟩

/-- What is true when a turn of a loop has ended: it goes on, or the loop ends with it. -/
def TurnedTo (goOn : ρ → List Exchange → σ → Prop) (post : Ending α → List Exchange → σ → Prop) :
    Ending (ρ ⊕ α) → List Exchange → σ → Prop
  | .ok (.inl r), past, s => goOn r past s
  | .ok (.inr a), past, s => post (.ok a) past s
  | .error why, past, s => post (.error why) past s

/-- A loop is as its turns are, each with one turn less to go on with. -/
theorem Heeds.loop {turn : ρ → Dialogue (ρ ⊕ α)} {post : Ending α → List Exchange → σ → Prop}
    (inv : Nat → ρ → List Exchange → σ → Prop)
    (hturn : ∀ n r past s, inv (n + 1) r past s →
      (turn r).Heeds answer ok (TurnedTo (inv n) post) past s)
    (hend : ∀ r past s, inv 0 r past s → post (.error .exhausted) past s) (n : Nat) :
    ∀ {r : ρ} {past : List Exchange} {s : σ}, inv n r past s →
      (loop turn n r).Heeds answer ok post past s := by
  induction n with
  | zero => exact fun h => hend _ _ _ h
  | succ n ih =>
    intro r past s h
    refine (hturn n r past s h).bind (fun x past s hx => ?_) fun why past s hwhy => hwhy
    cases x with
    | inl r' => exact ih hx
    | inr a => exact hx

end Dialogue

open Dialogue

/-! ## Clocks -/

section

variable {σ : Type}

/-- The clock of some surroundings: it is what they tell the time by, and only reads move it, none
further than it may wait. -/
structure Timely (answer : Surroundings σ) (clock : σ → Instant) : Prop where
  now : ∀ s, (answer .now s).1 = clock s
  still : ∀ action s, action.isRead = false → clock (answer action s).2 = clock s
  read : ∀ line max timeout s, clock (answer (.read line max timeout) s).2 ≤ clock s + timeout

/-- A count that no action makes larger, and that a read for a chunk makes smaller if it comes back
before its time is out. -/
structure Spends (answer : Surroundings σ) (clock : σ → Instant) (left : σ → Nat) : Prop where
  le : ∀ action s, left (answer action s).2 ≤ left s
  early : ∀ line timeout s,
    clock (answer (.read line PacketReader.readChunk timeout) s).2 < clock s + timeout →
      left (answer (.read line PacketReader.readChunk timeout) s).2 < left s

/-- A read that is asked for ends by the deadline, whatever it gives. -/
def ReadInTime (clock : σ → Instant) (deadline : Instant) (action : Action) (s : σ) : Prop :=
  ∀ line max timeout, action = .read line max timeout →
    max ≤ PacketReader.readChunk ∧ 0 < timeout ∧ clock s + timeout ≤ deadline

theorem readInTime_of_not_isRead {clock : σ → Instant} {deadline : Instant} {action : Action}
    (h : action.isRead = false) (s : σ) : ReadInTime clock deadline action s := by
  rintro line max timeout rfl
  cases h

/-- Between two moments of a run the line has not been read, so that no time has passed. -/
structure Unread (answer : Surroundings σ) (clock : σ → Instant) (before : List Exchange × σ)
    (after : List Exchange × σ) : Prop where
  reads_eq : reads after.1 = reads before.1
  clock_eq : clock after.2 = clock before.2
  left_le : ∀ left, Spends answer clock left → left after.2 ≤ left before.2

variable {answer : Surroundings σ} {clock : σ → Instant} {before after : List Exchange × σ}

theorem Unread.refl (answer : Surroundings σ) (clock : σ → Instant)
    (before : List Exchange × σ) : Unread answer clock before before :=
  ⟨rfl, rfl, fun _ _ => Nat.le_refl _⟩

theorem Unread.ask (ht : Timely answer clock) (h : Unread answer clock before after)
    {action : Action} (ha : action.isRead = false) :
    Unread answer clock before
      (after.1 ++ [⟨action, (answer action after.2).1⟩], (answer action after.2).2) where
  reads_eq := by
    rw [reads_append, h.reads_eq]
    cases action with
    | read line max timeout => cases ha
    | _ => exact List.append_nil _
  clock_eq := (ht.still action after.2 ha).trans h.clock_eq
  left_le left hl := (hl.le action after.2).trans (h.left_le left hl)

theorem Unread.reportAll {deadline : Instant} (ht : Timely answer clock) (events : List Event) :
    ∀ {past : List Exchange} {s : σ}, Unread answer clock before (past, s) →
      (Dialogue.reportAll events).Heeds answer (ReadInTime clock deadline)
        (fun e past s => e = .ok () ∧ Unread answer clock before (past, s)) past s := by
  induction events with
  | nil => exact fun h => ⟨rfl, h⟩
  | cons event events ih =>
    intro past s h
    exact ⟨readInTime_of_not_isRead rfl s, ih (h.ask ht rfl)⟩

end

/-- The ending of a call that has a deadline, from a state `s₀` and with a budget of turns: it comes
by the deadline, and the call is broken off only if a read crashes, or more reads come back before
their time is out than there are turns for. -/
structure OnTime {α σ : Type} (answer : Surroundings σ) (clock : σ → Instant) (deadline : Instant)
    (budget : Nat) (s₀ : σ) (e : Ending α) (past : List Exchange) (s : σ) : Prop where
  clock_le : clock s ≤ deadline
  crashed : e = .error .crashed → .crashed ∈ reads past
  exhausted : e = .error .exhausted →
    ∀ left, Spends answer clock left → ¬ left s₀ + 2 ≤ budget

theorem OnTime.of_ok {α σ : Type} {answer : Surroundings σ} {clock : σ → Instant}
    {deadline : Instant} {budget : Nat} {s₀ s : σ} {past : List Exchange}
    (h : clock s ≤ deadline) (value : α) :
    OnTime answer clock deadline budget s₀ (.ok value) past s := ⟨h, nofun, nofun⟩

/-! ## Waits -/

namespace Wait

variable {π α σ : Type} {answer : Surroundings σ} {clock : σ → Instant} {w : Wait π α}
  {line budget k : Nat} {deadline : Instant} {r₀ r : PacketReader} {s₀ s : σ}
  {past : List Exchange}

/-- Between the turns of a wait that began with a reader `r₀`, of which `k` are left: the deadline
has not passed, and no wanted packet has been in what the reader held and has been given. A wait
that began with turns enough has some left: at the deadline one, and before it one more and one for
each read that may come back early. -/
structure Pending (w : Wait π α) (answer : Surroundings σ) (clock : σ → Instant)
    (deadline : Instant) (budget : Nat) (r₀ : PacketReader) (s₀ : σ) (k : Nat) (r : PacketReader)
    (past : List Exchange) (s : σ) : Prop where
  clock_le : clock s ≤ deadline
  limit_eq : r.limit = r₀.limit
  took : ∃ packets, Packet.Took r₀.limit (r₀.bytes ++ received (reads past)) packets r.bytes ∧
    packets.filterMap w.wanted = []
  turns : ∀ left, Spends answer clock left → left s₀ + 2 ≤ budget →
    1 ≤ k ∧ (clock s < deadline → left s + 2 ≤ k)

/-- What a wait comes to that began with a reader `r₀`: it comes too late only at the deadline, and
when no wanted packet has come. -/
structure Over (w : Wait π α) (answer : Surroundings σ) (clock : σ → Instant)
    (deadline : Instant) (budget : Nat) (r₀ : PacketReader) (s₀ : σ)
    (e : Ending (α × PacketReader)) (past : List Exchange) (s : σ) : Prop extends
    OnTime answer clock deadline budget s₀ e past s where
  late : ∀ a r, e = .ok (a, r) →
    (∃ p, a = w.finish p) ∨ (∃ error, a = w.failed error ∧ .failed error ∈ reads past) ∨
      a = w.late (clock s) ∧ clock s = deadline ∧
        (Packet.framing r₀.limit (r₀.bytes ++ received (reads past))).packets.filterMap w.wanted =
          []

/-- What is left when no wanted packet is found in it goes on the same, with what is read then. -/
theorem Pending.look (h : w.Pending answer clock deadline budget r₀ s₀ k r past s)
    (hp : (r.take w.wanted).packet = none) :
    ∃ packets, Packet.Took r₀.limit (r₀.bytes ++ received (reads past)) packets
        (r.take w.wanted).reader.bytes ∧
      packets.filterMap w.wanted = [] ∧
      (Packet.framing r₀.limit (r.take w.wanted).reader.bytes).packets = [] := by
  obtain ⟨packets, htook, hnone⟩ := h.took
  obtain ⟨others, hdrew⟩ : ∃ packets, r.Drew w.wanted [] packets none (r.take w.wanted).reader :=
    Awaits.drew_take hp rfl
  have hothers := hdrew.took
  have hleft := hdrew.none_left rfl
  simp only [received, List.flatMap_nil, List.append_nil] at hothers
  rw [h.limit_eq] at hothers hleft
  refine ⟨packets ++ others, htook.trans hothers, ?_, hleft⟩
  rw [List.filterMap_append, hnone, hdrew.wanted_eq]
  rfl

/-- A wait that takes a wanted packet is over. -/
theorem Pending.over_taken (h : w.Pending answer clock deadline budget r₀ s₀ k r past s) {p : π}
    {past' : List Exchange} {s' : σ} (hu : Unread answer clock (past, s) (past', s')) :
    w.Over answer clock deadline budget r₀ s₀ (.ok (w.finish p, (r.take w.wanted).reader)) past' s'
    where
  toOnTime := .of_ok (hu.clock_eq ▸ h.clock_le) _
  late a r' he := by
    cases he
    exact .inl ⟨p, rfl⟩

/-- A wait that finds the deadline come is over. -/
theorem Pending.over_late (h : w.Pending answer clock deadline budget r₀ s₀ k r past s)
    (hp : (r.take w.wanted).packet = none) (hlate : deadline ≤ clock s) {past' : List Exchange}
    {s' : σ} (hu : Unread answer clock (past, s) (past', s')) :
    w.Over answer clock deadline budget r₀ s₀ (.ok (w.late (clock s), (r.take w.wanted).reader))
      past' s' where
  toOnTime := .of_ok (hu.clock_eq ▸ h.clock_le) _
  late a r' he := by
    cases he
    have hclock : clock s' = clock s := hu.clock_eq
    have hreads : reads past' = reads past := hu.reads_eq
    obtain ⟨packets, htook, hnone, hleft⟩ := h.look hp
    rw [hclock, hreads, htook.packets_eq hleft]
    exact .inr (.inr ⟨rfl, Nat.le_antisymm h.clock_le hlate, hnone⟩)

section

variable {past' : List Exchange} {s' : σ}

/-- A read of a turn ends by the deadline. -/
theorem clock_read_le (ht : Timely answer clock) (hearly : clock s < deadline)
    (hu : Unread answer clock (past, s) (past', s')) :
    clock (answer (.read line PacketReader.readChunk (deadline - clock s)) s').2 ≤ deadline := by
  have hclock : clock s' = clock s := hu.clock_eq
  have hread := ht.read line PacketReader.readChunk (deadline - clock s) s'
  rwa [hclock, Nat.add_sub_cancel' hearly.le] at hread

/-- With what a read gives, a wait goes on that has not come to its deadline. -/
theorem Pending.goOn (ht : Timely answer clock)
    (h : w.Pending answer clock deadline budget r₀ s₀ (k + 1) r past s)
    (hp : (r.take w.wanted).packet = none) (hearly : clock s < deadline)
    (hu : Unread answer clock (past, s) (past', s')) {piece : Bytes} :
    w.Pending answer clock deadline budget r₀ s₀ k ((r.take w.wanted).reader.append piece)
      (past' ++ [⟨.read line PacketReader.readChunk (deadline - clock s), .bytes piece⟩])
      (answer (.read line PacketReader.readChunk (deadline - clock s)) s').2 where
  clock_le := clock_read_le ht hearly hu
  limit_eq := (PacketReader.limit_take ..).trans h.limit_eq
  took := by
    obtain ⟨packets, htook, hnone, -⟩ := h.look hp
    refine ⟨packets, ?_, hnone⟩
    have hreads : reads past' = reads past := hu.reads_eq
    have hpiece : received (reads past ++ [.bytes piece]) = received (reads past) ++ piece := by
      rw [received_append]
      exact congrArg (received (reads past) ++ ·) (List.append_nil piece)
    rw [reads_append, hreads, PacketReader.bytes_append]
    show Packet.Took _ (r₀.bytes ++ received (reads past ++ [.bytes piece])) _ _
    rw [hpiece, ← List.append_assoc]
    exact htook.append piece
  turns left hl hbudget := by
    have hclock : clock s' = clock s := hu.clock_eq
    have hleft : left s' ≤ left s := hu.left_le left hl
    have hturns := (h.turns left hl hbudget).2 hearly
    have hread := hl.early line (deadline - clock s) s'
    rw [hclock, Nat.add_sub_cancel' hearly.le] at hread
    refine ⟨by omega, fun hbefore => ?_⟩
    have hless := hread hbefore
    omega

theorem Over.of_failed (ht : Timely answer clock) (hearly : clock s < deadline)
    (hu : Unread answer clock (past, s) (past', s')) {error : TransportError} :
    w.Over answer clock deadline budget r₀ s₀ (.ok (w.failed error, (r.take w.wanted).reader))
      (past' ++ [⟨.read line PacketReader.readChunk (deadline - clock s), .failed error⟩])
      (answer (.read line PacketReader.readChunk (deadline - clock s)) s').2 where
  toOnTime := .of_ok (clock_read_le ht hearly hu) _
  late a r' he := by
    cases he
    refine .inr (.inl ⟨error, rfl, ?_⟩)
    rw [reads_append]
    exact List.mem_append_right _ (List.mem_singleton_self _)

theorem Over.of_crashed (ht : Timely answer clock) (hearly : clock s < deadline)
    (hu : Unread answer clock (past, s) (past', s')) :
    w.Over answer clock deadline budget r₀ s₀ (.error .crashed)
      (past' ++ [⟨.read line PacketReader.readChunk (deadline - clock s), .crashed⟩])
      (answer (.read line PacketReader.readChunk (deadline - clock s)) s').2 where
  clock_le := clock_read_le ht hearly hu
  late := nofun
  crashed _ := by
    rw [reads_append]
    exact List.mem_append_right _ (List.mem_singleton_self _)
  exhausted := nofun

end

theorem heeds_turn (ht : Timely answer clock)
    (h : w.Pending answer clock deadline budget r₀ s₀ (k + 1) r past s) :
    (w.turn line deadline r).Heeds answer (ReadInTime clock deadline)
      (TurnedTo (w.Pending answer clock deadline budget r₀ s₀ k)
        (w.Over answer clock deadline budget r₀ s₀)) past s := by
  refine (Unread.reportAll ht _ (Unread.refl answer clock (past, s))).bind
    (fun _ past' s' hreports => ?_) fun why past' s' hreports => nomatch hreports.1
  have hu := hreports.2
  cases hp : (r.take w.wanted).packet with
  | some p => exact h.over_taken hu
  | none =>
    refine ⟨readInTime_of_not_isRead rfl s', ?_⟩
    have hu' := hu.ask ht (show Action.now.isRead = false from rfl)
    have hclock : clock s' = clock s := hu.clock_eq
    have hnow : (answer .now s').1 = clock s := (ht.now s').trans hclock
    generalize hpast : past' ++ [⟨Action.now, (answer .now s').1⟩] = past'' at hu' ⊢
    rw [hnow]
    show Heeds _ _ _ (if deadline ≤ clock s then _ else _) _ _
    split
    · rename_i hlate
      exact h.over_late hp hlate hu'
    · rename_i hlate
      have hearly := Nat.lt_of_not_le hlate
      have hclock' : clock (answer .now s').2 = clock s := hu'.clock_eq
      refine ⟨?_, ?_⟩
      · rintro _ _ _ ⟨⟩
        rw [hclock', Nat.add_sub_cancel' hearly.le]
        exact ⟨Nat.le_refl _, Nat.sub_pos_of_lt hearly, Nat.le_refl _⟩
      · cases ha : (answer (.read line PacketReader.readChunk (deadline - clock s))
            (answer .now s').2).1 with
        | bytes piece => exact h.goOn ht hp hearly hu'
        | failed error => exact .of_failed ht hearly hu'
        | crashed => exact .of_crashed ht hearly hu'

/-- A wait keeps a deadline that had not passed when the call began that waits. -/
theorem heeds_loop (ht : Timely answer clock) (w : Wait π α) (line budget : Nat)
    (r : PacketReader) (hs : clock s₀ ≤ deadline) (hu : Unread answer clock ([], s₀) (past, s)) :
    (loop (w.turn line deadline) budget r).Heeds answer (ReadInTime clock deadline)
      (w.Over answer clock deadline budget r s₀) past s := by
  refine Heeds.loop (w.Pending answer clock deadline budget r s₀)
    (fun k r' past' s' h => heeds_turn ht h) (fun r' past' s' h => ?_) budget ?_
  · refine ⟨⟨h.clock_le, nofun, fun _ left hl hbudget => ?_⟩, nofun⟩
    exact absurd (h.turns left hl hbudget).1 (Nat.not_succ_le_zero 0)
  · refine ⟨hu.clock_eq.trans_le hs, rfl, ⟨[], ?_, rfl⟩, fun left hl hbudget => ?_⟩
    · rw [show reads past = [] from hu.reads_eq]
      exact (List.append_nil r.bytes).symm ▸ Packet.Took.refl ..
    · have hleft : left s ≤ left s₀ := hu.left_le left hl
      exact ⟨by omega, fun _ => by omega⟩

end Wait

/-! ## Calls -/

section

variable {σ : Type} {answer : Surroundings σ} {clock : σ → Instant} {budget line : Nat}
  {timeout : Duration} {r : PacketReader} {s₀ : σ}

/-- The ending of an exchange: it says that no reply came in time only at the deadline, and when
none came, unless the line fails for the same reason. -/
structure Exchanged (answer : Surroundings σ) (clock : σ → Instant) (deadline : Instant)
    (budget : Nat) (r : PacketReader) (s₀ : σ) (e : Ending (Except LinkError Bytes × PacketReader))
    (past : List Exchange) (s : σ) : Prop extends
    OnTime answer clock deadline budget s₀ e past s where
  late : ∀ waited r', e = .ok (.error (.transport (.timeout waited)), r') →
    .error (.timeout waited) ∈ writes past ∨ .failed (.timeout waited) ∈ reads past ∨
      clock s = deadline ∧ waited = Duration.millis (deadline - clock s₀) ∧
        (Packet.framing r.limit (r.bytes ++ received (reads past))).packets.filterMap
          Packet.reply? = []

theorem PacketReader.replied_ne_transport {command : Command} {packet : Bytes}
    {error : TransportError} : replied command packet ≠ .error (.transport error) := by
  unfold replied
  cases Reply.parse packet command <;> nofun

theorem PacketReader.heeds_exchange (ht : Timely answer clock) (budget line : Nat)
    (timeout : Duration) (r : PacketReader) (command : Command) (payload : Bytes) (s₀ : σ) :
    (r.exchange budget line command payload timeout).Heeds answer
      (ReadInTime clock (Instant.deadlineAfter (clock s₀) timeout))
      (Exchanged answer clock (Instant.deadlineAfter (clock s₀) timeout) budget r s₀) [] s₀ := by
  have hs : clock s₀ ≤ Instant.deadlineAfter (clock s₀) timeout := Nat.le_add_right ..
  unfold exchange
  split
  · exact ⟨.of_ok hs _, nofun⟩
  · rename_i packet _
    have hwritten := (Unread.refl answer clock ([], s₀)).ask ht
      (show (Action.write line packet).isRead = false from rfl)
    refine ⟨readInTime_of_not_isRead rfl _, ?_⟩
    cases hw : (answer (.write line packet) s₀).1 with
    | error error =>
      refine ⟨.of_ok (hwritten.clock_eq.trans_le hs) _, fun waited r' he => .inl ?_⟩
      cases he
      exact List.mem_singleton_self _
    | ok _ =>
      have hasked := hwritten.ask ht (show Action.now.isRead = false from rfl)
      refine ⟨readInTime_of_not_isRead rfl _, ?_⟩
      have hstarted : (answer .now (answer (.write line packet) s₀).2).1 = clock s₀ :=
        (ht.now _).trans hwritten.clock_eq
      show Heeds _ _ _ (loop (replyTurn line command _ (Instant.deadlineAfter _ timeout)) budget r)
        _ _
      rw [replyTurn_eq, hstarted]
      refine (Wait.heeds_loop ht _ line budget r hs ?_).mono fun e past s h => ⟨h.toOnTime, ?_⟩
      · rw [hw, hstarted] at hasked
        exact hasked
      · rintro waited r' rfl
        rcases h.late _ r' rfl with ⟨p, hfinish⟩ | ⟨error, hfailed, hmem⟩ | ⟨hlate, hclock, hnone⟩
        · exact absurd hfinish.symm replied_ne_transport
        · cases hfailed
          exact .inr (.inl hmem)
        · cases hlate
          exact .inr (.inr ⟨hclock, hclock ▸ rfl, hnone⟩)

theorem PacketReader.heeds_nextFrame (ht : Timely answer clock) (budget line : Nat)
    (timeout : Duration) (r : PacketReader) (s₀ : σ) :
    (r.nextFrame budget line timeout).Heeds answer
      (ReadInTime clock (Instant.deadlineAfter (clock s₀) timeout))
      (frameWait.Over answer clock (Instant.deadlineAfter (clock s₀) timeout) budget r s₀) []
      s₀ := by
  have hs : clock s₀ ≤ Instant.deadlineAfter (clock s₀) timeout := Nat.le_add_right ..
  have hasked := (Unread.refl answer clock ([], s₀)).ask ht
    (show Action.now.isRead = false from rfl)
  refine ⟨readInTime_of_not_isRead rfl _, ?_⟩
  show Heeds _ _ _ (loop (frameTurn line (Instant.deadlineAfter _ timeout)) budget r) _ _
  rw [frameTurn_eq, ht.now]
  exact Wait.heeds_loop ht _ line budget r hs (ht.now s₀ ▸ hasked)

/-- The ending of a call to read a frame: it gives none only at the deadline, and when none came. -/
structure FrameRead (answer : Surroundings σ) (clock : σ → Instant) (deadline : Instant)
    (budget : Nat) (session : Session) (s₀ : σ)
    (e : Ending (Except LinkError (Option Frame) × Session)) (past : List Exchange) (s : σ) :
    Prop extends OnTime answer clock deadline budget s₀ e past s where
  late : ∀ session', e = .ok (.ok none, session') →
    clock s = deadline ∧
      (Packet.framing session.reader.limit
        (session.reader.bytes ++ received (reads past))).packets.filterMap Packet.frame? = []

theorem Session.heeds_readFrame (ht : Timely answer clock) (budget : Nat) (timeout : Duration)
    (session : Session) (s₀ : σ) :
    (session.readFrame budget timeout).Heeds answer
      (ReadInTime clock (Instant.deadlineAfter (clock s₀) timeout))
      (FrameRead answer clock (Instant.deadlineAfter (clock s₀) timeout) budget session s₀) []
      s₀ := by
  have hs : clock s₀ ≤ Instant.deadlineAfter (clock s₀) timeout := Nat.le_add_right ..
  unfold readFrame
  split
  · exact ⟨.of_ok hs _, nofun⟩
  · rename_i line _
    refine (session.reader.heeds_nextFrame ht budget line timeout s₀).bind
      (fun found past s h => ?_) fun why past s h => ?_
    · obtain ⟨found, reader⟩ := found
      have hclock := h.clock_le
      rcases h.late found reader rfl with ⟨p, hfinish⟩ | ⟨error, hfailed, -⟩ | ⟨hlate, hnone⟩
      · obtain rfl : found = .ok (some p) := hfinish
        obtain ⟨header, packet⟩ := p
        dsimp only
        split
        · exact ⟨.of_ok hclock _, nofun⟩
        · refine (Unread.reportAll ht _ (Unread.refl answer clock (past, s))).bind
            (fun _ past' s' hreports => ?_) fun why past' s' hreports => nomatch hreports.1
          exact ⟨.of_ok (hreports.2.clock_eq.trans_le hclock) _, nofun⟩
      · obtain rfl : found = .error error := hfailed
        exact ⟨.of_ok hclock _, nofun⟩
      · obtain rfl : found = .ok none := hlate
        exact ⟨.of_ok hclock _, fun _ _ => hnone⟩
    · refine ⟨⟨h.clock_le, fun he => h.crashed ?_, fun he => h.exhausted ?_⟩, nofun⟩
      all_goals
        cases he
        rfl

end

/-! ## Lines on which pieces arrive -/

/-- A line on which pieces arrive, each at a time of its own: the clock, and the pieces of which not
all has been read, in order. -/
structure Arrivals where
  clock : Instant
  pieces : List (Instant × Bytes)

namespace Arrivals

/-- Reads at most `max` bytes of the next piece, waiting up to `timeout` for it. -/
def read (w : Arrivals) (max : Nat) (timeout : Duration) : Bytes × Arrivals :=
  match w.pieces with
  | [] => ([], ⟨w.clock + timeout, []⟩)
  | (time, piece) :: later =>
    if w.clock + timeout < time then ([], ⟨w.clock + timeout, w.pieces⟩)
    else if max < piece.length then
      (piece.take max, ⟨Nat.max w.clock time, (time, piece.drop max) :: later⟩)
    else (piece, ⟨Nat.max w.clock time, later⟩)

/-- How the line answers. -/
def answer : Surroundings Arrivals
  | .openLine .., w => (.ok 0, w)
  | .write .., w => (.ok (), w)
  | .read _ max timeout, w => ((.bytes (w.read max timeout).1), (w.read max timeout).2)
  | .now, w => (w.clock, w)
  | .offer _, w | .stopRequested, w => (false, w)
  | .stats, w => (.zero, w)
  | .close _, w | .report _, w | .resizeQueue _, w | .startQueue, w | .stopQueue, w | .tally _, w
  | .requestStop, w => ((), w)

theorem clock_read_le (w : Arrivals) (max : Nat) (timeout : Duration) :
    (w.read max timeout).2.clock ≤ w.clock + timeout := by
  unfold read
  split
  · exact Nat.le_refl _
  · have hmax {time : Instant} (htime : ¬ w.clock + timeout < time) :
        Nat.max w.clock time ≤ w.clock + timeout :=
      Nat.max_le.2 ⟨Nat.le_add_right .., Nat.le_of_not_lt htime⟩
    split
    · exact Nat.le_refl _
    · rename_i htime
      split
      · exact hmax htime
      · exact hmax htime

theorem timely : Timely answer clock where
  now _ := rfl
  still action w h := by
    cases action with
    | read line max timeout => cases h
    | _ => rfl
  read _ max timeout w := w.clock_read_le max timeout

/-- How many bytes are to come, and in how many pieces. -/
def left (w : Arrivals) : Nat := (w.pieces.flatMap Prod.snd).length + w.pieces.length

/-- A read takes bytes, or waits its time out. -/
theorem left_read (w : Arrivals) (max : Nat) (timeout : Duration) :
    (w.read max timeout).2.left ≤ w.left ∧
      (0 < max → (w.read max timeout).2.clock = w.clock + timeout ∨
        (w.read max timeout).2.left < w.left) := by
  obtain ⟨clock, pieces⟩ := w
  unfold read
  cases pieces with
  | nil => exact ⟨Nat.le_refl _, fun _ => .inl rfl⟩
  | cons first later =>
    obtain ⟨time, piece⟩ := first
    dsimp only
    split
    · exact ⟨Nat.le_refl _, fun _ => .inl rfl⟩
    · split
      · simp only [left, List.flatMap_cons, List.length_append, List.length_drop, List.length_cons]
        exact ⟨by omega, fun _ => .inr (by omega)⟩
      · simp only [left, List.flatMap_cons, List.length_append, List.length_cons]
        exact ⟨by omega, fun _ => .inr (by omega)⟩

theorem spends : Spends answer clock left where
  le action w := by
    cases action with
    | read _ max timeout => exact (w.left_read max timeout).1
    | _ => exact Nat.le_refl _
  early _ timeout w h :=
    ((w.left_read PacketReader.readChunk timeout).2 (by decide)).resolve_left h.ne

end Arrivals

/-! ## The calls -/

/-- Calls with a timeout keep their deadline, which is the timeout from now, or a day if that is
less. All their reads ask for no more than a chunk and end by the deadline, and so do they. An
exchange says that there is no reply, and a call to read a frame that there is none, only at the
deadline, and only if what the reader held and what came have no complete reply, or frame. -/
theorem deadline_kept {σ : Type} {answer : Surroundings σ} {clock : σ → Instant}
    (ht : Timely answer clock) (budget : Nat) (timeout : Duration) (s : σ) :
    let deadline := clock s + min timeout (Duration.ofSecs (24 * 60 * 60))
    (∀ (line : Nat) (command : Command) (payload : Bytes) (r : PacketReader),
      let call := r.exchange budget line command payload timeout
      (∀ x ∈ call.asked answer s, ReadInTime clock deadline x.1 x.2) ∧
        Exchanged answer clock deadline budget r s (call.run answer s).1 (call.course answer s)
          (call.run answer s).2) ∧
    ∀ session : Session,
      let call := session.readFrame budget timeout
      (∀ x ∈ call.asked answer s, ReadInTime clock deadline x.1 x.2) ∧
        FrameRead answer clock deadline budget session s (call.run answer s).1
          (call.course answer s) (call.run answer s).2 :=
  ⟨fun line command payload r => (r.heeds_exchange ht budget line timeout command payload s).sound,
    fun session => (session.heeds_readFrame ht budget timeout s).sound⟩

/-- Half a reply in time and the rest of it too late: the exchange, which has turns enough, gives up
at its deadline. -/
theorem deadline_kept_half_reply :
    let reply : Bytes := [2, 1, 0, 0, 0, 0, 0, 0]
    let line : Arrivals :=
      ⟨0, [(1000000, [0x55]), (2000000, reply.take 4), (300000000, reply.drop 4)]⟩
    let call := (PacketReader.empty 64).exchange 14 0 .getBoardInfo [] (Duration.ofMillis 200)
    Timely Arrivals.answer Arrivals.clock ∧
      Spends Arrivals.answer Arrivals.clock Arrivals.left ∧ line.left + 2 ≤ 14 ∧
      (call.run Arrivals.answer line).1.map Prod.fst =
        .ok (.error (.transport (.timeout 200))) ∧
      (call.asked Arrivals.answer line).filterMap (fun x =>
        match x.1 with
        | .read _ _ timeout => some (x.2.clock, timeout)
        | _ => none) = [(0, 200000000), (1000000, 199000000), (2000000, 198000000)] ∧
      (call.run Arrivals.answer line).2.clock = Duration.ofMillis 200 ∧
      (Packet.framing 64 (received (reads (call.course Arrivals.answer line)))).packets.filterMap
        Packet.reply? = [] := by
  intro reply line call
  have hresult : (call.run Arrivals.answer line).1.map Prod.fst =
      .ok (.error (.transport (.timeout 200))) := by decide +kernel
  have hexchanged := ((deadline_kept Arrivals.timely 14 (Duration.ofMillis 200) line).1 0
    .getBoardInfo [] (PacketReader.empty 64)).2
  refine ⟨Arrivals.timely, Arrivals.spends, by decide, hresult, by decide +kernel, ?_⟩
  cases he : (call.run Arrivals.answer line).1 with
  | error why =>
    rw [he] at hresult
    cases hresult
  | ok ending =>
    obtain ⟨result, r'⟩ := ending
    rw [he] at hresult
    obtain rfl : result = .error (.transport (.timeout 200)) := Except.ok.inj hresult
    rcases hexchanged.late 200 r' he with hwrite | hread | ⟨hclock, -, hnone⟩
    · revert hwrite
      decide +kernel
    · revert hread
      decide +kernel
    · exact ⟨hclock.trans (by decide +kernel), hnone⟩

end RadarHost
