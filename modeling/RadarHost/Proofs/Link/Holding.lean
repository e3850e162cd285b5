import RadarHost.Proofs.Link.Damage
import RadarHost.Proofs.Link.Timing
import RadarHost.Proofs.Packet.Looking

/-!
# How much a reader holds

The reader of a session is looked at along a run: at the start of each turn of a wait, which is
before the first look for a packet or after a read, and after each look (`Moment`). What it holds
stays below the longest packet and one read more, whatever arrives. A read comes only after a look
that found nothing, and such a look keeps less than a packet; so the readers from which turns start
are `Within` the bound, which is proved of one turn (`Wait.reader_of_turn`), of the turns of a wait
(`Wait.small_of_loop`), of a call (`Call.small`), and of all calls of a session.
-/

namespace RadarHost

namespace Dialogue

variable {α ρ σ : Type} {answer : Surroundings σ}

/-- What the turns of a loop start from in a run, in order. -/
def turnStates (answer : Surroundings σ) (turn : ρ → Dialogue (ρ ⊕ α)) :
    (budget : Nat) → ρ → σ → List ρ
  | 0, _, _ => []
  | budget + 1, r, s =>
    r :: match (turn r).run answer s with
      | (.ok (.inl r), s) => turnStates answer turn budget r s
      | _ => []

/-- What holds of the start of a loop, and after each turn that goes on, holds of what all its turns
start from; and the value of the loop is made by the last of them. -/
theorem turnStates_invariant {turn : ρ → Dialogue (ρ ⊕ α)} {inv : ρ → Prop} {post : ρ → α → Prop}
    (hnext : ∀ r s r' s', inv r → (turn r).run answer s = (.ok (.inl r'), s') → inv r')
    (hlast : ∀ r s a s', (turn r).run answer s = (.ok (.inr a), s') → post r a) :
    ∀ (budget : Nat) {r : ρ} (s : σ), inv r →
      (∀ r' ∈ turnStates answer turn budget r s, inv r') ∧
      ∀ a s', (loop turn budget r).run answer s = (.ok a, s') →
        ∃ last, (turnStates answer turn budget r s).getLast? = some last ∧ post last a := by
  intro budget
  induction budget with
  | zero => exact fun _ _ => ⟨List.forall_mem_nil _, nofun⟩
  | succ budget ih =>
    intro r s hr
    rw [turnStates]
    constructor
    · refine List.forall_mem_cons.2 ⟨hr, ?_⟩
      split
      · rename_i r' s' hturn
        exact (ih s' (hnext r s r' s' hr hturn)).1
      · exact List.forall_mem_nil _
    · intro a s' hloop
      obtain ⟨result, mid, hturn, hrest⟩ := exists_of_run_bind (d := turn r) hloop
      rw [hturn]
      cases result with
      | inl r' =>
        obtain ⟨last, hlast, hpost⟩ := (ih mid (hnext r s r' mid hr hturn)).2 a s' hrest
        exact ⟨last, by rw [List.getLast?_cons, hlast]; rfl, hpost⟩
      | inr a' =>
        cases hrest
        exact ⟨r, rfl, hlast r s a s' hturn⟩

end Dialogue

open Dialogue

/-- No read gives more bytes than were asked for. -/
def Measured {σ : Type} (answer : Surroundings σ) : Prop :=
  ∀ line max timeout s piece, (answer (.read line max timeout) s).1 = .bytes piece →
    piece.length ≤ max

theorem BoardLine.length_read_le (l : BoardLine) (now : Instant) (max : Nat) (timeout : Duration) :
    (l.read now max timeout).bytes.length ≤ max := by
  have hdeliver (l : BoardLine) (elapsed : Duration) (events : List Event) :
      (l.deliver max elapsed events).bytes.length ≤ max := List.length_take_le ..
  unfold read
  dsimp only
  split
  · split
    · exact hdeliver ..
    · split <;> exact hdeliver ..
  · exact hdeliver ..

theorem Script.length_read_le {max permits : Nat} {steps : List ScriptStep} {piece : Bytes}
    (h : (read max permits steps).answer = some (.bytes piece)) : piece.length ≤ max := by
  induction steps generalizing permits with
  | nil => cases h
  | cons step steps ih =>
    cases step with
    | data bytes =>
      cases h
      exact List.length_take_le ..
    | empty =>
      cases h
      exact Nat.zero_le _
    | gate =>
      rw [read] at h
      split at h
      · cases h
      · exact ih h
    | _ => cases h

/-- The lines of a bench give no more than they are asked for. -/
theorem Bench.measured : Measured Bench.answer := by
  intro line max timeout b piece h
  change (b.read line max timeout).1 = .bytes piece at h
  unfold read at h
  split at h
  · cases h
  · rename_i l _
    cases h
    exact l.length_read_le ..
  · dsimp only at h
    split at h
    · rename_i answer hanswer
      cases h
      exact Script.length_read_le hanswer
    · cases h
      exact Nat.zero_le _

/-! ## Moments -/

/-- A moment of a reader. -/
inductive Moment
  /-- A turn starts: nothing has been looked for since the wait began, or since a read. -/
  | turn (held : Bytes)
  /-- A packet has been looked for. -/
  | look (found : Option Packet) (held : Bytes)

/-- What the reader holds at a moment. -/
def Moment.held : Moment → Bytes
  | turn held => held
  | look _ held => held

/-- What a reader holds after some moments that held `held` before them. -/
def heldAfter (held : Bytes) (moments : List Moment) : Bytes :=
  (moments.getLast?.map Moment.held).getD held

theorem heldAfter_append (held : Bytes) (moments later : List Moment) :
    heldAfter held (moments ++ later) = heldAfter (heldAfter held moments) later := by
  unfold heldAfter
  rw [List.getLast?_append]
  cases later.getLast? <;> rfl

/-- What a reader may hold at a moment. -/
structure Moment.Small (limit : Nat) (m : Moment) : Prop where
  short : m.held.length < Packet.longest limit + PacketReader.readChunk
  kept : ∀ held, m = .look none held → Packet.Kept limit held

namespace PacketReader

variable {π : Type} {r : PacketReader} {limit : Nat}

/-- A reader that holds less than a packet and one read. -/
structure Within (limit : Nat) (r : PacketReader) : Prop where
  limit_eq : r.limit = limit
  short : r.bytes.length < Packet.longest limit + readChunk

/-- The moments of a turn that starts from a reader. -/
def moments (wanted : Packet → Option π) (r : PacketReader) : List Moment :=
  .turn r.bytes :: (Packet.looks wanted r.limit r.bytes).map fun look => .look look.1 look.2

variable (wanted : Packet → Option π)

theorem Within.small (h : r.Within limit) : ∀ m ∈ r.moments wanted, m.Small limit := by
  refine List.forall_mem_cons.2 ⟨⟨h.short, nofun⟩, List.forall_mem_map.2 fun look hlook => ?_⟩
  obtain ⟨hle, hkept⟩ := Packet.kept_of_mem_looks wanted look hlook
  refine ⟨hle.trans_lt h.short, fun held hheld => ?_⟩
  obtain ⟨hfound, rfl⟩ := Moment.look.inj hheld
  exact h.limit_eq ▸ hkept hfound

/-- A turn leaves in the reader what its last look keeps. -/
theorem heldAfter_moments (r : PacketReader) (held : Bytes) :
    heldAfter held (r.moments wanted) = (r.take wanted).reader.bytes := by
  obtain ⟨found, hlast, -⟩ := Packet.exists_last_look wanted r.limit r.bytes
  rw [heldAfter, moments, List.getLast?_cons, List.getLast?_map, hlast, bytes_take]
  rfl

theorem Within.take (h : r.Within limit) : (r.take wanted).reader.Within limit where
  limit_eq := (limit_take ..).trans h.limit_eq
  short := by
    obtain ⟨packets, took, -⟩ := Packet.took_takeUntil wanted r.limit r.bytes
    rw [bytes_take]
    exact took.suffix.length_le.trans_lt h.short

/-- Where no packet has been found, there is place for what one read gives. -/
theorem Within.append (h : r.Within limit) (hp : (r.take wanted).packet = none) {piece : Bytes}
    (hpiece : piece.length ≤ readChunk) : ((r.take wanted).reader.append piece).Within limit where
  limit_eq := (h.take wanted).limit_eq
  short := by
    obtain ⟨found, hlast, -, hnone⟩ := Packet.exists_last_look wanted r.limit r.bytes
    obtain ⟨-, hkept⟩ := Packet.kept_of_mem_looks wanted _ (List.mem_of_getLast? hlast)
    have hshort : (Packet.takeUntil wanted r.limit r.bytes).rest.length < Packet.longest r.limit :=
      (hkept (hnone.2 (take_packet wanted r ▸ hp))).short
    rw [h.limit_eq] at hshort
    rw [bytes_append, List.length_append, bytes_take, h.limit_eq]
    omega

end PacketReader

/-! ## Waits -/

namespace Wait

variable {π α σ : Type} {w : Wait π α} {answer : Surroundings σ} {line : Nat} {deadline : Instant}
  {limit : Nat}

theorem readChunk_of_turn {r : PacketReader} {course : List Exchange}
    {e : Ending (PacketReader ⊕ α × PacketReader)} (h : Follows (w.turn line deadline r) course e)
    {x : Exchange} (hx : x ∈ course) {line' max : Nat} {timeout : Duration}
    (hread : x.1 = .read line' max timeout) : max = PacketReader.readChunk := by
  rw [← map_snd_clocked 0 course] at hx
  obtain ⟨timed, htimed, rfl⟩ := List.mem_map.1 hx
  exact (inTime_of_turn h 0 timed htimed line' max timeout hread).2.1

/-- What a turn leaves: a reader to which one read has been added, and only after a look that found
nothing, or at the end of the wait the reader as the last look left it. -/
theorem reader_of_turn (hm : Measured answer) {r : PacketReader} {s s' : σ}
    {x : PacketReader ⊕ α × PacketReader}
    (h : (w.turn line deadline r).run answer s = (.ok x, s')) :
    match x with
    | .inl r' => (r.take w.wanted).packet = none ∧ ∃ piece,
        piece.length ≤ PacketReader.readChunk ∧ r' = (r.take w.wanted).reader.append piece
    | .inr (_, r') => r' = (r.take w.wanted).reader := by
  have hf := follows_course answer (w.turn line deadline r) s
  rw [h] at hf
  obtain ⟨-, heard⟩ := turnHeard_of_follows hf
  generalize hreads : reads ((w.turn line deadline r).course answer s) = read,
    times ((w.turn line deadline r).course answer s) = time at heard
  cases heard with
  | taken hp => rfl
  | late hp now => rfl
  | failed hp now error => rfl
  | bytes hp now piece =>
    refine ⟨hp, piece, ?_, rfl⟩
    obtain ⟨x, hx, hread⟩ := List.mem_filterMap.1 (hreads ▸ List.mem_singleton_self _)
    obtain ⟨line', max, timeout, haction⟩ := Exchange.action_of_read? hread
    obtain ⟨asked, hanswer⟩ := exists_of_mem_course hx
    rw [← readChunk_of_turn hf hx haction]
    obtain ⟨action, given⟩ := x
    obtain rfl : action = .read line' max timeout := haction
    obtain rfl : given = .bytes piece := Option.some.inj hread
    exact hm line' max timeout asked piece hanswer.symm

/-- The moments of a wait, in a run. -/
def moments (w : Wait π α) (answer : Surroundings σ) (line : Nat) (deadline : Instant)
    (budget : Nat) (r : PacketReader) (s : σ) : List Moment :=
  (turnStates answer (w.turn line deadline) budget r s).flatMap (·.moments w.wanted)

/-- The moments of a wait are small, and what it leaves in the reader in the end is what the last of
them says. -/
theorem small_of_loop (hm : Measured answer) (w : Wait π α) (line : Nat) (deadline : Instant)
    (budget : Nat) {r : PacketReader} (h : r.Within limit) (s : σ) :
    (∀ m ∈ w.moments answer line deadline budget r s, m.Small limit) ∧
    ∀ a r' s', (loop (w.turn line deadline) budget r).run answer s = (.ok (a, r'), s') →
      r'.Within limit ∧
        r'.bytes = heldAfter r.bytes (w.moments answer line deadline budget r s) := by
  have hnext : ∀ r s r' s', r.Within limit →
      (w.turn line deadline r).run answer s = (.ok (.inl r'), s') → r'.Within limit := by
    intro r s r' s' hr hturn
    obtain ⟨hp, piece, hpiece, rfl⟩ := reader_of_turn hm hturn
    exact hr.append w.wanted hp hpiece
  have hlast : ∀ r s x s', (w.turn line deadline r).run answer s = (.ok (.inr x), s') →
      x.2 = (r.take w.wanted).reader := fun r s x s' hturn => reader_of_turn hm hturn
  obtain ⟨hwithin, hmade⟩ := turnStates_invariant hnext hlast budget s h
  constructor
  · intro m hmem
    obtain ⟨r', hr', hmem⟩ := List.mem_flatMap.1 hmem
    exact (hwithin r' hr').small w.wanted m hmem
  · intro a r' s' hloop
    obtain ⟨last, hlast, rfl⟩ := hmade (a, r') s' hloop
    refine ⟨(hwithin last (List.mem_of_getLast? hlast)).take w.wanted, ?_⟩
    obtain ⟨earlier, hearlier⟩ := List.getLast?_eq_some_iff.1 hlast
    rw [moments, hearlier, List.flatMap_append, List.flatMap_singleton, heldAfter_append,
      PacketReader.heldAfter_moments]

end Wait

/-! ## Calls -/

namespace PacketReader

variable {σ : Type} (answer : Surroundings σ) (budget line : Nat) (timeout : Duration)
  (r : PacketReader) (s : σ)

theorem run_exchange (command : Command) (payload : Bytes) :
    (r.exchange budget line command payload timeout).run answer s =
      match Request.encode ⟨command, payload⟩ with
      | .error e => (.ok (.error (.packet e), r), s)
      | .ok packet =>
        match answer (.write line packet) s with
        | (.error e, s) => (.ok (.error (.transport e), r), s)
        | (.ok (), s) =>
          let (started, s) := answer .now s
          (loop ((replyWait command started).turn line (Instant.deadlineAfter started timeout))
            budget r).run answer s := by
  unfold exchange
  cases Request.encode ⟨command, payload⟩ with
  | error e => rfl
  | ok packet =>
    simp only [← replyTurn_eq]
    show run answer (ask (.write line packet) _) s = _
    rw [run]
    dsimp only
    split <;> rename_i hw <;> rw [hw] <;> rfl

theorem run_nextFrame :
    (r.nextFrame budget line timeout).run answer s =
      let (now, s) := answer .now s
      (loop (frameWait.turn line (Instant.deadlineAfter now timeout)) budget r).run answer s := by
  unfold nextFrame
  simp only [frameTurn_eq]
  rfl

end PacketReader

namespace Session

variable {σ : Type} {answer : Surroundings σ} {budget limit : Nat} {s s' : Session}

/-- A call on a session that uses its reader. -/
inductive Call
  /-- Send a command and wait for its reply. -/
  | transact (command : Command) (payload : Bytes) (timeout : Duration)
  /-- Read the next frame. -/
  | readFrame (timeout : Duration)

/-- Makes a call; its result is dropped. -/
def Call.perform (budget : Nat) (s : Session) : Call → Dialogue Session
  | transact command payload timeout =>
    match s.line with
    | none => return s
    | some line => do
      let (_, reader) ← s.reader.exchange budget line command payload timeout
      return { s with reader }
  | readFrame timeout => do
    let (_, s) ← s.readFrame budget timeout
    return s

/-- The moments of a call. There are none if its wait does not begin. -/
def Call.moments (answer : Surroundings σ) (budget : Nat) (s : Session) (world : σ) :
    Call → List Moment
  | transact command payload timeout =>
    match s.line, Request.encode ⟨command, payload⟩ with
    | some line, .ok packet =>
      match answer (.write line packet) world with
      | (.error _, _) => []
      | (.ok (), world) =>
        let (started, world) := answer .now world
        (PacketReader.replyWait command started).moments answer line
          (Instant.deadlineAfter started timeout) budget s.reader world
    | _, _ => []
  | readFrame timeout =>
    match s.line with
    | none => []
    | some line =>
      let (now, world) := answer .now world
      PacketReader.frameWait.moments answer line (Instant.deadlineAfter now timeout) budget s.reader
        world

/-- Makes calls one after another, whatever becomes of each of them. -/
def performAll (budget : Nat) : List Call → Session → Dialogue Session
  | [], s => return s
  | call :: calls, s => do performAll budget calls (← call.perform budget s)

/-- The moments of calls that are made one after another. -/
def moments (answer : Surroundings σ) (budget : Nat) : List Call → Session → σ → List Moment
  | [], _, _ => []
  | call :: calls, s, world =>
    call.moments answer budget s world ++
      match (call.perform budget s).run answer world with
      | (.ok s, world) => moments answer budget calls s world
      | (.error _, _) => []

/-- The moments of a call are small, and what it leaves in the reader in the end is what the last of
them says. -/
structure Call.Small (answer : Surroundings σ) (budget limit : Nat) (s : Session) (world : σ)
    (call : Call) : Prop where
  small : ∀ m ∈ call.moments answer budget s world, m.Small limit
  after : ∀ s' world', (call.perform budget s).run answer world = (.ok s', world') →
    s'.reader.Within limit ∧
      s'.reader.bytes = heldAfter s.reader.bytes (call.moments answer budget s world)

/-- A call whose wait does not begin leaves the reader as it was. -/
theorem Call.Small.of_nil {call : Call} {world : σ} (h : s.reader.Within limit)
    (hnil : call.moments answer budget s world = [])
    (hrun : ∀ s' world', (call.perform budget s).run answer world = (.ok s', world') →
      s'.reader = s.reader) : call.Small answer budget limit s world where
  small := hnil ▸ List.forall_mem_nil _
  after s' world' h' := by
    rw [hnil, hrun s' world' h']
    exact ⟨h, rfl⟩

/-- What a session has at the end of an exchange is the reader that the exchange leaves. -/
theorem Call.exists_of_run_transact {line : Nat} {world world' : σ} {command : Command}
    {payload : Bytes} {timeout : Duration} (hl : s.line = some line)
    (h : ((transact command payload timeout).perform budget s).run answer world =
      (.ok s', world')) :
    ∃ result, (s.reader.exchange budget line command payload timeout).run answer world =
      (.ok (result, s'.reader), world') := by
  simp only [perform, hl] at h
  obtain ⟨⟨result, reader⟩, mid, hexchange, hdone⟩ := exists_of_run_bind h
  cases hdone
  exact ⟨result, hexchange⟩

theorem Call.small_transact (hm : Measured answer) (h : s.reader.Within limit) (world : σ)
    (command : Command) (payload : Bytes) (timeout : Duration) :
    (transact command payload timeout).Small answer budget limit s world := by
  cases hl : s.line with
  | none =>
    refine .of_nil h (by simp only [moments, hl]) fun s' world' hrun => ?_
    simp only [perform, hl] at hrun
    cases hrun
    rfl
  | some line =>
    cases hp : Request.encode ⟨command, payload⟩ with
    | error e =>
      refine .of_nil h (by simp only [moments, hl, hp]) fun s' world' hrun => ?_
      obtain ⟨result, hrun⟩ := exists_of_run_transact hl hrun
      rw [PacketReader.run_exchange, hp] at hrun
      exact (Prod.mk.inj (Except.ok.inj (Prod.mk.inj hrun).1)).2.symm
    | ok packet =>
      rcases hw : answer (.write line packet) world with ⟨e | _, later⟩
      · refine .of_nil h (by simp only [moments, hl, hp, hw]) fun s' world' hrun => ?_
        obtain ⟨result, hrun⟩ := exists_of_run_transact hl hrun
        rw [PacketReader.run_exchange, hp] at hrun
        simp only [hw] at hrun
        exact (Prod.mk.inj (Except.ok.inj (Prod.mk.inj hrun).1)).2.symm
      · have hwait := Wait.small_of_loop hm
          (PacketReader.replyWait command (answer .now later).1) line
          (Instant.deadlineAfter (answer .now later).1 timeout) budget h (answer .now later).2
        constructor
        · simp only [moments, hl, hp, hw]
          exact hwait.1
        · intro s' world' hrun
          obtain ⟨result, hrun⟩ := exists_of_run_transact hl hrun
          rw [PacketReader.run_exchange, hp] at hrun
          simp only [hw] at hrun
          simp only [moments, hl, hp, hw]
          exact hwait.2 result s'.reader world' hrun

/-- What a session has at the end of a call to read a frame is the reader that the wait leaves. -/
theorem Call.exists_of_run_readFrame {line : Nat} {world world' : σ} {timeout : Duration}
    (hl : s.line = some line)
    (h : ((readFrame timeout).perform budget s).run answer world = (.ok s', world')) :
    ∃ found mid, (s.reader.nextFrame budget line timeout).run answer world =
      (.ok (found, s'.reader), mid) := by
  obtain ⟨⟨result, s''⟩, mid, hread, hdone⟩ := exists_of_run_bind h
  cases hdone
  simp only [Session.readFrame, hl] at hread
  obtain ⟨⟨found, reader⟩, mid, hframe, hrest⟩ := exists_of_run_bind hread
  refine ⟨found, mid, ?_⟩
  suffices s'.reader = reader from this ▸ hframe
  dsimp only at hrest
  split at hrest
  · cases hrest
    rfl
  · cases hrest
    rfl
  · split at hrest
    · cases hrest
      rfl
    · obtain ⟨_, _, -, hdone⟩ := exists_of_run_bind hrest
      cases hdone
      rfl

theorem Call.small_readFrame (hm : Measured answer) (h : s.reader.Within limit) (world : σ)
    (timeout : Duration) : (readFrame timeout).Small answer budget limit s world := by
  cases hl : s.line with
  | none =>
    refine .of_nil h (by simp only [moments, hl]) fun s' world' hrun => ?_
    simp only [perform, Session.readFrame, hl] at hrun
    cases hrun
    rfl
  | some line =>
    have hwait := Wait.small_of_loop hm PacketReader.frameWait line
      (Instant.deadlineAfter (answer .now world).1 timeout) budget h (answer .now world).2
    constructor
    · simp only [moments, hl]
      exact hwait.1
    · intro s' world' hrun
      obtain ⟨found, mid, hrun⟩ := exists_of_run_readFrame hl hrun
      rw [PacketReader.run_nextFrame] at hrun
      simp only [moments, hl]
      exact hwait.2 found s'.reader mid hrun

theorem Call.small (hm : Measured answer) (h : s.reader.Within limit) (world : σ) :
    (call : Call) → call.Small answer budget limit s world
  | transact command payload timeout => small_transact hm h world command payload timeout
  | readFrame timeout => small_readFrame hm h world timeout

theorem small_of_calls (hm : Measured answer) (budget : Nat) (calls : List Call) (world : σ)
    (h : s.reader.Within limit) :
    (∀ m ∈ moments answer budget calls s world, m.Small limit) ∧
    ∀ s' world', (performAll budget calls s).run answer world = (.ok s', world') →
      s'.reader.Within limit ∧
        s'.reader.bytes = heldAfter s.reader.bytes (moments answer budget calls s world) := by
  induction calls generalizing s world with
  | nil =>
    refine ⟨List.forall_mem_nil _, fun s' world' hrun => ?_⟩
    cases hrun
    exact ⟨h, rfl⟩
  | cons call calls ih =>
    have hcall : call.Small answer budget limit s world := Call.small hm h world call
    rw [moments]
    constructor
    · refine List.forall_mem_append.2 ⟨hcall.small, ?_⟩
      split
      · rename_i s' world' hrun
        exact (ih world' (hcall.after s' world' hrun).1).1
      · exact List.forall_mem_nil _
    · intro s' world' hrun
      obtain ⟨mid, world'', hfirst, hrest⟩ := exists_of_run_bind (d := call.perform budget s) hrun
      obtain ⟨hmid, hheld⟩ := hcall.after mid world'' hfirst
      obtain ⟨hs', hheld'⟩ := (ih world'' hmid).2 s' world' hrest
      rw [hfirst, heldAfter_append, ← hheld]
      exact ⟨hs', hheld'⟩

/-- The buffer of a reader is bounded. Whatever arrives, in reads that give no more than they are
asked for, and whatever becomes of the calls, a look that finds no packet keeps nothing or bytes
that begin like a packet, fewer than the longest packet has; and at no moment are there more than
one read on top of that. What the reader has in the end is what its last moment says. -/
theorem reader_bounded (hm : Measured answer) (budget limit : Nat) (calls : List Call)
    {s : Session} (hs : s.reader = .empty limit) (world : σ) :
    let bound := max 1032 (12 + min limit 0x100000)
    let moments := moments answer budget calls s world
    (∀ held, .look none held ∈ moments →
      (held = [] ∨ held.head? = some 0x02 ∨ held.head? = some 0x03) ∧ held.length < bound) ∧
    (∀ m ∈ moments, m.held.length ≤ bound + 4096) ∧
    ∀ s' world', (performAll budget calls s).run answer world = (.ok s', world') →
      s'.reader.bytes = heldAfter [] moments ∧ s'.reader.bytes.length ≤ bound + 4096 := by
  intro bound moments
  have hempty : s.reader.Within limit := by
    rw [hs]
    exact ⟨rfl, Nat.add_pos_right _ (by decide)⟩
  have hheld : s.reader.bytes = [] := by rw [hs]; rfl
  obtain ⟨hsmall, hafter⟩ := small_of_calls hm budget calls world hempty
  refine ⟨fun held hmem => ?_, fun m hmem => (hsmall m hmem).short.le, fun s' world' hrun => ?_⟩
  · exact ⟨((hsmall _ hmem).kept held rfl).start, ((hsmall _ hmem).kept held rfl).short⟩
  · obtain ⟨hs', hbytes⟩ := hafter s' world' hrun
    exact ⟨hheld ▸ hbytes, hs'.short.le⟩

/-- Noise with a header of more bytes than a frame may have, and the header of a frame that does not
come: the noise is dropped by the look after it, and the header kept from call to call. -/
theorem reader_bounded_noise :
    let noise : Bytes := [0x55, 3, 0, 0, 0, 0, 0, 0xFF, 0xFF, 0xFF, 0xFF]
    let pieces : List Bytes := [noise, noise ++ [3, 0, 1], [0, 0, 0, 9, 0, 0, 0, 7]]
    let calls : List Call := [.readFrame 5, .transact .getBoardInfo [] 5, .readFrame 5]
    Measured Bench.answer ∧ onBench.reader = .empty Packet.maxFramePayload ∧
      (moments Bench.answer 9 calls onBench (Bench.playing pieces)).map (·.held.length) =
        [0, 0, 11, 0, 14, 3, 11, 11, 11, 11, 11, 11, 11, 11, 11, 11, 11, 11] ∧
      ∀ m ∈ moments Bench.answer 9 calls onBench (Bench.playing pieces),
        m.held.length ≤ 0x10000C + 4096 :=
  ⟨Bench.measured, rfl, by decide +kernel,
    (reader_bounded Bench.measured 9 Packet.maxFramePayload _ rfl _).2.1⟩

end Session

end RadarHost
