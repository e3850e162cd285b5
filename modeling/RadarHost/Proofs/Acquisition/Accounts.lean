import RadarHost.Proofs.Acquisition.Sharing
import RadarHost.Proofs.Link.Calls

/-!
# The accounts of a producer

Of the packets that a producer has taken off its line, every frame packet with the right checksum
has been offered to the queue, in order, and counted as received or rejected as the queue took it or
did not; every other frame packet has been counted as corrupt, and a reply nowhere (`Produced`). One
turn of the producer keeps its accounts (`turn_of_follows`), and so does the whole run, which stops
where it was asked to or where the line failed (`produce_of_follows`).
-/

namespace RadarHost

open Dialogue

/-! ## Calm courses -/

namespace Dialogue

/-- What a producer was told when it looked whether it had been asked to stop. -/
def Exchange.look? : Exchange → Option Bool
  | ⟨.stopRequested, asked⟩ => some asked
  | _ => none

/-- What a producer was told in a course, each time that it looked. -/
def looks (course : List Exchange) : List Bool := course.filterMap Exchange.look?

/-- An exchange of a producer that goes on: it is not asked to stop, and stops nothing itself. -/
def Exchange.Calm : Exchange → Prop
  | ⟨.stopRequested, asked⟩ => asked = false
  | ⟨.close _, _⟩ | ⟨.stopQueue, _⟩ => False
  | _ => True

theorem calm_of_hears {course : List Exchange} (h : ∀ x ∈ course, x.1.Hears) :
    (∀ x ∈ course, x.Calm) ∧ offers course = [] ∧ tallies course = [] := by
  refine ⟨?_, List.filterMap_eq_nil_iff.2 ?_, List.filterMap_eq_nil_iff.2 ?_⟩
  all_goals
    rintro ⟨action, answer⟩ hx
    have hx := h _ hx
    cases action <;> first | exact hx.elim | trivial

end Dialogue

namespace Acquisition

/-! ## Turns -/

/-- The frames of the frame packets that carry the right checksum, in order. -/
def intact (packets : List Packet) : List Frame :=
  (Session.reportsOf packets).filterMap Except.toOption

/-- How many frame packets do not carry the right checksum. -/
def damaged (packets : List Packet) : Nat := (Session.reportsOf packets).countP (!·.isOk)

variable {s s' s₁ : Session} {line budget turns : Nat} {timeout : Duration}
  {course later : List Exchange} {packets others : List Packet}

/-- The exchanges of a course account for what is to be reported: the queue was offered every frame,
in order, each is counted as received or rejected as the queue took it or did not, and what is no
frame is counted as corrupt. -/
structure Accounts (reports : List (Except LinkError Frame)) (course : List Exchange) : Prop where
  offered_eq : (offers course).map Prod.fst = reports.filterMap Except.toOption
  received_eq : (tallies course).count .received = (offers course).countP Prod.snd
  rejected_eq : (tallies course).count .rejected = (offers course).countP (!·.2)
  corrupt_eq : (tallies course).count .corrupt = reports.countP (!·.isOk)

theorem Accounts.of_silent (hoffers : offers course = []) (htallies : tallies course = []) :
    Accounts [] course := by
  constructor
  all_goals
    simp only [hoffers, htallies]
    rfl

theorem Accounts.append {reports more : List (Except LinkError Frame)} (h : Accounts reports course)
    (h' : Accounts more later) : Accounts (reports ++ more) (course ++ later) where
  offered_eq := by
    rw [offers_append, List.map_append, List.filterMap_append, h.offered_eq, h'.offered_eq]
  received_eq := by
    rw [tallies_append, offers_append, List.count_append, List.countP_append, h.received_eq,
      h'.received_eq]
  rejected_eq := by
    rw [tallies_append, offers_append, List.count_append, List.countP_append, h.rejected_eq,
      h'.rejected_eq]
  corrupt_eq := by
    rw [tallies_append, List.count_append, List.countP_append, h.corrupt_eq, h'.corrupt_eq]

/-- The producer has taken some packets off what its reader held and its reads gave, and accounted
for them. -/
structure Produced (s : Session) (packets : List Packet) (course : List Exchange) (s' : Session) :
    Prop where
  identifier_eq : s'.identifier = s.identifier
  limit_eq : s'.reader.limit = s.reader.limit
  took : Packet.Took s.reader.limit (s.reader.bytes ++ received (reads course)) packets
    s'.reader.bytes
  accounts : Accounts (Session.reportsOf packets) course

theorem Produced.of_silent (hreader : s'.reader = s.reader) (hid : s'.identifier = s.identifier)
    (hreads : reads course = []) (hoffers : offers course = []) (htallies : tallies course = []) :
    Produced s [] course s' := by
  refine ⟨hid, congrArg _ hreader, ?_, .of_silent hoffers htallies⟩
  rw [hreads, hreader]
  show Packet.Took _ (s.reader.bytes ++ []) _ _
  rw [List.append_nil]
  exact .refl _ _

theorem Produced.trans (h : Produced s packets course s₁) (h' : Produced s₁ others later s') :
    Produced s (packets ++ others) (course ++ later) s' where
  identifier_eq := h'.identifier_eq.trans h.identifier_eq
  limit_eq := h'.limit_eq.trans h.limit_eq
  took := by
    have took' := h'.took
    rw [h.limit_eq] at took'
    rw [reads_append, received_append, ← List.append_assoc]
    exact (h.took.append _).trans took'
  accounts := by
    rw [Session.reportsOf_append]
    exact h.accounts.append h'.accounts

/-- A producer that has not stopped. -/
structure GoesOn (s : Session) (course : List Exchange) (s' : Session) : Prop where
  line_eq : s'.line = s.line
  calm : ∀ x ∈ course, x.Calm
  reads_eq : ∃ pieces : List Bytes, reads course = pieces.map .bytes

theorem GoesOn.trans (h : GoesOn s course s₁) (h' : GoesOn s₁ later s') :
    GoesOn s (course ++ later) s' where
  line_eq := h'.line_eq.trans h.line_eq
  calm := List.forall_mem_append.2 ⟨h.calm, h'.calm⟩
  reads_eq := by
    obtain ⟨pieces, hpieces⟩ := h.reads_eq
    obtain ⟨others, hothers⟩ := h'.reads_eq
    exact ⟨pieces ++ others, by rw [reads_append, hpieces, hothers, List.map_append]⟩

/-- What the producer asks for after a call accounts for what the call gave. -/
structure HandsOver (result : Except LinkError (Option Frame)) (course : List Exchange) : Prop where
  calm : ∀ x ∈ course, x.Calm
  reads_eq : reads course = []
  accounts : Accounts (Session.reported? result).toList course

/-- What is asked after the line has failed. -/
def parting (line : Nat) (identifier : String) (error : TransportError) : List Exchange :=
  [⟨.report (.transportFailed identifier error), ()⟩, ⟨.close line, ()⟩,
    ⟨.report (.sessionClosed identifier), ()⟩, ⟨.stopQueue, ()⟩]

/-- What a turn comes to on an open line. -/
inductive TurnMakes (s : Session) (line budget : Nat) :
    List Exchange → Ending (Session ⊕ Session) → Prop
  | stopped : TurnMakes s line budget [⟨.stopRequested, true⟩] (.ok (.inr s))
  | goesOn {packets : List Packet} {course : List Exchange} {s' : Session}
    (hp : Produced s packets course s') (hg : GoesOn s course s') (hlook : looks course ≠ []) :
    TurnMakes s line budget course (.ok (.inl s'))
  | failed {packets : List Packet} {course : List Exchange} {s' : Session} {pieces : List Bytes}
    {error : TransportError} (hp : Produced s packets course s') (calm : ∀ x ∈ course, x.Calm)
    (reads_eq : reads course = pieces.map .bytes ++ [.failed error])
    (none_left : (Packet.framing s.reader.limit s'.reader.bytes).packets = []) :
    TurnMakes s line budget (course ++ parting line s.identifier error)
      (.ok (.inr { s' with line := none }))
  | broken {course : List Exchange} {why : Breakdown} (h : why.ShownBy budget (reads course)) :
    TurnMakes s line budget course (.error why)

theorem handsOver_of_follows {frame : Frame} {rest : List Exchange} {e : Ending Unit}
    (h : Follows (handOver frame) rest e) : e = .ok () ∧ HandsOver (.ok (some frame)) rest := by
  obtain ⟨took, rest, rfl, htally⟩ := Follows.of_ask h
  cases took with
  | true =>
    obtain ⟨_, rest, rfl, hdone⟩ := Follows.of_ask htally
    obtain ⟨rfl, rfl⟩ := Follows.of_done hdone
    exact ⟨rfl, by simp [Exchange.Calm], rfl, rfl, rfl, rfl, rfl⟩
  | false =>
    obtain ⟨_, rest, rfl, hreport⟩ := Follows.of_ask htally
    obtain ⟨_, rest, rfl, hdone⟩ := Follows.of_ask hreport
    obtain ⟨rfl, rfl⟩ := Follows.of_done hdone
    exact ⟨rfl, by simp [Exchange.Calm], rfl, rfl, rfl, rfl, rfl⟩

theorem handsOver_nil {result : Except LinkError (Option Frame)}
    (h : Session.reported? result = none) : HandsOver result [] :=
  ⟨List.forall_mem_nil _, rfl, by rw [h]; exact .of_silent rfl rfl⟩

theorem handsOver_corrupt (e : PacketError) :
    HandsOver (.error (.packet e)) [⟨.tally .corrupt, ()⟩, ⟨.report (.frameCorrupt e), ()⟩] :=
  ⟨by simp [Exchange.Calm], rfl, rfl, rfl, rfl, rfl⟩

section

variable {result : Except LinkError (Option Frame)} {heard rest : List Exchange}

theorem HandsOver.calm_turn (h : HandsOver result rest) (hh : ∀ x ∈ heard, x.1.Hears) :
    ∀ x ∈ (⟨.stopRequested, false⟩ :: (heard ++ rest) : List Exchange), Exchange.Calm x :=
  List.forall_mem_cons.2 ⟨rfl, List.forall_mem_append.2 ⟨(calm_of_hears hh).1, h.calm⟩⟩

theorem HandsOver.reads_turn (h : HandsOver result rest) :
    reads (⟨.stopRequested, false⟩ :: (heard ++ rest)) = reads heard := by
  show reads (heard ++ rest) = _
  rw [reads_append, h.reads_eq, List.append_nil]

theorem HandsOver.produced (h : HandsOver result rest)
    (hc : s.TookCall packets (reads heard) result s') (hh : ∀ x ∈ heard, x.1.Hears) :
    Produced s packets (⟨.stopRequested, false⟩ :: (heard ++ rest)) s' where
  identifier_eq := hc.identifier_eq
  limit_eq := hc.limit_eq
  took := by
    rw [h.reads_turn]
    exact hc.took
  accounts := by
    obtain ⟨-, hoffers, htallies⟩ := calm_of_hears hh
    have hlook : Accounts [] [⟨.stopRequested, false⟩] := .of_silent rfl rfl
    rw [hc.reports_eq]
    exact hlook.append ((Accounts.of_silent hoffers htallies).append h.accounts)

theorem TurnMakes.of_handsOver (hc : s.TookCall packets (reads heard) result s')
    (hh : ∀ x ∈ heard, x.1.Hears) (ho : HandsOver result rest)
    (herror : Session.lineError? result = none) :
    TurnMakes s line budget (⟨.stopRequested, false⟩ :: (heard ++ rest)) (.ok (.inl s')) := by
  obtain ⟨pieces, hpieces⟩ := hc.reads_eq
  refine .goesOn (ho.produced hc hh) ⟨hc.line_eq, ho.calm_turn hh, pieces, ?_⟩
    (List.cons_ne_nil _ _)
  rw [ho.reads_turn, hpieces, herror]
  exact List.append_nil _

theorem TurnMakes.of_failed {error : TransportError}
    (hc : s.TookCall packets (reads heard) (.error (.transport error)) s')
    (hh : ∀ x ∈ heard, x.1.Hears) :
    TurnMakes s line budget (⟨.stopRequested, false⟩ :: (heard ++ parting line s.identifier error))
      (.ok (.inr { s' with line := none })) := by
  have ho : HandsOver (.error (.transport error)) [] := handsOver_nil rfl
  obtain ⟨pieces, hpieces⟩ := hc.reads_eq
  have hfailed : TurnMakes s line budget _ _ := .failed (ho.produced hc hh) (ho.calm_turn hh)
    (ho.reads_turn.trans hpieces) (hc.none_left rfl)
  rwa [List.append_nil] at hfailed

end

/-- What a turn makes of what its call gave. -/
def settle (r : Except LinkError (Option Frame) × Session) : Dialogue (Session ⊕ Session) := do
  match r with
  | (.ok (some frame), session) =>
    handOver frame
    return .inl session
  | (.ok none, session) => return .inl session
  | (.error (.packet e), session) =>
    Dialogue.perform (.tally .corrupt)
    Dialogue.perform (.report (.frameCorrupt e))
    return .inl session
  | (.error (.transport e), session) =>
    Dialogue.perform (.report (.transportFailed session.identifier e))
    let session ← session.close
    Dialogue.perform .stopQueue
    return .inr session

theorem turn_eq (budget : Nat) (timeout : Duration) (s : Session) :
    turn budget timeout s = .ask .stopRequested fun asked =>
      if asked = true then .done (.inr s)
      else (protect s.discard (s.readFrame budget timeout)).bind settle := rfl

/-- Unless the line has failed, the producer accounts for what its call gave, and goes on. -/
theorem handsOver_of_settle {result : Except LinkError (Option Frame)} {rest : List Exchange}
    {e : Ending (Session ⊕ Session)} (herror : Session.lineError? result = none)
    (h : Follows (settle (result, s')) rest e) : e = .ok (.inl s') ∧ HandsOver result rest := by
  match result with
  | .ok (some frame) =>
    rcases Follows.of_bind (d := handOver frame) h with
      ⟨_, hhand, _⟩ | ⟨_, rest, _, rfl, hhand, hdone⟩
    · cases (handsOver_of_follows hhand).1
    · obtain ⟨rfl, rfl⟩ := Follows.of_done hdone
      rw [List.append_nil]
      exact ⟨rfl, (handsOver_of_follows hhand).2⟩
  | .ok none =>
    obtain ⟨rfl, rfl⟩ := Follows.of_done h
    exact ⟨rfl, handsOver_nil rfl⟩
  | .error (.packet e) =>
    obtain ⟨_, rest, rfl, hreport⟩ := Follows.of_ask h
    obtain ⟨_, rest, rfl, hdone⟩ := Follows.of_ask hreport
    obtain ⟨rfl, rfl⟩ := Follows.of_done hdone
    exact ⟨rfl, handsOver_corrupt e⟩
  | .error (.transport error) => cases herror

theorem settle_of_follows (hl : s.line = some line) {result : Except LinkError (Option Frame)}
    {heard rest : List Exchange} {e : Ending (Session ⊕ Session)}
    (hc : s.TookCall packets (reads heard) result s') (hh : ∀ x ∈ heard, x.1.Hears)
    (h : Follows (settle (result, s')) rest e) :
    TurnMakes s line budget (⟨.stopRequested, false⟩ :: (heard ++ rest)) e := by
  cases herror : Session.lineError? result with
  | none =>
    obtain ⟨rfl, ho⟩ := handsOver_of_settle herror h
    exact .of_handsOver hc hh ho herror
  | some error =>
    obtain rfl := Session.eq_of_lineError? herror
    obtain ⟨_, rest, rfl, hclose⟩ := Follows.of_ask h
    rcases Follows.of_bind (d := s'.close) hclose with
      ⟨_, hc', _⟩ | ⟨_, closing, rest, rfl, hclosed, hstop⟩
    · cases (Session.follows_close hc').2
    obtain ⟨rfl, he⟩ := Session.follows_close hclosed
    cases he
    obtain ⟨_, rest, rfl, hdone⟩ := Follows.of_ask hstop
    obtain ⟨rfl, rfl⟩ := Follows.of_done hdone
    have hparting : (⟨.report (.transportFailed s'.identifier error), ()⟩ :: (s'.closing ++
        [⟨.stopQueue, ()⟩]) : List Exchange) = parting line s.identifier error := by
      rw [Session.closing, hc.line_eq, hl, hc.identifier_eq]
      rfl
    exact hparting ▸ .of_failed hc hh

/-- A turn goes on with its accounts kept, unless it is asked to stop or the line fails. -/
theorem turn_of_follows (hl : s.line = some line) {e : Ending (Session ⊕ Session)}
    (h : Follows (turn budget timeout s) course e) : TurnMakes s line budget course e := by
  rw [turn_eq] at h
  obtain ⟨asked, rest, rfl, hrest⟩ := Follows.of_ask h
  cases asked with
  | true =>
    obtain ⟨rfl, rfl⟩ := Follows.of_done hrest
    exact .stopped
  | false =>
    rcases Follows.of_bind (d := protect s.discard (s.readFrame budget timeout)) hrest with
      ⟨why, hread, rfl⟩ | ⟨⟨result, s'⟩, heard, rest, rfl, hread, hsettle⟩
    · rcases Session.of_protect_discard hread with ⟨_, _, he⟩ | ⟨_, heard, rfl, hcall, he⟩
      · cases he
      · cases he
        obtain ⟨m, ha, hm⟩ := Session.callMakes_of_follows hl hcall
        cases hm
        refine .broken ?_
        show why.ShownBy budget (reads (heard ++ s.closing))
        rw [reads_append, s.reads_closing, List.append_nil]
        exact ha.shownBy
    · rcases Session.of_protect_discard hread with ⟨_, hcall, he⟩ | ⟨_, _, _, _, he⟩
      · cases he
        obtain ⟨packets, hc⟩ := Session.tookCall_of_follows hl hcall
        exact settle_of_follows hl hc (hcall.asks (s.asks_readFrame budget timeout)) hsettle
      · cases he

/-! ## Runs -/

/-- Where a run of the producer stops. -/
inductive Halted (s : Session) : List Packet → List Exchange → Session → Prop
  /-- It is asked to stop. Its line stays open, with what it has not given. -/
  | stopped {packets : List Packet} {earlier : List Exchange} {pieces : List Bytes} {s' : Session}
    (calm : ∀ x ∈ earlier, x.Calm) (reads_eq : reads earlier = pieces.map .bytes)
    (line_eq : s'.line = s.line) : Halted s packets (earlier ++ [⟨.stopRequested, true⟩]) s'
  /-- The line fails, and all packets that arrived have been taken. -/
  | failed {packets : List Packet} {earlier : List Exchange} {pieces : List Bytes} {s' : Session}
    {line : Nat} {error : TransportError} (hl : s.line = some line)
    (calm : ∀ x ∈ earlier, x.Calm) (reads_eq : reads earlier = pieces.map .bytes ++ [.failed error])
    (all : packets =
      (Packet.framing s.reader.limit (s.reader.bytes ++ received (reads earlier))).packets)
    (closed : s'.line = none) : Halted s packets (earlier ++ parting line s.identifier error) s'
  /-- The session was closed before. -/
  | closed {s' : Session} (hl : s.line = none) (closed : s'.line = none) :
    Halted s [] [⟨.stopRequested, false⟩, ⟨.report (.transportFailed s.identifier .closed), ()⟩,
      ⟨.stopQueue, ()⟩] s'

/-- What a course shows of why a producer broke off: a read crashed, or one call made as many reads
as it may, or there were as many turns as there may be. -/
def BrokenOff (budget turns : Nat) (course : List Exchange) : Breakdown → Prop
  | .crashed => .crashed ∈ reads course
  | .exhausted => budget ≤ (reads course).length ∨ turns ≤ (looks course).length

/-- What a run comes to. -/
def RunMakes (s : Session) (budget turns : Nat) (course : List Exchange) : Ending Session → Prop
  | .ok s' => ∃ packets, Produced s packets course s' ∧ Halted s packets course s'
  | .error why => BrokenOff budget turns course why

theorem BrokenOff.of_shownBy {why : Breakdown} (h : why.ShownBy budget (reads course)) :
    BrokenOff budget turns course why := by
  cases why with
  | crashed => exact h
  | exhausted => exact .inl h

theorem Halted.after (hl : s.line = some line) (hp : Produced s packets course s₁)
    (hg : GoesOn s course s₁) (h : Halted s₁ others later s') :
    Halted s (packets ++ others) (course ++ later) s' := by
  obtain ⟨pieces, hpieces⟩ := hg.reads_eq
  cases h with
  | @stopped _ earlier pieces' _ calm reads_eq line_eq =>
    rw [← List.append_assoc]
    have hreads : reads (course ++ earlier) = (pieces ++ pieces').map .bytes := by
      rw [reads_append, hpieces, reads_eq, List.map_append]
    exact .stopped (List.forall_mem_append.2 ⟨hg.calm, calm⟩) hreads (line_eq.trans hg.line_eq)
  | @failed _ earlier pieces' _ line error hl' calm reads_eq all closed =>
    rw [← List.append_assoc, hp.identifier_eq]
    have hreads : reads (course ++ earlier) =
        (pieces ++ pieces').map .bytes ++ [.failed error] := by
      rw [reads_append, hpieces, reads_eq, List.map_append, List.append_assoc]
    have hall : packets ++ others = (Packet.framing s.reader.limit
        (s.reader.bytes ++ received (reads (course ++ earlier)))).packets := by
      rw [reads_append, received_append, ← List.append_assoc, hp.took.packets_append, all,
        hp.limit_eq]
    exact .failed (hg.line_eq.symm.trans hl') (List.forall_mem_append.2 ⟨hg.calm, calm⟩) hreads hall
      closed
  | closed hl' => cases hl'.symm.trans (hg.line_eq.trans hl)

/-- A turn that goes on, and then the rest of a run. -/
theorem RunMakes.after (hl : s.line = some line) (hp : Produced s packets course s₁)
    (hg : GoesOn s course s₁) (hlook : looks course ≠ []) {e : Ending Session}
    (h : RunMakes s₁ budget turns later e) : RunMakes s budget (turns + 1) (course ++ later) e := by
  cases e with
  | ok s' =>
    obtain ⟨others, hothers, hhalted⟩ := h
    exact ⟨packets ++ others, hp.trans hothers, hhalted.after hl hp hg⟩
  | error why =>
    cases why with
    | crashed =>
      show _ ∈ reads (course ++ later)
      rw [reads_append]
      exact List.mem_append_right _ h
    | exhausted =>
      have hpos := List.length_pos_iff.2 hlook
      have hlooks : (looks (course ++ later)).length = (looks course).length + (looks later).length
        := by rw [looks, List.filterMap_append, List.length_append]; rfl
      show budget ≤ (reads (course ++ later)).length ∨ turns + 1 ≤ (looks (course ++ later)).length
      rw [hlooks, reads_append, List.length_append]
      exact Or.imp (fun h => by omega) (fun h => by omega) (show _ ∨ _ from h)

theorem RunMakes.of_asked (s : Session) :
    RunMakes s budget turns [⟨.stopRequested, true⟩] (.ok s) :=
  have hnone : reads ([] : List Exchange) = ([] : List Bytes).map .bytes := rfl
  ⟨[], .of_silent rfl rfl rfl rfl rfl, .stopped (List.forall_mem_nil _) hnone rfl⟩

theorem run_of_follows (hl : s.line = some line) {e : Ending Session}
    (h : Follows (loop (turn budget timeout) turns s) course e) :
    RunMakes s budget turns course e := by
  induction turns generalizing s course with
  | zero =>
    cases h
    exact .inr (Nat.zero_le _)
  | succ turns ih =>
    rcases Follows.of_bind (d := turn budget timeout s) h with
      ⟨why, ht, rfl⟩ | ⟨x, first, later, rfl, ht, hrest⟩
    · cases turn_of_follows hl ht with
      | broken h => exact .of_shownBy h
    · cases turn_of_follows hl ht with
      | stopped =>
        obtain ⟨rfl, rfl⟩ := Follows.of_done hrest
        exact .of_asked s
      | goesOn hp hg hlook => exact .after hl hp hg hlook (ih (hg.line_eq.trans hl) hrest)
      | @failed packets course s' pieces error hp calm reads_eq none_left =>
        obtain ⟨rfl, rfl⟩ := Follows.of_done hrest
        rw [List.append_nil]
        have hparting : Produced s' [] (parting line s.identifier error) { s' with line := none } :=
          .of_silent rfl rfl rfl rfl rfl
        have hall := hp.took.packets_eq none_left
        exact ⟨packets ++ [], hp.trans hparting,
          .failed hl calm reads_eq ((List.append_nil _).trans hall.symm) rfl⟩

theorem run_closed (hl : s.line = none) {e : Ending Session}
    (h : Follows (loop (turn budget timeout) turns s) course e) :
    RunMakes s budget turns course e := by
  cases s
  cases hl
  cases turns with
  | zero =>
    cases h
    exact .inr (Nat.zero_le _)
  | succ turns =>
    obtain ⟨asked, rest, rfl, hrest⟩ := Follows.of_ask h
    cases asked with
    | true =>
      obtain ⟨rfl, rfl⟩ := Follows.of_done hrest
      exact .of_asked _
    | false =>
      -- the call fails at once, and there is nothing to close
      obtain ⟨_, rest, rfl, hreport⟩ := Follows.of_ask hrest
      obtain ⟨_, rest, rfl, hstop⟩ := Follows.of_ask hreport
      obtain ⟨rfl, rfl⟩ := Follows.of_done hstop
      exact ⟨[], .of_silent rfl rfl rfl rfl rfl, .closed rfl rfl⟩

/-- A run of the producer keeps its accounts to the end. -/
theorem produce_of_follows {e : Ending Session}
    (h : Follows (produce budget timeout s) course e) : RunMakes s budget budget course e := by
  cases hl : s.line with
  | some line => exact run_of_follows hl h
  | none => exact run_closed hl h

end Acquisition

end RadarHost
