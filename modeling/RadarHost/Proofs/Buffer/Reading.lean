import Mathlib.Order.Basic
import RadarHost.Buffer.Cursor

/-!
# A buffer is read once, front to back

Every call that consumes asks for some elements of some size, and does the same with them: it takes
the bytes of all elements together off the front of what is left (`takeElements`,
`Call.perform_eq`), and makes its answer of them. So one lemma says what a call that succeeds leaves
(`Stands.perform`), one when a call fails (`Call.perform_eq_error_iff`), and `Stands.run` follows
any sequence of calls: what they have given out is the front of the buffer up to where the cursor
stands. `buffer_read_once` has all of this, and that the calls that failed might as well not have
been made.
-/

namespace RadarHost

/-! ## Pieces -/

/-- The first `count` pieces of `size` each. -/
def cut {α : Type} (size count : Nat) (xs : List α) : List (List α) :=
  (List.range count).map fun i => (xs.drop (i * size)).take size

/-- Cutting loses nothing. -/
theorem flatten_cut {α : Type} (size count : Nat) (xs : List α) :
    (cut size count xs).flatten = xs.take (count * size) := by
  induction count with
  | zero => rw [cut, List.range_zero, List.map_nil, List.flatten_nil, Nat.zero_mul, List.take_zero]
  | succ count ih =>
    have hlast : cut size (count + 1) xs =
        cut size count xs ++ [(xs.drop (count * size)).take size] := by
      simp only [cut, List.range_succ, List.map_append, List.map_cons, List.map_nil]
    rw [hlast, List.flatten_append, ih, List.flatten_singleton, Nat.succ_mul, List.take_add]

namespace Cursor

variable {unit element count : Nat} {c c' : Cursor} {bytes : Bytes}

theorem pieces_eq (size count : Nat) (before : List Bytes) (bytes : Bytes) :
    pieces size count before bytes = before.reverse ++ cut size count bytes := by
  induction count generalizing before bytes with
  | zero => rw [pieces, cut, List.range_zero, List.map_nil, List.append_nil]
  | succ count ih =>
    rw [pieces, ih, cut, cut, List.reverse_cons, List.append_assoc, List.range_succ_eq_map,
      List.map_cons, List.map_map, Nat.zero_mul, List.drop_zero, List.singleton_append]
    congr 2
    refine List.map_congr_left fun i _ => ?_
    rw [List.drop_drop, Function.comp, Nat.succ_mul, Nat.add_comm]

/-! ## What a call takes -/

/-- The bytes of `count` elements of `element` bytes each, and the cursor behind them. -/
def takeElements (c : Cursor) (element count : Nat) : Except CursorError (Bytes × Cursor) :=
  if c.unit = 0 ∨ element = 0 ∨ element % c.unit ≠ 0 then .error (.elementSize element c.unit)
  else if h : count * (element / c.unit) ≤ c.remaining then .ok (c.advance _ h)
  else .error (.outOfBounds (count * element) (c.remaining * c.unit))

/-- The units of whole elements have as many bytes as the elements. -/
theorem units_mul (h : ¬ (c.unit = 0 ∨ element = 0 ∨ element % c.unit ≠ 0)) (count : Nat) :
    count * (element / c.unit) * c.unit = count * element := by
  obtain ⟨-, -, hmod⟩ : c.unit ≠ 0 ∧ element ≠ 0 ∧ element % c.unit = 0 := by simpa using h
  rw [Nat.mul_assoc, Nat.div_mul_cancel (Nat.dvd_of_mod_eq_zero hmod)]

theorem takeElements_of_le (hwhole : ¬ (c.unit = 0 ∨ element = 0 ∨ element % c.unit ≠ 0))
    (h : count * (element / c.unit) ≤ c.remaining) :
    c.takeElements element count = .ok (c.advance _ h) := by
  rw [takeElements, if_neg hwhole, dif_pos h]

/-- Where a call takes elements, and what it leaves. -/
structure Takes (c : Cursor) (element count : Nat) (bytes : Bytes) (c' : Cursor) : Prop where
  length_eq : bytes.length = count * element
  units_eq : bytes.length = count * (element / c.unit) * c.unit
  rest_eq : c.rest = bytes ++ c'.rest
  unit_eq : c'.unit = c.unit
  bound_eq : c'.bound = c.bound
  position_eq : c'.position = c.position + count * (element / c.unit)

theorem takes_of_takeElements (h : c.takeElements element count = .ok (bytes, c')) :
    Takes c element count bytes c' := by
  unfold takeElements at h
  split at h
  · cases h
  · rename_i hwhole
    split at h
    · rename_i hle
      cases h
      have hlength : (c.advance _ hle).1.length = count * (element / c.unit) * c.unit := by
        rw [advance, List.length_take, c.length_rest]
        exact Nat.min_eq_left (Nat.mul_le_mul_right _ hle)
      exact ⟨hlength.trans (units_mul hwhole count), hlength, (List.take_append_drop ..).symm, rfl,
        rfl, rfl⟩
    · cases h

/-- Over bytes, elements of any size are whole. -/
theorem whole_of_byte (hu : c.unit = 1) (he : 0 < element) :
    ¬ (c.unit = 0 ∨ element = 0 ∨ element % c.unit ≠ 0) := by
  rw [hu, Nat.mod_one]
  omega

/-- Over bytes, elements that are all there are taken. -/
theorem takeElements_bytes (hu : c.unit = 1) (he : 0 < element)
    (h : count * element ≤ c.remaining) :
    ∃ c', c.takeElements element count = .ok (c.rest.take (count * element), c') ∧ c'.unit = 1 ∧
      c'.rest = c.rest.drop (count * element) ∧ c'.remaining = c.remaining - count * element := by
  have hunits : count * (element / c.unit) = count * element := by rw [hu, Nat.div_one]
  have hbytes : count * (element / c.unit) * c.unit = count * element := by
    rw [hu, Nat.div_one, Nat.mul_one]
  have htake := takeElements_of_le (whole_of_byte hu he) (hunits.trans_le h)
  refine ⟨(c.advance _ (hunits.trans_le h)).2, htake.trans ?_, hu, ?_, ?_⟩
  · exact congrArg (fun n => Except.ok (c.rest.take n, _)) hbytes
  · exact congrArg (c.rest.drop ·) hbytes
  · show c.bound - (c.position + count * (element / c.unit)) = c.bound - c.position - _
    rw [hunits, Nat.sub_sub]

/-- Over bytes, elements that are not all there are refused. -/
theorem takeElements_of_lt (hu : c.unit = 1) (he : 0 < element)
    (h : c.remaining < count * element) :
    c.takeElements element count = .error (.outOfBounds (count * element) c.remaining) := by
  rw [takeElements, if_neg (whole_of_byte hu he), hu, Nat.div_one, dif_neg (Nat.not_le_of_lt h),
    Nat.mul_one]

theorem finish_of_remaining (h : c.remaining = 0) : c.finish = .ok () := by
  have := c.position_le
  rw [remaining] at h
  exact if_pos (beq_iff_eq.2 (by omega))

/-- A cursor over bytes that is not at its end says how many are left. -/
theorem finish_of_pos (hu : c.unit = 1) (h : 0 < c.remaining) :
    c.finish = .error (.trailingData c.remaining) := by
  have hopen : ¬ c.finished := by
    unfold remaining at h
    simp only [finished, beq_iff_eq]
    omega
  rw [finish, if_neg hopen, hu, Nat.mul_one]

theorem consumeInto_eq (c : Cursor) (element count : Nat) :
    c.consumeInto element count =
      (c.takeElements element count).map fun (bytes, c') => (cut element count bytes, c') := by
  unfold consumeInto takeElements
  split
  · rfl
  · rename_i hwhole
    dsimp only
    split
    · rw [pieces_eq]
      rfl
    · rw [units_mul hwhole]
      rfl

theorem consume_eq (c : Cursor) (element : Nat) : c.consume element = c.takeElements element 1 := by
  rw [consume, consumeInto_eq]
  cases h : c.takeElements element 1 with
  | error e => rfl
  | ok taken =>
    obtain ⟨bytes, c'⟩ := taken
    show Except.ok ((cut element 1 bytes).flatten, c') = _
    rw [flatten_cut, ← (takes_of_takeElements h).length_eq, List.take_length]

theorem consumeBytes_eq (hu : c.unit = 1) (count : Nat) :
    c.consumeBytes count = c.takeElements 1 count := by
  unfold consumeBytes takeElements
  rw [if_neg (whole_of_byte hu Nat.one_pos)]
  simp only [hu, Nat.div_one, Nat.mul_one]

/-- Bytes that are all there are consumed. -/
theorem consumeBytes_of_le (hu : c.unit = 1) (h : count ≤ c.remaining) :
    ∃ c', c.consumeBytes count = .ok (c.rest.take count, c') ∧ c'.unit = 1 ∧
      c'.remaining = c.remaining - count := by
  obtain ⟨c', htake, hu', -, hleft⟩ :=
    takeElements_bytes hu Nat.one_pos ((Nat.mul_one count).trans_le h)
  rw [Nat.mul_one] at htake hleft
  exact ⟨c', (consumeBytes_eq hu count).trans htake, hu', hleft⟩

/-- Bytes that are all that is left are consumed to the end, in two calls. -/
theorem consumeBytes_to_end {first second : Nat} (hu : c.unit = 1)
    (h : c.remaining = first + second) :
    ∃ c' c'' last, c.consumeBytes first = .ok (c.rest.take first, c') ∧
      c'.consumeBytes second = .ok (last, c'') ∧ c''.finish = .ok () := by
  obtain ⟨c', hfirst, hu', hleft⟩ := consumeBytes_of_le hu (h ▸ Nat.le_add_right first second)
  rw [h, Nat.add_sub_cancel_left] at hleft
  obtain ⟨c'', hsecond, -, hleft'⟩ := consumeBytes_of_le hu' (Nat.le_of_eq hleft.symm)
  rw [hleft, Nat.sub_self] at hleft'
  exact ⟨c', c'', _, hfirst, hsecond, finish_of_remaining hleft'⟩

/-- Nothing of a byte string has been read at its start. -/
theorem rest_new (bytes : Bytes) : (new (Buffer.ofBytes 1 bytes)).rest = bytes := by
  simp only [new, Buffer.ofBytes, Nat.div_one, Nat.mul_one, List.take_length]

theorem remaining_new (bytes : Bytes) :
    (new (Buffer.ofBytes 1 bytes)).remaining = bytes.length := Nat.div_one _

/-- An element off the start of bytes that are too few for it is refused. -/
theorem consume_of_lt (h : bytes.length < element) :
    (new (Buffer.ofBytes 1 bytes)).consume element =
      .error (.outOfBounds element bytes.length) := by
  have hremaining : (new (Buffer.ofBytes 1 bytes)).remaining = bytes.length := remaining_new bytes
  rw [consume_eq, takeElements_of_lt rfl (by omega) (by omega), hremaining, Nat.one_mul]

/-- An element off the start of bytes that are enough for it is their front. -/
theorem consume_of_le (he : 0 < element) (h : element ≤ bytes.length) :
    ∃ c, (new (Buffer.ofBytes 1 bytes)).consume element = .ok (bytes.take element, c) ∧
      c.unit = 1 ∧ c.rest = bytes.drop element ∧ c.remaining = bytes.length - element := by
  have hremaining : (new (Buffer.ofBytes 1 bytes)).remaining = bytes.length := remaining_new bytes
  have hall : 1 * element ≤ (new (Buffer.ofBytes 1 bytes)).remaining := by omega
  obtain ⟨c, htake, hu, hrest, hleft⟩ := takeElements_bytes rfl he hall
  rw [rest_new, Nat.one_mul] at htake hrest
  exact ⟨c, (consume_eq ..).trans htake, hu, hrest, by omega⟩

theorem consumeNat_eq (c : Cursor) (size : Nat) :
    c.consumeNat size =
      (c.takeElements size 1).map fun (bytes, c') => (Bytes.toNat bytes, c') := by
  rw [consumeNat, consume_eq]
  cases c.takeElements size 1 <;> rfl

/-! ## Calls -/

/-- A call on a cursor over units of `unit` bytes. Bytes and numbers can be asked for where the unit
is the byte. -/
inductive Call (unit : Nat)
  | consumeInto (element count : Nat)
  | consume (element : Nat)
  | consumeBytes (isByte : unit = 1) (count : Nat)
  | consumeU8 (isByte : unit = 1)
  | consumeU16 (isByte : unit = 1)
  | consumeU32 (isByte : unit = 1)
  | finish

/-- What a call returns. -/
inductive Answer
  | elements (cut : List Bytes)
  | bytes (taken : Bytes)
  | u8 (value : UInt8)
  | u16 (value : UInt16)
  | u32 (value : UInt32)
  | finished
  deriving DecidableEq, Repr

/-- The bytes that an answer is made of. -/
def Answer.given : Answer → Bytes
  | .elements cut => cut.flatten
  | .bytes taken => taken
  | .u8 value => [value]
  | .u16 value => Bytes.ofNat 2 value.toNat
  | .u32 value => Bytes.ofNat 4 value.toNat
  | .finished => []

namespace Call

/-- What a call does with a cursor. -/
def perform (c : Cursor) : Call unit → Except CursorError (Answer × Cursor)
  | consumeInto element count => (c.consumeInto element count).map fun (r, c') => (.elements r, c')
  | consume element => (c.consume element).map fun (r, c') => (.bytes r, c')
  | consumeBytes _ count => (c.consumeBytes count).map fun (r, c') => (.bytes r, c')
  | consumeU8 _ => c.consumeU8.map fun (r, c') => (.u8 r, c')
  | consumeU16 _ => c.consumeU16.map fun (r, c') => (.u16 r, c')
  | consumeU32 _ => c.consumeU32.map fun (r, c') => (.u32 r, c')
  | finish => c.finish.map fun _ => (.finished, c)

/-- The size and the count of the elements that a call asks for. -/
def request? : Call unit → Option (Nat × Nat)
  | consumeInto element count => some (element, count)
  | consume element => some (element, 1)
  | consumeBytes _ count => some (1, count)
  | consumeU8 _ => some (1, 1)
  | consumeU16 _ => some (2, 1)
  | consumeU32 _ => some (4, 1)
  | finish => none

/-- The units that a call asks for. -/
def units (call : Call unit) : Nat :=
  match call.request? with
  | some (element, count) => count * (element / unit)
  | none => 0

/-- What a call makes of the bytes that it took. -/
def answer (bytes : Bytes) : Call unit → Answer
  | consumeInto element count => .elements (cut element count bytes)
  | consume _ => .bytes bytes
  | consumeBytes _ _ => .bytes bytes
  | consumeU8 _ => .u8 (UInt8.ofNat (Bytes.toNat bytes))
  | consumeU16 _ => .u16 (UInt16.ofNat (Bytes.toNat bytes))
  | consumeU32 _ => .u32 (UInt32.ofNat (Bytes.toNat bytes))
  | finish => .finished

/-- Why a call on a cursor that stands at `position` is to fail, if it is; sizes are in bytes. -/
def refusal? (position bound : Nat) (call : Call unit) : Option CursorError :=
  match call.request? with
  | some (element, count) =>
    if unit = 0 ∨ element = 0 ∨ ¬ unit ∣ element then some (.elementSize element unit)
    else if bound - position < call.units then
      some (.outOfBounds (count * element) ((bound - position) * unit))
    else none
  | none => if position = bound then none else some (.trailingData ((bound - position) * unit))

variable {call : Call unit}

/-- A call takes the elements that it asks for, and makes its answer of their bytes. -/
theorem perform_eq (hu : c.unit = unit) (call : Call unit) :
    call.perform c =
      match call.request? with
      | some (element, count) =>
        (c.takeElements element count).map fun (bytes, c') => (call.answer bytes, c')
      | none => c.finish.map fun _ => (.finished, c) := by
  cases call with
  | consumeInto element count =>
    simp only [perform, request?, consumeInto_eq]
    cases c.takeElements element count <;> rfl
  | consume element => simp only [perform, request?, consume_eq]; rfl
  | consumeBytes h count => simp only [perform, request?, consumeBytes_eq (hu.trans h)]; rfl
  | consumeU8 h =>
    simp only [perform, request?, Cursor.consumeU8, consumeNat_eq]
    cases c.takeElements 1 1 <;> rfl
  | consumeU16 h =>
    simp only [perform, request?, Cursor.consumeU16, consumeNat_eq]
    cases c.takeElements 2 1 <;> rfl
  | consumeU32 h =>
    simp only [perform, request?, Cursor.consumeU32, consumeNat_eq]
    cases c.takeElements 4 1 <;> rfl
  | finish => rfl

/-- A call fails exactly for the reasons that there are for it to fail. -/
theorem perform_eq_error_iff (hu : c.unit = unit) {e : CursorError} :
    call.perform c = .error e ↔ call.refusal? c.position c.bound = some e := by
  subst hu
  rw [perform_eq rfl, refusal?, units]
  cases call.request? with
  | none =>
    by_cases h : c.position = c.bound
    · simp [Cursor.finish, finished, h, Except.map]
    · simp [Cursor.finish, finished, h, Except.map, remaining]
  | some request =>
    obtain ⟨element, count⟩ := request
    simp only [takeElements, Nat.dvd_iff_mod_eq_zero]
    split
    · simp [Except.map]
    · split
      · rename_i hle
        simp [Except.map, Nat.not_lt_of_le (show _ ≤ c.bound - c.position from hle)]
      · rename_i hlt
        simp [Except.map, remaining, Nat.lt_of_not_le (show ¬ _ ≤ c.bound - c.position from hlt)]

/-- An answer is made of the bytes that were taken for it, all of them. -/
theorem given_answer {request : Nat × Nat} (hr : call.request? = some request)
    (h : bytes.length = request.2 * request.1) : (call.answer bytes).given = bytes := by
  cases call with
  | consumeInto element count =>
    cases hr
    show (cut element count bytes).flatten = bytes
    rw [flatten_cut, ← h, List.take_length]
  | consume element => rfl
  | consumeBytes _ count => rfl
  | consumeU8 _ =>
    cases hr
    exact Bytes.ofNat_toNat_byte h
  | consumeU16 _ =>
    cases hr
    exact Bytes.ofNat_toNat_u16 h
  | consumeU32 _ =>
    cases hr
    exact Bytes.ofNat_toNat_u32 h
  | finish => cases hr

end Call

/-! ## Runs -/

/-- The calls of a run, each with its answer, and the cursor after them. A call that fails returns
no cursor, and the next one is made on the cursor before it. -/
def run (c : Cursor) : List (Call unit) → List (Call unit × Except CursorError Answer) × Cursor
  | [] => ([], c)
  | call :: calls =>
    match call.perform c with
    | .ok (answer, c') => ((call, .ok answer) :: (run c' calls).1, (run c' calls).2)
    | .error e => ((call, .error e) :: (run c calls).1, (run c calls).2)

/-- The bytes that a run has given out. -/
def givenBy (made : List (Call unit × Except CursorError Answer)) : Bytes :=
  made.flatMap fun
    | (_, .ok answer) => answer.given
    | (_, .error _) => []

/-- The calls of a run that succeeded. -/
def succeeded (made : List (Call unit × Except CursorError Answer)) :
    List (Call unit × Except CursorError Answer) :=
  made.filter (·.2.isOk)

/-- A cursor over the first `size` units of a buffer that has given out the bytes in front of it. -/
structure Stands (b : Buffer) (size : Nat) (given : Bytes) (c : Cursor) : Prop where
  unit_eq : c.unit = b.unit
  bound_eq : c.bound = size
  bytes_eq : b.bytes.take (size * b.unit) = given ++ c.rest
  length_given : given.length = c.position * b.unit

namespace Stands

variable {b : Buffer} {size : Nat} {given : Bytes} {call : Call b.unit} {answer : Answer}

theorem start (h : withSize b size = .ok c) : Stands b size [] c := by
  unfold withSize at h
  split at h
  · cases h
    exact ⟨rfl, rfl, rfl, (Nat.zero_mul _).symm⟩
  · cases h

/-- What has been given out is the front of the buffer. -/
theorem given_eq (h : Stands b size given c) : given = b.bytes.take (c.position * b.unit) := by
  have hle : c.position * b.unit ≤ size * b.unit :=
    Nat.mul_le_mul_right _ (h.bound_eq ▸ c.position_le)
  rw [← Nat.min_eq_left hle, ← List.take_take, h.bytes_eq, ← h.length_given, List.take_left]

/-- A call that succeeds gives out what comes next, as much of it as it asked for. -/
theorem perform (h : Stands b size given c) (hp : call.perform c = .ok (answer, c')) :
    Stands b size (given ++ answer.given) c' ∧ c'.position = c.position + call.units ∧
      answer = call.answer answer.given := by
  rw [Call.perform_eq h.unit_eq] at hp
  cases hr : call.request? with
  | none =>
    rw [hr] at hp
    have hfinish : call = .finish := by cases call <;> first | rfl | cases hr
    subst hfinish
    cases hf : c.finish with
    | error e => rw [hf] at hp; cases hp
    | ok _ =>
      rw [hf] at hp
      cases hp
      exact ⟨by rwa [Answer.given, List.append_nil], rfl, rfl⟩
  | some request =>
    obtain ⟨element, count⟩ := request
    rw [hr] at hp
    cases ht : c.takeElements element count with
    | error e => simp only [ht] at hp; cases hp
    | ok taken =>
      obtain ⟨bytes, after⟩ := taken
      simp only [ht] at hp
      cases hp
      have htakes := takes_of_takeElements ht
      have hgiven : (call.answer bytes).given = bytes := Call.given_answer hr htakes.length_eq
      have hunits : call.units = count * (element / b.unit) := by rw [Call.units, hr]
      rw [hgiven]
      refine ⟨⟨htakes.unit_eq.trans h.unit_eq, htakes.bound_eq.trans h.bound_eq, ?_, ?_⟩, ?_, rfl⟩
      · rw [h.bytes_eq, htakes.rest_eq, List.append_assoc]
      · rw [List.length_append, h.length_given, htakes.units_eq, htakes.position_eq, h.unit_eq,
          Nat.add_mul]
      · rw [htakes.position_eq, hunits, h.unit_eq]

theorem run (h : Stands b size given c) (calls : List (Call b.unit)) :
    Stands b size (given ++ givenBy (run c calls).1) (Cursor.run c calls).2 := by
  induction calls generalizing c given with
  | nil => rwa [givenBy, Cursor.run, List.flatMap_nil, List.append_nil]
  | cons call calls ih =>
    rw [Cursor.run]
    cases hp : call.perform c with
    | error e => exact ih h
    | ok r =>
      obtain ⟨answer, c'⟩ := r
      have := ih (h.perform hp).1
      rwa [List.append_assoc] at this

end Stands

theorem map_fst_run (c : Cursor) (calls : List (Call unit)) :
    (run c calls).1.map Prod.fst = calls := by
  induction calls generalizing c with
  | nil => rfl
  | cons call calls ih =>
    rw [run]
    cases call.perform c with
    | error e => exact congrArg (call :: ·) (ih c)
    | ok r => exact congrArg (call :: ·) (ih r.2)

/-- The calls that succeeded do the same when those that failed are not made. -/
theorem run_succeeded (c : Cursor) (calls : List (Call unit)) :
    run c ((succeeded (run c calls).1).map Prod.fst) =
      (succeeded (run c calls).1, (run c calls).2) := by
  induction calls generalizing c with
  | nil => rfl
  | cons call calls ih =>
    rw [run]
    cases hp : call.perform c with
    | error e => exact ih c
    | ok r =>
      obtain ⟨answer, c'⟩ := r
      show run c (call :: (succeeded (run c' calls).1).map Prod.fst) = _
      rw [run, hp]
      dsimp only
      rw [ih c']
      rfl

theorem le_of_withSize {b : Buffer} {size : Nat} (h : withSize b size = .ok c) :
    size ≤ b.count := by
  unfold withSize at h
  split at h
  · assumption
  · cases h

/-- A cursor over the first `size` units of a buffer, after any calls that have been made on it: it
stands within its bound, and what the calls have given out, failing ones included, is the buffer up
to where it stands. Calls that failed have changed nothing. The next call, whichever it is, fails
exactly for the reasons that there are for it to fail; else it moves the cursor on by the units that
it asks for, and its answer is made of their bytes. -/
theorem buffer_read_once {b : Buffer} {size : Nat} {c : Cursor} (h : withSize b size = .ok c)
    (calls : List (Call b.unit)) :
    ∃ made c', run c calls = (made, c') ∧ made.map Prod.fst = calls ∧
      c'.position ≤ size ∧ size ≤ b.count ∧
      givenBy made = b.bytes.take (c'.position * b.unit) ∧
      run c ((succeeded made).map Prod.fst) = (succeeded made, c') ∧
      ∀ call : Call b.unit,
        (∀ e, call.perform c' = .error e ↔ call.refusal? c'.position size = some e) ∧
        ∀ answer c'', call.perform c' = .ok (answer, c'') →
          c''.position = c'.position + call.units ∧ answer = call.answer answer.given := by
  have hstands : Stands b size (givenBy (run c calls).1) (run c calls).2 :=
    (Stands.start h).run calls
  refine ⟨_, _, rfl, map_fst_run c calls, hstands.bound_eq ▸ (run c calls).2.position_le,
    le_of_withSize h, hstands.given_eq, run_succeeded c calls, fun call => ⟨fun e => ?_, ?_⟩⟩
  · rw [Call.perform_eq_error_iff hstands.unit_eq, hstands.bound_eq]
  · exact fun answer c'' hp => (hstands.perform hp).2

/-- Three of four words are read, with calls among them that ask for half a word, for too much, and
for an end that is not reached. -/
theorem buffer_read_once_words :
    let b := Buffer.ofBytes 2 [1, 2, 3, 4, 5, 6, 7, 8]
    let calls : List (Call b.unit) :=
      [.consume 4, .consume 3, .consumeInto 2 2, .finish, .consumeInto 2 1, .finish]
    ∃ c made c', withSize b 3 = .ok c ∧ run c calls = (made, c') ∧
      made.map Prod.snd = [.ok (.bytes [1, 2, 3, 4]), .error (.elementSize 3 2),
        .error (.outOfBounds 4 2), .error (.trailingData 2), .ok (.elements [[5, 6]]),
        .ok .finished] ∧
      c'.position = 3 ∧ givenBy made = [1, 2, 3, 4, 5, 6] ∧
      run c ((succeeded made).map Prod.fst) = (succeeded made, c') ∧
      (Call.consume 2 : Call b.unit).perform c' = .error (.outOfBounds 2 0) := by
  intro b calls
  let c := new (b.front 3 (by decide))
  obtain ⟨made, c', hrun, -, -, -, hgiven, hsucceeded, hnext⟩ :=
    @buffer_read_once b 3 c rfl calls
  have hmade : (run c calls).1.map Prod.snd = [.ok (.bytes [1, 2, 3, 4]),
      .error (.elementSize 3 2), .error (.outOfBounds 4 2), .error (.trailingData 2),
      .ok (.elements [[5, 6]]), .ok .finished] := by decide +kernel
  have hposition : (run c calls).2.position = 3 := by decide +kernel
  rw [hrun] at hmade hposition
  dsimp only at hposition
  refine ⟨c, made, c', rfl, hrun, hmade, hposition, ?_, hsucceeded, ?_⟩
  · rw [hgiven, hposition]
    rfl
  · rw [(hnext _).1, hposition]
    decide +kernel

end Cursor

end RadarHost
