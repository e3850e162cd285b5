import RadarHost.Bench.Basic
import RadarHost.Proofs.Link.Delivery

/-!
# What a bench delivers

The lines of a bench deliver what waits in them: the output of a board that does not stream
(`delivers_board`), and the bytes of a script that says nothing else (`delivers_script`). Both need
no more reads than fit their bytes.
-/

namespace RadarHost

open Dialogue

/-! ## One read -/

/-- A board that does not stream gives what waits for the host at once, or makes it wait. -/
theorem BoardLine.read_of_quiet {l : BoardLine} (h : l.streaming = false) (now : Instant)
    (max : Nat) (timeout : Duration) :
    l.read now max timeout = l.deliver max (if l.output.isEmpty then timeout else 0) [] := by
  have he : l.expectsFrames = false := by
    unfold expectsFrames
    rw [h]
    rfl
  unfold read emitFrame
  cases l.output.isEmpty <;> simp [he]

/-- Reads that are enough for some data, however little a read gives. -/
def Script.dataReads (datas : List Bytes) : Nat := datas.length + datas.flatten.length

/-- A script that begins with data gives a piece of it, and has the rest of it before what comes
after it. -/
theorem Script.read_data {max : Nat} (hm : 0 < max) (permits : Nat) (bytes : Bytes)
    (datas : List Bytes) (after : List ScriptStep) :
    ∃ left : List Bytes, read max permits ((bytes :: datas).map .data ++ after) =
        ⟨some (.bytes (bytes.take max)), permits, left.map .data ++ after⟩ ∧
      bytes.take max ++ left.flatten = (bytes :: datas).flatten ∧
      dataReads left < dataReads (bytes :: datas) := by
  cases hl : (bytes.drop max).isEmpty with
  | true =>
    have htake : bytes.take max = bytes := by
      rw [List.isEmpty_iff] at hl
      have := List.take_append_drop max bytes
      rwa [hl, List.append_nil] at this
    refine ⟨datas, ?_, ?_, ?_⟩
    · simp [read, hl]
    · rw [htake, List.flatten_cons]
    · simp only [dataReads, List.length_cons, List.flatten_cons, List.length_append]
      omega
  | false =>
    refine ⟨bytes.drop max :: datas, ?_, ?_, ?_⟩
    · simp [read, hl]
    · rw [List.flatten_cons, List.flatten_cons, ← List.append_assoc, List.take_append_drop]
    · have : (bytes.drop max).length ≠ 0 := by
        intro h0
        rw [List.length_eq_zero_iff.1 h0] at hl
        cases hl
      simp only [dataReads, List.length_cons, List.flatten_cons, List.length_append,
        List.length_drop] at this ⊢
      omega

namespace Bench

variable {b : Bench} {line : Nat} {identifier : String} {far : FarEnd}

theorem openEnd?_eq_some_iff :
    b.openEnd? line = some (identifier, far) ↔ b.lines[line]? = some ⟨identifier, true, far⟩ := by
  unfold openEnd?
  constructor
  · intro h
    split at h
    · rename_i hl
      cases h
      exact hl
    · cases h
  · intro h
    rw [h]

theorem openEnd?_setFarEnd (h : b.openEnd? line = some (identifier, far)) (far' : FarEnd) :
    (b.setFarEnd line far').openEnd? line = some (identifier, far') := by
  rw [openEnd?_eq_some_iff] at h ⊢
  show (b.lines.modify line _)[line]? = _
  rw [Array.getElem?_modify, if_pos rfl, h]
  rfl

/-- A read of a script that begins with data gives a piece of it and takes no time. -/
theorem read_data {bytes : Bytes} {datas : List Bytes} {after : List ScriptStep}
    (ho : b.openEnd? line = some (identifier, .script ((bytes :: datas).map .data ++ after)))
    (timeout : Duration) :
    ∃ left : List Bytes, b.read line PacketReader.readChunk timeout =
        (.bytes (bytes.take PacketReader.readChunk),
          b.setFarEnd line (.script (left.map .data ++ after))) ∧
      bytes.take PacketReader.readChunk ++ left.flatten = (bytes :: datas).flatten ∧
      Script.dataReads left < Script.dataReads (bytes :: datas) := by
  obtain ⟨left, hr, hflat, hsum⟩ := Script.read_data
    (by decide : 0 < PacketReader.readChunk) b.permits bytes datas after
  refine ⟨left, ?_, hflat, hsum⟩
  unfold Bench.read
  rw [ho]
  dsimp only
  rw [hr]
  rfl

/-! ## Lines -/

/-- A line to a board that does not stream: the bytes that wait in it, and as many reads as they
take. -/
structure AtBoard (line : Nat) (n : Nat) (rest : Bytes) (t : Instant) (b : Bench) : Prop where
  clock : b.clock = t
  waits : ∃ identifier l, b.openEnd? line = some (identifier, .board l) ∧
    l.streaming = false ∧ l.output = rest
  enough : rest.length ≤ n * PacketReader.readChunk

/-- A line with a script that is all data. -/
structure AtScript (line : Nat) (n : Nat) (rest : Bytes) (t : Instant) (b : Bench) : Prop where
  clock : b.clock = t
  waits : ∃ identifier datas, b.openEnd? line = some (identifier, .script (datas.map .data)) ∧
    datas.flatten = rest ∧ Script.dataReads datas ≤ n

theorem AtBoard.read {n : Nat} {rest : Bytes} {t : Instant} (h : AtBoard line n rest t b)
    (timeout : Duration) :
    let r := b.read line PacketReader.readChunk timeout
    r.1 = .bytes (rest.take PacketReader.readChunk) ∧
      AtBoard line (n - 1) (rest.drop PacketReader.readChunk)
        (t + if rest.isEmpty then timeout else 0) r.2 := by
  obtain ⟨hclock, ⟨identifier, l, ho, hs, rfl⟩, hn⟩ := h
  unfold Bench.read
  rw [ho]
  dsimp only
  rw [BoardLine.read_of_quiet hs]
  refine ⟨rfl, ?_, ⟨identifier, _, openEnd?_setFarEnd ho _, hs, rfl⟩, ?_⟩
  · exact congrArg (· + _) hclock
  · rw [List.length_drop, Nat.sub_one_mul]
    omega

theorem delivers_board (line : Nat) : Delivers answer line (AtBoard line) where
  now h := ⟨h.clock, h⟩
  report _ h := ⟨h.clock, h.waits, h.enough⟩
  read timeout h := by
    obtain ⟨ha, hb⟩ := h.read timeout
    exact ⟨_, _, _, (List.take_append_drop _ _).symm, ha, hb⟩
  readLast {rest t s} timeout h := by
    have hrest : rest = [] := List.length_eq_zero_iff.1 (by have := h.enough; omega)
    obtain ⟨ha, hb⟩ := h.read timeout
    subst hrest
    exact ⟨rfl, timeout, Nat.le_refl _, ha, hb⟩

theorem delivers_script (line : Nat) : Delivers answer line (AtScript line) where
  now h := ⟨h.clock, h⟩
  report _ h := ⟨h.clock, h.waits⟩
  read {n rest t b} timeout h := by
    obtain ⟨hclock, identifier, datas, ho, rfl, hn⟩ := h
    show ∃ piece left elapsed, _ ∧ (b.read line PacketReader.readChunk timeout).1 = _ ∧
      AtScript line n left _ (b.read line PacketReader.readChunk timeout).2
    cases datas with
    | nil =>
      unfold Bench.read
      rw [ho]
      exact ⟨[], [], timeout, rfl, rfl, congrArg (· + timeout) hclock,
        identifier, [], openEnd?_setFarEnd ho _, rfl, Nat.zero_le _⟩
    | cons bytes datas =>
      rw [← List.append_nil (List.map _ _)] at ho
      obtain ⟨left, hread, hflat, hsum⟩ := read_data ho timeout
      rw [hread, List.append_nil]
      exact ⟨_, left.flatten, 0, hflat.symm, rfl, hclock,
        identifier, left, openEnd?_setFarEnd ho _, rfl, by omega⟩
  readLast {rest t b} timeout h := by
    obtain ⟨hclock, identifier, datas, ho, rfl, hn⟩ := h
    show _ ∧ ∃ elapsed, _ ∧ (b.read line PacketReader.readChunk timeout).1 = _ ∧
      AtScript line 0 _ _ (b.read line PacketReader.readChunk timeout).2
    cases datas with
    | cons bytes datas => simp [Script.dataReads] at hn
    | nil =>
      unfold Bench.read
      rw [ho]
      exact ⟨rfl, timeout, Nat.le_refl _, rfl, congrArg (· + timeout) hclock,
        identifier, [], openEnd?_setFarEnd ho _, rfl, Nat.zero_le _⟩

/-- A bench with one line, which is open and plays back some bytes piece by piece. -/
def playing (datas : List Bytes) : Bench :=
  { ofPorts (.scripts []) with lines := #[⟨"p0", true, .script (datas.map .data)⟩] }

theorem atScript_playing (datas : List Bytes) :
    AtScript 0 (Script.dataReads datas) datas.flatten 0 (playing datas) :=
  ⟨rfl, "p0", datas, rfl, rfl, Nat.le_refl _⟩

end Bench

end RadarHost
