import RadarHost.Bench.Basic
import RadarHost.Proofs.Link.Custody

/-!
# The open lines of a bench

`Bench.openLines` are the numbers of the lines that are open. Opening a port adds one that was not
in use, closing a line takes it away, and nothing else changes them; so a bench keeps account of the
lines that a course of questions has in its hands (`keeps_openLines`).
-/

namespace RadarHost

namespace Bench

variable {b b' : Bench} {line i : Nat}

/-- The numbers of the lines that are open. -/
def openLines (b : Bench) : Multiset Nat := (b.lines.toList.zipIdx.filter (·.1.isOpen)).map (·.2)

theorem mem_openLines : i ∈ b.openLines ↔ b.lines[i]?.any Line.isOpen = true := by
  unfold openLines
  rw [Multiset.mem_coe, List.mem_map, Option.any_eq_true]
  constructor
  · rintro ⟨⟨l, i⟩, hx, rfl⟩
    obtain ⟨hm, ho⟩ := List.mem_filter.1 hx
    exact ⟨l, Array.getElem?_toList ▸ List.mem_zipIdx_iff_getElem?.1 hm, ho⟩
  · rintro ⟨l, hl, ho⟩
    refine ⟨(l, i), List.mem_filter.2 ⟨List.mem_zipIdx_iff_getElem?.2 ?_, ho⟩, rfl⟩
    rw [Array.getElem?_toList, hl]

theorem nodup_openLines (b : Bench) : b.openLines.Nodup := by
  refine Multiset.coe_nodup.2 (List.Nodup.sublist (List.filter_sublist.map _) ?_)
  rw [List.zipIdx_map_snd]
  exact List.nodup_range'

/-- As many lines are open as a bench counts. -/
theorem card_openLines (b : Bench) : b.openLines.card = b.live := by
  unfold openLines live
  rw [Multiset.coe_card, List.length_map, ← List.countP_eq_length_filter, ← Array.countP_toList]
  conv => rhs; rw [← List.zipIdx_map_fst 0 b.lines.toList, List.countP_map]
  rfl

theorem openLines_eq {held : Multiset Nat} (hn : held.Nodup)
    (h : ∀ i, b.lines[i]?.any Line.isOpen = true ↔ i ∈ held) : b.openLines = held :=
  (Multiset.Nodup.ext (nodup_openLines b) hn).2 fun i => mem_openLines.trans (h i)

/-- Another far end leaves a line as open as it was. -/
theorem openLines_setFarEnd (b : Bench) (line : Nat) (far : FarEnd) :
    (b.setFarEnd line far).openLines = b.openLines := by
  refine openLines_eq (nodup_openLines b) fun i => ?_
  rw [mem_openLines]
  show (b.lines.modify line _)[i]?.any _ = true ↔ _
  rw [Array.getElem?_modify]
  split
  · rw [Option.any_map]
  · rfl

theorem openLines_close (b : Bench) (line : Nat) :
    (b.close line).openLines = b.openLines.erase line := by
  refine openLines_eq ((nodup_openLines b).erase line) fun i => ?_
  rw [(nodup_openLines b).mem_erase_iff, mem_openLines]
  show (b.lines.modify line _)[i]?.any _ = true ↔ _
  rw [Array.getElem?_modify]
  by_cases hi : line = i
  · rw [if_pos hi]
    constructor
    · intro h
      obtain ⟨l, hl, ho⟩ := (Option.any_eq_true _ _).1 h
      obtain ⟨l', -, rfl⟩ := Option.map_eq_some_iff.1 hl
      -- a line that has been shut is not open
      split at ho
      · split at ho <;> cases ho
      · contradiction
    · exact fun h => absurd hi.symm h.1
  · rw [if_neg hi]
    exact ⟨fun h => ⟨Ne.symm hi, h⟩, fun h => h.2⟩

theorem openLines_openLine (b : Bench) (identifier : String) (baudRate : UInt32) :
    (b.openLine identifier baudRate).2.openLines =
      match (b.openLine identifier baudRate).1 with
      | .ok line => line ::ₘ b.openLines
      | .error _ => b.openLines := by
  have hnew : b.lines.size ∉ b.openLines := by
    rw [mem_openLines, Array.getElem?_eq_none (Nat.le_refl _)]
    exact Bool.false_ne_true
  unfold openLine
  split
  · rfl
  · refine openLines_eq (Multiset.nodup_cons.2 ⟨hnew, nodup_openLines b⟩) fun i => ?_
    rw [Multiset.mem_cons, mem_openLines, Array.getElem?_push]
    split
    · rename_i hi
      exact ⟨fun _ => .inl hi, fun _ => rfl⟩
    · rename_i hi
      exact ⟨.inr, fun h => h.resolve_left hi⟩

theorem openLines_read (b : Bench) (line max : Nat) (timeout : Duration) :
    (b.read line max timeout).2.openLines = b.openLines := by
  unfold read
  split
  · rfl
  · exact openLines_setFarEnd b line _
  · dsimp only
    split
    · exact openLines_setFarEnd b line _
    · exact openLines_setFarEnd b line _

theorem openLines_write (b : Bench) (line : Nat) (bytes : Bytes) :
    (b.write line bytes).2.openLines = b.openLines := by
  unfold write
  split
  · rfl
  · exact openLines_setFarEnd b line _
  · split
    · exact openLines_setFarEnd b line _
    · exact openLines_setFarEnd b line _

/-- A bench keeps account of the lines in the hands of those who ask it, beside those of others. -/
theorem keeps_openLines (others : Multiset Nat) :
    Dialogue.Keeps answer fun b held => b.openLines = others + held := by
  intro b held action hb he
  cases action with
  | openLine identifier baudRate =>
    show (b.openLine identifier baudRate).2.openLines = _
    rw [openLines_openLine, hb]
    show _ = others +
      (Action.openLine identifier baudRate).linesAfter (b.openLine identifier baudRate).1 held
    cases (b.openLine identifier baudRate).1 with
    | ok line => exact (Multiset.add_cons line others held).symm
    | error e => rfl
  | close line =>
    show (b.close line).openLines = others + held.erase line
    rw [openLines_close, hb, Multiset.erase_add_right_pos others he]
  | write line bytes => exact (openLines_write b line bytes).trans hb
  | read line max timeout => exact (openLines_read b line max timeout).trans hb
  | _ => exact hb

/-! ## Ports -/

theorem ports_read (b : Bench) (line max : Nat) (timeout : Duration) :
    (b.read line max timeout).2.ports = b.ports := by
  unfold read
  split
  · rfl
  · rfl
  · dsimp only
    split <;> rfl

theorem ports_write (b : Bench) (line : Nat) (bytes : Bytes) :
    (b.write line bytes).2.ports = b.ports := by
  unfold write
  split
  · rfl
  · rfl
  · split <;> rfl

theorem ports_openLine (b : Bench) (identifier : String) (baudRate : UInt32) :
    (b.openLine identifier baudRate).2.ports = b.ports := by
  unfold openLine
  split <;> rfl

/-- The ports of a bench stay what they are. -/
theorem ports_run {α : Type} (d : Dialogue α) (b : Bench) : (d.run answer b).2.ports = b.ports := by
  induction d generalizing b with
  | done value => rfl
  | broken why => rfl
  | ask action next ih =>
    refine (ih _ _).trans ?_
    cases action with
    | openLine identifier baudRate => exact ports_openLine b identifier baudRate
    | write line bytes => exact ports_write b line bytes
    | read line max timeout => exact ports_read b line max timeout
    | _ => rfl

end Bench

end RadarHost
