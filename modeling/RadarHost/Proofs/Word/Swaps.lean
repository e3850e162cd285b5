import Mathlib.Data.List.FinRange
import Mathlib.GroupTheory.Perm.Basic
import RadarHost.Word.Mask

/-!
# Bits that change places

Swapping two bits of a word turns both over when they differ, which is the same as each taking the
other's place (`getLsbD_swap`). `Moved` says of a permutation of the places and of two words that
every bit of the one is at its new place in the other. Swaps one after the other move the bits as
their transpositions do, the first one first (`moved_swapAll`); so as many bits are set as before,
and the same swaps in the opposite order undo them. Swaps of places that mirror each other do not
meet, in whatever order they come, and all of them together reverse a word (`swapAll_mirrored`).
-/

namespace RadarHost

namespace Word

variable {w : Nat} {u v v' : BitVec w} {σ τ : Equiv.Perm (Fin w)}

/-! ## One swap -/

/-- The test by which a swap finds two bits equal. -/
theorem differ_eq_zero_iff (v : BitVec w) (a b : Fin w) :
    (shiftDown v a a.2 ^^^ shiftDown v b b.2) &&& 1#w = 0#w ↔ v.getLsbD a = v.getLsbD b := by
  have hlow : ((shiftDown v a a.2 ^^^ shiftDown v b b.2) &&& 1#w).getLsbD 0 =
      (v.getLsbD a ^^ v.getLsbD b) := by
    simp [shiftDown, a.pos]
  constructor
  · intro h
    rw [h, BitVec.getLsbD_zero] at hlow
    exact bne_eq_false_iff_eq.1 hlow.symm
  · intro h
    refine BitVec.eq_of_getLsbD_eq fun i hi => ?_
    cases i with
    | zero => rw [hlow, h, Bool.xor_self, BitVec.getLsbD_zero]
    | succ i => simp

/-- Turning over two bits that differ. -/
theorem getLsbD_toggle (v : BitVec w) (a b i : Fin w) :
    (v ^^^ shiftUp 1#w a a.2 ^^^ shiftUp 1#w b b.2).getLsbD i =
      (v.getLsbD i ^^ decide (a = i) ^^ decide (b = i)) := by
  simp only [shiftUp, ← BitVec.twoPow_eq, BitVec.getLsbD_xor, BitVec.getLsbD_twoPow, a.isLt,
    b.isLt, decide_true, Bool.true_and, Fin.val_inj]

/-- A swap puts each of two bits at the place of the other. -/
theorem getLsbD_swap (v : BitVec w) (a b i : Fin w) :
    (swap v a b).getLsbD i = v.getLsbD (Equiv.swap a b i) := by
  rw [swap]
  by_cases heq : v.getLsbD a = v.getLsbD b
  · rw [if_pos ((differ_eq_zero_iff v a b).2 heq)]
    rcases eq_or_ne i a with rfl | hia
    · rw [Equiv.swap_apply_left, heq]
    rcases eq_or_ne i b with rfl | hib
    · rw [Equiv.swap_apply_right, heq]
    · rw [Equiv.swap_apply_of_ne_of_ne hia hib]
  · have hne : a ≠ b := fun h => heq (by rw [h])
    have hnot : v.getLsbD b = !v.getLsbD a := Bool.eq_not.2 (Ne.symm heq)
    rw [if_neg (mt (differ_eq_zero_iff v a b).1 heq), getLsbD_toggle]
    rcases eq_or_ne i a with rfl | hia
    · rw [Equiv.swap_apply_left, hnot, decide_eq_true rfl, decide_eq_false hne.symm,
        Bool.xor_true, Bool.xor_false]
    rcases eq_or_ne i b with rfl | hib
    · rw [Equiv.swap_apply_right, hnot, decide_eq_true rfl, decide_eq_false hne,
        Bool.xor_false, Bool.xor_true, Bool.not_not]
    · rw [Equiv.swap_apply_of_ne_of_ne hia hib, decide_eq_false hia.symm,
        decide_eq_false hib.symm, Bool.xor_false, Bool.xor_false]

/-! ## Bits that moved -/

/-- Every bit of one word is in another at the place to which a permutation takes it. -/
def Moved (σ : Equiv.Perm (Fin w)) (v v' : BitVec w) : Prop :=
  ∀ i, v'.getLsbD (σ i) = v.getLsbD i

theorem Moved.trans (h : Moved σ u v) (h' : Moved τ v v') : Moved (τ * σ) u v' :=
  fun i => (h' (σ i)).trans (h i)

theorem moved_swap (v : BitVec w) (a b : Fin w) : Moved (Equiv.swap a b) v (swap v a b) := by
  intro i
  rw [getLsbD_swap, Equiv.swap_apply_self]

theorem countOnes_eq (v : BitVec w) :
    countOnes v = (List.finRange w).countP fun i : Fin w => v.getLsbD i.val := by
  rw [countOnes, ← List.map_coe_finRange_eq_range, List.countP_map]
  rfl

/-- Bits that change places stay as many. -/
theorem Moved.countOnes_eq (h : Moved σ v v') : countOnes v' = countOnes v := by
  rw [Word.countOnes_eq, Word.countOnes_eq, ← σ.map_finRange_perm.countP_eq, List.countP_map]
  exact List.countP_congr fun i _ => by rw [Function.comp_apply, h i]

/-! ## Swaps one after the other -/

/-- Swaps the bits of each pair of places, one pair after the other. -/
def swapAll (v : BitVec w) (pairs : List (Fin w × Fin w)) : BitVec w :=
  pairs.foldl (fun v pair => swap v pair.1 pair.2) v

/-- Where the transpositions of some pairs of places take a place, the first pair first. -/
def carry (pairs : List (Fin w × Fin w)) : Equiv.Perm (Fin w) :=
  (pairs.map fun pair => Equiv.swap pair.1 pair.2).reverse.prod

theorem swapAll_cons (v : BitVec w) (pair : Fin w × Fin w) (pairs : List (Fin w × Fin w)) :
    swapAll v (pair :: pairs) = swapAll (swap v pair.1 pair.2) pairs := rfl

theorem swapAll_append (v : BitVec w) (pairs later : List (Fin w × Fin w)) :
    swapAll v (pairs ++ later) = swapAll (swapAll v pairs) later :=
  List.foldl_append

theorem carry_cons (pair : Fin w × Fin w) (pairs : List (Fin w × Fin w)) :
    carry (pair :: pairs) = carry pairs * Equiv.swap pair.1 pair.2 := by
  rw [carry, List.map_cons, List.reverse_cons, List.prod_append, List.prod_singleton]
  rfl

theorem moved_swapAll (v : BitVec w) (pairs : List (Fin w × Fin w)) :
    Moved (carry pairs) v (swapAll v pairs) := by
  induction pairs generalizing v with
  | nil => exact fun _ => rfl
  | cons pair pairs ih =>
    rw [carry_cons, swapAll_cons]
    exact (moved_swap v pair.1 pair.2).trans (ih _)

/-- The same swap once more undoes it. -/
theorem swap_swap (v : BitVec w) (a b : Fin w) : swap (swap v a b) a b = v := by
  refine BitVec.eq_of_getLsbD_eq fun i hi => ?_
  calc (swap (swap v a b) a b).getLsbD i
      = (swap v a b).getLsbD (Equiv.swap a b ⟨i, hi⟩) := getLsbD_swap _ a b ⟨i, hi⟩
    _ = v.getLsbD (Equiv.swap a b (Equiv.swap a b ⟨i, hi⟩)) := getLsbD_swap v a b _
    _ = v.getLsbD i := by rw [Equiv.swap_apply_self]

theorem swapAll_reverse (v : BitVec w) (pairs : List (Fin w × Fin w)) :
    swapAll (swapAll v pairs) pairs.reverse = v := by
  induction pairs generalizing v with
  | nil => rfl
  | cons pair pairs ih =>
    rw [swapAll_cons, List.reverse_cons, swapAll_append, ih]
    exact swap_swap v pair.1 pair.2

/-! ## Reversal -/

/-- Pairs of places that are as far from the one end of a word as from the other. -/
def mirrored (order : List (Fin w)) : List (Fin w × Fin w) := order.map fun i => (i, i.rev)

theorem rev_ne_of_lt {i j : Fin w} (hi : i.val < w / 2) (hj : j.val < w / 2) : i.rev ≠ j := by
  intro h
  have := congrArg Fin.val h
  rw [Fin.val_rev] at this
  omega

/-- Swaps of mirrored places mirror the bits at these places, and leave the others. -/
theorem getLsbD_swapAll_mirrored {order : List (Fin w)} (hn : order.Nodup)
    (hlow : ∀ i ∈ order, i.val < w / 2) (v : BitVec w) (j : Fin w) :
    (swapAll v (mirrored order)).getLsbD j =
      if j ∈ order ∨ j.rev ∈ order then v.getLsbD j.rev else v.getLsbD j := by
  induction order generalizing v with
  | nil => rfl
  | cons i order ih =>
    obtain ⟨hi, hn⟩ := List.nodup_cons.1 hn
    obtain ⟨hlowi, hlow⟩ := List.forall_mem_cons.1 hlow
    rw [mirrored, List.map_cons, swapAll_cons]
    refine (ih hn hlow _).trans ?_
    rw [getLsbD_swap, getLsbD_swap]
    by_cases hj : j ∈ order ∨ j.rev ∈ order
    · -- the places of the first swap are not met again
      have hne : j.rev ≠ i ∧ j.rev ≠ i.rev := by
        rcases hj with hj | hj
        · exact ⟨rev_ne_of_lt (hlow j hj) hlowi, fun h => hi (Fin.rev_inj.1 h ▸ hj)⟩
        · exact ⟨fun h => hi (h ▸ hj), fun h => rev_ne_of_lt hlowi (hlow _ hj) h.symm⟩
      have hcons : j ∈ i :: order ∨ j.rev ∈ i :: order :=
        hj.imp (List.mem_cons_of_mem _) (List.mem_cons_of_mem _)
      rw [if_pos hj, if_pos hcons, Equiv.swap_apply_of_ne_of_ne hne.1 hne.2]
    · rw [if_neg hj]
      by_cases hji : j = i
      · subst hji
        rw [if_pos (.inl List.mem_cons_self), Equiv.swap_apply_left]
      by_cases hjr : j = i.rev
      · subst hjr
        rw [if_pos (.inr (by rw [Fin.rev_rev]; exact List.mem_cons_self)),
          Equiv.swap_apply_right, Fin.rev_rev]
      have hcons : ¬ (j ∈ i :: order ∨ j.rev ∈ i :: order) := by
        rw [List.mem_cons, List.mem_cons, Fin.rev_eq_iff]
        tauto
      rw [if_neg hcons, Equiv.swap_apply_of_ne_of_ne hji hjr]

theorem getLsbD_reverse (v : BitVec w) (j : Fin w) : (reverse v).getLsbD j = v.getLsbD j.rev := by
  rw [reverse, BitVec.getLsbD_reverse, BitVec.getMsbD_eq_getLsbD, decide_eq_true j.isLt,
    Bool.true_and, Fin.val_rev, Nat.sub_sub, Nat.add_comm 1]

theorem swapAll_mirrored {order : List (Fin w)} (hn : order.Nodup)
    (hlow : ∀ i, i ∈ order ↔ i.val < w / 2) (v : BitVec w) :
    swapAll v (mirrored order) = reverse v := by
  refine BitVec.eq_of_getLsbD_eq fun i hi => ?_
  have hbit := getLsbD_swapAll_mirrored hn (fun i => (hlow i).1) v ⟨i, hi⟩
  refine hbit.trans (Eq.trans ?_ (getLsbD_reverse v ⟨i, hi⟩).symm)
  split
  · rfl
  · -- only the place in the middle is in no pair
    rename_i hout
    have hmid : (⟨i, hi⟩ : Fin w).rev = ⟨i, hi⟩ := by
      rw [hlow, hlow, Fin.val_rev] at hout
      refine Fin.ext ?_
      rw [Fin.val_rev]
      dsimp only at hout ⊢
      omega
    rw [hmid]

/-- Swaps of bits are transpositions of places. Any number of them, one after the other, move the
bits of a word as the transpositions move the places; they leave as many bits set, and in the
opposite order they undo what they did. A word is reversed by swapping each place of its lower half
with the one that mirrors it, in any order of these places. -/
theorem swaps_permute (v : BitVec w) (pairs : List (Fin w × Fin w)) :
    (∀ i, (swapAll v pairs).getLsbD (carry pairs i) = v.getLsbD i) ∧
    countOnes (swapAll v pairs) = countOnes v ∧
    swapAll (swapAll v pairs) pairs.reverse = v ∧
    ∀ order : List (Fin w), order.Nodup → (∀ i, i ∈ order ↔ i.val < w / 2) →
      swapAll v (mirrored order) = reverse v := by
  have hmoved := moved_swapAll v pairs
  refine ⟨hmoved, hmoved.countOnes_eq, swapAll_reverse v pairs, ?_⟩
  intro order hn hlow
  exact swapAll_mirrored hn hlow v

/-- A byte, under swaps of which two meet and one does nothing, and reversed out of order. -/
theorem swaps_permute_byte :
    let v := 0b11010000#8
    let pairs : List (Fin 8 × Fin 8) := [(0, 7), (3, 3), (7, 4)]
    let order : List (Fin 8) := [2, 0, 3, 1]
    order.Nodup ∧ (∀ i, i ∈ order ↔ i.val < 8 / 2) ∧
    swapAll v pairs = 0b11000001#8 ∧ (∀ i, (0b11000001#8).getLsbD (carry pairs i) = v.getLsbD i) ∧
    countOnes (swapAll v pairs) = 3 ∧ swapAll 0b11000001#8 pairs.reverse = v ∧
    swapAll v (mirrored order) = 0b00001011#8 := by
  intro v pairs order
  have hn : order.Nodup := by decide
  have hlow : ∀ i, i ∈ order ↔ i.val < 8 / 2 := by decide
  have hswapped : swapAll v pairs = 0b11000001#8 := by decide
  obtain ⟨hmoved, hcount, hback, hreverse⟩ := swaps_permute v pairs
  rw [hswapped] at hmoved hback
  exact ⟨hn, hlow, hswapped, hmoved, hcount.trans (by decide), hback,
    (hreverse order hn hlow).trans (by decide)⟩

end Word

end RadarHost
