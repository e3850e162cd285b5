import RadarHost.Proofs.Frame.Samples
import RadarHost.Proofs.Matrix.Transposition

/-!
# Blocks of antennas

Reordering the samples of a frame is a transposition: one row for each moment at which the antennas
are sampled, one column for each antenna. `Split` says what that makes of the samples: each antenna
has one block, which is every so many of the samples, and the blocks are the whole, one behind the
other. `split_of_transposes` obtains it from the transpose alone, and `deinterleave_splits` adds
when there is none.
-/

namespace RadarHost

/-- The samples of some blocks in turn: the first of each, then the second of each, and so on. -/
def interleave (count : Nat) (blocks : List (Array UInt16)) : List UInt16 :=
  (List.range count).flatMap fun j => blocks.filterMap (·[j]?)

section Lists

variable {α : Type} {start count : Nat}

/-- Elements in a row, read one by one. -/
theorem map_getElem?_range {xs : List α} (h : start + count ≤ xs.length) :
    (List.range count).map (fun i => xs[start + i]?) = ((xs.drop start).take count).map some := by
  refine List.ext_getElem? fun i => ?_
  rw [List.getElem?_map, List.getElem?_map]
  by_cases hi : i < count
  · rw [List.getElem?_range hi, List.getElem?_take_of_lt hi, List.getElem?_drop, Option.map_some,
      List.getElem?_eq_getElem (by omega), Option.map_some]
  · rw [List.getElem?_eq_none (by rw [List.length_range]; omega),
      List.getElem?_eq_none (by rw [List.length_take]; omega)]
    rfl

theorem filterMap_eq_of_map {β : Type} {f : β → Option α} {is : List β} {xs : List α}
    (h : is.map f = xs.map some) : is.filterMap f = xs := by
  have hid : (is.map f).filterMap id = (xs.map some).filterMap id := congrArg _ h
  rwa [List.filterMap_map, List.filterMap_map, Function.id_comp, Function.id_comp,
    List.filterMap_some] at hid

end Lists

namespace FrameLayout

variable {l : FrameLayout} {samples after : Array UInt16}

/-- Where the block of an antenna begins. -/
def blockStart (l : FrameLayout) (rx : Nat) : Nat := rx * l.antennaSamples

/-- The samples of a frame, taken in turn by the antennas, and the same samples in blocks. -/
structure Split (l : FrameLayout) (samples after : Array UInt16) (blocks : List (Array UInt16)) :
    Prop where
  length_eq : blocks.length = l.numRx
  /-- The enabled antennas have these blocks, and no other number has one. -/
  antennaBlock_eq (rx : Nat) : l.antennaBlock after rx = blocks[rx]?
  /-- A block has the samples of its antenna in the order in which they were taken. -/
  taken {rx : Nat} {block : Array UInt16} : blocks[rx]? = some block →
    block.toList.map some =
      (List.range l.antennaSamples).map fun j => samples[rx + j * l.numRx]?
  /-- The place of sample `s` of chirp `chirp` of an antenna, in blocks and in turn. -/
  moved {rx chirp s : Nat} : rx < l.numRx → chirp < l.numChirps → s < l.numSamplesPerChirp →
    ∃ value, after[(rx * l.numChirps + chirp) * l.numSamplesPerChirp + s]? = some value ∧
      samples[(chirp * l.numSamplesPerChirp + s) * l.numRx + rx]? = some value
  /-- A block is cut out of the whole, -/
  slice {rx : Nat} : rx < l.numRx →
    blocks[rx]? = some (after.extract (l.blockStart rx) (l.blockStart (rx + 1)))
  /-- where no place belongs to two of them, -/
  disjoint {place : Nat} : place < after.size →
    ∃! rx, rx < l.numRx ∧ l.blockStart rx ≤ place ∧ place < l.blockStart (rx + 1)
  /-- and all of them are the whole. -/
  flatten_eq : blocks.flatMap Array.toList = after.toList
  interleave_eq : interleave l.antennaSamples blocks = samples.toList

theorem antennaBlock_eq (hfit : l.antennaSamples ≤ largestSize) (rx : Nat) :
    l.antennaBlock after rx =
      if l.blockStart (rx + 1) ≤ largestSize ∧ l.blockStart (rx + 1) ≤ after.size then
        some (after.extract (l.blockStart rx) (l.blockStart (rx + 1)))
      else none := by
  have hstop : l.blockStart (rx + 1) = rx * l.antennaSamples + l.antennaSamples :=
    Nat.succ_mul ..
  rw [antennaBlock, samplesPerAntenna_eq, addressable, if_pos hfit, hstop]
  rfl

/-- The blocks that an array is cut into. -/
def blocksOf (l : FrameLayout) (after : Array UInt16) : List (Array UInt16) :=
  (List.range l.numRx).map fun rx => after.extract (l.blockStart rx) (l.blockStart (rx + 1))

section Cutting

variable {rx : Nat}

theorem getElem?_blocksOf (h : rx < l.numRx) :
    (l.blocksOf after)[rx]? =
      some (after.extract (l.blockStart rx) (l.blockStart (rx + 1))) := by
  rw [blocksOf, List.getElem?_map, List.getElem?_range h, Option.map_some]

theorem blockStart_succ (l : FrameLayout) (rx : Nat) :
    l.blockStart (rx + 1) = l.blockStart rx + l.antennaSamples := Nat.succ_mul ..

/-- The block of an enabled antenna ends within the whole. -/
theorem blockStart_le (h : rx ≤ l.numRx) : l.blockStart rx ≤ l.antennaSamples * l.numRx :=
  Nat.mul_comm l.antennaSamples l.numRx ▸ Nat.mul_le_mul_right _ h

theorem toList_block (l : FrameLayout) (after : Array UInt16) (rx : Nat) :
    (after.extract (l.blockStart rx) (l.blockStart (rx + 1))).toList =
      (after.toList.drop (rx * l.antennaSamples)).take l.antennaSamples := by
  rw [Array.toList_extract, List.extract_eq_take_drop, blockStart_succ, Nat.add_sub_cancel_left]
  rfl

theorem flatMap_blocksOf (hsize : after.size = l.antennaSamples * l.numRx) :
    (l.blocksOf after).flatMap Array.toList = after.toList := by
  have hcut : (l.blocksOf after).map Array.toList = cut l.antennaSamples l.numRx after.toList := by
    rw [blocksOf, List.map_map, cut]
    exact List.map_congr_left fun rx _ => toList_block l after rx
  rw [List.flatMap_def, hcut, flatten_cut, Nat.mul_comm, ← hsize, ← Array.length_toList,
    List.take_length]

/-- A place belongs to the block whose number is the quotient. -/
theorem existsUnique_block (hpos : 0 < l.antennaSamples) {place : Nat}
    (h : place < l.antennaSamples * l.numRx) :
    ∃! rx, rx < l.numRx ∧ l.blockStart rx ≤ place ∧ place < l.blockStart (rx + 1) := by
  refine ⟨place / l.antennaSamples, ⟨Nat.div_lt_of_lt_mul h, Nat.div_mul_le_self .., ?_⟩, ?_⟩
  · rw [blockStart, Nat.mul_comm]
    exact Nat.lt_mul_div_succ place hpos
  · rintro rx ⟨-, hle, hlt⟩
    rw [blockStart_succ] at hlt
    exact (Nat.div_eq_of_lt_le hle (Nat.succ_mul .. ▸ hlt)).symm

end Cutting

section Transposed

variable (ht : Transpose.Transposes l.antennaSamples l.numRx samples after)
include ht

theorem getElem?_after {rx j : Nat} (hrx : rx < l.numRx) (hj : j < l.antennaSamples) :
    after[l.blockStart rx + j]? = samples[rx + j * l.numRx]? := by
  obtain ⟨value, hbefore, hafter⟩ := ht.moved j rx hj hrx
  rw [blockStart, hafter, Nat.add_comm rx, hbefore]

/-- What stands at a place of a block. -/
theorem getElem?_block {rx j : Nat} (hrx : rx < l.numRx) (hj : j < l.antennaSamples) :
    (after.extract (l.blockStart rx) (l.blockStart (rx + 1)))[j]? =
      samples[rx + j * l.numRx]? := by
  have hstop : l.blockStart (rx + 1) ≤ after.size := ht.size_after ▸ blockStart_le hrx
  have hlt : j < min (l.blockStart (rx + 1)) after.size - l.blockStart rx := by
    rw [Nat.min_eq_left hstop, blockStart_succ, Nat.add_sub_cancel_left]
    exact hj
  rw [Array.getElem?_extract, if_pos hlt, getElem?_after ht hrx hj]

theorem antennaBlock_of_lt (hfit : l.antennaSamples ≤ largestSize)
    (hmem : samples.size ≤ largestSize) {rx : Nat} (hrx : rx < l.numRx) :
    l.antennaBlock after rx =
      some (after.extract (l.blockStart rx) (l.blockStart (rx + 1))) := by
  have hle : l.blockStart (rx + 1) ≤ after.size := ht.size_after ▸ blockStart_le hrx
  have hsize : after.size ≤ largestSize := (ht.size_after.trans ht.size_before.symm).trans_le hmem
  rw [antennaBlock_eq hfit, if_pos ⟨hle.trans hsize, hle⟩]

theorem toList_block_taken {rx : Nat} (hrx : rx < l.numRx) :
    (after.extract (l.blockStart rx) (l.blockStart (rx + 1))).toList.map some =
      (List.range l.antennaSamples).map fun j => samples[rx + j * l.numRx]? := by
  have hfits : l.blockStart rx + l.antennaSamples ≤ after.toList.length := by
    rw [Array.length_toList, ht.size_after, ← blockStart_succ]
    exact blockStart_le hrx
  rw [toList_block, ← blockStart, ← map_getElem?_range hfits]
  refine List.map_congr_left fun j hj => ?_
  rw [Array.getElem?_toList, getElem?_after ht hrx (List.mem_range.1 hj)]

/-- The samples of one moment, one from each block. -/
theorem filterMap_blocksOf {j : Nat} (hj : j < l.antennaSamples) :
    (l.blocksOf after).filterMap (·[j]?) =
      (samples.toList.drop (j * l.numRx)).take l.numRx := by
  have hfits : j * l.numRx + l.numRx ≤ samples.toList.length := by
    rw [Array.length_toList, ht.size_before, ← Nat.succ_mul]
    exact Nat.mul_le_mul_right _ hj
  refine filterMap_eq_of_map ?_
  rw [← map_getElem?_range hfits, blocksOf, List.map_map]
  refine List.map_congr_left fun rx hrx => ?_
  rw [Function.comp, getElem?_block ht (List.mem_range.1 hrx) hj, Array.getElem?_toList,
    Nat.add_comm]

theorem interleave_blocksOf : interleave l.antennaSamples (l.blocksOf after) = samples.toList := by
  have hcut : (List.range l.antennaSamples).map (fun j => (l.blocksOf after).filterMap (·[j]?)) =
      cut l.numRx l.antennaSamples samples.toList :=
    List.map_congr_left fun j hj => filterMap_blocksOf ht (List.mem_range.1 hj)
  rw [interleave, List.flatMap_def, hcut, flatten_cut, ← ht.size_before, ← Array.length_toList,
    List.take_length]

/-- The transpose of the samples splits them into the blocks that it is cut into. -/
theorem split_of_transposes (hpos : 0 < l.antennaSamples) (hfit : l.antennaSamples ≤ largestSize)
    (hmem : samples.size ≤ largestSize) : l.Split samples after (l.blocksOf after) where
  length_eq := by rw [blocksOf, List.length_map, List.length_range]
  antennaBlock_eq rx := by
    rcases Nat.lt_or_ge rx l.numRx with hrx | hrx
    · rw [antennaBlock_of_lt ht hfit hmem hrx, getElem?_blocksOf hrx]
    · have hlt : after.size < l.blockStart (rx + 1) := by
        rw [ht.size_after, blockStart, Nat.mul_comm]
        exact Nat.mul_lt_mul_of_pos_right (Nat.lt_succ_of_le hrx) hpos
      rw [antennaBlock_eq hfit, if_neg fun h => Nat.not_lt_of_le h.2 hlt,
        List.getElem?_eq_none (by rwa [blocksOf, List.length_map, List.length_range])]
  taken {rx block} h := by
    obtain ⟨hlt, -⟩ := List.getElem?_eq_some_iff.1 h
    have hrx : rx < l.numRx := by rwa [blocksOf, List.length_map, List.length_range] at hlt
    obtain rfl := Option.some.inj ((getElem?_blocksOf hrx).symm.trans h)
    exact toList_block_taken ht hrx
  moved {rx chirp s} hrx hchirp hs := by
    have hj := Transpose.coords_lt hchirp hs
    obtain ⟨value, hbefore, hafter⟩ := ht.moved _ rx hj hrx
    refine ⟨value, ?_, hbefore⟩
    rw [← hafter, antennaSamples]
    congr 1
    ring
  slice := getElem?_blocksOf
  disjoint h := existsUnique_block hpos (ht.size_after ▸ h)
  flatten_eq := flatMap_blocksOf ht.size_after
  interleave_eq := interleave_blocksOf ht

end Transposed

/-- Reordering the samples of a frame splits them by antenna. It fails, and leaves them as they are,
if and only if there are not as many of them as the frame has; otherwise each enabled antenna has a
block, which holds its samples in the order in which they were taken, no other number has one, the
blocks are the whole, no two of them share a place, and taken in turn they give the samples back. -/
theorem deinterleave_splits (hpos : 1 ≤ l.antennaSamples) (hfit : l.antennaSamples ≤ largestSize)
    (hmem : samples.size ≤ largestSize) :
    ∃ outcome after, Transpose.InPlaceRun l.antennaSamples l.numRx samples outcome after ∧
      l.deinterleave samples = (outcome.map fun _ => after).mapError .shape ∧
      (samples.size ≠ l.antennaSamples * l.numRx ∧
          outcome = .error ⟨samples.size, l.antennaSamples, l.numRx⟩ ∧ after = samples ∨
        samples.size = l.antennaSamples * l.numRx ∧ outcome = .ok () ∧
          ∃ blocks, l.Split samples after blocks) := by
  have hrows : l.samplesPerAntenna = .ok l.antennaSamples := if_pos hfit
  by_cases hsize : samples.size = l.antennaSamples * l.numRx
  · obtain ⟨after, hrun, hin, ht⟩ := Transpose.transposes_inPlace hsize
    refine ⟨.ok (), after, hrun, ?_, .inr ⟨hsize, rfl, _, split_of_transposes ht hpos hfit hmem⟩⟩
    simp only [deinterleave, hrows, hin, Bind.bind, Except.bind]
    rfl
  · have hshape := Transpose.checkShape_error hsize
    refine ⟨_, samples, .refused hshape, ?_, .inl ⟨hsize, rfl, rfl⟩⟩
    simp only [deinterleave, hrows, Transpose.inPlace, hshape, Bind.bind, Except.bind]
    rfl

/-- Two antennas, two chirps of three samples each; one block more is asked for, and the largest
number there is. -/
theorem deinterleave_splits_two_antennas :
    let l : FrameLayout := ⟨5, 2, 3, 12, .u16⟩
    let samples : Array UInt16 := #[0, 100, 1, 101, 2, 102, 10, 110, 11, 111, 12, 112]
    1 ≤ l.antennaSamples ∧ l.antennaSamples ≤ largestSize ∧ samples.size ≤ largestSize ∧
      ∃ after, l.deinterleave samples = .ok after ∧
        l.antennaBlock after 0 = some #[0, 1, 2, 10, 11, 12] ∧
        l.antennaBlock after 1 = some #[100, 101, 102, 110, 111, 112] ∧
        l.antennaBlock after 2 = none ∧ l.antennaBlock after largestSize = none := by
  intro l samples
  have hfit : l.antennaSamples ≤ largestSize := by decide
  obtain ⟨outcome, after, -, hval, ⟨hsize, -, -⟩ | ⟨-, rfl, blocks, hsplit⟩⟩ :=
    @deinterleave_splits l samples (by decide) hfit (by decide)
  · exact absurd (by decide +kernel) hsize
  have hrx : l.numRx = 2 := by decide +kernel
  have hblock {rx : Nat} {xs : Array UInt16} (h : rx < l.numRx)
      (hxs : (List.range 6).map (fun j => samples[rx + j * l.numRx]?) = xs.toList.map some) :
      l.antennaBlock after rx = some xs := by
    have hslice := hsplit.slice h
    have htaken := (hsplit.taken hslice).trans hxs
    rw [hsplit.antennaBlock_eq, hslice]
    exact congrArg some (Array.toList_inj.1
      (List.map_injective_iff.2 (Option.some_injective _) htaken))
  have hnone {rx : Nat} (h : l.numRx ≤ rx) : l.antennaBlock after rx = none := by
    rw [hsplit.antennaBlock_eq, List.getElem?_eq_none (hsplit.length_eq ▸ h)]
  rw [hrx] at hblock hnone
  exact ⟨by decide, hfit, by decide, after, hval, hblock (by decide) rfl, hblock (by decide) rfl,
    hnone (by decide), hnone (by decide)⟩

end FrameLayout

end RadarHost
