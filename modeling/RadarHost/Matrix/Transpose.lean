import RadarHost.Matrix.PlacedSet

/-!
# Transposition of a flat matrix

A matrix of `rows` by `cols` elements lies row by row in an array. `Transpose.inPlace` reorders
the array so that it holds the transpose row by row, and `Transpose.copy` writes that into another
array. Both refuse an array whose length is not `rows * cols`.

In place, the element at `i` belongs at `i * rows % last`, where `last` is the last index; the
first and the last element stay. Each cycle of that map is followed once: the element displaced at
each target waits at the start of the cycle until its own target comes round.
-/

namespace RadarHost

/-- An array does not have the length of a matrix of the given shape. -/
structure ShapeError where
  len : Nat
  rows : Nat
  cols : Nat
  deriving DecidableEq, Repr

def ShapeError.message (e : ShapeError) : String :=
  s!"buffer of {e.len} elements cannot hold a {e.rows}x{e.cols} matrix"

namespace Transpose

variable {α : Type}

/-- Refuses a length other than that of a `rows` by `cols` matrix. -/
def checkShape (len rows cols : Nat) : Except ShapeError Unit :=
  if rows * cols = len then .ok () else .error ⟨len, rows, cols⟩

/-- Where the element at `index` belongs. -/
def target (rows last index : Nat) : Nat := index * rows % last

/-- A matrix being transposed: its elements, and which places already hold what they shall. -/
structure Work (α : Type) where
  buffer : Array α
  placed : PlacedSet

/-- Follows a cycle from `index` until its target is `start` again. -/
def follow (rows last start : Nat) : (fuel index : Nat) → Work α → Work α
  | 0, _, work => work
  | fuel + 1, index, work =>
    let placed := work.placed.insert index
    let next := target rows last index
    if next = start then { work with placed }
    else follow rows last start fuel next
      { buffer := work.buffer.swapIfInBounds start next, placed }

/-- Follows the cycle of `start` unless it has been followed already. A cycle has fewer than `last`
places, so that `last` steps are enough. -/
def settle (rows last : Nat) (work : Work α) (start : Nat) : Work α :=
  if work.placed.contains start then work else follow rows last start last start work

/-- Transposes a `rows` by `cols` matrix in its own array. -/
def inPlace (buffer : Array α) (rows cols : Nat) : Except ShapeError (Array α) := do
  checkShape buffer.size rows cols
  if rows ≤ 1 ∨ cols ≤ 1 then return buffer
  let last := buffer.size - 1
  let work : Work α := ⟨buffer, .ofLen buffer.size⟩
  return ((List.range' 1 (last - 1)).foldl (settle rows last) work).buffer

/-- Puts the element at `index` of a matrix with `cols` columns where its transpose has it. -/
def place (input : Array α) (rows cols : Nat) (output : Array α) (index : Nat) : Array α :=
  match input[index]? with
  | some value => output.setIfInBounds (index % cols * rows + index / cols) value
  | none => output

/-- Transposes a `rows` by `cols` matrix into `output`. -/
def copy (input output : Array α) (rows cols : Nat) : Except ShapeError (Array α) := do
  checkShape input.size rows cols
  checkShape output.size rows cols
  return (List.range input.size).foldl (place input rows cols) output

end Transpose

end RadarHost
