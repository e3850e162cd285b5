import RadarHost.Proofs.Packet.Framing

/-!
# The wanted packets of a stream

Packets of one kind are taken off a stream while those of the other kind are passed over. As with
the framing of a stream, a look at its beginning decides nothing that a later look would decide
otherwise (`wanted_append`). `allWanted` lists the wanted packets of a stream, each with the bytes
that follow it, which tell its place.
-/

namespace RadarHost

namespace Packet

/-- What taking the next wanted packet gives, the packets passed over aside. -/
def Wanted.taken {π : Type} (w : Wanted π) : Option π × Bytes := (w.packet, w.rest)

variable {π : Type} {wanted : Packet → Option π} {limit : Nat} {buffer rest : Bytes}
  {packet : Packet} {p : π}

/-! ## The next one -/

theorem wanted_of_none (h : (next limit buffer).taken = (none, rest)) :
    (takeUntil wanted limit buffer).taken = (none, rest) := by
  rw [takeUntil]
  split
  · rename_i hn
    rw [hn] at h
    cases h
    rfl
  · rename_i hn
    rw [hn] at h
    cases h

theorem wanted_of_some (h : (next limit buffer).taken = (some packet, rest)) :
    (takeUntil wanted limit buffer).taken =
      match wanted packet with
      | some p => (some p, rest)
      | none => (takeUntil wanted limit rest).taken := by
  rw [takeUntil]
  split
  · rename_i hn
    rw [hn] at h
    cases h
  · rename_i hn
    rw [hn] at h
    cases h
    cases wanted packet <;> rfl

/-- The next wanted packet is told by the next packet. -/
theorem wanted_congr {other : Bytes} (h : (next limit buffer).taken = (next limit other).taken) :
    (takeUntil wanted limit buffer).taken = (takeUntil wanted limit other).taken := by
  cases ht : (next limit other).taken with
  | mk packet rest =>
    cases packet with
    | none => rw [wanted_of_none (h.trans ht), wanted_of_none ht]
    | some packet => rw [wanted_of_some (h.trans ht), wanted_of_some ht]

/-- The next wanted packet of a longer stream: one that was there is still the next one, and if
there was none, the bytes that were kept are all that matters of those there were. -/
theorem wanted_append (wanted : Packet → Option π) (limit : Nat) (buffer later : Bytes) :
    (takeUntil wanted limit (buffer ++ later)).taken =
      match (takeUntil wanted limit buffer).taken with
      | (some p, rest) => (some p, rest ++ later)
      | (none, rest) => (takeUntil wanted limit (rest ++ later)).taken := by
  induction buffer using framing_induction limit with
  | last buffer rest ht =>
    rw [wanted_of_none ht]
    exact wanted_congr (taken_append_of_none later ht)
  | packet buffer packet rest ht ih =>
    rw [wanted_of_some (taken_append_of_some later ht), wanted_of_some ht]
    cases wanted packet with
    | some p => rfl
    | none => exact ih

theorem wanted_append_of_some (later : Bytes)
    (h : (takeUntil wanted limit buffer).taken = (some p, rest)) :
    (takeUntil wanted limit (buffer ++ later)).taken = (some p, rest ++ later) := by
  rw [wanted_append, h]

theorem wanted_append_of_none (later : Bytes)
    (h : (takeUntil wanted limit buffer).taken = (none, rest)) :
    (takeUntil wanted limit (buffer ++ later)).taken =
      (takeUntil wanted limit (rest ++ later)).taken := by
  rw [wanted_append, h]

/-- What is kept for want of a packet has none to give. -/
theorem wanted_rest (h : (takeUntil wanted limit buffer).taken = (none, rest)) :
    (takeUntil wanted limit rest).taken = (none, rest) := by
  have ha := wanted_append_of_none [] h
  rw [List.append_nil, List.append_nil, h] at ha
  exact ha.symm

theorem length_lt_of_wanted (h : (takeUntil wanted limit buffer).taken = (some p, rest)) :
    rest.length < buffer.length := by
  induction buffer using framing_induction limit with
  | last buffer rest' ht =>
    rw [wanted_of_none ht] at h
    cases h
  | packet buffer packet rest' ht ih =>
    have hl := length_lt_of_taken ht
    rw [wanted_of_some ht] at h
    cases hw : wanted packet with
    | some p' =>
      rw [hw] at h
      cases h
      exact hl
    | none =>
      rw [hw] at h
      exact (ih h).trans hl

/-! ## All of them -/

/-- The wanted packets of a stream, each with the bytes that follow it. -/
def allWanted (wanted : Packet → Option π) (limit : Nat) (buffer : Bytes) : List (π × Bytes) :=
  match _h : (takeUntil wanted limit buffer).taken with
  | (none, _) => []
  | (some p, rest) => (p, rest) :: allWanted wanted limit rest
termination_by buffer.length
decreasing_by exact length_lt_of_wanted _h

theorem allWanted_of_none (h : (takeUntil wanted limit buffer).taken = (none, rest)) :
    allWanted wanted limit buffer = [] := by
  rw [allWanted]
  split
  · rfl
  · rename_i hs
    rw [h] at hs
    cases hs

theorem allWanted_of_some (h : (takeUntil wanted limit buffer).taken = (some p, rest)) :
    allWanted wanted limit buffer = (p, rest) :: allWanted wanted limit rest := by
  rw [allWanted]
  split
  · rename_i hs
    rw [h] at hs
    cases hs
  · rename_i hs
    rw [h] at hs
    cases hs
    rfl

/-- The first one, if there is one, is the next wanted packet. -/
theorem head?_allWanted (wanted : Packet → Option π) (limit : Nat) (buffer : Bytes) :
    (allWanted wanted limit buffer).head? =
      (takeUntil wanted limit buffer).packet.map (·, (takeUntil wanted limit buffer).rest) := by
  obtain ⟨p, rest, ht⟩ : ∃ p rest, (takeUntil wanted limit buffer).taken = (p, rest) := ⟨_, _, rfl⟩
  obtain ⟨hp, hr⟩ := Prod.mk.inj ht
  rw [hp, hr]
  cases p with
  | none => rw [allWanted_of_none ht]; rfl
  | some p => rw [allWanted_of_some ht]; rfl

/-- All wanted packets are told by the next one. -/
theorem allWanted_congr {other : Bytes}
    (h : (takeUntil wanted limit buffer).taken = (takeUntil wanted limit other).taken) :
    allWanted wanted limit buffer = allWanted wanted limit other := by
  cases ht : (takeUntil wanted limit other).taken with
  | mk p rest =>
    cases p with
    | none => rw [allWanted_of_none (h.trans ht), allWanted_of_none ht]
    | some p => rw [allWanted_of_some (h.trans ht), allWanted_of_some ht]

/-- All wanted packets, from the next packet of either kind. -/
theorem allWanted_of_packet (h : (next limit buffer).taken = (some packet, rest)) :
    allWanted wanted limit buffer =
      ((wanted packet).map (·, rest)).toList ++ allWanted wanted limit rest := by
  have ht : (takeUntil wanted limit buffer).taken = _ := wanted_of_some h
  cases hw : wanted packet with
  | some p =>
    rw [hw] at ht
    rw [allWanted_of_some ht]
    rfl
  | none =>
    rw [hw] at ht
    exact allWanted_congr ht

theorem map_fst_allWanted (wanted : Packet → Option π) (limit : Nat) (buffer : Bytes) :
    (allWanted wanted limit buffer).map Prod.fst =
      (framing limit buffer).packets.filterMap wanted := by
  induction buffer using framing_induction limit with
  | last buffer rest ht =>
    rw [allWanted_of_none (wanted_of_none ht), framing_of_none ht]
    rfl
  | packet buffer packet rest ht ih =>
    rw [allWanted_of_packet ht, framing_of_some ht, List.map_append, ih, List.filterMap_cons]
    cases wanted packet <;> rfl

theorem length_allWanted_le (wanted : Packet → Option π) (limit : Nat) (buffer : Bytes) :
    (allWanted wanted limit buffer).length ≤ buffer.length := by
  induction buffer using framing_induction limit with
  | last buffer rest ht =>
    rw [allWanted_of_none (wanted_of_none ht)]
    exact Nat.zero_le _
  | packet buffer packet rest ht ih =>
    have hl := length_lt_of_taken ht
    have hone : ((wanted packet).map (·, rest)).toList.length ≤ 1 := by
      cases wanted packet <;> simp
    rw [allWanted_of_packet ht, List.length_append]
    omega

end Packet

end RadarHost
