import RadarHost.Proofs.Link.Hearing

/-!
# Waits on a line that plays a script

Two waits on lines that give the same answers to their reads, one after the other, find the same,
however often a read was idle in between (`Awaits.eq_of_script`): unless one of them gave up while
there was still something to hear.
-/

namespace RadarHost

open Dialogue

/-- A read that gave nothing in its time. -/
def ReadAnswer.isIdle : ReadAnswer → Bool
  | bytes [] => true
  | _ => false

/-- What some reads gave, idle ones aside. -/
def Dialogue.heard (reads : List ReadAnswer) : List ReadAnswer := reads.filter (!·.isIdle)

namespace PacketReader

variable {π : Type} {wanted : Packet → Option π} {r : PacketReader}

theorem take_of_isShort (h : r.isShort = true) : r.take wanted = ⟨[], none, r⟩ := if_pos h

theorem reader_take_of_not_isShort (h : ¬ r.isShort = true) :
    (r.take wanted).reader =
      ofBytes r.limit (Packet.takeUntil wanted r.limit r.bytes).rest := by
  unfold take
  rw [if_neg h]

/-- A reader that has just found no packet is left as it is by an idle read. -/
theorem take_append_nil (h : (r.take wanted).packet = none) :
    (((r.take wanted).reader.append []).take wanted).packet = none ∧
      (((r.take wanted).reader.append []).take wanted).reader = (r.take wanted).reader := by
  show ((r.take wanted).reader.take wanted).packet = none ∧
    ((r.take wanted).reader.take wanted).reader = (r.take wanted).reader
  have hn : (Packet.takeUntil wanted r.limit (r.take wanted).reader.bytes).taken =
      (none, (r.take wanted).reader.bytes) := by
    rw [take_packet] at h
    rw [bytes_take]
    exact Packet.wanted_rest (Prod.ext h rfl)
  refine ⟨(take_packet ..).trans ?_, ?_⟩
  · rw [limit_take]
    exact congrArg Prod.fst hn
  · by_cases hs : r.isShort = true
    · rw [take_of_isShort hs, take_of_isShort hs]
    · by_cases hs' : (r.take wanted).reader.isShort = true
      · rw [take_of_isShort hs']
      · have hrest : (Packet.takeUntil wanted r.limit (r.take wanted).reader.bytes).rest =
            (r.take wanted).reader.bytes := congrArg Prod.snd hn
        rw [reader_take_of_not_isShort hs', limit_take, hrest, reader_take_of_not_isShort hs,
          bytes_ofBytes]

end PacketReader

namespace Awaits

variable {π : Type} {wanted : Packet → Option π} {budget budget' : Nat} {r : PacketReader}
  {reads reads' script : List ReadAnswer} {e e' : Ending (Waited π × PacketReader)}

/-- An idle read makes no difference to what a wait finds. -/
theorem of_idle (hp : (r.take wanted).packet = none)
    (h : Awaits wanted budget ((r.take wanted).reader.append []) reads e) :
    Awaits wanted budget r reads e := by
  obtain ⟨hn, hr⟩ := PacketReader.take_append_nil hp
  cases h with
  | exhausted => exact .exhausted
  | taken hp' => cases hn.symm.trans hp'
  | late hp' =>
    rw [hr]
    exact .late hp
  | failed hp' error =>
    rw [hr]
    exact .failed hp error
  | crashed hp' => exact .crashed hp
  | bytes hp' h =>
    rw [hr] at h
    exact .bytes hp h

/-- Without its idle reads a wait finds the same. -/
theorem heard (h : Awaits wanted budget r reads e) (hl : reads.length < budget) :
    ∃ budget', Awaits wanted budget' r (Dialogue.heard reads) e ∧
      (Dialogue.heard reads).length < budget' := by
  induction h with
  | exhausted => exact absurd hl (Nat.not_lt_zero _)
  | taken hp => exact ⟨_, .taken hp, hl⟩
  | late hp => exact ⟨_, .late hp, hl⟩
  | failed hp error => exact ⟨_, .failed hp error, hl⟩
  | crashed hp => exact ⟨_, .crashed hp, hl⟩
  | @bytes budget r hp piece reads e h ih =>
    obtain ⟨budget', ha, hb⟩ := ih (Nat.lt_of_succ_lt_succ hl)
    cases piece with
    | nil => exact ⟨budget', of_idle hp ha, hb⟩
    | cons b piece => exact ⟨budget' + 1, .bytes hp ha, Nat.succ_lt_succ hb⟩

/-- What a wait finds that gave up: every read gave bytes. -/
theorem reads_of_late {r' : PacketReader} (h : Awaits wanted budget r reads (.ok (.late, r'))) :
    ∀ read ∈ reads, read = .bytes read.piece := by
  generalize he : (Except.ok (.late, r') : Ending (Waited π × PacketReader)) = e at h
  induction h with
  | exhausted => cases he
  | taken hp => cases he
  | late hp => exact List.forall_mem_nil _
  | failed hp error => cases he
  | crashed hp => cases he
  | bytes hp h ih => exact List.forall_mem_cons.2 ⟨rfl, ih he⟩

/-- Two waits that hear the same script find the same, if each has enough turns, and gives up only
when it has heard all of the script. -/
theorem eq_of_script (h : Awaits wanted budget r reads e) (h' : Awaits wanted budget' r reads' e')
    (hl : reads.length < budget) (hl' : reads'.length < budget') (hs : reads <+: script)
    (hs' : reads' <+: script) (hout : ∀ r', e = .ok (.late, r') → reads = script)
    (hout' : ∀ r', e' = .ok (.late, r') → reads' = script) : e = e' := by
  induction h generalizing reads' script budget' with
  | exhausted => exact absurd hl (Nat.not_lt_zero _)
  | taken hp =>
    cases h' with
    | exhausted => exact absurd hl' (Nat.not_lt_zero _)
    | taken hp' => cases hp.symm.trans hp'; rfl
    | late hp' => cases hp.symm.trans hp'
    | failed hp' => cases hp.symm.trans hp'
    | crashed hp' => cases hp.symm.trans hp'
    | bytes hp' => cases hp.symm.trans hp'
  | late hp =>
    obtain rfl := hout _ rfl
    obtain rfl := List.prefix_nil.1 hs'
    cases h' with
    | exhausted => exact absurd hl' (Nat.not_lt_zero _)
    | taken hp' => cases hp.symm.trans hp'
    | late hp' => rfl
  | failed hp error =>
    obtain ⟨rest, rfl⟩ := hs
    cases h' with
    | exhausted => exact absurd hl' (Nat.not_lt_zero _)
    | taken hp' => cases hp.symm.trans hp'
    | late hp' => cases hout' _ rfl
    | failed hp' error' =>
      obtain ⟨heq, -⟩ := List.cons_prefix_cons.1 hs'
      cases heq
      rfl
    | crashed hp' => cases (List.cons_prefix_cons.1 hs').1
    | bytes hp' => cases (List.cons_prefix_cons.1 hs').1
  | crashed hp =>
    obtain ⟨rest, rfl⟩ := hs
    cases h' with
    | exhausted => exact absurd hl' (Nat.not_lt_zero _)
    | taken hp' => cases hp.symm.trans hp'
    | late hp' => cases hout' _ rfl
    | failed hp' error' => cases (List.cons_prefix_cons.1 hs').1
    | crashed hp' => rfl
    | bytes hp' => cases (List.cons_prefix_cons.1 hs').1
  | @bytes budget r hp piece reads e h ih =>
    obtain ⟨rest, rfl⟩ := hs
    cases h' with
    | exhausted => exact absurd hl' (Nat.not_lt_zero _)
    | taken hp' => cases hp.symm.trans hp'
    | late hp' => cases hout' _ rfl
    | failed hp' error' => cases (List.cons_prefix_cons.1 hs').1
    | crashed hp' => cases (List.cons_prefix_cons.1 hs').1
    | @bytes budget' _ hp' piece' reads' _ h' =>
      obtain ⟨heq, htail⟩ := List.cons_prefix_cons.1 hs'
      cases heq
      refine ih h' (Nat.lt_of_succ_lt_succ hl) (Nat.lt_of_succ_lt_succ hl')
        (List.prefix_append _ _) htail (fun r' he => ?_) fun r' he => ?_
      · exact (List.cons.inj (hout r' he)).2
      · exact (List.cons.inj (hout' r' he)).2

end Awaits

end RadarHost
