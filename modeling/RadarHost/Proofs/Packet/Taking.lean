import RadarHost.Proofs.Packet.Wanted

/-!
# Packets taken off a stream

A reader takes packets off a stream, a few at a time, and keeps what is left. `Took` says of some
packets and of what is left that they make up the stream, whatever comes after it: no byte behind
the packets has been lost. `took_takeUntil` is what one search for a wanted packet takes.
-/

namespace RadarHost

namespace Packet

variable {π : Type} {limit : Nat} {stream left rest : Bytes} {packets : List Packet}

/-- Some packets have been taken off a stream, and some of its last bytes are left: the framing of
the stream, whatever comes after it, is the packets and then the framing of what is left. -/
structure Took (limit : Nat) (stream : Bytes) (packets : List Packet) (left : Bytes) : Prop where
  suffix : left <:+ stream
  framing_eq : ∀ later, framing limit (stream ++ later) =
    ⟨packets ++ (framing limit (left ++ later)).packets, (framing limit (left ++ later)).rest⟩

theorem Took.refl (limit : Nat) (stream : Bytes) : Took limit stream [] stream :=
  ⟨List.suffix_refl _, fun _ => rfl⟩

theorem Took.trans {others : List Packet} {left' : Bytes} (h : Took limit stream packets left)
    (h' : Took limit left others left') : Took limit stream (packets ++ others) left' where
  suffix := h'.suffix.trans h.suffix
  framing_eq later := by rw [h.framing_eq, h'.framing_eq, List.append_assoc]

/-- What comes after a stream comes after what is left of it. -/
theorem Took.append (h : Took limit stream packets left) (more : Bytes) :
    Took limit (stream ++ more) packets (left ++ more) where
  suffix := by
    obtain ⟨before, rfl⟩ := h.suffix
    exact ⟨before, by rw [List.append_assoc]⟩
  framing_eq later := by rw [List.append_assoc, h.framing_eq, List.append_assoc]

theorem Took.packets_append (h : Took limit stream packets left) (later : Bytes) :
    (framing limit (stream ++ later)).packets =
      packets ++ (framing limit (left ++ later)).packets :=
  congrArg Framing.packets (h.framing_eq later)

/-- If no packet is left, those that were taken are all packets of the stream. -/
theorem Took.packets_eq (h : Took limit stream packets left)
    (hl : (framing limit left).packets = []) : (framing limit stream).packets = packets := by
  have hf := h.packets_append []
  rwa [List.append_nil, List.append_nil, hl, List.append_nil] at hf

/-- The packets that were taken are the first ones of the stream. -/
theorem Took.packets_prefix (h : Took limit stream packets left) :
    packets <+: (framing limit stream).packets := by
  have hf := h.packets_append []
  rw [List.append_nil, List.append_nil] at hf
  exact ⟨_, hf.symm⟩

/-! ## Searches -/

theorem rest_suffix (limit : Nat) (buffer : Bytes) : (next limit buffer).rest <:+ buffer := by
  have hdrop := List.dropWhile_suffix (!isStart ·) (l := buffer)
  fun_induction next limit buffer with
  | case1 => exact List.nil_suffix
  | case2 buffer _ start tail h hv => exact h ▸ hdrop
  | case3 buffer _ start tail h packet size hv =>
    exact (List.drop_suffix size (start :: tail)).trans (h ▸ hdrop)
  | case4 buffer _ start tail h hv n ih =>
    have htail : tail <:+ buffer := (List.suffix_cons start tail).trans (h ▸ hdrop)
    exact (ih (List.dropWhile_suffix _)).trans htail

/-- Looking for the next packet takes it, if there is one, and only noise before it. -/
theorem took_of_next {packet : Option Packet} (h : (next limit stream).taken = (packet, rest)) :
    Took limit stream packet.toList rest where
  suffix := by
    obtain rfl : (next limit stream).rest = rest := congrArg Prod.snd h
    exact rest_suffix limit stream
  framing_eq later := by
    cases packet with
    | none => exact framing_congr (taken_append_of_none later h)
    | some packet => exact framing_of_some (taken_append_of_some later h)

/-- Looking for a wanted packet takes it, if there is one, and the packets that are passed over. -/
theorem took_takeUntil (wanted : Packet → Option π) (limit : Nat) (buffer : Bytes) :
    ∃ packets, Took limit buffer packets (takeUntil wanted limit buffer).rest ∧
      packets.filterMap wanted = (takeUntil wanted limit buffer).packet.toList := by
  induction buffer using framing_induction limit with
  | last buffer rest ht =>
    have hw : (takeUntil wanted limit buffer).taken = _ := wanted_of_none ht
    obtain ⟨hp, hr⟩ := Prod.mk.inj hw
    rw [hp, hr]
    exact ⟨[], took_of_next ht, rfl⟩
  | packet buffer packet rest ht ih =>
    have hw : (takeUntil wanted limit buffer).taken = _ := wanted_of_some ht
    cases hp : wanted packet with
    | some p =>
      rw [hp] at hw
      obtain ⟨hp', hr⟩ := Prod.mk.inj hw
      rw [hp', hr]
      exact ⟨[packet], took_of_next ht, by rw [List.filterMap_cons, hp]; rfl⟩
    | none =>
      rw [hp] at hw
      obtain ⟨hp', hr⟩ := Prod.mk.inj hw
      obtain ⟨packets, htook, hpackets⟩ := ih
      rw [hp', hr]
      exact ⟨packet :: packets, (took_of_next ht).trans htook,
        by rw [List.filterMap_cons, hp]; exact hpackets⟩

/-- A search that finds nothing leaves no packet. -/
theorem packets_rest_of_none {wanted : Packet → Option π} {buffer : Bytes}
    (h : (takeUntil wanted limit buffer).packet = none) :
    (framing limit (takeUntil wanted limit buffer).rest).packets = [] := by
  induction buffer using framing_induction limit with
  | last buffer rest ht =>
    have hr := congrArg Framing.packets (framing_rest limit buffer)
    rw [framing_of_none ht] at hr
    rwa [show (takeUntil wanted limit buffer).rest = rest from
      congrArg Prod.snd (wanted_of_none ht)]
  | packet buffer packet rest ht ih =>
    have hw : (takeUntil wanted limit buffer).taken = _ := wanted_of_some ht
    cases hp : wanted packet with
    | some p =>
      rw [hp] at hw
      cases h.symm.trans (congrArg Prod.fst hw)
    | none =>
      rw [hp] at hw
      obtain ⟨hp', hr⟩ := Prod.mk.inj hw
      rw [hr]
      exact ih (hp'.symm.trans h)

end Packet

end RadarHost
