import Pinos.Lib.FreeList
import Pinos.Plugins.MixerCalls

/-
The buffers of a port of the mixer, on its queue or with the other side.

A flag says whether the other side holds a buffer.  The flags of an earlier set of buffers stay in
the array, so that an id behind the buffers of the port can pass for one that is outstanding.
-/

namespace Pinos

open FreeList

namespace SpaAudioMixerPort

def out (port : SpaAudioMixerPort) (i : Nat) : Bool := (port.buffers i).outstanding

/-- The queue is a list of the buffers of the port that are not outstanding. -/
structure OwnsBuffers (port : SpaAudioMixerPort) : Prop where
  links : Links (· < port.nBuffers) port.out port.queue
  linked : port.nBuffers ≠ 0 → port.linked
  fits : port.nBuffers ≤ maxBuffers
  sound : port.fault = false

/-- An id names a buffer of the port that is outstanding. -/
def Gave (port : SpaAudioMixerPort) (id : UInt32) : Prop :=
  id.toNat < port.nBuffers ∧ port.out id.toNat

/-- An id names a buffer of the port that is outstanding, or a place of the array that is not
marked so. -/
def Knows (port : SpaAudioMixerPort) (id : UInt32) : Prop :=
  port.Gave id ∨ id.toNat < maxBuffers ∧ port.out id.toNat = false

/-- How many buffers `port_use_buffers` links into the queue of the output port. -/
def usable (types : MixerTypes) : List SpaAudioBuffer → Nat
  | [] => 0
  | b :: bs => if b.Usable types then usable types bs + 1 else 0

/-- The buffers that `port_use_buffers` comes to fit into the array.  When all are usable there is
a queue for them, and when one is not the output port has linked none before it. -/
def Takes (types : MixerTypes) (direction : PinosDirection) (bs : List SpaAudioBuffer)
    (port : SpaAudioMixerPort) : Prop :=
  port.haveFormat →
    SpaAudioMixer.reached types bs ≤ maxBuffers ∧
      if ∀ b ∈ bs, b.Usable types then 0 < bs.length → port.linked
      else direction = .output → usable types bs = 0

instance (types : MixerTypes) (direction : PinosDirection) (bs : List SpaAudioBuffer)
    (port : SpaAudioMixerPort) : Decidable (port.Takes types direction bs) :=
  inferInstanceAs (Decidable (_ → _ ∧ ite (∀ b ∈ bs, b.Usable types) _ _))

instance (port : SpaAudioMixerPort) (id : UInt32) : Decidable (port.Gave id) :=
  inferInstanceAs (Decidable (_ ∧ _))

instance (port : SpaAudioMixerPort) (id : UInt32) : Decidable (port.Knows id) :=
  inferInstanceAs (Decidable (_ ∨ _))

/-- The id in the io of an input port is refused if it does not name an outstanding buffer. -/
def RefusesInput (port : SpaAudioMixerPort) : Prop :=
  ∀ io ∈ port.io, port.nBuffers ≠ 0 → port.Looks io → ¬ port.Gave io.bufferId →
    port.queueInput = { port with io := some { io with status := .invalidBufferId } }

/-- The id that `process_input` looks at. -/
def KnowsInput (port : SpaAudioMixerPort) : Prop :=
  ∀ io ∈ port.io, port.nBuffers ≠ 0 → port.Looks io → port.Knows io.bufferId

instance (port : SpaAudioMixerPort) : Decidable port.KnowsInput :=
  inferInstanceAs (Decidable (∀ io ∈ port.io, _))

variable {port : SpaAudioMixerPort} {types : MixerTypes} {direction : PinosDirection}
  {bs : List SpaAudioBuffer} {b : MixerBuffer} {id : UInt32} {io : SpaMixerIO} {i n : Nat}

theorem out_update (buffers : Nat → MixerBuffer) (i : Nat) (b : MixerBuffer) :
    (fun j => (Function.update buffers i b j).outstanding) =
      Function.update (fun j => (buffers j).outstanding) i b.outstanding :=
  Function.comp_update MixerBuffer.outstanding buffers i b

/-! ## A buffer comes back -/

theorem Gave.inside (h : port.OwnsBuffers) (hgave : port.Gave id) : id.toNat < maxBuffers :=
  Nat.lt_of_lt_of_le hgave.1 h.fits

theorem Gave.linked (h : port.OwnsBuffers) (hgave : port.Gave id) : port.linked :=
  h.linked (Nat.ne_zero_of_lt hgave.1)

theorem Gave.links (h : port.OwnsBuffers) (hgave : port.Gave id) (b : MixerBuffer)
    (hb : b.outstanding = false) :
    Links (· < port.nBuffers)
      (fun j => (Function.update port.buffers id.toNat b j).outstanding)
      (port.queue ++ [id.toNat]) := by
  rw [out_update, hb]
  exact h.links.push hgave.1 hgave.2

theorem Gave.fresh (h : port.OwnsBuffers) (hgave : port.Gave id) : id.toNat ∉ port.queue := by
  intro hmem
  have hout := hgave.2
  rw [(h.links.mem_iff hgave.1).mp hmem] at hout
  exact Bool.false_ne_true hout

/-- A buffer that is not on the queue does no harm to it. -/
theorem insert_fresh (hlinked : port.linked) (hfresh : i ∉ port.queue) :
    port.insert i = { port with queue := port.queue ++ [i] } := by
  have hcontains : port.queue.contains i = false := by
    rw [List.contains_eq_mem, decide_eq_false hfresh]
  rw [insert, hlinked, hcontains, Bool.not_true, Bool.or_false, Bool.or_false]

theorem Gave.insert (h : port.OwnsBuffers) (hgave : port.Gave id) :
    port.insert id.toNat = { port with queue := port.queue ++ [id.toNat] } :=
  insert_fresh (hgave.linked h) (hgave.fresh h)

theorem setBuffer_inside (hi : i < maxBuffers) :
    port.setBuffer i b = { port with buffers := Function.update port.buffers i b } := by
  rw [setBuffer, decide_eq_false (Nat.not_le.mpr hi), Bool.or_false]

theorem recycleBuffer_out (hout : port.out id.toNat = true) :
    port.recycleBuffer id =
      (port.insert id.toNat).setBuffer id.toNat
        { port.buffers id.toNat with outstanding := false } :=
  if_pos hout

theorem linked_recycleBuffer : (port.recycleBuffer id).linked = port.linked := by
  unfold recycleBuffer
  dsimp only
  split <;> rfl

theorem recycleBuffer_in (hout : port.out id.toNat = false) :
    port.recycleBuffer id =
      { port with fault := port.fault || decide (maxBuffers ≤ id.toNat) } :=
  if_neg fun h => Bool.false_ne_true (hout.symm.trans h)

theorem withFault_eq (h : port.OwnsBuffers) :
    ({ port with fault := port.fault || decide (maxBuffers ≤ i) } : SpaAudioMixerPort) = port ↔
      i < maxBuffers := by
  constructor
  · intro hsame
    have hfault := congrArg fault hsame
    dsimp only at hfault
    rw [h.sound, Bool.false_or] at hfault
    exact Nat.not_le.mp (of_decide_eq_false hfault)
  · intro hlt
    rw [decide_eq_false (Nat.not_le.mpr hlt), Bool.or_false]

/-- Where a port that is asked for a buffer either links one more or does nothing, it refuses what
it has to just when it knows the id. -/
theorem refuses_of {linked kept same : SpaAudioMixerPort}
    (hlinked : linked.queue = same.queue ++ [id.toNat])
    (hkept : kept = same ↔ id.toNat < maxBuffers) :
    (¬ port.Gave id → (if port.out id.toNat then linked else kept) = same) ↔ port.Knows id := by
  by_cases hgave : port.Gave id
  · exact iff_of_true (fun hnot => absurd hgave hnot) (.inl hgave)
  cases hout : port.out id.toNat with
  | true =>
    rw [if_pos rfl]
    refine iff_of_false (fun hsame => ?_) ?_
    · rw [hsame hgave] at hlinked
      exact List.cons_ne_nil _ _ (List.append_right_eq_self.mp hlinked.symm)
    · rintro (hgave' | ⟨-, hin⟩)
      · exact hgave hgave'
      · exact Bool.false_ne_true (hin.symm.trans hout)
  | false =>
    rw [if_neg Bool.false_ne_true, hkept]
    constructor
    · exact fun hlt => .inr ⟨hlt hgave, hout⟩
    · rintro (hgave' | ⟨hlt, -⟩)
      · exact absurd hgave' hgave
      · exact fun _ => hlt

theorem OwnsBuffers.refuses_iff (h : port.OwnsBuffers) :
    (¬ port.Gave id → port.recycleBuffer id = port) ↔ port.Knows id :=
  refuses_of rfl (withFault_eq h)

theorem OwnsBuffers.recycleBuffer (h : port.OwnsBuffers) (hknows : port.Knows id) :
    (port.recycleBuffer id).OwnsBuffers := by
  rcases hknows with hgave | ⟨hlt, hin⟩
  · rw [recycleBuffer_out hgave.2, hgave.insert h, setBuffer_inside (hgave.inside h)]
    exact ⟨hgave.links h _ rfl, h.linked, h.fits, h.sound⟩
  · rw [recycleBuffer_in hin, (withFault_eq h).mpr hlt]
    exact h

/-! ## A buffer is queued -/

theorem queueInput_looks (hio : port.io = some io) (hn : port.nBuffers ≠ 0)
    (hlooks : port.Looks io) :
    port.queueInput =
      if port.out io.bufferId.toNat then port.queueBuffer io io.bufferId.toNat
      else port.refuseBuffer io io.bufferId.toNat := by
  rw [queueInput, hio]
  dsimp only
  rw [if_neg hn, if_pos hlooks]
  rfl

theorem RefusesInput.queue_eq (h : port.RefusesInput) (io : SpaMixerIO) (hio : port.io = some io)
    (hn : port.nBuffers ≠ 0) (hlooks : port.Looks io) (hgave : ¬ port.Gave io.bufferId) :
    port.queueInput.queue = port.queue := by
  rw [h io hio hn hlooks hgave]

theorem OwnsBuffers.refusesInput_iff (h : port.OwnsBuffers) :
    port.RefusesInput ↔ port.KnowsInput := by
  refine forall₄_congr fun io hio hn hlooks => ?_
  rw [queueInput_looks hio hn hlooks]
  exact refuses_of rfl (@withFault_eq
    { port with io := some { io with status := .invalidBufferId } }
    io.bufferId.toNat ⟨h.links, h.linked, h.fits, h.sound⟩)

theorem OwnsBuffers.queueInput (h : port.OwnsBuffers) (hknows : port.KnowsInput) :
    port.queueInput.OwnsBuffers := by
  obtain ⟨hsame, -⟩ | ⟨io, hio, hn, hlooks, -⟩ := port.queueInput_cases
  · rw [hsame]
    exact h
  rw [queueInput_looks hio hn hlooks]
  split
  next hout =>
    have hgave : port.Gave io.bufferId := by
      rcases hknows io hio hn hlooks with hgave | ⟨-, hin⟩
      · exact hgave
      · exact absurd (hin.symm.trans hout) Bool.false_ne_true
    have hcontains := congrArg fault (hgave.insert h)
    rw [queueBuffer, setBuffer_inside (hgave.inside h)]
    refine ⟨hgave.links h _ rfl, h.linked, h.fits, ?_⟩
    exact hcontains.trans h.sound
  next hin =>
    have hin : port.out io.bufferId.toNat = false := Bool.eq_false_iff.mpr hin
    have hlt : io.bufferId.toNat < maxBuffers := by
      rcases hknows io hio hn hlooks with hgave | ⟨hlt, -⟩
      · exact hgave.inside h
      · exact hlt
    refine ⟨h.links, h.linked, h.fits, ?_⟩
    show (port.fault || decide (maxBuffers ≤ io.bufferId.toNat)) = false
    rw [h.sound, decide_eq_false (Nat.not_le.mpr hlt)]
    rfl

/-! ## A buffer goes back -/

/-- The first buffer of the queue goes to the other side. -/
theorem OwnsBuffers.pop {rest : List Nat} (h : port.OwnsBuffers) (hqueue : port.queue = i :: rest)
    (b : MixerBuffer) (hb : b.outstanding = true) :
    Links (· < port.nBuffers) (fun j => (Function.update port.buffers i b j).outstanding)
      port.queue.tail := by
  have hlinks := h.links
  rw [hqueue] at hlinks
  rw [out_update, hb, hqueue]
  exact hlinks.pop

theorem OwnsBuffers.mixed (h : port.OwnsBuffers) (n : Nat) : (port.mixed n).OwnsBuffers := by
  unfold SpaAudioMixerPort.mixed
  by_cases hactive : port.active = true
  · cases hqueue : port.queue with
    | nil =>
      have hn : port.nBuffers ≠ 0 := bne_iff_ne.mp (Bool.and_eq_true_iff.mp hactive).2
      rw [mix_nil hactive hqueue]
      refine ⟨h.links, h.linked, h.fits, ?_⟩
      show (port.fault || !port.linked) = false
      rw [h.sound, h.linked hn]
      rfl
    | cons i rest =>
      rw [mix_cons hactive hqueue]
      rcases Nat.lt_or_ge n (port.insize i) with hlt | hle
      · rw [takeData_of_lt hlt]
        exact ⟨h.links, h.linked, h.fits, h.sound⟩
      · rw [takeData_of_le hle]
        exact ⟨h.pop hqueue _ rfl, h.linked, h.fits, h.sound⟩
  · rw [mix_idle hactive]
    exact h

/-! ## Buffers are replaced -/

theorem OwnsBuffers.clearBuffers (h : port.OwnsBuffers) :
    port.clearBuffers = { port with queue := [], nBuffers := 0 } := by
  unfold SpaAudioMixerPort.clearBuffers
  split
  next hpos => rw [initQueue, h.linked (Nat.ne_of_gt hpos)]
  next hnot =>
    have hn : port.nBuffers = 0 := Nat.eq_zero_of_not_pos hnot
    have hqueue : port.queue = [] := h.links.eq_nil fun i hi => by omega
    rw [← hqueue, ← hn]

theorem owns_empty (hqueue : port.queue = []) (hn : port.nBuffers = 0)
    (hfault : port.fault = false) : port.OwnsBuffers := by
  refine ⟨?_, fun hne => absurd hn hne, ?_, hfault⟩
  · rw [hqueue, hn]
    exact Links.of_none Nat.not_lt_zero
  · rw [hn]
    exact Nat.zero_le _

theorem OwnsBuffers.setFormat {format : Option SpaMixerFormat} (h : port.OwnsBuffers) :
    (port.setFormat types format).1.OwnsBuffers ∧
      (port.setFormat types format).1.linked = port.linked := by
  cases format with
  | none =>
    have hclear := @OwnsBuffers.clearBuffers { port with haveFormat := false }
      ⟨h.links, h.linked, h.fits, h.sound⟩
    rw [SpaAudioMixerPort.setFormat, hclear]
    exact ⟨owns_empty rfl rfl h.sound, rfl⟩
  | some f =>
    rw [SpaAudioMixerPort.setFormat]
    split
    · exact ⟨h, rfl⟩
    · exact ⟨⟨h.links, h.linked, h.fits, h.sound⟩, rfl⟩

/-- What the loop comes to is what it found usable and, if that is not all, one more. -/
theorem reached_eq (types : MixerTypes) (bs : List SpaAudioBuffer) :
    SpaAudioMixer.reached types bs =
      usable types bs + if ∀ b ∈ bs, b.Usable types then 0 else 1 := by
  induction bs with
  | nil => rfl
  | cons b bs ih =>
    rw [SpaAudioMixer.reached, usable]
    by_cases hb : b.Usable types
    · rw [if_pos hb, if_pos hb, ih]
      simp only [List.forall_mem_cons, hb, true_and]
      omega
    · rw [if_neg hb, if_neg hb, if_neg fun hall => hb (hall b List.mem_cons_self)]

theorem usable_all (hall : ∀ b ∈ bs, b.Usable types) : usable types bs = bs.length := by
  induction bs with
  | nil => rfl
  | cons b bs ih =>
    obtain ⟨hb, hall⟩ := List.forall_mem_cons.mp hall
    rw [usable, if_pos hb, ih hall, List.length_cons]

theorem fault_setBuffer (h : port.fault = true ∨ maxBuffers ≤ i) :
    (port.setBuffer i b).fault = true := by
  show (port.fault || decide (maxBuffers ≤ i)) = true
  rcases h with h | h
  · rw [h, Bool.true_or]
  · rw [decide_eq_true h, Bool.or_true]

theorem fault_insert (h : port.fault = true) : (port.insert i).fault = true := by
  show (port.fault || !port.linked || port.queue.contains i) = true
  rw [h, Bool.true_or, Bool.true_or]

/-- The loop writes behind the array when it comes to too many buffers. -/
theorem useBuffersFrom_fault
    (h : port.fault = true ∨
      i ≤ maxBuffers ∧ maxBuffers < i + SpaAudioMixer.reached types bs) :
    (useBuffersFrom types direction i bs port).1.fault = true := by
  induction bs generalizing i port with
  | nil =>
    rcases h with h | ⟨hle, hlt⟩
    · exact h
    · exact absurd hlt (Nat.not_lt.mpr hle)
  | cons b bs ih =>
    rw [SpaAudioMixerPort.useBuffersFrom]
    rw [SpaAudioMixer.reached] at h
    split
    next hb =>
      rw [if_neg hb] at h
      exact fault_setBuffer (h.imp_right fun h => by omega)
    next hb =>
      rw [if_pos (not_not.mp hb)] at h
      refine ih ?_
      rcases Nat.lt_or_ge i maxBuffers with hlt | hge
      · refine h.imp (fun hfault => ?_) fun h => by omega
        have hset := @fault_setBuffer _ ⟨b, direction = .input⟩ i (.inl hfault)
        split
        · exact hset
        · exact fault_insert hset
      · have hset := @fault_setBuffer port ⟨b, direction = .input⟩ i (.inr hge)
        refine .inl ?_
        split
        · exact hset
        · exact fault_insert hset

/-- A turn of the loop that goes on. -/
theorem use_turn (hlinked : direction = .output → port.linked) (hi : i < maxBuffers)
    (hfresh : i ∉ port.queue) :
    (if direction = .input then port.setBuffer i b else (port.setBuffer i b).insert i) =
      { port with
        buffers := Function.update port.buffers i b
        queue := if direction = .input then port.queue else port.queue ++ [i] } := by
  rw [setBuffer_inside hi]
  cases direction with
  | input => rfl
  | output =>
    exact @insert_fresh { port with buffers := Function.update port.buffers i b } i (hlinked rfl)
      hfresh

/-- The loop, when the buffers that it comes to fit into the array. -/
theorem useBuffersFrom_eq (hlinked : direction = .output → port.linked)
    (hqueue : ∀ j ∈ port.queue, j < i)
    (hmax : i + SpaAudioMixer.reached types bs ≤ maxBuffers) :
    ∃ buffers, useBuffersFrom types direction i bs port =
        ({ port with
            buffers
            queue :=
              if direction = .input then port.queue
              else port.queue ++ List.range' i (usable types bs) },
          if ∀ b ∈ bs, b.Usable types then .ok else .error) ∧
      (∀ j < i, buffers j = port.buffers j) ∧
        ∀ j, i ≤ j → j < i + SpaAudioMixer.reached types bs →
          (buffers j).outstanding = decide (direction = .input) := by
  induction bs generalizing i port with
  | nil =>
    refine ⟨port.buffers, ?_, fun _ _ => rfl, fun j hle hlt => absurd hlt (Nat.not_lt.mpr hle)⟩
    rw [SpaAudioMixerPort.useBuffersFrom, usable, List.range'_zero, List.append_nil, ite_self,
      if_pos fun b hb => (List.not_mem_nil hb).elim]
  | cons b bs ih =>
    rw [SpaAudioMixer.reached] at hmax ⊢
    have hi : i < maxBuffers := by
      split at hmax <;> omega
    rw [SpaAudioMixerPort.useBuffersFrom]
    by_cases hb : b.Usable types
    · rw [if_neg (not_not.mpr hb),
        use_turn hlinked hi fun hmem => Nat.lt_irrefl i (hqueue i hmem)]
      rw [if_pos hb] at hmax ⊢
      have hnext : ∀ j ∈ if direction = .input then port.queue else port.queue ++ [i],
          j < i + 1 := by
        intro j hj
        split at hj
        · exact Nat.lt_succ_of_lt (hqueue j hj)
        · rcases List.mem_append.mp hj with hj | hj
          · exact Nat.lt_succ_of_lt (hqueue j hj)
          · rw [List.mem_singleton.mp hj]
            exact Nat.lt_succ_self i
      obtain ⟨buffers, heq, hbelow, hflags⟩ := @ih { port with
        buffers := Function.update port.buffers i ⟨b, direction = .input⟩
        queue := if direction = .input then port.queue else port.queue ++ [i] } (i + 1) hlinked
        hnext (by omega)
      dsimp only at hbelow
      refine ⟨buffers, ?_, fun j hj => ?_, fun j hle hlt => ?_⟩
      · rw [heq, usable, if_pos hb, List.range'_succ]
        simp only [List.forall_mem_cons, hb, true_and]
        split <;> simp only [List.append_assoc, List.singleton_append]
      · rw [hbelow j (by omega), Function.update_of_ne (Nat.ne_of_lt hj)]
      · rcases Nat.eq_or_lt_of_le hle with rfl | hgt
        · rw [hbelow i (by omega), Function.update_self]
        · exact hflags j hgt (by omega)
    · rw [if_pos hb, setBuffer_inside hi]
      rw [if_neg hb]
      refine ⟨Function.update port.buffers i ⟨b, direction = .input⟩, ?_, fun j hj => ?_,
        fun j hle hlt => ?_⟩
      · rw [usable, if_neg hb, List.range'_zero, List.append_nil, ite_self,
          if_neg fun hall => hb (hall b List.mem_cons_self)]
      · exact Function.update_of_ne (Nat.ne_of_lt hj) _ _
      · rw [Nat.le_antisymm (Nat.lt_succ_iff.mp hlt) hle, Function.update_self]

theorem useBuffers_eq (h : port.OwnsBuffers) (hlinked : direction = .output → port.linked)
    (hformat : port.haveFormat) (hmax : SpaAudioMixer.reached types bs ≤ maxBuffers) :
    ∃ buffers, (port.useBuffers types direction bs).1 =
        { port with
          buffers
          queue := if direction = .input then [] else List.range' 0 (usable types bs)
          nBuffers := if ∀ b ∈ bs, b.Usable types then bs.length else 0 } ∧
      ∀ j < SpaAudioMixer.reached types bs,
        (buffers j).outstanding = decide (direction = .input) := by
  obtain ⟨buffers, heq, -, hflags⟩ := @useBuffersFrom_eq
    { port with queue := [], nBuffers := 0 } types direction bs 0 hlinked
    (fun j hj => nomatch hj) (by omega)
  refine ⟨buffers, ?_, fun j hj => hflags j (Nat.zero_le j) (by omega)⟩
  rw [SpaAudioMixerPort.useBuffers, if_pos hformat, h.clearBuffers, heq]
  by_cases hall : ∀ b ∈ bs, b.Usable types
  · simp only [if_pos hall, List.nil_append, if_true]
  · simp only [if_neg hall, List.nil_append]
    rfl

theorem OwnsBuffers.useBuffers (h : port.OwnsBuffers) (hlinked : direction = .output → port.linked)
    (htakes : port.Takes types direction bs) :
    (port.useBuffers types direction bs).1.OwnsBuffers ∧
      (port.useBuffers types direction bs).1.linked = port.linked := by
  by_cases hformat : port.haveFormat = true
  · obtain ⟨hmax, hrest⟩ := htakes hformat
    obtain ⟨buffers, heq, hflags⟩ := useBuffers_eq h hlinked hformat hmax
    rw [heq]
    refine ⟨?_, rfl⟩
    by_cases hall : ∀ b ∈ bs, b.Usable types
    · rw [if_pos hall] at hrest
      have hreached := reached_eq types bs
      rw [if_pos hall, Nat.add_zero, usable_all hall] at hreached
      rw [hreached] at hmax hflags
      rw [if_pos hall, usable_all hall]
      refine ⟨?_, fun hne => hrest (Nat.pos_of_ne_zero hne), hmax, h.sound⟩
      cases direction with
      | input => exact Links.nil_iff.mpr hflags
      | output =>
        refine Links.of_nodup List.nodup_range' (fun i => ?_) hflags
        show i < bs.length ↔ i ∈ List.range' 0 bs.length
        rw [List.mem_range'_1]
        omega
    · rw [if_neg hall] at hrest
      rw [if_neg hall]
      refine owns_empty ?_ rfl h.sound
      cases direction with
      | input => rfl
      | output =>
        show List.range' 0 (usable types bs) = []
        rw [hrest rfl]
        rfl
  · rw [SpaAudioMixerPort.useBuffers, if_neg hformat]
    exact ⟨h, rfl⟩

/-- The lists are only right where the buffers were taken. -/
theorem OwnsBuffers.takes (h : port.OwnsBuffers) (hlinked : direction = .output → port.linked)
    (howns : (port.useBuffers types direction bs).1.OwnsBuffers) :
    port.Takes types direction bs := by
  intro hformat
  have hmax : SpaAudioMixer.reached types bs ≤ maxBuffers := by
    by_contra hmany
    have hfault := @useBuffersFrom_fault { port with queue := [], nBuffers := 0 } types direction
      bs 0 (.inr ⟨Nat.zero_le _, by omega⟩)
    have hsound := howns.sound
    rw [SpaAudioMixerPort.useBuffers, if_pos hformat, h.clearBuffers] at hsound
    dsimp only at hsound
    split at hsound
    · exact Bool.noConfusion (hfault.symm.trans hsound)
    · exact Bool.noConfusion (hfault.symm.trans hsound)
  obtain ⟨buffers, heq, -⟩ := useBuffers_eq h hlinked hformat hmax
  rw [heq] at howns
  refine ⟨hmax, ?_⟩
  by_cases hall : ∀ b ∈ bs, b.Usable types
  · rw [if_pos hall]
    intro hpos
    refine howns.linked ?_
    show (if ∀ b ∈ bs, b.Usable types then bs.length else 0) ≠ 0
    rw [if_pos hall]
    exact Nat.ne_of_gt hpos
  · rw [if_neg hall] at howns ⊢
    rintro rfl
    have hnil : List.range' 0 (usable types bs) = [] := howns.links.eq_nil Nat.not_lt_zero
    exact List.range'_eq_nil_iff.mp hnil

end SpaAudioMixerPort
end Pinos
