import Pinos.Plugins.MixedOutput

/-
The calls of the mixer: what each does with the bytes on the ports, and which calls fit.

A call is right when afterwards the counters of every port agree with its queue, when the bytes
that were on a port are those that went into the output buffer followed by those still there, and
when the output buffer holds the step-by-step sum of what went into it.
-/

namespace Pinos

open ByteMem SpaAudioMixerPort

namespace SpaAudioBuffer

def bytes (b : SpaAudioBuffer) : List UInt8 :=
  b.memory.read b.chunkOffset.toNat b.chunkSize.toNat

/-- The chunk is the sum of what the ports gave, each as many bytes as it holds.  An odd byte at
its end is no sample, so only one port can give it. -/
def Sums (b : SpaAudioBuffer) (given : List (List UInt8)) : Prop :=
  (∀ c ∈ given, c.length = b.chunkSize.toNat) ∧
    (∀ k, 2 * k + 1 < b.chunkSize.toNat →
      sampleAt b.bytes k = saturatedSum (given.map (sampleAt · k))) ∧
    (b.chunkSize.toNat % 2 = 1 → ∃ c, given = [c] ∧ b.bytes = c)

end SpaAudioBuffer

namespace SpaAudioMixer

/-! ## What a call does with the bytes -/

/-- The output can take a buffer, so that the process calls go to work. -/
def runs (this : SpaAudioMixer) : Bool :=
  match this.outPort.io with
  | none => false
  | some output => output.status != .haveBuffer

/-- The buffers that a call queues on a port. -/
def arrivals (this : SpaAudioMixer) (e : Event) (p : Nat) : List Nat :=
  match e with
  | .processInput => if this.runs then (this.inPorts p).arriving else []
  | _ => []

/-- The buffers on a port when a call mixes. -/
def held (this : SpaAudioMixer) (e : Event) (p : Nat) : List Nat :=
  (this.inPorts p).queue ++ this.arrivals e p

/-- The bytes that a call queues on a port. -/
def fed (this : SpaAudioMixer) (e : Event) (p : Nat) : List UInt8 :=
  (this.arrivals e p).flatMap (this.inPorts p).chunk

/-- The bytes on a port when a call mixes. -/
def offered (this : SpaAudioMixer) (e : Event) (p : Nat) : List UInt8 :=
  (this.inPorts p).unread ++ this.fed e p

/-- The ports that take part and have bytes, in order. -/
def ready (this : SpaAudioMixer) (e : Event) : List Nat :=
  (List.range maxPorts).filter fun p => (this.inPorts p).active ∧ this.offered e p ≠ []

/-- The free output buffers when a call mixes. -/
def freeBuffers (this : SpaAudioMixer) : Event → List Nat
  | .processOutput =>
    match this.outPort.io with
    | none => this.outPort.queue
    | some output =>
      if this.runs ∧ output.bufferId ≠ spaIdInvalid then
        (this.outPort.recycleBuffer output.bufferId).queue
      else this.outPort.queue
  | _ => this.outPort.queue

/-- The output buffer that a call made. -/
def produced (types : MixerTypes) (this : SpaAudioMixer) (e : Event) : Option SpaAudioBuffer :=
  match e with
  | .processInput | .processOutput =>
    let after := this.step types e
    if this.runs ∧ ¬ after.runs then
      (this.freeBuffers e).head?.map fun o => (after.outPort.buffers o).outbuf
    else none
  | _ => none

/-- The number of bytes that a call made. -/
def mixedSize (types : MixerTypes) (this : SpaAudioMixer) (e : Event) : Nat :=
  match this.produced types e with
  | none => 0
  | some b => b.chunkSize.toNat

/-- The bytes of a port that a call took into the output buffer. -/
def taken (types : MixerTypes) (this : SpaAudioMixer) (e : Event) (p : Nat) : List UInt8 :=
  if (this.inPorts p).active then (this.offered e p).take (this.mixedSize types e) else []

structure Right (types : MixerTypes) (this : SpaAudioMixer) (e : Event) : Prop where
  counted : ∀ p < maxPorts, ((this.step types e).inPorts p).Counted
  conserved : ∀ p < maxPorts, (this.inPorts p).unread ++ this.fed e p =
    this.taken types e p ++ ((this.step types e).inPorts p).unread
  summed : ∀ b ∈ this.produced types e, b.Sums ((this.ready e).map (this.taken types e))
  sound : (∀ p < maxPorts, ((this.step types e).inPorts p).fault = false) ∧
    (this.step types e).outPort.fault = false

/-! ## Calls that fit -/

/-- How many buffers the loop of `port_use_buffers` comes to. -/
def reached (types : MixerTypes) : List SpaAudioBuffer → Nat
  | [] => 0
  | b :: bs => if b.Usable types then reached types bs + 1 else 1

/-- `process_output` waits until every port that takes part has bytes. -/
def Event.needsAll : Event → Bool
  | .processOutput => true
  | _ => false

/-- A call goes to mix into an output buffer that has room. -/
def Mixes (this : SpaAudioMixer) (e : Event) : Prop :=
  (e.needsAll → ∀ p < maxPorts, (this.inPorts p).active → this.offered e p ≠ []) ∧
    this.ready e ≠ [] ∧
    ∃ o ∈ (this.freeBuffers e).head?, (this.outPort.buffers o).outbuf.maxsize ≠ 0

instance (this : SpaAudioMixer) (e : Event) : Decidable (this.Mixes e) :=
  inferInstanceAs (Decidable (_ ∧ _ ∧ _))

/-- The least number of bytes that a port has, or that the output buffer has room for. -/
def leastSize (this : SpaAudioMixer) (e : Event) : Nat :=
  ((this.ready e).map fun p => (this.offered e p).length).foldl min
    (((this.freeBuffers e).head?.map fun o =>
      (this.outPort.buffers o).outbuf.maxsize.toNat).getD 0)

/-- No port with bytes has an empty buffer in front of them, the first port with a buffer has
bytes, and it is whole samples that are added. -/
def MixFits (this : SpaAudioMixer) (e : Event) : Prop :=
  (∀ p ∈ this.ready e, ∀ i ∈ (this.held e p).head?, (this.inPorts p).size i ≠ 0) ∧
    (∀ p ∈ (List.range maxPorts).find? fun p =>
        (this.inPorts p).active ∧ this.held e p ≠ [], this.offered e p ≠ []) ∧
    ((this.ready e).length ≤ 1 ∨ this.leastSize e % 2 = 0)

instance (this : SpaAudioMixer) (e : Event) : Decidable (this.MixFits e) :=
  inferInstanceAs (Decidable (_ ∧ _ ∧ (_ ∨ _)))

def InputFits (this : SpaAudioMixer) : Prop :=
  (∀ p < maxPorts, (this.inPorts p).IdInside) ∧
    (this.Mixes .processInput → this.MixFits .processInput)

def OutputFits (this : SpaAudioMixer) : Prop :=
  (∀ output ∈ this.outPort.io, output.bufferId ≠ spaIdInvalid →
      output.bufferId.toNat < maxBuffers) ∧
    (this.Mixes .processOutput → this.MixFits .processOutput)

instance (this : SpaAudioMixer) : Decidable this.InputFits :=
  inferInstanceAs (Decidable (_ ∧ _))

instance (this : SpaAudioMixer) : Decidable this.OutputFits :=
  inferInstanceAs (Decidable (_ ∧ _))

def Fits (types : MixerTypes) (this : SpaAudioMixer) (e : Event) : Prop :=
  match e with
  | .addPort direction p => this.CheckFreeInPort direction p → (this.inPorts p).Drained
  | .portSetFormat .input p none => this.CheckPort .input p → (this.inPorts p).Drained
  | .portUseBuffers .input p bs =>
    this.CheckPort .input p → (this.inPorts p).haveFormat →
      (this.inPorts p).Drained ∧ reached types bs ≤ maxBuffers
  | .portUseBuffers .output p bs =>
    this.CheckPort .output p → this.outPort.haveFormat →
      reached types bs ≤ maxBuffers ∧
        (this.outPort.nBuffers ≠ 0 ∨ ∀ i < reached types bs, i ∉ this.outPort.queue)
  | .portSetIo .input p io => p < maxPorts → io.isSome → (this.inPorts p).linked
  | .portReuseBuffer p id => this.CheckPort .output p → id.toNat < maxBuffers
  | .processInput => this.runs → this.InputFits
  | .processOutput => this.runs → this.OutputFits
  | _ => True

instance (types : MixerTypes) (this : SpaAudioMixer) : ∀ e, Decidable (Fits types this e)
  | .addPort direction p =>
    inferInstanceAs (Decidable (this.CheckFreeInPort direction p → (this.inPorts p).Drained))
  | .portSetFormat .input p none =>
    inferInstanceAs (Decidable (this.CheckPort .input p → (this.inPorts p).Drained))
  | .portUseBuffers .input p bs =>
    inferInstanceAs (Decidable (this.CheckPort .input p → (this.inPorts p).haveFormat →
      (this.inPorts p).Drained ∧ reached types bs ≤ maxBuffers))
  | .portUseBuffers .output p bs =>
    inferInstanceAs (Decidable (this.CheckPort .output p → this.outPort.haveFormat →
      reached types bs ≤ maxBuffers ∧
        (this.outPort.nBuffers ≠ 0 ∨ ∀ i < reached types bs, i ∉ this.outPort.queue)))
  | .portSetIo .input p io =>
    inferInstanceAs (Decidable (p < maxPorts → io.isSome → (this.inPorts p).linked))
  | .portReuseBuffer p id =>
    inferInstanceAs (Decidable (this.CheckPort .output p → id.toNat < maxBuffers))
  | .processInput => inferInstanceAs (Decidable (this.runs → this.InputFits))
  | .processOutput => inferInstanceAs (Decidable (this.runs → this.OutputFits))
  | .portSetFormat .input _ (some _) => inferInstanceAs (Decidable True)
  | .portSetFormat .output _ none => inferInstanceAs (Decidable True)
  | .portSetFormat .output _ (some _) => inferInstanceAs (Decidable True)
  | .portSetIo .output _ _ => inferInstanceAs (Decidable True)
  | .removePort _ _ => inferInstanceAs (Decidable True)
  | .writeIo _ _ _ => inferInstanceAs (Decidable True)
  | .fill _ _ _ _ _ => inferInstanceAs (Decidable True)

/-! ## The output port -/

end SpaAudioMixer

namespace SpaAudioMixerPort

/-- The output port: its queue is sound, and what may come onto it has memory. -/
structure OutGood (port : SpaAudioMixerPort) : Prop where
  linked : port.linked
  fresh : ∀ i ∈ port.queue, (port.buffers i).outstanding = false
  nodup : port.queue.Nodup
  filled : ∀ i, i ∈ port.queue ∨ (port.buffers i).outstanding →
    (port.buffers i).outbuf.data.isSome
  fault : port.fault = false

variable {port : SpaAudioMixerPort} {types : MixerTypes} {bs : List SpaAudioBuffer} {i n : Nat}

theorem OutGood.congr {port' : SpaAudioMixerPort} (h : port.OutGood)
    (hlinked : port'.linked = port.linked) (hqueue : port'.queue = port.queue)
    (hbuffers : port'.buffers = port.buffers) (hfault : port'.fault = port.fault) :
    port'.OutGood := by
  obtain ⟨h1, h2, h3, h4, h5⟩ := h
  constructor
  · rwa [hlinked]
  · rwa [hqueue, hbuffers]
  · rwa [hqueue]
  · rwa [hqueue, hbuffers]
  · rwa [hfault]

theorem OutGood.clearBuffers (h : port.OutGood) : port.clearBuffers.OutGood := by
  unfold SpaAudioMixerPort.clearBuffers
  split
  · exact
      { linked := rfl
        fresh := fun _ hi => nomatch hi
        nodup := List.nodup_nil
        filled := fun i hi => h.filled i (hi.elim (fun hmem => nomatch hmem) .inr)
        fault := h.fault }
  · exact h

/-- A buffer that is not linked goes onto the queue. -/
theorem OutGood.insert (h : port.OutGood) (hi : i ∉ port.queue)
    (hout : (port.buffers i).outstanding = false)
    (hdata : (port.buffers i).outbuf.data.isSome) : (port.insert i).OutGood where
  linked := h.linked
  fresh := fun j hj => by
    rcases List.mem_append.mp hj with hj | hj
    · exact h.fresh j hj
    · rw [List.mem_singleton.mp hj]
      exact hout
  nodup := List.nodup_append.mpr ⟨h.nodup, List.pairwise_singleton _ i, fun j hj k hk he => by
    rw [List.mem_singleton.mp hk] at he
    exact hi (he ▸ hj)⟩
  filled := fun j hj => by
    rcases hj with hj | hj
    · rcases List.mem_append.mp hj with hj | hj
      · exact h.filled j (.inl hj)
      · rw [List.mem_singleton.mp hj]
        exact hdata
    · exact h.filled j (.inr hj)
  fault := by
    show (port.fault || !port.linked || port.queue.contains i) = false
    have hcontains : port.queue.contains i = false := by simpa using hi
    rw [h.fault, h.linked, hcontains]
    rfl

/-- A buffer that is not linked is replaced. -/
theorem OutGood.setBuffer {b : MixerBuffer} (h : port.OutGood) (hi : i ∉ port.queue)
    (hmax : i < maxBuffers) (hdata : b.outstanding → b.outbuf.data.isSome) :
    (port.setBuffer i b).OutGood where
  linked := h.linked
  fresh := fun j hj => by
    show (Function.update port.buffers i b j).outstanding = false
    rw [Function.update_of_ne fun he : j = i => hi (he ▸ hj)]
    exact h.fresh j hj
  nodup := h.nodup
  filled := fun j hj => by
    by_cases he : j = i
    · subst he
      rcases hj with hj | hj
      · exact absurd hj hi
      · change (Function.update port.buffers j b j).outstanding = true at hj
        show (Function.update port.buffers j b j).outbuf.data.isSome
        rw [Function.update_self] at hj ⊢
        exact hdata hj
    · change j ∈ port.queue ∨ (Function.update port.buffers i b j).outstanding = true at hj
      show (Function.update port.buffers i b j).outbuf.data.isSome
      rw [Function.update_of_ne he] at hj ⊢
      exact h.filled j hj
  fault := by
    show (port.fault || decide (maxBuffers ≤ i)) = false
    rw [h.fault, decide_eq_false (Nat.not_le.mpr hmax)]
    rfl

theorem OutGood.recycleBuffer {id : UInt32} (h : port.OutGood) (hid : id.toNat < maxBuffers) :
    (port.recycleBuffer id).OutGood := by
  unfold SpaAudioMixerPort.recycleBuffer
  dsimp only
  split
  next hout =>
    have hi : id.toNat ∉ port.queue := fun hmem => by
      rw [h.fresh _ hmem] at hout
      exact Bool.false_ne_true hout
    -- The buffer is no longer outstanding when it is on the queue.
    have hset := @OutGood.setBuffer port id.toNat
      { port.buffers id.toNat with outstanding := false } h hi hid (fun h => nomatch h)
    have hins := @OutGood.insert _ id.toNat hset hi
      (by
        show (Function.update port.buffers id.toNat _ id.toNat).outstanding = false
        rw [Function.update_self])
      (by
        show (Function.update port.buffers id.toNat _ id.toNat).outbuf.data.isSome
        rw [Function.update_self]
        exact h.filled _ (.inr hout))
    refine hins.congr rfl rfl rfl ?_
    show (port.fault || !port.linked || port.queue.contains id.toNat ||
      decide (maxBuffers ≤ id.toNat)) =
        (port.fault || decide (maxBuffers ≤ id.toNat) || !port.linked ||
          port.queue.contains id.toNat)
    rw [h.fault, h.linked, decide_eq_false (Nat.not_le.mpr hid)]
    simp
  · refine h.congr rfl rfl rfl ?_
    show (port.fault || decide (maxBuffers ≤ id.toNat)) = port.fault
    rw [decide_eq_false (Nat.not_le.mpr hid), Bool.or_false]

/-! ## Buffers that are handed over -/

/-- Output buffers go onto the queue as far as the loop comes. -/
theorem OutGood.useBuffersFrom (h : port.OutGood)
    (hfree : ∀ j, i ≤ j → j < i + SpaAudioMixer.reached types bs → j ∉ port.queue)
    (hmax : i + SpaAudioMixer.reached types bs ≤ maxBuffers) :
    (useBuffersFrom types .output i bs port).1.OutGood := by
  induction bs generalizing i port with
  | nil => exact h
  | cons b bs ih =>
    rw [SpaAudioMixer.reached] at hfree hmax
    have hpos : i < i + (if b.Usable types then SpaAudioMixer.reached types bs + 1 else 1) := by
      split <;> omega
    have hi := hfree i (Nat.le_refl i) hpos
    have hset := @OutGood.setBuffer port i ⟨b, false⟩ h hi (by omega) (fun h => nomatch h)
    rw [SpaAudioMixerPort.useBuffersFrom]
    split
    · exact hset
    next husable =>
      have husable : b.Usable types := not_not.mp husable
      rw [if_pos husable] at hfree hmax
      have hins : ((port.setBuffer i ⟨b, false⟩).insert i).OutGood := by
        refine hset.insert hi ?_ ?_
        · show (Function.update port.buffers i _ i).outstanding = false
          rw [Function.update_self]
        · show (Function.update port.buffers i _ i).outbuf.data.isSome
          rw [Function.update_self]
          exact husable.2
      refine @ih _ _ hins (fun j hle hlt hmem => ?_) (by omega)
      rcases List.mem_append.mp hmem with hmem | hmem
      · exact hfree j (by omega) (by omega) hmem
      · have := List.mem_singleton.mp hmem
        omega

/-- Input buffers are outstanding; nothing is queued. -/
theorem useBuffersFrom_input (hmax : i + SpaAudioMixer.reached types bs ≤ maxBuffers) :
    ∃ buffers, (useBuffersFrom types .input i bs port).1 = { port with buffers } := by
  induction bs generalizing i port with
  | nil => exact ⟨_, rfl⟩
  | cons b bs ih =>
    rw [SpaAudioMixer.reached] at hmax
    have hpos : i < maxBuffers := by
      split at hmax <;> omega
    have hset : port.setBuffer i ⟨b, true⟩ =
        { port with buffers := Function.update port.buffers i ⟨b, true⟩ } := by
      rw [setBuffer, decide_eq_false (Nat.not_le.mpr hpos), Bool.or_false]
    rw [SpaAudioMixerPort.useBuffersFrom, decide_eq_true rfl, hset]
    split
    · exact ⟨_, rfl⟩
    next husable =>
      rw [if_pos (not_not.mp husable)] at hmax
      obtain ⟨buffers, hbuffers⟩ := @ih
        { port with buffers := Function.update port.buffers i ⟨b, true⟩ } (i + 1) (by omega)
      exact ⟨buffers, hbuffers⟩

theorem Good.clearBuffers (h : port.Good) (hdrained : port.Drained) :
    port.clearBuffers.Good ∧ port.clearBuffers.unread = [] ∧ port.clearBuffers.queue = [] ∧
      port.clearBuffers.Drained := by
  unfold SpaAudioMixerPort.clearBuffers
  split
  next hn =>
    obtain ⟨hgood, hunread⟩ := @good_empty { port.initQueue with nBuffers := 0 } rfl hdrained
      (fun _ => rfl) h.fault
    exact ⟨hgood, hunread, rfl, hdrained⟩
  next hn => exact ⟨h, h.unread_of_drained hdrained, h.empty (by omega), hdrained⟩

/-- A port with another io. -/
theorem Good.withIo {io : Option SpaMixerIO} (h : port.Good) (hio : io.isSome → port.linked) :
    ({ port with io } : SpaAudioMixerPort).Good ∧
      ({ port with io } : SpaAudioMixerPort).unread = port.unread :=
  h.congr rfl rfl rfl (fun _ _ => rfl) id hio h.fault

theorem Good.mapIo (h : port.Good) (f : SpaMixerIO → SpaMixerIO) :
    ({ port with io := port.io.map f } : SpaAudioMixerPort).Good ∧
      ({ port with io := port.io.map f } : SpaAudioMixerPort).unread = port.unread :=
  h.withIo fun hio => h.linked (by rwa [Option.isSome_map] at hio)

theorem Good.useBuffers (h : port.Good) (hdrained : port.haveFormat → port.Drained)
    (hmax : port.haveFormat → SpaAudioMixer.reached types bs ≤ maxBuffers) :
    (port.useBuffers types .input bs).1.Good ∧
      (port.useBuffers types .input bs).1.unread = port.unread := by
  unfold SpaAudioMixerPort.useBuffers
  split
  next hformat =>
    obtain ⟨hgood, -, hqueue, hnone⟩ := h.clearBuffers (hdrained hformat)
    obtain ⟨buffers, hbuffers⟩ := @useBuffersFrom_input port.clearBuffers types bs 0
      (by rw [Nat.zero_add]; exact hmax hformat)
    have hempty : ∀ n, ({ port.clearBuffers with buffers, nBuffers := n } :
        SpaAudioMixerPort).Good ∧ _ := fun n =>
      good_empty hqueue hnone hgood.linked hgood.fault
    rw [h.unread_of_drained (hdrained hformat)]
    dsimp only
    split
    · rw [hbuffers]
      exact hempty bs.length
    · rw [hbuffers]
      exact hempty port.clearBuffers.nBuffers
  · exact ⟨h, rfl⟩

theorem OutGood.useBuffers (h : port.OutGood)
    (hfits : port.haveFormat → SpaAudioMixer.reached types bs ≤ maxBuffers ∧
      (port.nBuffers ≠ 0 ∨ ∀ i < SpaAudioMixer.reached types bs, i ∉ port.queue)) :
    (port.useBuffers types .output bs).1.OutGood := by
  unfold SpaAudioMixerPort.useBuffers
  split
  next hformat =>
    obtain ⟨hmax, hfree⟩ := hfits hformat
    have hclear : ∀ j < SpaAudioMixer.reached types bs, j ∉ port.clearBuffers.queue := by
      intro j hj
      unfold SpaAudioMixerPort.clearBuffers
      split
      · exact List.not_mem_nil
      next hn => exact hfree.resolve_left (by omega) j hj
    have hused := @OutGood.useBuffersFrom port.clearBuffers types bs 0 h.clearBuffers
      (fun j _ hj => hclear j (by omega)) (by omega)
    dsimp only
    split
    · exact hused.congr rfl rfl rfl rfl
    · exact hused
  · exact h

theorem Good.setFormat {format : Option SpaMixerFormat} (h : port.Good)
    (hdrained : format = none → port.Drained) :
    (port.setFormat types format).1.Good ∧
      (port.setFormat types format).1.unread = port.unread := by
  cases format with
  | none =>
    have hdrained := hdrained rfl
    have hsame := @Good.congr port { port with haveFormat := false } h rfl rfl rfl
      (fun _ _ => rfl) id h.linked h.fault
    obtain ⟨hgood, hunread, -, -⟩ := hsame.1.clearBuffers hdrained
    exact ⟨hgood, hunread.trans (h.unread_of_drained hdrained).symm⟩
  | some f =>
    unfold SpaAudioMixerPort.setFormat
    dsimp only
    split
    · exact ⟨h, rfl⟩
    · exact h.congr rfl rfl rfl (fun _ _ => rfl) id h.linked h.fault

theorem OutGood.setFormat {format : Option SpaMixerFormat} (h : port.OutGood) :
    (port.setFormat types format).1.OutGood := by
  cases format with
  | none =>
    exact (@OutGood.congr port { port with haveFormat := false } h rfl rfl rfl rfl).clearBuffers
  | some f =>
    unfold SpaAudioMixerPort.setFormat
    dsimp only
    split
    · exact h
    · exact h.congr rfl rfl rfl rfl

end SpaAudioMixerPort

/-! ## Calls that leave the bytes where they are -/

namespace SpaAudioMixer

structure Inv (this : SpaAudioMixer) : Prop where
  ports : ∀ p < maxPorts, (this.inPorts p).Good
  out : this.outPort.OutGood

/-- Every port keeps its bytes. -/
def Still (this this' : SpaAudioMixer) : Prop :=
  this'.Inv ∧ ∀ p < maxPorts, (this'.inPorts p).unread = (this.inPorts p).unread

variable {types : MixerTypes} {this : SpaAudioMixer} {p : Nat}

theorem Inv.still (h : this.Inv) : Still this this := ⟨h, fun _ _ => rfl⟩

theorem Inv.setPort_input {port : SpaAudioMixerPort} (h : this.Inv)
    (hport : p < maxPorts → port.Good ∧ port.unread = (this.inPorts p).unread) :
    Still this (this.setPort port .input p) := by
  refine ⟨⟨fun q hq => ?_, h.out⟩, fun q hq => ?_⟩
  · show (Function.update this.inPorts p port q).Good
    by_cases he : q = p
    · subst he
      rw [Function.update_self]
      exact (hport hq).1
    · rw [Function.update_of_ne he]
      exact h.ports q hq
  · show (Function.update this.inPorts p port q).unread = _
    by_cases he : q = p
    · subst he
      rw [Function.update_self]
      exact (hport hq).2
    · rw [Function.update_of_ne he]

theorem Inv.withOut {port : SpaAudioMixerPort} (h : this.Inv) (hport : port.OutGood) :
    Still this { this with outPort := port } :=
  ⟨⟨h.ports, hport⟩, fun _ _ => rfl⟩

theorem Inv.addPort {direction : PinosDirection} (h : this.Inv)
    (hfits : Fits types this (.addPort direction p)) : Still this (this.addPort direction p).1 := by
  unfold SpaAudioMixer.addPort
  split
  next hfree =>
    cases direction with
    | output => exact hfree.elim
    | input =>
      have hdrained := hfits hfree
      refine h.setPort_input fun hp => ?_
      have hgood := h.ports p hp
      rw [hgood.unread_of_drained hdrained]
      exact good_empty rfl hdrained (fun _ => rfl) hgood.fault
  · exact h.still

theorem Inv.removePort (h : this.Inv) (direction : PinosDirection) :
    Still this (this.removePort direction p).1 := by
  unfold SpaAudioMixer.removePort
  split
  · exact h.setPort_input fun hp => (h.ports p hp).withIo fun hio => nomatch hio
  · exact h.still

theorem Inv.portSetFormat {direction : PinosDirection} {format : Option SpaMixerFormat}
    (h : this.Inv) (hfits : Fits types this (.portSetFormat direction p format)) :
    Still this (this.portSetFormat types direction p format).1 := by
  unfold SpaAudioMixer.portSetFormat
  split
  next hport =>
    cases direction with
    | output => exact h.withOut h.out.setFormat
    | input =>
      refine h.setPort_input fun hp => (h.ports p hp).setFormat ?_
      rintro rfl
      exact hfits hport
  · exact h.still

theorem Inv.portUseBuffers {direction : PinosDirection} {bs : List SpaAudioBuffer}
    (h : this.Inv) (hfits : Fits types this (.portUseBuffers direction p bs)) :
    Still this (this.portUseBuffers types direction p bs).1 := by
  unfold SpaAudioMixer.portUseBuffers
  split
  next hport =>
    cases direction with
    | output => exact h.withOut (h.out.useBuffers (hfits hport))
    | input =>
      exact h.setPort_input fun hp => (h.ports p hp).useBuffers
        (fun hformat => (hfits hport hformat).1) fun hformat => (hfits hport hformat).2
  · exact h.still

theorem Inv.portSetIo {direction : PinosDirection} {io : Option SpaMixerIO} (h : this.Inv)
    (hfits : Fits types this (.portSetIo direction p io)) :
    Still this (this.portSetIo direction p io).1 := by
  unfold SpaAudioMixer.portSetIo
  split
  next hport =>
    cases direction with
    | output => exact h.withOut (h.out.congr rfl rfl rfl rfl)
    | input => exact h.setPort_input fun hp => (h.ports p hp).withIo fun hio => hfits hp hio
  · exact h.still

theorem Inv.portReuseBuffer {id : UInt32} (h : this.Inv)
    (hfits : Fits types this (.portReuseBuffer p id)) :
    Still this (this.portReuseBuffer p id).1 := by
  unfold SpaAudioMixer.portReuseBuffer
  split
  next hport => exact h.withOut (h.out.recycleBuffer (hfits hport))
  · exact h.still

theorem Inv.writeIo {io : SpaMixerIO} (h : this.Inv) (direction : PinosDirection) :
    Still this (this.writeIo direction p io) := by
  unfold SpaAudioMixer.writeIo
  cases direction with
  | output => exact h.withOut (h.out.congr rfl rfl rfl rfl)
  | input => exact h.setPort_input fun hp => (h.ports p hp).mapIo _

/-- The other side writes into a buffer that is not on the queue. -/
theorem Inv.fill {i : Nat} {data : Mem} {chunkOffset chunkSize : UInt32} (h : this.Inv) :
    Still this (this.fill p i data chunkOffset chunkSize) := by
  refine h.setPort_input fun hp => ?_
  have hgood := h.ports p hp
  dsimp only
  split
  next hout =>
    refine hgood.congr rfl rfl rfl (fun j hj => Function.update_of_ne ?_ _ _) id hgood.linked
      hgood.fault
    rintro rfl
    rw [hgood.fresh j hj] at hout
    exact Bool.false_ne_true hout
  · exact ⟨hgood, rfl⟩

end SpaAudioMixer
end Pinos
