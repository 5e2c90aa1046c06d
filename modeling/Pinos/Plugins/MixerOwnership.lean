import Pinos.Lib.Run
import Pinos.Plugins.MixerRuns
import Pinos.Plugins.OwnedBuffers

/-
Runs of the mixer: every buffer is on the queue of its port or with the other side, as long as the
calls are orderly.
-/

namespace Pinos

open FreeList

namespace SpaAudioMixer

open SpaAudioMixerPort

structure OwnsBuffers (this : SpaAudioMixer) : Prop where
  inputs : ∀ p < maxPorts, (this.inPorts p).OwnsBuffers
  output : this.outPort.OwnsBuffers

/-- The id of an output buffer that a call gives back. -/
def givenBack (this : SpaAudioMixer) : Event → Option UInt32
  | .portReuseBuffer p id => if this.CheckPort .output p then some id else none
  | .processOutput =>
    match this.outPort.io with
    | none => none
    | some output =>
      if output.status ≠ .haveBuffer ∧ output.bufferId ≠ spaIdInvalid then some output.bufferId
      else none
  | _ => none

/-- A call leaves every buffer where it belongs, and refuses the ids that do not name a buffer
that is outstanding. -/
structure Keeps (types : MixerTypes) (this : SpaAudioMixer) (e : Event) : Prop where
  owns : (this.step types e).OwnsBuffers
  refusesInput : e = .processInput → this.runs → ∀ p < maxPorts, (this.inPorts p).RefusesInput
  refuses : ∀ id ∈ this.givenBack e, ¬ this.outPort.Gave id →
    this.outPort.recycleBuffer id = this.outPort

/-- The ids that a call looks at are known, a port is not added while it has buffers on its queue,
and the buffers that a port is to use are taken. -/
def Orderly (types : MixerTypes) (this : SpaAudioMixer) (e : Event) : Prop :=
  (∀ id ∈ this.givenBack e, this.outPort.Knows id) ∧
    match e with
    | .addPort direction p => this.CheckFreeInPort direction p → (this.inPorts p).queue = []
    | .portUseBuffers direction p bs =>
      this.CheckPort direction p → (this.port direction p).Takes types direction bs
    | .processInput => this.runs → ∀ p < maxPorts, (this.inPorts p).KnowsInput
    | _ => True

-- By name: there are finitely many ids, and all of them would be tried.
instance (this : SpaAudioMixer) (e : Event) :
    Decidable (∀ id ∈ this.givenBack e, this.outPort.Knows id) :=
  Option.decidableForallMem (this.givenBack e)

instance (types : MixerTypes) (this : SpaAudioMixer) : ∀ e, Decidable (Orderly types this e)
  | .addPort direction p =>
    inferInstanceAs (Decidable (_ ∧
      (this.CheckFreeInPort direction p → (this.inPorts p).queue = [])))
  | .portUseBuffers direction p bs =>
    inferInstanceAs (Decidable (_ ∧
      (this.CheckPort direction p → (this.port direction p).Takes types direction bs)))
  | .processInput =>
    inferInstanceAs (Decidable (_ ∧
      (this.runs → ∀ p < maxPorts, (this.inPorts p).KnowsInput)))
  | .removePort _ _ => inferInstanceAs (Decidable (_ ∧ True))
  | .portSetFormat _ _ _ => inferInstanceAs (Decidable (_ ∧ True))
  | .portSetIo _ _ _ => inferInstanceAs (Decidable (_ ∧ True))
  | .portReuseBuffer _ _ => inferInstanceAs (Decidable (_ ∧ True))
  | .processOutput => inferInstanceAs (Decidable (_ ∧ True))
  | .writeIo _ _ _ => inferInstanceAs (Decidable (_ ∧ True))
  | .fill _ _ _ _ _ => inferInstanceAs (Decidable (_ ∧ True))

/-- What holds between the calls. -/
structure Owned (this : SpaAudioMixer) : Prop extends OwnsBuffers this where
  linked : this.outPort.linked

variable {types : MixerTypes} {this : SpaAudioMixer} {e : Event} {output : SpaMixerIO}
  {port : SpaAudioMixerPort} {direction : PinosDirection} {n o p : Nat}

theorem owned_init : init.Owned where
  inputs _ _ := owns_empty rfl rfl rfl
  output := owns_empty rfl rfl rfl
  linked := rfl

/-! ## Calls about a port -/

theorem Owned.setInput (h : this.Owned) (hport : p < maxPorts → port.OwnsBuffers) :
    (this.setPort port .input p).Owned := by
  refine ⟨⟨fun q hq => ?_, h.output⟩, h.linked⟩
  show (Function.update this.inPorts p port q).OwnsBuffers
  by_cases he : q = p
  · rw [he, Function.update_self]
    exact hport (he ▸ hq)
  · rw [Function.update_of_ne he]
    exact h.inputs q hq

theorem Owned.withOut (h : this.Owned) (hport : port.OwnsBuffers) (hlinked : port.linked) :
    { this with outPort := port }.Owned :=
  ⟨⟨h.inputs, hport⟩, hlinked⟩

/-- A call that changes a port with its lists as they should be. -/
theorem Owned.setPort (h : this.Owned)
    (hport : this.CheckPort direction p →
      port.OwnsBuffers ∧ port.linked = (this.port direction p).linked) :
    (if this.CheckPort direction p then this.setPort port direction p else this).Owned := by
  split
  next hcheck =>
    obtain ⟨howns, hlinked⟩ := hport hcheck
    cases direction with
    | input => exact h.setInput fun _ => howns
    | output => exact h.withOut howns (hlinked.trans h.linked)
  · exact h

theorem OwnsBuffers.checked (h : this.OwnsBuffers) (hcheck : this.CheckPort direction p) :
    (this.port direction p).OwnsBuffers := by
  cases direction with
  | input => exact h.inputs p hcheck.1
  | output => exact h.output

theorem OwnsBuffers.of_setPort (h : (this.setPort port direction p).OwnsBuffers)
    (hcheck : this.CheckPort direction p) : port.OwnsBuffers := by
  cases direction with
  | input =>
    have hport : (Function.update this.inPorts p port p).OwnsBuffers := h.inputs p hcheck.1
    rw [Function.update_self] at hport
    exact hport
  | output => exact h.output

theorem Owned.port_linked (h : this.Owned) :
    direction = .output → (this.port direction p).linked := by
  rintro rfl
  exact h.linked

theorem portSetFormat_eq {format : Option SpaMixerFormat} :
    (this.portSetFormat types direction p format).1 =
      if this.CheckPort direction p then
        this.setPort ((this.port direction p).setFormat types format).1 direction p
      else this := by
  unfold portSetFormat
  split <;> rfl

theorem portUseBuffers_eq {bs : List SpaAudioBuffer} :
    (this.portUseBuffers types direction p bs).1 =
      if this.CheckPort direction p then
        this.setPort ((this.port direction p).useBuffers types direction bs).1 direction p
      else this := by
  unfold portUseBuffers
  split <;> rfl

theorem Owned.addPort (h : this.Owned)
    (hnil : this.CheckFreeInPort direction p → (this.inPorts p).queue = []) :
    (this.addPort direction p).1.Owned := by
  unfold SpaAudioMixer.addPort
  split
  next hfree =>
    cases direction with
    | output => exact hfree.elim
    | input =>
      refine h.setInput fun hp => ?_
      have howns := h.inputs p hp
      have hlinks := howns.links
      rw [hnil hfree] at hlinks
      exact ⟨hlinks, fun _ => rfl, howns.fits, howns.sound⟩
  · exact h

/-- The queue of a port that is added was empty, if its buffers are where they belong then. -/
theorem OwnsBuffers.queue_nil (h : this.OwnsBuffers)
    (howns : (this.addPort direction p).1.OwnsBuffers) (hfree : this.CheckFreeInPort direction p) :
    (this.inPorts p).queue = [] := by
  cases direction with
  | output => exact hfree.elim
  | input =>
    have hport := howns.inputs p hfree.1
    have hsame : (this.addPort .input p).1.inPorts p = (this.inPorts p).initQueue := by
      rw [SpaAudioMixer.addPort, if_pos hfree]
      exact Function.update_self _ _ _
    rw [hsame] at hport
    have hout := Links.nil_iff.mp hport.links
    refine List.eq_nil_iff_forall_not_mem.mpr fun i hi => ?_
    have hlinks := (h.inputs p hfree.1).links
    have hi' := hlinks.inside i hi
    rw [hlinks.mem_iff hi'] at hi
    exact Bool.false_ne_true (hi.symm.trans (hout i hi'))

theorem Owned.withIo (h : this.Owned) (f : Option SpaMixerIO → Option SpaMixerIO) :
    (this.setPort { this.port direction p with io := f (this.port direction p).io }
      direction p).Owned := by
  cases direction with
  | input =>
    exact h.setInput fun hp =>
      have howns := h.inputs p hp
      ⟨howns.links, howns.linked, howns.fits, howns.sound⟩
  | output =>
    exact h.withOut ⟨h.output.links, h.output.linked, h.output.fits, h.output.sound⟩ h.linked

theorem Owned.fill {i : Nat} {data : ByteMem.Mem} {chunkOffset chunkSize : UInt32}
    (h : this.Owned) : (this.fill p i data chunkOffset chunkSize).Owned := by
  refine h.setInput fun hp => ?_
  have howns := h.inputs p hp
  dsimp only
  split
  · refine ⟨?_, howns.linked, howns.fits, howns.sound⟩
    refine howns.links.congr fun j _ => ?_
    refine (congrFun (out_update _ i _) j).trans ?_
    exact congrFun (Function.update_eq_self i (this.inPorts p).out) j
  · exact howns

/-! ## Calls that process -/

theorem Owned.queued (h : this.Owned) (hknows : ∀ p < maxPorts, (this.inPorts p).KnowsInput) :
    this.queued.Owned := by
  refine ⟨⟨fun p hp => ?_, h.output⟩, h.linked⟩
  rw [queued_inPorts hp]
  exact (h.inputs p hp).queueInput (hknows p hp)

theorem Owned.mixOutput (h : this.Owned) (output : SpaMixerIO) (n : Nat) :
    (this.mixOutput output n).1.Owned := by
  unfold SpaAudioMixer.mixOutput
  cases hqueue : this.outPort.queue with
  | nil => exact h
  | cons o rest =>
    refine ⟨⟨fun p hp => ?_, ?_⟩, ?_⟩
    · rw [mixInto_inPorts hp]
      exact (h.inputs p hp).mixed _
    · rw [mixInto_outPort]
      exact ⟨h.output.pop hqueue _ rfl, h.output.linked, h.output.fits, h.output.sound⟩
    · rw [mixInto_outPort]
      exact h.linked

theorem Owned.setStatus (h : this.Owned) (status : SpaResult) : (this.setStatus status).Owned :=
  h.withOut ⟨h.output.links, h.output.linked, h.output.fits, h.output.sound⟩ h.linked

theorem Owned.processInput (h : this.Owned)
    (hknows : this.runs → ∀ p < maxPorts, (this.inPorts p).KnowsInput) :
    this.processInput.1.Owned := by
  unfold SpaAudioMixer.processInput
  cases hio : this.outPort.io with
  | none => exact h
  | some output =>
    by_cases hstatus : output.status = .haveBuffer
    · dsimp only
      rw [if_pos hstatus]
      exact h
    have hruns : this.runs := by
      rw [runs_eq hio]
      exact bne_iff_ne.mpr hstatus
    have hqueued : (queueInputs (List.range maxPorts) this sizeMax).1.Owned := by
      rw [queueInputs_eq List.nodup_range]
      exact h.queued (hknows hruns)
    dsimp only
    rw [if_neg hstatus]
    split
    · exact (hqueued.mixOutput output _).setStatus _
    · exact hqueued.setStatus _

theorem Owned.recycled (h : this.Owned)
    (hknows : output.bufferId ≠ spaIdInvalid → this.outPort.Knows output.bufferId) :
    (this.recycled output).Owned := by
  unfold SpaAudioMixer.recycled
  split
  · exact h
  next hid =>
    have howns := h.output.recycleBuffer (hknows hid)
    refine h.withOut ⟨howns.links, howns.linked, howns.fits, howns.sound⟩ ?_
    show (this.outPort.recycleBuffer output.bufferId).linked
    rw [linked_recycleBuffer]
    exact h.linked

theorem Owned.produceOutput (h : this.Owned) (output : SpaMixerIO) :
    (this.produceOutput output).1.Owned := by
  unfold SpaAudioMixer.produceOutput
  dsimp only
  split
  · exact (h.mixOutput output _).setStatus _
  · refine ⟨⟨fun p hp => ?_, h.output⟩, h.linked⟩
    dsimp only
    rw [if_pos hp]
    unfold askInput
    have howns := h.inputs p hp
    split
    · exact howns
    · exact ⟨howns.links, howns.linked, howns.fits, howns.sound⟩

theorem givenBack_output (hio : this.outPort.io = some output)
    (hstatus : output.status ≠ .haveBuffer) (hid : output.bufferId ≠ spaIdInvalid) :
    this.givenBack .processOutput = some output.bufferId := by
  rw [givenBack, hio]
  exact if_pos ⟨hstatus, hid⟩

theorem Owned.processOutput (h : this.Owned)
    (hknows : ∀ id ∈ this.givenBack .processOutput, this.outPort.Knows id) :
    this.processOutput.1.Owned := by
  cases hio : this.outPort.io with
  | none =>
    rw [SpaAudioMixer.processOutput, hio]
    exact h
  | some output =>
    by_cases hstatus : output.status = .haveBuffer
    · rw [SpaAudioMixer.processOutput, hio]
      dsimp only
      rw [if_pos hstatus]
      exact h
    obtain ⟨output', -, -, hproduce⟩ := processOutput_eq hio hstatus
    rw [hproduce]
    refine (h.recycled fun hid => ?_).produceOutput output'
    exact hknows output.bufferId (givenBack_output hio hstatus hid)

theorem Owned.portReuseBuffer {id : UInt32} (h : this.Owned)
    (hknows : this.CheckPort .output p → this.outPort.Knows id) :
    (this.portReuseBuffer p id).1.Owned := by
  unfold SpaAudioMixer.portReuseBuffer
  split
  next hcheck =>
    exact h.withOut (h.output.recycleBuffer (hknows hcheck)) (linked_recycleBuffer.trans h.linked)
  · exact h

/-! ## Runs -/

/-- A call that is orderly leaves every buffer where it belongs. -/
theorem Owned.step (h : this.Owned) (horderly : Orderly types this e) :
    (this.step types e).Owned := by
  obtain ⟨hknows, hcall⟩ := horderly
  cases e with
  | addPort direction p => exact h.addPort hcall
  | removePort direction p =>
    show (this.removePort direction p).1.Owned
    unfold SpaAudioMixer.removePort
    split
    · exact @Owned.withIo this .input p h fun _ => none
    · exact h
  | portSetFormat direction p format =>
    show (this.portSetFormat types direction p format).1.Owned
    rw [portSetFormat_eq]
    exact h.setPort fun hcheck => (h.checked hcheck).setFormat
  | portUseBuffers direction p bs =>
    show (this.portUseBuffers types direction p bs).1.Owned
    rw [portUseBuffers_eq]
    exact h.setPort fun hcheck => (h.checked hcheck).useBuffers h.port_linked (hcall hcheck)
  | portSetIo direction p io =>
    show (this.portSetIo direction p io).1.Owned
    unfold SpaAudioMixer.portSetIo
    split
    · exact h.withIo fun _ => io
    · exact h
  | portReuseBuffer p id =>
    refine h.portReuseBuffer fun hcheck => hknows id ?_
    exact if_pos hcheck
  | processInput => exact h.processInput hcall
  | processOutput => exact h.processOutput hknows
  | writeIo direction p io => exact h.withIo fun old => old.map fun _ => io
  | fill p i data chunkOffset chunkSize => exact h.fill

/-- A call keeps the lists right and refuses what it has to just when it is orderly. -/
theorem Owned.orderly_iff (h : this.Owned) : Keeps types this e ↔ Orderly types this e := by
  constructor
  · intro hkeeps
    refine ⟨fun id hid => h.output.refuses_iff.mp (hkeeps.refuses id hid), ?_⟩
    cases e with
    | addPort direction p => exact fun hfree => h.queue_nil hkeeps.owns hfree
    | portUseBuffers direction p bs =>
      intro hcheck
      have howns : (this.portUseBuffers types direction p bs).1.OwnsBuffers := hkeeps.owns
      rw [portUseBuffers_eq, if_pos hcheck] at howns
      exact (h.checked hcheck).takes h.port_linked (howns.of_setPort hcheck)
    | processInput =>
      exact fun hruns p hp =>
        (h.inputs p hp).refusesInput_iff.mp (hkeeps.refusesInput rfl hruns p hp)
    | _ => trivial
  · intro horderly
    refine ⟨(h.step horderly).toOwnsBuffers, ?_, fun id hid => ?_⟩
    · rintro rfl hruns p hp
      exact (h.inputs p hp).refusesInput_iff.mpr (horderly.2 hruns p hp)
    · exact h.output.refuses_iff.mpr (horderly.1 id hid)

/-- Every call of a run keeps each buffer on its queue or with the other side, and refuses the ids
that do not name a buffer on the other side, just when the calls of the run are orderly. -/
theorem keepsBuffers_iff (types : MixerTypes) (es : List Event) :
    Run.Along (step types) (Keeps types) init es ↔
      Run.Along (step types) (Orderly types) init es :=
  @Run.along_iff _ _ _ _ _ (fun _ _ => True) _ Owned (fun _ _ h _ => h.orderly_iff)
    (fun _ _ h _ horderly => h.step horderly) _ owned_init
    (Run.along_of_forall fun _ _ => trivial)

section Example

/-- An input port of one buffer after a set of two, with the id of the other buffer in its io. -/
def smallerRun : List Event :=
  [.addPort .input 0, .portSetIo .input 0 (some idleIo), .portSetIo .output 0 (some idleIo),
    .portSetFormat .input 0 (some ⟨1, 2, true⟩),
    .portUseBuffers .input 0 [⟨0, 3, some fun _ => 0, 4, 0, 4⟩, ⟨1, 3, some fun _ => 0, 4, 0, 4⟩],
    .portSetFormat .input 0 none, .portSetFormat .input 0 (some ⟨1, 2, true⟩),
    .portUseBuffers .input 0 [⟨0, 3, some fun _ => 0, 4, 0, 4⟩],
    .writeIo .input 0 ⟨⟨.haveBuffer, 1⟩, ⟨0, 0, 0⟩⟩]

theorem keepsBuffers_smaller : Run.Along (step someTypes) (Keeps someTypes) init smallerRun :=
  (keepsBuffers_iff someTypes smallerRun).mpr (by decide +kernel)

/-- The buffer of the earlier set is queued. -/
theorem not_keepsBuffers :
    ¬ ∀ es, Run.Along (step someTypes) (Keeps someTypes) init es := by
  intro h
  have hlast := (Run.along_append.mp (h (smallerRun ++ [.processInput]))).2.1
  have hrefuses := hlast.refusesInput rfl (by decide +kernel) 0 (by decide)
  have hqueue := hrefuses.queue_eq ⟨⟨.haveBuffer, 1⟩, ⟨0, 0, 0⟩⟩ rfl (by decide +kernel)
    (by decide +kernel) (by decide +kernel)
  have hnil : ((Run.run (step someTypes) init smallerRun).inPorts 0).queue = [] := by
    decide +kernel
  have hone : ((Run.run (step someTypes) init smallerRun).inPorts 0).queueInput.queue = [1] := by
    decide +kernel
  exact List.cons_ne_nil _ _ (hone.symm.trans (hqueue.trans hnil))

end Example

end SpaAudioMixer
end Pinos
