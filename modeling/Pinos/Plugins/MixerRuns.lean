import Mathlib.Data.List.Find
import Pinos.Lib.Run
import Pinos.Plugins.MixerCalls

/-
Runs of the mixer: what is queued on a port goes out once, in order, as long as the calls fit.
-/

namespace Pinos

open ByteMem SpaAudioMixerPort

namespace SpaAudioMixerPort

theorem length_contribution {port : SpaAudioMixerPort} {n : Nat} {c : List UInt8}
    (h : port.Good) (hready : port.Ready n) (hc : port.contribution n = some c) :
    c.length = n := by
  rcases h.mix_cases hready (fun _ => 0) 0 with ⟨hnone, -⟩ | ⟨c', hsome, hlen, -⟩
  · rw [hc] at hnone
    exact nomatch hnone
  · rw [hc] at hsome
    rw [Option.some.inj hsome]
    exact hlen

end SpaAudioMixerPort

namespace SpaAudioMixer

variable {types : MixerTypes} {this : SpaAudioMixer} {e : Event} {output : SpaMixerIO}
  {n o p : Nat} {rest : List Nat}

/-! ## Mixing -/

/-- The input ports in the order of the loops. -/
def inputs (this : SpaAudioMixer) : List SpaAudioMixerPort :=
  (List.range maxPorts).map this.inPorts

theorem forall_inputs {P : SpaAudioMixerPort → Prop} (h : ∀ p < maxPorts, P (this.inPorts p)) :
    ∀ port ∈ this.inputs, P port := by
  intro port hport
  obtain ⟨p, hp, rfl⟩ := List.mem_map.mp hport
  exact h p (List.mem_range.mp hp)

/-- How many bytes are mixed into a buffer. -/
def roomFor (this : SpaAudioMixer) (n o : Nat) : Nat :=
  min n (this.outPort.buffers o).outbuf.maxsize.toNat

theorem mixInto_inPorts (hp : p < maxPorts) :
    (this.mixInto output n o).inPorts p = (this.inPorts p).mixed (this.roomFor n o) := by
  unfold mixInto
  dsimp only
  rw [mixPorts_eq List.nodup_range]
  exact if_pos (List.mem_range.mpr hp)

theorem mixInto_outPort :
    (this.mixInto output n o).outPort =
      { this.outPort with
        queue := this.outPort.queue.tail
        buffers := Function.update this.outPort.buffers o
          { outbuf :=
              { (this.outPort.buffers o).outbuf with
                data := (this.outPort.buffers o).outbuf.data.map fun _ =>
                  mixMem (this.roomFor n o) this.inputs 0 (this.outPort.buffers o).outbuf.memory
                chunkOffset := 0
                chunkSize := .ofNat (this.roomFor n o) }
            outstanding := true }
        io := some { output with
          bufferId := (this.outPort.buffers o).outbuf.id, status := .haveBuffer } } := by
  unfold mixInto inputs roomFor
  dsimp only
  rw [mixPorts_eq List.nodup_range]

theorem roomFor_lt : this.roomFor n o < 2 ^ 32 :=
  Nat.lt_of_le_of_lt (Nat.min_le_right _ _) (this.outPort.buffers o).outbuf.maxsize.toNat_lt

theorem Inv.mixInto (h : this.Inv) (hqueue : this.outPort.queue = o :: rest)
    (hready : ∀ p < maxPorts, (this.inPorts p).Ready (this.roomFor n o)) :
    (this.mixInto output n o).Inv := by
  refine ⟨fun p hp => ?_, ?_⟩
  · rw [mixInto_inPorts hp]
    exact ((h.ports p hp).mixed (hready p hp)).1
  · have hnodup := h.out.nodup
    rw [hqueue, List.nodup_cons] at hnodup
    have htail : this.outPort.queue.tail = rest := by rw [hqueue]; rfl
    have hne : ∀ j ∈ rest, j ≠ o := fun j hj he => hnodup.1 (he ▸ hj)
    rw [mixInto_outPort]
    constructor
    · exact h.out.linked
    · intro j hj
      change j ∈ this.outPort.queue.tail at hj
      rw [htail] at hj
      dsimp only
      rw [Function.update_of_ne (hne j hj)]
      exact h.out.fresh j (by rw [hqueue]; exact List.mem_cons_of_mem o hj)
    · show this.outPort.queue.tail.Nodup
      rw [htail]
      exact hnodup.2
    · intro j hj
      dsimp only at hj ⊢
      by_cases he : j = o
      · rw [he, Function.update_self, Option.isSome_map]
        exact h.out.filled o (.inl (by rw [hqueue]; exact List.mem_cons_self))
      · rw [Function.update_of_ne he] at hj ⊢
        refine h.out.filled j (hj.imp_left fun hmem => ?_)
        rw [htail] at hmem
        rw [hqueue]
        exact List.mem_cons_of_mem o hmem
    · exact h.out.fault

/-- The output buffer holds the step-by-step sum of what the ports gave. -/
theorem Inv.sums_mixInto (h : this.Inv) (hqueue : this.outPort.queue = o :: rest)
    (hready : ∀ p < maxPorts, (this.inPorts p).Ready (this.roomFor n o))
    (hfirst : this.roomFor n o ≠ 0 →
      ∀ port ∈ this.inputs.find? (decide <| Queued ·), port.unread ≠ [])
    (hsome : this.inputs.filterMap (contribution (this.roomFor n o)) ≠ [])
    (hwhole : this.roomFor n o % 2 = 1 →
      (this.inputs.filterMap (contribution (this.roomFor n o))).length ≤ 1) :
    ((this.mixInto output n o).outPort.buffers o).outbuf.Sums
      (this.inputs.filterMap (contribution (this.roomFor n o))) := by
  have hgood := forall_inputs h.ports
  have hready' := forall_inputs hready
  have hsize : (UInt32.ofNat (this.roomFor n o)).toNat = this.roomFor n o := by
    rw [UInt32.toNat_ofNat']
    exact Nat.mod_eq_of_lt roomFor_lt
  have hdata : (this.outPort.buffers o).outbuf.data.isSome :=
    h.out.filled o (.inl (by rw [hqueue]; exact List.mem_cons_self))
  obtain ⟨data, hdata⟩ := Option.isSome_iff_exists.mp hdata
  obtain ⟨c, cs, hcs⟩ := List.exists_cons_of_ne_nil hsome
  rw [mixInto_outPort]
  dsimp only
  rw [Function.update_self]
  generalize hm : this.roomFor n o = m at *
  -- What is in the buffer are the bytes of the mix.
  have hbytes : SpaAudioBuffer.bytes
      { (this.outPort.buffers o).outbuf with
        data := (this.outPort.buffers o).outbuf.data.map fun _ =>
          mixMem m this.inputs 0 (this.outPort.buffers o).outbuf.memory
        chunkOffset := 0
        chunkSize := .ofNat m } =
      (mixMem m this.inputs 0 (this.outPort.buffers o).outbuf.memory).read 0 m := by
    unfold SpaAudioBuffer.bytes SpaAudioBuffer.memory
    dsimp only
    rw [hsize, hdata, Option.map_some, Option.getD_some, UInt32.toNat_zero]
  unfold SpaAudioBuffer.Sums
  rw [hbytes]
  dsimp only
  rw [hsize]
  refine ⟨fun c hc => ?_, fun k hk => ?_, fun hodd => ?_⟩
  · obtain ⟨port, hport, hcontribution⟩ := List.mem_filterMap.mp hc
    exact length_contribution (hgood port hport) (hready' port hport) hcontribution
  · have hmix := @mixMem_first _ _ (this.outPort.buffers o).outbuf.memory _ _ hgood hready'
      (hfirst (by omega)) hcs
    rw [Mem.sampleAt_read _ _ hk, Nat.zero_add, hmix.1 k hk, hcs]
  · have hmix := @mixMem_first _ _ (this.outPort.buffers o).outbuf.memory _ _ hgood hready'
      (hfirst (by omega)) hcs
    have hone := hwhole hodd
    rw [hcs] at hone ⊢
    have hnil : cs = [] := List.length_eq_zero_iff.mp (by rw [List.length_cons] at hone; omega)
    rw [hnil]
    exact ⟨c, rfl, hmix.2 hnil⟩

/-! ## Calls that process -/

/-- The state in which a call mixes. -/
structure Staged (this : SpaAudioMixer) (e : Event) (s : SpaAudioMixer) : Prop where
  inv : s.Inv
  active : ∀ p < maxPorts, (s.inPorts p).active = (this.inPorts p).active
  unread : ∀ p < maxPorts, (s.inPorts p).unread = this.offered e p
  queue : ∀ p < maxPorts, (s.inPorts p).queue = this.held e p
  size : ∀ p < maxPorts, ∀ i, (s.inPorts p).size i = (this.inPorts p).size i
  free : s.outPort.queue = this.freeBuffers e
  room : ∀ o, (s.outPort.buffers o).outbuf = (this.outPort.buffers o).outbuf

section Staged

variable {s : SpaAudioMixer}

/-- A list over the ports that are ready, from one over all. -/
theorem filterMap_ready {α : Type} {f : SpaAudioMixerPort → Option α} {g : Nat → α}
    (hf : ∀ p < maxPorts, f (s.inPorts p) =
      if (this.inPorts p).active ∧ this.offered e p ≠ [] then some (g p) else none) :
    s.inputs.filterMap f = (this.ready e).map g := by
  rw [inputs, ready, List.filterMap_map, ← List.filterMap_eq_map, List.filterMap_filter]
  refine List.filterMap_congr fun p hp => ?_
  rw [Function.comp_apply, hf p (List.mem_range.mp hp)]
  simp only [decide_eq_true_eq, Function.comp_apply]

theorem Staged.someBytes (h : Staged this e s) :
    s.inputs.filterMap someBytes = (this.ready e).map fun p => (this.offered e p).length := by
  refine filterMap_ready fun p hp => ?_
  have hgood := h.inv.ports p hp
  rw [← h.unread p hp, ← h.active p hp, SpaAudioMixer.someBytes, ← hgood.length_unread]
  simp only [List.length_pos_iff]

theorem Staged.contributions (h : Staged this e s) :
    s.inputs.filterMap (contribution n) = (this.ready e).map fun p => (this.offered e p).take n := by
  refine filterMap_ready fun p hp => ?_
  rw [← h.unread p hp, ← h.active p hp, contribution]

theorem Staged.first (h : Staged this e s)
    (hfirst : ∀ p ∈ (List.range maxPorts).find? fun p =>
      (this.inPorts p).active ∧ this.held e p ≠ [], this.offered e p ≠ []) :
    ∀ port ∈ s.inputs.find? (decide <| Queued ·), port.unread ≠ [] := by
  intro port hport
  rw [inputs, List.find?_map] at hport
  obtain ⟨p, hfind, rfl⟩ := Option.mem_map.mp hport
  have hp : p < maxPorts := List.mem_range.mp (List.mem_of_find?_eq_some hfind)
  have hsame : ∀ q ∈ List.range maxPorts, (decide <| Queued ·) (s.inPorts q) =
      decide ((this.inPorts q).active = true ∧ this.held e q ≠ []) := fun q hq => by
    have hq := List.mem_range.mp hq
    simp only [Queued, h.queue q hq, h.active q hq]
  rw [h.unread p hp]
  refine hfirst p ?_
  rw [← List.find?_congr hsame]
  exact hfind

/-- The least number of bytes that a port has which is ready. -/
def least (this : SpaAudioMixer) (e : Event) : Nat :=
  ((this.ready e).map fun p => (this.offered e p).length).foldl min sizeMax

/-- The least number of bytes, once it is cut to the room of a buffer. -/
theorem Staged.roomFor_eq (h : Staged this e s) (hqueue : s.outPort.queue = o :: rest)
    (hready : this.ready e ≠ []) :
    s.roomFor (this.least e) o = min sizeMax (this.leastSize e) := by
  have hhead : (this.freeBuffers e).head? = some o := by rw [← h.free, hqueue]; rfl
  have hne : (this.ready e).map (fun p => (this.offered e p).length) ≠ [] := by
    simpa using hready
  rw [roomFor, least, leastSize, hhead, Option.map_some, Option.getD_some, h.room, List.foldl_min,
    List.foldl_min, Nat.min_assoc]
  congr 1
  obtain ⟨x, xs, hx⟩ := List.exists_cons_of_ne_nil hne
  rw [hx, List.min?_cons', Option.getD_some, Option.getD_some, Nat.min_comm]

/-- A call that makes no output leaves the bytes where they are. -/
theorem right_of_quiet (hinv : (this.step types e).Inv)
    (hunread : ∀ p < maxPorts, ((this.step types e).inPorts p).unread = this.offered e p)
    (hproduced : this.produced types e = none) : Right types this e where
  counted p hp := (hinv.ports p hp).counted
  conserved p hp := by
    have htaken : this.taken types e p = [] := by
      rw [taken, mixedSize, hproduced]
      exact ite_self []
    rw [hunread p hp, htaken, List.nil_append]
    rfl
  summed b hb := by
    rw [hproduced] at hb
    exact nomatch hb
  sound := ⟨fun p hp => (hinv.ports p hp).fault, hinv.out.fault⟩

/-- The calls that process. -/
def IsProcess (e : Event) : Prop := e = .processInput ∨ e = .processOutput

theorem produced_eq (he : IsProcess e) :
    this.produced types e =
      if this.runs ∧ ¬ (this.step types e).runs then
        (this.freeBuffers e).head?.map fun o =>
          ((this.step types e).outPort.buffers o).outbuf
      else none := by
  rcases he with rfl | rfl <;> rfl

theorem runs_setStatus {status : SpaResult} (hio : s.outPort.io.isSome) :
    (s.setStatus status).runs = (status != .haveBuffer) := by
  obtain ⟨io, hio⟩ := Option.isSome_iff_exists.mp hio
  rw [runs, setStatus]
  dsimp only
  rw [hio]
  rfl

theorem buffers_setStatus (s : SpaAudioMixer) (status : SpaResult) :
    (s.setStatus status).outPort.buffers = s.outPort.buffers := rfl

theorem inPorts_setStatus (s : SpaAudioMixer) (status : SpaResult) :
    (s.setStatus status).inPorts = s.inPorts := rfl

theorem Inv.setStatus (h : s.Inv) (status : SpaResult) : (s.setStatus status).Inv :=
  ⟨h.ports, h.out.congr rfl rfl rfl rfl⟩

/-- The call ends without a mix. -/
theorem Staged.quiet {status : SpaResult} (h : Staged this e s) (he : IsProcess e)
    (hio : s.outPort.io.isSome) (hstatus : status ≠ .haveBuffer)
    (hstep : this.step types e = s.setStatus status) :
    Right types this e ∧ (this.step types e).Inv := by
  have hinv : (this.step types e).Inv := hstep ▸ h.inv.setStatus status
  refine ⟨right_of_quiet hinv (fun p hp => ?_) ?_, hinv⟩
  · rw [hstep]
    exact h.unread p hp
  · rw [produced_eq he, hstep, runs_setStatus hio, if_neg]
    exact fun hall => hall.2 (bne_iff_ne.mpr hstatus)

theorem foldl_min_le {l : List Nat} {a x : Nat} (h : x ∈ l) : l.foldl min a ≤ x := by
  obtain ⟨m, hm⟩ := Option.isSome_iff_exists.mp (List.isSome_min?_of_mem h)
  rw [List.foldl_min, hm, Option.getD_some]
  exact Nat.le_trans (Nat.min_le_right a m) ((List.le_min?_iff hm).mp (Nat.le_refl m) x h)

/-- Each port is ready for the mix. -/
theorem Staged.ready_roomFor (h : Staged this e s) (hqueue : s.outPort.queue = o :: rest)
    (hready : this.ready e ≠ [])
    (hheads : s.roomFor (this.least e) o ≠ 0 → ∀ p ∈ this.ready e, ∀ i ∈ (this.held e p).head?, (this.inPorts p).size i ≠ 0) :
    ∀ p < maxPorts, (s.inPorts p).Ready (s.roomFor (this.least e) o) := by
  intro p hp hactive
  have hgood := h.inv.ports p hp
  by_cases hzero : s.roomFor (this.least e) o = 0
  · exact .inl hzero
  by_cases hbytes : (s.inPorts p).queuedBytes = 0
  · exact .inr (.inl hbytes)
  have hmem : p ∈ this.ready e := by
    refine List.mem_filter.mpr ⟨List.mem_range.mpr hp, decide_eq_true ⟨?_, ?_⟩⟩
    · rw [← h.active p hp]
      exact hactive
    · rw [← h.unread p hp]
      exact fun hnil => hbytes (hgood.unread_eq_nil.mp hnil)
  refine .inr (.inr ⟨?_, fun i hi => ?_⟩)
  · rw [h.roomFor_eq hqueue hready, ← hgood.length_unread, h.unread p hp]
    refine Nat.le_trans (Nat.min_le_right _ _) ?_
    exact foldl_min_le (List.mem_map_of_mem hmem)
  · rw [h.size p hp]
    rw [h.queue p hp] at hi
    exact hheads hzero p hmem i hi

theorem Staged.roomFor_zero (h : Staged this e s) (hqueue : s.outPort.queue = o :: rest)
    (hroom : s.roomFor (this.least e) o ≠ 0) :
    ∃ o ∈ (this.freeBuffers e).head?, (this.outPort.buffers o).outbuf.maxsize ≠ 0 := by
  refine ⟨o, by rw [← h.free, hqueue]; rfl, fun hmax => hroom ?_⟩
  rw [roomFor, h.room, hmax]
  exact Nat.min_zero _

/-- The call mixes into the first free buffer. -/
theorem Staged.mix (h : Staged this e s) (he : IsProcess e) (hruns : this.runs)
    (hqueue : s.outPort.queue = o :: rest) (hready : this.ready e ≠ [])
    (hfits : (∃ o ∈ (this.freeBuffers e).head?, (this.outPort.buffers o).outbuf.maxsize ≠ 0) →
      this.MixFits e)
    (hstep : this.step types e = (s.mixInto output (this.least e) o).setStatus .haveBuffer) :
    Right types this e ∧ (this.step types e).Inv := by
  obtain ⟨m, hm⟩ : ∃ m, m = s.roomFor (this.least e) o := ⟨_, rfl⟩
  have hfits : m ≠ 0 → this.MixFits e := fun hne =>
    hfits (h.roomFor_zero hqueue (hm ▸ hne))
  have hports := h.ready_roomFor hqueue hready fun hne => (hfits (hm ▸ hne)).1
  have hinv := @Inv.mixInto _ output _ _ _ h.inv hqueue hports
  have hafter : (this.step types e).Inv := hstep ▸ hinv.setStatus .haveBuffer
  have hruns' : ¬ (this.step types e).runs := by
    rw [hstep, runs_setStatus]
    · exact Bool.false_ne_true
    · rw [mixInto_outPort]
      rfl
  have hproduced : this.produced types e =
      some ((s.mixInto output (this.least e) o).outPort.buffers o).outbuf := by
    rw [produced_eq he, if_pos ⟨hruns, hruns'⟩, ← h.free, hqueue, hstep, buffers_setStatus,
      List.head?_cons, Option.map_some]
  have hsize : this.mixedSize types e = m := by
    rw [mixedSize, hproduced]
    dsimp only
    rw [mixInto_outPort]
    dsimp only
    rw [Function.update_self]
    dsimp only
    rw [UInt32.toNat_ofNat', ← hm, Nat.mod_eq_of_lt (hm ▸ roomFor_lt)]
  have htaken : (this.ready e).map (this.taken types e) =
      s.inputs.filterMap (contribution m) := by
    rw [h.contributions]
    refine List.map_congr_left fun p hp => ?_
    have hactive : (this.inPorts p).active = true :=
      (of_decide_eq_true (List.mem_filter.mp hp).2).1
    rw [taken, if_pos hactive, hsize]
  refine ⟨⟨fun p hp => (hafter.ports p hp).counted, fun p hp => ?_, fun b hb => ?_,
    fun p hp => (hafter.ports p hp).fault, hafter.out.fault⟩, hafter⟩
  · have hmixed := ((h.inv.ports p hp).mixed (hports p hp)).2
    have hsame : ((this.step types e).inPorts p).unread =
        ((s.inPorts p).mixed (s.roomFor (this.least e) o)).unread := by
      rw [hstep, inPorts_setStatus, mixInto_inPorts hp]
    show this.offered e p = _
    rw [hsame, hmixed, h.active p hp, h.unread p hp, taken, hsize, ← hm]
    split
    · exact (List.take_append_drop m _).symm
    · rfl
  · rw [hproduced] at hb
    obtain rfl := Option.some.inj hb
    rw [htaken, hm]
    refine h.inv.sums_mixInto hqueue hports (fun hne => h.first (hfits (hm ▸ hne)).2.1) ?_ ?_
    · rw [h.contributions]
      simpa using hready
    · intro hodd
      rw [h.contributions, List.length_map]
      have hne : m ≠ 0 := by omega
      rcases (hfits hne).2.2 with hone | heven
      · exact hone
      · have hlt : s.roomFor (this.least e) o < 2 ^ 32 := roomFor_lt
        rw [h.roomFor_eq hqueue hready] at hodd hlt
        unfold sizeMax at hodd hlt
        omega

/-- `mix_output`, and the status that is made of what it returns. -/
theorem Staged.mixOutput (h : Staged this e s) (he : IsProcess e) (hruns : this.runs)
    (hio : s.outPort.io.isSome) (hready : this.ready e ≠ [])
    (hfits : (∃ o ∈ (this.freeBuffers e).head?, (this.outPort.buffers o).outbuf.maxsize ≠ 0) →
      this.MixFits e)
    (hstep : this.step types e = (s.mixOutput output (this.least e)).1.setStatus
      (s.mixOutput output (this.least e)).2) :
    Right types this e ∧ (this.step types e).Inv := by
  rw [SpaAudioMixer.mixOutput] at hstep
  cases hqueue : s.outPort.queue with
  | nil =>
    rw [hqueue] at hstep
    have hstep : this.step types e = s.setStatus .outOfBuffers := hstep
    exact h.quiet he hio (by decide) hstep
  | cons o rest =>
    rw [hqueue] at hstep
    exact h.mix he hruns hqueue hready hfits hstep

end Staged

/-- A call that does not go to work. -/
theorem Inv.right_of_idle (h : this.Inv) (he : IsProcess e) (hruns : this.runs = false)
    (hstep : this.step types e = this) : Right types this e ∧ (this.step types e).Inv := by
  have hinv : (this.step types e).Inv := hstep.symm ▸ h
  have harrivals : ∀ p, this.arrivals e p = [] := fun p => by
    rcases he with rfl | rfl
    · exact if_neg (by rw [hruns]; exact Bool.false_ne_true)
    · rfl
  refine ⟨right_of_quiet hinv (fun p hp => ?_) ?_, hinv⟩
  · rw [hstep, offered, fed, harrivals, List.flatMap_nil, List.append_nil]
  · rw [produced_eq he, if_neg]
    exact fun hall => Bool.false_ne_true (hruns ▸ hall.1)

theorem runs_eq (hio : this.outPort.io = some output) :
    this.runs = (output.status != .haveBuffer) := by
  rw [runs, hio]

theorem least_of_nil (h : this.ready e = []) : this.least e = sizeMax := by
  rw [least, h]
  rfl

/-! ### Input -/

/-- The state when the buffers of the inputs were queued. -/
def queued (this : SpaAudioMixer) : SpaAudioMixer :=
  { this with inPorts := turned queueInput (List.range maxPorts) this.inPorts }

theorem queued_inPorts (hp : p < maxPorts) :
    this.queued.inPorts p = (this.inPorts p).queueInput :=
  if_pos (List.mem_range.mpr hp)

theorem inputs_queued :
    this.queued.inputs = (List.range maxPorts).map fun p => (this.inPorts p).queueInput :=
  List.map_congr_left fun _ hp => queued_inPorts (List.mem_range.mp hp)

theorem Inv.staged_queued (h : this.Inv) (hruns : this.runs)
    (hids : ∀ p < maxPorts, (this.inPorts p).IdInside) :
    Staged this .processInput this.queued := by
  have harrivals : ∀ p, this.arrivals .processInput p = (this.inPorts p).arriving := fun p =>
    if_pos hruns
  constructor
  · refine ⟨fun p hp => ?_, h.out⟩
    rw [queued_inPorts hp]
    exact ((h.ports p hp).queueInput (hids p hp)).1
  · intro p hp
    rw [queued_inPorts hp, active_queueInput]
  · intro p hp
    rw [queued_inPorts hp, ((h.ports p hp).queueInput (hids p hp)).2, offered, fed, harrivals]
  · intro p hp
    rw [queued_inPorts hp, queue_queueInput, held, harrivals]
  · intro p hp i
    rw [queued_inPorts hp, size_queueInput]
  · rfl
  · exact fun _ => rfl

theorem Inv.processInput (h : this.Inv) (hfits : Fits types this .processInput) :
    Right types this .processInput ∧ (this.step types .processInput).Inv := by
  have hstep : this.step types .processInput = this.processInput.1 := rfl
  cases hio : this.outPort.io with
  | none =>
    exact h.right_of_idle (.inl rfl) (by rw [runs, hio]) (by rw [hstep, SpaAudioMixer.processInput, hio])
  | some output =>
    by_cases hstatus : output.status = .haveBuffer
    · refine h.right_of_idle (.inl rfl) ?_ ?_
      · rw [runs_eq hio, hstatus]
        rfl
      · rw [hstep, SpaAudioMixer.processInput, hio]
        exact congrArg Prod.fst (if_pos hstatus)
    have hruns : this.runs := by
      rw [runs_eq hio]
      exact bne_iff_ne.mpr hstatus
    obtain ⟨hids, hmix⟩ := hfits hruns
    have hstaged := h.staged_queued hruns hids
    have hio' : this.queued.outPort.io.isSome := by
      show this.outPort.io.isSome
      rw [hio]
      rfl
    have hleast : queueInputs (List.range maxPorts) this sizeMax =
        (this.queued, this.least .processInput) := by
      rw [queueInputs_eq List.nodup_range, ← inputs_queued, hstaged.someBytes]
      rfl
    rw [SpaAudioMixer.processInput, hio] at hstep
    dsimp only at hstep
    rw [if_neg hstatus, hleast] at hstep
    dsimp only at hstep
    by_cases hsome : this.least .processInput ≠ sizeMax ∧ 0 < this.least .processInput
    · rw [if_pos hsome] at hstep
      have hready : this.ready .processInput ≠ [] := fun hnil => hsome.1 (least_of_nil hnil)
      exact hstaged.mixOutput (.inl rfl) hruns hio' hready
        (fun hroom => hmix ⟨(fun h => nomatch h), hready, hroom⟩) hstep
    · rw [if_neg hsome] at hstep
      exact hstaged.quiet (.inl rfl) hio' (by decide) hstep

/-! ### Output -/

/-- The state when the buffer of the output was recycled. -/
def recycled (this : SpaAudioMixer) (output : SpaMixerIO) : SpaAudioMixer :=
  if output.bufferId = spaIdInvalid then this
  else
    { this with
      outPort :=
        { this.outPort.recycleBuffer output.bufferId with
          io := some { output with bufferId := spaIdInvalid } } }

theorem outbuf_recycleBuffer {port : SpaAudioMixerPort} {id : UInt32} (o : Nat) :
    ((port.recycleBuffer id).buffers o).outbuf = (port.buffers o).outbuf := by
  unfold SpaAudioMixerPort.recycleBuffer
  dsimp only
  split
  · show (Function.update port.buffers id.toNat _ o).outbuf = _
    by_cases he : o = id.toNat
    · rw [he, Function.update_self]
    · rw [Function.update_of_ne he]
  · rfl

theorem Inv.staged_recycled (h : this.Inv) (hio : this.outPort.io = some output)
    (hruns : this.runs)
    (hid : output.bufferId ≠ spaIdInvalid → output.bufferId.toNat < maxBuffers) :
    Staged this .processOutput (this.recycled output) := by
  have hports : (this.recycled output).inPorts = this.inPorts := by
    unfold recycled
    split <;> rfl
  constructor
  · refine ⟨fun p hp => ?_, ?_⟩
    · rw [hports]
      exact h.ports p hp
    · unfold recycled
      split
      · exact h.out
      next hvalid => exact (h.out.recycleBuffer (hid hvalid)).congr rfl rfl rfl rfl
  · intro p _
    rw [hports]
  · intro p _
    rw [hports, offered, fed]
    exact (List.append_nil _).symm
  · intro p _
    rw [hports, held]
    exact (List.append_nil _).symm
  · intro p _ i
    rw [hports]
  · rw [freeBuffers, hio]
    unfold recycled
    dsimp only
    split
    next hinvalid => rw [if_neg fun hall => hall.2 hinvalid]
    next hvalid => rw [if_pos ⟨hruns, hvalid⟩]
  · intro o
    unfold recycled
    split
    · rfl
    · exact outbuf_recycleBuffer o

/-- Where every port that takes part has bytes, these are the ports that are ready. -/
theorem Staged.anyBytes {s : SpaAudioMixer} (h : Staged this e s)
    (hall : ∀ p < maxPorts, (this.inPorts p).active → this.offered e p ≠ []) :
    s.inputs.filterMap anyBytes = (this.ready e).map fun p => (this.offered e p).length := by
  refine filterMap_ready fun p hp => ?_
  rw [SpaAudioMixer.anyBytes, h.active p hp, ← (h.inv.ports p hp).length_unread, h.unread p hp]
  by_cases hactive : (this.inPorts p).active = true
  · rw [if_pos hactive, if_pos ⟨hactive, hall p hp hactive⟩]
  · rw [if_neg hactive, if_neg fun hboth => hactive hboth.1]

/-- The inputs are asked for data. -/
theorem Staged.ask {s : SpaAudioMixer} (h : Staged this .processOutput s)
    (hruns : s.runs)
    (hstep : this.step types .processOutput = { s with
      inPorts := fun p =>
        if p < maxPorts then (s.inPorts p).askInput output.range else s.inPorts p }) :
    Right types this .processOutput ∧ (this.step types .processOutput).Inv := by
  have hask : ∀ p < maxPorts, ((s.inPorts p).askInput output.range).Good ∧
      ((s.inPorts p).askInput output.range).unread = (s.inPorts p).unread := by
    intro p hp
    unfold askInput
    split
    · exact ⟨h.inv.ports p hp, rfl⟩
    · exact (h.inv.ports p hp).mapIo _
  have hports : ∀ p < maxPorts, (this.step types .processOutput).inPorts p =
      (s.inPorts p).askInput output.range := fun p hp => by
    rw [hstep]
    exact if_pos hp
  have hinv : (this.step types .processOutput).Inv := by
    refine ⟨fun p hp => ?_, ?_⟩
    · rw [hports p hp]
      exact (hask p hp).1
    · rw [hstep]
      exact h.inv.out
  refine ⟨right_of_quiet hinv (fun p hp => ?_) ?_, hinv⟩
  · rw [hports p hp, (hask p hp).2, h.unread p hp]
  · rw [produced_eq (.inr rfl), hstep, if_neg]
    exact fun hall => hall.2 hruns

theorem processOutput_eq (hio : this.outPort.io = some output)
    (hstatus : output.status ≠ .haveBuffer) :
    ∃ output', (this.recycled output).outPort.io = some output' ∧
      output'.status ≠ .haveBuffer ∧
      this.processOutput = (this.recycled output).produceOutput output' := by
  rw [SpaAudioMixer.processOutput, hio]
  dsimp only
  rw [if_neg hstatus]
  unfold recycled
  split
  · exact ⟨output, hio, hstatus, rfl⟩
  · exact ⟨_, rfl, hstatus, rfl⟩

theorem Inv.processOutput (h : this.Inv) (hfits : Fits types this .processOutput) :
    Right types this .processOutput ∧ (this.step types .processOutput).Inv := by
  have hstep : this.step types .processOutput = this.processOutput.1 := rfl
  cases hio : this.outPort.io with
  | none =>
    exact h.right_of_idle (.inr rfl) (by rw [runs, hio])
      (by rw [hstep, SpaAudioMixer.processOutput, hio])
  | some output =>
    by_cases hstatus : output.status = .haveBuffer
    · refine h.right_of_idle (.inr rfl) ?_ ?_
      · rw [runs_eq hio, hstatus]
        rfl
      · rw [hstep, SpaAudioMixer.processOutput, hio]
        exact congrArg Prod.fst (if_pos hstatus)
    have hruns : this.runs := by
      rw [runs_eq hio]
      exact bne_iff_ne.mpr hstatus
    obtain ⟨hid, hmix⟩ := hfits hruns
    have hstaged := h.staged_recycled hio hruns (hid output hio)
    obtain ⟨output', hio', hstatus', hproduce⟩ := processOutput_eq hio hstatus
    have hruns' : (this.recycled output).runs := by
      rw [runs_eq hio']
      exact bne_iff_ne.mpr hstatus'
    rw [hproduce, produceOutput, minQueued_eq] at hstep
    dsimp only at hstep
    by_cases hsome : ((this.recycled output).inputs.filterMap anyBytes).foldl min sizeMax ≠ sizeMax ∧
        0 < ((this.recycled output).inputs.filterMap anyBytes).foldl min sizeMax
    · have hall : ∀ p < maxPorts, (this.inPorts p).active →
          this.offered .processOutput p ≠ [] := by
        intro p hp hactive hnil
        have hmem : 0 ∈ (this.recycled output).inputs.filterMap anyBytes := by
          refine List.mem_filterMap.mpr
            ⟨_, List.mem_map_of_mem (List.mem_range.mpr hp), ?_⟩
          rw [SpaAudioMixer.anyBytes, hstaged.active p hp, if_pos hactive,
            ← (hstaged.inv.ports p hp).length_unread, hstaged.unread p hp, hnil]
          rfl
        exact absurd hsome.2 (Nat.not_lt.mpr (foldl_min_le hmem))
      have hleast : ((this.recycled output).inputs.filterMap anyBytes).foldl min sizeMax =
          this.least .processOutput := by
        rw [hstaged.anyBytes hall]
        rfl
      have hready : this.ready .processOutput ≠ [] := fun hnil =>
        hsome.1 (hleast.trans (least_of_nil hnil))
      rw [show (List.range maxPorts).map (this.recycled output).inPorts =
        (this.recycled output).inputs from rfl, if_pos hsome, hleast] at hstep
      exact hstaged.mixOutput (.inr rfl) hruns (by rw [hio']; rfl) hready
        (fun hroom => hmix ⟨fun _ => hall, hready, hroom⟩) hstep
    · rw [show (List.range maxPorts).map (this.recycled output).inPorts =
        (this.recycled output).inputs from rfl, if_neg hsome] at hstep
      exact hstaged.ask hruns' hstep

/-! ## Runs -/

theorem Still.right (hstill : Still this (this.step types e))
    (harrivals : ∀ p, this.arrivals e p = []) (hproduced : this.produced types e = none) :
    Right types this e ∧ (this.step types e).Inv := by
  refine ⟨right_of_quiet hstill.1 (fun p hp => ?_) hproduced, hstill.1⟩
  rw [hstill.2 p hp, offered, fed, harrivals, List.flatMap_nil, List.append_nil]

/-- A call that fits is right, and the next calls find the ports good. -/
theorem Inv.step (h : this.Inv) (hfits : Fits types this e) :
    Right types this e ∧ (this.step types e).Inv := by
  cases e with
  | addPort direction p => exact Still.right (h.addPort hfits) (fun _ => rfl) rfl
  | removePort direction p => exact Still.right (h.removePort direction) (fun _ => rfl) rfl
  | portSetFormat direction p format =>
    exact Still.right (h.portSetFormat hfits) (fun _ => rfl) rfl
  | portUseBuffers direction p buffers =>
    exact Still.right (h.portUseBuffers hfits) (fun _ => rfl) rfl
  | portSetIo direction p io => exact Still.right (h.portSetIo hfits) (fun _ => rfl) rfl
  | portReuseBuffer p id => exact Still.right (h.portReuseBuffer hfits) (fun _ => rfl) rfl
  | processInput => exact h.processInput hfits
  | processOutput => exact h.processOutput hfits
  | writeIo direction p io => exact Still.right (h.writeIo direction) (fun _ => rfl) rfl
  | fill p i data chunkOffset chunkSize => exact Still.right h.fill (fun _ => rfl) rfl

theorem inv_init : Inv init where
  ports _ _ := good_zero
  out :=
    { linked := rfl
      fresh := fun _ h => nomatch h
      nodup := List.nodup_nil
      filled := fun _ h => h.elim (fun hmem => nomatch hmem) fun hout => nomatch hout
      fault := rfl }

/-- The bytes that a run queues on a port. -/
def fedLog (types : MixerTypes) (this : SpaAudioMixer) : List Event → Nat → List UInt8
  | [], _ => []
  | e :: es, p => this.fed e p ++ fedLog types (this.step types e) es p

/-- The bytes of a port that a run takes into output buffers. -/
def takenLog (types : MixerTypes) (this : SpaAudioMixer) : List Event → Nat → List UInt8
  | [], _ => []
  | e :: es, p => this.taken types e p ++ takenLog types (this.step types e) es p

/-- In a run of calls that are right nothing is lost, repeated or put out of order. -/
theorem conserved_run {es : List Event} (h : Run.Along (step types) (Right types) this es)
    (hp : p < maxPorts) :
    (this.inPorts p).unread ++ fedLog types this es p =
      takenLog types this es p ++ ((Run.run (step types) this es).inPorts p).unread := by
  induction es generalizing this with
  | nil =>
    rw [fedLog, takenLog, List.append_nil]
    rfl
  | cons e es ih =>
    rw [fedLog, takenLog, ← List.append_assoc, h.1.conserved p hp, List.append_assoc, ih h.2,
      List.append_assoc]
    rfl

/-- In a run whose calls fit every call is right, and what was queued on a port is what was taken
from it followed by what is still there. -/
theorem run_conserves (types : MixerTypes) (es : List Event)
    (hfits : Run.Along (step types) (Fits types) init es) :
    Run.Along (step types) (Right types) init es ∧
      ∀ p < maxPorts, fedLog types init es p =
        takenLog types init es p ++ ((Run.run (step types) init es).inPorts p).unread := by
  have hright : Run.Along (step types) (Right types) init es :=
    Run.along_of Inv (fun _ _ hinv hfit => hinv.step hfit) inv_init hfits
  exact ⟨hright, fun p hp => conserved_run hright hp⟩

section Example

def someTypes : MixerTypes := ⟨1, 2, 3, 4, 5⟩

def idleIo : SpaMixerIO := ⟨⟨.ok, spaIdInvalid⟩, ⟨0, 0, 0⟩⟩

/-- The io of a port whose other side has buffer 0. -/
def fullIo : SpaMixerIO := ⟨⟨.haveBuffer, 0⟩, ⟨0, 0, 0⟩⟩

/-- An input port is added and gets a buffer. -/
def setUpInput (p : Nat) : List Event :=
  [.addPort .input p, .portSetIo .input p (some idleIo),
    .portSetFormat .input p (some ⟨1, 2, true⟩),
    .portUseBuffers .input p [⟨0, 3, some fun _ => 0, 4, 0, 0⟩]]

/-- The output port gets a buffer of two bytes. -/
def setUpOutput : List Event :=
  [.portSetIo .output 0 (some idleIo), .portSetFormat .output 0 (some ⟨1, 2, true⟩),
    .portUseBuffers .output 0 [⟨0, 3, some fun _ => 0, 2, 0, 0⟩]]

def deliver (p : Nat) (bytes : List UInt8) : List Event :=
  [.fill p 0 (fun a => bytes[a]?.getD 0) 0 (.ofNat bytes.length), .writeIo .input p fullIo]

/-- Samples of 30000 and 10000 are mixed. -/
def loudRun : List Event :=
  setUpInput 0 ++ setUpInput 1 ++ setUpOutput ++ deliver 0 [0x30, 0x75, 5, 0] ++
    deliver 1 [0x10, 0x27] ++ [.processInput]

theorem run_conserves_loud :
    Run.Along (step someTypes) (Right someTypes) init loudRun ∧
      ∀ p < maxPorts, fedLog someTypes init loudRun p =
        takenLog someTypes init loudRun p ++
          ((Run.run (step someTypes) init loudRun).inPorts p).unread :=
  run_conserves someTypes loudRun (by decide +kernel)

/-- Half of a buffer of four bytes is mixed. -/
def halfRun : List Event :=
  setUpInput 0 ++ setUpOutput ++ deliver 0 [1, 2, 3, 4] ++ [.processInput]

/-- When the format is cleared the other two bytes stay counted on an empty queue. -/
theorem not_run_conserves :
    ¬ ∀ es, Run.Along (step someTypes) (Right someTypes) init es := by
  intro h
  have hlast := (Run.along_append.mp (h (halfRun ++ [.portSetFormat .input 0 none]))).2.1
  have hcount := (hlast.counted 0 (by decide)).2
  exact absurd hcount (by decide +kernel)

end Example

end SpaAudioMixer
end Pinos
