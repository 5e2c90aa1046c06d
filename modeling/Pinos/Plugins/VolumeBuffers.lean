import Pinos.Lib.FreeList
import Pinos.Lib.Run
import Pinos.Plugins.Volume

/-
The buffers of the output port of the volume node, in its list or with the other side.

`port_use_buffers` puts every buffer into the list and marks it as outstanding.  The mark is wrong
until the buffer was taken from the list once, and one that comes back before that is linked a
second time.
-/

namespace Pinos

open FreeList

namespace SpaVolumePort

def out (port : SpaVolumePort) (i : Nat) : Bool := (port.buffers i).outstanding

/-- The list is linked as it should be, and has every buffer of the port once that is not
outstanding or was never taken. -/
structure Waits (taken : Nat → Bool) (port : SpaVolumePort) : Prop where
  links : ∃ list : List Nat, port.links.Holds .empty (list.map .buffer) ∧
    Links (· < port.nBuffers) (fun i => port.out i && taken i) list
  untaken : ∀ i < port.nBuffers, taken i = false → port.out i = true

/-- What was taken, with the first buffer of the list. -/
def taking (port : SpaVolumePort) (taken : Nat → Bool) : Nat → Bool :=
  match port.links.next .empty with
  | .empty => taken
  | .buffer i => Function.update taken i true

/-- Every buffer of the port is in the list exactly when it is not outstanding, and once. -/
def OwnsBuffers (port : SpaVolumePort) : Prop :=
  ∃ list : List Nat, port.links.Holds .empty (list.map .buffer) ∧
    Links (· < port.nBuffers) port.out list

/-- How many buffers `port_use_buffers` writes to the array. -/
def reached (types : MixerTypes) : List SpaBufferAt → Nat
  | [] => 0
  | b :: bs => if b.Usable types then reached types bs + 1 else 1

variable {port : SpaVolumePort} {taken : Nat → Bool} {types : MixerTypes} {bs : List SpaBufferAt}
  {id : UInt32} {i n : Nat}

theorem out_update (buffers : Nat → SpaVolumeBuffer) (i : Nat) (b : SpaVolumeBuffer) :
    (fun j => (Function.update buffers i b j).outstanding) =
      Function.update (fun j => (buffers j).outstanding) i b.outstanding :=
  Function.comp_update SpaVolumeBuffer.outstanding buffers i b

theorem waits_all : port.Waits (fun _ => true) ↔ port.OwnsBuffers := by
  have hout : (fun i => port.out i && true) = port.out := funext fun i => Bool.and_true _
  constructor
  · intro h
    have hlinks := h.links
    rw [hout] at hlinks
    exact hlinks
  · intro h
    refine ⟨?_, fun _ _ hfalse => nomatch hfalse⟩
    rw [hout]
    exact h

/-- While the list has the buffers that were never taken, it is right only if all were taken. -/
theorem Waits.owns_iff (h : port.Waits taken) :
    port.OwnsBuffers ↔ ∀ i < port.nBuffers, taken i = true := by
  obtain ⟨list, hholds, hlinks⟩ := h.links
  constructor
  · rintro ⟨list', hholds', hlinks'⟩ i hi
    have hsame : list = list' := by
      refine List.map_injective_iff.mpr ?_ (hholds.unique hholds')
      exact fun i j he => VolumeLink.buffer.inj he
    by_contra htaken
    have htaken : taken i = false := Bool.eq_false_iff.mpr htaken
    have hmem : i ∈ list := by
      rw [hlinks.mem_iff hi, htaken, Bool.and_false]
    rw [hsame, hlinks'.mem_iff hi, h.untaken i hi htaken] at hmem
    exact Bool.noConfusion hmem
  · intro hall
    refine ⟨list, hholds, hlinks.congr fun i hi => ?_⟩
    rw [hall i hi, Bool.and_true]

/-! ## Buffers that come and go -/

theorem not_mem_map {list : List Nat} (hi : i ∉ list) :
    VolumeLink.buffer i ∉ VolumeLink.empty :: list.map .buffer := by
  intro hmem
  obtain ⟨j, hj, he⟩ := List.mem_map.mp ((List.mem_cons.mp hmem).resolve_left nofun)
  exact hi (VolumeLink.buffer.inj he ▸ hj)

/-- A buffer comes back that was taken, or one that is in the list already. -/
theorem Waits.reuseBuffer (h : port.Waits taken)
    (hback : id.toNat < port.nBuffers → port.out id.toNat → taken id.toNat) :
    (port.reuseBuffer id).1.Waits taken := by
  unfold SpaVolumePort.reuseBuffer
  dsimp only
  split
  · exact h
  split
  · exact h
  next hlt =>
    have hlt : id.toNat < port.nBuffers := Nat.not_le.mp hlt
    split
    next hout =>
      obtain ⟨list, hholds, hlinks⟩ := h.links
      have htaken : taken id.toNat = true := hback hlt hout
      have hboth : (port.out id.toNat && taken id.toNat) = true :=
        Bool.and_eq_true_iff.mpr ⟨hout, htaken⟩
      have hfresh : id.toNat ∉ list := by
        rw [hlinks.mem_iff hlt, hboth]
        exact Bool.noConfusion
      have hnext := hlinks.push hlt hboth
      refine ⟨⟨list ++ [id.toNat], ?_, hnext.congr fun j _ => ?_⟩, fun j hj hfalse => ?_⟩
      · rw [List.map_append]
        exact hholds.insert (not_mem_map hfresh)
      · show ((Function.update port.buffers id.toNat _ j).outstanding && taken j) = _
        by_cases hj : j = id.toNat
        · rw [hj, Function.update_self, Function.update_self, Bool.false_and]
        · rw [Function.update_of_ne hj, Function.update_of_ne hj]
          rfl
      · show (Function.update port.buffers id.toNat _ j).outstanding = true
        have hne : j ≠ id.toNat := fun he => Bool.noConfusion (hfalse.symm.trans (he ▸ htaken))
        rw [Function.update_of_ne hne]
        exact h.untaken j hj hfalse
    · exact h

/-- The first buffer of the list is taken. -/
theorem Waits.findFreeBuffer (h : port.Waits taken) :
    port.findFreeBuffer.1.Waits (port.taking taken) := by
  obtain ⟨list, hholds, hlinks⟩ := h.links
  have hnext := hholds.path.next_eq
  unfold SpaVolumePort.findFreeBuffer taking
  cases list with
  | nil =>
    have hnext : port.links.next .empty = .empty := hnext
    rw [hnext]
    exact h
  | cons i rest =>
    have hnext : port.links.next .empty = .buffer i := hnext
    rw [hnext]
    have hpop := hlinks.pop
    refine ⟨⟨rest, ?_, hpop.congr fun j _ => ?_⟩, fun j hj hfalse => ?_⟩
    · exact @ListCells.Holds.remove _ _ _ _ [] _ _ hholds
    · show ((Function.update port.buffers i _ j).outstanding && Function.update taken i true j) = _
      by_cases hj : j = i
      · rw [hj, Function.update_self, Function.update_self, Function.update_self]
        rfl
      · rw [Function.update_of_ne hj, Function.update_of_ne hj, Function.update_of_ne hj]
        rfl
    · show (Function.update port.buffers i _ j).outstanding = true
      by_cases hj' : j = i
      · rw [hj', Function.update_self]
      · rw [Function.update_of_ne hj']
        exact h.untaken j hj ((Function.update_of_ne hj' true taken).symm.trans hfalse)

theorem waits_empty (hholds : port.links.Holds .empty []) (hn : port.nBuffers = 0)
    (taken : Nat → Bool) : port.Waits taken := by
  have hnone : ∀ i, ¬ i < port.nBuffers := fun i hi => by omega
  exact ⟨⟨[], hholds, Links.of_none hnone⟩, fun i hi => absurd hi (hnone i)⟩

theorem Waits.clearBuffers (h : port.Waits taken) :
    port.clearBuffers.links.Holds .empty [] ∧ port.clearBuffers.nBuffers = 0 := by
  unfold SpaVolumePort.clearBuffers
  split
  · exact ⟨ListCells.holds_init, rfl⟩
  next hnot =>
    have hn : port.nBuffers = 0 := Nat.eq_zero_of_not_pos hnot
    obtain ⟨list, hholds, hlinks⟩ := h.links
    have hnil : list = [] := hlinks.eq_nil fun i hi => by omega
    rw [hnil] at hholds
    exact ⟨hholds, hn⟩

theorem fault_clearBuffers : port.clearBuffers.fault = port.fault := by
  unfold SpaVolumePort.clearBuffers
  split <;> rfl

theorem Waits.setFormat {format : Option SpaMixerFormat} (h : port.Waits taken) :
    (port.setFormat types format).1.Waits taken := by
  unfold SpaVolumePort.setFormat
  cases format with
  | none =>
    obtain ⟨hholds, hn⟩ := @Waits.clearBuffers { port with haveFormat := false } _
      ⟨h.links, h.untaken⟩
    exact waits_empty hholds hn taken
  | some f =>
    dsimp only
    split
    · exact h
    · exact ⟨h.links, h.untaken⟩

theorem fault_setFormat {format : Option SpaMixerFormat} :
    (port.setFormat types format).1.fault = port.fault := by
  unfold SpaVolumePort.setFormat
  cases format with
  | none => exact fault_clearBuffers
  | some f =>
    dsimp only
    split <;> rfl

/-! ## Buffers that are used -/

theorem fault_useBuffersFrom (h : port.fault = true) :
    (useBuffersFrom types i bs port).1.fault = true := by
  induction bs generalizing i port with
  | nil => exact h
  | cons b bs ih =>
    have hset : (port.setBuffer i ⟨b, true⟩).fault = true := by
      show (port.fault || decide (maxBuffers ≤ i)) = true
      rw [h, Bool.true_or]
    rw [useBuffersFrom]
    split
    · exact hset
    · exact ih hset

/-- The loop leaves the array when it comes to too many buffers. -/
theorem useBuffersFrom_fault (h : port.fault = false) (hi : i ≤ maxBuffers) :
    (useBuffersFrom types i bs port).1.fault = false ↔ i + reached types bs ≤ maxBuffers := by
  induction bs generalizing i port with
  | nil => exact iff_of_true h hi
  | cons b bs ih =>
    rw [useBuffersFrom, reached]
    have hset : (port.setBuffer i ⟨b, true⟩).fault = decide (maxBuffers ≤ i) := by
      show (port.fault || decide (maxBuffers ≤ i)) = _
      rw [h, Bool.false_or]
    rcases Nat.lt_or_ge i maxBuffers with hlt | hge
    · rw [decide_eq_false (Nat.not_le.mpr hlt)] at hset
      by_cases hb : b.Usable types
      · rw [if_neg (not_not.mpr hb), if_pos hb]
        refine (@ih ((port.setBuffer i ⟨b, true⟩).insertEmpty i) (i + 1) hset hlt).trans ?_
        omega
      · rw [if_pos hb, if_neg hb]
        exact iff_of_true hset hlt
    · rw [decide_eq_true hge] at hset
      by_cases hb : b.Usable types
      · have hfault := @fault_useBuffersFrom ((port.setBuffer i ⟨b, true⟩).insertEmpty i) types bs
          (i + 1) hset
        rw [if_neg (not_not.mpr hb), if_pos hb, hfault]
        exact iff_of_false nofun (by omega)
      · rw [if_pos hb, if_neg hb, hset]
        exact iff_of_false nofun (by omega)

/-- The loop links the buffers that it finds usable, and marks them as outstanding. -/
theorem useBuffersFrom_holds
    (hholds : port.links.Holds .empty ((List.range i).map .buffer))
    (hout : ∀ j < i, port.out j = true) :
    ∃ n, (useBuffersFrom types i bs port).1.links.Holds .empty ((List.range n).map .buffer) ∧
      (∀ j < n, (useBuffersFrom types i bs port).1.out j = true) ∧
      (useBuffersFrom types i bs port).1.nBuffers = port.nBuffers ∧
      (if ∀ b ∈ bs, b.Usable types then
        (useBuffersFrom types i bs port).2 = .ok ∧ n = i + bs.length
      else (useBuffersFrom types i bs port).2 = .error ∧
        (n = i ↔ ∀ b ∈ bs.head?, ¬ b.Usable types) ∧ i ≤ n) := by
  induction bs generalizing i port with
  | nil => exact ⟨i, hholds, hout, rfl, by rw [if_pos fun b hb => nomatch hb]; exact ⟨rfl, rfl⟩⟩
  | cons b bs ih =>
    rw [useBuffersFrom]
    have hset : ∀ j < i + 1, (port.setBuffer i ⟨b, true⟩).out j = true := by
      intro j hj
      show (Function.update port.buffers i ⟨b, true⟩ j).outstanding = true
      by_cases he : j = i
      · rw [he, Function.update_self]
      · rw [Function.update_of_ne he]
        exact hout j (by omega)
    by_cases hb : b.Usable types
    · rw [if_neg (not_not.mpr hb)]
      have hinsert := hholds.insert (@not_mem_map i (List.range i) (by simp))
      have hrange : (List.range i).map VolumeLink.buffer ++ [.buffer i] =
          (List.range (i + 1)).map .buffer := by
        rw [List.range_succ, List.map_append]
        rfl
      rw [hrange] at hinsert
      obtain ⟨n, hholds', hout', hn, hres⟩ :=
        @ih ((port.setBuffer i ⟨b, true⟩).insertEmpty i) (i + 1) hinsert hset
      refine ⟨n, hholds', hout', hn, ?_⟩
      simp only [List.forall_mem_cons, hb, true_and]
      by_cases hall : ∀ b ∈ bs, b.Usable types
      · rw [if_pos hall] at hres ⊢
        exact ⟨hres.1, by rw [hres.2, List.length_cons]; omega⟩
      · rw [if_neg hall] at hres ⊢
        refine ⟨hres.1, iff_of_false (by omega) ?_, by omega⟩
        intro hnot
        exact hnot b rfl hb
    · rw [if_pos hb]
      refine ⟨i, hholds, fun j hj => hset j (by omega), rfl, ?_⟩
      rw [if_neg fun hall => hb (hall b List.mem_cons_self)]
      refine ⟨rfl, iff_of_true rfl fun b' hb' => ?_, Nat.le_refl i⟩
      exact Option.some.inj hb' ▸ hb

/-- What `port_use_buffers` makes of a port whose list is right. -/
theorem Waits.useBuffers (h : port.Waits taken) (hformat : port.haveFormat) :
    ∃ n, (port.useBuffers types bs).1.links.Holds .empty ((List.range n).map .buffer) ∧
      (∀ j < n, (port.useBuffers types bs).1.out j = true) ∧
      if ∀ b ∈ bs, b.Usable types then (port.useBuffers types bs).1.nBuffers = n ∧ n = bs.length
      else (port.useBuffers types bs).1.nBuffers = 0 ∧
        (n = 0 ↔ ∀ b ∈ bs.head?, ¬ b.Usable types) := by
  obtain ⟨hempty, hzero⟩ := h.clearBuffers
  obtain ⟨n, hholds, hout, hn, hres⟩ := @useBuffersFrom_holds port.clearBuffers types bs 0 hempty
    fun j hj => absurd hj (Nat.not_lt_zero j)
  refine ⟨n, ?_⟩
  rw [SpaVolumePort.useBuffers, if_pos hformat]
  dsimp only
  by_cases hall : ∀ b ∈ bs, b.Usable types
  · rw [if_pos hall] at hres
    rw [if_pos hres.1, if_pos hall]
    have hlength : n = bs.length := hres.2.trans (Nat.zero_add _)
    exact ⟨hholds, hout, hlength.symm, hlength⟩
  · rw [if_neg hall] at hres
    rw [hres.1, if_neg (by decide), if_neg hall]
    exact ⟨hholds, hout, hn.trans hzero, hres.2.1⟩

theorem fault_useBuffers (h : port.fault = false) :
    (port.useBuffers types bs).1.fault = false ↔
      (port.haveFormat → reached types bs ≤ maxBuffers) := by
  unfold SpaVolumePort.useBuffers
  by_cases hformat : port.haveFormat = true
  · have hloop := @useBuffersFrom_fault port.clearBuffers types bs 0
      (fault_clearBuffers.trans h) (Nat.zero_le _)
    rw [if_pos hformat]
    dsimp only
    rw [Nat.zero_add] at hloop
    rw [forall_prop_of_true hformat, ← hloop]
    split <;> rfl
  · rw [if_neg hformat]
    exact iff_of_true h fun hformat' => absurd hformat' hformat

/-- Buffers that are all usable are in the list and were not taken. -/
theorem Waits.useBuffers_all (h : port.Waits taken) (hformat : port.haveFormat)
    (hall : ∀ b ∈ bs, b.Usable types) : (port.useBuffers types bs).1.Waits fun _ => false := by
  obtain ⟨n, hholds, hout, hrest⟩ := @Waits.useBuffers _ _ types bs h hformat
  rw [if_pos hall] at hrest
  have hout' : ∀ j < (port.useBuffers types bs).1.nBuffers,
      (port.useBuffers types bs).1.out j = true := by
    rw [hrest.1]
    exact hout
  refine ⟨⟨List.range n, hholds, Links.of_nodup List.nodup_range (fun i => ?_) fun _ _ => ?_⟩,
    fun j hj _ => hout' j hj⟩
  · rw [hrest.1, List.mem_range]
  · exact Bool.and_false _

/-- Without a usable buffer in front nothing is linked. -/
theorem Waits.useBuffers_none (h : port.Waits taken) (hformat : port.haveFormat)
    (hfirst : ∀ b ∈ bs.head?, ¬ b.Usable types) :
    (port.useBuffers types bs).1.Waits taken := by
  obtain ⟨n, hholds, -, hrest⟩ := @Waits.useBuffers _ _ types bs h hformat
  by_cases hall : ∀ b ∈ bs, b.Usable types
  · rw [if_pos hall] at hrest
    have hnil : bs = [] := by
      cases bs with
      | nil => rfl
      | cons b bs => exact absurd (hall b List.mem_cons_self) (hfirst b rfl)
    rw [hnil, List.length_nil] at hrest
    rw [hrest.2] at hholds
    rw [hnil] at hholds ⊢
    exact waits_empty hholds (hrest.1.trans hrest.2) taken
  · rw [if_neg hall] at hrest
    rw [hrest.2.mpr hfirst] at hholds
    exact waits_empty hholds hrest.1 taken

/-- A list that is right after `port_use_buffers` has no buffer. -/
theorem Waits.first_unusable (h : port.Waits taken) (hformat : port.haveFormat)
    (howns : (port.useBuffers types bs).1.OwnsBuffers) : ∀ b ∈ bs.head?, ¬ b.Usable types := by
  obtain ⟨n, hholds, hout, hrest⟩ := @Waits.useBuffers _ _ types bs h hformat
  obtain ⟨list, hholds', hlinks⟩ := howns
  have hsame : List.range n = list := by
    refine List.map_injective_iff.mpr ?_ (hholds.unique hholds')
    exact fun i j he => VolumeLink.buffer.inj he
  have hzero : n = 0 := by
    by_contra hne
    have hmem : 0 ∈ list := hsame ▸ List.mem_range.mpr (Nat.pos_of_ne_zero hne)
    have hinside := hlinks.inside 0 hmem
    rw [hlinks.mem_iff hinside, hout 0 (Nat.pos_of_ne_zero hne)] at hmem
    exact Bool.noConfusion hmem
  by_cases hall : ∀ b ∈ bs, b.Usable types
  · rw [if_pos hall] at hrest
    have hnil : bs = [] := List.length_eq_zero_iff.mp (hrest.2.symm.trans hzero)
    rw [hnil]
    exact fun b hb => nomatch hb
  · rw [if_neg hall] at hrest
    exact hrest.2.mp hzero

end SpaVolumePort

namespace SpaVolume

/-- The list of the output port has what is not outstanding or was never taken, and no array was
left. -/
structure Waits (taken : Nat → Bool) (this : SpaVolume) : Prop where
  output : this.outPort.Waits taken
  inSound : this.inPort.fault = false
  outSound : this.outPort.fault = false

/-- Every buffer of the output port is in its list exactly when it is not outstanding, and once;
no array was left. -/
structure OwnsBuffers (this : SpaVolume) : Prop where
  output : this.outPort.OwnsBuffers
  inSound : this.inPort.fault = false
  outSound : this.outPort.fault = false

/-- `port_use_buffers` gives no buffer to the output port that it links, and the input port no more
than it has room for. -/
def Orderly (types : MixerTypes) (this : SpaVolume) : Event → Prop
  | .portUseBuffers .input p bs =>
    CheckPort p → this.inPort.haveFormat → SpaVolumePort.reached types bs ≤ SpaVolumePort.maxBuffers
  | .portUseBuffers .output p bs =>
    CheckPort p → this.outPort.haveFormat → ∀ b ∈ bs.head?, ¬ b.Usable types
  | _ => True

/-- `process_input` comes to `find_free_buffer`. -/
def asks (this : SpaVolume) : Bool :=
  match this.inPort.io, this.outPort.io with
  | some input, some output =>
    this.inPort.haveFormat && decide (input.bufferId.toNat < this.inPort.nBuffers) &&
      decide (this.outPort.nBuffers ≤ output.bufferId.toNat)
  | _, _ => false

/-- The buffers of the output port that were taken from the list since the port has them. -/
def taking (types : MixerTypes) (this : SpaVolume) (taken : Nat → Bool) : Event → Nat → Bool
  | .portUseBuffers .output p bs =>
    if CheckPort p ∧ this.outPort.haveFormat ∧ ∀ b ∈ bs, b.Usable types then fun _ => false
    else taken
  | .processInput => if this.asks then this.outPort.taking taken else taken
  | _ => taken

/-- A buffer comes back only if it was taken, and the buffers that a port is to use are all usable
or start with one that is not. -/
def Gentle (types : MixerTypes) (this : SpaVolume) (taken : Nat → Bool) : Event → Prop
  | .portReuseBuffer p id =>
    CheckPort p → id.toNat < this.outPort.nBuffers → this.outPort.out id.toNat → taken id.toNat
  | .portUseBuffers direction p bs =>
    CheckPort p → (this.port direction).haveFormat →
      SpaVolumePort.reached types bs ≤ SpaVolumePort.maxBuffers ∧
        (direction = .output →
          (∀ b ∈ bs, b.Usable types) ∨ ∀ b ∈ bs.head?, ¬ b.Usable types)
  | _ => True

variable {types : MixerTypes} {this : SpaVolume} {taken : Nat → Bool} {e : Event}
  {bs : List SpaBufferAt} {p : Nat}

theorem waits_all : this.Waits (fun _ => true) ↔ this.OwnsBuffers := by
  constructor
  · exact fun h => ⟨SpaVolumePort.waits_all.mp h.output, h.inSound, h.outSound⟩
  · exact fun h => ⟨SpaVolumePort.waits_all.mpr h.output, h.inSound, h.outSound⟩

theorem Waits.owns_iff (h : this.Waits taken) :
    this.OwnsBuffers ↔ ∀ i < this.outPort.nBuffers, taken i = true := by
  rw [← h.output.owns_iff]
  exact ⟨fun howns => howns.output, fun howns => ⟨howns, h.inSound, h.outSound⟩⟩

theorem owns_init : init.OwnsBuffers :=
  ⟨⟨[], ListCells.holds_init, FreeList.Links.of_none Nat.not_lt_zero⟩, rfl, rfl⟩

/-! ## Calls -/

theorem Waits.withIo (h : this.Waits taken) (io : Option SpaPortIO) (direction : PinosDirection) :
    (this.setPort { this.port direction with io } direction).Waits taken := by
  cases direction with
  | input => exact ⟨h.output, h.inSound, h.outSound⟩
  | output => exact ⟨⟨h.output.links, h.output.untaken⟩, h.inSound, h.outSound⟩

theorem Waits.portSetFormat {format : Option SpaMixerFormat} {direction : PinosDirection}
    (h : this.Waits taken) : (this.portSetFormat types direction p format).1.Waits taken := by
  unfold SpaVolume.portSetFormat
  split
  · cases direction with
    | input => exact ⟨h.output, SpaVolumePort.fault_setFormat.trans h.inSound, h.outSound⟩
    | output =>
      exact ⟨h.output.setFormat, h.inSound, SpaVolumePort.fault_setFormat.trans h.outSound⟩
  · exact h

theorem fault_reuseBuffer {port : SpaVolumePort} {id : UInt32} :
    (port.reuseBuffer id).1.fault = port.fault := by
  unfold SpaVolumePort.reuseBuffer
  dsimp only
  split
  · rfl
  · split
    · rfl
    · split <;> rfl

theorem Waits.portReuseBuffer {id : UInt32} (h : this.Waits taken)
    (hback : CheckPort p → id.toNat < this.outPort.nBuffers → this.outPort.out id.toNat →
      taken id.toNat) : (this.portReuseBuffer p id).1.Waits taken := by
  unfold SpaVolume.portReuseBuffer
  split
  next hcheck =>
    exact ⟨h.output.reuseBuffer (hback hcheck), h.inSound, fault_reuseBuffer.trans h.outSound⟩
  · exact h

theorem fault_findFreeBuffer {port : SpaVolumePort} :
    port.findFreeBuffer.1.fault = port.fault := by
  unfold SpaVolumePort.findFreeBuffer
  split <;> rfl

theorem asks_eq {input output : SpaPortIO} (hin : this.inPort.io = some input)
    (hout : this.outPort.io = some output) :
    this.asks = (this.inPort.haveFormat && decide (input.bufferId.toNat < this.inPort.nBuffers) &&
      decide (this.outPort.nBuffers ≤ output.bufferId.toNat)) := by
  rw [asks, hin, hout]

theorem Waits.processInput (h : this.Waits taken) :
    this.processInput.1.Waits (if this.asks then this.outPort.taking taken else taken) := by
  unfold SpaVolume.processInput
  cases hin : this.inPort.io with
  | none =>
    rw [show this.asks = false by rw [asks, hin]]
    exact h
  | some input =>
    cases hout : this.outPort.io with
    | none =>
      rw [show this.asks = false by rw [asks, hin, hout]]
      exact h
    | some output =>
      have hasks := asks_eq hin hout
      dsimp only
      by_cases hformat : this.inPort.haveFormat = true
      · rw [if_neg (not_not.mpr hformat)]
        rw [hformat, Bool.true_and] at hasks
        rcases Nat.lt_or_ge input.bufferId.toNat this.inPort.nBuffers with hlt | hge
        · rw [if_neg (Nat.not_le.mpr hlt)]
          rw [decide_eq_true hlt, Bool.true_and] at hasks
          unfold chooseBuffer
          rcases Nat.lt_or_ge output.bufferId.toNat this.outPort.nBuffers with hlt' | hge'
          · rw [decide_eq_false (Nat.not_le.mpr hlt')] at hasks
            rw [if_neg (Nat.not_le.mpr hlt'), hasks]
            exact ⟨⟨h.output.links, h.output.untaken⟩, h.inSound, h.outSound⟩
          · rw [decide_eq_true hge'] at hasks
            rw [if_pos hge', hasks, if_pos rfl]
            have hfind := h.output.findFreeBuffer
            have hsound := fault_findFreeBuffer.trans h.outSound
            generalize this.outPort.findFreeBuffer = found at hfind hsound
            obtain ⟨port, dbuf⟩ := found
            cases dbuf with
            | none => exact ⟨hfind, h.inSound, hsound⟩
            | some dbuf => exact ⟨⟨hfind.links, hfind.untaken⟩, h.inSound, hsound⟩
        · rw [decide_eq_false (Nat.not_lt.mpr hge), Bool.false_and] at hasks
          rw [if_pos hge, hasks]
          exact ⟨h.output, h.inSound, h.outSound⟩
      · rw [Bool.eq_false_iff.mpr hformat, Bool.false_and, Bool.false_and] at hasks
        rw [if_pos hformat, hasks]
        exact ⟨h.output, h.inSound, h.outSound⟩

theorem Waits.portUseBuffers {direction : PinosDirection} (h : this.Waits taken)
    (huse : Gentle types this taken (.portUseBuffers direction p bs)) :
    (this.portUseBuffers types direction p bs).1.Waits
      (this.taking types taken (.portUseBuffers direction p bs)) := by
  unfold SpaVolume.portUseBuffers
  by_cases hcheck : CheckPort p
  · rw [if_pos hcheck]
    cases direction with
    | input =>
      refine ⟨h.output, ?_, h.outSound⟩
      exact (SpaVolumePort.fault_useBuffers h.inSound).mpr fun hformat => (huse hcheck hformat).1
    | output =>
      have hsound := (@SpaVolumePort.fault_useBuffers _ types bs h.outSound).mpr
        fun hformat => (huse hcheck hformat).1
      refine ⟨?_, h.inSound, hsound⟩
      show (this.outPort.useBuffers types bs).1.Waits (if _ then _ else _)
      by_cases hformat : this.outPort.haveFormat = true
      · by_cases hall : ∀ b ∈ bs, b.Usable types
        · rw [if_pos ⟨hcheck, hformat, hall⟩]
          exact h.output.useBuffers_all hformat hall
        · rw [if_neg fun hboth => hall hboth.2.2]
          exact h.output.useBuffers_none hformat (((huse hcheck hformat).2 rfl).resolve_left hall)
      · rw [if_neg fun hboth => hformat hboth.2.1, SpaVolumePort.useBuffers, if_neg hformat]
        exact h.output
  · rw [if_neg hcheck]
    cases direction with
    | input => exact h
    | output =>
      show this.Waits (if _ then _ else _)
      rw [if_neg fun hboth => hcheck hboth.1]
      exact h

/-! ## Runs -/

/-- A call that gives back no buffer that was never taken. -/
theorem Waits.step (h : this.Waits taken) (hgentle : Gentle types this taken e) :
    (this.step types e).Waits (this.taking types taken e) := by
  cases e with
  | portSetFormat direction p format => exact h.portSetFormat
  | portUseBuffers direction p bs => exact h.portUseBuffers hgentle
  | portSetIo direction p io =>
    show (this.portSetIo direction p io).1.Waits taken
    unfold SpaVolume.portSetIo
    split
    · exact h.withIo io direction
    · exact h
  | portReuseBuffer p id => exact h.portReuseBuffer hgentle
  | processInput => exact h.processInput
  | processOutput => exact h
  | writeIo direction io => exact h.withIo _ direction

/-- A run together with the buffers that were taken. -/
def stepTaking (types : MixerTypes) (s : SpaVolume × (Nat → Bool)) (e : Event) :
    SpaVolume × (Nat → Bool) :=
  (s.1.step types e, s.1.taking types s.2 e)

/-- In a run that gives back no buffer that was never taken, the list is right in the states in
which all the buffers of the port were taken. -/
theorem owns_iff_taken (types : MixerTypes) (es : List Event)
    (hes : Run.Along (stepTaking types) (fun s e => Gentle types s.1 s.2 e)
      (init, fun _ => true) es) :
    (Run.run (stepTaking types) (init, fun _ => true) es).1.OwnsBuffers ↔
      ∀ i < (Run.run (stepTaking types) (init, fun _ => true) es).1.outPort.nBuffers,
        (Run.run (stepTaking types) (init, fun _ => true) es).2 i = true := by
  have hwaits := Run.run_invariant (fun s : SpaVolume × (Nat → Bool) => s.1.Waits s.2)
    (fun s e h hgentle => h.step hgentle) (waits_all.mpr owns_init) hes
  exact hwaits.owns_iff

theorem asks_taking_true : (this.taking types (fun _ => true) .processInput) = fun _ => true := by
  show (if this.asks then this.outPort.taking _ else _) = _
  split
  · unfold SpaVolumePort.taking
    split
    · rfl
    · exact Function.update_eq_self _ _
  · rfl

theorem reached_le_one (hfirst : ∀ b ∈ bs.head?, ¬ b.Usable types) :
    SpaVolumePort.reached types bs ≤ 1 := by
  cases bs with
  | nil => exact Nat.zero_le 1
  | cons b bs =>
    rw [SpaVolumePort.reached, if_neg (hfirst b rfl)]

theorem OwnsBuffers.portUseBuffers_iff {direction : PinosDirection} (h : this.OwnsBuffers) :
    (this.portUseBuffers types direction p bs).1.OwnsBuffers ↔
      Orderly types this (.portUseBuffers direction p bs) := by
  unfold SpaVolume.portUseBuffers
  by_cases hcheck : CheckPort p
  · rw [if_pos hcheck]
    cases direction with
    | input =>
      have hfault := @SpaVolumePort.fault_useBuffers _ types bs h.inSound
      constructor
      · exact fun howns _ => hfault.mp howns.inSound
      · exact fun horderly => ⟨h.output, hfault.mpr (horderly hcheck), h.outSound⟩
    | output =>
      have hwaits := SpaVolumePort.waits_all.mpr h.output
      constructor
      · exact fun howns _ hformat => hwaits.first_unusable hformat howns.output
      · intro horderly
        by_cases hformat : this.outPort.haveFormat = true
        · have hfirst := horderly hcheck hformat
          have hone := reached_le_one hfirst
          refine ⟨SpaVolumePort.waits_all.mp (hwaits.useBuffers_none hformat hfirst), h.inSound, ?_⟩
          exact (SpaVolumePort.fault_useBuffers h.outSound).mpr fun _ => hone.trans (by decide)
        · show (this.setPort (this.outPort.useBuffers types bs).1 .output).OwnsBuffers
          rw [SpaVolumePort.useBuffers, if_neg hformat]
          exact h
  · rw [if_neg hcheck]
    cases direction with
    | input => exact iff_of_true h fun hcheck' => absurd hcheck' hcheck
    | output => exact iff_of_true h fun hcheck' => absurd hcheck' hcheck

/-- A call keeps the list of the output port right just when it is orderly. -/
theorem OwnsBuffers.step_iff (h : this.OwnsBuffers) :
    (this.step types e).OwnsBuffers ↔ Orderly types this e := by
  have hwaits := waits_all.mpr h
  cases e with
  | portUseBuffers direction p bs => exact h.portUseBuffers_iff
  | portSetFormat direction p format =>
    exact iff_of_true (waits_all.mp hwaits.portSetFormat) trivial
  | portSetIo direction p io =>
    exact iff_of_true (waits_all.mp (@Waits.step types this _ (.portSetIo direction p io) hwaits
      trivial)) trivial
  | portReuseBuffer p id =>
    exact iff_of_true (waits_all.mp (hwaits.portReuseBuffer fun _ _ _ => rfl)) trivial
  | processInput =>
    have hnext := hwaits.processInput
    rw [show (if this.asks then _ else _) = _ from @asks_taking_true types this] at hnext
    exact iff_of_true (waits_all.mp hnext) trivial
  | processOutput => exact iff_of_true h trivial
  | writeIo direction io => exact iff_of_true (waits_all.mp (hwaits.withIo _ direction)) trivial

/-- The list of the output port is right from a state on, in every state of a run, just when it is
right there and every call is orderly. -/
theorem ownsBuffers_along_iff (types : MixerTypes) (this : SpaVolume) (es : List Event) :
    this.OwnsBuffers ∧ Run.Along (step types) (fun s e => (s.step types e).OwnsBuffers) this es ↔
      this.OwnsBuffers ∧ Run.Along (step types) (Orderly types) this es := by
  refine and_congr_right fun h => ?_
  exact @Run.along_iff _ _ _ _ _ (fun _ _ => True) _ OwnsBuffers (fun _ _ hs _ => hs.step_iff)
    (fun _ _ hs _ horderly => hs.step_iff.mpr horderly) _ h (Run.along_of_forall fun _ _ => trivial)

section Example

def someBuffers : List SpaBufferAt := [⟨0, 0, 3, true⟩, ⟨8, 1, 3, true⟩]

/-- The output port gets two buffers. -/
def usedRun : List Event :=
  [.portSetFormat .output 0 (some ⟨1, 2, true⟩), .portUseBuffers .output 0 someBuffers]

/-- Right after `port_use_buffers` the buffers are in the list and outstanding. -/
theorem not_ownsBuffers :
    ¬ ∀ es, Run.Along (step ⟨1, 2, 3, 4, 5⟩)
      (fun s e => (s.step ⟨1, 2, 3, 4, 5⟩ e).OwnsBuffers) init es := by
  intro h
  obtain ⟨hformat, hused, -⟩ := h usedRun
  have horderly := hformat.step_iff.mp hused
  exact horderly rfl rfl ⟨0, 0, 3, true⟩ rfl (by decide)

/-- Both buffers are taken, and the first one comes back twice. -/
example : (Run.run (stepTaking ⟨1, 2, 3, 4, 5⟩) (init, fun _ => true)
    ([.portSetFormat .input 0 (some ⟨1, 2, true⟩), .portUseBuffers .input 0 someBuffers,
      .portSetIo .input 0 (some ⟨.ok, 0⟩), .portSetIo .output 0 (some ⟨.ok, spaIdInvalid⟩)] ++
    usedRun ++ [.processInput, .writeIo .input ⟨.ok, 1⟩, .writeIo .output ⟨.ok, 7⟩, .processInput,
      .portReuseBuffer 0 0, .portReuseBuffer 0 0])).1.OwnsBuffers := by
  refine (owns_iff_taken _ _ ?_).mpr (by decide)
  refine ⟨trivial, fun _ _ => ⟨by decide, nofun⟩, trivial, trivial, trivial,
    fun _ _ => ⟨by decide, fun _ => .inl (by decide)⟩, trivial, trivial, trivial, trivial,
    fun _ _ _ => by decide, fun _ _ _ => by decide, trivial⟩

end Example

end SpaVolume
end Pinos
