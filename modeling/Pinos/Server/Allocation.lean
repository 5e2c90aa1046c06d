import Pinos.Server.LinkStates

/-
`do_allocation` of `server/link.c`: what is left of the buffers of ports when it fails, and whether
the buffers it allocates are what the ports asked for.
-/

namespace Pinos
namespace Graph

variable {Format : Type} {spa : SpaNodes Format} {ringbuffer : UInt32} {g : Graph}
variable {l input output : Nat} {inState outState : PinosPortState}

/-! ## A failed allocation -/

/-- The buffers that a port records. -/
def portBuffers (port : PinosPort) : Option Nat × UInt32 × Bool :=
  (port.buffers, port.nBuffers, port.allocated)

section Failure

variable {inFlags outFlags : UInt32} {res : SpaResult}

theorem useBuffers_ends :
    let used := g.useBuffers spa l input output inFlags outFlags res
    (∃ g' : Graph, used.1 = g'.allocationError l input output) ∨ Quiet g used.1 := by
  have hend (g' : Graph) (hquiet : Quiet g g') (res : SpaResult) (failed : Bool) :
      (∃ g'' : Graph, (if failed then (g'.allocationError l input output, res) else (g', res)).1 =
        g''.allocationError l input output) ∨
      Quiet g (if failed then (g'.allocationError l input output, res) else (g', res)).1 := by
    cases failed with
    | true => exact Or.inl ⟨g', rfl⟩
    | false => exact Or.inr hquiet
  dsimp only
  unfold useBuffers
  dsimp only
  split
  · exact hend _ quiet_portUseBuffers _ _
  · split
    · exact hend _ quiet_portUseBuffers _ _
    · exact hend _ (Quiet.refl g) _ true

/-- An allocation ends at the label `error` or leaves the state it has set. -/
theorem doAllocation_ends (hready : inState = .ready ∨ outState = .ready) :
    let done := g.doAllocation spa ringbuffer l input output inState outState
    (∃ g' : Graph, done.1 = g'.allocationError l input output) ∨
      Quiet (g.updateLinkState l .allocating) done.1 := by
  have hsome : ¬ (inState ≠ .ready ∧ outState ≠ .ready) := by
    rintro ⟨hin, hout⟩
    exact hready.elim hin hout
  dsimp only
  unfold doAllocation
  rw [if_neg hsome]
  dsimp only
  split
  · exact Or.inl ⟨_, rfl⟩
  split
  · exact Or.inl ⟨_, rfl⟩
  have hlive : Quiet (g.updateLinkState l .allocating)
      ((g.updateLinkState l .allocating).setLive input output (spa.portGetInfo output).2.flags) :=
    Quiet.of_links (links_setLive _)
  split
  · exact Or.inr hlive
  · exact Or.inl ⟨_, rfl⟩
  · split
    · exact Or.inl ⟨_, rfl⟩
    · refine useBuffers_ends.imp_right fun hused => ?_
      exact (hlive.trans prepareBuffers_grows.2).trans hused

/-- Behind the label both ports are without buffers. -/
theorem portBuffers_allocationError {p : Nat} (hp : p = input ∨ p = output) :
    portBuffers ((g.allocationError l input output).ports p) = (none, 0, false) := by
  have hports : (g.allocationError l input output).ports =
      ((g.modifyPort output allocationError.clear).modifyPort input allocationError.clear).ports :=
    rfl
  rw [hports]
  by_cases hin : p = input
  · subst hin
    rw [ports_modifyPort]
    rfl
  · have hout : p = output := hp.resolve_left hin
    subst hout
    rw [ports_modifyPort_of_ne hin, ports_modifyPort]
    rfl

/-- When the allocation fails, a port that had buffers has lost them: it is as it was only when
neither port had any. -/
theorem failed_allocation_keeps_iff (hstate : (g.links l).state ≠ .error)
    (hfailed : ((g.doAllocation spa ringbuffer l input output inState outState).1.links l).state =
      .error) :
    (∀ p, p = input ∨ p = output → (g.ports p).nBuffers ≠ 0 →
      portBuffers ((g.doAllocation spa ringbuffer l input output inState outState).1.ports p) =
        portBuffers (g.ports p)) ↔
      (g.ports input).nBuffers = 0 ∧ (g.ports output).nBuffers = 0 := by
  have hready : inState = .ready ∨ outState = .ready := by
    by_contra hneither
    obtain ⟨hin, hout⟩ := not_or.mp hneither
    rw [doAllocation, if_pos ⟨hin, hout⟩] at hfailed
    exact hstate hfailed
  obtain ⟨g', hdone⟩ | hquiet :=
    @doAllocation_ends _ spa ringbuffer g l input output inState outState hready
  · rw [hdone]
    constructor
    · intro hkept
      have hnone (p : Nat) (hp : p = input ∨ p = output) : (g.ports p).nBuffers = 0 := by
        by_contra hsome
        have hsame := hkept p hp hsome
        rw [portBuffers_allocationError hp] at hsame
        exact hsome (congrArg (fun b => b.2.1) hsame).symm
      exact ⟨hnone input (.inl rfl), hnone output (.inr rfl)⟩
    · rintro ⟨hin, hout⟩ p (rfl | rfl) hsome
      · exact absurd hin hsome
      · exact absurd hout hsome
  · have hallocating := (hquiet l).1
    rw [hfailed, state_updateLinkState] at hallocating
    cases hallocating

/-- The output port has buffers that another link allocated with it. -/
def sharedOutput : Graph :=
  (exampleLink .paused).modifyPort 0 fun port =>
    { port with buffers := some 0, nBuffers := 3, allocated := true }

/-- Plugins that do not take the buffers they are given. -/
def refusingNodes : SpaNodes Unit := { exampleNodes with portUseBuffers := fun _ _ _ => .error }

theorem failed_allocation_keeps_example :
    let done := (exampleLink .ready).doAllocation refusingNodes 0 0 1 0 .ready .ready
    (done.1.links 0).state = .error ∧
    ∀ p, p = 1 ∨ p = 0 → ((exampleLink .ready).ports p).nBuffers ≠ 0 →
      portBuffers (done.1.ports p) = portBuffers ((exampleLink .ready).ports p) :=
  ⟨rfl, (failed_allocation_keeps_iff (by decide) rfl).mpr ⟨rfl, rfl⟩⟩

/-- The input port refuses the buffers of the output port, which loses them. -/
theorem not_failed_allocation_keeps :
    let done := sharedOutput.doAllocation refusingNodes 0 0 1 0 .ready .paused
    done.2.isError = true ∧ (done.1.links 0).state = .error ∧
    portBuffers (sharedOutput.ports 0) = (some 0, 3, true) ∧
    portBuffers (done.1.ports 0) = (none, 0, false) :=
  ⟨rfl, rfl, rfl, rfl⟩

end Failure

/-! ## What the ports ask for -/

/-- The sizes and strides of the ringbuffers that a port enables. -/
def ringbufferAsks (ringbuffer : UInt32) (info : SpaPortInfo) : List (UInt32 × UInt32) :=
  info.params.filterMap fun
    | .metaEnable type (some size) (some stride) =>
      if type = some ringbuffer then some (size, stride) else none
    | _ => none

/-- The `Buffers` parameters of a port. -/
def bufferAsks (info : SpaPortInfo) : List (Option UInt32 × Option UInt32 × Option UInt32) :=
  info.params.filterMap fun
    | .buffers size stride buffers => some (size, stride, buffers)
    | _ => none

/-- A size and a stride that a block does not fall short of. -/
def Covers (size stride : UInt64) (askedSize askedStride : Option UInt32) : Prop :=
  (∀ s ∈ askedSize, s.toUInt64 ≤ size) ∧ ∀ t ∈ askedStride, t.toUInt64 ≤ stride

/-- The block is what both ports ask for. -/
def Meets (ringbuffer : UInt32) (iinfo oinfo : SpaPortInfo) (block : BufferBlock) : Prop :=
  if ringbufferAsks ringbuffer iinfo ≠ [] ∧ ringbufferAsks ringbuffer oinfo ≠ [] then
    block.nBuffers = 1 ∧
    ∀ ask ∈ ringbufferAsks ringbuffer iinfo ++ ringbufferAsks ringbuffer oinfo,
      Covers block.dataSize block.dataStride (some ask.1) (some ask.2)
  else
    ∀ ask ∈ bufferAsks iinfo ++ bufferAsks oinfo,
      Covers block.dataSize block.dataStride ask.1 ask.2.1 ∧
      ∀ n ∈ ask.2.2, n ≠ 0 → block.nBuffers ≤ n

/-- The sizes and strides that count: those of ringbuffers when both ports enable one. -/
def asked (ringbuffer : UInt32) (iinfo oinfo : SpaPortInfo) :
    List (Option UInt32 × Option UInt32) :=
  if ringbufferAsks ringbuffer iinfo ≠ [] ∧ ringbufferAsks ringbuffer oinfo ≠ [] then
    (ringbufferAsks ringbuffer iinfo ++ ringbufferAsks ringbuffer oinfo).map fun ask =>
      (some ask.1, some ask.2)
  else (bufferAsks iinfo ++ bufferAsks oinfo).map fun ask => (ask.1, ask.2.1)

/-- The `Buffers` parameters that are found, the first of each port, ask for as much as all. -/
def FirstsCover (iinfo oinfo : SpaPortInfo) : Prop :=
  let firsts := (findBuffers iinfo).toList ++ (findBuffers oinfo).toList
  ∀ ask ∈ bufferAsks iinfo ++ bufferAsks oinfo,
    (∀ s ∈ ask.1, s ≠ 0 → ∃ first ∈ firsts, ∃ s' ∈ first.1, s ≤ s') ∧
    (∀ t ∈ ask.2.1, t ≠ 0 → ∃ first ∈ firsts, ∃ t' ∈ first.2.1, t ≤ t') ∧
    ∀ n ∈ ask.2.2, n ≠ 0 → 16 ≤ n ∨ ∃ first ∈ firsts, ∃ n' ∈ first.2.2, n' ≠ 0 ∧ n' ≤ n

/-- Where both ports enable a ringbuffer, nothing counts that asks for more than the first of the
input port, or more than 1024 bytes and no stride when that has no size or stride. -/
def AsksCovered (ringbuffer : UInt32) (iinfo oinfo : SpaPortInfo) : Prop :=
  match findMetaEnable ringbuffer iinfo, findMetaEnable ringbuffer oinfo with
  | some (some size, some stride), some _ =>
    ∀ ask ∈ asked ringbuffer iinfo oinfo, Covers size.toUInt64 stride.toUInt64 ask.1 ask.2
  | some _, some _ => ∀ ask ∈ asked ringbuffer iinfo oinfo, Covers 1024 0 ask.1 ask.2
  | _, _ => FirstsCover iinfo oinfo

section Block

variable {iinfo oinfo info : SpaPortInfo} {block : BufferBlock}

/-- A single buffer is few enough for everybody. -/
theorem meets_iff_of_one (hone : block.nBuffers = 1) :
    Meets ringbuffer iinfo oinfo block ↔
      ∀ ask ∈ asked ringbuffer iinfo oinfo, Covers block.dataSize block.dataStride ask.1 ask.2 := by
  unfold Meets asked
  split
  · simp only [hone, true_and, List.forall_mem_map]
  · simp only [List.forall_mem_map]
    constructor
    · exact fun h ask hask => (h ask hask).1
    · refine fun h ask hask => ⟨h ask hask, fun n _ hn => ?_⟩
      rw [hone]
      have hpos : n.toNat ≠ 0 := fun h0 => hn (UInt32.toNat_inj.mp h0)
      rw [UInt32.le_iff_toNat_le]
      have : (1 : UInt32).toNat = 1 := rfl
      omega

theorem findMetaEnable_eq_none (h : findMetaEnable ringbuffer info = none) :
    ringbufferAsks ringbuffer info = [] := by
  rw [findMetaEnable, List.findSome?_eq_none_iff] at h
  rw [ringbufferAsks, List.filterMap_eq_nil_iff]
  intro param hparam
  have hnone := h param hparam
  cases param with
  | metaEnable type size stride =>
    cases size <;> cases stride <;> simp_all
  | buffers => rfl
  | other => rfl

/-- The larger of a size and what a parameter gives for it, which is the size when it gives
nothing. -/
theorem le_max_getD_iff (a : UInt64) (asked : Option UInt32) (s : UInt32) :
    s.toUInt64 ≤ max a (asked.getD a.toUInt32).toUInt64 ↔
      s.toUInt64 ≤ a ∨ ∃ s' ∈ asked, s ≤ s' := by
  have hmax (b : UInt64) : s.toUInt64 ≤ max a b ↔ s.toUInt64 ≤ a ∨ s.toUInt64 ≤ b := by
    simp only [max, UInt64.le_iff_toNat_le]
    split <;> omega
  rw [hmax]
  refine or_congr_right' fun hlarge => ?_
  cases asked with
  | none =>
    simp only [UInt64.le_iff_toNat_le, UInt32.toNat_toUInt64] at hlarge
    simp only [Option.getD_none, UInt64.le_iff_toNat_le, UInt32.toNat_toUInt64,
      UInt64.toNat_toUInt32, Option.mem_def, reduceCtorEq, false_and, exists_false, iff_false]
    omega
  | some s' =>
    simp [UInt64.le_iff_toNat_le, UInt32.le_iff_toNat_le]

/-- The smaller of two numbers of buffers, when 0 is no number. -/
theorem min_getD_le_iff (a : UInt32) (asked : Option UInt32) (n : UInt32) :
    (if asked.getD a = 0 then a else min (asked.getD a) a) ≤ n ↔
      a ≤ n ∨ ∃ n' ∈ asked, n' ≠ 0 ∧ n' ≤ n := by
  have hmin (b : UInt32) : min b a ≤ n ↔ a ≤ n ∨ b ≤ n := by
    simp only [min, UInt32.le_iff_toNat_le]
    split <;> omega
  cases asked with
  | none =>
    simp only [Option.getD_none]
    split
    · simp
    · rw [hmin]
      simp
  | some n' =>
    simp only [Option.getD_some]
    split
    · next hzero => simp [hzero]
    · next hsome =>
      rw [hmin]
      simp [hsome]

/-- What a `Buffers` parameter does to a block. -/
theorem widenBlock_bounds (s : UInt32) (n : UInt32) :
    (s.toUInt64 ≤ (widenBlock block info).dataSize ↔
      s.toUInt64 ≤ block.dataSize ∨ ∃ first ∈ findBuffers info, ∃ s' ∈ first.1, s ≤ s') ∧
    (s.toUInt64 ≤ (widenBlock block info).dataStride ↔
      s.toUInt64 ≤ block.dataStride ∨ ∃ first ∈ findBuffers info, ∃ s' ∈ first.2.1, s ≤ s') ∧
    ((widenBlock block info).nBuffers ≤ n ↔
      block.nBuffers ≤ n ∨ ∃ first ∈ findBuffers info, ∃ n' ∈ first.2.2, n' ≠ 0 ∧ n' ≤ n) := by
  unfold widenBlock
  cases findBuffers info with
  | none => simp
  | some first =>
    obtain ⟨size, stride, buffers⟩ := first
    simp only [Option.mem_def, Option.some.injEq, exists_eq_left']
    exact ⟨le_max_getD_iff _ _ s, le_max_getD_iff _ _ s, min_getD_le_iff _ _ n⟩

/-- The block for the `Buffers` parameters of both ports. -/
theorem widened_bounds (s : UInt32) (n : UInt32) :
    let block := widenBlock (widenBlock ⟨16, 0, 0⟩ iinfo) oinfo
    let firsts := (findBuffers iinfo).toList ++ (findBuffers oinfo).toList
    (s.toUInt64 ≤ block.dataSize ↔ (s ≠ 0 → ∃ first ∈ firsts, ∃ s' ∈ first.1, s ≤ s')) ∧
    (s.toUInt64 ≤ block.dataStride ↔ (s ≠ 0 → ∃ first ∈ firsts, ∃ s' ∈ first.2.1, s ≤ s')) ∧
    (block.nBuffers ≤ n ↔ 16 ≤ n ∨ ∃ first ∈ firsts, ∃ n' ∈ first.2.2, n' ≠ 0 ∧ n' ≤ n) := by
  have hzero : s.toUInt64 ≤ 0 ↔ s = 0 := by
    rw [UInt64.le_iff_toNat_le, UInt32.toNat_toUInt64, ← UInt32.toNat_inj]
    exact Nat.le_zero
  have hinner := @widenBlock_bounds iinfo ⟨16, 0, 0⟩ s n
  have houter := @widenBlock_bounds oinfo (widenBlock ⟨16, 0, 0⟩ iinfo) s n
  dsimp only
  rw [houter.1, houter.2.1, houter.2.2, hinner.1, hinner.2.1, hinner.2.2]
  simp only [hzero, List.mem_append, Option.mem_toList, Option.mem_def, or_and_right, exists_or,
    or_assoc, Decidable.imp_iff_not_or, not_not, and_self]

/-- The block that the link allocates is what the ports ask for when their parameters say so. -/
theorem meets_bufferBlock_iff :
    Meets ringbuffer iinfo oinfo (bufferBlock ringbuffer iinfo oinfo) ↔
      AsksCovered ringbuffer iinfo oinfo := by
  have hwiden (hnone : ringbufferAsks ringbuffer iinfo = [] ∨ ringbufferAsks ringbuffer oinfo = []) :
      Meets ringbuffer iinfo oinfo (widenBlock (widenBlock ⟨16, 0, 0⟩ iinfo) oinfo) ↔
        FirstsCover iinfo oinfo := by
    have hneither : ¬ (ringbufferAsks ringbuffer iinfo ≠ [] ∧
        ringbufferAsks ringbuffer oinfo ≠ []) := by
      rintro ⟨hin, hout⟩
      exact hnone.elim hin hout
    rw [Meets, if_neg hneither]
    refine forall₂_congr fun ask _ => ?_
    simp only [Covers, and_assoc, (widened_bounds _ 0).1, (widened_bounds _ 0).2.1,
      (widened_bounds 0 _).2.2]
  unfold bufferBlock AsksCovered
  cases hin : findMetaEnable ringbuffer iinfo with
  | none => exact hwiden (.inl (findMetaEnable_eq_none hin))
  | some first =>
    obtain ⟨size, stride⟩ := first
    cases hout : findMetaEnable ringbuffer oinfo with
    | none =>
      have hnone := hwiden (.inr (findMetaEnable_eq_none hout))
      cases size <;> cases stride <;> exact hnone
    | some second => cases size <;> cases stride <;> exact meets_iff_of_one rfl

end Block

/-! ## What is allocated -/

section Allocates

variable {inFlags outFlags : UInt32} {res : SpaResult} {block : BufferBlock}

theorem blocks_useBuffers :
    (g.useBuffers spa l input output inFlags outFlags res).1.blocks = g.blocks := by
  have hport (p : Nat) : (g.portUseBuffers spa l p).1.blocks = g.blocks := by
    unfold portUseBuffers
    dsimp only
    split <;> rfl
  have hend (g' : Graph) (hblocks : g'.blocks = g.blocks) (res : SpaResult) (failed : Bool) :
      (if failed then (g'.allocationError l input output, res) else (g', res)).1.blocks =
        g.blocks := by
    cases failed with
    | true => exact hblocks
    | false => exact hblocks
  unfold useBuffers
  dsimp only
  split
  · exact hend _ (hport input) _ _
  · split
    · exact hend _ (hport output) _ _
    · exact hend _ rfl _ true

/-- Buffers that neither port allocates are a new block of the link. -/
theorem prepareBuffers_own (hbuffers : (g.links l).buffers = none)
    (hinput : (g.ports input).nBuffers = 0) (houtput : (g.ports output).nBuffers = 0)
    (hin : hasFlag inFlags canAllocBuffers = false)
    (hout : hasFlag outFlags canAllocBuffers = false) :
    g.prepareBuffers spa l input output block inFlags outFlags res =
      (g.newBuffers l block, res, inFlags, outFlags) := by
  simp [prepareBuffers, hbuffers, hinput, houtput, hin, hout]

/-- The link allocates the buffers itself, as large and as many as both ports ask for, exactly when
the parameters that are found ask for as much as all that count. -/
theorem allocates_as_asked_iff (hbuffers : (g.links l).buffers = none)
    (hinput : (g.ports input).nBuffers = 0) (houtput : (g.ports output).nBuffers = 0)
    (hoinfo : (spa.portGetInfo output).1.isError = false)
    (hiinfo : (spa.portGetInfo input).1.isError = false)
    (hflags : allocFlags inState outState (spa.portGetInfo input).2.flags
      (spa.portGetInfo output).2.flags = .flags inFlags outFlags)
    (hin : hasFlag inFlags canAllocBuffers = false)
    (hout : hasFlag outFlags canAllocBuffers = false) :
    ∃ block,
      (g.doAllocation spa ringbuffer l input output inState outState).1.blocks =
        g.blocks ++ [block] ∧
      (Meets ringbuffer (spa.portGetInfo input).2 (spa.portGetInfo output).2 block ↔
        AsksCovered ringbuffer (spa.portGetInfo input).2 (spa.portGetInfo output).2) := by
  refine ⟨_, ?_, meets_bufferBlock_iff⟩
  have hsome : ¬ (inState ≠ .ready ∧ outState ≠ .ready) := by
    rintro ⟨hinState, houtState⟩
    rw [allocFlags, if_neg (fun h => hinState h.1), if_neg (fun h => hinState h.1),
      if_neg (fun h => houtState h.1)] at hflags
    cases hflags
  have hlinks : (((g.updateLinkState l .allocating).setLive input output
      (spa.portGetInfo output).2.flags).links l).buffers = none := by
    rw [links_setLive, updateLinkState, links_modifyLink]
    split <;> exact hbuffers
  have hports : ((g.updateLinkState l .allocating).setLive input output
      (spa.portGetInfo output).2.flags).ports = g.ports := by
    rw [setLive]
    split <;> rfl
  have hblocks : ((g.updateLinkState l .allocating).setLive input output
      (spa.portGetInfo output).2.flags).blocks = g.blocks := by
    rw [setLive]
    split <;> rfl
  have hown := @prepareBuffers_own _ spa _ l input output inFlags outFlags
    (spa.portGetInfo input).1
    (bufferBlock ringbuffer (spa.portGetInfo input).2 (spa.portGetInfo output).2)
    hlinks (by rw [hports]; exact hinput) (by rw [hports]; exact houtput) hin hout
  unfold doAllocation
  rw [if_neg hsome]
  simp only [hoinfo, hiinfo, Bool.false_eq_true, if_false, hflags, hown, blocks_useBuffers]
  rw [newBuffers]
  show ((g.updateLinkState l .allocating).setLive input output
      (spa.portGetInfo output).2.flags).blocks ++ [_] = _
  rw [hblocks]

/-- Plugins that both enable a ringbuffer, of type 7. -/
def ringbufferNodes (inSize inStride outSize outStride : UInt32) : SpaNodes Unit :=
  { exampleNodes with
    portGetInfo := fun p => (.ok, ⟨canUseBuffers,
      [if p = 1 then .metaEnable (some 7) (some inSize) (some inStride)
        else .metaEnable (some 7) (some outSize) (some outStride)]⟩) }

theorem allocates_as_asked_example : ∃ block,
    ((exampleLink .ready).doAllocation (ringbufferNodes 4096 4 1024 4) 7 0 1 0 .ready
      .ready).1.blocks = [block] ∧
    Meets 7 ⟨canUseBuffers, [.metaEnable (some 7) (some 4096) (some 4)]⟩
      ⟨canUseBuffers, [.metaEnable (some 7) (some 1024) (some 4)]⟩ block := by
  obtain ⟨block, hblocks, hmeets⟩ := @allocates_as_asked_iff Unit (ringbufferNodes 4096 4 1024 4) 7
    (exampleLink .ready) 0 1 0 .ready .ready _ _ rfl rfl rfl rfl rfl rfl rfl rfl
  refine ⟨block, hblocks, hmeets.mpr ?_⟩
  show ∀ ask ∈ [(some 4096, some 4), (some 1024, some 4)], Covers 4096 4 ask.1 ask.2
  simp [Covers]

/-- The output port asks for 8192 bytes, and 4096 are allocated. -/
theorem not_allocates_as_asked :
    ((exampleLink .ready).doAllocation (ringbufferNodes 4096 4 8192 4) 7 0 1 0 .ready
      .ready).1.blocks = [⟨1, 4096, 4⟩] ∧
    ¬ Meets 7 ⟨canUseBuffers, [.metaEnable (some 7) (some 4096) (some 4)]⟩
      ⟨canUseBuffers, [.metaEnable (some 7) (some 8192) (some 4)]⟩ ⟨1, 4096, 4⟩ := by
  refine ⟨rfl, fun hmeets => ?_⟩
  have hlarge := (hmeets.2 (8192, 4) (by decide)).1 8192 rfl
  exact absurd hlarge (by decide)

end Allocates

end Graph
end Pinos
