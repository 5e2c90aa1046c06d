import Mathlib.Data.List.Nodup
import Mathlib.Logic.Function.Basic
import Pinos.Spa.Defs

/-
`client/loop.c`: the sources of a loop and one turn of it, with sources that callbacks remove.

Sources are numbered.  What is freed keeps what it held last, and the trace tells when the
loop looks at a source, when it calls one and when one is removed.
-/

namespace Pinos

/-! ## Sources -/

def epollIn : UInt32 := 0x001
def epollOut : UInt32 := 0x004
def epollErr : UInt32 := 0x008
def epollHup : UInt32 := 0x010

/-- `SpaIO`. -/
abbrev SpaIO := UInt32

def spaIoIn : SpaIO := 1
def spaIoOut : SpaIO := 2
def spaIoHup : SpaIO := 4
def spaIoErr : SpaIO := 8

/-- `spa_io_to_epoll`. -/
def spaIoToEpoll (mask : SpaIO) : UInt32 :=
  (if mask &&& spaIoIn ≠ 0 then epollIn else 0) ||| (if mask &&& spaIoOut ≠ 0 then epollOut else 0)
    ||| (if mask &&& spaIoErr ≠ 0 then epollErr else 0)
    ||| (if mask &&& spaIoHup ≠ 0 then epollHup else 0)

/-- `spa_epoll_to_io`. -/
def spaEpollToIo (events : UInt32) : SpaIO :=
  (if events &&& epollIn ≠ 0 then spaIoIn else 0) |||
    (if events &&& epollOut ≠ 0 then spaIoOut else 0) |||
    (if events &&& epollHup ≠ 0 then spaIoHup else 0) |||
    (if events &&& epollErr ≠ 0 then spaIoErr else 0)

/-- `SpaSource`; whether it has a loop and a file descriptor. -/
structure SpaSource where
  loop : Bool
  fd : Bool
  mask : SpaIO
  rmask : SpaIO

inductive SourceEvent where
  | reads (source : Nat)
  | calls (source : Nat)
  | removes (source : Nat)
  deriving DecidableEq

/-- The part of `PinosLoopImpl` about sources: `sourceList`, what is registered with the epoll
descriptor, and what has been freed. -/
structure LoopSources where
  sources : Nat → SpaSource
  sourceList : List Nat
  registered : List (Nat × UInt32)
  freed : List Nat
  trace : List SourceEvent

namespace LoopSources

def modifySource (s : LoopSources) (source : Nat) (f : SpaSource → SpaSource) : LoopSources :=
  { s with sources := Function.update s.sources source (f (s.sources source)) }

def record (s : LoopSources) (event : SourceEvent) : LoopSources :=
  { s with trace := s.trace ++ [event] }

/-- `loop_add_source`. -/
def addSource (s : LoopSources) (source : Nat) : LoopSources :=
  let s := s.modifySource source fun src => { src with loop := true }
  if (s.sources source).fd then
    { s with registered := s.registered ++ [(source, spaIoToEpoll (s.sources source).mask)] }
  else s

/-- `loop_remove_source`. -/
def removeSource (s : LoopSources) (source : Nat) : LoopSources :=
  let s :=
    if (s.sources source).fd then
      { s with registered := s.registered.filter fun entry => decide (entry.1 ≠ source) }
    else s
  (s.modifySource source fun src => { src with loop := false }).record (.removes source)

/-- `loop_destroy_source`, from a source that has a loop. -/
def destroySource (s : LoopSources) (source : Nat) : LoopSources :=
  let s := ({ s with sourceList := s.sourceList.erase source }).removeSource source
  { s with freed := s.freed ++ [source] }

/-! ## One turn of the loop -/

/-- What a callback does to the sources of the loop. -/
inductive SourceOp where
  | remove (source : Nat)
  | destroy (source : Nat)
  deriving DecidableEq

namespace SourceOp

def source : SourceOp → Nat
  | remove source => source
  | destroy source => source

def perform (s : LoopSources) : SourceOp → LoopSources
  | remove source => s.removeSource source
  | destroy source => s.destroySource source

end SourceOp

/-- An entry that `epoll_wait` fills in. -/
structure EpollEvent where
  source : Nat
  events : UInt32

/-- The first loop of `loop_iterate`. -/
def setRmasks (s : LoopSources) (ep : List EpollEvent) : LoopSources :=
  ep.foldl
    (fun s entry => s.modifySource entry.source fun src =>
      { src with rmask := spaEpollToIo entry.events }) s

/-- A turn of the second loop of `loop_iterate`, when the callbacks of the sources do this. -/
def dispatch (s : LoopSources) (behaves : Nat → List SourceOp) (entry : EpollEvent) :
    LoopSources :=
  let s := s.record (.reads entry.source)
  if (s.sources entry.source).rmask ≠ 0 then
    (behaves entry.source).foldl SourceOp.perform (s.record (.calls entry.source))
  else s

/-- `loop_iterate` from the return of `epoll_wait`, which fills in `ep` or fails.  The hooks
around the wait are left out. -/
def iterate (s : LoopSources) (ep : Option (List EpollEvent)) (behaves : Nat → List SourceOp) :
    LoopSources × SpaResult :=
  match ep with
  | none => (s, .errno)
  | some ep => (ep.foldl (fun s entry => s.dispatch behaves entry) (s.setRmasks ep), .ok)

/-- What `epoll_wait` may fill in: sources that have something they have asked for, each in
one of the 32 entries. -/
structure Ready (s : LoopSources) where
  ep : List EpollEvent
  small : ep.length ≤ 32
  nodup : (ep.map EpollEvent.source).Nodup
  registered : ∀ {entry}, entry ∈ ep → ∃ events, (entry.source, events) ∈ s.registered ∧
    entry.events &&& (events ||| epollErr ||| epollHup) = entry.events
  asked : ∀ {entry}, entry ∈ ep → spaEpollToIo entry.events ≠ 0

/-- A turn of the loop, with its trace. -/
def turn (s : LoopSources) (ready : s.Ready) (behaves : Nat → List SourceOp) : LoopSources :=
  (({ s with trace := [] } : LoopSources).iterate (some ready.ep) behaves).1

/-! ## What a turn is to do -/

/-- Two events in the right order: a source that is removed is not looked at again. -/
def InOrder (first second : SourceEvent) : Prop :=
  ∀ source, first = .removes source → second ≠ .reads source ∧ second ≠ .calls source

/-- A source is removed, and has not been called before. -/
def Skips (trace : List SourceEvent) (source : Nat) : Prop :=
  ∃ before after, trace = before ++ .removes source :: after ∧ .calls source ∉ before

/-- Sources that are removed are left alone, and the others that are ready called once. -/
structure Right (s : LoopSources) (ready : s.Ready) (behaves : Nat → List SourceOp) : Prop where
  inOrder : (s.turn ready behaves).trace.Pairwise InOrder
  once : ∀ {entry}, entry ∈ ready.ep → ¬ Skips (s.turn ready behaves).trace entry.source →
    (s.turn ready behaves).trace.count (.calls entry.source) = 1

/-! ## What a turn does -/

section Turn

variable {s : LoopSources} {behaves : Nat → List SourceOp} {source : Nat} {entry : EpollEvent}

theorem rmask_perform {op : SourceOp} :
    ((op.perform s).sources source).rmask = (s.sources source).rmask := by
  have hremove : ∀ (s : LoopSources) target,
      ((s.removeSource target).sources source).rmask = (s.sources source).rmask := by
    intro s target
    unfold removeSource record modifySource
    dsimp only
    by_cases hsource : source = target
    · rw [hsource, Function.update_self]
      split <;> rfl
    · rw [Function.update_of_ne hsource]
      split <;> rfl
  cases op with
  | remove target => exact hremove s target
  | destroy target => exact hremove _ target

theorem trace_perform {op : SourceOp} : (op.perform s).trace = s.trace ++ [.removes op.source] := by
  have hremove : ∀ (s : LoopSources) target,
      (s.removeSource target).trace = s.trace ++ [.removes target] := by
    intro s target
    unfold removeSource record modifySource
    dsimp only
    split <;> rfl
  cases op with
  | remove target => exact hremove s target
  | destroy target => exact hremove _ target

theorem foldl_perform {ops : List SourceOp} :
    (ops.foldl SourceOp.perform s).trace = s.trace ++ ops.map (fun op => .removes op.source) ∧
      ((ops.foldl SourceOp.perform s).sources source).rmask = (s.sources source).rmask := by
  induction ops generalizing s with
  | nil => exact ⟨(List.append_nil _).symm, rfl⟩
  | cons op ops ih =>
    obtain ⟨htrace, hrmask⟩ := @ih (op.perform s)
    refine ⟨?_, hrmask.trans rmask_perform⟩
    rw [List.foldl_cons, htrace, trace_perform, List.append_assoc]
    rfl

/-- What happens in the turn of a source. -/
def turnEvents (behaves : Nat → List SourceOp) (source : Nat) : List SourceEvent :=
  .reads source :: .calls source :: (behaves source).map fun op => .removes op.source

theorem dispatch_ready (hrmask : (s.sources entry.source).rmask ≠ 0) :
    (s.dispatch behaves entry).trace = s.trace ++ turnEvents behaves entry.source ∧
      ((s.dispatch behaves entry).sources source).rmask = (s.sources source).rmask := by
  obtain ⟨htrace, hkeeps⟩ := @foldl_perform
    ((s.record (.reads entry.source)).record (.calls entry.source)) source (behaves entry.source)
  have hdispatch : s.dispatch behaves entry = (behaves entry.source).foldl SourceOp.perform
      ((s.record (.reads entry.source)).record (.calls entry.source)) := if_pos hrmask
  rw [hdispatch]
  refine ⟨?_, hkeeps⟩
  rw [htrace]
  show s.trace ++ [_] ++ [_] ++ _ = _
  rw [List.append_assoc, List.append_assoc]
  rfl

theorem foldl_dispatch {ep : List EpollEvent}
    (hready : ∀ entry ∈ ep, (s.sources entry.source).rmask ≠ 0) :
    (ep.foldl (fun s entry => s.dispatch behaves entry) s).trace =
      s.trace ++ ep.flatMap fun entry => turnEvents behaves entry.source := by
  induction ep generalizing s with
  | nil => exact (List.append_nil _).symm
  | cons entry ep ih =>
    have hfirst := hready entry List.mem_cons_self
    rw [List.foldl_cons, ih, (@dispatch_ready s behaves 0 entry hfirst).1, List.append_assoc]
    · rfl
    · intro other hother
      rw [(dispatch_ready hfirst).2]
      exact hready other (List.mem_cons_of_mem entry hother)

theorem rmask_setRmasks {ep : List EpollEvent} (hnodup : (ep.map EpollEvent.source).Nodup)
    (hmem : entry ∈ ep) :
    ((s.setRmasks ep).sources entry.source).rmask = spaEpollToIo entry.events := by
  unfold setRmasks
  induction ep generalizing s with
  | nil => cases hmem
  | cons first ep ih =>
    obtain ⟨hfirst, hrest⟩ := List.nodup_cons.mp hnodup
    rw [List.foldl_cons]
    rcases List.mem_cons.mp hmem with rfl | hmem
    · have hkeep : ∀ (s : LoopSources) (ep : List EpollEvent),
          entry.source ∉ ep.map EpollEvent.source →
          ((ep.foldl (fun s entry => s.modifySource entry.source fun src =>
            { src with rmask := spaEpollToIo entry.events }) s).sources entry.source) =
              s.sources entry.source := by
        intro s ep hnot
        induction ep generalizing s with
        | nil => rfl
        | cons other ep ihep =>
          obtain ⟨hne, hnot⟩ := not_or.mp (mt List.mem_cons.mpr hnot)
          rw [List.foldl_cons, ihep _ hnot]
          exact Function.update_of_ne hne ..
      rw [hkeep _ ep hfirst]
      unfold modifySource
      dsimp only
      rw [Function.update_self]
    · exact ih hrest hmem

theorem trace_setRmasks {ep : List EpollEvent} : (s.setRmasks ep).trace = s.trace := by
  unfold setRmasks
  induction ep generalizing s with
  | nil => rfl
  | cons entry ep ih => exact ih

/-- Every source that is ready is looked at and called, one after the other. -/
theorem turn_trace (ready : s.Ready) :
    (s.turn ready behaves).trace =
      ready.ep.flatMap fun entry => turnEvents behaves entry.source := by
  show (List.foldl _ (setRmasks { s with trace := [] } ready.ep) ready.ep).trace = _
  rw [foldl_dispatch, trace_setRmasks, List.nil_append]
  intro entry hentry
  rw [rmask_setRmasks ready.nodup hentry]
  exact ready.asked hentry

theorem mem_turnEvents {x : SourceEvent} :
    x ∈ turnEvents behaves source ↔
      x = .reads source ∨ x = .calls source ∨ ∃ op ∈ behaves source, x = .removes op.source := by
  unfold turnEvents
  rw [List.mem_cons, List.mem_cons, List.mem_map]
  simp only [eq_comm]

theorem turnEvents_inOrder : (turnEvents behaves source).Pairwise InOrder := by
  unfold turnEvents
  refine List.pairwise_cons.mpr ⟨nofun, List.pairwise_cons.mpr ⟨nofun, ?_⟩⟩
  rw [List.pairwise_map]
  exact List.pairwise_of_forall fun _ _ _ _ => ⟨nofun, nofun⟩

/-- The events of the turns of two sources are in order if the first leaves the second alone. -/
theorem turnEvents_inOrder_iff {first second : Nat} :
    (∀ x ∈ turnEvents behaves first, ∀ y ∈ turnEvents behaves second, InOrder x y) ↔
      ∀ op ∈ behaves first, op.source ≠ second := by
  constructor
  · intro h op hop heq
    have hremoves := mem_turnEvents.mpr (.inr (.inr ⟨op, hop, rfl⟩))
    exact (h _ hremoves (.reads second) List.mem_cons_self op.source rfl).1 (by rw [heq])
  · rintro h x hx y hy source rfl
    obtain ⟨op, hop, hsource⟩ : ∃ op ∈ behaves first, op.source = source := by
      rcases mem_turnEvents.mp hx with heq | heq | ⟨op, hop, heq⟩
      · cases heq
      · cases heq
      · exact ⟨op, hop, (SourceEvent.removes.inj heq).symm⟩
    have hne := h op hop
    rw [hsource] at hne
    rcases mem_turnEvents.mp hy with rfl | rfl | ⟨op', -, rfl⟩
    · exact ⟨fun heq => hne (SourceEvent.reads.inj heq).symm, nofun⟩
    · exact ⟨nofun, fun heq => hne (SourceEvent.calls.inj heq).symm⟩
    · exact ⟨nofun, nofun⟩

theorem count_calls_turnEvents {called : Nat} :
    (turnEvents behaves source).count (.calls called) = [source].count called := by
  have hremoves : .calls called ∉ (behaves source).map fun op => SourceEvent.removes op.source := by
    intro hmem
    obtain ⟨op, -, heq⟩ := List.mem_map.mp hmem
    cases heq
  unfold turnEvents
  rw [List.count_cons, List.count_cons, List.count_eq_zero_of_not_mem hremoves, List.count_singleton]
  simp

/-- Every source is called as often as it stands in the list. -/
theorem count_calls {ep : List EpollEvent} {called : Nat} :
    (ep.flatMap fun entry => turnEvents behaves entry.source).count (.calls called) =
      (ep.map EpollEvent.source).count called := by
  induction ep with
  | nil => rfl
  | cons entry ep ih =>
    rw [List.flatMap_cons, List.count_append, ih, count_calls_turnEvents, ← List.count_append]
    rfl

end Turn

/-- A turn does what it is to do exactly when no callback removes a source that is still to be
called. -/
theorem turn_right_iff (s : LoopSources) (ready : s.Ready) (behaves : Nat → List SourceOp) :
    s.Right ready behaves ↔
      ready.ep.Pairwise fun first second =>
        ∀ op ∈ behaves first.source, op.source ≠ second.source := by
  have htrace := @turn_trace s behaves ready
  have hpairwise : (s.turn ready behaves).trace.Pairwise InOrder ↔
      ready.ep.Pairwise fun first second =>
        ∀ op ∈ behaves first.source, op.source ≠ second.source := by
    rw [htrace, List.pairwise_flatMap, and_iff_right fun _ _ => turnEvents_inOrder]
    simp only [turnEvents_inOrder_iff]
  refine ⟨fun h => hpairwise.mp h.inOrder, fun h => ⟨hpairwise.mpr h, ?_⟩⟩
  intro entry hentry _
  rw [htrace, count_calls]
  exact List.count_eq_one_of_mem ready.nodup (List.mem_map_of_mem hentry)

/-- Two sources are added to a loop. -/
def twoReady : LoopSources :=
  (addSource
    { sources := fun _ => { loop := false, fd := true, mask := spaIoIn, rmask := 0 }
      sourceList := [0, 1]
      registered := []
      freed := []
      trace := [] } 0).addSource 1

def twoReady.ready : twoReady.Ready where
  ep := [⟨0, epollIn⟩, ⟨1, epollIn⟩]
  small := by decide
  nodup := by decide
  registered := by
    intro entry hentry
    refine ⟨epollIn, ?_⟩
    rcases List.mem_cons.mp hentry with rfl | hentry
    · decide
    · rw [List.mem_singleton.mp hentry]
      decide
  asked := by
    intro entry hentry
    rcases List.mem_cons.mp hentry with rfl | hentry
    · decide
    · rw [List.mem_singleton.mp hentry]
      decide

/-- A source that a callback destroys is looked at, and called. -/
theorem not_turn_right :
    ¬ ∀ (s : LoopSources) (ready : s.Ready) (behaves : Nat → List SourceOp),
      s.Right ready behaves := by
  intro h
  have hright := (h twoReady twoReady.ready fun source => if source = 0 then [.destroy 1] else []).inOrder
  have htrace : (twoReady.turn twoReady.ready fun source =>
      if source = 0 then [.destroy 1] else []).trace =
        [.reads 0, .calls 0, .removes 1, .reads 1, .calls 1] := by
    rw [turn_trace]
    rfl
  rw [htrace] at hright
  obtain ⟨-, hright⟩ := List.pairwise_cons.mp hright
  obtain ⟨-, hright⟩ := List.pairwise_cons.mp hright
  obtain ⟨hright, -⟩ := List.pairwise_cons.mp hright
  exact (hright (.reads 1) List.mem_cons_self 1 rfl).1 rfl

end LoopSources
end Pinos
