import Pinos.Plugins.PullFrames

/-
The byte stream of an ALSA sink over any calls of `pull_frames`.

The place in the area is computed in the loop from `offset` alone, so the bytes of two buffers
go to one place.
-/

namespace Pinos

open ByteMem

/-- Copies made to an area one after the other. -/
def writeAll (m : Mem) (ws : List (Nat × List UInt8)) : Mem :=
  ws.foldl (fun m w => m.write w.1 w.2) m

/-- What is copied begins where the copy before it ended. -/
def Laid : Nat → List (Nat × List UInt8) → Prop
  | _, [] => True
  | a, w :: ws => (w.2 = [] ∨ w.1 = a) ∧ Laid (a + w.2.length) ws

theorem laid_append {a : Nat} {ws ws' : List (Nat × List UInt8)} :
    Laid a (ws ++ ws') ↔ Laid a ws ∧ Laid (a + (ws.flatMap Prod.snd).length) ws' := by
  induction ws generalizing a with
  | nil => exact (and_iff_right trivial).symm
  | cons w ws ih =>
    show _ ∧ Laid _ (ws ++ ws') ↔ (_ ∧ _) ∧ _
    rw [ih, and_assoc, List.flatMap_cons, List.length_append, Nat.add_assoc]

theorem holds_writeAll {m : Mem} {a : Nat} {bs : List UInt8} {ws : List (Nat × List UInt8)}
    (h : m.Holds a bs) (hlaid : Laid (a + bs.length) ws) :
    (writeAll m ws).Holds a (bs ++ ws.flatMap Prod.snd) := by
  induction ws generalizing m bs with
  | nil => rwa [List.flatMap_nil, List.append_nil]
  | cons w ws ih =>
    obtain ⟨hhead, hrest⟩ := hlaid
    rw [List.flatMap_cons, ← List.append_assoc]
    have hnext : (m.write w.1 w.2).Holds a (bs ++ w.2) := by
      rcases hhead with hempty | hplace
      · rw [hempty, Mem.write_nil, List.append_nil]
        exact h
      · rw [hplace]
        exact Mem.holds_append.mpr
          ⟨h.write_outside (.inl (Nat.le_refl _)), Mem.holds_write ..⟩
    refine ih hnext ?_
    rwa [List.length_append, ← Nat.add_assoc]

/-- Copies that are laid one after the other are all in the area. -/
theorem Laid.read {m : Mem} {a : Nat} {ws : List (Nat × List UInt8)} (h : Laid a ws) :
    (writeAll m ws).read a (ws.flatMap Prod.snd).length = ws.flatMap Prod.snd :=
  holds_writeAll (Mem.holds_nil m a) h

namespace SpaALSAState

/-- What is queued is well formed, and of the first buffer whole frames are copied. -/
structure Good (s : SpaALSAState) : Prop where
  frameSize_pos : 0 < s.frameSize
  wellFormed : ∀ b ∈ s.ready, b.WellFormed s.frameSize
  reached : ∀ b ∈ s.ready.head?, b.Reached s.frameSize s.readyOffset
  idle : s.ready = [] → s.readyOffset = 0

/-- The bytes that are queued and not copied yet, of the first buffer those from
`ready_offset`. -/
def pending (s : SpaALSAState) : List UInt8 :=
  match s.ready with
  | [] => []
  | b :: bs => b.rest s.readyOffset ++ bs.flatMap (·.rest 0)

theorem pending_fresh {s : SpaALSAState} (h : s.readyOffset = 0) :
    s.pending = s.ready.flatMap (·.rest 0) := by
  unfold pending
  cases s.ready with
  | nil => rfl
  | cons b bs => rw [h, List.flatMap_cons]

theorem pending_nil {s : SpaALSAState} (h : s.ready = []) : s.pending = [] := by
  rw [pending, h]

theorem pending_queue {s : SpaALSAState} (hidle : s.ready = [] → s.readyOffset = 0)
    (b : SpaALSABuffer) :
    { s with ready := s.ready ++ [b] }.pending = s.pending ++ b.rest 0 := by
  unfold pending
  dsimp only
  cases hready : s.ready with
  | nil =>
    rw [hidle hready]
    exact List.append_nil _
  | cons first bs =>
    show _ ++ List.flatMap _ (bs ++ [b]) = _ ++ _ ++ _
    rw [List.flatMap_append, List.flatMap_singleton, List.append_assoc]

theorem reached_zero {b : SpaALSABuffer} {frameSize : Nat} : b.Reached frameSize 0 :=
  fun _ => ⟨Nat.zero_le _, Nat.dvd_zero _⟩

end SpaALSAState

/-- When `pull_frames` puts the bytes of its buffers one after the other: each buffer it comes to
is copied right, and there are bytes in one of them at most. -/
def QueueFits (frameSize : Nat) : List SpaALSABuffer → Nat → Nat → Nat → Prop
  | [], _, _, _ => True
  | b :: bs, readyOffset, room, copied =>
    room = 0 ∨
      b.Fits frameSize readyOffset room ∧ (b.rest readyOffset = [] ∨ copied = 0) ∧
        ((b.rest readyOffset).length ≤ room →
          QueueFits frameSize bs 0 (room - (b.rest readyOffset).length)
            (copied + (b.rest readyOffset).length))

namespace PullState

variable {s : PullState} {dst turns : Nat} {b : SpaALSABuffer} {bs : List SpaALSABuffer}
  {queue : List UInt8} {room : Nat}

def bytes (s : PullState) : List UInt8 := s.writes.flatMap Prod.snd

/-- Every turn of the loop copies its buffer right. -/
def LoopRight (dst : Nat) : Nat → PullState → Prop
  | 0, _ => True
  | turns + 1, s =>
    s.state.ready = [] ∨ s.toWrite = 0 ∨
      (∀ b ∈ s.state.ready.head?,
        b.CopiesRight s.state.frameSize s.state.readyOffset s.toWrite) ∧
      LoopRight dst turns (s.pullBuffer dst)

structure Inv (queue : List UInt8) (room : Nat) (s : PullState) : Prop where
  good : s.state.Good
  stream : s.bytes ++ s.state.pending = queue
  frames : s.totalFrames * s.state.frameSize = s.bytes.length
  room : s.toWrite * s.state.frameSize + s.bytes.length = room

theorem pullLoop_stop (h : s.state.ready = [] ∨ s.toWrite = 0) : s.pullLoop dst turns = s := by
  cases turns with
  | zero => rfl
  | succ turns => rw [pullLoop, if_pos h]

theorem pullLoop_turn (hready : s.state.ready = b :: bs) (hwrite : s.toWrite ≠ 0) :
    s.pullLoop dst (turns + 1) = (s.pullBuffer dst).pullLoop dst turns := by
  rw [pullLoop, if_neg]
  rintro (hempty | hzero)
  · rw [hready] at hempty
    exact absurd hempty (List.cons_ne_nil b bs)
  · exact hwrite hzero

theorem frameSize_pullBuffer : (s.pullBuffer dst).state.frameSize = s.state.frameSize := by
  unfold pullBuffer
  split
  · rfl
  · dsimp only
    split
    · rfl
    · rfl

theorem frameSize_pullLoop : (s.pullLoop dst turns).state.frameSize = s.state.frameSize := by
  induction turns generalizing s with
  | zero => rfl
  | succ turns ih =>
    unfold pullLoop
    split
    · rfl
    · rw [ih, frameSize_pullBuffer]

/-- A turn, with what is copied in it. -/
theorem pullBuffer_cons (hready : s.state.ready = b :: bs) {copied : SpaALSABuffer.Copied}
    (hcopied : b.copy s.state.readyOffset (s.toWrite * s.state.frameSize) = copied) :
    s.pullBuffer dst =
      { state :=
          if copied.reuse then
            { s.state with
              ready := bs
              readyOffset := 0
              io := { s.state.io with bufferId := b.id }
              reused := s.state.reused ++ [b.id] }
          else { s.state with ready := copied.buffer :: bs, readyOffset := copied.readyOffset }
        totalFrames := s.totalFrames + min s.toWrite (copied.nBytes / s.state.frameSize)
        toWrite := s.toWrite - min s.toWrite (copied.nBytes / s.state.frameSize)
        writes := s.writes ++ [(dst, copied.bytes)] } := by
  unfold pullBuffer
  rw [hready]
  dsimp only
  rw [hcopied]

theorem bytes_pullBuffer (hready : s.state.ready = b :: bs) :
    (s.pullBuffer dst).bytes =
      s.bytes ++ (b.copy s.state.readyOffset (s.toWrite * s.state.frameSize)).bytes := by
  rw [pullBuffer_cons hready rfl]
  show (s.writes ++ [_]).flatMap Prod.snd = _
  rw [List.flatMap_append, List.flatMap_singleton]
  rfl

theorem pending_cons (hready : s.state.ready = b :: bs) :
    s.state.pending = b.rest s.state.readyOffset ++ bs.flatMap (·.rest 0) := by
  rw [SpaALSAState.pending, hready]

/-- What a right turn leaves, when the buffer is finished and when it is not. -/
theorem state_pullBuffer (hgood : s.state.Good) (hready : s.state.ready = b :: bs)
    (hright : b.CopiesRight s.state.frameSize s.state.readyOffset s.toWrite) :
    (s.pullBuffer dst).state.Good ∧
      (b.copy s.state.readyOffset (s.toWrite * s.state.frameSize)).bytes ++
        (s.pullBuffer dst).state.pending = s.state.pending := by
  have hwf : b.WellFormed s.state.frameSize :=
    hgood.wellFormed b (by rw [hready]; exact List.mem_cons_self)
  have hreached : b.Reached s.state.frameSize s.state.readyOffset :=
    hgood.reached b (by rw [hready]; rfl)
  have hothers : ∀ b' ∈ bs, b'.WellFormed s.state.frameSize := fun b' hmem =>
    hgood.wellFormed b' (by rw [hready]; exact List.mem_cons_of_mem b hmem)
  rw [pending_cons hready, hright.bytes, pullBuffer_cons hready rfl]
  by_cases hlong : (b.rest s.state.readyOffset).length ≤ s.toWrite * s.state.frameSize
  · dsimp only
    rw [if_pos (hright.reuse.mpr hlong), List.take_of_length_le hlong,
      SpaALSAState.pending_fresh rfl]
    exact ⟨⟨hgood.frameSize_pos, hothers, fun _ _ => SpaALSAState.reached_zero, fun _ => rfl⟩, rfl⟩
  · obtain ⟨hrest, hwf', hreached'⟩ := hright.unfinished hwf hreached (Nat.lt_of_not_le hlong)
    dsimp only
    rw [if_neg fun hreuse => hlong (hright.reuse.mp hreuse)]
    refine ⟨⟨hgood.frameSize_pos, ?_, ?_, nofun⟩, ?_⟩
    · rintro b' (_ | ⟨_, hmem⟩)
      · exact hwf'
      · exact hothers b' hmem
    · rintro b' ⟨⟩
      exact hreached'
    · show _ ++ (_ ++ _) = _
      rw [hrest, ← List.append_assoc, List.take_append_drop]

/-- A turn that copies its buffer right keeps the loop right. -/
theorem Inv.pullBuffer (hinv : s.Inv queue room) (hready : s.state.ready = b :: bs)
    (hright : b.CopiesRight s.state.frameSize s.state.readyOffset s.toWrite) :
    (s.pullBuffer dst).Inv queue room := by
  obtain ⟨hgood, hpending⟩ := @state_pullBuffer _ dst _ _ hinv.good hready hright
  have hstream := hinv.stream
  have hframes := hinv.frames
  have hroom := hinv.room
  have hcount := hright.frames
  have hbytes := @bytes_pullBuffer _ dst _ _ hready
  refine ⟨hgood, ?_, ?_, ?_⟩
  · rw [hbytes, List.append_assoc, hpending, hstream]
  · rw [hbytes, frameSize_pullBuffer, pullBuffer_cons hready rfl, Nat.add_mul, hframes, hcount,
      List.length_append]
  · rw [hbytes, frameSize_pullBuffer, pullBuffer_cons hready rfl, Nat.sub_mul, hcount,
      List.length_append]
    have hle : (b.copy s.state.readyOffset (s.toWrite * s.state.frameSize)).bytes.length ≤
        s.toWrite * s.state.frameSize := by
      rw [← hcount]
      exact Nat.mul_le_mul_right _ (Nat.min_le_left _ _)
    omega

/-- A loop whose turns are right hands on what was queued. -/
theorem Inv.pullLoop (hinv : s.Inv queue room) (hright : LoopRight dst turns s) :
    (s.pullLoop dst turns).Inv queue room := by
  induction turns generalizing s with
  | zero => exact hinv
  | succ turns ih =>
    rcases hright with hempty | hzero | ⟨hturn, hrest⟩
    · rwa [pullLoop_stop (.inl hempty)]
    · rwa [pullLoop_stop (.inr hzero)]
    · unfold PullState.pullLoop
      split
      · exact hinv
      · cases hready : s.state.ready with
        | nil => exact ih (by rwa [PullState.pullBuffer, hready]) hrest
        | cons b bs => exact ih (hinv.pullBuffer hready (hturn b (by rw [hready]; rfl))) hrest

/-- A buffer that is not reused has filled the room. -/
theorem nBytes_of_not_reuse {readyOffset room : Nat}
    (h : (b.copy readyOffset room).reuse = false) : (b.copy readyOffset room).nBytes = room := by
  unfold SpaALSABuffer.copy at h ⊢
  cases hrb : b.rb with
  | none =>
    rw [hrb] at h
    have hleft := of_decide_eq_false h
    show min _ room = room
    omega
  | some rb =>
    rw [hrb] at h
    have hleft := of_decide_eq_false h
    show min _ room = room
    omega

/-- A turn finishes a buffer or fills the area. -/
theorem pullBuffer_advances (hpos : 0 < s.state.frameSize) (hready : s.state.ready = b :: bs) :
    (s.pullBuffer dst).state.ready = bs ∨ (s.pullBuffer dst).toWrite = 0 := by
  rw [pullBuffer_cons hready rfl]
  dsimp only
  cases hreuse : (b.copy s.state.readyOffset (s.toWrite * s.state.frameSize)).reuse with
  | true => exact .inl rfl
  | false =>
    right
    rw [nBytes_of_not_reuse hreuse, Nat.mul_div_cancel _ hpos, Nat.min_self, Nat.sub_self]

/-- A turn for each buffer is enough. -/
theorem pullLoop_done (hpos : 0 < s.state.frameSize) (hturns : s.state.ready.length ≤ turns) :
    (s.pullLoop dst turns).state.ready = [] ∨ (s.pullLoop dst turns).toWrite = 0 := by
  induction turns generalizing s with
  | zero => exact .inl (List.length_eq_zero_iff.mp (Nat.le_zero.mp hturns))
  | succ turns ih =>
    by_cases hstop : s.state.ready = [] ∨ s.toWrite = 0
    · rwa [pullLoop_stop hstop]
    · obtain ⟨hready, hwrite⟩ := not_or.mp hstop
      obtain ⟨b, bs, hready⟩ := List.exists_cons_of_ne_nil hready
      rw [pullLoop_turn hready hwrite]
      rcases @pullBuffer_advances _ dst _ _ hpos hready with hnext | hfull
      · refine ih (by rwa [frameSize_pullBuffer]) ?_
        rw [hready, List.length_cons] at hturns
        rw [hnext]
        exact Nat.le_of_succ_le_succ hturns
      · rw [pullLoop_stop (.inr hfull)]
        exact .inr hfull

theorem room_pos (hpos : 0 < s.state.frameSize) (hwrite : s.toWrite ≠ 0) :
    s.toWrite * s.state.frameSize ≠ 0 :=
  Nat.mul_ne_zero hwrite (Nat.ne_of_gt hpos)

/-- The copies of the loop before some turns are copies of the loop. -/
theorem laid_of_pullLoop {a : Nat} (h : Laid a (s.pullLoop dst turns).writes) : Laid a s.writes := by
  induction turns generalizing s with
  | zero => exact h
  | succ turns ih =>
    unfold pullLoop at h
    split at h
    · exact h
    · have hnext := ih h
      cases hready : s.state.ready with
      | nil => rwa [pullBuffer, hready] at hnext
      | cons b bs =>
        rw [pullBuffer_cons hready rfl] at hnext
        exact (laid_append.mp hnext).1

/-- Where the copy of a turn belongs. -/
theorem laid_pullBuffer (hpos : 0 < s.state.frameSize) (hwrite : s.toWrite ≠ 0)
    (hready : s.state.ready = b :: bs)
    (hright : b.CopiesRight s.state.frameSize s.state.readyOffset s.toWrite)
    (hlaid : Laid dst s.writes) :
    Laid dst (s.pullBuffer dst).writes ↔ b.rest s.state.readyOffset = [] ∨ s.bytes.length = 0 := by
  rw [pullBuffer_cons hready rfl]
  show Laid dst (s.writes ++ [_]) ↔ _
  rw [laid_append, and_iff_right hlaid]
  show (_ ∨ dst = dst + s.bytes.length) ∧ True ↔ _
  rw [and_true, hright.bytes, List.take_eq_nil_iff]
  have hroom := room_pos hpos hwrite
  have hplace : dst = dst + s.bytes.length ↔ s.bytes.length = 0 := by omega
  rw [hplace, or_iff_right hroom]

/-- A buffer that is finished in a right turn. -/
theorem pullBuffer_finished (hinv : s.Inv queue room) (hready : s.state.ready = b :: bs)
    (hright : b.CopiesRight s.state.frameSize s.state.readyOffset s.toWrite)
    (hle : (b.rest s.state.readyOffset).length ≤ s.toWrite * s.state.frameSize) :
    (s.pullBuffer dst).state.ready = bs ∧ (s.pullBuffer dst).state.readyOffset = 0 ∧
      (s.pullBuffer dst).bytes.length =
        s.bytes.length + (b.rest s.state.readyOffset).length ∧
      (s.pullBuffer dst).toWrite * s.state.frameSize =
        s.toWrite * s.state.frameSize - (b.rest s.state.readyOffset).length := by
  have hbytes : (s.pullBuffer dst).bytes.length =
      s.bytes.length + (b.rest s.state.readyOffset).length := by
    rw [bytes_pullBuffer hready, hright.bytes, List.take_of_length_le hle, List.length_append]
  have hroom := hinv.room
  have hroom' := (@Inv.pullBuffer _ dst _ _ _ _ hinv hready hright).room
  rw [frameSize_pullBuffer] at hroom'
  refine ⟨?_, ?_, hbytes, by omega⟩
  · rw [pullBuffer_cons hready rfl]
    dsimp only
    rw [if_pos (hright.reuse.mpr hle)]
  · rw [pullBuffer_cons hready rfl]
    dsimp only
    rw [if_pos (hright.reuse.mpr hle)]

/-- One that is not finished fills the area. -/
theorem pullBuffer_unfinished (hpos : 0 < s.state.frameSize) (hready : s.state.ready = b :: bs)
    (hright : b.CopiesRight s.state.frameSize s.state.readyOffset s.toWrite)
    (hlong : ¬ (b.rest s.state.readyOffset).length ≤ s.toWrite * s.state.frameSize) :
    (s.pullBuffer dst).toWrite = 0 := by
  have hreuse : (b.copy s.state.readyOffset (s.toWrite * s.state.frameSize)).reuse = false :=
    Bool.eq_false_iff.mpr fun h => hlong (hright.reuse.mp h)
  rw [pullBuffer_cons hready rfl]
  dsimp only
  rw [nBytes_of_not_reuse hreuse, Nat.mul_div_cancel _ hpos, Nat.min_self, Nat.sub_self]

/-- The loop is right exactly when the queue fits. -/
theorem loopRight_iff (hinv : s.Inv queue room) (hsmall : s.toWrite * s.state.frameSize < 2 ^ 63)
    (hturns : s.state.ready.length ≤ turns) (hlaid : Laid dst s.writes) :
    LoopRight dst turns s ∧ Laid dst (s.pullLoop dst turns).writes ↔
      QueueFits s.state.frameSize s.state.ready s.state.readyOffset
        (s.toWrite * s.state.frameSize) s.bytes.length := by
  induction turns generalizing s with
  | zero =>
    rw [List.length_eq_zero_iff.mp (Nat.le_zero.mp hturns)]
    exact iff_of_true ⟨trivial, hlaid⟩ trivial
  | succ turns ih =>
    have hpos := hinv.good.frameSize_pos
    cases hready : s.state.ready with
    | nil =>
      rw [pullLoop_stop (.inl hready)]
      exact iff_of_true ⟨.inl hready, hlaid⟩ trivial
    | cons b bs =>
      by_cases hwrite : s.toWrite = 0
      · rw [pullLoop_stop (.inr hwrite)]
        exact iff_of_true ⟨.inr (.inl hwrite), hlaid⟩ (.inl (by rw [hwrite, Nat.zero_mul]))
      · have hwf : b.WellFormed s.state.frameSize :=
          hinv.good.wellFormed b (by rw [hready]; exact List.mem_cons_self)
        have hreached : b.Reached s.state.frameSize s.state.readyOffset :=
          hinv.good.reached b (by rw [hready]; rfl)
        have hfits := SpaALSABuffer.copiesRight_iff hpos hwf hreached hsmall
        have hturn : LoopRight dst (turns + 1) s ↔
            b.CopiesRight s.state.frameSize s.state.readyOffset s.toWrite ∧
              LoopRight dst turns (s.pullBuffer dst) := by
          show _ ∨ _ ∨ _ ↔ _
          rw [hready, or_iff_right (List.cons_ne_nil b bs), or_iff_right hwrite]
          exact and_congr_left' (by simp only [List.head?_cons, Option.mem_some_iff, forall_eq'])
        rw [pullLoop_turn hready hwrite, hturn, QueueFits, or_iff_right (room_pos hpos hwrite),
          ← hfits, and_assoc]
        refine and_congr_right fun hright => ?_
        rw [← laid_pullBuffer hpos hwrite hready hright hlaid]
        by_cases hle : (b.rest s.state.readyOffset).length ≤ s.toWrite * s.state.frameSize
        · obtain ⟨hbs, hoffset, hbytes, hroom⟩ :=
            @pullBuffer_finished _ dst _ _ _ _ hinv hready hright hle
          have hnext := ih (@Inv.pullBuffer _ dst _ _ _ _ hinv hready hright)
            (by rw [frameSize_pullBuffer, hroom]; omega)
            (by rw [hready, List.length_cons] at hturns; rw [hbs]; omega)
          rw [frameSize_pullBuffer, hbs, hoffset, hroom, hbytes] at hnext
          constructor
          · rintro ⟨hrest, hall⟩
            have hhere := laid_of_pullLoop hall
            exact ⟨hhere, fun _ => (hnext hhere).mp ⟨hrest, hall⟩⟩
          · rintro ⟨hhere, hfits⟩
            exact (hnext hhere).mpr (hfits hle)
        · have hfull := @pullBuffer_unfinished _ dst _ _ hpos hready hright hle
          rw [pullLoop_stop (.inr hfull)]
          constructor
          · rintro ⟨-, hhere⟩
            exact ⟨hhere, fun h => absurd h hle⟩
          · rintro ⟨hhere, -⟩
            refine ⟨?_, hhere⟩
            cases turns with
            | zero => trivial
            | succ turns => exact .inr (.inl hfull)

end PullState

namespace PulledFrames

def bytes (p : PulledFrames) : List UInt8 := p.writes.flatMap Prod.snd

end PulledFrames

/-- A sink in use, with the bytes that were queued in it and those it placed in the areas. -/
structure AlsaUse where
  state : SpaALSAState
  queued : List UInt8
  placed : List UInt8

/-- A buffer comes; frames are pulled, and buffers come when they are asked for. -/
inductive AlsaOp
  | queue (b : SpaALSABuffer)
  | pull (offset frames : Nat) (doPull : Bool) (fed : List SpaALSABuffer)

namespace AlsaUse

def start (s : SpaALSAState) : AlsaUse := ⟨s, s.pending, []⟩

def step (u : AlsaUse) : AlsaOp → AlsaUse
  | .queue b =>
    { u with
      state := { u.state with ready := u.state.ready ++ [b] }
      queued := u.queued ++ b.rest 0 }
  | .pull offset frames doPull fed =>
    let (state, pulled) := u.state.pullFrames offset frames doPull fed
    { state
      queued :=
        if u.state.ready = [] ∧ doPull then u.queued ++ fed.flatMap (·.rest 0) else u.queued
      placed := u.placed ++ pulled.bytes }

/-- Buffers are well formed, and an area is in memory. -/
def Admits (u : AlsaUse) : AlsaOp → Prop
  | .queue b => b.WellFormed u.state.frameSize
  | .pull _ frames _ fed =>
    (∀ b ∈ fed, b.WellFormed u.state.frameSize) ∧ frames * u.state.frameSize < 2 ^ 63

/-- What was placed and what is still to be placed is what was queued. -/
def Streams (u : AlsaUse) : Prop := u.placed ++ u.state.pending = u.queued

/-- A call that hands on what was queued.  In each turn the next bytes of the buffer are copied,
and it is reused exactly when these are all it has; the copies of the turns are one after the other
in the area, and stay there; the frames that were placed are returned; the call ends when
nothing is left to copy or the area is full. -/
structure PullsRight (u : AlsaUse) (offset frames : Nat) (doPull : Bool)
    (fed : List SpaALSABuffer) (after : AlsaUse) (pulled : PulledFrames) : Prop where
  turns : (u.state.pullStart frames doPull fed).LoopRight (offset * u.state.frameSize)
    (u.state.needInput frames doPull fed).ready.length
  laid : Laid (offset * u.state.frameSize) pulled.writes
  area : ∀ m : Mem, (writeAll m pulled.writes).read (offset * u.state.frameSize)
    pulled.bytes.length = pulled.bytes
  stream : after.Streams
  counted : pulled.totalFrames * u.state.frameSize =
    pulled.bytes.length + pulled.silence * u.state.frameSize
  ended : after.state.ready = [] ∨ pulled.bytes.length = frames * u.state.frameSize

def Right (u : AlsaUse) : AlsaOp → Prop
  | .queue b => (u.step (.queue b)).Streams
  | .pull offset frames doPull fed =>
    u.PullsRight offset frames doPull fed (u.step (.pull offset frames doPull fed))
      (u.state.pullFrames offset frames doPull fed).2

/-- The buffers a call comes to are copied right, and one of them at most has bytes left. -/
def Fits (u : AlsaUse) : AlsaOp → Prop
  | .queue _ => True
  | .pull _ frames doPull fed =>
    QueueFits u.state.frameSize (u.state.needInput frames doPull fed).ready u.state.readyOffset
      (frames * u.state.frameSize) 0

structure Inv (u : AlsaUse) : Prop where
  good : u.state.Good
  stream : u.Streams

variable {u : AlsaUse} {offset frames : Nat} {doPull : Bool} {fed : List SpaALSABuffer}

theorem frameSize_needInput (s : SpaALSAState) :
    (s.needInput frames doPull fed).frameSize = s.frameSize := by
  unfold SpaALSAState.needInput
  split
  · rfl
  · rfl

theorem readyOffset_needInput (s : SpaALSAState) :
    (s.needInput frames doPull fed).readyOffset = s.readyOffset := by
  unfold SpaALSAState.needInput
  split
  · rfl
  · rfl

/-- A buffer that comes is after those that are there. -/
theorem Inv.queue (hinv : u.Inv) {b : SpaALSABuffer} (hwf : b.WellFormed u.state.frameSize) :
    (u.step (.queue b)).Inv := by
  have hstream : u.placed ++ u.state.pending = u.queued := hinv.stream
  refine ⟨⟨hinv.good.frameSize_pos, ?_, ?_, ?_⟩, ?_⟩
  · intro b' hmem
    rcases List.mem_append.mp hmem with hold | hnew
    · exact hinv.good.wellFormed b' hold
    · rw [List.mem_singleton.mp hnew]
      exact hwf
  · intro b' hhead
    cases hready : u.state.ready with
    | nil =>
      show b'.Reached u.state.frameSize u.state.readyOffset
      rw [hinv.good.idle hready]
      exact SpaALSAState.reached_zero
    | cons first bs =>
      refine hinv.good.reached b' ?_
      rw [step, hready] at hhead
      rw [hready]
      exact hhead
  · intro hempty
    exact absurd hempty (List.append_ne_nil_of_right_ne_nil _ (List.cons_ne_nil b []))
  · show u.placed ++ SpaALSAState.pending _ = u.queued ++ b.rest 0
    rw [← hstream, List.append_assoc]
    exact congrArg _ (SpaALSAState.pending_queue hinv.good.idle b)

/-- The loop begins right. -/
theorem Inv.pullStart (hinv : u.Inv) (hfed : ∀ b ∈ fed, b.WellFormed u.state.frameSize) :
    (u.state.pullStart frames doPull fed).Inv (u.state.needInput frames doPull fed).pending
      (frames * u.state.frameSize) := by
  refine ⟨?_, rfl, Nat.zero_mul _, ?_⟩
  · show (u.state.needInput frames doPull fed).Good
    unfold SpaALSAState.needInput
    split
    · next hneed =>
      have hoffset := hinv.good.idle hneed.1
      refine ⟨hinv.good.frameSize_pos, hfed, fun b _ => ?_, fun _ => hoffset⟩
      show b.Reached u.state.frameSize u.state.readyOffset
      rw [hoffset]
      exact SpaALSAState.reached_zero
    · exact hinv.good
  · show frames * (u.state.needInput frames doPull fed).frameSize + 0 = _
    rw [frameSize_needInput, Nat.add_zero]

/-- What was queued, with the buffers that come when they are asked for. -/
theorem Inv.queued (hinv : u.Inv) :
    u.placed ++ (u.state.needInput frames doPull fed).pending =
      (u.step (.pull offset frames doPull fed)).queued := by
  have hstream : u.placed ++ u.state.pending = u.queued := hinv.stream
  show _ = if _ then _ else _
  unfold SpaALSAState.needInput
  split
  · next hneed =>
    rw [← hstream, SpaALSAState.pending_nil hneed.1, List.append_nil]
    exact congrArg _ (SpaALSAState.pending_fresh (hinv.good.idle hneed.1))
  · exact hstream

/-- `pull_frames` where its loop ends. -/
def pullEnd (u : AlsaUse) (offset frames : Nat) (doPull : Bool) (fed : List SpaALSABuffer) :
    PullState :=
  (u.state.pullStart frames doPull fed).pullLoop (offset * u.state.frameSize)
    (u.state.needInput frames doPull fed).ready.length

def TurnsRight (u : AlsaUse) (offset frames : Nat) (doPull : Bool) (fed : List SpaALSABuffer) :
    Prop :=
  (u.state.pullStart frames doPull fed).LoopRight (offset * u.state.frameSize)
    (u.state.needInput frames doPull fed).ready.length

theorem frameSize_pullEnd :
    (u.pullEnd offset frames doPull fed).state.frameSize = u.state.frameSize :=
  PullState.frameSize_pullLoop.trans (frameSize_needInput u.state)

theorem pullFrames_state :
    (u.state.pullFrames offset frames doPull fed).1 =
      (u.pullEnd offset frames doPull fed).state := by
  unfold SpaALSAState.pullFrames
  dsimp only
  split
  · rfl
  · rfl

theorem pullFrames_writes :
    (u.state.pullFrames offset frames doPull fed).2.writes =
      (u.pullEnd offset frames doPull fed).writes := by
  unfold SpaALSAState.pullFrames
  dsimp only
  split
  · rfl
  · rfl

theorem pullFrames_bytes :
    (u.state.pullFrames offset frames doPull fed).2.bytes =
      (u.pullEnd offset frames doPull fed).bytes :=
  congrArg (List.flatMap Prod.snd) pullFrames_writes

/-- What a call returns, when its loop counts the frames it copies. -/
theorem pullFrames_counted {queue : List UInt8} {room : Nat}
    (hend : (u.pullEnd offset frames doPull fed).Inv queue room) :
    (u.state.pullFrames offset frames doPull fed).2.totalFrames * u.state.frameSize =
      (u.state.pullFrames offset frames doPull fed).2.bytes.length +
        (u.state.pullFrames offset frames doPull fed).2.silence * u.state.frameSize := by
  have hframes := hend.frames
  rw [frameSize_pullEnd] at hframes
  rw [pullFrames_bytes]
  unfold SpaALSAState.pullFrames
  dsimp only
  split
  · next hnone =>
    have hzero := hframes.symm.trans
      ((congrArg (· * u.state.frameSize) hnone.1).trans (Nat.zero_mul _))
    rw [hzero, Nat.zero_add]
  · rw [Nat.zero_mul, Nat.add_zero]
    exact hframes

/-- The queue fits exactly when the turns of the loop are right and its copies laid in order. -/
theorem fits_pull (hinv : u.Inv) (hadmits : u.Admits (.pull offset frames doPull fed)) :
    u.TurnsRight offset frames doPull fed ∧
        Laid (offset * u.state.frameSize) (u.pullEnd offset frames doPull fed).writes ↔
      u.Fits (.pull offset frames doPull fed) := by
  have hframeSize : (u.state.pullStart frames doPull fed).state.frameSize = u.state.frameSize :=
    frameSize_needInput u.state
  have hloop := @PullState.loopRight_iff _ (offset * u.state.frameSize) _ _ _
    (hinv.pullStart hadmits.1) (by rw [hframeSize]; exact hadmits.2) (Nat.le_refl _) trivial
  refine hloop.trans ?_
  rw [hframeSize]
  show QueueFits _ _ (u.state.needInput frames doPull fed).readyOffset _ _ ↔ _
  rw [readyOffset_needInput]
  rfl

/-- What comes of a call whose turns are right. -/
theorem Inv.pull (hinv : u.Inv) (hadmits : u.Admits (.pull offset frames doPull fed))
    (hright : u.TurnsRight offset frames doPull fed) :
    (u.step (.pull offset frames doPull fed)).Inv ∧
      (u.pullEnd offset frames doPull fed).Inv (u.state.needInput frames doPull fed).pending
        (frames * u.state.frameSize) := by
  have hend : (u.pullEnd offset frames doPull fed).Inv
      (u.state.needInput frames doPull fed).pending (frames * u.state.frameSize) :=
    (hinv.pullStart hadmits.1).pullLoop hright
  refine ⟨⟨?_, ?_⟩, hend⟩
  · show (u.state.pullFrames offset frames doPull fed).1.Good
    rw [pullFrames_state]
    exact hend.good
  · show (u.placed ++ (u.state.pullFrames offset frames doPull fed).2.bytes) ++
      (u.state.pullFrames offset frames doPull fed).1.pending = _
    rw [pullFrames_bytes, pullFrames_state, List.append_assoc, hend.stream, hinv.queued]

/-- A call is right exactly when the queue fits. -/
theorem Inv.pull_right (hinv : u.Inv) (hadmits : u.Admits (.pull offset frames doPull fed)) :
    u.Right (.pull offset frames doPull fed) ↔ u.Fits (.pull offset frames doPull fed) := by
  rw [← fits_pull hinv hadmits]
  constructor
  · intro hright
    have hlaid := hright.laid
    rw [pullFrames_writes] at hlaid
    exact ⟨hright.turns, hlaid⟩
  · rintro ⟨hturns, hlaid⟩
    obtain ⟨hafter, hend⟩ := hinv.pull hadmits hturns
    have hlaid' : Laid (offset * u.state.frameSize)
        (u.state.pullFrames offset frames doPull fed).2.writes := by
      rwa [pullFrames_writes]
    refine ⟨hturns, hlaid', fun m => hlaid'.read, hafter.stream, pullFrames_counted hend, ?_⟩
    have hpos : 0 < (u.state.pullStart frames doPull fed).state.frameSize :=
      (hinv.pullStart hadmits.1).good.frameSize_pos
    show (u.state.pullFrames offset frames doPull fed).1.ready = [] ∨ _
    rw [pullFrames_state, pullFrames_bytes, ← hend.room]
    rcases @PullState.pullLoop_done _ (offset * u.state.frameSize) _ hpos (Nat.le_refl _)
      with hempty | hfull
    · exact .inl hempty
    · right
      rw [show (u.pullEnd offset frames doPull fed).toWrite = 0 from hfull, Nat.zero_mul,
        Nat.zero_add]

variable {s : SpaALSAState} {ops : List AlsaOp}

theorem inv_start (hgood : s.Good) : (start s).Inv := ⟨hgood, rfl⟩

theorem Inv.step (hinv : u.Inv) {op : AlsaOp} (hadmits : u.Admits op) (hfits : u.Fits op) :
    (u.step op).Inv := by
  cases op with
  | queue b => exact hinv.queue hadmits
  | pull offset frames doPull fed =>
    exact (hinv.pull hadmits ((fits_pull hinv hadmits).mpr hfits).1).1

/-- The areas get what was queued, in every call of a run, exactly when every call fits. -/
theorem run_pulls_iff (hgood : s.Good) (hadmits : Run.Along step Admits (start s) ops) :
    Run.Along step Right (start s) ops ↔ Run.Along step Fits (start s) ops := by
  refine Run.along_iff Inv ?_ (fun u op hinv hadmits hfits => hinv.step hadmits hfits)
    (inv_start hgood) hadmits
  intro u op hinv hadmits
  cases op with
  | queue b => exact iff_of_true (hinv.queue hadmits).stream trivial
  | pull offset frames doPull fed => exact hinv.pull_right hadmits

/-- A sink with frames of a byte and nothing queued. -/
def idle : SpaALSAState where
  frameSize := 1
  threshold := 2
  sampleCount := 0
  io := .empty
  range := ⟨0, 0, 0⟩
  ready := []
  readyOffset := 0
  reused := []

theorem good_idle : idle.Good := by
  refine ⟨by decide, ?_, ?_, fun _ => rfl⟩
  · intro b hmem
    exact absurd hmem (List.not_mem_nil)
  · rintro b ⟨⟩

/-- Four bytes that are all `value`. -/
def plain (id : UInt32) (value : UInt8) : SpaALSABuffer where
  id
  data := fun _ => value
  maxsize := 4
  chunkOffset := 0
  chunkSize := 4
  rb := none

theorem wellFormed_plain (id : UInt32) (value : UInt8) : (plain id value).WellFormed 1 :=
  ⟨Nat.le_refl 4, Nat.one_dvd 4⟩

/-- A buffer is pulled in two calls. -/
theorem run_pulls_iff_halves :
    Run.Along step Right (start idle)
      [.queue (plain 0 7), .pull 0 2 false [], .pull 2 2 false []] := by
  refine (run_pulls_iff good_idle ?_).mpr ?_
  · exact ⟨wellFormed_plain 0 7, ⟨nofun, by decide⟩, ⟨nofun, by decide⟩, trivial⟩
  · refine ⟨trivial, .inr ⟨.inl (by decide), .inr rfl, ?_⟩, .inr ⟨rfl, .inr rfl, ?_⟩, trivial⟩
    · exact fun h => absurd h (by decide)
    · exact fun _ => trivial

/-- The second of two buffers is copied over the first. -/
theorem not_run_pulls :
    ¬ ∀ (s : SpaALSAState) (ops : List AlsaOp), s.Good → Run.Along step Admits (start s) ops →
      Run.Along step Right (start s) ops := by
  intro hall
  have hright := hall idle [.queue (plain 0 7), .queue (plain 1 9), .pull 0 8 false []] good_idle
    ⟨wellFormed_plain 0 7, wellFormed_plain 1 9, ⟨nofun, by decide⟩, trivial⟩
  rcases hright.2.2.1.laid.2.1 with hempty | hplace
  · exact absurd hempty (by decide)
  · exact absurd hplace (by decide)

end AlsaUse
end Pinos
