import Mathlib.Data.List.Nodup
import Pinos.Plugins.V4l2Source

/-
Where the buffers of a source are.

The device may have fewer buffers than the port: it has none when the format was changed under the
buffers, and then it takes none.  It may have buffers when the port has none, after a call that
failed, but then it does not stream.
-/

namespace Pinos

namespace V4l2Queue

variable {device : V4l2Queue} {takes : Bool} {i j : Nat}

@[simp] theorem qbuf_count : (device.qbuf takes i).count = device.count := by
  unfold qbuf
  split
  · split <;> rfl
  · rfl

@[simp] theorem qbuf_streaming : (device.qbuf takes i).streaming = device.streaming := by
  unfold qbuf
  split
  · split <;> rfl
  · rfl

theorem mem_of_mem_qbuf (h : j ∈ (device.qbuf takes i).queued) : j ∈ device.queued ∨ j = i := by
  unfold qbuf at h
  split at h
  · split at h
    · simpa using h
    · exact .inl h
  · exact .inl h

theorem lt_of_mem_qbuf (hbound : ∀ j ∈ device.queued, j < device.count)
    (h : j ∈ (device.qbuf takes i).queued) : j < device.count := by
  unfold qbuf at h
  split at h
  · next hi =>
    split at h
    · rcases List.mem_append.mp h with h | h
      · exact hbound j h
      · exact List.mem_singleton.mp h ▸ hi.1
    · exact hbound j h
  · exact hbound j h

theorem qbuf_nodup (hnodup : device.queued.Nodup) : (device.qbuf takes i).queued.Nodup := by
  unfold qbuf
  split
  · next hi =>
    split
    · have hconcat := hnodup.concat hi.2
      rwa [List.concat_eq_append] at hconcat
    · exact hnodup
  · exact hnodup

theorem qbuf_had (h : j ∈ device.queued ∨ j ∈ device.refused) :
    j ∈ (device.qbuf takes i).queued ∨ j ∈ (device.qbuf takes i).refused := by
  unfold qbuf
  split
  · split
    · exact h.imp (List.mem_append_left _) id
    · exact h.imp id (List.mem_append_left _)
  · exact h

/-- A buffer that the device has is in its queue then, or refused. -/
theorem qbuf_has (hi : i < device.count) :
    i ∈ (device.qbuf takes i).queued ∨ i ∈ (device.qbuf takes i).refused := by
  by_cases hq : i ∈ device.queued
  · exact qbuf_had (.inl hq)
  · unfold qbuf
    rw [if_pos ⟨hi, hq⟩]
    split <;> simp

end V4l2Queue

namespace SpaV4l2Source

open V4l2Queue

variable {s : SpaV4l2Source} {a : V4l2Answers} {types : V4l2Types} {n k i count : Nat}

/-! ## The first buffers -/

/-- The first `n` buffers are in use.  Those below `k` are not lost. -/
structure Given (s : SpaV4l2Source) (n k : Nat) : Prop where
  sound : s.fault = false
  nodup : s.device.queued.Nodup
  bound : ∀ i ∈ s.device.queued, i < s.device.count
  named : ∀ i < n, (s.buffers i).id.toNat = i ∧ (s.buffers i).index = i
  apart : ∀ i ∈ s.device.queued, i < n → (s.buffers i).outstanding = false
  kept : ∀ i < n, i < k → i < s.device.count → (s.buffers i).outstanding = false →
    i ∈ s.device.queued ∨ i ∈ s.device.refused

theorem Given.of_eq {s' : SpaV4l2Source} (h : s.Given n k) (hfault : s'.fault = s.fault)
    (hcount : s'.device.count = s.device.count) (hqueued : s'.device.queued = s.device.queued)
    (hrefused : s'.device.refused = s.device.refused) (hbuffers : s'.buffers = s.buffers) :
    s'.Given n k := by
  constructor
  case sound => rw [hfault]; exact h.sound
  case nodup => rw [hqueued]; exact h.nodup
  case bound => rw [hqueued, hcount]; exact h.bound
  case named => rw [hbuffers]; exact h.named
  case apart => rw [hqueued, hbuffers]; exact h.apart
  case kept => rw [hqueued, hrefused, hcount, hbuffers]; exact h.kept

theorem Given.qbuf (h : s.Given n k) (hi : i < n) (hout : (s.buffers i).outstanding = false) :
    (s.qbuf a i).Given n k := by
  have hindex := (h.named i hi).2
  constructor
  case sound => exact h.sound
  case nodup => exact qbuf_nodup h.nodup
  case bound =>
    intro j hj
    exact Nat.lt_of_lt_of_eq (lt_of_mem_qbuf h.bound hj) qbuf_count.symm
  case named => exact h.named
  case apart =>
    intro j hj hjn
    rcases mem_of_mem_qbuf hj with hj | rfl
    · exact h.apart j hj hjn
    · rw [hindex]
      exact hout
  case kept =>
    intro j hjn hjk hcount hj
    exact qbuf_had (h.kept j hjn hjk (Nat.lt_of_lt_of_eq hcount qbuf_count) hj)

/-- The buffer that is queued is not lost. -/
theorem Given.qbuf_next (h : s.Given n k) (hk : k < n) (hout : (s.buffers k).outstanding = false) :
    (s.qbuf a k).Given n (k + 1) := by
  obtain ⟨hsound, hnodup, hbound, hnamed, hapart, hkept⟩ := h.qbuf (a := a) hk hout
  refine ⟨hsound, hnodup, hbound, hnamed, hapart, fun i hin hik hcount hi => ?_⟩
  rcases Nat.lt_or_eq_of_le (Nat.le_of_lt_succ hik) with hik | rfl
  · exact hkept i hin hik hcount hi
  · have hdevice : (s.qbuf a i).device = s.device.qbuf (a.qbuf i) i := by
      unfold SpaV4l2Source.qbuf
      rw [(h.named i hk).2]
    rw [hdevice] at hcount ⊢
    exact qbuf_has (Nat.lt_of_lt_of_eq hcount qbuf_count)

/-- Nothing is lost when all outstanding buffers are passed over. -/
theorem Given.pass (h : s.Given n k) (hout : (s.buffers k).outstanding = true) :
    s.Given n (k + 1) := by
  refine ⟨h.sound, h.nodup, h.bound, h.named, h.apart, fun i hin hik hcount hi => ?_⟩
  rcases Nat.lt_or_eq_of_le (Nat.le_of_lt_succ hik) with hik | rfl
  · exact h.kept i hin hik hcount hi
  · rw [hout] at hi
    cases hi

theorem setBuffer_eq (hi : i < maxBuffers) (b : V4l2Buffer) :
    s.setBuffer i b = { s with buffers := Function.update s.buffers i b } := by
  unfold setBuffer
  rw [if_pos hi]

theorem recycle_eq (hi : i < maxBuffers) (hout : (s.buffers i).outstanding = true) :
    s.bufferRecycle a i = { s with
      buffers := Function.update s.buffers i { s.buffers i with outstanding := false }
      device := s.device.qbuf (a.qbuf (s.buffers i).index) (s.buffers i).index } := by
  unfold bufferRecycle
  rw [if_neg (Nat.not_le.mpr hi), if_pos hout, setBuffer_eq hi]
  simp [SpaV4l2Source.qbuf]

theorem recycle_of_free (hi : i < maxBuffers) (hout : (s.buffers i).outstanding = false) :
    s.bufferRecycle a i = s := by
  unfold bufferRecycle
  rw [if_neg (Nat.not_le.mpr hi), if_neg (by rw [hout]; exact Bool.false_ne_true)]

theorem Given.recycle (h : s.Given n k) (hn : n ≤ maxBuffers)
    (hi : i < n ∨ i < maxBuffers ∧ (s.buffers i).outstanding = false) :
    (s.bufferRecycle a i).Given n k := by
  have hmax : i < maxBuffers := by
    rcases hi with hi | hi
    · exact Nat.lt_of_lt_of_le hi hn
    · exact hi.1
  cases hout : (s.buffers i).outstanding with
  | false =>
    rw [recycle_of_free hmax hout]
    exact h
  | true =>
    have hin : i < n := by
      rcases hi with hi | hi
      · exact hi
      · rw [hi.2] at hout
        cases hout
    have hindex := (h.named i hin).2
    have hqueued : i ∉ s.device.queued := by
      intro hq
      rw [h.apart i hq hin] at hout
      cases hout
    rw [recycle_eq hmax hout, hindex]
    constructor
    case sound => exact h.sound
    case nodup => exact qbuf_nodup h.nodup
    case bound =>
      intro j hj
      exact Nat.lt_of_lt_of_eq (lt_of_mem_qbuf h.bound hj) qbuf_count.symm
    case named =>
      intro j hj
      by_cases heq : j = i
      · subst heq
        simpa using h.named j hj
      · simpa [Function.update_of_ne heq] using h.named j hj
    case apart =>
      intro j hj hjn
      by_cases heq : j = i
      · subst heq
        simp
      · have hj := (mem_of_mem_qbuf hj).resolve_right heq
        simpa [Function.update_of_ne heq] using h.apart j hj hjn
    case kept =>
      intro j hjn hjk hcount hj
      replace hcount : j < s.device.count := Nat.lt_of_lt_of_eq hcount qbuf_count
      by_cases heq : j = i
      · subst heq
        exact qbuf_has hcount
      · simp only [Function.update_of_ne heq] at hj
        exact qbuf_had (h.kept j hjn hjk hcount hj)

/-- Only the buffers, the queue of the device and `fault` are other than before. -/
theorem recycle_frame : ∃ fault buffers device, s.bufferRecycle a i =
    { s with fault := fault, buffers := buffers, device := device } ∧
      device.count = s.device.count ∧ device.streaming = s.device.streaming ∧
      ∀ j ∈ device.queued, j ∈ s.device.queued ∨ j = (s.buffers i).index := by
  by_cases hi : i < maxBuffers
  · cases hout : (s.buffers i).outstanding with
    | false =>
      rw [recycle_of_free hi hout]
      exact ⟨s.fault, s.buffers, s.device, rfl, rfl, rfl, fun j hj => .inl hj⟩
    | true =>
      rw [recycle_eq hi hout]
      exact ⟨s.fault, _, _, rfl, qbuf_count, qbuf_streaming, fun j hj => mem_of_mem_qbuf hj⟩
  · unfold bufferRecycle
    rw [if_pos (Nat.not_lt.mp hi)]
    exact ⟨true, s.buffers, s.device, rfl, rfl, rfl, fun j hj => .inl hj⟩

/-! ## The port -/

structure Inv (s : SpaV4l2Source) : Prop where
  given : s.Given s.nBuffers s.nBuffers
  fits : s.nBuffers ≤ maxBuffers
  count : 0 < s.nBuffers → s.device.count = s.nBuffers ∨ s.device.count = 0
  running : s.device.streaming = true → s.started = true ∧ 0 < s.nBuffers

theorem Inv.of_eq {s' : SpaV4l2Source} (h : s.Inv) (hfault : s'.fault = s.fault)
    (hdevice : s'.device = s.device) (hbuffers : s'.buffers = s.buffers)
    (hn : s'.nBuffers = s.nBuffers) (hstarted : s'.started = s.started) : s'.Inv := by
  constructor
  case given =>
    rw [hn]
    exact h.given.of_eq hfault (by rw [hdevice]) (by rw [hdevice]) (by rw [hdevice]) hbuffers
  case fits => rw [hn]; exact h.fits
  case count => rw [hn, hdevice]; exact h.count
  case running => rw [hn, hdevice, hstarted]; exact h.running

theorem Inv.lt_of_queued (h : s.Inv) (hn : 0 < s.nBuffers) (hi : i ∈ s.device.queued) :
    i < s.nBuffers := by
  have hcount := h.given.bound i hi
  rcases h.count hn with heq | heq <;> omega

theorem Inv.recycle (h : s.Inv)
    (hi : i < s.nBuffers ∨ i < maxBuffers ∧ (s.buffers i).outstanding = false) :
    (s.bufferRecycle a i).Inv := by
  have hgiven := h.given.recycle (a := a) h.fits hi
  obtain ⟨fault, buffers, device, heq, hcount, hstreaming, -⟩ :=
    recycle_frame (s := s) (a := a) (i := i)
  rw [heq] at hgiven ⊢
  exact ⟨hgiven, h.fits, fun hn => hcount ▸ h.count hn, fun hs => h.running (hstreaming ▸ hs)⟩

theorem Inv.sound' (h : s.Inv) : s.Sound where
  sound := h.given.sound
  nodup := h.given.nodup
  apart hn i hi := by
    have hlt := h.lt_of_queued hn hi
    exact ⟨hlt, (h.given.named i hlt).1, h.given.apart i hi hlt⟩
  idle hs := (h.running hs).2
  kept hcount i hi hout := h.given.kept i hi hi (hcount ▸ hi) hout

/-- The port has no buffers, and the device does not stream those that it may have. -/
structure Idle (s : SpaV4l2Source) : Prop where
  sound : s.fault = false
  nodup : s.device.queued.Nodup
  bound : ∀ i ∈ s.device.queued, i < s.device.count
  unused : s.nBuffers = 0
  still : s.device.streaming = false

theorem Idle.inv (h : s.Idle) : s.Inv where
  given := by
    rw [h.unused]
    exact ⟨h.sound, h.nodup, h.bound, fun i hi => absurd hi (Nat.not_lt_zero i),
      fun i _ hi => absurd hi (Nat.not_lt_zero i), fun i hi => absurd hi (Nat.not_lt_zero i)⟩
  fits := by
    rw [h.unused]
    exact Nat.zero_le _
  count hn := by
    rw [h.unused] at hn
    exact absurd hn (Nat.lt_irrefl 0)
  running hs := by
    rw [h.still] at hs
    cases hs

theorem Inv.idle (h : s.Inv) (hn : s.nBuffers = 0) : s.Idle where
  sound := h.given.sound
  nodup := h.given.nodup
  bound := h.given.bound
  unused := hn
  still := by
    by_contra hs
    have hpos := (h.running (eq_true_of_ne_false hs)).2
    rw [hn] at hpos
    exact Nat.lt_irrefl 0 hpos

theorem of_reqbufs {s' : SpaV4l2Source} (h : s.reqbufs a n = some (count, s')) :
    s' = { s with device := .reqbufs count } ∧
      if n = 0 then count = 0 else a.reqbufs s.memtype n = some count := by
  unfold SpaV4l2Source.reqbufs at h
  obtain ⟨got, hgot, heq⟩ := Option.map_eq_some_iff.mp h
  simp only [Prod.mk.injEq] at heq
  obtain ⟨rfl, rfl⟩ := heq
  refine ⟨rfl, ?_⟩
  split
  · rfl
  · exact hgot

/-- The buffers that a device made before are not in its queue any more. -/
theorem Inv.reqbufs (h : s.Inv) (hn : s.nBuffers = 0 ∨ count = 0) :
    ({ s with device := .reqbufs count } : SpaV4l2Source).Inv where
  given := by
    refine ⟨h.given.sound, List.nodup_nil, fun i hi => absurd hi List.not_mem_nil, h.given.named,
      fun i hi => absurd hi List.not_mem_nil, fun i hi _ hcount _ => ?_⟩
    rcases hn with hn | rfl
    · exact absurd hi (Nat.not_lt.mpr (hn ▸ Nat.zero_le i))
    · exact absurd hcount (Nat.not_lt_zero i)
  fits := h.fits
  count hpos := by
    rcases hn with hn | hn
    · exact absurd hpos (Nat.not_lt.mpr (Nat.le_of_eq hn))
    · exact .inr hn
  running hs := Bool.noConfusion hs

/-! ## Streams that end -/

/-- The loop of `spa_v4l2_stream_off`. -/
def requeue (s : SpaV4l2Source) (a : V4l2Answers) (m : Nat) : SpaV4l2Source :=
  (List.range m).foldl (fun s i => if (s.buffers i).outstanding then s else s.qbuf a i) s

theorem requeue_succ (m : Nat) : s.requeue a (m + 1) =
    if ((s.requeue a m).buffers m).outstanding then s.requeue a m
    else (s.requeue a m).qbuf a m := by
  unfold requeue
  rw [List.range_succ, List.foldl_append]
  rfl

theorem requeue_frame (m : Nat) : ∃ device, s.requeue a m = { s with device := device } ∧
    device.count = s.device.count ∧ device.streaming = s.device.streaming := by
  induction m with
  | zero => exact ⟨s.device, rfl, rfl, rfl⟩
  | succ m ih =>
    obtain ⟨device, heq, hcount, hstreaming⟩ := ih
    rw [requeue_succ, heq]
    split
    · exact ⟨device, rfl, hcount, hstreaming⟩
    · exact ⟨_, rfl, qbuf_count.trans hcount, qbuf_streaming.trans hstreaming⟩

theorem Given.requeue (h : s.Given n 0) {m : Nat} (hm : m ≤ n) : (s.requeue a m).Given n m := by
  induction m with
  | zero => exact h
  | succ m ih =>
    have hgiven := ih (Nat.le_of_succ_le hm)
    rw [requeue_succ]
    split
    · next hout => exact hgiven.pass hout
    · next hout => exact hgiven.qbuf_next hm (eq_false_of_ne_true hout)

theorem streamOff_eq (hs : s.started = true) (ha : a.streamOff = true) :
    (s.streamOff a).1 = { requeue { s.setEnabled false with device := s.device.streamOff } a
      s.nBuffers with started := false } := by
  unfold SpaV4l2Source.streamOff requeue
  simp only [hs, ha, not_true_eq_false, if_false]
  rfl

/-- The device gives all buffers back, and gets those again that are not with the other side. -/
theorem Inv.streamOff (h : s.Inv) (ha : a.streamOff = true) :
    (s.streamOff a).1.Inv ∧ (s.streamOff a).1.device.streaming = false := by
  by_cases hs : s.started = true
  · rw [streamOff_eq hs ha]
    have hoff : ({ s.setEnabled false with device := s.device.streamOff } :
        SpaV4l2Source).Given s.nBuffers 0 :=
      ⟨h.given.sound, List.nodup_nil, fun i hi => absurd hi List.not_mem_nil, h.given.named,
        fun i hi => absurd hi List.not_mem_nil, fun i _ hi => absurd hi (Nat.not_lt_zero i)⟩
    have hgiven := hoff.requeue (a := a) (Nat.le_refl s.nBuffers)
    obtain ⟨device, heq, hcount, hstreaming⟩ := requeue_frame (a := a)
      (s := { s.setEnabled false with device := s.device.streamOff }) s.nBuffers
    rw [heq] at hgiven ⊢
    refine ⟨⟨hgiven.of_eq rfl rfl rfl rfl rfl, h.fits, fun hn => ?_, fun hs => ?_⟩, hstreaming⟩
    · exact hcount ▸ h.count hn
    · exact Bool.noConfusion (hs.symm.trans hstreaming)
  · have heq : (s.streamOff a).1 = s := by
      unfold SpaV4l2Source.streamOff
      rw [if_pos hs]
    rw [heq]
    exact ⟨h, eq_false_of_ne_true fun hstreaming => hs (h.running hstreaming).1⟩

/-- What is outstanding goes to the device before its buffers are given up. -/
theorem Inv.recycleAll (h : s.Inv) (is : List Nat) (his : ∀ i ∈ is, i < s.nBuffers) :
    (is.foldl (fun s i => s.bufferRecycle a i) s).Inv ∧
      (is.foldl (fun s i => s.bufferRecycle a i) s).device.streaming = s.device.streaming := by
  induction is generalizing s with
  | nil => exact ⟨h, rfl⟩
  | cons i is ih =>
    have hi := his i List.mem_cons_self
    obtain ⟨fault, buffers, device, heq, -, hstreaming, -⟩ :=
      recycle_frame (s := s) (a := a) (i := i)
    have hrecycle := h.recycle (a := a) (.inl hi)
    rw [List.foldl_cons]
    rw [heq] at hrecycle ⊢
    obtain ⟨hinv, hsame⟩ := ih hrecycle fun j hj => his j (List.mem_cons_of_mem i hj)
    exact ⟨hinv, hsame.trans hstreaming⟩

theorem Inv.clearBuffers (h : s.Inv) (hstill : s.device.streaming = false) :
    (s.clearBuffers a).Idle := by
  unfold SpaV4l2Source.clearBuffers
  split
  · next hn => exact h.idle hn
  · obtain ⟨hinv, hsame⟩ := h.recycleAll (a := a) (List.range s.nBuffers) fun i hi =>
      List.mem_range.mp hi
    rw [hstill] at hsame
    generalize (List.range s.nBuffers).foldl (fun s i => s.bufferRecycle a i) s = s' at hinv hsame
    cases hreq : s'.reqbufs a 0 with
    | none =>
      simp only [hreq]
      exact ⟨hinv.given.sound, hinv.given.nodup, hinv.given.bound, rfl, hsame⟩
    | some p =>
      obtain ⟨count, s''⟩ := p
      obtain ⟨rfl, -⟩ := of_reqbufs hreq
      simp only [hreq]
      exact ⟨hinv.given.sound, List.nodup_nil, fun i hi => absurd hi List.not_mem_nil, rfl, rfl⟩

theorem Idle.closeDevice (h : s.Idle) : s.closeDevice.Idle := by
  unfold SpaV4l2Source.closeDevice
  split
  · exact h
  · exact ⟨h.sound, List.nodup_nil, fun i hi => absurd hi List.not_mem_nil, h.unused, rfl⟩

/-! ## Buffers that are given -/

/-- The first `k` of the buffers that the device made are given. -/
structure Filled (s : SpaV4l2Source) (count k : Nat) : Prop where
  given : s.Given k k
  below : ∀ i ∈ s.device.queued, i < k
  count : s.device.count = count
  unused : s.nBuffers = 0
  still : s.device.streaming = false

theorem Filled.idle (h : s.Filled count k) : s.Idle :=
  ⟨h.given.sound, h.given.nodup, h.given.bound, h.unused, h.still⟩

theorem Idle.setBuffer (h : s.Idle) (hk : k < maxBuffers) (b : V4l2Buffer) :
    (s.setBuffer k b).Idle := by
  rw [setBuffer_eq hk]
  exact ⟨h.sound, h.nodup, h.bound, h.unused, h.still⟩

theorem Idle.filled (h : s.Idle) : ({ s with device := .reqbufs count } : SpaV4l2Source).Filled
    count 0 where
  given := ⟨h.sound, List.nodup_nil, fun _ hi => absurd hi List.not_mem_nil,
    fun i hi => absurd hi (Nat.not_lt_zero i), fun _ hi => absurd hi List.not_mem_nil,
    fun i hi => absurd hi (Nat.not_lt_zero i)⟩
  below _ hi := absurd hi List.not_mem_nil
  count := rfl
  unused := h.unused
  still := rfl

theorem Filled.put (h : s.Filled count k) (hk : k < maxBuffers) {b : V4l2Buffer}
    (hid : b.id.toNat = k) (hindex : b.index = k) (hout : b.outstanding = true) :
    (s.setBuffer k b).Filled count (k + 1) := by
  rw [setBuffer_eq hk]
  refine ⟨⟨h.given.sound, h.given.nodup, h.given.bound, ?_, ?_, ?_⟩, ?_, h.count, h.unused,
    h.still⟩
  · intro i hi
    rcases Nat.lt_or_eq_of_le (Nat.le_of_lt_succ hi) with hi | rfl
    · simpa [Function.update_of_ne (Nat.ne_of_lt hi)] using h.given.named i hi
    · simp [hid, hindex]
  · intro i hi _
    have hlt := h.below i hi
    simpa [Function.update_of_ne (Nat.ne_of_lt hlt)] using h.given.apart i hi hlt
  · intro i hi _ hcount hi'
    rcases Nat.lt_or_eq_of_le (Nat.le_of_lt_succ hi) with hi | rfl
    · simp only [Function.update_of_ne (Nat.ne_of_lt hi)] at hi'
      exact h.given.kept i hi hi hcount hi'
    · simp [hout] at hi'
  · exact fun i hi => Nat.lt_succ_of_lt (h.below i hi)

theorem Filled.recycle (h : s.Filled count k) (hk : k ≤ maxBuffers) (hi : i < k) :
    (s.bufferRecycle a i).Filled count k := by
  have hgiven := h.given.recycle (a := a) hk (.inl hi)
  obtain ⟨fault, buffers, device, heq, hcount, hstreaming, hqueued⟩ :=
    recycle_frame (s := s) (a := a) (i := i)
  rw [heq] at hgiven ⊢
  refine ⟨hgiven, fun j hj => ?_, hcount.trans h.count, h.unused, hstreaming.trans h.still⟩
  rcases hqueued j hj with hj | rfl
  · exact h.below j hj
  · rw [(h.given.named i hi).2]
    exact hi

/-- The port has the buffers that were given to the device. -/
theorem Filled.inv (h : s.Filled count count) (hmax : count ≤ maxBuffers) :
    ({ s with nBuffers := count } : SpaV4l2Source).Inv where
  given := h.given.of_eq rfl rfl rfl rfl rfl
  fits := hmax
  count _ := .inl h.count
  running hs := Bool.noConfusion (hs.symm.trans h.still)

/-- The port has the buffers when the loop succeeds, and none when it fails. -/
theorem Filled.taken {p : SpaV4l2Source × SpaResult} (hidle : p.1.Idle)
    (hall : p.2.isError = false → p.1.Filled count count) (hmax : count ≤ maxBuffers) :
    (if p.2.isError then p else ({ p.1 with nBuffers := count }, .ok)).1.Inv := by
  split
  · exact hidle.inv
  · next hres => exact (hall (eq_false_of_ne_true hres)).inv hmax

/-- The loops end when as many buffers are given as the device made. -/
theorem Filled.done (h : s.Filled count k) (hend : k = count) {res : SpaResult} :
    s.Idle ∧ (res.isError = false → s.Filled count count) :=
  ⟨h.idle, fun _ => hend ▸ h⟩

/-- One more buffer is given, or the call fails. -/
theorem Filled.importBuffers {bs : List SpaVideoBuffer} (h : s.Filled count k)
    (hids : bs.map (·.id.toNat) = List.range' k bs.length) (hlength : count ≤ k + bs.length)
    (hk : k ≤ count) (hmax : count ≤ maxBuffers) :
    (importBuffers a count s k bs).1.Idle ∧ ((importBuffers a count s k bs).2.isError = false →
      (importBuffers a count s k bs).1.Filled count count) := by
  induction bs generalizing s k with
  | nil =>
    have hend : k = count := Nat.le_antisymm hk hlength
    unfold SpaV4l2Source.importBuffers
    rw [if_neg (by omega)]
    exact h.done hend
  | cons b bs ih =>
    rw [List.map_cons, List.length_cons, List.range'_succ, List.cons.injEq] at hids
    unfold SpaV4l2Source.importBuffers
    by_cases hlt : k < count
    · have hkmax : k < maxBuffers := Nat.lt_of_lt_of_le hlt hmax
      rw [if_pos hlt]
      simp only
      split
      · exact ⟨h.idle.setBuffer hkmax _, fun hres => Bool.noConfusion hres⟩
      · have hset : ((s.setBuffer k { s.buffers k with
            id := b.id, outstanding := true, allocated := false }).setBuffer k
              { (s.setBuffer k { s.buffers k with
                id := b.id, outstanding := true, allocated := false }).buffers k with index := k }) =
            s.setBuffer k ⟨b.id, true, false, k⟩ := by
          simp [setBuffer_eq hkmax]
        rw [hset, hids.1]
        have hput := h.put hkmax (b := ⟨b.id, true, false, k⟩) hids.1 rfl rfl
        refine ih (hput.recycle hkmax (Nat.lt_succ_self k)) hids.2 ?_ hlt
        rw [List.length_cons] at hlength
        omega
    · have hend : k = count := Nat.le_antisymm hk (Nat.not_lt.mp hlt)
      rw [if_neg hlt]
      exact h.done hend

theorem Filled.mapBuffers {bs : List SpaVideoBuffer} (h : s.Filled count k)
    (hids : bs.map (·.id.toNat) = List.range' k bs.length) (hlength : count ≤ k + bs.length)
    (hk : k ≤ count) (hmax : count ≤ maxBuffers) :
    (mapBuffers a count s k bs).1.Idle ∧ ((mapBuffers a count s k bs).2.isError = false →
      (mapBuffers a count s k bs).1.Filled count count) := by
  induction bs generalizing s k with
  | nil =>
    have hend : k = count := Nat.le_antisymm hk hlength
    unfold SpaV4l2Source.mapBuffers
    rw [if_neg (by omega)]
    exact h.done hend
  | cons b bs ih =>
    rw [List.map_cons, List.length_cons, List.range'_succ, List.cons.injEq] at hids
    unfold SpaV4l2Source.mapBuffers
    by_cases hlt : k < count
    · have hkmax : k < maxBuffers := Nat.lt_of_lt_of_le hlt hmax
      have hput := h.put (b := ⟨b.id, true, true, k⟩) hkmax hids.1 rfl rfl
      rw [if_pos hlt]
      split
      · exact ⟨h.idle, fun hres => Bool.noConfusion hres⟩
      · simp only
        split
        · exact ⟨hput.idle, fun hres => Bool.noConfusion hres⟩
        · rw [List.length_cons] at hlength
          refine ih ?_ hids.2 (by omega) hlt
          split
          · exact hput.recycle hkmax (Nat.lt_succ_self k)
          · exact hput
    · have hend : k = count := Nat.le_antisymm hk (Nat.not_lt.mp hlt)
      rw [if_neg hlt]
      exact h.done hend

end SpaV4l2Source
end Pinos
