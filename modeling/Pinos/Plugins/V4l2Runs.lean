import Pinos.Plugins.V4l2Buffers
import Pinos.Plugins.V4l2EnumEnds

/-
The calls of a source, in any order.
-/

namespace Pinos
namespace SpaV4l2Source

variable {s : SpaV4l2Source} {a : V4l2Answers} {types : V4l2Types} {n i count : Nat}
variable {buffers : List SpaVideoBuffer}

/-! ## Buffers -/

theorem Grants.le {memory : V4l2Memory} {got : Nat} (h : Grants a n)
    (hgot : a.reqbufs memory n = some got) : got ≤ n ∧ got ≤ maxBuffers :=
  h memory (by cases memory <;> simp) got hgot

theorem Grants.reqbufs_le {s' : SpaV4l2Source} (h : Grants a n)
    (hgot : s.reqbufs a n = some (count, s')) : count ≤ n ∧ count ≤ maxBuffers := by
  obtain ⟨-, hcount⟩ := of_reqbufs hgot
  split at hcount
  · rw [hcount]
    exact ⟨Nat.zero_le n, Nat.zero_le _⟩
  · exact h.le hcount

theorem Idle.useBuffers (h : s.Idle) (horder : InOrder buffers)
    (hgrants : Grants a buffers.length) : (s.useBuffers a buffers).1.Inv := by
  unfold SpaV4l2Source.useBuffers
  split
  · exact h.inv
  · next memory _ =>
    have hmemory : ({ s with memtype := memory } : SpaV4l2Source).Idle :=
      ⟨h.sound, h.nodup, h.bound, h.unused, h.still⟩
    simp only
    split
    · exact hmemory.inv
    · next count s' hreq =>
      obtain ⟨hlength, hmax⟩ := hgrants.reqbufs_le hreq
      obtain ⟨rfl, -⟩ := of_reqbufs hreq
      have hfilled : Filled _ count 0 := hmemory.filled
      split
      · exact hfilled.idle.inv
      · obtain ⟨hidle, hall⟩ := hfilled.importBuffers (a := a)
          (horder.trans List.range_eq_range') (by omega) (Nat.zero_le count) hmax
        exact Filled.taken hidle hall hmax

theorem Idle.mmapInit (h : s.Idle) (horder : InOrder buffers)
    (hgrants : Grants a buffers.length) : (s.mmapInit a buffers).1.Inv := by
  have hmemory : ({ s with memtype := .mmap } : SpaV4l2Source).Idle :=
    ⟨h.sound, h.nodup, h.bound, h.unused, h.still⟩
  unfold SpaV4l2Source.mmapInit
  simp only
  split
  · exact hmemory.inv
  · next count s' hreq =>
    obtain ⟨hlength, hmax⟩ := hgrants.reqbufs_le hreq
    obtain ⟨rfl, -⟩ := of_reqbufs hreq
    have hfilled : Filled _ count 0 := hmemory.filled
    split
    · exact hfilled.idle.inv
    · obtain ⟨hidle, hall⟩ := hfilled.mapBuffers (a := a)
        (horder.trans List.range_eq_range') (by omega) (Nat.zero_le count) hmax
      exact Filled.taken hidle hall hmax

theorem Inv.portUseBuffers (h : s.Inv) {buffers : Option (List SpaVideoBuffer)}
    (he : s.Orderly (.useBuffers buffers, a)) : (s.portUseBuffers a buffers).1.Inv := by
  have hoff : a.streamOff = true := by
    cases buffers with
    | none => exact he
    | some buffers => exact he.2.2
  have hidle : (if s.nBuffers = 0 then s else (s.streamOff a).1.clearBuffers a).Idle := by
    split
    · next hn => exact h.idle hn
    · obtain ⟨hinv, hstill⟩ := h.streamOff hoff
      exact hinv.clearBuffers hstill
  unfold SpaV4l2Source.portUseBuffers
  split
  · exact h
  · cases buffers with
    | none => exact hidle.inv
    | some buffers => exact hidle.useBuffers he.1 he.2.1

theorem Inv.portAllocBuffers (h : s.Inv) (horder : InOrder buffers)
    (hgrants : Grants a buffers.length) : (s.portAllocBuffers a buffers).1.Inv := by
  unfold SpaV4l2Source.portAllocBuffers
  split
  · exact h
  · unfold SpaV4l2Source.allocBuffers
    split
    · exact h
    · next hn =>
      have hidle := h.idle (Nat.eq_zero_of_not_pos hn)
      split
      · exact hidle.mmapInit horder hgrants
      · split
        · exact h
        · exact h

/-! ## Formats -/

theorem Inv.setFormat (h : s.Inv) (info : SpaVideoInfo) (tryOnly : Bool) :
    (s.setFormat a types info tryOnly).1.Inv := by
  unfold SpaV4l2Source.setFormat
  simp only
  split
  · exact h
  · split
    · exact h
    · split
      · exact h
      · next s' hopen =>
        have h' : s'.Inv := by
          unfold openDevice at hopen
          split at hopen
          · cases hopen
            exact h
          · obtain ⟨cap, -, rfl⟩ := Option.map_eq_some_iff.mp hopen
            exact h.of_eq rfl rfl rfl rfl rfl
        split
        · exact h'
        · exact h'

/-- When the format changes, the device gives up its buffers and the port keeps them. -/
theorem Inv.useNone (h : s.Inv) : (s.useBuffers a []).1.Inv := by
  unfold SpaV4l2Source.useBuffers memoryFor
  simp only
  split
  · exact h.of_eq rfl rfl rfl rfl rfl
  · next count s' hreq =>
    obtain ⟨rfl, hcount⟩ := of_reqbufs hreq
    rw [List.length_nil, if_pos rfl] at hcount
    rw [if_pos (by omega)]
    exact h.reqbufs (.inr hcount)

theorem Inv.portSetFormat (h : s.Inv) {format : Option SpaVideoFormat} {testOnly : Bool}
    (hoff : a.streamOff = true) : (s.portSetFormat a types format testOnly).1.Inv := by
  unfold SpaV4l2Source.portSetFormat
  cases format with
  | none =>
    obtain ⟨hinv, hstill⟩ := h.streamOff hoff
    exact (hinv.clearBuffers hstill).closeDevice.inv.of_eq rfl rfl rfl rfl rfl
  | some format =>
    simp only
    split
    · exact h
    · split
      · exact h
      · split
        · exact h
        · have hdropped : (if s.haveFormat = true ∧ ¬ testOnly = true then
              { (s.useBuffers a []).1 with haveFormat := false } else s).Inv := by
            split
            · exact h.useNone.of_eq rfl rfl rfl rfl rfl
            · exact h
          generalize (if s.haveFormat = true ∧ ¬ testOnly = true then
            { (s.useBuffers a []).1 with haveFormat := false } else s) = s' at hdropped
          have hset : (s'.setFormat a types format.info testOnly).1.Inv :=
            hdropped.setFormat format.info testOnly
          split
          · next heq => rw [heq] at hset; exact hset
          · next heq =>
            rw [heq] at hset
            split
            · exact hset
            · exact hset.of_eq rfl rfl rfl rfl rfl

/-! ## Frames -/

theorem V4l2Queue.of_dqbuf {device device' : V4l2Queue} (h : device.dqbuf i = some device') :
    device.streaming = true ∧ i ∈ device.queued ∧
      device' = { device with queued := device.queued.erase i } := by
  unfold V4l2Queue.dqbuf at h
  split at h
  · next hcond =>
    cases h
    exact ⟨hcond.1, hcond.2, rfl⟩
  · cases h

/-- A buffer that the device fills is the port's, and goes to the other side. -/
theorem Inv.mmapRead (h : s.Inv) (hio : s.io.isSome) : (s.mmapRead i).Inv := by
  unfold SpaV4l2Source.mmapRead
  split
  · exact h
  · next device hdq =>
    obtain ⟨hstreaming, hqueued, rfl⟩ := V4l2Queue.of_dqbuf hdq
    obtain ⟨hstarted, hn⟩ := h.running hstreaming
    have hi := h.lt_of_queued hn hqueued
    obtain ⟨io, hio⟩ := Option.isSome_iff_exists.mp hio
    simp only [hio]
    rw [if_neg (Nat.not_le.mpr hi), setBuffer_eq (Nat.lt_of_lt_of_le hi h.fits)]
    refine ⟨⟨h.given.sound, h.given.nodup.erase i, ?_, ?_, ?_, ?_⟩, h.fits, h.count, h.running⟩
    · exact fun j hj => h.given.bound j (List.mem_of_mem_erase hj)
    · intro j hj
      by_cases heq : j = i
      · subst heq
        simpa using h.given.named j hj
      · simpa [Function.update_of_ne heq] using h.given.named j hj
    · intro j hj hjn
      obtain ⟨hne, hj⟩ := h.given.nodup.mem_erase_iff.mp hj
      simpa [Function.update_of_ne hne] using h.given.apart j hj hjn
    · intro j hj _ hcount hout
      by_cases heq : j = i
      · subst heq
        simp at hout
      · simp only [Function.update_of_ne heq] at hout
        exact (h.given.kept j hj hj hcount hout).imp_left fun hmem =>
          (List.mem_erase_of_ne heq).mpr hmem

/-! ## Commands -/

theorem Inv.streamOn (h : s.Inv) (hn : 0 < s.nBuffers) : (s.streamOn a).1.Inv := by
  unfold SpaV4l2Source.streamOn
  split
  · exact h
  · split
    · exact ⟨h.given.of_eq rfl rfl rfl rfl rfl, h.fits, h.count, fun _ => ⟨rfl, hn⟩⟩
    · exact h

theorem Inv.portSendCommand (h : s.Inv) (command : V4l2Command) :
    (s.portSendCommand command).1.Inv := by
  unfold SpaV4l2Source.portSendCommand
  split
  · exact h.of_eq rfl rfl rfl rfl rfl
  · exact h.of_eq rfl rfl rfl rfl rfl
  · exact h

theorem Inv.sendCommand (h : s.Inv) (command : V4l2Command) : (s.sendCommand a command).1.Inv := by
  unfold SpaV4l2Source.sendCommand
  split
  · exact h
  · exact h
  · split
    · exact h
    · split
      · exact h
      · next hn =>
        have hinv : (if command = .start then s.streamOn a else (s, .ok)).1.Inv := by
          split
          · exact h.streamOn (Nat.pos_of_ne_zero hn)
          · exact h
        generalize (if command = .start then s.streamOn a else (s, .ok)) = p at hinv
        simp only
        split
        · exact hinv
        · exact hinv.of_eq rfl rfl rfl rfl rfl

theorem Inv.runData (h : s.Inv) : s.runData.Inv := by
  unfold SpaV4l2Source.runData
  split
  · exact h
  · next command commands _ =>
    have h' : ({ s with data := commands } : SpaV4l2Source).Inv := h.of_eq rfl rfl rfl rfl rfl
    exact (h'.portSendCommand command).of_eq rfl rfl rfl rfl rfl

theorem Inv.runMain (h : s.Inv) (hoff : a.streamOff = true) : (s.runMain a).Inv := by
  unfold SpaV4l2Source.runMain
  split
  · exact h
  · next command commands _ =>
    have h' : ({ s with main := commands } : SpaV4l2Source).Inv := h.of_eq rfl rfl rfl rfl rfl
    simp only
    split
    · exact (h'.streamOff hoff).1
    · exact h'

/-! ## Runs -/

theorem Inv.init : init.Inv :=
  Idle.inv ⟨rfl, List.nodup_nil, fun _ hi => absurd hi List.not_mem_nil, rfl, rfl⟩

theorem Inv.step (h : s.Inv) {e : Call × V4l2Answers} (he : s.Orderly e) :
    (s.step types e).Inv := by
  obtain ⟨call, a⟩ := e
  cases call with
  | setFormat format testOnly => exact h.portSetFormat he
  | useBuffers buffers => exact h.portUseBuffers he
  | allocBuffers buffers => exact h.portAllocBuffers he.1 he.2
  | setIo io => exact h.of_eq rfl rfl rfl rfl rfl
  | reuseBuffer id =>
    show (s.portReuseBuffer a id).1.Inv
    unfold portReuseBuffer
    split
    · exact h
    · split
      · exact h
      · next hid => exact h.recycle (.inl (Nat.not_le.mp hid))
  | portCommand command => exact h.portSendCommand command
  | command command => exact h.sendCommand command
  | processOutput =>
    show (s.processOutput a).1.Inv
    unfold processOutput
    split
    · exact h
    · next io hio =>
      split
      · exact h
      · next hstatus =>
        split
        · next hid => exact (h.recycle (he io hio hstatus hid)).of_eq rfl rfl rfl rfl rfl
        · exact h
  | exchange io =>
    show (if s.io.isSome then s.portSetIo (some io) else s).Inv
    split
    · exact h.of_eq rfl rfl rfl rfl rfl
    · exact h
  | fdEvents full =>
    show (s.onFdEvents full).Inv
    unfold onFdEvents
    split
    · split
      · next henabled => exact h.mmapRead (he henabled)
      · exact h
    · exact h
  | runData => exact h.runData
  | runMain => exact h.runMain he

/-- A device that does what it is asked for. -/
def obliging : V4l2Answers where
  cap := some ⟨true, false⟩
  setFmt := some
  setParm := id
  reqbufs _ n := some n
  querybuf _ := true
  maps _ := true
  qbuf _ := true
  streamOn := true
  streamOff := true

def vga : SpaVideoFormat where
  info := ⟨V4l2TypeName.ids.id .video, V4l2TypeName.ids.id .raw, V4l2TypeName.ids.id .yuy2,
    ⟨640, 480⟩, ⟨30, 1, UInt32.zero_lt_one⟩⟩
  parses := true

/-- After a change of the format no buffers can be allocated: the port has the old ones still. -/
example : (portAllocBuffers (Run.run (step · V4l2TypeName.ids) init ([
    .setFormat (some vga) false, .allocBuffers [⟨0, 1, .other, false⟩, ⟨1, 1, .other, false⟩],
    .setFormat (some { vga with info.size := ⟨320, 240⟩ }) false].map (·, obliging))) obliging
      [⟨0, 1, .other, false⟩, ⟨1, 1, .other, false⟩]).2 = .error := by decide

end SpaV4l2Source
end Pinos
