import Pinos.Plugins.MixedPort

/-
The loops of the mixer over its ports.

A turn changes one port, so a loop is a map over the ports together with what it folds over them:
the bytes that go out, and the least number of bytes that are queued.  What goes out is the first
port's next bytes, to which the next bytes of each further port are added.
-/

namespace Pinos

open ByteMem

namespace SpaAudioMixerPort

variable {port : SpaAudioMixerPort} {ports : List SpaAudioMixerPort} {n layer k : Nat} {out : Mem}

/-! ## Layers -/

/-- The bytes that go out when the ports take their turns. -/
def mixMem (n : Nat) : List SpaAudioMixerPort → Nat → Mem → Mem
  | [], _, out => out
  | port :: ports, layer, out =>
    let turn := port.mix n out layer
    mixMem n ports turn.2.1 turn.1

/-- The next `n` bytes of a port that takes part and has bytes. -/
def contribution (n : Nat) (port : SpaAudioMixerPort) : Option (List UInt8) :=
  if port.active ∧ port.unread ≠ [] then some (port.unread.take n) else none

/-- The sum of samples, saturated at each step. -/
def saturatedSum : List Int → Int
  | [] => 0
  | x :: xs => xs.foldl addSample x

/-- The port takes part, with a buffer that may be empty. -/
def Queued (port : SpaAudioMixerPort) : Prop := port.active ∧ port.queue ≠ []

instance (port : SpaAudioMixerPort) : Decidable port.Queued := inferInstanceAs (Decidable (_ ∧ _))

/-- What a turn does to the bytes and the layer. -/
theorem Good.mix_cases (h : port.Good) (hready : port.Ready n) (out : Mem) (layer : Nat) :
    (port.contribution n = none ∧ (port.mix n out layer).1 = out ∧
        (¬ port.Queued ∧ (port.mix n out layer).2.1 = layer ∨
          port.Queued ∧ port.unread = [] ∧ (port.mix n out layer).2.1 = layer + 1)) ∨
      ∃ c, port.contribution n = some c ∧ c.length = n ∧
        (port.mix n out layer).2.1 = layer + 1 ∧
        (layer = 0 → (port.mix n out layer).1 = out.write 0 c) ∧
        (layer ≠ 0 → ∀ k, 2 * k + 1 < n → (port.mix n out layer).1.sample (2 * k) =
          addSample (out.sample (2 * k)) (sampleAt c k)) := by
  unfold contribution
  by_cases hactive : port.active = true
  · cases hqueue : port.queue with
    | nil =>
      have hunread : port.unread = [] := by rw [unread, hqueue, List.flatMap_nil, List.drop_nil]
      rw [if_neg fun hall => hall.2 hunread, mix_nil hactive hqueue]
      exact .inl ⟨rfl, rfl, .inl ⟨fun h => h.2 hqueue, rfl⟩⟩
    | cons i rest =>
      have hqueued : port.Queued := ⟨hactive, by rw [hqueue]; exact List.cons_ne_nil i rest⟩
      rw [mix_cons hactive hqueue]
      by_cases hbytes : port.queuedBytes = 0
      · have hunread := h.unread_eq_nil.mpr hbytes
        have hsize := size_eq_zero (h.drained hbytes).2 (by rw [hqueue]; exact List.mem_cons_self)
        have hinsize : port.insize i = 0 := by
          show (port.size i + 2 ^ 64 - port.queuedOffset) % 2 ^ 64 = 0
          rw [hsize, (h.drained hbytes).1]
          rfl
        rw [if_neg fun hall => hall.2 hunread]
        exact .inl ⟨rfl, addData_empty hinsize, .inr ⟨hqueued, hunread, rfl⟩⟩
      · have hunread : port.unread ≠ [] := fun he => hbytes (h.unread_eq_nil.mp he)
        rw [if_pos ⟨hactive, hunread⟩]
        refine .inr ⟨_, rfl, ?_, rfl, ?_, ?_⟩
        · rw [List.length_take, h.length_unread]
          rcases hready hactive with rfl | hzero | ⟨hle, -⟩
          · exact Nat.zero_min _
          · exact absurd hzero hbytes
          · exact Nat.min_eq_left hle
        · rintro rfl
          rcases hready hactive with rfl | hzero | ⟨hle, hhead⟩
          · show port.addData out 0 i 0 = _
            rw [List.take_zero, Mem.write_nil]
            unfold addData
            dsimp only
            rw [Nat.zero_min, if_pos rfl]
            exact Mem.write_nil out 0
          · exact absurd hzero hbytes
          · exact h.addData_zero hqueue (hhead i (by rw [hqueue]; rfl)) hle
        · intro hlayer k hk
          obtain ⟨layer, rfl⟩ := Nat.exists_eq_add_one_of_ne_zero hlayer
          rcases hready hactive with rfl | hzero | ⟨hle, hhead⟩
          · exact absurd hk (Nat.not_lt_zero _)
          · exact absurd hzero hbytes
          · exact @Good.addData_succ port i n layer out rest h hqueue (hhead i (by rw [hqueue]; rfl))
              hle k hk
  · rw [if_neg fun hall => hactive hall.1, mix_idle hactive]
    exact .inl ⟨rfl, rfl, .inl ⟨fun h => hactive h.1, rfl⟩⟩

/-- Above the first layer each port that has bytes is added. -/
theorem mixMem_added (hgood : ∀ port ∈ ports, port.Good) (hready : ∀ port ∈ ports, port.Ready n)
    (hlayer : layer ≠ 0) :
    (∀ k, 2 * k + 1 < n → (mixMem n ports layer out).sample (2 * k) =
        ((ports.filterMap (contribution n)).map (sampleAt · k)).foldl addSample
          (out.sample (2 * k))) ∧
      (ports.filterMap (contribution n) = [] → mixMem n ports layer out = out) := by
  induction ports generalizing layer out with
  | nil => exact ⟨fun _ _ => rfl, fun _ => rfl⟩
  | cons port ports ih =>
    have ih := @ih
      (port.mix n out layer).2.1 (port.mix n out layer).1
      (fun p hp => hgood p (List.mem_cons_of_mem port hp))
      (fun p hp => hready p (List.mem_cons_of_mem port hp))
    rw [mixMem]
    rcases (hgood port List.mem_cons_self).mix_cases (hready port List.mem_cons_self) out layer with
      ⟨hnone, hout, hnext⟩ | ⟨c, hsome, -, hnext, -, hadd⟩
    · have hnext : (port.mix n out layer).2.1 ≠ 0 := by
        rcases hnext with ⟨-, hsame⟩ | ⟨-, -, hsucc⟩
        · rwa [hsame]
        · rw [hsucc]
          exact Nat.succ_ne_zero layer
      have ih := ih hnext
      rw [hout] at ih
      rw [List.filterMap_cons_none hnone, hout]
      exact ih
    · rw [List.filterMap_cons_some hsome]
      refine ⟨fun k hk => ?_, fun hnil => absurd hnil (List.cons_ne_nil _ _)⟩
      rw [(ih (by rw [hnext]; exact Nat.succ_ne_zero layer)).1 k hk, List.map_cons,
        List.foldl_cons, hadd hlayer k hk]

/-- What goes out is the step-by-step sum, if the first port with a buffer has bytes. -/
theorem mixMem_first {c : List UInt8} {cs : List (List UInt8)}
    (hgood : ∀ port ∈ ports, port.Good) (hready : ∀ port ∈ ports, port.Ready n)
    (hfirst : ∀ port ∈ ports.find? (decide <| Queued ·), port.unread ≠ [])
    (hcs : ports.filterMap (contribution n) = c :: cs) :
    (∀ k, 2 * k + 1 < n → (mixMem n ports 0 out).sample (2 * k) =
        saturatedSum ((c :: cs).map (sampleAt · k))) ∧
      (cs = [] → (mixMem n ports 0 out).read 0 n = c) := by
  induction ports generalizing out with
  | nil => exact absurd hcs (List.cons_ne_nil c cs).symm
  | cons port ports ih =>
    have hgood' : ∀ p ∈ ports, p.Good := fun p hp => hgood p (List.mem_cons_of_mem port hp)
    have hready' : ∀ p ∈ ports, p.Ready n := fun p hp => hready p (List.mem_cons_of_mem port hp)
    rw [mixMem]
    rcases (hgood port List.mem_cons_self).mix_cases (hready port List.mem_cons_self) out 0 with
      ⟨hnone, hout, ⟨hno, hsame⟩ | ⟨hqueued, hunread, -⟩⟩ | ⟨c', hsome, hlen, hnext, hcopy, -⟩
    · rw [List.filterMap_cons_none hnone] at hcs
      rw [List.find?_cons_of_neg (by simpa using hno)] at hfirst
      rw [hout, hsame]
      exact ih hgood' hready' hfirst hcs
    · rw [List.find?_cons_of_pos (by simpa using hqueued)] at hfirst
      exact absurd hunread (hfirst port rfl)
    · rw [List.filterMap_cons_some hsome] at hcs
      obtain ⟨rfl, htail⟩ := List.cons.inj hcs
      obtain ⟨hadd, hquiet⟩ := @mixMem_added ports n 1 (out.write 0 c') hgood' hready' Nat.one_ne_zero
      have hread : (out.write 0 c').read 0 n = c' := by
        have hholds := Mem.holds_write out 0 c'
        rwa [Mem.Holds, hlen] at hholds
      rw [hnext, hcopy rfl]
      refine ⟨fun k hk => ?_, fun hnil => ?_⟩
      · have hsample := Mem.sampleAt_read (out.write 0 c') 0 hk
        rw [hread, Nat.zero_add] at hsample
        rw [hadd k hk, htail, ← hsample]
        rfl
      · rw [hquiet (htail.trans hnil), hread]

end SpaAudioMixerPort

namespace SpaAudioMixer

open SpaAudioMixerPort

variable {this : SpaAudioMixer} {is : List Nat} {n layer least : Nat} {out : Mem}

/-! ## Loops -/

/-- The ports when those of a list took a turn. -/
def turned (f : SpaAudioMixerPort → SpaAudioMixerPort) (is : List Nat)
    (ports : Nat → SpaAudioMixerPort) : Nat → SpaAudioMixerPort :=
  fun p => if p ∈ is then f (ports p) else ports p

theorem turned_cons {f : SpaAudioMixerPort → SpaAudioMixerPort} {i : Nat}
    {ports : Nat → SpaAudioMixerPort} (h : i ∉ is) :
    turned f is (Function.update ports i (f (ports i))) = turned f (i :: is) ports := by
  funext p
  unfold turned
  by_cases hp : p = i
  · rw [hp, if_neg h, Function.update_self, if_pos List.mem_cons_self]
  · rw [Function.update_of_ne hp]
    by_cases hmem : p ∈ is
    · rw [if_pos hmem, if_pos (List.mem_cons_of_mem i hmem)]
    · rw [if_neg hmem, if_neg fun h => hmem (List.mem_of_ne_of_mem hp h)]

theorem map_update {i : Nat} {ports : Nat → SpaAudioMixerPort} {port : SpaAudioMixerPort}
    (h : i ∉ is) : is.map (Function.update ports i port) = is.map ports :=
  List.map_congr_left fun p hp => Function.update_of_ne (fun he : p = i => h (he ▸ hp)) _ _

theorem mixPorts_eq (hnodup : is.Nodup) :
    mixPorts n is layer this out =
      ({ this with inPorts := turned (mixed n) is this.inPorts },
        mixMem n (is.map this.inPorts) layer out) := by
  induction is generalizing layer this out with
  | nil => rfl
  | cons i is ih =>
    obtain ⟨hi, hnodup⟩ := List.nodup_cons.mp hnodup
    rw [mixPorts]
    dsimp only
    rw [ih hnodup, mix_port, turned_cons hi, map_update hi, List.map_cons, mixMem]

/-- The bytes that count for the least number. -/
def someBytes (port : SpaAudioMixerPort) : Option Nat :=
  if port.active ∧ 0 < port.queuedBytes then some port.queuedBytes else none

def anyBytes (port : SpaAudioMixerPort) : Option Nat :=
  if port.active then some port.queuedBytes else none

theorem someBytes_some {port : SpaAudioMixerPort} (h : port.active = true ∧ 0 < port.queuedBytes) :
    someBytes port = some port.queuedBytes := if_pos h

theorem someBytes_none {port : SpaAudioMixerPort}
    (h : ¬ (port.active = true ∧ 0 < port.queuedBytes)) : someBytes port = none := if_neg h

theorem anyBytes_some {port : SpaAudioMixerPort} (h : port.active = true) :
    anyBytes port = some port.queuedBytes := if_pos h

theorem anyBytes_none {port : SpaAudioMixerPort} (h : ¬ port.active = true) :
    anyBytes port = none := if_neg h

theorem queueInputs_eq (hnodup : is.Nodup) :
    queueInputs is this least =
      ({ this with inPorts := turned queueInput is this.inPorts },
        ((is.map fun p => (this.inPorts p).queueInput).filterMap someBytes).foldl min least) := by
  induction is generalizing this least with
  | nil => rfl
  | cons i is ih =>
    obtain ⟨hi, hnodup⟩ := List.nodup_cons.mp hnodup
    have hmap : (is.map fun p => (Function.update this.inPorts i
        (this.inPorts i).queueInput p).queueInput) =
        is.map fun p => (this.inPorts p).queueInput :=
      List.map_congr_left fun p hp => by
        rw [Function.update_of_ne fun he : p = i => hi (he ▸ hp)]
    rw [queueInputs, List.map_cons]
    split
    next hless =>
      rw [ih hnodup, turned_cons hi, hmap,
        List.filterMap_cons_some (someBytes_some ⟨hless.1, hless.2.1⟩), List.foldl_cons,
        Nat.min_eq_right (Nat.le_of_lt hless.2.2)]
    next hnot =>
      rw [ih hnodup, turned_cons hi, hmap]
      by_cases hsome : (this.inPorts i).queueInput.active = true ∧
          0 < (this.inPorts i).queueInput.queuedBytes
      · have hle : least ≤ (this.inPorts i).queueInput.queuedBytes :=
          Nat.not_lt.mp fun hlt => hnot ⟨hsome.1, hsome.2, hlt⟩
        rw [List.filterMap_cons_some (someBytes_some hsome), List.foldl_cons, Nat.min_eq_left hle]
      · rw [List.filterMap_cons_none (someBytes_none hsome)]

theorem minQueued_eq :
    this.minQueued is least = ((is.map this.inPorts).filterMap anyBytes).foldl min least := by
  induction is generalizing least with
  | nil => rfl
  | cons i is ih =>
    rw [minQueued, List.map_cons]
    split
    next hless =>
      rw [ih, List.filterMap_cons_some (anyBytes_some hless.1), List.foldl_cons,
        Nat.min_eq_right (Nat.le_of_lt hless.2)]
    next hnot =>
      rw [ih]
      by_cases hactive : (this.inPorts i).active = true
      · have hle : least ≤ (this.inPorts i).queuedBytes :=
          Nat.not_lt.mp fun hlt => hnot ⟨hactive, hlt⟩
        rw [List.filterMap_cons_some (anyBytes_some hactive), List.foldl_cons, Nat.min_eq_left hle]
      · rw [List.filterMap_cons_none (anyBytes_none hactive)]

end SpaAudioMixer
end Pinos
