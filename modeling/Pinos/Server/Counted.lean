import Mathlib.Algebra.Ring.Nat
import Pinos.Server.Wiring

/-
Wirings in which the nodes have counted their links, and how these are kept.
-/

namespace Pinos
namespace Wiring

/-! ## What the counters are to say -/

/-- How many links are attached on a side of the ports of a node. -/
def attached (w : Wiring) (n : Nat) (dir : PinosDirection) : Nat :=
  ((w.ports n dir).map fun p => (w.links p).length).sum

/-- Links and ports know of each other, and the nodes have counted the links. -/
structure Counted (w : Wiring) : Prop where
  nodup : ∀ n dir, (w.ports n dir).Nodup
  ports : ∀ {n dir p}, p ∈ w.ports n dir → w.node p = n ∧ w.direction p = dir
  linksNodup : ∀ p, (w.links p).Nodup
  mem : ∀ {p l}, l ∈ w.links p ↔ w.side l (w.direction p) = some p
  listed : ∀ {l dir p}, w.side l dir = some p → p ∈ w.ports (w.node p) dir
  used : ∀ n dir, (w.usedLinks n dir).toNat = w.attached n dir

/-- The realtime sides of the links are sides, and the ports know of them. -/
structure Wired (w : Wiring) : Prop extends w.Counted where
  rtNodup : ∀ p, (w.rtLinks p).Nodup
  memRt : ∀ {p l}, l ∈ w.rtLinks p ↔ w.rtSide l (w.direction p) = some p
  rtSide : ∀ {l dir p}, w.rtSide l dir = some p → w.side l dir = some p

variable {w : Wiring} {l p q n : Nat} {dir : PinosDirection}

theorem Counted.direction (h : w.Counted) (hside : w.side l dir = some p) : w.direction p = dir :=
  (h.ports (h.listed hside)).2

theorem Counted.mem_of_side (h : w.Counted) (hside : w.side l dir = some p) : l ∈ w.links p := by
  rw [h.mem, h.direction hside]
  exact hside

/-! ## Sums over ports -/

theorem sum_update_add {ps : List Nat} {f : Nat → Nat} {c : Nat} (hnodup : ps.Nodup) (hp : p ∈ ps) :
    (ps.map (Function.update f p c)).sum + f p = (ps.map f).sum + c := by
  have hrest : ∀ q ∈ ps.erase p, Function.update f p c q = f q := by
    intro q hq
    exact Function.update_of_ne (fun heq : q = p => hnodup.not_mem_erase (heq ▸ hq)) ..
  have hupdate := List.sum_map_erase (Function.update f p c) hp
  have hsum := List.sum_map_erase f hp
  rw [List.map_congr_left hrest, Function.update_self] at hupdate
  omega

/-- The list of one port changes. -/
theorem attached_setLinks (h : w.Counted) (hp : p ∈ w.ports (w.node p) dir) (links : List Nat) :
    (w.setLinks p links).attached (w.node p) dir + (w.links p).length =
      w.attached (w.node p) dir + links.length := by
  have hmap : (fun q => ((w.setLinks p links).links q).length) =
      Function.update (fun q => (w.links q).length) p links.length := by
    funext q
    by_cases hq : q = p
    · rw [hq, Function.update_self]
      exact congrArg List.length (Function.update_self ..)
    · rw [Function.update_of_ne hq]
      exact congrArg List.length (Function.update_of_ne hq ..)
  unfold attached
  rw [hmap]
  exact sum_update_add (h.nodup _ _) hp

theorem attached_setLinks_of_ne (h : w.Counted) (hp : p ∈ w.ports (w.node p) dir)
    {dir' : PinosDirection} (hne : n ≠ w.node p ∨ dir' ≠ dir) (links : List Nat) :
    (w.setLinks p links).attached n dir' = w.attached n dir' := by
  have hnot : p ∉ w.ports n dir' := by
    intro hmem
    rcases hne with hne | hne
    · exact hne (h.ports hmem).1.symm
    · exact hne ((h.ports hmem).2.symm.trans (h.ports hp).2)
  unfold attached
  congr 1
  refine List.map_congr_left fun q hq => congrArg List.length ?_
  exact Function.update_of_ne (fun heq : q = p => hnot (heq ▸ hq)) ..

theorem length_le_attached (h : w.Counted) (hp : p ∈ w.ports (w.node p) dir) :
    (w.links p).length ≤ w.attached (w.node p) dir := by
  have hsum := attached_setLinks h hp []
  rw [List.length_nil] at hsum
  omega

/-! ## What keeps the counters -/

/-- The list of a port of a node changes, the counter of the node with it, and a side. -/
theorem Counted.replace (h : w.Counted) {links : List Nat} {count : UInt32} {side : Option Nat}
    (hp : p ∈ w.ports (w.node p) dir) (hnodup : links.Nodup)
    (hmem : ∀ l', l' ∈ links ↔ (w.setSide l dir side).side l' dir = some p)
    (hothers : ∀ q, q ≠ p → side = some q → False) (hold : ∀ q, w.side l dir = some q → q = p)
    (hcount : count.toNat + (w.links p).length = (w.usedLinks (w.node p) dir).toNat + links.length) :
    Counted (((w.setLinks p links).setUsedLinks (w.node p) dir count).setSide l dir side) := by
  have hdir := (h.ports hp).2
  constructor
  · exact h.nodup
  · exact h.ports
  · intro q
    by_cases hq : q = p
    · rw [hq]
      show ((w.setLinks p links).links p).Nodup
      rw [links_setLinks]
      exact hnodup
    · show ((w.setLinks p links).links q).Nodup
      rw [links_setLinks_of_ne hq]
      exact h.linksNodup q
  · intro q l'
    show l' ∈ (w.setLinks p links).links q ↔ (w.setSide l dir side).side l' (w.direction q) = some q
    by_cases hq : q = p
    · rw [hq, links_setLinks, hdir]
      exact hmem l'
    · rw [links_setLinks_of_ne hq, h.mem]
      by_cases hne : l' ≠ l ∨ w.direction q ≠ dir
      · rw [side_setSide_of_ne hne]
      · obtain ⟨hl, hd⟩ := not_or.mp hne
        rw [not_not.mp hl, not_not.mp hd, side_setSide]
        exact iff_of_false (fun heq => hq (hold q heq)) (fun heq => hothers q hq heq)
  · intro l' dir' q hside
    show q ∈ w.ports (w.node q) dir'
    change (w.setSide l dir side).side l' dir' = some q at hside
    by_cases hne : l' ≠ l ∨ dir' ≠ dir
    · rw [side_setSide_of_ne hne] at hside
      exact h.listed hside
    · obtain ⟨hl, hd⟩ := not_or.mp hne
      rw [not_not.mp hl, not_not.mp hd, side_setSide] at hside
      have hq : q = p := by
        by_contra hq
        exact hothers q hq hside
      rw [hq, not_not.mp hd]
      exact hp
  · intro n dir'
    show ((w.setUsedLinks (w.node p) dir count).usedLinks n dir').toNat =
      (w.setLinks p links).attached n dir'
    by_cases hne : n ≠ w.node p ∨ dir' ≠ dir
    · rw [usedLinks_setUsedLinks_of_ne hne, attached_setLinks_of_ne h hp hne]
      exact h.used n dir'
    · obtain ⟨hn, hd⟩ := not_or.mp hne
      rw [not_not.mp hn, not_not.mp hd, usedLinks_setUsedLinks]
      have hsum := attached_setLinks h hp links
      have hused := h.used (w.node p) dir
      omega

/-- A link leaves its port on a side. -/
theorem Counted.detach (h : w.Counted) (hside : w.side l dir = some p) :
    Counted ((w.detach dir l p (w.node p)).setSide l dir none) := by
  have hp := h.listed hside
  have hlink := h.mem_of_side hside
  have hpos := List.length_pos_of_mem hlink
  have hle := length_le_attached h hp
  have hused := h.used (w.node p) dir
  apply h.replace hp ((h.linksNodup p).erase l)
  · intro l'
    by_cases hl : l' = l
    · rw [hl, side_setSide]
      exact iff_of_false (h.linksNodup p).not_mem_erase (Option.some_ne_none p).symm
    · rw [side_setSide_of_ne (.inl hl), List.mem_erase_of_ne hl, h.mem, (h.ports hp).2]
  · intro q _ hnone
    cases hnone
  · intro q hq
    exact Option.some.inj (hq.symm.trans hside)
  · have hone : (1 : UInt32) ≤ w.usedLinks (w.node p) dir := by
      rw [UInt32.le_iff_toNat_le]
      show 1 ≤ _
      omega
    rw [UInt32.toNat_sub_of_le _ _ hone, List.length_erase_of_mem hlink]
    show _ - 1 + _ = _
    omega

/-- A link is attached to a port on a side. -/
def join (w : Wiring) (dir : PinosDirection) (l p : Nat) : Wiring :=
  (w.attach dir l p).setSide l dir (some p)

theorem Counted.join (h : w.Counted) (hp : p ∈ w.ports (w.node p) dir) (hside : w.side l dir = none)
    (hmax : (w.usedLinks (w.node p) dir).toNat + 1 < 2 ^ 32) : Counted (w.join dir l p) := by
  have hnot : l ∉ w.links p := by
    rw [h.mem, (h.ports hp).2, hside]
    exact (Option.some_ne_none p).symm
  apply h.replace hp
  · rw [List.nodup_append]
    refine ⟨h.linksNodup p, by simp, fun l' hl' l'' hl'' heq => ?_⟩
    rw [heq, List.mem_singleton.mp hl''] at hl'
    exact hnot hl'
  · intro l'
    rw [List.mem_append, List.mem_singleton]
    by_cases hl : l' = l
    · rw [hl, side_setSide]
      exact iff_of_true (.inr rfl) rfl
    · rw [side_setSide_of_ne (.inl hl), or_iff_left hl, h.mem, (h.ports hp).2]
  · intro q hq hsome
    exact hq (Option.some.inj hsome).symm
  · intro q hq
    rw [hside] at hq
    cases hq
  · have hadd : (w.usedLinks (w.node p) dir + 1).toNat = (w.usedLinks (w.node p) dir).toNat + 1 := by
      rw [UInt32.toNat_add]
      exact Nat.mod_eq_of_lt hmax
    rw [hadd, List.length_append]
    show _ + 1 + _ = _ + (_ + 1)
    omega

theorem ports_setPorts {ports : List Nat} {n' : Nat} {dir' : PinosDirection} :
    (w.setPorts n dir ports).ports n' dir' = if n' = n ∧ dir' = dir then ports else w.ports n' dir' := by
  show Function.update w.ports n _ n' dir' = _
  by_cases hn : n' = n
  · rw [hn, Function.update_self]
    by_cases hd : dir' = dir
    · rw [hd, Function.update_self, if_pos ⟨rfl, rfl⟩]
    · rw [Function.update_of_ne hd, if_neg fun heq => hd heq.2]
  · rw [Function.update_of_ne hn, if_neg fun heq => hn heq.1]

theorem mem_ports_of_erase {n' : Nat} {dir' : PinosDirection}
    (hq : q ∈ (w.setPorts n dir ((w.ports n dir).erase p)).ports n' dir') : q ∈ w.ports n' dir' := by
  rw [ports_setPorts] at hq
  split at hq
  · next heq =>
    rw [heq.1, heq.2]
    exact List.mem_of_mem_erase hq
  · exact hq

theorem notMem_ports_of_erase (h : (w.ports n dir).Nodup) :
    p ∉ (w.setPorts n dir ((w.ports n dir).erase p)).ports n dir := by
  rw [ports_setPorts, if_pos ⟨rfl, rfl⟩]
  exact h.not_mem_erase

/-- A port without links goes. -/
theorem Counted.erasePort (h : w.Counted) (hnone : w.links p = []) :
    Counted (w.setPorts n dir ((w.ports n dir).erase p)) := by
  constructor
  · intro n' dir'
    rw [ports_setPorts]
    split
    · exact (h.nodup n dir).erase p
    · exact h.nodup n' dir'
  · exact fun hq => h.ports (mem_ports_of_erase hq)
  · exact h.linksNodup
  · exact h.mem
  · intro l dir' q hside
    have hq : q ≠ p := by
      intro heq
      have hlink := h.mem_of_side hside
      rw [heq, hnone] at hlink
      cases hlink
    show q ∈ (w.setPorts n dir _).ports (w.node q) dir'
    rw [ports_setPorts]
    split
    · next heq => exact (List.mem_erase_of_ne hq).mpr (heq.1 ▸ heq.2 ▸ h.listed hside)
    · exact h.listed hside
  · intro n' dir'
    rw [show (w.setPorts n dir _).usedLinks = w.usedLinks from rfl, h.used]
    unfold attached
    rw [ports_setPorts]
    split
    · next heq =>
      rw [heq.1, heq.2]
      show _ = (((w.ports n dir).erase p).map fun q => (w.links q).length).sum
      by_cases hp : p ∈ w.ports n dir
      · have hsum := List.sum_map_erase (fun q => (w.links q).length) hp
        rw [hnone, List.length_nil] at hsum
        omega
      · rw [List.erase_of_not_mem hp]
    · rfl

/-! ## The realtime sides -/

/-- What changes sides only keeps the realtime sides, if these are sides still. -/
theorem Wired.of_counted (h : w.Wired) {w' : Wiring} (hcounted : w'.Counted)
    (hlinks : w'.rtLinks = w.rtLinks) (hrt : w'.rtSide = w.rtSide)
    (hdir : w'.direction = w.direction)
    (hside : ∀ {l dir p}, w.rtSide l dir = some p → w'.side l dir = some p) : w'.Wired := by
  refine { hcounted with rtNodup := ?_, memRt := ?_, rtSide := ?_ }
  · rw [hlinks]
    exact h.rtNodup
  · rw [hlinks, hrt, hdir]
    exact h.memRt
  · rw [hrt]
    exact hside

theorem Wired.detach (h : w.Wired) (hside : w.side l dir = some p) (hrt : w.rtSide l dir = none) :
    Wired ((w.detach dir l p (w.node p)).setSide l dir none) := by
  refine h.of_counted (h.toCounted.detach hside) rfl rfl rfl ?_
  intro l' dir' q hq
  have hne : l' ≠ l ∨ dir' ≠ dir := by
    by_contra hnot
    obtain ⟨hl, hd⟩ := not_or.mp hnot
    rw [not_not.mp hl, not_not.mp hd, hrt] at hq
    cases hq
  exact (side_setSide_of_ne hne).trans (h.rtSide hq)

theorem Wired.join (h : w.Wired) (hp : p ∈ w.ports (w.node p) dir) (hside : w.side l dir = none)
    (hmax : (w.usedLinks (w.node p) dir).toNat + 1 < 2 ^ 32) : Wired (w.join dir l p) := by
  refine h.of_counted (h.toCounted.join hp hside hmax) rfl rfl rfl ?_
  intro l' dir' q hq
  have hne : l' ≠ l ∨ dir' ≠ dir := by
    by_contra hnot
    obtain ⟨hl, hd⟩ := not_or.mp hnot
    have hold := h.rtSide hq
    rw [not_not.mp hl, not_not.mp hd, hside] at hold
    cases hold
  exact (side_setSide_of_ne hne).trans (h.rtSide hq)

theorem Wired.erasePort (h : w.Wired) (hnone : w.links p = []) :
    Wired (w.setPorts n dir ((w.ports n dir).erase p)) :=
  h.of_counted (h.toCounted.erasePort hnone) rfl rfl rfl h.rtSide

/-- The realtime list of a port changes, and a realtime side with it. -/
theorem Wired.replaceRt (h : w.Wired) {links : List Nat} {side : Option Nat}
    (hdir : w.direction p = dir) (hnodup : links.Nodup)
    (hmem : ∀ l', l' ∈ links ↔ (w.setRtSide l dir side).rtSide l' dir = some p)
    (hnew : ∀ q, side = some q → q = p ∧ w.side l dir = some p)
    (hold : ∀ q, w.rtSide l dir = some q → q = p) :
    Wired ((w.setRtLinks p links).setRtSide l dir side) := by
  refine ⟨⟨h.nodup, h.ports, h.linksNodup, h.mem, h.listed, h.used⟩, ?_, ?_, ?_⟩
  · intro q
    by_cases hq : q = p
    · rw [hq]
      show ((w.setRtLinks p links).rtLinks p).Nodup
      rw [rtLinks_setRtLinks]
      exact hnodup
    · show ((w.setRtLinks p links).rtLinks q).Nodup
      rw [rtLinks_setRtLinks_of_ne hq]
      exact h.rtNodup q
  · intro q l'
    show l' ∈ (w.setRtLinks p links).rtLinks q ↔
      (w.setRtSide l dir side).rtSide l' (w.direction q) = some q
    by_cases hq : q = p
    · rw [hq, rtLinks_setRtLinks, hdir]
      exact hmem l'
    · rw [rtLinks_setRtLinks_of_ne hq, h.memRt]
      by_cases hne : l' ≠ l ∨ w.direction q ≠ dir
      · rw [rtSide_setRtSide_of_ne hne]
      · obtain ⟨hl, hd⟩ := not_or.mp hne
        rw [not_not.mp hl, not_not.mp hd, rtSide_setRtSide]
        exact iff_of_false (fun heq => hq (hold q heq)) (fun heq => hq (hnew q heq).1)
  · intro l' dir' q hside
    show w.side l' dir' = some q
    change (w.setRtSide l dir side).rtSide l' dir' = some q at hside
    by_cases hne : l' ≠ l ∨ dir' ≠ dir
    · rw [rtSide_setRtSide_of_ne hne] at hside
      exact h.rtSide hside
    · obtain ⟨hl, hd⟩ := not_or.mp hne
      rw [not_not.mp hl, not_not.mp hd, rtSide_setRtSide] at hside
      rw [not_not.mp hl, not_not.mp hd, (hnew q hside).1]
      exact (hnew q hside).2

theorem Wired.addRt (h : w.Wired) (hside : w.side l (w.direction p) = some p)
    (hrt : w.rtSide l (w.direction p) = none) : Wired (w.addRt l p) := by
  have hnot : l ∉ w.rtLinks p := by
    rw [h.memRt, hrt]
    exact (Option.some_ne_none p).symm
  apply h.replaceRt rfl
  · rw [List.nodup_append]
    refine ⟨h.rtNodup p, by simp, fun l' hl' l'' hl'' heq => ?_⟩
    rw [heq, List.mem_singleton.mp hl''] at hl'
    exact hnot hl'
  · intro l'
    rw [List.mem_append, List.mem_singleton]
    by_cases hl : l' = l
    · rw [hl, rtSide_setRtSide]
      exact iff_of_true (.inr rfl) rfl
    · rw [rtSide_setRtSide_of_ne (.inl hl), or_iff_left hl, h.memRt]
  · intro q hq
    exact ⟨(Option.some.inj hq).symm, hside⟩
  · intro q hq
    rw [hrt] at hq
    cases hq

theorem Wired.removeRt (h : w.Wired) (hrt : w.rtSide l dir = some p) :
    Wired (w.removeRt dir l p) := by
  have hdir := h.direction (h.rtSide hrt)
  apply h.replaceRt hdir ((h.rtNodup p).erase l)
  · intro l'
    by_cases hl : l' = l
    · rw [hl, rtSide_setRtSide]
      exact iff_of_false (h.rtNodup p).not_mem_erase (Option.some_ne_none p).symm
    · rw [rtSide_setRtSide_of_ne (.inl hl), List.mem_erase_of_ne hl, h.memRt, hdir]
  · intro q hnone
    cases hnone
  · intro q hq
    exact Option.some.inj (hq.symm.trans hrt)

/-! ## New links -/

/-- A link is attached to both of its ports. -/
def link (w : Wiring) (l output input : Nat) : Wiring :=
  (w.join .output l output).join .input l input

section Link

variable {output input : Nat}

theorem side_link_output : (w.link l output input).side l .output = some output :=
  (side_setSide_of_ne (.inr PinosDirection.noConfusion)).trans side_setSide

theorem side_link_input : (w.link l output input).side l .input = some input := side_setSide

theorem side_link_of_ne {l' : Nat} (hne : l' ≠ l) :
    (w.link l output input).side l' dir = w.side l' dir := by
  have hjoin : (w.join .output l output).side l' dir = w.side l' dir :=
    side_setSide_of_ne (.inl hne)
  exact (side_setSide_of_ne (.inl hne)).trans hjoin

/-- A port of a link is one of the two, or that of another link. -/
theorem side_link_cases {l' : Nat} (hside : (w.link l output input).side l' dir = some p) :
    l' = l ∧ (p = output ∨ p = input) ∨ l' ≠ l ∧ w.side l' dir = some p := by
  by_cases hl : l' = l
  · left
    rw [hl] at hside
    cases dir with
    | input => exact ⟨hl, .inr (Option.some.inj (hside.symm.trans side_link_input))⟩
    | output => exact ⟨hl, .inl (Option.some.inj (hside.symm.trans side_link_output))⟩
  · exact .inr ⟨hl, side_link_of_ne hl ▸ hside⟩

theorem newLink_attach (hrt : ∀ dir, w.rtSide l dir = none) :
    ((w.newLink l output input).attach .output l output).attach .input l input =
      w.link l output input := by
  refine Wiring.ext ?_ ?_ rfl rfl rfl rfl rfl rfl rfl
  · funext l' dir
    show Function.update w.side l _ l' dir = _
    by_cases hl : l' = l
    · rw [hl, Function.update_self]
      cases dir with
      | input => exact side_link_input.symm
      | output => exact side_link_output.symm
    · rw [Function.update_of_ne hl, side_link_of_ne hl]
  · show Function.update w.rtSide l (fun _ => none) = w.rtSide
    rw [← show w.rtSide l = fun _ => none from funext hrt, Function.update_eq_self]

theorem Wired.link (h : w.Wired) (houtput : output ∈ w.ports (w.node output) .output)
    (hinput : input ∈ w.ports (w.node input) .input) (hside : ∀ dir, w.side l dir = none)
    (hroomOut : (w.usedLinks (w.node output) .output).toNat + 1 < 2 ^ 32)
    (hroomIn : (w.usedLinks (w.node input) .input).toNat + 1 < 2 ^ 32) :
    Wired (w.link l output input) := by
  apply (h.join houtput (hside .output) hroomOut).join hinput
  · exact (side_setSide_of_ne (.inr PinosDirection.noConfusion)).trans (hside .input)
  · show ((w.setUsedLinks (w.node output) .output _).usedLinks (w.node input) .input).toNat + 1 < _
    rw [usedLinks_setUsedLinks_of_ne (.inr PinosDirection.noConfusion)]
    exact hroomIn

end Link

end Wiring
end Pinos
