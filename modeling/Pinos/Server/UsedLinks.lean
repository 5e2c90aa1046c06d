import Mathlib.Data.Finset.Card
import Pinos.Server.Wiring

/-
The counters of a node are never less than the number of links that have its ports, whatever
becomes of the ports: a node that has counted down to zero has no links.
-/

namespace Pinos
namespace Wiring

/-- The links that have a port of a node on a side. -/
def owners (w : Wiring) (nLinks n : Nat) (dir : PinosDirection) : Finset Nat :=
  (Finset.range nLinks).filter fun l => (w.side l dir).any fun p => w.node p = n

/-- The links in the lists of ports have these ports, and the nodes have counted them. -/
structure Tracked (w : Wiring) (nLinks : Nat) : Prop where
  nodup : ∀ n dir, (w.ports n dir).Nodup
  listed : ∀ {n dir p}, p ∈ w.ports n dir → w.node p = n ∧ w.direction p = dir
  links : ∀ {n dir p}, p ∈ w.ports n dir → (w.links p).Nodup
  side : ∀ {n dir p l}, p ∈ w.ports n dir → l ∈ w.links p → w.side l dir = some p
  port : ∀ {l dir p}, w.side l dir = some p → w.direction p = dir
  fresh : ∀ {l dir}, nLinks ≤ l → w.side l dir = none
  counts : ∀ n dir, (w.owners nLinks n dir).card ≤ (w.usedLinks n dir).toNat

variable {w w' : Wiring} {nLinks n p l : Nat} {dir : PinosDirection}

theorem mem_owners : l ∈ w.owners nLinks n dir ↔
    l < nLinks ∧ ∃ p, w.side l dir = some p ∧ w.node p = n := by
  simp [owners, Option.any_eq_true]

theorem Tracked.lt (h : w.Tracked nLinks) (hside : w.side l dir = some p) : l < nLinks := by
  by_contra hlt
  rw [h.fresh (Nat.le_of_not_lt hlt)] at hside
  cases hside

/-- A node that counts no links has none. -/
theorem Tracked.unused (h : w.Tracked nLinks) (hzero : w.usedLinks n dir = 0)
    (hp : p ∈ w.ports n dir) : w.links p = [] := by
  rw [List.eq_nil_iff_forall_not_mem]
  intro l hl
  have hside := h.side hp hl
  have hmem : l ∈ w.owners nLinks n dir := mem_owners.mpr ⟨h.lt hside, p, hside, (h.listed hp).1⟩
  have hcount := h.counts n dir
  rw [hzero] at hcount
  exact absurd (Finset.card_pos.mpr ⟨l, hmem⟩) (Nat.not_lt.mpr hcount)

/-- The same sides, lists and counters. -/
theorem Tracked.congr (h : w.Tracked nLinks) (hside : w'.side = w.side) (hlinks : w'.links = w.links)
    (hports : w'.ports = w.ports) (hused : w'.usedLinks = w.usedLinks) (hnode : w'.node = w.node)
    (hdir : w'.direction = w.direction) : w'.Tracked nLinks := by
  have howners : ∀ n dir, w'.owners nLinks n dir = w.owners nLinks n dir := by
    intro n dir
    rw [owners, owners, hside, hnode]
  constructor
  · exact fun n dir => hports ▸ h.nodup n dir
  · exact fun hp => by
      rw [hnode, hdir]
      exact h.listed (hports ▸ hp)
  · exact fun hp => hlinks ▸ h.links (hports ▸ hp)
  · exact fun hp hl => by
      rw [hside]
      exact h.side (hports ▸ hp) (hlinks ▸ hl)
  · exact fun hs => by
      rw [hdir]
      exact h.port (hside ▸ hs)
  · exact fun hl => by
      rw [hside]
      exact h.fresh hl
  · exact fun n dir => by
      rw [howners, hused]
      exact h.counts n dir

/-! ## Links that leave their ports -/

/-- A link that leaves a port leaves the count of its node. -/
theorem Tracked.detach (h : w.Tracked nLinks) (hside : w.side l dir = some p) :
    ((w.detach dir l p (w.node p)).setSide l dir none).Tracked nLinks := by
  have hside' : ∀ {l' dir'}, l' ≠ l ∨ dir' ≠ dir →
      ((w.detach dir l p (w.node p)).setSide l dir none).side l' dir' = w.side l' dir' :=
    fun hne => side_setSide_of_ne hne
  have hkept : ∀ {l' dir' q},
      ((w.detach dir l p (w.node p)).setSide l dir none).side l' dir' = some q →
        w.side l' dir' = some q ∧ (l' ≠ l ∨ dir' ≠ dir) := by
    intro l' dir' q hq
    by_cases hne : l' ≠ l ∨ dir' ≠ dir
    · exact ⟨(hside' hne).symm.trans hq, hne⟩
    · push Not at hne
      rw [hne.1, hne.2, side_setSide] at hq
      cases hq
  have hlinks : ∀ q, ((w.detach dir l p (w.node p)).setSide l dir none).links q =
      if q = p then (w.links p).erase l else w.links q :=
    fun q => links_detach dir l p (w.node p) q
  constructor
  · exact h.nodup
  · exact h.listed
  · intro n dir' q hq
    rw [hlinks]
    split
    · next hqp => exact (hqp ▸ h.links hq).erase l
    · exact h.links hq
  · intro n dir' q l' hq hl'
    rw [hlinks] at hl'
    split at hl'
    · next hqp =>
      subst hqp
      obtain ⟨hne, hmem⟩ := (h.links hq).mem_erase_iff.mp hl'
      rw [hside' (.inl hne)]
      exact h.side hq hmem
    · next hqp =>
      have hold := h.side hq hl'
      by_cases hne : l' ≠ l ∨ dir' ≠ dir
      · rw [hside' hne]
        exact hold
      · push Not at hne
        rw [hne.1, hne.2, hside] at hold
        exact absurd (Option.some_inj.mp hold).symm hqp
  · exact fun hs => h.port (hkept hs).1
  · intro l' dir' hl'
    rw [Option.eq_none_iff_forall_ne_some]
    intro q hq
    exact absurd ((h.fresh hl').symm.trans (hkept hq).1) nofun
  · intro n dir'
    have hsub : ∀ l' ∈ ((w.detach dir l p (w.node p)).setSide l dir none).owners nLinks n dir',
        l' ∈ w.owners nLinks n dir' ∧ (l' ≠ l ∨ dir' ≠ dir) := by
      intro l' hl'
      obtain ⟨hlt, q, hq, hn⟩ := mem_owners.mp hl'
      exact ⟨mem_owners.mpr ⟨hlt, q, (hkept hq).1, hn⟩, (hkept hq).2⟩
    have hcount := h.counts n dir'
    by_cases hself : n = w.node p ∧ dir' = dir
    · obtain ⟨rfl, rfl⟩ := hself
      have hmem : l ∈ w.owners nLinks (w.node p) dir' := mem_owners.mpr ⟨h.lt hside, p, hside, rfl⟩
      have hcard := Finset.card_le_card fun l' hl' =>
        Finset.mem_erase.mpr ⟨(hsub l' hl').2.resolve_right (not_not.mpr rfl), (hsub l' hl').1⟩
      rw [Finset.card_erase_of_mem hmem] at hcard
      have hpos : 0 < (w.owners nLinks (w.node p) dir').card := Finset.card_pos.mpr ⟨l, hmem⟩
      have hone : 1 ≤ w.usedLinks (w.node p) dir' := by
        rw [UInt32.le_iff_toNat_le]
        exact Nat.le_trans hpos hcount
      have hused : ((w.detach dir' l p (w.node p)).setSide l dir' none).usedLinks (w.node p) dir' =
          w.usedLinks (w.node p) dir' - 1 := usedLinks_setUsedLinks
      rw [hused, UInt32.toNat_sub_of_le _ _ hone]
      exact Nat.le_trans hcard (Nat.sub_le_sub_right hcount 1)
    · have hused : ((w.detach dir l p (w.node p)).setSide l dir none).usedLinks n dir' =
          w.usedLinks n dir' := usedLinks_setUsedLinks_of_ne (not_and_or.mp hself)
      rw [hused]
      exact Nat.le_trans (Finset.card_le_card fun l' hl' => (hsub l' hl').1) hcount

/-- A port leaves the list of its node, and some links lose it. -/
theorem Tracked.erasePort (h : w.Tracked nLinks) (hlinks : w'.links = w.links)
    (hused : w'.usedLinks = w.usedLinks) (hnode : w'.node = w.node)
    (hdir : w'.direction = w.direction)
    (hports : w'.ports = (w.setPorts n dir ((w.ports n dir).erase p)).ports)
    (hsome : ∀ {l dir q}, w'.side l dir = some q → w.side l dir = some q)
    (hkeep : ∀ {l dir q}, q ≠ p → w.side l dir = some q → w'.side l dir = some q)
    (hp : p ∈ w.ports n dir) : w'.Tracked nLinks := by
  have hmem : ∀ {n' dir' q}, q ∈ w'.ports n' dir' → q ∈ w.ports n' dir' ∧ q ≠ p := by
    intro n' dir' q hq
    rw [hports] at hq
    change q ∈ Function.update w.ports n (Function.update (w.ports n) dir _) n' dir' at hq
    by_cases hn : n' = n
    · rw [hn, Function.update_self] at hq
      by_cases hd : dir' = dir
      · rw [hd, Function.update_self] at hq
        obtain ⟨hne, hq⟩ := (h.nodup n dir).mem_erase_iff.mp hq
        exact ⟨hn ▸ hd ▸ hq, hne⟩
      · rw [Function.update_of_ne hd] at hq
        refine ⟨hn ▸ hq, fun he => hd ?_⟩
        rw [← (h.listed hq).2, ← (h.listed hp).2, he]
    · rw [Function.update_of_ne hn] at hq
      refine ⟨hq, fun he => hn ?_⟩
      rw [← (h.listed hq).1, ← (h.listed hp).1, he]
  have hnodup : ∀ n' dir', (w'.ports n' dir').Nodup := by
    intro n' dir'
    rw [hports]
    show (Function.update w.ports n (Function.update (w.ports n) dir _) n' dir').Nodup
    by_cases hn : n' = n
    · rw [hn, Function.update_self]
      by_cases hd : dir' = dir
      · rw [hd, Function.update_self]
        exact (h.nodup n dir).erase p
      · rw [Function.update_of_ne hd]
        exact h.nodup n dir'
    · rw [Function.update_of_ne hn]
      exact h.nodup n' dir'
  constructor
  · exact hnodup
  · exact fun hq => by
      rw [hnode, hdir]
      exact h.listed (hmem hq).1
  · exact fun hq => hlinks ▸ h.links (hmem hq).1
  · exact fun hq hl => hkeep (hmem hq).2 (h.side (hmem hq).1 (hlinks ▸ hl))
  · exact fun hs => by
      rw [hdir]
      exact h.port (hsome hs)
  · intro l dir' hl
    rw [Option.eq_none_iff_forall_ne_some]
    intro q hq
    exact absurd ((h.fresh hl).symm.trans (hsome hq)) nofun
  · intro n' dir'
    rw [hused]
    refine Nat.le_trans (Finset.card_le_card fun l hl => ?_) (h.counts n' dir')
    obtain ⟨hlt, q, hq, hn⟩ := mem_owners.mp hl
    exact mem_owners.mpr ⟨hlt, q, hsome hq, hnode ▸ hn⟩

/-! ## Links that are made -/

/-- What one of the two ports of a new link makes of lists and counters. -/
theorem Tracked.attach (h : w.Tracked nLinks) {n' : Nat} (hp : p ∈ w.ports n' dir)
    (hroom : (w.usedLinks n' dir).toNat + 1 < 2 ^ 32)
    (hl : ∀ {n q}, q ∈ w.ports n dir → l ∉ w.links q) (hside : w.side l dir = none)
    (hlt : l < nLinks) :
    ((w.attach dir l p).setSide l dir (some p)).Tracked nLinks := by
  obtain ⟨hnode, hdirp⟩ := h.listed hp
  have hlinks : ∀ q, ((w.attach dir l p).setSide l dir (some p)).links q =
      if q = p then w.links p ++ [l] else w.links q := by
    intro q
    show Function.update w.links p _ q = _
    by_cases hq : q = p
    · rw [hq, Function.update_self, if_pos rfl]
    · rw [Function.update_of_ne hq, if_neg hq]
  have hside' : ∀ {l' dir'}, l' ≠ l ∨ dir' ≠ dir →
      ((w.attach dir l p).setSide l dir (some p)).side l' dir' = w.side l' dir' :=
    fun hne => side_setSide_of_ne hne
  have hself : ((w.attach dir l p).setSide l dir (some p)).side l dir = some p := side_setSide
  have hcases : ∀ {l' dir' q}, ((w.attach dir l p).setSide l dir (some p)).side l' dir' = some q →
      w.side l' dir' = some q ∨ l' = l ∧ dir' = dir ∧ q = p := by
    intro l' dir' q hq
    by_cases hne : l' ≠ l ∨ dir' ≠ dir
    · exact .inl ((hside' hne).symm.trans hq)
    · push Not at hne
      rw [hne.1, hne.2, hself] at hq
      exact .inr ⟨hne.1, hne.2, (Option.some_inj.mp hq).symm⟩
  constructor
  · exact h.nodup
  · exact h.listed
  · intro n dir' q hq
    rw [hlinks]
    split
    · next hqp =>
      rw [List.nodup_append]
      refine ⟨h.links hp, by simp, fun a ha b hb hab => hl hp ?_⟩
      rw [List.mem_singleton.mp hb] at hab
      exact hab ▸ ha
    · exact h.links hq
  · intro n dir' q l' hq hl'
    rw [hlinks] at hl'
    split at hl'
    · next hqp =>
      subst hqp
      have hd : dir' = dir := (h.listed hq).2.symm.trans hdirp
      subst hd
      rcases List.mem_append.mp hl' with hl' | hl'
      · rw [hside' (.inl fun he => hl hq (he ▸ hl'))]
        exact h.side hq hl'
      · rw [List.mem_singleton.mp hl']
        exact hself
    · have hold := h.side hq hl'
      rw [hside']
      · exact hold
      by_cases hd : dir' = dir
      · subst hd
        exact .inl fun he => hl hq (he ▸ hl')
      · exact .inr hd
  · intro l' dir' q hq
    rcases hcases hq with hq | ⟨-, rfl, rfl⟩
    · exact h.port hq
    · exact hdirp
  · intro l' dir' hl'
    rw [hside' (.inl fun he => absurd (he ▸ hl') (Nat.not_le.mpr hlt))]
    exact h.fresh hl'
  · intro n dir'
    have hcount := h.counts n dir'
    by_cases hself' : n = n' ∧ dir' = dir
    · obtain ⟨rfl, rfl⟩ := hself'
      have hsub : ((w.attach dir' l p).setSide l dir' (some p)).owners nLinks n dir' ⊆
          insert l (w.owners nLinks n dir') := by
        intro l' hl'
        obtain ⟨hlt', q, hq, hn⟩ := mem_owners.mp hl'
        rcases hcases hq with hq | ⟨rfl, -, -⟩
        · exact Finset.mem_insert_of_mem (mem_owners.mpr ⟨hlt', q, hq, hn⟩)
        · exact Finset.mem_insert_self ..
      have hused : ((w.attach dir' l p).setSide l dir' (some p)).usedLinks n dir' =
          w.usedLinks n dir' + 1 := by
        show (w.setUsedLinks (w.node p) dir' (w.usedLinks (w.node p) dir' + 1)).usedLinks n dir' = _
        rw [hnode]
        exact usedLinks_setUsedLinks
      rw [hused, UInt32.toNat_add, Nat.mod_eq_of_lt (by simpa using hroom)]
      exact Nat.le_trans (Finset.card_le_card hsub)
        (Nat.le_trans (Finset.card_insert_le ..) (Nat.add_le_add_right hcount 1))
    · have hused : ((w.attach dir l p).setSide l dir (some p)).usedLinks n dir' =
          w.usedLinks n dir' := by
        refine usedLinks_setUsedLinks_of_ne ?_
        rw [hnode]
        exact not_and_or.mp hself'
      rw [hused]
      refine Nat.le_trans (Finset.card_le_card fun l' hl' => ?_) hcount
      obtain ⟨hlt', q, hq, hn⟩ := mem_owners.mp hl'
      rcases hcases hq with hq | ⟨-, rfl, rfl⟩
      · exact mem_owners.mpr ⟨hlt', q, hq, hn⟩
      · exact absurd ⟨hn.symm.trans hnode, rfl⟩ hself'

theorem Tracked.notMem (h : w.Tracked nLinks) (hp : p ∈ w.ports n dir) (hl : nLinks ≤ l) :
    l ∉ w.links p := by
  intro hmem
  have hside := h.side hp hmem
  rw [h.fresh hl] at hside
  cases hside

/-- A number for a link that is to be made. -/
theorem Tracked.succ (h : w.Tracked nLinks) : w.Tracked (nLinks + 1) where
  nodup := h.nodup
  listed := h.listed
  links := h.links
  side := h.side
  port := h.port
  fresh hl := h.fresh (Nat.le_of_succ_le hl)
  counts n dir := by
    refine Nat.le_trans (Finset.card_le_card fun l hl => ?_) (h.counts n dir)
    obtain ⟨-, p, hside, hn⟩ := mem_owners.mp hl
    exact mem_owners.mpr ⟨h.lt hside, p, hside, hn⟩

/-- What a new link makes of lists and counters. -/
theorem Tracked.newLink (h : w.Tracked nLinks) {output input n m : Nat}
    (hout : output ∈ w.ports n .output) (hin : input ∈ w.ports m .input)
    (hroomOut : (w.usedLinks n .output).toNat + 1 < 2 ^ 32)
    (hroomIn : (w.usedLinks m .input).toNat + 1 < 2 ^ 32) :
    (((w.newLink nLinks output input).attach .output nLinks output).attach .input nLinks
      input).Tracked (nLinks + 1) := by
  have hfirst : ((w.attach .output nLinks output).setSide nLinks .output (some output)).Tracked
      (nLinks + 1) :=
    h.succ.attach hout hroomOut (fun hq => h.notMem hq (Nat.le_refl _)) (h.fresh (Nat.le_refl _))
      (Nat.lt_succ_self _)
  have hlist : ∀ {k q}, q ∈ w.ports k .input → nLinks ∉
      ((w.attach .output nLinks output).setSide nLinks .output (some output)).links q := by
    intro k q hq
    have hne : q ≠ output := by
      intro he
      have hdir := (h.listed hq).2
      rw [he, (h.listed hout).2] at hdir
      cases hdir
    show nLinks ∉ Function.update w.links output _ q
    rw [Function.update_of_ne hne]
    exact h.notMem hq (Nat.le_refl _)
  have hside : ((w.attach .output nLinks output).setSide nLinks .output (some output)).side nLinks
      .input = none :=
    (side_setSide_of_ne (.inr (by decide))).trans (h.fresh (Nat.le_refl _))
  have hused : ((w.attach .output nLinks output).setSide nLinks .output (some output)).usedLinks m
      .input = w.usedLinks m .input :=
    usedLinks_setUsedLinks_of_ne (.inr (by decide))
  refine (hfirst.attach hin (hused ▸ hroomIn) hlist hside (Nat.lt_succ_self _)).congr ?_ rfl rfl rfl
    rfl rfl
  funext l dir
  show Function.update w.side nLinks _ l dir = Function.update (Function.update w.side nLinks _)
    nLinks (Function.update (Function.update w.side nLinks _ nLinks) .input (some input)) l dir
  by_cases hl : l = nLinks
  · rw [hl, Function.update_self, Function.update_self, Function.update_self]
    cases dir <;> rfl
  · rw [Function.update_of_ne hl, Function.update_of_ne hl, Function.update_of_ne hl]

end Wiring
end Pinos
