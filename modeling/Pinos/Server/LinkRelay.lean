import Pinos.Server.Relays

/-
What the calls on links find and leave, and links that are destroyed, whatever else is on its way.
-/

namespace Pinos

/-- What is found in a queue that has grown was there, or is what was added. -/
theorem split_append_singleton {α : Type} {queue front rest : List α} {a b : α}
    (h : queue ++ [a] = front ++ b :: rest) :
    (∃ rest', queue = front ++ b :: rest') ∨ b = a ∧ front = queue := by
  rcases List.eq_nil_or_concat rest with rfl | ⟨rest', c, rfl⟩
  · obtain ⟨hfront, hlast⟩ := List.append_inj' h rfl
    exact .inr ⟨(List.singleton_inj.mp hlast).symm, hfront.symm⟩
  · left
    have hend : queue ++ [a] = (front ++ b :: rest') ++ [c] := by
      rw [h, List.concat_eq_append, List.append_assoc, List.cons_append]
    exact ⟨rest', (List.append_inj' hend rfl).1⟩

theorem split_append_replicate {α : Type} {queue front rest : List α} {a b : α} (hne : b ≠ a)
    {k : Nat} (h : queue ++ List.replicate k a = front ++ b :: rest) :
    ∃ rest', queue = front ++ b :: rest' := by
  induction k generalizing rest with
  | zero => exact ⟨rest, by rwa [List.replicate_zero, List.append_nil] at h⟩
  | succ k ih =>
    rw [List.replicate_succ', ← List.append_assoc] at h
    rcases split_append_singleton h with ⟨rest', h⟩ | ⟨heq, -⟩
    · exact ih h
    · exact absurd heq hne

namespace Daemon

variable {s : Daemon} {main : List Invocation} {loops : Nat → List Nat} {dying : Option Nat}
variable {l p q n d : Nat} {dir : PinosDirection}

/-! ## What is there -/

theorem Heard.whole_of_mem (h : s.Heard main) {o : Object} (hl : l ∈ s.listeners o) :
    s.Whole l := by
  cases o with
  | node n =>
    obtain ⟨p, -, hp⟩ := h.node hl
    exact ⟨p, hp⟩
  | port p => exact ⟨p, hl⟩
  | link l' =>
    rw [h.link] at hl
    cases hl

theorem Heard.lt (h : s.Heard main) (hl : s.Whole l) : l < s.nLinks := by
  obtain ⟨p, hp⟩ := hl
  exact (h.whole hp).1

/-- A link that was not destroyed listens to each of its ports. -/
theorem Heard.listens (h : s.Heard main) (hl : s.Whole l)
    (hside : s.graph.wiring.side l dir = some p) : l ∈ s.listeners (.port p) := by
  obtain ⟨p', hp'⟩ := hl
  obtain ⟨-, hside', q, hother, hq, -⟩ := h.whole hp'
  by_cases hdir : dir = s.graph.wiring.direction p'
  · rw [hdir, hside'] at hside
    cases hside
    exact hp'
  · have hdir' : dir = (s.graph.wiring.direction p').other := by
      revert hdir
      cases dir <;> cases s.graph.wiring.direction p' <;> simp [PinosDirection.other]
    rw [hdir', hother] at hside
    cases hside
    exact hq

theorem SafeWith.clean (h : s.SafeWith main loops dying) (p : Nat) : s.Clean p := by
  intro l hl
  rcases List.mem_append.mp hl with hl | hl
  · exact (h.referred.whole (h.heard.whole_of_mem hl)).1
  · exact (h.referred.whole (h.heard.whole_of_mem hl)).1

theorem SafeWith.port_live (h : s.SafeWith main loops dying)
    (hside : s.graph.wiring.side l dir = some p) :
    .port p ∉ s.freed ∧ .node (s.graph.wiring.node p) ∉ s.freed :=
  (h.placed.ports (h.placed.side hside)).2.2

theorem SafeWith.direction (h : s.SafeWith main loops dying)
    (hside : s.graph.wiring.side l dir = some p) : s.graph.wiring.direction p = dir :=
  (h.placed.ports (h.placed.side hside)).2.1

/-- A link with a side is there. -/
theorem SafeWith.side_live (h : s.SafeWith main loops dying)
    (hside : s.graph.wiring.side l dir = some p) : l < s.nLinks ∧ .link l ∉ s.freed := by
  have hpending {d : Nat} (hmem : .linkRemove l ∈ s.dataLoops d) : loops l ≠ [] := by
    intro hnil
    have hcount := h.referred.count d l
    rw [hnil, List.count_nil] at hcount
    exact List.count_eq_zero.mp hcount hmem
  rcases h.referred.side hside with ⟨q, hq⟩ | hmem | hmem
  · exact ⟨(h.heard.whole hq).1, (h.referred.whole ⟨q, hq⟩).1⟩
  · constructor
    · by_contra hle
      exact hpending hmem (h.referred.fresh (Nat.le_of_not_lt hle)).1
    · exact fun hfreed => hpending hmem (h.referred.freed hfreed).2.1
  · constructor
    · by_contra hle
      exact (h.referred.fresh (Nat.le_of_not_lt hle)).2 hmem
    · exact fun hfreed => (h.referred.freed hfreed).2.2 hmem

theorem SafeWith.rtSide_live (h : s.SafeWith main loops dying)
    (hside : s.graph.wiring.rtSide l dir = some p) : l < s.nLinks ∧ .link l ∉ s.freed := by
  rcases h.referred.rtSide hside with ⟨q, hq⟩ | hne
  · exact ⟨(h.heard.whole hq).1, (h.referred.whole ⟨q, hq⟩).1⟩
  · constructor
    · by_contra hle
      exact hne (h.referred.fresh (Nat.le_of_not_lt hle)).1
    · exact fun hfreed => hne (h.referred.freed hfreed).2.1

/-- What is in the list of a port is there. -/
theorem SafeWith.listUses (h : s.SafeWith main loops none)
    (hp : p ∈ s.graph.wiring.ports (s.graph.wiring.node p) dir) :
    ∀ o ∈ s.graph.listUses p, o ∉ s.freed := by
  obtain ⟨-, -, hport, hnode⟩ := h.placed.ports hp
  intro o ho
  rcases List.mem_cons.mp ho with rfl | ho
  · exact hport
  · rcases List.mem_cons.mp ho with rfl | ho
    · exact hnode
    · obtain ⟨l, hl, rfl⟩ := List.mem_map.mp ho
      rcases h.placed.links hl with hfreed | hnone | hside
      · exact absurd hfreed hport
      · cases hnone
      · exact (h.side_live hside).2

theorem SafeWith.rtList (h : s.SafeWith main loops dying) :
    ∀ o ∈ (s.graph.ports p).rtLinks.map Object.link, o ∉ s.freed := by
  intro o ho
  obtain ⟨l, hl, rfl⟩ := List.mem_map.mp ho
  exact (h.rtSide_live (h.placed.memRt.mp hl)).2

theorem SafeWith.sideUses (h : s.SafeWith main loops none) :
    ∀ o ∈ s.graph.sideUses dir l, o ∉ s.freed := by
  unfold Graph.sideUses
  cases hside : (s.graph.links l).side dir with
  | none => exact fun o ho => absurd ho List.not_mem_nil
  | some p => exact h.listUses (h.placed.side hside)

theorem SafeWith.rtUses (h : s.SafeWith main loops dying) :
    ∀ o ∈ s.graph.rtUses dir l, o ∉ s.freed := by
  unfold Graph.rtUses
  cases hside : (s.graph.links l).rtSide dir with
  | none => exact fun o ho => absurd ho List.not_mem_nil
  | some p =>
    obtain ⟨-, -, hport, hnode⟩ := h.placed.ports (h.placed.rtSide hside)
    intro o ho
    rcases List.mem_cons.mp ho with rfl | ho
    · exact hport
    · rcases List.mem_cons.mp ho with rfl | ho
      · exact hnode
      · exact h.rtList o ho

theorem SafeWith.stateUses (h : s.SafeWith main loops none) (hl : .link l ∉ s.freed) :
    ∀ o ∈ s.graph.stateUses l, o ∉ s.freed := by
  intro o ho
  rcases List.mem_cons.mp ho with rfl | ho
  · exact hl
  · obtain ⟨dir, -, ho⟩ := List.mem_flatMap.mp ho
    cases hside : (s.graph.links l).side dir with
    | none =>
      rw [hside] at ho
      cases ho
    | some p =>
      rw [hside] at ho
      obtain ⟨dir', -, ho⟩ := List.mem_flatMap.mp ho
      obtain ⟨q, hq, ho⟩ := List.mem_flatMap.mp ho
      have hnode : s.graph.wiring.node q = s.graph.wiring.node p := (h.placed.ports hq).1
      have hlisted : q ∈ s.graph.wiring.ports (s.graph.wiring.node q) dir' := by
        rw [hnode]
        exact hq
      exact h.listUses hlisted o ho

/-! ## What changes no wires -/

/-- Formats, buffers and states do not matter. -/
theorem SafeWith.withGraph (h : s.SafeWith main loops dying) {g : Graph}
    (hw : g.wiring = s.graph.wiring) : SafeWith { s with graph := g } main loops dying := by
  obtain ⟨placed, ⟨heardWhole, heardNodup, heardNode, heardLink⟩, referred, queued, once, wild⟩ := h
  obtain ⟨count, whole, leaving, freed, fresh, side, rtSide⟩ := referred
  obtain ⟨add, addOnce, clear, clearDone, remove, removeDone, queuedRt, kinds, kindsMain, order,
    orderMain, cut, cutMain⟩ := queued
  rw [← hw] at placed
  simp only [GoingWith, ← hw] at heardWhole
  rw [← hw] at heardNode side rtSide
  rw [← hw] at add addOnce clear clearDone remove queuedRt order orderMain cut cutMain
  exact ⟨placed, ⟨heardWhole, heardNodup, heardNode, heardLink⟩,
    ⟨count, whole, leaving, freed, fresh, side, rtSide⟩,
    ⟨add, addOnce, clear, clearDone, remove, removeDone, queuedRt, kinds, kindsMain, order,
      orderMain, cut, cutMain⟩, once, wild⟩

/-- Only links that were not destroyed are bound. -/
theorem SafeWith.withReferences (h : s.SafeWith main loops dying) {resources : Nat → Nat}
    {refcount : Nat → Int} (hwhole : ∀ {l}, s.Whole l → refcount l = 1 + resources l)
    (hothers : ∀ {l}, ¬ s.Whole l → refcount l = s.refcount l) :
    SafeWith { s with resources := resources, refcount := refcount } main loops dying where
  placed := h.placed
  heard := ⟨h.heard.whole, h.heard.nodup, h.heard.node, h.heard.link⟩
  referred :=
    { count := h.referred.count
      whole := by
        intro l hl
        obtain ⟨hlive, -, hpending⟩ := h.referred.whole hl
        exact ⟨hlive, hwhole hl, hpending⟩
      leaving := by
        intro l hl hmade hlive
        show refcount l = _ ∧ 0 < refcount l
        rw [hothers hl]
        exact h.referred.leaving hl hmade hlive
      freed := h.referred.freed
      fresh := h.referred.fresh
      side := h.referred.side
      rtSide := h.referred.rtSide }
  queued := ⟨h.queued.add, h.queued.addOnce, h.queued.clear, h.queued.clearDone, h.queued.remove,
    h.queued.removeDone, h.queued.rtSide, h.queued.kinds, h.queued.kindsMain, h.queued.order,
    h.queued.orderMain, h.queued.cut, h.queued.cutMain⟩
  once := h.once
  wild := h.wild

theorem SafeWith.linkBind (h : s.SafeWith main loops dying) (hl : s.Whole l) :
    (s.linkBind l).SafeWith main loops dying := by
  obtain ⟨hlive, hcount, -⟩ := h.referred.whole hl
  unfold Daemon.linkBind
  dsimp only
  rw [touch_of_live fun o ho => List.mem_singleton.mp ho ▸ hlive]
  apply h.withReferences
  · intro l' hl'
    by_cases heq : l' = l
    · rw [heq, Function.update_self, Function.update_self, hcount]
      omega
    · rw [Function.update_of_ne heq, Function.update_of_ne heq]
      exact (h.referred.whole hl').2.1
  · intro l' hl'
    have hne : l' ≠ l := fun heq => hl' (heq ▸ hl)
    exact Function.update_of_ne hne ..

theorem linkUnbind_eq (hlive : .link l ∉ s.freed) (hcount : s.refcount l ≠ 1) :
    s.linkUnbind l =
      { s with
        resources := Function.update s.resources l (s.resources l - 1)
        refcount := Function.update s.refcount l (s.refcount l - 1) } := by
  unfold Daemon.linkUnbind
  dsimp only
  rw [touch_of_live fun o ho => List.mem_singleton.mp ho ▸ hlive, unref_keep]
  exact hcount

theorem SafeWith.linkUnbind (h : s.SafeWith main loops dying) (hl : s.Whole l)
    (hbound : 0 < s.resources l) : (s.linkUnbind l).SafeWith main loops dying := by
  obtain ⟨hlive, hcount, -⟩ := h.referred.whole hl
  rw [linkUnbind_eq hlive (by omega)]
  apply h.withReferences
  · intro l' hl'
    by_cases heq : l' = l
    · rw [heq, Function.update_self, Function.update_self, hcount]
      omega
    · rw [Function.update_of_ne heq, Function.update_of_ne heq]
      exact (h.referred.whole hl').2.1
  · intro l' hl'
    have hne : l' ≠ l := fun heq => hl' (heq ▸ hl)
    exact Function.update_of_ne hne ..

theorem SafeWith.linkStates (h : s.SafeWith main loops none) {g : Graph}
    (hw : g.wiring = s.graph.wiring) : (s.linkStates l g).SafeWith main loops none := by
  unfold Daemon.linkStates
  split
  · exact h
  · next hlive =>
    rw [touch_of_live (h.stateUses hlive)]
    exact h.withGraph hw

/-! ## The queues -/

theorem Heard.congr {s' : Daemon} {main' : List Invocation} (h : s.Heard main)
    (hlisteners : s'.listeners = s.listeners) (hmade : s'.nLinks = s.nLinks)
    (hside : s'.graph.wiring.side = s.graph.wiring.side)
    (hnode : s'.graph.wiring.node = s.graph.wiring.node)
    (hdir : s'.graph.wiring.direction = s.graph.wiring.direction)
    (hgoing : ∀ n, s'.GoingWith main' n → s.GoingWith main n) : s'.Heard main' where
  whole := by
    intro p l hl
    rw [hlisteners] at hl ⊢
    rw [hmade, hside, hnode, hdir]
    obtain ⟨hlt, hside, q, hother, hq, hne, hpair⟩ := h.whole hl
    exact ⟨hlt, hside, q, hother, hq, hne, fun hp hq => hpair (hgoing _ hp) (hgoing _ hq)⟩
  nodup o := by
    rw [hlisteners]
    exact h.nodup o
  node := by
    intro n l hl
    rw [hlisteners] at hl ⊢
    rw [hnode]
    exact h.node hl
  link l := by
    rw [hlisteners]
    exact h.link l

/-- Something is asked of a loop. -/
theorem Queued.invokeData {inv : Invocation} (h : s.Queued main)
    (hkinds : (∃ l p, inv = .addLink l p) ∨ (∃ l, inv = .linkRemove l) ∨
      (∃ p, inv = .clearBuffers p) ∨ ∃ n, inv = .nodeRemove n)
    (hadd : ∀ {l p}, inv = .addLink l p →
      s.graph.wiring.dataLoop (s.graph.wiring.node p) = d ∧
        p ∈ s.graph.wiring.ports (s.graph.wiring.node p) (s.graph.wiring.direction p) ∧
        .nodeRemoveDone (s.graph.wiring.node p) ∉ main ∧
        s.graph.wiring.rtSide l (s.graph.wiring.direction p) = none ∧
        (s.Whole l ∧ s.graph.wiring.side l (s.graph.wiring.direction p) = some p) ∧
        ∀ {d' p'}, .addLink l p' ∈ s.dataLoops d' →
          s.graph.wiring.direction p' ≠ s.graph.wiring.direction p)
    (hclear : ∀ {p}, inv = .clearBuffers p →
      s.graph.wiring.dataLoop (s.graph.wiring.node p) = d ∧
        p ∈ s.graph.wiring.ports (s.graph.wiring.node p) (s.graph.wiring.direction p) ∧
        .nodeRemoveDone (s.graph.wiring.node p) ∉ main)
    (hremove : ∀ {n}, inv = .nodeRemove n →
      s.graph.wiring.dataLoop n = d ∧ .node n ∉ s.freed ∧ .nodeRemoveDone n ∉ main ∧
        ∀ {l dir p}, s.graph.wiring.side l dir = some p → s.graph.wiring.node p = n →
          s.Whole l ∨ .linkRemove l ∈ s.dataLoops d ∨ .linkRemoveDone l ∈ main)
    (horder : ∀ inv' ∈ s.dataLoops d, s.graph.wiring.Before inv' inv) :
    (s.invokeData d inv).Queued main where
  add := by
    intro d' l p hmem
    rcases mem_invokeData.mp hmem with hmem | ⟨rfl, rfl⟩
    · obtain ⟨hd, hlisted, hdone, hrt, hlink⟩ := h.add hmem
      exact ⟨hd, hlisted, hdone, hrt, hlink.imp_right fun hmem => mem_invokeData.mpr (.inl hmem)⟩
    · obtain ⟨hd, hlisted, hdone, hrt, hlink, -⟩ := hadd rfl
      exact ⟨hd, hlisted, hdone, hrt, .inl hlink⟩
  addOnce := by
    intro d' d'' l p p' hmem hmem' hdir
    rcases mem_invokeData.mp hmem with hold | ⟨-, heq⟩
    · rcases mem_invokeData.mp hmem' with hold' | ⟨-, heq'⟩
      · exact h.addOnce hold hold' hdir
      · obtain ⟨-, -, -, -, -, hfresh⟩ := hadd heq'.symm
        exact absurd hdir (hfresh hold)
    · obtain ⟨-, -, -, -, -, hfresh⟩ := hadd heq.symm
      rcases mem_invokeData.mp hmem' with hold' | ⟨-, heq'⟩
      · exact absurd hdir.symm (hfresh hold')
      · rw [← heq] at heq'
        cases heq'
        rfl
  clear := by
    intro d' p hmem
    rcases mem_invokeData.mp hmem with hmem | ⟨rfl, rfl⟩
    · exact h.clear hmem
    · exact hclear rfl
  clearDone := h.clearDone
  remove := by
    intro d' n hmem
    rcases mem_invokeData.mp hmem with hmem | ⟨rfl, rfl⟩
    · exact h.remove hmem
    · obtain ⟨hd, hlive, hdone, -⟩ := hremove rfl
      exact ⟨hd, hlive, hdone⟩
  removeDone := h.removeDone
  rtSide := h.rtSide
  kinds := by
    intro d' inv' hmem
    rcases mem_invokeData.mp hmem with hmem | ⟨-, rfl⟩
    · exact h.kinds hmem
    · exact hkinds
  kindsMain := h.kindsMain
  order d' := by
    show (Function.update s.dataLoops d _ d').Pairwise s.graph.wiring.Before
    by_cases hd : d' = d
    · rw [hd, Function.update_self, List.pairwise_append]
      refine ⟨h.order d, List.pairwise_singleton .., fun inv' hmem inv'' hmem' => ?_⟩
      rw [List.mem_singleton.mp hmem']
      exact horder inv' hmem
    · rw [Function.update_of_ne hd]
      exact h.order d'
  orderMain := h.orderMain
  cut := by
    intro d' n front rest l dir p hsplit hside hnode
    change Function.update s.dataLoops d _ d' = _ at hsplit
    by_cases hd : d' = d
    · rw [hd, Function.update_self] at hsplit
      rcases split_append_singleton hsplit with ⟨rest', hold⟩ | ⟨rfl, rfl⟩
      · exact h.cut hold hside hnode
      · obtain ⟨-, -, -, hleft⟩ := hremove rfl
        exact hleft hside hnode
    · rw [Function.update_of_ne hd] at hsplit
      exact h.cut hsplit hside hnode
  cutMain := h.cutMain

theorem goingWith_invokeData {inv : Invocation} (hinv : ∀ n, inv ≠ .nodeRemove n) :
    (s.invokeData d inv).GoingWith main n ↔ s.GoingWith main n := by
  apply or_congr_left
  rw [mem_invokeData]
  exact or_iff_left fun hnew => hinv n hnew.2.symm

theorem Referred.invokeData {inv : Invocation} (h : s.Referred main loops)
    (hinv : ∀ l, inv ≠ .linkRemove l) : (s.invokeData d inv).Referred main loops where
  count := by
    intro d' l
    show (Function.update s.dataLoops d _ d').count _ = _
    by_cases hd : d' = d
    · rw [hd, Function.update_self, List.count_append, List.count_singleton,
        if_neg (by rw [beq_iff_eq]; exact hinv l), Nat.add_zero, h.count]
    · rw [Function.update_of_ne hd, h.count]
  whole := h.whole
  leaving := h.leaving
  freed := h.freed
  fresh := h.fresh
  side hside := (h.side hside).imp_right fun hlink =>
    hlink.imp_left fun hmem => mem_invokeData.mpr (.inl hmem)
  rtSide := h.rtSide

/-- A loop is asked for what removes nothing. -/
theorem SafeWith.invokeData {inv : Invocation} (h : s.SafeWith main loops dying)
    (hlink : ∀ l, inv ≠ .linkRemove l) (hnode : ∀ n, inv ≠ .nodeRemove n)
    (hqueued : (s.invokeData d inv).Queued main) :
    (s.invokeData d inv).SafeWith main loops dying where
  placed := h.placed
  heard := h.heard.congr rfl rfl rfl rfl rfl fun _ => (goingWith_invokeData hnode).mp
  referred := h.referred.invokeData hlink
  queued := hqueued
  once := h.once
  wild := h.wild

/-- A loop has done what it was asked for. -/
theorem Queued.popData {inv : Invocation} {rest : List Invocation} (h : s.Queued main)
    (hqueue : s.dataLoops d = inv :: rest)
    (hdone : ∀ l, inv = .linkRemove l → .linkRemoveDone l ∈ main) :
    Queued { s with dataLoops := Function.update s.dataLoops d rest } main := by
  have horder := h.order d
  rw [hqueue, List.pairwise_cons] at horder
  exact
    { add := by
        intro d' l p hmem
        obtain ⟨hd, hlisted, hgone, hrt, hlink⟩ := h.add (mem_of_mem_update hqueue hmem)
        refine ⟨hd, hlisted, hgone, hrt, hlink.imp_right fun hremove => ?_⟩
        change .linkRemove l ∈ Function.update s.dataLoops d rest d'
        change .addLink l p ∈ Function.update s.dataLoops d rest d' at hmem
        by_cases hd' : d' = d
        · apply mem_update_of_mem hqueue hremove
          intro heq
          rw [hd', Function.update_self] at hmem
          have hbefore := horder.1 _ hmem
          rw [← heq] at hbefore
          exact hbefore rfl
        · rwa [Function.update_of_ne hd']
      addOnce := fun hmem hmem' => h.addOnce (mem_of_mem_update hqueue hmem)
        (mem_of_mem_update hqueue hmem')
      clear := fun hmem => h.clear (mem_of_mem_update hqueue hmem)
      clearDone := h.clearDone
      remove := fun hmem => h.remove (mem_of_mem_update hqueue hmem)
      removeDone := h.removeDone
      rtSide := h.rtSide
      kinds := fun hmem => h.kinds (mem_of_mem_update hqueue hmem)
      kindsMain := h.kindsMain
      order := by
        intro d'
        show (Function.update s.dataLoops d rest d').Pairwise s.graph.wiring.Before
        by_cases hd : d' = d
        · rw [hd, Function.update_self]
          exact horder.2
        · rw [Function.update_of_ne hd]
          exact h.order d'
      orderMain := h.orderMain
      cut := by
        intro d' n front rest' l dir p hsplit hside hnode
        change Function.update s.dataLoops d rest d' = _ at hsplit
        by_cases hd : d' = d
        · rw [hd, Function.update_self] at hsplit
          have hold : s.dataLoops d = (inv :: front) ++ .nodeRemove n :: rest' := by
            rw [hqueue, hsplit, List.cons_append]
          rcases h.cut hold hside hnode with hwhole | hmem | hmem
          · exact .inl hwhole
          · rcases List.mem_cons.mp hmem with heq | hmem
            · exact .inr (.inr (hdone l heq.symm))
            · exact .inr (.inl hmem)
          · exact .inr (.inr hmem)
        · rw [Function.update_of_ne hd] at hsplit
          exact h.cut hsplit hside hnode
      cutMain := h.cutMain }

/-- Something is asked of the main loop, for links or buffers. -/
theorem Queued.pushMain {inv : Invocation} (h : s.Queued main)
    (hkinds : (∃ l, inv = .linkRemoveDone l) ∨ ∃ p, inv = .clearBuffersDone p ∧
      p ∈ s.graph.wiring.ports (s.graph.wiring.node p) (s.graph.wiring.direction p) ∧
      .nodeRemoveDone (s.graph.wiring.node p) ∉ main) :
    s.Queued (main ++ [inv]) := by
  have hnot : ∀ {n}, .nodeRemoveDone n ∈ main ++ [inv] → .nodeRemoveDone n ∈ main := by
    intro n hmem
    rcases List.mem_append.mp hmem with hmem | hmem
    · exact hmem
    · rcases hkinds with ⟨l, rfl⟩ | ⟨p, rfl, -⟩
      · cases List.mem_singleton.mp hmem
      · cases List.mem_singleton.mp hmem
  exact
    { add := by
        intro d l p hmem
        obtain ⟨hd, hlisted, hgone, hlink⟩ := h.add hmem
        exact ⟨hd, hlisted, fun hmem => hgone (hnot hmem), hlink⟩
      addOnce := h.addOnce
      clear := by
        intro d p hmem
        obtain ⟨hd, hlisted, hgone⟩ := h.clear hmem
        exact ⟨hd, hlisted, fun hmem => hgone (hnot hmem)⟩
      clearDone := by
        intro p hmem
        rcases List.mem_append.mp hmem with hmem | hmem
        · exact h.clearDone hmem
        · rcases hkinds with ⟨l, rfl⟩ | ⟨q, rfl, hlisted, -⟩
          · cases List.mem_singleton.mp hmem
          · cases List.mem_singleton.mp hmem
            exact hlisted
      remove := by
        intro d n hmem
        obtain ⟨hd, hlive, hgone⟩ := h.remove hmem
        exact ⟨hd, hlive, fun hmem => hgone (hnot hmem)⟩
      removeDone := fun hmem => h.removeDone (hnot hmem)
      rtSide := fun hside hmem => h.rtSide hside (hnot hmem)
      kinds := h.kinds
      kindsMain := by
        intro inv' hmem
        rcases List.mem_append.mp hmem with hmem | hmem
        · exact h.kindsMain hmem
        · rw [List.mem_singleton.mp hmem]
          rcases hkinds with ⟨l, rfl⟩ | ⟨p, rfl, -⟩
          · exact .inl ⟨l, rfl⟩
          · exact .inr (.inl ⟨p, rfl⟩)
      order := h.order
      orderMain := by
        rw [List.pairwise_append]
        refine ⟨h.orderMain, List.pairwise_singleton .., fun inv' hmem inv'' hmem' => ?_⟩
        rw [List.mem_singleton.mp hmem']
        rcases hkinds with ⟨l, rfl⟩ | ⟨p, rfl, -, hgone⟩
        · cases inv' <;> trivial
        · cases inv' with
          | nodeRemoveDone n => exact fun heq => hgone (heq ▸ hmem)
          | _ => trivial
      cut := by
        intro d n front rest l dir p hsplit hside hnode
        rcases h.cut hsplit hside hnode with hwhole | hmem | hmem
        · exact .inl hwhole
        · exact .inr (.inl hmem)
        · exact .inr (.inr (List.mem_append_left _ hmem))
      cutMain := by
        intro n front rest l dir p hsplit hside hnode
        rcases split_append_singleton hsplit with ⟨rest', hold⟩ | ⟨heq, -⟩
        · exact h.cutMain hold hside hnode
        · rcases hkinds with ⟨l, rfl⟩ | ⟨p, rfl, -⟩
          · cases heq
          · cases heq }

/-- The main loop is done with a link or with buffers. -/
theorem Queued.popMain {inv : Invocation} (h : s.Queued (inv :: main))
        (hlink : ∀ l, inv = .linkRemoveDone l → ∀ dir, s.graph.wiring.side l dir = none) :
    s.Queued main := by
  have hcons : ∀ {n}, .nodeRemoveDone n ∈ main → .nodeRemoveDone n ∈ inv :: main :=
    fun hmem => List.mem_cons_of_mem inv hmem
  have hstill : ∀ {l dir p} {queue : List Invocation}, s.graph.wiring.side l dir = some p →
      .linkRemoveDone l ∈ inv :: queue → .linkRemoveDone l ∈ queue := by
    intro l dir p queue hside hmem
    rcases List.mem_cons.mp hmem with heq | hmem
    · rw [hlink l heq.symm dir] at hside
      cases hside
    · exact hmem
  exact
    { add := by
        intro d l p hmem
        obtain ⟨hd, hlisted, hgone, hlink⟩ := h.add hmem
        exact ⟨hd, hlisted, fun hmem => hgone (hcons hmem), hlink⟩
      addOnce := h.addOnce
      clear := by
        intro d p hmem
        obtain ⟨hd, hlisted, hgone⟩ := h.clear hmem
        exact ⟨hd, hlisted, fun hmem => hgone (hcons hmem)⟩
      clearDone := fun hmem => h.clearDone (List.mem_cons_of_mem inv hmem)
      remove := by
        intro d n hmem
        obtain ⟨hd, hlive, hgone⟩ := h.remove hmem
        exact ⟨hd, hlive, fun hmem => hgone (hcons hmem)⟩
      removeDone := fun hmem => h.removeDone (hcons hmem)
      rtSide := fun hside hmem => h.rtSide hside (hcons hmem)
      kinds := h.kinds
      kindsMain := fun hmem => h.kindsMain (List.mem_cons_of_mem inv hmem)
      order := h.order
      orderMain := (List.pairwise_cons.mp h.orderMain).2
      cut := by
        intro d n front rest l dir p hsplit hside hnode
        rcases h.cut hsplit hside hnode with hwhole | hmem | hmem
        · exact .inl hwhole
        · exact .inr (.inl hmem)
        · exact .inr (.inr (hstill hside hmem))
      cutMain := by
        intro n front rest l dir p hsplit hside hnode
        have hold : inv :: main = (inv :: front) ++ .nodeRemoveDone n :: rest := by
          rw [hsplit, List.cons_append]
        rcases h.cutMain hold hside hnode with hwhole | hmem
        · exact .inl hwhole
        · exact .inr (hstill hside hmem) }

/-! ## Links that are destroyed -/

/-- What `pinos_link_destroy` leaves to the loops that the ports of a link run in. -/
def parted (s : Daemon) (l : Nat) (g : Graph) (ds : List Nat) : Daemon :=
  { s with
    graph := g
    resources := Function.update s.resources l 0
    refcount := Function.update s.refcount l ds.length
    listeners := fun o => (s.listeners o).erase l
    dataLoops := fun d => s.dataLoops d ++ List.replicate (ds.count d) (.linkRemove l) }

section Parted

variable {g : Graph} {ds : List Nat}

theorem mem_parted {inv : Invocation} (hmem : inv ∈ (s.parted l g ds).dataLoops d) :
    inv ∈ s.dataLoops d ∨ inv = .linkRemove l := by
  rcases List.mem_append.mp hmem with hmem | hmem
  · exact .inl hmem
  · exact .inr (List.eq_of_mem_replicate hmem)

theorem linkRemove_mem_parted (hd : d ∈ ds) : .linkRemove l ∈ (s.parted l g ds).dataLoops d :=
  List.mem_append_right _ (List.mem_replicate.mpr ⟨(List.count_pos_iff.mpr hd).ne', rfl⟩)

theorem goingWith_parted (hw : g.wiring.dataLoop = s.graph.wiring.dataLoop) :
    (s.parted l g ds).GoingWith main n ↔ s.GoingWith main n := by
  show .nodeRemove n ∈ (s.parted l g ds).dataLoops (g.wiring.dataLoop n) ∨ _ ↔ _
  rw [hw]
  refine or_congr_left ⟨fun hmem => ?_, List.mem_append_left _⟩
  rcases mem_parted hmem with hmem | heq
  · exact hmem
  · cases heq

theorem whole_parted {l' : Nat} (hnodup : ∀ o, (s.listeners o).Nodup) :
    (s.parted l g ds).Whole l' ↔ l' ≠ l ∧ s.Whole l' := by
  constructor
  · rintro ⟨p, hp⟩
    obtain ⟨hne, hmem⟩ := (hnodup _).mem_erase_iff.mp hp
    exact ⟨hne, p, hmem⟩
  · rintro ⟨hne, p, hp⟩
    exact ⟨p, (List.mem_erase_of_ne hne).mpr hp⟩

/-- Which sides a link that is destroyed keeps, and where these wait to be removed. -/
structure Parting (s : Daemon) (main : List Invocation) (dying : Option Nat) (l : Nat) (g : Graph)
    (ds : List Nat) : Prop where
  whole : s.Whole l
  others : ∀ {l' dir}, l' ≠ l → g.wiring.side l' dir = s.graph.wiring.side l' dir
  rest : { g.wiring with side := s.graph.wiring.side } = s.graph.wiring
  kept : ∀ {dir p}, g.wiring.side l dir = some p → s.graph.wiring.side l dir = some p ∧
    ¬ s.GoingWith main (s.graph.wiring.node p) ∧
      s.graph.wiring.dataLoop (s.graph.wiring.node p) ∈ ds
  dropped : ∀ {dir p}, s.graph.wiring.side l dir = some p → g.wiring.side l dir = none →
    dying = some (s.graph.wiring.node p) ∧ .nodeRemoveDone (s.graph.wiring.node p) ∈ main
  asked : ds ≠ []

theorem Parting.side (hpart : s.Parting main dying l g ds) {l' : Nat}
    (hside : g.wiring.side l' dir = some p) : s.graph.wiring.side l' dir = some p := by
  by_cases hl : l' = l
  · rw [hl] at hside ⊢
    exact (hpart.kept hside).1
  · rwa [hpart.others hl] at hside

theorem Parting.wiring (hpart : s.Parting main dying l g ds) :
    g.wiring = { s.graph.wiring with side := g.wiring.side } := by
  rw [← hpart.rest]

theorem SafeWith.placed_part (h : s.SafeWith main loops dying)
    (hpart : s.Parting main dying l g ds) : g.wiring.Placed s.freed dying := by
  rw [hpart.wiring]
  exact
    { nodup := h.placed.nodup
      ports := h.placed.ports
      side := fun hside => h.placed.side (hpart.side hside)
      rtSide := h.placed.rtSide
      linksNodup := h.placed.linksNodup
      listed := h.placed.listed
      links := by
        intro p l' hl'
        rcases h.placed.links hl' with hfreed | hdying | hside
        · exact .inl hfreed
        · exact .inr (.inl hdying)
        · by_cases heq : l' = l
          · cases hside' : g.wiring.side l' (s.graph.wiring.direction p) with
            | some q =>
              have hold := hpart.side hside'
              rw [hside] at hold
              cases hold
              exact .inr (.inr rfl)
            | none =>
              rw [heq] at hside hside'
              exact .inr (.inl (hpart.dropped hside hside').1)
          · exact .inr (.inr ((hpart.others heq).trans hside))
      rtNodup := h.placed.rtNodup
      memRt := h.placed.memRt }

theorem SafeWith.heard_part (h : s.SafeWith main loops dying)
    (hpart : s.Parting main dying l g ds) : (s.parted l g ds).Heard main where
  whole := by
    intro p l' hl'
    obtain ⟨hne, hmem⟩ := (h.heard.nodup _).mem_erase_iff.mp hl'
    obtain ⟨hmade, hside, q, hother, hq, hnode, hgoing⟩ := h.heard.whole hmem
    have hdir : g.wiring.direction = s.graph.wiring.direction := by rw [hpart.wiring]
    have hnodes : g.wiring.node = s.graph.wiring.node := by rw [hpart.wiring]
    have hloop : g.wiring.dataLoop = s.graph.wiring.dataLoop := by rw [hpart.wiring]
    have hparted : ∀ {n}, (s.parted l g ds).GoingWith main n → s.GoingWith main n :=
      (goingWith_parted hloop).mp
    show l' < s.nLinks ∧ g.wiring.side l' (g.wiring.direction p) = some p ∧
      ∃ q, g.wiring.side l' (g.wiring.direction p).other = some q ∧
        l' ∈ (s.listeners (.port q)).erase l ∧ g.wiring.node q ≠ g.wiring.node p ∧
        ((s.parted l g ds).GoingWith main (g.wiring.node p) →
          ¬ (s.parted l g ds).GoingWith main (g.wiring.node q))
    rw [hpart.others hne, hpart.others hne, hdir, hnodes]
    exact ⟨hmade, hside, q, hother, (List.mem_erase_of_ne hne).mpr hq, hnode,
      fun hp hq => hgoing (hparted hp) (hparted hq)⟩
  nodup o := (h.heard.nodup o).erase l
  node := by
    intro n l' hl'
    obtain ⟨hne, hmem⟩ := (h.heard.nodup _).mem_erase_iff.mp hl'
    obtain ⟨p, hnode, hp⟩ := h.heard.node hmem
    refine ⟨p, ?_, (List.mem_erase_of_ne hne).mpr hp⟩
    show g.wiring.node p = n
    rw [hpart.wiring]
    exact hnode
  link l' := by
    show (s.listeners (.link l')).erase l = []
    rw [h.heard.link]
    rfl

theorem SafeWith.referred_part (h : s.SafeWith main loops dying)
    (hpart : s.Parting main dying l g ds) :
    (s.parted l g ds).Referred main (Function.update loops l ds) := by
  have hwhole : ∀ {l'}, (s.parted l g ds).Whole l' ↔ l' ≠ l ∧ s.Whole l' :=
    whole_parted h.heard.nodup
  obtain ⟨hlive, -, hnone, hnotDone⟩ := h.referred.whole hpart.whole
  constructor
  · intro d l'
    show (s.dataLoops d ++ List.replicate (ds.count d) (Invocation.linkRemove l)).count
      (Invocation.linkRemove l') = _
    rw [List.count_append, h.referred.count]
    by_cases hl : l' = l
    · rw [hl, hnone, Function.update_self, List.count_replicate_self, List.count_nil, Nat.zero_add]
    · have hnot : Invocation.linkRemove l' ∉
          List.replicate (ds.count d) (Invocation.linkRemove l) :=
        fun hmem => hl (Invocation.linkRemove.inj (List.eq_of_mem_replicate hmem))
      rw [Function.update_of_ne hl, List.count_eq_zero.mpr hnot, Nat.add_zero]
  · intro l' hl'
    obtain ⟨hne, hold⟩ := hwhole.mp hl'
    show _ ∧ Function.update s.refcount l _ l' =
        1 + ((Function.update s.resources l 0 l' : Nat) : Int) ∧
      Function.update loops l ds l' = [] ∧ _
    rw [Function.update_of_ne hne, Function.update_of_ne hne, Function.update_of_ne hne]
    exact h.referred.whole hold
  · intro l' hl' hmade hlive'
    show Function.update s.refcount l _ l' = _ ∧ 0 < Function.update s.refcount l _ l'
    by_cases hl : l' = l
    · rw [hl, Function.update_self, Function.update_self, List.count_eq_zero.mpr hnotDone]
      have hpos := List.length_pos_iff.mpr hpart.asked
      omega
    · rw [Function.update_of_ne hl, Function.update_of_ne hl]
      exact h.referred.leaving (fun hold => hl' (hwhole.mpr ⟨hl, hold⟩)) hmade hlive'
  · intro l' hfreed
    have hne : l' ≠ l := fun heq => hlive (heq ▸ hfreed)
    rw [Function.update_of_ne hne]
    exact h.referred.freed hfreed
  · intro l' hle
    have hlt := h.heard.lt hpart.whole
    have hne : l' ≠ l := fun heq => absurd hlt (Nat.not_lt.mpr (heq ▸ hle))
    rw [Function.update_of_ne hne]
    exact h.referred.fresh hle
  · intro l' dir p hside
    change g.wiring.side l' dir = some p at hside
    have hloop : (s.parted l g ds).graph.wiring.dataLoop
        ((s.parted l g ds).graph.wiring.node p) =
          s.graph.wiring.dataLoop (s.graph.wiring.node p) := by
      show g.wiring.dataLoop (g.wiring.node p) = _
      rw [hpart.wiring]
    rw [hloop]
    by_cases hl : l' = l
    · rw [hl] at hside ⊢
      exact .inr (.inl (linkRemove_mem_parted (hpart.kept hside).2.2))
    · rcases h.referred.side (hpart.side hside) with hold | hmem | hmem
      · exact .inl (hwhole.mpr ⟨hl, hold⟩)
      · exact .inr (.inl (List.mem_append_left _ hmem))
      · exact .inr (.inr hmem)
  · intro l' dir p hside
    have hold : s.graph.wiring.rtSide l' dir = some p := by
      change g.wiring.rtSide l' dir = some p at hside
      rw [hpart.wiring] at hside
      exact hside
    by_cases hl : l' = l
    · rw [hl, Function.update_self]
      exact .inr hpart.asked
    · rw [Function.update_of_ne hl]
      exact (h.referred.rtSide hold).imp_left fun hold => hwhole.mpr ⟨hl, hold⟩

theorem SafeWith.queued_part (h : s.SafeWith main loops dying)
    (hpart : s.Parting main dying l g ds) : (s.parted l g ds).Queued main := by
  have hwhole : ∀ {l'}, (s.parted l g ds).Whole l' ↔ l' ≠ l ∧ s.Whole l' :=
    whole_parted h.heard.nodup
  have hrest : (s.parted l g ds).graph.wiring = { s.graph.wiring with side := g.wiring.side } :=
    hpart.wiring
  have hgoing : ∀ {n}, .nodeRemove n ∈ s.dataLoops (s.graph.wiring.dataLoop n) ∨
      .nodeRemoveDone n ∈ main → ∀ {dir p}, g.wiring.side l dir = some p →
        s.graph.wiring.node p ≠ n := by
    intro n hn dir p hside heq
    exact (hpart.kept hside).2.1 (heq ▸ hn)
  constructor
  · intro d l' p hmem
    rcases mem_parted hmem with hmem | heq
    · obtain ⟨hd, hlisted, hgone, hrt, hlink⟩ := h.queued.add hmem
      rw [hrest]
      refine ⟨hd, hlisted, hgone, hrt, ?_⟩
      show _ ∧ g.wiring.side l' (s.graph.wiring.direction p) = some p ∨ _
      rcases hlink with ⟨hold, hside⟩ | hremove
      · by_cases hl : l' = l
        · right
          rw [hl] at hside ⊢
          cases hside' : g.wiring.side l (s.graph.wiring.direction p) with
          | none => exact absurd (hpart.dropped hside hside').2 hgone
          | some q =>
            obtain ⟨hq, -, hmemLoop⟩ := hpart.kept hside'
            rw [hside] at hq
            cases hq
            exact linkRemove_mem_parted (hd ▸ hmemLoop)
        · exact .inl ⟨hwhole.mpr ⟨hl, hold⟩, (hpart.others hl).trans hside⟩
      · exact .inr (List.mem_append_left _ hremove)
    · cases heq
  · intro d d' l' p p' hmem hmem' hdir
    rw [hrest] at hdir
    rcases mem_parted hmem with hmem | heq
    · rcases mem_parted hmem' with hmem' | heq
      · exact h.queued.addOnce hmem hmem' hdir
      · cases heq
    · cases heq
  · intro d p hmem
    rw [hrest]
    rcases mem_parted hmem with hmem | heq
    · exact h.queued.clear hmem
    · cases heq
  · intro p hmem
    rw [hrest]
    exact h.queued.clearDone hmem
  · intro d n hmem
    rw [hrest]
    rcases mem_parted hmem with hmem | heq
    · exact h.queued.remove hmem
    · cases heq
  · exact h.queued.removeDone
  · intro l' dir p hside
    rw [hrest] at hside ⊢
    exact h.queued.rtSide hside
  · intro d inv hmem
    rcases mem_parted hmem with hmem | rfl
    · exact h.queued.kinds hmem
    · exact .inr (.inl ⟨l, rfl⟩)
  · exact h.queued.kindsMain
  · intro d
    show (s.dataLoops d ++ List.replicate (ds.count d) (Invocation.linkRemove l)).Pairwise _
    rw [hrest, List.pairwise_append]
    refine ⟨h.queued.order d, List.pairwise_replicate.mpr (.inr trivial), ?_⟩
    intro inv _ inv' hmem'
    rw [List.eq_of_mem_replicate hmem']
    cases inv <;> trivial
  · rw [hrest]
    exact h.queued.orderMain
  · intro d n front rest l' dir p hsplit hside hnode
    rw [hrest] at hside hnode
    obtain ⟨rest', hold⟩ := split_append_replicate Invocation.noConfusion hsplit
    have hmem : .nodeRemove n ∈ s.dataLoops d := by
      rw [hold]
      exact List.mem_append_right _ List.mem_cons_self
    have hne : l' ≠ l := by
      intro heq
      rw [heq] at hside
      exact hgoing (.inl ((h.queued.remove hmem).1 ▸ hmem)) hside hnode
    rcases h.queued.cut hold (hpart.side hside) hnode with hw | hmem
    · exact .inl (hwhole.mpr ⟨hne, hw⟩)
    · exact .inr hmem
  · intro n front rest l' dir p hsplit hside hnode
    rw [hrest] at hside hnode
    have hmem : .nodeRemoveDone n ∈ main := by
      rw [hsplit]
      exact List.mem_append_right _ List.mem_cons_self
    have hne : l' ≠ l := by
      intro heq
      rw [heq] at hside
      exact hgoing (.inr hmem) hside hnode
    rcases h.queued.cutMain hsplit (hpart.side hside) hnode with hw | hmem
    · exact .inl (hwhole.mpr ⟨hne, hw⟩)
    · exact .inr hmem

/-- A link is destroyed, whole or without the port that has gone already. -/
theorem SafeWith.part (h : s.SafeWith main loops dying) (hpart : s.Parting main dying l g ds) :
    (s.parted l g ds).SafeWith main (Function.update loops l ds) dying :=
  ⟨h.placed_part hpart, h.heard_part hpart, h.referred_part hpart, h.queued_part hpart, h.once,
    h.wild⟩

end Parted

/-- The resources go, and their references. -/
theorem unbindAll_eq (hlive : .link l ∉ s.freed) {k : Nat} (hbound : s.resources l = k)
    (hcount : s.refcount l = 1 + k) :
    s.unbindAll l k =
      { s with
        resources := Function.update s.resources l 0
        refcount := Function.update s.refcount l 1 } := by
  induction k generalizing s with
  | zero =>
    have hresources : Function.update s.resources l 0 = s.resources := by
      rw [← hbound, Function.update_eq_self]
    have hrefcount : Function.update s.refcount l 1 = s.refcount := by
      rw [show (1 : Int) = s.refcount l by rw [hcount]; rfl, Function.update_eq_self]
    rw [hresources, hrefcount]
    rfl
  | succ k ih =>
    have hnext := @ih { s with
      resources := Function.update s.resources l (s.resources l - 1)
      refcount := Function.update s.refcount l (s.refcount l - 1) } hlive (by
        show Function.update s.resources l _ l = k
        rw [Function.update_self]
        omega) (by
        show Function.update s.refcount l _ l = _
        rw [Function.update_self]
        omega)
    rw [unbindAll, linkUnbind_eq hlive (by omega), hnext]
    dsimp only
    rw [Function.update_idem, Function.update_idem]

/-- `pinos_link_destroy` on its way: some loops have been asked, and the link listens less. -/
def asked (s : Daemon) (l : Nat) (ds : List Nat) (listeners : Object → List Nat) : Daemon :=
  { s with
    resources := Function.update s.resources l 0
    refcount := Function.update s.refcount l (ds.length + 1)
    listeners := listeners
    dataLoops := fun d => s.dataLoops d ++ List.replicate (ds.count d) (.linkRemove l) }

/-- The listeners without a link on one of its sides. -/
def quiet (s : Daemon) (dir : PinosDirection) (l : Nat) (listeners : Object → List Nat)
    (o : Object) : List Nat :=
  match s.graph.wiring.side l dir with
  | none => listeners o
  | some p =>
    if o = .port p ∨ o = .node (s.graph.wiring.node p) then (listeners o).erase l else listeners o

section Asked

variable {ds : List Nat} {listeners : Object → List Nat}

theorem mem_quiet {l' : Nat} {o : Object} (hmem : l' ∈ s.quiet dir l listeners o) :
    l' ∈ listeners o := by
  unfold quiet at hmem
  split at hmem
  · exact hmem
  · split at hmem
    · exact List.mem_of_mem_erase hmem
    · exact hmem

theorem quiet_of_notMem {o : Object} (hnot : l ∉ listeners o) :
    s.quiet dir l listeners o = listeners o := by
  unfold quiet
  split
  · rfl
  · split
    · exact List.erase_of_not_mem hnot
    · rfl

theorem quiet_self {o : Object} (hside : s.graph.wiring.side l dir = some p)
    (ho : o = .port p ∨ o = .node (s.graph.wiring.node p)) :
    s.quiet dir l listeners o = (listeners o).erase l := by
  rw [quiet, hside]
  exact if_pos ho

theorem nodup_quiet {o : Object} (hnodup : (listeners o).Nodup) :
    (s.quiet dir l listeners o).Nodup := by
  unfold quiet
  split
  · exact hnodup
  · split
    · exact hnodup.erase l
    · exact hnodup

theorem erase_quiet {o : Object} (hnodup : (listeners o).Nodup) :
    (s.quiet dir l listeners o).erase l = (listeners o).erase l := by
  unfold quiet
  split
  · rfl
  · split
    · exact List.erase_of_not_mem hnodup.not_mem_erase
    · rfl

theorem requestRemove_asked
    (hlive : ∀ p, s.graph.wiring.side l dir = some p →
      .port p ∉ s.freed ∧ .node (s.graph.wiring.node p) ∉ s.freed)
    (hclean : ∀ o, ∀ l' ∈ listeners o, .link l' ∉ s.freed) :
    (s.asked l ds listeners).requestRemove dir l =
      s.asked l (ds ++ s.sideLoops dir l) (s.quiet dir l listeners) := by
  unfold Daemon.requestRemove sideLoops
  cases hside : s.graph.wiring.side l dir with
  | none =>
    have hquiet : s.quiet dir l listeners = listeners := by
      funext o
      rw [quiet, hside]
    rw [show ((s.asked l ds listeners).graph.links l).side dir = none from hside, hquiet]
    exact congrArg (s.asked l · listeners) (List.append_nil ds).symm
  | some p =>
    obtain ⟨hport, hnode⟩ := hlive p hside
    have htouch : (s.asked l ds listeners).touch (.port p :: .node (s.graph.ports p).node ::
        (listeners (.port p) ++ listeners (.node (s.graph.ports p).node)).map .link) =
          s.asked l ds listeners := by
      apply touch_of_live
      intro o ho
      rcases List.mem_cons.mp ho with rfl | ho
      · exact hport
      · rcases List.mem_cons.mp ho with rfl | ho
        · exact hnode
        · obtain ⟨l', hl', rfl⟩ := List.mem_map.mp ho
          rcases List.mem_append.mp hl' with hl' | hl'
          · exact hclean _ l' hl'
          · exact hclean _ l' hl'
    rw [show ((s.asked l ds listeners).graph.links l).side dir = some p from hside]
    dsimp only
    unfold stopListening
    dsimp only
    rw [show (s.asked l ds listeners).graph = s.graph from rfl,
      show (s.asked l ds listeners).listeners = listeners from rfl, htouch]
    unfold Daemon.invokeData asked
    dsimp only
    congr 1
    · rw [Function.update_self, Function.update_idem, List.length_append]
      rfl
    · funext o
      rw [quiet, hside]
      rfl
    · funext d
      show Function.update _ (s.graph.loopOf p) _ d =
        s.dataLoops d ++ List.replicate ((ds ++ [s.graph.loopOf p]).count d) _
      by_cases hd : d = s.graph.loopOf p
      · rw [hd, Function.update_self, List.count_append, List.count_singleton_self,
          List.replicate_succ', List.append_assoc]
      · have hne : ¬ (s.graph.loopOf p == d) := by
          rw [beq_iff_eq]
          exact fun heq => hd heq.symm
        rw [Function.update_of_ne hd, List.count_append, List.count_singleton, if_neg hne,
          Nat.add_zero]

theorem unref_asked (hne : ds ≠ []) :
    (s.asked l ds listeners).unref l =
      { s.parted l s.graph ds with listeners := listeners } := by
  have hpos := List.length_pos_iff.mpr hne
  have hcount : (s.asked l ds listeners).refcount l = ds.length + 1 := Function.update_self ..
  rw [unref_keep (by omega), hcount]
  unfold asked parted
  dsimp only
  rw [Function.update_idem, Int.add_sub_cancel]

/-- What `pinos_link_destroy` does to a link with a port that it listens to. -/
theorem linkDestroy_eq (hlive : .link l ∉ s.freed) (hcount : s.refcount l = 1 + s.resources l)
    (hports : ∀ dir p, s.graph.wiring.side l dir = some p →
      .port p ∉ s.freed ∧ .node (s.graph.wiring.node p) ∉ s.freed)
    (hclean : ∀ o, ∀ l' ∈ s.listeners o, .link l' ∉ s.freed)
    (hnodup : ∀ o, (s.listeners o).Nodup)
    (hlistens : ∀ o, l ∈ s.listeners o → ∃ dir p, s.graph.wiring.side l dir = some p ∧
      (o = .port p ∨ o = .node (s.graph.wiring.node p)))
    (hsome : s.sideLoops .input l ++ s.sideLoops .output l ≠ []) :
    s.linkDestroy l = s.parted l s.graph (s.sideLoops .input l ++ s.sideLoops .output l) := by
  have hstart : ({ s with
      resources := Function.update s.resources l 0
      refcount := Function.update s.refcount l 1 } : Daemon) = s.asked l [] s.listeners := by
    unfold asked
    congr 1
    funext d
    exact (List.append_nil _).symm
  have hquiet : s.quiet .output l (s.quiet .input l s.listeners) =
      fun o => (s.listeners o).erase l := by
    funext o
    by_cases hl : l ∈ s.listeners o
    · obtain ⟨dir, p, hside, ho⟩ := hlistens o hl
      cases dir with
      | input =>
        have hfirst : s.quiet .input l s.listeners o = (s.listeners o).erase l :=
          quiet_self hside ho
        rw [quiet_of_notMem, hfirst]
        rw [hfirst]
        exact (hnodup o).not_mem_erase
      | output => rw [quiet_self hside ho, erase_quiet (hnodup o)]
    · have hfirst : s.quiet .input l s.listeners o = s.listeners o := quiet_of_notMem hl
      rw [quiet_of_notMem, hfirst, List.erase_of_not_mem hl]
      rw [hfirst]
      exact hl
  unfold Daemon.linkDestroy
  dsimp only
  rw [touch_of_live fun o ho => List.mem_singleton.mp ho ▸ hlive, unbindAll_eq hlive rfl hcount,
    hstart, requestRemove_asked (hports .input) hclean, List.nil_append, requestRemove_asked
      (hports .output) fun o l' hl' => hclean o l' (mem_quiet hl'), unref_asked hsome, hquiet]
  rfl

end Asked

/-- A link listens to its ports and their nodes. -/
theorem Heard.sides (h : s.Heard main) {o : Object} (hl : l ∈ s.listeners o) :
    ∃ dir p, s.graph.wiring.side l dir = some p ∧
      (o = .port p ∨ o = .node (s.graph.wiring.node p)) := by
  cases o with
  | node n =>
    obtain ⟨p, hnode, hp⟩ := h.node hl
    exact ⟨_, p, (h.whole hp).2.1, .inr (congrArg Object.node hnode.symm)⟩
  | port p => exact ⟨_, p, (h.whole hl).2.1, .inl rfl⟩
  | link l' =>
    rw [h.link] at hl
    cases hl

theorem SafeWith.listener_live (h : s.SafeWith main loops dying) (o : Object) :
    ∀ l ∈ s.listeners o, .link l ∉ s.freed :=
  fun _ hl => (h.referred.whole (h.heard.whole_of_mem hl)).1

theorem mem_sideLoops (hside : s.graph.wiring.side l dir = some p) :
    s.graph.wiring.dataLoop (s.graph.wiring.node p) ∈ s.sideLoops dir l := by
  rw [sideLoops, hside]
  exact List.mem_singleton_self _

/-- `pinos_link_destroy`, at nodes that are not going. -/
theorem SafeWith.linkDestroy (h : s.SafeWith main loops dying) (hl : s.Whole l)
    (hgoing : ∀ dir p, s.graph.wiring.side l dir = some p →
      ¬ s.GoingWith main (s.graph.wiring.node p)) :
    ∃ loops', (s.linkDestroy l).SafeWith main loops' dying := by
  obtain ⟨hlive, hcount, -⟩ := h.referred.whole hl
  have hmem : ∀ {dir p}, s.graph.wiring.side l dir = some p →
      s.graph.wiring.dataLoop (s.graph.wiring.node p) ∈
        s.sideLoops .input l ++ s.sideLoops .output l := by
    intro dir p hside
    cases dir with
    | input => exact List.mem_append_left _ (mem_sideLoops hside)
    | output => exact List.mem_append_right _ (mem_sideLoops hside)
  have hsome : s.sideLoops .input l ++ s.sideLoops .output l ≠ [] := by
    obtain ⟨p, hp⟩ := hl
    exact List.ne_nil_of_mem (hmem (h.heard.whole hp).2.1)
  rw [linkDestroy_eq hlive hcount (fun _ _ hside => h.port_live hside) h.listener_live
    h.heard.nodup (fun _ => h.heard.sides) hsome]
  refine ⟨_, h.part ⟨hl, fun _ => rfl, rfl, ?_, ?_, hsome⟩⟩
  · intro dir p hside
    exact ⟨hside, hgoing dir p hside, hmem hside⟩
  · intro dir p hside hnone
    rw [hside] at hnone
    cases hnone

end Daemon
end Pinos
