import Pinos.Server.BindingEnds

/-
Clients, nodes, links and modules that come, and resources that are made for them.
-/

namespace Pinos
namespace Bindings

variable {s : Bindings} {b : Bound} {c r n : Nat} {id : UInt32}

/-! ## Objects that are made -/

theorem HeldWith.freed_lt_nodes (h : s.HeldWith [] []) :
    .object (.node s.nNodes) ∉ s.freed ∧ .object (.clientNode s.nNodes) ∉ s.freed :=
  ⟨fun hf => Nat.lt_irrefl _ (h.made_object hf), fun hf => Nat.lt_irrefl _ (h.made_object hf)⟩

theorem HeldWith.known_of_there (h : s.HeldWith [] []) (hb : s.There b) : s.Known b := by
  cases b with
  | client c => exact h.clients_lt hb
  | node n | link n => exact hb.1
  | clientNode n => exact hb.2.1
  | _ => exact hb

/-- A client, a link or a module comes with its global. -/
theorem HeldWith.new (h : s.HeldWith [] []) {nClients nLinks nModules : Nat}
    {clients : List Nat} {objects : Nat → List (Option Nat)} {coreResource : Nat → Option Nat}
    (hobject : .object b ∉ s.freed) (hglobal : b.HasGlobal) (hnode : ∀ n, b ≠ .node n)
    (hnew : ¬ s.Known b)
    (hthere : ∀ b', ({ s with
      nClients, nLinks, nModules, clients, objects, coreResource
      globals := s.globals ++ [b] } : Bindings).There b' ↔ s.There b' ∨ b' = b)
    (hclients : s.nClients ≤ nClients) (hlinks : s.nLinks ≤ nLinks)
    (hmodules : s.nModules ≤ nModules)
    (hnodup : clients.Nodup) (hlt : ∀ c ∈ clients, c < nClients)
    (hentry : ∀ c i, (objects c)[i]?.join = s.entry c i) (hcore : coreResource = s.coreResource) :
    ({ s with
      nClients, nLinks, nModules, clients, objects, coreResource
      globals := s.globals ++ [b] } : Bindings).HeldWith [] [] := by
  subst hcore
  have hstays : ∀ {b'}, s.Stays [] b' → ({ s with
      nClients, nLinks, nModules, clients, objects
      globals := s.globals ++ [b] } : Bindings).Stays [] b' := by
    rintro b' (ht | hg)
    · exact .inl ((hthere b').mpr (.inl ht))
    · exact absurd hg List.not_mem_nil
  have hknown : ∀ b', s.Known b' → ({ s with
      nClients, nLinks, nModules, clients, objects
      globals := s.globals ++ [b] } : Bindings).Known b' := by
    intro b' hb'
    cases b' with
    | client c => exact Nat.lt_of_lt_of_le hb' hclients
    | link l => exact Nat.lt_of_lt_of_le hb' hlinks
    | module m => exact Nat.lt_of_lt_of_le hb' hmodules
    | _ => exact hb'
  have hmem : b ∉ s.globals := fun hmem => hnew (h.known_of_there (h.global hmem).1.1)
  have hold : ∀ {b'}, s.Known b' → ({ s with
      nClients, nLinks, nModules, clients, objects
      globals := s.globals ++ [b] } : Bindings).There b' → s.There b' := by
    intro b' hb' ht
    rcases (hthere b').mp ht with ht | rfl
    · exact ht
    · exact absurd hb' hnew
  constructor
  case tame => exact h.tame
  case known => exact fun hr => ⟨hknown _ (h.known hr).1, hknown _ (h.known hr).2⟩
  case once => exact h.once
  case made_resource => exact h.made_resource
  case made_object =>
    intro b' hb'
    have hmade := h.made_object hb'
    cases b' with
    | client c => exact Nat.lt_of_lt_of_le hmade hclients
    | link l => exact Nat.lt_of_lt_of_le hmade hlinks
    | _ => exact hmade
  case stays =>
    rintro b' (ht | hg)
    · rcases (hthere b').mp ht with ht | rfl
      · exact h.stays (.inl ht)
      · exact hobject
    · exact absurd hg List.not_mem_nil
  case out_live => exact fun hr => absurd hr List.not_mem_nil
  case live => exact fun hr => ⟨hstays (h.live hr).1, hstays (h.live hr).2⟩
  case gone =>
    intro r hf hkept
    obtain ⟨hclient, hobj⟩ := h.known (h.made_resource hf)
    exact h.gone hf ⟨⟨hold hclient hkept.1.1, List.not_mem_nil⟩,
      ⟨hold hobj hkept.2.1, List.not_mem_nil⟩⟩
  case entry =>
    intro c i r he
    exact h.entry ((hentry c i).symm.trans he)
  case stored => exact fun hr => (hentry _ _).trans (h.stored hr)
  case nodup => exact h.nodup
  case mem => exact h.mem
  case listed => exact h.listed
  case single => exact h.single
  case core => exact h.core
  case core_rests => exact List.not_mem_nil
  case going_client => exact fun hg => absurd hg List.not_mem_nil
  case clients_nodup => exact hnodup
  case clients_lt => exact fun hc => hlt _ hc
  case globals_nodup =>
    have hconcat := h.globals_nodup.concat hmem
    rwa [List.concat_eq_append] at hconcat
  case global =>
    intro b' hb'
    rcases List.mem_append.mp hb' with hb' | hb'
    · obtain ⟨hrest, hg, hinit⟩ := h.global hb'
      exact ⟨⟨(hthere b').mpr (.inl hrest.1), List.not_mem_nil⟩, hg, hinit⟩
    · cases List.mem_singleton.mp hb'
      exact ⟨⟨(hthere b).mpr (.inr rfl), List.not_mem_nil⟩, hglobal,
        fun n hn => absurd hn (hnode n)⟩
  case isPublic =>
    intro b' hb' hg hinit
    rcases (hthere b').mp hb'.1 with ht | rfl
    · exact List.mem_append_left _ (h.isPublic ⟨ht, List.not_mem_nil⟩ hg hinit)
    · exact List.mem_append_right _ List.mem_cons_self
  case leaving_nodup => exact h.leaving_nodup
  case leaving =>
    intro b' hb'
    obtain ⟨hf, -, hremoves⟩ := h.leaving hb'
    refine ⟨hf, List.not_mem_nil, ?_⟩
    cases b' with
    | link l => exact Nat.lt_of_lt_of_le hremoves hlinks
    | _ => exact hremoves
  case nodeFree => exact h.nodeFree
  case clientNode => exact h.clientNode

/-- A node that is not initialized yet; `free` tells whether it has a client node. -/
def newNode (s : Bindings) (free : Bool) : Bindings :=
  { s with
    nNodes := s.nNodes + 1
    asyncInit := Function.update s.asyncInit s.nNodes true
    nodeFree := Function.update s.nodeFree s.nNodes free }

theorem HeldWith.newNode (h : s.HeldWith [] []) (free : Bool) :
    (s.newNode free).HeldWith [] [] := by
  obtain ⟨hnode, hclientNode⟩ := h.freed_lt_nodes
  have hne : ∀ {n}, n < s.nNodes → n ≠ s.nNodes := fun hn => Nat.ne_of_lt hn
  have hold : ∀ {b'}, s.Known b' → ((s.newNode free).There b' ↔ s.There b') := by
    intro b' hb'
    cases b' with
    | node n =>
      exact and_congr_left fun _ => ⟨fun _ => hb', fun hn => Nat.lt_succ_of_lt hn⟩
    | clientNode n =>
      show Function.update s.nodeFree s.nNodes free n = true ∧ n < s.nNodes + 1 ∧ _ ↔ _ ∧ _
      rw [Function.update_of_ne (hne hb')]
      exact and_congr_right fun _ =>
        and_congr_left fun _ => ⟨fun _ => hb', fun hn => Nat.lt_succ_of_lt hn⟩
    | _ => exact Iff.rfl
  have hknown : ∀ {b'}, s.Known b' → (s.newNode free).Known b' := by
    intro b' hb'
    cases b' with
    | node n | clientNode n => exact Nat.lt_succ_of_lt hb'
    | _ => exact hb'
  constructor
  case tame => exact h.tame
  case known => exact fun hr => ⟨hknown (h.known hr).1, hknown (h.known hr).2⟩
  case once => exact h.once
  case made_resource => exact h.made_resource
  case made_object =>
    intro b' hb'
    have hmade := h.made_object hb'
    cases b' with
    | node n | clientNode n => exact Nat.lt_succ_of_lt hmade
    | _ => exact hmade
  case stays =>
    rintro b' (ht | hg) hf
    · by_cases hb' : s.Known b'
      · exact h.stays (.inl ((hold hb').mp ht)) hf
      · cases b' with
        | node n =>
          have hn : n = s.nNodes := Nat.le_antisymm (Nat.le_of_lt_succ ht.1) (Nat.le_of_not_lt hb')
          exact hnode (hn ▸ hf)
        | clientNode n =>
          have hn : n = s.nNodes :=
            Nat.le_antisymm (Nat.le_of_lt_succ ht.2.1) (Nat.le_of_not_lt hb')
          exact hclientNode (hn ▸ hf)
        | client c => exact hb' (h.clients_lt ht)
        | link l => exact hb' ht.1
        | _ => exact hb' ht
    · exact List.not_mem_nil hg
  case out_live => exact fun hr => absurd hr List.not_mem_nil
  case live =>
    intro r hr
    obtain ⟨hclient, hobj⟩ := h.live hr
    obtain ⟨hkclient, hkobj⟩ := h.known hr.1.1
    exact ⟨.inl ((hold hkclient).mpr (hclient.resolve_right List.not_mem_nil)),
      .inl ((hold hkobj).mpr (hobj.resolve_right List.not_mem_nil))⟩
  case gone =>
    intro r hf hkept
    obtain ⟨hkclient, hkobj⟩ := h.known (h.made_resource hf)
    exact h.gone hf ⟨⟨(hold hkclient).mp hkept.1.1, List.not_mem_nil⟩,
      ⟨(hold hkobj).mp hkept.2.1, List.not_mem_nil⟩⟩
  case entry => exact h.entry
  case stored => exact h.stored
  case nodup => exact h.nodup
  case mem => exact h.mem
  case listed => exact h.listed
  case single => exact h.single
  case core => exact h.core
  case core_rests => exact List.not_mem_nil
  case going_client => exact fun hg => absurd hg List.not_mem_nil
  case clients_nodup => exact h.clients_nodup
  case clients_lt => exact h.clients_lt
  case globals_nodup => exact h.globals_nodup
  case global =>
    intro b' hb'
    obtain ⟨hrest, hg, hinit⟩ := h.global hb'
    refine ⟨⟨(hold (h.known_of_there hrest.1)).mpr hrest.1, List.not_mem_nil⟩, hg, ?_⟩
    rintro n rfl
    show Function.update s.asyncInit s.nNodes true n = false
    rw [Function.update_of_ne (hne hrest.1.1)]
    exact hinit n rfl
  case isPublic =>
    intro b' hb' hg hinit
    have hnew : b' ≠ .node s.nNodes := by
      rintro rfl
      have hinit : Function.update s.asyncInit s.nNodes true s.nNodes = false := hinit _ rfl
      rw [Function.update_self] at hinit
      cases hinit
    have hk : s.Known b' := by
      cases b' with
      | node n =>
        refine Nat.lt_of_le_of_ne (Nat.le_of_lt_succ hb'.1.1) ?_
        rintro rfl
        exact hnew rfl
      | clientNode n => exact hg.elim
      | client c => exact h.clients_lt hb'.1
      | link l => exact hb'.1.1
      | _ => exact hb'.1
    refine h.isPublic ⟨(hold hk).mp hb'.1, List.not_mem_nil⟩ hg ?_
    rintro n rfl
    have hinit : Function.update s.asyncInit s.nNodes true n = false := hinit n rfl
    rwa [Function.update_of_ne (hne hk)] at hinit
  case leaving_nodup => exact h.leaving_nodup
  case leaving =>
    intro b' hb'
    obtain ⟨hf, hg, hremoves⟩ := h.leaving hb'
    refine ⟨hf, hg, ?_⟩
    cases b' with
    | node n => exact Nat.lt_succ_of_lt hremoves
    | _ => exact hremoves
  case nodeFree =>
    intro n hn
    have hn : Function.update s.nodeFree s.nNodes free n = true := hn
    by_cases hn' : n = s.nNodes
    · exact hn' ▸ Nat.lt_succ_self _
    · rw [Function.update_of_ne hn'] at hn
      exact Nat.lt_succ_of_lt (h.nodeFree hn)
  case clientNode => exact h.clientNode

/-- A node that is initialized gets its global. -/
def initialized (s : Bindings) (n : Nat) : Bindings :=
  { s with
    asyncInit := Function.update s.asyncInit n false
    globals := s.globals ++ [.node n] }

theorem HeldWith.initialized (h : s.HeldWith [] []) (hn : s.There (.node n))
    (hinit : s.asyncInit n = true) :
    (s.initialized n).HeldWith [] [] := by
  have hmem : .node n ∉ s.globals := by
    intro hmem
    rw [(h.global hmem).2.2 n rfl] at hinit
    cases hinit
  have hfalse : ∀ {n'}, s.asyncInit n' = false →
      Function.update s.asyncInit n false n' = false := by
    intro n' hn'
    by_cases heq : n' = n
    · rw [heq, Function.update_self]
    · rwa [Function.update_of_ne heq]
  constructor
  case tame => exact h.tame
  case known => exact h.known
  case once => exact h.once
  case made_resource => exact h.made_resource
  case made_object => exact h.made_object
  case stays => exact h.stays
  case out_live => exact h.out_live
  case live => exact h.live
  case gone => exact h.gone
  case entry => exact h.entry
  case stored => exact h.stored
  case nodup => exact h.nodup
  case mem => exact h.mem
  case listed => exact h.listed
  case single => exact h.single
  case core => exact h.core
  case core_rests => exact h.core_rests
  case going_client => exact h.going_client
  case clients_nodup => exact h.clients_nodup
  case clients_lt => exact h.clients_lt
  case globals_nodup =>
    have hconcat := h.globals_nodup.concat hmem
    rwa [List.concat_eq_append] at hconcat
  case global =>
    intro b hb
    rcases List.mem_append.mp hb with hb | hb
    · obtain ⟨hrest, hg, hinit⟩ := h.global hb
      exact ⟨hrest, hg, fun n' hn' => hfalse (hinit n' hn')⟩
    · cases List.mem_singleton.mp hb
      refine ⟨⟨hn, List.not_mem_nil⟩, trivial, ?_⟩
      rintro n' hn'
      cases hn'
      exact Function.update_self _ _ _
  case isPublic =>
    intro b hb hg hinit
    by_cases heq : b = .node n
    · rw [heq]
      exact List.mem_append_right _ List.mem_cons_self
    · refine List.mem_append_left _ (h.isPublic hb hg ?_)
      rintro n' rfl
      have hinit : Function.update s.asyncInit n false n' = false := hinit n' rfl
      rwa [Function.update_of_ne fun h' => heq (congrArg Bound.node h')] at hinit
  case leaving_nodup => exact h.leaving_nodup
  case leaving => exact h.leaving
  case nodeFree => exact h.nodeFree
  case clientNode => exact h.clientNode

/-! ## Resources that are made -/

instance : (b : Bound) → Decidable b.HasList
  | .module _ => inferInstanceAs (Decidable False)
  | .core | .registry | .client _ | .node _ | .link _ | .clientNode _ =>
    inferInstanceAs (Decidable True)

/-- A resource in the table of its client and in the list of its object. -/
def added (s : Bindings) (c : Nat) (id : UInt32) (b : Bound) : Bindings :=
  let r := s.nResources
  { s with
    resources := Function.update s.resources r ⟨c, id, b⟩
    nResources := r + 1
    objects := Function.update s.objects c (putAt (s.objects c) id.toNat (some r))
    resourceList :=
      if b.HasList then Function.update s.resourceList b (s.resourceList b ++ [r])
      else s.resourceList
    coreResource :=
      if b = .core then Function.update s.coreResource c (some r) else s.coreResource }

theorem resources_added_ne (hr : r ≠ s.nResources) :
    (s.added c id b).resources r = s.resources r :=
  Function.update_of_ne hr _ _

theorem resources_added_self :
    (s.added c id b).resources s.nResources = ⟨c, id, b⟩ :=
  Function.update_self _ _ _

theorem there_added {b' : Bound} : (s.added c id b).There b' ↔ s.There b' := by
  cases b' <;> exact Iff.rfl

theorem entry_added (hid : s.Unused c id) (c' i : Nat) :
    (s.added c id b).entry c' i =
      if c' = c ∧ i = id.toNat then some s.nResources else s.entry c' i := by
  unfold entry added
  by_cases hc : c' = c
  · subst hc
    simp only [Function.update_self, true_and]
    exact getElem?_putAt hid.2.1 _ i
  · simp only [Function.update_of_ne hc, hc, false_and, if_false]

theorem resourceList_added (b' : Bound) :
    (s.added c id b).resourceList b' =
      if b' = b ∧ b.HasList then s.resourceList b' ++ [s.nResources] else s.resourceList b' := by
  unfold added
  by_cases hl : b.HasList
  · by_cases hb : b' = b
    · subst hb
      simp [hl]
    · simp [hl, hb]
  · simp [hl]

theorem mem_added {b' : Bound} {r' : Nat} :
    r' ∈ (s.added c id b).resourceList b' ↔
      r' ∈ s.resourceList b' ∨ r' = s.nResources ∧ b' = b ∧ b.HasList := by
  rw [resourceList_added]
  split
  · next hnew => simp [hnew]
  · next hold => simp [hold]

theorem coreResource_added (c' : Nat) :
    (s.added c id b).coreResource c' =
      if c' = c ∧ b = .core then some s.nResources else s.coreResource c' := by
  unfold added
  by_cases hcore : b = .core
  · by_cases hc' : c' = c
    · simp [hcore, hc']
    · simp [hcore, hc']
  · simp [hcore]

theorem held_ne (hr : s.Held [] r) : r ≠ s.nResources := Nat.ne_of_lt hr.1.1

theorem held_added (h : s.HeldWith [] []) :
    (s.added c id b).Held [] r ↔ s.Held [] r ∨ r = s.nResources := by
  have hnew : .resource s.nResources ∉ s.freed := fun hf => Nat.lt_irrefl _ (h.made_resource hf)
  show (r < s.nResources + 1 ∧ _) ∧ _ ↔ _
  constructor
  · rintro ⟨⟨hr, hf⟩, ho⟩
    rcases Nat.lt_or_eq_of_le (Nat.le_of_lt_succ hr) with hr | hr
    · exact .inl ⟨⟨hr, hf⟩, ho⟩
    · exact .inr hr
  · rintro (⟨⟨hr, hf⟩, ho⟩ | rfl)
    · exact ⟨⟨Nat.lt_succ_of_lt hr, hf⟩, ho⟩
    · exact ⟨⟨Nat.lt_succ_self _, hnew⟩, List.not_mem_nil⟩

/-- What holds of the resources that are there holds of a new one. -/
theorem HeldWith.add (h : s.HeldWith [] []) (hc : c ∈ s.clients) (hid : s.Unused c id)
    (hb : s.There b) (hcn : ∀ n, b = .clientNode n → s.resourceList b = []) :
    (s.added c id b).HeldWith [] [] := by
  have hstays : ∀ {b'}, s.Stays [] b' → (s.added c id b).Stays [] b' := by
    rintro b' (ht | hg)
    · exact .inl (there_added.mpr ht)
    · exact .inr hg
  have hfree : ∀ {r}, .resource r ∈ s.freed → r ≠ s.nResources :=
    fun hf => Nat.ne_of_lt (h.made_resource hf)
  constructor
  case tame => exact h.tame
  case once => exact h.once
  case known =>
    intro r hr
    rcases Nat.lt_or_eq_of_le (Nat.le_of_lt_succ hr) with hr | rfl
    · rw [resources_added_ne (Nat.ne_of_lt hr)]
      have hk := h.known hr
      constructor
      · exact hk.1
      · cases hobj : (s.resources r).object <;> rw [hobj] at hk <;> exact hk.2
    · rw [resources_added_self]
      have hk := h.known_of_there hb
      constructor
      · exact h.clients_lt hc
      · cases b <;> exact hk
  case made_resource => exact fun hf => Nat.lt_succ_of_lt (h.made_resource hf)
  case made_object =>
    intro b' hb'
    have hmade := h.made_object hb'
    cases b' <;> exact hmade
  case stays =>
    rintro b' (ht | hg)
    · exact h.stays (.inl (there_added.mp ht))
    · exact absurd hg List.not_mem_nil
  case out_live => exact fun hr => absurd hr List.not_mem_nil
  case live =>
    intro r hr
    rcases (held_added h).mp hr with hr | rfl
    · rw [resources_added_ne (held_ne hr)]
      exact ⟨hstays (h.live hr).1, hstays (h.live hr).2⟩
    · rw [resources_added_self]
      exact ⟨hstays (.inl hc), hstays (.inl hb)⟩
  case gone =>
    intro r hf hkept
    unfold Kept Rests at hkept
    rw [resources_added_ne (hfree hf), there_added, there_added] at hkept
    exact h.gone hf hkept
  case entry =>
    intro c' i r he
    rw [entry_added hid] at he
    split at he
    · next heq =>
      cases he
      rw [resources_added_self]
      exact ⟨(held_added h).mpr (.inr rfl), heq.1.symm, heq.2.symm⟩
    · obtain ⟨hheld, hclient, hi⟩ := h.entry he
      rw [resources_added_ne (held_ne hheld)]
      exact ⟨(held_added h).mpr (.inl hheld), hclient, hi⟩
  case stored =>
    intro r hr
    rcases (held_added h).mp hr with hr | rfl
    · rw [resources_added_ne (held_ne hr), entry_added hid, if_neg, h.stored hr]
      rintro ⟨hclient, hi⟩
      have hstored := h.stored hr
      rw [hclient, hi, hid.2.2] at hstored
      cases hstored
    · rw [resources_added_self, entry_added hid, if_pos ⟨rfl, rfl⟩]
  case nodup =>
    intro b'
    rw [resourceList_added]
    split
    · have hconcat := (h.nodup b').concat fun hr => held_ne (h.mem hr).1 rfl
      rwa [List.concat_eq_append] at hconcat
    · exact h.nodup b'
  case mem =>
    intro b' r hr
    rcases mem_added.mp hr with hr | ⟨rfl, rfl, hl⟩
    · obtain ⟨hheld, hobj, hl⟩ := h.mem hr
      rw [resources_added_ne (held_ne hheld)]
      exact ⟨(held_added h).mpr (.inl hheld), hobj, hl⟩
    · rw [resources_added_self]
      exact ⟨(held_added h).mpr (.inr rfl), rfl, hl⟩
  case listed =>
    intro r hr hl
    rcases (held_added h).mp hr with hr | rfl
    · rw [resources_added_ne (held_ne hr)] at hl ⊢
      exact mem_added.mpr (.inl (h.listed hr hl))
    · rw [resources_added_self] at hl ⊢
      exact mem_added.mpr (.inr ⟨rfl, rfl, hl⟩)
  case single =>
    intro n
    rw [resourceList_added]
    split
    · next hnew => simp [hnew.1, hcn n hnew.1.symm]
    · exact h.single n
  case core =>
    intro c' k hk
    rw [coreResource_added] at hk
    split at hk
    · next hnew =>
      cases hk
      rw [resources_added_self]
      exact ⟨(held_added h).mpr (.inr rfl), hnew.2, hnew.1.symm⟩
    · obtain ⟨hheld, hobj, hclient⟩ := h.core hk
      rw [resources_added_ne (held_ne hheld)]
      exact ⟨(held_added h).mpr (.inl hheld), hobj, hclient⟩
  case core_rests => exact h.core_rests
  case going_client => exact fun hg => absurd hg List.not_mem_nil
  case clients_nodup => exact h.clients_nodup
  case clients_lt => exact h.clients_lt
  case globals_nodup => exact h.globals_nodup
  case global =>
    intro b' hb'
    obtain ⟨hrest, hg⟩ := h.global hb'
    exact ⟨⟨there_added.mpr hrest.1, hrest.2⟩, hg⟩
  case isPublic =>
    exact fun hb' hg hinit => h.isPublic ⟨there_added.mp hb'.1, hb'.2⟩ hg hinit
  case leaving_nodup => exact h.leaving_nodup
  case leaving =>
    intro b' hb'
    obtain ⟨hf, hg, hremoves⟩ := h.leaving hb'
    refine ⟨hf, hg, ?_⟩
    cases b' <;> exact hremoves
  case nodeFree => exact h.nodeFree
  case clientNode => exact h.clientNode

end Bindings
end Pinos
