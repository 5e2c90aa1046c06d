import Pinos.Server.BindingLists

/-
What is left when nodes, links, resources and clients are destroyed.
-/

namespace Pinos
namespace Bindings

variable {s : Bindings} {going : List Bound} {out : List Nat} {b : Bound} {c r n : Nat}

/-! ## Nodes and links -/

/-- What the loops remove is destroyed once: it is there, and has no global left then. -/
theorem HeldWith.begin (h : s.HeldWith going out) (hb : s.There b) (hremoves : s.Removes b) :
    ({ s with globals := s.globals.erase b } : Bindings).HeldWith (b :: going) out := by
  have hleaving : b ∉ s.leaving := by
    cases b with
    | node n => exact hb.2.1
    | link l => exact hb.2.1
    | _ => exact hremoves.elim
  have hclient : ∀ c, b ≠ .client c := by
    rintro c rfl
    exact hremoves
  have hstays : ∀ {b'}, s.Stays (b :: going) b' ↔ s.Stays going b' := by
    intro b'
    unfold Stays
    rw [List.mem_cons]
    constructor
    · rintro (ht | rfl | hg)
      · exact .inl ht
      · exact .inl hb
      · exact .inr hg
    · rintro (ht | hg)
      · exact .inl ht
      · exact .inr (.inr hg)
  have hrests : ∀ {b'}, s.Rests (b :: going) b' → s.Rests going b' ∧ b' ≠ b := by
    rintro b' ⟨ht, hg⟩
    exact ⟨⟨ht, fun hg' => hg (List.mem_cons_of_mem b hg')⟩,
      fun heq => hg (heq ▸ List.mem_cons_self)⟩
  constructor
  case tame => exact h.tame
  case known => exact h.known
  case once => exact h.once
  case made_resource => exact h.made_resource
  case made_object => exact h.made_object
  case stays => exact fun hb' => h.stays (hstays.mp hb')
  case out_live => exact fun hr => ⟨(h.out_live hr).1, hstays.mpr (h.out_live hr).2⟩
  case live => exact fun hr => ⟨hstays.mpr (h.live hr).1, hstays.mpr (h.live hr).2⟩
  case gone =>
    intro r hf hkept
    have hclient : s.Rests (b :: going) (.client (s.resources r).client) := hkept.1
    have hobj : s.Rests (b :: going) (s.resources r).object := hkept.2
    exact h.gone hf ⟨(hrests hclient).1, (hrests hobj).1⟩
  case entry => exact h.entry
  case stored => exact h.stored
  case nodup => exact h.nodup
  case mem => exact h.mem
  case listed => exact h.listed
  case single => exact h.single
  case core => exact h.core
  case core_rests =>
    rw [List.mem_cons, not_or]
    refine ⟨?_, h.core_rests⟩
    rintro rfl
    exact hremoves
  case going_client =>
    intro c hc
    rcases List.mem_cons.mp hc with heq | hc
    · exact absurd heq.symm (hclient c)
    · exact h.going_client hc
  case clients_nodup => exact h.clients_nodup
  case clients_lt => exact h.clients_lt
  case globals_nodup => exact h.globals_nodup.erase b
  case global =>
    intro b' hb'
    obtain ⟨hne, hmem⟩ := h.globals_nodup.mem_erase_iff.mp hb'
    obtain ⟨hrest, hglobal⟩ := h.global hmem
    refine ⟨⟨hrest.1, ?_⟩, hglobal⟩
    rw [List.mem_cons, not_or]
    exact ⟨hne, hrest.2⟩
  case isPublic =>
    intro b' hb' hglobal hinit
    obtain ⟨hrest, hne⟩ := hrests hb'
    exact h.globals_nodup.mem_erase_iff.mpr ⟨hne, h.isPublic hrest hglobal hinit⟩
  case leaving_nodup => exact h.leaving_nodup
  case leaving =>
    intro b' hb'
    obtain ⟨hf, hg, hr⟩ := h.leaving hb'
    refine ⟨hf, ?_, hr⟩
    rw [List.mem_cons, not_or]
    refine ⟨?_, hg⟩
    rintro rfl
    exact hleaving hb'
  case nodeFree => exact h.nodeFree
  case clientNode => exact h.clientNode

theorem there_of_leave {b' : Bound}
    (hb : ({ s with leaving := s.leaving ++ [b] } : Bindings).There b') : s.There b' := by
  cases b' <;> simp_all [There]

theorem there_leave {b' : Bound} (hb' : s.There b') (hne : b' ≠ b)
    (hcn : ∀ n, b' = .clientNode n → b ≠ .node n) :
    ({ s with leaving := s.leaving ++ [b] } : Bindings).There b' := by
  cases b' with
  | node n | link n =>
    refine ⟨hb'.1, fun hmem => ?_, hb'.2.2⟩
    rcases List.mem_append.mp hmem with hmem | hmem
    · exact hb'.2.1 hmem
    · exact hne (List.mem_singleton.mp hmem)
  | clientNode n =>
    refine ⟨hb'.1, hb'.2.1, fun hmem => ?_, hb'.2.2.2⟩
    rcases List.mem_append.mp hmem with hmem | hmem
    · exact hb'.2.2.1 hmem
    · exact hcn n rfl (List.mem_singleton.mp hmem).symm
  | _ => exact hb'

theorem not_there_leave {s' : Bindings} (hremoves : s'.Removes b) :
    ¬ ({ s with leaving := s.leaving ++ [b] } : Bindings).There b := by
  intro ht
  cases b with
  | node n | link n => exact ht.2.1 (List.mem_append_right _ List.mem_cons_self)
  | _ => exact hremoves

/-- The loops are asked to remove what nothing is bound to any more. -/
theorem HeldWith.leave (h : s.HeldWith (b :: going) out) (hremoves : s.Removes b)
    (hgoing : b ∉ going) (hlist : s.resourceList b = [])
    (hcn : ∀ n, b = .node n → s.resourceList (.clientNode n) = []) :
    ({ s with leaving := s.leaving ++ [b] } : Bindings).HeldWith going out := by
  have hfree : .object b ∉ s.freed := h.stays (.inr List.mem_cons_self)
  have hclient : ∀ c, b ≠ .client c := by
    rintro c rfl
    exact hremoves
  have hstays : ∀ {b'}, s.Stays (b :: going) b' → b' ≠ b →
      (∀ n, b' = .clientNode n → b ≠ .node n) →
      ({ s with leaving := s.leaving ++ [b] } : Bindings).Stays going b' := by
    rintro b' (ht | hg) hne hnode
    · exact .inl (there_leave ht hne hnode)
    · exact .inr ((List.mem_cons.mp hg).resolve_left hne)
  have hstaysClient : ∀ {c}, s.Stays (b :: going) (.client c) →
      ({ s with leaving := s.leaving ++ [b] } : Bindings).Stays going (.client c) :=
    fun hc => hstays hc (fun heq => hclient _ heq.symm) (fun n hn => by cases hn)
  have hleft : ∀ {b'}, ({ s with leaving := s.leaving ++ [b] } : Bindings).There b' → b' ≠ b := by
    rintro b' ht rfl
    exact not_there_leave hremoves ht
  constructor
  case tame => exact h.tame
  case known => exact h.known
  case once => exact h.once
  case made_resource => exact h.made_resource
  case made_object => exact h.made_object
  case stays =>
    rintro b' (ht | hg)
    · exact h.stays (.inl (there_of_leave ht))
    · exact h.stays (.inr (List.mem_cons_of_mem b hg))
  case out_live => exact fun hr => ⟨(h.out_live hr).1, hstaysClient (h.out_live hr).2⟩
  case live =>
    intro r hr
    obtain ⟨hc, hobj⟩ := h.live hr
    have hlisted := h.listed hr
    refine ⟨hstaysClient hc, hstays hobj ?_ ?_⟩
    · intro heq
      rw [heq, hlist] at hlisted
      cases b with
      | node n | link n => exact List.not_mem_nil (hlisted trivial)
      | _ => exact hremoves
    · intro n hobj hb
      rw [hobj, hcn n hb] at hlisted
      exact List.not_mem_nil (hlisted trivial)
  case gone =>
    intro r hf hkept
    refine h.gone hf ⟨⟨there_of_leave hkept.1.1, ?_⟩, ⟨there_of_leave hkept.2.1, ?_⟩⟩
    · rw [List.mem_cons, not_or]
      exact ⟨hleft hkept.1.1, hkept.1.2⟩
    · rw [List.mem_cons, not_or]
      exact ⟨hleft hkept.2.1, hkept.2.2⟩
  case entry => exact h.entry
  case stored => exact h.stored
  case nodup => exact h.nodup
  case mem => exact h.mem
  case listed => exact h.listed
  case single => exact h.single
  case core => exact h.core
  case core_rests => exact fun hg => h.core_rests (List.mem_cons_of_mem b hg)
  case going_client => exact fun hg => h.going_client (List.mem_cons_of_mem b hg)
  case clients_nodup => exact h.clients_nodup
  case clients_lt => exact h.clients_lt
  case globals_nodup => exact h.globals_nodup
  case global =>
    intro b' hb'
    obtain ⟨⟨ht, hg⟩, hglobal, hinit⟩ := h.global hb'
    rw [List.mem_cons, not_or] at hg
    refine ⟨⟨there_leave ht hg.1 ?_, hg.2⟩, hglobal, hinit⟩
    rintro n rfl
    exact hglobal.elim
  case isPublic =>
    intro b' hb' hglobal hinit
    refine h.isPublic ⟨there_of_leave hb'.1, ?_⟩ hglobal hinit
    rw [List.mem_cons, not_or]
    exact ⟨hleft hb'.1, hb'.2⟩
  case leaving_nodup =>
    have hconcat := h.leaving_nodup.concat fun hb => (h.leaving hb).2.1 List.mem_cons_self
    rwa [List.concat_eq_append] at hconcat
  case leaving =>
    intro b' hb'
    rcases List.mem_append.mp hb' with hb' | hb'
    · obtain ⟨hf, hg, hr⟩ := h.leaving hb'
      exact ⟨hf, fun hg' => hg (List.mem_cons_of_mem b hg'), hr⟩
    · cases List.mem_singleton.mp hb'
      exact ⟨hfree, hgoing, hremoves⟩
  case nodeFree => exact h.nodeFree
  case clientNode => exact h.clientNode

theorem fewer_leave (s : Bindings) (b : Bound) :
    Fewer s { s with leaving := s.leaving ++ [b] } where
  resources := rfl
  nResources := rfl
  clients := rfl
  nodeFree := rfl
  made := fun b => by cases b <;> exact Iff.rfl
  removes := fun b => by cases b <;> exact Iff.rfl
  length := fun _ => rfl
  entry := id
  lists := fun _ => List.Subset.refl _
  core := fun _ => rfl
  object_freed := fun _ => Iff.rfl
  there := there_of_leave

theorem fewer_globals (s : Bindings) (bs : List Bound) : Fewer s { s with globals := bs } where
  resources := rfl
  nResources := rfl
  clients := rfl
  nodeFree := rfl
  made := fun b => by cases b <;> exact Iff.rfl
  removes := fun b => by cases b <;> exact Iff.rfl
  length := fun _ => rfl
  entry := id
  lists := fun _ => List.Subset.refl _
  core := fun _ => rfl
  object_freed := fun _ => Iff.rfl
  there := id

theorem HeldWith.globalDestroy (h : s.HeldWith going out) (hb : b ∈ s.globals) :
    s.globalDestroy b = { s with globals := s.globals.erase b } := by
  unfold Bindings.globalDestroy
  rw [if_pos hb, h.notifyAll_eq h.registry_not_freed]

/-- `pinos_node_destroy` and `pinos_link_destroy`. -/
theorem HeldWith.objectDestroy (h : s.HeldWith going out) (hb : s.There b)
    (hremoves : s.Removes b) (hgoing : b ∉ going) {global : Bool}
    (hglobal : global = true ↔ b ∈ s.globals)
    (hcn : ∀ n, b = .node n → s.resourceList (.clientNode n) = []) :
    (s.objectDestroy b global).HeldWith going out ∧ Fewer s (s.objectDestroy b global) ∧
      ¬ (s.objectDestroy b global).There b := by
  have hstart : (if global = true then s.globalDestroy b else s) =
      { s with globals := s.globals.erase b } := by
    split
    · next hg => exact h.globalDestroy (hglobal.mp hg)
    · next hg => rw [List.erase_of_not_mem fun hmem => hg (hglobal.mpr hmem)]
  have hne : ∀ n, b ≠ .clientNode n := by
    rintro n rfl
    exact hremoves
  obtain ⟨hheld, hfewer, hnil⟩ :=
    (h.begin hb hremoves).destroyAll (fun s _ => s.crash) List.mem_cons_self hne rfl
  have hfewer := (fewer_globals s (s.globals.erase b)).trans hfewer
  unfold Bindings.objectDestroy
  rw [touch_eq (by simpa using h.stays (.inl hb))]
  simp only [hstart]
  have hremoves' := (hfewer.removes b).mpr hremoves
  refine ⟨hheld.leave hremoves' hgoing hnil fun n hn => hfewer.list_nil (hcn n hn),
    hfewer.trans (fewer_leave _ b), not_there_leave hremoves⟩

theorem HeldWith.nodeDestroy (h : s.HeldWith going out) (hb : s.There (.node n))
    (hgoing : .node n ∉ going) (hcn : s.resourceList (.clientNode n) = []) :
    (s.nodeDestroy n).HeldWith going out ∧ Fewer s (s.nodeDestroy n) ∧
      ¬ (s.nodeDestroy n).There (.node n) := by
  refine h.objectDestroy hb hb.1 hgoing ⟨fun hinit => ?_, fun hmem => ?_⟩ ?_
  · refine h.isPublic ⟨hb, hgoing⟩ trivial ?_
    rintro n' hn
    cases hn
    simpa using hinit
  · simpa using (h.global hmem).2.2 n rfl
  · rintro n' hn
    cases hn
    exact hcn

/-! ## Resources of client nodes -/

theorem HeldWith.list_clientNode (h : s.HeldWith going out) (hr : s.Held out r)
    (hobj : (s.resources r).object = .clientNode n) : s.resourceList (.clientNode n) = [r] := by
  have hmem := h.listed hr
  rw [hobj] at hmem
  have hlen := h.single n
  match hl : s.resourceList (.clientNode n) with
  | [] =>
    rw [hl] at hmem
    exact absurd (hmem trivial) List.not_mem_nil
  | [r'] =>
    rw [hl] at hmem
    rw [List.mem_singleton.mp (hmem trivial)]
  | _ :: _ :: _ =>
    rw [hl] at hlen
    simp at hlen

/-- The node of a client node is destroyed with the resource. -/
theorem HeldWith.clientNodeResourceDestroy (h : s.HeldWith going out) (hr : s.Held out r)
    (hobj : (s.resources r).object = .clientNode n) :
    (s.clearEntry (s.resources r).client (s.resources r).id).callDestroy
      Bindings.clientNodeResourceDestroy r = (s.takenOut r).nodeDestroy n := by
  have hfree : .object (.clientNode n) ∉ s.freed := hobj ▸ h.stays (h.live hr).2
  have herase : (s.resourceList (.clientNode n)).erase r = [] := by
    rw [h.list_clientNode hr hobj]
    simp
  rw [clearEntry_eq h hr]
  unfold callDestroy takenOut
  simp only [setObjects, hobj, herase]
  unfold Bindings.clientNodeResourceDestroy
  rw [touch_eq (by simpa using hfree)]
  rfl

theorem HeldWith.destroyClientNode (h : s.HeldWith going out) (hr : s.Held out r)
    (hobj : (s.resources r).object = .clientNode n) (hthere : s.There (.clientNode n))
    (hgoing : .node n ∉ going) :
    (s.resourceDestroy r).HeldWith going out ∧ Fewer s (s.resourceDestroy r) ∧
      .resource r ∈ (s.resourceDestroy r).freed := by
  have hnil : (s.takenOut r).resourceList (.clientNode n) = [] := by
    unfold takenOut
    simp [hobj, h.list_clientNode hr hobj]
  have hcore : (s.resources r).object ≠ .core := by
    rw [hobj]
    exact Bound.noConfusion
  obtain ⟨h', hfewer, hleft⟩ := (h.takeOut hr).nodeDestroy hthere.2 hgoing hnil
  obtain ⟨hlive, hclient⟩ := h'.out_live List.mem_cons_self
  have hfewer' := (h.fewer_takeOut hr fun hb => absurd hb hcore).trans hfewer
  have hgone : ¬ ((s.takenOut r).nodeDestroy n).Kept going r := by
    intro hkept
    have hrest := hkept.2.1
    rw [hfewer'.resources, hobj] at hrest
    exact hleft hrest.2
  have heq : s.resourceDestroy r = { (s.takenOut r).nodeDestroy n with
      freed := ((s.takenOut r).nodeDestroy n).freed ++ [.resource r] } := by
    have htouch : s.touch [.resource r, .object (.client (s.resources r).client)] = s :=
      touch_eq (by simpa using ⟨hr.1.2, h.client_not_freed hr⟩)
    unfold Bindings.resourceDestroy Bindings.destroyWith
    simp only [htouch, h.clientNodeResourceDestroy hr hobj]
    split
    · exact free_eq hlive.2
    · next hne =>
      have hstays := h'.stays hclient
      rw [hfewer'.resources] at hstays
      rw [h'.notifyCore_eq hstays hne]
      exact free_eq hlive.2
  rw [heq]
  exact ⟨h'.freeResource hr.2 hgone, hfewer'.trans (fewer_freeResource _ r),
    List.mem_append_right _ List.mem_cons_self⟩

/-- `pinos_resource_destroy` while clients are being destroyed, if any. -/
theorem HeldWith.resourceDestroy (h : s.HeldWith going out)
    (hgoing : ∀ b ∈ going, ∃ c, b = .client c) (hr : s.Held out r)
    (hgone : (∀ n, (s.resources r).object ≠ .clientNode n) → ¬ s.Kept going r) :
    (s.resourceDestroy r).HeldWith going out ∧ Fewer s (s.resourceDestroy r) ∧
      .resource r ∈ (s.resourceDestroy r).freed := by
  by_cases hobj : ∀ n, (s.resources r).object ≠ .clientNode n
  · obtain ⟨hheld, hfewer, -⟩ :=
      h.destroyWith Bindings.clientNodeResourceDestroy hr hobj (hgone hobj)
    refine ⟨hheld, hfewer, ?_⟩
    show Allocated.resource r ∈ (s.destroyWith Bindings.clientNodeResourceDestroy r).freed
    rw [destroyWith_eq _ h hr hobj]
    exact List.mem_append_right _ List.mem_cons_self
  · obtain ⟨n, hobj⟩ := not_forall_not.mp hobj
    refine h.destroyClientNode hr hobj ?_ ?_
    · rcases (h.live hr).2 with ht | hg
      · exact hobj ▸ ht
      · obtain ⟨c, hc⟩ := hgoing _ hg
        rw [hobj] at hc
        cases hc
    · intro hg
      obtain ⟨c, hc⟩ := hgoing _ hg
      cases hc

/-! ## Clients -/

theorem HeldWith.beginClient (h : s.HeldWith [] []) (hc : c ∈ s.clients) :
    ({ s with clients := s.clients.erase c, globals := s.globals.erase (.client c) } :
      Bindings).HeldWith [.client c] [] := by
  have hthere : ∀ {b}, ({ s with
      clients := s.clients.erase c, globals := s.globals.erase (.client c) } : Bindings).There b ↔
        s.There b ∧ b ≠ .client c := by
    intro b
    cases b with
    | client c' =>
      show c' ∈ s.clients.erase c ↔ c' ∈ s.clients ∧ _
      rw [h.clients_nodup.mem_erase_iff, and_comm, Ne, Ne, Bound.client.injEq]
    | _ => exact (and_iff_left Bound.noConfusion).symm
  have hstays : ∀ {b}, ({ s with
      clients := s.clients.erase c, globals := s.globals.erase (.client c) } :
        Bindings).Stays [.client c] b ↔ s.Stays [] b := by
    intro b
    unfold Stays
    rw [hthere, List.mem_singleton]
    by_cases hb : b = .client c
    · simp [hb, There, hc]
    · simp [hb]
  have hrests : ∀ {b}, ({ s with
      clients := s.clients.erase c, globals := s.globals.erase (.client c) } :
        Bindings).Rests [.client c] b ↔ s.Rests [] b ∧ b ≠ .client c := by
    intro b
    unfold Rests
    rw [hthere, List.mem_singleton]
    simp
  constructor
  case tame => exact h.tame
  case known => exact h.known
  case once => exact h.once
  case made_resource => exact h.made_resource
  case made_object => exact h.made_object
  case stays => exact fun hb => h.stays (hstays.mp hb)
  case out_live => exact fun hr => absurd hr List.not_mem_nil
  case live => exact fun hr => ⟨hstays.mpr (h.live hr).1, hstays.mpr (h.live hr).2⟩
  case gone => exact fun hf hkept => h.gone hf ⟨(hrests.mp hkept.1).1, (hrests.mp hkept.2).1⟩
  case entry => exact h.entry
  case stored => exact h.stored
  case nodup => exact h.nodup
  case mem => exact h.mem
  case listed => exact h.listed
  case single => exact h.single
  case core => exact h.core
  case core_rests => simp
  case going_client =>
    intro c' hc'
    cases List.mem_singleton.mp hc'
    exact fun hmem => (h.clients_nodup.mem_erase_iff.mp hmem).1 rfl
  case clients_nodup => exact h.clients_nodup.erase c
  case clients_lt => exact fun hc' => h.clients_lt (List.mem_of_mem_erase hc')
  case globals_nodup => exact h.globals_nodup.erase _
  case global =>
    intro b hb
    obtain ⟨hne, hmem⟩ := h.globals_nodup.mem_erase_iff.mp hb
    obtain ⟨hrest, hglobal⟩ := h.global hmem
    exact ⟨hrests.mpr ⟨hrest, hne⟩, hglobal⟩
  case isPublic =>
    intro b hb hglobal hinit
    obtain ⟨hrest, hne⟩ := hrests.mp hb
    exact h.globals_nodup.mem_erase_iff.mpr ⟨hne, h.isPublic hrest hglobal hinit⟩
  case leaving_nodup => exact h.leaving_nodup
  case leaving =>
    intro b hb
    obtain ⟨hf, -, hremoves⟩ := h.leaving hb
    refine ⟨hf, ?_, hremoves⟩
    rw [List.mem_singleton]
    rintro rfl
    exact hremoves
  case nodeFree => exact h.nodeFree
  case clientNode => exact h.clientNode

/-- Freeing an object changes nothing that is there, if the object is not. -/
theorem object_mem_append_object {b' : Bound} :
    .object b' ∈ s.freed ++ [.object b] ↔ .object b' ∈ s.freed ∨ b' = b := by
  rw [List.mem_append, List.mem_singleton, Allocated.object.injEq]

theorem held_freeObject : ({ s with freed := s.freed ++ [.object b] } : Bindings).Held out r ↔
    s.Held out r := by
  unfold Held Live
  rw [List.mem_append, List.mem_singleton, or_iff_left Allocated.noConfusion]

theorem there_freeClient :
    ({ s with freed := s.freed ++ [.object (.client c)] } : Bindings).There b ↔ s.There b := by
  cases b <;> simp [There]

/-- A client is freed when it has no resources, and nothing is bound to it. -/
theorem HeldWith.freeClient (h : s.HeldWith [.client c] []) (hmade : c < s.nClients)
    (hnone : ∀ i, s.entry c i = none) (hlist : s.resourceList (.client c) = []) :
    ({ s with freed := s.freed ++ [.object (.client c)] } : Bindings).HeldWith [] [] := by
  have hc : c ∉ s.clients := h.going_client List.mem_cons_self
  have hother : ∀ {r}, s.Held [] r → (s.resources r).client ≠ c ∧
      (s.resources r).object ≠ .client c := by
    intro r hr
    constructor
    · rintro rfl
      have hstored := h.stored hr
      rw [hnone] at hstored
      cases hstored
    · intro hobj
      have hlisted := h.listed hr
      rw [hobj, hlist] at hlisted
      exact List.not_mem_nil (hlisted trivial)
  have hstays : ∀ {b}, s.Stays [.client c] b → b ≠ .client c → s.There b := by
    rintro b (ht | hg) hne
    · exact ht
    · exact absurd (List.mem_singleton.mp hg) hne
  have hrests : ∀ {b}, s.There b → s.Rests [.client c] b := by
    intro b ht
    refine ⟨ht, ?_⟩
    rw [List.mem_singleton]
    rintro rfl
    exact hc ht
  constructor
  case tame => exact h.tame
  case known => exact h.known
  case once =>
    have hconcat := h.once.concat (h.stays (.inr List.mem_cons_self))
    rwa [List.concat_eq_append] at hconcat
  case made_resource =>
    intro r hr
    rcases List.mem_append.mp hr with hr | hr
    · exact h.made_resource hr
    · cases List.mem_singleton.mp hr
  case made_object =>
    intro b hb
    rcases object_mem_append_object.mp hb with hb | rfl
    · exact h.made_object hb
    · exact hmade
  case stays =>
    rintro b (ht | hg) hf
    · have ht := there_freeClient.mp ht
      rcases object_mem_append_object.mp hf with hf | rfl
      · exact h.stays (.inl ht) hf
      · exact hc ht
    · exact List.not_mem_nil hg
  case out_live => exact fun hr => absurd hr List.not_mem_nil
  case live =>
    intro r hr
    have hr := held_freeObject.mp hr
    obtain ⟨hclient, hobj⟩ := h.live hr
    obtain ⟨hne, hne'⟩ := hother hr
    refine ⟨.inl (there_freeClient.mpr (hstays hclient ?_)),
      .inl (there_freeClient.mpr (hstays hobj hne'))⟩
    rw [Ne, Bound.client.injEq]
    exact hne
  case gone =>
    intro r hf hkept
    rcases List.mem_append.mp hf with hf | hf
    · exact h.gone hf ⟨hrests (there_freeClient.mp hkept.1.1),
        hrests (there_freeClient.mp hkept.2.1)⟩
    · cases List.mem_singleton.mp hf
  case entry =>
    intro c i r he
    obtain ⟨hheld, hclient, hid⟩ := h.entry he
    exact ⟨held_freeObject.mpr hheld, hclient, hid⟩
  case stored => exact fun hr => h.stored (held_freeObject.mp hr)
  case nodup => exact h.nodup
  case mem =>
    intro b r hr
    obtain ⟨hheld, hobj, hl⟩ := h.mem hr
    exact ⟨held_freeObject.mpr hheld, hobj, hl⟩
  case listed => exact fun hr hl => h.listed (held_freeObject.mp hr) hl
  case single => exact h.single
  case core =>
    intro c k hk
    obtain ⟨hheld, hobj, hclient⟩ := h.core hk
    exact ⟨held_freeObject.mpr hheld, hobj, hclient⟩
  case core_rests => exact List.not_mem_nil
  case going_client => exact fun hg => absurd hg List.not_mem_nil
  case clients_nodup => exact h.clients_nodup
  case clients_lt => exact h.clients_lt
  case globals_nodup => exact h.globals_nodup
  case global =>
    intro b hb
    obtain ⟨hrest, hglobal⟩ := h.global hb
    exact ⟨⟨there_freeClient.mpr hrest.1, List.not_mem_nil⟩, hglobal⟩
  case isPublic =>
    exact fun hb hglobal hinit => h.isPublic (hrests (there_freeClient.mp hb.1)) hglobal hinit
  case leaving_nodup => exact h.leaving_nodup
  case leaving =>
    intro b hb
    obtain ⟨hf, hg, hremoves⟩ := h.leaving hb
    refine ⟨fun hf' => ?_, List.not_mem_nil, hremoves⟩
    rcases object_mem_append_object.mp hf' with hf' | rfl
    · exact hf hf'
    · exact hremoves
  case nodeFree => exact h.nodeFree
  case clientNode =>
    intro n
    rw [object_mem_append_object, object_mem_append_object, or_iff_left Bound.noConfusion,
      or_iff_left Bound.noConfusion]
    exact h.clientNode

theorem HeldWith.destroyEntry (h : s.HeldWith [.client c] []) (i : Nat) :
    (s.destroyEntry c i).HeldWith [.client c] [] ∧ Fewer s (s.destroyEntry c i) ∧
      (s.destroyEntry c i).entry c i = none := by
  unfold Bindings.destroyEntry
  split
  · next hi => exact ⟨h, Fewer.refl s, hi⟩
  · next r hi =>
    obtain ⟨hr, hc, -⟩ := h.entry hi
    obtain ⟨h', hfewer, hfreed⟩ := h.resourceDestroy (by simp) hr fun _ hkept =>
      hkept.1.2 (by rw [hc]; exact List.mem_cons_self)
    refine ⟨h', hfewer, ?_⟩
    cases he : (s.resourceDestroy r).entry c i with
    | none => rfl
    | some r' =>
      cases Option.some.inj ((hfewer.entry he).symm.trans hi)
      exact absurd hfreed (h'.entry he).1.1.2

/-- All items of the table of a client are destroyed, one after the other. -/
theorem HeldWith.destroyEntries (h : s.HeldWith [.client c] []) (k : Nat) :
    ((List.range k).foldl (Bindings.destroyEntry c) s).HeldWith [.client c] [] ∧
      Fewer s ((List.range k).foldl (Bindings.destroyEntry c) s) ∧
      ∀ i < k, ((List.range k).foldl (Bindings.destroyEntry c) s).entry c i = none := by
  induction k with
  | zero => exact ⟨h, Fewer.refl s, fun i hi => absurd hi (Nat.not_lt_zero i)⟩
  | succ k ih =>
    obtain ⟨h', hfewer, hnone⟩ := ih
    obtain ⟨h'', hfewer', hk⟩ := h'.destroyEntry k
    rw [List.range_succ, List.foldl_append]
    refine ⟨h'', hfewer.trans hfewer', fun i hi => ?_⟩
    rcases Nat.lt_or_eq_of_le (Nat.le_of_lt_succ hi) with hi | rfl
    · exact hfewer'.entry_none (hnone i hi)
    · exact hk

/-- All that a client has, and all that is bound to it, is destroyed before it is freed. -/
theorem HeldWith.endClient (h : s.HeldWith [.client c] []) (hmade : c < s.nClients) :
    let s1 := (s.resourceList (.client c)).foldl Bindings.resourceDestroy s
    let s2 := (List.range (s1.objects c).length).foldl (Bindings.destroyEntry c) s1
    (s2.free (.object (.client c))).HeldWith [] [] ∧ Fewer s s2 := by
  intro s1 s2
  obtain ⟨h1, hfewer1, hlist⟩ :
      s1.HeldWith [.client c] [] ∧ Fewer s s1 ∧ s1.resourceList (.client c) = [] :=
    h.destroyAll _ List.mem_cons_self (fun n => Bound.noConfusion) rfl
  obtain ⟨h2, hfewer2, hnone⟩ :
      s2.HeldWith [.client c] [] ∧ Fewer s1 s2 ∧ ∀ i < (s1.objects c).length, s2.entry c i = none :=
    h1.destroyEntries _
  have hfewer := hfewer1.trans hfewer2
  rw [free_eq (h2.stays (.inr List.mem_cons_self))]
  refine ⟨h2.freeClient ((hfewer.made (.client c)).mpr hmade) ?_ (hfewer2.list_nil hlist), hfewer⟩
  intro i
  by_cases hi : i < (s1.objects c).length
  · exact hnone i hi
  · refine hfewer2.entry_none ?_
    rw [Bindings.entry, List.getElem?_eq_none (Nat.le_of_not_lt hi)]
    rfl

/-- What holds between any two events: nothing is being destroyed. -/
structure Inv (s : Bindings) : Prop where
  held : s.HeldWith [] []
  core_some : ∀ {c}, c ∈ s.clients → s.coreResource c ≠ none

theorem Fewer.core_some {s' : Bindings} (h : Fewer s s')
    (hcore : ∀ {c}, c ∈ s.clients → s.coreResource c ≠ none) :
    ∀ {c}, c ∈ s'.clients → s'.coreResource c ≠ none := by
  intro c hc
  rw [h.clients] at hc
  rw [h.core hc]
  exact hcore hc

/-- `pinos_client_destroy`. -/
theorem Inv.clientDestroy (h : s.Inv) (hc : c ∈ s.clients) : (s.clientDestroy c).Inv := by
  have hfree : .object (.client c) ∉ s.freed := h.held.stays (.inl hc)
  have hglobal : .client c ∈ s.globals :=
    h.held.isPublic ⟨hc, List.not_mem_nil⟩ trivial fun n hn => Bound.noConfusion hn
  have hstart : (({ s with clients := s.clients.erase c } : Bindings).globalDestroy (.client c)) =
      { s with clients := s.clients.erase c, globals := s.globals.erase (.client c) } := by
    unfold Bindings.globalDestroy
    rw [if_pos hglobal]
    show ({ ({ s with clients := s.clients.erase c } : Bindings).touch _ with
      globals := s.globals.erase (.client c) } : Bindings) = _
    rw [touch_eq (by exact h.held.notify_uses h.held.registry_not_freed)]
  obtain ⟨hheld, hfewer⟩ := (h.held.beginClient hc).endClient (h.held.clients_lt hc)
  unfold Bindings.clientDestroy
  rw [touch_eq (by simpa using hfree)]
  simp only [hstart]
  exact ⟨hheld, hfewer.core_some fun hc' => h.core_some (List.mem_of_mem_erase hc')⟩

end Bindings
end Pinos
