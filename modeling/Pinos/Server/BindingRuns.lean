import Pinos.Server.BindingAdds

/-
What clients ask for, what the loops remove, and runs.
-/

namespace Pinos
namespace Bindings

variable {s : Bindings} {b : Bound} {c r n : Nat} {id : UInt32}

/-! ## Requests -/

theorem enlist_eq (huses : ∀ x ∈ s.listUses b, x ∉ s.freed) :
    s.enlist b r = s.setList b (s.resourceList b ++ [r]) := by
  unfold enlist
  rw [touch_eq huses]

theorem resourceNew_eq (hc : .object (.client c) ∉ s.freed) (hid : s.Unused c id) :
    s.resourceNew c id b =
      (({ s with
        resources := Function.update s.resources s.nResources ⟨c, id, b⟩
        nResources := s.nResources + 1 } : Bindings).setObjects c
          (putAt (s.objects c) id.toNat (some s.nResources)), some s.nResources) := by
  unfold resourceNew
  rw [touch_eq (by simpa using hc)]
  simp only [if_neg hid.1]
  rw [if_neg (Nat.not_lt.mpr hid.2.1)]

theorem HeldWith.bindFunc_eq (h : s.HeldWith [] []) (hc : c ∈ s.clients) (hid : s.Unused c id)
    (hb : s.There b) (hg : b.HasGlobal) : s.bindFunc c id b = s.added c id b := by
  have huses := h.listUses_not_freed (h.stays (.inl hb))
  unfold bindFunc
  rw [resourceNew_eq (h.stays (.inl hc)) hid]
  cases b with
  | core =>
    show setCore (enlist _ .core _) c _ = _
    rw [enlist_eq (by exact huses)]
    rfl
  | module m =>
    refine Eq.trans (touch_eq fun x hx => ?_) rfl
    rw [List.mem_singleton.mp hx]
    exact h.stays (.inl hb)
  | registry | clientNode n => exact hg.elim
  | _ => exact Eq.trans (enlist_eq (by exact huses)) rfl

theorem HeldWith.getRegistry_eq (h : s.HeldWith [] []) (hc : c ∈ s.clients)
    (hid : s.Unused c id) : s.getRegistry c id = s.added c id .registry := by
  have huses := h.listUses_not_freed h.registry_not_freed
  unfold getRegistry
  rw [resourceNew_eq (h.stays (.inl hc)) hid]
  exact Eq.trans (enlist_eq (by exact huses)) rfl

theorem HeldWith.clientNodeNew_eq (h : s.HeldWith [] []) (hc : c ∈ s.clients)
    (hid : s.Unused c id) :
    s.clientNodeNew c id = ((s.newNode true).added c id (.clientNode s.nNodes), true) := by
  have h' := h.newNode true
  have huses := h'.listUses_not_freed h.freed_lt_nodes.2
  have hnew := resourceNew_eq (b := .clientNode s.nNodes) (s := { s with
    nNodes := s.nNodes + 1
    asyncInit := Function.update s.asyncInit s.nNodes true }) (h'.stays (.inl hc)) hid
  unfold clientNodeNew nodeNew
  simp only [if_true]
  rw [hnew]
  refine Prod.ext ?_ rfl
  simp only
  rw [enlist_eq (by exact huses)]
  rfl

/-- A request for a global that is not there marks the id as used. -/
theorem HeldWith.clearEntry (h : s.HeldWith [] []) (hid : s.Unused c id) :
    (s.clearEntry c id).HeldWith [] [] := by
  have hentry : ∀ c' i, (s.clearEntry c id).entry c' i = s.entry c' i := by
    intro c' i
    unfold Bindings.clearEntry
    rw [if_neg (Nat.not_lt.mpr hid.2.1)]
    unfold Bindings.entry setObjects
    by_cases hc : c' = c
    · subst hc
      simp only [Function.update_self]
      rw [getElem?_putAt hid.2.1]
      split
      · next hi => rw [hi]; exact hid.2.2.symm
      · rfl
    · simp only [Function.update_of_ne hc]
  have heq : s.clearEntry c id = { s with objects := (s.clearEntry c id).objects } := by
    unfold Bindings.clearEntry
    split <;> rfl
  rw [heq] at hentry ⊢
  constructor
  case tame => exact h.tame
  case once => exact h.once
  case known => exact h.known
  case made_resource => exact h.made_resource
  case made_object => exact h.made_object
  case stays => exact h.stays
  case out_live => exact h.out_live
  case live => exact h.live
  case gone => exact h.gone
  case entry => exact fun he => h.entry ((hentry _ _).symm.trans he)
  case stored => exact fun hr => (hentry _ _).trans (h.stored hr)
  case nodup => exact h.nodup
  case mem => exact h.mem
  case listed => exact h.listed
  case single => exact h.single
  case core => exact h.core
  case core_rests => exact h.core_rests
  case going_client => exact h.going_client
  case clients_nodup => exact h.clients_nodup
  case clients_lt => exact h.clients_lt
  case globals_nodup => exact h.globals_nodup
  case global => exact h.global
  case isPublic => exact h.isPublic
  case leaving_nodup => exact h.leaving_nodup
  case leaving => exact h.leaving
  case nodeFree => exact h.nodeFree
  case clientNode => exact h.clientNode

/-! ## What each event keeps -/

theorem Inv.clientStays (h : s.Inv) (hc : c ∈ s.clients) : .object (.client c) ∉ s.freed :=
  h.held.stays (.inl hc)

theorem Inv.notifyCore_eq (h : s.Inv) (hc : c ∈ s.clients) : s.notifyCore c = s :=
  h.held.notifyCore_eq (h.clientStays hc) (h.core_some hc)

theorem Inv.add (h : s.Inv) (hc : c ∈ s.clients) (hid : s.Unused c id) (hb : s.There b)
    (hcn : ∀ n, b = .clientNode n → s.resourceList b = []) : (s.added c id b).Inv := by
  refine ⟨h.held.add hc hid hb hcn, fun {c'} hc' => ?_⟩
  show (if b = .core then Function.update s.coreResource c (some s.nResources)
    else s.coreResource) c' ≠ none
  split
  · by_cases heq : c' = c
    · rw [heq, Function.update_self]
      exact Option.some_ne_none _
    · rw [Function.update_of_ne heq]
      exact h.core_some hc'
  · exact h.core_some hc'

theorem Inv.registryBind (h : s.Inv) (hc : c ∈ s.clients) (hid : s.Unused c id) (b : Bound)
    (seen : Bool) : (s.registryBind c b seen id).Inv := by
  unfold Bindings.registryBind
  split
  · next hb =>
    obtain ⟨hrest, hg, -⟩ := h.held.global hb.1
    rw [h.held.bindFunc_eq hc hid hrest.1 hg]
    refine h.add hc hid hrest.1 ?_
    rintro n rfl
    exact hg.elim
  · have h' : (s.clearEntry c id).Inv := by
      refine ⟨h.held.clearEntry hid, fun {c'} hc' => ?_⟩
      unfold Bindings.clearEntry at hc' ⊢
      split at hc'
      · next hlt => simpa [hlt] using h.core_some hc'
      · next hlt =>
        rw [if_neg hlt]
        exact h.core_some hc'
    have hclients : c ∈ (s.clearEntry c id).clients := by
      unfold Bindings.clearEntry
      split <;> exact hc
    rw [h'.notifyCore_eq hclients]
    exact h'

theorem Inv.createClientNode (h : s.Inv) (hc : c ∈ s.clients) (hid : s.Unused c id)
    (allowed : Bool) : (s.createClientNode c allowed id).Inv := by
  unfold Bindings.createClientNode
  split
  · rw [h.held.clientNodeNew_eq hc hid]
    have h' : (s.newNode true).Inv := ⟨h.held.newNode true, h.core_some⟩
    have hthere : (s.newNode true).There (.clientNode s.nNodes) := by
      refine ⟨Function.update_self _ _ _, Nat.lt_succ_self _, fun hmem => ?_,
        h.held.freed_lt_nodes.1⟩
      exact Nat.lt_irrefl _ (h.held.leaving hmem).2.2
    refine h'.add hc hid hthere ?_
    rintro n hn
    refine List.eq_nil_iff_forall_not_mem.mpr fun r hr => ?_
    obtain ⟨hheld, hobj, -⟩ := h.held.mem hr
    have hk := (h.held.known hheld.1.1).2
    rw [hobj] at hk
    exact Nat.lt_irrefl _ hk
  · rw [h.notifyCore_eq hc]
    exact h

theorem Inv.clientNodeDestroy (h : s.Inv) (hr : s.Held [] r)
    (hobj : (s.resources r).object = .clientNode n) : (s.clientNodeDestroy n).Inv := by
  unfold Bindings.clientNodeDestroy
  rw [h.held.list_clientNode hr hobj]
  obtain ⟨hheld, hfewer, -⟩ := h.held.resourceDestroy (fun b hb => absurd hb List.not_mem_nil) hr
    fun hne => absurd hobj (hne n)
  exact ⟨hheld, hfewer.core_some h.core_some⟩

theorem Inv.request (h : s.Inv) {on : UInt32} {req : ClientRequest}
    (he : s.Orderly (.request c on req)) : (s.request c on req).Inv := by
  unfold Bindings.request
  split
  · exact h
  · next r hr =>
    obtain ⟨hheld, -, -⟩ := h.held.entry hr
    have htouch : s.touch [.resource r, .object (s.resources r).object] = s :=
      touch_eq (by simpa using ⟨hheld.1.2, h.held.stays (h.held.live hheld).2⟩)
    simp only [htouch]
    split
    · rw [h.held.getRegistry_eq he.1 he.2]
      exact h.add he.1 he.2 trivial fun n hn => Bound.noConfusion hn
    · exact h.createClientNode he.1 he.2 _
    · exact h.registryBind he.1 he.2 _ _
    · next n hobj => exact h.clientNodeDestroy hheld hobj
    · exact h

theorem HeldWith.initComplete_eq (h : s.HeldWith [] []) (hn : .object (.node n) ∉ s.freed) :
    s.initComplete n = s.initialized n := by
  have hclientNode : .object (.clientNode n) ∉ s.freed := fun hf => hn (h.clientNode hf)
  have hglobal : ({ s with asyncInit := Function.update s.asyncInit n false } :
      Bindings).addGlobal (.node n) = s.initialized n :=
    touch_eq (h.notify_uses h.registry_not_freed)
  unfold Bindings.initComplete
  rw [touch_eq (by simpa using hn), h.notifyAll_eq hclientNode]
  simp only [hglobal]
  exact touch_eq (h.notify_uses hn)

theorem Inv.initComplete (h : s.Inv) (hn : s.There (.node n)) (hinit : s.asyncInit n = true) :
    (s.initComplete n).Inv := by
  rw [h.held.initComplete_eq hn.2.2]
  exact ⟨h.held.initialized hn hinit, h.core_some⟩

/-- Whether a node waits for its initialization does not matter when it is completed. -/
theorem initComplete_asyncInit (s : Bindings) (n : Nat) (v w : Bool) :
    ({ s with asyncInit := Function.update s.asyncInit n v } : Bindings).initComplete n =
      ({ s with asyncInit := Function.update s.asyncInit n w } : Bindings).initComplete n := by
  simp [Bindings.initComplete, addGlobal, notifyAll, listUses, touch]

theorem HeldWith.nodeNew_eq (h : s.HeldWith [] []) :
    s.nodeNew false = (s.newNode false).initialized s.nNodes := by
  have hfree : Function.update s.nodeFree s.nNodes false = s.nodeFree := by
    refine Function.update_eq_self_iff.mpr ?_
    cases hf : s.nodeFree s.nNodes with
    | false => rfl
    | true => exact absurd (h.nodeFree hf) (Nat.lt_irrefl _)
  rw [← (h.newNode false).initComplete_eq h.freed_lt_nodes.1]
  unfold Bindings.nodeNew Bindings.newNode
  rw [hfree]
  exact initComplete_asyncInit { s with nNodes := s.nNodes + 1 } s.nNodes false true

theorem Inv.nodeNew (h : s.Inv) : (s.nodeNew false).Inv := by
  rw [h.held.nodeNew_eq]
  refine ⟨(h.held.newNode false).initialized ⟨Nat.lt_succ_self _, fun hmem => ?_,
    h.held.freed_lt_nodes.1⟩ (Function.update_self _ _ _), h.core_some⟩
  exact Nat.lt_irrefl _ (h.held.leaving hmem).2.2

theorem Inv.linkNew (h : s.Inv) : s.linkNew.Inv := by
  have heq : s.linkNew =
      { s with nLinks := s.nLinks + 1, globals := s.globals ++ [.link s.nLinks] } :=
    touch_eq (h.held.notify_uses h.held.registry_not_freed)
  have hfree : .object (.link s.nLinks) ∉ s.freed := fun hf =>
    Nat.lt_irrefl _ (h.held.made_object hf)
  have hleaving : .link s.nLinks ∉ s.leaving := fun hmem =>
    Nat.lt_irrefl _ (h.held.leaving hmem).2.2
  rw [heq]
  refine ⟨h.held.new hfree trivial (fun n => Bound.noConfusion) (Nat.lt_irrefl _) ?_
    (Nat.le_refl _) (Nat.le_succ _) (Nat.le_refl _) h.held.clients_nodup
    (fun c hc => h.held.clients_lt hc) (fun _ _ => rfl) rfl, h.core_some⟩
  intro b'
  cases b' with
  | link l =>
    show l < s.nLinks + 1 ∧ _ ↔ (l < s.nLinks ∧ _) ∨ _
    rw [Nat.lt_succ_iff_lt_or_eq, Bound.link.injEq]
    constructor
    · rintro ⟨hl | hl, hrest⟩
      · exact .inl ⟨hl, hrest⟩
      · exact .inr hl
    · rintro (⟨hl, hrest⟩ | rfl)
      · exact ⟨.inl hl, hrest⟩
      · exact ⟨.inr rfl, hleaving, hfree⟩
  | _ => exact (or_iff_left Bound.noConfusion).symm

theorem Inv.moduleNew (h : s.Inv) : s.moduleNew.Inv := by
  have heq : s.moduleNew =
      { s with nModules := s.nModules + 1, globals := s.globals ++ [.module s.nModules] } :=
    touch_eq (h.held.notify_uses h.held.registry_not_freed)
  rw [heq]
  refine ⟨h.held.new (fun hf => h.held.made_object hf) trivial (fun n => Bound.noConfusion)
    (Nat.lt_irrefl _) ?_ (Nat.le_refl _) (Nat.le_refl _) (Nat.le_succ _) h.held.clients_nodup
    (fun c hc => h.held.clients_lt hc) (fun _ _ => rfl) rfl, h.core_some⟩
  intro b'
  cases b' with
  | module m =>
    show m < s.nModules + 1 ↔ m < s.nModules ∨ _
    rw [Nat.lt_succ_iff_lt_or_eq, Bound.module.injEq]
  | _ => exact (or_iff_left Bound.noConfusion).symm

/-- A client without resources. -/
def newClient (s : Bindings) : Bindings :=
  { s with
    nClients := s.nClients + 1
    clients := s.clients ++ [s.nClients]
    objects := Function.update s.objects s.nClients []
    coreResource := Function.update s.coreResource s.nClients none
    globals := s.globals ++ [.client s.nClients] }

theorem HeldWith.newClient (h : s.HeldWith [] []) : s.newClient.HeldWith [] [] := by
  have hnew : s.nClients ∉ s.clients := fun hmem => Nat.lt_irrefl _ (h.clients_lt hmem)
  have hother : ∀ {r}, s.Held [] r → (s.resources r).client ≠ s.nClients :=
    fun hr => Nat.ne_of_lt (h.known hr.1.1).1
  have hcore : Function.update s.coreResource s.nClients none = s.coreResource := by
    refine Function.update_eq_self_iff.mpr ?_
    cases hk : s.coreResource s.nClients with
    | none => rfl
    | some k => exact absurd (h.core hk).2.2 (hother (h.core hk).1)
  refine h.new (fun hf => Nat.lt_irrefl _ (h.made_object hf)) trivial (fun n => Bound.noConfusion)
    (Nat.lt_irrefl _) ?_ (Nat.le_succ _) (Nat.le_refl _) (Nat.le_refl _) ?_ ?_ ?_ hcore
  · intro b'
    cases b' with
    | client c =>
      show c ∈ s.clients ++ [s.nClients] ↔ c ∈ s.clients ∨ _
      rw [List.mem_append, List.mem_singleton, Bound.client.injEq]
    | _ => exact (or_iff_left Bound.noConfusion).symm
  · have hconcat := h.clients_nodup.concat hnew
    rwa [List.concat_eq_append] at hconcat
  · intro c hc
    rcases List.mem_append.mp hc with hc | hc
    · exact Nat.lt_succ_of_lt (h.clients_lt hc)
    · rw [List.mem_singleton.mp hc]
      exact Nat.lt_succ_self _
  · intro c i
    by_cases hc : c = s.nClients
    · subst hc
      rw [Function.update_self]
      cases he : s.entry s.nClients i with
      | none => rfl
      | some r => exact absurd (h.entry he).2.1 (hother (h.entry he).1)
    · rw [Function.update_of_ne hc]
      rfl

/-- A client that connects is bound to the core. -/
theorem Inv.connect (h : s.Inv) : s.connect.Inv := by
  have h' := h.held.newClient
  have hc : s.nClients ∈ s.newClient.clients := List.mem_append_right _ List.mem_cons_self
  have hid : s.newClient.Unused s.nClients 0 := by
    have hobjects : s.newClient.objects s.nClients = [] := Function.update_self _ _ _
    refine ⟨by decide, ?_, ?_⟩
    · exact Nat.zero_le _
    · unfold entry
      rw [hobjects]
      rfl
  have heq : s.connect = s.newClient.bindFunc s.nClients 0 .core := by
    unfold Bindings.connect
    have hglobal : ({ s with
        nClients := s.nClients + 1
        clients := s.clients ++ [s.nClients]
        objects := Function.update s.objects s.nClients []
        coreResource := Function.update s.coreResource s.nClients none } :
          Bindings).addGlobal (.client s.nClients) = s.newClient :=
      touch_eq (h.held.notify_uses h.held.registry_not_freed)
    simp only [hglobal]
  rw [heq, h'.bindFunc_eq (b := .core) hc hid trivial trivial]
  refine ⟨h'.add hc hid trivial fun n hn => Bound.noConfusion hn, fun {c} hc' => ?_⟩
  show Function.update (Function.update s.coreResource s.nClients none) s.nClients
    (some s.nResources) c ≠ none
  by_cases heq : c = s.nClients
  · rw [heq, Function.update_self]
    exact Option.some_ne_none _
  · rw [Function.update_of_ne heq, Function.update_of_ne heq]
    refine h.core_some ?_
    rcases List.mem_append.mp hc' with hc' | hc'
    · exact hc'
    · exact absurd (List.mem_singleton.mp hc') heq

/-! ## What leaves -/

theorem HeldWith.not_there_leaving (h : s.HeldWith [] []) (hb : b ∈ s.leaving) : ¬ s.There b := by
  have hremoves := (h.leaving hb).2.2
  intro ht
  cases b with
  | node n | link n => exact ht.2.1 hb
  | _ => exact hremoves

theorem Inv.linkDestroy {l : Nat} (h : s.Inv) (hl : s.There (.link l)) : (s.linkDestroy l).Inv := by
  have hglobal : .link l ∈ s.globals :=
    h.held.isPublic ⟨hl, List.not_mem_nil⟩ trivial fun n => Bound.noConfusion
  obtain ⟨hheld, hfewer, -⟩ := h.held.objectDestroy hl hl.1 List.not_mem_nil
    (iff_of_true rfl hglobal) fun n => Bound.noConfusion
  exact ⟨hheld, hfewer.core_some h.core_some⟩

/-- No client node has a node that the daemon destroys. -/
theorem Inv.nodeDestroy (h : s.Inv) (hn : s.There (.node n)) (hfree : s.nodeFree n = false) :
    (s.nodeDestroy n).Inv := by
  have hnil : s.resourceList (.clientNode n) = [] := by
    refine List.eq_nil_iff_forall_not_mem.mpr fun r hr => ?_
    obtain ⟨hheld, hobj, -⟩ := h.held.mem hr
    rcases (h.held.live hheld).2 with ht | hg
    · rw [hobj] at ht
      exact Bool.false_ne_true (hfree.symm.trans ht.1)
    · exact List.not_mem_nil hg
  obtain ⟨hheld, hfewer, -⟩ := h.held.nodeDestroy hn List.not_mem_nil hnil
  exact ⟨hheld, hfewer.core_some h.core_some⟩

/-- What is freed with a node or a link. -/
def freedWith (s : Bindings) (b : Bound) : List Allocated :=
  match b with
  | .node n => if s.nodeFree n then [.object (.clientNode n), .object b] else [.object b]
  | _ => [.object b]

theorem mem_freedWith {x : Allocated} : x ∈ s.freedWith b ↔
    x = .object b ∨ ∃ n, b = .node n ∧ s.nodeFree n = true ∧ x = .object (.clientNode n) := by
  unfold freedWith
  cases b with
  | node n =>
    by_cases hf : s.nodeFree n = true
    · simp [hf, or_comm]
    · simp [hf]
  | _ => simp

theorem object_mem_freedWith {b' : Bound} : .object b' ∈ s.freedWith b ↔
    b' = b ∨ ∃ n, b = .node n ∧ s.nodeFree n = true ∧ b' = .clientNode n := by
  simp [mem_freedWith]

def left (s : Bindings) (b : Bound) : Bindings :=
  { s with leaving := s.leaving.erase b, freed := s.freed ++ s.freedWith b }

theorem HeldWith.remove_eq (h : s.HeldWith [] []) (hb : b ∈ s.leaving) : s.remove b = s.left b := by
  obtain ⟨hfree, -, hremoves⟩ := h.leaving hb
  have hnotify : ({ s with leaving := s.leaving.erase b } : Bindings).notifyAll b =
      { s with leaving := s.leaving.erase b } := touch_eq (h.notify_uses hfree)
  unfold Bindings.remove left freedWith
  simp only [hnotify]
  cases b with
  | node n =>
    by_cases hf : s.nodeFree n = true
    · have hcn : .object (.clientNode n) ∉ s.freed := fun hmem => hfree (h.clientNode hmem)
      have hfirst : ({ s with leaving := s.leaving.erase (.node n) } : Bindings).free
          (.object (.clientNode n)) = { s with
            leaving := s.leaving.erase (.node n)
            freed := s.freed ++ [.object (.clientNode n)] } := free_eq hcn
      simp only [hf, if_true, hfirst]
      rw [free_eq (by simpa using hfree)]
      simp
    · simp only [hf]
      exact free_eq (by exact hfree)
  | link l => exact free_eq (by exact hfree)
  | _ => exact hremoves.elim

theorem there_left (hb : b ∈ s.leaving) {b' : Bound} :
    (s.left b).There b' ↔ s.There b' := by
  have hother : ∀ {b'}, b' ≠ b → (b' ∉ s.leaving.erase b ↔ b' ∉ s.leaving) := fun hne =>
    not_congr (List.mem_erase_of_ne hne)
  have hfreed : ∀ {b'}, b' ≠ b → (∀ n, b' ≠ .clientNode n) →
      (.object b' ∉ (s.left b).freed ↔ .object b' ∉ s.freed) := by
    intro b' hne hcn
    show .object b' ∉ s.freed ++ s.freedWith b ↔ _
    rw [List.mem_append, object_mem_freedWith, or_iff_left]
    rintro (heq | ⟨n, -, -, heq⟩)
    · exact hne heq
    · exact hcn n heq
  have hleft : .object b ∈ (s.left b).freed :=
    List.mem_append_right _ (mem_freedWith.mpr (.inl rfl))
  have hnode : ∀ n, (Bound.node n ∉ s.leaving.erase b ∧ .object (.node n) ∉ (s.left b).freed) ↔
      Bound.node n ∉ s.leaving ∧ .object (.node n) ∉ s.freed := by
    intro n
    by_cases heq : .node n = b
    · subst heq
      exact iff_of_false (fun hand => hand.2 hleft) fun hand => hand.1 hb
    · rw [hother heq, hfreed heq fun _ => Bound.noConfusion]
  cases b' with
  | node n => exact and_congr_right fun _ => hnode n
  | clientNode n => exact and_congr_right fun _ => and_congr_right fun _ => hnode n
  | link l =>
    refine and_congr_right fun _ => ?_
    show (_ ∉ s.leaving.erase b ∧ _) ↔ _
    by_cases heq : .link l = b
    · subst heq
      exact iff_of_false (fun hand => hand.2 hleft) fun hand => hand.1 hb
    · rw [hother heq, hfreed heq fun _ => Bound.noConfusion]
  | _ => exact Iff.rfl

/-- Nothing that is there is freed with what leaves. -/
theorem HeldWith.freedWith_not_there (h : s.HeldWith [] []) (hb : b ∈ s.leaving) {b' : Bound}
    (hmem : .object b' ∈ s.freedWith b) : ¬ s.There b' ∧ .object b' ∉ s.freed ∧ s.Made b' := by
  obtain ⟨hfree, -, hremoves⟩ := h.leaving hb
  rcases object_mem_freedWith.mp hmem with rfl | ⟨n, rfl, -, rfl⟩
  · refine ⟨h.not_there_leaving hb, hfree, ?_⟩
    cases b' with
    | node n | link n => exact hremoves
    | _ => exact hremoves.elim
  · exact ⟨fun ht => ht.2.2.1 hb, fun hf => hfree (h.clientNode hf), hremoves⟩

theorem freedWith_nodup : (s.freedWith b).Nodup := by
  unfold freedWith
  split
  · split <;> simp
  · simp

theorem held_left {r' : Nat} : (s.left b).Held [] r' ↔ s.Held [] r' := by
  have hmem : .resource r' ∈ s.freed ++ s.freedWith b ↔ .resource r' ∈ s.freed := by
    rw [List.mem_append, or_iff_left]
    simp [mem_freedWith]
  exact and_congr_left fun _ => and_congr_right fun _ => not_congr hmem

theorem HeldWith.left (h : s.HeldWith [] []) (hb : b ∈ s.leaving) :
    (s.left b).HeldWith [] [] := by
  have hstays : ∀ {b'}, (s.left b).Stays [] b' ↔ s.Stays [] b' :=
    or_congr (there_left hb) Iff.rfl
  have hrests : ∀ {b'}, (s.left b).Rests [] b' ↔ s.Rests [] b' :=
    and_congr (there_left hb) Iff.rfl
  constructor
  case tame => exact h.tame
  case once =>
    refine List.nodup_append.mpr ⟨h.once, freedWith_nodup, ?_⟩
    rintro x hx y hy rfl
    rcases mem_freedWith.mp hy with rfl | ⟨n, -, -, rfl⟩
    · exact (h.freedWith_not_there hb hy).2.1 hx
    · exact (h.freedWith_not_there hb hy).2.1 hx
  case known => exact h.known
  case made_resource =>
    intro r hr
    rcases List.mem_append.mp hr with hr | hr
    · exact h.made_resource hr
    · simp [mem_freedWith] at hr
  case made_object =>
    intro b' hb'
    rcases List.mem_append.mp hb' with hb' | hb'
    · exact h.made_object hb'
    · exact (h.freedWith_not_there hb hb').2.2
  case stays =>
    intro b' hb' hf
    have hb' := hstays.mp hb'
    rcases List.mem_append.mp hf with hf | hf
    · exact h.stays hb' hf
    · exact (h.freedWith_not_there hb hf).1 (hb'.resolve_right List.not_mem_nil)
  case out_live => exact fun hr => absurd hr List.not_mem_nil
  case live =>
    intro r hr
    obtain ⟨hclient, hobj⟩ := h.live (held_left.mp hr)
    exact ⟨hstays.mpr hclient, hstays.mpr hobj⟩
  case gone =>
    intro r hf hkept
    have hf : .resource r ∈ s.freed := by
      rcases List.mem_append.mp hf with hf | hf
      · exact hf
      · simp [mem_freedWith] at hf
    exact h.gone hf ⟨hrests.mp hkept.1, hrests.mp hkept.2⟩
  case entry =>
    intro c i r he
    obtain ⟨hheld, hrest⟩ := h.entry he
    exact ⟨held_left.mpr hheld, hrest⟩
  case stored => exact fun hr => h.stored (held_left.mp hr)
  case nodup => exact h.nodup
  case mem =>
    intro b' r hr
    obtain ⟨hheld, hrest⟩ := h.mem hr
    exact ⟨held_left.mpr hheld, hrest⟩
  case listed => exact fun hr hl => h.listed (held_left.mp hr) hl
  case single => exact h.single
  case core =>
    intro c k hk
    obtain ⟨hheld, hrest⟩ := h.core hk
    exact ⟨held_left.mpr hheld, hrest⟩
  case core_rests => exact h.core_rests
  case going_client => exact h.going_client
  case clients_nodup => exact h.clients_nodup
  case clients_lt => exact h.clients_lt
  case globals_nodup => exact h.globals_nodup
  case global =>
    intro b' hb'
    obtain ⟨hrest, hglobal⟩ := h.global hb'
    exact ⟨hrests.mpr hrest, hglobal⟩
  case isPublic => exact fun hb' => h.isPublic (hrests.mp hb')
  case leaving_nodup => exact h.leaving_nodup.erase b
  case leaving =>
    intro b' hb'
    obtain ⟨hne, hmem⟩ := h.leaving_nodup.mem_erase_iff.mp hb'
    obtain ⟨hfree, hgoing, hremoves⟩ := h.leaving hmem
    refine ⟨fun hf => ?_, hgoing, hremoves⟩
    rcases List.mem_append.mp hf with hf | hf
    · exact hfree hf
    · rcases object_mem_freedWith.mp hf with heq | ⟨n, -, -, rfl⟩
      · exact hne heq
      · exact hremoves
  case nodeFree => exact h.nodeFree
  case clientNode =>
    intro n hf
    rcases List.mem_append.mp hf with hf | hf
    · exact List.mem_append_left _ (h.clientNode hf)
    · refine List.mem_append_right _ ?_
      rcases object_mem_freedWith.mp hf with rfl | ⟨m, rfl, -, heq⟩
      · exact (h.leaving hb).2.2.elim
      · cases heq
        exact mem_freedWith.mpr (.inl rfl)

theorem Inv.remove (h : s.Inv) (hb : b ∈ s.leaving) : (s.remove b).Inv := by
  rw [h.held.remove_eq hb]
  exact ⟨h.held.left hb, h.core_some⟩

/-! ## Runs -/

theorem Inv.start : start.Inv := by
  refine ⟨?_, fun hc => absurd hc List.not_mem_nil⟩
  constructor
  case tame => rfl
  case once => exact List.nodup_nil
  case known => exact fun hr => absurd hr (Nat.not_lt_zero _)
  case made_resource => exact fun hr => absurd hr List.not_mem_nil
  case made_object => exact fun hb => absurd hb List.not_mem_nil
  case stays => exact fun _ => List.not_mem_nil
  case out_live => exact fun hr => absurd hr List.not_mem_nil
  case live => exact fun hr => absurd hr.1.1 (Nat.not_lt_zero _)
  case gone => exact fun hf => absurd hf List.not_mem_nil
  case entry =>
    intro c i r he
    cases he
  case stored => exact fun hr => absurd hr.1.1 (Nat.not_lt_zero _)
  case nodup => exact fun _ => List.nodup_nil
  case mem => exact fun hr => absurd hr List.not_mem_nil
  case listed => exact fun hr => absurd hr.1.1 (Nat.not_lt_zero _)
  case single => exact fun _ => Nat.zero_le _
  case core =>
    intro c r hr
    cases hr
  case core_rests => exact List.not_mem_nil
  case going_client => exact fun hg => absurd hg List.not_mem_nil
  case clients_nodup => exact List.nodup_nil
  case clients_lt => exact fun hc => absurd hc List.not_mem_nil
  case globals_nodup => exact List.nodup_singleton _
  case global =>
    intro b hb
    cases List.mem_singleton.mp hb
    exact ⟨⟨trivial, List.not_mem_nil⟩, trivial, fun n => Bound.noConfusion⟩
  case isPublic =>
    intro b hb hglobal _
    cases b with
    | core => exact List.mem_cons_self
    | registry | clientNode n => exact hglobal.elim
    | client c => exact absurd hb.1 List.not_mem_nil
    | module m => exact absurd hb.1 (Nat.not_lt_zero _)
    | node n | link n => exact absurd hb.1.1 (Nat.not_lt_zero _)
  case leaving_nodup => exact List.nodup_nil
  case leaving => exact fun hb => absurd hb List.not_mem_nil
  case nodeFree =>
    intro n hn
    cases hn
  case clientNode => exact fun hf => absurd hf List.not_mem_nil

theorem Inv.step (h : s.Inv) {e : BindingEvent} (he : s.Orderly e) : (s.step e).Inv := by
  cases e with
  | connect => exact h.connect
  | disconnect c => exact h.clientDestroy he
  | request c on req => exact h.request he
  | newNode => exact h.nodeNew
  | newLink => exact h.linkNew
  | newModule => exact h.moduleNew
  | initComplete n => exact h.initComplete he.1 he.2
  | nodeDestroy n => exact h.nodeDestroy he.1 he.2
  | linkDestroy l => exact h.linkDestroy he
  | changed b =>
    show (s.notifyAll b).Inv
    rw [h.held.notifyAll_eq he]
    exact h
  | removed b => exact h.remove he

theorem Inv.sound (h : s.Inv) : s.Sound := by
  have hlive : ∀ {r}, s.Live r → s.Held [] r := fun hr => ⟨hr, List.not_mem_nil⟩
  have hthere : ∀ {b}, s.Stays [] b → s.There b := fun hb => hb.resolve_right List.not_mem_nil
  constructor
  case tame => exact h.held.tame
  case once => exact h.held.once
  case there => exact fun b hb => h.held.stays (.inl hb)
  case live_iff =>
    intro r hr
    constructor
    · intro hf
      obtain ⟨hclient, hobj⟩ := h.held.live (hlive ⟨hr, hf⟩)
      exact ⟨hthere hclient, hthere hobj⟩
    · rintro ⟨hclient, hobj⟩ hf
      exact h.held.gone hf ⟨⟨hclient, List.not_mem_nil⟩, ⟨hobj, List.not_mem_nil⟩⟩
  case entry_iff =>
    intro c i r
    constructor
    · intro he
      obtain ⟨hheld, hrest⟩ := h.held.entry he
      exact ⟨hheld.1, hrest⟩
    · rintro ⟨hr, rfl, rfl⟩
      exact h.held.stored (hlive hr)
  case nodup => exact h.held.nodup
  case mem_iff =>
    intro b r
    constructor
    · intro hr
      obtain ⟨hheld, hrest⟩ := h.held.mem hr
      exact ⟨hheld.1, hrest⟩
    · rintro ⟨hr, rfl, hl⟩
      exact h.held.listed (hlive hr) hl

/-- A client that takes an id twice leaves a resource behind, which a later message reaches. -/
example : (Run.run Bindings.step start [.connect, .request 0 0 (.getRegistry 1),
    .request 0 0 (.getRegistry 1), .disconnect 0, .newModule]).wild = true := by decide

/-- So does a node that completes its initialization when it was destroyed. -/
example : (Run.run Bindings.step start [.connect, .request 0 0 (.createClientNode true 1),
    .disconnect 0, .initComplete 0, .removed (.node 0), .connect,
    .request 1 0 (.getRegistry 1), .request 1 1 (.bind (.node 0) true 2)]).wild = true := by decide

end Bindings
end Pinos
