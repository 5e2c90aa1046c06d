import Mathlib.Data.List.Nodup
import Pinos.Server.Bindings

/-
What resources, tables and lists say of each other while something is being destroyed.

`going` are the objects that are being destroyed and `out` the resources that were taken out
of their table and list and are not freed.  Each change that a function makes is one lemma.
-/

namespace Pinos

theorem getElem?_putAt {items : List (Option Nat)} {i : Nat} (hi : i ≤ items.length)
    (item : Option Nat) (j : Nat) :
    (putAt items i item)[j]?.join = if j = i then item else items[j]?.join := by
  unfold putAt
  split
  · next hlen =>
    rw [List.getElem?_append]
    split
    · next hj => rw [if_neg (by omega)]
    · next hj =>
      rcases Nat.eq_or_lt_of_le (Nat.le_of_not_lt hj) with hj' | hj'
      · simp [← hj', hlen]
      · rw [if_neg (by omega), List.getElem?_eq_none (by simp; omega),
          List.getElem?_eq_none (by omega)]
  · next hlen =>
    rw [List.getElem?_set]
    by_cases hj : i = j
    · simp [hj, show j < items.length by omega]
    · rw [if_neg hj, if_neg (Ne.symm hj)]

namespace Bindings

variable {s : Bindings} {going : List Bound} {out : List Nat} {b : Bound} {c r n : Nat}
variable {x : Allocated}

theorem touch_eq {uses : List Allocated} (h : ∀ x ∈ uses, x ∉ s.freed) : s.touch uses = s := by
  have hany : uses.any (· ∈ s.freed) = false := by simpa using h
  unfold touch
  rw [hany, Bool.or_false]

theorem free_eq (h : x ∉ s.freed) : s.free x = { s with freed := s.freed ++ [x] } := by
  unfold free
  rw [touch_eq (by simpa using h)]

/-! ## What holds in between -/

/-- What may be freed. -/
def Made (s : Bindings) : Bound → Prop
  | .core | .registry | .module _ => False
  | .client c => c < s.nClients
  | .node n | .clientNode n => n < s.nNodes
  | .link l => l < s.nLinks

/-- What was made. -/
def Known (s : Bindings) : Bound → Prop
  | .core | .registry => True
  | .module m => m < s.nModules
  | .client c => c < s.nClients
  | .node n | .clientNode n => n < s.nNodes
  | .link l => l < s.nLinks

/-- What the loops may have been asked to remove. -/
def Removes (s : Bindings) : Bound → Prop
  | .node n => n < s.nNodes
  | .link l => l < s.nLinks
  | _ => False

def Stays (s : Bindings) (going : List Bound) (b : Bound) : Prop := s.There b ∨ b ∈ going

def Rests (s : Bindings) (going : List Bound) (b : Bound) : Prop := s.There b ∧ b ∉ going

def Held (s : Bindings) (out : List Nat) (r : Nat) : Prop := s.Live r ∧ r ∉ out

/-- A resource is kept as long as its client and its object are not destroyed. -/
def Kept (s : Bindings) (going : List Bound) (r : Nat) : Prop :=
  s.Rests going (.client (s.resources r).client) ∧ s.Rests going (s.resources r).object

structure HeldWith (s : Bindings) (going : List Bound) (out : List Nat) : Prop where
  tame : s.wild = false
  once : s.freed.Nodup
  known : ∀ {r}, r < s.nResources →
    s.Known (.client (s.resources r).client) ∧ s.Known (s.resources r).object
  made_resource : ∀ {r}, .resource r ∈ s.freed → r < s.nResources
  made_object : ∀ {b}, .object b ∈ s.freed → s.Made b
  stays : ∀ {b}, s.Stays going b → .object b ∉ s.freed
  out_live : ∀ {r}, r ∈ out → s.Live r ∧ s.Stays going (.client (s.resources r).client)
  live : ∀ {r}, s.Held out r →
    s.Stays going (.client (s.resources r).client) ∧ s.Stays going (s.resources r).object
  gone : ∀ {r}, .resource r ∈ s.freed → ¬ s.Kept going r
  entry : ∀ {c i r}, s.entry c i = some r →
    s.Held out r ∧ (s.resources r).client = c ∧ (s.resources r).id.toNat = i
  stored : ∀ {r}, s.Held out r → s.entry (s.resources r).client (s.resources r).id.toNat = some r
  nodup : ∀ b, (s.resourceList b).Nodup
  mem : ∀ {b r}, r ∈ s.resourceList b → s.Held out r ∧ (s.resources r).object = b ∧ b.HasList
  listed : ∀ {r}, s.Held out r → (s.resources r).object.HasList →
    r ∈ s.resourceList (s.resources r).object
  single : ∀ n, (s.resourceList (.clientNode n)).length ≤ 1
  core : ∀ {c r}, s.coreResource c = some r →
    s.Held out r ∧ (s.resources r).object = .core ∧ (s.resources r).client = c
  core_rests : .core ∉ going
  going_client : ∀ {c}, .client c ∈ going → c ∉ s.clients
  clients_nodup : s.clients.Nodup
  clients_lt : ∀ {c}, c ∈ s.clients → c < s.nClients
  globals_nodup : s.globals.Nodup
  global : ∀ {b}, b ∈ s.globals →
    s.Rests going b ∧ b.HasGlobal ∧ ∀ n, b = .node n → s.asyncInit n = false
  isPublic : ∀ {b}, s.Rests going b → b.HasGlobal → (∀ n, b = .node n → s.asyncInit n = false) →
    b ∈ s.globals
  leaving_nodup : s.leaving.Nodup
  leaving : ∀ {b}, b ∈ s.leaving → .object b ∉ s.freed ∧ b ∉ going ∧ s.Removes b
  nodeFree : ∀ {n}, s.nodeFree n = true → n < s.nNodes
  clientNode : ∀ {n}, .object (.clientNode n) ∈ s.freed → .object (.node n) ∈ s.freed

namespace HeldWith

theorem client_not_freed (h : s.HeldWith going out) (hr : s.Held out r) :
    .object (.client (s.resources r).client) ∉ s.freed :=
  h.stays (h.live hr).1

theorem listUses_not_freed (h : s.HeldWith going out) (hb : .object b ∉ s.freed) :
    ∀ x ∈ s.listUses b, x ∉ s.freed := by
  intro x hx
  rcases List.mem_cons.mp hx with rfl | hx
  · exact hb
  · obtain ⟨r, hr, rfl⟩ := List.mem_map.mp hx
    exact (h.mem hr).1.1.2

/-- Messages to all that are bound to something reach nothing that was freed. -/
theorem notify_uses (h : s.HeldWith going out) (hb : .object b ∉ s.freed) :
    ∀ x ∈ s.listUses b ++
      (s.resourceList b).map fun r => .object (.client (s.resources r).client), x ∉ s.freed := by
  intro x hx
  rcases List.mem_append.mp hx with hx | hx
  · exact h.listUses_not_freed hb x hx
  · obtain ⟨r, hr, rfl⟩ := List.mem_map.mp hx
    exact h.client_not_freed (h.mem hr).1

theorem notifyAll_eq (h : s.HeldWith going out) (hb : .object b ∉ s.freed) :
    s.notifyAll b = s :=
  touch_eq (h.notify_uses hb)

theorem registry_not_freed (h : s.HeldWith going out) : .object .registry ∉ s.freed :=
  fun hf => h.made_object hf

theorem notifyCore_eq (h : s.HeldWith going out) (hc : .object (.client c) ∉ s.freed)
    (hcore : s.coreResource c ≠ none) : s.notifyCore c = s := by
  obtain ⟨k, hk⟩ := Option.ne_none_iff_exists'.mp hcore
  unfold notifyCore
  rw [touch_eq (by simpa using hc)]
  simp only [hk]
  exact touch_eq (by simpa using (h.core hk).1.1.2)

/-- A resource whose client has it in a table has its id inside of the table. -/
theorem id_lt (h : s.HeldWith going out) (hr : s.Held out r) :
    (s.resources r).id.toNat < (s.objects (s.resources r).client).length := by
  by_contra hlt
  have hentry := h.stored hr
  rw [Bindings.entry, List.getElem?_eq_none (Nat.le_of_not_lt hlt)] at hentry
  cases hentry

end HeldWith

/-! ## A resource is taken out of its table and its list -/

/-- The state in which `resource->destroy` leaves tables and lists. -/
def takenOut (s : Bindings) (r : Nat) : Bindings :=
  let c := (s.resources r).client
  let b := (s.resources r).object
  { s with
    objects := Function.update s.objects c (putAt (s.objects c) (s.resources r).id.toNat none)
    resourceList := Function.update s.resourceList b ((s.resourceList b).erase r)
    coreResource := if b = .core then Function.update s.coreResource c none else s.coreResource }

theorem entry_takenOut (h : s.HeldWith going out) (hr : s.Held out r) (c i : Nat) :
    (s.takenOut r).entry c i =
      if c = (s.resources r).client ∧ i = (s.resources r).id.toNat then none else s.entry c i := by
  unfold entry takenOut
  by_cases hc : c = (s.resources r).client
  · subst hc
    simp only [Function.update_self, true_and]
    exact getElem?_putAt (Nat.le_of_lt (h.id_lt hr)) none i
  · simp only [Function.update_of_ne hc, hc, false_and, if_false]

theorem mem_takenOut (h : s.HeldWith going out) (r : Nat) {b : Bound} {r' : Nat} :
    r' ∈ (s.takenOut r).resourceList b ↔ r' ∈ s.resourceList b ∧
      (b = (s.resources r).object → r' ≠ r) := by
  unfold takenOut
  by_cases hb : b = (s.resources r).object
  · subst hb
    simp only [Function.update_self, true_imp_iff]
    rw [(h.nodup _).mem_erase_iff, and_comm]
  · simp only [Function.update_of_ne hb, hb, false_imp_iff, and_true]

theorem held_cons {r' : Nat} : s.Held (r :: out) r' ↔ s.Held out r' ∧ r' ≠ r := by
  unfold Held
  rw [List.mem_cons, not_or, and_assoc, and_comm (a := r' ≠ r)]

theorem HeldWith.takeOut (h : s.HeldWith going out) (hr : s.Held out r) :
    (s.takenOut r).HeldWith going (r :: out) where
  tame := h.tame
  once := h.once
  known := h.known
  made_resource := h.made_resource
  made_object := h.made_object
  stays := h.stays
  out_live := by
    intro r' hr'
    rcases List.mem_cons.mp hr' with rfl | hr'
    · exact ⟨hr.1, (h.live hr).1⟩
    · exact h.out_live hr'
  live := fun hr' => h.live (held_cons.mp hr').1
  gone := h.gone
  entry := by
    intro c i r' he
    rw [entry_takenOut h hr] at he
    split at he
    · cases he
    · next hne =>
      obtain ⟨hheld, rfl, rfl⟩ := h.entry he
      refine ⟨held_cons.mpr ⟨hheld, ?_⟩, rfl, rfl⟩
      rintro rfl
      exact hne ⟨rfl, rfl⟩
  stored := by
    intro r' hr'
    obtain ⟨hheld, hne⟩ := held_cons.mp hr'
    show (s.takenOut r).entry (s.resources r').client (s.resources r').id.toNat = some r'
    rw [entry_takenOut h hr, if_neg, h.stored hheld]
    rintro ⟨hc, hid⟩
    have hstored := h.stored hheld
    rw [hc, hid, h.stored hr] at hstored
    exact hne (Option.some.inj hstored).symm
  nodup := by
    intro b
    unfold takenOut
    by_cases hb : b = (s.resources r).object
    · subst hb
      simp only [Function.update_self]
      exact (h.nodup _).erase r
    · simp only [Function.update_of_ne hb]
      exact h.nodup b
  mem := by
    intro b r' hr'
    obtain ⟨hmem, hne⟩ := (mem_takenOut h r).mp hr'
    obtain ⟨hheld, hobj, hlist⟩ := h.mem hmem
    refine ⟨held_cons.mpr ⟨hheld, ?_⟩, hobj, hlist⟩
    rintro rfl
    exact hne hobj.symm rfl
  listed := by
    intro r' hr' hlist
    obtain ⟨hheld, hne⟩ := held_cons.mp hr'
    exact (mem_takenOut h r).mpr ⟨h.listed hheld hlist, fun _ => hne⟩
  single := by
    intro n
    unfold takenOut
    by_cases hb : .clientNode n = (s.resources r).object
    · simp only [← hb, Function.update_self]
      exact Nat.le_trans List.length_erase_le (h.single n)
    · simp only [Function.update_of_ne hb]
      exact h.single n
  core := by
    intro c k hk
    have hcore : s.coreResource c = some k ∧
        ¬ ((s.resources r).object = .core ∧ c = (s.resources r).client) := by
      unfold takenOut at hk
      by_cases hb : (s.resources r).object = .core
      · simp only [hb, if_true] at hk
        by_cases hc : c = (s.resources r).client
        · rw [hc, Function.update_self] at hk
          cases hk
        · rw [Function.update_of_ne hc] at hk
          exact ⟨hk, fun hand => hc hand.2⟩
      · simp only [if_neg hb] at hk
        exact ⟨hk, fun hand => hb hand.1⟩
    obtain ⟨hheld, hobj, hclient⟩ := h.core hcore.1
    refine ⟨held_cons.mpr ⟨hheld, ?_⟩, hobj, hclient⟩
    rintro rfl
    exact hcore.2 ⟨hobj, hclient.symm⟩
  core_rests := h.core_rests
  going_client := h.going_client
  clients_nodup := h.clients_nodup
  clients_lt := h.clients_lt
  globals_nodup := h.globals_nodup
  global := h.global
  isPublic := h.isPublic
  leaving_nodup := h.leaving_nodup
  leaving := h.leaving
  nodeFree := h.nodeFree
  clientNode := h.clientNode

/-! ## A resource is freed -/

theorem object_mem_append_resource :
    .object b ∈ s.freed ++ [.resource r] ↔ .object b ∈ s.freed := by
  rw [List.mem_append, List.mem_singleton, or_iff_left (by simp)]

theorem there_freeResource :
    ({ s with freed := s.freed ++ [.resource r] } : Bindings).There b ↔ s.There b := by
  cases b <;> simp only [There, object_mem_append_resource]

theorem held_freeResource {r' : Nat} :
    ({ s with freed := s.freed ++ [.resource r] } : Bindings).Held out r' ↔
      s.Held (r :: out) r' := by
  unfold Held Live
  simp only [List.mem_append, Allocated.resource.injEq, List.mem_cons, not_or]
  tauto

theorem HeldWith.freeResource (h : s.HeldWith going (r :: out)) (hr : r ∉ out)
    (hgone : ¬ s.Kept going r) :
    ({ s with freed := s.freed ++ [.resource r] } : Bindings).HeldWith going out := by
  have hlive := (h.out_live List.mem_cons_self).1
  have hstays : ∀ {b}, ({ s with freed := s.freed ++ [.resource r] } : Bindings).Stays going b ↔
      s.Stays going b := by
    intro b
    simp only [Stays, there_freeResource]
  have hkept : ∀ {r'}, ({ s with freed := s.freed ++ [.resource r] } : Bindings).Kept going r' ↔
      s.Kept going r' := by
    intro r'
    simp only [Kept, Rests, there_freeResource]
  constructor
  case tame => exact h.tame
  case known => exact h.known
  case once =>
    have hconcat := h.once.concat hlive.2
    rwa [List.concat_eq_append] at hconcat
  case made_resource =>
    intro r' hr'
    rcases List.mem_append.mp hr' with hr' | hr'
    · exact h.made_resource hr'
    · cases List.mem_singleton.mp hr'
      exact hlive.1
  case made_object => exact fun hb => h.made_object (object_mem_append_resource.mp hb)
  case stays => exact fun hb hf => h.stays (hstays.mp hb) (object_mem_append_resource.mp hf)
  case out_live =>
    intro r' hr'
    obtain ⟨hlive', hclient⟩ := h.out_live (List.mem_cons_of_mem r hr')
    refine ⟨⟨hlive'.1, fun hf => ?_⟩, hstays.mpr hclient⟩
    rcases List.mem_append.mp hf with hf | hf
    · exact hlive'.2 hf
    · cases List.mem_singleton.mp hf
      exact hr hr'
  case live =>
    intro r' hr'
    obtain ⟨hclient, hobj⟩ := h.live (held_freeResource.mp hr')
    exact ⟨hstays.mpr hclient, hstays.mpr hobj⟩
  case gone =>
    intro r' hf
    rw [hkept]
    rcases List.mem_append.mp hf with hf | hf
    · exact h.gone hf
    · cases List.mem_singleton.mp hf
      exact hgone
  case entry =>
    intro c i r' he
    obtain ⟨hheld, hclient, hid⟩ := h.entry he
    exact ⟨held_freeResource.mpr hheld, hclient, hid⟩
  case stored => exact fun hr' => h.stored (held_freeResource.mp hr')
  case nodup => exact h.nodup
  case mem =>
    intro b r' hr'
    obtain ⟨hheld, hobj, hlist⟩ := h.mem hr'
    exact ⟨held_freeResource.mpr hheld, hobj, hlist⟩
  case listed => exact fun hr' hlist => h.listed (held_freeResource.mp hr') hlist
  case single => exact h.single
  case core =>
    intro c k hk
    obtain ⟨hheld, hobj, hclient⟩ := h.core hk
    exact ⟨held_freeResource.mpr hheld, hobj, hclient⟩
  case core_rests => exact h.core_rests
  case going_client => exact h.going_client
  case clients_nodup => exact h.clients_nodup
  case clients_lt => exact h.clients_lt
  case globals_nodup => exact h.globals_nodup
  case global =>
    intro b hb
    obtain ⟨⟨hthere, hgoing⟩, hglobal⟩ := h.global hb
    exact ⟨⟨there_freeResource.mpr hthere, hgoing⟩, hglobal⟩
  case isPublic =>
    exact fun hb hglobal hinit => h.isPublic ⟨there_freeResource.mp hb.1, hb.2⟩ hglobal hinit
  case leaving_nodup => exact h.leaving_nodup
  case leaving =>
    intro b hb
    obtain ⟨hf, hgoing, hmade⟩ := h.leaving hb
    exact ⟨fun hf' => hf (object_mem_append_resource.mp hf'), hgoing, hmade⟩
  case nodeFree => exact h.nodeFree
  case clientNode =>
    intro n
    rw [object_mem_append_resource, object_mem_append_resource]
    exact h.clientNode

/-! ## `pinos_resource_destroy` -/

theorem unlist_eq (hr : r ∈ s.resourceList b) (huses : ∀ x ∈ s.listUses b, x ∉ s.freed) :
    s.unlist b r = s.setList b ((s.resourceList b).erase r) := by
  unfold unlist
  rw [if_pos hr, touch_eq huses]

theorem clearEntry_eq (h : s.HeldWith going out) (hr : s.Held out r) :
    s.clearEntry (s.resources r).client (s.resources r).id =
      s.setObjects (s.resources r).client
        (putAt (s.objects (s.resources r).client) (s.resources r).id.toNat none) :=
  if_neg (Nat.not_lt.mpr (Nat.le_of_lt (h.id_lt hr)))

/-- The list of what a resource is bound to has nothing in it that was freed. -/
theorem HeldWith.object_uses (h : s.HeldWith going out) (hr : s.Held out r) :
    ∀ x ∈ s.listUses (s.resources r).object, x ∉ s.freed :=
  h.listUses_not_freed (h.stays (h.live hr).2)

theorem unbind_clearEntry (h : s.HeldWith going out) (hr : s.Held out r) :
    (s.clearEntry (s.resources r).client (s.resources r).id).unbind r = s.takenOut r := by
  have huses := h.object_uses hr
  have hlisted := h.listed hr
  rw [clearEntry_eq h hr]
  unfold unbind takenOut
  simp only [setObjects]
  split
  · next m hm =>
    have hnot : r ∉ s.resourceList (.module m) := fun hmem => (h.mem hmem).2.2
    simp [hm, List.erase_of_not_mem hnot]
  · next hm =>
    rw [hm] at huses hlisted
    refine Eq.trans (unlist_eq (hlisted trivial) huses) ?_
    simp [setCore, setList, hm]
  · next hne hcore =>
    have hlist : (s.resources r).object.HasList := by
      cases hb : (s.resources r).object with
      | module m => exact absurd hb (hne m)
      | _ => trivial
    refine Eq.trans (unlist_eq (hlisted hlist) huses) ?_
    rw [if_neg hcore]
    rfl

theorem callDestroy_eq (cn : Bindings → Nat → Bindings)
    (hobj : ∀ n, (s.resources r).object ≠ .clientNode n) : s.callDestroy cn r = s.unbind r := by
  unfold callDestroy
  split
  · next n hn => exact absurd hn (hobj n)
  · rfl

/-- What `pinos_resource_destroy` comes to. -/
theorem destroyWith_eq (cn : Bindings → Nat → Bindings) (h : s.HeldWith going out)
    (hr : s.Held out r) (hobj : ∀ n, (s.resources r).object ≠ .clientNode n) :
    s.destroyWith cn r = { s.takenOut r with freed := s.freed ++ [.resource r] } := by
  have hclient := h.client_not_freed hr
  have htouch : s.touch [.resource r, .object (.client (s.resources r).client)] = s :=
    touch_eq (by simpa using ⟨hr.1.2, hclient⟩)
  have hcall : (s.clearEntry (s.resources r).client (s.resources r).id).callDestroy cn r =
      s.takenOut r := by
    rw [callDestroy_eq, unbind_clearEntry h hr]
    rw [clearEntry_eq h hr]
    exact hobj
  unfold destroyWith
  simp only [htouch, hcall]
  split
  · exact free_eq hr.1.2
  · next hcore =>
    rw [(h.takeOut hr).notifyCore_eq hclient hcore]
    exact free_eq hr.1.2

/-- Something was destroyed, and with it whatever was bound to it. -/
structure Fewer (s s' : Bindings) : Prop where
  resources : s'.resources = s.resources
  nResources : s'.nResources = s.nResources
  clients : s'.clients = s.clients
  nodeFree : s'.nodeFree = s.nodeFree
  made : ∀ b, s'.Made b ↔ s.Made b
  removes : ∀ b, s'.Removes b ↔ s.Removes b
  length : ∀ c, (s'.objects c).length = (s.objects c).length
  entry : ∀ {c i r}, s'.entry c i = some r → s.entry c i = some r
  lists : ∀ b, s'.resourceList b ⊆ s.resourceList b
  core : ∀ {c}, c ∈ s.clients → s'.coreResource c = s.coreResource c
  object_freed : ∀ b, .object b ∈ s'.freed ↔ .object b ∈ s.freed
  there : ∀ {b}, s'.There b → s.There b

namespace Fewer

variable {s' s'' : Bindings}

theorem refl (s : Bindings) : Fewer s s :=
  ⟨rfl, rfl, rfl, rfl, fun _ => Iff.rfl, fun _ => Iff.rfl, fun _ => rfl, id,
    fun _ => List.Subset.refl _, fun _ => rfl, fun _ => Iff.rfl, id⟩

theorem trans (h : Fewer s s') (h' : Fewer s' s'') : Fewer s s'' where
  resources := h'.resources.trans h.resources
  nResources := h'.nResources.trans h.nResources
  clients := h'.clients.trans h.clients
  nodeFree := h'.nodeFree.trans h.nodeFree
  made b := (h'.made b).trans (h.made b)
  removes b := (h'.removes b).trans (h.removes b)
  length c := (h'.length c).trans (h.length c)
  entry he := h.entry (h'.entry he)
  lists b := List.Subset.trans (h'.lists b) (h.lists b)
  core := fun hc => (h'.core (h.clients ▸ hc)).trans (h.core hc)
  object_freed b := (h'.object_freed b).trans (h.object_freed b)
  there hb := h.there (h'.there hb)

theorem list_nil (h : Fewer s s') (hb : s.resourceList b = []) : s'.resourceList b = [] := by
  have hsub := h.lists b
  rw [hb] at hsub
  exact List.subset_nil.mp hsub

theorem entry_none (h : Fewer s s') {i : Nat} (hi : s.entry c i = none) : s'.entry c i = none := by
  cases he : s'.entry c i with
  | none => rfl
  | some r =>
    have := h.entry he
    rw [hi] at this
    cases this

end Fewer

theorem HeldWith.fewer_takeOut (h : s.HeldWith going out) (hr : s.Held out r)
    (hgone : (s.resources r).object = .core → ¬ s.Kept going r) : Fewer s (s.takenOut r) where
  resources := rfl
  nResources := rfl
  clients := rfl
  nodeFree := rfl
  made := fun b => by cases b <;> exact Iff.rfl
  removes := fun b => by cases b <;> exact Iff.rfl
  length := by
    intro c
    unfold takenOut
    by_cases hc : c = (s.resources r).client
    · subst hc
      simp only [Function.update_self]
      rw [putAt, if_neg (Nat.ne_of_lt (h.id_lt hr)), List.length_set]
    · simp only [Function.update_of_ne hc]
  entry := by
    intro c i k he
    rw [entry_takenOut h hr] at he
    split at he
    · cases he
    · exact he
  lists := fun b k hk => ((mem_takenOut h r).mp hk).1
  core := by
    intro c hc
    unfold takenOut
    by_cases hb : (s.resources r).object = .core
    · simp only [hb, if_true]
      refine Function.update_of_ne ?_ _ _
      rintro rfl
      refine hgone hb ⟨⟨hc, fun hgoing => h.going_client hgoing hc⟩, ?_⟩
      rw [hb]
      exact ⟨trivial, h.core_rests⟩
    · simp only [if_neg hb]
  object_freed := fun _ => Iff.rfl
  there := id

theorem fewer_freeResource (s : Bindings) (r : Nat) :
    Fewer s { s with freed := s.freed ++ [.resource r] } where
  resources := rfl
  nResources := rfl
  clients := rfl
  nodeFree := rfl
  made := fun b => by cases b <;> exact Iff.rfl
  removes := fun b => by cases b <;> exact Iff.rfl
  length := fun _ => rfl
  entry := id
  lists := fun _ => List.Subset.refl _
  core := fun _ => rfl
  object_freed := fun _ => object_mem_append_resource
  there := there_freeResource.mp

/-- A resource that is not a client node's is destroyed because its client or its object is. -/
theorem HeldWith.destroyWith (cn : Bindings → Nat → Bindings) (h : s.HeldWith going out)
    (hr : s.Held out r) (hobj : ∀ n, (s.resources r).object ≠ .clientNode n)
    (hgone : ¬ s.Kept going r) :
    (s.destroyWith cn r).HeldWith going out ∧ Fewer s (s.destroyWith cn r) ∧
      (s.destroyWith cn r).resourceList (s.resources r).object =
        (s.resourceList (s.resources r).object).erase r := by
  rw [destroyWith_eq cn h hr hobj]
  refine ⟨(h.takeOut hr).freeResource hr.2 hgone,
    (h.fewer_takeOut hr fun _ => hgone).trans (fewer_freeResource (s.takenOut r) r), ?_⟩
  exact Function.update_self _ _ _

/-- All resources in the list of something that is being destroyed are destroyed. -/
theorem HeldWith.destroyAll (cn : Bindings → Nat → Bindings) (hb : b ∈ going)
    (hobj : ∀ n, b ≠ .clientNode n) {rs : List Nat} (h : s.HeldWith going out)
    (hrs : s.resourceList b = rs) :
    (rs.foldl (Bindings.destroyWith cn) s).HeldWith going out ∧
      Fewer s (rs.foldl (Bindings.destroyWith cn) s) ∧
      (rs.foldl (Bindings.destroyWith cn) s).resourceList b = [] := by
  induction rs generalizing s with
  | nil => exact ⟨h, Fewer.refl s, hrs⟩
  | cons r rs ih =>
    obtain ⟨hr, hb', -⟩ := h.mem (hrs ▸ List.mem_cons_self : r ∈ s.resourceList b)
    obtain ⟨hheld, hfewer, hlist⟩ := h.destroyWith cn hr (by rwa [hb'])
      (fun hkept => (hb' ▸ hkept.2 : s.Rests going b).2 hb)
    rw [hb', hrs, List.erase_cons_head] at hlist
    obtain ⟨hheld', hfewer', hnil⟩ := ih hheld hlist
    exact ⟨hheld', hfewer.trans hfewer', hnil⟩

end Bindings
end Pinos
