import Pinos.Server.Teardown

/-
`pinos_node_get_free_port` of `server/node.c`, with the ports of all nodes.

The maps and counters of a node are found by a direction.  A port that is made gets the next
number, and its object is never missing for want of memory.
-/

namespace Pinos

/-- What a node knows of the ports of a direction besides their list. -/
structure PortMap where
  maxPorts : UInt32
  nPorts : UInt32
  map : UInt32 → Option Nat

/-- The calls on a spa node; what `port_set_io` answers does not matter. -/
structure SpaPortCalls (Spa : Type) where
  addPort : Spa → PinosDirection → UInt32 → Spa × SpaResult
  portSetIo : Spa → PinosDirection → UInt32 → Nat → Spa

/-- The nodes with their ports, of which `made` have been made so far, and their spa nodes. -/
structure NodePorts (Spa : Type) where
  graph : Graph
  maps : Nat → PinosDirection → PortMap
  portId : Nat → UInt32
  made : Nat
  spa : Nat → Spa

/-- The list, the map and the counter of a direction. -/
structure PortSide extends PortMap where
  ports : List Nat

/-- `pinos_port_new`. -/
def PinosPort.new (n : Nat) (d : PinosDirection) : PinosPort where
  node := n
  direction := d
  state := .configure
  allocated := false
  bufferMem := none
  buffers := none
  nBuffers := 0
  links := []
  rtLinks := []
  given := none

/-- The first id below a maximum that is free in a map. -/
def PortMap.freeId (m : PortMap) : Option UInt32 :=
  ((List.range m.maxPorts.toNat).map UInt32.ofNat).find? fun i => m.map i = none

namespace NodePorts

section Calls

variable {Spa : Type} (spa : SpaPortCalls Spa) (t : NodePorts Spa) (n : Nat) (d : PinosDirection)

def ports : List Nat := (t.graph.nodes n).ports d

def side : PortSide := { t.maps n d with ports := t.ports n d }

/-- A port is in front of the others, in the map and counted. -/
def newPort (id : UInt32) : NodePorts Spa :=
  let p := t.made
  let m := t.maps n d
  { t with
    graph := (t.graph.modifyPort p fun _ => .new n d).modifyNode n fun node =>
      node.setPorts (p :: node.ports d) d
    maps := Function.update t.maps n (Function.update (t.maps n) d
      { m with nPorts := m.nPorts + 1, map := Function.update m.map id (some p) })
    portId := Function.update t.portId p id
    made := p + 1 }

/-- The spa node is asked for the port. -/
def createPort (id : UInt32) : NodePorts Spa :=
  let (node, res) := spa.addPort (t.spa n) d id
  { t.newPort n d id with
    spa := Function.update t.spa n
      (if res.isError then node else spa.portSetIo node d id t.made) }

/-- `pinos_node_get_free_port`. -/
def getFreePort : Option Nat × NodePorts Spa :=
  match (t.ports n d).find? fun p => (t.graph.ports p).links = [] with
  | some p => (some p, t)
  | none =>
    if (t.maps n d).nPorts < (t.maps n d).maxPorts then
      match (t.maps n d).freeId with
      | some id => (some t.made, t.createPort spa n d id)
      | none => (none, t)
    else if d = .output then ((t.ports n d).head?, t)
    else (none, t)

/-- The list, the map and the counter agree. -/
structure Agrees : Prop where
  nodup : (t.ports n d).Nodup
  counted : (t.maps n d).nPorts.toNat = (t.ports n d).length
  mapped : ∀ p ∈ t.ports n d, t.portId p < (t.maps n d).maxPorts ∧
    (t.maps n d).map (t.portId p) = some p
  listed : ∀ id < (t.maps n d).maxPorts, ∀ p, (t.maps n d).map id = some p →
    p ∈ t.ports n d ∧ t.portId p = id
  made : ∀ p ∈ t.ports n d, p < t.made

/-- There is one more port, with an id that was free. -/
structure Grown (before after : PortSide) (p : Nat) (id : UInt32) : Prop where
  fresh : p ∉ before.ports
  free : before.map id = none
  below : id < before.maxPorts
  ports : after.ports.Perm (p :: before.ports)
  map : after.map = Function.update before.map id (some p)
  nPorts : after.nPorts.toNat = before.nPorts.toNat + 1
  maxPorts : after.maxPorts = before.maxPorts

/-- What `pinos_node_get_free_port` has to do: a port that is made is there at the end if and
only if the spa node could add it, and otherwise nothing changes. -/
def KeepsPorts : Prop :=
  let (port, next) := t.getFreePort spa n d
  if next.made = t.made then next.side = t.side ∧ ∀ p ∈ port, p ∈ t.ports n d
  else
    let id := next.portId t.made
    if (spa.addPort (t.spa n) d id).2.isError then port = none ∧ next.side = t.side
    else
      port = some t.made ∧ Grown (t.side n d) (next.side n d) t.made id ∧
        ∀ n' d', n' ≠ n ∨ d' ≠ d → next.side n' d' = t.side n' d'

/-- The call makes a port with this id. -/
def Creates (id : UInt32) : Prop :=
  (∀ p ∈ t.ports n d, (t.graph.ports p).links ≠ []) ∧
    (t.maps n d).nPorts < (t.maps n d).maxPorts ∧ (t.maps n d).freeId = some id

end Calls

variable {Spa : Type} {spa : SpaPortCalls Spa} {t : NodePorts Spa} {n : Nat} {d : PinosDirection}
  {id : UInt32}

theorem freeId_eq_some {m : PortMap} (h : m.freeId = some id) :
    m.map id = none ∧ id < m.maxPorts := by
  have hfree := List.find?_some h
  obtain ⟨i, hi, rfl⟩ := List.mem_map.mp (List.mem_of_find?_eq_some h)
  have hlt : i < m.maxPorts.toNat := List.mem_range.mp hi
  refine ⟨of_decide_eq_true hfree, UInt32.lt_iff_toNat_lt.mpr ?_⟩
  rwa [UInt32.toNat_ofNat_of_lt' (Nat.lt_trans hlt m.maxPorts.toNat_lt)]

/-! ## What a call does -/

theorem getFreePort_eq_create (h : t.Creates n d id) :
    t.getFreePort spa n d = (some t.made, t.createPort spa n d id) := by
  obtain ⟨hlinked, hroom, hid⟩ := h
  have hnone : ((t.ports n d).find? fun p => (t.graph.ports p).links = []) = none := by
    rw [List.find?_eq_none]
    intro p hp
    rw [decide_eq_true_eq]
    exact hlinked p hp
  rw [getFreePort, hnone]
  dsimp only
  rw [if_pos hroom, hid]

/-- Without a new port nothing changes. -/
theorem getFreePort_eq_found (spa : SpaPortCalls Spa) (h : ∀ id, ¬ t.Creates n d id) :
    ∃ port, t.getFreePort spa n d = (port, t) ∧ ∀ p ∈ port, p ∈ t.ports n d := by
  rw [getFreePort]
  cases hfind : (t.ports n d).find? fun p => (t.graph.ports p).links = [] with
  | some p => exact ⟨some p, rfl, fun q hq => Option.some.inj hq ▸ List.mem_of_find?_eq_some hfind⟩
  | none =>
    dsimp only
    split
    · next hroom =>
      split
      · next id hid =>
        refine absurd ⟨fun p hp => ?_, hroom, hid⟩ (h id)
        have hp := List.find?_eq_none.mp hfind p hp
        rwa [decide_eq_true_eq] at hp
      · exact ⟨none, rfl, fun p hp => (nomatch hp)⟩
    · split
      · exact ⟨_, rfl, fun p hp => List.mem_of_mem_head? hp⟩
      · exact ⟨none, rfl, fun p hp => (nomatch hp)⟩

section NewPort

variable {n' : Nat} {d' : PinosDirection}

@[simp] theorem made_createPort : (t.createPort spa n d id).made = t.made + 1 := rfl

@[simp] theorem portId_createPort :
    (t.createPort spa n d id).portId = Function.update t.portId t.made id := rfl

theorem spa_createPort :
    (t.createPort spa n d id).spa n =
      if (spa.addPort (t.spa n) d id).2.isError then (spa.addPort (t.spa n) d id).1
      else spa.portSetIo (spa.addPort (t.spa n) d id).1 d id t.made := by
  show Function.update t.spa n _ n = _
  rw [Function.update_self]

theorem ports_createPort : (t.createPort spa n d id).ports n d = t.made :: t.ports n d := by
  show (Function.update t.graph.nodes n _ n).ports d = _
  rw [Function.update_self]
  cases d <;> rfl

theorem ports_createPort_of_ne (h : n' ≠ n ∨ d' ≠ d) :
    (t.createPort spa n d id).ports n' d' = t.ports n' d' := by
  show (Function.update t.graph.nodes n _ n').ports d' = (t.graph.nodes n').ports d'
  by_cases hn : n' = n
  · subst hn
    have hd := h.resolve_left (not_not.mpr rfl)
    rw [Function.update_self]
    cases d <;> cases d' <;> first | rfl | exact absurd rfl hd
  · rw [Function.update_of_ne hn]

theorem maps_createPort :
    (t.createPort spa n d id).maps n d =
      ⟨(t.maps n d).maxPorts, (t.maps n d).nPorts + 1,
        Function.update (t.maps n d).map id (some t.made)⟩ := by
  show Function.update t.maps n (Function.update (t.maps n) d _) n d = _
  rw [Function.update_self, Function.update_self]

theorem maps_createPort_of_ne (h : n' ≠ n ∨ d' ≠ d) :
    (t.createPort spa n d id).maps n' d' = t.maps n' d' := by
  show Function.update t.maps n (Function.update (t.maps n) d _) n' d' = t.maps n' d'
  by_cases hn : n' = n
  · subst hn
    rw [Function.update_self, Function.update_of_ne (h.resolve_left (not_not.mpr rfl))]
  · rw [Function.update_of_ne hn]

theorem side_createPort_of_ne (h : n' ≠ n ∨ d' ≠ d) :
    (t.createPort spa n d id).side n' d' = t.side n' d' := by
  rw [side, side, maps_createPort_of_ne h, ports_createPort_of_ne h]

end NewPort

/-- A counter below the maximum does not overflow. -/
theorem toNat_succ {k m : UInt32} (h : k < m) : (k + 1).toNat = k.toNat + 1 := by
  have hk := UInt32.lt_iff_toNat_lt.mp h
  have hm := m.toNat_lt
  rw [UInt32.toNat_add]
  exact Nat.mod_eq_of_lt (by show k.toNat + 1 < 2 ^ 32; omega)

/-- The port is there, whether the spa node could add it or not. -/
theorem Agrees.grown (h : t.Agrees n d) (spa : SpaPortCalls Spa) (hcreates : t.Creates n d id) :
    Grown (t.side n d) ((t.createPort spa n d id).side n d) t.made id where
  fresh hmem := Nat.lt_irrefl _ (h.made t.made hmem)
  free := (freeId_eq_some hcreates.2.2).1
  below := (freeId_eq_some hcreates.2.2).2
  ports := by
    show ((t.createPort spa n d id).ports n d).Perm _
    rw [ports_createPort]
    exact List.Perm.refl _
  map := by
    show ((t.createPort spa n d id).maps n d).map = _
    rw [maps_createPort]
    rfl
  nPorts := by
    show ((t.createPort spa n d id).maps n d).nPorts.toNat = _
    rw [maps_createPort]
    exact toNat_succ hcreates.2.1
  maxPorts := by
    show ((t.createPort spa n d id).maps n d).maxPorts = _
    rw [maps_createPort]
    rfl

/-- After a call the list, the map and the counter agree still. -/
theorem Agrees.getFreePort (h : t.Agrees n d) : (t.getFreePort spa n d).2.Agrees n d := by
  by_cases hcreates : ∃ id, t.Creates n d id
  · obtain ⟨id, hcreates⟩ := hcreates
    have hgrown := h.grown spa hcreates
    obtain ⟨hfree, hbelow⟩ := freeId_eq_some hcreates.2.2
    rw [getFreePort_eq_create hcreates]
    have hold : ∀ p ∈ t.ports n d, Function.update t.portId t.made id p = t.portId p :=
      fun p hp => Function.update_of_ne (Nat.ne_of_lt (h.made p hp)) ..
    refine ⟨?_, ?_, ?_, ?_, ?_⟩
    · rw [ports_createPort]
      exact List.nodup_cons.mpr ⟨hgrown.fresh, h.nodup⟩
    · rw [ports_createPort, List.length_cons, ← h.counted]
      exact hgrown.nPorts
    · rw [ports_createPort, maps_createPort, portId_createPort]
      dsimp only
      intro p hp
      rcases List.mem_cons.mp hp with rfl | hp
      · rw [Function.update_self, Function.update_self]
        exact ⟨hbelow, rfl⟩
      · have hother : t.portId p ≠ id := by
          intro he
          have hmap := (h.mapped p hp).2
          rw [he, hfree] at hmap
          cases hmap
        rw [hold p hp, Function.update_of_ne hother]
        exact h.mapped p hp
    · rw [ports_createPort, maps_createPort, portId_createPort]
      dsimp only
      intro id' hid' p hp
      by_cases hsame : id' = id
      · subst hsame
        rw [Function.update_self] at hp
        cases hp
        exact ⟨List.mem_cons_self, Function.update_self ..⟩
      · rw [Function.update_of_ne hsame] at hp
        obtain ⟨hmem, hid⟩ := h.listed id' hid' p hp
        exact ⟨List.mem_cons_of_mem _ hmem, (hold p hmem).trans hid⟩
    · rw [ports_createPort]
      intro p hp
      rcases List.mem_cons.mp hp with rfl | hp
      · exact Nat.lt_succ_self _
      · exact Nat.lt_succ_of_lt (h.made p hp)
  · obtain ⟨port, hcall, -⟩ := getFreePort_eq_found spa (not_exists.mp hcreates)
    rw [hcall]
    exact h

/-- A port that the spa node cannot add stays, and is returned. -/
theorem keeps_iff (spa : SpaPortCalls Spa) (t : NodePorts Spa) (n : Nat) (d : PinosDirection)
    (h : t.Agrees n d) :
    t.KeepsPorts spa n d ↔
      ∀ id, t.Creates n d id → (spa.addPort (t.spa n) d id).2.isError = false := by
  unfold KeepsPorts
  constructor
  · intro hkeeps id hcreates
    rw [getFreePort_eq_create hcreates] at hkeeps
    dsimp only at hkeeps
    rw [made_createPort, if_neg (Nat.succ_ne_self _), portId_createPort,
      Function.update_self] at hkeeps
    split at hkeeps
    · exact nomatch hkeeps.1
    · next hok => exact eq_false_of_ne_true hok
  · intro hok
    by_cases hcreates : ∃ id, t.Creates n d id
    · obtain ⟨id, hcreates⟩ := hcreates
      rw [getFreePort_eq_create hcreates]
      dsimp only
      rw [made_createPort, if_neg (Nat.succ_ne_self _), portId_createPort, Function.update_self,
        hok id hcreates, if_neg Bool.false_ne_true]
      exact ⟨rfl, h.grown spa hcreates, fun n' d' hne => side_createPort_of_ne hne⟩
    · obtain ⟨port, hcall, hport⟩ := getFreePort_eq_found spa (not_exists.mp hcreates)
      rw [hcall]
      dsimp only
      rw [if_pos rfl]
      exact ⟨rfl, hport⟩

/-- A node without ports that may have one. -/
def oneAllowed : NodePorts Unit where
  graph :=
    { nodes := fun _ => ⟨.suspended, false, 0, [], [], 0, 0, []⟩
      ports := fun _ => .new 0 .input
      links := fun _ => Graph.newLink 0 0
      blocks := []
      freed := [] }
  maps _ _ := ⟨1, 0, fun _ => none⟩
  portId _ := 0
  made := 0
  spa _ := ()

theorem oneAllowed_agrees : oneAllowed.Agrees 0 .input where
  nodup := List.nodup_nil
  counted := rfl
  mapped _ hp := nomatch hp
  listed _ _ _ hp := nomatch hp
  made _ hp := nomatch hp

/-- A port that the spa node adds. -/
theorem keeps_added : oneAllowed.KeepsPorts ⟨fun _ _ _ => ((), .ok), fun _ _ _ _ => ()⟩ 0 .input :=
  (keeps_iff _ oneAllowed 0 .input oneAllowed_agrees).mpr fun _ _ => rfl

/-- The spa node cannot add a port, and it is returned all the same. -/
theorem not_keeps_failed :
    ¬ ∀ (spa : SpaPortCalls Unit) (t : NodePorts Unit) (n : Nat) (d : PinosDirection),
      t.Agrees n d → t.KeepsPorts spa n d := by
  intro h
  have hkeeps := h ⟨fun _ _ _ => ((), .invalidPort), fun _ _ _ _ => ()⟩ oneAllowed 0 .input
    oneAllowed_agrees
  exact absurd hkeeps.1 (by decide)

end NodePorts
end Pinos
