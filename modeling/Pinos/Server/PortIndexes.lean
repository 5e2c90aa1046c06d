import Pinos.Server.FreePort
import Pinos.Server.PortCounts
import Pinos.Server.UpdatePortIds

/-
The indexes that a node of a client uses, over any messages of the client: those of its port
maps, in `update_port_ids` and `pinos_node_get_free_port` of `server/node.c`, and those of the
slots of its transport, in `server/client-node.c`.

The node is numbered 0.  An object is never missing for want of memory.
-/

namespace Pinos

namespace UpdatePortIds.Walk

/-- The index that a turn uses in the map. -/
def mapIndex (w : Walk) : Option UInt32 :=
  match w.ids, w.ports with
  | id :: _, some p => some (if w.portId p = id then w.portId p else id)
  | id :: _, none => some id
  | [], some p => some (w.portId p)
  | [], none => none

def mapIndexes : Nat → Walk → List UInt32
  | 0, _ => []
  | fuel + 1, w =>
    match w.turn with
    | none => []
    | some next => w.mapIndex.toList ++ mapIndexes fuel next

/-- The list of the ports, as far as there are some. -/
def listFrom (cells : ListCells (Option Nat)) : Nat → Option Nat → List Nat
  | 0, _ => []
  | _ + 1, none => []
  | k + 1, some p => p :: listFrom cells k (cells.next (some p))

variable {w : Walk} {xs ys : List Entry} {ids : List UInt32}

/-- Only the ids of the ports and those that are left are used. -/
theorem At.mapIndexes {P : UInt32 → Prop} (fuel : Nat) (h : w.At xs ys) (hids : w.ids = ids)
    (hentries : ∀ e ∈ xs ++ ys, P e.2) (hreported : ∀ id ∈ ids, P id) :
    ∀ i ∈ w.mapIndexes fuel, P i := by
  induction fuel generalizing w xs ys ids with
  | zero => exact fun i hi => (List.not_mem_nil hi).elim
  | succ fuel ih =>
    rw [Walk.mapIndexes]
    cases ids with
    | nil =>
      cases ys with
      | nil =>
        have hports : w.ports = none := h.ports
        rw [turn, hids, hports]
        exact fun i hi => (List.not_mem_nil hi).elim
      | cons y ys =>
        have hports : w.ports = some y.1 := h.ports
        rw [turn, mapIndex, hids, hports]
        dsimp only
        intro i hi
        rcases List.mem_append.mp hi with hi | hi
        · rw [List.mem_singleton.mp hi, (h.entries y (by simp)).1]
          exact hentries y (by simp)
        · refine ih h.removed hids (fun e he => hentries e ?_) hreported i hi
          simp only [List.mem_append, List.mem_cons] at he ⊢
          tauto
    | cons id ids =>
      have htail : w.ids.tail = ids := by rw [hids, List.tail_cons]
      have hid : P id := hreported id List.mem_cons_self
      have hrest : ∀ id ∈ ids, P id := fun id' hid' => hreported id' (List.mem_cons_of_mem id hid')
      -- the index is the id, whether its port is there or is added
      have hindex : ∀ i ∈ w.mapIndex.toList, P i := by
        intro i hi
        rw [mapIndex, hids] at hi
        cases hports : w.ports with
        | none =>
          rw [hports] at hi
          exact List.mem_singleton.mp hi ▸ hid
        | some p =>
          rw [hports] at hi
          dsimp only at hi
          rw [List.mem_singleton.mp hi]
          split
          · next hsame => exact hsame ▸ hid
          · exact hid
      rcases h.turn_cons hids with ⟨y, rest, rfl, hsame, hturn⟩ | ⟨-, hturn⟩
      · rw [hturn]
        dsimp only
        intro i hi
        rcases List.mem_append.mp hi with hi | hi
        · exact hindex i hi
        · refine ih h.exiting htail (fun e he => hentries e ?_) hrest i hi
          simp only [List.mem_append, List.mem_cons, List.append_assoc] at he ⊢
          tauto
      · rw [hturn]
        dsimp only
        intro i hi
        rcases List.mem_append.mp hi with hi | hi
        · exact hindex i hi
        · cases ys with
          | nil =>
            refine ih h.added_head htail (fun e he => ?_) hrest i hi
            rcases List.mem_cons.mp he with rfl | he
            · exact hid
            · exact hentries e (by rwa [List.append_nil])
          | cons y ys =>
            refine ih h.added_next htail (fun e he => ?_) hrest i hi
            simp only [List.mem_append, List.mem_cons, List.append_assoc, List.cons_append,
              List.nil_append] at he
            rcases he with he | rfl | rfl | he
            · exact hentries e (by simp [he])
            · exact hentries e (by simp)
            · exact hid
            · exact hentries e (by simp [he])

end UpdatePortIds.Walk

open ClientNode (SpaProxyPort PortCall maxIds)
open UpdatePortIds (Walk)

/-- The node of a client with its ports, and how many slots its transport was made for. -/
structure ClientPorts (Format : Type) where
  table : NodePorts (ClientNode.SpaProxy Format)
  transport : Option (PinosDirection → UInt32)

/-- A message of the client or a call on its proxy, `init_complete`, and what the server does
then.  The links of a port may change at any time. -/
inductive PortEvent (Format : Type) where
  | call (c : PortCall Format)
  /-- The arrays of `update_port_ids` hold this before they are filled in. -/
  | initComplete (arrays : PinosDirection → Nat → UInt32)
  | getFreePort (d : PinosDirection)
  | relink (p : Nat) (links : List Nat)
  | processInput
  | processOutput
  | haveOutput

section Node

variable {Format : Type}

namespace ClientNode.SpaProxy

/-- The ids that `update_port_ids` reads from its array. -/
def reportedIds (this : SpaProxy Format) (d : PinosDirection) (array : Nat → UInt32) :
    List UInt32 :=
  (List.range (this.nPorts d).toNat).map fun k =>
    ((this.getPortIds d (this.maxPorts d)).map fun i => UInt32.ofNat i.val).getD k (array k)

/-- The ports that have an io. -/
def ioPorts (this : SpaProxy Format) (d : PinosDirection) : List (Fin maxIds) :=
  (List.finRange maxIds).filter fun i => (this.ports d i).io.isSome

end ClientNode.SpaProxy

def directionCode : PinosDirection → UInt32
  | .input => 0
  | .output => 1

/-- The calls on a proxy. -/
def proxyCalls (Format : Type) : SpaPortCalls (ClientNode.SpaProxy Format) where
  addPort this d id := this.addPort (directionCode d) id
  portSetIo this d id p := (this.portSetIo (directionCode d) id p).1

namespace ClientPorts

variable (s : ClientPorts Format)

def proxy : ClientNode.SpaProxy Format := s.table.spa 0

def setProxy (proxy : ClientNode.SpaProxy Format) : ClientPorts Format :=
  { s with table := { s.table with spa := Function.update s.table.spa 0 proxy } }

/-- The loop for a direction, which has no ports yet. -/
def walk (t : NodePorts (ClientNode.SpaProxy Format)) (ids : List UInt32) : Walk :=
  { Walk.empty with portId := t.portId, made := t.made }.start ids

def turns (ids : List UInt32) : Nat := 2 * ids.length + 1

/-- What the loop leaves; each port that is made gives its io to the proxy. -/
def portsUpdated (t : NodePorts (ClientNode.SpaProxy Format)) (d : PinosDirection) (next : Walk) :
    NodePorts (ClientNode.SpaProxy Format) :=
  let this := t.spa 0
  let g := t.graph.modifyNode 0 fun node =>
    node.setPorts (Walk.listFrom next.cells next.made (next.cells.next none)) d
  { graph :=
      { g with ports := fun p => if t.made ≤ p ∧ p < next.made then .new 0 d else g.ports p }
    maps := Function.update t.maps 0 (Function.update (t.maps 0) d
      ⟨this.maxPorts d, this.nPorts d, next.map⟩)
    portId := next.portId
    made := next.made
    spa := Function.update t.spa 0
      ((List.range' t.made (next.made - t.made)).foldl
        (fun this p => (proxyCalls Format).portSetIo this d (next.portId p) p) this) }

/-- `update_port_ids` for a direction. -/
def updatePorts (t : NodePorts (ClientNode.SpaProxy Format)) (d : PinosDirection)
    (array : Nat → UInt32) :
    NodePorts (ClientNode.SpaProxy Format) :=
  match (walk t ((t.spa 0).reportedIds d array)).loop
      (turns ((t.spa 0).reportedIds d array)) with
  | none => t
  | some next => portsUpdated t d next

/-- The transport is made when the ports are there; the message that completes the initialisation
has come from the resource, so there is one. -/
def initComplete (arrays : PinosDirection → Nat → UInt32) : ClientPorts Format :=
  let table := updatePorts (updatePorts s.table .input (arrays .input)) .output (arrays .output)
  { table := table, transport := some fun d => (table.maps 0 d).maxPorts }

def portStep (s : ClientPorts Format) : PortEvent Format → ClientPorts Format
  | .call c => s.setProxy (s.proxy.portStep c)
  | .initComplete arrays => if s.transport.isSome then s else s.initComplete arrays
  | .getFreePort d =>
    if s.transport.isSome then { s with table := (s.table.getFreePort (proxyCalls Format) 0 d).2 }
    else s
  | .relink p links =>
    { s with table := { s.table with
        graph := s.table.graph.modifyPort p fun port => { port with links := links } } }
  | .processInput | .processOutput | .haveOutput => s

/-! ## The indexes that are used -/

/-- What `update_port_ids` uses for a direction, with the length of the map. -/
def updateIndexes (t : NodePorts (ClientNode.SpaProxy Format)) (d : PinosDirection)
    (array : Nat → UInt32) :
    List (Nat × Nat) :=
  let this := t.spa 0
  let ids := this.reportedIds d array
  ((walk t ids).mapIndexes (turns ids)).map fun i => (i.toNat, (this.maxPorts d).toNat)

/-- What the loop of `pinos_node_get_free_port` uses until there is a port. -/
def freeIndexes (m : PortMap) : List (Nat × Nat) :=
  let ids := List.range m.maxPorts.toNat
  (ids.take (ids.findIdx (fun i => m.map (UInt32.ofNat i) = none) + 1)).map fun i =>
    (i, m.maxPorts.toNat)

/-- The slots for the ports with an io; no transport is one without slots. -/
def slotIndexes (d : PinosDirection) : List (Nat × Nat) :=
  (s.proxy.ioPorts d).map fun i => (i.val, (s.transport.map fun n => (n d).toNat).getD 0)

/-- The indexes of a map or of the slots of a transport, with the length of these. -/
def indexes (s : ClientPorts Format) : PortEvent Format → List (Nat × Nat)
  | .call _ => []
  | .initComplete arrays =>
    if s.transport.isSome then []
    else
      updateIndexes s.table .input (arrays .input) ++
        updateIndexes (updatePorts s.table .input (arrays .input)) .output (arrays .output)
  | .getFreePort d =>
    if s.transport.isSome ∧ (∀ p ∈ s.table.ports 0 d, (s.table.graph.ports p).links ≠ []) ∧
        (s.table.maps 0 d).nPorts < (s.table.maps 0 d).maxPorts then
      freeIndexes (s.table.maps 0 d)
    else []
  | .relink _ _ => []
  | .processInput => s.slotIndexes .input
  | .processOutput | .haveOutput => s.slotIndexes .output

/-- All indexes are in range. -/
def InRange (s : ClientPorts Format) (e : PortEvent Format) : Prop :=
  ∀ i ∈ s.indexes e, i.1 < i.2

/-- When the initialisation completes, the ids of the ports are below the maximum that the client
has told. -/
def InitInRange (s : ClientPorts Format) : PortEvent Format → Prop
  | .initComplete _ => ∀ d i, (s.proxy.ports d i).valid → i.val < (s.proxy.maxPorts d).toNat
  | _ => True

/-- A node whose proxy has just been allocated. -/
def init (formatBuffer : PodBuffer) : ClientPorts Format where
  table :=
    { graph :=
        { nodes := fun _ => ⟨.creating, false, 0, [], [], 0, 0, []⟩
          ports := fun _ => .new 0 .input
          links := fun _ => Graph.newLink 0 0
          blocks := []
          freed := [] }
      maps := fun _ _ => ⟨0, 0, fun _ => none⟩
      portId := fun _ => 0
      made := 0
      spa := fun _ => .empty formatBuffer }
  transport := none

end ClientPorts

/-! ## What the proxy keeps -/

namespace ClientNode.SpaProxy

variable {this that : SpaProxy Format} {d d' : PinosDirection} {i j : Fin maxIds}

theorem io_setPort {port : SpaProxyPort Format} (h : port.io = (this.ports d i).io) :
    ((this.setPort d i port).ports d' j).io = (this.ports d' j).io := by
  by_cases hsame : d' = d ∧ j = i
  · obtain ⟨rfl, rfl⟩ := hsame
    rw [ports_setPort, h]
  · rw [ports_setPort_of_ne (not_and_or.mp hsame)]

theorem io_doUpdatePort (m : PortUpdate Format) :
    ((this.doUpdatePort d i m).ports d' j).io = (this.ports d' j).io := by
  have hio : ((this.ports d i).update m).io = (this.ports d i).io := by
    rw [SpaProxyPort.update_eq]
  unfold doUpdatePort
  dsimp only
  split
  · exact io_setPort hio
  · rw [ports_setNPorts]
    exact io_setPort hio

theorem io_clearPort : ((this.clearPort d i).ports d' j).io = (this.ports d' j).io := by
  unfold clearPort clearBuffers
  exact Eq.trans (io_setPort (by rfl)) (io_doUpdatePort clearing)

theorem io_doUninitPort : ((this.doUninitPort d i).ports d' j).io = (this.ports d' j).io := by
  unfold doUninitPort
  exact Eq.trans (io_setPort (by rfl)) io_clearPort

/-- No call of the client or the server but `port_set_io` changes an io. -/
theorem io_portStep (c : PortCall Format) :
    ((this.portStep c).ports d j).io = (this.ports d j).io := by
  cases c with
  | update changeMask maxInputPorts maxOutputPorts => rfl
  | portUpdate direction portId m =>
    show ((this.clientNodePortUpdate direction portId m).ports d j).io = _
    unfold clientNodePortUpdate
    split
    · rfl
    · split
      · exact io_doUninitPort
      · exact io_doUpdatePort m
  | addPort direction portId =>
    show ((this.addPort direction portId).1.ports d j).io = _
    unfold addPort
    split
    · rfl
    · exact io_clearPort
  | removePort direction portId =>
    show ((this.removePort direction portId).1.ports d j).io = _
    unfold removePort
    split
    · rfl
    · exact io_doUninitPort

theorem checkPortId_directionCode {portId : UInt32} {found : PinosDirection × Fin maxIds}
    (h : checkPortId (directionCode d) portId = some found) :
    found.1 = d ∧ found.2.val = portId.toNat := by
  unfold checkPortId at h
  split at h
  · cases d
    · rw [if_pos (show directionCode .input = 0 from rfl)] at h
      cases h
      exact ⟨rfl, rfl⟩
    · rw [if_neg (show directionCode .output ≠ 0 by decide),
        if_pos (show directionCode .output = 1 from rfl)] at h
      cases h
      exact ⟨rfl, rfl⟩
  · cases h

/-- What an io says of a proxy that was given another one. -/
structure IoGiven (this that : SpaProxy Format) (d : PinosDirection) (P : Nat → Prop) : Prop where
  maxPorts : that.maxPorts = this.maxPorts
  nPorts : that.nPorts = this.nPorts
  valid : that.valid = this.valid
  io : ∀ d' j, (that.ports d' j).io ≠ none →
    (this.ports d' j).io ≠ none ∨ (d' = d ∧ P j.val)

theorem IoGiven.refl {P : Nat → Prop} : IoGiven this this d P :=
  ⟨rfl, rfl, rfl, fun _ _ h => .inl h⟩

theorem IoGiven.portSetIo {P : Nat → Prop} (h : IoGiven this that d P) {id : UInt32} {p : Nat}
    (hid : P id.toNat) : IoGiven this ((proxyCalls Format).portSetIo that d id p) d P := by
  show IoGiven this (that.portSetIo (directionCode d) id p).1 d P
  unfold SpaProxy.portSetIo
  cases hcheck : that.checkPort (directionCode d) id with
  | none => exact h
  | some found =>
    obtain ⟨hfound, -⟩ := Option.filter_eq_some_iff.mp hcheck
    obtain ⟨rfl, hval⟩ := checkPortId_directionCode hfound
    refine ⟨h.maxPorts, h.nPorts, ?_, fun d' j hio => ?_⟩
    · refine Eq.trans ?_ h.valid
      rw [valid_setPort]
      dsimp only
      rw [show (that.ports found.1 found.2).valid = that.valid found.1 found.2 from rfl,
        Function.update_eq_self, Function.update_eq_self]
    · by_cases hsame : d' = found.1 ∧ j = found.2
      · obtain ⟨rfl, rfl⟩ := hsame
        exact .inr ⟨rfl, hval ▸ hid⟩
      · dsimp only at hio
        rw [ports_setPort_of_ne (not_and_or.mp hsame)] at hio
        exact h.io d' j hio

/-- The ids that are read are those of the valid ports, when these are below the maximum. -/
theorem reportedIds_lt (h : this.Consistent) (array : Nat → UInt32)
    (hvalid : ∀ i, (this.ports d i).valid → i.val < (this.maxPorts d).toNat) :
    ∀ id ∈ this.reportedIds d array, id.toNat < (this.maxPorts d).toNat := by
  have hmem : ∀ i ∈ this.validIds d, i.val < (this.maxPorts d).toNat :=
    fun i hi => hvalid i (List.mem_filter.mp hi).2
  have hlength : (this.validIds d).length ≤ (this.maxPorts d).toNat := by
    have hnodup : ((this.validIds d).map Fin.val).Nodup :=
      ((List.nodup_finRange maxIds).filter _).map Fin.val_injective
    have hsub : (this.validIds d).map Fin.val ⊆ List.range (this.maxPorts d).toNat := by
      intro k hk
      obtain ⟨i, hi, rfl⟩ := List.mem_map.mp hk
      exact List.mem_range.mpr (hmem i hi)
    simpa using (List.subperm_of_subset hnodup hsub).length_le
  intro id hid
  obtain ⟨k, hk, rfl⟩ := List.mem_map.mp hid
  have hn : k < (this.validIds d).length := (h.counts d).1 ▸ List.mem_range.mp hk
  rw [(h.counts d).2, List.take_of_length_le hlength, List.getD_eq_getElem?_getD,
    List.getElem?_map, List.getElem?_eq_getElem hn, Option.map_some, Option.getD_some]
  have hlt := hmem _ (List.getElem_mem hn)
  rwa [UInt32.toNat_ofNat_of_lt' (Nat.lt_trans hlt (this.maxPorts d).toNat_lt)]

end ClientNode.SpaProxy

/-! ## Ports that are made -/

namespace UpdatePortIds.Walk

variable {w next : Walk} {P : UInt32 → Prop} {m : Nat}

/-- The ports that are made get ids that were left. -/
theorem loop_portId {fuel : Nat} (h : loop fuel w = some next) (hids : ∀ id ∈ w.ids, P id)
    (hmade : ∀ p, m ≤ p → p < w.made → P (w.portId p)) :
    ∀ p, m ≤ p → p < next.made → P (next.portId p) := by
  induction fuel generalizing w with
  | zero => cases h
  | succ fuel ih =>
    rw [loop] at h
    have hadded : ∀ id ids, w.ids = id :: ids → loop fuel (w.added id) = some next →
        ∀ p, m ≤ p → p < next.made → P (next.portId p) := by
      intro id ids hcons hloop
      refine ih hloop (fun id' hid' => hids id' (List.mem_of_mem_tail hid')) fun p hm hp => ?_
      show P (Function.update w.portId w.made id p)
      by_cases hsame : p = w.made
      · rw [hsame, Function.update_self]
        exact hids id (hcons ▸ List.mem_cons_self)
      · rw [Function.update_of_ne hsame]
        exact hmade p hm (Nat.lt_of_le_of_ne (Nat.le_of_lt_succ hp) hsame)
    cases hcons : w.ids with
    | nil =>
      cases hports : w.ports with
      | none =>
        rw [turn, hcons, hports] at h
        cases h
        exact hmade
      | some p =>
        rw [turn, hcons, hports] at h
        exact ih h (fun id hid => hids id hid) hmade
    | cons id ids =>
      cases hports : w.ports with
      | none =>
        rw [turn, hcons, hports] at h
        exact hadded id ids hcons h
      | some p =>
        rw [turn, hcons, hports] at h
        dsimp only at h
        split at h
        · exact ih h (fun id' hid' => hids id' (List.mem_of_mem_tail hid')) hmade
        · exact hadded id ids hcons h

end UpdatePortIds.Walk

namespace ClientPorts

variable {s : ClientPorts Format} {t : NodePorts (ClientNode.SpaProxy Format)}
  {d d' : PinosDirection}

/-- What the loop starts from has no ports. -/
theorem walk_has : { Walk.empty with portId := t.portId, made := t.made }.Has [] :=
  ⟨Walk.empty_has.1, fun _ hp => nomatch hp⟩

/-- `update_port_ids` comes to an end. -/
theorem loop_ends (ids : List UInt32) : ∃ next, (walk t ids).loop (turns ids) = some next := by
  obtain ⟨next, hloop, -⟩ := (walk_has (t := t)).updatePortIds ids
  exact ⟨next, hloop⟩

theorem updateIndexes_inRange {array : Nat → UInt32}
    (h : ∀ id ∈ (t.spa 0).reportedIds d array, id.toNat < ((t.spa 0).maxPorts d).toNat) :
    ∀ i ∈ updateIndexes t d array, i.1 < i.2 := by
  intro i hi
  obtain ⟨id, hid, rfl⟩ := List.mem_map.mp hi
  exact ((walk_has (t := t)).at_start).mapIndexes _ rfl (fun e he => nomatch he) h id hid

/-- What is left of `update_port_ids` when the ids are below the maximum. -/
theorem updatePorts_given {array : Nat → UInt32}
    (h : ∀ id ∈ (t.spa 0).reportedIds d array, id.toNat < ((t.spa 0).maxPorts d).toNat) :
    ClientNode.SpaProxy.IoGiven (t.spa 0) ((updatePorts t d array).spa 0) d
        (fun i => i < ((t.spa 0).maxPorts d).toNat) ∧
      ((updatePorts t d array).maps 0 d).maxPorts = (t.spa 0).maxPorts d ∧
      ∀ d' ≠ d, (updatePorts t d array).maps 0 d' = t.maps 0 d' := by
  obtain ⟨next, hloop⟩ := loop_ends (t := t) ((t.spa 0).reportedIds d array)
  have hids := Walk.loop_portId (m := t.made) hloop h
    fun p hm hp => absurd hm (Nat.not_le_of_lt hp)
  rw [updatePorts, hloop]
  dsimp only [portsUpdated]
  rw [Function.update_self, Function.update_self, Function.update_self]
  refine ⟨?_, rfl, fun d' hd => Function.update_of_ne hd ..⟩
  -- each port that is made gives its io
  have hrange : ∀ p ∈ List.range' t.made (next.made - t.made),
      (next.portId p).toNat < ((t.spa 0).maxPorts d).toNat := by
    intro p hp
    obtain ⟨hle, hlt⟩ := List.mem_range'_1.mp hp
    exact hids p hle (by omega)
  generalize List.range' t.made (next.made - t.made) = made at hrange
  suffices hfold : ∀ that, ClientNode.SpaProxy.IoGiven (t.spa 0) that d
      (fun i => i < ((t.spa 0).maxPorts d).toNat) →
      ClientNode.SpaProxy.IoGiven (t.spa 0) (made.foldl
        (fun this p => (proxyCalls Format).portSetIo this d (next.portId p) p) that) d
        (fun i => i < ((t.spa 0).maxPorts d).toNat) from hfold _ .refl
  induction made with
  | nil => exact fun that hthat => hthat
  | cons p made ih =>
    intro that hthat
    exact ih (fun q hq => hrange q (List.mem_cons_of_mem p hq)) _
      (hthat.portSetIo (hrange p List.mem_cons_self))

theorem freeIndexes_inRange (m : PortMap) : ∀ i ∈ freeIndexes m, i.1 < i.2 := by
  intro i hi
  obtain ⟨k, hk, rfl⟩ := List.mem_map.mp hi
  exact List.mem_range.mp (List.mem_of_mem_take hk)

/-! ## The indexes over runs -/

/-- No port has an io before the initialisation completes, and after that its id is below the
number of slots, which is the length of the map. -/
structure Inv (s : ClientPorts Format) : Prop where
  counts : s.proxy.Consistent
  before : s.transport = none → ∀ d i, (s.proxy.ports d i).io = none
  after : ∀ n, s.transport = some n → ∀ d, n d = (s.table.maps 0 d).maxPorts ∧
    ∀ i, (s.proxy.ports d i).io ≠ none → i.val < (n d).toNat

theorem Inv.slotIndexes (h : s.Inv) (d : PinosDirection) :
    ∀ i ∈ s.slotIndexes d, i.1 < i.2 := by
  intro i hi
  obtain ⟨k, hk, rfl⟩ := List.mem_map.mp hi
  have hio : (s.proxy.ports d k).io ≠ none :=
    Option.isSome_iff_ne_none.mp (List.mem_filter.mp hk).2
  cases htransport : s.transport with
  | none => exact absurd (h.before htransport d k) hio
  | some n => exact (h.after n htransport d).2 k hio

theorem consistent_given {this that : ClientNode.SpaProxy Format} {P : Nat → Prop}
    (h : this.Consistent) (hgiven : ClientNode.SpaProxy.IoGiven this that d P) :
    that.Consistent := by
  intro d'
  rw [hgiven.valid, hgiven.nPorts]
  exact h d'

/-- The initialisation is in range, and all is ready for the slots after it. -/
theorem Inv.initComplete (h : s.Inv) (htransport : s.transport = none)
    (arrays : PinosDirection → Nat → UInt32) (hok : s.InitInRange (.initComplete arrays)) :
    s.InRange (.initComplete arrays) ∧ (s.initComplete arrays).Inv := by
  have hinput := ClientNode.SpaProxy.reportedIds_lt h.counts (arrays .input) (hok .input)
  obtain ⟨hgiven, hmax, hother⟩ := updatePorts_given hinput
  have hcounts := consistent_given h.counts hgiven
  -- the outputs are as they were
  have hok' : ∀ i, (((updatePorts s.table .input (arrays .input)).spa 0).ports .output i).valid →
      i.val < (((updatePorts s.table .input (arrays .input)).spa 0).maxPorts .output).toNat := by
    intro i hi
    rw [hgiven.maxPorts]
    exact hok .output i ((congrFun (congrFun hgiven.valid .output) i).symm.trans hi)
  have houtput := ClientNode.SpaProxy.reportedIds_lt hcounts (arrays .output) hok'
  obtain ⟨hgiven', hmax', hother'⟩ := updatePorts_given houtput
  constructor
  · intro i hi
    rw [indexes, htransport, if_neg (by exact Bool.false_ne_true)] at hi
    rcases List.mem_append.mp hi with hi | hi
    · exact updateIndexes_inRange hinput i hi
    · exact updateIndexes_inRange houtput i hi
  · refine ⟨consistent_given hcounts hgiven', fun hnone => (nomatch hnone), fun n hn d => ?_⟩
    cases hn
    refine ⟨rfl, fun i hio => ?_⟩
    cases d with
    | input =>
      show i.val < ((updatePorts _ _ _).maps 0 .input).maxPorts.toNat
      rw [hother' .input (by decide), hmax]
      rcases hgiven'.io .input i hio with hio | ⟨hd, -⟩
      · rcases hgiven.io .input i hio with hio | ⟨-, hlt⟩
        · exact absurd (h.before htransport .input i) hio
        · exact hlt
      · exact absurd hd (by decide)
    | output =>
      show i.val < ((updatePorts _ _ _).maps 0 .output).maxPorts.toNat
      rw [hmax']
      rcases hgiven'.io .output i hio with hio | ⟨-, hlt⟩
      · rcases hgiven.io .output i hio with hio | ⟨hd, -⟩
        · exact absurd (h.before htransport .output i) hio
        · exact absurd hd (by decide)
      · exact hlt

/-- A port that is made gets an id below the maximum. -/
theorem Inv.getFreePort (h : s.Inv) {n : PinosDirection → UInt32} (htransport : s.transport = some n)
    (d : PinosDirection) :
    ({ s with table := (s.table.getFreePort (proxyCalls Format) 0 d).2 } : ClientPorts Format).Inv := by
  by_cases hcreates : ∃ id, s.table.Creates 0 d id
  · obtain ⟨id, hcreates⟩ := hcreates
    rw [NodePorts.getFreePort_eq_create hcreates]
    have hid : id.toNat < (n d).toNat := by
      rw [((h.after n htransport d).1)]
      exact UInt32.lt_iff_toNat_lt.mp (NodePorts.freeId_eq_some hcreates.2.2).2
    have hadd := h.counts.portStep (.addPort (directionCode d) id)
    have hgiven : ClientNode.SpaProxy.IoGiven (s.proxy.addPort (directionCode d) id).1
        ((s.table.createPort (proxyCalls Format) 0 d id).spa 0) d
        (fun i => i < (n d).toNat) := by
      rw [NodePorts.spa_createPort]
      split
      · exact .refl
      · exact ClientNode.SpaProxy.IoGiven.refl.portSetIo hid
    refine ⟨consistent_given hadd hgiven, fun hnone => ?_, fun n' hn d' => ?_⟩
    · exact absurd (htransport.symm.trans hnone) (by exact fun he => nomatch he)
    · have hn' : n = n' := Option.some.inj (htransport.symm.trans hn)
      subst hn'
      have hafter := h.after n htransport d'
      constructor
      · by_cases hd : d' = d
        · subst hd
          rw [NodePorts.maps_createPort]
          exact hafter.1
        · rw [NodePorts.maps_createPort_of_ne (.inr hd)]
          exact hafter.1
      · intro i hio
        rcases hgiven.io d' i hio with hio | ⟨rfl, hlt⟩
        · have hsame : ((s.proxy.addPort (directionCode d) id).1.ports d' i).io =
              (s.proxy.ports d' i).io :=
            ClientNode.SpaProxy.io_portStep (.addPort (directionCode d) id)
          exact hafter.2 i (hsame ▸ hio)
        · exact hlt
  · obtain ⟨port, hcall, -⟩ :=
      NodePorts.getFreePort_eq_found (proxyCalls Format) (not_exists.mp hcreates)
    rw [hcall]
    exact h

/-- What the proxy is told changes no io. -/
theorem Inv.call (h : s.Inv) (c : PortCall Format) : (s.setProxy (s.proxy.portStep c)).Inv := by
  have hproxy : (s.setProxy (s.proxy.portStep c)).proxy = s.proxy.portStep c := by
    show Function.update s.table.spa 0 _ 0 = _
    exact Function.update_self ..
  refine ⟨?_, fun hnone d i => ?_, fun n hn d => ⟨(h.after n hn d).1, fun i hio => ?_⟩⟩
  · rw [hproxy]
    exact h.counts.portStep c
  · rw [hproxy, ClientNode.SpaProxy.io_portStep]
    exact h.before hnone d i
  · rw [hproxy, ClientNode.SpaProxy.io_portStep] at hio
    exact (h.after n hn d).2 i hio

theorem Inv.step (s : ClientPorts Format) (e : PortEvent Format) (h : s.Inv)
    (hok : s.InitInRange e) : s.InRange e ∧ (s.portStep e).Inv := by
  cases e with
  | call c => exact ⟨fun i hi => (nomatch hi), h.call c⟩
  | initComplete arrays =>
    cases htransport : s.transport with
    | none =>
      rw [portStep, htransport, if_neg (by exact Bool.false_ne_true)]
      exact h.initComplete htransport arrays hok
    | some n =>
      rw [portStep, InRange, indexes, htransport, if_pos (by rfl), if_pos (by rfl)]
      exact ⟨fun i hi => (nomatch hi), h⟩
  | getFreePort d =>
    constructor
    · intro i hi
      rw [indexes] at hi
      split at hi
      · exact freeIndexes_inRange _ i hi
      · cases hi
    · cases htransport : s.transport with
      | none =>
        rw [portStep, htransport, if_neg (by exact Bool.false_ne_true)]
        exact h
      | some n =>
        rw [portStep, if_pos (by rw [htransport]; rfl)]
        exact h.getFreePort htransport d
  | relink p links => exact ⟨fun i hi => (nomatch hi), ⟨h.counts, h.before, h.after⟩⟩
  | processInput => exact ⟨h.slotIndexes .input, h⟩
  | processOutput => exact ⟨h.slotIndexes .output, h⟩
  | haveOutput => exact ⟨h.slotIndexes .output, h⟩

theorem inv_init (formatBuffer : PodBuffer) : (init formatBuffer : ClientPorts Format).Inv where
  counts := ClientNode.SpaProxy.consistent_empty formatBuffer
  before _ _ _ := rfl
  after _ hn := nomatch hn

/-- Where the ids of the ports are below what the client has told when the initialisation
completes, all indexes are in range whatever is done before and after. -/
theorem run_in_range (formatBuffer : PodBuffer) (events : List (PortEvent Format))
    (h : Run.Along portStep InitInRange (init formatBuffer) events) :
    Run.Along portStep InRange (init formatBuffer) events :=
  Run.along_of Inv Inv.step (inv_init formatBuffer) h

end ClientPorts
end Node

namespace ClientPorts

/-- The client tells of a maximum, and of one input port. -/
def onePort (maxPorts portId : UInt32) : List (PortEvent Unit) :=
  [.call (.update 3 maxPorts maxPorts),
    .call (.portUpdate 0 portId ⟨ClientNode.possibleFormatsFlag, .nil, none, none⟩),
    .initComplete fun _ _ => 0]

/-- Both have one port at most, and the client has made the input port. -/
theorem run_in_range_one :
    Run.Along portStep InRange (init ⟨fun _ => 0, 0⟩)
      (onePort 1 0 ++ [.getFreePort .output, .processInput, .processOutput]) := by
  refine run_in_range ⟨fun _ => 0, 0⟩ _ ⟨trivial, trivial, fun d i => ?_, trivial, trivial, trivial,
    trivial⟩
  revert i
  cases d <;> decide +kernel

/-- A port with an id that is not below the maximum goes past the end of the map. -/
theorem not_run_in_range :
    ¬ ∀ (formatBuffer : PodBuffer) (events : List (PortEvent Unit)),
      Run.Along portStep InRange (init formatBuffer) events := by
  intro h
  have hrange := (h ⟨fun _ => 0, 0⟩ (onePort 1 5)).2.2.1
  exact absurd (hrange (5, 1) (by decide +kernel)) (by decide)

end ClientPorts
end Pinos
