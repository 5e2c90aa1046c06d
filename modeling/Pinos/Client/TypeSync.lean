import Pinos.Client.RemapTree
import Pinos.Client.TypeMap
import Pinos.Lib.Run
import Mathlib.Logic.Function.Basic

/-
A client and the server, each with its own ids of the type names.

Every message starts with `core_update_map`, which tells the other side the names
that are new since the last message, and `update_types` enters them there.  The
connection is taken to deliver the messages of a side in order.  Calls that carry no
type ids are those with nothing to translate.
-/

namespace Pinos

open ByteMem

inductive Party
  | client
  | server
  deriving DecidableEq

def Party.other : Party → Party
  | client => server
  | server => client

@[simp] theorem Party.other_other (p : Party) : p.other.other = p := by
  cases p <;> rfl

@[simp] theorem Party.other_ne (p : Party) : p.other ≠ p := by
  cases p <;> decide

@[simp] theorem Party.ne_other (p : Party) : p ≠ p.other := (Party.other_ne p).symm

theorem Party.forall_of {P : Party → Prop} (p : Party) (h : P p) (h' : P p.other) : ∀ q, P q := by
  intro q
  cases p <;> cases q <;> assumption

/-- What is sent: `update_types`, or another call, with the values in its struct. -/
inductive SyncMessage
  | updateTypes (firstId : UInt32) (types : List CString)
  | call (contents : List Pod)

/-- One side of a connection, the `PinosContext` of a client or the `PinosClient` of the
server: its type map, how many of its types the other side has been told, and the table
of the other side's ids. -/
structure Peer where
  map : TypeMap
  nTypes : UInt32
  types : PinosMap

namespace Peer

def start : Peer := { map := .empty, nTypes := 0, types := .empty }

/-- `core_update_map`.  Ids below the size of the map have a name. -/
def updateMap (peer : Peer) : Peer × List SyncMessage :=
  let base := peer.nTypes
  let diff := UInt32.ofNat peer.map.getSize - base
  if diff = 0 then (peer, [])
  else
    let types := (List.range diff.toNat).filterMap fun i => peer.map.getType (base + .ofNat i)
    ({ peer with nTypes := base + diff }, [.updateTypes base types])

/-- `core_update_types` of the server and `core_event_update_types` of a client. -/
def updateTypes (peer : Peer) (firstId : UInt32) : List CString → Peer
  | [] => peer
  | type :: types =>
    let (map, thisId) := peer.map.getId (some type)
    let table := (peer.types.insertAt firstId (PinosMap.idToPtr thisId)).1
    updateTypes { peer with map, types := table } (firstId + 1) types

def receive (peer : Peer) : SyncMessage → Peer
  | .updateTypes firstId types => peer.updateTypes firstId types
  | .call _ => peer

end Peer

/-- What happens to the types: one side registers a name, sends a call, or handles the
next message that has come in. -/
inductive SyncOp
  | register (p : Party) (type : CString)
  | send (p : Party) (contents : List Pod)
  | deliver (p : Party)

/-- The two sides and the messages each has sent that the other has not handled. -/
structure TypeSync where
  peers : Party → Peer
  sent : Party → List SyncMessage

namespace TypeSync

def start : TypeSync := { peers := fun _ => .start, sent := fun _ => [] }

def step (s : TypeSync) : SyncOp → TypeSync
  | .register p type =>
    let map := ((s.peers p).map.getId (some type)).1
    { s with peers := Function.update s.peers p { s.peers p with map } }
  | .send p contents =>
    let (peer, flush) := (s.peers p).updateMap
    { peers := Function.update s.peers p peer
      sent := Function.update s.sent p (s.sent p ++ flush ++ [.call contents]) }
  | .deliver p =>
    match s.sent p.other with
    | [] => s
    | message :: rest =>
      { peers := Function.update s.peers p ((s.peers p).receive message)
        sent := Function.update s.sent p.other rest }

/-- What `pinos_pod_remap_data` is given of a call: its data, which is one struct. -/
def data (contents : List Pod) : Pod := .struct [.struct contents]

/-- The type ids in a call. -/
def ids (contents : List Pod) : List IdWord := (data contents).idWords 0

/-- The id that `p` itself has for the type with the id `id` of the other side. -/
def localId (s : TypeSync) (p : Party) (id : UInt32) : UInt32 :=
  ((s.peers p).map.getId ((s.peers p.other).map.getType id)).2

/-- A call that is sent is a value that fits its sizes, with types of the sender. -/
def Admits (s : TypeSync) : SyncOp → Prop
  | .send p contents =>
    (data contents).WellFormed ∧
      ∀ w ∈ ids contents, w.id.toNat < (s.peers p).map.getSize
  | _ => True

/-- The type maps can take the names that are added. -/
def HasRoom (s : TypeSync) : SyncOp → Prop
  | .register p type => (s.peers p).map.HasRoom [type]
  | .deliver p =>
    match s.sent p.other with
    | .updateTypes _ types :: _ => (s.peers p).map.HasRoom types
    | _ => True
  | .send _ _ => True

instance (s : TypeSync) : ∀ op, Decidable (s.HasRoom op)
  | .register _ _ => inferInstanceAs (Decidable (TypeMap.HasRoom _ _))
  | .send _ _ => inferInstanceAs (Decidable True)
  | .deliver p =>
    show Decidable (match s.sent p.other with
      | .updateTypes _ types :: _ => (s.peers p).map.HasRoom types
      | _ => True) from
    match s.sent p.other with
    | .updateTypes _ _ :: _ => inferInstanceAs (Decidable (TypeMap.HasRoom _ _))
    | .call _ :: _ => inferInstanceAs (Decidable True)
    | [] => inferInstanceAs (Decidable True)

/-- A call that comes in is translated to the ids of the receiver. -/
def Right (s : TypeSync) : SyncOp → Prop
  | .deliver p =>
    match s.sent p.other with
    | .call contents :: _ => ∀ (m : Mem) (a : Nat), m.Holds a (data contents).body →
      ∃ fuel s', (s.peers p).types.remapData fuel (data contents).type.code a
          (data contents).body.length ⟨m, []⟩ = some (true, s') ∧
        ∀ w ∈ (data contents).idWords a, s'.mem.u32 w.address = (s.localId p w.id).toNat
    | _ => True
  | _ => True

/-- Ids that are visited have an image that can be stored and told from an empty slot,
and the others are the same on both sides. -/
def Safe (s : TypeSync) : SyncOp → Prop
  | .deliver p =>
    match s.sent p.other with
    | .call contents :: _ => ∀ w ∈ ids contents,
      if w.visited then 0 < (s.localId p w.id).toNat ∧ (s.localId p w.id).toNat < 2 ^ 31
      else s.localId p w.id = w.id
    | _ => True
  | _ => True

instance (s : TypeSync) : ∀ op, Decidable (s.Safe op)
  | .register _ _ | .send _ _ => inferInstanceAs (Decidable True)
  | .deliver p =>
    show Decidable (match s.sent p.other with
      | .call contents :: _ => ∀ w ∈ ids contents,
        if w.visited then 0 < (s.localId p w.id).toNat ∧ (s.localId p w.id).toNat < 2 ^ 31
        else s.localId p w.id = w.id
      | _ => True) from
    match s.sent p.other with
    | .call contents :: _ => inferInstanceAs (Decidable (∀ w ∈ ids contents, ite _ _ _))
    | .updateTypes _ _ :: _ => inferInstanceAs (Decidable True)
    | [] => inferInstanceAs (Decidable True)

end TypeSync

/-! ## What one side knows of the other -/

open Intern

/-- `ours` are the names of a side, and its table has the first `k` of `theirs`. -/
structure Knows (map : TypeMap) (table : PinosMap) (ours theirs : List CString) (k : Nat) :
    Prop where
  holds : map.Holds ours
  table : ∃ images : List Nat, table.items = images.map (fun j => PinosMap.idToPtr (.ofNat j)) ∧
    images.length = k ∧ Translates theirs ours images

namespace Knows

variable {map map' : TypeMap} {table : PinosMap} {ours ours' theirs theirs' : List CString} {k : Nat}

theorem start : Knows .empty .empty [] theirs 0 where
  holds := TypeMap.holds_empty
  table := ⟨[], rfl, rfl, .nil _ _⟩

theorem grow (h : Knows map table ours theirs k) (hmap : map'.Holds ours')
    (hours : ours <+: ours') : Knows map' table ours' theirs k where
  holds := hmap
  table := by
    obtain ⟨images, hitems, hlength, htranslates⟩ := h.table
    exact ⟨images, hitems, hlength, htranslates.mono (List.prefix_refl _) hours⟩

theorem mono (h : Knows map table ours theirs k) (htheirs : theirs <+: theirs') :
    Knows map table ours theirs' k where
  holds := h.holds
  table := by
    obtain ⟨images, hitems, hlength, htranslates⟩ := h.table
    exact ⟨images, hitems, hlength, htranslates.mono htheirs (List.prefix_refl _)⟩

/-- The table has the own id of each name it has. -/
theorem lookup (h : Knows map table ours theirs k) {theirMap : TypeMap}
    (htheirs : theirMap.Holds theirs) {id : UInt32} (hid : id.toNat < k) :
    table.lookup id.toNat = PinosMap.idToPtr (map.getId (theirMap.getType id)).2 := by
  obtain ⟨images, hitems, rfl, htranslates⟩ := h.table
  have himage : images[id.toNat]? = some images[id.toNat] := List.getElem?_eq_getElem hid
  obtain ⟨type, htheir, hour⟩ := htranslates _ _ himage
  have hknown : (map.getId (some type)).2 = .ofNat images[id.toNat] := by
    rw [h.holds.getId_known hour]
  rw [htheirs.getType, htheir, hknown]
  apply PinosMap.lookup_idToPtr
  rw [hitems, List.getElem?_map, himage, Option.map_some]

/-- Entering the next name. -/
theorem enter (h : Knows map table ours theirs k) {firstId : UInt32} (hfirst : firstId.toNat = k)
    {type : CString} (htype : theirs[k]? = some type) (hroom : map.HasRoom [type]) :
    ∃ ours', ours <+: ours' ∧
      Knows (map.getId (some type)).1
        (table.insertAt firstId (PinosMap.idToPtr (map.getId (some type)).2)).1 ours' theirs
        (k + 1) := by
  obtain ⟨hmap, hid⟩ := h.holds.getId hroom
  obtain ⟨images, hitems, rfl, htranslates⟩ := h.table
  have hsize : firstId.toNat = table.size := by
    rw [hfirst, PinosMap.size, hitems, List.length_map]
  refine ⟨_, prefix_intern ours type, hmap, ?_⟩
  refine ⟨images ++ [(intern ours type).2], ?_, ?_, ?_⟩
  · rw [PinosMap.insertAt, if_neg (by omega), if_pos hsize, hid, List.map_append, hitems]
    rfl
  · rw [List.length_append, List.length_singleton]
  · exact (htranslates.mono (List.prefix_refl _) (prefix_intern ours type)).concat htype
      (intern_getElem? ours type)

end Knows

namespace Peer

variable {peer : Peer} {ours theirs : List CString} {k : Nat}

@[simp] theorem updateTypes_nTypes (peer : Peer) (firstId : UInt32) (types : List CString) :
    (peer.updateTypes firstId types).nTypes = peer.nTypes := by
  induction types generalizing peer firstId with
  | nil => rfl
  | cons type types ih => exact ih _ _

/-- `update_types` with the names that come next. -/
theorem updateTypes_knows (h : Knows peer.map peer.types ours theirs k) {firstId : UInt32}
    (hfirst : firstId.toNat = k) {types : List CString} (htypes : types <+: theirs.drop k)
    (htheirs : theirs.length < 2 ^ 32) (hroom : peer.map.HasRoom types) :
    ∃ ours', ours <+: ours' ∧
      Knows (peer.updateTypes firstId types).map (peer.updateTypes firstId types).types ours' theirs
        (k + types.length) := by
  induction types generalizing peer ours k firstId with
  | nil => exact ⟨ours, List.prefix_refl _, h⟩
  | cons type types ih =>
    obtain ⟨htype, hrest⟩ := prefix_drop_cons htypes
    have hlt : k < theirs.length := (List.getElem?_eq_some_iff.mp htype).1
    obtain ⟨middle, hgrows, hknows⟩ := h.enter hfirst htype hroom.head
    have hnext : (firstId + 1).toNat = k + 1 := by
      have hone : (1 : UInt32).toNat = 1 := rfl
      rw [UInt32.toNat_add, hfirst, hone]
      exact Nat.mod_eq_of_lt (by omega)
    obtain ⟨entered, hentered⟩ : ∃ entered : Peer, entered = { peer with
        map := (peer.map.getId (some type)).1
        types := (peer.types.insertAt firstId (PinosMap.idToPtr (peer.map.getId (some type)).2)).1 } :=
      ⟨_, rfl⟩
    have hstart : Knows entered.map entered.types middle theirs (k + 1) := by
      rw [hentered]
      exact hknows
    have hleft : entered.map.HasRoom types := by
      rw [hentered]
      exact hroom.tail
    obtain ⟨last, hgrows', hlast⟩ := ih hstart hnext hrest hleft
    rw [hentered] at hlast
    refine ⟨last, hgrows.trans hgrows', ?_⟩
    rw [List.length_cons, Nat.add_comm types.length 1, ← Nat.add_assoc]
    exact hlast

end Peer

/-! ## What is on its way -/

namespace TypeSync

/-- Messages that carry a receiver who knows `k` of the names to where it knows `n`, and
use no name before it is known. -/
def Pending (names : List CString) : Nat → List SyncMessage → Nat → Prop
  | k, [], n => k = n
  | k, .updateTypes firstId types :: rest, n =>
    (firstId.toNat = k ∧ types <+: names.drop k) ∧ Pending names (k + types.length) rest n
  | k, .call contents :: rest, n =>
    ((data contents).WellFormed ∧ ∀ w ∈ ids contents, w.id.toNat < k) ∧ Pending names k rest n

variable {names names' : List CString} {k n n' : Nat} {messages messages' : List SyncMessage}

theorem Pending.mono (h : Pending names k messages n) (hnames : names <+: names') :
    Pending names' k messages n := by
  induction messages generalizing k with
  | nil => exact h
  | cons message rest ih =>
    cases message with
    | updateTypes firstId types =>
      obtain ⟨⟨hfirst, htypes⟩, hrest⟩ := h
      obtain ⟨more, rfl⟩ := hnames
      have hdrop : names.drop k <+: (names ++ more).drop k := by
        rw [List.drop_append]
        exact List.prefix_append _ _
      exact ⟨⟨hfirst, htypes.trans hdrop⟩, ih hrest⟩
    | call contents => exact ⟨h.1, ih h.2⟩

theorem Pending.append (h : Pending names k messages n) (h' : Pending names n messages' n') :
    Pending names k (messages ++ messages') n' := by
  induction messages generalizing k with
  | nil =>
    obtain rfl : k = n := h
    exact h'
  | cons message rest ih =>
    cases message with
    | updateTypes firstId types => exact ⟨h.1, ih h.2⟩
    | call contents => exact ⟨h.1, ih h.2⟩

/-- `core_update_map` tells the names from `n_types` on. -/
theorem updateMap_pending {peer : Peer} (h : peer.map.Holds names)
    (htold : peer.nTypes.toNat ≤ names.length) :
    peer.updateMap.1.map = peer.map ∧ peer.updateMap.1.types = peer.types ∧
      peer.updateMap.1.nTypes.toNat = names.length ∧
      Pending names peer.nTypes.toNat peer.updateMap.2 names.length := by
  have hbound := h.bound
  have hsize : peer.map.getSize = names.length := h.size
  obtain ⟨diff, hdiff⟩ : ∃ diff, diff = UInt32.ofNat peer.map.getSize - peer.nTypes := ⟨_, rfl⟩
  have hnat : diff.toNat = names.length - peer.nTypes.toNat := by
    have hofNat : (UInt32.ofNat names.length).toNat = names.length :=
      UInt32.toNat_ofNat_of_lt' hbound
    rw [hdiff, hsize, UInt32.toNat_sub_of_le, hofNat]
    rw [UInt32.le_iff_toNat_le, hofNat]
    exact htold
  unfold Peer.updateMap
  dsimp only
  rw [← hdiff]
  by_cases hzero : diff = 0
  · rw [if_pos hzero]
    have hnone : names.length - peer.nTypes.toNat = 0 := by rw [← hnat, hzero]; rfl
    have heq : peer.nTypes.toNat = names.length := by omega
    exact ⟨rfl, rfl, heq, heq⟩
  · rw [if_neg hzero]
    have htypes : ((List.range diff.toNat).filterMap fun i =>
        peer.map.getType (peer.nTypes + .ofNat i)) = names.drop peer.nTypes.toNat := by
      have hlookup : ∀ i ∈ List.range diff.toNat,
          peer.map.getType (peer.nTypes + .ofNat i) = names[peer.nTypes.toNat + i]? := by
        intro i hi
        have hlt := List.mem_range.mp hi
        have hi' : i < 2 ^ 32 := by omega
        rw [h.getType, UInt32.toNat_add, UInt32.toNat_ofNat_of_lt' hi',
          Nat.mod_eq_of_lt (by omega)]
      rw [List.filterMap_congr hlookup, filterMap_range, hnat, ← List.length_drop, List.take_length]
    rw [htypes]
    have hnext : (peer.nTypes + diff).toNat = names.length := by
      rw [UInt32.toNat_add, hnat, Nat.mod_eq_of_lt (by omega)]
      omega
    refine ⟨rfl, rfl, hnext, ⟨rfl, List.prefix_refl _⟩, ?_⟩
    show peer.nTypes.toNat + (names.drop peer.nTypes.toNat).length = names.length
    rw [List.length_drop]
    omega

/-! ## Every run -/

/-- What holds of the messages to a receiver with the names `ours` from a sender with the
names `theirs`, of which it has sent the first `told`. -/
structure Channel (told : Nat) (map : TypeMap) (table : PinosMap) (queue : List SyncMessage)
    (ours theirs : List CString) : Prop where
  told_le : told ≤ theirs.length
  learned : ∃ k, Knows map table ours theirs k ∧ Pending theirs k queue told

namespace Channel

variable {told : Nat} {map map' : TypeMap} {table : PinosMap} {queue : List SyncMessage}
  {ours ours' theirs theirs' : List CString}

theorem grow (h : Channel told map table queue ours theirs) (hmap : map'.Holds ours')
    (hours : ours <+: ours') : Channel told map' table queue ours' theirs where
  told_le := h.told_le
  learned := by
    obtain ⟨k, hknows, hpending⟩ := h.learned
    exact ⟨k, hknows.grow hmap hours, hpending⟩

theorem mono (h : Channel told map table queue ours theirs) (htheirs : theirs <+: theirs') :
    Channel told map table queue ours theirs' where
  told_le := Nat.le_trans h.told_le htheirs.length_le
  learned := by
    obtain ⟨k, hknows, hpending⟩ := h.learned
    exact ⟨k, hknows.mono htheirs, hpending.mono htheirs⟩

theorem holds (h : Channel told map table queue ours theirs) : map.Holds ours := by
  obtain ⟨k, hknows, -⟩ := h.learned
  exact hknows.holds

end Channel

def Inv (s : TypeSync) : Prop :=
  ∃ names : Party → List CString, ∀ p,
    Channel (s.peers p.other).nTypes.toNat (s.peers p).map (s.peers p).types (s.sent p.other)
      (names p) (names p.other)

theorem inv_start : start.Inv :=
  ⟨fun _ => [], fun _ => ⟨Nat.le_refl 0, 0, .start, rfl⟩⟩

theorem inv_register {s : TypeSync} (h : s.Inv) {p : Party} {type : CString}
    (hroom : (s.peers p).map.HasRoom [type]) : (s.step (.register p type)).Inv := by
  obtain ⟨names, hchannel⟩ := h
  have hgrows := prefix_intern (names p) type
  have hmap := ((hchannel p).holds.getId hroom).1
  refine ⟨Function.update names p (intern (names p) type).1, Party.forall_of p ?_ ?_⟩
  · have := (hchannel p).grow hmap hgrows
    simpa [step] using this
  · have hseen : names p.other.other <+: (intern (names p) type).1 := by simpa using hgrows
    have := (hchannel p.other).mono hseen
    simpa [step] using this

theorem inv_send {s : TypeSync} (h : s.Inv) {p : Party} {contents : List Pod}
    (hadmits : s.Admits (.send p contents)) : (s.step (.send p contents)).Inv := by
  obtain ⟨names, hchannel⟩ := h
  obtain ⟨hwf, hids⟩ := hadmits
  have hmap := (hchannel p).holds
  have hback := hchannel p.other
  rw [Party.other_other] at hback
  obtain ⟨hmap', htypes', htold, hflush⟩ := updateMap_pending hmap hback.told_le
  refine ⟨names, Party.forall_of p ?_ ?_⟩
  · have := hchannel p
    simpa [step, hmap', htypes'] using this
  · obtain ⟨k, hknows, hpending⟩ := hback.learned
    have hsize : (s.peers p).map.getSize = (names p).length := hmap.size
    rw [hsize] at hids
    have hcall : Pending (names p) (names p).length [.call contents] (names p).length :=
      ⟨⟨hwf, hids⟩, rfl⟩
    have hqueue := (hpending.append hflush).append hcall
    have : Channel (s.peers p).updateMap.1.nTypes.toNat (s.peers p.other).map
        (s.peers p.other).types (s.sent p ++ (s.peers p).updateMap.2 ++ [.call contents])
        (names p.other) (names p) :=
      ⟨Nat.le_of_eq htold, k, hknows, by rw [htold]; exact hqueue⟩
    simpa [step] using this

theorem inv_deliver {s : TypeSync} (h : s.Inv) {p : Party} (hroom : s.HasRoom (.deliver p)) :
    (s.step (.deliver p)).Inv := by
  obtain ⟨names, hchannel⟩ := h
  obtain ⟨k, hknows, hpending⟩ := (hchannel p).learned
  have hback := hchannel p.other
  cases hqueue : s.sent p.other with
  | nil =>
    rw [step, hqueue]
    exact ⟨names, hchannel⟩
  | cons message rest =>
    rw [hqueue] at hpending
    rw [HasRoom, hqueue] at hroom
    cases message with
    | call contents =>
      have hthis : Channel (s.peers p.other).nTypes.toNat (s.peers p).map (s.peers p).types rest
          (names p) (names p.other) := ⟨(hchannel p).told_le, k, hknows, hpending.2⟩
      refine ⟨names, Party.forall_of p ?_ ?_⟩
      · simpa [step, hqueue, Peer.receive] using hthis
      · simpa [step, hqueue, Peer.receive] using hback
    | updateTypes firstId types =>
      obtain ⟨⟨hfirst, htypes⟩, hrest⟩ := hpending
      have htheirs : (names p.other).length < 2 ^ 32 := hback.holds.bound
      obtain ⟨ours, hgrows, hlast⟩ := Peer.updateTypes_knows hknows hfirst htypes htheirs hroom
      have hthis : Channel (s.peers p.other).nTypes.toNat
          ((s.peers p).updateTypes firstId types).map ((s.peers p).updateTypes firstId types).types
          rest ours (names p.other) := ⟨(hchannel p).told_le, _, hlast, hrest⟩
      refine ⟨Function.update names p ours, Party.forall_of p ?_ ?_⟩
      · simpa [step, hqueue, Peer.receive] using hthis
      · have hseen : names p.other.other <+: ours := by simpa using hgrows
        have := hback.mono hseen
        simpa [step, hqueue, Peer.receive] using this

theorem inv_step (s : TypeSync) (op : SyncOp) (h : s.Inv)
    (hadmits : s.Admits op ∧ s.HasRoom op) : (s.step op).Inv := by
  cases op with
  | register p type => exact inv_register h hadmits.2
  | send p contents => exact inv_send h hadmits.1
  | deliver p => exact inv_deliver h hadmits.2

/-- One step. -/
theorem op_right_iff {s : TypeSync} (h : s.Inv) (op : SyncOp) : s.Right op ↔ s.Safe op := by
  cases op with
  | register p type => exact Iff.rfl
  | send p contents => exact Iff.rfl
  | deliver p =>
    rw [Right, Safe]
    obtain ⟨names, hchannel⟩ := h
    cases hqueue : s.sent p.other with
    | nil => exact Iff.rfl
    | cons message rest =>
      cases message with
      | updateTypes firstId types => exact Iff.rfl
      | call contents =>
        obtain ⟨k, hknows, hpending⟩ := (hchannel p).learned
        rw [hqueue] at hpending
        obtain ⟨⟨hwf, hids⟩, -⟩ := hpending
        have hlookup : ∀ w ∈ ids contents, (s.peers p).types.lookup w.id.toNat =
            PinosMap.idToPtr (s.localId p w.id) :=
          fun w hw => hknows.lookup (hchannel p.other).holds (hids w hw)
        constructor
        · intro hright
          exact (Pod.remap_words_iff hwf (Mem.holds_write (fun _ => 0) 4096 _) hlookup).mp
            (hright _ _ (Mem.holds_write _ _ _))
        · intro hsafe m a hm
          exact (Pod.remap_words_iff hwf hm hlookup).mpr hsafe

/-- In every interleaving of registrations, calls in both directions and deliveries, the
calls come in with the ids of the receiver exactly when none of their types has the id 0
there, or one of 2 ^ 31 and above, and ids that are not visited are the same on both
sides. -/
theorem run_translates_iff {ops : List SyncOp} (hadmits : Run.Along step Admits start ops)
    (hroom : Run.Along step HasRoom start ops) :
    Run.Along step Right start ops ↔ Run.Along step Safe start ops := by
  have hboth : Run.Along step (fun s op => s.Admits op ∧ s.HasRoom op) start ops :=
    Run.along_and.mpr ⟨hadmits, hroom⟩
  apply Run.along_iff Inv _ _ inv_start hboth
  · intro s op h _
    exact op_right_iff h op
  · intro s op h hop _
    exact inv_step s op h hop

/-- A call of one id. -/
def oneId (id : Nat) : List Pod := [.leaf (Pod.idLeaf id)]

theorem oneId_wellFormed (id : Nat) : (data (oneId id)).WellFormed := by
  have hlength : (Pod.idLeaf id).body.length = 4 := length_toLE 4 id
  have hleaf : (Pod.leaf (Pod.idLeaf id)).WellFormed := .leaf _ (by rw [hlength]; decide)
  have hbody : (Pod.struct (oneId id)).body.length = 16 := by
    simp [oneId, Pod.body, Pod.contentsBytes, Pod.length_aligned, Pod.length_withHeader, hlength]
    rfl
  have hstruct : (Pod.struct (oneId id)).WellFormed := by
    refine .struct _ ?_ (by rw [hbody]; decide)
    intro p hp
    rw [List.mem_singleton.mp hp]
    exact hleaf
  refine .struct _ ?_ ?_
  · intro p hp
    rw [List.mem_singleton.mp hp]
    exact hstruct
  · have hdata : (data (oneId id)).body.length = 24 := by
      rw [data, Pod.body, Pod.contentsBytes, Pod.contentsBytes, List.append_nil,
        Pod.length_aligned, Pod.length_withHeader, hbody]
      rfl
    rw [data] at hdata
    rw [hdata]
    decide

def nameA : CString := ⟨[97], by decide⟩

def nameB : CString := ⟨[98], by decide⟩

/-- The two sides number two names the other way round, and the client sends the id that
is 1 on the server. -/
def swapped : List SyncOp :=
  [.register .client nameA, .register .client nameB, .register .server nameB,
    .register .server nameA, .send .client (oneId 0), .deliver .server, .deliver .server]

theorem run_translates_iff_swapped :
    (Run.Along step Right start swapped ↔ Run.Along step Safe start swapped) ∧
      Run.Along step Safe start swapped := by
  refine ⟨run_translates_iff ?_ ?_, ?_⟩
  · exact ⟨trivial, trivial, trivial, trivial, ⟨oneId_wellFormed 0, by decide⟩, trivial, trivial,
      trivial⟩
  · exact ⟨by decide, by decide, by decide, by decide, trivial, by decide, trivial, trivial⟩
  · exact ⟨trivial, trivial, trivial, trivial, trivial, trivial, by decide, trivial⟩

/-- Both sides have registered one name, so it has the id 0, and the client uses it. -/
def first : List SyncOp :=
  [.register .client nameA, .register .server nameA, .send .client (oneId 0), .deliver .server,
    .deliver .server]

theorem not_run_translates :
    ¬ ∀ ops, Run.Along step Admits start ops → Run.Along step HasRoom start ops →
      Run.Along step Right start ops := by
  intro h
  have hright := h first
    ⟨trivial, trivial, ⟨oneId_wellFormed 0, by decide⟩, trivial, trivial, trivial⟩
    ⟨by decide, by decide, trivial, by decide, trivial, trivial⟩
  obtain ⟨fuel, s', hrun, -⟩ := hright.2.2.2.2.1 (Mem.write (fun _ => 0) 4096 _) 4096
    (Mem.holds_write _ _ _)
  have hrefused := PinosMap.remapData_unique hrun
    (show PinosMap.remapData _ 5 _ _ _ _ = some (false, _) from rfl)
  cases hrefused

end TypeSync
end Pinos
