import Pinos.Lib.ListCells
import Pinos.Spa.Defs

/-
`update_port_ids` of `server/node.c`, for the ports of one direction.

The list of the ports starts from the cell `none`, and the cell of a port is its number.  A port
that is destroyed is only taken from the list.
-/

namespace Pinos
namespace UpdatePortIds

/-- The variables of the loop, with the ids that are left and the cell that `ports` points to.
`made` ports have been made so far. -/
structure Walk where
  cells : ListCells (Option Nat)
  portId : Nat → UInt32
  made : Nat
  map : UInt32 → Option Nat
  ids : List UInt32
  ports : Option Nat

namespace Walk

/-- A port that is there. -/
def exiting (w : Walk) (p : Nat) : Walk :=
  { w with
    map := Function.update w.map (w.portId p) (some p)
    ids := w.ids.tail
    ports := w.cells.next w.ports }

/-- A port that is added. -/
def added (w : Walk) (id : UInt32) : Walk :=
  let np := w.made
  let cells := w.cells.insert w.ports (some np)
  { cells := cells
    portId := Function.update w.portId np id
    made := np + 1
    map := Function.update w.map id (some np)
    ids := w.ids.tail
    ports := cells.next (some np) }

/-- A port that is removed. -/
def removed (w : Walk) (p : Nat) : Walk :=
  { w with
    cells := w.cells.remove (some p)
    map := Function.update w.map (w.portId p) none
    ports := w.cells.next w.ports }

/-- A turn of the loop, if there is one more. -/
def turn (w : Walk) : Option Walk :=
  match w.ids, w.ports with
  | id :: _, some p => some (if w.portId p = id then w.exiting p else w.added id)
  | id :: _, none => some (w.added id)
  | [], some p => some (w.removed p)
  | [], none => none

/-- The loop, with the turns it may take; `none` when these are not enough. -/
def loop : Nat → Walk → Option Walk
  | 0, _ => none
  | fuel + 1, w =>
    match w.turn with
    | none => some w
    | some next => loop fuel next

/-- Before the loop the map is cleared, and `ports` points to the head of the list. -/
def start (w : Walk) (ids : List UInt32) : Walk :=
  { w with map := fun _ => none, ids := ids, ports := none }

/-- `update_port_ids` for the ids that the spa node reports. -/
def updatePortIds (fuel : Nat) (w : Walk) (ids : List UInt32) : Option Walk :=
  loop fuel (w.start ids)

/-- A node has these ports. -/
def Has (w : Walk) (ports : List Nat) : Prop :=
  w.cells.Holds none (ports.map some) ∧ ∀ p ∈ ports, p < w.made

/-- The ids of some ports. -/
def idsOf (w : Walk) (ports : List Nat) : List UInt32 := ports.map w.portId

/-- A node has exactly one port for each of the ids in their order, the ports of before among
them where their ids are still there, and a map that says so. -/
def Reconciled (before : List Nat) (w : Walk) (ids : List UInt32) (next : Walk) : Prop :=
  ∃ ports, next.Has ports ∧ next.idsOf ports = ids ∧
    (∀ p ∈ before, w.portId p ∈ ids → p ∈ ports) ∧
    ∀ id, next.map id = ports.find? fun p => next.portId p = id

/-! ## The loop on lists of ports -/

/-- A port and its id. -/
abbrev Entry := Nat × UInt32

/-- The turns for the ids: the ports in front of `ports`, those from `ports` on, and the map. -/
def merge (made : Nat) (map : UInt32 → Option Nat) :
    List UInt32 → List Entry → List Entry → List Entry × List Entry × (UInt32 → Option Nat)
  | [], xs, ys => (xs, ys, map)
  | id :: ids, xs, [] =>
    merge (made + 1) (Function.update map id (some made)) ids [(made, id)] xs
  | id :: ids, xs, y :: ys =>
    if y.2 = id then merge made (Function.update map id (some y.1)) ids (xs ++ [y]) ys
    else
      merge (made + 1) (Function.update map id (some made)) ids (xs ++ [y, (made, id)]) ys

/-- The turns for the ports that are left. -/
def unmap (map : UInt32 → Option Nat) (ys : List Entry) : UInt32 → Option Nat :=
  ys.foldl (fun map y => Function.update map y.2 none) map

/-- The list has the entries in `xs` and then those in `ys`, and `ports` points to the first of
these, or the head. -/
structure At (w : Walk) (xs ys : List Entry) : Prop where
  holds : w.cells.Holds none ((xs ++ ys).map fun e => some e.1)
  ports : w.ports = ys.head?.map Prod.fst
  entries : ∀ e ∈ xs ++ ys, w.portId e.1 = e.2 ∧ e.1 < w.made

section At

variable {w : Walk} {xs ys : List Entry} {y : Entry} {id : UInt32} {ids : List UInt32}

theorem At.next (h : w.At xs (y :: ys)) : w.cells.next w.ports = ys.head?.map Prod.fst := by
  have hpath := h.holds.path
  rw [List.map_append, List.map_cons] at hpath
  rw [h.ports]
  refine (ListCells.path_append.mp hpath).2.next_eq.trans ?_
  cases ys <;> rfl

theorem At.exiting (h : w.At xs (y :: ys)) : (w.exiting y.1).At (xs ++ [y]) ys where
  holds := by
    rw [List.append_assoc]
    exact h.holds
  ports := h.next
  entries e he := h.entries e (by rwa [List.append_assoc] at he)

/-- A number that no port has is not in the list. -/
theorem At.fresh (h : w.At xs ys) :
    some w.made ∉ none :: (xs ++ ys).map fun e => (some e.1 : Option Nat) := by
  intro hmem
  rcases List.mem_cons.mp hmem with hnone | hmem
  · cases hnone
  · obtain ⟨e, he, hmade⟩ := List.mem_map.mp hmem
    exact Nat.ne_of_lt (h.entries e he).2 (Option.some.inj hmade)

theorem At.entries_added (h : w.At xs ys) {entries : List Entry}
    (hentries : ∀ e ∈ entries, e = (w.made, id) ∨ e ∈ xs ++ ys) :
    ∀ e ∈ entries, (w.added id).portId e.1 = e.2 ∧ e.1 < (w.added id).made := by
  intro e he
  show Function.update w.portId w.made id e.1 = e.2 ∧ e.1 < w.made + 1
  rcases hentries e he with rfl | he
  · exact ⟨Function.update_self .., Nat.lt_succ_self _⟩
  · obtain ⟨hid, hlt⟩ := h.entries e he
    exact ⟨(Function.update_of_ne (Nat.ne_of_lt hlt) ..).trans hid, Nat.lt_succ_of_lt hlt⟩

/-- At the head of the list a port is put in front of all others. -/
theorem At.added_head (h : w.At xs []) : (w.added id).At [(w.made, id)] xs := by
  have hports : w.ports = none := h.ports
  have hfresh := h.fresh
  have hholds := h.holds
  rw [List.append_nil] at hfresh hholds
  have hinsert := hholds.insert_head hfresh
  refine ⟨?_, ?_, h.entries_added fun e he => ?_⟩
  · show (w.cells.insert w.ports (some w.made)).Holds none _
    rw [hports]
    exact hinsert
  · show (w.cells.insert w.ports (some w.made)).next (some w.made) = _
    rw [hports]
    refine hinsert.path.2.next_eq.trans ?_
    cases xs <;> rfl
  · rw [List.append_nil]
    rcases List.mem_cons.mp he with rfl | he
    · exact .inl rfl
    · exact .inr he

/-- Elsewhere it is put behind the port that `ports` points to. -/
theorem At.added_next (h : w.At xs (y :: ys)) :
    (w.added id).At (xs ++ [y, (w.made, id)]) ys := by
  have hports : w.ports = some y.1 := h.ports
  have hfresh := h.fresh
  have hholds := h.holds
  rw [List.map_append, List.map_cons] at hfresh hholds
  have hinsert := hholds.insert_next hfresh
  refine ⟨?_, ?_, h.entries_added fun e he => ?_⟩
  · show (w.cells.insert w.ports (some w.made)).Holds none _
    rw [hports, List.append_assoc, List.map_append]
    exact hinsert
  · show (w.cells.insert w.ports (some w.made)).next (some w.made) = _
    rw [hports]
    refine (ListCells.path_append.mp hinsert.path).2.2.next_eq.trans ?_
    cases ys <;> rfl
  · simp only [List.append_assoc, List.mem_append, List.mem_cons, List.cons_append,
      List.nil_append] at he ⊢
    tauto

theorem At.removed (h : w.At xs (y :: ys)) : (w.removed y.1).At xs ys where
  holds := by
    have hholds := h.holds
    rw [List.map_append, List.map_cons] at hholds
    rw [List.map_append]
    exact hholds.remove
  ports := h.next
  entries e he := h.entries e (by
    rcases List.mem_append.mp he with he | he
    · exact List.mem_append_left _ he
    · exact List.mem_append_right _ (List.mem_cons_of_mem y he))

/-! ## The loop does what `merge` does -/

theorem merge_cons_nil {made : Nat} {map : UInt32 → Option Nat} :
    merge made map (id :: ids) xs [] =
      merge (made + 1) (Function.update map id (some made)) ids [(made, id)] xs := rfl

theorem loop_succ {fuel : Nat} {next : Walk} (h : w.turn = some next) :
    loop (fuel + 1) w = loop fuel next := by
  rw [loop, h]

/-- The turns for the ports that are left remove them all. -/
theorem At.loop_removed (h : w.At xs ys) (hids : w.ids = []) :
    ∃ next, loop (ys.length + 1) w = some next ∧ next.At xs [] ∧ next.map = unmap w.map ys := by
  induction ys generalizing w with
  | nil =>
    have hports : w.ports = none := h.ports
    exact ⟨w, by rw [List.length_nil, loop, turn, hids, hports], h, rfl⟩
  | cons y ys ih =>
    have hports : w.ports = some y.1 := h.ports
    have hturn : w.turn = some (w.removed y.1) := by rw [turn, hids, hports]
    obtain ⟨next, hloop, hat, hmap⟩ := ih h.removed hids
    refine ⟨next, (loop_succ hturn).trans hloop, hat, ?_⟩
    rw [hmap, unmap, unmap, List.foldl_cons, ← (h.entries y (by simp)).1]
    rfl

/-- What the next turn is while there are ids. -/
theorem At.turn_cons (h : w.At xs ys) {id : UInt32} (hids : w.ids = id :: ids) :
    (∃ y rest, ys = y :: rest ∧ y.2 = id ∧ w.turn = some (w.exiting y.1)) ∨
      ((∀ y ∈ ys.head?, y.2 ≠ id) ∧ w.turn = some (w.added id)) := by
  cases ys with
  | nil =>
    have hports : w.ports = none := h.ports
    exact .inr ⟨fun y hy => (nomatch hy), by rw [turn, hids, hports]⟩
  | cons y rest =>
    have hports : w.ports = some y.1 := h.ports
    have hid : w.portId y.1 = y.2 := (h.entries y (by simp)).1
    have hturn : w.turn = some (if y.2 = id then w.exiting y.1 else w.added id) := by
      rw [turn, hids, hports]
      dsimp only
      rw [hid]
    by_cases hsame : y.2 = id
    · rw [if_pos hsame] at hturn
      exact .inl ⟨y, rest, rfl, hsame, hturn⟩
    · rw [if_neg hsame] at hturn
      exact .inr ⟨fun y' hy' => Option.some.inj hy' ▸ hsame, hturn⟩

/-- The loop ends with the ports that `merge` has in front of `ports`. -/
theorem At.loop_merge (h : w.At xs ys) (hids : w.ids = ids) :
    ∃ fuel next, fuel ≤ 2 * ids.length + (xs ++ ys).length + 1 ∧ loop fuel w = some next ∧
      next.At (merge w.made w.map ids xs ys).1 [] ∧
      next.map = unmap (merge w.made w.map ids xs ys).2.2 (merge w.made w.map ids xs ys).2.1 := by
  induction ids generalizing w xs ys with
  | nil =>
    obtain ⟨next, hloop, hat, hmap⟩ := h.loop_removed hids
    refine ⟨_, next, ?_, hloop, hat, hmap⟩
    rw [List.length_append]
    omega
  | cons id ids ih =>
    have htail : w.ids.tail = ids := by rw [hids, List.tail_cons]
    rcases h.turn_cons hids with ⟨y, rest, rfl, hsame, hturn⟩ | ⟨hne, hturn⟩
    · obtain ⟨fuel, next, hfuel, hloop, hnext⟩ := ih h.exiting htail
      refine ⟨fuel + 1, next, ?_, (loop_succ hturn).trans hloop, ?_⟩
      · simp only [List.length_append, List.length_cons, List.length_nil] at hfuel ⊢
        omega
      · rw [merge, if_pos hsame, ← hsame, ← (h.entries y (by simp)).1]
        exact hnext
    · cases ys with
      | nil =>
        obtain ⟨fuel, next, hfuel, hloop, hnext⟩ := ih h.added_head htail
        refine ⟨fuel + 1, next, ?_, (loop_succ hturn).trans hloop, hnext⟩
        simp only [List.length_append, List.length_cons, List.length_nil] at hfuel ⊢
        omega
      | cons y ys =>
        obtain ⟨fuel, next, hfuel, hloop, hnext⟩ := ih h.added_next htail
        refine ⟨fuel + 1, next, ?_, (loop_succ hturn).trans hloop, ?_⟩
        · simp only [List.length_append, List.length_cons, List.length_nil] at hfuel ⊢
          omega
        · rw [merge, if_neg (hne y rfl)]
          exact hnext

end At

/-- Turns more than enough change nothing. -/
theorem loop_le {fuel fuel' : Nat} {w next : Walk} (h : loop fuel w = some next)
    (hle : fuel ≤ fuel') : loop fuel' w = some next := by
  induction fuel generalizing w fuel' with
  | zero => cases h
  | succ fuel ih =>
    obtain ⟨k, rfl⟩ := Nat.exists_eq_add_of_le hle
    rw [loop] at h
    rw [Nat.add_right_comm, loop]
    cases hturn : w.turn with
    | none =>
      rw [hturn] at h
      exact h
    | some w' =>
      rw [hturn] at h
      exact ih h (Nat.le_add_right ..)

theorem loop_unique {fuel fuel' : Nat} {w next next' : Walk} (h : loop fuel w = some next)
    (h' : loop fuel' w = some next') : next = next' :=
  Option.some.inj ((loop_le h (Nat.le_max_left ..)).symm.trans (loop_le h' (Nat.le_max_right ..)))

/-! ## When the list is right -/

section Merge

variable {made : Nat} {map : UInt32 → Option Nat} {ids : List UInt32} {xs ys : List Entry}

/-- What is in front stays there, unless a port is put in front of it. -/
theorem merge_front (made : Nat) (map : UInt32 → Option Nat) (ids : List UInt32)
    (xs ys : List Entry) :
    xs <+: (merge made map ids xs ys).1 ∨
      ∃ id ∈ ids, ((merge made map ids xs ys).1.map Prod.snd).head? = some id := by
  induction ids generalizing made map xs ys with
  | nil => exact .inl List.prefix_rfl
  | cons id ids ih =>
    have hbehind : ∀ {made map entries ys}, xs <+: entries →
        xs <+: (merge made map ids entries ys).1 ∨
          ∃ id' ∈ id :: ids, ((merge made map ids entries ys).1.map Prod.snd).head? = some id' := by
      intro made map entries ys hfront
      rcases ih made map entries ys with h | ⟨id', hid', h⟩
      · exact .inl (hfront.trans h)
      · exact .inr ⟨id', List.mem_cons_of_mem id hid', h⟩
    cases ys with
    | nil =>
      right
      rw [merge_cons_nil]
      rcases ih (made + 1) (Function.update map id (some made)) [(made, id)] xs with
        ⟨rest, h⟩ | ⟨id', hid', h⟩
      · exact ⟨id, List.mem_cons_self, by rw [← h]; rfl⟩
      · exact ⟨id', List.mem_cons_of_mem id hid', h⟩
    | cons y ys =>
      rw [merge]
      split
      · exact hbehind (List.prefix_append ..)
      · exact hbehind (List.prefix_append ..)

/-- Behind a port that is added, the other ids have to be those of the ports that follow. -/
theorem prefix_of_merge (hxs : xs ≠ []) (hids : (xs.map Prod.snd ++ ids).Pairwise (· < ·))
    (h : (merge made map ids xs ys).1.map Prod.snd = xs.map Prod.snd ++ ids) :
    ids <+: ys.map Prod.snd := by
  induction ids generalizing made map xs ys with
  | nil => exact List.nil_prefix
  | cons id ids ih =>
    obtain ⟨x, rest, rfl⟩ := List.exists_cons_of_ne_nil hxs
    -- no port that is added later comes first
    have hhead : ∀ id' ∈ id :: ids, some id' ≠
        ((((x :: rest).map Prod.snd) ++ id :: ids).head? : Option UInt32) := by
      intro id' hid' he
      have hlt := List.rel_of_pairwise_cons hids (List.mem_append_right _ hid')
      rw [show id' = x.2 from Option.some.inj he] at hlt
      exact absurd hlt (UInt32.lt_irrefl _)
    cases ys with
    | nil =>
      rw [merge_cons_nil] at h
      rcases merge_front (made + 1) (Function.update map id (some made)) ids [(made, id)]
          (x :: rest) with ⟨tail, hfront⟩ | ⟨id', hid', hfirst⟩
      · refine absurd ?_ (hhead id List.mem_cons_self)
        rw [← h, ← hfront]
        rfl
      · refine absurd ?_ (hhead id' (List.mem_cons_of_mem id hid'))
        rw [← h, hfirst]
    | cons y ys =>
      rw [merge] at h
      split at h
      · next hsame =>
        have happend : (x :: rest).map Prod.snd ++ id :: ids =
            ((x :: rest) ++ [y]).map Prod.snd ++ ids := by
          rw [List.map_append, List.map_singleton, hsame, List.append_assoc]
          rfl
        rw [happend] at h hids
        have hfront := ih (by simp) hids h
        rw [List.map_cons, hsame]
        exact List.cons_prefix_cons.mpr ⟨rfl, hfront⟩
      · next hne =>
        rcases merge_front (made + 1) (Function.update map id (some made)) ids
            (x :: rest ++ [y, (made, id)]) ys with ⟨tail, hfront⟩ | ⟨id', hid', hfirst⟩
        · rw [← hfront, List.map_append, List.map_append, List.append_assoc,
            List.append_cancel_left_eq] at h
          exact absurd (List.cons.inj h).1 hne
        · refine absurd ?_ (hhead id' (List.mem_cons_of_mem id hid'))
          rw [← h, hfirst]

/-- Ports that are met with their ids stay. -/
theorem merge_exiting (ids : List Entry) :
    merge made map (ids.map Prod.snd) xs (ids ++ ys) =
      (xs ++ ids, ys,
        ids.foldl (fun (map : UInt32 → Option Nat) (y : Entry) =>
          Function.update map y.2 (some y.1)) map) := by
  induction ids generalizing map xs with
  | nil =>
    rw [List.append_nil]
    cases ys <;> rfl
  | cons y rest ih =>
    rw [List.map_cons, List.cons_append, merge, if_pos rfl, ih, List.append_assoc]
    rfl

end Merge

/-! ## The map -/

section Map

variable {map : UInt32 → Option Nat} {es ys : List Entry} {id : UInt32} {e : Entry}

theorem foldl_update_of_notMem (h : id ∉ es.map Prod.snd) (value : Entry → Option Nat) :
    es.foldl (fun (map : UInt32 → Option Nat) (y : Entry) =>
      Function.update map y.2 (value y)) map id = map id := by
  induction es generalizing map with
  | nil => rfl
  | cons y es ih =>
    obtain ⟨hne, hmem⟩ := List.ne_and_not_mem_of_not_mem_cons h
    rw [List.foldl_cons, ih hmem, Function.update_of_ne hne]

theorem foldl_update_of_mem (h : e ∈ es) (hnodup : (es.map Prod.snd).Nodup)
    (value : Entry → Option Nat) :
    es.foldl (fun (map : UInt32 → Option Nat) (y : Entry) =>
      Function.update map y.2 (value y)) map e.2 = value e := by
  induction es generalizing map with
  | nil => cases h
  | cons y es ih =>
    obtain ⟨hfresh, hnodup⟩ := List.nodup_cons.mp hnodup
    rw [List.foldl_cons]
    rcases List.mem_cons.mp h with rfl | h
    · rw [foldl_update_of_notMem hfresh, Function.update_self]
    · exact ih h hnodup

theorem find_of_mem {portId : Nat → UInt32} (hids : ∀ e ∈ es, portId e.1 = e.2) (h : e ∈ es)
    (hnodup : (es.map Prod.snd).Nodup) :
    (es.map Prod.fst).find? (fun p => portId p = e.2) = some e.1 := by
  induction es with
  | nil => cases h
  | cons y es ih =>
    obtain ⟨hfresh, hnodup⟩ := List.nodup_cons.mp hnodup
    rw [List.map_cons, List.find?_cons, hids y List.mem_cons_self]
    rcases List.mem_cons.mp h with rfl | h
    · rw [decide_eq_true rfl]
    · have hne : y.2 ≠ e.2 := fun he => hfresh (he ▸ List.mem_map_of_mem h)
      rw [decide_eq_false hne]
      exact ih (fun e' he' => hids e' (List.mem_cons_of_mem y he')) h hnodup

theorem find_of_notMem {portId : Nat → UInt32} (hids : ∀ e ∈ es, portId e.1 = e.2)
    (h : id ∉ es.map Prod.snd) : (es.map Prod.fst).find? (fun p => portId p = id) = none := by
  rw [List.find?_eq_none]
  intro p hp
  obtain ⟨e, he, rfl⟩ := List.mem_map.mp hp
  rw [hids e he, decide_eq_true_eq]
  exact fun hid => h (hid ▸ List.mem_map_of_mem he)

/-- The ports that stay are in the map, and those that are removed are not. -/
theorem map_eq_find {portId : Nat → UInt32} (hids : ∀ e ∈ es, portId e.1 = e.2)
    (hnodup : ((es ++ ys).map Prod.snd).Nodup) :
    unmap (es.foldl (fun (map : UInt32 → Option Nat) (y : Entry) =>
        Function.update map y.2 (some y.1)) fun _ => none) ys id =
      (es.map Prod.fst).find? fun p => portId p = id := by
  rw [List.map_append] at hnodup
  obtain ⟨hes, hys, hne⟩ := List.nodup_append.mp hnodup
  by_cases hmem : id ∈ es.map Prod.snd
  · have hother : id ∉ ys.map Prod.snd :=
      fun hother => hne id hmem id hother rfl
    obtain ⟨e, he, rfl⟩ := List.mem_map.mp hmem
    rw [unmap, foldl_update_of_notMem hother fun _ => none, find_of_mem hids he hes]
    exact foldl_update_of_mem he hes fun y => some y.1
  · rw [find_of_notMem hids hmem, unmap]
    by_cases hother : id ∈ ys.map Prod.snd
    · obtain ⟨e, he, rfl⟩ := List.mem_map.mp hother
      exact foldl_update_of_mem he hys fun _ => none
    · rw [foldl_update_of_notMem hother fun _ => none]
      exact foldl_update_of_notMem hmem fun y => some y.1

end Map

section Reconciled

variable {w : Walk} {before : List Nat} {id : UInt32} {ids rest : List UInt32}

/-- The ports of before with their ids. -/
def entriesOf (w : Walk) (before : List Nat) : List Entry := before.map fun p => (p, w.portId p)

theorem map_snd_entriesOf : (w.entriesOf before).map Prod.snd = w.idsOf before := by
  rw [entriesOf, List.map_map]
  rfl

/-- The loop starts at the head, behind all ports. -/
theorem Has.at_start (h : w.Has before) : (w.start ids).At (w.entriesOf before) [] where
  holds := by
    rw [List.append_nil, entriesOf, List.map_map]
    exact h.1
  ports := rfl
  entries e he := by
    rw [List.append_nil] at he
    obtain ⟨p, hp, rfl⟩ := List.mem_map.mp he
    exact ⟨rfl, h.2 p hp⟩

theorem At.has {xs : List Entry} (h : w.At xs []) : w.Has (xs.map Prod.fst) := by
  have hholds := h.holds
  have hentries := h.entries
  rw [List.append_nil] at hholds hentries
  refine ⟨?_, fun p hp => ?_⟩
  · rw [List.map_map]
    exact hholds
  · obtain ⟨e, he, rfl⟩ := List.mem_map.mp hp
    exact (hentries e he).2

theorem At.portId {xs : List Entry} (h : w.At xs []) : ∀ e ∈ xs, w.portId e.1 = e.2 :=
  fun e he => (h.entries e (by rwa [List.append_nil])).1

theorem At.idsOf {xs : List Entry} (h : w.At xs []) :
    w.idsOf (xs.map Prod.fst) = xs.map Prod.snd := by
  rw [Walk.idsOf, List.map_map]
  exact List.map_congr_left h.portId

/-- A node has one list of ports only. -/
theorem Has.unique {ports ports' : List Nat} (h : w.Has ports) (h' : w.Has ports') :
    ports = ports' :=
  List.map_injective_iff.mpr (fun _ _ => Option.some.inj) (h.1.unique h'.1)

/-- What the list and the map are at the end. -/
theorem Has.updatePortIds (h : w.Has before) (ids : List UInt32) :
    ∃ next, updatePortIds (2 * ids.length + before.length + 1) w ids = some next ∧
      next.At (merge w.made (fun _ => none) ids (w.entriesOf before) []).1 [] ∧
      next.map = unmap (merge w.made (fun _ => none) ids (w.entriesOf before) []).2.2
        (merge w.made (fun _ => none) ids (w.entriesOf before) []).2.1 := by
  have hstart : (w.start ids).At (w.entriesOf before) [] := h.at_start
  obtain ⟨fuel, next, hfuel, hloop, hnext⟩ := hstart.loop_merge rfl
  rw [List.append_nil, entriesOf, List.length_map] at hfuel
  exact ⟨next, loop_le hloop hfuel, hnext⟩

/-- What the ids have to be. -/
theorem Has.of_reconciled (h : w.Has before) (hbefore : (w.idsOf before).Pairwise (· < ·))
    (hids : ids.Pairwise (· < ·)) {fuel : Nat} {next : Walk}
    (hloop : Walk.updatePortIds fuel w ids = some next) (hnext : Reconciled before w ids next) :
    (ids = [] ∧ before = []) ∨
      ∃ id rest, ids = id :: rest ∧ id ∉ w.idsOf before ∧ rest <+: w.idsOf before := by
  obtain ⟨next', hloop', hat, -⟩ := h.updatePortIds ids
  have hsame : next' = next := loop_unique hloop' hloop
  subst hsame
  obtain ⟨ports, hhas, hportIds, hkept, -⟩ := hnext
  have hports := hhas.unique hat.has
  rw [hports, hat.idsOf] at hportIds
  cases ids with
  | nil =>
    -- the loop ends at once
    have hentries : w.entriesOf before = [] := List.map_eq_nil_iff.mp hportIds
    exact .inl ⟨rfl, List.map_eq_nil_iff.mp hentries⟩
  | cons id rest =>
    right
    rw [merge_cons_nil] at hportIds
    have hfront := prefix_of_merge (List.cons_ne_nil (w.made, id) []) hids hportIds
    rw [map_snd_entriesOf] at hfront
    refine ⟨id, rest, rfl, fun hmem => ?_, hfront⟩
    cases rest with
    | nil =>
      -- the port of before is taken away, and there is only the one that is made
      obtain ⟨p, hp, hid⟩ := List.mem_map.mp hmem
      have hp' := hkept p hp (hid ▸ List.mem_cons_self)
      rw [hports, merge_cons_nil, merge] at hp'
      exact Nat.ne_of_lt (h.2 p hp) (List.mem_singleton.mp hp')
    | cons id' rest =>
      -- the ids of before start with a larger one
      obtain ⟨others, hothers⟩ := hfront
      rw [← hothers, List.cons_append] at hmem hbefore
      have hlt : id < id' := List.rel_of_pairwise_cons hids List.mem_cons_self
      rcases List.mem_cons.mp hmem with rfl | hmem
      · exact UInt32.lt_irrefl _ hlt
      · exact UInt32.lt_irrefl _ (UInt32.lt_trans hlt (List.rel_of_pairwise_cons hbefore hmem))

/-- The ports in front of `ports` are as they should be, the others are removed. -/
theorem Has.reconciled_of_prefix (h : w.Has before)
    (hbefore : (w.idsOf before).Pairwise (· < ·)) (hfresh : id ∉ w.idsOf before)
    (hfront : rest <+: w.idsOf before) :
    ∃ fuel next, Walk.updatePortIds fuel w (id :: rest) = some next ∧
      Reconciled before w (id :: rest) next := by
  obtain ⟨next, hloop, hat, hmap⟩ := h.updatePortIds (id :: rest)
  -- the ports that stay and those that go
  obtain ⟨others, hothers⟩ := hfront
  obtain ⟨kept, gone, hentries, hkept, -⟩ :=
    List.map_eq_append_iff.mp (map_snd_entriesOf.trans hothers.symm)
  rw [merge_cons_nil, hentries, ← hkept, merge_exiting] at hat hmap
  have hnodup : (((w.made, id) :: kept ++ gone).map Prod.snd).Nodup := by
    rw [List.cons_append, ← hentries, List.map_cons, map_snd_entriesOf]
    exact List.nodup_cons.mpr ⟨hfresh, hbefore.imp UInt32.ne_of_lt⟩
  refine ⟨_, next, hloop, _, hat.has, ?_, ?_, fun id' => ?_⟩
  · rw [hat.idsOf, ← hkept]
    rfl
  · intro p hp hreported
    have hp' : (p, w.portId p) ∈ kept ++ gone := hentries ▸ List.mem_map_of_mem hp
    rcases List.mem_cons.mp hreported with hid | hreported
    · exact absurd (hid ▸ List.mem_map_of_mem hp) hfresh
    · rw [← hkept] at hreported
      rcases List.mem_append.mp hp' with hmem | hmem
      · exact List.mem_map_of_mem (List.mem_cons_of_mem _ hmem)
      · -- no port that goes has the id of one that stays
        rw [List.map_append] at hnodup
        have hgone : w.portId p ∈ gone.map Prod.snd := List.mem_map_of_mem hmem
        have hne := (List.nodup_append.mp hnodup).2.2
        exact absurd rfl (hne _ (List.mem_cons_of_mem _ hreported) _ hgone)
  · rw [hmap]
    exact map_eq_find hat.portId hnodup

end Reconciled

/-- The first id is taken for one in front of all ports, and what follows has to be there. -/
theorem reconciled_iff (w : Walk) (before : List Nat) (ids : List UInt32) (hhas : w.Has before)
    (hbefore : (w.idsOf before).Pairwise (· < ·)) (hids : ids.Pairwise (· < ·)) :
    (∃ fuel next, updatePortIds fuel w ids = some next ∧ Reconciled before w ids next) ↔
      (ids = [] ∧ before = []) ∨
        ∃ id rest, ids = id :: rest ∧ id ∉ w.idsOf before ∧ rest <+: w.idsOf before := by
  constructor
  · rintro ⟨fuel, next, hloop, hnext⟩
    exact hhas.of_reconciled hbefore hids hloop hnext
  · rintro (⟨rfl, rfl⟩ | ⟨id, rest, rfl, hfresh, hfront⟩)
    · obtain ⟨next, hloop, hat, hmap⟩ := hhas.updatePortIds []
      refine ⟨_, next, hloop, [], hat.has, rfl, fun p hp => (nomatch hp), fun id => ?_⟩
      rw [hmap]
      rfl
    · exact hhas.reconciled_of_prefix hbefore hfresh hfront

/-- A node without ports. -/
def empty : Walk where
  cells := ListCells.init ⟨fun c => c, fun c => c⟩ none
  portId _ := 0
  made := 0
  map _ := none
  ids := []
  ports := none

theorem empty_has : empty.Has [] :=
  ⟨⟨⟨rfl, rfl⟩, List.nodup_cons.mpr ⟨List.not_mem_nil, List.nodup_nil⟩⟩, fun _ hp => (nomatch hp)⟩

/-- One port is added to none. -/
theorem reconciled_one :
    ∃ fuel next, updatePortIds fuel empty [3] = some next ∧ Reconciled [] empty [3] next :=
  (reconciled_iff empty [] [3] empty_has List.Pairwise.nil (List.pairwise_singleton _ _)).mpr
    (.inr ⟨3, [], rfl, fun h => (nomatch h), List.prefix_rfl⟩)

/-- The first two ports of a node come in the wrong order. -/
theorem not_reconciled_two :
    ¬ ∀ (w : Walk) (before : List Nat) (ids : List UInt32), w.Has before →
      (w.idsOf before).Pairwise (· < ·) → ids.Pairwise (· < ·) →
      ∃ fuel next, updatePortIds fuel w ids = some next ∧ Reconciled before w ids next := by
  intro h
  obtain ⟨fuel, next, hloop, hnext⟩ :=
    h empty [] [0, 1] empty_has List.Pairwise.nil (by decide)
  rcases empty_has.of_reconciled List.Pairwise.nil (by decide) hloop hnext with
    ⟨hnil, -⟩ | ⟨id, rest, hcons, -, hfront⟩
  · exact absurd hnil (by decide)
  · cases hcons
    exact absurd (List.prefix_nil.mp hfront) (by decide)


end Walk
end UpdatePortIds
end Pinos
