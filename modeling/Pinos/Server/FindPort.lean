import Pinos.Server.FindFormat
import Pinos.Server.FreePort
import Pinos.Server.PortLink

/-
`pinos_core_find_port` of `server/core.c`: the nodes are asked for a port that another port can
be linked to.  The texts of errors are left out.
-/

namespace Pinos

/-- What the nodes are asked with; `fuel` is how many turns a search for a format may take. -/
structure PortSearch (Spa Format : Type) where
  calls : SpaPortCalls Spa
  formats : Graph.SpaNodes Format
  fixate : Format → Format
  fuel : Nat
  global : Nat → Option UInt32

namespace PortSearch

section Search

variable {Spa Format : Type} (c : PortSearch Spa Format) (other : Nat) (dir : PinosDirection)
  (id : UInt32)

/-- `pinos_core_find_format` for a port and the other one. -/
def formatFor (g : Graph) (p : Nat) : Option (Option Format) :=
  if (g.ports p).direction = .output then
    Graph.findFormat c.formats c.fixate c.fuel g p other
  else Graph.findFormat c.formats c.fixate c.fuel g other p

/-- The loop over the nodes, with an id. -/
def findById : List Nat → NodePorts Spa → Option Nat × NodePorts Spa
  | [], t => (none, t)
  | n :: nodes, t =>
    if c.global n = some id then
      match t.getFreePort c.calls n dir with
      | (some p, t) => (some p, t)
      | (none, t) => findById nodes t
    else findById nodes t

/-- The loop over the nodes, without an id; `none` is a search for a format that goes on. -/
def findAny : List Nat → Option Nat → NodePorts Spa → Option (Option Nat × NodePorts Spa)
  | [], best, t => some (best, t)
  | n :: nodes, best, t =>
    match c.global n with
    | none => findAny nodes best t
    | some _ =>
      match t.getFreePort c.calls n dir with
      | (none, t) => findAny nodes best t
      | (some p, t) =>
        match c.formatFor other t.graph p with
        | none => none
        | some none => findAny nodes best t
        | some (some _) => findAny nodes (some p) t

/-- `pinos_core_find_port`. -/
def findPort (nodes : List Nat) (t : NodePorts Spa) : Option (Option Nat × NodePorts Spa) :=
  let dir := (t.graph.ports other).direction.other
  if id ≠ spaIdInvalid then some (c.findById dir id nodes t)
  else c.findAny other dir nodes none t

/-! ## What the nodes offer -/

/-- A node may be meant by the id. -/
def Wanted (n : Nat) : Prop := id ≠ spaIdInvalid → c.global n = some id

/-- A node has a global, and may be meant. -/
def Looks (n : Nat) : Prop := c.global n ≠ none ∧ c.Wanted id n

instance (n : Nat) : Decidable (c.Wanted id n) := inferInstanceAs (Decidable (_ → _))

instance (n : Nat) : Decidable (c.Looks id n) := inferInstanceAs (Decidable (_ ∧ _))

/-- The port that a node offers: without an id, one with a format. -/
def offer (t : NodePorts Spa) (n : Nat) : Option Nat :=
  let (port, next) := t.getFreePort c.calls n dir
  if id ≠ spaIdInvalid then port
  else port.filter fun p => (c.formatFor other next.graph p).join.isSome

/-- The nodes in their order, each with the state when its turn comes. -/
def stages : List Nat → NodePorts Spa → List (NodePorts Spa × Nat)
  | [], _ => []
  | n :: nodes, t =>
    (t, n) :: stages nodes (if c.Looks id n then (t.getFreePort c.calls n dir).2 else t)

/-- With memory for a link, `pinos_port_link` of two ports returns one. -/
def Linkable (g : Graph) (p : Nat) : Prop :=
  ∀ s : Clocked, s.daemon.graph = g →
    (if (g.ports p).direction = .output then s.portLink true p other
      else s.portLink true other p).2.1 ≠ none

/-- What `pinos_core_find_port` has to return. -/
structure Finds (nodes : List Nat) (t : NodePorts Spa) (best : Option Nat)
    (next : NodePorts Spa) : Prop where
  found : ∀ p ∈ best,
    (next.graph.ports p).direction = (t.graph.ports other).direction.other ∧
      (next.graph.ports p).node ≠ (t.graph.ports other).node ∧
      c.Wanted id (next.graph.ports p).node ∧ Linkable other next.graph p
  missed : best = none →
    ∀ stage ∈ c.stages (t.graph.ports other).direction.other id nodes t,
      stage.2 ≠ (t.graph.ports other).node → c.Wanted id stage.2 →
        c.offer other (t.graph.ports other).direction.other id stage.1 stage.2 = none

/-- The node of the other port is the one that is chosen: with an id the first that offers a
port, without one the last. -/
def ChoosesOwn (nodes : List Nat) (t : NodePorts Spa) : Prop :=
  let dir := (t.graph.ports other).direction.other
  ∃ pre stage post, c.stages dir id nodes t = pre ++ stage :: post ∧
    stage.2 = (t.graph.ports other).node ∧ c.Looks id stage.2 ∧
    c.offer other dir id stage.1 stage.2 ≠ none ∧
    ∀ s ∈ if id ≠ spaIdInvalid then pre else post,
      c.Looks id s.2 → c.offer other dir id s.1 s.2 = none

/-- No node with a global offers a port, but another one does. -/
def PassesOver (nodes : List Nat) (t : NodePorts Spa) : Prop :=
  let dir := (t.graph.ports other).direction.other
  (∀ s ∈ c.stages dir id nodes t, c.Looks id s.2 → c.offer other dir id s.1 s.2 = none) ∧
    ∃ s ∈ c.stages dir id nodes t, s.2 ≠ (t.graph.ports other).node ∧ c.Wanted id s.2 ∧
      c.offer other dir id s.1 s.2 ≠ none

end Search

end PortSearch

/-! ## Ports stay -/

namespace NodePorts

variable {Spa : Type} {spa : SpaPortCalls Spa} {t t' : NodePorts Spa} {n p : Nat}
  {d : PinosDirection}

/-- The ports in the list of a node are its own, and have been made. -/
def Placed (t : NodePorts Spa) : Prop :=
  ∀ n d, ∀ p ∈ t.ports n d,
    (t.graph.ports p).node = n ∧ (t.graph.ports p).direction = d ∧ p < t.made

/-- The ports that were there are as they were. -/
structure Later (t t' : NodePorts Spa) : Prop where
  made : t.made ≤ t'.made
  ports : ∀ p < t.made, t'.graph.ports p = t.graph.ports p

theorem Later.refl : t.Later t := ⟨Nat.le_refl _, fun _ _ => rfl⟩

theorem Later.trans {t'' : NodePorts Spa} (h : t.Later t') (h' : t'.Later t'') : t.Later t'' :=
  ⟨Nat.le_trans h.made h'.made,
    fun p hp => (h'.ports p (Nat.lt_of_lt_of_le hp h.made)).trans (h.ports p hp)⟩

theorem graph_ports_createPort {id : UInt32} :
    (t.createPort spa n d id).graph.ports = Function.update t.graph.ports t.made (.new n d) := rfl

theorem later_getFreePort : t.Later (t.getFreePort spa n d).2 := by
  by_cases hcreates : ∃ id, t.Creates n d id
  · obtain ⟨id, hcreates⟩ := hcreates
    rw [getFreePort_eq_create hcreates]
    refine ⟨Nat.le_succ _, fun p hp => ?_⟩
    rw [graph_ports_createPort, Function.update_of_ne (Nat.ne_of_lt hp)]
  · obtain ⟨port, hcall, -⟩ := getFreePort_eq_found spa (not_exists.mp hcreates)
    rw [hcall]
    exact .refl

theorem Placed.getFreePort (h : t.Placed) : (t.getFreePort spa n d).2.Placed := by
  by_cases hcreates : ∃ id, t.Creates n d id
  · obtain ⟨id, hcreates⟩ := hcreates
    rw [getFreePort_eq_create hcreates]
    intro n' d' p hp
    rw [graph_ports_createPort, made_createPort]
    have hold : p ∈ t.ports n' d' → (Function.update t.graph.ports t.made (.new n d) p).node = n' ∧
        (Function.update t.graph.ports t.made (.new n d) p).direction = d' ∧ p < t.made + 1 := by
      intro hp
      obtain ⟨hn, hd, hlt⟩ := h n' d' p hp
      rw [Function.update_of_ne (Nat.ne_of_lt hlt)]
      exact ⟨hn, hd, Nat.lt_succ_of_lt hlt⟩
    by_cases hsame : n' = n ∧ d' = d
    · obtain ⟨rfl, rfl⟩ := hsame
      rw [ports_createPort] at hp
      rcases List.mem_cons.mp hp with rfl | hp
      · rw [Function.update_self]
        exact ⟨rfl, rfl, Nat.lt_succ_self _⟩
      · exact hold hp
    · rw [ports_createPort_of_ne (not_and_or.mp hsame)] at hp
      exact hold hp
  · obtain ⟨port, hcall, -⟩ := getFreePort_eq_found spa (not_exists.mp hcreates)
    rw [hcall]
    exact h

/-- A port that is returned is in the list, and an input port has no links. -/
theorem getFreePort_port (h : (t.getFreePort spa n d).1 = some p) :
    p ∈ (t.getFreePort spa n d).2.ports n d ∧
      (d = .input → ((t.getFreePort spa n d).2.graph.ports p).links = []) := by
  by_cases hcreates : ∃ id, t.Creates n d id
  · obtain ⟨id, hcreates⟩ := hcreates
    rw [getFreePort_eq_create hcreates] at h ⊢
    cases h
    rw [ports_createPort, graph_ports_createPort, Function.update_self]
    exact ⟨List.mem_cons_self, fun _ => rfl⟩
  · obtain ⟨port, hcall, hport⟩ := getFreePort_eq_found spa (not_exists.mp hcreates)
    have hmem := hport p (by rw [hcall] at h; exact h)
    refine ⟨by rw [hcall]; exact hmem, fun hd => ?_⟩
    subst hd
    rw [hcall]
    -- only an output port may have links
    rw [getFreePort] at h
    cases hfind : (t.ports n .input).find? fun p => (t.graph.ports p).links = [] with
    | some q =>
      rw [hfind] at h
      cases h
      have hlinks := List.find?_some hfind
      exact of_decide_eq_true hlinks
    | none =>
      rw [hfind] at h
      dsimp only at h
      split at h
      · next hroom =>
        cases hid : (t.maps n .input).freeId with
        | none =>
          rw [hid] at h
          cases h
        | some id =>
          refine absurd ⟨id, fun q hq => ?_, hroom, hid⟩ hcreates
          have hq := List.find?_eq_none.mp hfind q hq
          rwa [decide_eq_true_eq] at hq
      · cases h

end NodePorts

namespace PortSearch

variable {Spa Format : Type} {c : PortSearch Spa Format} {other n p : Nat} {dir : PinosDirection}
  {id : UInt32} {nodes : List Nat} {t next : NodePorts Spa} {best best' : Option Nat}

/-! ## The loops -/

/-- Nothing is offered where the loop looks. -/
def OffersNone (c : PortSearch Spa Format) (other : Nat) (dir : PinosDirection) (id : UInt32)
    (stages : List (NodePorts Spa × Nat)) : Prop :=
  ∀ s ∈ stages, c.Looks id s.2 → c.offer other dir id s.1 s.2 = none

/-- A port is that of the first node that offers one, or of the last. -/
def Chosen (c : PortSearch Spa Format) (other : Nat) (dir : PinosDirection) (id : UInt32)
    (nodes : List Nat) (t : NodePorts Spa) (p : Nat) (next : NodePorts Spa) : Prop :=
  ∃ pre stage post, c.stages dir id nodes t = pre ++ stage :: post ∧ c.Looks id stage.2 ∧
    c.offer other dir id stage.1 stage.2 = some p ∧
    c.OffersNone other dir id (if id ≠ spaIdInvalid then pre else post) ∧
    (stage.1.getFreePort c.calls stage.2 dir).2.Later next

theorem looks_iff (hid : id ≠ spaIdInvalid) : c.Looks id n ↔ c.global n = some id := by
  constructor
  · exact fun h => h.2 hid
  · exact fun h => ⟨by rw [h]; exact Option.some_ne_none id, fun _ => h⟩

theorem offer_of_id (hid : id ≠ spaIdInvalid) :
    c.offer other dir id t n = (t.getFreePort c.calls n dir).1 := if_pos hid

theorem offer_of_any (hid : id = spaIdInvalid) :
    c.offer other dir id t n = (t.getFreePort c.calls n dir).1.filter fun p =>
      (c.formatFor other (t.getFreePort c.calls n dir).2.graph p).join.isSome :=
  if_neg (not_not.mpr hid)

theorem OffersNone.cons {stages : List (NodePorts Spa × Nat)}
    (h : c.Looks id n → c.offer other dir id t n = none)
    (hrest : c.OffersNone other dir id stages) : c.OffersNone other dir id ((t, n) :: stages) := by
  intro s hs
  rcases List.mem_cons.mp hs with rfl | hs
  · exact h
  · exact hrest s hs

/-- With an id the first node that offers a port is chosen. -/
theorem findById_cases (hid : id ≠ spaIdInvalid) :
    ((c.findById dir id nodes t).1 = none ∧
        c.OffersNone other dir id (c.stages dir id nodes t)) ∨
      ∃ p, (c.findById dir id nodes t).1 = some p ∧
        c.Chosen other dir id nodes t p (c.findById dir id nodes t).2 := by
  induction nodes generalizing t with
  | nil => exact .inl ⟨rfl, fun s hs => nomatch hs⟩
  | cons n nodes ih =>
    -- what the rest does is done when this node offers nothing
    have hrest : ∀ {t' : NodePorts Spa}, (c.Looks id n → c.offer other dir id t n = none) →
        c.stages dir id (n :: nodes) t = (t, n) :: c.stages dir id nodes t' →
        c.findById dir id (n :: nodes) t = c.findById dir id nodes t' →
        ((c.findById dir id (n :: nodes) t).1 = none ∧
            c.OffersNone other dir id (c.stages dir id (n :: nodes) t)) ∨
          ∃ p, (c.findById dir id (n :: nodes) t).1 = some p ∧
            c.Chosen other dir id (n :: nodes) t p (c.findById dir id (n :: nodes) t).2 := by
      intro t' hnone hstages hfind
      rw [hfind]
      rcases ih (t := t') with ⟨hbest, hoffers⟩ | ⟨p, hbest, pre, stage, post, hsplit, hchosen⟩
      · exact .inl ⟨hbest, hstages ▸ hoffers.cons hnone⟩
      · refine .inr ⟨p, hbest, (t, n) :: pre, stage, post, ?_, hchosen.1, hchosen.2.1, ?_,
          hchosen.2.2.2⟩
        · rw [hstages, hsplit]
          rfl
        · have hpre := hchosen.2.2.1
          rw [if_pos hid] at hpre ⊢
          exact hpre.cons hnone
    by_cases hglobal : c.global n = some id
    · have hlooks : c.Looks id n := (looks_iff hid).mpr hglobal
      have hstages : c.stages dir id (n :: nodes) t =
          (t, n) :: c.stages dir id nodes (t.getFreePort c.calls n dir).2 := by
        rw [stages, if_pos hlooks]
      cases hport : (t.getFreePort c.calls n dir).1 with
      | none =>
        refine hrest (fun _ => (offer_of_id hid).trans hport) hstages ?_
        rw [findById, if_pos hglobal, ← Prod.eta (t.getFreePort c.calls n dir), hport]
      | some p =>
        have hfind : c.findById dir id (n :: nodes) t =
            (some p, (t.getFreePort c.calls n dir).2) := by
          rw [findById, if_pos hglobal, ← Prod.eta (t.getFreePort c.calls n dir), hport]
        rw [hfind]
        refine .inr ⟨p, rfl, [], (t, n), _, hstages, hlooks, (offer_of_id hid).trans hport, ?_,
          .refl⟩
        rw [if_pos hid]
        exact fun s hs => nomatch hs
    · have hlooks : ¬ c.Looks id n := fun h => hglobal ((looks_iff hid).mp h)
      refine @hrest t (fun h => absurd h hlooks) ?_ ?_
      · rw [stages, if_neg hlooks]
      · rw [findById, if_neg hglobal]

/-- Without an id the last node that offers a port is chosen. -/
theorem findAny_cases (hid : id = spaIdInvalid)
    (h : c.findAny other dir nodes best t = some (best', next)) :
    t.Later next ∧
      ((best' = best ∧ c.OffersNone other dir id (c.stages dir id nodes t)) ∨
        ∃ p, best' = some p ∧ c.Chosen other dir id nodes t p next) := by
  induction nodes generalizing t best with
  | nil =>
    cases h
    exact ⟨.refl, .inl ⟨rfl, fun s hs => nomatch hs⟩⟩
  | cons n nodes ih =>
    -- the rest may choose again
    have hrest : ∀ {t' : NodePorts Spa} {rest : Option Nat}, t.Later t' →
        c.findAny other dir nodes rest t' = some (best', next) →
        c.stages dir id (n :: nodes) t = (t, n) :: c.stages dir id nodes t' →
        t.Later next ∧
          ((best' = rest ∧ c.OffersNone other dir id (c.stages dir id nodes t') ∧ t'.Later next) ∨
            ∃ p, best' = some p ∧ c.Chosen other dir id (n :: nodes) t p next) := by
      intro t' rest hlater hfind hstages
      obtain ⟨hnext, hcases⟩ := ih hfind
      refine ⟨hlater.trans hnext, ?_⟩
      rcases hcases with ⟨hbest, hoffers⟩ | ⟨p, hbest, pre, stage, post, hsplit, hchosen⟩
      · exact .inl ⟨hbest, hoffers, hnext⟩
      · refine .inr ⟨p, hbest, (t, n) :: pre, stage, post, ?_, hchosen.1, hchosen.2.1, ?_,
          hchosen.2.2.2⟩
        · rw [hstages, hsplit]
          rfl
        · have hpost := hchosen.2.2.1
          rw [if_neg (not_not.mpr hid)] at hpost ⊢
          exact hpost
    -- a node that offers nothing leaves what was best
    have hskip : ∀ {t' : NodePorts Spa}, (c.Looks id n → c.offer other dir id t n = none) →
        t.Later t' → c.findAny other dir nodes best t' = some (best', next) →
        c.stages dir id (n :: nodes) t = (t, n) :: c.stages dir id nodes t' →
        t.Later next ∧
          ((best' = best ∧ c.OffersNone other dir id (c.stages dir id (n :: nodes) t)) ∨
            ∃ p, best' = some p ∧ c.Chosen other dir id (n :: nodes) t p next) := by
      intro t' hnone hlater hfind hstages
      obtain ⟨hnext, ⟨hbest, hoffers, -⟩ | hchosen⟩ := hrest hlater hfind hstages
      · exact ⟨hnext, .inl ⟨hbest, hstages ▸ hoffers.cons hnone⟩⟩
      · exact ⟨hnext, .inr hchosen⟩
    rw [findAny] at h
    cases hglobal : c.global n with
    | none =>
      rw [hglobal] at h
      have hlooks : ¬ c.Looks id n := fun h => h.1 hglobal
      refine hskip (fun h => absurd h hlooks) .refl h ?_
      rw [stages, if_neg hlooks]
    | some gid =>
      have hlooks : c.Looks id n :=
        ⟨by rw [hglobal]; exact Option.some_ne_none gid, fun hne => absurd hid hne⟩
      have hstages : c.stages dir id (n :: nodes) t =
          (t, n) :: c.stages dir id nodes (t.getFreePort c.calls n dir).2 := by
        rw [stages, if_pos hlooks]
      rw [hglobal, ← Prod.eta (t.getFreePort c.calls n dir)] at h
      have hoffer : c.offer other dir id t n = (t.getFreePort c.calls n dir).1.filter fun p =>
          (c.formatFor other (t.getFreePort c.calls n dir).2.graph p).join.isSome :=
        offer_of_any hid
      cases hport : (t.getFreePort c.calls n dir).1 with
      | none =>
        rw [hport] at h hoffer
        exact hskip (fun _ => hoffer) NodePorts.later_getFreePort h hstages
      | some p =>
        rw [hport] at h hoffer
        dsimp only at h
        cases hformat : c.formatFor other (t.getFreePort c.calls n dir).2.graph p with
        | none =>
          rw [hformat] at h
          cases h
        | some format =>
          rw [hformat] at h
          cases format with
          | none =>
            refine hskip (fun _ => ?_) NodePorts.later_getFreePort h hstages
            rw [hoffer, Option.filter_some, hformat]
            rfl
          | some format =>
            obtain ⟨hnext, ⟨hbest, hoffers, hlater⟩ | hchosen⟩ :=
              hrest NodePorts.later_getFreePort h hstages
            · refine ⟨hnext, .inr ⟨p, hbest, [], (t, n), _, hstages, hlooks, ?_, ?_, hlater⟩⟩
              · rw [hoffer, Option.filter_some, hformat]
                rfl
              · rw [if_neg (not_not.mpr hid)]
                exact hoffers
            · exact ⟨hnext, .inr hchosen⟩

theorem findPort_cases (h : c.findPort other id nodes t = some (best, next)) :
    (best = none ∧ c.OffersNone other (t.graph.ports other).direction.other id
        (c.stages (t.graph.ports other).direction.other id nodes t)) ∨
      ∃ p, best = some p ∧
        c.Chosen other (t.graph.ports other).direction.other id nodes t p next := by
  unfold findPort at h
  dsimp only at h
  by_cases hid : id ≠ spaIdInvalid
  · rw [if_pos hid] at h
    have hcall := Option.some.inj h
    have hbest : best = (c.findById (t.graph.ports other).direction.other id nodes t).1 := by
      rw [hcall]
    have hnext : next = (c.findById (t.graph.ports other).direction.other id nodes t).2 := by
      rw [hcall]
    rw [hbest, hnext]
    exact findById_cases hid
  · rw [if_neg hid] at h
    exact (findAny_cases (not_not.mp hid) h).2

/-- One place only can be chosen. -/
theorem chosen_unique {pre post pre' post' : List (NodePorts Spa × Nat)}
    {stage stage' : NodePorts Spa × Nat}
    (hsplit : pre ++ stage :: post = pre' ++ stage' :: post')
    (hstage : c.Looks id stage.2 ∧ c.offer other dir id stage.1 stage.2 ≠ none)
    (hstage' : c.Looks id stage'.2 ∧ c.offer other dir id stage'.1 stage'.2 ≠ none)
    (hnone : c.OffersNone other dir id (if id ≠ spaIdInvalid then pre else post))
    (hnone' : c.OffersNone other dir id (if id ≠ spaIdInvalid then pre' else post')) :
    stage = stage' := by
  -- the places are the same, or one lies in front of the other
  have hfront : ∀ {pre post pre' post' as : List (NodePorts Spa × Nat)}
      {stage stage' : NodePorts Spa × Nat},
      (c.Looks id stage.2 ∧ c.offer other dir id stage.1 stage.2 ≠ none) →
      (c.Looks id stage'.2 ∧ c.offer other dir id stage'.1 stage'.2 ≠ none) →
      c.OffersNone other dir id (if id ≠ spaIdInvalid then pre else post) →
      c.OffersNone other dir id (if id ≠ spaIdInvalid then pre' else post') →
      pre' = pre ++ as → stage :: post = as ++ stage' :: post' → stage = stage' := by
    intro pre post pre' post' as stage stage' hstage hstage' hnone hnone' hpre hpost
    cases as with
    | nil => exact (List.cons.inj hpost).1
    | cons x as =>
      obtain ⟨rfl, rfl⟩ := List.cons.inj hpost
      exfalso
      by_cases hid : id ≠ spaIdInvalid
      · rw [if_pos hid, hpre] at hnone'
        exact hstage.2 (hnone' stage (List.mem_append_right _ List.mem_cons_self) hstage.1)
      · rw [if_neg hid] at hnone
        exact hstage'.2 (hnone stage' (List.mem_append_right _ List.mem_cons_self) hstage'.1)
  rcases List.append_eq_append_iff.mp hsplit with ⟨as, hpre, hpost⟩ | ⟨as, hpre, hpost⟩
  · exact hfront hstage hstage' hnone hnone' hpre hpost
  · exact (hfront hstage' hstage hnone' hnone hpre hpost).symm

/-! ## The port that is returned -/

theorem mem_stages (h : t.Placed) :
    ∀ s ∈ c.stages dir id nodes t, s.1.Placed ∧ t.Later s.1 := by
  induction nodes generalizing t with
  | nil => exact fun s hs => nomatch hs
  | cons n nodes ih =>
    intro s hs
    rw [stages] at hs
    rcases List.mem_cons.mp hs with rfl | hs
    · exact ⟨h, .refl⟩
    · split at hs
      · obtain ⟨hplaced, hlater⟩ := ih h.getFreePort s hs
        exact ⟨hplaced, NodePorts.later_getFreePort.trans hlater⟩
      · exact ih h s hs

theorem offer_eq_some (h : c.offer other dir id t n = some p) :
    (t.getFreePort c.calls n dir).1 = some p := by
  by_cases hid : id = spaIdInvalid
  · rw [offer_of_any hid] at h
    exact (Option.filter_eq_some_iff.mp h).1
  · rwa [offer_of_id hid] at h

/-- What is known of a port that is chosen, and of the other one. -/
theorem Chosen.port (hplaced : t.Placed)
    (hother : other ∈ t.ports (t.graph.ports other).node (t.graph.ports other).direction)
    {pre post : List (NodePorts Spa × Nat)} {stage : NodePorts Spa × Nat}
    (hsplit : c.stages dir id nodes t = pre ++ stage :: post)
    (hoffer : c.offer other dir id stage.1 stage.2 = some p)
    (hlater : (stage.1.getFreePort c.calls stage.2 dir).2.Later next) :
    ((next.graph.ports p).node = stage.2 ∧ (next.graph.ports p).direction = dir ∧
      (dir = .input → (next.graph.ports p).links = [])) ∧
        next.graph.ports other = t.graph.ports other := by
  obtain ⟨hstage, hbefore⟩ := mem_stages hplaced stage
    (hsplit ▸ List.mem_append_right _ List.mem_cons_self)
  obtain ⟨hmem, hlinks⟩ := NodePorts.getFreePort_port (offer_eq_some hoffer)
  obtain ⟨hnode, hdirection, hmade⟩ := hstage.getFreePort stage.2 dir p hmem
  refine ⟨?_, ((hbefore.trans NodePorts.later_getFreePort).trans hlater).ports other
    (hplaced _ _ other hother).2.2⟩
  rw [hlater.ports p hmade]
  exact ⟨hnode, hdirection, hlinks⟩

end PortSearch

namespace Clocked

variable {s : Clocked} {output input : Nat}

theorem portLink_ne_none
    (h : (s.daemon.graph.ports output).node ≠ (s.daemon.graph.ports input).node)
    (hfree : (s.daemon.graph.ports input).links = []) :
    (s.portLink true output input).2.1 ≠ none := by
  unfold portLink
  dsimp only
  split
  · next hsame => exact absurd hsame h
  split
  · next hbusy => exact absurd hfree hbusy
  split
  · exact Option.some_ne_none _
  · exact Option.some_ne_none _

end Clocked

namespace PortSearch

variable {Spa Format : Type} {other p : Nat}

/-- A port of another node, in the other direction, can be linked. -/
theorem linkable {g : Graph}
    (hdirection : (g.ports p).direction = (g.ports other).direction.other)
    (hnode : (g.ports p).node ≠ (g.ports other).node) (hother : (g.ports other).links = [])
    (hlinks : (g.ports p).direction = .input → (g.ports p).links = []) : Linkable other g p := by
  rintro s rfl
  split
  · exact Clocked.portLink_ne_none hnode hother
  · next hdir =>
    have hinput : (s.daemon.graph.ports p).direction = .input := by
      cases hd : (s.daemon.graph.ports p).direction with
      | input => rfl
      | output => exact absurd hd hdir
    exact Clocked.portLink_ne_none hnode.symm (hlinks hinput)

/-- A port is found as it should be, unless the node of the other port is chosen, or a node without
a global is passed over. -/
theorem findPort_finds_iff (c : PortSearch Spa Format) (other : Nat) (id : UInt32)
    (nodes : List Nat) (t : NodePorts Spa) (best : Option Nat) (next : NodePorts Spa)
    (hplaced : t.Placed)
    (hother : other ∈ t.ports (t.graph.ports other).node (t.graph.ports other).direction)
    (hfree : (t.graph.ports other).links = [])
    (h : c.findPort other id nodes t = some (best, next)) :
    c.Finds other id nodes t best next ↔
      ¬ c.ChoosesOwn other id nodes t ∧ ¬ c.PassesOver other id nodes t := by
  rcases findPort_cases h with ⟨rfl, hnone⟩ | ⟨p, rfl, pre, stage, post, hsplit, hlooks, hoffer,
    hothers, hlater⟩
  · -- nothing is chosen
    constructor
    · refine fun hfinds => ⟨?_, ?_⟩
      · rintro ⟨pre, stage, post, hsplit, -, hlooks, hoffer, -⟩
        exact hoffer (hnone stage (hsplit ▸ List.mem_append_right _ List.mem_cons_self) hlooks)
      · rintro ⟨-, stage, hstage, hown, hwanted, hoffer⟩
        exact hoffer (hfinds.missed rfl stage hstage hown hwanted)
    · rintro ⟨-, hpasses⟩
      refine ⟨fun p hp => (nomatch hp), fun _ stage hstage hown hwanted => ?_⟩
      by_contra hoffer
      exact hpasses ⟨hnone, stage, hstage, hown, hwanted, hoffer⟩
  · -- the port is that of the node that is chosen
    have hsome : c.offer other (t.graph.ports other).direction.other id stage.1 stage.2 ≠ none := by
      rw [hoffer]
      exact Option.some_ne_none p
    obtain ⟨⟨hnode, hdirection, hlinks⟩, hsame⟩ :=
      Chosen.port hplaced hother hsplit hoffer hlater
    constructor
    · refine fun hfinds => ⟨?_, ?_⟩
      · rintro ⟨pre', stage', post', hsplit', hown, hlooks', hoffer', hothers'⟩
        have hstage : stage = stage' :=
          chosen_unique (hsplit.symm.trans hsplit') ⟨hlooks, hsome⟩ ⟨hlooks', hoffer'⟩ hothers
            hothers'
        exact (hfinds.found p rfl).2.1 (hnode.trans (hstage ▸ hown))
      · rintro ⟨hnone, -⟩
        exact hsome (hnone stage (hsplit ▸ List.mem_append_right _ List.mem_cons_self) hlooks)
    · rintro ⟨hchooses, -⟩
      have hown : stage.2 ≠ (t.graph.ports other).node := fun hown =>
        hchooses ⟨pre, stage, post, hsplit, hown, hlooks, hsome, hothers⟩
      refine ⟨fun q hq => ?_, fun hnone => (nomatch hnone)⟩
      cases hq
      refine ⟨hdirection, hnode ▸ hown, hnode ▸ hlooks.2, linkable ?_ ?_ ?_ ?_⟩
      · rw [hdirection, hsame]
      · rw [hnode, hsame]
        exact hown
      · rw [hsame]
        exact hfree
      · exact fun hinput => hlinks (hdirection.symm.trans hinput)

/-- A node with an output port 0 and an input port 1, and one with an input port 2. -/
def twoNodes : NodePorts Unit where
  graph :=
    { nodes := fun n =>
        { state := .suspended
          live := false
          dataLoop := 0
          inputPorts := if n = 0 then [1] else if n = 1 then [2] else []
          outputPorts := if n = 0 then [0] else []
          nUsedInputLinks := 0
          nUsedOutputLinks := 0
          work := [] }
      ports := fun p => .new (if p = 2 then 1 else 0) (if p = 0 then .output else .input)
      links := fun _ => Graph.newLink 0 0
      blocks := []
      freed := [] }
  maps _ _ := ⟨1, 1, fun _ => none⟩
  portId _ := 0
  made := 3
  spa _ := ()

theorem placed_twoNodes : twoNodes.Placed := by
  intro n d p hp
  cases d with
  | input =>
    change p ∈ (if n = 0 then [1] else if n = 1 then [2] else []) at hp
    split at hp
    · next hn =>
      rw [List.mem_singleton.mp hp, hn]
      exact ⟨rfl, rfl, by decide⟩
    · split at hp
      · next hn =>
        rw [List.mem_singleton.mp hp, hn]
        exact ⟨rfl, rfl, by decide⟩
      · cases hp
  | output =>
    change p ∈ (if n = 0 then [0] else []) at hp
    split at hp
    · next hn =>
      rw [List.mem_singleton.mp hp, hn]
      exact ⟨rfl, rfl, by decide⟩
    · cases hp

/-- The id of a node is its number. -/
def twoSearch : PortSearch Unit Nat where
  calls := ⟨fun _ _ _ => ((), .ok), fun _ _ _ _ => ()⟩
  formats := Graph.enumerating fun _ _ _ => (.enumEnd, none)
  fixate := id
  fuel := 0
  global n := some (UInt32.ofNat n)

/-- The port of the other node is found. -/
theorem findPort_finds_other : twoSearch.Finds 0 1 [0, 1] twoNodes (some 2) twoNodes := by
  refine (findPort_finds_iff twoSearch 0 1 [0, 1] twoNodes (some 2) twoNodes placed_twoNodes
    List.mem_cons_self rfl rfl).mpr ⟨?_, ?_⟩
  · rintro ⟨pre, stage, post, -, hown, hlooks, -⟩
    have hglobal := hlooks.2 (by decide)
    rw [hown] at hglobal
    exact absurd hglobal (by decide)
  · rintro ⟨hnone, stage, hstage, -, hwanted, hoffer⟩
    exact hoffer (hnone stage hstage ⟨Option.some_ne_none _, hwanted⟩)

/-- With the id of its own node, a port of this node is found. -/
theorem not_findPort_finds :
    ¬ ∀ (c : PortSearch Unit Nat) (other : Nat) (id : UInt32) (nodes : List Nat)
      (t : NodePorts Unit) (best : Option Nat) (next : NodePorts Unit), t.Placed →
      other ∈ t.ports (t.graph.ports other).node (t.graph.ports other).direction →
      (t.graph.ports other).links = [] → c.findPort other id nodes t = some (best, next) →
      c.Finds other id nodes t best next := by
  intro h
  have hfinds := h twoSearch 0 0 [0, 1] twoNodes (some 1) twoNodes placed_twoNodes
    List.mem_cons_self rfl rfl
  exact (hfinds.found 1 rfl).2.1 rfl

end PortSearch
end Pinos
