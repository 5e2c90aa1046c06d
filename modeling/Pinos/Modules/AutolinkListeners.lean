import Pinos.Lib.ListCells
import Pinos.Lib.Run
import Pinos.Server.Graph

/-
The listeners of `modules/module-autolink.c`, as elements of the lists that
`client/sig.h` makes of the cells of signals and listeners.

Nodes and links are known by the memory they are in: a link can be where another one was
that has been freed, and what is freed keeps what it held last.  What `pinos_port_link` comes
to is said with the event that asks for it.
-/

namespace Pinos

/-- The signals of a node that the module listens to. -/
inductive NodeSignal where
  | stateChanged
  | portAdded
  | portRemoved
  deriving DecidableEq

/-- The signals of a link that the module listens to. -/
inductive LinkSignal where
  | portUnlinked
  | stateChanged
  deriving DecidableEq

/-- The cells of the signals, and those of the listeners in the `NodeInfo` of a node. -/
inductive SignalCell where
  | node (n : Nat) (signal : NodeSignal)
  | link (l : Nat) (signal : LinkSignal)
  | nodeListener (n : Nat) (signal : NodeSignal)
  | linkListener (n : Nat) (signal : LinkSignal)
  deriving DecidableEq

open SignalCell

/-- `pinos_signal_add`. -/
def signalAdd (m : ListCells SignalCell) (signal listener : SignalCell) : ListCells SignalCell :=
  m.insert (m.prev signal) listener

structure AutolinkModule where
  mem : ListCells SignalCell
  /-- The nodes that the module has a `NodeInfo` of. -/
  infos : List Nat
  /-- The links that are allocated, with the node they were made for, as long as the module
  has its `NodeInfo`. -/
  links : Nat → Option (Option Nat)
  /-- The link that the listeners of a node were added to last. -/
  last : Nat → Option Nat
  /-- The nodes whose clients were told of an error. -/
  errors : List Nat

namespace AutolinkModule

/-- What `pinos_link_new` does to the signals of a link. -/
def linkNew (m : ListCells SignalCell) (l : Nat) : ListCells SignalCell :=
  (m.init (link l .portUnlinked)).init (link l .stateChanged)

/-- `try_link_port`, with the link that it gets. -/
def tryLinkPort (s : AutolinkModule) (n : Nat) : Option Nat → AutolinkModule
  | none => s
  | some l =>
    let m := linkNew s.mem l
    let m := signalAdd m (link l .portUnlinked) (linkListener n .portUnlinked)
    let m := signalAdd m (link l .stateChanged) (linkListener n .stateChanged)
    { s with
      mem := m
      links := Function.update s.links l (some (some n))
      last := Function.update s.last n (some l) }

/-- `on_node_added`, without the ports that are there. -/
def onNodeAdded (s : AutolinkModule) (n : Nat) : AutolinkModule :=
  let m := (s.mem.init (linkListener n .portUnlinked)).init (linkListener n .stateChanged)
  let m := signalAdd m (node n .portAdded) (nodeListener n .portAdded)
  let m := signalAdd m (node n .portRemoved) (nodeListener n .portRemoved)
  let m := signalAdd m (node n .stateChanged) (nodeListener n .stateChanged)
  { s with
    mem := m
    infos := n :: s.infos
    last := Function.update s.last n none }

/-- `node_info_free`; the links that were made for the node are not the module's any more. -/
def nodeInfoFree (s : AutolinkModule) (n : Nat) : AutolinkModule :=
  let m := s.mem.remove (nodeListener n .stateChanged)
  let m := m.remove (nodeListener n .portAdded)
  let m := m.remove (nodeListener n .portRemoved)
  let m := m.remove (linkListener n .portUnlinked)
  let m := m.remove (linkListener n .stateChanged)
  { s with
    mem := m
    infos := s.infos.erase n
    links := fun l => if s.links l = some (some n) then some none else s.links l }

/-! ## Signals that are emitted -/

/-- The loop of `pinos_signal_emit`: the cell after the one that is notified is read first. -/
def emitFrom (signal : SignalCell) (notify : AutolinkModule → SignalCell → AutolinkModule) :
    Nat → SignalCell → AutolinkModule → AutolinkModule
  | 0, _, s => s
  | fuel + 1, pos, s =>
    if pos = signal then s else emitFrom signal notify fuel (s.mem.next pos) (notify s pos)

/-- `pinos_signal_emit`; a list that has more elements than the module has listeners does not
end. -/
def emit (s : AutolinkModule) (signal : SignalCell)
    (notify : AutolinkModule → SignalCell → AutolinkModule) : AutolinkModule :=
  emitFrom signal notify (s.infos.length + 1) (s.mem.next signal) s

/-- `on_port_added`; nothing is known of what is no listener of the module. -/
def onPortAdded (made : Option Nat) (s : AutolinkModule) : SignalCell → AutolinkModule
  | .nodeListener n .portAdded => s.tryLinkPort n made
  | _ => s

/-- `on_link_port_unlinked`. -/
def onLinkPortUnlinked (output hasInput : Bool) (made : Option Nat) (s : AutolinkModule) :
    SignalCell → AutolinkModule
  | .linkListener n .portUnlinked => if output ∧ hasInput then s.tryLinkPort n made else s
  | _ => s

/-- `on_link_state_changed`. -/
def onLinkStateChanged (state : PinosLinkState) (s : AutolinkModule) : SignalCell → AutolinkModule
  | .linkListener n .stateChanged =>
    if state = .error then { s with errors := s.errors ++ [n] } else s
  | _ => s

/-- What the module gets to know.  A link that is made is one more of what it is told. -/
inductive Op where
  | nodeAdded (n : Nat)
  /-- The loops of `on_node_created` come to a port. -/
  | nodePort (n : Nat) (made : Option Nat)
  | portAdded (n : Nat) (made : Option Nat)
  | linkState (l : Nat) (state : PinosLinkState)
  /-- A port is destroyed; the other one may be there. -/
  | portUnlinked (l : Nat) (output hasInput : Bool) (made : Option Nat)
  | linkFree (l : Nat)
  | nodeRemoved (n : Nat)

def step (s : AutolinkModule) : Op → AutolinkModule
  | .nodeAdded n => s.onNodeAdded n
  | .nodePort n made => s.tryLinkPort n made
  | .portAdded n made => s.emit (node n .portAdded) (onPortAdded made)
  | .linkState l state => s.emit (link l .stateChanged) (onLinkStateChanged state)
  | .portUnlinked l output hasInput made =>
    (s.emit (link l .portUnlinked) (onLinkPortUnlinked output hasInput made)).emit
      (link l .stateChanged) (onLinkStateChanged .unlinked)
  | .linkFree l => { s with links := Function.update s.links l none }
  | .nodeRemoved n => s.nodeInfoFree n

/-- A link that is made is in memory that no link is in. -/
def Unused (s : AutolinkModule) (made : Option Nat) : Prop := ∀ l ∈ made, s.links l = none

def Admits (s : AutolinkModule) : Op → Prop
  | .nodeAdded n => n ∉ s.infos
  | .nodePort n made => n ∈ s.infos ∧ s.Unused made
  | .portAdded _ made => s.Unused made
  | .linkState l _ => s.links l ≠ none
  | .portUnlinked l _ _ made => s.links l ≠ none ∧ s.Unused made
  | .linkFree l => s.links l ≠ none
  | .nodeRemoved n => n ∈ s.infos

/-! ## What is to hold -/

/-- The signals of nodes and of the links that are there. -/
def Signal (s : AutolinkModule) : SignalCell → Prop
  | .node _ _ => True
  | .link l _ => s.links l ≠ none
  | _ => False

def Listener (s : AutolinkModule) : SignalCell → Prop
  | .nodeListener n _ => n ∈ s.infos
  | .linkListener n _ => n ∈ s.infos
  | _ => False

/-- No listener is in the lists of two signals, and the links that the module has made notify
it. -/
structure WellLinked (s : AutolinkModule) : Prop where
  one : ∀ {c signal signal'}, s.Listener c → s.Signal signal → s.Signal signal' →
    s.mem.Member signal c → s.mem.Member signal' c → signal = signal'
  notifies : ∀ {l n}, s.links l = some (some n) → ∀ signal,
    s.mem.Member (link l signal) (linkListener n signal)

/-- No link that was made for the node is there. -/
def Free (s : AutolinkModule) (n : Nat) : Prop := ∀ l, s.links l ≠ some (some n)

/-- A link is made for a node when all others that were made for it have been freed, and a
node goes before the memory of its last link has got a link for another node. -/
def Keeps (s : AutolinkModule) : Op → Prop
  | .nodePort n made => made ≠ none → s.Free n
  | .portAdded n made => n ∈ s.infos → made ≠ none → s.Free n
  | .portUnlinked l output hasInput made =>
    s.links l ≠ some none → output → hasInput → made = none
  | .nodeRemoved n => ∀ l, s.last n = some l → ∀ n', s.links l = some (some n') → n' = n
  | _ => True

/-- Nodes that the module has not been told of. -/
structure Start (s : AutolinkModule) : Prop where
  infos : s.infos = []
  links : ∀ l, s.links l = none
  mem : ∀ n signal, s.mem.Holds (node n signal) []

/-! ## What the lists hold -/

/-- Every list has the listeners that it is to have.  The listeners for links that are in no
list point to themselves, or to where their last link was. -/
structure Good (s : AutolinkModule) : Prop where
  nodup : s.infos.Nodup
  nodeLists : ∀ n signal,
    s.mem.Holds (node n signal) (if n ∈ s.infos then [nodeListener n signal] else [])
  linkLists : ∀ {l made}, s.links l = some made → ∀ signal,
    s.mem.Holds (link l signal) (made.toList.map fun n => linkListener n signal)
  maker : ∀ {l n}, s.links l = some (some n) → n ∈ s.infos ∧ s.last n = some l
  free : ∀ {n}, n ∈ s.infos → s.last n = none → ∀ signal,
    s.mem.next (linkListener n signal) = linkListener n signal ∧
      s.mem.prev (linkListener n signal) = linkListener n signal
  tied : ∀ {n l}, n ∈ s.infos → s.last n = some l → ∀ signal,
    s.mem.next (linkListener n signal) = link l signal ∧
      s.mem.prev (linkListener n signal) = link l signal

section Good

variable {s : AutolinkModule} {n l : Nat}

theorem Good.wellLinked (h : s.Good) : s.WellLinked where
  one := by
    have hnode : ∀ {c n signal}, s.mem.Member (node n signal) c →
        c = nodeListener n signal := by
      intro c n signal hc
      rw [(h.nodeLists n signal).member_iff] at hc
      split at hc
      · exact List.mem_singleton.mp hc
      · cases hc
    have hlink : ∀ {c l signal}, s.links l ≠ none → s.mem.Member (link l signal) c →
        ∃ n, s.links l = some (some n) ∧ c = linkListener n signal := by
      intro c l signal hl hc
      obtain ⟨made, hmade⟩ := Option.ne_none_iff_exists'.mp hl
      rw [(h.linkLists hmade signal).member_iff] at hc
      obtain ⟨n, hn, rfl⟩ := List.mem_map.mp hc
      exact ⟨n, by rw [hmade, Option.mem_toList.mp hn], rfl⟩
    intro c signal signal' _ hs hs' hc hc'
    cases signal with
    | node n signal =>
      cases hnode hc
      cases signal' with
      | node n' signal' => cases hnode hc'; rfl
      | link l' signal' => obtain ⟨n', -, he⟩ := hlink hs' hc'; cases he
      | nodeListener n' signal' => exact hs'.elim
      | linkListener n' signal' => exact hs'.elim
    | link l signal =>
      obtain ⟨n, hl, rfl⟩ := hlink hs hc
      cases signal' with
      | node n' signal' => cases hnode hc'
      | link l' signal' =>
        obtain ⟨n', hl', he⟩ := hlink hs' hc'
        cases he
        cases Option.some_inj.mp ((h.maker hl).2.symm.trans (h.maker hl').2)
        rfl
      | nodeListener n' signal' => exact hs'.elim
      | linkListener n' signal' => exact hs'.elim
    | nodeListener n signal => exact hs.elim
    | linkListener n signal => exact hs.elim
  notifies hl signal := (h.linkLists hl signal).member_iff.mpr (List.mem_singleton_self _)

/-! ## Links that are made -/

/-- The cells of a link and of the listeners of a node for links. -/
def LinkCells (l n : Nat) : SignalCell → Prop
  | .link l' _ => l' = l
  | .linkListener n' _ => n' = n
  | _ => False

/-- A link that is made has the listeners of the node. -/
theorem mem_tryLinkPort :
    (∀ signal, (s.tryLinkPort n (some l)).mem.Holds (link l signal) [linkListener n signal]) ∧
      ListCells.Frame (LinkCells l n) s.mem (s.tryLinkPort n (some l)).mem := by
  have hunlinked : (linkNew s.mem l).Holds (link l .portUnlinked) [] := by
    refine ListCells.holds_init.frame (@ListCells.init_frame _ _ _ _ (· = link l .stateChanged) rfl) ?_
    intro c hc
    rw [List.mem_singleton.mp hc]
    exact nofun
  have hchanged : (linkNew s.mem l).Holds (link l .stateChanged) [] := ListCells.holds_init
  obtain ⟨hunlinked, hframe⟩ := @ListCells.Holds.insert_first _ _ _ (linkListener n .portUnlinked) _
    hunlinked nofun (fun c => c = link l .portUnlinked ∨ c = linkListener n .portUnlinked)
    (.inl rfl) (.inr rfl)
  have hchanged := hchanged.frame hframe (by simp)
  obtain ⟨hchanged, hframe'⟩ := @ListCells.Holds.insert_first _ _ _ (linkListener n .stateChanged) _
    hchanged nofun (fun c => c = link l .stateChanged ∨ c = linkListener n .stateChanged)
    (.inl rfl) (.inr rfl)
  have hunlinked := hunlinked.frame hframe' (by simp)
  constructor
  · intro signal
    cases signal with
    | portUnlinked => exact hunlinked
    | stateChanged => exact hchanged
  · have hcells : ∀ {m m' : ListCells SignalCell} {signal : LinkSignal},
        ListCells.Frame (fun c => c = link l signal ∨ c = linkListener n signal) m m' →
          ListCells.Frame (LinkCells l n) m m' := by
      intro m m' signal hf c hc
      refine hf c ?_
      rintro (rfl | rfl)
      · exact hc rfl
      · exact hc rfl
    have hnew : ListCells.Frame (LinkCells l n) s.mem (linkNew s.mem l) :=
      (ListCells.init_frame (show LinkCells l n (link l .portUnlinked) from rfl)).trans
        (ListCells.init_frame (show LinkCells l n (link l .stateChanged) from rfl))
    exact hnew.trans ((hcells hframe).trans (hcells hframe'))

theorem Good.tryLinkPort (h : s.Good) (hn : n ∈ s.infos) (hfree : s.Free n) :
    (s.tryLinkPort n (some l)).Good := by
  obtain ⟨hlists, hframe⟩ := @mem_tryLinkPort s n l
  have hother : ∀ {l' : Nat}, l' ≠ l →
      (s.tryLinkPort n (some l)).links l' = s.links l' := fun hl' => Function.update_of_ne hl' ..
  have hself : (s.tryLinkPort n (some l)).links l = some (some n) := Function.update_self ..
  have hlast : (s.tryLinkPort n (some l)).last n = some l := Function.update_self ..
  have hlast' : ∀ {n' : Nat}, n' ≠ n → (s.tryLinkPort n (some l)).last n' = s.last n' :=
    fun hn' => Function.update_of_ne hn' ..
  have hmaker : ∀ {l' n'}, (s.tryLinkPort n (some l)).links l' = some (some n') → l' ≠ l →
      s.links l' = some (some n') ∧ n' ≠ n := by
    intro l' n' hlinks hl'
    rw [hother hl'] at hlinks
    exact ⟨hlinks, fun he => hfree l' (he ▸ hlinks)⟩
  exact
    { nodup := h.nodup
      nodeLists := fun n' signal => by
        refine (h.nodeLists n' signal).frame hframe fun c hc => ?_
        rcases List.mem_cons.mp hc with rfl | hc
        · exact id
        · split at hc
          · rw [List.mem_singleton.mp hc]
            exact id
          · cases hc
      linkLists := fun {l' made} hlinks signal => by
        by_cases hl' : l' = l
        · rw [hl', hself] at hlinks
          cases hlinks
          rw [hl']
          exact hlists signal
        · refine (h.linkLists ((hother hl').symm.trans hlinks) signal).frame hframe fun c hc => ?_
          rcases List.mem_cons.mp hc with rfl | hc
          · exact hl'
          · obtain ⟨n', hn', rfl⟩ := List.mem_map.mp hc
            rw [Option.mem_toList.mp hn'] at hlinks
            exact (hmaker hlinks hl').2
      maker := fun {l' n'} hlinks => by
        by_cases hl' : l' = l
        · rw [hl', hself] at hlinks
          cases hlinks
          exact ⟨hn, hl' ▸ hlast⟩
        · obtain ⟨hlinks, hn'⟩ := hmaker hlinks hl'
          exact ⟨(h.maker hlinks).1, (hlast' hn').trans (h.maker hlinks).2⟩
      free := fun {n'} hmem hnone signal => by
        by_cases hn' : n' = n
        · rw [hn', hlast] at hnone
          cases hnone
        · rw [hlast' hn'] at hnone
          obtain ⟨hnext, hprev⟩ := hframe (linkListener n' signal) hn'
          rw [hnext, hprev]
          exact h.free hmem hnone signal
      tied := fun {n' l'} hmem hsome signal => by
        by_cases hn' : n' = n
        · subst hn'
          rw [hlast] at hsome
          cases hsome
          obtain ⟨⟨-, hprev⟩, ⟨hnext, -⟩, -⟩ := ListCells.holds_singleton.mp (hlists signal)
          exact ⟨hnext, hprev⟩
        · rw [hlast' hn'] at hsome
          obtain ⟨hnext, hprev⟩ := hframe (linkListener n' signal) hn'
          rw [hnext, hprev]
          exact h.tied hmem hsome signal }

/-- A node that has a link gets no other without its listeners being in two lists. -/
theorem Good.tryLinkPort_bad (h : s.Good) (hl : s.links l = none) (hfree : ¬ s.Free n) :
    ¬ (s.tryLinkPort n (some l)).WellLinked := by
  obtain ⟨l', hl'⟩ : ∃ l', s.links l' = some (some n) := by
    by_contra hnone
    exact hfree fun l' hl' => hnone ⟨l', hl'⟩
  have hne : l' ≠ l := by
    rintro rfl
    rw [hl] at hl'
    cases hl'
  obtain ⟨hlists, hframe⟩ := @mem_tryLinkPort s n l
  have hold : (s.tryLinkPort n (some l)).mem.Member (link l' .portUnlinked)
      (linkListener n .portUnlinked) := by
    obtain ⟨⟨hnext, -⟩, -, hself⟩ := ListCells.holds_singleton.mp (h.linkLists hl' .portUnlinked)
    have hnext' : (s.tryLinkPort n (some l)).mem.next (link l' .portUnlinked) =
        linkListener n .portUnlinked := (hframe (link l' .portUnlinked) hne).1.trans hnext
    rw [← hnext']
    exact ListCells.member_next (hnext' ▸ hself)
  have hlinks' : (s.tryLinkPort n (some l)).Signal (link l' .portUnlinked) := by
    show Function.update s.links l _ l' ≠ none
    rw [Function.update_of_ne hne, hl']
    exact nofun
  have hlinks : (s.tryLinkPort n (some l)).Signal (link l .portUnlinked) := by
    show Function.update s.links l _ l ≠ none
    rw [Function.update_self]
    exact nofun
  intro hwell
  have hsame := hwell.one (c := linkListener n .portUnlinked) (h.maker hl').1 hlinks' hlinks hold
    ((hlists .portUnlinked).member_iff.mpr (List.mem_singleton_self _))
  cases hsame
  exact hne rfl

/-! ## Nodes that come and go -/

/-- The cells of a node and of its listeners. -/
def NodeCells (n : Nat) : SignalCell → Prop
  | .node n' _ => n' = n
  | .nodeListener n' _ => n' = n
  | .linkListener n' _ => n' = n
  | .link _ _ => False

/-- The cells of a signal of a node and its listener. -/
def SignalCells (n : Nat) (signal : NodeSignal) (c : SignalCell) : Prop :=
  c = node n signal ∨ c = nodeListener n signal

theorem nodeCells_of_signal {signal : NodeSignal} {m m' : ListCells SignalCell}
    (h : ListCells.Frame (SignalCells n signal) m m') : ListCells.Frame (NodeCells n) m m' := by
  intro c hc
  refine h c ?_
  rintro (rfl | rfl)
  · exact hc rfl
  · exact hc rfl

/-- The lists of the other signals of a node stay as they are. -/
theorem holds_of_signal {signal signal' : NodeSignal} {m m' : ListCells SignalCell}
    (h : ListCells.Frame (SignalCells n signal) m m') (hne : signal' ≠ signal)
    {listeners : List SignalCell} (hlist : m.Holds (node n signal') listeners)
    (hlisteners : ∀ c ∈ listeners, c = nodeListener n signal') :
    m'.Holds (node n signal') listeners := by
  refine hlist.frame h fun c hc => ?_
  rcases List.mem_cons.mp hc with rfl | hc
  · simpa [SignalCells] using hne
  · rw [hlisteners c hc]
    simpa [SignalCells] using hne

theorem holds_signalAdd {signal : NodeSignal} {m : ListCells SignalCell}
    (h : m.Holds (node n signal) []) :
    (signalAdd m (node n signal) (nodeListener n signal)).Holds (node n signal)
        [nodeListener n signal] ∧
      ListCells.Frame (SignalCells n signal) m
        (signalAdd m (node n signal) (nodeListener n signal)) :=
  h.insert_first (by simp) (.inl rfl) (.inr rfl)

theorem mem_onNodeAdded (h : ∀ signal, s.mem.Holds (node n signal) []) :
    (∀ signal, (s.onNodeAdded n).mem.Holds (node n signal) [nodeListener n signal]) ∧
      (∀ signal, (s.onNodeAdded n).mem.next (linkListener n signal) = linkListener n signal ∧
        (s.onNodeAdded n).mem.prev (linkListener n signal) = linkListener n signal) ∧
      ListCells.Frame (NodeCells n) s.mem (s.onNodeAdded n).mem := by
  let m := (s.mem.init (linkListener n .portUnlinked)).init (linkListener n .stateChanged)
  have hinit : ListCells.Frame (fun c => ∃ signal, c = linkListener n signal) s.mem m :=
    (ListCells.init_frame ⟨_, rfl⟩).trans (ListCells.init_frame ⟨_, rfl⟩)
  have hempty : ∀ signal, m.Holds (node n signal) [] := by
    intro signal
    refine (h signal).frame hinit fun c hc => ?_
    rw [List.mem_singleton.mp hc]
    exact fun ⟨_, he⟩ => nomatch he
  have hself : ∀ signal, m.next (linkListener n signal) = linkListener n signal ∧
      m.prev (linkListener n signal) = linkListener n signal := by
    intro signal
    cases signal with
    | stateChanged => exact ListCells.holds_nil.mp ListCells.holds_init
    | portUnlinked =>
      refine ListCells.holds_nil.mp (ListCells.holds_init.frame
        (@ListCells.init_frame _ _ _ _ (· = linkListener n .stateChanged) rfl) fun c hc => ?_)
      rw [List.mem_singleton.mp hc]
      exact nofun
  obtain ⟨hadded, hf⟩ := holds_signalAdd (hempty .portAdded)
  have hremoved := holds_of_signal hf (by decide) (hempty .portRemoved) nofun
  have hchanged := holds_of_signal hf (by decide) (hempty .stateChanged) nofun
  obtain ⟨hremoved, hf'⟩ := holds_signalAdd hremoved
  have hadded := holds_of_signal hf' (by decide) hadded (by simp)
  have hchanged := holds_of_signal hf' (by decide) hchanged nofun
  obtain ⟨hchanged, hf''⟩ := holds_signalAdd hchanged
  have hadded := holds_of_signal hf'' (by decide) hadded (by simp)
  have hremoved := holds_of_signal hf'' (by decide) hremoved (by simp)
  refine ⟨fun signal => ?_, fun signal => ?_, ?_⟩
  · cases signal with
    | stateChanged => exact hchanged
    | portAdded => exact hadded
    | portRemoved => exact hremoved
  · have hother : ∀ signal', ¬ SignalCells n signal' (linkListener n signal) := by
      rintro signal' (he | he) <;> cases he
    have hkept := hf'' _ (hother _)
    have hkept' := hf' _ (hother _)
    have hkept'' := hf _ (hother _)
    exact ⟨hkept.1.trans (hkept'.1.trans (hkept''.1.trans (hself signal).1)),
      hkept.2.trans (hkept'.2.trans (hkept''.2.trans (hself signal).2))⟩
  · have hinit' : ListCells.Frame (NodeCells n) s.mem m := by
      intro c hc
      refine hinit c ?_
      rintro ⟨signal, rfl⟩
      exact hc rfl
    exact hinit'.trans ((nodeCells_of_signal hf).trans
      ((nodeCells_of_signal hf').trans (nodeCells_of_signal hf'')))

theorem Good.onNodeAdded (h : s.Good) (hn : n ∉ s.infos) : (s.onNodeAdded n).Good := by
  obtain ⟨hlists, hself, hframe⟩ := mem_onNodeAdded (s := s) (n := n) (by
    intro signal
    have hlist := h.nodeLists n signal
    rwa [if_neg hn] at hlist)
  have hlast : ∀ {n'}, n' ≠ n → (s.onNodeAdded n).last n' = s.last n' :=
    fun hn' => Function.update_of_ne hn' ..
  have hself' : (s.onNodeAdded n).last n = none := Function.update_self ..
  have hinfos : ∀ {n'}, n' ∈ (s.onNodeAdded n).infos → n' ≠ n → n' ∈ s.infos :=
    fun hmem hn' => (List.mem_cons.mp hmem).resolve_left hn'
  have hmaker : ∀ {l n'}, s.links l = some (some n') → n' ≠ n :=
    fun hl he => hn (he ▸ (h.maker hl).1)
  exact
    { nodup := List.nodup_cons.mpr ⟨hn, h.nodup⟩
      nodeLists := fun n' signal => by
        by_cases hn' : n' = n
        · subst hn'
          rw [if_pos (show n' ∈ (s.onNodeAdded n').infos from List.mem_cons_self)]
          exact hlists signal
        · have hiff : n' ∈ (s.onNodeAdded n).infos ↔ n' ∈ s.infos :=
            ⟨fun hmem => hinfos hmem hn', List.mem_cons_of_mem n⟩
          simp only [hiff]
          refine (h.nodeLists n' signal).frame hframe fun c hc => ?_
          rcases List.mem_cons.mp hc with rfl | hc
          · exact hn'
          · split at hc
            · rw [List.mem_singleton.mp hc]
              exact hn'
            · cases hc
      linkLists := fun {l made} hl signal => by
        refine (h.linkLists hl signal).frame hframe fun c hc => ?_
        rcases List.mem_cons.mp hc with rfl | hc
        · exact id
        · obtain ⟨n', hmem, rfl⟩ := List.mem_map.mp hc
          exact hmaker (hl.trans (congrArg some (Option.mem_toList.mp hmem)))
      maker := fun hl =>
        ⟨List.mem_cons_of_mem n (h.maker hl).1, (hlast (hmaker hl)).trans (h.maker hl).2⟩
      free := fun {n'} hmem hnone signal => by
        by_cases hn' : n' = n
        · exact hn' ▸ hself signal
        · rw [hlast hn'] at hnone
          obtain ⟨hnext, hprev⟩ := hframe (linkListener n' signal) hn'
          rw [hnext, hprev]
          exact h.free (hinfos hmem hn') hnone signal
      tied := fun {n' l} hmem hsome signal => by
        by_cases hn' : n' = n
        · rw [hn', hself'] at hsome
          cases hsome
        · rw [hlast hn'] at hsome
          obtain ⟨hnext, hprev⟩ := hframe (linkListener n' signal) hn'
          rw [hnext, hprev]
          exact h.tied (hinfos hmem hn') hsome signal }

theorem holds_signalRemove {signal : NodeSignal} {m : ListCells SignalCell}
    (h : m.Holds (node n signal) [nodeListener n signal]) :
    (m.remove (nodeListener n signal)).Holds (node n signal) [] ∧
      ListCells.Frame (SignalCells n signal) m (m.remove (nodeListener n signal)) := by
  obtain ⟨⟨-, hprev⟩, ⟨hnext, -⟩, -⟩ := ListCells.holds_singleton.mp h
  exact ListCells.remove_between hprev hnext (.inl rfl)

/-- The cells that the listeners of a node are next to. -/
def LeaveCells (n : Nat) (place : LinkSignal → SignalCell) (c : SignalCell) : Prop :=
  NodeCells n c ∨ ∃ signal, c = place signal

/-- The listeners for links leave the cells that they are next to. -/
theorem mem_nodeInfoFree {place : LinkSignal → SignalCell}
    (h : ∀ signal, s.mem.Holds (node n signal) [nodeListener n signal])
    (hat : ∀ signal, s.mem.prev (linkListener n signal) = place signal ∧
      s.mem.next (linkListener n signal) = place signal)
    (hcells : ∀ signal signal', place signal ≠ node n signal' ∧ place signal ≠ nodeListener n signal')
    (hne : place .portUnlinked ≠ place .stateChanged)
    (hlistener : place .portUnlinked ≠ linkListener n .stateChanged) :
    (∀ signal, (s.nodeInfoFree n).mem.Holds (node n signal) []) ∧
      (∀ signal, (s.nodeInfoFree n).mem.Holds (place signal) []) ∧
      ListCells.Frame (LeaveCells n place) s.mem (s.nodeInfoFree n).mem := by
  obtain ⟨hchanged, hf⟩ := holds_signalRemove (h .stateChanged)
  have hadded := holds_of_signal hf (by decide) (h .portAdded) (by simp)
  have hremoved := holds_of_signal hf (by decide) (h .portRemoved) (by simp)
  obtain ⟨hadded, hf'⟩ := holds_signalRemove hadded
  have hchanged := holds_of_signal hf' (by decide) hchanged nofun
  have hremoved := holds_of_signal hf' (by decide) hremoved (by simp)
  obtain ⟨hremoved, hf''⟩ := holds_signalRemove hremoved
  have hchanged := holds_of_signal hf'' (by decide) hchanged nofun
  have hadded := holds_of_signal hf'' (by decide) hadded nofun
  -- The listeners for links are where they were.
  have hother : ∀ signal' signal, ¬ SignalCells n signal' (linkListener n signal) := by
    rintro signal' signal (he | he) <;> cases he
  have hplace : ∀ signal, _ = place signal ∧ _ = place signal := fun signal =>
    ⟨(hf'' _ (hother _ signal)).2.trans ((hf' _ (hother _ signal)).2.trans
        ((hf _ (hother _ signal)).2.trans (hat signal).1)),
      (hf'' _ (hother _ signal)).1.trans ((hf' _ (hother _ signal)).1.trans
        ((hf _ (hother _ signal)).1.trans (hat signal).2))⟩
  obtain ⟨hunlinked, hg⟩ := @ListCells.remove_between _ _ _ _ _ (hplace .portUnlinked).1
    (hplace .portUnlinked).2 (fun c => c = place .portUnlinked) rfl
  have hstate := hg (linkListener n .stateChanged) (Ne.symm hlistener)
  obtain ⟨hstateList, hg'⟩ := @ListCells.remove_between _ _ _ _ _
    (hstate.2.trans (hplace .stateChanged).1) (hstate.1.trans (hplace .stateChanged).2)
    (fun c => c = place .stateChanged) rfl
  have hunlinked := hunlinked.frame hg' (by simpa using hne)
  have hkeep : ∀ {m m' : ListCells SignalCell} {signal : LinkSignal} {signal' : NodeSignal},
      ListCells.Frame (fun c => c = place signal) m m' → m.Holds (node n signal') [] →
        m'.Holds (node n signal') [] := by
    intro m m' signal signal' hg hlist
    refine hlist.frame hg fun c hc => ?_
    rw [List.mem_singleton.mp hc]
    exact (hcells signal signal').1.symm
  have hstays : ∀ {m m' : ListCells SignalCell} {signal : LinkSignal},
      ListCells.Frame (fun c => c = place signal) m m' → ListCells.Frame (LeaveCells n place) m m' :=
    fun hg c hc => hg c fun he => hc (.inr ⟨_, he⟩)
  have hnode : ∀ {m m' : ListCells SignalCell}, ListCells.Frame (NodeCells n) m m' →
      ListCells.Frame (LeaveCells n place) m m' := fun hg c hc => hg c fun hmem => hc (.inl hmem)
  refine ⟨fun signal => ?_, fun signal => ?_, ?_⟩
  · cases signal with
    | stateChanged => exact hkeep hg' (hkeep hg hchanged)
    | portAdded => exact hkeep hg' (hkeep hg hadded)
    | portRemoved => exact hkeep hg' (hkeep hg hremoved)
  · cases signal with
    | portUnlinked => exact hunlinked
    | stateChanged => exact hstateList
  · exact (hnode (nodeCells_of_signal hf)).trans ((hnode (nodeCells_of_signal hf')).trans
      ((hnode (nodeCells_of_signal hf'')).trans ((hstays hg).trans (hstays hg'))))

/-- The cell that a listener for links is next to. -/
def place (s : AutolinkModule) (n : Nat) (signal : LinkSignal) : SignalCell :=
  match s.last n with
  | none => linkListener n signal
  | some l => link l signal

theorem place_of_none (h : s.last n = none) (signal : LinkSignal) :
    s.place n signal = linkListener n signal := by rw [place, h]

theorem place_of_some (h : s.last n = some l) (signal : LinkSignal) :
    s.place n signal = link l signal := by rw [place, h]

/-- What `node_info_free` leaves, wherever the listeners for links are. -/
theorem Good.mem_nodeInfoFree (h : s.Good) (hn : n ∈ s.infos) :
    (∀ signal, (s.nodeInfoFree n).mem.Holds (node n signal) []) ∧
      (∀ signal, (s.nodeInfoFree n).mem.Holds (s.place n signal) []) ∧
      ListCells.Frame (LeaveCells n (s.place n)) s.mem (s.nodeInfoFree n).mem := by
  have hlists : ∀ signal, s.mem.Holds (node n signal) [nodeListener n signal] := by
    intro signal
    have hlist := h.nodeLists n signal
    rwa [if_pos hn] at hlist
  cases hlast : s.last n with
  | none =>
    have hplace := funext (place_of_none hlast)
    rw [hplace]
    exact AutolinkModule.mem_nodeInfoFree hlists (fun signal => (h.free hn hlast signal).symm)
      (by simp) (by simp) (by simp)
  | some l =>
    have hplace := funext (place_of_some hlast)
    rw [hplace]
    exact AutolinkModule.mem_nodeInfoFree hlists (fun signal => (h.tied hn hlast signal).symm)
      (by simp) (by simp) (by simp)

theorem not_leaveCells {c : SignalCell} (hc : ¬ NodeCells n c)
    (hlink : ∀ l signal, s.last n = some l → c ≠ link l signal) : ¬ LeaveCells n (s.place n) c := by
  rintro (hnode | ⟨signal, rfl⟩)
  · exact hc hnode
  · cases hlast : s.last n with
    | none =>
      rw [place_of_none hlast] at hc
      exact hc rfl
    | some l => exact hlink l signal hlast (place_of_some hlast signal)

theorem Good.nodeInfoFree (h : s.Good) (hn : n ∈ s.infos)
    (hlast : ∀ l, s.last n = some l → ∀ n', s.links l = some (some n') → n' = n) :
    (s.nodeInfoFree n).Good := by
  obtain ⟨hnodes, hplaces, hframe⟩ := h.mem_nodeInfoFree hn
  have hinfos : ∀ {n'}, n' ∈ (s.nodeInfoFree n).infos ↔ n' ≠ n ∧ n' ∈ s.infos :=
    h.nodup.mem_erase_iff
  have hlinks : ∀ {l made}, (s.nodeInfoFree n).links l = some made →
      s.links l = some (some n) ∧ made = none ∨ s.links l = some made ∧ made ≠ some n := by
    intro l made hl
    change (if s.links l = some (some n) then some none else s.links l) = some made at hl
    split at hl
    · next hsome => exact .inl ⟨hsome, (Option.some_inj.mp hl).symm⟩
    · next hsome => exact .inr ⟨hl, fun hmade => hsome (hl.trans (congrArg some hmade))⟩
  have hother : ∀ {n'}, n' ≠ n → ∀ signal, ¬ LeaveCells n (s.place n) (linkListener n' signal) :=
    fun hn' _ => not_leaveCells hn' fun _ _ _ he => nomatch he
  exact
    { nodup := h.nodup.erase n
      nodeLists := fun n' signal => by
        by_cases hn' : n' = n
        · subst hn'
          rw [if_neg fun hmem => (hinfos.mp hmem).1 rfl]
          exact hnodes signal
        · have hiff : n' ∈ (s.nodeInfoFree n).infos ↔ n' ∈ s.infos :=
            hinfos.trans (and_iff_right hn')
          simp only [hiff]
          refine (h.nodeLists n' signal).frame hframe fun c hc => ?_
          rcases List.mem_cons.mp hc with rfl | hc
          · exact not_leaveCells hn' fun _ _ _ he => nomatch he
          · split at hc
            · rw [List.mem_singleton.mp hc]
              exact not_leaveCells hn' fun _ _ _ he => nomatch he
            · cases hc
      linkLists := fun {l made} hl signal => by
        rcases hlinks hl with ⟨hgone, rfl⟩ | ⟨hl, hmade⟩
        · rw [← place_of_some (h.maker hgone).2]
          exact hplaces signal
        by_cases hlast' : s.last n = some l
        · -- A link of no node is where the last link of this one was.
          have hnone : made = none := by
            rw [Option.eq_none_iff_forall_ne_some]
            rintro n' rfl
            exact hmade (congrArg some (hlast l hlast' n' hl))
          rw [hnone, ← place_of_some hlast']
          exact hplaces signal
        · refine (h.linkLists hl signal).frame hframe fun c hc => ?_
          rcases List.mem_cons.mp hc with rfl | hc
          · refine not_leaveCells id fun l' signal' hsome he => ?_
            cases he
            exact hlast' hsome
          · obtain ⟨n', hn', rfl⟩ := List.mem_map.mp hc
            exact hother (fun he => hmade (he ▸ Option.mem_toList.mp hn')) signal
      maker := fun {l n'} hl => by
        rcases hlinks hl with ⟨-, hnone⟩ | ⟨hl, hmade⟩
        · cases hnone
        · exact ⟨hinfos.mpr ⟨fun he => hmade (congrArg some he), (h.maker hl).1⟩, (h.maker hl).2⟩
      free := fun {n'} hmem hnone signal => by
        obtain ⟨hn', hmem⟩ := hinfos.mp hmem
        obtain ⟨hnext, hprev⟩ := hframe _ (hother hn' signal)
        rw [hnext, hprev]
        exact h.free hmem hnone signal
      tied := fun {n' l} hmem hsome signal => by
        obtain ⟨hn', hmem⟩ := hinfos.mp hmem
        obtain ⟨hnext, hprev⟩ := hframe _ (hother hn' signal)
        rw [hnext, hprev]
        exact h.tied hmem hsome signal }

/-- A node that goes takes the listener of another node out of the list of a link that is
where its last link was. -/
theorem Good.nodeInfoFree_bad (h : s.Good) (hn : n ∈ s.infos) {n' : Nat} (hlast : s.last n = some l)
    (hl : s.links l = some (some n')) (hne : n' ≠ n) : ¬ (s.nodeInfoFree n).WellLinked := by
  obtain ⟨-, hplaces, -⟩ := h.mem_nodeInfoFree hn
  have hlist := hplaces .portUnlinked
  rw [place_of_some hlast] at hlist
  have hl' : (s.nodeInfoFree n).links l = some (some n') := by
    show (if s.links l = some (some n) then some none else s.links l) = _
    rw [hl, if_neg fun he => hne (Option.some_inj.mp (Option.some_inj.mp he))]
  intro hwell
  have hmem := hwell.notifies hl' .portUnlinked
  rw [hlist.member_iff] at hmem
  cases hmem

/-! ## Signals that are emitted -/

section Emit

variable {signal : SignalCell} {notify : AutolinkModule → SignalCell → AutolinkModule}

theorem emitFrom_signal (fuel : Nat) : emitFrom signal notify fuel signal s = s := by
  cases fuel with
  | zero => rfl
  | succ fuel => exact if_pos rfl

theorem emit_nil (h : s.mem.Holds signal []) : s.emit signal notify = s := by
  unfold emit
  rw [(ListCells.holds_nil.mp h).1]
  exact emitFrom_signal _

/-- The only listener of a signal is notified. -/
theorem emit_singleton {c : SignalCell} (h : s.mem.Holds signal [c]) :
    s.emit signal notify = notify s c := by
  obtain ⟨⟨hnext, -⟩, ⟨hend, -⟩, hne⟩ := ListCells.holds_singleton.mp h
  unfold emit
  rw [hnext]
  show (if c = signal then s else emitFrom signal notify _ (s.mem.next c) (notify s c)) = _
  rw [if_neg hne, hend]
  exact emitFrom_signal _

/-- Listeners that do nothing. -/
theorem emit_id (h : ∀ s c, notify s c = s) : s.emit signal notify = s := by
  have hfrom : ∀ fuel pos, emitFrom signal notify fuel pos s = s := by
    intro fuel
    induction fuel with
    | zero => exact fun _ => rfl
    | succ fuel ih =>
      intro pos
      unfold emitFrom
      rw [h, ih, ite_self]
  exact hfrom _ _

end Emit

/-! ## Every run -/

/-- What is kept keeps the lists as they are to be, and nothing else keeps the listeners well
linked. -/
def Decides (s : AutolinkModule) (op : Op) : Prop :=
  (s.Keeps op → (s.step op).Good) ∧ (¬ s.Keeps op → ¬ (s.step op).WellLinked)

theorem Good.tryLinkPort_decides (h : s.Good) (hn : n ∈ s.infos) {made : Option Nat}
    (hunused : s.Unused made) :
    ((made ≠ none → s.Free n) → (s.tryLinkPort n made).Good) ∧
      (¬ (made ≠ none → s.Free n) → ¬ (s.tryLinkPort n made).WellLinked) := by
  cases made with
  | none => exact ⟨fun _ => h, fun hnot => absurd (fun hne => absurd rfl hne) hnot⟩
  | some l =>
    refine ⟨fun hfree => h.tryLinkPort hn (hfree nofun), fun hnot => ?_⟩
    exact h.tryLinkPort_bad (hunused l rfl) fun hfree => hnot fun _ => hfree

theorem Good.withErrors (h : s.Good) (errors : List Nat) : Good { s with errors := errors } :=
  ⟨h.nodup, h.nodeLists, h.linkLists, h.maker, h.free, h.tied⟩

theorem Good.portAdded (h : s.Good) {made : Option Nat} (hunused : s.Unused made) :
    s.Decides (.portAdded n made) := by
  have hlist := h.nodeLists n .portAdded
  by_cases hn : n ∈ s.infos
  · rw [if_pos hn] at hlist
    have hstep : s.step (.portAdded n made) = s.tryLinkPort n made := emit_singleton hlist
    obtain ⟨hgood, hbad⟩ := h.tryLinkPort_decides hn hunused
    unfold Decides
    rw [hstep]
    exact ⟨fun hkeeps => hgood (hkeeps hn), fun hnot => hbad fun hfree => hnot fun _ => hfree⟩
  · rw [if_neg hn] at hlist
    have hstep : s.step (.portAdded n made) = s := emit_nil hlist
    unfold Decides
    rw [hstep]
    exact ⟨fun _ => h, fun hnot => absurd (fun hmem => absurd hmem hn) hnot⟩

theorem Good.linkState (h : s.Good) {state : PinosLinkState} (hl : s.links l ≠ none) :
    (s.step (.linkState l state)).Good := by
  obtain ⟨made, hmade⟩ := Option.ne_none_iff_exists'.mp hl
  have hlist := h.linkLists hmade .stateChanged
  cases made with
  | none =>
    have hstep : s.step (.linkState l state) = s := emit_nil hlist
    rwa [hstep]
  | some n =>
    have hstep : s.step (.linkState l state) =
        onLinkStateChanged state s (linkListener n .stateChanged) := emit_singleton hlist
    rw [hstep]
    show (if state = .error then { s with errors := s.errors ++ [n] } else s).Good
    split
    · exact h.withErrors _
    · exact h

theorem Good.portUnlinked (h : s.Good) {output hasInput : Bool} {made : Option Nat}
    (hl : s.links l ≠ none) (hunused : s.Unused made) :
    s.Decides (.portUnlinked l output hasInput made) := by
  obtain ⟨owner, howner⟩ := Option.ne_none_iff_exists'.mp hl
  have hlist := h.linkLists howner .portUnlinked
  have hstate : s.step (.portUnlinked l output hasInput made) =
      s.emit (link l .portUnlinked) (onLinkPortUnlinked output hasInput made) :=
    emit_id fun s c => by
      cases c with
      | linkListener n signal => cases signal <;> rfl
      | node n signal => rfl
      | link l signal => rfl
      | nodeListener n signal => rfl
  have hkeeps : s.Keeps (.portUnlinked l output hasInput made) ↔
      (owner ≠ none → output → hasInput → made = none) := by
    unfold Keeps
    dsimp only
    rw [howner, Ne, Option.some_inj]
  unfold Decides
  rw [hstate, hkeeps]
  cases owner with
  | none =>
    rw [emit_nil hlist]
    exact ⟨fun _ => h, fun hnot => absurd (fun hne => absurd rfl hne) hnot⟩
  | some n =>
    rw [emit_singleton hlist]
    show (_ → (if output ∧ hasInput then s.tryLinkPort n made else s).Good) ∧
      (_ → ¬ (if output ∧ hasInput then s.tryLinkPort n made else s).WellLinked)
    by_cases hrelink : output ∧ hasInput
    · -- The link that goes is there still.
      have hbusy : ¬ s.Free n := fun hfree => hfree l howner
      obtain ⟨hgood, hbad⟩ := h.tryLinkPort_decides (h.maker howner).1 hunused
      rw [if_pos hrelink]
      constructor
      · exact fun hkeeps => hgood fun hne =>
          absurd (hkeeps nofun hrelink.1 hrelink.2) hne
      · intro hnot
        refine hbad fun hfree => hnot fun _ _ _ => ?_
        by_contra hne
        exact hbusy (hfree hne)
    · rw [if_neg hrelink]
      exact ⟨fun _ => h, fun hnot => absurd (fun _ ho hi => absurd ⟨ho, hi⟩ hrelink) hnot⟩

theorem Good.linkFree (h : s.Good) : (s.step (.linkFree l)).Good := by
  have hlinks : ∀ {l' made}, (s.step (.linkFree l)).links l' = some made →
      s.links l' = some made := by
    intro l' made hl'
    change Function.update s.links l none l' = some made at hl'
    by_cases hne : l' = l
    · rw [hne, Function.update_self] at hl'
      cases hl'
    · rwa [Function.update_of_ne hne] at hl'
  exact ⟨h.nodup, h.nodeLists, fun hl => h.linkLists (hlinks hl), fun hl => h.maker (hlinks hl),
    h.free, h.tied⟩

theorem Good.step (h : s.Good) {op : Op} (hop : s.Admits op) : s.Decides op := by
  cases op with
  | nodeAdded n => exact ⟨fun _ => h.onNodeAdded hop, fun hnot => absurd trivial hnot⟩
  | nodePort n made => exact h.tryLinkPort_decides hop.1 hop.2
  | portAdded n made => exact h.portAdded hop
  | linkState l state => exact ⟨fun _ => h.linkState hop, fun hnot => absurd trivial hnot⟩
  | portUnlinked l output hasInput made => exact h.portUnlinked hop.1 hop.2
  | linkFree l => exact ⟨fun _ => h.linkFree, fun hnot => absurd trivial hnot⟩
  | nodeRemoved n =>
    refine ⟨h.nodeInfoFree hop, fun hnot => ?_⟩
    simp only [Keeps, not_forall] at hnot
    obtain ⟨l, hlast, n', hl, hne⟩ := hnot
    exact h.nodeInfoFree_bad hop hlast hl hne

theorem Start.good (h : s.Start) : s.Good where
  nodup := by rw [h.infos]; exact List.nodup_nil
  nodeLists n signal := by
    rw [h.infos, if_neg List.not_mem_nil]
    exact h.mem n signal
  linkLists hl := by
    rw [h.links] at hl
    cases hl
  maker hl := by
    rw [h.links] at hl
    cases hl
  free hn := by
    rw [h.infos] at hn
    cases hn
  tied hn := by
    rw [h.infos] at hn
    cases hn

/-- The listeners are well linked all along a run exactly when every link is made for a node
that has no other, and no node goes that another link is in the way of. -/
theorem run_wellLinked_iff (h : s.Start) {ops : List Op} (hops : Run.Along step Admits s ops) :
    Run.Along step (fun s op => (s.step op).WellLinked) s ops ↔ Run.Along step Keeps s ops := by
  refine Run.along_iff Good (fun s op hs hop => ?_) (fun s op hs hop => (hs.step hop).1) h.good hops
  obtain ⟨hgood, hbad⟩ := hs.step hop
  exact ⟨fun hwell => Classical.byContradiction fun hnot => hbad hnot hwell,
    fun hkeeps => (hgood hkeeps).wellLinked⟩

/-- Nothing is there. -/
def empty : AutolinkModule where
  mem := ⟨id, id⟩
  infos := []
  links _ := none
  last _ := none
  errors := []

theorem start_empty : empty.Start :=
  ⟨rfl, fun _ => rfl, fun _ _ => ListCells.holds_nil.mpr ⟨rfl, rfl⟩⟩

theorem run_wellLinked_iff_one :
    Run.Along step (fun s op => (s.step op).WellLinked) empty [.nodeAdded 0, .nodePort 0 (some 1)] ↔
      Run.Along step Keeps empty [.nodeAdded 0, .nodePort 0 (some 1)] :=
  run_wellLinked_iff start_empty
    ⟨List.not_mem_nil, ⟨List.mem_cons_self, fun _ _ => rfl⟩, trivial⟩

/-- A node with two ports that are both linked. -/
def twoPorts : List Op := [.nodeAdded 0, .nodePort 0 (some 1), .nodePort 0 (some 2)]

theorem not_run_wellLinked :
    ¬ ∀ (s : AutolinkModule) (ops : List Op), s.Start → Run.Along step Admits s ops →
      Run.Along step (fun s op => (s.step op).WellLinked) s ops := by
  intro h
  have hadmits : Run.Along step Admits empty twoPorts := by
    refine ⟨List.not_mem_nil, ⟨List.mem_cons_self, fun _ _ => rfl⟩,
      ⟨List.mem_cons_self, fun l hl => ?_⟩, trivial⟩
    cases hl
    rfl
  obtain ⟨-, -, ⟨hone, -⟩, -⟩ := h empty twoPorts start_empty hadmits
  have hfirst : (Run.run step empty twoPorts).mem.Member (link 1 .portUnlinked)
      (linkListener 0 .portUnlinked) := ListCells.Reaches.here nofun
  have hsecond : (Run.run step empty twoPorts).mem.Member (link 2 .portUnlinked)
      (linkListener 0 .portUnlinked) := ListCells.Reaches.here nofun
  have hthere : ∀ l ∈ [1, 2], (Run.run step empty twoPorts).Signal (link l .portUnlinked) := by
    intro l hl
    show (Run.run step empty twoPorts).links l ≠ none
    revert l
    decide
  have hsame := hone (c := linkListener 0 .portUnlinked) List.mem_cons_self
    (hthere 1 List.mem_cons_self) (hthere 2 (List.mem_cons_of_mem 1 List.mem_cons_self)) hfirst hsecond
  cases hsame

end Good

end AutolinkModule
end Pinos
