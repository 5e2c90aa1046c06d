import Mathlib.Data.Fintype.BigOperators
import Pinos.Lib.Run
import Pinos.Server.ProxyPorts

/-
The counters of a proxy and the ids it reports, over any calls of the client and the server.
-/

namespace Pinos
namespace ClientNode

variable {Format : Type}

/-- A message of the client, or a call of the server that adds or removes a port. -/
inductive PortCall (Format : Type) where
  | update (changeMask maxInputPorts maxOutputPorts : UInt32)
  | portUpdate (direction portId : UInt32) (m : PortUpdate Format)
  | addPort (direction portId : UInt32)
  | removePort (direction portId : UInt32)

namespace SpaProxy

def portStep (this : SpaProxy Format) : PortCall Format → SpaProxy Format
  | .update changeMask maxInputPorts maxOutputPorts =>
    this.clientNodeUpdate changeMask maxInputPorts maxOutputPorts
  | .portUpdate direction portId m => this.clientNodePortUpdate direction portId m
  | .addPort direction portId => (this.addPort direction portId).1
  | .removePort direction portId => (this.removePort direction portId).1

/-- Which ports are valid. -/
def valid (this : SpaProxy Format) (d : PinosDirection) (i : Fin maxIds) : Bool :=
  (this.ports d i).valid

/-- The valid ports of a direction, in the order of their ids. -/
def validIds (this : SpaProxy Format) (d : PinosDirection) : List (Fin maxIds) :=
  (List.finRange maxIds).filter fun i => (this.ports d i).valid

/-- The counters are right, and so is what `get_port_ids` writes to arrays of any sizes. -/
def Counts (this : SpaProxy Format) : Prop :=
  ∀ d, (this.nPorts d).toNat = (this.validIds d).length ∧
    ∀ n : UInt32, this.getPortIds d n = (this.validIds d).take n.toNat

variable {this : SpaProxy Format} {d d' : PinosDirection} {i : Fin maxIds}

/-! ## What is written -/

/-- The loop writes the valid ids until there is no room. -/
theorem writePortIds_eq (n : UInt32) (is : List (Fin maxIds)) (c : UInt32)
    (h : c.toNat + is.length < 2 ^ 32) :
    this.writePortIds d n is c =
      (is.filter fun i => (this.ports d i).valid).take (n.toNat - c.toNat) := by
  induction is generalizing c with
  | nil => rw [List.filter_nil, List.take_nil, writePortIds]
  | cons i is ih =>
    rw [List.length_cons] at h
    rw [writePortIds]
    by_cases hc : c < n
    · rw [if_pos hc]
      have hlt : c.toNat < n.toNat := UInt32.lt_iff_toNat_lt.mp hc
      cases hvalid : (this.ports d i).valid with
      | true =>
        have hnext : (c + 1).toNat = c.toNat + 1 := by
          rw [UInt32.toNat_add]
          exact Nat.mod_eq_of_lt (by show c.toNat + 1 < 2 ^ 32; omega)
        have hroom : n.toNat - c.toNat = n.toNat - (c.toNat + 1) + 1 := by omega
        rw [if_pos rfl, ih (c + 1) (by omega), List.filter_cons, if_pos hvalid, hnext, hroom,
          List.take_succ_cons]
      | false =>
        rw [if_neg Bool.false_ne_true, ih c (by omega), List.filter_cons,
          if_neg (ne_true_of_eq_false hvalid)]
    · have hle : n.toNat ≤ c.toNat :=
        Nat.le_of_not_lt fun hlt => hc (UInt32.lt_iff_toNat_lt.mpr hlt)
      rw [if_neg hc, Nat.sub_eq_zero_of_le hle, List.take_zero]

theorem getPortIds_eq (n : UInt32) : this.getPortIds d n = (this.validIds d).take n.toNat := by
  refine (writePortIds_eq n _ 0 ?_).trans ?_
  · rw [List.length_finRange]
    decide
  · rfl

/-! ## What the operations do to the ports that are valid -/

/-- A counter is right. -/
def CountIs (v : Fin maxIds → Bool) (n : UInt32) : Prop :=
  n.toNat = ((List.finRange maxIds).filter fun i => v i).length

/-- How many are valid when one is changed. -/
theorem length_filter_update {is : List (Fin maxIds)} (hnodup : is.Nodup) (hi : i ∈ is)
    (v : Fin maxIds → Bool) (b : Bool) :
    (is.filter fun j => Function.update v i b j).length + (v i).toNat =
      (is.filter fun j => v j).length + b.toNat := by
  induction is with
  | nil => cases hi
  | cons j is ih =>
    obtain ⟨hj, hnodup⟩ := List.nodup_cons.mp hnodup
    by_cases hij : j = i
    · subst hij
      have hrest : (is.filter fun k => Function.update v j b k) = is.filter fun k => v k := by
        apply List.filter_congr
        intro k hk
        exact Function.update_of_ne (fun he : k = j => hj (he ▸ hk)) ..
      cases hv : v j <;> cases b <;> simp [hv, hrest]
    · have hmem : i ∈ is := (List.mem_cons.mp hi).resolve_left fun he => hij he.symm
      have hrest := ih hnodup hmem
      have hsame : Function.update v i b j = v j := Function.update_of_ne hij ..
      cases hv : v j <;> simp [hsame, hv] <;> omega

theorem countIs_update (v : Fin maxIds → Bool) (b : Bool) {n : UInt32} (h : CountIs v n) :
    CountIs (Function.update v i b) (n + (if b then 1 else 0) - if v i then 1 else 0) := by
  have hlength := length_filter_update (List.nodup_finRange maxIds) (List.mem_finRange i) v b
  have hbound := List.length_filter_le (fun j => Function.update v i b j) (List.finRange maxIds)
  rw [List.length_finRange] at hbound
  have hmax : maxIds = 64 := rfl
  unfold CountIs at h ⊢
  rw [← h] at hlength
  have hn := n.toNat_lt
  cases hv : v i <;> cases b <;>
    simp only [hv, Bool.toNat_true, Bool.toNat_false, if_true, if_false, Bool.false_eq_true,
      UInt32.toNat_sub, UInt32.toNat_add, UInt32.toNat_one, UInt32.toNat_zero] at hlength ⊢ <;>
    omega

section Valid

variable {port : SpaProxyPort Format} {m : PortUpdate Format}

theorem valid_setPort :
    (this.setPort d i port).valid =
      Function.update this.valid d (Function.update (this.valid d) i port.valid) := by
  funext d' j
  by_cases hd : d' = d
  · subst hd
    rw [Function.update_self]
    by_cases hj : j = i
    · subst hj
      rw [Function.update_self, valid, ports_setPort]
    · rw [Function.update_of_ne hj, valid, ports_setPort_of_ne (.inr hj), valid]
  · rw [Function.update_of_ne hd, valid, ports_setPort_of_ne (.inl hd), valid]

theorem valid_portUpdate : (port.update m).valid = true := by
  unfold SpaProxyPort.update SpaProxyPort.init
  split
  · next h => exact h
  · rfl

theorem valid_doUpdatePort :
    (this.doUpdatePort d i m).valid =
      Function.update this.valid d (Function.update (this.valid d) i true) := by
  unfold doUpdatePort
  dsimp only
  rw [apply_ite valid]
  show (if _ then (this.setPort d i _).valid else (this.setPort d i _).valid) = _
  rw [ite_self, valid_setPort, valid_portUpdate]

theorem nPorts_doUpdatePort :
    (this.doUpdatePort d i m).nPorts =
      Function.update this.nPorts d (this.nPorts d + 1 - if this.valid d i then 1 else 0) := by
  unfold doUpdatePort
  dsimp only
  show (if this.valid d i then _ else _ : SpaProxy Format).nPorts = _
  split
  · rw [UInt32.add_sub_cancel, Function.update_eq_self]
    rfl
  · rw [UInt32.sub_zero]
    rfl

theorem valid_clearPort :
    (this.clearPort d i).valid =
      Function.update this.valid d (Function.update (this.valid d) i true) := by
  have hport : ((this.doUpdatePort d i clearing).ports d i).valid = true := by
    show (this.doUpdatePort d i clearing).valid d i = true
    rw [valid_doUpdatePort, Function.update_self, Function.update_self]
  unfold clearPort clearBuffers
  rw [valid_setPort]
  dsimp only
  rw [hport, valid_doUpdatePort, Function.update_self, Function.update_idem, Function.update_idem]

theorem nPorts_clearPort :
    (this.clearPort d i).nPorts =
      Function.update this.nPorts d (this.nPorts d + 1 - if this.valid d i then 1 else 0) :=
  nPorts_doUpdatePort

theorem valid_doUninitPort :
    (this.doUninitPort d i).valid =
      Function.update this.valid d (Function.update (this.valid d) i false) := by
  unfold doUninitPort
  dsimp only
  rw [valid_setPort, valid_clearPort, Function.update_self, Function.update_idem,
    Function.update_idem]
  rfl

theorem nPorts_doUninitPort :
    (this.doUninitPort d i).nPorts =
      Function.update this.nPorts d (this.nPorts d - if this.valid d i then 1 else 0) := by
  show (clearPort _ d i).nPorts = _
  rw [nPorts_clearPort, nPorts_setNPorts]
  show Function.update (Function.update this.nPorts d _) d
    (_ - 1 + 1 - if this.valid d i then 1 else 0) = _
  rw [Function.update_idem, UInt32.sub_add_cancel]

end Valid

/-! ## The counters over runs -/

/-- The counters of both directions are right. -/
def Consistent (this : SpaProxy Format) : Prop := ∀ d, CountIs (this.valid d) (this.nPorts d)

theorem Consistent.counts (h : this.Consistent) : this.Counts := fun d => ⟨h d, getPortIds_eq⟩

theorem Consistent.of_update (h : this.Consistent) {next : SpaProxy Format} {b : Bool} {n : UInt32}
    (hvalid : next.valid = Function.update this.valid d (Function.update (this.valid d) i b))
    (hn : next.nPorts = Function.update this.nPorts d n)
    (hcount : CountIs (Function.update (this.valid d) i b) n) : next.Consistent := by
  intro d'
  rw [hvalid, hn]
  by_cases hd : d' = d
  · subst hd
    rw [Function.update_self, Function.update_self]
    exact hcount
  · rw [Function.update_of_ne hd, Function.update_of_ne hd]
    exact h d'

theorem Consistent.doUpdatePort (h : this.Consistent) (m : PortUpdate Format) :
    (this.doUpdatePort d i m).Consistent :=
  h.of_update valid_doUpdatePort nPorts_doUpdatePort (countIs_update (this.valid d) true (h d))

theorem Consistent.clearPort (h : this.Consistent) : (this.clearPort d i).Consistent :=
  h.of_update valid_clearPort nPorts_clearPort (countIs_update (this.valid d) true (h d))

theorem Consistent.doUninitPort (h : this.Consistent) : (this.doUninitPort d i).Consistent := by
  refine h.of_update valid_doUninitPort nPorts_doUninitPort ?_
  have hcount := countIs_update (this.valid d) false (h d) (i := i)
  rwa [if_neg Bool.false_ne_true, UInt32.add_zero] at hcount

/-- Each call keeps the counters right. -/
theorem Consistent.portStep (h : this.Consistent) (call : PortCall Format) :
    (this.portStep call).Consistent := by
  cases call with
  | update changeMask maxInputPorts maxOutputPorts => exact h
  | portUpdate direction portId m =>
    show (this.clientNodePortUpdate direction portId m).Consistent
    unfold clientNodePortUpdate
    split
    · exact h
    · split
      · exact h.doUninitPort
      · exact h.doUpdatePort m
  | addPort direction portId =>
    show (this.addPort direction portId).1.Consistent
    unfold SpaProxy.addPort
    split
    · exact h
    · exact h.clearPort
  | removePort direction portId =>
    show (this.removePort direction portId).1.Consistent
    unfold SpaProxy.removePort
    split
    · exact h
    · exact h.doUninitPort

theorem consistent_empty (formatBuffer : PodBuffer) :
    (empty formatBuffer : SpaProxy Format).Consistent := by
  intro d
  show (0 : UInt32).toNat = ((List.finRange maxIds).filter fun _ => false).length
  rw [List.filter_false]
  rfl

/-- After any messages and calls the counters are the numbers of the ports that are valid, and
the ids of these are reported in order, as far as there is room. -/
theorem run_counts_ports (formatBuffer : PodBuffer) (calls : List (PortCall Format)) :
    (Run.run portStep (empty formatBuffer) calls).Counts := by
  have hempty := @consistent_empty Format formatBuffer
  exact (Run.run_keeps Consistent (fun _ call h => h.portStep call) hempty calls).counts

end SpaProxy
end ClientNode
end Pinos
