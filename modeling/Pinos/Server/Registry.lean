import Mathlib.Data.List.Induction
import Mathlib.Data.List.Nodup
import Pinos.Client.MapChain
import Pinos.Lib.Run
import Pinos.Server.Core

/-
Runs of globals that come and go, and what the registries are told of them.

A global is announced when the listeners of `global_added` are done, which may
add and remove others in the meantime.  Client messages are handled by the main
loop, so never while a global is being added.
-/

namespace Pinos

namespace RegistryEvent

/-- The ids that are told and not told removed. -/
def shown (told : List RegistryEvent) : List UInt32 :=
  told.foldl (fun ids e =>
    match e with
    | .global id _ => ids ++ [id]
    | .globalRemove id => ids.filter (· ≠ id)) []

/-- An id is told when it is not there, and told removed when it is. -/
def Fits (ids : List UInt32) : RegistryEvent → Prop
  | .global id _ => id ∉ ids
  | .globalRemove id => id ∈ ids

def Orderly (told : List RegistryEvent) : Prop :=
  ∀ before e after, told = before ++ e :: after → e.Fits (shown before)

theorem shown_global (told : List RegistryEvent) (id type : UInt32) :
    shown (told ++ [.global id type]) = shown told ++ [id] := by
  rw [shown, List.foldl_append]
  rfl

theorem mem_shown_remove (told : List RegistryEvent) (id i : UInt32) :
    i ∈ shown (told ++ [.globalRemove id]) ↔ i ∈ shown told ∧ i ≠ id := by
  rw [shown, List.foldl_append]
  show i ∈ (shown told).filter _ ↔ _
  rw [List.mem_filter, decide_eq_true_iff]

theorem orderly_nil : Orderly [] := by
  intro before e after h
  simp at h

theorem Orderly.append {told : List RegistryEvent} {e : RegistryEvent} (h : Orderly told)
    (he : e.Fits (shown told)) : Orderly (told ++ [e]) := by
  intro before e' after heq
  rcases List.eq_nil_or_concat after with rfl | ⟨after', e'', rfl⟩
  · obtain ⟨hbefore, hlast⟩ := List.append_inj' heq rfl
    cases hlast
    rwa [← hbefore]
  · have hcut : told ++ [e] = (before ++ e' :: after') ++ [e''] := by
      rw [heq]
      simp
    obtain ⟨htold, -⟩ := List.append_inj' hcut rfl
    exact h before e' after' htold

end RegistryEvent

/-- A global is inserted, or announced to the registries once the listeners are done;
one is destroyed; a client gets a registry or loses it; a client binds an id through
its `n`-th registry. -/
inductive CoreOp where
  | insert (ptr : UInt64) (type : UInt32) (bind : Bool)
  | announce
  | destroy (serial : Nat)
  | getRegistry (client : Nat) (resource newId : UInt32) (ptr : Option UInt64)
  | dropRegistry (n : Nat)
  | bind (n : Nat) (id newId : UInt32) (ptr : Option UInt64)
  deriving DecidableEq

/-- A core, and the globals that are being added, the innermost first. -/
structure CoreUse where
  core : PinosCore
  adding : List PinosGlobal

namespace CoreUse

open RegistryEvent PinosCore

/-- A core without globals, for any access decision and any clients. -/
def start (access : Option PinosAccess) (clients : Nat → PinosClient) : CoreUse where
  core :=
    { access, objects := .empty, nextSerial := 0, globalList := [], registryList := []
      clients, bound := [] }
  adding := []

def step (s : CoreUse) : CoreOp → CoreUse
  | .insert ptr type bind =>
    { core := (s.core.insertGlobal ptr type bind).1
      adding := (s.core.insertGlobal ptr type bind).2 :: s.adding }
  | .announce =>
    match s.adding with
    | [] => s
    | g :: adding => { core := s.core.announceGlobal g, adding }
  | .destroy serial =>
    match s.core.globalList.find? (·.serial = serial) with
    | none => s
    | some g => { s with core := s.core.destroyGlobal g }
  | .getRegistry client resource newId ptr =>
    { s with core := s.core.getRegistry client resource newId ptr }
  | .dropRegistry n =>
    { s with core := { s.core with registryList := s.core.registryList.eraseIdx n } }
  | .bind n id newId ptr =>
    match s.core.registryList[n]? with
    | none => s
    | some r => { s with core := s.core.registryBind r.client id newId ptr }

/-- Globals have a bind function, one that is being added is not destroyed, and client
messages come when none is being added. -/
def Admits (s : CoreUse) : CoreOp → Prop
  | .insert _ _ bind => bind = true
  | .destroy serial => ∀ g ∈ s.adding, g.serial ≠ serial
  | .getRegistry _ _ _ _ => s.adding = []
  | .bind _ _ _ _ => s.adding = []
  | _ => True

/-- A global that a client may see and that is not still being added. -/
def Visible (s : CoreUse) (client : Nat) (g : PinosGlobal) : Prop :=
  g ∈ s.core.globalList ∧ g ∉ s.adding ∧ s.core.accessViewGlobal client g = true

/-- Each registry shows the globals its client may see, and was told so in order. -/
def Consistent (s : CoreUse) : Prop :=
  ∀ r ∈ s.core.registryList, Orderly r.told ∧
    ∀ id, id ∈ shown r.told ↔ ∃ g, s.Visible r.client g ∧ g.id = id

/-- A bind calls the bind function of the global with an id that is shown, and none for
another id. -/
def Binds (s : CoreUse) : CoreOp → Prop
  | .bind n id newId ptr =>
    ∀ r, s.core.registryList[n]? = some r →
      (id ∈ shown r.told → ∃ g, s.Visible r.client g ∧ g.id = id ∧
        (s.step (.bind n id newId ptr)).core.bound
          = s.core.bound ++ [(g.serial, r.client, newId)]) ∧
      (id ∉ shown r.told →
        (s.step (.bind n id newId ptr)).core.bound = s.core.bound)
  | _ => True

def Right (s : CoreUse) (op : CoreOp) : Prop := s.Binds op ∧ (s.step op).Consistent

/-- There is an id left for one more global. -/
def Room (s : CoreUse) : CoreOp → Prop
  | .insert _ _ _ => s.core.globalList.length < 2 ^ 31
  | _ => True

/-! ## The table of globals and the registries -/

structure Inv (s : CoreUse) : Prop where
  table : ∃ free stored, s.core.objects.Stores free stored ∧
    ∀ id, stored id ≠ none ↔ ∃ g ∈ s.core.globalList, g.id = id
  ids : (s.core.globalList.map PinosGlobal.id).Nodup
  serials : (s.core.globalList.map PinosGlobal.serial).Nodup
  old : ∀ g ∈ s.core.globalList, g.serial < s.core.nextSerial
  bindable : ∀ g ∈ s.core.globalList, g.bind = true
  adding : ∀ g ∈ s.adding, g ∈ s.core.globalList
  once : s.adding.Nodup
  consistent : s.Consistent

theorem inv_start (access : Option PinosAccess) (clients : Nat → PinosClient) :
    (start access clients).Inv where
  table := ⟨[], fun _ => none, PinosMap.stores_empty, fun id =>
    iff_of_false (fun h => h rfl) (by simp [start])⟩
  ids := List.nodup_nil
  serials := List.nodup_nil
  old _ h := nomatch h
  bindable _ h := nomatch h
  adding _ h := nomatch h
  once := List.nodup_nil
  consistent _ h := nomatch h

namespace Inv

variable {s : CoreUse} (h : s.Inv)
include h

theorem eq_of_id {g g' : PinosGlobal} (hg : g ∈ s.core.globalList) (hg' : g' ∈ s.core.globalList)
    (hid : g.id = g'.id) : g = g' := List.inj_on_of_nodup_map h.ids hg hg' hid

theorem eq_of_serial {g g' : PinosGlobal} (hg : g ∈ s.core.globalList)
    (hg' : g' ∈ s.core.globalList) (hserial : g.serial = g'.serial) : g = g' :=
  List.inj_on_of_nodup_map h.serials hg hg' hserial

/-- With all slots of the table in use there are as many globals as slots. -/
theorem room_iff (hroom : s.core.globalList.length < 2 ^ 31) :
    s.core.objects.freeList ≠ 0 ∨ s.core.objects.size < 2 ^ 31 := by
  obtain ⟨free, stored, hstores, hlive⟩ := h.table
  rcases List.eq_nil_or_concat free with hnil | ⟨l, a, hcons⟩
  · right
    have hinj : Function.Injective UInt32.toNat := fun _ _ => UInt32.toNat_inj.mp
    have hnodup : ((s.core.globalList.map PinosGlobal.id).map UInt32.toNat).Nodup :=
      h.ids.map hinj
    have hperm : ((s.core.globalList.map PinosGlobal.id).map UInt32.toNat).Perm
        (List.range s.core.objects.size) := by
      rw [List.perm_ext_iff_of_nodup hnodup List.nodup_range]
      intro i
      rw [List.mem_range, List.map_map, List.mem_map]
      constructor
      · rintro ⟨g, hg, rfl⟩
        exact (hstores.live_lt ((hlive g.id).mpr ⟨g, hg, rfl⟩)).2
      · intro hi
        have hbound := hstores.bound
        have hid : (UInt32.ofNat i).toNat = i := by
          rw [UInt32.toNat_ofNat', Nat.mod_eq_of_lt (by omega)]
        have hne : stored (.ofNat i) ≠ none := by
          rw [Ne, hstores.dead, hnil, hid]
          simp only [List.not_mem_nil, false_or]
          omega
        obtain ⟨g, hg, hgid⟩ := (hlive _).mp hne
        exact ⟨g, hg, by rw [Function.comp_apply, hgid, hid]⟩
    have hlen := hperm.length_eq
    rw [List.length_map, List.length_map, List.length_range] at hlen
    omega
  · left
    rw [Ne, hstores.freeList_eq_zero_iff, hcons]
    simp

/-! ## One step -/

theorem insert (hroom : s.core.globalList.length < 2 ^ 31) (ptr : UInt64) (type : UInt32) :
    (s.step (.insert ptr type true)).Inv := by
  obtain ⟨free, stored, hstores, hlive⟩ := h.table
  obtain ⟨hfresh, ⟨free', hstores'⟩, -⟩ := hstores.insertNew (h.room_iff hroom) ptr
  obtain ⟨g, hg⟩ : ∃ g, g = (s.core.insertGlobal ptr type true).2 := ⟨_, rfl⟩
  have hid : g.id = (s.core.objects.insertNew ptr).2 := by rw [hg]; rfl
  have hserial : g.serial = s.core.nextSerial := by rw [hg]; rfl
  have hbind : g.bind = true := by rw [hg]; rfl
  have hstep : s.step (.insert ptr type true) =
      { core :=
          { s.core with
            objects := (s.core.objects.insertNew ptr).1
            nextSerial := s.core.nextSerial + 1
            globalList := s.core.globalList ++ [g] }
        adding := g :: s.adding } := by
    rw [hg]
    rfl
  have hnew : ∀ g' ∈ s.core.globalList, g'.id ≠ g.id := by
    intro g' hg' heq
    exact (hlive g.id).mpr ⟨g', hg', heq⟩ (hid ▸ hfresh)
  have hnot : g ∉ s.core.globalList := fun hmem => hnew g hmem rfl
  rw [hstep]
  refine ⟨⟨free', _, hstores', fun id => ?_⟩, ?_, ?_, ?_, ?_, ?_, ?_, ?_⟩
  · simp only [List.mem_append, List.mem_singleton]
    by_cases hgid : id = g.id
    · rw [hgid, ← hid, Function.update_self]
      exact iff_of_true (Option.some_ne_none _) ⟨g, .inr rfl, rfl⟩
    · rw [← hid, Function.update_of_ne hgid, hlive]
      constructor
      · rintro ⟨g', hg', heq⟩
        exact ⟨g', .inl hg', heq⟩
      · rintro ⟨g', hg' | rfl, heq⟩
        · exact ⟨g', hg', heq⟩
        · exact absurd heq.symm hgid
  · rw [List.map_append, List.nodup_append]
    refine ⟨h.ids, by simp, fun a ha b hb => ?_⟩
    obtain ⟨g', hg', rfl⟩ := List.mem_map.mp ha
    rw [List.map_singleton, List.mem_singleton] at hb
    rw [hb]
    exact hnew g' hg'
  · rw [List.map_append, List.nodup_append]
    refine ⟨h.serials, by simp, fun a ha b hb => ?_⟩
    obtain ⟨g', hg', rfl⟩ := List.mem_map.mp ha
    rw [List.map_singleton, List.mem_singleton] at hb
    have hlt := h.old g' hg'
    omega
  · intro g' hg'
    show g'.serial < s.core.nextSerial + 1
    rcases List.mem_append.mp hg' with hold | hsingle
    · have hlt := h.old g' hold
      omega
    · rw [List.mem_singleton.mp hsingle]
      omega
  · intro g' hg'
    rcases List.mem_append.mp hg' with hold | hsingle
    · exact h.bindable g' hold
    · rw [List.mem_singleton.mp hsingle, hbind]
  · intro g' hg'
    rcases List.mem_cons.mp hg' with rfl | hold
    · exact List.mem_append_right _ (List.mem_singleton_self _)
    · exact List.mem_append_left _ (h.adding g' hold)
  · exact List.nodup_cons.mpr ⟨fun hmem => hnot (h.adding g hmem), h.once⟩
  · intro r hr
    obtain ⟨horderly, hshown⟩ := h.consistent r hr
    refine ⟨horderly, fun id => (hshown id).trans ?_⟩
    constructor
    · rintro ⟨g', ⟨hmem, hout, hview⟩, heq⟩
      refine ⟨g', ⟨List.mem_append_left _ hmem, ?_, hview⟩, heq⟩
      rw [List.mem_cons, not_or]
      exact ⟨fun hgg => hnot (hgg ▸ hmem), hout⟩
    · rintro ⟨g', ⟨hmem, hout, hview⟩, heq⟩
      rw [List.mem_cons, not_or] at hout
      have hold := (List.mem_append.mp hmem).resolve_right fun hsingle =>
        hout.1 (List.mem_singleton.mp hsingle)
      exact ⟨g', ⟨hold, hout.2, hview⟩, heq⟩

theorem announce : (s.step .announce).Inv := by
  rw [step]
  split
  · exact h
  · rename_i g adding hadding
    have hgAdding : g ∈ s.adding := hadding ▸ List.mem_cons_self ..
    have hgMem := h.adding g hgAdding
    have hrest := hadding ▸ h.once
    obtain ⟨hout, honce⟩ := List.nodup_cons.mp hrest
    refine ⟨h.table, h.ids, h.serials, h.old, h.bindable, fun g' hg' => h.adding g' ?_, honce, ?_⟩
    · rw [hadding]
      exact List.mem_cons_of_mem _ hg'
    intro r' hr'
    obtain ⟨r, hr, rfl⟩ := List.mem_map.mp hr'
    obtain ⟨horderly, hshown⟩ := h.consistent r hr
    have hvisible : ∀ g', CoreUse.Visible { core := s.core.announceGlobal g, adding } r.client g' ↔
        s.Visible r.client g' ∨ g' = g ∧ s.core.accessViewGlobal r.client g = true := by
      intro g'
      constructor
      · rintro ⟨hmem, hnot, hview⟩
        by_cases hgg : g' = g
        · exact .inr ⟨hgg, hgg ▸ hview⟩
        · refine .inl ⟨hmem, ?_, hview⟩
          rw [hadding, List.mem_cons, not_or]
          exact ⟨hgg, hnot⟩
      · rintro (⟨hmem, hnot, hview⟩ | ⟨rfl, hview⟩)
        · rw [hadding, List.mem_cons, not_or] at hnot
          exact ⟨hmem, hnot.2, hview⟩
        · exact ⟨hgMem, hout, hview⟩
    simp only [apply_ite Registry.client, apply_ite Registry.told, ite_self, hvisible]
    by_cases hview : s.core.accessViewGlobal r.client g = true
    · rw [if_pos hview]
      have hfresh : g.id ∉ shown r.told := by
        rw [hshown]
        rintro ⟨g', ⟨hmem, hnot, -⟩, heq⟩
        exact hnot (h.eq_of_id hmem hgMem heq ▸ hgAdding)
      refine ⟨horderly.append hfresh, fun id => ?_⟩
      rw [shown_global, List.mem_append, List.mem_singleton, hshown]
      constructor
      · rintro (⟨g', hvis, heq⟩ | rfl)
        · exact ⟨g', .inl hvis, heq⟩
        · exact ⟨g, .inr ⟨rfl, hview⟩, rfl⟩
      · rintro ⟨g', hvis | ⟨rfl, -⟩, heq⟩
        · exact .inl ⟨g', hvis, heq⟩
        · exact .inr heq.symm
    · rw [if_neg hview]
      refine ⟨horderly, fun id => (hshown id).trans ?_⟩
      simp [hview]

theorem destroy {serial : Nat} (hadmits : ∀ g ∈ s.adding, g.serial ≠ serial) :
    (s.step (.destroy serial)).Inv := by
  rw [step]
  split
  · exact h
  · rename_i g hfind
    have hgMem : g ∈ s.core.globalList := List.mem_of_find?_eq_some hfind
    have hserial : g.serial = serial := by simpa using List.find?_some hfind
    have hout : g ∉ s.adding := fun hmem => hadmits g hmem hserial
    obtain ⟨free, stored, hstores, hlive⟩ := h.table
    obtain ⟨-, hstores'⟩ := hstores.remove ((hlive g.id).mpr ⟨g, hgMem, rfl⟩)
    have hmem : ∀ g', g' ∈ s.core.globalList.filter (·.serial ≠ g.serial) ↔
        g' ∈ s.core.globalList ∧ g' ≠ g := by
      intro g'
      rw [List.mem_filter, decide_eq_true_iff]
      refine and_congr_right fun hg' => not_congr ⟨h.eq_of_serial hg' hgMem, ?_⟩
      rintro rfl
      rfl
    have hsub : (s.core.globalList.filter (·.serial ≠ g.serial)).Sublist s.core.globalList :=
      List.filter_sublist
    refine ⟨⟨_, _, hstores', fun id => ?_⟩, h.ids.sublist (hsub.map _), h.serials.sublist (hsub.map _),
      fun g' hg' => h.old g' (hsub.subset hg'), fun g' hg' => h.bindable g' (hsub.subset hg'),
      fun g' hg' => ?_, h.once, ?_⟩
    · by_cases hid : id = g.id
      · rw [hid, Function.update_self]
        refine iff_of_false (fun hne => hne rfl) ?_
        rintro ⟨g', hg', heq⟩
        obtain ⟨hold, hne⟩ := (hmem g').mp hg'
        exact hne (h.eq_of_id hold hgMem heq)
      · rw [Function.update_of_ne hid, hlive]
        constructor
        · rintro ⟨g', hg', heq⟩
          exact ⟨g', (hmem g').mpr ⟨hg', fun hgg => hid (hgg ▸ heq.symm)⟩, heq⟩
        · rintro ⟨g', hg', heq⟩
          exact ⟨g', ((hmem g').mp hg').1, heq⟩
    · exact (hmem g').mpr ⟨h.adding g' hg', fun hgg => hout (hgg ▸ hg')⟩
    · intro r' hr'
      obtain ⟨r, hr, rfl⟩ := List.mem_map.mp hr'
      obtain ⟨horderly, hshown⟩ := h.consistent r hr
      have hvisible : ∀ g', CoreUse.Visible { s with core := s.core.destroyGlobal g } r.client g' ↔
          s.Visible r.client g' ∧ g' ≠ g := by
        intro g'
        constructor
        · rintro ⟨hg', hnot, hview⟩
          obtain ⟨hold, hne⟩ := (hmem g').mp hg'
          exact ⟨⟨hold, hnot, hview⟩, hne⟩
        · rintro ⟨⟨hold, hnot, hview⟩, hne⟩
          exact ⟨(hmem g').mpr ⟨hold, hne⟩, hnot, hview⟩
      simp only [apply_ite Registry.client, apply_ite Registry.told, ite_self, hvisible]
      by_cases hview : s.core.accessViewGlobal r.client g = true
      · rw [if_pos hview]
        have hthere : g.id ∈ shown r.told := (hshown g.id).mpr ⟨g, ⟨hgMem, hout, hview⟩, rfl⟩
        refine ⟨horderly.append hthere, fun id => ?_⟩
        rw [mem_shown_remove, hshown]
        constructor
        · rintro ⟨⟨g', hvis, heq⟩, hne⟩
          exact ⟨g', ⟨hvis, fun hgg => hne (hgg ▸ heq.symm)⟩, heq⟩
        · rintro ⟨g', ⟨hvis, hne⟩, heq⟩
          exact ⟨⟨g', hvis, heq⟩, fun hid => hne (h.eq_of_id hvis.1 hgMem (heq.trans hid))⟩
      · rw [if_neg hview]
        refine ⟨horderly, fun id => (hshown id).trans ?_⟩
        constructor
        · rintro ⟨g', hvis, heq⟩
          exact ⟨g', ⟨hvis, fun hgg => hview (hgg ▸ hvis.2.2)⟩, heq⟩
        · rintro ⟨g', ⟨hvis, -⟩, heq⟩
          exact ⟨g', hvis, heq⟩

/-- What a step leaves that changes only clients, registries and the calls of binds. -/
theorem update {core : PinosCore} (hobjects : core.objects = s.core.objects)
    (hserial : core.nextSerial = s.core.nextSerial)
    (hglobals : core.globalList = s.core.globalList)
    (hconsistent : CoreUse.Consistent { s with core := core }) : Inv { s with core := core } where
  table := by
    show ∃ free stored, core.objects.Stores free stored ∧
      ∀ id, stored id ≠ none ↔ ∃ g ∈ core.globalList, g.id = id
    rw [hobjects, hglobals]
    exact h.table
  ids := by
    show (core.globalList.map PinosGlobal.id).Nodup
    rw [hglobals]
    exact h.ids
  serials := by
    show (core.globalList.map PinosGlobal.serial).Nodup
    rw [hglobals]
    exact h.serials
  old := by
    show ∀ g ∈ core.globalList, g.serial < core.nextSerial
    rw [hglobals, hserial]
    exact h.old
  bindable := by
    show ∀ g ∈ core.globalList, g.bind = true
    rw [hglobals]
    exact h.bindable
  adding := by
    show ∀ g ∈ s.adding, g ∈ core.globalList
    rw [hglobals]
    exact h.adding
  once := h.once
  consistent := hconsistent

omit h in
/-- Registries that are told nothing new stay as they are. -/
theorem consistent_congr {core : PinosCore} (hconsistent : s.Consistent)
    (haccess : core.access = s.core.access) (hglobals : core.globalList = s.core.globalList)
    (hregistries : ∀ r ∈ core.registryList, r ∈ s.core.registryList) :
    CoreUse.Consistent { s with core := core } := by
  intro r hr
  obtain ⟨horderly, hshown⟩ := hconsistent r (hregistries r hr)
  refine ⟨horderly, fun id => (hshown id).trans ?_⟩
  simp only [CoreUse.Visible, accessViewGlobal, haccess, hglobals]

omit h in
theorem shown_enumerated {globals : List PinosGlobal} (hids : (globals.map PinosGlobal.id).Nodup) :
    Orderly (globals.map fun g => .global g.id g.type) ∧
      shown (globals.map fun g => .global g.id g.type) = globals.map PinosGlobal.id := by
  induction globals using List.reverseRecOn with
  | nil => exact ⟨orderly_nil, rfl⟩
  | append_singleton globals g ih =>
    rw [List.map_append, List.nodup_append] at hids
    obtain ⟨horderly, hshown⟩ := ih hids.1
    have hfresh : g.id ∉ globals.map PinosGlobal.id := fun hmem =>
      hids.2.2 g.id hmem g.id (by simp) rfl
    rw [List.map_append, List.map_append, List.map_singleton, List.map_singleton, shown_global,
      hshown]
    exact ⟨horderly.append (by rw [hshown]; exact hfresh), rfl⟩

theorem getRegistry (hadding : s.adding = []) (client : Nat) (resource newId : UInt32)
    (ptr : Option UInt64) : (s.step (.getRegistry client resource newId ptr)).Inv := by
  rw [step, PinosCore.getRegistry]
  split
  · exact h.update rfl rfl rfl (consistent_congr h.consistent rfl rfl fun r hr => hr)
  · rename_i c id hnew
    refine h.update rfl rfl rfl fun r hr => ?_
    rcases List.mem_append.mp hr with hold | hsingle
    · obtain ⟨horderly, hshown⟩ := h.consistent r hold
      exact ⟨horderly, hshown⟩
    · rw [List.mem_singleton.mp hsingle]
      have hids := h.ids.sublist ((List.filter_sublist (l := s.core.globalList)
        (p := s.core.accessViewGlobal client)).map PinosGlobal.id)
      obtain ⟨horderly, hshown⟩ := shown_enumerated hids
      refine ⟨horderly, fun i => ?_⟩
      show i ∈ shown (List.map _ _) ↔ _
      rw [hshown, List.mem_map]
      constructor
      · rintro ⟨g, hg, heq⟩
        obtain ⟨hmem, hview⟩ := List.mem_filter.mp hg
        exact ⟨g, ⟨hmem, by rw [hadding]; exact List.not_mem_nil, hview⟩, heq⟩
      · rintro ⟨g, ⟨hmem, -, hview⟩, heq⟩
        exact ⟨g, List.mem_filter.mpr ⟨hmem, hview⟩, heq⟩

theorem dropRegistry (n : Nat) : (s.step (.dropRegistry n)).Inv := by
  refine h.update rfl rfl rfl (consistent_congr h.consistent rfl rfl fun r hr => ?_)
  exact List.mem_of_mem_eraseIdx hr

theorem bind (n : Nat) (id newId : UInt32) (ptr : Option UInt64) :
    (s.step (.bind n id newId ptr)).Inv := by
  rw [step]
  split
  · exact h
  · rename_i r hr
    rw [registryBind]
    split
    · exact h.update rfl rfl rfl (consistent_congr h.consistent rfl rfl fun r hr => hr)
    · split
      · exact h.update rfl rfl rfl (consistent_congr h.consistent rfl rfl fun r hr => hr)
      · exact h.update rfl rfl rfl (consistent_congr h.consistent rfl rfl fun r hr => hr)

theorem binds (hadding : s.adding = []) (n : Nat) (id newId : UInt32) (ptr : Option UInt64) :
    s.Binds (.bind n id newId ptr) := by
  intro r hr
  obtain ⟨-, hshown⟩ := h.consistent r (List.mem_of_getElem? hr)
  rw [hshown, step, hr]
  dsimp only
  rw [registryBind]
  cases hfind : s.core.globalList.find? (·.id = id) with
  | none =>
    have hnone : ¬ ∃ g, s.Visible r.client g ∧ g.id = id := by
      rintro ⟨g, hvis, heq⟩
      have hno := List.find?_eq_none.mp hfind g hvis.1
      exact hno (decide_eq_true heq)
    exact ⟨fun hex => absurd hex hnone, fun _ => rfl⟩
  | some g =>
    have hgMem : g ∈ s.core.globalList := List.mem_of_find?_eq_some hfind
    have hid : g.id = id := by simpa using List.find?_some hfind
    by_cases hview : s.core.accessViewGlobal r.client g = true
    · have hvis : s.Visible r.client g := ⟨hgMem, by rw [hadding]; exact List.not_mem_nil, hview⟩
      simp only [if_pos hview, h.bindable g hgMem]
      exact ⟨fun _ => ⟨g, hvis, hid, rfl⟩, fun hnone => absurd ⟨g, hvis, hid⟩ hnone⟩
    · have hnone : ¬ ∃ g, s.Visible r.client g ∧ g.id = id := by
        rintro ⟨g', hvis, heq⟩
        have hgg := h.eq_of_id hvis.1 hgMem (heq.trans hid.symm)
        exact hview (hgg ▸ hvis.2.2)
      simp only [if_neg hview]
      exact ⟨fun hex => absurd hex hnone, fun _ => rfl⟩

theorem step {op : CoreOp} (hadmits : s.Admits op) (hroom : s.Room op) : (s.step op).Inv := by
  cases op with
  | insert ptr type bind =>
    have hbind : bind = true := hadmits
    rw [hbind]
    exact h.insert hroom ptr type
  | announce => exact h.announce
  | destroy serial => exact h.destroy hadmits
  | getRegistry client resource newId ptr => exact h.getRegistry hadmits client resource newId ptr
  | dropRegistry n => exact h.dropRegistry n
  | bind n id newId ptr => exact h.bind n id newId ptr

theorem op_right {op : CoreOp} (hadmits : s.Admits op) (hroom : s.Room op) : s.Right op := by
  refine ⟨?_, (h.step hadmits hroom).consistent⟩
  cases op with
  | bind n id newId ptr => exact h.binds hadmits n id newId ptr
  | _ => trivial

end Inv

/-! ## Runs -/

instance (s : CoreUse) : (op : CoreOp) → Decidable (s.Admits op)
  | .insert _ _ bind => inferInstanceAs (Decidable (bind = true))
  | .announce => inferInstanceAs (Decidable True)
  | .destroy serial => inferInstanceAs (Decidable (∀ g ∈ s.adding, g.serial ≠ serial))
  | .getRegistry _ _ _ _ => inferInstanceAs (Decidable (s.adding = []))
  | .dropRegistry _ => inferInstanceAs (Decidable True)
  | .bind _ _ _ _ => inferInstanceAs (Decidable (s.adding = []))

instance (s : CoreUse) : (op : CoreOp) → Decidable (s.Room op)
  | .insert _ _ _ => inferInstanceAs (Decidable (s.core.globalList.length < 2 ^ 31))
  | .announce => inferInstanceAs (Decidable True)
  | .destroy _ => inferInstanceAs (Decidable True)
  | .getRegistry _ _ _ _ => inferInstanceAs (Decidable True)
  | .dropRegistry _ => inferInstanceAs (Decidable True)
  | .bind _ _ _ _ => inferInstanceAs (Decidable True)

/-- In every run with at most `2 ^ 31` globals at a time the registries show what their
clients may see, and binds reach what is shown. -/
theorem run_consistent {access : Option PinosAccess} {clients : Nat → PinosClient} {ops : List CoreOp}
    (hadmits : Run.Along step Admits (start access clients) ops)
    (hroom : Run.Along step Room (start access clients) ops) :
    Run.Along step Right (start access clients) ops :=
  Run.along_of Inv (fun _ _ h hop => ⟨h.op_right hop.1 hop.2, h.step hop.1 hop.2⟩)
    (inv_start access clients) (Run.along_and.mpr ⟨hadmits, hroom⟩)

def exampleClient : PinosClient := { objects := .empty, core := 0, sent := [] }

/-- Two globals, a registry, and an id that is used again. -/
theorem run_consistent_reuse :
    Run.Along step Right (start none fun _ => exampleClient)
      [.insert 2 0 true, .announce, .getRegistry 1 0 0 (some 4), .insert 6 1 true, .announce,
        .destroy 0, .insert 2 0 true, .announce, .bind 0 0 1 (some 8)] :=
  run_consistent (by decide) (by decide)

/-! ## More globals than a link can name -/

def addOne : List CoreOp := [.insert 2 0 true, .announce]

/-- A core with `n` globals, none of which was ever destroyed, and one registry that
shows the first. -/
structure Filled (n : Nat) (s : CoreUse) : Prop where
  access : s.core.access = none
  slots : s.core.objects.size = n
  unused : s.core.objects.freeList = 0
  serials : s.core.nextSerial = n
  old : ∀ g ∈ s.core.globalList, g.serial < n
  adding : s.adding = []
  registry : ∃ r, s.core.registryList = [r] ∧ (0 < n → 0 ∈ shown r.told)

theorem tell_of_open {core : PinosCore} (haccess : core.access = none) (g : PinosGlobal)
    (e : RegistryEvent) :
    (core.tell g e).registryList
      = core.registryList.map fun r => { r with told := r.told ++ [e] } := by
  show (core.registryList.map fun r =>
    if core.accessViewGlobal r.client g then { r with told := r.told ++ [e] } else r) = _
  simp only [accessViewGlobal, haccess, if_true]

theorem addOne_filled {n : Nat} {s : CoreUse} (h : Filled n s) :
    Filled (n + 1) (Run.run step s addOne) ∧
      (Run.run step s addOne).core.globalList
        = s.core.globalList ++ [⟨n, 2, .ofNat n, 0, true⟩] := by
  obtain ⟨haccess, hslots, hunused, hserials, hold, hadding, r, hregistries, hshown⟩ := h
  have hnew : s.core.objects.insertNew 2
      = ({ s.core.objects with items := s.core.objects.items ++ [2] }, .ofNat n) := by
    rw [PinosMap.insertNew, if_neg (not_not_intro hunused), hslots]
  have hrun : Run.run step s addOne =
      { core := (s.core.insertGlobal 2 0 true).1.announceGlobal (s.core.insertGlobal 2 0 true).2
        adding := s.adding } := rfl
  have hglobals : (Run.run step s addOne).core.globalList
      = s.core.globalList ++ [⟨n, 2, .ofNat n, 0, true⟩] := by
    rw [hrun]
    show s.core.globalList ++ [(s.core.insertGlobal 2 0 true).2] = _
    rw [insertGlobal, hnew, hserials]
  refine ⟨⟨haccess, ?_, ?_, ?_, ?_, hadding, ?_⟩, hglobals⟩
  · show (s.core.objects.insertNew 2).1.size = n + 1
    rw [hnew, ← hslots]
    exact List.length_append
  · show (s.core.objects.insertNew 2).1.freeList = 0
    rw [hnew]
    exact hunused
  · show s.core.nextSerial + 1 = n + 1
    rw [hserials]
  · rw [hglobals]
    intro g hg
    rcases List.mem_append.mp hg with hmem | hsingle
    · exact Nat.lt_succ_of_lt (hold g hmem)
    · rw [List.mem_singleton.mp hsingle]
      exact Nat.lt_succ_self n
  · refine ⟨{ r with told := r.told ++ [.global (.ofNat n) 0] }, ?_, fun _ => ?_⟩
    · rw [hrun]
      show ((s.core.insertGlobal 2 0 true).1.announceGlobal _).registryList = _
      have hopen : (s.core.insertGlobal 2 0 true).1.access = none := haccess
      rw [announceGlobal, tell_of_open hopen]
      show (s.core.registryList.map _) = _
      rw [hregistries, List.map_singleton, insertGlobal, hnew]
    · rw [shown_global, List.mem_append, List.mem_singleton]
      rcases Nat.eq_zero_or_pos n with rfl | hpos
      · exact .inr rfl
      · exact .inl (hshown hpos)

theorem addMany_filled (n : Nat) {m : Nat} {s : CoreUse} (h : Filled m s) :
    Run.Along step Admits s (List.replicate n addOne).flatten ∧
      Filled (m + n) (Run.run step s (List.replicate n addOne).flatten) := by
  induction n generalizing m s with
  | zero => exact ⟨trivial, h⟩
  | succ n ih =>
    rw [List.replicate_succ, List.flatten_cons, Run.along_append, Run.run_append]
    obtain ⟨hadmits, hfilled⟩ := ih (addOne_filled h).1
    rw [show m + (n + 1) = m + 1 + n by omega]
    exact ⟨⟨⟨rfl, trivial, trivial⟩, hadmits⟩, hfilled⟩

/-- The last of `2 ^ 31 + 1` globals is destroyed, and the next one gets the id 0. -/
theorem not_run_consistent :
    ¬ ∀ (access : Option PinosAccess) (clients : Nat → PinosClient) (ops : List CoreOp),
      Run.Along step Admits (start access clients) ops →
        Run.Along step Right (start access clients) ops := by
  intro h
  obtain ⟨n, hn⟩ : ∃ n, n = 2 ^ 31 := ⟨_, rfl⟩
  obtain ⟨s, hs⟩ : ∃ s, s = (start none fun _ => exampleClient).step (.getRegistry 0 0 0 (some 4)) :=
    ⟨_, rfl⟩
  have hzero : Filled 0 s := by
    rw [hs]
    exact ⟨rfl, rfl, rfl, rfl, fun g hg => (nomatch hg), rfl, _, rfl, fun hlt => by omega⟩
  obtain ⟨hmany, hfilled⟩ := addMany_filled n hzero
  rw [Nat.zero_add] at hfilled
  obtain ⟨s₁, hs₁⟩ : ∃ s₁, s₁ = Run.run step s (List.replicate n addOne).flatten := ⟨_, rfl⟩
  rw [← hs₁] at hfilled
  obtain ⟨hlast, hglobals⟩ := addOne_filled hfilled
  obtain ⟨s₂, hs₂⟩ : ∃ s₂, s₂ = Run.run step s₁ addOne := ⟨_, rfl⟩
  rw [← hs₂] at hlast hglobals
  obtain ⟨haccess, hslots, hunused, -, -, hadding, r, hregistries, hshown⟩ := hlast
  have hright := h none (fun _ => exampleClient)
    (.getRegistry 0 0 0 (some 4) :: ((List.replicate n addOne).flatten ++
      (addOne ++ [.destroy n, .insert 2 0 true, .announce])))
    ⟨rfl, by
      rw [← hs, Run.along_append, Run.along_append, ← hs₁, ← hs₂]
      refine ⟨hmany, ⟨rfl, trivial, trivial⟩, ?_, rfl, trivial, trivial⟩
      show ∀ g ∈ s₂.adding, g.serial ≠ n
      rw [hadding]
      exact fun g hg => nomatch hg⟩
  have hrest := hright.2
  rw [← hs, Run.along_append, Run.along_append, ← hs₁, ← hs₂] at hrest
  have hconsistent : (((s₂.step (.destroy n)).step (.insert 2 0 true)).step .announce).Consistent :=
    hrest.2.2.2.2.1.2
  obtain ⟨g, hg⟩ : ∃ g : PinosGlobal, g = ⟨n, 2, .ofNat n, 0, true⟩ := ⟨_, rfl⟩
  have hfind : s₂.core.globalList.find? (·.serial = n) = some g := by
    have hnone : s₁.core.globalList.find? (·.serial = n) = none := by
      rw [List.find?_eq_none]
      intro g' hg' heq
      have hlt := hfilled.old g' hg'
      have heq := of_decide_eq_true heq
      omega
    rw [hglobals, List.find?_append, hnone, ← hg]
    simp [hg]
  have hdestroy : s₂.step (.destroy n) = { s₂ with core := s₂.core.destroyGlobal g } := by
    rw [step, hfind]
  have hid : ((s₂.core.destroyGlobal g).objects.insertNew 2).2 = 0 := by
    have hlink : (s₂.core.destroyGlobal g).objects.freeList = 1 := by
      show g.id * 2 ||| 1 = 1
      rw [hg, hn]
      decide
    rw [PinosMap.insertNew, hlink]
    rfl
  have hopen : (s₂.core.destroyGlobal g).access = none := haccess
  have htold : (s₂.core.destroyGlobal g).registryList
      = [{ r with told := r.told ++ [.globalRemove g.id] }] := by
    show (s₂.core.tell g (.globalRemove g.id)).registryList = _
    rw [tell_of_open haccess, hregistries, List.map_singleton]
  obtain ⟨core, hcore⟩ : ∃ core, core = s₂.core.destroyGlobal g := ⟨_, rfl⟩
  rw [hdestroy] at hconsistent
  rw [← hcore] at hconsistent hid hopen htold
  have hregistry : (CoreUse.step (CoreUse.step { s₂ with core := core } (.insert 2 0 true))
      .announce).core.registryList
        = [{ r with told := r.told ++ [.globalRemove g.id] ++ [.global 0 0] }] := by
    have hopen' : (core.insertGlobal 2 0 true).1.access = none := hopen
    show ((core.insertGlobal 2 0 true).1.announceGlobal _).registryList = _
    rw [announceGlobal, tell_of_open hopen']
    show (core.registryList.map _) = _
    rw [htold, List.map_singleton, insertGlobal, hid]
  obtain ⟨horderly, -⟩ := hconsistent _ (hregistry ▸ List.mem_singleton_self _)
  have hnot : 0 ∉ shown (r.told ++ [.globalRemove g.id]) :=
    horderly (r.told ++ [RegistryEvent.globalRemove g.id]) (RegistryEvent.global 0 0) [] rfl
  refine hnot ((mem_shown_remove _ _ _).mpr ⟨hshown (Nat.succ_pos n), ?_⟩)
  rw [hg, hn]
  decide

end CoreUse
end Pinos
