import Pinos.Client.Context

/-
What a context that is connected again has kept: the count of the types that it has told, the
free list with the id of the core proxy, and the mark that it is disconnecting.
-/

namespace Pinos
namespace Context

variable {s : Context} {id : UInt32} {contents : List Pod}

/-! ## Types that are told -/

section Announced

variable {before sent more : List (UInt32 × SyncMessage)}

theorem announced_append :
    Announced (sent ++ more) id ↔ Announced sent id ∨ Announced more id := by
  constructor
  · rintro ⟨p, firstId, types, hmem, hrange⟩
    rcases List.mem_append.mp hmem with hmem | hmem
    · exact .inl ⟨p, firstId, types, hmem, hrange⟩
    · exact .inr ⟨p, firstId, types, hmem, hrange⟩
  · rintro (⟨p, firstId, types, hmem, hrange⟩ | ⟨p, firstId, types, hmem, hrange⟩)
    · exact ⟨p, firstId, types, List.mem_append_left _ hmem, hrange⟩
    · exact ⟨p, firstId, types, List.mem_append_right _ hmem, hrange⟩

theorem not_announced_nil : ¬ Announced [] id := by
  rintro ⟨_, _, _, hmem, -⟩
  cases hmem

theorem announced_updateTypes {p firstId : UInt32} {types : List CString} :
    Announced [(p, .updateTypes firstId types)] id ↔
      firstId.toNat ≤ id.toNat ∧ id.toNat < firstId.toNat + types.length := by
  constructor
  · rintro ⟨_, _, _, hmem, hrange⟩
    cases List.mem_singleton.mp hmem
    exact hrange
  · exact fun hrange => ⟨p, firstId, types, List.mem_singleton_self _, hrange⟩

theorem not_announced_call {p : UInt32} : ¬ Announced [(p, .call contents)] id := by
  rintro ⟨_, _, _, hmem, -⟩
  cases List.mem_singleton.mp hmem

theorem announcesFrom_append :
    AnnouncesFrom before (sent ++ more) ↔
      AnnouncesFrom before sent ∧ AnnouncesFrom (before ++ sent) more := by
  induction sent generalizing before with
  | nil => simp [AnnouncesFrom]
  | cons message rest ih =>
    obtain ⟨p, message⟩ := message
    cases message with
    | updateTypes firstId types =>
      show AnnouncesFrom _ (rest ++ more) ↔ AnnouncesFrom _ rest ∧ _
      rw [ih, List.append_assoc]
      rfl
    | call contents =>
      show _ ∧ AnnouncesFrom _ (rest ++ more) ↔ (_ ∧ AnnouncesFrom _ rest) ∧ _
      rw [ih, List.append_assoc, and_assoc]
      rfl

end Announced

/-- What `core_update_map` tells is one message, from the first type on that was not told. -/
theorem updateMap_messages (peer : Peer) : peer.updateMap.2 = [] ∨
    ∃ types, peer.updateMap.2 = [.updateTypes peer.nTypes types] := by
  unfold Peer.updateMap
  dsimp only
  split
  · exact .inl rfl
  · exact .inr ⟨_, rfl⟩

/-- The types of the context, and what of them was told on this connection. -/
structure Telling (s : Context) : Prop where
  names : ∃ names, s.peer.map.Holds names ∧ s.peer.nTypes.toNat ≤ names.length
  first_le : s.firstType ≤ s.peer.nTypes.toNat
  told : s.connected = true → ∀ id, Announced s.sent id ↔
    s.firstType ≤ id.toNat ∧ id.toNat < s.peer.nTypes.toNat
  announces : AnnouncesFrom [] s.sent

theorem Telling.congr {s' : Context} (h : s.Telling) (hpeer : s'.peer = s.peer)
    (hfirst : s'.firstType = s.firstType) (hsent : s'.sent = s.sent)
    (hconnected : s'.connected = s.connected) : s'.Telling where
  names := hpeer ▸ h.names
  first_le := by
    rw [hfirst, hpeer]
    exact h.first_le
  told hs := by
    rw [hfirst, hpeer, hsent]
    exact h.told (hconnected ▸ hs)
  announces := hsent ▸ h.announces

/-- All types are told when `core_update_map` returns, those before `firstType` excepted. -/
theorem Telling.updateMap (h : s.Telling) (hconnected : s.connected = true) :
    s.updateMap.Telling ∧ s.updateMap.peer.map = s.peer.map ∧
      s.updateMap.peer.nTypes.toNat = s.peer.map.getSize := by
  obtain ⟨names, hholds, hle⟩ := h.names
  obtain ⟨hmap, -, hnTypes, hpending⟩ := TypeSync.updateMap_pending hholds hle
  have hsize : s.peer.map.getSize = names.length := hholds.size
  have hpeer : s.updateMap.peer = s.peer.updateMap.1 := rfl
  refine ⟨?_, congrArg Peer.map hpeer ▸ hmap, by rw [hpeer, hnTypes, hsize]⟩
  have hfirst := h.first_le
  have htold := h.told hconnected
  have hnames : ∃ names, s.updateMap.peer.map.Holds names ∧
      s.updateMap.peer.nTypes.toNat ≤ names.length :=
    ⟨names, by rw [hpeer, hmap]; exact hholds, by rw [hpeer, hnTypes]⟩
  have hfirstLe : s.firstType ≤ s.updateMap.peer.nTypes.toNat := by
    rw [hpeer, hnTypes]
    omega
  rcases updateMap_messages s.peer with hnone | ⟨types, hsome⟩
  · have hsent : s.updateMap.sent = s.sent := by
      show s.sent ++ s.peer.updateMap.2.map _ = s.sent
      rw [hnone, List.map_nil, List.append_nil]
    rw [hnone] at hpending
    have hpending : s.peer.nTypes.toNat = names.length := hpending
    refine ⟨hnames, hfirstLe, ?_, ?_⟩
    · intro _ id
      show Announced s.updateMap.sent id ↔ s.firstType ≤ _ ∧ _
      rw [hsent, hpeer, hnTypes, ← hpending]
      exact htold id
    · rw [hsent]
      exact h.announces
  · have hsent : s.updateMap.sent = s.sent ++ [((s.coreProxy.map PinosProxy.id).getD 0,
        .updateTypes s.peer.nTypes types)] := by
      show s.sent ++ s.peer.updateMap.2.map _ = _
      rw [hsome]
      rfl
    rw [hsome] at hpending
    have hpending : s.peer.nTypes.toNat + types.length = names.length := hpending.2
    refine ⟨hnames, hfirstLe, ?_, ?_⟩
    · intro _ id
      show Announced s.updateMap.sent id ↔ s.firstType ≤ _ ∧ _
      rw [hsent, announced_append, htold, announced_updateTypes, hpeer, hnTypes]
      omega
    · rw [hsent, announcesFrom_append]
      exact ⟨h.announces, trivial⟩

/-- A call uses types that were told on the connection unless they are before `firstType`. -/
theorem Telling.send_iff (h : s.Telling) (hconnected : s.connected = true)
    (hids : ∀ w ∈ TypeSync.ids contents, w.id.toNat < s.peer.map.getSize) :
    AnnouncesFrom [] (s.send id contents).sent ↔
      ∀ w ∈ TypeSync.ids contents, s.firstType ≤ w.id.toNat := by
  obtain ⟨htelling, -, hnTypes⟩ := h.updateMap hconnected
  have hsent : (s.send id contents).sent = s.updateMap.sent ++ [(id, .call contents)] := by
    rw [send, if_pos hconnected]
  rw [hsent, announcesFrom_append, List.nil_append]
  have htold := htelling.told hconnected
  constructor
  · rintro ⟨-, hcall, -⟩ w hw
    exact ((htold w.id).mp (hcall w hw)).1
  · intro hfirst
    refine ⟨htelling.announces, fun w hw => (htold w.id).mpr ⟨hfirst w hw, ?_⟩, trivial⟩
    rw [hnTypes]
    exact hids w hw

theorem Telling.send (h : s.Telling)
    (hids : ∀ w ∈ TypeSync.ids contents, w.id.toNat < s.peer.map.getSize)
    (hsafe : s.connected = true → ∀ w ∈ TypeSync.ids contents, s.firstType ≤ w.id.toNat) :
    (s.send id contents).Telling ∧ (s.send id contents).peer.map = s.peer.map := by
  by_cases hconnected : s.connected = true
  · have hannounces := (@Telling.send_iff _ id _ h hconnected hids).mpr (hsafe hconnected)
    obtain ⟨htelling, hmap, -⟩ := h.updateMap hconnected
    have hsend : s.send id contents =
        { s.updateMap with sent := s.updateMap.sent ++ [(id, .call contents)] } := by
      rw [Context.send, if_pos hconnected]
    rw [hsend] at hannounces ⊢
    refine ⟨⟨htelling.names, htelling.first_le, fun hc id => ?_, hannounces⟩, hmap⟩
    rw [announced_append, or_iff_left not_announced_call]
    exact htelling.told hc id
  · rw [Context.send, if_neg hconnected]
    exact ⟨h, rfl⟩

/-! ## Values without types -/

/-- Integers and strings have no ids in them. -/
theorem ids_of_leaves (h : ∀ p ∈ contents, ∃ l, p = .leaf l ∧ l.type ≠ .id) :
    TypeSync.ids contents = [] := by
  have hwords : ∀ a, Pod.contentsWords contents a = [] := by
    induction contents with
    | nil => exact fun _ => rfl
    | cons p rest ih =>
      intro a
      obtain ⟨l, rfl, hl⟩ := h p List.mem_cons_self
      rw [Pod.contentsWords, ih fun q hq => h q (List.mem_cons_of_mem _ hq), Pod.idWords, if_neg hl]
      rfl
  have hdata : ∀ a, (TypeSync.data contents).idWords a = Pod.contentsWords contents (a + 8) := by
    intro a
    rw [TypeSync.data, Pod.idWords, Pod.contentsWords, Pod.contentsWords, Pod.idWords,
      List.append_nil]
  rw [TypeSync.ids, hdata, hwords]

theorem ids_intPod (val : UInt32) : TypeSync.ids [intPod val] = [] := by
  apply ids_of_leaves
  intro p hp
  exact ⟨_, List.mem_singleton.mp hp, SpaPODType.noConfusion⟩

theorem ids_clientUpdate (props : List (CString × CString)) :
    TypeSync.ids (clientUpdate props) = [] := by
  apply ids_of_leaves
  intro p hp
  rcases List.mem_cons.mp hp with rfl | hp
  · exact ⟨_, rfl, SpaPODType.noConfusion⟩
  · obtain ⟨item, -, hp⟩ := List.mem_flatMap.mp hp
    rcases List.mem_cons.mp hp with rfl | hp
    · exact ⟨_, rfl, SpaPODType.noConfusion⟩
    · exact ⟨_, List.mem_singleton.mp hp, SpaPODType.noConfusion⟩

/-- A call without types can be made at any time. -/
theorem Telling.send_none (h : s.Telling) (hnone : TypeSync.ids contents = []) :
    (s.send id contents).Telling := by
  have hids : ∀ w ∈ TypeSync.ids contents, w.id.toNat < s.peer.map.getSize := by
    rw [hnone]
    nofun
  refine (h.send hids fun _ => ?_).1
  rw [hnone]
  nofun

/-! ## What a call leaves as it is -/

@[simp] theorem objects_send : (s.send id contents).objects = s.objects := by
  unfold send
  split <;> rfl

@[simp] theorem iface_send : (s.send id contents).iface = s.iface := by
  unfold send
  split <;> rfl

@[simp] theorem coreProxy_send : (s.send id contents).coreProxy = s.coreProxy := by
  unfold send
  split <;> rfl

@[simp] theorem registryProxy_send : (s.send id contents).registryProxy = s.registryProxy := by
  unfold send
  split <;> rfl

@[simp] theorem connected_send : (s.send id contents).connected = s.connected := by
  unfold send
  split <;> rfl

@[simp] theorem disconnecting_send : (s.send id contents).disconnecting = s.disconnecting := by
  unfold send
  split <;> rfl

/-! ## Connections -/

theorem proxyNew_zero {address : UInt64} {type : Native.Interface} :
    s.proxyNew 0 address type =
      ({ s with
          objects := s.objects.step (.insertAt 0 address)
          iface := Function.update s.iface address type }, some ⟨address, 0⟩) := by
  have hinsert : (s.objects.map.insertAt 0 address).2 = true := by
    have hnot : ¬ s.objects.map.size < (0 : UInt32).toNat := Nat.not_lt_zero _
    unfold PinosMap.insertAt
    rw [if_neg hnot]
    split <;> rfl
  rw [proxyNew, if_neg (by decide), if_pos hinsert]

/-- The proxies of a context after `pinos_context_connect_fd`. -/
structure Connects (s s' : Context) (core : UInt64) (registry : Option UInt64) : Prop where
  telling : s'.Telling
  coreProxy : s'.coreProxy = some ⟨core, 0⟩
  registryProxy : s'.registryProxy = match registry with
    | none => s.registryProxy
    | some address =>
      some ⟨address, ((s.objects.step (.insertAt 0 core)).map.insertNew address).2⟩
  objects : s'.objects = match registry with
    | none => s.objects.step (.insertAt 0 core)
    | some address => (s.objects.step (.insertAt 0 core)).step (.insertNew address)
  connected : s'.connected = true
  disconnecting : s'.disconnecting = s.disconnecting

theorem connects_connectFd (h : s.Telling) (props : List (CString × CString)) (core : UInt64)
    (registry : Option UInt64) : Connects s (s.connectFd props core registry) core registry := by
  unfold connectFd
  dsimp only
  rw [proxyNew_zero]
  dsimp only
  have hstart : ({ s with
      connected := true
      sent := []
      firstType := s.peer.nTypes.toNat
      objects := s.objects.step (.insertAt 0 core)
      iface := Function.update s.iface core .core
      coreProxy := some ⟨core, 0⟩ } : Context).Telling := by
    refine ⟨h.names, Nat.le_refl _, fun _ id => ?_, trivial⟩
    refine iff_of_false not_announced_nil fun hrange => ?_
    exact absurd hrange.2 (Nat.not_lt.mpr hrange.1)
  have hupdated := @Telling.send_none _ 0 _ hstart (ids_clientUpdate props)
  cases registry with
  | none =>
    refine ⟨hupdated.send_none (ids_intPod 0), ?_, ?_, ?_, ?_, ?_⟩ <;>
      simp [connectRegistry]
  | some address =>
    have hregistry : ∀ (s : Context) (core : PinosProxy), s.connectRegistry core (some address) =
        ({ s with
          objects := s.objects.step (.insertNew address)
          iface := Function.update s.iface address .registry
          registryProxy := some ⟨address, (s.objects.map.insertNew address).2⟩ } : Context).send
            core.id [intPod (s.objects.map.insertNew address).2] := by
      intro s core
      rfl
    rw [hregistry]
    refine ⟨?_, ?_, ?_, ?_, ?_, ?_⟩
    · apply Telling.send_none _ (ids_intPod 0)
      apply Telling.send_none _ (ids_intPod _)
      exact hupdated.congr rfl rfl rfl rfl
    all_goals simp

/-- The registry proxy gets the id 0 when that is the first of the free list. -/
theorem registryId_iff {map : PinosMap} (hroom : map.size < 2 ^ 31) (core address : UInt64) :
    ((map.insertAt 0 core).1.insertNew address).2 ≠ 0 ↔ map.freeList ≠ 1 := by
  have hinsert : (map.insertAt 0 core).1.freeList = map.freeList ∧
      0 < (map.insertAt 0 core).1.size ∧ (map.insertAt 0 core).1.size ≤ 2 ^ 31 := by
    have hnot : ¬ map.size < (0 : UInt32).toNat := Nat.not_lt_zero _
    unfold PinosMap.insertAt
    rw [if_neg hnot]
    split
    · refine ⟨rfl, ?_, ?_⟩
      · show 0 < (map.items ++ [core]).length
        rw [List.length_append]
        exact Nat.succ_pos _
      · show (map.items ++ [core]).length ≤ _
        rw [List.length_append]
        exact hroom
    · next hne =>
      refine ⟨rfl, ?_, ?_⟩
      · show 0 < (map.items.set _ core).length
        rw [List.length_set]
        exact Nat.pos_of_ne_zero (Ne.symm hne)
      · show (map.items.set _ core).length ≤ _
        rw [List.length_set]
        exact Nat.le_of_lt hroom
  obtain ⟨hfree, hpos, hle⟩ := hinsert
  generalize (map.insertAt 0 core).1 = map' at hfree hpos hle
  rw [← hfree]
  unfold PinosMap.insertNew
  split
  · next hlinked =>
    show UInt32.ofNat (map'.freeList / 2).toNat ≠ 0 ↔ _
    rw [UInt32.ofNat_toNat, not_iff_not, ← UInt32.toNat_inj, ← UInt32.toNat_inj, UInt32.toNat_div]
    have hne : map'.freeList.toNat ≠ 0 := fun h => hlinked (UInt32.toNat_inj.mp h)
    show map'.freeList.toNat / 2 = 0 ↔ map'.freeList.toNat = 1
    omega
  · next hnone =>
    have hzero : map'.freeList = 0 := not_not.mp hnone
    refine iff_of_true (fun h => ?_) (by rw [hzero]; decide)
    have hsize := congrArg UInt32.toNat h
    rw [UInt32.toNat_ofNat_of_lt' (Nat.lt_of_le_of_lt hle (by decide))] at hsize
    exact absurd hsize (Nat.pos_iff_ne_zero.mp hpos)

/-! ## The proxies of the first connection -/

/-- The core proxy has the id 0, and the others have theirs. -/
structure Keeping (objects : MapUse) (core : UInt64) : Prop where
  stores : ∃ free, PinosMap.Stores objects.map free objects.stored
  core : objects.stored 0 = some core
  pointers : ∀ i data, objects.stored i = some data → MapUse.IsPointer data

section Keeping

variable {objects : MapUse} {core address : UInt64}

theorem pointers_update {i : UInt32} (h : ∀ i data, objects.stored i = some data →
      MapUse.IsPointer data) (hdata : MapUse.IsPointer address) (j : UInt32) (data : UInt64)
    (hj : Function.update objects.stored i (some address) j = some data) :
    MapUse.IsPointer data := by
  by_cases hji : j = i
  · rw [hji, Function.update_self] at hj
    exact Option.some_inj.mp hj ▸ hdata
  · rw [Function.update_of_ne hji] at hj
    exact h j data hj

theorem Keeping.insertNew (h : Keeping objects core) (hroom : objects.map.size < 2 ^ 31)
    (hdata : MapUse.IsPointer address) : Keeping (objects.step (.insertNew address)) core := by
  obtain ⟨free, hstores⟩ := h.stores
  obtain ⟨hdead, hstores, -⟩ := hstores.insertNew (.inr hroom) address
  refine ⟨hstores, ?_, fun i data => pointers_update h.pointers hdata i data⟩
  show Function.update objects.stored _ (some address) 0 = some core
  rw [Function.update_of_ne]
  · exact h.core
  intro hzero
  rw [← hzero, h.core] at hdead
  cases hdead

theorem Keeping.insertAt (h : Keeping objects core) (hdata : MapUse.IsPointer address) :
    Keeping (objects.step (.insertAt 0 address)) address ∧
      (objects.step (.insertAt 0 address)).map.size = objects.map.size := by
  obtain ⟨free, hstores⟩ := h.stores
  obtain ⟨hsize, hstores⟩ := hstores.insertAt_live (by rw [h.core]; exact Option.some_ne_none _)
    address
  have hself : Function.update objects.stored 0 (some address) 0 = some address :=
    Function.update_self ..
  exact ⟨⟨⟨free, hstores⟩, hself, fun i data => pointers_update h.pointers hdata i data⟩, hsize⟩

/-- The first proxy of a context. -/
theorem keeping_start (hdata : MapUse.IsPointer address) :
    Keeping (MapUse.start.step (.insertAt 0 address)) address := by
  obtain ⟨-, -, -, hstores⟩ := PinosMap.stores_empty.insertNew_append rfl (by decide) address
  have hself : Function.update MapUse.start.stored 0 (some address) 0 = some address :=
    Function.update_self ..
  refine ⟨⟨[], hstores⟩, hself, fun i data => ?_⟩
  exact @pointers_update MapUse.start _ _ (fun _ _ h => nomatch h) hdata i data

theorem Keeping.remove (h : Keeping objects core) {id : UInt32} (hlive : objects.stored id ≠ none)
    (hne : id ≠ 0) : Keeping (objects.step (.remove id)) core := by
  obtain ⟨free, hstores⟩ := h.stores
  refine ⟨⟨_, (hstores.remove hlive).2⟩, ?_, fun i data hi => ?_⟩
  · show Function.update objects.stored id none 0 = some core
    rw [Function.update_of_ne (Ne.symm hne)]
    exact h.core
  · change Function.update objects.stored id none i = some data at hi
    by_cases hid : i = id
    · rw [hid, Function.update_self] at hi
      cases hi
    · rw [Function.update_of_ne hid] at hi
      exact h.pointers i data hi

/-- A proxy is found by its id. -/
theorem Keeping.lookup (h : Keeping objects core) {id : UInt32}
    (hid : objects.stored id = some address) :
    objects.map.lookup id.toNat = address ∧ address ≠ 0 := by
  obtain ⟨free, hstores⟩ := h.stores
  obtain ⟨hne, heven⟩ := h.pointers id address hid
  exact ⟨hstores.lookup hid heven, hne⟩

end Keeping

/-! ## One step -/

/-- What holds of a context whatever it is asked for; of its proxies as long as it was not
disconnected. -/
structure Inv (s : Context) : Prop where
  telling : s.Telling
  core : s.connected = true → ∃ core, s.coreProxy = some core ∧ core.id = 0
  registry : ∀ registry, s.registryProxy = some registry → registry.id ≠ 0
  proxies : s.disconnecting = false → s.connected = false ∧ s.objects = .start ∨
    s.connected = true ∧ ∃ core, s.coreProxy = some core ∧ core.id = 0 ∧
      Keeping s.objects core.address

theorem Inv.works (h : s.Inv) : s.Works := ⟨h.core, h.registry, h.telling.announces⟩

theorem inv_new : new.Inv where
  telling := ⟨⟨[], TypeMap.holds_empty, Nat.le_refl 0⟩, Nat.le_refl 0, nofun, trivial⟩
  core := nofun
  registry := nofun
  proxies _ := .inl ⟨rfl, rfl⟩

theorem Inv.connect_iff (h : s.Inv) {props : List (CString × CString)} {core : UInt64}
    {registry : Option UInt64} (hroom : s.objects.map.size < 2 ^ 31) :
    (s.connectFd props core registry).Works ↔ (registry ≠ none → s.objects.map.freeList ≠ 1) := by
  have hconnects := connects_connectFd h.telling props core registry
  have hregistry := hconnects.registryProxy
  constructor
  · intro hworks hsome
    cases registry with
    | none => exact absurd rfl hsome
    | some address => exact (registryId_iff hroom core address).mp (hworks.registry _ hregistry)
  · intro hsafe
    refine ⟨fun _ => ⟨_, hconnects.coreProxy, rfl⟩, fun proxy hproxy => ?_,
      hconnects.telling.announces⟩
    cases registry with
    | none => exact h.registry proxy (hregistry.symm.trans hproxy)
    | some address =>
      rw [hregistry] at hproxy
      cases hproxy
      exact (registryId_iff hroom core address).mpr (hsafe (Option.some_ne_none _))

theorem Inv.connect (h : s.Inv) {props : List (CString × CString)} {core : UInt64}
    {registry : Option UInt64} (hroom : s.objects.map.size < 2 ^ 31)
    (hcore : MapUse.IsPointer core) (hpointer : ∀ address ∈ registry, MapUse.IsPointer address)
    (hsafe : registry ≠ none → s.objects.map.freeList ≠ 1) :
    (s.connectFd props core registry).Inv := by
  have hconnects := connects_connectFd h.telling props core registry
  have hworks : (s.connectFd props core registry).Works := (h.connect_iff hroom).mpr hsafe
  refine ⟨hconnects.telling, hworks.core, hworks.registry, fun hdisconnecting => .inr ?_⟩
  rw [hconnects.disconnecting] at hdisconnecting
  refine ⟨hconnects.connected, ⟨core, 0⟩, hconnects.coreProxy, rfl, ?_⟩
  have hfirst : Keeping (s.objects.step (.insertAt 0 core)) core ∧
      (s.objects.step (.insertAt 0 core)).map.size < 2 ^ 31 := by
    rcases h.proxies hdisconnecting with ⟨-, hstart⟩ | ⟨-, old, -, -, hkeeping⟩
    · rw [hstart]
      exact ⟨keeping_start hcore, (by decide : 1 < 2 ^ 31)⟩
    · obtain ⟨hkeeping, hsize⟩ := hkeeping.insertAt hcore
      exact ⟨hkeeping, hsize ▸ hroom⟩
  rw [hconnects.objects]
  cases registry with
  | none => exact hfirst.1
  | some address => exact hfirst.1.insertNew hfirst.2 (hpointer address rfl)

theorem disconnect_frame : s.disconnect.peer = s.peer ∧ s.disconnect.firstType = s.firstType ∧
    s.disconnect.sent = s.sent ∧ s.disconnect.disconnecting = true ∧
      s.disconnect.registryProxy = none := by
  unfold disconnect
  cases s.registryProxy <;> cases s.coreProxy <;> exact ⟨rfl, rfl, rfl, rfl, rfl⟩

theorem Inv.disconnect (h : s.Inv) : s.disconnect.Inv := by
  obtain ⟨hpeer, hfirst, hsent, hdisconnecting, hregistry⟩ := disconnect_frame (s := s)
  refine ⟨⟨hpeer ▸ h.telling.names, ?_, nofun, hsent ▸ h.telling.announces⟩, nofun,
    fun _ hsome => ?_, fun hnot => ?_⟩
  · rw [hpeer, hfirst]
    exact h.telling.first_le
  · rw [hregistry] at hsome
    cases hsome
  · rw [hdisconnecting] at hnot
    cases hnot

/-- Only the proxies change. -/
theorem Inv.withObjects (h : s.Inv) {objects : MapUse} {iface : UInt64 → Native.Interface}
    (hproxies : s.disconnecting = false → ∀ core, s.coreProxy = some core → core.id = 0 →
      Keeping s.objects core.address → Keeping objects core.address)
    (hstart : s.connected = false → s.objects = .start → objects = .start) :
    { s with objects, iface }.Inv where
  telling := h.telling.congr rfl rfl rfl rfl
  core := h.core
  registry := h.registry
  proxies hdisconnecting := by
    rcases h.proxies hdisconnecting with ⟨hc, hobjects⟩ | ⟨hc, core, hcore, hid, hkeeping⟩
    · exact .inl ⟨hc, hstart hc hobjects⟩
    · exact .inr ⟨hc, core, hcore, hid, hproxies hdisconnecting core hcore hid hkeeping⟩

theorem Inv.register (h : s.Inv) {type : CString} (hroom : s.peer.map.HasRoom [type]) :
    (s.step (.register type)).Inv := by
  obtain ⟨names, hholds, hle⟩ := h.telling.names
  have hgrows := (Intern.prefix_intern names type).length_le
  refine ⟨⟨⟨_, (hholds.getId hroom).1, Nat.le_trans hle hgrows⟩, h.telling.first_le,
    h.telling.told, h.telling.announces⟩, h.core, h.registry, h.proxies⟩

theorem Inv.send (h : s.Inv) (htelling : (s.send id contents).Telling) :
    (s.send id contents).Inv where
  telling := htelling
  core := by
    rw [connected_send, coreProxy_send]
    exact h.core
  registry := by
    rw [registryProxy_send]
    exact h.registry
  proxies := by
    rw [disconnecting_send, connected_send, coreProxy_send, objects_send]
    exact h.proxies

theorem Inv.step (h : s.Inv) {op : Op} (hadmits : s.Admits op) (hroom : s.HasRoom op)
    (hsafe : s.Safe op) : (s.step op).Inv := by
  cases op with
  | connect props core registry => exact h.connect hroom hadmits.1 hadmits.2 hsafe
  | disconnect => exact h.disconnect
  | register type => exact h.register hroom
  | newProxy address type =>
    refine h.withObjects (fun _ _ _ _ hkeeping => hkeeping.insertNew hroom hadmits.2) fun hc => ?_
    exact absurd hadmits.1 (by rw [hc]; decide)
  | destroyProxy proxy =>
    obtain ⟨hstored, hcore, -⟩ := hadmits
    refine h.withObjects (fun _ core hc hid hkeeping => ?_) fun _ hstart => ?_
    · refine hkeeping.remove (by rw [hstored]; exact Option.some_ne_none _) fun hzero => ?_
      rw [hzero, hkeeping.core] at hstored
      have hsame : core = proxy := by
        obtain ⟨address, id⟩ := core
        obtain ⟨address', id'⟩ := proxy
        cases hid
        cases hzero
        cases hstored
        rfl
      exact hcore (hsame ▸ hc)
    · rw [hstart] at hstored
      cases hstored
  | send proxy contents => exact h.send (h.telling.send hadmits hsafe).1
  | message id opcode =>
    show (if s.connected then s.onContextData id opcode else s).Inv
    have hhandled : ∀ handled, { s with handled }.Inv := fun _ =>
      ⟨h.telling.congr rfl rfl rfl rfl, h.core, h.registry, h.proxies⟩
    unfold onContextData
    dsimp only
    split
    · split
      · exact h
      split
      · exact h
      split
      · exact h
      · exact hhandled _
    · exact h

/-- A message for a proxy comes to its function as long as the context was not
disconnected. -/
theorem Inv.message_iff (h : s.Inv) {opcode : UInt8} :
    s.Delivers (.message id opcode) ↔ s.Safe (.message id opcode) := by
  constructor
  · intro hdelivers hconnected hdisconnecting proxy hproxy
    by_contra hlt
    have hhandled := hdelivers hconnected proxy hproxy (Nat.lt_of_not_le hlt)
    rw [onContextData, if_pos hdisconnecting] at hhandled
    exact absurd (congrArg List.length hhandled) (by simp)
  · intro hsafe hconnected proxy hproxy hopcode
    have hdisconnecting : s.disconnecting = false := by
      by_contra hnot
      exact absurd hopcode
        (Nat.not_lt.mpr (hsafe hconnected (Bool.of_not_eq_false hnot) proxy hproxy))
    rcases h.proxies hdisconnecting with ⟨hc, -⟩ | ⟨-, core, -, -, hkeeping⟩
    · rw [hconnected] at hc
      cases hc
    · obtain ⟨hlookup, hne⟩ := hkeeping.lookup hproxy
      unfold onContextData
      dsimp only
      rw [hdisconnecting, if_neg Bool.false_ne_true, hlookup, if_neg hne,
        if_neg (Nat.not_le.mpr hopcode)]

theorem Inv.right_iff (h : s.Inv) {op : Op} (hadmits : s.Admits op) (hroom : s.HasRoom op) :
    s.Right op ↔ s.Safe op := by
  have hquiet : ∀ op, s.Safe op → s.Admits op → s.HasRoom op → s.Delivers op →
      (s.Right op ↔ s.Safe op) := fun op hsafe hadmits hroom hdelivers =>
    iff_of_true ⟨(h.step hadmits hroom hsafe).works, hdelivers⟩ hsafe
  cases op with
  | connect props core registry =>
    exact (and_iff_left trivial).trans (h.connect_iff hroom)
  | send proxy contents =>
    refine (and_iff_left trivial).trans ⟨fun hworks hconnected => ?_, fun hsafe => ?_⟩
    · exact (h.telling.send_iff hconnected hadmits).mp hworks.announces
    · exact (h.send (h.telling.send hadmits hsafe).1).works
  | message id opcode =>
    have hsame : s.Safe (.message id opcode) → (s.step (.message id opcode)).Works :=
      fun hsafe => (h.step hadmits hroom hsafe).works
    exact ⟨fun hright => h.message_iff.mp hright.2,
      fun hsafe => ⟨hsame hsafe, h.message_iff.mpr hsafe⟩⟩
  | disconnect => exact hquiet _ trivial hadmits hroom trivial
  | register type => exact hquiet _ trivial hadmits hroom trivial
  | newProxy address type => exact hquiet _ trivial hadmits hroom trivial
  | destroyProxy proxy => exact hquiet _ trivial hadmits hroom trivial

/-! ## Every run -/

/-- A context works in a run exactly when no connection finds the id of the core proxy at the
head of the free list, no call has a type that only an earlier connection was told, and no
message comes in for a proxy after a disconnect. -/
theorem run_sessions_iff {ops : List Op} (hadmits : Run.Along step Admits new ops)
    (hroom : Run.Along step HasRoom new ops) :
    Run.Along step Right new ops ↔ Run.Along step Safe new ops := by
  have hboth : Run.Along step (fun s op => s.Admits op ∧ s.HasRoom op) new ops :=
    Run.along_and.mpr ⟨hadmits, hroom⟩
  apply Run.along_iff Inv _ _ inv_new hboth
  · exact fun s op h hop => h.right_iff hop.1 hop.2
  · exact fun s op h hop hsafe => h.step hop.1 hop.2 hsafe

/-- A context is connected, gets an event for its core proxy, and is disconnected. -/
def session : List Op := [.connect [] 4096 (some 8192), .message 0 1, .disconnect]

theorem admits_session : Run.Along step Admits new session := by
  refine ⟨⟨by decide, fun address haddress => ?_⟩, trivial, trivial, trivial⟩
  cases haddress
  decide

theorem hasRoom_session : Run.Along step HasRoom new session :=
  ⟨(by decide : 0 < 2 ^ 31), trivial, trivial, trivial⟩

theorem run_sessions_iff_one :
    Run.Along step Right new session ↔ Run.Along step Safe new session :=
  run_sessions_iff admits_session hasRoom_session

/-- When the context is connected again its registry proxy gets the id of the core proxy. -/
theorem not_run_sessions :
    ¬ ∀ ops, Run.Along step Admits new ops → Run.Along step HasRoom new ops →
      Run.Along step Right new ops := by
  intro h
  have hadmits : Run.Along step Admits new (session ++ [.connect [] 12288 (some 16384)]) := by
    rw [Run.along_append]
    refine ⟨admits_session, ⟨by decide, fun address haddress => ?_⟩, trivial⟩
    cases haddress
    decide
  have hroom : Run.Along step HasRoom new (session ++ [.connect [] 12288 (some 16384)]) := by
    rw [Run.along_append]
    exact ⟨hasRoom_session, (by decide : 2 < 2 ^ 31), trivial⟩
  obtain ⟨-, ⟨hworks, -⟩, -⟩ := Run.along_append.mp (h _ hadmits hroom)
  exact hworks.registry ⟨16384, 0⟩ (by rfl) rfl

end Context
end Pinos
