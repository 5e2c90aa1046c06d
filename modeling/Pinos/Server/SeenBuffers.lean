import Mathlib.Data.List.Forall2
import Pinos.Server.SharedBuffers

/-
When the stream sees the buffers of a request: while the block is small and the descriptors of
its messages stay open.
-/

namespace Pinos
namespace SharedBuffers

open Native (PinosMessage)
open PortBuffers (BufferTypes Request SentMem SpaBuffer addMems)
open BufferTable (Stream MapPtr)

/-! ## What is placed in a buffer -/

section Placed

variable {types : BufferTypes} {fds numbers : List Int} {ptr : MapPtr} {file : Int}
  {files : Int → Option Int}

/-- `size` bytes of the file from `p` on are where `ptr` leads to from `offset` on. -/
theorem resolves_add {offset p size : Nat} :
    Resolves (ptr.add offset) file p size ↔
      ptr.file = file ∧ ptr.offset + offset = p ∧ p + size ≤ ptr.length := Iff.rfl

theorem types_placeMetas (p : Nat) (ms : List Native.SpaMeta) :
    (PortBuffers.placeMetas p ms).map (fun m => (⟨m.type, m.size⟩ : Native.SpaMeta)) = ms := by
  induction ms generalizing p with
  | nil => rfl
  | cons m ms ih => exact congrArg (m :: ·) (ih _)

theorem metaSize_cons (m : Native.SpaMeta) (ms : List Native.SpaMeta) :
    Stream.metaSize (m :: ms) = m.size.toNat + Stream.metaSize ms := rfl

theorem seesMetas_iff {ms : List Native.SpaMeta} (hsome : ms ≠ []) {offset p : Nat} :
    List.Forall₂ (SeesMeta file) (Stream.placeMetas ptr offset ms) (PortBuffers.placeMetas p ms) ↔
      Resolves (ptr.add offset) file p (Stream.metaSize ms) := by
  induction ms generalizing offset p with
  | nil => exact absurd rfl hsome
  | cons m ms ih =>
    have hhead : SeesMeta file ⟨m.type, ptr.add offset, m.size⟩ ⟨m.type, p, m.size⟩ ↔
        Resolves (ptr.add offset) file p m.size.toNat :=
      ⟨SeesMeta.data, fun h => ⟨rfl, rfl, h⟩⟩
    rw [Stream.placeMetas, PortBuffers.placeMetas, List.forall₂_cons, hhead, resolves_add,
      resolves_add, metaSize_cons]
    cases hms : ms with
    | nil =>
      rw [show Stream.metaSize [] = 0 from rfl, Nat.add_zero]
      exact and_iff_left List.Forall₂.nil
    | cons m' ms' =>
      rw [← hms, ih (by rw [hms]; exact List.cons_ne_nil m' ms'), resolves_add]
      constructor
      · rintro ⟨⟨hfile, hoffset, -⟩, -, -, hend⟩
        exact ⟨hfile, hoffset, by omega⟩
      · rintro ⟨hfile, hoffset, hend⟩
        exact ⟨⟨hfile, hoffset, by omega⟩, hfile, by omega, by omega⟩

/-- Chunks from `p` on, each behind the one before. -/
def ChunksFrom : Nat → List PortBuffers.SpaData → Prop
  | _, [] => True
  | p, d :: ds => d.chunk = p ∧ ChunksFrom (p + PortBuffers.sizeofChunk) ds

theorem chunksFrom_placeDatas {memFd : Int} (cdp ddp : Nat) (sizes : List Nat) :
    ChunksFrom cdp (PortBuffers.placeDatas types memFd cdp ddp sizes) := by
  induction sizes generalizing cdp ddp with
  | nil => trivial
  | cons size sizes ih => exact ⟨rfl, ih _ _⟩

theorem chunk_filled (d : PortBuffers.SpaData) (n : Option PortBuffers.NodeData) :
    (d.filled n).chunk = d.chunk := by
  cases n with
  | none => rfl
  | some n => rfl

theorem ChunksFrom.filled {p : Nat} {ds : List PortBuffers.SpaData} (h : ChunksFrom p ds)
    (node : Nat → Option PortBuffers.NodeData) :
    ChunksFrom p (ds.mapIdx fun j d => d.filled (node j)) := by
  induction ds generalizing p node with
  | nil => trivial
  | cons d ds ih =>
    rw [List.mapIdx_cons]
    exact ⟨(chunk_filled d _).trans h.1, ih h.2 fun j => node (j + 1)⟩

theorem seesDatas_iff {ds : List PortBuffers.SpaData} {chunk p : Nat} (h : ChunksFrom p ds) :
    List.Forall₂ (SeesData file files) (seenDatas types fds numbers ptr chunk ds) ds ↔
      (∀ d ∈ ds, files (number fds numbers d.fd) = some d.fd) ∧
        (ds = [] ∨ Resolves (ptr.add chunk) file p (PortBuffers.sizeofChunk * ds.length)) := by
  induction ds generalizing chunk p with
  | nil => exact iff_of_true .nil ⟨nofun, .inl rfl⟩
  | cons d ds ih =>
    have hhead : SeesData file files ⟨types.dataMemFd, d.flags, .value 0,
          some (number fds numbers d.fd), d.mapoffset, d.maxsize, ptr.add chunk⟩ d ↔
        files (number fds numbers d.fd) = some d.fd ∧
          Resolves (ptr.add chunk) file p PortBuffers.sizeofChunk := by
      rw [← h.1]
      exact ⟨fun hsees => ⟨hsees.fd, hsees.chunk⟩, fun ⟨hfd, hchunk⟩ => ⟨hfd, rfl, rfl, hchunk⟩⟩
    have hsize : Stream.sizeofChunk = PortBuffers.sizeofChunk := rfl
    rw [seenDatas, List.forall₂_cons, hhead, ih h.2, List.forall_mem_cons, resolves_add,
      resolves_add, resolves_add, List.length_cons, hsize, or_iff_right (List.cons_ne_nil d ds)]
    rw [Nat.mul_succ]
    constructor
    · rintro ⟨⟨hfd, hfile, hoffset, hend⟩, hfds, hrest⟩
      refine ⟨⟨hfd, hfds⟩, hfile, hoffset, ?_⟩
      rcases hrest with rfl | ⟨-, -, hlast⟩
      · rwa [List.length_nil, Nat.mul_zero, Nat.zero_add]
      · omega
    · rintro ⟨⟨hfd, hfds⟩, hfile, hoffset, hend⟩
      refine ⟨⟨hfd, hfile, hoffset, by omega⟩, hfds, ?_⟩
      exact .inr ⟨hfile, by omega, by omega⟩

theorem mapped_fresh {mem : BufferTable.MemId} (hptr : mem.ptr = none)
    (hlength : mem.size + mem.offset ≠ 0) :
    Stream.mapped files mem = (files mem.fd).map fun f =>
      ({ mem with ptr := some ⟨f, (mem.size + mem.offset).toNat, mem.offset.toNat⟩ },
        ⟨f, (mem.size + mem.offset).toNat, mem.offset.toNat⟩) := by
  unfold Stream.mapped
  rw [hptr]
  exact if_neg hlength

theorem mapped_empty {mem : BufferTable.MemId} (hptr : mem.ptr = none)
    (hlength : mem.size + mem.offset = 0) : Stream.mapped files mem = none := by
  unfold Stream.mapped
  rw [hptr]
  exact if_pos hlength

/-- The table entry of a buffer whose memory is mapped at `ptr`. -/
def entryAt (types : BufferTypes) (fds numbers : List Int) (ptr : MapPtr) (b : SpaBuffer) :
    BufferTable.BufferId :=
  let metas := b.metas.items.map fun m => ⟨m.type, m.size⟩
  ⟨b.id, ptr, Stream.placeMetas ptr 0 metas,
    seenDatas types fds numbers ptr (Stream.metaSize metas) b.datas.items⟩

theorem entry_eq_some {k : Nat} {b : SpaBuffer} {e : BufferTable.BufferId} :
    entry types fds numbers files (k, b) = some e ↔
      b.shared.size + b.shared.offset.toUInt32 ≠ 0 ∧
      ∃ f, files (number fds numbers b.shared.fd) = some f ∧
        e = entryAt types fds numbers ⟨f, (b.shared.size + b.shared.offset.toUInt32).toNat,
          b.shared.offset.toUInt32.toNat⟩ b := by
  have hzero : ∀ p : MapPtr, p.add 0 = p := fun p => by
    show MapPtr.mk _ _ (p.offset + 0) = p
    rw [Int.add_zero]
  show Option.map _ (Stream.mapped files _) = some e ↔ _
  by_cases hlength : b.shared.size + b.shared.offset.toUInt32 = 0
  · rw [mapped_empty rfl hlength]
    exact iff_of_false nofun fun h => h.1 hlength
  · rw [mapped_fresh rfl hlength, Option.map_map, Option.map_eq_some_iff, and_iff_right hlength]
    simp only [Function.comp, hzero, eq_comm (b := e)]
    rfl

/-- A buffer is in the table as it is on the server. -/
theorem seesBuffer_iff {r : Request} {i k : Nat} :
    (∃ e, entry types fds numbers files (k, r.buffer types i) = some e ∧
        SeesBuffer r.memFd files e (r.buffer types i)) ↔
      (r.layout.dataSize types * i + r.layout.headerSize types ≤
        (r.layout.dataSize types * i + r.layout.dataSize types) % 2 ^ 32) ∧
      ∀ m ∈ (r.buffer types i).mems types, files (number fds numbers m.fd) = some m.fd := by
  obtain ⟨p, hp⟩ : ∃ p, p = r.layout.dataSize types * i := ⟨_, rfl⟩
  obtain ⟨b, hb⟩ : ∃ b, b = r.buffer types i := ⟨_, rfl⟩
  have hoffset : b.shared.offset.toUInt32.toNat = p % 2 ^ 32 := by
    rw [hb, hp]
    exact UInt32.toNat_ofNat'
  have hlength : (b.shared.size + b.shared.offset.toUInt32).toNat =
      (p + r.layout.dataSize types) % 2 ^ 32 := by
    have hsize : b.shared.size.toNat = r.layout.dataSize types % 2 ^ 32 := by
      rw [hb]
      exact UInt32.toNat_ofNat'
    rw [UInt32.toNat_add, hsize, hoffset]
    omega
  have hmetas : b.metas.items = PortBuffers.placeMetas p (r.layout.metas types) := by
    rw [hb, hp]
    rfl
  have hchunks : ChunksFrom (p + r.layout.metaSize types) b.datas.items := by
    rw [hb, hp]
    exact (chunksFrom_placeDatas _ _ _).filled _
  have hcount : b.datas.items.length = r.layout.dataSizes.length := by
    rw [hb]
    exact List.length_mapIdx.trans (PortBuffers.length_placeDatas _ _ _)
  have hfd : b.shared.fd = r.memFd := by
    rw [hb]
    rfl
  have htypes : b.metas.items.map (fun m => (⟨m.type, m.size⟩ : Native.SpaMeta)) =
      r.layout.metas types := by
    rw [hmetas, types_placeMetas]
  have hsees : ∀ ptr : MapPtr, SeesBuffer r.memFd files (entryAt types fds numbers ptr b) b ↔
      Resolves (ptr.add 0) r.memFd p (r.layout.metaSize types) ∧
        (∀ d ∈ b.datas.items, files (number fds numbers d.fd) = some d.fd) ∧
        (b.datas.items = [] ∨ Resolves (ptr.add (r.layout.metaSize types)) r.memFd
          (p + r.layout.metaSize types) (PortBuffers.sizeofChunk * b.datas.items.length)) := by
    intro ptr
    have hmetas' := @seesMetas_iff ptr r.memFd (r.layout.metas types) (List.cons_ne_nil _ _) 0 p
    have hdatas' := @seesDatas_iff types fds numbers ptr r.memFd files b.datas.items
      (r.layout.metaSize types) _ hchunks
    rw [← hdatas', show r.layout.metaSize types = Stream.metaSize (r.layout.metas types) from rfl,
      ← Nat.cast_zero, ← hmetas', ← hmetas]
    unfold entryAt
    rw [htypes]
    exact ⟨fun h => ⟨h.metas, h.datas⟩, fun h => ⟨rfl, h.1, h.2⟩⟩
  rw [← hp, ← hb, SpaBuffer.mems, List.forall_mem_cons, List.forall_mem_map]
  show _ ↔ _ ∧ files (number fds numbers b.shared.fd) = some b.shared.fd ∧
    ∀ d ∈ b.datas.items, files (number fds numbers d.fd) = some d.fd
  have hheader : r.layout.headerSize types = r.layout.metaSize types +
      PortBuffers.sizeofChunk * b.datas.items.length := by
    rw [hcount]
    rfl
  constructor
  · rintro ⟨e, hentry, hright⟩
    obtain ⟨-, f, hf, rfl⟩ := entry_eq_some.mp hentry
    obtain ⟨⟨rfl, hplace, hend⟩, hfds, hrest⟩ := (hsees _).mp hright
    rw [← hlength, hheader]
    refine ⟨?_, hfd ▸ hf, hfds⟩
    rcases hrest with hnone | ⟨-, -, hlast⟩
    · rw [hnone]
      exact hend
    · rw [← Nat.add_assoc]
      exact hlast
  · rintro ⟨hinside, hopen, hfds⟩
    rw [hheader, ← hlength] at hinside
    have hsmall := (b.shared.size + b.shared.offset.toUInt32).toNat_lt
    have hmetaPos : 16 ≤ r.layout.metaSize types := Nat.le_add_right _ _
    refine ⟨_, entry_eq_some.mpr ⟨fun hzero => ?_, _, hopen, rfl⟩, (hsees _).mpr ⟨⟨hfd, ?_, ?_⟩, hfds,
      .inr ⟨hfd, ?_, ?_⟩⟩⟩
    · rw [hzero] at hinside
      exact absurd (Nat.le_trans (Nat.le_add_left _ _) hinside) (by
        show ¬ _ ≤ 0
        omega)
    · show (b.shared.offset.toUInt32.toNat : Int) + 0 = p
      rw [hoffset]
      omega
    · show p + _ ≤ (b.shared.size + b.shared.offset.toUInt32).toNat
      omega
    · show (b.shared.offset.toUInt32.toNat : Int) + (r.layout.metaSize types : Int) =
        ((p + r.layout.metaSize types : Nat) : Int)
      rw [hoffset]
      omega
    · show p + _ + _ ≤ (b.shared.size + b.shared.offset.toUInt32).toNat
      omega

end Placed

/-! ## A request -/

theorem forall₂_filterMap {α β γ : Type} {f : α → Option β} {g : α → γ} {R : β → γ → Prop}
    {xs : List α} :
    List.Forall₂ R (xs.filterMap f) (xs.map g) ↔ ∀ x ∈ xs, ∃ e, f x = some e ∧ R e (g x) := by
  induction xs with
  | nil => exact iff_of_true .nil nofun
  | cons x xs ih =>
    rw [List.filterMap_cons, List.map_cons, List.forall_mem_cons, ← ih]
    cases hx : f x with
    | none =>
      refine iff_of_false (fun h => ?_) fun h => ?_
      · have hlength : (xs.filterMap f).length = (g x :: xs.map g).length := h.length_eq
        have hle := List.length_filterMap_le f xs
        rw [List.length_cons, List.length_map] at hlength
        omega
      · obtain ⟨⟨e, he, -⟩, -⟩ := h
        cases he
    | some e =>
      dsimp only
      rw [List.forall₂_cons]
      refine and_congr_left fun _ => ?_
      constructor
      · exact fun h => ⟨e, rfl, h⟩
      · rintro ⟨e', ⟨⟩, h⟩
        exact h

/-- The memories of a stream are numbered, and so few that their ids are. -/
structure Inv (s : Stream) : Prop where
  numbered : Stream.Numbered 0 s.memIds
  few : s.memIds.length ≤ 2 ^ 31

section Request

variable {types : BufferTypes} {direction portId seq : UInt32} {fds numbers more : List Int}
  {r : Request} {s : Stream} {out : ConnectionBuffer}

/-- All datas are in shared memory. -/
def RequestShared (types : BufferTypes) (r : Request) : Prop :=
  ∀ b ∈ (r.buffers types).items, ∀ d ∈ b.datas.items, PortBuffers.Shares types d

instance (types : BufferTypes) (r : Request) : Decidable (RequestShared types r) :=
  inferInstanceAs (Decidable (∀ b ∈ _, ∀ d ∈ _, _))

theorem buffers_shared (h : RequestShared types r) :
    ∀ b ∈ (r.buffers types).items, b.Shared types := by
  intro b hmem
  refine ⟨?_, h b hmem⟩
  obtain ⟨i, -, rfl⟩ := List.mem_map.mp hmem
  exact ⟨_, List.mem_cons_self, rfl⟩

theorem length_buffers : (r.buffers types).items.length = r.nBuffers.toNat := by
  show (List.map _ (List.range _)).length = _
  rw [List.length_map, List.length_range]

theorem length_mems : (mems types r).length ≤ 5 * r.nBuffers.toNat := by
  have hbuffer : ∀ b ∈ (r.buffers types).items, (b.mems types).length ≤ 5 := by
    intro b hmem
    obtain ⟨i, -, rfl⟩ := List.mem_map.mp hmem
    have hfew := r.layout.few_datas
    rw [SpaBuffer.mems, List.length_cons, List.length_map]
    show (List.mapIdx _ (PortBuffers.placeDatas ..)).length + 1 ≤ 5
    rw [List.length_mapIdx, PortBuffers.length_placeDatas]
    omega
  rw [← @length_buffers types, mems, List.length_flatMap]
  generalize (r.buffers types).items = bs at hbuffer
  induction bs with
  | nil => exact Nat.le_refl 0
  | cons b bs ih =>
    have hhead := hbuffer b List.mem_cons_self
    have hrest := ih fun b' hmem => hbuffer b' (List.mem_cons_of_mem b hmem)
    rw [List.map_cons, List.sum_cons, List.length_cons]
    omega

/-- A message whose demarshal function reads it is handled. -/
theorem receive_of_read {conn : ConnectionBuffer} {message : Sent} {d : Demarshal PinosMessage}
    {read : PinosMessage × List PodCall}
    (hevent : (Native.Client.events conn .clientNode)[message.opcode.toNat]? = some d)
    (hread : d.get.read message.values.tail = some read) :
    receive types conn s message = s.handle (clientTypes types) read.1 := by
  rw [receive, hevent, Option.bind_some, hread]

theorem receive_useBuffers {conn : ConnectionBuffer}
    {sent : Counted Native.PinosClientNodeBuffer} {bs : List (Nat × SpaBuffer)}
    (hsent : sent.items = bs.map (PortBuffers.sentShared types)) :
    receive types conn s ⟨7, Native.Server.clientNodeMarshalUseBuffers seq direction portId sent⟩ =
      s.useBuffers (clientTypes types) sent := by
  have hdatas : ∀ k (ds : List PortBuffers.SpaData), ∀ d ∈ PortBuffers.sentDatas types k ds,
      Native.Short d.data := by
    intro k ds
    induction ds generalizing k with
    | nil => exact nofun
    | cons d ds ih =>
      rintro d' (_ | ⟨_, hmem⟩)
      · show (UInt32.ofNat k).toUInt64.toNat < 2 ^ 32
        rw [UInt32.toNat_toUInt64]
        exact UInt32.toNat_lt _
      · exact ih _ d' hmem
  have hreads := (PinosMessage.reads_clientNodeNotifyUseBuffers seq direction portId sent).mpr
    (by
      intro b hb d hd
      rw [hsent] at hb
      obtain ⟨kb, -, rfl⟩ := List.mem_map.mp hb
      exact hdatas _ _ d hd)
  obtain ⟨read, hread, hmsg⟩ := Option.map_eq_some_iff.mp hreads
  rw [receive_of_read rfl hread, hmsg]
  rfl

/-- The files that are open when the memories of a request are added. -/
def filesAfter (types : BufferTypes) (s : Stream) (r : Request) : Int → Option Int :=
  Stream.closeAll s.files ((s.memIds.take (mems types r).length).map (·.fd))

/-- What handling the messages of a request leaves. -/
theorem receive_request (hinv : Inv s) (hshared : RequestShared types r)
    (hfew : r.nBuffers.toNat ≤ PortBuffers.maxBuffers) {sizes sizes' : List UInt64}
    {messages : List PinosMessage}
    (hmessages : PortBuffers.useBuffers types seq direction portId sizes (r.buffers types) =
      some (messages, sizes'))
    (hfds : fds = (send out messages).1.fds ++ more) (hmax : fds.length ≤ maxFds)
    (hlen : numbers.length ≤ maxFds) :
    ∃ s', (send out messages).2.foldlM (receive types (inBuffer numbers)) s = some s' ∧ Inv s' ∧
      s'.bufferIds = (PortBuffers.numbered 0 (r.buffers types).items).filterMap
        (entry types fds numbers (filesAfter types s r)) ∧
      ((r.buffers types).items ≠ [] → s'.files = filesAfter types s r) := by
  obtain ⟨sent, sizes'', hsent, hresult⟩ := @PortBuffers.useBuffers_shared _ direction portId seq
    sizes _ (buffers_shared hshared)
    (by rw [length_buffers]; exact hfew)
  obtain ⟨rfl, -⟩ := Prod.mk.inj (Option.some.inj (hmessages.symm.trans hresult))
  have hcount := @length_mems types r
  have hbound : maxFds = 28 ∧ PortBuffers.maxBuffers = 64 := ⟨rfl, rfl⟩
  rw [send_append] at hfds
  obtain ⟨after, hafter⟩ : ∃ after : Stream, after = { s with
    memIds := [] ++ newMems fds numbers 0 (mems types r) ++ s.memIds.drop (mems types r).length
    files := filesAfter types s r } := ⟨_, rfl⟩
  have hadds : (send out (addMems direction portId 0
      ((r.buffers types).items.flatMap (SpaBuffer.mems types)))).2.foldlM
        (receive types (inBuffer numbers)) s = some after := by
    rw [hafter]
    exact @receive_addMems types direction portId out fds numbers more s [] s.memIds
      (mems types r) rfl hinv.numbered hinv.few (by rw [List.length_nil]; omega) hfds hmax hlen
  have hsmall : after.memIds.length ≤ 2 ^ 31 := by
    have hfew := hinv.few
    rw [hafter]
    show ([] ++ _ ++ List.drop _ _).length ≤ _
    rw [List.length_append, List.nil_append, length_newMems, List.length_drop]
    omega
  have hnumbered : Stream.Numbered 0 after.memIds := by
    rw [hafter]
    refine (numbered_newMems 0 _).append ?_
    rw [length_newMems, Nat.zero_add]
    have hsplit := hinv.numbered
    rw [← List.take_append_drop (mems types r).length s.memIds] at hsplit
    have hdrop := hsplit.split.2
    rw [Nat.zero_add, List.length_take] at hdrop
    rcases Nat.le_total (mems types r).length s.memIds.length with hle | hle
    · rwa [Nat.min_eq_left hle] at hdrop
    · rw [List.drop_of_length_le hle]
      trivial
  obtain ⟨memIds, hsame, hnext, hloop⟩ := @useBuffers_sent _ _ _ { after with bufferIds := [] }
    [] _ 0 (r.buffers types).items (by rw [hafter]; rfl) rfl hnumbered hsmall
  obtain ⟨used, hused⟩ : ∃ used : Stream, used = { after with
    memIds
    bufferIds := (PortBuffers.numbered 0 (r.buffers types).items).filterMap
      (entry types fds numbers (filesAfter types s r)) } := ⟨_, rfl⟩
  have huse : after.useBuffers (clientTypes types) sent =
      some (if sent.items = [] then used.clearMems else used) := by
    unfold Stream.useBuffers
    rw [hsent, hloop, hused, hafter]
    rfl
  have hempty : sent.items = [] ↔ (r.buffers types).items = [] := by
    rw [hsent]
    cases (r.buffers types).items with
    | nil => exact iff_of_true rfl rfl
    | cons b bs => exact iff_of_false (List.cons_ne_nil _ _) (List.cons_ne_nil _ _)
  have hreceived : (send out (addMems direction portId 0 ((r.buffers types).items.flatMap
      (SpaBuffer.mems types)) ++ [.clientNodeNotifyUseBuffers seq direction portId sent])).2.foldlM
        (receive types (inBuffer numbers)) s =
      some (if sent.items = [] then used.clearMems else used) := by
    rw [send_append, List.foldlM_append, hadds]
    show (receive types (inBuffer numbers) after
      ⟨7, Native.Server.clientNodeMarshalUseBuffers seq direction portId sent⟩).bind some = _
    rw [receive_useBuffers hsent, huse, Option.bind_some]
  by_cases hnone : sent.items = []
  · rw [if_pos hnone] at hreceived
    refine ⟨_, hreceived, ⟨trivial, Nat.zero_le _⟩, ?_, fun h => absurd (hempty.mp hnone) h⟩
    rw [Stream.clearMems_eq, hused]
  · rw [if_neg hnone] at hreceived
    refine ⟨used, hreceived, ⟨?_, ?_⟩, ?_, fun _ => ?_⟩
    · rw [hused]
      exact hnext
    · rw [hused]
      exact hsame.trans_le hsmall
    · rw [hused]
    · rw [hused, hafter]

theorem filesAfter_iff {fd file : Int} :
    filesAfter types s r fd = some file ↔ StaysOpen s (mems types r).length fd file := by
  have hmem : fd ∈ (s.memIds.take (mems types r).length).map (·.fd) ↔
      ¬ ∀ mid ∈ s.memIds.take (mems types r).length, mid.fd ≠ fd := by
    rw [List.mem_map]
    push Not
    rfl
  rw [filesAfter, Stream.closeAll_apply, StaysOpen]
  by_cases hclosed : ∀ mid ∈ s.memIds.take (mems types r).length, mid.fd ≠ fd
  · rw [if_neg fun h => hmem.mp h hclosed, and_iff_left hclosed]
  · rw [if_pos (hmem.mpr hclosed)]
    exact iff_of_false nofun fun h => hclosed h.2

theorem snd_numbered (k : Nat) (bs : List SpaBuffer) :
    (PortBuffers.numbered k bs).map Prod.snd = bs := by
  induction bs generalizing k with
  | nil => rfl
  | cons b bs ih => exact congrArg (b :: ·) (ih _)

/-- The table has the buffers of a request. -/
theorem seesBuffers_iff {files : Int → Option Int} :
    List.Forall₂ (SeesBuffer r.memFd files)
        ((PortBuffers.numbered 0 (r.buffers types).items).filterMap (entry types fds numbers files))
        (r.buffers types).items ↔
      Inside types r ∧ ∀ m ∈ mems types r, files (number fds numbers m.fd) = some m.fd := by
  have hsnd := snd_numbered 0 (r.buffers types).items
  have hbuffer : ∀ b, b ∈ (r.buffers types).items ↔ ∃ i < r.nBuffers.toNat, r.buffer types i = b :=
    fun b => List.mem_map.trans (by simp only [List.mem_range])
  have hforall := @forall₂_filterMap _ _ _ (entry types fds numbers files) Prod.snd
    (SeesBuffer r.memFd files) (PortBuffers.numbered 0 (r.buffers types).items)
  rw [hsnd] at hforall
  rw [hforall]
  constructor
  · intro hall
    have heach : ∀ i < r.nBuffers.toNat,
        (r.layout.dataSize types * i + r.layout.headerSize types ≤
          (r.layout.dataSize types * i + r.layout.dataSize types) % 2 ^ 32) ∧
        ∀ m ∈ (r.buffer types i).mems types, files (number fds numbers m.fd) = some m.fd := by
      intro i hi
      have hmem : r.buffer types i ∈ (r.buffers types).items := (hbuffer _).mpr ⟨i, hi, rfl⟩
      rw [← hsnd] at hmem
      obtain ⟨⟨k, b⟩, hx, hb⟩ := List.mem_map.mp hmem
      have hb : b = r.buffer types i := hb
      rw [hb] at hx
      exact seesBuffer_iff.mp (hall _ hx)
    refine ⟨fun i hi => (heach i hi).1, fun m hm => ?_⟩
    obtain ⟨b, hb, hmb⟩ := List.mem_flatMap.mp hm
    obtain ⟨i, hi, rfl⟩ := (hbuffer b).mp hb
    exact (heach i hi).2 m hmb
  · rintro ⟨hinside, hopen⟩ ⟨k, b⟩ hx
    have hb : b ∈ (r.buffers types).items := by
      rw [← hsnd]
      exact List.mem_map_of_mem hx
    obtain ⟨i, hi, rfl⟩ := (hbuffer b).mp hb
    exact seesBuffer_iff.mpr ⟨hinside i hi, fun m hm => hopen m (List.mem_flatMap.mpr ⟨_, hb, hm⟩)⟩

/-- What `sendRequests` makes of a request; `fds` is the table of the flush. -/
def SentAs (types : BufferTypes) (direction portId : UInt32) (fds : List Int) (flight : Flight) :
    Prop :=
  ∃ seq sizes,
    (PortBuffers.useBuffers types seq direction portId sizes (flight.request.buffers types) = none ∧
      flight.sent = none) ∨
    ∃ messages sizes' out more,
      PortBuffers.useBuffers types seq direction portId sizes (flight.request.buffers types) =
        some (messages, sizes') ∧
      flight.sent = some (send out messages).2 ∧ fds = (send out messages).1.fds ++ more

theorem useBuffers_eq_none {sizes : List UInt64} (hshared : RequestShared types r) :
    PortBuffers.useBuffers types seq direction portId sizes (r.buffers types) = none ↔
      ¬ r.nBuffers.toNat ≤ PortBuffers.maxBuffers := by
  by_cases hfew : r.nBuffers.toNat ≤ PortBuffers.maxBuffers
  · obtain ⟨sent, sizes', -, hsome⟩ := @PortBuffers.useBuffers_shared _ direction portId seq
      sizes _ (buffers_shared hshared)
      (by rw [length_buffers]; exact hfew)
    rw [hsome]
    exact iff_of_false nofun (not_not.mpr hfew)
  · unfold PortBuffers.useBuffers
    rw [if_pos (by rw [length_buffers]; exact Nat.lt_of_not_le hfew)]
    exact iff_of_true rfl hfew

/-- A request is seen exactly when it fits, and leaves the stream as it has to be. -/
theorem flight_iff {flight : Flight} (hinv : Inv s) (hshared : RequestShared types flight.request)
    (hsent : SentAs types direction portId fds flight) (hmax : fds.length ≤ maxFds)
    (hlen : numbers.length ≤ maxFds) :
    (Right types (inBuffer numbers) s flight ↔ Fits types fds numbers s flight) ∧
      (Fits types fds numbers s flight → Inv (handled types (inBuffer numbers) s flight)) := by
  obtain ⟨seq, sizes, ⟨hnone, hlost⟩ | ⟨messages, sizes', out, more, hsome, hflight, hfds⟩⟩ := hsent
  · have hmany := (useBuffers_eq_none hshared).mp hnone
    refine ⟨iff_of_false ?_ fun h => hmany h.few, fun h => absurd h.few hmany⟩
    rintro ⟨sent, s', hsent, -⟩
    rw [hlost] at hsent
    cases hsent
  · have hfew : flight.request.nBuffers.toNat ≤ PortBuffers.maxBuffers := by
      by_contra hmany
      have hnone := (@useBuffers_eq_none _ direction portId seq _ sizes hshared).mpr hmany
      rw [hsome] at hnone
      cases hnone
    obtain ⟨s', hreceived, hinv', hids, hfiles⟩ :=
      receive_request hinv hshared hfew hsome hfds hmax hlen
    have hright : Right types (inBuffer numbers) s flight ↔ Sees types s' flight.request := by
      rw [Right, hflight]
      constructor
      · rintro ⟨sent, s'', ⟨⟩, hreceived', hsees⟩
        rw [hreceived] at hreceived'
        cases hreceived'
        exact hsees
      · exact fun hsees => ⟨_, s', rfl, hreceived, hsees⟩
    refine ⟨hright.trans ?_, fun _ => ?_⟩
    · unfold Sees
      rw [hids]
      by_cases hempty : (flight.request.buffers types).items = []
      · have hzero : flight.request.nBuffers.toNat = 0 := by
          rw [← @length_buffers types, hempty]
          rfl
        refine iff_of_true (by rw [hempty]; exact .nil) ⟨hfew, fun i hi => ?_, fun m hm => ?_⟩
        · rw [hzero] at hi
          exact absurd hi (Nat.not_lt_zero i)
        · rw [mems, hempty] at hm
          exact absurd hm List.not_mem_nil
      · rw [hfiles hempty, seesBuffers_iff]
        constructor
        · exact fun h => ⟨hfew, h.1, fun m hm => filesAfter_iff.mp (h.2 m hm)⟩
        · exact fun h => ⟨h.inside, fun m hm => filesAfter_iff.mpr (h.open_ m hm)⟩
    · unfold handled
      rw [hflight, Option.bind_some, hreceived]
      exact hinv'

theorem extends_sendRequests (port : ProxyPort) (out : ConnectionBuffer) (rs : List Request) :
    Extends out (sendRequests types direction portId port out rs).2.1 := by
  induction rs generalizing port out with
  | nil => exact .refl out
  | cons r rs ih =>
    unfold sendRequests
    split
    · exact ih port out
    · next messages sizes _ => exact (extends_send out messages).trans (ih _ _)

theorem sendRequests_sentAs (port : ProxyPort) (out : ConnectionBuffer) (rs : List Request) :
    ∀ flight ∈ (sendRequests types direction portId port out rs).2.2, flight.request ∈ rs ∧
      SentAs types direction portId (sendRequests types direction portId port out rs).2.1.fds
        flight := by
  induction rs generalizing port out with
  | nil => exact nofun
  | cons r rs ih =>
    unfold sendRequests
    split
    · next hnone =>
      rintro flight (_ | ⟨_, hmem⟩)
      · exact ⟨List.mem_cons_self, port.seq, port.sizes, .inl ⟨hnone, rfl⟩⟩
      · obtain ⟨hr, hsent⟩ := ih port out flight hmem
        exact ⟨List.mem_cons_of_mem r hr, hsent⟩
    · next messages sizes hsome =>
      rintro flight (_ | ⟨_, hmem⟩)
      · obtain ⟨more, hmore⟩ := (@extends_sendRequests types direction portId
          ⟨port.seq + 1, sizes⟩ (send out messages).1 rs).grows
        exact ⟨List.mem_cons_self, port.seq, port.sizes,
          .inr ⟨messages, sizes, out, more, hsome, rfl, hmore⟩⟩
      · obtain ⟨hr, hsent⟩ := ih ⟨port.seq + 1, sizes⟩ (send out messages).1 flight hmem
        exact ⟨List.mem_cons_of_mem r hr, hsent⟩

end Request

/-! ## Runs -/

/-- A port of the server and the stream of the client. -/
structure PortUse where
  port : ProxyPort
  stream : Stream

/-- The requests that one flush of a connection is for, and the descriptors that the client gets
for those of the flush. -/
structure Flush where
  out : ConnectionBuffer
  requests : List Request
  numbers : List Int

namespace PortUse

section Run

variable (types : BufferTypes) (direction portId : UInt32)

/-- What is sent in a flush: the connection behind it, and the requests. -/
def sent (u : PortUse) (f : Flush) : ProxyPort × ConnectionBuffer × List Flight :=
  sendRequests types direction portId u.port f.out f.requests

/-- The stream when the descriptors of a flush have come. -/
def arrived (u : PortUse) (f : Flush) : Stream :=
  opened u.stream (u.sent types direction portId f).2.1.flushed.2 f.numbers

def step (u : PortUse) (f : Flush) : PortUse where
  port := (u.sent types direction portId f).1
  stream := Run.run (handled types (inBuffer f.numbers)) (u.arrived types direction portId f)
    (u.sent types direction portId f).2.2

/-- The datas are in shared memory, the table of the connection has not more places than there
are, and a number that is not in use comes for each descriptor. -/
structure Admits (u : PortUse) (f : Flush) : Prop where
  shared : ∀ r ∈ f.requests, RequestShared types r
  table : f.out.fds.length ≤ maxFds
  received : f.numbers.length = (u.sent types direction portId f).2.1.fds.length
  distinct : f.numbers.Nodup
  unused : ∀ n ∈ f.numbers, 0 ≤ n ∧ u.stream.files n = none

/-- After each request of the flush the stream sees its buffers. -/
def AllSeen (u : PortUse) (f : Flush) : Prop :=
  Run.Along (handled types (inBuffer f.numbers)) (Right types (inBuffer f.numbers))
    (u.arrived types direction portId f) (u.sent types direction portId f).2.2

def AllFit (u : PortUse) (f : Flush) : Prop :=
  Run.Along (handled types (inBuffer f.numbers))
    (Fits types (u.sent types direction portId f).2.1.fds f.numbers)
    (u.arrived types direction portId f) (u.sent types direction portId f).2.2

end Run

section Seen

variable {types : BufferTypes} {direction portId : UInt32} {u : PortUse} {f : Flush}

theorem inv_arrived (hinv : Inv u.stream) : Inv (u.arrived types direction portId f) :=
  ⟨hinv.numbered, hinv.few⟩

/-- The requests of a flush are all seen exactly when they all fit. -/
theorem allSeen_iff (hinv : Inv u.stream) (hadmits : u.Admits types direction portId f) :
    (u.AllSeen types direction portId f ↔ u.AllFit types direction portId f) ∧
      (u.AllFit types direction portId f → Inv (u.step types direction portId f).stream) := by
  have hmax := (@extends_sendRequests types direction portId u.port f.out f.requests).room hadmits.table
  have hlen : f.numbers.length ≤ maxFds := by
    rw [hadmits.received]
    exact hmax
  have hflights : Run.Along (handled types (inBuffer f.numbers))
      (fun _ flight => RequestShared types flight.request ∧
        SentAs types direction portId (u.sent types direction portId f).2.1.fds flight)
      (u.arrived types direction portId f) (u.sent types direction portId f).2.2 := by
    refine Run.along_of_forall fun flight hmem => ?_
    obtain ⟨hr, hsent⟩ := sendRequests_sentAs u.port f.out f.requests flight hmem
    exact ⟨hadmits.shared _ hr, hsent⟩
  have hstep : ∀ s flight, Inv s → RequestShared types flight.request ∧
      SentAs types direction portId (u.sent types direction portId f).2.1.fds flight →
      Fits types (u.sent types direction portId f).2.1.fds f.numbers s flight →
      Inv (handled types (inBuffer f.numbers) s flight) := fun s flight hinv hsent hfits =>
    (flight_iff hinv hsent.1 hsent.2 hmax hlen).2 hfits
  refine ⟨Run.along_iff Inv ?_ hstep (inv_arrived hinv) hflights, fun hfit => ?_⟩
  · exact fun s flight hinv hsent => (flight_iff hinv hsent.1 hsent.2 hmax hlen).1
  · exact Run.run_invariant Inv (fun s flight hinv hok => hstep s flight hinv hok.1 hok.2)
      (inv_arrived hinv) (Run.along_and.mpr ⟨hflights, hfit⟩)

theorem inv_new : Inv .new := ⟨trivial, Nat.zero_le _⟩

/-- The client sees the buffers of every request of a run exactly when every request fits. -/
theorem run_allSeen_iff {port : ProxyPort} {fs : List Flush}
    (hadmits : Run.Along (step types direction portId) (Admits types direction portId)
      ⟨port, .new⟩ fs) :
    Run.Along (step types direction portId) (AllSeen types direction portId) ⟨port, .new⟩ fs ↔
      Run.Along (step types direction portId) (AllFit types direction portId) ⟨port, .new⟩ fs :=
  Run.along_iff (fun u => Inv u.stream) (fun _ _ hinv hadmits => (allSeen_iff hinv hadmits).1)
    (fun _ _ hinv hadmits hfit => (allSeen_iff hinv hadmits).2 hfit) inv_new hadmits

end Seen

def exampleTypes : BufferTypes := ⟨1, 2, 3, 4, 5⟩

/-- Buffers with `sizes` in the block with the descriptor `fd`. -/
def exampleRequest (n : UInt32) (fd : Int) (sizes : List Nat) (h : sizes.length ≤ 4) : Request where
  layout := ⟨[], sizes, Nat.zero_le _, h⟩
  nBuffers := n
  memFd := fd
  nodeData := fun _ _ => none

def exampleFlush (r : Request) (numbers : List Int) : Flush where
  out := ConnectionBuffer.new (fun _ => 0) true
  requests := [r]
  numbers

def examplePort : ProxyPort := ⟨0, []⟩

/-- Two buffers with a data arrive. -/
theorem run_allSeen_iff_pair :
    Run.Along (step exampleTypes 1 0) (AllSeen exampleTypes 1 0) ⟨examplePort, .new⟩
      [exampleFlush (exampleRequest 2 5 [16] (by decide)) [7]] := by
  refine (run_allSeen_iff ?_).mpr ?_
  · exact ⟨⟨by decide, by decide, rfl, by decide, by decide⟩, trivial⟩
  · exact ⟨⟨⟨by decide, by decide, by decide⟩, trivial⟩, trivial⟩

/-- The number of a descriptor that was closed comes again while an old memory still has it. -/
theorem not_run_allSeen :
    ¬ ∀ (port : ProxyPort) (fs : List Flush),
      Run.Along (step exampleTypes 1 0) (Admits exampleTypes 1 0) ⟨port, .new⟩ fs →
        Run.Along (step exampleTypes 1 0) (AllSeen exampleTypes 1 0) ⟨port, .new⟩ fs := by
  intro hall
  have hseen := hall examplePort
    [exampleFlush (exampleRequest 2 5 [] (by decide)) [7],
      exampleFlush (exampleRequest 1 6 [] (by decide)) [8],
      exampleFlush (exampleRequest 2 9 [] (by decide)) [7]] ?_
  · obtain ⟨sent, s', hsent, hreceived, hsees⟩ := hseen.2.2.1.1
    cases hsent
    have hlength := congrArg (Option.map fun s => s.bufferIds.length) hreceived
    rw [Option.map_some, hsees.length_eq] at hlength
    exact absurd hlength (by decide)
  · exact ⟨⟨by decide, by decide, rfl, by decide, by decide⟩,
      ⟨by decide, by decide, rfl, by decide, by decide⟩,
      ⟨by decide, by decide, rfl, by decide, by decide⟩, trivial⟩

end PortUse

end SharedBuffers
end Pinos
