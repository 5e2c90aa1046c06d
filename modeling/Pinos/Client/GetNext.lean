import Mathlib.Order.Monotone.Basic
import Pinos.Client.Framing

/-
`client/connection.c`: when `pinos_connection_get_next` returns.

The socket answers the calls of `recvmsg` one after the other; the end of the stream is
an answer without bytes.
-/

namespace Pinos

open ByteMem

/-! ## Packets that are not there yet -/

/-- The length in the header of a packet. -/
def payloadLength (bytes : List UInt8) : Nat := ofLE ((bytes.drop 4).take 4) % 2 ^ 24

/-- Bytes that are the beginning of a packet, and not all of it. -/
structure Incomplete (bytes : List UInt8) : Prop where
  nonempty : bytes ≠ []
  short : 8 ≤ bytes.length → bytes.length < 8 + payloadLength bytes

section Incomplete

variable {xs ys : List UInt8}

theorem payloadLength_append (h : 8 ≤ xs.length) :
    payloadLength (xs ++ ys) = payloadLength xs := by
  unfold payloadLength
  have htake : 4 ≤ (xs.drop 4).length := by
    rw [List.length_drop]
    omega
  rw [List.drop_append_of_le_length (by omega), List.take_append_of_le_length htake]

theorem payloadLength_lt : payloadLength xs < 2 ^ 24 := Nat.mod_lt _ (by decide)

theorem Incomplete.length_lt (h : Incomplete xs) : xs.length < 8 + 2 ^ 24 := by
  have hshort := h.short
  have hlt := @payloadLength_lt xs
  omega

theorem Incomplete.left (h : Incomplete (xs ++ ys)) (hxs : xs ≠ []) : Incomplete xs := by
  refine ⟨hxs, fun hheader => ?_⟩
  have hshort := h.short
  rw [List.length_append, payloadLength_append hheader] at hshort
  omega

end Incomplete

namespace ConnectionBuffer

/-- What is in the buffer. -/
def contents (buf : ConnectionBuffer) : List UInt8 := buf.bufferData.read 0 buf.bufferSize

/-! ## One turn -/

section Turn

variable {buf : ConnectionBuffer} {m : Mem} {a n k : Nat} {bytes : List UInt8}

theorem length_contents : buf.contents.length = buf.bufferSize := Mem.length_read ..

theorem length_unread : (buf.contents.drop buf.offset).length = buf.bufferSize - buf.offset := by
  rw [List.length_drop, length_contents]

theorem payloadLength_unread (h : 8 ≤ buf.bufferSize - buf.offset) :
    payloadLength (buf.contents.drop buf.offset) =
      buf.bufferData.u32 (buf.offset + 4) % 2 ^ 24 := by
  unfold payloadLength contents
  rw [Mem.drop_read, Mem.drop_read, Mem.take_read _ _ (by omega), Nat.zero_add]
  rfl

/-- The buffer waits for the rest of a packet. -/
structure Keeps (buf buf' : ConnectionBuffer) : Prop where
  contents : buf'.contents = buf.contents
  offset : buf'.offset = buf.offset

theorem ensureSize_keeps (size : Nat) (update : Bool) :
    buf.Keeps { buf.ensureSize size with update := update } := by
  unfold ensureSize
  split <;> exact ⟨rfl, rfl⟩

/-- `readPacket` asks for more exactly when there is part of a packet. -/
theorem readPacket_waits_iff :
    buf.readPacket.2 = .waits ↔ Incomplete (buf.contents.drop buf.offset) := by
  have hlength := @length_unread buf
  unfold readPacket
  by_cases hend : buf.bufferSize ≤ buf.offset
  · rw [if_pos hend]
    refine iff_of_false (by simp) fun h => h.nonempty ?_
    exact List.eq_nil_of_length_eq_zero (by omega)
  have hne : buf.contents.drop buf.offset ≠ [] := by
    apply List.ne_nil_of_length_pos
    omega
  rw [if_neg hend]
  dsimp only
  by_cases hheader : buf.bufferSize - buf.offset < 8
  · rw [if_pos hheader]
    exact iff_of_true rfl ⟨hne, fun h => by omega⟩
  rw [if_neg hheader]
  have hpayload := payloadLength_unread (Nat.le_of_not_lt hheader)
  by_cases hshort :
      buf.bufferSize - buf.offset - 8 < buf.bufferData.u32 (buf.offset + 4) % 2 ^ 24
  · rw [if_pos hshort]
    exact iff_of_true rfl ⟨hne, fun _ => by omega⟩
  · rw [if_neg hshort]
    refine iff_of_false (by simp) fun h => ?_
    have := h.short (by omega)
    omega

theorem readPacket_keeps (h : buf.readPacket.2 = .waits) : buf.Keeps buf.readPacket.1 := by
  unfold readPacket at h ⊢
  split at h
  · cases h
  · next hend =>
    rw [if_neg hend]
    dsimp only at h ⊢
    split at h
    · next hheader =>
      rw [if_pos hheader]
      exact ensureSize_keeps 8 true
    · next hheader =>
      rw [if_neg hheader]
      split at h
      · next hshort =>
        rw [if_pos hshort]
        exact ensureSize_keeps _ true
      · cases h

theorem contents_received (fds : List Int) (update : Bool) :
    contents
      { buf with
        bufferData := buf.bufferData.write buf.bufferSize bytes
        bufferSize := buf.bufferSize + bytes.length
        fds := fds
        update := update } = buf.contents ++ bytes := by
  show (buf.bufferData.write buf.bufferSize bytes).read 0 (buf.bufferSize + bytes.length) = _
  have hold : (buf.bufferData.write buf.bufferSize bytes).read 0 buf.bufferSize = buf.contents :=
    Mem.read_congr fun i _ hi => Mem.write_outside _ (.inl (by omega))
  have hnew : (buf.bufferData.write buf.bufferSize bytes).read buf.bufferSize bytes.length =
      bytes := Mem.holds_write _ _ _
  rw [Mem.read_add, Nat.zero_add, hold, hnew]

end Turn

/-! ## All turns -/

/-- The call of `pinos_connection_get_next` after `n` answers of the socket. -/
def after (buf : ConnectionBuffer) (socket : Nat → RecvResult) : Nat → ConnectionBuffer × Progress
  | 0 => buf.getNext
  | n + 1 =>
    match buf.after socket n with
    | (buf, .waits) => buf.refill (socket n)
    | done => done

/-- `pinos_connection_get_next` returns. -/
def Returns (buf : ConnectionBuffer) (socket : Nat → RecvResult) : Prop :=
  ∃ n packet, (buf.after socket n).2 = .returns packet

/-- The bytes of an answer. -/
def RecvResult.bytes : RecvResult → List UInt8
  | .received bytes _ => bytes
  | .interrupted => []
  | .failed => []

/-- The bytes of the first answers. -/
def arrived (socket : Nat → RecvResult) : Nat → List UInt8
  | 0 => []
  | n + 1 => arrived socket n ++ (socket n).bytes

/-- What is there, after `n` answers, of the packet that is asked for. -/
def pending (buf : ConnectionBuffer) (socket : Nat → RecvResult) (n : Nat) : List UInt8 :=
  (buf.contents ++ arrived socket n).drop (buf.offset + buf.size)

/-- The stream ends after part of the packet that is asked for.  A call that finds nothing at
all returns, before it asks the socket or after the first answer. -/
structure EndsInside (buf : ConnectionBuffer) (socket : Nat → RecvResult) (n : Nat) : Prop where
  answers : ∀ i < n, socket i ≠ .failed
  ends : ∀ i, n ≤ i → ∃ fds, socket i = .received [] fds
  incomplete : Incomplete (buf.pending socket n)
  stale : buf.update = false → buf.pending socket 0 ≠ []
  first : buf.update = true → ∀ i, (∀ j < i, socket j = .interrupted) →
    socket i ≠ .interrupted → buf.pending socket (i + 1) ≠ []

section Turns

variable {buf : ConnectionBuffer} {socket : Nat → RecvResult} {n m : Nat}

theorem arrived_grows (h : n ≤ m) : ∃ more, arrived socket m = arrived socket n ++ more := by
  induction m, h using Nat.le_induction with
  | base => exact ⟨[], (List.append_nil _).symm⟩
  | succ m _ ih =>
    obtain ⟨more, hmore⟩ := ih
    exact ⟨more ++ (socket m).bytes, by rw [arrived, hmore, List.append_assoc]⟩

theorem pending_grows (h : n ≤ m) :
    ∃ more, buf.pending socket m = buf.pending socket n ++ more := by
  obtain ⟨more, hmore⟩ := @arrived_grows socket n m h
  unfold pending
  rw [hmore, ← List.append_assoc, List.drop_append]
  exact ⟨_, rfl⟩

theorem pending_ne_nil (h : n ≤ m) (hne : buf.pending socket n ≠ []) :
    buf.pending socket m ≠ [] := by
  obtain ⟨more, hmore⟩ := @pending_grows buf socket n m h
  rw [hmore]
  exact List.append_ne_nil_of_left_ne_nil hne more

/-- A call that has not returned has all that arrived in its buffer. -/
structure Waiting (buf : ConnectionBuffer) (socket : Nat → RecvResult) (n : Nat) : Prop where
  waits : (buf.after socket n).2 = .waits
  contents : (buf.after socket n).1.contents = buf.contents ++ arrived socket n
  offset : (buf.after socket n).1.offset = buf.offset + buf.size

theorem Waiting.after_succ (h : buf.Waiting socket n) :
    buf.after socket (n + 1) = (buf.after socket n).1.refill (socket n) := by
  rw [after]
  split
  · next heq => rw [heq]
  · next hne => exact (hne (buf.after socket n).1 (Prod.ext rfl h.waits)).elim

theorem after_zero (h : buf.update = false) :
    buf.after socket 0 = readPacket { buf with offset := buf.offset + buf.size } := by
  unfold after getNext
  exact if_neg (by simp [h])

theorem waits_zero_iff :
    (buf.after socket 0).2 = .waits ↔ buf.update = true ∨ Incomplete (buf.pending socket 0) := by
  cases hupdate : buf.update with
  | true =>
    refine iff_of_true ?_ (.inl rfl)
    unfold after getNext
    dsimp only
    rw [if_pos hupdate]
  | false =>
    rw [after_zero hupdate, readPacket_waits_iff, or_iff_right Bool.false_ne_true, pending, arrived,
      List.append_nil]
    rfl

theorem waiting_zero (h : (buf.after socket 0).2 = .waits) : buf.Waiting socket 0 := by
  cases hupdate : buf.update with
  | true =>
    have hnext : buf.after socket 0 = ({ buf with offset := buf.offset + buf.size }, .waits) := by
      unfold after getNext
      exact if_pos hupdate
    refine ⟨h, ?_, ?_⟩
    · rw [hnext, arrived, List.append_nil]
      rfl
    · rw [hnext]
  | false =>
    have hnext := @after_zero buf socket hupdate
    rw [hnext] at h
    have hkeeps := readPacket_keeps h
    refine ⟨hnext ▸ h, ?_, ?_⟩
    · rw [hnext, hkeeps.contents, arrived, List.append_nil]
      rfl
    · rw [hnext, hkeeps.offset]

/-- The buffer with an answer of the socket in it. -/
def receive (buf : ConnectionBuffer) (bytes : List UInt8) (fds : List (List Int)) :
    ConnectionBuffer :=
  { buf with
    bufferData := buf.bufferData.write buf.bufferSize bytes
    bufferSize := buf.bufferSize + bytes.length
    fds := fds.getLastD buf.fds
    update := false }

theorem Waiting.receive (h : buf.Waiting socket n) {bytes : List UInt8} {fds : List (List Int)}
    (hsocket : socket n = .received bytes fds) :
    buf.after socket (n + 1) = ((buf.after socket n).1.receive bytes fds).readPacket ∧
      ((buf.after socket n).1.receive bytes fds).contents = buf.contents ++ arrived socket (n + 1) ∧
      ((buf.after socket n).1.receive bytes fds).offset = buf.offset + buf.size := by
  refine ⟨?_, ?_, h.offset⟩
  · rw [h.after_succ, hsocket]
    rfl
  · unfold ConnectionBuffer.receive
    rw [contents_received, h.contents, arrived, hsocket, List.append_assoc]
    rfl

/-- What an answer does to a call that waits. -/
theorem Waiting.waits_succ_iff (h : buf.Waiting socket n) :
    (buf.after socket (n + 1)).2 = .waits ↔
      socket n = .interrupted ∨ socket n ≠ .failed ∧ Incomplete (buf.pending socket (n + 1)) := by
  cases hsocket : socket n with
  | interrupted =>
    rw [h.after_succ, hsocket]
    exact iff_of_true rfl (.inl rfl)
  | failed =>
    rw [h.after_succ, hsocket]
    exact iff_of_false (by simp [refill]) (by simp)
  | received bytes fds =>
    obtain ⟨hafter, hcontents, hoffset⟩ := h.receive hsocket
    rw [hafter, readPacket_waits_iff, hcontents, hoffset]
    simp [pending]

theorem Waiting.succ (h : buf.Waiting socket n) (hwaits : (buf.after socket (n + 1)).2 = .waits) :
    buf.Waiting socket (n + 1) := by
  cases hsocket : socket n with
  | interrupted =>
    have hafter := h.after_succ
    rw [hsocket] at hafter
    refine ⟨hwaits, ?_, ?_⟩
    · rw [hafter, arrived, hsocket, ← List.append_assoc]
      exact h.contents.trans (List.append_nil _).symm
    · rw [hafter]
      exact h.offset
  | failed =>
    rw [h.after_succ, hsocket] at hwaits
    cases hwaits
  | received bytes fds =>
    obtain ⟨hafter, hcontents, hoffset⟩ := h.receive hsocket
    have hkeeps := readPacket_keeps (hafter ▸ hwaits)
    refine ⟨hwaits, ?_, ?_⟩
    · rw [hafter, hkeeps.contents, hcontents]
    · rw [hafter, hkeeps.offset, hoffset]

theorem not_returns_iff : ¬ buf.Returns socket ↔ ∀ n, buf.Waiting socket n := by
  unfold Returns
  constructor
  · intro h
    have hwaits : ∀ n, (buf.after socket n).2 = .waits := by
      intro n
      cases hafter : (buf.after socket n).2 with
      | waits => rfl
      | returns packet => exact absurd ⟨n, packet, hafter⟩ h
    intro n
    induction n with
    | zero => exact waiting_zero (hwaits 0)
    | succ n ih => exact ih.succ (hwaits (n + 1))
  · rintro h ⟨n, packet, hreturns⟩
    rw [(h n).waits] at hreturns
    cases hreturns

/-! ## Streams that end inside a packet -/

theorem arrived_of_ends (h : ∀ i, n ≤ i → ∃ fds, socket i = .received [] fds) (hm : n ≤ m) :
    arrived socket m = arrived socket n := by
  induction m, hm using Nat.le_induction with
  | base => rfl
  | succ m hm ih =>
    obtain ⟨fds, hsocket⟩ := h m hm
    rw [arrived, hsocket, ih]
    exact List.append_nil _

/-- Part of a packet stays part of it. -/
theorem EndsInside.incomplete_of_ne_nil (h : buf.EndsInside socket n)
    (hne : buf.pending socket m ≠ []) : Incomplete (buf.pending socket m) := by
  rcases Nat.le_total m n with hm | hm
  · obtain ⟨more, hmore⟩ := @pending_grows buf socket m n hm
    exact (hmore ▸ h.incomplete).left hne
  · unfold pending
    rw [arrived_of_ends h.ends hm]
    exact h.incomplete

theorem EndsInside.pending_ne_nil (h : buf.EndsInside socket n)
    (hsocket : buf.update = true → socket m ≠ .interrupted) : buf.pending socket (m + 1) ≠ [] := by
  cases hupdate : buf.update with
  | false => exact ConnectionBuffer.pending_ne_nil (Nat.zero_le _) (h.stale hupdate)
  | true =>
    classical
    have hexists : ∃ i, socket i ≠ .interrupted := ⟨m, hsocket hupdate⟩
    have hfirst := h.first hupdate (Nat.find hexists)
      (fun j hj => not_not.mp (Nat.find_min hexists hj)) (Nat.find_spec hexists)
    exact ConnectionBuffer.pending_ne_nil
      (Nat.succ_le_succ (Nat.find_min' hexists (hsocket hupdate))) hfirst

theorem EndsInside.not_returns (h : buf.EndsInside socket n) : ¬ buf.Returns socket := by
  rw [not_returns_iff]
  intro m
  induction m with
  | zero =>
    apply waiting_zero
    rw [waits_zero_iff]
    cases hupdate : buf.update with
    | true => exact .inl rfl
    | false => exact .inr (h.incomplete_of_ne_nil (h.stale hupdate))
  | succ m ih =>
    apply ih.succ
    rw [ih.waits_succ_iff]
    by_cases hinterrupted : socket m = .interrupted
    · exact .inl hinterrupted
    have hfailed : socket m ≠ .failed := by
      rcases Nat.lt_or_ge m n with hm | hm
      · exact h.answers m hm
      · obtain ⟨fds, hends⟩ := h.ends m hm
        rw [hends]
        exact ConnectionBuffer.RecvResult.noConfusion
    exact .inr ⟨hfailed, h.incomplete_of_ne_nil (h.pending_ne_nil fun _ => hinterrupted)⟩

/-- Numbers that grow up to a bound stay the same in the end. -/
theorem exists_forall_eq {f : Nat → Nat} {b : Nat} (hmono : Monotone f) (hb : ∀ n, f n ≤ b)
    (n : Nat) : ∃ m, n ≤ m ∧ ∀ k, m ≤ k → f k = f m := by
  induction hd : b - f n using Nat.strongRecOn generalizing n with
  | ind d ih =>
    by_cases hall : ∀ k, n ≤ k → f k = f n
    · exact ⟨n, Nat.le_refl n, hall⟩
    · obtain ⟨k, hk⟩ := not_forall.mp hall
      obtain ⟨hnk, hne⟩ := Classical.not_imp.mp hk
      have hlt : f n < f k := Nat.lt_of_le_of_ne (hmono hnk) (Ne.symm hne)
      have hbk := hb k
      obtain ⟨m, hm, hsame⟩ := ih (b - f k) (by omega) k rfl
      exact ⟨m, Nat.le_trans hnk hm, hsame⟩

/-- Calls that have not returned have what arrives in their buffers, and that is less than a
packet. -/
theorem endsInside_of_waiting {c : Nat} (hinterrupted : ∀ i, c ≤ i → socket i ≠ .interrupted)
    (h : ∀ n, buf.Waiting socket n) : ∃ n, buf.EndsInside socket n := by
  have hstep : ∀ i, socket i = .interrupted ∨
      socket i ≠ .failed ∧ Incomplete (buf.pending socket (i + 1)) :=
    fun i => (h i).waits_succ_iff.mp (h (i + 1)).waits
  have hfailed : ∀ i, socket i ≠ .failed := by
    intro i
    rcases hstep i with hinterrupted | ⟨hfailed, -⟩
    · rw [hinterrupted]
      exact ConnectionBuffer.RecvResult.noConfusion
    · exact hfailed
  have hincomplete : ∀ i, c ≤ i → Incomplete (buf.pending socket (i + 1)) :=
    fun i hi => ((hstep i).resolve_left (hinterrupted i hi)).2
  have hmono : Monotone fun n => (arrived socket n).length := by
    intro n m hnm
    obtain ⟨more, hmore⟩ := @arrived_grows socket n m hnm
    show (arrived socket n).length ≤ (arrived socket m).length
    rw [hmore, List.length_append]
    exact Nat.le_add_right ..
  have hbound : ∀ n, (arrived socket n).length ≤ 8 + 2 ^ 24 + (buf.offset + buf.size) := by
    intro n
    have hlength := (hincomplete (max n c) (Nat.le_max_right n c)).length_lt
    have hnext : n ≤ max n c + 1 := Nat.le_succ_of_le (Nat.le_max_left n c)
    have hle := hmono hnext
    unfold pending at hlength
    rw [List.length_drop, List.length_append] at hlength
    dsimp only at hle
    omega
  obtain ⟨n, hn, hsame⟩ := exists_forall_eq hmono hbound (c + 1)
  refine ⟨n, fun i _ => hfailed i, ?_, ?_, ?_, ?_⟩
  · intro i hi
    have hlength := (hsame (i + 1) (by omega)).trans (hsame i hi).symm
    cases hsocket : socket i with
    | interrupted => exact absurd hsocket (hinterrupted i (by omega))
    | failed => exact absurd hsocket (hfailed i)
    | received bytes fds =>
      rw [arrived, hsocket, List.length_append] at hlength
      have hbytes : bytes.length = 0 := Nat.add_eq_left.mp hlength
      exact ⟨fds, by rw [List.eq_nil_of_length_eq_zero hbytes]⟩
  · obtain ⟨k, rfl⟩ := Nat.exists_eq_add_of_le' (Nat.le_trans (Nat.le_add_left 1 c) hn)
    exact hincomplete k (by omega)
  · intro hupdate
    have hzero := waits_zero_iff.mp (h 0).waits
    rw [hupdate] at hzero
    exact (hzero.resolve_left Bool.false_ne_true).nonempty
  · intro _ i _ hnot
    exact ((hstep i).resolve_left hnot).2.nonempty

/-- `pinos_connection_get_next` returns, unless the stream ends inside a packet. -/
theorem getNext_returns_iff (buf : ConnectionBuffer) (socket : Nat → RecvResult)
    (hinterrupted : ∃ c, ∀ i, c ≤ i → socket i ≠ .interrupted) :
    buf.Returns socket ↔ ∀ n, ¬ buf.EndsInside socket n := by
  constructor
  · exact fun hreturns n hends => hends.not_returns hreturns
  · intro h
    by_contra hnot
    obtain ⟨c, hc⟩ := hinterrupted
    obtain ⟨n, hends⟩ := endsInside_of_waiting hc (not_returns_iff.mp hnot)
    exact h n hends

/-- The other side has closed the connection. -/
def closed : Nat → RecvResult := fun _ => .received [] []

theorem getNext_returns_iff_closed :
    (new (fun _ => 0) true).Returns closed ↔
      ∀ n, ¬ (new (fun _ => 0) true).EndsInside closed n :=
  getNext_returns_iff (new (fun _ => 0) true) closed ⟨0, fun _ _ => ConnectionBuffer.RecvResult.noConfusion⟩

/-- Three bytes of a packet have arrived. -/
def cut : ConnectionBuffer := { new (fun _ => 0) true with bufferSize := 3 }

theorem cut_endsInside : cut.EndsInside closed 0 where
  answers _ hi := absurd hi (Nat.not_lt_zero _)
  ends _ _ := ⟨[], rfl⟩
  incomplete := ⟨by decide, by decide⟩
  stale := by decide
  first _ i _ _ := pending_ne_nil (Nat.zero_le _) (by decide)

/-- The end of the stream is not noticed in the middle of a packet. -/
theorem not_getNext_returns :
    ¬ ∀ (buf : ConnectionBuffer) (socket : Nat → RecvResult),
      (∃ c, ∀ i, c ≤ i → socket i ≠ .interrupted) →
      (∀ i fds, socket i = .received [] fds → ∀ j, i ≤ j → ∃ fds, socket j = .received [] fds) →
      buf.Returns socket := by
  intro h
  refine cut_endsInside.not_returns (h cut closed ⟨0, ?_⟩ ?_)
  · exact fun _ _ => ConnectionBuffer.RecvResult.noConfusion
  · exact fun _ _ _ _ _ => ⟨[], rfl⟩

end Turns

end ConnectionBuffer
end Pinos
