import Pinos.Lib.Intervals
import Pinos.Server.PortBuffers

/-
Where `alloc_buffers` of `server/link.c` puts the metas, chunks and datas of buffers, for any
metadata that it has collected.

The sizes are summed before anything is allocated, in `size_t`; what is carved out of the block
afterwards moves a pointer along.  Places in a block are offsets from where it begins.
-/

namespace Pinos
namespace AllocBuffers

open Intervals
open PortBuffers (BufferTypes placeMetas placeDatas sizeofChunk)

/-- The value a `size_t` keeps of `n`. -/
def sizeT (n : Nat) : Nat := n % 2 ^ 64

theorem sizeT_of_lt {n : Nat} (h : n < 2 ^ 64) : sizeT n = n := Nat.mod_eq_of_lt h

theorem sizeT_lt (n : Nat) : sizeT n < 2 ^ 64 := Nat.mod_lt n (by decide)

def sizeofSpaBuffer : Nat := 32

def sizeofSpaMeta : Nat := 24

def sizeofSpaData : Nat := 40

/-- `sizeof (SpaBuffer *)`. -/
def sizeofPointer : Nat := 8

/-! ## Sizes -/

/-- A buffer as `alloc_buffers` leaves it. -/
structure AllocatedBuffer where
  id : Nat
  metas : List PortBuffers.SpaMeta
  datas : List PortBuffers.SpaData

/-- The metadata of a buffer and the sizes of its datas. -/
structure BufferShape where
  metas : List Native.SpaMeta
  dataSizes : List UInt64

namespace BufferShape

variable (shape : BufferShape)

def metaSizes : List Nat := shape.metas.map fun m => m.size.toNat

def sizes : List Nat := shape.dataSizes.map UInt64.toNat

/-- The lengths of what a buffer has in the block: its metas, its chunks and its datas. -/
def lens : List Nat :=
  shape.metaSizes ++ (List.replicate shape.sizes.length sizeofChunk ++ shape.sizes)

def dataSize : Nat := sizeT shape.lens.sum

/-- The lengths of the skeleton of a buffer: itself and the arrays of its metas and datas. -/
def skelLens : List Nat :=
  [sizeofSpaBuffer, sizeofSpaMeta * shape.metas.length, sizeofSpaData * shape.dataSizes.length]

def skelSize : Nat := sizeT shape.skelLens.sum

/-! ## Places -/

/-- Buffer `i`. -/
def buffer (types : BufferTypes) (fd : Int) (i : Nat) : AllocatedBuffer :=
  let p := sizeT (shape.dataSize * i)
  let cdp := p + shape.metaSizes.sum
  { id := i
    metas := placeMetas p shape.metas
    datas := placeDatas types fd cdp (cdp + sizeofChunk * shape.sizes.length) shape.sizes }

/-- Its metas, chunks and datas; the pointer to a data is made from the `mapoffset`. -/
def bufferRegions (types : BufferTypes) (fd : Int) (i : Nat) : List Region :=
  let b := shape.buffer types fd i
  b.metas.map (fun m => ⟨m.data, m.size.toNat⟩) ++
    (b.datas.map (fun d => ⟨d.chunk, sizeofChunk⟩) ++
      List.zipWith (fun (d : PortBuffers.SpaData) size => ⟨d.mapoffset.toNat, size⟩)
        b.datas shape.sizes)

def blockRegions (types : BufferTypes) (fd : Int) (n : UInt32) : List Region :=
  (List.range n.toNat).flatMap (shape.bufferRegions types fd)

/-- How many bytes are asked for with `pinos_memblock_alloc`. -/
def blockSize (n : UInt32) : Nat := sizeT (n.toNat * shape.dataSize)

/-- The pointers to the buffers, and behind them the buffers with their arrays. -/
def skelRegions (n : UInt32) : List Region :=
  tile 0 (List.replicate n.toNat sizeofPointer) ++
    (List.range n.toNat).flatMap fun i =>
      tile (sizeT (n.toNat * sizeofPointer) + sizeT (shape.skelSize * i)) shape.skelLens

/-- What `calloc` allocates; it fails when the product does not fit. -/
def skelAlloc (n : UInt32) : Nat :=
  let total := n.toNat * sizeT (shape.skelSize + sizeofPointer)
  if total < 2 ^ 64 then total else 0

/-- The size of the array on the stack in which the metas are collected. -/
def scratchSize (nParams : UInt32) : Nat := sizeofSpaMeta * nParams.toNat + 1

/-- What is carved out is apart and inside what was allocated for it. -/
structure LaidOut (types : BufferTypes) (fd : Int) (n nParams : UInt32) : Prop where
  block : Packed (shape.blockRegions types fd n) (shape.blockSize n)
  skel : Packed (shape.skelRegions n) (shape.skelAlloc n)
  scratch : ∀ k < shape.metas.length, sizeofSpaMeta * k + sizeofSpaMeta ≤ scratchSize nParams

/-- Where data `j` of buffer `i` begins. -/
def dataOffset (i j : Nat) : Nat :=
  shape.lens.sum * i + shape.metaSizes.sum + sizeofChunk * shape.sizes.length +
    (shape.sizes.take j).sum

/-! ## The block -/

/-- A data where its `mapoffset` says, which is 0 for one without a size. -/
def mapped (r : Region) : Region := ⟨if 0 < r.len then r.start % 2 ^ 32 else 0, r.len⟩

/-- What a buffer has behind `p`, and whether it is a data. -/
def pieces (p : Nat) : List (Bool × Region) :=
  (tile p (shape.metaSizes ++ List.replicate shape.sizes.length sizeofChunk)).map (false, ·) ++
    (tile (p + shape.metaSizes.sum + sizeofChunk * shape.sizes.length) shape.sizes).map (true, ·)

/-- Where it is put. -/
def putAt (piece : Bool × Region) : Region := if piece.1 then mapped piece.2 else piece.2

theorem regions_placeMetas (p : Nat) (ms : List Native.SpaMeta) :
    (placeMetas p ms).map (fun m => (⟨m.data, m.size.toNat⟩ : Region)) =
      tile p (ms.map fun m => m.size.toNat) := by
  induction ms generalizing p with
  | nil => rfl
  | cons m ms ih => simp [placeMetas, tile, ih]

theorem regions_chunks (types : BufferTypes) (fd : Int) (cdp ddp : Nat) (sizes : List Nat) :
    (placeDatas types fd cdp ddp sizes).map (fun d => (⟨d.chunk, sizeofChunk⟩ : Region)) =
      tile cdp (List.replicate sizes.length sizeofChunk) := by
  induction sizes generalizing cdp ddp with
  | nil => rfl
  | cons size sizes ih => simp [placeDatas, tile, ih, List.replicate_succ]

theorem regions_datas (types : BufferTypes) (fd : Int) (cdp ddp : Nat) (sizes : List Nat) :
    List.zipWith (fun (d : PortBuffers.SpaData) size => (⟨d.mapoffset.toNat, size⟩ : Region))
      (placeDatas types fd cdp ddp sizes) sizes = (tile ddp sizes).map mapped := by
  induction sizes generalizing cdp ddp with
  | nil => rfl
  | cons size sizes ih =>
    by_cases hsize : 0 < size
    · simp [placeDatas, tile, ih, mapped, hsize]
    · simp [placeDatas, tile, ih, mapped, hsize]

theorem bufferRegions_eq (types : BufferTypes) (fd : Int) (i : Nat) :
    shape.bufferRegions types fd i =
      (shape.pieces (sizeT (shape.dataSize * i))).map putAt := by
  simp only [bufferRegions, buffer, regions_placeMetas, regions_chunks, regions_datas]
  simp [pieces, tile_append, Function.comp_def, putAt, metaSizes]

theorem map_snd_pieces (p : Nat) : (shape.pieces p).map Prod.snd = tile p shape.lens := by
  rw [pieces, lens, ← List.append_assoc,
    tile_append (shape.metaSizes ++ List.replicate shape.sizes.length sizeofChunk) shape.sizes,
    List.sum_append, List.sum_replicate_nat, Nat.mul_comm, ← Nat.add_assoc]
  simp [Function.comp_def]

theorem mem_pieces {p : Nat} {piece : Bool × Region} (h : piece ∈ shape.pieces p) :
    piece.1 = false ∨ ∃ j, ∃ hj : j < shape.sizes.length,
      piece = (true, ⟨p + shape.metaSizes.sum + sizeofChunk * shape.sizes.length +
        (shape.sizes.take j).sum, shape.sizes[j]⟩) := by
  rw [pieces, List.mem_append] at h
  rcases h with h | h
  · obtain ⟨r, -, rfl⟩ := List.mem_map.mp h
    exact Or.inl rfl
  · obtain ⟨r, hr, rfl⟩ := List.mem_map.mp h
    obtain ⟨j, hj, rfl⟩ := mem_tile.mp hr
    exact Or.inr ⟨j, hj, rfl⟩

theorem data_mem_pieces (p : Nat) {j : Nat} (hj : j < shape.sizes.length) :
    (true, ⟨p + shape.metaSizes.sum + sizeofChunk * shape.sizes.length +
      (shape.sizes.take j).sum, shape.sizes[j]⟩) ∈ shape.pieces p :=
  List.mem_append_right _ (List.mem_map_of_mem (mem_tile.mpr ⟨j, hj, rfl⟩))

theorem len_putAt (piece : Bool × Region) : (putAt piece).len = piece.2.len := by
  unfold putAt mapped
  split <;> rfl

theorem start_putAt_le (piece : Bool × Region) : (putAt piece).start ≤ piece.2.start := by
  unfold putAt mapped
  split
  · dsimp only
    split
    · exact Nat.mod_le _ _
    · exact Nat.zero_le _
  · exact Nat.le_refl _

/-- A piece has the points it should have, unless it is a data too far into the block. -/
theorem points_putAt {piece : Bool × Region}
    (h : piece.1 = true → 0 < piece.2.len → piece.2.start < 2 ^ 32) :
    piece.2.points = (putAt piece).points := by
  ext x
  rw [Region.mem_points, Region.mem_points, Region.stop, Region.stop, len_putAt]
  obtain ⟨isData, r⟩ := piece
  cases isData with
  | false => rfl
  | true =>
    by_cases hpos : 0 < r.len
    · have hmod : r.start % 2 ^ 32 = r.start := Nat.mod_eq_of_lt (h rfl hpos)
      simp only [putAt, mapped, if_true, if_pos hpos, hmod]
    · simp only [putAt, mapped, if_true, if_neg hpos]
      omega

section Block

variable {types : BufferTypes} {fd : Int} {n : UInt32}

/-- What all buffers have in the block. -/
def blockPieces (n : UInt32) : List (Bool × Region) :=
  (List.range n.toNat).flatMap fun i => shape.pieces (sizeT (shape.dataSize * i))

theorem blockRegions_eq :
    shape.blockRegions types fd n = (shape.blockPieces n).map putAt := by
  rw [blockRegions, blockPieces, List.map_flatMap]
  congr 1
  funext i
  exact shape.bufferRegions_eq types fd i

theorem sum_len_blockPieces :
    ((shape.blockPieces n).map fun piece => (putAt piece).len).sum = n.toNat * shape.lens.sum := by
  have hbuffer (p : Nat) : (shape.pieces p).map (fun piece => (putAt piece).len) = shape.lens := by
    rw [← map_len_tile p shape.lens, ← map_snd_pieces, List.map_map]
    exact List.map_congr_left fun piece _ => len_putAt piece
  rw [blockPieces, List.map_flatMap]
  simp only [hbuffer]
  rw [List.flatMap_def, List.map_const', List.length_range, sum_flatten_replicate, Nat.mul_comm]

/-- Without overflow every buffer begins where it should. -/
theorem place_eq {i : Nat} (hfit : n.toNat * shape.lens.sum < 2 ^ 64) (hi : i < n.toNat) :
    sizeT (shape.dataSize * i) = shape.lens.sum * i := by
  have hone : shape.lens.sum ≤ n.toNat * shape.lens.sum :=
    Nat.le_mul_of_pos_left _ (by omega)
  have hbefore : shape.lens.sum * i ≤ n.toNat * shape.lens.sum := by
    rw [Nat.mul_comm]
    exact Nat.mul_le_mul_right _ (Nat.le_of_lt hi)
  have hsize : sizeT shape.lens.sum = shape.lens.sum := sizeT_of_lt (by omega)
  rw [dataSize, hsize]
  exact sizeT_of_lt (by omega)

theorem map_snd_blockPieces (hfit : n.toNat * shape.lens.sum < 2 ^ 64) :
    (shape.blockPieces n).map Prod.snd = tile 0 (List.replicate n.toNat shape.lens).flatten := by
  rw [← flatMap_tile, blockPieces, List.map_flatMap]
  refine List.flatMap_congr fun i hi => ?_
  rw [shape.place_eq hfit (List.mem_range.mp hi), map_snd_pieces, Nat.zero_add]

theorem blockSize_eq (hfit : n.toNat * shape.lens.sum < 2 ^ 64) :
    shape.blockSize n = n.toNat * shape.lens.sum := by
  rcases Nat.eq_zero_or_pos n.toNat with hzero | hpos
  · simp [blockSize, hzero, sizeT]
  · have hone : shape.lens.sum ≤ n.toNat * shape.lens.sum := Nat.le_mul_of_pos_left _ hpos
    have hsize : sizeT shape.lens.sum = shape.lens.sum := sizeT_of_lt (by omega)
    rw [blockSize, dataSize, hsize, sizeT_of_lt hfit]

/-- The block is laid out well exactly when its size does not overflow and no data that has a size
begins behind 4 GiB. -/
theorem packed_block_iff : Packed (shape.blockRegions types fd n) (shape.blockSize n) ↔
    n.toNat * shape.lens.sum < 2 ^ 64 ∧
      ∀ i < n.toNat, ∀ j, ∀ hj : j < shape.sizes.length, 0 < shape.sizes[j] →
        shape.dataOffset i j < 2 ^ 32 := by
  have htile (hfit : n.toNat * shape.lens.sum < 2 ^ 64) :
      Packed ((shape.blockPieces n).map Prod.snd) (shape.blockSize n) := by
    have hpacked := packed_tile 0 (List.replicate n.toNat shape.lens).flatten
    rwa [sum_flatten_replicate, Nat.zero_add, Nat.mul_comm, ← shape.blockSize_eq hfit,
      ← shape.map_snd_blockPieces hfit] at hpacked
  rw [blockRegions_eq]
  constructor
  · intro h
    have hsum := h.sum_le
    rw [List.map_map, Function.comp_def, shape.sum_len_blockPieces] at hsum
    have hfit : n.toNat * shape.lens.sum < 2 ^ 64 := Nat.lt_of_le_of_lt hsum (sizeT_lt _)
    refine ⟨hfit, fun i hi j hj hpos => ?_⟩
    have hmem := shape.data_mem_pieces (sizeT (shape.dataSize * i)) hj
    have hstart := h.start_eq (htile hfit)
      ((shape.sum_len_blockPieces).trans (shape.blockSize_eq hfit).symm)
      (fun piece _ => ⟨len_putAt piece, start_putAt_le piece⟩)
      (List.mem_flatMap.mpr ⟨i, List.mem_range.mpr hi, hmem⟩) (by rw [len_putAt]; exact hpos)
    rw [shape.place_eq hfit hi] at hstart
    have hmod : shape.dataOffset i j % 2 ^ 32 = shape.dataOffset i j := by
      simpa [putAt, mapped, hpos, dataOffset] using hstart
    rw [← hmod]
    exact Nat.mod_lt _ (by decide)
  · rintro ⟨hfit, hnear⟩
    refine (htile hfit).of_points fun piece hpiece => points_putAt fun hdata hpos => ?_
    obtain ⟨i, hi, hmem⟩ := List.mem_flatMap.mp hpiece
    rw [shape.place_eq hfit (List.mem_range.mp hi)] at hmem
    rcases shape.mem_pieces hmem with hother | ⟨j, hj, rfl⟩
    · rw [hother] at hdata
      cases hdata
    · exact hnear i (List.mem_range.mp hi) j hj hpos

end Block

/-! ## The skeletons -/

section Skeletons

variable {n : UInt32}

theorem sum_len_skelRegions :
    ((shape.skelRegions n).map Region.len).sum =
      n.toNat * (shape.skelLens.sum + sizeofPointer) := by
  have hpointers : (List.replicate n.toNat sizeofPointer).sum = n.toNat * sizeofPointer :=
    List.sum_replicate_nat
  rw [skelRegions, List.map_append, List.map_flatMap, map_len_tile, List.sum_append, hpointers]
  simp only [map_len_tile]
  rw [List.flatMap_def, List.map_const', List.length_range, sum_flatten_replicate,
    Nat.mul_add, Nat.mul_comm shape.skelLens.sum, Nat.add_comm]

/-- The skeletons are laid out well exactly when the size of all of them does not overflow. -/
theorem packed_skel_iff : Packed (shape.skelRegions n) (shape.skelAlloc n) ↔
    n.toNat * (shape.skelLens.sum + sizeofPointer) < 2 ^ 64 := by
  have halloc : shape.skelAlloc n < 2 ^ 64 := by
    unfold skelAlloc
    dsimp only
    split
    · assumption
    · decide
  constructor
  · intro h
    have hsum := h.sum_le
    rw [sum_len_skelRegions] at hsum
    omega
  · intro hfit
    rcases Nat.eq_zero_or_pos n.toNat with hzero | hpos
    · refine ⟨?_, ?_⟩ <;> simp [skelRegions, hzero, tile]
    · have hone : shape.skelLens.sum + sizeofPointer ≤
          n.toNat * (shape.skelLens.sum + sizeofPointer) := Nat.le_mul_of_pos_left _ hpos
      have hsize : shape.skelSize = shape.skelLens.sum := sizeT_of_lt (by omega)
      have hall : n.toNat * (shape.skelLens.sum + sizeofPointer) =
          n.toNat * sizeofPointer + shape.skelLens.sum * n.toNat := by
        rw [Nat.mul_add, Nat.mul_comm _ shape.skelLens.sum, Nat.add_comm]
      have hplace (i : Nat) (hi : i < n.toNat) :
          sizeT (n.toNat * sizeofPointer) + sizeT (shape.skelSize * i) =
            n.toNat * sizeofPointer + shape.skelLens.sum * i := by
        have hbefore : shape.skelLens.sum * i ≤ shape.skelLens.sum * n.toNat :=
          Nat.mul_le_mul_left _ (Nat.le_of_lt hi)
        rw [hsize, sizeT_of_lt (n := n.toNat * sizeofPointer) (by omega),
          sizeT_of_lt (n := shape.skelLens.sum * i) (by omega)]
      have hbytes : shape.skelAlloc n = n.toNat * sizeofPointer + shape.skelLens.sum * n.toNat := by
        have hboth : sizeT (shape.skelSize + sizeofPointer) =
            shape.skelLens.sum + sizeofPointer := by
          rw [hsize]
          exact sizeT_of_lt (by omega)
        rw [skelAlloc, hboth, if_pos hfit, hall]
      have hregions : shape.skelRegions n = tile 0 (List.replicate n.toNat sizeofPointer ++
          (List.replicate n.toNat shape.skelLens).flatten) := by
        rw [skelRegions, tile_append, ← flatMap_tile, List.sum_replicate_nat, Nat.zero_add]
        congr 1
        exact List.flatMap_congr fun i hi => by rw [hplace i (List.mem_range.mp hi)]
      have hpacked := packed_tile 0 (List.replicate n.toNat sizeofPointer ++
        (List.replicate n.toNat shape.skelLens).flatten)
      rwa [List.sum_append, List.sum_replicate_nat, sum_flatten_replicate, Nat.zero_add,
        ← hbytes, ← hregions] at hpacked

end Skeletons

/-- What `alloc_buffers` carves out is apart and inside what it allocated exactly when no size
overflows, no data begins behind 4 GiB and the metas are not more than the parameters. -/
theorem laidOut_iff (types : BufferTypes) (fd : Int) (n nParams : UInt32) :
    shape.LaidOut types fd n nParams ↔
      n.toNat * shape.lens.sum < 2 ^ 64 ∧
      (∀ i < n.toNat, ∀ j, ∀ hj : j < shape.sizes.length, 0 < shape.sizes[j] →
        shape.dataOffset i j < 2 ^ 32) ∧
      n.toNat * (shape.skelLens.sum + sizeofPointer) < 2 ^ 64 ∧
      shape.metas.length ≤ nParams.toNat := by
  have hscratch : (∀ k < shape.metas.length,
      sizeofSpaMeta * k + sizeofSpaMeta ≤ scratchSize nParams) ↔
        shape.metas.length ≤ nParams.toNat := by
    unfold sizeofSpaMeta scratchSize sizeofSpaMeta
    constructor
    · intro h
      by_contra hmore
      have := h nParams.toNat (by omega)
      omega
    · intro h k hk
      omega
  constructor
  · rintro ⟨hblock, hskel, hmetas⟩
    obtain ⟨hfit, hnear⟩ := shape.packed_block_iff.mp hblock
    exact ⟨hfit, hnear, shape.packed_skel_iff.mp hskel, hscratch.mp hmetas⟩
  · rintro ⟨hfit, hnear, hskel, hmetas⟩
    exact ⟨shape.packed_block_iff.mpr ⟨hfit, hnear⟩, shape.packed_skel_iff.mpr hskel,
      hscratch.mpr hmetas⟩

/-- Some type map. -/
def exampleTypes : BufferTypes := ⟨0, 1, 2, 3, 4⟩

/-- A buffer with the shared metadata alone, for a port without parameters. -/
def noParams : BufferShape := ⟨[⟨0, PortBuffers.sizeofMetaShared⟩], [1024]⟩

/-- The entry of the shared metadata is behind the array that no parameters get. -/
theorem not_laidOut : ¬ noParams.LaidOut exampleTypes 3 1 0 := by
  intro h
  exact absurd (h.scratch 0 (by decide)) (by decide)

/-- With one parameter the array is large enough. -/
example : Packed (noParams.blockRegions exampleTypes 3 16) (noParams.blockSize 16) :=
  noParams.packed_block_iff.mpr ⟨by decide, by decide⟩

end BufferShape
end AllocBuffers
end Pinos
