import Pinos.Server.PortUpdates
import Pinos.Spa.FilterBounds

/-
`spa_proxy_node_port_enum_formats` of `server/client-node.c`: which of the formats of a port are
enumerated for a filter, and what there is of them in the buffer of the proxy.
-/

namespace Pinos
namespace ClientNode

open ByteMem
open ClientNode.SpaProxy (formatBufferSize)

/-- The formats that have something in common with a filter. -/
def compatible (filter : Option SpaFormat) (formats : List SpaFormat) : List SpaFormat :=
  formats.filter fun format => (format.filtered filter).isSome

/-- The formats that are looked at until as many as `k` have been passed over. -/
def examined (filter : Option SpaFormat) : Nat → List SpaFormat → List SpaFormat
  | _, [] => []
  | k, format :: formats =>
    format ::
      if (format.filtered filter).isSome then
        match k with
        | 0 => []
        | k + 1 => examined filter k formats
      else examined filter k formats

/-- `spa_proxy_node_port_enum_formats`, with `spa_format_filter`. -/
def enumFormats (this : SpaProxy SpaFormat) (direction portId : UInt32) (filter : Option SpaFormat)
    (index : UInt32) : SpaProxy SpaFormat × SpaResult :=
  this.portEnumFormats (fun filter format b => b.formatFilter filter format) direction portId filter
    index

section Enum

variable (this : SpaProxy SpaFormat) (direction portId : UInt32) (filter : Option SpaFormat)
  (index : UInt32) (formats : List SpaFormat)

/-- What has to be returned: the format of that index among those that the filter is compatible
with, as a whole and as far as it agrees with the filter, or that there is none; and nothing
is written outside of the buffer. -/
structure Lists : Prop where
  answer : match (compatible filter formats)[index.toNat]? with
    | none => (enumFormats this direction portId filter index).2 = .enumEnd
    | some format => (enumFormats this direction portId filter index).2 = .ok ∧
        ∀ bytes ∈ format.filtered filter,
          bytes <+: (enumFormats this direction portId filter index).1.bufferBytes
  inside : ∀ a, a < this.formatBuffer.data ∨ this.formatBuffer.data + formatBufferSize ≤ a →
    (enumFormats this direction portId filter index).1.formatBuffer.mem a = this.formatBuffer.mem a

/-- What is returned has room. -/
def HasRoom : Prop :=
  ∀ format ∈ (compatible filter formats)[index.toNat]?, ∀ bytes ∈ format.filtered filter,
    bytes.length ≤ formatBufferSize

/-- The values of a format that takes those of a filter are of the same sizes. -/
def SizesAgree (format : SpaFormat) : Prop :=
  ∀ φ ∈ filter, ∀ p1 ∈ format.props, ∀ p2 ∈ PropPod.findProp φ.props p1.key, p1.SizesAgree p2

/-- What is asked of the formats: those that are looked at have the values that are narrowed in
the buffer, and the one that is returned has room and takes values of its own sizes. -/
structure Fits : Prop where
  examined : ∀ format ∈ examined filter index.toNat formats,
    SpaPODBuilder.FormatFits filter formatBufferSize format
  room : HasRoom filter index formats
  sizes : ∀ format ∈ (compatible filter formats)[index.toNat]?, SizesAgree filter format

end Enum

section Next

variable {filter : Option SpaFormat} {index matched : UInt32} {format : SpaFormat}
  {formats : List SpaFormat} {buffer : PodBuffer} {k : Nat}

/-- The builder after a format has been filtered. -/
def filteredInto (filter : Option SpaFormat) (buffer : PodBuffer) (format : SpaFormat) :
    PodBuffer :=
  ((SpaPODBuilder.init buffer formatBufferSize).formatFilter filter format).1.data

/-- The loop, with the filter. -/
def next (filter : Option SpaFormat) (index : UInt32) (formats : List SpaFormat) (matched : UInt32)
    (buffer : PodBuffer) : PodBuffer × SpaResult :=
  SpaProxy.nextFormat (fun format b => b.formatFilter filter format) index formats matched buffer

theorem next_cons :
    next filter index (format :: formats) matched buffer =
      if (format.filtered filter).isSome then
        if matched = index then (filteredInto filter buffer format, .ok)
        else next filter index formats (matched + 1) (filteredInto filter buffer format)
      else next filter index formats matched (filteredInto filter buffer format) := by
  have hsnd := @SpaPODBuilder.formatFilter_snd
    (SpaPODBuilder.init buffer formatBufferSize) filter format
  rw [next, SpaProxy.nextFormat]
  dsimp only
  by_cases hsome : (format.filtered filter).isSome
  · rw [if_neg (not_not.mpr (hsnd.mpr hsome)), if_pos hsome]
    by_cases hmatched : matched = index
    · rw [if_neg (not_not.mpr hmatched), if_pos hmatched]
      rfl
    · rw [if_pos hmatched, if_neg hmatched]
      rfl
  · rw [if_pos fun hok => hsome (hsnd.mp hok), if_neg hsome]
    rfl

theorem compatible_cons_of_pos (h : (format.filtered filter).isSome) :
    compatible filter (format :: formats) = format :: compatible filter formats :=
  List.filter_cons_of_pos h

theorem compatible_cons_of_neg (h : ¬ (format.filtered filter).isSome) :
    compatible filter (format :: formats) = compatible filter formats :=
  List.filter_cons_of_neg h

theorem mem_of_mem_examined (h : format ∈ examined filter k formats) : format ∈ formats := by
  induction formats generalizing k with
  | nil => exact h
  | cons format' formats ih =>
    rw [examined.eq_def] at h
    dsimp only at h
    obtain rfl | h := List.mem_cons.mp h
    · exact List.mem_cons_self
    · refine List.mem_cons_of_mem _ ?_
      split at h
      · split at h
        · cases h
        · exact ih h
      · exact ih h

/-- The index of a format that is not the one that is looked for. -/
theorem toNat_matched (h : matched.toNat + (k + 1) = index.toNat) :
    matched ≠ index ∧ (matched + 1).toNat + k = index.toNat := by
  have hlt := index.toNat_lt
  have hadd : (matched + 1).toNat = matched.toNat + 1 := by
    rw [UInt32.toNat_add]
    exact Nat.mod_eq_of_lt (by show matched.toNat + 1 < 2 ^ 32; omega)
  refine ⟨fun heq => ?_, by rw [hadd]; omega⟩
  rw [heq] at h
  omega

theorem next_answer (h : matched.toNat + k = index.toNat) :
    (next filter index formats matched buffer).2 =
      if (compatible filter formats)[k]?.isSome then .ok else .enumEnd := by
  induction formats generalizing matched k buffer with
  | nil => rfl
  | cons format formats ih =>
    rw [next_cons]
    by_cases hsome : (format.filtered filter).isSome
    · rw [if_pos hsome, compatible_cons_of_pos hsome]
      cases k with
      | zero =>
        rw [if_pos (UInt32.toNat_inj.mp h)]
        rfl
      | succ k =>
        obtain ⟨hne, hnext⟩ := toNat_matched h
        rw [if_neg hne, ih hnext, List.getElem?_cons_succ]
    · rw [if_neg hsome, compatible_cons_of_neg hsome, ih h]

/-- Nothing is written outside as long as that holds of the formats that are looked at. -/
theorem next_inside (h : matched.toNat + k = index.toNat)
    (hfits : ∀ format ∈ examined filter k formats,
      SpaPODBuilder.FormatFits filter formatBufferSize format) :
    (next filter index formats matched buffer).1.data = buffer.data ∧
      ∀ a, a < buffer.data ∨ buffer.data + formatBufferSize ≤ a →
        (next filter index formats matched buffer).1.mem a = buffer.mem a := by
  induction formats generalizing matched k buffer with
  | nil => exact ⟨rfl, fun _ _ => rfl⟩
  | cons format formats ih =>
    obtain ⟨hdata, hmem⟩ := @SpaPODBuilder.formatFilter_inside filter format buffer formatBufferSize
      (by decide) (by decide) (hfits format List.mem_cons_self)
    -- what the formats behind leave as it is, the format here has left
    have hrest {matched : UInt32} {k : Nat} (h : matched.toNat + k = index.toNat)
        (hfits : ∀ format ∈ examined filter k formats,
          SpaPODBuilder.FormatFits filter formatBufferSize format) :
        (next filter index formats matched (filteredInto filter buffer format)).1.data =
            buffer.data ∧
          ∀ a, a < buffer.data ∨ buffer.data + formatBufferSize ≤ a →
            (next filter index formats matched (filteredInto filter buffer format)).1.mem a =
              buffer.mem a := by
      obtain ⟨hdata', hmem'⟩ := @ih matched (filteredInto filter buffer format) k h hfits
      rw [filteredInto, hdata] at hmem'
      exact ⟨hdata'.trans hdata, fun a ha => (hmem' a ha).trans (hmem a ha)⟩
    rw [next_cons]
    by_cases hsome : (format.filtered filter).isSome
    · rw [if_pos hsome]
      cases k with
      | zero =>
        rw [if_pos (UInt32.toNat_inj.mp h)]
        exact ⟨hdata, hmem⟩
      | succ k =>
        obtain ⟨hne, hnext⟩ := toNat_matched h
        rw [if_neg hne]
        refine hrest hnext fun format' hmem' => hfits format' (List.mem_cons_of_mem _ ?_)
        rw [if_pos hsome]
        exact hmem'
    · rw [if_neg hsome]
      refine hrest h fun format' hmem' => hfits format' (List.mem_cons_of_mem _ ?_)
      rw [if_neg hsome]
      exact hmem'

/-- What is returned is in the buffer when it has room. -/
theorem next_bytes (h : matched.toNat + k = index.toNat) {bytes : List UInt8}
    (hget : (compatible filter formats)[k]? = some format)
    (hbytes : format.filtered filter = some bytes) (hroom : bytes.length ≤ formatBufferSize)
    (hsizes : SizesAgree filter format) :
    bytes <+: (PodStore.view (next filter index formats matched buffer).1).read 0
      formatBufferSize := by
  induction formats generalizing matched k buffer with
  | nil => cases hget
  | cons format' formats ih =>
    rw [next_cons]
    by_cases hsome : (format'.filtered filter).isSome
    · rw [compatible_cons_of_pos hsome] at hget
      rw [if_pos hsome]
      cases k with
      | zero =>
        obtain rfl : format' = format := Option.some.inj hget
        rw [if_pos (UInt32.toNat_inj.mp h)]
        have hready : Value.Ready (SpaPODBuilder.init buffer formatBufferSize) := ⟨rfl, rfl, rfl⟩
        have hsize : formatBufferSize = 1024 := rfl
        exact prefix_of_appends (SpaPODBuilder.formatFilter_appends hready hsizes hbytes (by omega)
          (SpaPODBuilder.room_init (length_aligned_le hroom) (by decide))) hroom
      | succ k =>
        obtain ⟨hne, hnext⟩ := toNat_matched h
        rw [if_neg hne]
        exact ih hnext hget
    · rw [compatible_cons_of_neg hsome] at hget
      rw [if_neg hsome]
      exact ih h hget

end Next

/-! ## The call -/

section Call

variable {this : SpaProxy SpaFormat} {direction portId : UInt32} {filter : Option SpaFormat}
  {index : UInt32} {formats : List SpaFormat} {d : PinosDirection} {i : Fin maxIds}

/-- Without a filter every format will do. -/
theorem compatible_none (formats : List SpaFormat) : compatible none formats = formats :=
  List.filter_eq_self.mpr fun _ _ => rfl

theorem hasRoom_none :
    HasRoom none index formats ↔
      ∀ format ∈ formats[index.toNat]?, format.bytes.length ≤ formatBufferSize := by
  rw [HasRoom, compatible_none]
  constructor
  · exact fun h format hformat => h format hformat _ rfl
  · rintro h format hformat _ ⟨⟩
    exact h format hformat

/-- Where the loop starts: at the first format with a filter, and at the one with the index
without one. -/
theorem enumFormats_eq_next (filter : Option SpaFormat) (index : UInt32)
    (hcheck : this.checkPort direction portId = some (d, i)) :
    ∃ formats matched k, matched.toNat + k = index.toNat ∧
      (compatible filter formats)[k]? =
        (compatible filter (this.ports d i).formats.items)[index.toNat]? ∧
      (Fits filter index (this.ports d i).formats.items →
        ∀ format ∈ examined filter k formats,
          SpaPODBuilder.FormatFits filter formatBufferSize format) ∧
      enumFormats this direction portId filter index =
        ({ this with formatBuffer := (next filter index formats matched this.formatBuffer).1 },
          (next filter index formats matched this.formatBuffer).2) := by
  rw [enumFormats, SpaProxy.portEnumFormats, hcheck]
  cases filter with
  | none =>
    refine ⟨(this.ports d i).formats.items.drop index.toNat, index, 0, rfl, ?_, ?_, rfl⟩
    · rw [compatible_none, compatible_none, List.getElem?_drop]
      rfl
    · exact fun _ _ _ _ hφ => (Option.not_mem_none _ hφ).elim
  | some filter =>
    exact ⟨(this.ports d i).formats.items, 0, index.toNat, Nat.zero_add _, rfl,
      fun hfits => hfits.examined, rfl⟩

/-- What is returned is complete only when it has room. -/
theorem Lists.hasRoom (h : Lists this direction portId filter index formats) :
    HasRoom filter index formats := by
  intro format hformat bytes hbytes
  have hanswer := h.answer
  rw [Option.mem_def.mp hformat] at hanswer
  have hle := (hanswer.2 bytes hbytes).length_le
  rwa [SpaProxy.bufferBytes, Mem.length_read] at hle

end Call

/-! ## A port with one format -/

/-- A proxy with one port of one format. -/
def onePort (format : SpaFormat) : SpaProxy SpaFormat :=
  { (SpaProxy.empty ⟨fun _ => 0, 0⟩ : SpaProxy SpaFormat) with
    ports := fun _ _ =>
      { SpaProxyPort.empty with
        valid := true
        formats := ⟨[format], by show 1 < 2 ^ 32; decide⟩ } }

def ratePod (rate : Nat) : PropPod :=
  ⟨1, .int, ⟨3 ||| flagUnset, toLE 4 rate, [toLE 4 rate, toLE 4 48000]⟩⟩

theorem wellFormed_ratePod (rate : Nat) : (ratePod rate).WellFormed := by
  have hvalue : (ratePod rate).body.value.length = 4 := length_toLE 4 rate
  have hrange : SpaPropRange.of (3 ||| flagUnset) = .enum := by decide
  refine ⟨by omega, fun a ha => ?_, by show 2 < 2 ^ 31 - 1; decide, fun hminMax => ?_⟩
  · rw [hvalue]
    obtain rfl | ha := List.mem_cons.mp ha
    · exact hvalue
    · exact List.mem_singleton.mp ha ▸ length_toLE 4 48000
  · rw [PropBody.range, ratePod, hrange] at hminMax
    cases hminMax

/-- Raw audio at a rate or at 48000. -/
def rateFormat (rate : Nat) : SpaFormat where
  id := 0
  type := 0
  mediaType := 1
  mediaSubtype := 1
  contents := [.prop (ratePod rate)]
  props_wellFormed := fun p hp => List.mem_singleton.mp hp ▸ wellFormed_ratePod rate
  others_typed := by
    intro type body hother
    cases List.mem_singleton.mp hother
  small := by
    have hlength : (ratePod rate).bytes.length = 36 := rfl
    rw [List.flatMap_singleton, FormatPod.bytes, Pod.length_aligned, hlength]
    decide

/-- What a format at 44100 or 48000 has in common with one at 32000 or 48000. -/
theorem fits_rate : Fits (some (rateFormat 32000)) 0 [rateFormat 44100] := by
  have hformat : ∀ format ∈ (compatible (some (rateFormat 32000)) [rateFormat 44100])[0]?,
      format = rateFormat 44100 := by
    have hsublist := List.filter_sublist (l := [rateFormat 44100])
      (p := fun format => (format.filtered (some (rateFormat 32000))).isSome)
    exact fun format hformat => List.mem_singleton.mp
      (hsublist.subset (List.mem_of_getElem? hformat))
  have hnarrow : (ratePod 44100).body.narrow SpaPODType.int.compareValue (ratePod 32000).body =
      .ok (3 ||| flagUnset, [toLE 4 48000]) := by decide +kernel
  refine ⟨?_, fun format hget bytes hbytes => ?_, fun format hget => ?_⟩
  · rintro format hexamined φ ⟨⟩ - -
    obtain rfl := List.mem_singleton.mp (mem_of_mem_examined hexamined)
    refine (@SpaPODBuilder.valuesFit_cons_ok (ratePod 44100) (ratePod 32000) _ _ _ _ _ _ rfl rfl
      hnarrow).mpr ⟨by decide, ?_⟩
    show 48 + (Pod.aligned _).length + 8 ≤ 2 ^ 32
    rw [Pod.length_aligned, PropPod.length_narrowed]
    decide
  · rw [hformat format hget] at hbytes
    revert bytes
    decide +kernel
  · rw [hformat format hget]
    rintro φ ⟨⟩ p1 hp1 p2 hp2 -
    rw [List.mem_singleton.mp hp1,
      List.mem_singleton.mp (List.mem_of_find?_eq_some (Option.mem_def.mp hp2))]
    rfl

/-- A format with 1100 bytes behind the media types. -/
def longFormat : SpaFormat where
  id := 0
  type := 0
  mediaType := 1
  mediaSubtype := 1
  contents := [.other .bytes (List.replicate 1100 0)]
  props_wellFormed := fun p hp => by cases hp
  others_typed := by
    intro type body hother
    cases List.mem_singleton.mp hother
    decide
  small := by
    rw [List.flatMap_singleton, FormatPod.bytes, Pod.length_aligned, Pod.length_withHeader,
      List.length_replicate]
    decide

end ClientNode
end Pinos
