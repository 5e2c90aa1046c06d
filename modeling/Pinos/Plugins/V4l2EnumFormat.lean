import Pinos.Plugins.V4l2Filter
import Pinos.Spa.FormatFilter

/-
`spa_v4l2_enum_format` of `plugins/v4l2/v4l2-utils.c`: one format of a device with each call.

The device is open, and its calls fail with `EINVAL` only.  The buffer that a format is built in is
not modelled, nor is what the kernel fills in for a size or an interval that does not pass: it is
filled in again before it is read.
-/

namespace Pinos

/-! ## Formats -/

/-- The members of `Type` that formats are made of. -/
inductive V4l2TypeName where
  | formatType
  | video | image
  | raw
  | bayer | mjpg | jpeg | dv | mpegts | h264 | h263 | mpeg1 | mpeg2 | mpeg4 | xvid | vc1 | vp8
  | format | size | framerate
  | unknown | encoded
  | rgb15 | bgr15 | rgb16 | bgr | rgb | bgra | bgrx | argb | xrgb
  | gray8 | gray16LE | gray16BE
  | yvu9 | yv12 | yuy2 | yvyu | uyvy | y42b | y41b | yuv9 | i420
  | nv12 | nv12_64Z32 | nv21 | nv16 | nv61 | nv24
  deriving DecidableEq

/-- The ids that a type map has assigned. -/
structure V4l2Types where
  id : V4l2TypeName → UInt32
  distinct : Function.Injective id
  nonzero : ∀ name, id name ≠ 0

structure FormatInfo where
  fourcc : UInt32
  format : V4l2TypeName
  mediaType : V4l2TypeName
  mediaSubtype : V4l2TypeName

def v4l2Fourcc (a b c d : Char) : UInt32 :=
  a.val ||| b.val <<< 8 ||| c.val <<< 16 ||| d.val <<< 24

def v4l2FourccBE (a b c d : Char) : UInt32 := v4l2Fourcc a b c d ||| 0x80000000

/-- `format_info`. -/
def formatInfos : List FormatInfo :=
  [⟨v4l2Fourcc 'R' 'G' 'B' '1', .unknown, .video, .raw⟩,
    ⟨v4l2Fourcc 'A' 'R' '1' '5', .unknown, .video, .raw⟩,
    ⟨v4l2Fourcc 'X' 'R' '1' '5', .rgb15, .video, .raw⟩,
    ⟨v4l2FourccBE 'A' 'R' '1' '5', .unknown, .video, .raw⟩,
    ⟨v4l2FourccBE 'X' 'R' '1' '5', .bgr15, .video, .raw⟩,
    ⟨v4l2Fourcc 'R' 'G' 'B' 'P', .rgb16, .video, .raw⟩,
    ⟨v4l2Fourcc 'R' 'G' 'B' 'R', .unknown, .video, .raw⟩,
    ⟨v4l2Fourcc 'B' 'G' 'R' 'H', .unknown, .video, .raw⟩,
    ⟨v4l2Fourcc 'B' 'G' 'R' '3', .bgr, .video, .raw⟩,
    ⟨v4l2Fourcc 'R' 'G' 'B' '3', .rgb, .video, .raw⟩,
    ⟨v4l2Fourcc 'A' 'R' '2' '4', .bgra, .video, .raw⟩,
    ⟨v4l2Fourcc 'X' 'R' '2' '4', .bgrx, .video, .raw⟩,
    ⟨v4l2Fourcc 'B' 'A' '2' '4', .argb, .video, .raw⟩,
    ⟨v4l2Fourcc 'B' 'X' '2' '4', .xrgb, .video, .raw⟩,
    ⟨v4l2Fourcc 'R' '4' '4' '4', .unknown, .video, .raw⟩,
    ⟨v4l2Fourcc 'R' 'G' 'B' 'O', .rgb15, .video, .raw⟩,
    ⟨v4l2Fourcc 'R' 'G' 'B' 'Q', .bgr15, .video, .raw⟩,
    ⟨v4l2Fourcc 'B' 'G' 'R' '4', .bgrx, .video, .raw⟩,
    ⟨v4l2Fourcc 'R' 'G' 'B' '4', .xrgb, .video, .raw⟩,
    ⟨v4l2Fourcc 'G' 'R' 'E' 'Y', .gray8, .video, .raw⟩,
    ⟨v4l2Fourcc 'Y' '0' '4' ' ', .unknown, .video, .raw⟩,
    ⟨v4l2Fourcc 'Y' '0' '6' ' ', .unknown, .video, .raw⟩,
    ⟨v4l2Fourcc 'Y' '1' '0' ' ', .unknown, .video, .raw⟩,
    ⟨v4l2Fourcc 'Y' '1' '2' ' ', .unknown, .video, .raw⟩,
    ⟨v4l2Fourcc 'Y' '1' '6' ' ', .gray16LE, .video, .raw⟩,
    ⟨v4l2FourccBE 'Y' '1' '6' ' ', .gray16BE, .video, .raw⟩,
    ⟨v4l2Fourcc 'Y' '1' '0' 'B', .unknown, .video, .raw⟩,
    ⟨v4l2Fourcc 'P' 'A' 'L' '8', .unknown, .video, .raw⟩,
    ⟨v4l2Fourcc 'U' 'V' '8' ' ', .unknown, .video, .raw⟩,
    ⟨v4l2Fourcc 'Y' 'V' 'U' '9', .yvu9, .video, .raw⟩,
    ⟨v4l2Fourcc 'Y' 'V' '1' '2', .yv12, .video, .raw⟩,
    ⟨v4l2Fourcc 'Y' 'M' '2' '1', .unknown, .video, .raw⟩,
    ⟨v4l2Fourcc 'Y' 'U' 'Y' 'V', .yuy2, .video, .raw⟩,
    ⟨v4l2Fourcc 'Y' 'Y' 'U' 'V', .unknown, .video, .raw⟩,
    ⟨v4l2Fourcc 'Y' 'V' 'Y' 'U', .yvyu, .video, .raw⟩,
    ⟨v4l2Fourcc 'U' 'Y' 'V' 'Y', .uyvy, .video, .raw⟩,
    ⟨v4l2Fourcc 'V' 'Y' 'U' 'Y', .unknown, .video, .raw⟩,
    ⟨v4l2Fourcc '4' '2' '2' 'P', .y42b, .video, .raw⟩,
    ⟨v4l2Fourcc '4' '1' '1' 'P', .y41b, .video, .raw⟩,
    ⟨v4l2Fourcc 'Y' '4' '1' 'P', .unknown, .video, .raw⟩,
    ⟨v4l2Fourcc 'Y' '4' '4' '4', .unknown, .video, .raw⟩,
    ⟨v4l2Fourcc 'Y' 'U' 'V' 'O', .unknown, .video, .raw⟩,
    ⟨v4l2Fourcc 'Y' 'U' 'V' 'P', .unknown, .video, .raw⟩,
    ⟨v4l2Fourcc 'Y' 'U' 'V' '4', .unknown, .video, .raw⟩,
    ⟨v4l2Fourcc 'Y' 'U' 'V' '9', .yuv9, .video, .raw⟩,
    ⟨v4l2Fourcc 'Y' 'U' '1' '2', .i420, .video, .raw⟩,
    ⟨v4l2Fourcc 'Y' 'M' '1' '2', .i420, .video, .raw⟩,
    ⟨v4l2Fourcc 'H' 'I' '2' '4', .unknown, .video, .raw⟩,
    ⟨v4l2Fourcc 'H' 'M' '1' '2', .unknown, .video, .raw⟩,
    ⟨v4l2Fourcc 'M' '4' '2' '0', .unknown, .video, .raw⟩,
    ⟨v4l2Fourcc 'N' 'V' '1' '2', .nv12, .video, .raw⟩,
    ⟨v4l2Fourcc 'N' 'M' '1' '2', .nv12, .video, .raw⟩,
    ⟨v4l2Fourcc 'T' 'M' '1' '2', .nv12_64Z32, .video, .raw⟩,
    ⟨v4l2Fourcc 'V' 'M' '1' '2', .unknown, .video, .raw⟩,
    ⟨v4l2Fourcc 'N' 'V' '2' '1', .nv21, .video, .raw⟩,
    ⟨v4l2Fourcc 'N' 'M' '2' '1', .nv21, .video, .raw⟩,
    ⟨v4l2Fourcc 'N' 'V' '1' '6', .nv16, .video, .raw⟩,
    ⟨v4l2Fourcc 'N' 'M' '1' '6', .nv16, .video, .raw⟩,
    ⟨v4l2Fourcc 'N' 'V' '6' '1', .nv61, .video, .raw⟩,
    ⟨v4l2Fourcc 'N' 'M' '6' '1', .nv61, .video, .raw⟩,
    ⟨v4l2Fourcc 'N' 'V' '2' '4', .nv24, .video, .raw⟩,
    ⟨v4l2Fourcc 'N' 'V' '4' '2', .unknown, .video, .raw⟩,
    ⟨v4l2Fourcc 'B' 'A' '8' '1', .unknown, .video, .bayer⟩,
    ⟨v4l2Fourcc 'G' 'B' 'R' 'G', .unknown, .video, .bayer⟩,
    ⟨v4l2Fourcc 'G' 'R' 'B' 'G', .unknown, .video, .bayer⟩,
    ⟨v4l2Fourcc 'R' 'G' 'G' 'B', .unknown, .video, .bayer⟩,
    ⟨v4l2Fourcc 'M' 'J' 'P' 'G', .encoded, .video, .mjpg⟩,
    ⟨v4l2Fourcc 'J' 'P' 'E' 'G', .encoded, .image, .jpeg⟩,
    ⟨v4l2Fourcc 'P' 'J' 'P' 'G', .unknown, .video, .raw⟩,
    ⟨v4l2Fourcc 'd' 'v' 's' 'd', .encoded, .video, .dv⟩,
    ⟨v4l2Fourcc 'M' 'P' 'E' 'G', .encoded, .video, .mpegts⟩,
    ⟨v4l2Fourcc 'H' '2' '6' '4', .encoded, .video, .h264⟩,
    ⟨v4l2Fourcc 'A' 'V' 'C' '1', .encoded, .video, .h264⟩,
    ⟨v4l2Fourcc 'M' '2' '6' '4', .encoded, .video, .h264⟩,
    ⟨v4l2Fourcc 'H' '2' '6' '3', .encoded, .video, .h263⟩,
    ⟨v4l2Fourcc 'M' 'P' 'G' '1', .encoded, .video, .mpeg1⟩,
    ⟨v4l2Fourcc 'M' 'P' 'G' '2', .encoded, .video, .mpeg2⟩,
    ⟨v4l2Fourcc 'M' 'P' 'G' '4', .encoded, .video, .mpeg4⟩,
    ⟨v4l2Fourcc 'X' 'V' 'I' 'D', .encoded, .video, .xvid⟩,
    ⟨v4l2Fourcc 'V' 'C' '1' 'G', .encoded, .video, .vc1⟩,
    ⟨v4l2Fourcc 'V' 'C' '1' 'L', .encoded, .video, .vc1⟩,
    ⟨v4l2Fourcc 'V' 'P' '8' '0', .encoded, .video, .vp8⟩,
    ⟨v4l2Fourcc 'W' 'N' 'V' 'A', .unknown, .video, .raw⟩,
    ⟨v4l2Fourcc 'S' '9' '1' '0', .unknown, .video, .raw⟩,
    ⟨v4l2Fourcc 'P' 'W' 'C' '1', .unknown, .video, .raw⟩,
    ⟨v4l2Fourcc 'P' 'W' 'C' '2', .unknown, .video, .raw⟩]
def fourccToFormatInfo (fourcc : UInt32) : Option FormatInfo :=
  formatInfos.find? fun info => info.fourcc = fourcc

def findFormatInfoByMediaType (types : V4l2Types) (type subtype format : UInt32) (startidx : Nat) :
    Option FormatInfo :=
  (formatInfos.drop startidx).find? fun info =>
    types.id info.mediaType = type ∧ types.id info.mediaSubtype = subtype ∧
      (format = 0 ∨ types.id info.format = format)

/-! ## Filters -/

namespace PropPod

variable (p : PropPod)

/-- What `SPA_POD_BODY_CONST` of the value points to: the default and the alternatives. -/
def contents : List UInt8 := p.body.value ++ p.body.alternatives.flatten

/-- `SPA_POD_PROP_N_VALUES`. -/
def nValues : Nat := p.body.alternatives.length + 1

def idAt (i : Nat) : UInt32 := wordAt p.contents (4 * i)

def rectangleAt (i : Nat) : SpaRectangle :=
  { width := wordAt p.contents (8 * i), height := wordAt p.contents (8 * i + 4) }

def fractionAt (i : Nat) : FilterFraction :=
  { num := wordAt p.contents (8 * i), denom := wordAt p.contents (8 * i + 4) }

section
variable {α β : Type} (filter : α → β → β → β → α × Bool) (value : Nat → β) (one : β)

/-- The loop over the alternatives of an enumeration. -/
def filterEach (entry : α) : List Nat → α × Bool
  | [] => (entry, false)
  | i :: rest =>
    let (entry, passes) := filter entry (value i) (value i) one
    if passes then (entry, true) else filterEach entry rest

/-- How an entry is filtered by the alternatives of a property, whatever their kind is. -/
def filterRange (entry : α) : α × Bool :=
  match p.body.range with
  | .minMax => if 2 < p.nValues then filter entry (value 1) (value 2) one else (entry, false)
  | .step => if 3 < p.nValues then filter entry (value 1) (value 2) (value 3) else (entry, false)
  | .enum => filterEach filter value one entry (List.range' 1 (p.nValues - 1))
  | _ => (entry, false)

end

def filterSize : V4l2Frmsize → V4l2Frmsize × Bool :=
  p.filterRange filterFramesize p.rectangleAt { width := 1, height := 1 }

/-- Unlike a size, an interval is compared with a fixed value as well. -/
def filterRate (frmival : V4l2Frmival) : V4l2Frmival × Bool :=
  let one : FilterFraction := { num := 1, denom := 1 }
  if p.body.unset then p.filterRange filterFramerate p.fractionAt one frmival
  else filterFramerate frmival (p.fractionAt 0) (p.fractionAt 0) one

end PropPod

def enumFilterFormat (types : V4l2Types) (filter : SpaFormat) (index : UInt32) : UInt32 :=
  if filter.mediaType = types.id .video ∨ filter.mediaType = types.id .image then
    if filter.mediaSubtype = types.id .raw then
      match PropPod.findProp filter.props (types.id .format) with
      | none => types.id .unknown
      | some p =>
        if p.type ≠ .id then types.id .unknown
        else if p.body.unset then
          if (index + 1).toNat < p.nValues then p.idAt (index + 1).toNat else 0
        else if index = 0 then p.idAt 0
        else 0
    else if index = 0 then types.id .encoded
    else 0
  else 0

/-! ## Devices -/

def V4l2Frmsize.Known : V4l2Frmsize → Prop
  | unknown _ => False
  | _ => True

def V4l2Frmival.Known : V4l2Frmival → Prop
  | unknown _ => False
  | _ => True

/-- What a device reports at the indices from 0 on; all ioctls behind the last one fail. -/
structure V4l2Device where
  formats : List UInt32
  framesizes : UInt32 → List V4l2Frmsize
  frameintervals : UInt32 → UInt32 → UInt32 → List V4l2Frmival
  few_formats : formats.length < 2 ^ 32
  few_framesizes : ∀ pixelFormat, (framesizes pixelFormat).length < 2 ^ 32
  few_frameintervals : ∀ pixelFormat width height,
    (frameintervals pixelFormat width height).length < 2 ^ 32
  framesizes_known : ∀ pixelFormat, ∀ frmsize ∈ framesizes pixelFormat, frmsize.Known
  frameintervals_known : ∀ pixelFormat width height,
    ∀ frmival ∈ frameintervals pixelFormat width height, frmival.Known

/-- What one of the loops finds at an index. -/
inductive V4l2Entry (α : Type) where
  /-- There is no entry any more. -/
  | past
  /-- The call returns `SPA_RESULT_ENUM_END`. -/
  | enumEnd
  /-- There is an entry, which does not pass the filter. -/
  | skipped
  | found (entry : α)
  deriving DecidableEq

/-- The device and the filter that all calls are made with. -/
structure V4l2Enum where
  types : V4l2Types
  filter : Option SpaFormat
  device : V4l2Device

namespace V4l2Enum

variable (enum : V4l2Enum)

/-- `spa_format_find_prop` of the filter, if there is one. -/
def findProp (key : V4l2TypeName) : Option PropPod :=
  enum.filter.bind fun filter => PropPod.findProp filter.props (enum.types.id key)

/-- The body of the first loop. -/
def fmtdescAt (index : UInt32) : V4l2Entry UInt32 :=
  match enum.filter with
  | some filter =>
    let videoFormat := enumFilterFormat enum.types filter index
    if videoFormat = enum.types.id .unknown then .enumEnd
    else
      match findFormatInfoByMediaType enum.types filter.mediaType filter.mediaSubtype
        videoFormat 0 with
      | none => .skipped
      | some info => .found info.fourcc
  | none =>
    match enum.device.formats[index.toNat]? with
    | none => .enumEnd
    | some pixelformat => .found pixelformat

/-- The body of the second loop, up to `have_size`. -/
def frmsizeAt (pixelFormat index : UInt32) : V4l2Entry V4l2Frmsize :=
  match enum.findProp .size with
  | none =>
    match (enum.device.framesizes pixelFormat)[index.toNat]? with
    | none => .past
    | some frmsize => .found frmsize
  | some p =>
    if p.type ≠ .rectangle then .enumEnd
    else if p.body.unset then
      match (enum.device.framesizes pixelFormat)[index.toNat]? with
      | none => .past
      | some frmsize =>
        let (frmsize, passes) := p.filterSize frmsize
        if passes then .found frmsize else .skipped
    else if 0 < index then .past
    else .found (.discrete (p.rectangleAt 0).width (p.rectangleAt 0).height)

/-- The body of the third loop, up to `have_framerate`. -/
def frmivalAt (pixelFormat width height index : UInt32) : V4l2Entry V4l2Frmival :=
  match (enum.device.frameintervals pixelFormat width height)[index.toNat]? with
  | none => .past
  | some frmival =>
    match enum.findProp .framerate with
    | none => .found frmival
    | some p =>
      if p.type ≠ .fraction then .enumEnd
      else
        let (frmival, passes) := p.filterRate frmival
        if passes then .found frmival else .skipped

end V4l2Enum

/-! ## Calls -/

/-- The framerate of a format as it is built. -/
structure V4l2Framerate where
  flags : UInt32
  values : List FilterFraction
  nFractions : Nat

namespace V4l2Framerate

def start : V4l2Framerate := { flags := flagUnset, values := [], nFractions := 0 }

/-- `SPA_POD_PROP_RANGE_ENUM`, with the first interval as the default too. -/
def addDiscrete (framerate : V4l2Framerate) (interval : V4l2Fract) : V4l2Framerate :=
  let rate : FilterFraction := { num := interval.denominator, denom := interval.numerator }
  { flags := framerate.flags ||| 3
    values := framerate.values ++ (if framerate.nFractions = 0 then [rate] else []) ++ [rate]
    nFractions := framerate.nFractions + 1 }

/-- `SPA_POD_PROP_RANGE_MIN_MAX`, or `SPA_POD_PROP_RANGE_STEP` with a step. -/
def addRange (framerate : V4l2Framerate) (intervals : V4l2FrmivalStepwise) (step : Bool) :
    V4l2Framerate :=
  let rate (f : V4l2Fract) : FilterFraction := { num := f.denominator, denom := f.numerator }
  { framerate with
    flags := framerate.flags ||| if step then 2 else 1
    values := framerate.values ++
      (if framerate.nFractions = 0 then [{ num := 25, denom := 1 }] else []) ++
      [rate intervals.min, rate intervals.max] ++ if step then [rate intervals.step] else [] }

/-- A single interval is a fixed value. -/
def finish (framerate : V4l2Framerate) : V4l2Framerate :=
  if framerate.nFractions ≤ 1 then
    { framerate with flags := framerate.flags &&& ~~~(0xF ||| flagUnset) }
  else framerate

end V4l2Framerate

/-- A format that is returned. -/
structure V4l2Format where
  type : UInt32
  mediaType : UInt32
  mediaSubtype : UInt32
  format : Option UInt32
  size : SpaRectangle
  framerate : V4l2Framerate

namespace V4l2Frmsize

/-- The size that the intervals are asked for. -/
def sensible : V4l2Frmsize → Option SpaRectangle
  | discrete width height => some { width, height }
  | continuous sizes | stepwise sizes => some { width := sizes.minWidth, height := sizes.minHeight }
  | unknown _ => none

/-- The member `discrete` of the union, whose height is where a range has its `max_width`. -/
def asDiscrete : V4l2Frmsize → SpaRectangle
  | discrete width height => { width, height }
  | continuous sizes | stepwise sizes => { width := sizes.minWidth, height := sizes.maxWidth }
  | unknown _ => { width := 0, height := 0 }

end V4l2Frmsize

/-- What a `SpaV4l2State` keeps from one call to the next. -/
structure SpaV4l2State where
  nextFmtdesc : Bool
  fmtdescIndex : UInt32
  pixelformat : UInt32
  nextFrmsize : Bool
  frmsizeIndex : UInt32
  frmsizePixelFormat : UInt32
  frmsize : V4l2Frmsize
  frmivalIndex : UInt32
  frmivalPixelFormat : UInt32
  frmivalWidth : UInt32
  frmivalHeight : UInt32

namespace SpaV4l2State

/-- Before the first call. -/
def cleared : SpaV4l2State where
  nextFmtdesc := true
  fmtdescIndex := 0
  pixelformat := 0
  nextFrmsize := true
  frmsizeIndex := 0
  frmsizePixelFormat := 0
  frmsize := .unknown 0
  frmivalIndex := 0
  frmivalPixelFormat := 0
  frmivalWidth := 0
  frmivalHeight := 0

def haveFmtdesc (state : SpaV4l2State) (pixelformat : UInt32) : SpaV4l2State :=
  { state with
    pixelformat
    nextFmtdesc := false
    frmsizeIndex := 0
    frmsizePixelFormat := pixelformat
    nextFrmsize := true }

def haveSize (state : SpaV4l2State) (frmsize : V4l2Frmsize) : SpaV4l2State :=
  match frmsize.sensible with
  | some size =>
    { state with
      frmsize
      frmivalIndex := 0
      frmivalPixelFormat := state.frmsizePixelFormat
      frmivalWidth := size.width
      frmivalHeight := size.height
      nextFrmsize := false }
  | none => { state with frmsize, frmsizeIndex := state.frmsizeIndex + 1 }

end SpaV4l2State

/-- Where a call is, with its local variables. -/
inductive V4l2Label where
  /-- The first loop. -/
  | fmtdesc
  | nextFmtdesc
  /-- The second loop. -/
  | frmsize (info : FormatInfo)
  /-- Behind both of them. -/
  | build (info : FormatInfo)
  /-- The third loop. -/
  | frmival (info : FormatInfo) (framerate : V4l2Framerate)

inductive V4l2Turn where
  | goto (label : V4l2Label) (state : SpaV4l2State)
  | ret (res : SpaResult) (format : Option V4l2Format) (state : SpaV4l2State)

namespace V4l2Enum

variable (enum : V4l2Enum)

def format (info : FormatInfo) (state : SpaV4l2State) (framerate : V4l2Framerate) : V4l2Format where
  type := enum.types.id .formatType
  mediaType := enum.types.id info.mediaType
  mediaSubtype := enum.types.id info.mediaSubtype
  format :=
    if enum.types.id info.mediaSubtype = enum.types.id .raw then some (enum.types.id info.format)
    else none
  size := state.frmsize.asDiscrete
  framerate := framerate.finish

/-- What is done at a label. -/
def turn : V4l2Label → SpaV4l2State → V4l2Turn
  | .fmtdesc, state =>
    if state.nextFmtdesc then
      match enum.fmtdescAt state.fmtdescIndex with
      | .enumEnd | .past => .ret .enumEnd none state
      | .skipped => .goto .nextFmtdesc state
      | .found pixelformat => .goto .fmtdesc (state.haveFmtdesc pixelformat)
    else
      match fourccToFormatInfo state.pixelformat with
      | none => .goto .nextFmtdesc state
      | some info => .goto (.frmsize info) state
  | .nextFmtdesc, state =>
    .goto .fmtdesc { state with fmtdescIndex := state.fmtdescIndex + 1, nextFmtdesc := true }
  | .frmsize info, state =>
    if state.nextFrmsize then
      match enum.frmsizeAt state.frmsizePixelFormat state.frmsizeIndex with
      | .enumEnd => .ret .enumEnd none state
      | .past => .goto .nextFmtdesc state
      | .skipped => .goto (.frmsize info) { state with frmsizeIndex := state.frmsizeIndex + 1 }
      | .found frmsize => .goto (.frmsize info) (state.haveSize frmsize)
    else .goto (.build info) state
  | .build info, state => .goto (.frmival info .start) { state with frmivalIndex := 0 }
  | .frmival info framerate, state =>
    match enum.frmivalAt state.frmivalPixelFormat state.frmivalWidth state.frmivalHeight
      state.frmivalIndex with
    | .enumEnd => .ret .enumEnd none state
    | .past =>
      let next := { state with frmsizeIndex := state.frmsizeIndex + 1, nextFrmsize := true }
      if state.frmivalIndex = 0 then .goto (.frmsize info) next
      else .ret .ok (some (enum.format info state framerate)) next
    | .skipped =>
      .goto (.frmival info framerate) { state with frmivalIndex := state.frmivalIndex + 1 }
    | .found (.discrete interval) =>
      .goto (.frmival info (framerate.addDiscrete interval))
        { state with frmivalIndex := state.frmivalIndex + 1 }
    | .found (.continuous intervals) =>
      .ret .ok (some (enum.format info state (framerate.addRange intervals false))) state
    | .found (.stepwise intervals) =>
      .ret .ok (some (enum.format info state (framerate.addRange intervals true))) state
    | .found (.unknown _) =>
      .goto (.frmival info { framerate with nFractions := framerate.nFractions + 1 }) state

def run : Nat → V4l2Label → SpaV4l2State → Option (SpaResult × Option V4l2Format × SpaV4l2State)
  | 0, _, _ => none
  | fuel + 1, label, state =>
    match enum.turn label state with
    | .goto label state => run fuel label state
    | .ret res format state => some (res, format, state)

/-- `spa_v4l2_enum_format`, which returns if it does within some number of turns. -/
def enumFormat (fuel : Nat) (index : UInt32) (state : SpaV4l2State) :
    Option (SpaResult × Option V4l2Format × SpaV4l2State) :=
  enum.run fuel .fmtdesc (if index = 0 then .cleared else state)

/-- The call with some index returns, and so do those with the next indices, the last one of them
with `SPA_RESULT_ENUM_END`. -/
inductive Enumerates : UInt32 → SpaV4l2State → Prop
  | enumEnd {fuel : Nat} {index : UInt32} {state next : SpaV4l2State}
    (h : enum.enumFormat fuel index state = some (.enumEnd, none, next)) : Enumerates index state
  | ok {fuel : Nat} {index : UInt32} {state next : SpaV4l2State} {format : V4l2Format}
    (h : enum.enumFormat fuel index state = some (.ok, some format, next))
    (hindex : index + 1 ≠ 0) (rest : Enumerates (index + 1) next) : Enumerates index state

end V4l2Enum
end Pinos
