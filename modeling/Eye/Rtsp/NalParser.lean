import Eye.Core.CommonTypes

/-!
# Splitting an Annex-B byte stream into NAL units

`split_annex_b_nals` and what it calls. One pass notes where each start code ends and how long it
is; a second cuts the NAL units out between them. A NAL unit is classified by its own header.

Offsets are natural numbers: they never exceed the length, which fits 32 bits.
-/

namespace Eye

/-- `H264NalType` -/
inductive H264NalType
  | nonIdr | idr | sps | pps | other
  deriving DecidableEq, Repr

/-- `H265NalType` -/
inductive H265NalType
  | vps | sps | pps | idrWRadl | idrNLp | other
  deriving DecidableEq, Repr

/-- `ParsedNal` -/
structure ParsedNal where
  data : ByteVec
  timestamp : UInt64
  isIdr : Bool
  isVps : Bool
  isSps : Bool
  isPps : Bool
  deriving DecidableEq

/-- `parse_h264_nal_type` -/
def parseH264NalType : List UInt8 → H264NalType
  | [] => .other
  | b :: _ =>
    match (b &&& 0x1F).toNat with
    | 1 => .nonIdr
    | 5 => .idr
    | 7 => .sps
    | 8 => .pps
    | _ => .other

/-- `parse_h265_nal_type` -/
def parseH265NalType : List UInt8 → H265NalType
  | b :: _ :: _ =>
    match ((b >>> 1) &&& 0x3F).toNat with
    | 32 => .vps
    | 33 => .sps
    | 34 => .pps
    | 19 => .idrWRadl
    | 20 => .idrNLp
    | _ => .other
  | _ => .other

/-- `start_code_len`, of the bytes from `p` to `end` -/
def startCodeLen (p : List UInt8) : ℕ :=
  if 3 ≤ p.length ∧ p[0]? = some 0 ∧ p[1]? = some 0 ∧ p[2]? = some 1 then 3
  else if 4 ≤ p.length ∧ p[0]? = some 0 ∧ p[1]? = some 0 ∧ p[2]? = some 0 ∧ p[3]? = some 1 then 4
  else 0

/-- `classify_nal`; the flag of the frame is not looked at. -/
def classifyNal (nalData : List UInt8) (codec : CodecType) (_frameIsIdr : Bool)
    (out : ParsedNal) : ParsedNal :=
  let out := { out with isIdr := false, isVps := false, isSps := false, isPps := false }
  match codec with
  | .h264 =>
    match parseH264NalType nalData with
    | .idr => { out with isIdr := true }
    | .sps => { out with isSps := true }
    | .pps => { out with isPps := true }
    | _ => out
  | .h265 =>
    match parseH265NalType nalData with
    | .idrWRadl => { out with isIdr := true }
    | .idrNLp => { out with isIdr := true }
    | .vps => { out with isVps := true }
    | .sps => { out with isSps := true }
    | .pps => { out with isPps := true }
    | _ => out
  | .mjpeg => out

/-- An entry of `nal_offsets` with its entry of `nal_sc_lens`. -/
structure StartCode where
  offset : ℕ
  scLen : ℕ
  deriving DecidableEq, Repr

/-- The scan of `split_annex_b_nals` from index `i` on. -/
def scanStartCodes (data : List UInt8) (i : ℕ) : List StartCode :=
  if i < data.length then
    if 0 < startCodeLen (data.drop i) then
      ⟨i + startCodeLen (data.drop i), startCodeLen (data.drop i)⟩ ::
        scanStartCodes data (i + startCodeLen (data.drop i))
    else scanStartCodes data (i + 1)
  else []
termination_by data.length - i

/-- Where the NAL unit in front of the start codes `codes` ends. -/
def nalStop (len : ℕ) : List StartCode → ℕ
  | [] => len
  | c :: _ => c.offset - c.scLen

/-- The loop of `split_annex_b_nals` over the start codes: first and past-the-end index of each NAL
unit that is not empty. -/
def nalRanges (len : ℕ) : List StartCode → List (ℕ × ℕ)
  | [] => []
  | c :: codes =>
    if nalStop len codes ≤ c.offset then nalRanges len codes
    else (c.offset, nalStop len codes) :: nalRanges len codes

/-- A NAL unit as the splitter fills it in. -/
def newNal (data : ByteVec) (codec : CodecType) (timestamp : UInt64) (isIdr : Bool) : ParsedNal :=
  classifyNal data.bytes codec isIdr ⟨data, timestamp, false, false, false, false⟩

/-- `split_annex_b_nals` -/
def splitAnnexBNals (data : ByteVec) (codec : CodecType) (timestamp : UInt64) (isIdr : Bool)
    (out : List ParsedNal) : List ParsedNal :=
  if data.size = 0 then out
  else
    match scanStartCodes data.bytes 0 with
    | [] => out ++ [newNal (data.slice 0 data.size) codec timestamp isIdr]
    | codes =>
      out ++ (nalRanges data.size codes).map fun r =>
        newNal (data.slice r.1 r.2) codec timestamp isIdr

end Eye
