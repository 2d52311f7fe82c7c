import Swarmlet.Lib.Json
import Swarmlet.Lib.JsString

/-!
# Frames of the stream multiplexer

One frame of the wire is a stream id in four bytes, the most significant first, a byte that says
whether the frame opens the stream, carries data or closes it, and a payload.

Ids are written modulo `2 ^ 32`, and `decodeFrame_encodeFrame` says exactly what is read back: a
sender that has not used up its ids is understood.
-/

namespace Swarmlet.Mux

open Js

abbrev Bytes := List UInt8

inductive Op
  | «open» | data | close
deriving DecidableEq

/-- `OP_OPEN`, `OP_DATA`, `OP_CLOSE`. -/
def Op.code : Op → UInt8
  | «open» => 1
  | data => 2
  | close => 3

def MAX_OPEN_STREAMS : ℕ := 1024
def MAX_PENDING_STREAM_BYTES : ℕ := 16 * 1024 * 1024
def MAX_PENDING_MUX_BYTES : ℕ := 64 * 1024 * 1024
def MAX_HEADER_BYTES : ℕ := 16 * 1024

def headerShape : Json → Bool
  | .obj members =>
    let name := Json.strThat fun s ↦ 0 < length s && length s ≤ 256
    let kind := Json.get members "kind"
    let is (k : String) := Json.strThat (· = k) kind
    Json.numThat (fun q ↦ q.isInt && 0 < q && q < 65536) (Json.get members "port") &&
      (is "http" || is "data" && name (Json.get members "from") ||
        is "relay" && name (Json.get members "from") && name (Json.get members "target"))
  | _ => false

def uint32 (n : ℕ) : Bytes :=
  [n / 2 ^ 24, n / 2 ^ 16, n / 2 ^ 8, n].map UInt8.ofNat

def getUint32 (a b c d : UInt8) : ℕ :=
  ((a.toNat * 2 ^ 8 + b.toNat) * 2 ^ 8 + c.toNat) * 2 ^ 8 + d.toNat

def encodeFrame (streamId : ℕ) (op : Op) (payload : Bytes) : Bytes :=
  uint32 streamId ++ op.code :: payload

structure Frame where
  streamId : ℕ
  op : Op
  payload : Bytes
deriving DecidableEq

def decodeFrame : Bytes → Except String Frame
  | a :: b :: c :: d :: op :: payload =>
    let streamId := getUint32 a b c d
    if op = 1 then .ok ⟨streamId, .open, payload⟩
    else if op = 2 then .ok ⟨streamId, .data, payload⟩
    else if op = 3 then .ok ⟨streamId, .close, payload⟩
    else .error s!"unknown op {op}"
  | buf => .error s!"frame too short ({buf.length})"

theorem getUint32_lt (a b c d : UInt8) : getUint32 a b c d < 2 ^ 32 := by
  have ha := a.toNat_lt
  have hb := b.toNat_lt
  have hc := c.toNat_lt
  have hd := d.toNat_lt
  unfold getUint32
  omega

/-- **What is read back** of a frame: ids are taken modulo `2 ^ 32`. -/
theorem decodeFrame_encodeFrame (streamId : ℕ) (op : Op) (payload : Bytes) :
    decodeFrame (encodeFrame streamId op payload) = .ok ⟨streamId % 2 ^ 32, op, payload⟩ := by
  have hid : getUint32 (UInt8.ofNat (streamId / 2 ^ 24)) (UInt8.ofNat (streamId / 2 ^ 16))
      (UInt8.ofNat (streamId / 2 ^ 8)) (UInt8.ofNat streamId) = streamId % 2 ^ 32 := by
    simp only [getUint32, UInt8.toNat_ofNat']
    omega
  simp only [encodeFrame, uint32, List.map_cons, List.map_nil, List.cons_append, List.nil_append,
    decodeFrame, hid]
  cases op <;> rfl

theorem streamId_lt {buf : Bytes} {f : Frame} (h : decodeFrame buf = .ok f) :
    f.streamId < 2 ^ 32 := by
  unfold decodeFrame at h
  split at h
  · dsimp only at h
    split_ifs at h <;> cases h <;> exact getUint32_lt _ _ _ _
  · cases h

end Swarmlet.Mux
