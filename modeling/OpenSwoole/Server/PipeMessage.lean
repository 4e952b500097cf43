import OpenSwoole.Core.OswString

/-!
# Datagrams of a worker pipe, and how the master sends a packet

The header `DataHead` of `include/openswoole.h` and `process_send_packet` of
`src/server/process.cc`.  A packet goes in one datagram when it fits in `ipc_max_size`, and in
chunks otherwise; on Linux a send that fails with `ENOBUFS` is tried again with smaller chunks.

* `DataHead`   the fields that sender and receiver use;
* `SendRes`   the result of one `_send`, with the `errno` the code looks at;
* `sendChunks`   the chunk loop, with the flags it keeps from one attempt to the next;
* `processSendPacket`   the value it returns and the datagrams the kernel has accepted.
-/

namespace OSW

/-- `msg_id`, `len` and the bits `OSW_EVENT_DATA_CHUNK`, `_BEGIN` and `_END` of `flags` -/
structure DataHead where
  msgId : Nat
  len : Nat
  isChunk : Bool
  isBegin : Bool
  isEnd : Bool

def dataHeadSize : Nat := 40
def ipcMaxSizeDefault : Nat := 8192
def ipcBufferSize : Nat := ipcMaxSizeDefault - dataHeadSize

structure Datagram where
  info : DataHead
  data : Bytes

/-- the result of `_send`: at least zero, or negative with `ENOBUFS` or with another `errno` -/
inductive SendRes where
  | ok
  | enobufs
  | failed
  deriving DecidableEq

/-- the loop `while (l_payload > 0)`; `data` is what is left of the payload, `i` the number of the next attempt
-/
def sendChunks (results : Nat → SendRes) :
    Nat → Nat → Nat → DataHead → Bytes → Option (Bool × List Datagram)
  | 0, _, _, _, _ => none
  | fuel + 1, i, maxLength, info, data =>
    if 0 < data.length then
      let last := decide (data.length ≤ maxLength)
      -- `flags |= OSW_EVENT_DATA_END` stays set when the send fails
      let info := { info with isEnd := info.isEnd || last }
      let copyN := if last then data.length else maxLength
      match results i with
      | .ok =>
        (sendChunks results fuel (i + 1) maxLength { info with isBegin := false }
          (data.drop copyN)).map fun r => (r.1, ⟨info, data.take copyN⟩ :: r.2)
      | .enobufs =>
        if bufferSizeStd < maxLength then sendChunks results fuel (i + 1) ipcBufferSize info data
        else some (false, [])
      | .failed => some (false, [])
    else some (true, [])

section
variable {results : Nat → SendRes} {i maxLength : Nat} {info : DataHead} {data : Bytes}

lemma sendChunks_nil (fuel : Nat) :
    sendChunks results (fuel + 1) i maxLength info [] = some (true, []) := rfl

lemma sendChunks_ok_more (fuel : Nat) (hr : results i = .ok) (h : maxLength < data.length) :
    sendChunks results (fuel + 1) i maxLength info data =
      (sendChunks results fuel (i + 1) maxLength { info with isBegin := false }
        (data.drop maxLength)).map fun r => (r.1, ⟨info, data.take maxLength⟩ :: r.2) := by
  have h' : ¬ data.length ≤ maxLength := by omega
  rw [sendChunks, if_pos (by omega), hr]
  simp only [h', decide_false, Bool.or_false, Bool.false_eq_true, if_false]

lemma sendChunks_ok_last (fuel : Nat) (hr : results i = .ok) (hpos : 0 < data.length)
    (h : data.length ≤ maxLength) :
    sendChunks results (fuel + 2) i maxLength info data =
      some (true, [⟨{ info with isEnd := true }, data⟩]) := by
  rw [sendChunks, if_pos hpos, hr]
  simp only [h, decide_true, Bool.or_true, if_true, List.drop_length, List.take_length,
    sendChunks_nil, Option.map_some]

lemma sendChunks_failed (fuel : Nat) (hr : results i = .failed) (hpos : 0 < data.length) :
    sendChunks results (fuel + 1) i maxLength info data = some (false, []) := by
  rw [sendChunks, if_pos hpos, hr]

lemma sendChunks_enobufs (fuel : Nat) (hr : results i = .enobufs) (hpos : 0 < data.length) :
    sendChunks results (fuel + 1) i maxLength info data = if bufferSizeStd < maxLength then
        sendChunks results fuel (i + 1) ipcBufferSize
          { info with isEnd := info.isEnd || decide (data.length ≤ maxLength) } data
      else some (false, []) := by
  rw [sendChunks, if_pos hpos, hr]

end

def chunkHead (msgId len : Nat) : DataHead := ⟨msgId, len, true, true, false⟩

/-- `process_send_packet` under Linux, with the `msg_id` it has drawn -/
def processSendPacket (ipcMax msgId : Nat) (results : Nat → SendRes) (data : Bytes) :
    Option (Bool × List Datagram) :=
  let maxLength := ipcMax - dataHeadSize
  let fuel := data.length + 3
  if data.length ≤ maxLength then
    match results 0 with
    | .ok => some (true, [⟨⟨msgId, data.length, false, false, false⟩, data⟩])
    | .enobufs => sendChunks results fuel 1 ipcBufferSize (chunkHead msgId data.length) data
    | .failed => some (false, [])
  else sendChunks results fuel 0 maxLength (chunkHead msgId data.length) data

end OSW
