import Shyper.Device.Virtio.State

/-! `device/virtio/iov.rs`: scatter-gather lists and the copies between them. -/

namespace Shyper.Device

open Lib

structure VirtioIovData where
  buf : UInt64
  len : UInt64
deriving DecidableEq, Inhabited

abbrev VirtioIov := List VirtioIovData

namespace VirtioIov

/-- Gathers the first `len` bytes at `addr`. -/
def copyTo (addr len size : UInt64) : VirtioIov → VirtioM Unit
  | [] => return
  | iovData :: rest => do
    let dst := addr + (len - size)
    if iovData.len ≥ size then memcpySafe dst iovData.buf size
    else
      memcpySafe dst iovData.buf iovData.len
      copyTo addr len (size - iovData.len) rest

def toBuf (iov : VirtioIov) (addr len : UInt64) : VirtioM Unit := copyTo addr len len iov

/-- Scatters `len` bytes from `addr`. -/
def copyFrom (addr len size : UInt64) : VirtioIov → VirtioM Unit
  | [] => return
  | iovData :: rest => do
    let src := addr + (len - size)
    if iovData.len ≥ size then memcpySafe iovData.buf src size
    else
      memcpySafe iovData.buf src iovData.len
      copyFrom addr len (size - iovData.len) rest

def fromBuf (iov : VirtioIov) (addr len : UInt64) : VirtioM Unit := copyFrom addr len len iov

/-- Address of the byte at an offset into the list. -/
def offsetAddr : UInt64 → VirtioIov → Option UInt64
  | _, [] => none
  | idx, iovData :: rest =>
    if iovData.len > idx then some (iovData.buf + idx) else offsetAddr (idx - iovData.len) rest

/-- Fourteen bytes from the offset on; the one-byte slice where the list is too short. -/
def getPtr (iov : VirtioIov) (size : UInt64) : VirtioM (List UInt8) := do
  match offsetAddr size iov with
  | none => return [0]
  | some addr =>
    if addr < 0x1000 then throw .panic
    else
      let memory := (← get).memory
      return (List.range 14).map fun offset => memory (addr + offset.toUInt64)

/-- An end of the copy: the buffer it stands in, the place in that buffer, the bytes left there. -/
structure Cursor where
  idx : Nat
  ptr : UInt64
  vlenRemain : UInt64

/-- Goes to the next buffer, or past the last one, where the place is kept. -/
def Cursor.next (cursor : Cursor) (iov : VirtioIov) : Cursor :=
  match iov[cursor.idx + 1]? with
  | some iovData => ⟨cursor.idx + 1, iovData.buf, iovData.len⟩
  | none => { cursor with idx := cursor.idx + 1 }

def Cursor.skip (cursor : Cursor) (written : UInt64) : Cursor :=
  { cursor with ptr := cursor.ptr + written, vlenRemain := cursor.vlenRemain - written }

/-- The `while remain > 0` loop of `write_through_iov`. -/
def writeLoop (source target : VirtioIov) : Nat → Cursor → Cursor → UInt64 → VirtioM UInt64
  | 0, _, _, _ => throw .running
  | steps + 1, src, dst, remain => do
    if remain = 0 ∨ dst.idx = target.length ∨ src.idx = source.length then return remain
    else if dst.vlenRemain > src.vlenRemain then
      let written := src.vlenRemain
      memcpySafe dst.ptr src.ptr written
      let dst := if src.idx + 1 < source.length then dst.skip written else dst
      writeLoop source target steps (src.next source) dst (remain - written)
    else
      let written := dst.vlenRemain
      memcpySafe dst.ptr src.ptr written
      let moved := if dst.idx + 1 < target.length then src.skip written else src
      -- a source buffer of length zero is stepped over here
      let src := if (source[src.idx]?.getD default).len = 0 then moved.next source else moved
      writeLoop source target steps src (dst.next target) (remain - written)

/-- Fills the buffers of `target`; the result is what could not be written. -/
def writeThroughIov (source target : VirtioIov) (remain : UInt64) (steps : Nat) : VirtioM UInt64 := do
  match target, source with
  | dst :: _, src :: _ => writeLoop source target steps ⟨0, src.buf, src.len⟩ ⟨0, dst.buf, dst.len⟩ remain
  | _, _ => throw .panic

end VirtioIov

end Shyper.Device
