import Shyper.Device.Virtio.IovCopy

/-! What `to_buf` and `from_buf` of a scatter-gather list do to memory, and what the control queue of a net
device does with them. -/

namespace Shyper.Device

open Lib

/-- A call of `memcpy_safe`. -/
structure Move where
  s1 : UInt64
  s2 : UInt64
  n : UInt64

namespace Move

def places (move : Move) : List UInt64 := block move.s1 move.n.toNat

def origins (move : Move) : List UInt64 := block move.s2 move.n.toNat

/-- The same bytes the other way. -/
def flip (move : Move) : Move := ⟨move.s2, move.s1, move.n⟩

/-- `memcpy_safe` takes the addresses. -/
def Allowed (move : Move) : Prop := 0x1000 ≤ move.s1 ∧ 0x1000 ≤ move.s2

@[simp] theorem places_flip (move : Move) : move.flip.places = move.origins := rfl

@[simp] theorem origins_flip (move : Move) : move.flip.origins = move.places := rfl

theorem Allowed.flip {move : Move} (allowed : move.Allowed) : move.flip.Allowed := ⟨allowed.2, allowed.1⟩

end Move

/-- The calls one after another. -/
def moveAll : List Move → VirtioM Unit
  | [] => return
  | move :: rest => do
    memcpySafe move.s1 move.s2 move.n
    moveAll rest

section Moves

variable {moves : List Move} {state : VirtioState}

theorem moveAll_copies (allowed : ∀ move ∈ moves, move.Allowed) :
    ∃ memory, moveAll moves state = .ok () { state with memory := memory } ∧
      Copies (moves.flatMap Move.places) (moves.flatMap Move.origins) state.memory memory := by
  induction moves generalizing state with
  | nil => exact ⟨state.memory, rfl, fun _ _ => .nil _⟩
  | cons move rest ih =>
    obtain ⟨first, later⟩ := List.forall_mem_cons.mp allowed
    let middle := memcpy state.memory move.s1 move.s2 move.n
    obtain ⟨memory, ran, copies⟩ := @ih { state with memory := middle } later
    have one : Copies move.places move.origins state.memory middle :=
      fun _ _ => copied_memcpy state.memory move.s1 move.s2 move.n
    refine ⟨memory, ?_, one.append copies⟩
    rw [moveAll, bind_ok (memcpySafe_ok first)]
    exact ran

end Moves

namespace VirtioIov

/-- What `to_buf` has left to move when `size` bytes of `len` are left. -/
def pieces (addr len size : UInt64) : VirtioIov → List Move
  | [] => []
  | iovData :: rest =>
    if iovData.len ≥ size then [⟨addr + (len - size), iovData.buf, size⟩]
    else ⟨addr + (len - size), iovData.buf, iovData.len⟩ :: pieces addr len (size - iovData.len) rest

/-- `memcpy_safe` takes the buffers that a copy comes to: the first one, and those behind fewer bytes than
there are to copy. -/
def Taken (iov : VirtioIov) (len : UInt64) : Prop :=
  ∀ idx iovData, iov[idx]? = some iovData → idx = 0 ∨ Traced.bytes (iov.take idx) < len.toNat → 0x1000 ≤ iovData.buf

/-- The other end of a copy: off the page that `memcpy_safe` refuses, in the address space, and apart from
the buffers. -/
structure Clear (iov : VirtioIov) (addr len : UInt64) : Prop where
  high : 0x1000 ≤ addr
  inside : addr.toNat + len.toNat ≤ 2 ^ 64
  apart : ∀ iovData ∈ iov, iovData.Apart ⟨addr, len⟩

variable {iov : VirtioIov} {addr len size back : UInt64} {state : VirtioState}

section Pieces

theorem copyTo_eq : copyTo addr len size iov = moveAll (pieces addr len size iov) := by
  induction iov generalizing size with
  | nil => rfl
  | cons iovData rest ih =>
    rw [copyTo, pieces]
    by_cases last : iovData.len ≥ size
    · rw [if_pos last, if_pos last]
      exact (bind_pure _).symm
    · rw [if_neg last, if_neg last, ih]
      rfl

/-- `from_buf` is the mirror image. -/
theorem copyFrom_eq : copyFrom addr len size iov = moveAll ((pieces addr len size iov).map Move.flip) := by
  induction iov generalizing size with
  | nil => rfl
  | cons iovData rest ih =>
    rw [copyFrom, pieces]
    by_cases last : iovData.len ≥ size
    · rw [if_pos last, if_pos last]
      exact (bind_pure _).symm
    · rw [if_neg last, if_neg last, ih]
      rfl

theorem origins_pieces : (pieces addr len size iov).flatMap Move.origins = (addrs iov).take size.toNat := by
  induction iov generalizing size with
  | nil => rw [addrs_nil, List.take_nil, pieces, List.flatMap_nil]
  | cons iovData rest ih =>
    rw [pieces, addrs_cons, List.take_append, VirtioIovData.addrs, length_block]
    by_cases last : iovData.len ≥ size
    · have last' := UInt64.le_iff_toNat_le.mp last
      rw [if_pos last, List.flatMap_singleton, Nat.sub_eq_zero_of_le last', List.take_zero, List.append_nil, Move.origins,
        take_block last']
    · have more := UInt64.le_of_lt (UInt64.not_le.mp last)
      have more' := UInt64.le_iff_toNat_le.mp more
      have all : (block iovData.buf iovData.len.toNat).take size.toNat = block iovData.buf iovData.len.toNat :=
        List.take_of_length_le (by rw [length_block]; exact more')
      rw [if_neg last, List.flatMap_cons, ih, all, UInt64.toNat_sub_of_le _ _ more]
      rfl

theorem places_pieces (fits : size ≤ len) : (pieces addr len size iov).flatMap Move.places =
    block (addr + (len - size)) (min size.toNat (Traced.bytes iov)) := by
  induction iov generalizing size with
  | nil =>
    rw [Traced.bytes, List.map_nil, List.sum_nil, Nat.min_zero]
    rfl
  | cons iovData rest ih =>
    have total : Traced.bytes (iovData :: rest) = iovData.len.toNat + Traced.bytes rest := by
      rw [Traced.bytes, List.map_cons, List.sum_cons]
      rfl
    rw [pieces, total]
    by_cases last : iovData.len ≥ size
    · have last' := UInt64.le_iff_toNat_le.mp last
      rw [if_pos last, List.flatMap_singleton, Nat.min_eq_left (by omega)]
      rfl
    · have more := UInt64.le_of_lt (UInt64.not_le.mp last)
      have left := UInt64.toNat_sub_of_le _ _ more
      have more' := UInt64.le_iff_toNat_le.mp more
      have next : addr + (len - (size - iovData.len)) = addr + (len - size) + iovData.len.toNat.toUInt64 := by
        rw [Nat.toUInt64_eq, UInt64.ofNat_toNat, UInt64.sub_eq_add_neg len, UInt64.neg_sub, UInt64.sub_eq_add_neg,
          UInt64.sub_eq_add_neg]
        ac_rfl
      have count : min size.toNat (iovData.len.toNat + Traced.bytes rest) =
          iovData.len.toNat + min (size.toNat - iovData.len.toNat) (Traced.bytes rest) := by omega
      rw [if_neg last, List.flatMap_cons, ih (UInt64.le_trans (UInt64.sub_le more) fits), next, left, count, block_add]
      rfl

/-- No piece is refused. -/
theorem pieces_allowed (taken : iov.Taken size) (high : 0x1000 ≤ addr) (fits : size ≤ len)
    (inside : addr.toNat + (len.toNat - size.toNat) < 2 ^ 64) (ends : addr.toNat + len.toNat ≤ 2 ^ 64) :
    ∀ move ∈ pieces addr len size iov, move.Allowed := by
  induction iov generalizing size with
  | nil => exact fun move member => by cases member
  | cons iovData rest ih =>
    have first : 0x1000 ≤ iovData.buf := taken 0 iovData rfl (.inl rfl)
    have place : 0x1000 ≤ addr + (len - size) := by
      have high := UInt64.le_iff_toNat_le.mp high
      rw [UInt64.le_iff_toNat_le, UInt64.toNat_add, UInt64.toNat_sub_of_le _ _ fits, Nat.mod_eq_of_lt inside]
      omega
    rw [pieces]
    by_cases last : iovData.len ≥ size
    · rw [if_pos last]
      exact List.forall_mem_singleton.mpr ⟨place, first⟩
    · have more := UInt64.not_le.mp last
      have left := UInt64.toNat_sub_of_le _ _ (UInt64.le_of_lt more)
      have more' := UInt64.lt_iff_toNat_lt.mp more
      have fits' := UInt64.le_iff_toNat_le.mp fits
      rw [if_neg last]
      refine List.forall_mem_cons.mpr ⟨⟨place, first⟩, ih (fun idx other found behind => ?_) ?_ ?_⟩
      · refine taken (idx + 1) other found (.inr ?_)
        have before : Traced.bytes (rest.take idx) < (size - iovData.len).toNat := by
          obtain rfl | behind := behind
          · rw [List.take_zero, Traced.bytes, List.map_nil, List.sum_nil]
            omega
          · exact behind
        rw [List.take_succ_cons, Traced.bytes, List.map_cons, List.sum_cons]
        have same : Traced.bytes (rest.take idx) = ((rest.take idx).map fun data => data.len.toNat).sum := rfl
        omega
      · exact UInt64.le_iff_toNat_le.mpr (by omega)
      · omega

end Pieces

section Copy

theorem Clear.disjoint (clear : iov.Clear addr len) (size count : Nat) (le : count ≤ len.toNat) :
    ((addrs iov).take size).Disjoint (block addr count) := by
  intro place listed inside
  obtain ⟨iovData, member, here⟩ := List.mem_flatMap.mp (List.mem_of_mem_take listed)
  rw [← take_block le] at inside
  exact clear.apart iovData member place here (List.mem_of_mem_take inside)

theorem Clear.allowed (clear : iov.Clear addr len) (taken : iov.Taken len) :
    ∀ move ∈ pieces addr len len iov, move.Allowed := by
  have start := addr.toNat_lt
  exact pieces_allowed taken clear.high (UInt64.le_refl _) (by omega) clear.inside

/-- Where a copy of the whole length starts. -/
theorem places_whole : (pieces addr len len iov).flatMap Move.places = block addr (min len.toNat (Traced.bytes iov)) := by
  rw [places_pieces (UInt64.le_refl _), UInt64.sub_self, UInt64.add_zero]

theorem toBuf_copies (taken : iov.Taken len) (clear : iov.Clear addr len) :
    ∃ memory, iov.toBuf addr len state = .ok () { state with memory := memory } ∧
      Copied (block addr (min len.toNat (Traced.bytes iov))) (iov.addrs.take len.toNat) state.memory memory := by
  obtain ⟨memory, ran, copies⟩ := @moveAll_copies _ state (clear.allowed taken)
  rw [places_whole, origins_pieces] at copies
  rw [toBuf, copyTo_eq]
  refine ⟨memory, ran, copies (clear.disjoint _ _ (Nat.min_le_left _ _)).symm ?_⟩
  exact nodup_block (Nat.lt_of_le_of_lt (Nat.min_le_left _ _) len.toNat_lt)

theorem fromBuf_copies (taken : iov.Taken len) (clear : iov.Clear addr len) (once : (iov.addrs.take len.toNat).Nodup) :
    ∃ memory, iov.fromBuf addr len state = .ok () { state with memory := memory } ∧
      Copied (iov.addrs.take len.toNat) (block addr (min len.toNat (Traced.bytes iov))) state.memory memory := by
  have allowed : ∀ move ∈ (pieces addr len len iov).map Move.flip, move.Allowed :=
    List.forall_mem_map.mpr fun move member => (clear.allowed taken move member).flip
  obtain ⟨memory, ran, copies⟩ := @moveAll_copies _ state allowed
  rw [List.flatMap_map, List.flatMap_map] at copies
  simp only [Move.places_flip, Move.origins_flip] at copies
  rw [places_whole, origins_pieces] at copies
  rw [fromBuf, copyFrom_eq]
  exact ⟨memory, ran, copies (clear.disjoint _ _ (Nat.min_le_left _ _)) once⟩

/-- What was scattered is gathered again, at the same place or another. -/
theorem roundTrip (taken : iov.Taken len) (clear : iov.Clear addr len) (clear' : iov.Clear back len)
    (once : (iov.addrs.take len.toNat).Nodup) (room : len.toNat ≤ Traced.bytes iov) :
    ∃ memory, (do iov.fromBuf addr len; iov.toBuf back len) state = .ok () { state with memory := memory } ∧
      (block back len.toNat).map memory = (block addr len.toNat).map state.memory := by
  obtain ⟨middle, scattered, put⟩ := @fromBuf_copies _ _ _ state taken clear once
  obtain ⟨memory, gathered, got⟩ := @toBuf_copies _ _ _ { state with memory := middle } taken clear'
  rw [Nat.min_eq_left room] at put got
  refine ⟨memory, ?_, got.brought.trans put.brought⟩
  rw [bind_ok scattered]
  exact gathered

/-- For every fragmentation `to_buf` brings the first bytes of the buffers to the front of the other end, as many
as there are up to the length, and `from_buf` brings as many bytes back, so that both together change none. -/
theorem gather_scatter (apart : iov.Pairwise VirtioIovData.Apart) (taken : iov.Taken len) (clear : iov.Clear addr len)
    (state : VirtioState) :
    (∃ memory, iov.toBuf addr len state = .ok () { state with memory := memory } ∧
      Copied (block addr (min len.toNat (Traced.bytes iov))) (iov.addrs.take len.toNat) state.memory memory) ∧
    (∃ memory, iov.fromBuf addr len state = .ok () { state with memory := memory } ∧
      Copied (iov.addrs.take len.toNat) (block addr (min len.toNat (Traced.bytes iov))) state.memory memory) ∧
    (len.toNat ≤ Traced.bytes iov → ∀ back, iov.Clear back len →
      ∃ memory, (do iov.fromBuf addr len; iov.toBuf back len) state = .ok () { state with memory := memory } ∧
        (block back len.toNat).map memory = (block addr len.toNat).map state.memory) := by
  have once : (iov.addrs.take len.toNat).Nodup := (nodup_addrs apart).sublist (List.take_sublist _ _)
  exact ⟨toBuf_copies taken clear, fromBuf_copies taken clear once,
    fun room back clear' => roundTrip taken clear clear' once room⟩

end Copy

section Example

/-- Three bytes, two and one, with an empty buffer between them, and a buffer that no copy of three bytes comes to. -/
def fragments : VirtioIov := [⟨0x2000, 2⟩, ⟨0x5000, 0⟩, ⟨0x3000, 1⟩, ⟨0x10, 4⟩]

theorem fragments_gathered :
    (∃ memory, fragments.toBuf 0x8000 3 .initial = .ok () { VirtioState.initial with memory := memory } ∧
      Copied [0x8000, 0x8001, 0x8002] [0x2000, 0x2001, 0x3000] VirtioState.initial.memory memory) ∧
    ∃ memory, (do fragments.fromBuf 0x8000 3; fragments.toBuf 0x9000 3) .initial =
        .ok () { VirtioState.initial with memory := memory } ∧
      [0x9000, 0x9001, 0x9002].map memory = [0x8000, 0x8001, 0x8002].map VirtioState.initial.memory := by
  have taken : fragments.Taken 3 := by
    intro idx iovData found reached
    match idx with
    | 0 => cases found; decide
    | 1 => cases found; decide
    | 2 => cases found; decide
    | 3 => exact absurd reached (by decide)
  have clear : fragments.Clear 0x8000 3 := ⟨by decide, by decide, by decide⟩
  have copies := gather_scatter (by decide) taken clear .initial
  exact ⟨copies.1, copies.2.2 (by decide) 0x9000 ⟨by decide, by decide, by decide⟩⟩

/-- A buffer on the first page is refused, and so is an end that goes over the top of the address space. An end
that is a buffer as well is gathered from after it has been written. -/
theorem shared_end_overwritten : (toBuf [⟨0x800, 1⟩] 0x8000 1 .initial matches .error .panic _) ∧
    (toBuf [⟨0x2000, 1⟩, ⟨0x3000, 1⟩] 0xffffffffffffffff 2 .initial matches .error .panic _) ∧
    ∃ iov : VirtioIov, ∃ start memory, iov.Pairwise VirtioIovData.Apart ∧
      iov.toBuf 0x3000 2 start = .ok () { start with memory := memory } ∧
      (block 0x3000 2).map memory ≠ (iov.addrs.take 2).map start.memory :=
  ⟨by decide, by decide, [⟨0x2000, 1⟩, ⟨0x3000, 1⟩],
    { VirtioState.initial with memory := fun place => if place = 0x2000 then 1 else 0 }, _, by decide, rfl, by decide⟩

end Example

end VirtioIov

section Control

variable {host : Host} {outIov inIov : VirtioIov} {state : VirtioState}

/-- A byte of a control request; the header is zero where the request is shorter. -/
def ctrlByte (outIov : VirtioIov) (memory : UInt64 → UInt8) (idx : Nat) : UInt8 :=
  ((outIov.addrs.map memory)[idx]?).getD 0

/-- The status that a control request is answered with, if any. -/
def ctrlStatus (ctrlClass command : UInt8) : Option UInt8 :=
  if ctrlClass = virtioNetCtrlAnnounce then
    some (if command = virtioNetCtrlAnnounceAck then virtioNetOk else virtioNetErr)
  else none

/-- The header on the stack before the request is copied over it. -/
def emptyHeader (host : Host) (memory : UInt64 → UInt8) : UInt64 → UInt8 :=
  Function.update (Function.update memory host.ctrlAddr 0) (host.ctrlAddr + 1) 0

theorem mem_header {place : UInt64} : place ∈ block host.ctrlAddr 2 ↔ place = host.ctrlAddr ∨ place = host.ctrlAddr + 1 := by
  rw [block, List.range_succ, List.range_one]
  simp

theorem emptyHeader_inside {memory : UInt64 → UInt8} {place : UInt64} (inside : place ∈ block host.ctrlAddr 2) :
    emptyHeader host memory place = 0 := by
  rw [emptyHeader, Function.update_apply, Function.update_apply]
  obtain rfl | rfl := mem_header.mp inside
  · simp
  · simp

theorem emptyHeader_outside {memory : UInt64 → UInt8} {place : UInt64} (outside : place ∉ block host.ctrlAddr 2) :
    emptyHeader host memory place = memory place := by
  rw [mem_header, not_or] at outside
  rw [emptyHeader, Function.update_of_ne outside.2, Function.update_of_ne outside.1]

/-- The header is the first two bytes of the request. -/
theorem header_read {memory : UInt64 → UInt8} (clear : outIov.Clear host.ctrlAddr 2)
    (copied : Copied (block host.ctrlAddr (min 2 (Traced.bytes outIov))) (outIov.addrs.take 2)
      (emptyHeader host state.memory) memory) {idx : Nat} (low : idx < 2) :
    memory (host.ctrlAddr + idx.toUInt64) = ctrlByte outIov state.memory idx := by
  by_cases there : idx < Traced.bytes outIov
  · have there' : idx < outIov.addrs.length := by rwa [VirtioIov.length_addrs]
    have outside : outIov.addrs[idx] ∉ block host.ctrlAddr 2 := fun inside =>
      clear.disjoint 2 2 (Nat.le_refl 2) (List.mem_take_iff_getElem.mpr ⟨idx, by omega, rfl⟩) inside
    have same := congrArg (fun bytes => bytes[idx]?) copied.brought
    rw [List.getElem?_map, List.getElem?_map, List.getElem?_take_of_lt low, List.getElem?_eq_getElem there', block,
      List.getElem?_map, List.getElem?_range (by omega)] at same
    have same := Option.some.inj same
    rw [emptyHeader_outside outside] at same
    rw [same, ctrlByte, List.getElem?_map, List.getElem?_eq_getElem there']
    rfl
  · have past : host.ctrlAddr + idx.toUInt64 ∉ block host.ctrlAddr (min 2 (Traced.bytes outIov)) := by
      rw [mem_block (by omega), sub_start_toNat (by omega)]
      omega
    have listed : host.ctrlAddr + idx.toUInt64 ∈ block host.ctrlAddr 2 := List.mem_map_of_mem (List.mem_range.mpr low)
    rw [copied.kept _ past, emptyHeader_inside listed, ctrlByte, List.getElem?_eq_none]
    · rfl
    · rw [List.length_map, VirtioIov.length_addrs]
      exact Nat.not_lt.mp there

/-- The status goes to the first byte of the in buffers. -/
theorem status_scattered (taken : inIov.Taken 1) (clear : inIov.Clear host.statusAddr 1) (status : UInt8) :
    ∃ memory, (do writeU8 host.statusAddr status; inIov.fromBuf host.statusAddr 1) state =
        .ok () { state with memory := memory } ∧
      (∀ place ∈ inIov.addrs.take 1, memory place = status) ∧
      ∀ place, place ≠ host.statusAddr → place ∉ inIov.addrs.take 1 → memory place = state.memory place := by
  let set := Function.update state.memory host.statusAddr status
  have written : writeU8 host.statusAddr status state = .ok () { state with memory := set } := rfl
  have once : (inIov.addrs.take 1).Nodup := by
    match inIov.addrs with
    | [] => exact .nil
    | first :: _ => exact List.nodup_singleton first
  obtain ⟨memory, scattered, copied⟩ : ∃ memory, inIov.fromBuf host.statusAddr 1 { state with memory := set } =
      .ok () { state with memory := memory } ∧
      Copied (inIov.addrs.take 1) (block host.statusAddr (min 1 (Traced.bytes inIov))) set memory :=
    VirtioIov.fromBuf_copies taken clear once
  refine ⟨memory, ?_, fun place inside => ?_, fun place elsewhere outside => ?_⟩
  · rw [bind_ok written]
    exact scattered
  · have brought : memory place ∈ (block host.statusAddr (min 1 (Traced.bytes inIov))).map set :=
      copied.brought ▸ List.mem_map_of_mem inside
    obtain ⟨origin, read, same⟩ := List.mem_map.mp brought
    rw [← take_block (Nat.min_le_left 1 _)] at read
    have only : origin = host.statusAddr := by simpa [block] using List.mem_of_mem_take read
    rw [← same, only]
    exact Function.update_self ..
  · rw [copied.kept place outside]
    exact Function.update_of_ne elsewhere ..

/-- A control request is answered by its first two bytes: the first byte of the in buffers is the status, if there is
one, and apart from the two variables on the stack nothing else is written. -/
theorem ctrlCommand_answers (out : outIov.Taken 2) (clear : outIov.Clear host.ctrlAddr 2) (taken : inIov.Taken 1)
    (clear' : inIov.Clear host.statusAddr 1) :
    ∃ memory, ctrlCommand host outIov inIov state = .ok () { state with memory := memory } ∧
      (∀ place ∈ inIov.addrs.take 1, ∀ status,
        ctrlStatus (ctrlByte outIov state.memory 0) (ctrlByte outIov state.memory 1) = some status →
          memory place = status) ∧
      ∀ place, place ∉ block host.ctrlAddr 2 → place ≠ host.statusAddr → (place ∈ inIov.addrs.take 1 →
        ctrlStatus (ctrlByte outIov state.memory 0) (ctrlByte outIov state.memory 1) = none) →
          memory place = state.memory place := by
  obtain ⟨header, gathered, copied⟩ : ∃ header, outIov.toBuf host.ctrlAddr 2
      { state with memory := emptyHeader host state.memory } = .ok () { state with memory := header } ∧
      Copied (block host.ctrlAddr (min 2 (Traced.bytes outIov))) (outIov.addrs.take 2)
        (emptyHeader host state.memory) header := VirtioIov.toBuf_copies out clear
  have ctrlClass : header host.ctrlAddr = ctrlByte outIov state.memory 0 := by
    have read := header_read clear copied (show 0 < 2 by decide)
    rwa [show host.ctrlAddr + (0 : Nat).toUInt64 = host.ctrlAddr from UInt64.add_zero _] at read
  have command : header (host.ctrlAddr + 1) = ctrlByte outIov state.memory 1 := header_read clear copied (by decide)
  have other {place : UInt64} (outside : place ∉ block host.ctrlAddr 2) : header place = state.memory place := by
    rw [copied.kept place fun inside => outside ?_, emptyHeader_outside outside]
    rw [← take_block (Nat.min_le_left 2 _)] at inside
    exact List.mem_of_mem_take inside
  have zero : writeU8 host.ctrlAddr 0 state =
      .ok () { state with memory := Function.update state.memory host.ctrlAddr 0 } := rfl
  have zero' : writeU8 (host.ctrlAddr + 1) 0 { state with memory := Function.update state.memory host.ctrlAddr 0 } =
      .ok () { state with memory := emptyHeader host state.memory } := rfl
  rw [ctrlCommand, bind_ok zero, bind_ok zero', bind_ok gathered, run_get_bind]
  dsimp only
  simp only [ctrlClass, command, ctrlStatus]
  by_cases announce : ctrlByte outIov state.memory 0 = virtioNetCtrlAnnounce
  · rw [if_pos announce, if_pos announce]
    obtain ⟨memory, ran, answered, kept⟩ := @status_scattered host inIov { state with memory := header } taken clear'
      (if ctrlByte outIov state.memory 1 = virtioNetCtrlAnnounceAck then virtioNetOk else virtioNetErr)
    refine ⟨memory, ran, fun place inside status same => ?_, fun place outside elsewhere unanswered => ?_⟩
    · rw [answered place inside]
      exact Option.some.inj same
    · rw [kept place elsewhere fun inside => Option.some_ne_none _ (unanswered inside)]
      exact other outside
  · rw [if_neg announce, if_neg announce]
    refine ⟨header, rfl, fun _ _ _ none => ?_, fun place outside _ _ => other outside⟩
    cases none

end Control

end Shyper.Device
