import Shyper.Device.Virtio.QueueSafety
import Shyper.Lib.Copied

/-! What the copy between scatter-gather lists does to memory, and which bytes of a frame the
switch looks at. -/

namespace Shyper.Device

open Lib

/-- The buffer lies in one piece, off the page that `memcpy_safe` refuses. -/
def VirtioIovData.Mapped (iovData : VirtioIovData) : Prop :=
  0x1000 ≤ iovData.buf ∧ iovData.buf.toNat + iovData.len.toNat < 2 ^ 64

def VirtioIovData.addrs (iovData : VirtioIovData) : List UInt64 := block iovData.buf iovData.len.toNat

/-- No byte is in both buffers. -/
def VirtioIovData.Apart (first second : VirtioIovData) : Prop := ∀ place ∈ first.addrs, place ∉ second.addrs

-- By the bytes of the first buffer, not by all addresses.
instance : DecidableRel VirtioIovData.Apart :=
  fun first second => List.decidableBAll (fun place => place ∉ second.addrs) first.addrs

theorem copied_memcpy (memory : UInt64 → UInt8) (s1 s2 n : UInt64) :
    Copied (block s1 n.toNat) (block s2 n.toNat) memory (memcpy memory s1 s2 n) := by
  refine ⟨?_, fun place outside => ?_⟩
  · rw [block, block, List.map_map, List.map_map]
    refine List.map_congr_left fun offset inside => ?_
    exact memcpy_covered (List.mem_range.mp inside)
  · rw [mem_block n.toNat_lt, ← UInt64.lt_iff_toNat_lt] at outside
    rw [memcpy, if_neg outside]

namespace VirtioIov

/-- Addresses of the bytes of the list, one buffer after another. -/
def addrs (iov : VirtioIov) : List UInt64 := iov.flatMap VirtioIovData.addrs

section Addrs

variable {iov : VirtioIov} {iovData : VirtioIovData}

@[simp] theorem addrs_nil : addrs [] = [] := rfl

@[simp] theorem addrs_cons : addrs (iovData :: iov) = iovData.addrs ++ addrs iov := rfl

theorem length_addrs (iov : VirtioIov) : (addrs iov).length = Traced.bytes iov := by
  induction iov with
  | nil => rfl
  | cons iovData rest ih =>
    rw [addrs_cons, List.length_append, ih, VirtioIovData.addrs, length_block, Traced.bytes, Traced.bytes,
      List.map_cons, List.sum_cons]

theorem nodup_addrs (apart : iov.Pairwise VirtioIovData.Apart) : (addrs iov).Nodup :=
  List.nodup_flatMap.mpr ⟨fun iovData _ => nodup_block iovData.len.toNat_lt,
    apart.imp fun separate place inside => separate place inside⟩

end Addrs

/-- Addresses of the bytes from the place of a cursor on. -/
def remaining (iov : VirtioIov) (cursor : Cursor) : List UInt64 :=
  if cursor.idx < iov.length then
    block cursor.ptr cursor.vlenRemain.toNat ++ addrs (iov.drop (cursor.idx + 1))
  else []

/-- The place of a cursor is one of its list, in a strict copy one that `memcpy_safe` takes. -/
structure Cursor.At (strict : Prop) (iov : VirtioIov) (cursor : Cursor) : Prop where
  inside : cursor.idx ≤ iov.length
  within : ∀ iovData, iov[cursor.idx]? = some iovData → cursor.vlenRemain ≤ iovData.len
  mapped : strict → cursor.idx < iov.length →
    0x1000 ≤ cursor.ptr ∧ cursor.ptr.toNat + cursor.vlenRemain.toNat < 2 ^ 64

section Cursors

variable {strict : Prop} {iov : VirtioIov} {cursor : Cursor} {written : UInt64}

theorem remaining_next :
    remaining iov (cursor.next iov) = addrs (iov.drop (cursor.idx + 1)) := by
  rw [remaining, Traced.next_idx]
  by_cases more : cursor.idx + 1 < iov.length
  · rw [if_pos more, Cursor.next, List.getElem?_eq_getElem more, List.drop_eq_getElem_cons more, addrs_cons]
    rfl
  · rw [if_neg more, List.drop_eq_nil_of_le (Nat.not_lt.mp more), addrs_nil]

theorem remaining_pass (inside : cursor.idx < iov.length) :
    remaining iov cursor = block cursor.ptr cursor.vlenRemain.toNat ++ remaining iov (cursor.next iov) := by
  rw [remaining_next, remaining, if_pos inside]

theorem remaining_skip (inside : cursor.idx < iov.length) (le : written ≤ cursor.vlenRemain) :
    remaining iov cursor = block cursor.ptr written.toNat ++ remaining iov (cursor.skip written) := by
  have le := UInt64.le_iff_toNat_le.mp le
  have inside' : (cursor.skip written).idx < iov.length := inside
  rw [remaining, if_pos inside, remaining, if_pos inside', Cursor.skip, ← List.append_assoc]
  have whole : cursor.vlenRemain.toNat = written.toNat + (cursor.vlenRemain - written).toNat := by
    rw [UInt64.toNat_sub_of_le _ _ (UInt64.le_iff_toNat_le.mpr le)]
    omega
  rw [whole, block_add, Nat.toUInt64_eq, UInt64.ofNat_toNat]

theorem Cursor.At.next (mapped : strict → ∀ iovData ∈ iov, iovData.Mapped) (inside : cursor.idx < iov.length) :
    (cursor.next iov).At strict iov := by
  refine ⟨?_, fun iovData found => ?_, fun must more => ?_⟩
  · rw [Traced.next_idx]
    omega
  · rw [Traced.next_idx] at found
    rw [Cursor.next, found]
    exact UInt64.le_refl _
  · rw [Traced.next_idx] at more
    rw [Cursor.next, List.getElem?_eq_getElem more]
    exact mapped must _ (List.getElem_mem more)

theorem Cursor.At.skip (stands : cursor.At strict iov) (inside : cursor.idx < iov.length)
    (le : written ≤ cursor.vlenRemain) : (cursor.skip written).At strict iov := by
  refine ⟨stands.inside, fun iovData found => ?_, fun must _ => ?_⟩
  · exact UInt64.le_trans (UInt64.sub_le le) (stands.within iovData found)
  obtain ⟨above, below⟩ := stands.mapped must inside
  have left := UInt64.toNat_sub_of_le _ _ le
  have le := UInt64.le_iff_toNat_le.mp le
  have above := UInt64.le_iff_toNat_le.mp above
  have place : (cursor.ptr + written).toNat = cursor.ptr.toNat + written.toNat := by
    rw [UInt64.toNat_add, Nat.mod_eq_of_lt (by omega)]
  rw [Cursor.skip, place, left]
  refine ⟨UInt64.le_iff_toNat_le.mpr ?_, ?_⟩
  · rw [place]
    omega
  · omega

end Cursors

/-- A state of the copy between two buffers: what is left of the source fits into what is left
of the target. -/
structure Copying (strict : Prop) (source target : VirtioIov) (src dst : Cursor) (remain : UInt64) : Prop where
  reads : src.At strict source
  writes : dst.At strict target
  left : (remaining source src).length = remain.toNat
  room : remain.toNat ≤ (remaining target dst).length
  inSource : remaining source src ⊆ addrs source
  inTarget : remaining target dst ⊆ addrs target

section Copying

variable {strict : Prop} {source target : VirtioIov} {src dst src' dst' : Cursor} {remain written : UInt64}

theorem Copying.advance (copying : Copying strict source target src dst remain)
    (readOn : remaining source src = block src.ptr written.toNat ++ remaining source src')
    (writeOn : remaining target dst = block dst.ptr written.toNat ++ remaining target dst')
    (reads : src'.At strict source) (writes : dst'.At strict target) : Copying strict source target src' dst' (remain - written) := by
  obtain ⟨-, -, left, room, inSource, inTarget⟩ := copying
  rw [readOn, List.length_append, length_block] at left
  rw [writeOn, List.length_append, length_block] at room
  rw [readOn] at inSource
  rw [writeOn] at inTarget
  have fewer := UInt64.toNat_sub_of_le remain written (UInt64.le_iff_toNat_le.mpr (by omega))
  refine ⟨reads, writes, by omega, by omega, ?_, ?_⟩
  · exact fun place inside => inSource (List.mem_append_right _ inside)
  · exact fun place inside => inTarget (List.mem_append_right _ inside)

/-- Another place to read the same bytes from. -/
theorem Copying.replace (copying : Copying strict source target src dst remain)
    (same : remaining source src = remaining source src') (reads : src'.At strict source) :
    Copying strict source target src' dst remain := by
  obtain ⟨-, writes, left, room, inSource, inTarget⟩ := copying
  rw [same] at left inSource
  exact ⟨reads, writes, left, room, inSource, inTarget⟩

theorem Copying.going (copying : Copying strict source target src dst remain) (more : remain ≠ 0) :
    src.idx < source.length ∧ dst.idx < target.length := by
  have positive : 0 < remain.toNat := Nat.pos_of_ne_zero fun none => more (UInt64.toNat_inj.mp none)
  have left := copying.left
  have room := copying.room
  constructor
  · by_contra past
    rw [remaining, if_neg past, List.length_nil] at left
    omega
  · by_contra past
    rw [remaining, if_neg past, List.length_nil] at room
    omega

theorem Copying.fits (copying : Copying strict source target src dst remain)
    (readOn : remaining source src = block src.ptr written.toNat ++ remaining source src') : written ≤ remain := by
  have left := copying.left
  rw [readOn, List.length_append, length_block] at left
  exact UInt64.le_iff_toNat_le.mpr (by omega)

/-- What the loop still has to copy after `written` bytes completes the copy. -/
theorem copies_complete {memory after : UInt64 → UInt8} {origins places : List UInt64}
    (readOn : remaining source src = block src.ptr written.toNat ++ origins)
    (writeOn : remaining target dst = block dst.ptr written.toNat ++ places) (fits : written ≤ remain)
    (rest : Copies (places.take (remain - written).toNat) (origins.take (remain - written).toNat)
      (memcpy memory dst.ptr src.ptr written) after) :
    Copies ((remaining target dst).take remain.toNat) ((remaining source src).take remain.toNat) memory after := by
  have fewer := UInt64.toNat_sub_of_le remain written fits
  have fits := UInt64.le_iff_toNat_le.mp fits
  have short (addr : UInt64) : (block addr written.toNat).take remain.toNat = block addr written.toNat :=
    List.take_of_length_le (by rw [length_block]; exact fits)
  rw [readOn, writeOn, List.take_append, List.take_append, short, short, length_block, length_block, ← fewer]
  have first : Copies (block dst.ptr written.toNat) (block src.ptr written.toNat) memory
      (memcpy memory dst.ptr src.ptr written) := fun _ _ => copied_memcpy memory dst.ptr src.ptr written
  exact first.append rest

end Copying

end VirtioIov

/-- A subtraction that does not underflow, or a copy from some of the bytes to others. -/
def QueueCall.Within (places origins : List UInt64) : {β : Type} → QueueCall β → VirtioState → Prop
  | _, .sub len part, _ => part ≤ len
  | _, .other call _, _ => ∃ s1 s2 n, HEq call (memcpySafe s1 s2 n) ∧
      block s1 n.toNat ⊆ places ∧ block s2 n.toNat ⊆ origins
  | _, _, _ => False

namespace Traced

variable {strict : Prop} {source target : VirtioIov} {state : VirtioState}

theorem through_sub {places origins : List UInt64} {len part : UInt64} {post : UInt64 → VirtioState → Prop} :
    (sub len part).Through strict QueueCall.interp (QueueCall.Within places origins) state post ↔
      part ≤ len ∧ post (len - part) state := by
  constructor
  · rintro ⟨le, -, holds⟩
    exact ⟨le, holds _ _ rfl⟩
  · rintro ⟨le, holds⟩
    refine ⟨le, fun _ => ⟨_, _, rfl⟩, fun answer after ran => ?_⟩
    cases ran
    exact holds

theorem through_memcpySafe {places origins : List UInt64} {s1 s2 n : UInt64} {post : Unit → VirtioState → Prop}
    (high : strict → 0x1000 ≤ s1 ∧ 0x1000 ≤ s2) (writes : block s1 n.toNat ⊆ places)
    (reads : block s2 n.toNat ⊆ origins) (holds : post () { state with memory := memcpy state.memory s1 s2 n }) :
    (other (memcpySafe s1 s2 n) (offQueues_memcpySafe s1 s2 n)).Through strict QueueCall.interp
      (QueueCall.Within places origins) state post := by
  refine ⟨⟨s1, s2, n, .rfl, writes, reads⟩, fun must => ?_, fun answer after ran => ?_⟩
  · exact ⟨(), _, memcpySafe_ok (high must)⟩
  · obtain rfl := memcpySafe_ok_inv ran
    exact holds

theorem through_skip {places origins : List UInt64} {cursor : VirtioIov.Cursor} {written : UInt64} {goes : Prop}
    [Decidable goes] (le : written ≤ cursor.vlenRemain) :
    (if goes then skip cursor written else pure cursor : TracedM _).Through strict QueueCall.interp
      (QueueCall.Within places origins) state fun moved after =>
        after = state ∧ moved.idx = cursor.idx ∧ (goes → moved = cursor.skip written) := by
  split
  · exact Prog.through_bind.mpr (through_sub.mpr ⟨le, rfl, rfl, fun _ => rfl⟩)
  · rename_i stays
    exact ⟨rfl, rfl, fun goes => absurd goes stays⟩

/-- How the loop ends that starts at two cursors: nothing is left over, and the bytes from the
one cursor on stand at the places from the other on. -/
def CopiesRest (source target : VirtioIov) (src dst : VirtioIov.Cursor) (remain : UInt64) (state : VirtioState)
    (left : UInt64) (after : VirtioState) : Prop :=
  left = 0 ∧ ∃ memory, after = { state with memory := memory } ∧
    Copies ((target.remaining dst).take remain.toNat) ((source.remaining src).take remain.toNat) state.memory memory

section CopiesRest

variable {src dst src' dst' : VirtioIov.Cursor} {remain written : UInt64}

theorem copiesRest_congr {left : UInt64} {after : VirtioState}
    (reads : remain ≠ 0 → source.remaining src = source.remaining src')
    (writes : remain ≠ 0 → target.remaining dst = target.remaining dst')
    (copies : CopiesRest source target src dst remain state left after) :
    CopiesRest source target src' dst' remain state left after := by
  by_cases none : remain = 0
  · subst none
    exact copies
  · rw [CopiesRest, reads none, writes none] at copies
    exact copies

/-- One copy of the loop, with the cursors it goes on from. -/
theorem through_copyStep {next : Unit → TracedM UInt64}
    (copying : VirtioIov.Copying strict source target src dst remain) (more : remain ≠ 0)
    (readOn : source.remaining src = block src.ptr written.toNat ++ source.remaining src')
    (writeOn : target.remaining dst = block dst.ptr written.toNat ++ target.remaining dst')
    (rest : ∀ copied, (next ()).Through strict QueueCall.interp (QueueCall.Within target.addrs source.addrs) copied
      (CopiesRest source target src' dst' (remain - written) copied)) :
    (other (memcpySafe dst.ptr src.ptr written) (offQueues_memcpySafe _ _ _) >>= next).Through strict QueueCall.interp
      (QueueCall.Within target.addrs source.addrs) state (CopiesRest source target src dst remain state) := by
  obtain ⟨inside, inside'⟩ := copying.going more
  have inSource := copying.inSource
  have inTarget := copying.inTarget
  rw [readOn] at inSource
  rw [writeOn] at inTarget
  refine Prog.through_bind.mpr (through_memcpySafe
    (fun must => ⟨(copying.writes.mapped must inside').1, (copying.reads.mapped must inside).1⟩)
    (fun _ written => inTarget (List.mem_append_left _ written))
    (fun _ read => inSource (List.mem_append_left _ read)) ?_)
  refine (rest _).mono fun left after ran => ?_
  obtain ⟨rfl, memory, rfl, copied⟩ := ran
  exact ⟨rfl, memory, rfl, VirtioIov.copies_complete readOn writeOn (copying.fits readOn) copied⟩

end CopiesRest

/-- The loop of the copy, by the buffers left on both sides. -/
theorem through_writeLoop (mapped : strict → ∀ iovData ∈ source, iovData.Mapped)
    (mapped' : strict → ∀ iovData ∈ target, iovData.Mapped) {steps : Nat} {src dst : VirtioIov.Cursor} {remain : UInt64}
    (inside : src.idx ≤ source.length) (inside' : dst.idx ≤ target.length)
    (enough : strict → source.length + target.length < steps + src.idx + dst.idx)
    (copying : remain ≠ 0 → VirtioIov.Copying strict source target src dst remain) :
    (writeLoop source target steps src dst remain).Through strict QueueCall.interp
      (QueueCall.Within target.addrs source.addrs) state (CopiesRest source target src dst remain state) := by
  induction steps generalizing src dst remain state with
  | zero =>
    intro must
    have enough := enough must
    omega
  | succ steps ih =>
    rw [writeLoop]
    by_cases finished : remain = 0
    · subst finished
      rw [if_pos (.inl rfl)]
      exact ⟨rfl, state.memory, rfl, fun _ _ => .nil _⟩
    have copying := copying finished
    obtain ⟨inside, inside'⟩ := copying.going finished
    have going : ¬(remain = 0 ∨ dst.idx = target.length ∨ src.idx = source.length) := by
      rintro (none | past | past)
      · exact finished none
      · omega
      · omega
    rw [if_neg going]
    by_cases wider : dst.vlenRemain > src.vlenRemain
    · -- the source buffer runs out first
      have readOn := VirtioIov.remaining_pass inside
      have writeOn := VirtioIov.remaining_skip inside' (UInt64.le_of_lt wider)
      have advanced := copying.advance readOn writeOn (.next mapped inside)
        (copying.writes.skip inside' (UInt64.le_of_lt wider))
      rw [if_pos wider]
      refine through_copyStep copying finished readOn writeOn fun copied => ?_
      refine Prog.through_bind.mpr ((through_skip (UInt64.le_of_lt wider)).mono fun cursor after stay => ?_)
      obtain ⟨rfl, place, moved⟩ := stay
      have goesOn (more : remain - src.vlenRemain ≠ 0) : cursor = dst.skip src.vlenRemain := by
        have inside := (advanced.going more).1
        rw [next_idx] at inside
        exact moved inside
      refine Prog.through_bind.mpr (through_sub.mpr ⟨copying.fits readOn, ?_⟩)
      refine (ih ?_ ?_ ?_ fun more => ?_).mono fun left after =>
        copiesRest_congr (fun _ => rfl) fun more => by rw [goesOn more]
      · rw [next_idx]
        omega
      · omega
      · intro must
        have enough := enough must
        rw [next_idx]
        omega
      · rw [goesOn more]
        exact advanced
    · -- the target buffer runs out first, or both at once
      have within : dst.vlenRemain ≤ src.vlenRemain := UInt64.not_lt.mp wider
      have readOn := VirtioIov.remaining_skip inside within
      have writeOn := VirtioIov.remaining_pass inside'
      have advanced := copying.advance readOn writeOn (copying.reads.skip inside within) (.next mapped' inside')
      rw [if_neg wider]
      refine through_copyStep copying finished readOn writeOn fun copied => ?_
      refine Prog.through_bind.mpr ((through_skip within).mono fun cursor after stay => ?_)
      obtain ⟨rfl, place, moved⟩ := stay
      have goesOn (more : remain - dst.vlenRemain ≠ 0) : cursor = src.skip dst.vlenRemain := by
        have inside := (advanced.going more).2
        rw [next_idx] at inside
        exact moved inside
      refine Prog.through_bind.mpr (through_sub.mpr ⟨copying.fits readOn, ?_⟩)
      split
      · -- an empty source buffer is stepped over
        rename_i empty
        have stands := copying.reads.skip inside within
        have none : (src.skip dst.vlenRemain).vlenRemain = 0 := by
          rw [List.getElem?_eq_getElem inside, Option.getD_some] at empty
          have le := stands.within _ (List.getElem?_eq_getElem inside)
          rw [empty] at le
          exact UInt64.le_antisymm le UInt64.zero_le
        have stepOver : source.remaining (src.skip dst.vlenRemain) =
            source.remaining ((src.skip dst.vlenRemain).next source) := by
          have pass : source.remaining (src.skip dst.vlenRemain) = _ ++ _ := VirtioIov.remaining_pass inside
          rwa [none] at pass
        have overstepped := advanced.replace stepOver (.next mapped inside)
        refine (ih ?_ ?_ ?_ fun more => ?_).mono fun left after =>
          copiesRest_congr (fun more => by rw [goesOn more, stepOver]) fun _ => rfl
        · rw [next_idx]
          omega
        · rw [next_idx]
          omega
        · intro must
          have enough := enough must
          rw [next_idx, next_idx]
          omega
        · rw [goesOn more]
          exact overstepped
      · refine (ih ?_ ?_ ?_ fun more => ?_).mono fun left after =>
          copiesRest_congr (fun more => by rw [goesOn more]) fun _ => rfl
        · omega
        · rw [next_idx]
          omega
        · intro must
          have enough := enough must
          rw [next_idx]
          omega
        · rw [goesOn more]
          exact advanced

/-- A copy that covers the source and fits into the target leaves nothing over, and touches no
other byte on its way. -/
theorem through_writeThroughIov {len : UInt64} {steps : Nat}
    (ready : strict → source ≠ [] ∧ target ≠ [] ∧ (∀ iovData ∈ source ++ target, iovData.Mapped) ∧
      source.length + target.length < steps)
    (whole : bytes source = len.toNat) (room : len.toNat ≤ bytes target) :
    (writeThroughIov source target len steps).Through strict QueueCall.interp
      (QueueCall.Within target.addrs source.addrs) state fun left after => left = 0 ∧
        ∃ memory, after = { state with memory := memory } ∧
          Copies (target.addrs.take len.toNat) source.addrs state.memory memory := by
  rw [← VirtioIov.length_addrs] at whole room
  cases target with
  | nil => exact fun must => (ready must).2.1 rfl
  | cons dst target =>
    cases source with
    | nil => exact fun must => (ready must).1 rfl
    | cons src source =>
      have mapped (must : strict) : ∀ iovData ∈ src :: source, iovData.Mapped :=
        fun iovData inside => (ready must).2.2.1 iovData (List.mem_append_left _ inside)
      have mapped' (must : strict) : ∀ iovData ∈ dst :: target, iovData.Mapped :=
        fun iovData inside => (ready must).2.2.1 iovData (List.mem_append_right _ inside)
      have first : VirtioIov.remaining (src :: source) ⟨0, src.buf, src.len⟩ = VirtioIov.addrs (src :: source) := rfl
      have first' : VirtioIov.remaining (dst :: target) ⟨0, dst.buf, dst.len⟩ = VirtioIov.addrs (dst :: target) := rfl
      have stands {iovData : VirtioIovData} {iov : VirtioIov} (mapped : strict → iovData.Mapped) :
          VirtioIov.Cursor.At strict (iovData :: iov) ⟨0, iovData.buf, iovData.len⟩ :=
        ⟨Nat.zero_le _, fun other found => by cases found; exact UInt64.le_refl _, fun must _ => mapped must⟩
      refine (through_writeLoop mapped mapped' (Nat.zero_le _) (Nat.zero_le _) (fun must => (ready must).2.2.2)
        fun _ => ?_).mono ?_
      · exact ⟨stands fun must => mapped must src List.mem_cons_self,
          stands fun must => mapped' must dst List.mem_cons_self, whole, room, List.Subset.refl _, List.Subset.refl _⟩
      · rintro left after ⟨rfl, memory, rfl, copied⟩
        rw [first, first', List.take_of_length_le whole.le] at copied
        exact ⟨rfl, memory, rfl, copied⟩

/-- Whatever overlaps, a copy that returns leaves nothing over. -/
theorem writeThroughIov_returns {len : UInt64} {steps : Nat} (whole : bytes source = len.toNat)
    (room : len.toNat ≤ bytes target) : Returns (source.writeThroughIov target len steps) state fun left after =>
      left = 0 ∧ after.vq = state.vq := by
  have through : (writeThroughIov source target len steps).Through False _ _ state _ :=
    through_writeThroughIov (fun never => never.elim) whole room
  have returns := through.returns
  rw [run_writeThroughIov] at returns
  refine returns.mono fun left after ran => ?_
  obtain ⟨rfl, memory, rfl, -⟩ := ran
  exact ⟨rfl, rfl⟩

end Traced

namespace VirtioIov

/-- For every fragmentation on both sides the copy ends with nothing left over, brings the bytes
of the source to the front of the target, and on its way neither reads nor writes another byte
nor subtracts more than there is. -/
theorem writeThroughIov_copies {source target : VirtioIov} {len : UInt64} {steps : Nat} {state : VirtioState}
    (some : source ≠ []) (some' : target ≠ []) (mapped : ∀ iovData ∈ source ++ target, iovData.Mapped)
    (apart : (source ++ target).Pairwise VirtioIovData.Apart)
    (whole : Traced.bytes source = len.toNat) (room : len.toNat ≤ Traced.bytes target)
    (enough : source.length + target.length < steps) :
    (Traced.writeThroughIov source target len steps).Along QueueCall.interp
        (QueueCall.Within target.addrs source.addrs) state (fun _ _ => True) ∧
      ∃ memory, source.writeThroughIov target len steps state = .ok 0 { state with memory := memory } ∧
        Copied (target.addrs.take len.toNat) source.addrs state.memory memory := by
  have through : (Traced.writeThroughIov source target len steps).Through True _ _ state _ :=
    Traced.through_writeThroughIov (fun _ => ⟨some, some', mapped, enough⟩) whole room
  refine ⟨through.along.mono fun _ _ _ => trivial, ?_⟩
  have ends := through.ends
  have returns := through.returns
  rw [Traced.run_writeThroughIov] at ends returns
  obtain ⟨left, after, ran⟩ := ends
  obtain ⟨rfl, memory, rfl, copies⟩ := returns left after ran
  refine ⟨memory, ran, copies ?_ ?_⟩
  · obtain ⟨-, -, across⟩ := List.pairwise_append.mp apart
    intro place written read
    obtain ⟨dst, inside, written⟩ := List.mem_flatMap.mp (List.mem_of_mem_take written)
    obtain ⟨src, inside', read⟩ := List.mem_flatMap.mp read
    exact across src inside' dst inside place read written
  · obtain ⟨-, apartTarget, -⟩ := List.pairwise_append.mp apart
    exact (nodup_addrs apartTarget).sublist (List.take_sublist _ _)

section Example

/-- Three bytes, two and one, with an empty buffer between them. -/
def threeBytes : VirtioIov := [⟨0x2000, 2⟩, ⟨0x5000, 0⟩, ⟨0x3000, 1⟩]

def fourBytes : VirtioIov := [⟨0x8000, 1⟩, ⟨0x9000, 3⟩]

theorem threeBytes_copies : ∃ memory,
    threeBytes.writeThroughIov fourBytes 3 6 .initial = .ok 0 { VirtioState.initial with memory := memory } ∧
      Copied [0x8000, 0x9000, 0x9001] [0x2000, 0x2001, 0x3000] VirtioState.initial.memory memory :=
  (writeThroughIov_copies (by decide) (by decide) (by simp [threeBytes, fourBytes, VirtioIovData.Mapped])
    (by decide) (by decide) (by decide) (by decide)).2

/-- A buffer on the first page is refused, in the middle of the copy as well. -/
theorem lowBuffer_panics : ∃ source target : VirtioIov, source ≠ [] ∧ target ≠ [] ∧
    (source ++ target).Pairwise VirtioIovData.Apart ∧ Traced.bytes source = 2 ∧ Traced.bytes target = 2 ∧
      (source.writeThroughIov target 2 4 .initial matches .error .panic _) :=
  ⟨[⟨0x2000, 1⟩, ⟨0x800, 1⟩], [⟨0x3000, 2⟩], by decide, by decide, by decide, by decide, by decide, by decide⟩

end Example

section Header

variable {iov : VirtioIov} {state : VirtioState}

theorem offsetAddr_eq (iov : VirtioIov) (idx : UInt64) : offsetAddr idx iov = (addrs iov)[idx.toNat]? := by
  induction iov generalizing idx with
  | nil => rfl
  | cons iovData rest ih =>
    rw [offsetAddr, addrs_cons, List.getElem?_append, VirtioIovData.addrs, length_block]
    by_cases here : iovData.len > idx
    · have here' := UInt64.lt_iff_toNat_lt.mp here
      rw [if_pos here, if_pos here', block, List.getElem?_map, List.getElem?_range here', Option.map_some,
        Nat.toUInt64_eq, UInt64.ofNat_toNat]
    · have past := UInt64.not_lt.mp here
      have past' := UInt64.le_iff_toNat_le.mp past
      rw [if_neg here, if_neg (Nat.not_lt.mpr past'), ih, UInt64.toNat_sub_of_le _ _ past]

/-- The Ethernet header of the frame behind the virtio header: bytes 12 to 25 of the list. -/
def header (iov : VirtioIov) : List UInt64 := (iov.addrs.drop virtioNetHdrSize.toNat).take 14

/-- The bytes of the header stand one after another in memory. -/
def HeaderTogether (iov : VirtioIov) : Prop :=
  ∃ addr, iov.addrs[12]? = some addr ∧ 0x1000 ≤ addr ∧ iov.header = block addr 14

/-- `get_ptr` returns the header of the frame, whatever memory holds. -/
def SeesHeader (iov : VirtioIov) : Prop :=
  ∀ state, getPtr iov virtioNetHdrSize state = .ok (iov.header.map state.memory) state

theorem getPtr_run {addr : UInt64} (found : iov.addrs[12]? = some addr) (high : 0x1000 ≤ addr) :
    getPtr iov virtioNetHdrSize state = .ok ((block addr 14).map state.memory) state := by
  have placed : offsetAddr virtioNetHdrSize iov = some addr := (offsetAddr_eq iov _).trans found
  rw [getPtr, placed]
  dsimp only
  rw [if_neg (UInt64.not_lt.mpr high), block, List.map_map]
  rfl

theorem getPtr_low {addr : UInt64} (found : iov.addrs[12]? = some addr) (low : addr < 0x1000) :
    getPtr iov virtioNetHdrSize state = .error .panic state := by
  have placed : offsetAddr virtioNetHdrSize iov = some addr := (offsetAddr_eq iov _).trans found
  rw [getPtr, placed]
  dsimp only
  rw [if_pos low]
  rfl

/-- Lists that show the same bytes of every memory are the same. -/
theorem eq_of_map_eq {places others : List UInt64}
    (same : ∀ memory : UInt64 → UInt8, places.map memory = others.map memory) : places = others := by
  have length : places.length = others.length := by
    have lengths := congrArg List.length (same fun _ => 0)
    rwa [List.length_map, List.length_map] at lengths
  refine List.ext_getElem length fun idx inside inside' => ?_
  have bytes := congrArg (fun list => list[idx]?) (same fun place => if place = places[idx] then 1 else 0)
  simp only [List.getElem?_map, List.getElem?_eq_getElem inside, List.getElem?_eq_getElem inside', Option.map_some,
    if_true, Option.some.injEq] at bytes
  by_contra differ
  rw [if_neg (Ne.symm differ)] at bytes
  contradiction

end Header

end VirtioIov

/-- What `ethernet_transmit` does once it has looked at the header. -/
def transmitFrame (host : Host) (active : Nat) (txIov : VirtioIov) (len : UInt64) (steps : Nat)
    (frame : List UInt8) : VirtioM (Bool × Nat) := do
  if frame.take 6 = [0xff, 0xff, 0xff, 0xff, 0xff, 0xff] then
    if !ethernetIsArp frame then return (false, 0)
    else ethernetBroadcast host active txIov len steps
  else if frame.take 2 = [0x33, 0x33] then
    if (frame.drop 12).take 2 ≠ [0x86, 0xdd] then return (false, 0)
    else ethernetBroadcast host active txIov len steps
  else
    match ← ethernetMacToVmId host frame host.vms with
    | some vmid => return (← ethernetSendTo host vmid txIov len steps, 1 <<< vmid)
    | none => return (false, 0)

namespace VirtioIov

variable {iov : VirtioIov}

/-- The switch sees the header that was transmitted exactly where the header is in one piece, and
then decides by the bytes of the frame alone. -/
theorem header_seen (long : 26 ≤ Traced.bytes iov) : (iov.SeesHeader ↔ iov.HeaderTogether) ∧
    (iov.HeaderTogether → ∀ host active len steps state, virtioNetHdrSize + 14 ≤ len →
      ethernetTransmit host active iov len steps state =
        transmitFrame host active iov len steps (iov.header.map state.memory) state) := by
  rw [← length_addrs] at long
  have found := List.getElem?_eq_getElem (show 12 < iov.addrs.length by omega)
  have seen (together : iov.HeaderTogether) : iov.SeesHeader := by
    obtain ⟨addr, found, high, consecutive⟩ := together
    intro state
    rw [getPtr_run found high, consecutive]
  refine ⟨⟨fun sees => ?_, seen⟩, fun together host active len steps state enough => ?_⟩
  · have high : (0x1000 : UInt64) ≤ iov.addrs[12] := by
      by_contra low
      have ran := sees .initial
      rw [getPtr_low found (UInt64.not_le.mp low)] at ran
      contradiction
    refine ⟨_, found, high, eq_of_map_eq fun memory => ?_⟩
    have ran := sees { VirtioState.initial with memory := memory }
    rw [getPtr_run found high] at ran
    exact (EStateM.Result.ok.inj ran).1.symm
  · have enough : 26 ≤ len.toNat := UInt64.le_iff_toNat_le.mp enough
    have long : ¬(len < virtioNetHdrSize ∨ len - virtioNetHdrSize < 6 + 6 + 2) := by
      have le : virtioNetHdrSize ≤ len := UInt64.le_iff_toNat_le.mpr (Nat.le_trans (by decide) enough)
      rw [not_or, UInt64.not_lt, UInt64.not_lt]
      refine ⟨le, UInt64.le_iff_toNat_le.mpr ?_⟩
      rw [UInt64.toNat_sub_of_le _ _ le]
      exact Nat.le_sub_of_add_le enough
    rw [ethernetTransmit, if_neg long, bind_ok (seen together state)]
    rfl

section Example

/-- A virtio header, the destination address in a buffer of its own, the rest of the frame. -/
def splitFrame : VirtioIov := [⟨0x2000, 12⟩, ⟨0x3000, 6⟩, ⟨0x4000, 46⟩]

def wholeFrame : VirtioIov := [⟨0x2000, 12⟩, ⟨0x3000, 52⟩]

theorem wholeFrame_seen : wholeFrame.SeesHeader ∧
    ethernetTransmit default 0 wholeFrame 64 8 .initial =
      transmitFrame default 0 wholeFrame 64 8 (List.replicate 14 0) .initial :=
  ⟨(header_seen (by decide)).1.mpr ⟨0x3000, by decide, by decide, by decide⟩,
    (header_seen (by decide)).2 ⟨0x3000, by decide, by decide, by decide⟩ default 0 64 8 .initial (by decide)⟩

/-- The same byte everywhere but behind the second buffer, where no byte of the frame is. -/
def pageOf (value : UInt8) : VirtioState :=
  { VirtioState.initial with memory := fun place => if 0x3006 ≤ place ∧ place < 0x3fff then value else 7 }

/-- The header of the split frame is not seen: what is returned changes with memory outside the frame. -/
theorem splitFrame_unseen : 26 ≤ Traced.bytes splitFrame ∧ ¬ splitFrame.SeesHeader ∧
    (∀ place ∈ splitFrame.addrs, (pageOf 0).memory place = (pageOf 1).memory place) ∧
    (getPtr splitFrame virtioNetHdrSize (pageOf 0) matches .ok [7, 7, 7, 7, 7, 7, 0, 0, 0, 0, 0, 0, 0, 0] _) ∧
    (getPtr splitFrame virtioNetHdrSize (pageOf 1) matches .ok [7, 7, 7, 7, 7, 7, 1, 1, 1, 1, 1, 1, 1, 1] _) := by
  have same : splitFrame.addrs.all (fun place => (pageOf 0).memory place == (pageOf 1).memory place) = true := by decide
  refine ⟨by decide, fun seen => ?_, fun place member => beq_iff_eq.mp (List.all_eq_true.mp same place member),
    by decide, by decide⟩
  have differ := seen (pageOf 0)
  have ran : getPtr splitFrame virtioNetHdrSize (pageOf 0) =
      .ok ((block 0x3000 14).map (pageOf 0).memory) (pageOf 0) := getPtr_run (by decide) (by decide)
  rw [ran] at differ
  exact absurd (EStateM.Result.ok.inj differ).1 (by decide)

end Example

end VirtioIov

end Shyper.Device
