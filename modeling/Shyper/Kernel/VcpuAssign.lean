import Mathlib.Data.List.Nodup
import Mathlib.Data.List.Range
import Mathlib.Data.List.Perm.Basic

/-! `Vm::select_vcpu2assign` of `kernel/vm.rs`: the vCPUs of a VM go to its cores in whatever order
these call. -/

namespace Shyper.Kernel

/-- `count_ones` -/
def bitCount {w : Nat} (bits : BitVec w) : Nat := ((List.range w).filter fun i => bits.getLsbD i).length

/-- `VmCpuConfig`; `master` is an `i32`. -/
structure VmCpuConfig where
  num : Nat
  allocateBitmap : BitVec 32
  master : BitVec 32

def VmCpuConfig.cpuMaster (cfg : VmCpuConfig) : Nat := (cfg.master.signExtend 64).toNat

/-- What `VmInner` holds of the vCPUs, which are named by their ids, and `master_cpu_id` of the VM's
interface. -/
structure AssignState where
  hasMaster : Bool
  vcpuList : List Nat
  cpuNum : Nat
  ncpu : BitVec 64
  masterCpuId : Nat

namespace AssignState

/-- A VM that has no vCPUs yet. -/
def new (masterCpuId : Nat) : AssignState := ⟨false, [], 0, 0, masterCpuId⟩

def pushVcpu (state : AssignState) (vcpu : Nat) : AssignState :=
  { state with
    vcpuList := if vcpu ≥ state.vcpuList.length then state.vcpuList ++ [vcpu] else state.vcpuList.insertIdx vcpu vcpu }

/-- `vmm_alloc_vcpu` where every allocation succeeds. -/
def allocVcpu (cfg : VmCpuConfig) (state : AssignState) : AssignState :=
  (List.range cfg.num).foldl pushVcpu state

def trgtId (cfg : VmCpuConfig) (cpuId : Nat) (state : AssignState) : Nat :=
  if cpuId = cfg.cpuMaster ∨ (state.hasMaster = false ∧ state.cpuNum = cfg.num - 1) then 0
  else if state.hasMaster then cfg.num - state.cpuNum
  else cfg.num - state.cpuNum - 1

/-- The vCPU goes to the core. -/
def assign (cpuId vcpu : Nat) (state : AssignState) : AssignState :=
  { state with
    masterCpuId := if vcpu = 0 then cpuId else state.masterCpuId
    hasMaster := vcpu == 0 || state.hasMaster
    cpuNum := state.cpuNum + 1
    ncpu := state.ncpu ||| 1#64 <<< cpuId }

def selectVcpu2assign (cfg : VmCpuConfig) (cpuId : Nat) (state : AssignState) : Option (Nat × AssignState) :=
  if cfg.allocateBitmap &&& 1#32 <<< cpuId ≠ 0 ∧ state.cpuNum < cfg.num then
    match state.vcpuList[trgtId cfg cpuId state]? with
    | none => none
    | some vcpu => some (vcpu, state.assign cpuId vcpu)
  else none

/-- The cores call one after the other; `none` where one of the calls fails. -/
def assignAll (cfg : VmCpuConfig) : List Nat → AssignState → Option (List (Nat × Nat) × AssignState)
  | [], state => some ([], state)
  | cpuId :: rest, state => do
    let (vcpu, state) ← selectVcpu2assign cfg cpuId state
    let (assigned, state) ← assignAll cfg rest state
    return ((cpuId, vcpu) :: assigned, state)

/-- While cores call: ids go downwards, and id 0 is kept for the master, or for the last core
where that does not call. -/
structure Assigning (cfg : VmCpuConfig) (done : List (Nat × Nat)) (state : AssignState) : Prop where
  vcpus : state.vcpuList = List.range cfg.num
  counted : state.cpuNum = done.length
  ids : (done.map Prod.snd).Perm
    (if state.hasMaster then 0 :: List.range' (cfg.num - done.length + 1) (done.length - 1)
    else List.range' (cfg.num - done.length) done.length)
  arrived : state.hasMaster = true ↔ cfg.cpuMaster ∈ done.map Prod.fst ∨ done.length = cfg.num
  master : cfg.cpuMaster ∈ done.map Prod.fst → (cfg.cpuMaster, 0) ∈ done
  interface : state.hasMaster = true → (state.masterCpuId, 0) ∈ done
  ncpu : ∀ i, state.ncpu.getLsbD i = true ↔ i ∈ done.map Prod.fst

variable {cfg : VmCpuConfig} {done : List (Nat × Nat)} {state : AssignState} {cpuId : Nat} {order : List Nat}

theorem and_bit_ne_zero {w : Nat} (bits : BitVec w) (i : Nat) :
    bits &&& 1#w <<< i ≠ 0 ↔ bits.getLsbD i = true := by
  rw [← BitVec.twoPow_eq, BitVec.and_twoPow]
  cases bit : bits.getLsbD i with
  | false => simp
  | true =>
    have low : i < w := BitVec.lt_of_getLsbD bit
    have own : (BitVec.twoPow w i).getLsbD i = true := by simp [low]
    refine iff_of_true ?_ rfl
    intro zero
    rw [if_pos rfl] at zero
    rw [zero] at own
    simp at own

theorem bitCount_setWidth {w v : Nat} (bits : BitVec w) (wider : w ≤ v) : bitCount (bits.setWidth v) = bitCount bits := by
  obtain ⟨more, rfl⟩ := Nat.exists_eq_add_of_le wider
  rw [bitCount, bitCount, List.range_add, List.filter_append, List.length_append]
  have low : (List.range w).filter (fun i => (bits.setWidth (w + more)).getLsbD i) =
      (List.range w).filter fun i => bits.getLsbD i := by
    apply List.filter_congr
    intro i member
    have below := List.mem_range.mp member
    rw [BitVec.getLsbD_setWidth, decide_eq_true (by omega), Bool.true_and]
  have high : ((List.range more).map (w + ·)).filter (fun i => (bits.setWidth (w + more)).getLsbD i) = [] := by
    apply List.filter_eq_nil_iff.mpr
    intro i member
    obtain ⟨j, -, rfl⟩ := List.mem_map.mp member
    rw [BitVec.getLsbD_setWidth, BitVec.getLsbD_of_ge bits (w + j) (Nat.le_add_right w j)]
    simp
  rw [low, high, List.length_nil, Nat.add_zero]

/-- The vCPUs are listed by their ids. -/
theorem allocVcpu_list (cfg : VmCpuConfig) (masterCpuId : Nat) :
    allocVcpu cfg (new masterCpuId) = { new masterCpuId with vcpuList := List.range cfg.num } := by
  have pushed : ∀ count, (List.range count).foldl pushVcpu (new masterCpuId) =
      { new masterCpuId with vcpuList := List.range count } := by
    intro count
    induction count with
    | zero => rfl
    | succ count ih =>
      rw [List.range_succ, List.foldl_append, ih, List.foldl_cons, List.foldl_nil, pushVcpu]
      simp
  exact pushed cfg.num

theorem Assigning.start (some : 1 ≤ cfg.num) (masterCpuId : Nat) :
    Assigning cfg [] (allocVcpu cfg (new masterCpuId)) := by
  rw [allocVcpu_list]
  refine ⟨rfl, rfl, ?_, ?_, ?_, ?_, ?_⟩
  · exact List.Perm.refl _
  · simp [new]
    omega
  · simp
  · simp [new]
  · simp [new]

/-- A core that calls for the first time gets a vCPU. -/
theorem Assigning.step (valid : Assigning cfg done state) (fresh : cpuId ∉ done.map Prod.fst)
    (listed : cfg.allocateBitmap.getLsbD cpuId = true) (room : done.length < cfg.num) :
    ∃ vcpu after, selectVcpu2assign cfg cpuId state = some (vcpu, after) ∧
      Assigning cfg ((cpuId, vcpu) :: done) after := by
  have counted := valid.counted
  have ids := valid.ids
  have low := BitVec.lt_of_getLsbD listed
  -- the id of the target is that of the vCPU found there
  have runs : ∀ vcpu, trgtId cfg cpuId state = vcpu → vcpu < cfg.num →
      selectVcpu2assign cfg cpuId state = some (vcpu, state.assign cpuId vcpu) := by
    intro vcpu target inside
    have found : (List.range cfg.num)[vcpu]? = some vcpu := by
      rw [List.getElem?_range inside]
    rw [selectVcpu2assign, if_pos ⟨(and_bit_ne_zero _ _).mpr listed, by omega⟩, target, valid.vcpus, found]
  have ncpu : ∀ vcpu i, (state.assign cpuId vcpu).ncpu.getLsbD i = true ↔
      i ∈ ((cpuId, vcpu) :: done).map Prod.fst := by
    intro vcpu i
    rw [List.map_cons, List.mem_cons, ← valid.ncpu, assign, BitVec.getLsbD_or, ← BitVec.twoPow_eq,
      BitVec.getLsbD_twoPow, Bool.or_eq_true, Bool.and_eq_true, decide_eq_true_eq, decide_eq_true_eq, or_comm]
    exact or_congr_left ((and_iff_right (by omega)).trans eq_comm)
  by_cases zero : cpuId = cfg.cpuMaster ∨ (state.hasMaster = false ∧ state.cpuNum = cfg.num - 1)
  · have waiting : state.hasMaster = false := by
      rcases zero with rfl | last
      · rw [← Bool.not_eq_true, valid.arrived]
        exact not_or.mpr ⟨fresh, by omega⟩
      · exact last.1
    refine ⟨0, _, runs 0 (if_pos zero) (by omega), valid.vcpus, ?_, ?_, ?_, ?_, ?_, ncpu 0⟩
    · rw [assign, counted, List.length_cons]
    · rw [waiting, if_neg Bool.false_ne_true] at ids
      rw [assign, beq_self_eq_true, Bool.true_or, if_pos rfl, List.map_cons, List.length_cons]
      have start : cfg.num - (done.length + 1) + 1 = cfg.num - done.length := by omega
      rw [start, Nat.add_sub_cancel]
      exact ids.cons 0
    · refine iff_of_true (by simp [assign]) ?_
      rcases zero with rfl | last
      · exact .inl (by simp)
      · right
        rw [List.length_cons]
        omega
    · intro arrived
      rcases List.mem_cons.mp arrived with same | before
      · rw [same]
        exact List.mem_cons_self
      · exact List.mem_cons_of_mem _ (valid.master before)
    · intro _
      exact List.mem_cons_self
  · obtain ⟨other, notLast⟩ := not_or.mp zero
    have apart : ∀ vcpu, cfg.cpuMaster ∈ ((cpuId, vcpu) :: done).map Prod.fst ↔ cfg.cpuMaster ∈ done.map Prod.fst := by
      intro vcpu
      rw [List.map_cons, List.mem_cons]
      exact or_iff_right (Ne.symm other)
    cases here : state.hasMaster with
    | true =>
      have some := List.length_pos_of_mem (valid.interface here)
      have target : trgtId cfg cpuId state = cfg.num - done.length := by
        rw [trgtId, if_neg zero, here, if_pos rfl, counted]
      have nonzero : cfg.num - done.length ≠ 0 := by omega
      refine ⟨_, _, runs _ target (by omega), valid.vcpus, ?_, ?_, ?_, ?_, ?_, ncpu _⟩
      · rw [assign, counted, List.length_cons]
      · rw [here, if_pos rfl] at ids
        rw [assign, here, Bool.or_true, if_pos rfl, List.map_cons, List.length_cons]
        obtain ⟨before, count⟩ : ∃ before, done.length = before + 1 := ⟨done.length - 1, by omega⟩
        have start : cfg.num - (done.length + 1) + 1 = cfg.num - done.length := by omega
        rw [start, Nat.add_sub_cancel, count, List.range'_succ]
        rw [count, Nat.add_sub_cancel] at ids
        exact (ids.cons _).trans (.swap _ _ _)
      · refine iff_of_true (by simp [assign, here]) ?_
        left
        rw [apart]
        exact (valid.arrived.mp here).resolve_right (by omega)
      · intro arrived
        exact List.mem_cons_of_mem _ (valid.master ((apart _).mp arrived))
      · intro _
        rw [assign, if_neg nonzero]
        exact List.mem_cons_of_mem _ (valid.interface here)
    | false =>
      have target : trgtId cfg cpuId state = cfg.num - done.length - 1 := by
        rw [trgtId, if_neg zero, here, if_neg Bool.false_ne_true, counted]
      have early : state.cpuNum ≠ cfg.num - 1 := fun same => notLast ⟨here, same⟩
      have nonzero : cfg.num - done.length - 1 ≠ 0 := by omega
      have stays : (state.assign cpuId (cfg.num - done.length - 1)).hasMaster = false := by
        rw [assign, here, beq_eq_false_iff_ne.mpr nonzero]
        rfl
      refine ⟨_, _, runs _ target (by omega), valid.vcpus, ?_, ?_, ?_, ?_, ?_, ncpu _⟩
      · rw [assign, counted, List.length_cons]
      · rw [here, if_neg Bool.false_ne_true] at ids
        rw [stays, if_neg Bool.false_ne_true, List.map_cons, List.length_cons, List.range'_succ]
        have start : cfg.num - (done.length + 1) = cfg.num - done.length - 1 := by omega
        have next : cfg.num - done.length - 1 + 1 = cfg.num - done.length := by omega
        rw [start, next]
        exact ids.cons _
      · refine iff_of_false (by simp [stays]) ?_
        rw [apart]
        have absent := mt valid.arrived.mpr (Bool.eq_false_iff.mp here)
        refine not_or.mpr ⟨fun arrived => absent (.inl arrived), ?_⟩
        rw [List.length_cons]
        omega
      · intro arrived
        exact List.mem_cons_of_mem _ (valid.master ((apart _).mp arrived))
      · rw [stays]
        exact fun absurd => nomatch absurd

/-- All cores that are left get a vCPU. -/
theorem Assigning.run (valid : Assigning cfg done state) (once : (order ++ done.map Prod.fst).Nodup)
    (listed : ∀ cpuId ∈ order, cfg.allocateBitmap.getLsbD cpuId = true)
    (room : done.length + order.length ≤ cfg.num) :
    ∃ assigned after, assignAll cfg order state = some (assigned, after) ∧ assigned.map Prod.fst = order ∧
      Assigning cfg (assigned.reverse ++ done) after := by
  induction order generalizing done state with
  | nil => exact ⟨[], state, rfl, rfl, valid⟩
  | cons cpuId rest ih =>
    obtain ⟨here, later⟩ := List.forall_mem_cons.mp listed
    rw [List.length_cons] at room
    rw [List.cons_append, List.nodup_cons] at once
    have fresh : cpuId ∉ done.map Prod.fst := fun member => once.1 (List.mem_append_right _ member)
    obtain ⟨vcpu, next, ran, valid⟩ := valid.step fresh here (by omega)
    have moved : (rest ++ ((cpuId, vcpu) :: done).map Prod.fst).Nodup := by
      rw [List.map_cons, List.nodup_middle, List.nodup_cons]
      exact once
    obtain ⟨assigned, after, rested, cores, valid⟩ := ih valid moved later (by rw [List.length_cons]; omega)
    refine ⟨(cpuId, vcpu) :: assigned, after, ?_, ?_, ?_⟩
    · rw [assignAll, ran]
      show (assignAll cfg rest next).bind _ = _
      rw [rested]
      rfl
    · rw [List.map_cons, cores]
    · rw [List.reverse_cons, List.append_assoc]
      exact valid

/-- Whatever the order in which the cores of the bitmap call, each gets another vCPU, and the
master, where it is one of them, gets vCPU 0. -/
theorem assignAll_ok (cfg : VmCpuConfig) (order : List Nat) (counted : cfg.num = bitCount cfg.allocateBitmap) (some : 1 ≤ cfg.num) (once : order.Nodup)
    (cores : ∀ cpuId, cpuId ∈ order ↔ cfg.allocateBitmap.getLsbD cpuId = true) (masterCpuId : Nat) :
    ∃ assigned after, assignAll cfg order (allocVcpu cfg (new masterCpuId)) = .some (assigned, after) ∧
      assigned.map Prod.fst = order ∧ (assigned.map Prod.snd).Perm (List.range cfg.num) ∧
      (cfg.cpuMaster ∈ order → (cfg.cpuMaster, 0) ∈ assigned) ∧ (after.masterCpuId, 0) ∈ assigned ∧
      after.cpuNum = cfg.num ∧ after.ncpu = cfg.allocateBitmap.setWidth 64 ∧ bitCount after.ncpu = cfg.num := by
  have listed : order.Perm ((List.range 32).filter fun i => cfg.allocateBitmap.getLsbD i) := by
    apply (List.perm_ext_iff_of_nodup once (List.nodup_range.filter _)).mpr
    intro cpuId
    rw [cores, List.mem_filter, List.mem_range]
    exact ⟨fun bit => ⟨BitVec.lt_of_getLsbD bit, bit⟩, fun both => both.2⟩
  have count : order.length = cfg.num := listed.length_eq.trans counted.symm
  have alone : (order ++ ([] : List (Nat × Nat)).map Prod.fst).Nodup := by
    rw [List.map_nil, List.append_nil]
    exact once
  obtain ⟨assigned, after, ran, same, valid⟩ := (Assigning.start some masterCpuId).run alone
    (fun cpuId member => (cores cpuId).mp member) (by rw [List.length_nil]; omega)
  rw [List.append_nil] at valid
  have length : assigned.reverse.length = cfg.num := by
    rw [List.length_reverse, ← count, ← same, List.length_map]
  have arrived : after.hasMaster = true := valid.arrived.mpr (.inr length)
  have ids := valid.ids
  rw [arrived, if_pos rfl, length, Nat.sub_self, Nat.zero_add, List.map_reverse] at ids
  have range : List.range cfg.num = 0 :: List.range' 1 (cfg.num - 1) := by
    obtain ⟨before, count⟩ : ∃ before, cfg.num = before + 1 := ⟨cfg.num - 1, by omega⟩
    rw [count, List.range_eq_range', List.range'_succ]
    rfl
  have ncpu : after.ncpu = cfg.allocateBitmap.setWidth 64 := by
    apply BitVec.eq_of_getLsbD_eq
    intro i below
    rw [Bool.eq_iff_iff, valid.ncpu, List.map_reverse, List.mem_reverse, same, cores, BitVec.getLsbD_setWidth,
      decide_eq_true below, Bool.true_and]
  refine ⟨assigned, after, ran, same, ?_, ?_, ?_, ?_, ncpu, ?_⟩
  · rw [range]
    exact (List.reverse_perm _).symm.trans ids
  · intro member
    have here := valid.master (by rw [List.map_reverse, List.mem_reverse, same]; exact member)
    exact List.mem_reverse.mp here
  · exact List.mem_reverse.mp (valid.interface arrived)
  · rw [valid.counted, length]
  · rw [ncpu, bitCount_setWidth _ (by decide), counted]

/-- Cores 0, 1 and 3, of which core 1 is the master and calls second. -/
theorem threeCores_assigned : ∃ assigned after,
    assignAll ⟨3, 0b1011, 1⟩ [3, 1, 0] (allocVcpu ⟨3, 0b1011, 1⟩ (new 0)) = some (assigned, after) ∧
      (1, 0) ∈ assigned := by
  have cores : ∀ cpuId, cpuId ∈ [3, 1, 0] ↔ (0b1011 : BitVec 32).getLsbD cpuId = true := by
    intro cpuId
    by_cases low : cpuId < 32
    · revert cpuId
      decide
    · rw [BitVec.getLsbD_of_ge _ _ (Nat.le_of_not_lt low)]
      simp
      omega
  obtain ⟨assigned, after, ran, -, -, master, -⟩ :=
    assignAll_ok ⟨3, 0b1011, 1⟩ [3, 1, 0] (by decide) (by decide) (by decide) cores 0
  exact ⟨assigned, after, ran, master (by decide)⟩

end AssignState

end Shyper.Kernel
