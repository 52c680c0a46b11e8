import Mathlib.Algebra.Order.BigOperators.Group.List
import Shyper.Config.VmConfigTable
import Shyper.Kernel.Ipi
import Shyper.Kernel.Vm

/-! `kernel/hvc.rs` and `ivc_update_mq` of `kernel/ivc.rs`: the messages of the hypervisor to
the guests, through a ring of slots in a page that the guest has registered. -/

namespace Shyper.Kernel

open Config Lib

def hvcVmm : Nat := 1
def hvcMediated : Nat := 3
def hvcConfig : Nat := 0x11
def hvcUnilib : Nat := 0x12

def hvcVmmRebootVm : Nat := 4
def hvcVmmMigrateStart : Nat := 10
def hvcVmmMigrateFinish : Nat := 13
def hvcVmmMigrateVmBoot : Nat := 15
def hvcConfigUploadKernelImage : Nat := 9

def migrateFinish : Nat := 2

inductive HvcGuestMsg where
  | default (fid event : Nat)
  | manage (fid event vmId : Nat)
  | migrate (fid event vmId oper pageNum : Nat)
  | uniLib (fid event vmId arg1 arg2 arg3 : Nat)
deriving DecidableEq

namespace HvcGuestMsg

def fid : HvcGuestMsg → Nat
  | .default fid _ | .manage fid _ _ | .migrate fid _ _ _ _ | .uniLib fid _ _ _ _ _ => fid

def event : HvcGuestMsg → Nat
  | .default _ event | .manage _ event _ | .migrate _ event _ _ _ | .uniLib _ event _ _ _ _ => event

/-- `size_of`, of the message in the enumeration. -/
def size : HvcGuestMsg → Nat
  | .default .. => 16
  | .manage .. => 24
  | .migrate .. => 40
  | .uniLib .. => 48

end HvcGuestMsg

structure IpiHvcMsg where
  srcVmid : Nat
  trgtVmid : Nat
  fid : Nat
  event : Nat
deriving DecidableEq

/-- What stays the same: the VMs, the core of each one's vCPU 0 (`master_cpu_id`), the vCPU of a
VM that is on a core, and the core of a vCPU. -/
structure Machine where
  vm : Nat → Option Vm
  masterCpuId : Nat → Nat
  vcpuArray : Nat → Nat → Option Nat
  physId : Nat → Nat → Nat
  memMapPageNum : Nat → Nat
  named : ∀ id, (vm id).isSome → id < vmNumMax
  seated : ∀ id, (vm id).isSome → vcpuArray (masterCpuId id) id = some 0
  placed : ∀ id, (vm id).isSome → physId id 0 = masterCpuId id
  aligned : ∀ id vm', vm id = some vm' → ∀ region ∈ vm'.paRegion, region.offset.toNat % pageSize = 0

/-- `slots` and `injected` are a history: what was copied for a VM since it registered its page,
and how often `HVC_IRQ` was injected into a vCPU; `sent` counts the messages that were copied. -/
structure HvcState where
  ivcArg : Nat → UInt64
  ivcArgPtr : Nat → UInt64
  cpuIf : Nat → CpuIf IpiHvcMsg
  slots : Nat → List (UInt64 × HvcGuestMsg)
  sent : Nat → Nat
  injected : Nat → Nat → Nat

def HvcState.initial : HvcState := ⟨fun _ => 0, fun _ => 0, fun _ => ⟨[]⟩, fun _ => [], fun _ => 0, fun _ _ => 0⟩

namespace HvcState

variable (machine : Machine) (state : HvcState)

/-- With what it returns. -/
def ivcUpdateMq (vmId : Nat) (vm : Vm) (receiveIpa cfgIpa : UInt64) : Bool × HvcState :=
  let receivePa := vmIpa2pa vm receiveIpa
  let cfgPa := vmIpa2pa vm cfgIpa
  if receivePa = 0 then (false, state)
  else
    (true, { state with
      ivcArg := Function.update state.ivcArg vmId cfgPa
      ivcArgPtr := Function.update state.ivcArgPtr vmId (cfgPa - (pageSize / vmNumMax).toUInt64)
      slots := Function.update state.slots vmId [] })

/-- `interrupt_vm_inject` of `HVC_IRQ`. -/
def interruptVmInject (core vmId vcpuId : Nat) : HvcState :=
  if machine.physId vmId vcpuId ≠ core then state
  else
    let counts := Function.update (state.injected vmId) vcpuId (state.injected vmId vcpuId + 1)
    { state with injected := Function.update state.injected vmId counts }

/-- `none` on a panic, as in all that follows. -/
def hvcGuestNotify (core vmId : Nat) : Option HvcState :=
  if (machine.vm vmId).isNone then none
  else
    match machine.vcpuArray core vmId with
    | none => some state
    | some vcpuId => some (state.interruptVmInject machine core vmId vcpuId)

/-- `ipi_send_msg` of a message of type `IpiTHvc`. -/
def sendHvcIpi (core trgt : Nat) (msg : IpiHvcMsg) : HvcState :=
  { state with cpuIf := Function.update state.cpuIf trgt ((state.cpuIf trgt).push ⟨core, .ipiTHvc, msg⟩) }

/-- The slot for a message, and the place the cursor is left at. -/
def targetAddr (vmId : Nat) : UInt64 :=
  let argPtrAddr := state.ivcArgPtr vmId + (pageSize / vmNumMax).toUInt64
  if argPtrAddr - state.ivcArg vmId ≥ pageSize.toUInt64 then state.ivcArg vmId else argPtrAddr

def hvcSendMsgToVm (core vmId : Nat) (guestMsg : HvcGuestMsg) : Option (Bool × HvcState) :=
  if vmId ≥ vmNumMax then none
  else if state.ivcArgPtr vmId = 0 then some (false, state)
  else
    let targetAddr := state.targetAddr vmId
    let state := { state with ivcArgPtr := Function.update state.ivcArgPtr vmId targetAddr }
    if targetAddr = 0 then some (false, state)
    else if targetAddr < 0x1000 then none
    else
      let state := { state with
        slots := Function.update state.slots vmId (state.slots vmId ++ [(targetAddr, guestMsg)])
        sent := Function.update state.sent vmId (state.sent vmId + 1) }
      let cpuTrgt := machine.masterCpuId vmId
      if cpuTrgt ≠ core then
        some (true, state.sendHvcIpi core cpuTrgt ⟨0, vmId, guestMsg.fid, guestMsg.event⟩)
      else (state.hvcGuestNotify machine core vmId).map fun state => (true, state)

/-- The copy of the dirty bitmap is left out. -/
def migrateFinishIpiHandler (core vmId : Nat) : Option HvcState :=
  (state.hvcSendMsgToVm machine core 0
    (.migrate hvcVmm hvcVmmMigrateStart vmId migrateFinish (machine.memMapPageNum vmId))).map Prod.snd

/-- What is done for the migration itself, beside the messages, is left out. -/
def hvcIpiHandler (core : Nat) (msg : IpiHvcMsg) : Option HvcState :=
  match machine.vcpuArray core msg.trgtVmid with
  | none => some state
  | some vcpuId =>
    if msg.fid = hvcMediated then state.hvcGuestNotify machine core msg.trgtVmid
    else if msg.fid = hvcVmm then
      if msg.event = hvcVmmMigrateStart then state.hvcGuestNotify machine core msg.trgtVmid
      else if msg.event = hvcVmmMigrateFinish then
        if core = 0 then state.migrateFinishIpiHandler machine core msg.srcVmid
        else if vcpuId = 0 then some (state.sendHvcIpi core 0 ⟨msg.trgtVmid, 0, hvcVmm, hvcVmmMigrateFinish⟩)
        else some state
      else some state
    else if msg.fid = hvcConfig then
      if msg.event = hvcConfigUploadKernelImage then state.hvcGuestNotify machine core msg.trgtVmid else none
    else if msg.fid = hvcUnilib then state.hvcGuestNotify machine core msg.trgtVmid
    else none

/-- A core takes the newest of its messages. -/
def hvcIpi (core : Nat) : Option HvcState :=
  match (state.cpuIf core).pop with
  | (none, _) => none
  | (some msg, cpuIf) =>
    { state with cpuIf := Function.update state.cpuIf core cpuIf }.hvcIpiHandler machine core msg.ipiMessage

end HvcState

/-- A registration and a send come with what they return. -/
inductive HvcLabel where
  | updateMq (vmId : Nat) (receiveIpa cfgIpa : UInt64) (accepted : Bool)
  | send (core vmId : Nat) (guestMsg : HvcGuestMsg) (written : Bool)
  | ipi (core : Nat)

/-- One step of the machine. -/
def HvcState.Step (machine : Machine) (state : HvcState) (label : HvcLabel) (after : HvcState) : Prop :=
  match label with
  | .updateMq vmId receiveIpa cfgIpa accepted =>
    ∃ vm, machine.vm vmId = some vm ∧ state.ivcUpdateMq vmId vm receiveIpa cfgIpa = (accepted, after)
  | .send core vmId guestMsg written => state.hvcSendMsgToVm machine core vmId guestMsg = some (written, after)
  | .ipi core => state.hvcIpi machine core = some after

/-- The families of messages that `hvc_ipi_handler` makes a notification of. -/
def Notified (fid event : Nat) : Prop :=
  fid = hvcMediated ∨ fid = hvcUnilib ∨ fid = hvcVmm ∧ event = hvcVmmMigrateStart ∨
    fid = hvcConfig ∧ event = hvcConfigUploadKernelImage

instance (fid event : Nat) : Decidable (Notified fid event) := by
  unfold Notified
  infer_instance

/-- A guest registers a page that is aligned; where the other address translates, so does this
one. A message that goes to another core is of a family with a notification. -/
def Orderly (machine : Machine) (_ : HvcState) : HvcLabel → Prop
  | .updateMq vmId receiveIpa cfgIpa _ => cfgIpa.toNat % pageSize = 0 ∧ ∀ vm, machine.vm vmId = some vm →
      vmIpa2pa vm receiveIpa ≠ 0 → vmIpa2pa vm cfgIpa ≠ 0
  | .send core vmId guestMsg _ => core = machine.masterCpuId vmId ∨ Notified guestMsg.fid guestMsg.event
  | .ipi _ => True

/-- The slot of a message by its number since the registration. -/
def slotAddr (page : UInt64) (number : Nat) : UInt64 :=
  page + (number % vmNumMax * (pageSize / vmNumMax)).toUInt64

namespace HvcState

/-- The messages for a VM that wait on the core of its vCPU 0. -/
def waiting (machine : Machine) (state : HvcState) (vmId : Nat) : Nat :=
  (state.cpuIf (machine.masterCpuId vmId)).msgQueue.countP fun msg => msg.ipiMessage.trgtVmid == vmId

/-- Every message is in its slot of the page, and has been injected once or still waits. -/
structure Arrived (machine : Machine) (state : HvcState) : Prop where
  inside : ∀ vmId addr guestMsg, (addr, guestMsg) ∈ state.slots vmId → (state.ivcArg vmId).toNat ≤ addr.toNat ∧
    addr.toNat + guestMsg.size ≤ (state.ivcArg vmId).toNat + pageSize
  inTurn : ∀ vmId, (state.slots vmId).map Prod.fst =
    (List.range (state.slots vmId).length).map (slotAddr (state.ivcArg vmId))
  reused : ∀ vmId first second addr, first < second → ((state.slots vmId).map Prod.fst)[first]? = some addr →
    ((state.slots vmId).map Prod.fst)[second]? = some addr → first + vmNumMax ≤ second
  once : ∀ vmId, state.injected vmId 0 + state.waiting machine vmId = state.sent vmId
  master : ∀ vmId vcpuId, vcpuId ≠ 0 → state.injected vmId vcpuId = 0
  prepared : ∀ vmId, state.ivcArgPtr vmId ≠ 0 → state.ivcArg vmId ≠ 0

/-- What is sent to a prepared interface is taken, and no message on a core stops it. -/
structure Delivers (machine : Machine) (state : HvcState) : Prop where
  takes : ∀ core vmId guestMsg, state.ivcArgPtr vmId ≠ 0 →
    ∃ after, state.hvcSendMsgToVm machine core vmId guestMsg = some (true, after)
  handles : ∀ core, (state.cpuIf core).msgQueue ≠ [] → ∃ after, state.hvcIpi machine core = some after

end HvcState

/-- No registration with an address that does not translate was accepted. -/
def Refused (machine : Machine) (trace : List HvcLabel) : Prop :=
  ∀ vmId receiveIpa cfgIpa accepted, .updateMq vmId receiveIpa cfgIpa accepted ∈ trace →
    ∀ vm, machine.vm vmId = some vm → vmIpa2pa vm receiveIpa = 0 ∨ vmIpa2pa vm cfgIpa = 0 → accepted = false

section Slots

variable {page : UInt64} {number : Nat}

/-- Where the cursor is once a number of messages is written. -/
def cursor (page : UInt64) : Nat → UInt64
  | 0 => page - (pageSize / vmNumMax).toUInt64
  | number + 1 => slotAddr page number

/-- A page that may hold a ring. -/
structure Page (page : UInt64) : Prop where
  present : page ≠ 0
  aligned : page.toNat % pageSize = 0

theorem slotAddr_toNat (holds : Page page) (number : Nat) :
    (slotAddr page number).toNat = page.toNat + number % 8 * 512 := by
  have bound := page.toNat_lt
  have aligned : page.toNat % 4096 = 0 := holds.aligned
  have small : number % 8 < 8 := Nat.mod_lt _ (by decide)
  have offset : (number % vmNumMax * (pageSize / vmNumMax)).toUInt64.toNat = number % 8 * 512 := by
    rw [Nat.toUInt64_eq, UInt64.toNat_ofNat']
    exact Nat.mod_eq_of_lt (by rw [vmNumMax, pageSize]; omega)
  rw [slotAddr, UInt64.toNat_add, offset]
  omega

theorem Page.ge (holds : Page page) : 4096 ≤ page.toNat := by
  have some : page.toNat ≠ 0 := fun zero => holds.present (UInt64.toNat_inj.mp zero)
  have aligned : page.toNat % 4096 = 0 := holds.aligned
  omega

/-- A slot is used again once all the others have been. -/
theorem slotAddr_inj (holds : Page page) {first second : Nat} :
    slotAddr page first = slotAddr page second ↔ first % vmNumMax = second % vmNumMax := by
  rw [← UInt64.toNat_inj, slotAddr_toNat holds, slotAddr_toNat holds, vmNumMax]
  omega

/-- The slot behind the cursor, back at the start of the page once that is past its end. -/
theorem next_slot (page : UInt64) (number : Nat) :
    (if cursor page number + (pageSize / vmNumMax).toUInt64 - page ≥ pageSize.toUInt64 then page
      else cursor page number + (pageSize / vmNumMax).toUInt64) = slotAddr page number := by
  have width : (pageSize / vmNumMax).toUInt64 = 512 := by decide
  have whole : pageSize.toUInt64 = 4096 := by decide
  cases number with
  | zero =>
    have zero : slotAddr page 0 = page := by
      rw [slotAddr]
      exact UInt64.add_zero page
    rw [cursor, UInt64.sub_add_cancel, UInt64.sub_self, if_neg (by decide), zero]
  | succ number =>
    have gone : slotAddr page number + (pageSize / vmNumMax).toUInt64 - page =
        (number % vmNumMax * (pageSize / vmNumMax)).toUInt64 + 512 := by
      rw [slotAddr, width, UInt64.add_assoc, UInt64.add_comm page, UInt64.add_sub_cancel]
    obtain ⟨turn, same⟩ : ∃ turn, number % vmNumMax = turn := ⟨_, rfl⟩
    have turns : turn < 8 := same ▸ Nat.mod_lt number (by decide)
    have moved : (turn * (pageSize / vmNumMax)).toUInt64 + 512 = ((turn + 1) * (pageSize / vmNumMax)).toUInt64 := by
      apply UInt64.toNat_inj.mp
      simp only [pageSize, vmNumMax, UInt64.toNat_add, Nat.toUInt64_eq, UInt64.toNat_ofNat', UInt64.reduceToNat]
      omega
    have place : ((turn + 1) * (pageSize / vmNumMax)).toUInt64.toNat = (turn + 1) * 512 := by
      rw [Nat.toUInt64_eq, UInt64.toNat_ofNat']
      exact Nat.mod_eq_of_lt (by rw [vmNumMax, pageSize]; omega)
    rw [cursor, gone, whole, slotAddr, slotAddr, same, width, UInt64.add_assoc, moved]
    by_cases last : turn = 7
    · have start : (number + 1) % vmNumMax = 0 := by
        rw [vmNumMax] at same ⊢
        omega
      have past : ((turn + 1) * (pageSize / vmNumMax)).toUInt64 ≥ 4096 := by
        apply UInt64.le_iff_toNat_le.mpr
        rw [place]
        simp only [UInt64.reduceToNat]
        omega
      rw [if_pos past, start]
      exact (UInt64.add_zero page).symm
    · have next : (number + 1) % vmNumMax = turn + 1 := by
        rw [vmNumMax] at same ⊢
        omega
      have within : ¬((turn + 1) * (pageSize / vmNumMax)).toUInt64 ≥ 4096 := by
        intro past
        have bound := UInt64.le_iff_toNat_le.mp past
        rw [place] at bound
        simp only [UInt64.reduceToNat] at bound
        omega
      rw [if_neg within, next]

end Slots

namespace HvcState

variable {machine : Machine} {state after : HvcState} {core vmId : Nat} {guestMsg : HvcGuestMsg}

/-- The ring of a VM: not there yet, or in a page, with the cursor behind what was written. -/
def Ringed (state : HvcState) (vmId : Nat) : Prop :=
  state.ivcArg vmId = 0 ∧ state.ivcArgPtr vmId = 0 ∧ state.slots vmId = [] ∨
  Page (state.ivcArg vmId) ∧ state.ivcArgPtr vmId = cursor (state.ivcArg vmId) (state.slots vmId).length ∧
    (state.slots vmId).map Prod.fst = (List.range (state.slots vmId).length).map (slotAddr (state.ivcArg vmId))

/-- What holds in every state of an orderly run. -/
structure Running (machine : Machine) (state : HvcState) : Prop where
  ringed : ∀ vmId, state.Ringed vmId
  known : ∀ vmId, state.ivcArgPtr vmId ≠ 0 → (machine.vm vmId).isSome
  waits : ∀ core, ∀ msg ∈ (state.cpuIf core).msgQueue, Notified msg.ipiMessage.fid msg.ipiMessage.event ∧
    (machine.vm msg.ipiMessage.trgtVmid).isSome ∧ core = machine.masterCpuId msg.ipiMessage.trgtVmid
  once : ∀ vmId, state.injected vmId 0 + state.waiting machine vmId = state.sent vmId
  master : ∀ vmId vcpuId, vcpuId ≠ 0 → state.injected vmId vcpuId = 0

theorem HvcGuestMsg.size_le (guestMsg : HvcGuestMsg) : guestMsg.size ≤ 512 := by
  cases guestMsg <;> simp only [HvcGuestMsg.size] <;> omega

theorem running_initial : Running machine initial where
  ringed := fun _ => .inl ⟨rfl, rfl, rfl⟩
  known := fun _ prepared => absurd rfl prepared
  waits := fun _ _ none => absurd none List.not_mem_nil
  once := fun _ => rfl
  master := fun _ _ _ => rfl

/-- An aligned guest address that translates does so to a page. -/
theorem page_of_translated {vm : Vm} {cfgIpa : UInt64} (known : machine.vm vmId = some vm)
    (aligned : cfgIpa.toNat % pageSize = 0) (translates : vmIpa2pa vm cfgIpa ≠ 0) : Page (vmIpa2pa vm cfgIpa) := by
  refine ⟨translates, ?_⟩
  rcases vmIpa2pa_cases vm cfgIpa with fails | ⟨region, found, moved⟩
  · exact absurd fails translates
  · have offset := machine.aligned vmId vm known region (List.mem_of_find?_eq_some found)
    rw [pageSize] at aligned offset ⊢
    rw [moved, UInt64.toNat_sub]
    have bound := region.offset.toNat_lt
    omega

/-- The count of one vCPU goes up, where the vCPU of the VM on the core is vCPU 0. -/
theorem hvcGuestNotify_seated (known : (machine.vm vmId).isSome) (seat : core = machine.masterCpuId vmId) :
    state.hvcGuestNotify machine core vmId = some { state with
      injected := Function.update state.injected vmId
        (Function.update (state.injected vmId) 0 (state.injected vmId 0 + 1)) } := by
  have none : ¬(machine.vm vmId).isNone = true := by
    rw [Option.isNone_iff_eq_none]
    exact Option.isSome_iff_ne_none.mp known
  have seated := machine.seated vmId known
  have placed := machine.placed vmId known
  rw [hvcGuestNotify, if_neg none, seat, seated]
  simp only [interruptVmInject, placed, ne_eq, not_true_eq_false, ↓reduceIte]

/-- The state once a message is copied. -/
def copied (state : HvcState) (vmId : Nat) (guestMsg : HvcGuestMsg) : HvcState :=
  { state with
    ivcArgPtr := Function.update state.ivcArgPtr vmId (state.targetAddr vmId)
    slots := Function.update state.slots vmId (state.slots vmId ++ [(state.targetAddr vmId, guestMsg)])
    sent := Function.update state.sent vmId (state.sent vmId + 1) }

/-- A prepared interface takes the message, and its VM is notified on the core or told to be. -/
theorem hvcSendMsgToVm_prepared (core : Nat) (guestMsg : HvcGuestMsg) (running : Running machine state)
    (prepared : state.ivcArgPtr vmId ≠ 0) :
    state.targetAddr vmId = slotAddr (state.ivcArg vmId) (state.slots vmId).length ∧ Page (state.ivcArg vmId) ∧
    state.hvcSendMsgToVm machine core vmId guestMsg = some (true,
      if machine.masterCpuId vmId ≠ core then
        (state.copied vmId guestMsg).sendHvcIpi core (machine.masterCpuId vmId)
          ⟨0, vmId, guestMsg.fid, guestMsg.event⟩
      else
        { state.copied vmId guestMsg with
          injected := Function.update state.injected vmId
            (Function.update (state.injected vmId) 0 (state.injected vmId 0 + 1)) }) := by
  have known := running.known vmId prepared
  rcases running.ringed vmId with ⟨_, unprepared, _⟩ | ⟨page, place, _⟩
  · exact absurd unprepared prepared
  · have target : state.targetAddr vmId = slotAddr (state.ivcArg vmId) (state.slots vmId).length := by
      rw [targetAddr, place]
      exact next_slot (state.ivcArg vmId) (state.slots vmId).length
    have ge := page.ge
    have value := slotAddr_toNat page (state.slots vmId).length
    have some : ¬state.targetAddr vmId = 0 := by
      intro zero
      have none := congrArg UInt64.toNat zero
      rw [target, value, UInt64.toNat_zero] at none
      omega
    have mapped : ¬state.targetAddr vmId < 0x1000 := by
      intro low
      have bound := UInt64.lt_iff_toNat_lt.mp low
      rw [target, value] at bound
      simp only [UInt64.reduceToNat] at bound
      omega
    refine ⟨target, page, ?_⟩
    rw [hvcSendMsgToVm, if_neg (Nat.not_le.mpr (machine.named vmId known)), if_neg prepared]
    simp only [some, mapped, ↓reduceIte]
    by_cases away : machine.masterCpuId vmId ≠ core
    · rw [if_pos away, if_pos away]
      rfl
    · rw [if_neg away, if_neg away, hvcGuestNotify_seated known (not_not.mp away).symm]
      rfl

/-- A message that is copied goes on the ring of its VM. -/
theorem ringed_copied (guestMsg : HvcGuestMsg) (running : Running machine state)
    (prepared : state.ivcArgPtr vmId ≠ 0) (other : Nat) :
    (state.copied vmId guestMsg).Ringed other := by
  obtain ⟨target, page, _⟩ := hvcSendMsgToVm_prepared 0 guestMsg running prepared
  by_cases same : other = vmId
  · subst same
    rcases running.ringed other with ⟨_, unprepared, _⟩ | ⟨_, _, slots⟩
    · exact absurd unprepared prepared
    · refine .inr ⟨page, ?_, ?_⟩
      · simp only [copied, Function.update_self, List.length_append, List.length_singleton]
        exact target
      · simp only [copied, Function.update_self, List.map_append, List.length_append, List.length_singleton,
          List.map_cons, List.map_nil, slots, target, List.range_succ]
  · simp only [Ringed, copied, Function.update_of_ne same]
    exact running.ringed other

theorem waiting_sendHvcIpi (state : HvcState) (msg : IpiHvcMsg) (other : Nat) :
    (state.sendHvcIpi core (machine.masterCpuId msg.trgtVmid) msg).waiting machine other =
      state.waiting machine other + if other = msg.trgtVmid then 1 else 0 := by
  by_cases same : other = msg.trgtVmid
  · subst same
    simp [waiting, sendHvcIpi, CpuIf.push]
  · have differ : (msg.trgtVmid == other) = false := by simpa using fun eq => same eq.symm
    rw [if_neg same, Nat.add_zero]
    by_cases shared : machine.masterCpuId other = machine.masterCpuId msg.trgtVmid
    · simp [waiting, sendHvcIpi, CpuIf.push, shared, differ]
    · simp only [waiting, sendHvcIpi, Function.update_of_ne shared]

/-- One more injection into vCPU 0, against one message more or one that waited. -/
theorem injected_zero (state : HvcState) (vmId other : Nat) :
    Function.update state.injected vmId
        (Function.update (state.injected vmId) 0 (state.injected vmId 0 + 1)) other 0 =
      state.injected other 0 + if other = vmId then 1 else 0 := by
  by_cases same : other = vmId
  · subst same
    simp
  · simp [same]

theorem injected_master (master : ∀ vmId vcpuId, vcpuId ≠ 0 → state.injected vmId vcpuId = 0)
    (vmId other vcpuId : Nat) (apart : vcpuId ≠ 0) :
    Function.update state.injected vmId
        (Function.update (state.injected vmId) 0 (state.injected vmId 0 + 1)) other vcpuId = 0 := by
  by_cases same : other = vmId
  · subst same
    rw [Function.update_self, Function.update_of_ne apart]
    exact master other vcpuId apart
  · rw [Function.update_of_ne same]
    exact master other vcpuId apart

theorem known_copied (guestMsg : HvcGuestMsg) (running : Running machine state)
    (prepared : state.ivcArgPtr vmId ≠ 0) (other : Nat)
    (cursor : (state.copied vmId guestMsg).ivcArgPtr other ≠ 0) : (machine.vm other).isSome := by
  by_cases same : other = vmId
  · exact same ▸ running.known vmId prepared
  · simp only [copied, Function.update_of_ne same] at cursor
    exact running.known other cursor

theorem sent_copied (state : HvcState) (vmId : Nat) (guestMsg : HvcGuestMsg) (other : Nat) :
    (state.copied vmId guestMsg).sent other = state.sent other + if other = vmId then 1 else 0 := by
  by_cases same : other = vmId
  · subst same
    simp [copied]
  · simp [copied, same]

theorem Running.send {written : Bool} (running : Running machine state)
    (orderly : core = machine.masterCpuId vmId ∨ Notified guestMsg.fid guestMsg.event)
    (taken : state.hvcSendMsgToVm machine core vmId guestMsg = some (written, after)) : Running machine after := by
  by_cases prepared : state.ivcArgPtr vmId = 0
  · rw [hvcSendMsgToVm] at taken
    obtain ⟨_, taken⟩ := Option.ite_none_left_eq_some.mp taken
    rw [if_pos prepared] at taken
    cases taken
    exact running
  · obtain ⟨_, _, sends⟩ := hvcSendMsgToVm_prepared core guestMsg running prepared
    rw [sends] at taken
    have ringed := ringed_copied guestMsg running prepared
    have known := known_copied guestMsg running prepared
    by_cases away : machine.masterCpuId vmId ≠ core
    · rw [if_pos away] at taken
      cases taken
      have notified := orderly.resolve_left fun seat => away seat.symm
      refine ⟨ringed, known, fun at' msg member => ?_, fun other => ?_, running.master⟩
      · by_cases here : at' = machine.masterCpuId vmId
        · subst here
          simp only [sendHvcIpi, Function.update_self, CpuIf.push, List.mem_append, List.mem_singleton] at member
          rcases member with before | rfl
          · exact running.waits _ msg before
          · exact ⟨notified, running.known vmId prepared, rfl⟩
        · simp only [sendHvcIpi, Function.update_of_ne here] at member
          exact running.waits at' msg member
      · have waits : ((state.copied vmId guestMsg).sendHvcIpi core (machine.masterCpuId vmId)
            ⟨0, vmId, guestMsg.fid, guestMsg.event⟩).waiting machine other =
              state.waiting machine other + if other = vmId then 1 else 0 :=
          waiting_sendHvcIpi (state.copied vmId guestMsg) ⟨0, vmId, guestMsg.fid, guestMsg.event⟩ other
        have sent := sent_copied state vmId guestMsg other
        have once := running.once other
        rw [waits]
        change state.injected other 0 + (state.waiting machine other + if other = vmId then 1 else 0) =
          (state.copied vmId guestMsg).sent other
        rw [sent]
        omega
    · rw [if_neg away] at taken
      cases taken
      refine ⟨ringed, known, running.waits, fun other => ?_, injected_master running.master vmId⟩
      have injected := injected_zero state vmId other
      have sent := sent_copied state vmId guestMsg other
      have once := running.once other
      have same : (state.copied vmId guestMsg).waiting machine other = state.waiting machine other := rfl
      change Function.update state.injected vmId _ other 0 + (state.copied vmId guestMsg).waiting machine other =
        (state.copied vmId guestMsg).sent other
      rw [injected, same, sent]
      omega

/-- A message of a family with a notification becomes one. -/
theorem hvcIpiHandler_notified {msg : IpiHvcMsg} (notified : Notified msg.fid msg.event)
    (known : (machine.vm msg.trgtVmid).isSome) (seat : core = machine.masterCpuId msg.trgtVmid) :
    state.hvcIpiHandler machine core msg = state.hvcGuestNotify machine core msg.trgtVmid := by
  have seated : machine.vcpuArray core msg.trgtVmid = some 0 := seat ▸ machine.seated msg.trgtVmid known
  rw [hvcIpiHandler, seated]
  rcases notified with mediated | unilib | ⟨vmm, start⟩ | ⟨config, upload⟩
  · simp only [mediated, ↓reduceIte]
  · have other : hvcUnilib ≠ hvcMediated ∧ hvcUnilib ≠ hvcVmm ∧ hvcUnilib ≠ hvcConfig := by decide
    simp only [unilib, other.1, other.2.1, other.2.2, ↓reduceIte]
  · have other : hvcVmm ≠ hvcMediated := by decide
    simp only [vmm, start, other, ↓reduceIte]
  · have other : hvcConfig ≠ hvcMediated ∧ hvcConfig ≠ hvcVmm := by decide
    simp only [config, upload, other.1, other.2, ↓reduceIte]

/-- Taking a message off a core takes one from what waits for its VM. -/
theorem waiting_pop (state : HvcState) {msg : IpiMessage IpiHvcMsg} {rest : List (IpiMessage IpiHvcMsg)}
    (queue : (state.cpuIf core).msgQueue = rest ++ [msg])
    (seat : core = machine.masterCpuId msg.ipiMessage.trgtVmid) (other : Nat) :
    waiting machine { state with cpuIf := Function.update state.cpuIf core ⟨rest⟩ } other +
      (if other = msg.ipiMessage.trgtVmid then 1 else 0) = state.waiting machine other := by
  by_cases here : machine.masterCpuId other = core
  · simp only [waiting, here, Function.update_self, queue, List.countP_append, List.countP_singleton]
    congr 1
    exact if_congr (by rw [beq_iff_eq, eq_comm]) rfl rfl
  · have differ : other ≠ msg.ipiMessage.trgtVmid := fun same => here (same ▸ seat.symm)
    simp only [waiting, Function.update_of_ne here, if_neg differ, Nat.add_zero]

/-- What a core makes of the newest of its messages. -/
theorem hvcIpi_spec (running : Running machine state) {msg : IpiMessage IpiHvcMsg}
    {rest : List (IpiMessage IpiHvcMsg)} (queue : (state.cpuIf core).msgQueue = rest ++ [msg]) :
    state.hvcIpi machine core = some { state with
      cpuIf := Function.update state.cpuIf core ⟨rest⟩
      injected := Function.update state.injected msg.ipiMessage.trgtVmid
        (Function.update (state.injected msg.ipiMessage.trgtVmid) 0
          (state.injected msg.ipiMessage.trgtVmid 0 + 1)) } := by
  have member : msg ∈ (state.cpuIf core).msgQueue := by simp [queue]
  obtain ⟨notified, known, seat⟩ := running.waits core msg member
  have popped : (state.cpuIf core).pop = (some msg, ⟨rest⟩) := by simp [CpuIf.pop, queue]
  rw [hvcIpi, popped]
  exact (hvcIpiHandler_notified notified known seat).trans (hvcGuestNotify_seated known seat)

theorem Running.ipi (running : Running machine state) (taken : state.hvcIpi machine core = some after) :
    Running machine after := by
  rcases List.eq_nil_or_concat (state.cpuIf core).msgQueue with none | ⟨rest, msg, queue⟩
  · have popped : (state.cpuIf core).pop.1 = Option.none := by simp [CpuIf.pop, none]
    rw [hvcIpi] at taken
    split at taken
    · cases taken
    · rename_i found
      rw [found] at popped
      cases popped
  · rw [List.concat_eq_append] at queue
    rw [hvcIpi_spec running queue] at taken
    cases taken
    have member : msg ∈ (state.cpuIf core).msgQueue := by simp [queue]
    have seat := (running.waits core msg member).2.2
    refine ⟨running.ringed, running.known, fun at' one old => ?_, fun other => ?_,
      injected_master running.master msg.ipiMessage.trgtVmid⟩
    · by_cases here : at' = core
      · subst here
        simp only [Function.update_self] at old
        exact running.waits at' one (queue ▸ List.mem_append_left _ old)
      · simp only [Function.update_of_ne here] at old
        exact running.waits at' one old
    · have waits := waiting_pop state queue seat other
      have once := running.once other
      have injected := injected_zero state msg.ipiMessage.trgtVmid other
      change Function.update state.injected _ _ other 0 +
        waiting machine { state with cpuIf := Function.update state.cpuIf core ⟨rest⟩ } other = state.sent other
      rw [injected]
      omega

theorem Running.updateMq {vm : Vm} {receiveIpa cfgIpa : UInt64} {accepted : Bool}
    (running : Running machine state) (known : machine.vm vmId = some vm)
    (aligned : cfgIpa.toNat % pageSize = 0) (both : vmIpa2pa vm receiveIpa ≠ 0 → vmIpa2pa vm cfgIpa ≠ 0)
    (taken : state.ivcUpdateMq vmId vm receiveIpa cfgIpa = (accepted, after)) : Running machine after := by
  by_cases fails : vmIpa2pa vm receiveIpa = 0
  · rw [ivcUpdateMq, if_pos fails] at taken
    cases taken
    exact running
  · rw [ivcUpdateMq, if_neg fails] at taken
    cases taken
    have page := page_of_translated known aligned (both fails)
    refine ⟨fun other => ?_, fun other cursor => ?_, running.waits, running.once, running.master⟩
    · by_cases same : other = vmId
      · subst same
        refine .inr ?_
        simp only [Function.update_self]
        exact ⟨page, rfl, rfl⟩
      · simp only [Ringed, Function.update_of_ne same]
        exact running.ringed other
    · by_cases same : other = vmId
      · rw [same, known]
        rfl
      · simp only [Function.update_of_ne same] at cursor
        exact running.known other cursor

theorem Running.step {label : HvcLabel} (running : Running machine state)
    (taken : Guarded (Orderly machine) (Step machine) state label after) : Running machine after := by
  obtain ⟨orderly, taken⟩ := taken
  cases label with
  | updateMq vmId receiveIpa cfgIpa accepted =>
    obtain ⟨vm, known, updated⟩ := taken
    exact running.updateMq known orderly.1 (orderly.2 vm known) updated
  | send core vmId guestMsg written => exact running.send orderly taken
  | ipi core => exact running.ipi taken

theorem Running.arrived (running : Running machine state) : state.Arrived machine := by
  refine ⟨fun vmId addr guestMsg member => ?_, fun vmId => ?_, fun vmId first second addr before one other => ?_,
    running.once, running.master, fun vmId cursor => ?_⟩
  · rcases running.ringed vmId with ⟨_, _, none⟩ | ⟨page, _, slots⟩
    · rw [none] at member
      cases member
    · have listed : addr ∈ (state.slots vmId).map Prod.fst := List.mem_map_of_mem member
      rw [slots, List.mem_map] at listed
      obtain ⟨number, _, rfl⟩ := listed
      have size := HvcGuestMsg.size_le guestMsg
      have small : number % 8 < 8 := Nat.mod_lt _ (by decide)
      rw [slotAddr_toNat page, pageSize]
      omega
  · rcases running.ringed vmId with ⟨_, _, none⟩ | ⟨_, _, slots⟩
    · rw [none]
      rfl
    · exact slots
  · rcases running.ringed vmId with ⟨_, _, none⟩ | ⟨page, _, slots⟩
    · rw [none] at one
      cases one
    · rw [slots, List.getElem?_map] at one other
      obtain ⟨number, listed, one⟩ := Option.map_eq_some_iff.mp one
      obtain ⟨later, listed', other⟩ := Option.map_eq_some_iff.mp other
      obtain ⟨_, rfl⟩ := List.getElem?_eq_some_iff.mp listed
      obtain ⟨_, rfl⟩ := List.getElem?_eq_some_iff.mp listed'
      rw [List.getElem_range] at one other
      have turn := (slotAddr_inj page).mp (one.trans other.symm)
      rw [vmNumMax] at turn ⊢
      omega
  · rcases running.ringed vmId with ⟨_, unprepared, _⟩ | ⟨page, _⟩
    · exact absurd unprepared cursor
    · exact page.present

theorem Running.delivers (running : Running machine state) : state.Delivers machine := by
  refine ⟨fun core vmId guestMsg prepared => ?_, fun core waits => ?_⟩
  · exact ⟨_, (hvcSendMsgToVm_prepared _ _ running prepared).2.2⟩
  · rcases List.eq_nil_or_concat (state.cpuIf core).msgQueue with none | ⟨rest, msg, queue⟩
    · exact absurd none waits
    · rw [List.concat_eq_append] at queue
      exact ⟨_, hvcIpi_spec running queue⟩

variable {trace : List HvcLabel} {last : HvcState}

theorem refused_of_orderly (run : Run (Guarded (Orderly machine) (Step machine)) state trace last) :
    Refused machine trace := by
  induction run with
  | nil =>
    intro _ _ _ _ member
    cases member
  | cons taken rest ih =>
    intro vmId receiveIpa cfgIpa accepted member vm known fails
    rcases List.mem_cons.mp member with rfl | later
    · obtain ⟨⟨_, both⟩, vm', known', updated⟩ := taken
      obtain rfl := Option.some.inj (known.symm.trans known')
      have receive : vmIpa2pa vm receiveIpa = 0 := by
        by_contra translates
        exact both vm known translates (fails.resolve_left translates)
      rw [ivcUpdateMq, if_pos receive, Prod.mk.injEq] at updated
      exact updated.1.symm
    · exact ih vmId receiveIpa cfgIpa accepted later vm known fails

/-- Messages of the families with a notification arrive, and so do those sent on the core of the VM. -/
theorem arrived_of_orderly (run : Run (Guarded (Orderly machine) (Step machine)) .initial trace last) :
    last.Arrived machine ∧ last.Delivers machine ∧ Refused machine trace := by
  have running : Running machine last := run.invariant (fun _ _ _ => Running.step) running_initial
  exact ⟨running.arrived, running.delivers, refused_of_orderly run⟩

section Messages

/-- The memory of a VM: 256 MiB from guest address `0x40000000` on. -/
def memoryOf (id : Nat) : VmPa :=
  let paStart : UInt64 := if id = 0 then 0x80000000 else 0x90000000
  ⟨paStart, 0x10000000, 0x40000000 - paStart⟩

/-- Two VMs with one vCPU each, VM 0 on core 0 and VM 1 on core 1. -/
def twoCores : Machine where
  vm := fun id => if id < 2 then some { (default : Vm) with id := id, paRegion := [memoryOf id] } else none
  masterCpuId := id
  vcpuArray := fun core vmId => if core = vmId then some 0 else none
  physId := fun vmId _ => vmId
  memMapPageNum := fun _ => 0
  named := by
    intro id known
    by_cases low : id < 2
    · exact Nat.lt_of_lt_of_le low (by decide)
    · rw [if_neg low] at known
      cases known
  seated := fun id _ => if_pos rfl
  placed := fun _ _ => rfl
  aligned := by
    intro id vm known region member
    have own := (Option.ite_none_right_eq_some.mp known).2
    cases own
    obtain rfl := List.mem_singleton.mp member
    by_cases zero : id = 0
    · rw [memoryOf, if_pos zero]
      rfl
    · rw [memoryOf, if_neg zero]
      rfl

/-- VM 1 registers a page, and is sent a request for file access by core 0. -/
theorem unilib_arrives : ∃ last : HvcState, last.Arrived twoCores ∧ last.injected 1 0 = 1 ∧
    (last.slots 1).map Prod.fst = [0x90001000] := by
  have registers : Orderly twoCores .initial (.updateMq 1 0x40000000 0x40001000 true) := by
    refine ⟨by decide, fun vm known => ?_⟩
    obtain rfl := Option.some.inj known
    decide
  have notified : Notified hvcUnilib 0 := by decide
  obtain ⟨last, run, injected, slots⟩ : ∃ last, Run (Guarded (Orderly twoCores) (Step twoCores)) .initial
      [.updateMq 1 0x40000000 0x40001000 true, .send 0 1 (.uniLib hvcUnilib 0 1 0 0 0) true, .ipi 1] last ∧
      last.injected 1 0 = 1 ∧ (last.slots 1).map Prod.fst = [0x90001000] :=
    ⟨_, .cons ⟨registers, _, rfl, rfl⟩ (.cons ⟨Or.inr notified, rfl⟩ (.cons ⟨True.intro, rfl⟩ (.nil _))), rfl, rfl⟩
  exact ⟨last, (arrived_of_orderly run).1, injected, slots⟩

/-- A soft reboot of VM 1 that core 0 asks for is written, and never notified; and a page at an
address that VM 1 does not have is accepted. -/
theorem reboot_lost :
    (∃ last, Run (Step twoCores) .initial
      [.updateMq 1 0x40000000 0x40001000 true, .send 0 1 (.manage hvcVmm hvcVmmRebootVm 1) true, .ipi 1] last ∧
      ¬last.Arrived twoCores) ∧
    ∃ last, Run (Step twoCores) .initial [.updateMq 1 0x40000000 0x70000000 true] last ∧
      ¬Refused twoCores [.updateMq 1 0x40000000 0x70000000 true] := by
  constructor
  · refine ⟨_, .cons ⟨_, rfl, rfl⟩ (.cons rfl (.cons rfl (.nil _))), fun arrived => ?_⟩
    have once := arrived.once 1
    exact absurd once (by decide)
  · refine ⟨_, .cons ⟨_, rfl, rfl⟩ (.nil _), fun refused => ?_⟩
    have accepted := refused 1 0x40000000 0x70000000 true List.mem_cons_self _ rfl (.inr (by decide))
    cases accepted

end Messages

end HvcState

end Shyper.Kernel
