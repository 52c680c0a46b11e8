import Shyper.Arch.PageTableConfined
import Shyper.Kernel.HeapPool
import Shyper.Kernel.VmPool
import Shyper.Vmm.InitMemory

/-! The memory of the whole machine while VMs come and go: `mem_init` at the start, then
`vmm_init_memory`, `vmm_init_passthrough_device`, `shyper_init` and `vmm_remove_vm`, and the guests'
own writes through their stage-2 tables. -/

namespace Shyper.Vmm

open Arch Kernel Lib

def pteS2Device : UInt64 := 0x6c0

def sharedMemSizeMax : Nat := 0x200000

/-- A memory region of a VM's configuration. -/
structure VmMemoryRegion where
  ipaStart : UInt64
  length : UInt64
deriving DecidableEq

def VmMemoryRegion.at' (region : VmMemoryRegion) (pa : UInt64) : VmRegion := ⟨region.ipaStart, region.length, pa⟩

structure PassthroughRegion where
  ipa : UInt64
  pa : UInt64
  length : UInt64
  devProperty : Bool

/-- What a stretch of guest pages is mapped to. -/
structure MappedRange where
  region : VmRegion
  pte : UInt64

def PassthroughRegion.range (region : PassthroughRegion) : MappedRange :=
  ⟨⟨region.ipa, region.length, region.pa⟩, if region.devProperty then pteS2Device else pteS2Normal⟩

/-- A VM with its stage-2 table. `mapped` is what has been mapped for it beside its own memory. -/
structure HostVm where
  directory : UInt64
  pages : List PageFrame
  paRegion : List VmRegion
  mapped : List MappedRange

/-- `allocFailed` is a history that the code does not keep: whether a table has gone without a frame. -/
structure MemHost where
  memory : UInt64 → UInt64
  heap : HeapRegion
  vmRegion : List MemRegion
  sharedMem : Option UInt64
  vm : Nat → Option HostVm
  allocFailed : Bool

instance (region : VmRegion) (page : Nat) : Decidable (region.holds page) := inferInstanceAs (Decidable (_ ∧ _))

/-- The pages that ranges are mapped to, where no two share a guest page. -/
def mappedBy (ranges : List MappedRange) : PageMap := fun page =>
  (ranges.find? fun range => decide (range.region.holds page)).map fun range =>
    ⟨pageAt range.region.pa (page - range.region.ipaStart.toNat / 4096), range.pte⟩

namespace HostVm

def ranges (vm : HostVm) : List MappedRange := vm.paRegion.map (⟨·, pteS2Normal⟩) ++ vm.mapped

/-- The VM's memory. -/
def bytes (vm : HostVm) : Set Nat := {addr | ∃ region ∈ vm.paRegion, addr ∈ region.vmPa.bytes}

end HostVm

/-- The loop of `vmm_init_memory`, that takes memory for each region and maps it; `none` where it gives up. -/
def vmmInitRegions (vmId : Nat) : List VmMemoryRegion → List MemRegion → PtM (Option (List VmRegion × List MemRegion))
  | [], vmRegion => return some ([], vmRegion)
  | one :: rest, vmRegion => do
    let (vmRegion, pa) := memVmRegionAlloc vmRegion one.length.toNat
    let region := one.at' (UInt64.ofNat pa)
    if region.pa = 0 then return none
    else
      ptMapRange region.ipaStart region.length region.pa pteS2Normal (vmId == 0)
      return (← vmmInitRegions vmId rest vmRegion).map fun taken => (region :: taken.1, taken.2)

/-- `vmm_init_memory`, with a directory of its own. -/
def vmmInitMemoryRun (vmId : Nat) (config : List VmMemoryRegion) (vmRegion : List MemRegion) :
    PtM (Option (List VmRegion × List MemRegion)) := do
  match ← memPageAlloc with
  | none => return none
  | some frame =>
    modify fun state => { state with directory := frame.pa }
    vmmInitRegions vmId config vmRegion

/-- The ranges one after another, by 2 MiB where they are aligned to it. -/
def mapRanges : List MappedRange → PtM Unit
  | [] => return
  | range :: rest => do
    ptMapRange range.region.ipaStart range.region.length range.region.pa range.pte true
    mapRanges rest

/-- `memset` -/
def zeroBytes (memory : UInt64 → UInt64) (pa len : UInt64) : UInt64 → UInt64 :=
  fun addr => if addr - pa < len then 0 else memory addr

def clearRegions (memory : UInt64 → UInt64) (paRegion : List VmRegion) : UInt64 → UInt64 :=
  paRegion.foldl (fun memory region => zeroBytes memory region.pa region.length) memory

def freeRegions (vmRegion : List MemRegion) (paRegion : List VmRegion) : List MemRegion :=
  paRegion.foldl (fun vmRegion region => memVmRegionFree vmRegion region.pa.toNat region.length.toNat) vmRegion

namespace MemHost

variable (host : MemHost)

/-- The table of a VM, in the memory of the machine. -/
def table (vm : HostVm) : PtState := ⟨vm.directory, vm.pages, host.memory, host.heap, [], false⟩

def setVm (vmId : Nat) (vm : Option HostVm) : MemHost := { host with vm := Function.update host.vm vmId vm }

@[simp] theorem setVm_self (vmId : Nat) (vm : Option HostVm) : (host.setVm vmId vm).vm vmId = vm := Function.update_self ..

theorem setVm_of_ne {vmId other : Nat} (differ : other ≠ vmId) (vm : Option HostVm) :
    (host.setVm vmId vm).vm other = host.vm other := Function.update_of_ne differ ..

/-- The machine after work on a table. -/
def after (state : PtState) : MemHost :=
  { host with memory := state.memory, heap := state.heap, allocFailed := host.allocFailed || state.allocFailed }

def memSharedMemInit : MemHost :=
  match host.sharedMem with
  | some _ => host
  | none =>
    match memHeapAlloc host.heap (sharedMemSizeMax / pageSize) with
    | .ok (pa, heap) =>
      { host with
        memory := zeroBytes host.memory (UInt64.ofNat pa) (UInt64.ofNat sharedMemSizeMax)
        heap := heap
        sharedMem := some (UInt64.ofNat pa) }
    | .error _ => host

/-- `push_vm` takes no VM twice; `none` where the setup panics. -/
def vmmInitMemory (vmId : Nat) (config : List VmMemoryRegion) : Option MemHost :=
  match host.vm vmId with
  | some _ => none
  | none =>
    match vmmInitMemoryRun vmId config host.vmRegion ⟨0, [], host.memory, host.heap, [], false⟩ with
    | .ok (some (paRegion, vmRegion)) state =>
      some { (host.after state).setVm vmId (some ⟨state.directory, state.pages, paRegion, []⟩) with vmRegion := vmRegion }
    | _ => none

/-- Maps ranges in the table of a VM; `none` where it panics. -/
def mapFor (vmId : Nat) (ranges : List MappedRange) : Option MemHost :=
  match host.vm vmId with
  | none => none
  | some vm =>
    match mapRanges ranges (host.table vm) with
    | .ok _ state =>
      some ((host.after state).setVm vmId (some { vm with pages := state.pages, mapped := vm.mapped ++ ranges }))
    | .error _ _ => none

def vmmInitPassthroughDevice (vmId : Nat) (regions : List PassthroughRegion) : Option MemHost :=
  host.mapFor vmId (regions.map PassthroughRegion.range)

/-- The mapping `shyper_init` makes in a VM, when it makes one. -/
def sharedRange (baseIpa len : UInt64) : Option MappedRange :=
  host.sharedMem.map fun pa => ⟨⟨baseIpa, len, pa⟩, pteS2Normal⟩

def shyperInit (vmId : Nat) (baseIpa len : UInt64) : Option MemHost :=
  if baseIpa = 0 ∨ len = 0 then some host
  else
    match host.sharedRange baseIpa len with
    | none => none
    | some range => host.mapFor vmId [range]

/-- The parts of `vmm_remove_vm` that give memory back. The table goes with the VM. -/
def vmmRemoveVm (vmId : Nat) : Option MemHost :=
  if vmId = 0 then some host
  else
    match host.vm vmId with
    | none => some host
    | some vm =>
      match dropFrames (⟨vm.directory, 1⟩ :: vm.pages) (host.table vm) with
      | .ok _ state =>
        some { host.setVm vmId none with
          memory := clearRegions host.memory vm.paRegion
          heap := state.heap
          vmRegion := freeRegions host.vmRegion vm.paRegion }
      | .error _ _ => none

/-- A guest stores a word. Where its table has no page the store does not happen. -/
def guestStore (vmId : Nat) (ipa word : UInt64) : Option MemHost :=
  match host.vm vmId with
  | none => none
  | some vm =>
    match walk host.memory vm.directory ipa with
    | none => some host
    | some mapping =>
      some { host with memory := Function.update host.memory (mapping.pa + ipa % 4096) word }

end MemHost

inductive HostLabel where
  | initMemory (vmId : Nat) (config : List VmMemoryRegion)
  | passthrough (vmId : Nat) (regions : List PassthroughRegion)
  | shyperInit (vmId : Nat) (baseIpa len : UInt64)
  | removeVm (vmId : Nat)
  | guest (vmId : Nat) (ipa word : UInt64)
  /-- The rest of the hypervisor. -/
  | others (memory : UInt64 → UInt64) (heap : HeapRegion)

/-- The VM a step is for. -/
def HostLabel.vmId : HostLabel → Option Nat
  | .initMemory vmId _ => some vmId
  | .passthrough vmId _ => some vmId
  | .shyperInit vmId _ _ => some vmId
  | .removeVm vmId => some vmId
  | .guest vmId _ _ => some vmId
  | .others _ _ => none

def MemHost.step (host : MemHost) : HostLabel → Option MemHost
  | .initMemory vmId config => host.vmmInitMemory vmId config
  | .passthrough vmId regions => host.vmmInitPassthroughDevice vmId regions
  | .shyperInit vmId baseIpa len => host.shyperInit vmId baseIpa len
  | .removeVm vmId => host.vmmRemoveVm vmId
  | .guest vmId ipa word => host.guestStore vmId ipa word
  | .others memory heap => some { host with memory := memory, heap := heap }

def HostStep (first : MemHost) (label : HostLabel) (next : MemHost) : Prop := first.step label = some next

/-- The memory of a board: what VMs are given and the hypervisor's heap, apart from each other. -/
structure BoardMemory where
  heap : HeapRegion
  vmRegion : List MemRegion
  sound : heap.Sound
  regions : InitialRegions vmRegion
  low : ∀ region ∈ vmRegion, 0 < region.base
  high : ∀ region ∈ vmRegion, region.limit ≤ 2 ^ 48
  apart : ∀ region ∈ vmRegion, Disjoint region.span.points heap.region.span.points

/-- The machine after `mem_init`, with anything in memory. -/
def BoardMemory.memInit (board : BoardMemory) (memory : UInt64 → UInt64) : MemHost :=
  MemHost.memSharedMemInit ⟨memory, board.heap, board.vmRegion, none, fun _ => none, false⟩

namespace MemHost

variable (host : MemHost)

/-- A page of the shared memory. -/
def Shared (pa : Nat) : Prop := ∃ base, host.sharedMem = some base ∧ ∃ n < 512, pa = base.toNat + n * 4096

/-- A page of the heap that is not shared with VMs. -/
def Hidden (pa : Nat) : Prop := host.heap.Holds pa ∧ ¬host.Shared pa

/-- A frame of the table of some VM. -/
def TableFrame (pa : UInt64) : Prop := ∃ vmId vm, host.vm vmId = some vm ∧ OwnFrame (host.table vm) pa

end MemHost

/-- Whole pages of the guest that are not mapped yet. -/
structure GuestFits (vm : HostVm) (ranges : List MappedRange) : Prop where
  aligned : ∀ range ∈ ranges, range.region.ipaStart.toNat % 4096 = 0 ∧ range.region.length.toNat % 4096 = 0
  bounded : ∀ range ∈ ranges, range.region.ipaStart.toNat + range.region.length.toNat ≤ 2 ^ 39
  apart : ((vm.ranges ++ ranges).map MappedRange.region).Pairwise VmRegion.GuestApart

/-- A passthrough region is of whole pages, outside the memory the VMs are given and the heap. -/
structure DeviceFits (board : BoardMemory) (region : PassthroughRegion) : Prop where
  aligned : region.pa.toNat % 4096 = 0
  bounded : region.pa.toNat + region.length.toNat ≤ 2 ^ 48
  outside : ∀ addr ∈ region.range.region.vmPa.bytes, addr ∉ memory board.vmRegion ∧ addr ∉ board.heap.region.span.points

/-- What a step may be asked: regions of a configuration that do not meet in the guest, devices outside
the memory of the VMs and the heap, aligned words, and the rest of the hypervisor keeping to itself. -/
def HostFits (board : BoardMemory) (host : MemHost) : HostLabel → Prop
  | .initMemory _ config =>
    (∀ region ∈ config, region.ipaStart.toNat % 4096 = 0 ∧ region.length.toNat % 4096 = 0 ∧ 0 < region.length.toNat ∧
      region.ipaStart.toNat + region.length.toNat ≤ 2 ^ 39) ∧
    (config.map fun region => region.at' 0).Pairwise VmRegion.GuestApart
  | .passthrough vmId regions =>
    (∀ region ∈ regions, DeviceFits board region) ∧
    ∀ vm, host.vm vmId = some vm → GuestFits vm (regions.map PassthroughRegion.range)
  | .shyperInit vmId baseIpa len =>
    len.toNat ≤ sharedMemSizeMax ∧
    ∀ vm range, host.vm vmId = some vm → host.sharedRange baseIpa len = some range → GuestFits vm [range]
  | .removeVm _ => True
  | .guest _ ipa _ => ipa.toNat % 8 = 0 ∧ ipa.toNat < 2 ^ 39
  | .others after heap =>
    heap.Sound ∧ (∀ pa, heap.Holds pa ↔ host.heap.Holds pa) ∧
    (∀ pa : Nat, heap.IsFree pa → ¬host.Shared pa) ∧
    (∀ pa : UInt64, host.TableFrame pa → ¬heap.IsFree pa.toNat) ∧
    ∀ addr : UInt64, after addr = host.memory addr ∨
      addr.toNat ∉ memory board.vmRegion ∧ ∀ pa, host.TableFrame pa → ¬InFrame pa addr

end Shyper.Vmm
