import Shyper.Arch.MmuMaps
import Mathlib.Data.List.Induction

/-! The cores map their `Cpu` one after the other, and each goes on with its own tables: what
it finds there is not touched by the others. -/

namespace Shyper.Arch

open PageTableEntry Lib

variable {board : Board} {layout : ImageLayout} {memory : UInt64 → UInt64} {core other level : Nat} {va frame : UInt64}

section Pages

theorem ImageLayout.Placed.cpuPage_toNat (placed : layout.Placed board) (bound : core < layout.cpuNum)
    (inside : level < cpuPages) : (layout.cpuPage core level).toNat = layout.cpuStart core + level * 4096 := by
  have limit := placed.inside
  have place : core * cpuPages + level < layout.cpuNum * cpuPages := by
    rw [cpuPages] at inside ⊢
    omega
  rw [ImageLayout.cpuStart] at limit
  rw [ImageLayout.cpuPage, ImageLayout.cpuStart, UInt64.toNat_add, UInt64.toNat_mul, Nat.toUInt64, UInt64.toNat_ofNat']
  change (layout.cpuList.toNat + (core * cpuPages + level) % 2 ^ 64 * 4096 % 2 ^ 64) % 2 ^ 64 = _
  omega

theorem ImageLayout.Placed.cpuPage_frame (placed : layout.Placed board) (bound : core < layout.cpuNum)
    (inside : level < cpuPages) : IsFrame (layout.cpuPage core level) := by
  have limit := placed.inside
  have aligned := placed.cpuList
  rw [IsFrame, placed.cpuPage_toNat bound inside]
  rw [ImageLayout.cpuStart, cpuPages] at *
  omega

theorem ImageLayout.Placed.cpuPage_add (placed : layout.Placed board) (bound : core < layout.cpuNum)
    (inside : level < cpuPages) : layout.cpuPage core 0 + level.toUInt64 * 4096 = layout.cpuPage core level := by
  have first := placed.cpuPage_toNat bound (show 0 < cpuPages by decide)
  have limit := (placed.cpuPage_frame bound inside).2
  apply UInt64.toNat_inj.mp
  rw [placed.cpuPage_toNat bound inside] at limit ⊢
  rw [UInt64.toNat_add, UInt64.toNat_mul, first, Nat.toUInt64, UInt64.toNat_ofNat']
  change (layout.cpuStart core + 0 * 4096 + level % 2 ^ 64 * 4096 % 2 ^ 64) % 2 ^ 64 = _
  omega

/-- Pages of `CPU_LIST` are apart. -/
theorem ImageLayout.Placed.cpuPage_inj {otherLevel : Nat} (placed : layout.Placed board) (bound : core < layout.cpuNum)
    (otherBound : other < layout.cpuNum) (inside : level < cpuPages) (otherInside : otherLevel < cpuPages)
    (same : layout.cpuPage core level = layout.cpuPage other otherLevel) : core = other ∧ level = otherLevel := by
  have nat := congrArg UInt64.toNat same
  rw [placed.cpuPage_toNat bound inside, placed.cpuPage_toNat otherBound otherInside] at nat
  rw [ImageLayout.cpuStart, ImageLayout.cpuStart, cpuPages] at nat
  rw [cpuPages] at inside otherInside
  omega

theorem ImageLayout.Placed.table_ne (placed : layout.Placed board) (bound : core < layout.cpuNum)
    (inside : level < cpuPages) {table : UInt64} (shared : table = layout.lvl1 ∨ table = layout.lvl2) :
    layout.cpuPage core level ≠ table := by
  intro same
  have outside := placed.outside table shared
  have place := placed.cpuPage_toNat bound inside
  rw [same] at place
  simp only [ImageLayout.cpuStart, cpuPages] at outside place inside
  omega

theorem ImageLayout.Placed.apart_tables (placed : layout.Placed board) : Apart layout.lvl1 layout.lvl2 :=
  ⟨placed.lvl1, placed.lvl2, placed.apart⟩

end Pages

section Core

/-- The three tables of a core that has mapped its `Cpu`. -/
structure CoreHeld (board : Board) (layout : ImageLayout) (core : Nat) (memory : UInt64 → UInt64) : Prop where
  lvl1 : Holds memory (layout.cpuPage core 1)
    fun idx => if idx = 16 then layout.cpuPage core 2 ||| cpuAttr else board.lvl1Entries layout.lvl2 idx
  lvl2 : Holds memory (layout.cpuPage core 2) fun idx => if idx = 0 then layout.cpuPage core 3 ||| cpuAttr else 0
  lvl3 : Holds memory (layout.cpuPage core 3) fun idx => if idx < cpuPages then layout.cpuPage core idx ||| cpuAttr else 0

/-- A table that is none of a core's. -/
theorem cpuMapSelf_keeps {table : Nat → UInt64} (placed : layout.Placed board) (bound : core < layout.cpuNum)
    (aligned : IsFrame frame) (differ : ∀ level < 4, layout.cpuPage core level ≠ frame)
    (holds : Holds memory frame table) : Holds (cpuMapSelf layout core memory) frame table := by
  have page : ∀ level < 4, IsFrame (layout.cpuPage core level) := fun level low =>
    placed.cpuPage_frame bound (Nat.lt_of_lt_of_le low (by decide))
  have single1 : ∀ entry ∈ [(ptLvl1Idx cpuBankedAddress, layout.cpuPage core 2 ||| pteS1Normal ||| pteTable)],
      entry.1 < 512 := single_inside (by decide) _
  have single2 : ∀ entry ∈ [(ptLvl2Idx cpuBankedAddress, layout.cpuPage core 3 ||| pteS1Normal ||| pteTable)],
      entry.1 < 512 := single_inside (by decide) _
  have named := holds.update_other (page 0 (by decide)) aligned (differ 0 (by decide)) core.toUInt64
  have copied := named.copyPage_other (page 1 (by decide)) aligned (differ 1 (by decide)) layout.lvl1
  have cleared2 := copied.zeroPage_other (page 2 (by decide)) aligned (differ 2 (by decide))
  have cleared3 := cleared2.zeroPage_other (page 3 (by decide)) aligned (differ 3 (by decide))
  have linked1 := cleared3.setEntries_other (page 1 (by decide)) aligned (differ 1 (by decide)) single1
  have linked2 := linked1.setEntries_other (page 2 (by decide)) aligned (differ 2 (by decide)) single2
  exact linked2.setEntries_other (page 3 (by decide)) aligned (differ 3 (by decide)) (range_inside _ (by decide))

/-- A core's tables as it fills them. -/
theorem cpuMapSelf_held (placed : layout.Placed board) (bound : core < layout.cpuNum)
    (shared : Holds memory layout.lvl1 (board.lvl1Entries layout.lvl2)) :
    CoreHeld board layout core (cpuMapSelf layout core memory) := by
  have page : ∀ level < 4, IsFrame (layout.cpuPage core level) := fun level low =>
    placed.cpuPage_frame bound (Nat.lt_of_lt_of_le low (by decide))
  have apart : ∀ level < 4, ∀ otherLevel < 4, level ≠ otherLevel →
      layout.cpuPage core level ≠ layout.cpuPage core otherLevel := fun level low otherLevel otherLow differ same =>
    differ (placed.cpuPage_inj bound bound (Nat.lt_of_lt_of_le low (by decide))
      (Nat.lt_of_lt_of_le otherLow (by decide)) same).2
  let cleared := zeroPage (zeroPage (copyPage (Function.update memory (layout.cpuPage core 0) core.toUInt64)
    (layout.cpuPage core 1) layout.lvl1) (layout.cpuPage core 2)) (layout.cpuPage core 3)
  have copied : Holds cleared (layout.cpuPage core 1) (board.lvl1Entries layout.lvl2) := by
    have named := shared.update_other (page 0 (by decide)) placed.lvl1
      (placed.table_ne bound (by decide) (.inl rfl)) core.toUInt64
    have kept2 := (named.copyPage (page 1 (by decide))).zeroPage_other (page 2 (by decide)) (page 1 (by decide))
      (apart 2 (by decide) 1 (by decide) (by decide))
    exact kept2.zeroPage_other (page 3 (by decide)) (page 1 (by decide)) (apart 3 (by decide) 1 (by decide) (by decide))
  have empty2 : Holds cleared (layout.cpuPage core 2) fun _ => 0 :=
    (holds_zeroPage (page 2 (by decide))).zeroPage_other (page 3 (by decide)) (page 2 (by decide))
      (apart 3 (by decide) 2 (by decide) (by decide))
  have empty3 : Holds cleared (layout.cpuPage core 3) fun _ => 0 := holds_zeroPage (page 3 (by decide))
  have single1 : ∀ entry ∈ [(ptLvl1Idx cpuBankedAddress, layout.cpuPage core 2 ||| pteS1Normal ||| pteTable)],
      entry.1 < 512 := single_inside (by decide) _
  have single2 : ∀ entry ∈ [(ptLvl2Idx cpuBankedAddress, layout.cpuPage core 3 ||| pteS1Normal ||| pteTable)],
      entry.1 < 512 := single_inside (by decide) _
  have range3 : ∀ entry ∈ (List.range cpuPages).map fun i => (ptLvl3Idx cpuBankedAddress + i,
      (layout.cpuPage core 0 + i.toUInt64 * 4096) ||| pteS1Normal ||| pteTable), entry.1 < 512 :=
    range_inside _ (by decide)
  have at1 : ptLvl1Idx cpuBankedAddress = 16 := by decide
  have at2 : ptLvl2Idx cpuBankedAddress = 0 := by decide
  have at3 : ptLvl3Idx cpuBankedAddress = 0 := by decide
  constructor
  · have linked := ((copied.setEntries (page 1 (by decide)) single1).setEntries_other (page 2 (by decide))
      (page 1 (by decide)) (apart 2 (by decide) 1 (by decide) (by decide)) single2).setEntries_other
      (page 3 (by decide)) (page 1 (by decide)) (apart 3 (by decide) 1 (by decide) (by decide)) range3
    refine linked.congr fun idx _ => ?_
    rw [writes_single, at1, cpuEntry_eq]
  · have linked := ((empty2.setEntries_other (page 1 (by decide)) (page 2 (by decide))
      (apart 1 (by decide) 2 (by decide) (by decide)) single1).setEntries (page 2 (by decide))
      single2).setEntries_other (page 3 (by decide)) (page 2 (by decide))
      (apart 3 (by decide) 2 (by decide) (by decide)) range3
    refine linked.congr fun idx _ => ?_
    rw [writes_single, at2, cpuEntry_eq]
  · have linked := ((empty3.setEntries_other (page 1 (by decide)) (page 3 (by decide))
      (apart 1 (by decide) 3 (by decide) (by decide)) single1).setEntries_other (page 2 (by decide))
      (page 3 (by decide)) (apart 2 (by decide) 3 (by decide) (by decide)) single2).setEntries
      (page 3 (by decide)) range3
    refine linked.congr fun idx _ => ?_
    rw [at3, writes_first]
    by_cases inside : idx < cpuPages
    · rw [if_pos inside, if_pos inside, placed.cpuPage_add bound inside, cpuEntry_eq]
    · rw [if_neg inside, if_neg inside]

theorem CoreHeld.kept (held : CoreHeld board layout core memory) (placed : layout.Placed board)
    (bound : core < layout.cpuNum) (otherBound : other < layout.cpuNum) (differ : other ≠ core) :
    CoreHeld board layout core (cpuMapSelf layout other memory) := by
  have keeps : ∀ level < 4, ∀ table, Holds memory (layout.cpuPage core level) table →
      Holds (cpuMapSelf layout other memory) (layout.cpuPage core level) table := by
    intro level low table holds
    have inside : ∀ level < 4, level < cpuPages := fun level low => Nat.lt_of_lt_of_le low (by decide)
    refine cpuMapSelf_keeps placed otherBound (placed.cpuPage_frame bound (inside level low)) ?_ holds
    intro otherLevel otherLow same
    exact differ (placed.cpuPage_inj otherBound bound (inside otherLevel otherLow) (inside level low) same).1
  exact ⟨keeps 1 (by decide) _ held.lvl1, keeps 2 (by decide) _ held.lvl2, keeps 3 (by decide) _ held.lvl3⟩

/-- The walk through the tables of a core. -/
theorem CoreHeld.walkS1_eq (held : CoreHeld board layout core memory) (placed : layout.Placed board)
    (bound : core < layout.cpuNum) (shared : Holds memory layout.lvl2 board.lvl2Entries) (small : va.toNat < 2 ^ 39) :
    walkS1 memory (layout.cpuPage core 1) va = el2Map board layout core va.toNat := by
  obtain ⟨bound1, bound2, bound3⟩ := ptIdx_lt va
  have index1 := ptLvl1Idx_eq va
  have index2 := ptLvl2Idx_eq va
  have index3 := ptLvl3Idx_eq va
  have first := held.lvl1 _ bound1
  have second := held.lvl2 _ bound2
  have third := held.lvl3 _ bound3
  dsimp only at first second third
  have frame2 := placed.cpuPage_frame bound (show 2 < cpuPages by decide)
  have frame3 := placed.cpuPage_frame bound (show 3 < cpuPages by decide)
  have attr : cpuAttr.toNat < 4096 := by decide
  rw [el2Map]
  by_cases window : ptLvl1Idx va = 16
  · rw [if_pos window] at first
    have inside : 0x400000000 ≤ va.toNat ∧ va.toNat < 0x440000000 := by omega
    rw [if_pos inside]
    by_cases within : ptLvl2Idx va = 0
    · rw [if_pos within] at second
      rw [walkS1_low frame2 frame3 first second, third]
      by_cases page : ptLvl3Idx va < cpuPages
      · have frame := placed.cpuPage_frame bound page
        have kind : (layout.cpuPage core (ptLvl3Idx va) ||| cpuAttr).toNat % 4 = 3 := (frame.or_kind attr).trans (by decide)
        have offset : va.toNat - 0x400000000 < cpuPages * 4096 := by omega
        have aligned := placed.cpuList
        have place : (layout.cpuStart core + ptLvl3Idx va * 4096) / 2 ^ 12 * 2 ^ 12 + va.toNat % 2 ^ 12 =
            layout.cpuStart core + (va.toNat - 0x400000000) := by
          simp only [ImageLayout.cpuStart, cpuPages]
          omega
        dsimp only
        rw [if_pos page, if_pos kind, if_pos offset, frame.s1Output_eq attr, placed.cpuPage_toNat bound page, place]
        rfl
      · have offset : ¬va.toNat - 0x400000000 < cpuPages * 4096 := by omega
        rw [if_neg page, if_neg offset]
        rfl
    · rw [if_neg within] at second
      have offset : ¬va.toNat - 0x400000000 < cpuPages * 4096 := by
        rw [cpuPages]
        omega
      rw [walkS1_absent2 frame2 attr (by decide) first second, if_neg offset]
  · rw [if_neg window] at first
    have outside : ¬(0x400000000 ≤ va.toNat ∧ va.toNat < 0x440000000) := by omega
    rw [if_neg outside]
    exact walkS1_boot placed.lvl2 shared small first

end Core

section Boot

variable {cores : List Nat}

/-- The shared tables stay as they were filled, and a core's stay as it filled them. -/
theorem bootTables_held (placed : layout.Placed board) (bound : ∀ core ∈ cores, core < layout.cpuNum) :
    Tables layout.lvl1 layout.lvl2 (bootTables board layout cores memory) (board.lvl1Entries layout.lvl2) board.lvl2Entries ∧
      ∀ core ∈ cores, CoreHeld board layout core (bootTables board layout cores memory) := by
  induction cores using List.reverseRecOn with
  | nil => exact ⟨ptPopulate_tables placed.apart_tables, fun core member => absurd member List.not_mem_nil⟩
  | append_singleton before core ih =>
    obtain ⟨shared, held⟩ := ih fun earlier member => bound earlier (List.mem_append_left _ member)
    have coreBound := bound core (List.mem_append_right _ (List.mem_singleton_self core))
    have last : bootTables board layout (before ++ [core]) memory =
        cpuMapSelf layout core (bootTables board layout before memory) := List.foldl_concat ..
    have inside : ∀ level < 4, level < cpuPages := fun level low => Nat.lt_of_lt_of_le low (by decide)
    rw [last]
    refine ⟨⟨?_, ?_⟩, ?_⟩
    · exact cpuMapSelf_keeps placed coreBound placed.lvl1
        (fun level low => placed.table_ne coreBound (inside level low) (.inl rfl)) shared.lvl1
    · exact cpuMapSelf_keeps placed coreBound placed.lvl2
        (fun level low => placed.table_ne coreBound (inside level low) (.inr rfl)) shared.lvl2
    · intro earlier member
      by_cases same : core = earlier
      · subst same
        exact cpuMapSelf_held placed coreBound shared.lvl1
      · rcases List.mem_append.mp member with old | new
        · exact (held earlier old).kept placed (bound earlier member) coreBound same
        · exact absurd (List.mem_singleton.mp new).symm same

theorem bootTables_walk (placed : layout.Placed board) (bound : ∀ core ∈ cores, core < layout.cpuNum)
    (member : core ∈ cores) (small : va.toNat < 2 ^ 39) :
    walkS1 (bootTables board layout cores memory) (layout.cpuPage core 1) va = el2Map board layout core va.toNat := by
  obtain ⟨shared, held⟩ := @bootTables_held board layout memory cores placed bound
  exact (held core member).walkS1_eq placed (bound core member) shared.lvl2 small

end Boot

section Coherence

variable {pa here there : Nat} {kind otherKind : MemoryKind} {cores : List Nat}

/-- The kind of memory at a physical address. -/
def Board.kindOf : Board → Nat → MemoryKind
  | .tx2, pa => if pa < 0x80000000 then .device else .normal
  | .pi4, pa => if 0xfc000000 ≤ pa ∧ pa < 0x100000000 then .device else .normal
  | .qemu, pa => if pa < 0x40000000 then .device else .normal

/-- A board maps an address as one kind of memory wherever it maps it. -/
theorem Board.bootMap_kind (found : board.bootMap here = some (pa, kind)) : kind = board.kindOf pa := by
  cases board with
  | tx2 =>
    rw [Board.bootMap, highAlias] at found
    rw [Board.kindOf]
    by_cases memory : 0x80000000 ≤ here ∧ here < 0x400000000
    · rw [if_pos memory] at found
      obtain ⟨rfl, rfl⟩ := Prod.mk.inj (Option.some.inj found)
      rw [if_neg (by omega)]
    · rw [if_neg memory] at found
      obtain ⟨device, found⟩ := Option.ite_none_right_eq_some.mp found
      obtain ⟨rfl, rfl⟩ := Prod.mk.inj (Option.some.inj found)
      rw [if_pos (by omega)]
  | pi4 =>
    rw [Board.bootMap] at found
    by_cases low : here < 0x200000000
    · rw [if_pos low] at found
      obtain ⟨rfl, rfl⟩ := Prod.mk.inj (Option.some.inj found)
      rfl
    · rw [if_neg low] at found
      obtain ⟨_, found⟩ := Option.ite_none_right_eq_some.mp found
      obtain ⟨rfl, rfl⟩ := Prod.mk.inj (Option.some.inj found)
      rfl
  | qemu =>
    rw [Board.bootMap, highAlias] at found
    by_cases low : here < 0x400000000
    · rw [if_pos low] at found
      obtain ⟨rfl, rfl⟩ := Prod.mk.inj (Option.some.inj found)
      rfl
    · rw [if_neg low] at found
      obtain ⟨device, found⟩ := Option.ite_none_right_eq_some.mp found
      obtain ⟨rfl, rfl⟩ := Prod.mk.inj (Option.some.inj found)
      rw [Board.kindOf, if_pos (by omega)]

theorem ImageLayout.Placed.el2Map_kind (placed : layout.Placed board) (bound : core < layout.cpuNum)
    (found : el2Map board layout core here = some (pa, kind)) : kind = board.kindOf pa := by
  rw [el2Map] at found
  by_cases window : 0x400000000 ≤ here ∧ here < 0x440000000
  · rw [if_pos window] at found
    obtain ⟨offset, found⟩ := Option.ite_none_right_eq_some.mp found
    obtain ⟨rfl, rfl⟩ := Prod.mk.inj (Option.some.inj found)
    have first : layout.cpuStart 0 ≤ layout.cpuStart core + (here - 0x400000000) := by
      simp only [ImageLayout.cpuStart, cpuPages]
      omega
    have last : layout.cpuStart core + (here - 0x400000000) < layout.cpuStart layout.cpuNum := by
      simp only [ImageLayout.cpuStart, cpuPages] at offset ⊢
      omega
    exact Board.bootMap_kind (placed.memory _ first last)
  · rw [if_neg window] at found
    exact Board.bootMap_kind found

/-- A page a core has in its window no other core has in its own. -/
theorem ImageLayout.el2Map_window (inWindow : 0x400000000 ≤ here ∧ here < 0x440000000)
    (otherWindow : 0x400000000 ≤ there ∧ there < 0x440000000)
    (found : el2Map board layout core here = some (pa, kind))
    (again : el2Map board layout other there = some (pa, otherKind)) : core = other ∧ here = there := by
  rw [el2Map, if_pos inWindow] at found
  rw [el2Map, if_pos otherWindow] at again
  obtain ⟨offset, found⟩ := Option.ite_none_right_eq_some.mp found
  obtain ⟨otherOffset, again⟩ := Option.ite_none_right_eq_some.mp again
  have place := (Prod.mk.inj (Option.some.inj found)).1
  have otherPlace := (Prod.mk.inj (Option.some.inj again)).1
  simp only [ImageLayout.cpuStart, cpuPages] at offset otherOffset place otherPlace
  omega

end Coherence

section Results

variable {cores : List Nat} {there : UInt64} {pa : Nat} {kind otherKind : MemoryKind}

/-- After the start every core sees at every address its own `Cpu` in the window, and outside it
what the board maps, whatever was in memory and in whatever order the cores came. -/
theorem bootTables_map (placed : layout.Placed board) (bound : ∀ core ∈ cores, core < layout.cpuNum)
    (member : core ∈ cores) (small : va.toNat < 2 ^ 39) :
    walkS1 (bootTables board layout cores memory) (layout.cpuPage core 1) va = el2Map board layout core va.toNat :=
  bootTables_walk placed bound member small

/-- A physical address is one kind of memory for all cores at all their addresses, and what one
core has in its window no other core has in its own. -/
theorem bootTables_coherent (placed : layout.Placed board) (bound : ∀ core ∈ cores, core < layout.cpuNum)
    (member : core ∈ cores) (otherMember : other ∈ cores) (small : va.toNat < 2 ^ 39) (otherSmall : there.toNat < 2 ^ 39)
    (seen : walkS1 (bootTables board layout cores memory) (layout.cpuPage core 1) va = some (pa, kind))
    (again : walkS1 (bootTables board layout cores memory) (layout.cpuPage other 1) there = some (pa, otherKind)) :
    kind = otherKind ∧
      (ptLvl1Idx va = ptLvl1Idx cpuBankedAddress → ptLvl1Idx there = ptLvl1Idx cpuBankedAddress → core = other ∧ va = there) := by
  rw [bootTables_walk placed bound member small] at seen
  rw [bootTables_walk placed bound otherMember otherSmall] at again
  have here := placed.el2Map_kind (bound core member) seen
  have otherHere := placed.el2Map_kind (bound other otherMember) again
  refine ⟨here.trans otherHere.symm, fun inWindow otherWindow => ?_⟩
  have place : ptLvl1Idx cpuBankedAddress = 16 := by decide
  rw [place, ptLvl1Idx_eq] at inWindow otherWindow
  have both := ImageLayout.el2Map_window (by omega) (by omega) seen again
  exact ⟨both.1, UInt64.toNat_inj.mp both.2⟩

/-- Four cores of QEMU with the tables behind the image's start. -/
def qemuLayout : ImageLayout where
  lvl1 := 0x40100000
  lvl2 := 0x40101000
  cpuList := 0x40102000
  cpuNum := 4

theorem qemuLayout_placed : qemuLayout.Placed .qemu where
  lvl1 := ⟨by decide, by decide⟩
  lvl2 := ⟨by decide, by decide⟩
  cpuList := by decide
  inside := by decide
  apart := by decide
  outside := by
    rintro table (rfl | rfl)
    · decide
    · decide
  memory := by
    intro addr first last
    have start : qemuLayout.cpuStart 0 = 0x40102000 := by decide
    have stop : qemuLayout.cpuStart qemuLayout.cpuNum = 0x40312000 := by decide
    have low : addr < 0x400000000 := by omega
    have above : ¬addr < 0x40000000 := by omega
    rw [Board.bootMap, if_pos low, if_neg above]

theorem bootTables_map_qemu :
    walkS1 (bootTables .qemu qemuLayout [0, 2, 1] fun _ => 7) (qemuLayout.cpuPage 2 1) 0x400001010 =
      some (0x4020b010, .normal) := by
  have bound : ∀ core ∈ [0, 2, 1], core < qemuLayout.cpuNum := by decide
  rw [bootTables_map qemuLayout_placed bound (by decide) (by decide)]
  decide

theorem bootTables_coherent_qemu :
    MemoryKind.normal = .normal ∧
      (ptLvl1Idx 0x400001010 = ptLvl1Idx cpuBankedAddress → ptLvl1Idx 0x4020b010 = ptLvl1Idx cpuBankedAddress →
        2 = 1 ∧ (0x400001010 : UInt64) = 0x4020b010) := by
  have bound : ∀ core ∈ [0, 2, 1], core < qemuLayout.cpuNum := by decide
  have window : walkS1 (bootTables .qemu qemuLayout [0, 2, 1] fun _ => 7) (qemuLayout.cpuPage 2 1) 0x400001010 =
      some (0x4020b010, .normal) := by
    rw [bootTables_walk qemuLayout_placed bound (by decide) (by decide)]
    decide
  have same : walkS1 (bootTables .qemu qemuLayout [0, 2, 1] fun _ => 7) (qemuLayout.cpuPage 1 1) 0x4020b010 =
      some (0x4020b010, .normal) := by
    rw [bootTables_walk qemuLayout_placed bound (by decide) (by decide)]
    decide
  exact bootTables_coherent qemuLayout_placed bound (by decide) (by decide) (by decide) (by decide) window same

end Results

end Shyper.Arch
