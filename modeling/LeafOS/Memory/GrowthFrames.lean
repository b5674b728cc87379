import LeafOS.Memory.HeapGrowth
import LeafOS.Memory.SpaceRuns

namespace leafos.memory.heap

open Prog BootInfoFrameAllocator MemoryManager

/-- Of the pages of one slot exactly the first `count` are mapped. -/
def Filled (tables : UserTables) (slot count : Nat) : Prop :=
  ∀ page : Nat, p4_index page = slot → (page ∈ tables.pages ↔ page < slot * PML4_SLOT_PAGES + count)

/-- The frames of the first `count` pages of a slot and of the tables that lead to them. -/
def frames_for (count : Nat) : Nat :=
  count + (count + 511) / 512 + (count + 262143) / 262144 + min count 1

section Required

variable {previous growth : Nat}

theorem ceil_div_eq {value divisor : Nat} (hdivisor : 0 < divisor) (hfits : value + (divisor - 1) < 2 ^ 64) :
    ceil_div value divisor = some ((value + (divisor - 1)) / divisor) := by
  simp only [ceil_div, checked_sub, checked_add, if_pos hfits, if_neg (Nat.ne_of_gt hdivisor),
    if_pos (show 1 ≤ divisor from hdivisor), Option.bind_eq_bind, Option.bind_some]
  rfl

theorem added_table_pages_eq {span : Nat} (hspan : 0 < span) (hfits : previous + growth + (span - 1) < 2 ^ 64) :
    added_table_pages previous growth span =
      some ((previous + growth + (span - 1)) / span - (previous + (span - 1)) / span) := by
  have hmonotone : (previous + (span - 1)) / span ≤ (previous + growth + (span - 1)) / span :=
    Nat.div_le_div_right (by omega)
  simp only [added_table_pages, checked_add, checked_sub, if_pos (show previous + growth < 2 ^ 64 by omega),
    ceil_div_eq hspan hfits, ceil_div_eq hspan (show previous + (span - 1) < 2 ^ 64 by omega), if_pos hmonotone,
    Option.bind_eq_bind, Option.bind_some]

theorem required_frames_for_growth_some {tables directories : Nat} (hgrowth : 0 < growth)
    (htables : added_table_pages previous growth PAGES_PER_PAGE_TABLE = some tables)
    (hdirectories : added_table_pages previous growth PAGES_PER_PAGE_DIRECTORY = some directories)
    (hfits : growth + tables + directories + 1 < 2 ^ 64) :
    required_frames_for_growth previous growth =
      some (growth + tables + directories + if previous = 0 then 1 else 0) := by
  rw [required_frames_for_growth, if_neg (Nat.ne_of_gt hgrowth), htables, hdirectories]
  simp only [Option.bind_eq_bind, Option.bind_some, Option.bind_eq_some_iff, checked_add_eq_some]
  exact ⟨_, ⟨by omega, rfl⟩, _, ⟨by omega, rfl⟩, by split <;> omega, rfl⟩

/-- The formula counts the difference between two fillings of the slot. -/
theorem required_frames_for_growth_eq (hgrowth : 0 < growth) (hfits : previous + growth ≤ PML4_SLOT_PAGES) :
    ∃ required, required_frames_for_growth previous growth = some required ∧
      frames_for previous + required = frames_for (previous + growth) := by
  have hslot : PML4_SLOT_PAGES = 134217728 := by decide
  rw [hslot] at hfits
  have htables : added_table_pages previous growth PAGES_PER_PAGE_TABLE =
      some ((previous + growth + 511) / 512 - (previous + 511) / 512) :=
    added_table_pages_eq (by decide) (by rw [PAGES_PER_PAGE_TABLE]; omega)
  have hdirectories : added_table_pages previous growth PAGES_PER_PAGE_DIRECTORY =
      some ((previous + growth + 262143) / 262144 - (previous + 262143) / 262144) :=
    added_table_pages_eq (by decide) (by rw [PAGES_PER_PAGE_DIRECTORY]; omega)
  refine ⟨_, required_frames_for_growth_some hgrowth htables hdirectories (by omega), ?_⟩
  simp only [frames_for]
  split <;> omega

end Required

section Missing

variable {tables : UserTables} {slot count : Nat} {level : Nat}

/-- A page that shares a table with the next page of a slot is in the slot; if it is before that
page, then that page is not the first of those that the table is for. -/
theorem shares_table {page : Nat} (hlevel : level ∈ [1, 2, 3]) (hcount : count < PML4_SLOT_PAGES)
    (hsame : page / 512 ^ level = (slot * PML4_SLOT_PAGES + count) / 512 ^ level) :
    p4_index page = slot ∧ (page < slot * PML4_SLOT_PAGES + count → count % 512 ^ level ≠ 0) := by
  have hslot : PML4_SLOT_PAGES = 134217728 := by decide
  rw [hslot] at hcount hsame ⊢
  simp only [List.mem_cons, List.not_mem_nil, or_false] at hlevel
  rw [p4_index]
  rcases hlevel with rfl | rfl | rfl
  all_goals omega

/-- The page before shares every table that is not for the next page and those after it only. -/
theorem shares_table_before (slot : Nat) (hlevel : level ∈ [1, 2, 3]) (hrest : count % 512 ^ level ≠ 0) :
    (slot * PML4_SLOT_PAGES + count - 1) / 512 ^ level = (slot * PML4_SLOT_PAGES + count) / 512 ^ level ∧
      0 < count := by
  have hslot : PML4_SLOT_PAGES = 134217728 := by decide
  rw [hslot]
  simp only [List.mem_cons, List.not_mem_nil, or_false] at hlevel
  rcases hlevel with rfl | rfl | rfl
  all_goals omega

/-- A table on the way to the next page of a slot is there, unless the page is the first of those
that the table is for. -/
theorem Filled.hasTable (hfilled : Filled tables slot count) (hsettled : Settled tables)
    (hcount : count < PML4_SLOT_PAGES) (hlevel : level ∈ [1, 2, 3]) :
    tables.HasTable (table_of level (slot * PML4_SLOT_PAGES + count)) ↔ count % 512 ^ level ≠ 0 := by
  rw [table_of, hsettled.tight level hlevel]
  constructor
  · rintro ⟨entry, hentry, hsame⟩
    have hpage : entry.1 ∈ tables.pages := List.mem_map_of_mem hentry
    obtain ⟨hindex, hbefore⟩ := shares_table hlevel hcount (congrArg TableId.position hsame)
    exact hbefore ((hfilled _ hindex).mp hpage)
  · intro hrest
    obtain ⟨hsame, hpositive⟩ := shares_table_before slot hlevel hrest
    have hindex := (shares_table hlevel hcount hsame).1
    obtain ⟨entry, hentry, hpage⟩ := List.mem_map.mp ((hfilled _ hindex).mpr (by omega))
    refine ⟨entry, hentry, ?_⟩
    rw [table_of, hpage, hsame]

/-- The next page of a slot takes its own frame and those of the tables that are missing. -/
theorem Filled.frames_for_succ (hfilled : Filled tables slot count) (hsettled : Settled tables)
    (hcount : count < PML4_SLOT_PAGES) :
    frames_for (count + 1) =
      frames_for count + 1 + (tables.missing (slot * PML4_SLOT_PAGES + count)).length := by
  have hnone : ∀ level ∈ [1, 2, 3],
      (tables.table (table_of level (slot * PML4_SLOT_PAGES + count))).isNone = decide (count % 512 ^ level = 0) := by
    intro level hlevel
    rw [Bool.eq_iff_iff, Option.isNone_iff_eq_none, UserTables.table_eq_none, hfilled.hasTable hsettled hcount hlevel,
      not_not, decide_eq_true_eq]
  have hslot : PML4_SLOT_PAGES = 134217728 := by decide
  rw [hslot] at hcount
  rw [UserTables.missing, ← List.countP_eq_length_filter, List.countP_map,
    List.countP_congr (q := fun level => decide (count % 512 ^ level = 0))
    (fun level hlevel => by rw [Function.comp_apply, hnone level hlevel])]
  simp only [List.countP_cons, List.countP_nil, decide_eq_true_eq, frames_for]
  split_ifs <;> omega

end Missing

/-- `count` calls of `allocate_and_map`, for the pages from `start` on, succeed one after the other. -/
def MapsPages (kernel_root : PhysFrame) (start : Nat) : Nat → MemoryManager → MemoryManager → Prop
  | 0, before, after => after = before
  | count + 1, before, after => ∃ reached frame, MapsPages kernel_root start count before reached ∧
      allocate_and_map kernel_root (start + count) HEAP_PAGE_FLAGS reached = (.ok frame, after)

section Loop

variable {boot : BootInfoFrameAllocator} {kernel_root : PhysFrame} {origin manager after : MemoryManager}
  {account : List PhysFrame} {pool pool' : FramePool} {slot previous count : Nat}

theorem Filled.absent {tables : UserTables} (hfilled : Filled tables slot count) (hcount : count < PML4_SLOT_PAGES) :
    slot * PML4_SLOT_PAGES + count ∉ tables.pages := by
  intro hmem
  have hlast : 3 ∈ [1, 2, 3] := by decide
  have hindex : p4_index (slot * PML4_SLOT_PAGES + count) = slot := (shares_table hlast hcount rfl).1
  exact absurd ((hfilled _ hindex).mp hmem) (Nat.lt_irrefl _)

theorem Filled.add {before after : UserTables} (hfilled : Filled before slot count) {frame : PhysFrame}
    {flags : PageTableFlags}
    (hleaves : after.leaves = (slot * PML4_SLOT_PAGES + count, frame, flags) :: before.leaves) :
    Filled after slot (count + 1) := by
  intro page hindex
  have hpages : after.pages = (slot * PML4_SLOT_PAGES + count) :: before.pages := by
    simp [UserTables.pages, hleaves]
  rw [hpages, List.mem_cons, hfilled page hindex]
  omega

variable (hmaps : MapsPages kernel_root (slot * PML4_SLOT_PAGES + previous) count manager after)
include hmaps

/-- The calls take the frames that the filling of the slot takes. -/
theorem MapsPages.spends (hreached : KernelReached boot kernel_root origin account manager pool)
    (hfilled : Filled (manager.page_tables kernel_root) slot previous) (hfits : previous + count ≤ PML4_SLOT_PAGES) :
    ∃ pool', KernelReached boot kernel_root origin account after pool' ∧
      Filled (after.page_tables kernel_root) slot (previous + count) ∧ pool.Drawn pool' ∧
      pool.free.length + frames_for previous = pool'.free.length + frames_for (previous + count) := by
  induction count generalizing after with
  | zero =>
    obtain rfl := hmaps
    exact ⟨pool, hreached, hfilled, .refl pool, rfl⟩
  | succ count ih =>
    obtain ⟨reached, frame, hmaps, hmap⟩ := hmaps
    obtain ⟨between, hbetween, hfilled', hdrawn, hspent⟩ := ih hmaps (by omega)
    have hcount : previous + count < PML4_SLOT_PAGES := by omega
    rw [Nat.add_assoc] at hmap
    obtain ⟨outcome, after', pool', hcall, hafter, _, hcases⟩ :=
      allocate_and_map_reached hbetween (slot * PML4_SLOT_PAGES + (previous + count)) HEAP_PAGE_FLAGS
    obtain ⟨rfl, rfl⟩ := Prod.mk.inj (hmap.symm.trans hcall)
    obtain ⟨_, _, hleaves, hdrawn'⟩ | ⟨_, herror, _⟩ := hcases
    swap
    · cases herror
    refine ⟨pool', hafter, hfilled'.add hleaves, hdrawn.trans hdrawn', ?_⟩
    have htables := hbetween.settled.tables_length_eq hafter.settled hleaves
    have hnext := hfilled'.frames_for_succ hbetween.settled hcount
    have hframes : (after.page_tables kernel_root).frames.length = (reached.page_tables kernel_root).frames.length +
        (1 + ((reached.page_tables kernel_root).missing (slot * PML4_SLOT_PAGES + (previous + count))).length) := by
      simp only [UserTables.frames, List.length_append, List.length_map, htables, hleaves, List.length_cons]
      omega
    have hstep := hbetween.spent hafter hframes
    rw [← Nat.add_assoc]
    omega

/-- With the frames for the whole growth at hand, no call lacks one; and where they are all below
the limit, no call fails. -/
theorem MapsPages.not_exhausted {growth : Nat} (hcount : count < growth)
    (hreached : KernelReached boot kernel_root origin account manager pool)
    (hfilled : Filled (manager.page_tables kernel_root) slot previous) (hfits : previous + growth ≤ PML4_SLOT_PAGES)
    (henough : frames_for (previous + growth) ≤ pool.free.length + frames_for previous) :
    ∃ outcome next, allocate_and_map kernel_root (slot * PML4_SLOT_PAGES + previous + count) HEAP_PAGE_FLAGS after =
        (outcome, next) ∧ outcome ≠ .err (.Mapper .FrameAllocationFailed) ∧
      ((∀ frame ∈ pool.free, frame + PAGE_SIZE ≤ boot.physical_limit) → ∃ frame, outcome = .ok frame) := by
  obtain ⟨pool', hafter, hfilled', hdrawn, hspent⟩ := hmaps.spends hreached hfilled (by omega)
  have hlast : previous + count < PML4_SLOT_PAGES := by omega
  obtain ⟨outcome, next, _, hcall, _, _, hcases⟩ :=
    allocate_and_map_reached hafter (slot * PML4_SLOT_PAGES + (previous + count)) HEAP_PAGE_FLAGS
  rw [Nat.add_assoc]
  refine ⟨outcome, next, hcall, ?_⟩
  obtain ⟨frame, rfl, _⟩ | ⟨error, rfl, _, ⟨_, hshort, _⟩ | ⟨⟨rfl, frame, hframe, hbeyond⟩ | ⟨_, hpresent⟩, _⟩⟩ := hcases
  · exact ⟨nofun, fun _ => ⟨frame, rfl⟩⟩
  · have hnext := hfilled'.frames_for_succ hafter.settled hlast
    have hmonotone : frames_for (previous + count + 1) ≤ frames_for (previous + growth) := by
      simp only [frames_for]
      omega
    omega
  · exact ⟨nofun, fun hlimit => absurd (hlimit frame (hdrawn.left.subset hframe)) (Nat.not_le.mpr hbeyond)⟩
  · exact absurd hpresent (hfilled'.absent hlast)

end Loop

/-- The loop of `grow` maps all its pages if no call fails. -/
theorem map_growth_calls {kernel_root : PhysFrame} {start : Nat} {origin manager : MemoryManager} {mapped : Nat}
    (hmaps : MapsPages kernel_root start mapped origin manager) (remaining : Nat)
    (hcalls : ∀ count < mapped + remaining, ∀ reached, MapsPages kernel_root start count origin reached →
      ∃ frame next, allocate_and_map kernel_root (start + count) HEAP_PAGE_FLAGS reached = (.ok frame, next)) :
    ∃ after, map_growth kernel_root (start * PAGE_SIZE) remaining mapped manager = (.ok (), after) ∧
      MapsPages kernel_root start (mapped + remaining) origin after := by
  induction remaining generalizing manager mapped with
  | zero => exact ⟨manager, rfl, hmaps⟩
  | succ remaining ih =>
    obtain ⟨frame, next, hcall⟩ := hcalls mapped (by omega) manager hmaps
    have hsum : mapped + 1 + remaining = mapped + (remaining + 1) := by omega
    have hnext : MapsPages kernel_root start (mapped + 1) origin next := ⟨manager, frame, hmaps, hcall⟩
    obtain ⟨after, hloop, hall⟩ := ih hnext (hsum ▸ hcalls)
    refine ⟨after, ?_, hsum ▸ hall⟩
    simp [PageCalls.map_growth, growth_page_eq, attempt, hcall, hloop]

/-- The pre-flight check of `grow` counts the frames exactly. Where the first `previous` pages of a
slot are mapped, mapping the next `growth` pages takes as many frames as
`required_frames_for_growth` says; so when that many are available, no `allocate_and_map` of the
loop fails for lack of a frame. The loop maps all the pages then, unless a free frame lies beyond the
physical limit. -/
theorem growth_takes_required_frames (kernel_root : PhysFrame) (manager : MemoryManager) (slot previous growth : Nat)
    (hmapped : manager.frame_allocator.Mapped) (hstacked : manager.frame_allocator.Stacked)
    (hsettled : Settled (manager.page_tables kernel_root))
    (hfilled : Filled (manager.page_tables kernel_root) slot previous) (hgrowth : 0 < growth)
    (hfits : previous + growth ≤ PML4_SLOT_PAGES) :
    ∃ required available, required_frames_for_growth previous growth = some required ∧
      (manager.frame_allocator.available_frame_count : Outcome HeapError Nat) = .ok available ∧
      (∀ after, MapsPages kernel_root (slot * PML4_SLOT_PAGES + previous) growth manager after →
        ∃ left, (after.frame_allocator.available_frame_count : Outcome HeapError Nat) = .ok left ∧
          available = left + required) ∧
      (required ≤ available →
        (∀ count < growth, ∀ reached,
          MapsPages kernel_root (slot * PML4_SLOT_PAGES + previous) count manager reached →
          (allocate_and_map kernel_root (slot * PML4_SLOT_PAGES + previous + count) HEAP_PAGE_FLAGS reached).1 ≠
            .err (.Mapper .FrameAllocationFailed)) ∧
        ((∀ frame ∈ manager.frame_allocator.free_frames, frame + PAGE_SIZE ≤ manager.frame_allocator.physical_limit) →
          ∃ after, map_growth kernel_root ((slot * PML4_SLOT_PAGES + previous) * PAGE_SIZE) growth 0 manager =
              (.ok (), after) ∧
            MapsPages kernel_root (slot * PML4_SLOT_PAGES + previous) growth manager after)) := by
  obtain ⟨required, hrequired, hsum⟩ := required_frames_for_growth_eq hgrowth hfits
  have hrefines := refines_self hmapped hstacked
  generalize (⟨manager.frame_allocator.unvisited, manager.frame_allocator.stack, _⟩ : FramePool) = pool at hrefines
  have hreached : KernelReached manager.frame_allocator kernel_root manager
      (pool.free ++ (manager.page_tables kernel_root).frames) manager pool :=
    ⟨hrefines, rfl, fun _ _ => rfl, hsettled, List.Perm.refl _⟩
  rw [hrefines.free_frames]
  refine ⟨required, pool.free.length, hrequired, hrefines.available_frame_count HeapError, ?_, fun henough => ?_⟩
  · intro after hmaps
    obtain ⟨pool', hafter, _, _, hspent⟩ := hmaps.spends hreached hfilled hfits
    exact ⟨pool'.free.length, hafter.refines.available_frame_count HeapError, by omega⟩
  refine ⟨fun count hcount reached hmaps => ?_, fun hlimit => ?_⟩
  · obtain ⟨outcome, next, hcall, hlacks, _⟩ := hmaps.not_exhausted hcount hreached hfilled hfits (by omega)
    rw [hcall]
    exact hlacks
  · have hstart : MapsPages kernel_root (slot * PML4_SLOT_PAGES + previous) 0 manager manager := rfl
    obtain ⟨after, hloop, hall⟩ := map_growth_calls hstart growth fun count hcount reached hmaps => by
      rw [Nat.zero_add] at hcount
      obtain ⟨outcome, next, hcall, _, hmaps⟩ := hmaps.not_exhausted hcount hreached hfilled hfits (by omega)
      obtain ⟨frame, rfl⟩ := hmaps hlimit
      exact ⟨frame, next, hcall⟩
    rw [Nat.zero_add] at hall
    exact ⟨after, hloop, hall⟩

theorem filled_new (slot : Nat) : Filled .new slot 0 := by
  intro page hindex
  have hslot : PML4_SLOT_PAGES = 134217728 := by decide
  rw [p4_index] at hindex
  simp only [UserTables.pages, UserTables.new, List.map_nil, List.not_mem_nil, false_iff, Nat.not_lt, hslot]
  omega

/-- The first growth of a heap maps its 256 pages, and takes three frames more for their tables. -/
theorem growth_takes_required_frames_first :
    (sample_allocator.available_frame_count : Outcome HeapError Nat) = .ok 512 ∧
    ∃ after, map_growth 0x102000 ((1 * PML4_SLOT_PAGES + 0) * PAGE_SIZE) 256 0 sample_manager = (.ok (), after) ∧
      MapsPages 0x102000 (1 * PML4_SLOT_PAGES + 0) 256 sample_manager after ∧
      (after.frame_allocator.available_frame_count : Outcome HeapError Nat) = .ok (512 - 259) := by
  obtain ⟨hmapped, hstacked, _⟩ := BootInfoFrameAllocator.new_mapped (by decide) sample_new
  obtain ⟨required, available, hrequired, havailable, htakes, hmaps⟩ := growth_takes_required_frames 0x102000
    sample_manager 1 0 256 hmapped hstacked settled_new (filled_new 1) (by decide) (by decide)
  have hneeded : required_frames_for_growth 0 256 = some 259 := by decide +kernel
  have hcount : (sample_allocator.available_frame_count : Outcome HeapError Nat) = .ok 512 := by decide +kernel
  have hlimit : ∀ frame ∈ sample_allocator.free_frames, frame + PAGE_SIZE ≤ sample_allocator.physical_limit := by
    decide +kernel
  obtain rfl := Option.mem_unique hrequired hneeded
  obtain rfl := Outcome.ok.inj (havailable.symm.trans hcount)
  obtain ⟨after, hloop, hall⟩ := (hmaps (by decide)).2 hlimit
  obtain ⟨left, hleft, hsum⟩ := htakes after hall
  refine ⟨hcount, after, hloop, hall, ?_⟩
  rw [hleft, hsum, Nat.add_sub_cancel]

end leafos.memory.heap
