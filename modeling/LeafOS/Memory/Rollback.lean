import LeafOS.Memory.GrowthFrames

namespace leafos.memory.heap

open Prog BootInfoFrameAllocator MemoryManager
open UserTables (frames mem_missing pages)

variable {all : UserTables} {total : Nat} {reached manager : MemoryManager} {error : MappingError}

/-- The pages from `start` on, `count` of them, are mapped besides those that were mapped at first,
and the first tables are where they were. -/
structure Added (first : UserTables) (start count : Nat) (tables : UserTables) : Prop where
  settled : Settled tables
  leaves : ∃ added, tables.leaves = added ++ first.leaves ∧ added.map Prod.fst = (List.range' start count).reverse
  kept : ∀ entry ∈ first.tables, entry ∈ tables.tables

section Added

variable {first tables after : UserTables} {start count : Nat}

theorem Added.refl (hsettled : Settled first) (start : Nat) : Added first start 0 first :=
  ⟨hsettled, ⟨[], rfl, rfl⟩, fun _ hentry => hentry⟩

section Added

variable (hadded : Added first start count tables)
include hadded

theorem Added.mem_pages {page : Nat} :
    page ∈ tables.pages ↔ start ≤ page ∧ page < start + count ∨ page ∈ first.pages := by
  obtain ⟨added, hleaves, hpages⟩ := hadded.leaves
  rw [pages, hleaves, List.map_append, List.mem_append, hpages, List.mem_reverse, List.mem_range'_1]
  rfl

theorem Added.first_leaves : ∀ leaf ∈ first.leaves, leaf ∈ tables.leaves := by
  obtain ⟨added, hleaves, _⟩ := hadded.leaves
  intro leaf hleaf
  rw [hleaves]
  exact List.mem_append_right _ hleaf

variable (hfirst : Settled first) (hsettled : Settled after) (hretains : Retains tables after)
include hfirst hsettled hretains

/-- A step that keeps the first pages keeps the first tables. -/
theorem Added.step (hsubset : ∀ leaf ∈ first.leaves, leaf ∈ after.leaves) :
    ∀ entry ∈ first.tables, entry ∈ after.tables := by
  intro entry hentry
  have hlevel := hfirst.keyed.levels entry hentry
  obtain ⟨leaf, hleaf, hpath⟩ := (hfirst.tight _ hlevel _).mp ⟨entry.2, hentry⟩
  have hthere := (hsettled.tight _ hlevel _).mpr ⟨leaf, hsubset leaf hleaf, hpath⟩
  exact hretains entry.1 entry.2 (hadded.kept entry hentry) hthere

/-- One more page. -/
theorem Added.push {frame : PhysFrame} {flags : PageTableFlags}
    (hleaves : after.leaves = (start + count, frame, flags) :: tables.leaves) :
    Added first start (count + 1) after := by
  refine ⟨hsettled, ?_, hadded.step hfirst hsettled hretains fun leaf hleaf => ?_⟩
  · obtain ⟨added, htables, hpages⟩ := hadded.leaves
    refine ⟨(start + count, frame, flags) :: added, by rw [hleaves, htables, List.cons_append], ?_⟩
    rw [List.map_cons, hpages, List.range'_concat, List.reverse_append, Nat.one_mul]
    rfl
  · rw [hleaves]
    exact List.mem_cons_of_mem _ (hadded.first_leaves leaf hleaf)

end Added

/-- The last page gone. -/
theorem Added.pop (hadded : Added first start (count + 1) tables) (hfirst : Settled first) (hsettled : Settled after)
    (hretains : Retains tables after)
    (hleaves : after.leaves = tables.leaves.filter fun entry => entry.1 != start + count) :
    Added first start count after := by
  obtain ⟨added, htables, hpages⟩ := hadded.leaves
  rw [List.range'_concat, List.reverse_append, Nat.one_mul] at hpages
  cases added with
  | nil => cases hpages
  | cons last rest =>
    obtain ⟨hlast, hrest⟩ := List.cons.inj hpages
    -- No other page has this number, so that the filter takes off the head alone.
    have hnodup := hadded.settled.keyed.leaves_nodup
    rw [htables, List.cons_append, List.map_cons, List.nodup_cons] at hnodup
    have hafter : after.leaves = rest ++ first.leaves := by
      rw [hleaves, htables, List.cons_append, List.filter_cons_of_neg (by simpa using hlast), List.filter_eq_self]
      intro entry hentry
      rw [bne_iff_ne]
      intro hsame
      exact hnodup.1 (List.mem_map.mpr ⟨entry, hentry, hsame.trans hlast.symm⟩)
    refine ⟨hsettled, ⟨rest, hafter, hrest⟩, hadded.step hfirst hsettled hretains fun leaf hleaf => ?_⟩
    rw [hafter]
    exact List.mem_append_right _ hleaf

/-- Without the added pages everything is where it was. -/
theorem Added.none_left (hadded : Added first start 0 tables) (hfirst : Settled first) :
    tables.leaves = first.leaves ∧ tables.tables.Perm first.tables := by
  obtain ⟨added, hleaves, hpages⟩ := hadded.leaves
  obtain rfl : added = [] := List.map_eq_nil_iff.mp hpages
  rw [List.nil_append] at hleaves
  refine ⟨hleaves, ?_⟩
  have hids : (tables.tables.map Prod.fst).Perm (first.tables.map Prod.fst) := by
    refine (List.perm_ext_iff_of_nodup hadded.settled.keyed.tables_nodup hfirst.keyed.tables_nodup).mpr fun id => ?_
    rw [hadded.settled.mem_tables, hfirst.mem_tables, UserTables.Needs, UserTables.Needs, hleaves]
  have hlength : tables.tables.length = first.tables.length := by simpa using hids.length_eq
  have hsubperm := List.subperm_of_subset hfirst.keyed.tables_nodup.of_map hadded.kept
  exact (hsubperm.perm_of_length_le (Nat.le_of_eq hlength)).symm

/-- The tables that `count` pages from `start` on need and that are not there. -/
def new_tables (tables : UserTables) (start count : Nat) : List TableId :=
  ((List.range' start count).flatMap tables.missing).dedup

theorem mem_new_tables {id : TableId} : id ∈ new_tables tables start count ↔
    ∃ page, (start ≤ page ∧ page < start + count) ∧ id ∈ tables.missing page := by
  simp only [new_tables, List.mem_dedup, List.mem_flatMap, List.mem_range'_1]

theorem new_tables_one : (new_tables tables start 1).length = (tables.missing start).length := by
  rw [new_tables, List.range'_one, List.flatMap_singleton, List.Nodup.dedup (tables.missing_nodup start)]

theorem new_tables_le (hcount : 0 < count) :
    (tables.missing start).length ≤ (new_tables tables start count).length := by
  refine (List.subperm_of_subset (tables.missing_nodup start) fun id hid => ?_).length_le
  exact mem_new_tables.mpr ⟨start, ⟨Nat.le_refl _, by omega⟩, hid⟩

/-- Of at most 256 pages in one slot the first needs all the tables but two: the second page table
and the second directory that the pages lie under. -/
theorem new_tables_le_add (htotal : count ≤ 256) (hslot : start % PML4_SLOT_PAGES + count ≤ PML4_SLOT_PAGES) :
    (new_tables tables start count).length ≤ (tables.missing start).length + 2 := by
  have hsubset : new_tables tables start count ⊆
      tables.missing start ++ [⟨1, start / 512 ^ 1 + 1⟩, ⟨2, start / 512 ^ 2 + 1⟩] := by
    intro id hid
    obtain ⟨page, ⟨hge, hlt⟩, hmissing⟩ := mem_new_tables.mp hid
    obtain ⟨⟨level, hlevel, rfl⟩, habsent⟩ := mem_missing.mp hmissing
    rw [List.mem_append]
    by_cases hsame : table_of level start = table_of level page
    · exact .inl (mem_missing.mpr ⟨⟨level, hlevel, hsame⟩, habsent⟩)
    · right
      have hsize : PML4_SLOT_PAGES = 134217728 := by decide
      rw [hsize] at hslot
      simp only [table_of, TableId.mk.injEq, true_and, List.mem_cons, List.not_mem_nil, or_false] at hsame hlevel ⊢
      obtain rfl | rfl | rfl := hlevel
      all_goals omega
  have hlength := (List.subperm_of_subset (List.nodup_dedup _) hsubset).length_le
  rwa [List.length_append] at hlength

section Added

variable (hadded : Added first start count tables) (hfirst : Settled first)
include hadded hfirst

/-- The tables are the first ones and those that the added pages need. -/
theorem Added.tables_perm :
    (tables.tables.map Prod.fst).Perm (first.tables.map Prod.fst ++ new_tables first start count) := by
  obtain ⟨added, hleaves, hpages⟩ := hadded.leaves
  have hneeds : ∀ id, tables.Needs id ↔
      (∃ page, (start ≤ page ∧ page < start + count) ∧ table_of id.level page = id) ∨ first.Needs id := by
    intro id
    have hmem : ∀ page : Nat, page ∈ added.map Prod.fst ↔ start ≤ page ∧ page < start + count := by
      intro page
      rw [hpages, List.mem_reverse, List.mem_range'_1]
    simp only [UserTables.Needs, hleaves, List.mem_append, or_and_right, exists_or, ← hmem, List.mem_map,
      exists_exists_and_eq_and]
  refine (List.perm_ext_iff_of_nodup hadded.settled.keyed.tables_nodup ?_).mpr fun id => ?_
  · refine List.nodup_append.mpr ⟨hfirst.keyed.tables_nodup, List.nodup_dedup _, ?_⟩
    rintro id hid other hother rfl
    obtain ⟨entry, hentry, rfl⟩ := List.mem_map.mp hid
    obtain ⟨_, _, hmissing⟩ := mem_new_tables.mp hother
    exact (mem_missing.mp hmissing).2 ⟨entry.2, hentry⟩
  · rw [List.mem_append, hadded.settled.mem_tables, hfirst.mem_tables, mem_new_tables, hneeds]
    constructor
    · rintro ⟨hlevel, ⟨page, hpage, hpath⟩ | hneeded⟩
      · by_cases hthere : first.HasTable id
        · exact .inl ⟨hlevel, (hfirst.tight _ hlevel _).mp hthere⟩
        · exact .inr ⟨page, hpage, mem_missing.mpr ⟨⟨_, hlevel, hpath⟩, hthere⟩⟩
      · exact .inl ⟨hlevel, hneeded⟩
    · rintro (⟨hlevel, hneeded⟩ | ⟨page, hpage, hmissing⟩)
      · exact ⟨hlevel, .inr hneeded⟩
      · obtain ⟨⟨level, hlevel, rfl⟩, _⟩ := mem_missing.mp hmissing
        exact ⟨hlevel, .inl ⟨page, hpage, rfl⟩⟩

/-- The added pages take a frame each, and one for every table that was not there. -/
theorem Added.frames_length :
    tables.frames.length = first.frames.length + (count + (new_tables first start count).length) := by
  obtain ⟨added, hleaves, hpages⟩ := hadded.leaves
  have hlength := congrArg List.length hpages
  rw [List.length_map, List.length_reverse, List.length_range'] at hlength
  have htables := (hadded.tables_perm hfirst).length_eq
  simp only [List.length_map, List.length_append] at htables
  simp only [frames, List.length_append, List.length_map, htables, hleaves, hlength]
  omega

/-- The tables that are missing for the next page are among those that the pages with it need. -/
theorem Added.missing_le :
    (new_tables first start count).length + (tables.missing (start + count)).length ≤
      (new_tables first start (count + 1)).length := by
  have hhas : ∀ id ∈ new_tables first start count, tables.HasTable id := by
    intro id hid
    obtain ⟨entry, hentry, rfl⟩ := List.mem_map.mp ((hadded.tables_perm hfirst).mem_iff.mpr (List.mem_append_right _ hid))
    exact ⟨entry.2, hentry⟩
  have hnodup : (new_tables first start count ++ tables.missing (start + count)).Nodup := by
    refine List.nodup_append.mpr ⟨List.nodup_dedup _, tables.missing_nodup _, ?_⟩
    rintro id hid other hother rfl
    exact (mem_missing.mp hother).2 (hhas id hid)
  rw [← List.length_append]
  refine (List.subperm_of_subset hnodup fun id hid => ?_).length_le
  rw [mem_new_tables]
  obtain hid | hid := List.mem_append.mp hid
  · obtain ⟨page, ⟨hge, hlt⟩, hmissing⟩ := mem_new_tables.mp hid
    exact ⟨page, ⟨hge, by omega⟩, hmissing⟩
  · obtain ⟨hpath, habsent⟩ := mem_missing.mp hid
    refine ⟨start + count, ⟨by omega, by omega⟩, mem_missing.mpr ⟨hpath, ?_⟩⟩
    rintro ⟨frame, hframe⟩
    exact habsent ⟨frame, hadded.kept _ hframe⟩

end Added

end Added

section Loop

variable {boot : BootInfoFrameAllocator} {kernel_root : PhysFrame} {origin : MemoryManager} {account : List PhysFrame}
  {pool : FramePool} {first : UserTables} {start count : Nat}

theorem unmap_and_deallocate_keeps (page : Page) :
    Delivers (fun manager => ∃ pool, KernelReached boot kernel_root origin account manager pool)
      ((root_calls kernel_root).unmap_and_deallocate page)
      (fun _ manager => ∃ pool, KernelReached boot kernel_root origin account manager pool)
      (fun _ manager => ∃ pool, KernelReached boot kernel_root origin account manager pool) := by
  constructor
  rintro manager ⟨pool, hreached⟩
  obtain ⟨error, hcall⟩ | ⟨manager', pool', hcall, hafter, _⟩ := unmap_and_deallocate_reached hreached page
  · rw [root_calls_unmap_and_deallocate, hcall]
    exact ⟨pool, hreached⟩
  · rw [root_calls_unmap_and_deallocate, hcall]
    exact ⟨pool', hafter⟩

variable (hreached : KernelReached boot kernel_root origin account manager pool)
include hreached

/-- Calls that succeed add their pages, and draw on the free frames. -/
theorem MapsPages.added (hmaps : MapsPages kernel_root start count manager reached) :
    ∃ pool', KernelReached boot kernel_root origin account reached pool' ∧
      Added (manager.page_tables kernel_root) start count (reached.page_tables kernel_root) ∧ pool.Drawn pool' := by
  induction count generalizing reached with
  | zero =>
    obtain rfl := hmaps
    exact ⟨pool, hreached, .refl hreached.settled start, .refl pool⟩
  | succ count ih =>
    obtain ⟨between, frame, hmaps, hmap⟩ := hmaps
    obtain ⟨pool', hbetween, hadded, hdrawn⟩ := ih hmaps
    obtain ⟨outcome, after, pool'', hcall, hafter, hretains, hcases⟩ :=
      allocate_and_map_reached hbetween (start + count) HEAP_PAGE_FLAGS
    obtain ⟨rfl, rfl⟩ := Prod.mk.inj (hmap.symm.trans hcall)
    obtain ⟨_, _, hleaves, hdrawn'⟩ | ⟨_, herror, _⟩ := hcases
    · exact ⟨pool'', hafter, hadded.push hreached.settled hafter.settled hretains hleaves, hdrawn.trans hdrawn'⟩
    · cases herror

variable (hfirst : Settled first) (hadded : Added first start count (manager.page_tables kernel_root))
include hfirst hadded

/-- A call that fails, for whatever reason, leaves the pages as they were. When frames were left it
has put one back at least; when there were too few, all of them. -/
theorem allocate_and_map_failed {failed : MemoryManager}
    (hfails : allocate_and_map kernel_root (start + count) HEAP_PAGE_FLAGS manager = (.err error, failed)) :
    ∃ pool', KernelReached boot kernel_root origin account failed pool' ∧
      Added first start count (failed.page_tables kernel_root) ∧
      (pool.free ≠ [] ∧ pool'.returned.length = max pool.returned.length 1 ∨
        pool.free.length ≤ ((manager.page_tables kernel_root).missing (start + count)).length ∧
          pool'.returned.length = pool.free.length) := by
  obtain ⟨outcome, after, pool', hcall, hafter, hretains, hcases⟩ :=
    allocate_and_map_reached hreached (start + count) HEAP_PAGE_FLAGS
  obtain ⟨rfl, rfl⟩ := Prod.mk.inj (hfails.symm.trans hcall)
  obtain ⟨_, hok, _⟩ | ⟨_, _, hleaves, hcause⟩ := hcases
  · cases hok
  have hadded' : Added first start count (failed.page_tables kernel_root) := by
    refine ⟨hafter.settled, hleaves ▸ hadded.leaves, hadded.step hfirst hafter.settled hretains fun leaf hleaf => ?_⟩
    rw [hleaves]
    exact hadded.first_leaves leaf hleaf
  refine ⟨pool', hafter, hadded', ?_⟩
  obtain ⟨_, hshort, hfresh⟩ | ⟨_, hleft, hreturned⟩ := hcause
  · have hframes := (hadded'.frames_length hfirst).trans (hadded.frames_length hfirst).symm
    have hfree : pool.free.length = pool'.free.length + 0 := hreached.spent hafter hframes
    rw [Pool.free.eq_def pool', List.length_append, hfresh, List.length_nil] at hfree
    exact .inr ⟨hshort, by omega⟩
  · exact .inl ⟨hleft, hreturned⟩

/-- The rollback of pages that were added succeeds if, when only the first of them is left, there is room in
the cache for four frames. Frames that have come back are counted with those under the root. -/
theorem roll_back_iff (howned : ∀ frame ∈ account, boot.is_allocatable_frame frame = .ok true) :
    ∃ overflows manager' pool', roll_back kernel_root (start * PAGE_SIZE) count manager = (.ok overflows, manager') ∧
      KernelReached boot kernel_root origin account manager' pool' ∧
      (overflows = false → Added first start 0 (manager'.page_tables kernel_root)) ∧
      (overflows = true ↔ count ≠ 0 ∧ first.frames.length + 1 + (first.missing start).length +
        RECLAIM_GUARD <
          pool.returned.length + (manager.page_tables kernel_root).frames.length) := by
  induction count generalizing manager pool with
  | zero => exact ⟨false, manager, pool, rfl, hreached, fun _ => hadded, by simp⟩
  | succ count ih =>
    have hframes := hadded.frames_length hfirst
    have hleast : (first.missing start).length ≤ (new_tables first start (count + 1)).length :=
      new_tables_le (Nat.succ_pos count)
    by_cases hroom : manager.frame_allocator.reclaimed_count ≤ RECLAIM_GUARD
    swap
    · -- The page stays, and the rollback goes on below it.
      have hunmap : unmap_and_deallocate kernel_root (start + count) manager =
          (.err .ReclaimCapacityExceeded, manager) := by
        simp [unmap_and_deallocate, Nat.lt_of_not_le hroom]
      obtain ⟨_, manager', hroll, pool', hreached'⟩ | ⟨_, _, _, hnever⟩ :=
        ((root_calls kernel_root).roll_back_returns unmap_and_deallocate_keeps (start * PAGE_SIZE) count).run ⟨pool, hreached⟩
      swap
      · exact hnever.elim
      refine ⟨true, manager', pool', ?_, hreached', by simp, ?_⟩
      · simp [PageCalls.roll_back, growth_page_eq, attempt, hunmap, hroll]
      · rw [← hreached.refines.returned_length] at hroom
        simp only [true_iff]
        omega
    have hthere : start + count ∈ (manager.page_tables kernel_root).pages :=
      hadded.mem_pages.mpr (.inl ⟨by omega, by omega⟩)
    obtain ⟨entry, hentry, hpage⟩ := List.mem_map.mp hthere
    have hleaf : (manager.page_tables kernel_root).leaf (start + count) = some entry.2 := by
      rw [← hpage]
      exact (UserTables.leaf_eq_some hadded.settled.keyed).mpr hentry
    have hframe : entry.2.1 ∈ account := by
      refine hreached.balance.subset (List.mem_append_right _ (List.mem_append_right _ ?_))
      exact List.mem_map.mpr ⟨entry, hentry, rfl⟩
    have hmine : manager.frame_allocator.is_allocatable_frame entry.2.1 = .ok true := by
      rw [hreached.refines.same.is_allocatable_frame]
      exact howned _ hframe
    obtain ⟨tables, after, pool', hunmap, hafter, hsettled, hretains, hconserves, hfresh, hleaves⟩ :=
      unmap_and_deallocate_ok hreached.refines hreached.settled hroom hleaf hmine
    have hnext := hreached.changed hafter hsettled hconserves
    have hnow : ((manager.changed kernel_root tables after).page_tables kernel_root) = tables := Function.update_self ..
    rw [← hnow] at hretains hleaves
    generalize manager.changed kernel_root tables after = next at hunmap hnext hretains hleaves
    have hbooks : pool'.returned.length + (next.page_tables kernel_root).frames.length =
        pool.returned.length + (manager.page_tables kernel_root).frames.length := by
      have hbefore := hreached.balance.length_eq
      have hafter := hnext.balance.length_eq
      simp only [Pool.free, List.length_append, hfresh] at hbefore hafter
      omega
    obtain ⟨overflows, manager', pool'', hroll, hreached', hnone, hiff⟩ :=
      ih hnext (hadded.pop hfirst hnext.settled hretains hleaves)
    refine ⟨overflows, manager', pool'', ?_, hreached', hnone, ?_⟩
    · simp [PageCalls.roll_back, growth_page_eq, attempt, hunmap, hroll]
    · rw [hiff, hbooks]
      rw [← hreached.refines.returned_length] at hroom
      obtain rfl | hmore := Nat.eq_zero_or_pos count
      · have hone : (new_tables first start (0 + 1)).length = (first.missing start).length := new_tables_one
        omega
      · omega

end Loop

/-- The checks of `grow` pass: it goes on to map `pages` pages behind those of a heap that lies from
the page `base` on. -/
structure Begins (paging : Paging) (target_total_pages base pages : Nat) : Prop where
  fine : paging.heap.poisoned = false
  lies : paging.heap.start.or paging.first_unused_low_half_page = some (base * PAGE_SIZE)
  chunk : ∃ available_pages, available_pages_in_slot (base * PAGE_SIZE) paging.heap.mapped_pages = some available_pages ∧
    growth_chunk_pages target_total_pages paging.heap.mapped_pages available_pages = pages
  start : checked_growth_start (base * PAGE_SIZE) paging.heap.mapped_pages pages =
    some ((base + paging.heap.mapped_pages) * PAGE_SIZE)
  frames : ∃ required_frames available_frames,
    required_frames_for_growth paging.heap.mapped_pages pages = some required_frames ∧
    (paging.manager.frame_allocator.available_frame_count : Outcome HeapError Nat) = .ok available_frames ∧
    required_frames ≤ available_frames

section Begins

variable {paging : Paging} {target_total_pages base pages : Nat} (hbegins : Begins paging target_total_pages base pages)
include hbegins

theorem Begins.positive : pages ≠ 0 := by
  rintro rfl
  have hstart := hbegins.start
  rw [checked_growth_start, if_pos rfl] at hstart
  cases hstart

theorem Begins.pages_le : pages ≤ 256 := by
  obtain ⟨available_pages, _, rfl⟩ := hbegins.chunk
  exact Nat.le_trans (Nat.min_le_left _ _) (Nat.min_le_right _ _)

/-- The pages of the growth are in the slot of the heap. -/
theorem Begins.in_slot : (base + paging.heap.mapped_pages) % PML4_SLOT_PAGES + pages ≤ PML4_SLOT_PAGES := by
  have hpositive := hbegins.positive
  obtain ⟨available_pages, havailable, hpages⟩ := hbegins.chunk
  have hsum := available_pages_in_slot_some havailable
  have hchunk : pages ≤ available_pages := hpages ▸ Nat.min_le_right _ _
  have haligned : base % PML4_SLOT_PAGES = 0 := by
    simp only [available_pages_in_slot, slot_index, Option.bind_eq_bind, Option.bind_eq_some_iff] at havailable
    obtain ⟨_, hslot, _⟩ := havailable
    have hstart : base * PAGE_SIZE % PML4_SLOT_SIZE = 0 := by
      by_contra hodd
      rw [if_pos hodd] at hslot
      cases hslot
    simp only [PAGE_SIZE, PML4_SLOT_SIZE, PML4_SLOT_PAGES] at hstart ⊢
    omega
  have hsize : PML4_SLOT_PAGES = 134217728 := by decide
  rw [hsize] at hsum haligned ⊢
  omega

theorem Begins.extend_mapping_fails {failure : HeapError}
    (hloop : map_growth paging.kernel_root ((base + paging.heap.mapped_pages) * PAGE_SIZE) pages 0 paging.manager =
      (.err failure, manager)) :
    kernel_manager.extend_mapping paging.heap target_total_pages paging = (.err failure, { paging with manager }) := by
  obtain ⟨available_pages, havailable, hpages⟩ := hbegins.chunk
  obtain ⟨required_frames, available_frames, hrequired, hframes, henough⟩ := hbegins.frames
  have hlies : paging.heap.start.or (kernel_manager.first_unused_low_half_page paging) = _ := hbegins.lies
  have hcount : kernel_manager.available_frame_count paging = _ := hframes
  simp [Manager.extend_mapping, hlies, havailable, hpages, hbegins.positive, hbegins.start, hrequired, hcount,
    Nat.not_lt.mpr henough, kernel_manager_map_growth, Paging.on_manager, zoom, hloop]

/-- `grow` reports what its loop reports. -/
theorem Begins.grow_fails (hloop : map_growth paging.kernel_root ((base + paging.heap.mapped_pages) * PAGE_SIZE) pages 0
      paging.manager = (.err (.Mapping error), manager)) :
    grow target_total_pages paging = (.err (.Mapping error), { paging with manager }) := by
  simp [grow_apply, hbegins.fine, hbegins.extend_mapping_fails hloop]

/-- A rollback that failed poisons the heap. -/
theorem Begins.grow_poisons
    (hloop : map_growth paging.kernel_root ((base + paging.heap.mapped_pages) * PAGE_SIZE) pages 0 paging.manager =
      (.err .RollbackFailed, manager)) :
    grow target_total_pages paging = (.err .RollbackFailed, { paging with manager, heap.poisoned := true }) := by
  simp [grow_apply, hbegins.fine, hbegins.extend_mapping_fails hloop]

end Begins

/-- The loop of `grow` runs through the calls that succeed. -/
theorem MapsPages.map_growth {kernel_root : PhysFrame} {start count : Nat}
    (hmaps : MapsPages kernel_root start count manager reached) (remaining : Nat) :
    map_growth kernel_root (start * PAGE_SIZE) (count + remaining) 0 manager =
      heap.map_growth kernel_root (start * PAGE_SIZE) remaining count reached := by
  induction count generalizing reached remaining with
  | zero =>
    obtain rfl := hmaps
    rw [Nat.zero_add]
  | succ count ih =>
    obtain ⟨between, frame, hmaps, hmap⟩ := hmaps
    rw [Nat.add_assoc, Nat.add_comm 1, ih hmaps (remaining + 1)]
    simp [PageCalls.map_growth, growth_page_eq, attempt, hmap]

/-- The cache has room for the rollback of the first `count` pages of a growth from `start` on. When
the rollback is done the cache holds at least what it held before the growth, and what the growth
took with the frame it had in hand at the end, if one was left. The frames of the first page and of its
tables came last, and before that there must be room for four. -/
def RollbackFits (manager : MemoryManager) (kernel_root : PhysFrame) (start count : Nat) : Prop :=
  count = 0 ∨
    max manager.frame_allocator.reclaimed_count
        (min (count + (new_tables (manager.page_tables kernel_root) start count).length + 1)
          manager.frame_allocator.free_frames.length) ≤
      RECLAIM_GUARD + 1 +
        ((manager.page_tables kernel_root).missing start).length

/-- A growth that fails is rolled back if and only if the reclaim cache has room. When the first `count`
pages of the growth are mapped and the next `allocate_and_map` fails for any reason, then with room in the
cache before the growth every unmapping of the rollback succeeds, `grow` reports the error of the mapping, and the
mappings and the free frames are as before. Without it an unmapping fails, and the heap is poisoned. -/
theorem rollback_restores_mappings (paging : Paging) (target_total_pages base pages count : Nat)
    (reached failed : MemoryManager) (error : MappingError)
    (hmapped : paging.manager.frame_allocator.Mapped) (hstacked : paging.manager.frame_allocator.Stacked)
    (hsettled : Settled (paging.manager.page_tables paging.kernel_root))
    (howned : ∀ frame ∈ paging.manager.frame_allocator.free_frames ++
      (paging.manager.page_tables paging.kernel_root).frames,
      paging.manager.frame_allocator.is_allocatable_frame frame = .ok true)
    (hbegins : Begins paging target_total_pages base pages) (hcount : count < pages)
    (hmaps : MapsPages paging.kernel_root (base + paging.heap.mapped_pages) count paging.manager reached)
    (hfails : allocate_and_map paging.kernel_root (base + paging.heap.mapped_pages + count) HEAP_PAGE_FLAGS reached =
      (.err error, failed)) :
    (RollbackFits paging.manager paging.kernel_root (base + paging.heap.mapped_pages) count ↔
      ∃ manager, roll_back paging.kernel_root ((base + paging.heap.mapped_pages) * PAGE_SIZE) count failed =
          (.ok false, manager) ∧
        grow target_total_pages paging = (.err (.Mapping error), { paging with manager }) ∧
        (manager.page_tables paging.kernel_root).leaves = (paging.manager.page_tables paging.kernel_root).leaves ∧
        (manager.page_tables paging.kernel_root).tables.Perm (paging.manager.page_tables paging.kernel_root).tables ∧
        (∀ root, root ≠ paging.kernel_root → manager.page_tables root = paging.manager.page_tables root) ∧
        manager.frame_allocator.free_frames.Perm paging.manager.frame_allocator.free_frames) ∧
    (¬ RollbackFits paging.manager paging.kernel_root (base + paging.heap.mapped_pages) count →
      (grow target_total_pages paging).1 = .err .RollbackFailed ∧
      (grow target_total_pages paging).2.heap.poisoned = true) := by
  have hrefines := refines_self hmapped hstacked
  generalize (⟨paging.manager.frame_allocator.unvisited, paging.manager.frame_allocator.stack, _⟩ : FramePool) = pool
    at hrefines
  have hstart : KernelReached paging.manager.frame_allocator paging.kernel_root paging.manager
      (pool.free ++ (paging.manager.page_tables paging.kernel_root).frames) paging.manager pool :=
    ⟨hrefines, rfl, fun _ _ => rfl, hsettled, List.Perm.refl _⟩
  rw [hrefines.free_frames] at howned
  obtain ⟨pool₁, hreached, hadded, hdrawn⟩ := hmaps.added hstart
  obtain ⟨pool₂, hfailed, hadded', hcause⟩ := allocate_and_map_failed hreached hsettled hadded hfails
  obtain ⟨overflows, manager, pool₃, hroll, hrestored, hnone, hiff⟩ := roll_back_iff hfailed hsettled hadded' howned
  have hfits : RollbackFits paging.manager paging.kernel_root (base + paging.heap.mapped_pages) count ↔
      overflows = false := by
    have hslot := hbegins.in_slot
    have hmost := hbegins.pages_le
    have hspent := hstart.spent hreached (hadded.frames_length hsettled)
    have hleft := hdrawn.returned
    have hcached := pool.free_length
    have hlast := hadded.missing_le hsettled
    have htwo : (new_tables (paging.manager.page_tables paging.kernel_root) (base + paging.heap.mapped_pages)
        (count + 1)).length ≤ _ := new_tables_le_add (by omega) (by omega)
    rw [hadded'.frames_length hsettled] at hiff
    rw [← Bool.not_eq_true, hiff, RollbackFits, hrefines.free_frames, ← hrefines.returned_length]
    obtain ⟨hsome, hreturned⟩ | ⟨hshort, hreturned⟩ := hcause
    · have hpositive := List.length_pos_iff.mpr hsome
      omega
    · -- With all the frames back there is room in any case: the pages need two tables more than the first does.
      have hroom : RECLAIM_GUARD = 256 := by decide
      omega
  have hloop : map_growth paging.kernel_root ((base + paging.heap.mapped_pages) * PAGE_SIZE) pages 0 paging.manager =
      (.err (if overflows then .RollbackFailed else .Mapping error), manager) := by
    obtain ⟨remaining, rfl⟩ : ∃ remaining, pages = count + (remaining + 1) := ⟨pages - count - 1, by omega⟩
    rw [hmaps.map_growth]
    cases overflows <;> simp [PageCalls.map_growth, growth_page_eq, attempt, hfails, hroll]
  rw [hfits]
  cases overflows with
  | true =>
    refine ⟨⟨by simp, ?_⟩, fun _ => ?_⟩
    · rintro ⟨_, hfine, _⟩
      rw [hroll] at hfine
      cases hfine
    · rw [hbegins.grow_poisons hloop]
      exact ⟨rfl, rfl⟩
  | false =>
    refine ⟨⟨fun _ => ?_, fun _ => rfl⟩, fun hfull => absurd rfl hfull⟩
    obtain ⟨hsame, htables⟩ := (hnone rfl).none_left hsettled
    refine ⟨manager, hroll, hbegins.grow_fails hloop, hsame, htables, hrestored.others, ?_⟩
    rw [hrefines.free_frames, hrestored.refines.free_frames]
    have hframes : (manager.page_tables paging.kernel_root).frames.Perm
        (paging.manager.page_tables paging.kernel_root).frames := by
      rw [frames, frames, hsame]
      exact (htables.map Prod.snd).append_right _
    exact (List.perm_append_right_iff _).mp (hrestored.balance.trans (hframes.symm.append_left _))

/-- The allocator of the sample map after 265 frames were taken and `count` of them came back. -/
def sample_crowded_allocator (count : Nat) : BootInfoFrameAllocator :=
  { sample_allocator with
    page_index := 265
    reclaimed_frames := fun slot => if slot.val < count then some (0x205000 + slot.val * PAGE_SIZE) else none
    reclaimed_count := count }

/-- A heap of one page; the page after the next one is mapped too. -/
def sample_crowded_tables : UserTables where
  tables := [(⟨3, 1⟩, 0x200000), (⟨2, 512⟩, 0x201000), (⟨1, 262144⟩, 0x202000)]
  leaves := [(134217728, 0x203000, HEAP_PAGE_FLAGS), (134217730, 0x204000, HEAP_PAGE_FLAGS)]

def sample_crowded (count : Nat) : Paging where
  manager := ⟨offset_page_table, sample_crowded_allocator count, 0, true,
    fun root => if root = 0x102000 then sample_crowded_tables else .new⟩
  kernel_root := 0x102000
  loader := fun _ _ => none
  copies := fun _ _ => none
  spaces := []
  heap := ⟨true, false, some (134217728 * PAGE_SIZE), 1⟩

theorem sample_crowded_begins (count : Nat) {available_frames : Nat}
    (havailable : ((sample_crowded_allocator count).available_frame_count : Outcome HeapError Nat) = .ok available_frames)
    (henough : 2 ≤ available_frames) : Begins (sample_crowded count) 3 134217728 2 := by
  have hpages : available_pages_in_slot (134217728 * PAGE_SIZE) 1 = some 134217727 := by decide +kernel
  have hchunk : growth_chunk_pages 3 1 134217727 = 2 := by decide +kernel
  have hstart : checked_growth_start (134217728 * PAGE_SIZE) 1 2 = some ((134217728 + 1) * PAGE_SIZE) := by decide +kernel
  have hrequired : required_frames_for_growth 1 2 = some 2 := by decide +kernel
  exact ⟨rfl, rfl, ⟨134217727, hpages, hchunk⟩, hstart, ⟨2, available_frames, hrequired, havailable, henough⟩⟩

/-- With a full reclaim cache the rollback of one page fails, and the heap is poisoned: mapping the
page took one frame from the cache, but an unmapping asks for room for four. -/
theorem rollback_overflows_cache :
    Begins (sample_crowded 260) 3 134217728 2 ∧
    (∃ reached failed, MapsPages 0x102000 (134217728 + 1) 1 (sample_crowded 260).manager reached ∧
      allocate_and_map 0x102000 (134217728 + 1 + 1) HEAP_PAGE_FLAGS reached =
        (.err (.Mapper .PageAlreadyMapped), failed) ∧
      (unmap_and_deallocate 0x102000 (134217728 + 1) failed).1 = .err .ReclaimCapacityExceeded) ∧
    (grow 3 (sample_crowded 260)).1 = .err .RollbackFailed ∧
    (grow 3 (sample_crowded 260)).2.heap.poisoned = true := by
  have havailable : ((sample_crowded_allocator 260).available_frame_count : Outcome HeapError Nat) = .ok 507 := by
    decide +kernel
  have hmaps : (allocate_and_map 0x102000 (134217728 + 1) HEAP_PAGE_FLAGS (sample_crowded 260).manager).1 =
      .ok 0x308000 := by decide +kernel
  refine ⟨sample_crowded_begins 260 havailable (by decide), ⟨_, _, ⟨_, _, rfl, Prod.ext hmaps rfl⟩, Prod.ext ?_ rfl, ?_⟩,
    by decide +kernel, by decide +kernel⟩
  · decide +kernel
  · decide +kernel

theorem sample_crowded_settled : Settled sample_crowded_tables := by
  refine ⟨⟨by decide, by decide, by decide⟩, ?_⟩
  intro level hlevel position
  simp only [List.mem_cons, List.not_mem_nil, or_false] at hlevel
  obtain rfl | rfl | rfl := hlevel
  all_goals
    simp [UserTables.HasTable, UserTables.Needs, sample_crowded_tables, table_of, eq_comm]

theorem sample_crowded_mapped (count : Nat) (hcount : count ≤ 260) :
    (sample_crowded_allocator count).Mapped ∧ (sample_crowded_allocator count).Stacked := by
  obtain ⟨hmapped, _⟩ := BootInfoFrameAllocator.new_mapped (by decide) sample_new
  refine ⟨{ hmapped with }, hcount, ?_⟩
  intro slot hslot
  have hbelow : slot.val < count := hslot
  simp [sample_crowded_allocator, hbelow]

/-- With 257 frames in the cache the same growth is rolled back. -/
theorem rollback_restores_mappings_crowded :
    ∃ manager, grow 3 (sample_crowded 257) =
        (.err (.Mapping (.Mapper .PageAlreadyMapped)), { sample_crowded 257 with manager }) ∧
      (manager.page_tables 0x102000).leaves = sample_crowded_tables.leaves := by
  obtain ⟨hmapped, hstacked⟩ := sample_crowded_mapped 257 (by decide)
  have havailable : ((sample_crowded_allocator 257).available_frame_count : Outcome HeapError Nat) = .ok 504 := by
    decide +kernel
  have hmaps : (allocate_and_map 0x102000 (134217728 + 1) HEAP_PAGE_FLAGS (sample_crowded 257).manager).1 =
      .ok 0x305000 := by decide +kernel
  have howned : ∀ frame ∈ (sample_crowded_allocator 257).free_frames ++ sample_crowded_tables.frames,
      (sample_crowded_allocator 257).is_allocatable_frame frame = .ok true := by decide +kernel
  have hfits : RollbackFits (sample_crowded 257).manager 0x102000 (134217728 + 1) 1 := by
    unfold RollbackFits
    decide +kernel
  obtain ⟨manager, _, hgrow, hleaves, _⟩ := (rollback_restores_mappings (sample_crowded 257) 3 134217728 2 1 _ _
    (.Mapper .PageAlreadyMapped) hmapped hstacked sample_crowded_settled howned
    (sample_crowded_begins 257 havailable (by decide)) (by decide) ⟨_, _, rfl, Prod.ext hmaps rfl⟩
    (Prod.ext (by decide +kernel) rfl)).1.mp hfits
  exact ⟨manager, hgrow, hleaves⟩

end leafos.memory.heap
