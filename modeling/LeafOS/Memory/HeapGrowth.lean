import LeafOS.Memory.AvailableFrames
import LeafOS.Memory.HeapExtent
import LeafOS.Memory.Spaces

namespace leafos.memory

open Prog BootInfoFrameAllocator MemoryManager

variable {before after : UserTables} {pool' : FramePool}

/-- What operations on the kernel's own tables leave of a manager: the tables of
other roots are as they were, and free frames and frames under the kernel's root
make up the given ones. -/
structure KernelReached (boot : BootInfoFrameAllocator) (kernel_root : PhysFrame) (origin : MemoryManager)
    (account : List PhysFrame) (manager : MemoryManager) (pool : FramePool) : Prop where
  refines : manager.frame_allocator.Refines boot pool
  offset : manager.physical_memory_offset = origin.physical_memory_offset
  others : ∀ other, other ≠ kernel_root → manager.page_tables other = origin.page_tables other
  settled : Settled (manager.page_tables kernel_root)
  balance : (pool.free ++ (manager.page_tables kernel_root).frames).Perm account

/-- The mapped pages, by number. -/
def UserTables.pages (self : UserTables) : List Nat := self.leaves.map Prod.fst

/-- The table on a page's path just below the root stays in its frame. -/
def UserTables.Anchors (page : Page) (before after : UserTables) : Prop :=
  ∀ frame, (table_of 3 page, frame) ∈ before.tables → (table_of 3 page, frame) ∈ after.tables

theorem MemoryManager.Retains.anchors (hretains : Retains before after)
    (hsettled : Settled after) {page : Page} (hpage : page ∈ after.pages) : UserTables.Anchors page before after := by
  obtain ⟨leaf, hleaf, rfl⟩ := List.mem_map.mp hpage
  exact fun frame hframe => hretains _ frame hframe ((hsettled.tight 3 (by decide) _).mpr ⟨leaf, hleaf, rfl⟩)

section Kernel

variable {boot : BootInfoFrameAllocator} {kernel_root : PhysFrame} {origin manager : MemoryManager}
  {account : List PhysFrame} {pool : FramePool} {page : Page}

section Reached

variable (hreached : KernelReached boot kernel_root origin account manager pool) {after : BootInfoFrameAllocator}
include hreached

theorem KernelReached.changed {tables : UserTables} (hafter : after.Refines boot pool')
    (hsettled : Settled tables) (hconserves : Conserves pool (manager.page_tables kernel_root) pool' tables) :
    KernelReached boot kernel_root origin account (manager.changed kernel_root tables after) pool' := by
  refine ⟨hafter, hreached.offset, fun other hne => ?_, ?_, ?_⟩
  · exact (Function.update_of_ne hne _ _).trans (hreached.others other hne)
  · simpa [MemoryManager.changed] using hsettled
  · simpa [MemoryManager.changed] using List.Perm.trans hconserves hreached.balance

/-- A failure before the walk puts the frame back. -/
theorem KernelReached.returned (hafter : after.Refines boot pool') (hfree : pool'.free.Perm pool.free) :
    KernelReached boot kernel_root origin account { manager with frame_allocator := after } pool' :=
  ⟨hafter, hreached.offset, hreached.others, hreached.settled, (hfree.append_right _).trans hreached.balance⟩

/-- Free frames and frames in use add up, whatever was mapped. -/
theorem KernelReached.spent {other : MemoryManager}
    (hother : KernelReached boot kernel_root origin account other pool') {used : Nat}
    (hframes : (other.page_tables kernel_root).frames.length = (manager.page_tables kernel_root).frames.length + used) :
    pool.free.length = pool'.free.length + used := by
  have hbefore := hreached.balance.length_eq
  have hafter := hother.balance.length_eq
  rw [List.length_append] at hbefore hafter
  omega

/-- `allocate_and_map` maps the page, or fails with the pages as they were. It fails
only when too few frames are left, on a frame beyond the limit, or on a page that is
mapped. In the first case all the frames that were left have gone to the returned ones, in the
others one has at most. -/
theorem allocate_and_map_reached (page : Page) (flags : PageTableFlags) :
    ∃ outcome manager' pool', allocate_and_map kernel_root page flags manager = (outcome, manager') ∧
      KernelReached boot kernel_root origin account manager' pool' ∧
      Retains (manager.page_tables kernel_root) (manager'.page_tables kernel_root) ∧
      ((∃ frame, outcome = .ok frame ∧
          (manager'.page_tables kernel_root).leaves = (page, frame, flags) :: (manager.page_tables kernel_root).leaves ∧
          pool.Drawn pool') ∨
        ∃ error, outcome = .err error ∧
          (manager'.page_tables kernel_root).leaves = (manager.page_tables kernel_root).leaves ∧
          (error = .Mapper .FrameAllocationFailed ∧
              pool.free.length ≤ ((manager.page_tables kernel_root).missing page).length ∧ pool'.fresh = [] ∨
            (error = .PhysicalAddressOutOfRange ∧ (∃ frame ∈ pool.free, boot.physical_limit < frame + PAGE_SIZE) ∨
              error ≠ .Mapper .FrameAllocationFailed ∧ page ∈ (manager.page_tables kernel_root).pages) ∧
            pool.free ≠ [] ∧ pool'.returned.length = max pool.returned.length 1)) := by
  have hretains : Retains (manager.page_tables kernel_root) (manager.page_tables kernel_root) :=
    fun _ _ hentry _ => hentry
  obtain ⟨frame, rest, after, htake, hallocate, hafter⟩ | ⟨htake, after, hallocate, hafter⟩ :=
    hreached.refines.allocate MappingError
  swap
  · refine ⟨.err (.Mapper .FrameAllocationFailed), { manager with frame_allocator := after }, pool, ?_,
      hreached.returned hafter (List.Perm.refl _), hretains,
      .inr ⟨_, rfl, rfl, .inl ⟨rfl, ?_, (List.append_eq_nil_iff.mp (Pool.take_eq_none htake)).2⟩⟩⟩
    · simp [allocate_and_map, with_allocator, zoom, hallocate]
    · simp [Pool.take_eq_none htake]
  have hleft : pool.free ≠ [] := by
    rw [Pool.take_free htake]
    exact List.cons_ne_nil _ _
  obtain ⟨final, pool', hreclaimed, hfinal, hfree, hreturned⟩ := take_and_reclaim MappingError htake hafter
  by_cases hlimit : after.physical_limit ≤ frame ∨ after.physical_limit < frame + PAGE_SIZE
  · refine ⟨.err .PhysicalAddressOutOfRange, { manager with frame_allocator := final }, pool', ?_,
      hreached.returned hfinal hfree, hretains,
      .inr ⟨_, rfl, rfl, .inr ⟨.inl ⟨rfl, frame, Pool.take_free htake ▸ List.mem_cons_self, ?_⟩, hleft, hreturned⟩⟩⟩
    · simp [allocate_and_map, MemoryManager.map_to, with_allocator, zoom, hallocate, attempt, hlimit, hreclaimed]
    · rw [← hafter.same.physical_limit]
      obtain hover | hover := hlimit
      · exact Nat.lt_of_le_of_lt hover (Nat.lt_add_of_pos_right (by decide))
      · exact hover
  by_cases hpresent : page ∈ (manager.page_tables kernel_root).pages
  · refine ⟨.err (.Mapper .PageAlreadyMapped), { manager with frame_allocator := final }, pool', ?_,
      hreached.returned hfinal hfree, hretains,
      .inr ⟨_, rfl, rfl, .inr ⟨.inr ⟨by simp, hpresent⟩, hleft, hreturned⟩⟩⟩
    have hmap := manager.mapper.refuses_present hreached.settled hpresent frame flags after
    have hclean := manager.mapper.keeps_present hreached.settled hpresent after
    simp [allocate_and_map, MemoryManager.map_to, with_allocator, zoom, hallocate, attempt, hlimit,
      with_mapper_apply, hmap, clean_up, mapErr, hclean, hreclaimed, changed]
  · obtain ⟨tables, mapped, pool', hmap, hmapped, hsettled, hretains, hleaves, hconserves, hdrawn⟩ |
      ⟨started, failed, cleaned, reached, finished, pool', hmap, hclean, hreclaimed, hfinished, hsettled, hretains,
        hleaves, hconserves, hshort, hfresh⟩ :=
      map_to_or_clean_up manager.mapper htake hafter hreached.settled hpresent flags
    · refine ⟨.ok frame, manager.changed kernel_root tables mapped, pool', ?_,
        hreached.changed hmapped hsettled hconserves, ?_, .inl ⟨frame, rfl, ?_, hdrawn⟩⟩
      · simp [allocate_and_map, MemoryManager.map_to, with_allocator, zoom, hallocate, attempt, hlimit,
          with_mapper_apply, hmap, changed]
      · simpa [MemoryManager.changed] using hretains
      · simp [MemoryManager.changed, hleaves]
    · refine ⟨.err (.Mapper .FrameAllocationFailed), manager.changed kernel_root cleaned finished, pool', ?_,
        hreached.changed hfinished hsettled hconserves, ?_, .inr ⟨_, rfl, ?_, .inl ⟨rfl, hshort, hfresh⟩⟩⟩
      · simp [allocate_and_map, MemoryManager.map_to, with_allocator, zoom, hallocate, attempt, hlimit,
          with_mapper_apply, hmap, clean_up, mapErr, hclean, hreclaimed, changed]
      · simpa [MemoryManager.changed] using hretains
      · simp [MemoryManager.changed, hleaves]

/-- `unmap_and_deallocate` removes the page, or fails without effect. -/
theorem unmap_and_deallocate_reached (page : Page) :
    (∃ error, unmap_and_deallocate kernel_root page manager = (.err error, manager)) ∨
    ∃ manager' pool', unmap_and_deallocate kernel_root page manager = (.ok (), manager') ∧
      KernelReached boot kernel_root origin account manager' pool' ∧
      Retains (manager.page_tables kernel_root) (manager'.page_tables kernel_root) ∧
      (manager'.page_tables kernel_root).leaves =
        (manager.page_tables kernel_root).leaves.filter fun entry => entry.1 != page := by
  refine (unmap_and_deallocate_spec hreached.refines hreached.settled page).imp_right ?_
  rintro ⟨tables, after, pool', hunmap, hafter, hsettled, hretains, hconserves, hleaves⟩
  refine ⟨_, pool', hunmap, hreached.changed hafter hsettled hconserves, ?_, ?_⟩
  · simpa [MemoryManager.changed] using hretains
  · simp [MemoryManager.changed, hleaves]

end Reached

end Kernel

namespace heap

variable {base : Nat}

theorem kernel_manager_allocate_and_map (page : Page) (paging : Paging) : kernel_manager.allocate_and_map page paging =
    Paging.on_manager (allocate_and_map paging.kernel_root page HEAP_PAGE_FLAGS) paging := rfl

theorem kernel_manager_unmap_and_deallocate (page : Page) (paging : Paging) :
    kernel_manager.unmap_and_deallocate page paging =
      Paging.on_manager (unmap_and_deallocate paging.kernel_root page) paging := rfl

/-- The loops over the kernel's manager are those on its tables. -/
theorem kernel_manager_roll_back (growth_start count : Nat) (paging : Paging) :
    kernel_manager.roll_back growth_start count paging =
      Paging.on_manager (roll_back paging.kernel_root growth_start count) paging := by
  induction count generalizing paging with
  | zero => rfl
  | succ count ih =>
    simp only [PageCalls.roll_back, kernel_manager_unmap_and_deallocate, root_calls_unmap_and_deallocate,
      Paging.on_manager, zoom, attempt, bind_apply]
    generalize unmap_and_deallocate paging.kernel_root _ paging.manager = result
    rcases result with ⟨_ | _ | _, after⟩
    · exact ih { paging with manager := after }
    · simp only [bind_apply, ih, Paging.on_manager, zoom]
      rcases (root_calls paging.kernel_root).roll_back growth_start count after with ⟨_ | _ | _, final⟩ <;> rfl
    · rfl

theorem kernel_manager_map_growth (growth_start remaining mapped_pages : Nat) (paging : Paging) :
    kernel_manager.map_growth growth_start remaining mapped_pages paging =
      Paging.on_manager (map_growth paging.kernel_root growth_start remaining mapped_pages) paging := by
  induction remaining generalizing mapped_pages paging with
  | zero => rfl
  | succ remaining ih =>
    simp only [PageCalls.map_growth, kernel_manager_allocate_and_map, root_calls_allocate_and_map,
      Paging.on_manager, zoom, attempt, bind_apply]
    generalize allocate_and_map paging.kernel_root _ HEAP_PAGE_FLAGS paging.manager = result
    rcases result with ⟨_ | _ | _, after⟩
    · exact ih (mapped_pages + 1) { paging with manager := after }
    · simp only [bind_apply, kernel_manager_roll_back, Paging.on_manager, zoom]
      rcases (root_calls paging.kernel_root).roll_back growth_start mapped_pages after with ⟨failed | _ | _, final⟩
      · cases failed <;> rfl
      · rfl
      · rfl
    · rfl

/-- What `grow` does to the manager and to the record of the heap. -/
theorem grow_apply (target_total_pages : Nat) (paging : Paging) :
    grow target_total_pages paging =
      if paging.heap.poisoned then (.err .RollbackFailed, paging) else
        match kernel_manager.extend_mapping paging.heap target_total_pages paging with
        | (.ok (growth_start, pages), after) => (.ok (), { after with heap := { paging.heap with
            start := some (paging.heap.start.getD growth_start)
            mapped_pages := paging.heap.mapped_pages + pages } })
        | (.err .RollbackFailed, after) => (.err .RollbackFailed, { after with heap := { paging.heap with poisoned := true } })
        | (.err error, after) => (.err error, { after with heap := paging.heap })
        | (.panic, after) => (.panic, { after with heap := paging.heap }) := by
  simp only [grow, on_allocator, zoom, KernelAllocator.grow, bind_apply, get_apply]
  by_cases hpoisoned : paging.heap.poisoned = true
  · rw [if_pos hpoisoned, if_pos hpoisoned]
    rfl
  · rw [if_neg hpoisoned, if_neg hpoisoned]
    simp only [bind_apply, attempt, KernelAllocator.on_manager, zoom]
    rcases kernel_manager.extend_mapping paging.heap target_total_pages paging with ⟨_ | error | _, after⟩
    · rfl
    · cases error <;> rfl
    · rfl

/-- The pages mapped from `base` on: the committed ones are all there, there are none
beyond the reached ones, and each is mapped as a heap page. -/
structure Covers (tables : UserTables) (base committed reached : Nat) : Prop where
  committed : ∀ page : Nat, base ≤ page → page < base + committed → page ∈ tables.pages
  inside : ∀ page : Nat, page ∈ tables.pages → base ≤ page ∧ page < base + reached
  flags : ∀ leaf ∈ tables.leaves, leaf.2.2 = HEAP_PAGE_FLAGS

theorem pages_cons {page : Nat} {entry : PhysFrame × PageTableFlags} (hleaves : after.leaves = (page, entry) :: before.leaves) :
    {page | page ∈ after.pages} = insert page {page | page ∈ before.pages} := by
  ext other
  simp only [UserTables.pages, hleaves, List.map_cons, List.mem_cons, Set.mem_ofPred_eq, Set.mem_insert_iff]

theorem pages_filter {page : Nat} (hleaves : after.leaves = before.leaves.filter fun entry => entry.1 != page) :
    {page | page ∈ after.pages} = {page | page ∈ before.pages} \ {page} := by
  ext other
  simp only [UserTables.pages, hleaves, List.mem_map, List.mem_filter, bne_iff_ne, Set.mem_ofPred_eq, Set.mem_sdiff,
    Set.mem_singleton_iff]
  constructor
  · rintro ⟨leaf, ⟨hleaf, hother⟩, rfl⟩
    exact ⟨⟨leaf, hleaf, rfl⟩, hother⟩
  · rintro ⟨⟨leaf, hleaf, rfl⟩, hother⟩
    exact ⟨leaf, ⟨hleaf, hother⟩, rfl⟩

section Growth

variable {boot : BootInfoFrameAllocator} {kernel_root : PhysFrame} {origin manager : MemoryManager}
  {account : List PhysFrame} {pool : FramePool} {committed : Nat}

/-- What a growth of the heap keeps: besides the books, the table of its slot stays in its frame if pages were
committed before. -/
structure Growing (boot : BootInfoFrameAllocator) (kernel_root : PhysFrame) (origin : MemoryManager)
    (account : List PhysFrame) (base committed : Nat) (manager : MemoryManager) : Prop where
  reached : ∃ pool, KernelReached boot kernel_root origin account manager pool
  flags : ∀ leaf ∈ (manager.page_tables kernel_root).leaves, leaf.2.2 = HEAP_PAGE_FLAGS
  anchors : 0 < committed → base ∈ (manager.page_tables kernel_root).pages ∧
    UserTables.Anchors base (origin.page_tables kernel_root) (manager.page_tables kernel_root)

theorem Growing.changed {manager' : MemoryManager} (hgrowing : Growing boot kernel_root origin account base committed manager)
    (hreached : KernelReached boot kernel_root origin account manager' pool)
    (hretains : Retains (manager.page_tables kernel_root) (manager'.page_tables kernel_root))
    (hflags : ∀ leaf ∈ (manager'.page_tables kernel_root).leaves, leaf.2.2 = HEAP_PAGE_FLAGS)
    (hbase : 0 < committed → base ∈ (manager.page_tables kernel_root).pages → base ∈ (manager'.page_tables kernel_root).pages) :
    Growing boot kernel_root origin account base committed manager' := by
  refine ⟨⟨pool, hreached⟩, hflags, fun hpositive => ?_⟩
  obtain ⟨hmem, hanchors⟩ := hgrowing.anchors hpositive
  have hthere := hbase hpositive hmem
  exact ⟨hthere, fun frame hframe => hretains.anchors hreached.settled hthere frame (hanchors frame hframe)⟩

/-- The manager changes one page at a time, and a growth only asks for pages behind the committed ones. -/
theorem root_calls_lawful :
    (root_calls kernel_root).LawfulOn (Set.Ici (base + committed)) (Growing boot kernel_root origin account base committed)
      fun manager => {page | page ∈ (manager.page_tables kernel_root).pages} := by
  constructor
  · rintro page hpage _
    constructor
    rintro manager ⟨hgrowing, rfl⟩
    obtain ⟨pool, hreached⟩ := hgrowing.reached
    obtain ⟨outcome, manager', pool', hcall, hafter, hretains, hcases⟩ :=
      allocate_and_map_reached hreached page HEAP_PAGE_FLAGS
    rw [root_calls_allocate_and_map, hcall]
    obtain ⟨frame, rfl, hleaves, _⟩ | ⟨error, rfl, hleaves, _⟩ := hcases
    · refine ⟨hgrowing.changed hafter hretains ?_ fun _ hbase => ?_, pages_cons hleaves⟩
      · rw [hleaves]
        exact List.forall_mem_cons.mpr ⟨rfl, hgrowing.flags⟩
      · rw [UserTables.pages, hleaves]
        exact List.mem_cons_of_mem _ hbase
    · refine ⟨hgrowing.changed hafter hretains (hleaves ▸ hgrowing.flags) fun _ hbase => ?_, ?_⟩
      · rwa [UserTables.pages, hleaves]
      · simp only [UserTables.pages, hleaves]
  · rintro page hpage _
    constructor
    rintro manager ⟨hgrowing, rfl⟩
    obtain ⟨pool, hreached⟩ := hgrowing.reached
    obtain ⟨error, hcall⟩ | ⟨manager', pool', hcall, hafter, hretains, hleaves⟩ :=
      unmap_and_deallocate_reached hreached page
    · rw [root_calls_unmap_and_deallocate, hcall]
      exact ⟨hgrowing, rfl⟩
    · rw [root_calls_unmap_and_deallocate, hcall]
      have hpages := pages_filter hleaves
      refine ⟨hgrowing.changed hafter hretains (fun leaf hleaf => ?_) fun hpositive hbase => ?_, hpages⟩
      · rw [hleaves] at hleaf
        exact hgrowing.flags leaf (List.mem_filter.mp hleaf).1
      · have hne : base ≠ page := Nat.ne_of_lt (Nat.lt_of_lt_of_le (Nat.lt_add_of_pos_right hpositive) hpage)
        exact hpages.symm.subset ⟨hbase, hne⟩

variable {paging : Paging} (target_total_pages : Nat)

/-- How `grow` may end for a heap that is not poisoned, and what it records. -/
inductive Grown (base : Nat) (tables : UserTables) (heap : HeapState) : Outcome HeapError Unit → HeapState → Prop
  | committed (pages : Nat) (hpos : 0 < pages) (hfits : heap.mapped_pages + pages ≤ PML4_SLOT_PAGES)
      (hcovers : Covers tables base (heap.mapped_pages + pages) (heap.mapped_pages + pages)) :
      Grown base tables heap (.ok ()) { heap with
        start := some (heap.start.getD ((base + heap.mapped_pages) * PAGE_SIZE))
        mapped_pages := heap.mapped_pages + pages }
  | poisoned (reached : Nat) (hfits : reached ≤ PML4_SLOT_PAGES) (hcovers : Covers tables base heap.mapped_pages reached) :
      Grown base tables heap (.err .RollbackFailed) { heap with poisoned := true }
  | refused (error : HeapError) (hcovers : Covers tables base heap.mapped_pages heap.mapped_pages) :
      Grown base tables heap (.err error) heap

theorem grow_spec (hreached : KernelReached boot paging.kernel_root paging.manager account paging.manager pool)
    (hfine : paging.heap.poisoned = false)
    (hbase : paging.heap.start.or paging.first_unused_low_half_page = some (base * PAGE_SIZE))
    (hcovers : Covers paging.kernel_tables base
      paging.heap.mapped_pages paging.heap.mapped_pages) :
    ∃ outcome manager' heap' pool', grow target_total_pages paging =
        (outcome, { paging with manager := manager', heap := heap' }) ∧
      KernelReached boot paging.kernel_root paging.manager account manager' pool' ∧
      Grown base (manager'.page_tables paging.kernel_root) paging.heap outcome heap' ∧
      (0 < paging.heap.mapped_pages → UserTables.Anchors base
        paging.kernel_tables (manager'.page_tables paging.kernel_root)) := by
  rw [grow_apply, hfine]
  obtain ⟨error, herror, hcall⟩ | ⟨start, count, hstart, hpositive, hfits, hcall⟩ :=
    kernel_manager.extend_mapping_cases paging.heap target_total_pages (hreached.refines.available_frame_count HeapError)
  · refine ⟨.err error, paging.manager, paging.heap, pool, ?_, hreached, .refused error hcovers, fun _ _ h => h⟩
    rw [hcall]
    obtain rfl | rfl := herror <;> rfl
  obtain rfl := Option.mem_unique hbase hstart
  rw [← Nat.add_mul, bind_apply, kernel_manager_map_growth, Paging.on_manager, zoom, map_growth] at hcall
  have hbefore : {page | page ∈ paging.kernel_tables.pages} =
      Set.Ico base (base + paging.heap.mapped_pages) := by
    ext page
    exact ⟨hcovers.inside page, fun hpage => hcovers.committed page hpage.1 hpage.2⟩
  have hgrowing : Growing boot paging.kernel_root paging.manager account base paging.heap.mapped_pages paging.manager :=
    ⟨⟨pool, hreached⟩, hcovers.flags, fun hsome => ⟨hcovers.committed base (Nat.le_refl _) (by omega), fun _ h => h⟩⟩
  have hlawful : (root_calls paging.kernel_root).LawfulOn (Set.Ici (base + paging.heap.mapped_pages))
      (Growing boot paging.kernel_root paging.manager account base paging.heap.mapped_pages)
      fun manager => {page | page ∈ (manager.page_tables paging.kernel_root).pages} := root_calls_lawful
  have hapart : ∀ page ∈ Set.Ico base (base + paging.heap.mapped_pages), ¬ (base + paging.heap.mapped_pages ≤ page ∧
      page < base + paging.heap.mapped_pages + (0 + count)) := fun page hpage hbehind => by
    have := hpage.2
    omega
  have hloop := hlawful.map_growth_spec count 0 (fun page hpage => hpage.1) hapart
  rw [Nat.add_zero, Set.Ico_self, Set.union_empty, Nat.zero_add, Set.Ico_union_Ico_eq_Ico (Nat.le_add_right _ _)
    (Nat.le_add_right _ _), Nat.add_assoc] at hloop
  obtain ⟨_, manager', hmap, hgrown, hpages⟩ | ⟨error, manager', hmap, hgrown, _, hkept, hinside, hsame⟩ :=
    hloop.run ⟨hgrowing, hbefore⟩
  · obtain ⟨pool', hreached'⟩ := hgrown.reached
    refine ⟨.ok (), manager', _, pool', ?_, hreached', .committed count hpositive hfits ⟨?_, ?_, hgrown.flags⟩,
      fun hsome => (hgrown.anchors hsome).2⟩
    · rw [hcall, hmap]
      rfl
    · exact fun page hge hlt => hpages.symm.subset ⟨hge, hlt⟩
    · exact fun page hpage => hpages.subset hpage
  · obtain ⟨pool', hreached'⟩ := hgrown.reached
    rw [hcall, hmap]
    by_cases hfailed : error = .RollbackFailed
    · subst hfailed
      exact ⟨_, manager', _, pool', rfl, hreached', .poisoned _ hfits ⟨fun page hge hlt => hkept ⟨hge, hlt⟩,
        fun page hpage => hinside hpage, hgrown.flags⟩, fun hsome => (hgrown.anchors hsome).2⟩
    · have hpages := hsame hfailed
      refine ⟨.err error, manager', paging.heap, pool', ?_, hreached', .refused error ⟨?_, ?_, hgrown.flags⟩,
        fun hsome => (hgrown.anchors hsome).2⟩
      · cases error <;> first | rfl | exact absurd rfl hfailed
      · exact fun page hge hlt => hpages.symm.subset ⟨hge, hlt⟩
      · exact fun page hpage => hpages.subset hpage

theorem initialize_heap_ok {ready : Paging} (hready : initialize_heap paging = (.ok (), ready)) :
    ∃ grown, grow HEAP_GROWTH_PAGES paging = (.ok (), grown) ∧ ready = { grown with heap.initialized := true } := by
  simp only [initialize_heap, on_allocator, zoom, KernelAllocator.initialize_heap, bind_apply, get_apply] at hready
  split at hready
  · cases (Prod.mk.inj hready).1
  split at hready
  · cases (Prod.mk.inj hready).1
  simp only [bind_apply] at hready
  simp only [grow, on_allocator, zoom]
  generalize KernelAllocator.grow kernel_manager _ HEAP_GROWTH_PAGES _ = result at hready ⊢
  rcases result with ⟨_ | _ | _, after⟩
  · exact ⟨_, rfl, (Prod.mk.inj hready).2.symm⟩
  · cases (Prod.mk.inj hready).1
  · cases (Prod.mk.inj hready).1

end Growth

end heap

end leafos.memory
