import LeafOS.Memory.Isolation

namespace leafos.memory.heap

open Prog

variable {paging : Paging}

/-- The pages that the kernel has mapped. -/
def kernel_pages (paging : Paging) : Set Nat := {page | page ∈ paging.kernel_tables.pages}

/-- What the kernel's memory manager keeps between calls. -/
structure Orderly (paging : Paging) : Prop where
  mapped : paging.manager.frame_allocator.Mapped
  stacked : paging.manager.frame_allocator.Stacked
  settled : Settled paging.kernel_tables

theorem Orderly.reached (horderly : Orderly paging) :
    ∃ account pool, KernelReached paging.manager.frame_allocator paging.kernel_root paging.manager account paging.manager
      pool :=
  ⟨_, _, BootInfoFrameAllocator.refines_self horderly.mapped horderly.stacked, rfl, fun _ _ => rfl, horderly.settled,
    List.Perm.refl _⟩

theorem Orderly.changed {boot : BootInfoFrameAllocator} {account : List PhysFrame} {manager : MemoryManager}
    {pool : FramePool} (hreached : KernelReached boot paging.kernel_root paging.manager account manager pool) :
    Orderly { paging with manager } :=
  ⟨hreached.refines.mapped, hreached.refines.stacked, hreached.settled⟩

theorem kernel_manager_maps (page : Nat) (before : Set Nat) :
    Delivers (fun self => Orderly self ∧ kernel_pages self = before) (kernel_manager.allocate_and_map page)
      (fun _ self => Orderly self ∧ kernel_pages self = insert page before)
      (fun _ self => Orderly self ∧ kernel_pages self = before) := by
  constructor
  rintro paging ⟨horderly, rfl⟩
  obtain ⟨account, pool, hreached⟩ := horderly.reached
  rw [kernel_manager_allocate_and_map, Paging.on_manager, zoom]
  obtain ⟨outcome, manager, pool', hcall, hafter, _, hcases⟩ := allocate_and_map_reached hreached page HEAP_PAGE_FLAGS
  rw [hcall]
  obtain ⟨frame, rfl, hleaves, _⟩ | ⟨error, rfl, hleaves, _⟩ := hcases
  · exact ⟨Orderly.changed hafter, pages_cons hleaves⟩
  · refine ⟨Orderly.changed hafter, ?_⟩
    rw [kernel_pages, UserTables.pages, hleaves]
    rfl

theorem kernel_manager_unmaps (page : Nat) (before : Set Nat) :
    Delivers (fun self => Orderly self ∧ kernel_pages self = before) (kernel_manager.unmap_and_deallocate page)
      (fun _ self => Orderly self ∧ kernel_pages self = before \ {page})
      (fun _ self => Orderly self ∧ kernel_pages self = before) := by
  constructor
  rintro paging ⟨horderly, rfl⟩
  obtain ⟨account, pool, hreached⟩ := horderly.reached
  rw [kernel_manager_unmap_and_deallocate, Paging.on_manager, zoom]
  obtain ⟨error, hcall⟩ | ⟨manager, pool', hcall, hafter, _, hleaves⟩ := unmap_and_deallocate_reached hreached page
  · rw [hcall]
    exact ⟨horderly, rfl⟩
  · rw [hcall]
    exact ⟨Orderly.changed hafter, pages_filter hleaves⟩

/-- The slot that the kernel's manager offers. -/
theorem kernel_manager_unused (horderly : Orderly paging) {start : Nat}
    (hstart : paging.first_unused_low_half_page = some start) :
    ∃ slot, 1 ≤ slot ∧ slot ≤ 254 ∧ start = slot * PML4_SLOT_SIZE ∧ ∀ page ∈ kernel_pages paging, p4_index page ≠ slot := by
  obtain ⟨slot, hslot, rfl⟩ := Option.map_eq_some_iff.mp hstart
  have hunused := List.find?_some hslot
  obtain ⟨hrange, hne⟩ := List.mem_filter.mp (List.mem_of_find?_eq_some hslot)
  obtain ⟨hlow, hhigh⟩ := List.mem_range'_1.mp hrange
  have huser : slot ≠ 255 := bne_iff_ne.mp hne
  refine ⟨slot, hlow, by omega, rfl, fun page hpage hindex => ?_⟩
  -- A page of the slot would need a table in the entry that is unused.
  obtain ⟨leaf, hleaf, rfl⟩ := List.mem_map.mp hpage
  have htable : ⟨3, slot⟩ = table_of 3 leaf.1 := by
    rw [table_of, ← hindex]
    rfl
  obtain ⟨frame, hframe⟩ := (horderly.settled.tight 3 (by decide) slot).mpr ⟨leaf, hleaf, htable.symm⟩
  have hnone := (Option.or_eq_none_iff.mp (Option.isNone_iff_eq_none.mp hunused)).2
  rw [Paging.table_entry, (UserTables.table_eq_some horderly.settled.keyed).mpr hframe] at hnone
  cases hnone

theorem kernel_manager_lawful : kernel_manager.Lawful Orderly kernel_pages where
  maps := kernel_manager_maps
  unmaps := kernel_manager_unmaps
  unused _ _ horderly hstart := kernel_manager_unused horderly hstart
  counts _ horderly :=
    ⟨_, (BootInfoFrameAllocator.refines_self horderly.mapped horderly.stacked).available_frame_count HeapError⟩

/-- The heap stays one contiguous range in its own slot, whatever its memory manager refuses, and `alloc`
always returns. The kernel's memory manager is one that this holds for. -/
theorem heap_extent_contiguous :
    kernel_manager.Lawful Orderly kernel_pages ∧
    ∀ {H M : Type} (manager : Manager M) (methods : HeapMethods H) (valid : M → Prop) (pages : M → Set Nat)
      (self : KernelAllocator H M), manager.Lawful valid pages → self.Reached manager methods valid pages →
      Extent self.state (pages self.manager) ∧
      (self.state.poisoned = false → ∀ target_total_pages,
        (∃ after, self.grow manager methods target_total_pages = (.ok (), after) ∧ self.Commits methods valid pages after) ∨
        ∃ error after, self.grow manager methods target_total_pages = (.err error, after) ∧
          self.Refuses manager valid pages error after) ∧
      (self.state.poisoned = true →
        (∀ target_total_pages, self.grow manager methods target_total_pages = (.err .RollbackFailed, self)) ∧
        ∀ layout, self.alloc manager methods layout = (.ok none, self)) ∧
      ∀ layout, ∃ pointer after, self.alloc manager methods layout = (.ok pointer, after) := by
  refine ⟨kernel_manager_lawful, fun manager methods valid pages self hlawful hreached => ?_⟩
  have hsound := hreached.sound hlawful
  refine ⟨hsound.extent, fun hfine target_total_pages => ?_, fun hpoisoned => ⟨?_, ?_⟩, fun layout => ?_⟩
  · obtain ⟨_, after, hgrow, hcommits⟩ | hrefused :=
      (KernelAllocator.grow_spec methods hlawful hsound hfine target_total_pages).run rfl
    · exact .inl ⟨after, hgrow, hcommits⟩
    · exact .inr hrefused
  · exact fun target_total_pages => KernelAllocator.grow_poisoned hpoisoned target_total_pages
  · exact fun layout => KernelAllocator.alloc_poisoned hpoisoned layout
  · obtain ⟨pointer, after, halloc, _⟩ | ⟨_, _, _, hnever⟩ :=
      (KernelAllocator.alloc_returns methods hlawful layout).run hsound
    · exact ⟨pointer, after, halloc⟩
    · exact hnever.elim

/-- A heap that hands out its range from the front on. -/
def sample_methods : HeapMethods (Nat × Nat) where
  init start size _ := (start, start + size)
  extend size free_list := (free_list.1, free_list.2 + size)
  allocate_first_fit layout free_list :=
    if free_list.1 + layout.size ≤ free_list.2 then (some free_list.1, (free_list.1 + layout.size, free_list.2))
    else (none, free_list)

/-- The heap of the sample machine after its first growth. -/
theorem heap_extent_contiguous_booted :
    ∃ after, KernelAllocator.initialize_heap kernel_manager sample_methods ⟨(0, 0), .new, sample_booted⟩ = (.ok (), after) ∧
      after.state.mapped_pages = 256 ∧ Extent after.state (kernel_pages after.manager) ∧
      ∀ layout, ∃ pointer final, after.alloc kernel_manager sample_methods layout = (.ok pointer, final) := by
  have hok : (KernelAllocator.initialize_heap kernel_manager sample_methods ⟨(0, 0), .new, sample_booted⟩).1 = .ok () := by
    decide +kernel
  have hpages : (KernelAllocator.initialize_heap kernel_manager sample_methods
      ⟨(0, 0), .new, sample_booted⟩).2.state.mapped_pages = 256 := by decide +kernel
  generalize hafter : KernelAllocator.initialize_heap kernel_manager sample_methods _ = result at hok hpages
  obtain ⟨_, after⟩ := result
  obtain rfl := hok
  obtain ⟨hmapped, hstacked, _⟩ := BootInfoFrameAllocator.new_mapped (by decide) sample_new
  have horderly : Orderly sample_booted := ⟨hmapped, hstacked, settled_new⟩
  have hstart : KernelAllocator.Reached kernel_manager sample_methods Orderly kernel_pages ⟨(0, 0), .new, sample_booted⟩ :=
    .start (0, 0) sample_booted horderly
  have hreached := hstart.initialized hafter
  obtain ⟨hextent, _, _, hreturns⟩ := heap_extent_contiguous.2 kernel_manager sample_methods Orderly kernel_pages _
    heap_extent_contiguous.1 hreached
  exact ⟨after, rfl, hpages, hextent, hreturns⟩

end leafos.memory.heap
