import LeafOS.Memory.Heap

namespace leafos.memory

open Prog BootInfoFrameAllocator

/-- How full the reclaim stack may be for a page to be unmapped. -/
abbrev RECLAIM_GUARD : Nat := RECLAIMED_FRAME_CAPACITY - MAX_FRAMES_RECLAIMED_PER_UNMAP

namespace MemoryManager

variable {rest : FramePool} {before after : UserTables} {flags : PageTableFlags}
  {frame_allocator : BootInfoFrameAllocator}

/-- The manager after a change to its allocator and to the tables of one root. -/
def changed (self : MemoryManager) (root : PhysFrame) (tables : UserTables)
    (frame_allocator : BootInfoFrameAllocator) : MemoryManager :=
  { self with page_tables := Function.update self.page_tables root tables, frame_allocator }

theorem changed_self (self : MemoryManager) (root : PhysFrame) (frame_allocator : BootInfoFrameAllocator) :
    self.changed root (self.page_tables root) frame_allocator = { self with frame_allocator } := by
  simp [changed]

theorem with_mapper_apply {ε α : Type} (root : PhysFrame) (method : Mapper → MapperM ε α)
    (self : MemoryManager) :
    with_mapper root method self =
      match method self.mapper (self.page_tables root, self.frame_allocator) with
      | (outcome, (tables, frame_allocator)) => (outcome, self.changed root tables frame_allocator) := rfl

variable {self : MemoryManager} {boot : BootInfoFrameAllocator} {pool : FramePool} {root : PhysFrame} {page : Page}
  {frame : PhysFrame} {tables : UserTables}

/-- A frame that was taken and is put back at once leaves the same frames in the pool, one of
them returned at least. -/
theorem take_and_reclaim {after : BootInfoFrameAllocator} (ε : Type)
    (htake : pool.take = some (frame, rest)) (hafter : after.Refines boot rest) :
    ∃ final pool', (assert_reclaimed frame after : Outcome ε Unit × _) = (.ok (), final) ∧
      final.Refines boot pool' ∧ pool'.free.Perm pool.free ∧
      pool'.returned.length = max pool.returned.length 1 := by
  obtain ⟨pool', final, hreclaimed, hfinal, hfresh, hreturned⟩ :=
    hafter.assert_reclaimed ε frame (Pool.take_room htake (by decide))
  refine ⟨final, pool', hreclaimed, hfinal, ?_, ?_⟩
  · rw [Pool.take_free htake, Pool.free, hfresh, hreturned]
    exact List.Perm.refl _
  · have hdrawn := (Pool.drawn_of_take htake).returned
    rw [Pool.take_free htake, List.length_cons] at hdrawn
    rw [hreturned, List.length_cons]
    omega

/-- A frame on its own with the tables that hold it. -/
theorem conserves_of_take {pool' : FramePool} {tables' : UserTables} (htake : pool.take = some (frame, rest))
    (hperm : (pool'.free ++ tables'.frames).Perm (frame :: (rest.free ++ tables.frames))) :
    Conserves pool tables pool' tables' := by
  rw [Conserves, Pool.take_free htake]
  exact hperm

/-- A table that is there before and after is in the same frame. -/
def Retains (before after : UserTables) : Prop :=
  ∀ id frame, (id, frame) ∈ before.tables → after.HasTable id → (id, frame) ∈ after.tables

/-- So it is when tables were first only added and then only removed. -/
theorem retains_of_between {between : UserTables} (hkeyed : between.Keyed)
    (hadded : before.tables ⊆ between.tables) (hremoved : after.tables ⊆ between.tables) : Retains before after := by
  rintro id frame hbefore ⟨found, hfound⟩
  have hsame : found = frame := Option.some.inj <|
    ((UserTables.table_eq_some hkeyed).mpr (hremoved hfound)).symm.trans
      ((UserTables.table_eq_some hkeyed).mpr (hadded hbefore))
  exact hsame ▸ hfound

/-- A walk that stopped short of a table made fewer than were missing. -/
theorem tables_length_lt (hsettled : Settled before) (hkeyed : after.Keyed)
    (hleaves : after.leaves = before.leaves) (hloose : ∀ level ∈ [1, 2, 3], after.Loose page level)
    (hmissing : ∃ level ∈ [1, 2, 3], ¬ after.HasTable (table_of level page)) :
    after.tables.length < before.tables.length + (before.missing page).length := by
  obtain ⟨level, hlevel, habsent⟩ := hmissing
  have hneeds : ∀ id, after.Needs id ↔ before.Needs id := by
    intro id
    rw [UserTables.Needs, UserTables.Needs, hleaves]
  have hlast : table_of level page ∈ before.missing page := by
    refine UserTables.mem_missing.mpr ⟨⟨level, hlevel, rfl⟩, fun hthere => habsent ?_⟩
    exact (hloose level hlevel _).1 ((hneeds _).mpr ((hsettled.tight level hlevel _).mp hthere))
  have hsubset : after.tables.map Prod.fst ⊆
      before.tables.map Prod.fst ++ (before.missing page).erase (table_of level page) := by
    intro id hid
    obtain ⟨entry, hentry, rfl⟩ := List.mem_map.mp hid
    have hentry_level := hkeyed.levels entry hentry
    have hhas : after.HasTable entry.1 := ⟨entry.2, hentry⟩
    by_cases hthere : before.HasTable entry.1
    · obtain ⟨frame, hframe⟩ := hthere
      exact List.mem_append_left _ (List.mem_map.mpr ⟨_, hframe, rfl⟩)
    · obtain hneeded | hpath := (hloose _ hentry_level entry.1.position).2 hhas
      · exact absurd ((hsettled.tight _ hentry_level _).mpr ((hneeds _).mp hneeded)) hthere
      · have hne : entry.1 ≠ table_of level page := fun hsame => habsent (hsame ▸ hhas)
        apply List.mem_append_right
        rw [(before.missing_nodup page).mem_erase_iff]
        exact ⟨hne, UserTables.mem_missing.mpr ⟨⟨_, hentry_level, hpath⟩, hthere⟩⟩
  have hlength := (List.subperm_of_subset hkeyed.tables_nodup hsubset).length_le
  have hpositive := List.length_pos_of_mem hlast
  rw [List.length_append, List.length_map, List.length_map, List.length_erase_of_mem hlast] at hlength
  omega

/-- `map_to` adds the leaf; or it fails for want of a frame, and cleaning up then
leaves the tables as they were. -/
theorem map_to_or_clean_up (mapper : Mapper) (htake : pool.take = some (frame, rest))
    (hrefines : frame_allocator.Refines boot rest) (hsettled : Settled tables)
    (habsent : page ∉ tables.leaves.map Prod.fst) (flags : PageTableFlags) :
    (∃ mapped after pool', mapper.map_to page frame flags (tables, frame_allocator) = (.ok (), (mapped, after)) ∧
      after.Refines boot pool' ∧ Settled mapped ∧ Retains tables mapped ∧
      mapped.leaves = (page, frame, flags) :: tables.leaves ∧ Conserves pool tables pool' mapped ∧
      pool.Drawn pool') ∨
    ∃ started failed cleaned reached after pool', mapper.map_to page frame flags (tables, frame_allocator) =
        (.err .FrameAllocationFailed, (started, failed)) ∧
      mapper.clean_up_addr_range page (started, failed) = (.ok (), (cleaned, reached)) ∧
      (assert_reclaimed frame reached : Outcome MappingError Unit × _) = (.ok (), after) ∧
      after.Refines boot pool' ∧ Settled cleaned ∧ Retains tables cleaned ∧ cleaned.leaves = tables.leaves ∧
      Conserves pool tables pool' cleaned ∧ pool.free.length ≤ (tables.missing page).length ∧ pool'.fresh = [] := by
  obtain ⟨outcome, mapped, after, pool', hmap, hafter, hkeyed, hadded, hcases⟩ :=
    mapper.maps_absent hrefines hsettled habsent frame flags
  obtain ⟨rfl, hleaves, htight, hperm, hdrawn⟩ | ⟨rfl, hleaves, hloose, hmissing, hexhausted, hconserves⟩ := hcases
  · exact .inl ⟨mapped, after, pool', hmap, hafter, ⟨hkeyed, htight⟩,
      retains_of_between hkeyed hadded (List.Subset.refl _), hleaves, conserves_of_take htake hperm,
      (Pool.drawn_of_take htake).trans hdrawn⟩
  · -- only exhaustion makes the walk fail, so the reclaim stack is empty
    obtain ⟨hreturned_nil, hfresh_nil⟩ := List.append_eq_nil_iff.mp hexhausted
    have hempty : pool'.returned.length = 0 := by rw [hreturned_nil, List.length_nil]
    obtain ⟨cleaned, final, pool'', hclean, hfinal, hconserves', hsettled', hremoved, hleaves', hkept, hlength⟩ :=
      mapper.cleans_path hafter hkeyed (by rw [hempty]; decide) hloose
    have htables := tables_length_lt hsettled hkeyed hleaves hloose hmissing
    have hframes := hconserves.length_eq
    simp only [UserTables.frames, List.length_append, List.length_map, hleaves, hexhausted, List.length_nil] at hframes
    rw [hempty] at hlength
    obtain ⟨last, finished, hreclaimed, hfinished, hfresh, hreturned⟩ :=
      hfinal.assert_reclaimed MappingError frame (Nat.lt_of_le_of_lt hlength (by decide))
    refine .inr ⟨mapped, after, cleaned, final, finished, last, hmap, hclean, hreclaimed, hfinished, hsettled',
      retains_of_between hkeyed hadded hremoved, hleaves'.trans hleaves, conserves_of_take htake ?_, ?_,
      hfresh.trans (hkept.trans hfresh_nil)⟩
    · rw [Pool.free, hfresh, hreturned]
      exact (hconserves.trans hconserves').cons frame
    · rw [Pool.take_free htake, List.length_cons]
      omega

/-- With room for four frames, a leaf's frame and the tables that nobody needs after
its removal fit back. -/
theorem remove_and_clean_up (mapper : Mapper) (hrefines : frame_allocator.Refines boot pool) (hsettled : Settled tables)
    (hroom : frame_allocator.reclaimed_count ≤ RECLAIM_GUARD)
    (hleaf : tables.leaf page = some (frame, flags)) :
    ∃ reclaimed cleaned after pool',
      (assert_reclaimed frame frame_allocator : Outcome UnmappingError Unit × _) = (.ok (), reclaimed) ∧
      mapper.clean_up_addr_range page (tables.remove_leaf page, reclaimed) = (.ok (), (cleaned, after)) ∧
      after.Refines boot pool' ∧ Settled cleaned ∧ Retains tables cleaned ∧
      cleaned.leaves = tables.leaves.filter (fun entry => entry.1 != page) ∧
      Conserves pool tables pool' cleaned ∧ pool'.fresh = pool.fresh := by
  have hmem := (UserTables.leaf_eq_some hsettled.keyed).mp hleaf
  have hlength : pool.returned.length + 4 ≤ RECLAIMED_FRAME_CAPACITY := by
    rw [hrefines.returned_length]
    simp only [RECLAIM_GUARD, RECLAIMED_FRAME_CAPACITY, MAX_FRAMES_RECLAIMED_PER_UNMAP] at hroom ⊢
    omega
  obtain ⟨rest, reclaimed, hreclaimed, hrest, hfresh, hreturned⟩ :=
    hrefines.assert_reclaimed UnmappingError frame (by omega)
  obtain ⟨cleaned, after, pool', hclean, hafter, hconserves, hsettled', hremoved, hleaves, hfresh', _⟩ :=
    mapper.cleans_path hrest (UserTables.remove_leaf_keyed hsettled.keyed) (by rw [hreturned]; exact hlength)
      fun level hlevel => UserTables.remove_leaf_loose (hsettled.tight level hlevel)
  refine ⟨reclaimed, cleaned, after, pool', hreclaimed, hclean, hafter, hsettled',
    retains_of_between hsettled.keyed (List.Subset.refl _) hremoved, hleaves, ?_, hfresh'.trans hfresh⟩
  have hframes := UserTables.frames_remove_leaf hsettled.keyed hmem
  have hfree : rest.free = frame :: pool.free := by simp [Pool.free, hfresh, hreturned]
  rw [Conserves, hfree] at hconserves
  exact hconserves.trans (List.perm_middle.symm.trans (hframes.symm.append_left _))

/-- What a call of `map_user_page` does to the tables: it adds the leaf, or it fails
and they are as before. -/
structure MapsOrFails (before : UserTables) (page : Page) (access : UserPageAccess)
    (outcome : Outcome MappingError PhysFrame) (tables : UserTables) : Prop where
  settled : Settled tables
  leaves : (∃ frame, outcome = .ok frame ∧ tables.leaves = (page, frame, access.flags) :: before.leaves) ∨
    ∃ error, outcome = .err error ∧ tables.leaves = before.leaves

/-- A call that fails without effect, or removes the leaf of the page and keeps every frame. -/
def UnmapsOrFails (self : MemoryManager) (boot : BootInfoFrameAllocator) (pool : FramePool) (root : PhysFrame)
    (page : Page) (call : ManagerM UnmappingError Unit) : Prop :=
  (∃ error, call self = (.err error, self)) ∨
  ∃ tables after pool', call self = (.ok (), self.changed root tables after) ∧ after.Refines boot pool' ∧
    Settled tables ∧ Retains (self.page_tables root) tables ∧ Conserves pool (self.page_tables root) pool' tables ∧
    tables.leaves = (self.page_tables root).leaves.filter fun entry => entry.1 != page

variable (hrefines : self.frame_allocator.Refines boot pool)
include hrefines

variable (hsettled : Settled (self.page_tables root))
include hsettled

/-- `map_user_page` maps the page, or fails with the tables and the frames as
before. No assertion fails on the way. -/
theorem map_user_page_spec (habsent : page ∉ (self.page_tables root).leaves.map Prod.fst) (access : UserPageAccess) :
    ∃ outcome tables after pool', map_user_page root page access self =
        (outcome, self.changed root tables after) ∧ after.Refines boot pool' ∧
      Conserves pool (self.page_tables root) pool' tables ∧
      MapsOrFails (self.page_tables root) page access outcome tables := by
  -- every failure before the walk puts the one frame back
  have hunchanged : ∀ (error : MappingError) {after : BootInfoFrameAllocator} {pool' : FramePool},
      after.Refines boot pool' → pool'.free.Perm pool.free →
      map_user_page root page access self = (.err error, { self with frame_allocator := after }) →
      ∃ outcome tables after pool', map_user_page root page access self =
          (outcome, self.changed root tables after) ∧ after.Refines boot pool' ∧
        Conserves pool (self.page_tables root) pool' tables ∧
        MapsOrFails (self.page_tables root) page access outcome tables := by
    intro error after pool' hafter hfree hcall
    exact ⟨_, self.page_tables root, after, pool', by rw [hcall, changed_self], hafter,
      hfree.append_right _, hsettled, .inr ⟨error, rfl, rfl⟩⟩
  obtain ⟨frame, rest, after, htake, hallocate, hafter⟩ | ⟨htake, after, hallocate, hafter⟩ :=
    hrefines.allocate MappingError
  swap
  · refine hunchanged (.Mapper .FrameAllocationFailed) hafter (List.Perm.refl _) ?_
    simp [map_user_page, with_allocator, zoom, hallocate]
  cases hvirtual : self.physical_to_virtual frame with
  | none =>
    obtain ⟨final, pool', hreclaimed, hfinal, hfree, _⟩ := take_and_reclaim MappingError htake hafter
    refine hunchanged .PhysicalAddressOutOfRange hfinal hfree ?_
    simp [map_user_page, with_allocator, zoom, hallocate, hvirtual, hreclaimed]
  | some _ =>
    cases hroot : self.physical_to_virtual root with
    | none =>
      obtain ⟨final, pool', hreclaimed, hfinal, hfree, _⟩ := take_and_reclaim MappingError htake hafter
      refine hunchanged .InvalidPageTableRoot hfinal hfree ?_
      simp [map_user_page, with_allocator, zoom, hallocate, hvirtual, hroot, hreclaimed]
    | some _ =>
      obtain ⟨tables, mapped, pool', hmap, hmapped, hsettled', _, hleaves, hconserves, _⟩ |
        ⟨started, failed, cleaned, reached, finished, pool', hmap, hclean, hreclaimed, hfinished, hsettled', _, hleaves,
          hconserves, _⟩ := map_to_or_clean_up self.mapper htake hafter hsettled habsent access.flags
      · refine ⟨.ok frame, tables, mapped, pool', ?_, hmapped, hconserves, hsettled', .inl ⟨frame, rfl, hleaves⟩⟩
        simp [map_user_page, with_allocator, zoom, hallocate, hvirtual, hroot, attempt, with_mapper_apply,
          hmap, changed]
      · refine ⟨.err (.Mapper .FrameAllocationFailed), cleaned, finished, pool', ?_, hfinished, hconserves, hsettled',
          .inr ⟨_, rfl, hleaves⟩⟩
        simp [map_user_page, with_allocator, zoom, hallocate, hvirtual, hroot, attempt,
          with_mapper_apply, hmap, clean_up, mapErr, hclean, hreclaimed, changed]

/-- With room for four frames, `unmap_and_deallocate` removes a leaf that the allocator owns
and gives its frame and the tables that nobody needs any more back. -/
theorem unmap_and_deallocate_ok
    (hroom : self.frame_allocator.reclaimed_count ≤ RECLAIM_GUARD)
    (hleaf : (self.page_tables root).leaf page = some (frame, flags))
    (howned : self.frame_allocator.is_allocatable_frame frame = .ok true) :
    ∃ tables after pool', unmap_and_deallocate root page self = (.ok (), self.changed root tables after) ∧
      after.Refines boot pool' ∧ Settled tables ∧ Retains (self.page_tables root) tables ∧
      Conserves pool (self.page_tables root) pool' tables ∧ pool'.fresh = pool.fresh ∧
      tables.leaves = (self.page_tables root).leaves.filter fun entry => entry.1 != page := by
  obtain ⟨reclaimed, cleaned, after, pool', hreclaimed, hclean, hafter, hsettled', hretains, hleaves, hconserves, hfresh⟩ :=
    remove_and_clean_up self.mapper hrefines hsettled hroom hleaf
  refine ⟨cleaned, after, pool', ?_, hafter, hsettled', hretains, hconserves, hfresh, hleaves⟩
  simp [unmap_and_deallocate, Nat.not_lt.mpr hroom, hleaf, howned, mapErr, with_mapper_apply,
    self.mapper.removes_leaf hleaf, with_allocator, zoom, hreclaimed, clean_up, hclean, changed]

/-- `unmap_and_deallocate` fails without effect, or removes the leaf. No assertion fails on
the way. -/
theorem unmap_and_deallocate_spec (page : Page) :
    UnmapsOrFails self boot pool root page (unmap_and_deallocate root page) := by
  by_cases hroom : RECLAIM_GUARD <
      self.frame_allocator.reclaimed_count
  · exact .inl ⟨.ReclaimCapacityExceeded, by simp [unmap_and_deallocate, hroom]⟩
  cases hleaf : (self.page_tables root).leaf page with
  | none => exact .inl ⟨.PageNotMapped, by simp [unmap_and_deallocate, hroom, hleaf]⟩
  | some entry =>
    obtain ⟨owned, howned⟩ := is_allocatable_frame_ok hrefines.mapped.in_range entry.1
    cases owned with
    | false => exact .inl ⟨.FrameNotAllocatorOwned, by simp [unmap_and_deallocate, hroom, hleaf, howned]⟩
    | true =>
      obtain ⟨tables, after, pool', hcall, hafter, hsettled', hretains, hconserves, _, hleaves⟩ :=
        unmap_and_deallocate_ok hrefines hsettled (Nat.not_lt.mp hroom) hleaf howned
      exact .inr ⟨tables, after, pool', hcall, hafter, hsettled', hretains, hconserves, hleaves⟩

omit hrefines hsettled in
/-- For a root in reach, `unmap_page` does what `unmap_and_deallocate` does for the kernel's. -/
theorem unmap_page_eq (hroot : (self.physical_to_virtual root).isSome) :
    unmap_page root page self = unmap_and_deallocate root page self := by
  obtain ⟨address, haddress⟩ := Option.isSome_iff_exists.mp hroot
  simp only [unmap_page, unmap_and_deallocate, bind_apply, get_apply, haddress]
  split <;> rfl

theorem unmap_page_spec : UnmapsOrFails self boot pool root page (unmap_page root page) := by
  by_cases hroot : (self.physical_to_virtual root).isSome
  · rw [UnmapsOrFails, unmap_page_eq hroot]
    exact unmap_and_deallocate_spec hrefines hsettled page
  · by_cases hroom : RECLAIM_GUARD <
        self.frame_allocator.reclaimed_count
    · exact .inl ⟨.ReclaimCapacityExceeded, by simp [unmap_page, hroom]⟩
    · exact .inl ⟨.PageNotMapped, by simp [unmap_page, hroom, Option.not_isSome_iff_eq_none.mp hroot]⟩

end MemoryManager

end leafos.memory
