import LeafOS.Memory.Sharing

namespace leafos.memory

open Prog MemoryManager heap
open UserTables (leaf_eq_some pages table table_eq_some)

namespace Paging

/-- What a live address space sees. Outside the user slot an address leads to the same
place as through the kernel's root, and user code may not go there; the pages of
the heap are among them. In the user slot user code may use every page, and none
is both writable and executable. -/
structure Isolated (paging : Paging) : Prop where
  shared : ∀ root ∈ paging.live_roots, ∀ address, p4_index (page_of address) ≠ USER_PML4_INDEX →
    translate_addr paging.contents root address = translate_addr paging.contents paging.kernel_root address
  kernel_only : ∀ root ∈ paging.live_roots, ∀ address, p4_index (page_of address) ≠ USER_PML4_INDEX →
    ∀ found, translate paging.contents root address = some found → found.user_accessible = false
  heap_mapped : ∀ root ∈ paging.live_roots, ∀ start, paging.heap.start = some start →
    ∀ offset < paging.heap.mapped_pages * PAGE_SIZE, (translate_addr paging.contents root (start + offset)).isSome
  user_pages : ∀ root ∈ paging.live_roots, ∀ address, p4_index (page_of address) = USER_PML4_INDEX →
    ∀ found, translate paging.contents root address = some found →
      found.user_accessible = true ∧ ¬ (found.flags.writable = true ∧ found.flags.no_execute = false)

section Isolation

variable {paging : Paging} {boot : BootInfoFrameAllocator} {base : Nat} {root : PhysFrame} {address : Nat}

theorem contents_kernel (paging : Paging) (index : Nat) :
    paging.contents paging.kernel_root index = paging.kernel_entry index := if_pos rfl

theorem page_of_lt (address : Nat) : page_of address < 512 ^ 4 := by
  have hpages : 2 ^ 48 / PAGE_SIZE = 512 ^ 4 := by decide
  rw [← hpages]
  exact Nat.div_lt_div_of_lt_of_dvd (by decide) (Nat.mod_lt _ (by decide))

theorem p4_index_mod {page : Nat} (hpage : page < 512 ^ 4) : page / 512 ^ 3 % 512 = p4_index page :=
  Nat.mod_eq_of_lt (Nat.div_lt_of_lt_mul hpage)

theorem HeapAt.mapped_le (hheap : paging.HeapAt base) : paging.heap.mapped_pages ≤ PML4_SLOT_PAGES := by
  obtain ⟨reached, hfits, hcovers, _⟩ := hheap.pages
  have hmapped := hheap.mapped
  have hlast := hcovers.inside _ (hcovers.committed (base + (paging.heap.mapped_pages - 1)) (by omega) (by omega))
  omega

/-- The page number of an address in the heap. -/
theorem HeapAt.page_of_eq (hheap : paging.HeapAt base)
    (hlt : address < base * PAGE_SIZE + paging.heap.mapped_pages * PAGE_SIZE) : page_of address = address / PAGE_SIZE := by
  have hmapped := hheap.mapped_le
  have hslot : base / 134217728 < 255 := hheap.slot_lt
  have hpages : PML4_SLOT_PAGES = 134217728 := by decide
  have hsize : PAGE_SIZE = 4096 := rfl
  rw [hsize] at hlt
  rw [page_of, Nat.mod_eq_of_lt (by omega)]

section Live

variable (hinv : paging.Inv boot base) (hnodup : boot.unvisited.Nodup)
include hinv hnodup

theorem Inv.contents_root (hroot : root ∈ paging.live_roots) (index : Nat) :
    paging.contents root index = paging.root_entry root index := by
  rw [contents, if_neg (hinv.live_ne_kernel hnodup hroot), if_pos hroot]

theorem Inv.stores (hroot : root ∈ paging.kernel_root :: paging.live_roots) :
    Stores paging.contents (paging.manager.page_tables root) (root != paging.kernel_root) :=
  ⟨fun _ _ htable index => (hinv.contents_table hnodup hroot htable index).trans rfl,
    fun _ _ _ htable index => (hinv.contents_table hnodup hroot htable index).trans rfl⟩

/-- Through a root that leads to its own table the walk ends at the page's leaf. -/
theorem Inv.walk_root (hroot : root ∈ paging.kernel_root :: paging.live_roots)
    (hsettled : Settled (paging.manager.page_tables root))
    (hpresent : ∀ leaf ∈ (paging.manager.page_tables root).leaves, leaf.2.2.present = true) {page : Page}
    (hentry : paging.contents root (page / 512 ^ 3 % 512) = paging.table_entry root (table_of 3 page)) :
    walk paging.contents 4 root page = ((paging.manager.page_tables root).leaf page).map fun entry =>
      ⟨entry.1, entry.2, root != paging.kernel_root && entry.2.user_accessible⟩ := by
  rw [walk_succ 3, hentry, table_entry]
  cases htable : (paging.manager.page_tables root).table (table_of 3 page) with
  | none =>
    cases hleaf : (paging.manager.page_tables root).leaf page with
    | none => rfl
    | some entry =>
      have hmem := (leaf_eq_some hsettled.keyed).mp hleaf
      exact absurd ((hsettled.tight 3 (by decide) _).mpr ⟨_, hmem, rfl⟩) (UserTables.table_eq_none.mp htable)
  | some frame =>
    have hmem := (table_eq_some hsettled.keyed).mp htable
    have hbelow := (hinv.stores hnodup hroot).walk hsettled hpresent 2 (by decide) hmem
    simp only [Option.map_some, table_flags, Bool.not_true, Bool.false_and, Bool.or_false, Bool.false_eq_true, if_false,
      Nat.reduceEqDiff, or_false, hbelow]
    cases (paging.manager.page_tables root).leaf page with
    | none => rfl
    | some entry => cases hkernel : root != paging.kernel_root <;> simp

theorem Inv.translate_copy (hroot : root ∈ paging.live_roots) (haddress : p4_index (page_of address) ≠ USER_PML4_INDEX) :
    translate paging.contents root address =
      (translate paging.contents paging.kernel_root address).map fun found => { found with user_accessible := false } := by
  refine walk_of_copy ?_
  rw [p4_index_mod (page_of_lt address), contents_kernel, hinv.contents_root hnodup hroot, root_entry, if_neg haddress]
  exact hinv.copies root hroot _ haddress

/-- A committed page of the heap is mapped, outside the user slot. -/
theorem Inv.heap_translated (hge : base * PAGE_SIZE ≤ address)
    (hlt : address < base * PAGE_SIZE + paging.heap.mapped_pages * PAGE_SIZE) :
    p4_index (page_of address) ≠ USER_PML4_INDEX ∧
      (translate paging.contents paging.kernel_root address).isSome := by
  obtain ⟨reached, hfits, hcovers, _⟩ := hinv.heap.pages
  have hfirst : base ≤ page_of address := by
    rw [hinv.heap.page_of_eq hlt]
    exact (Nat.le_div_iff_mul_le (by decide)).mpr hge
  have hlast : page_of address < base + paging.heap.mapped_pages := by
    rw [hinv.heap.page_of_eq hlt]
    exact Nat.div_lt_of_lt_mul (by rwa [Nat.mul_comm, Nat.add_mul])
  have hslot : p4_index (page_of address) = p4_index base :=
    p4_index_eq hinv.heap.aligned hfirst (Nat.lt_of_lt_of_le hlast (Nat.add_le_add_left hinv.heap.mapped_le _))
  have hentry : paging.contents paging.kernel_root (page_of address / 512 ^ 3 % 512) =
      paging.table_entry paging.kernel_root (table_of 3 (page_of address)) := by
    rw [p4_index_mod (page_of_lt address), contents_kernel, kernel_entry, hslot, hinv.heap.unused, Option.none_or, ← hslot]
    rfl
  have hpresent : ∀ leaf ∈ paging.kernel_tables.leaves, leaf.2.2.present = true :=
    fun leaf hleaf => by rw [hcovers.flags leaf hleaf]; rfl
  obtain ⟨leaf, hleaf, hpage⟩ := List.mem_map.mp (hcovers.committed _ hfirst hlast)
  have hfound : paging.kernel_tables.leaf (page_of address) = some leaf.2 :=
    (leaf_eq_some hinv.settled.keyed).mpr (hpage ▸ hleaf)
  refine ⟨hslot ▸ Nat.ne_of_lt hinv.heap.slot_lt, ?_⟩
  rw [translate, hinv.walk_root hnodup List.mem_cons_self hinv.settled hpresent hentry, hfound]
  rfl

theorem Inv.isolated : paging.Isolated where
  shared root hroot address haddress := by
    rw [translate_addr, translate_addr, hinv.translate_copy hnodup hroot haddress, Option.map_map]
    rfl
  kernel_only root hroot address haddress found hfound := by
    rw [hinv.translate_copy hnodup hroot haddress] at hfound
    obtain ⟨_, _, rfl⟩ := Option.map_eq_some_iff.mp hfound
    rfl
  heap_mapped root hroot start hstart offset hoffset := by
    obtain rfl := Option.mem_unique hinv.heap.start hstart
    obtain ⟨haddress, hmapped⟩ := hinv.heap_translated hnodup (Nat.le_add_right _ offset) (Nat.add_lt_add_left hoffset _)
    rw [translate_addr, hinv.translate_copy hnodup hroot haddress, Option.isSome_map, Option.isSome_map]
    exact hmapped
  user_pages root hroot address haddress found hfound := by
    obtain ⟨space, hspace, hspace_root⟩ := mem_live_roots.mp hroot
    obtain ⟨pool, account, hsystem, _⟩ := hinv.books
    have hmirrors := hsystem.mirrors space hspace root hspace_root
    have haccess : ∀ page frame flags, (paging.manager.page_tables root).leaf page = some (frame, flags) →
        ∃ access : UserPageAccess, flags = access.flags := by
      intro page frame flags hleaf
      obtain ⟨_, access, hlisted⟩ := hmirrors.exact.complete page _ hleaf
      obtain ⟨_, hsame⟩ := (hmirrors.exact.listed page access).mp hlisted
      exact ⟨access, (Prod.mk.inj (Option.mem_unique hleaf hsame)).2⟩
    have hpresent : ∀ leaf ∈ (paging.manager.page_tables root).leaves, leaf.2.2.present = true := by
      intro leaf hleaf
      obtain ⟨access, hflags⟩ := haccess leaf.1 leaf.2.1 leaf.2.2
        ((leaf_eq_some hmirrors.settled.keyed).mpr hleaf)
      rw [hflags]
      cases access <;> rfl
    have hentry : paging.contents root (page_of address / 512 ^ 3 % 512) =
        paging.table_entry root (table_of 3 (page_of address)) := by
      rw [p4_index_mod (page_of_lt address), hinv.contents_root hnodup hroot, root_entry, if_pos haddress]
      rfl
    rw [translate, hinv.walk_root hnodup (List.mem_cons_of_mem _ hroot) hmirrors.settled hpresent hentry] at hfound
    obtain ⟨⟨frame, flags⟩, hleaf, rfl⟩ := Option.map_eq_some_iff.mp hfound
    obtain ⟨access, rfl⟩ := haccess _ _ _ hleaf
    have hkernel : (root != paging.kernel_root) = true := bne_iff_ne.mpr (hinv.live_ne_kernel hnodup hroot)
    simp only [hkernel, Bool.true_and]
    cases access <;> decide

end Live

end Isolation

section Steps

variable {paging : Paging} {boot : BootInfoFrameAllocator} {base : Nat} {pool : FramePool} {account : List PhysFrame}

/-- The entries of the kernel's root depend on the tables just below it alone. -/
theorem kernel_entry_congr (before after : Paging) (hroot : after.kernel_root = before.kernel_root)
    (hloader : after.loader = before.loader) {index : Nat}
    (htable : (after.manager.page_tables after.kernel_root).table ⟨3, index⟩ =
      (before.manager.page_tables before.kernel_root).table ⟨3, index⟩) :
    after.kernel_entry index = before.kernel_entry index := by
  rw [kernel_entry, kernel_entry, table_entry, table_entry, htable, hroot, hloader, table_flags, table_flags, hroot]

/-- They are the same when the table of the heap's slot stays where it is. -/
theorem HeapAt.top_table_eq (hheap : paging.HeapAt base) {after : Paging} (hheap' : after.HeapAt base)
    (hsettled : Settled paging.kernel_tables)
    (hsettled' : Settled (after.manager.page_tables after.kernel_root))
    (hanchors : UserTables.Anchors base paging.kernel_tables
      (after.manager.page_tables after.kernel_root)) (index : Nat) :
    (after.manager.page_tables after.kernel_root).table ⟨3, index⟩ =
      paging.kernel_tables.table ⟨3, index⟩ := by
  by_cases hslot : index = p4_index base
  · subst hslot
    obtain ⟨frame, hframe⟩ := hheap.table_mem hsettled
    exact ((table_eq_some hsettled'.keyed).mpr (hanchors frame hframe)).trans
      ((table_eq_some hsettled.keyed).mpr hframe).symm
  · rw [hheap.table_eq_none hsettled hslot, hheap'.table_eq_none hsettled' hslot]

/-- The heap is not concerned by what happens under other roots. -/
theorem HeapAt.congr (hheap : paging.HeapAt base) (after : Paging) (hroot : after.kernel_root = paging.kernel_root)
    (hloader : after.loader = paging.loader) (hstate : after.heap = paging.heap)
    (htables : after.manager.page_tables paging.kernel_root = paging.kernel_tables) :
    after.HeapAt base := by
  obtain ⟨manager, kernel_root, loader, copies, spaces, heap⟩ := after
  obtain rfl : kernel_root = paging.kernel_root := hroot
  obtain rfl : loader = paging.loader := hloader
  obtain rfl : heap = paging.heap := hstate
  have hpages := hheap.pages
  rw [← htables] at hpages
  exact { hheap with pages := hpages }

variable (hinv : paging.Inv boot base) (hnodup : boot.unvisited.Nodup)
include hinv

/-- Calls that leave the kernel's tables alone: what is left to show is that the live
roots hold the copies. -/
theorem Inv.aside {system : System} (hsystem : system.Inv boot pool account)
    (hperm : (account ++ paging.kernel_tables.frames).Perm boot.unvisited)
    (hkernel : system.manager.page_tables paging.kernel_root = paging.kernel_tables)
    {copies : TableMemory}
    (hcopies : ∀ root ∈ system.spaces.filterMap AddressSpace.root, ∀ index, index ≠ USER_PML4_INDEX →
      copies root index = (paging.kernel_entry index).map PageTableEntry.without_user) :
    ({ paging with manager := system.manager, spaces := system.spaces, copies } : Paging).Inv boot base := by
  refine ⟨⟨pool, account, hsystem, ?_⟩, hinv.reserved, ?_, hinv.heap.congr _ rfl rfl rfl hkernel, ?_⟩
  · show (account ++ (system.manager.page_tables paging.kernel_root).frames).Perm boot.unvisited
    rwa [hkernel]
  · show Settled (system.manager.page_tables paging.kernel_root)
    rw [hkernel]
    exact hinv.settled
  · intro root hroot index hindex
    rw [kernel_entry_congr paging { paging with manager := system.manager, spaces := system.spaces, copies } rfl rfl
      (congrArg (table · ⟨3, index⟩) hkernel)]
    exact hcopies root hroot index hindex

include hnodup

/-- What calls on the kernel's own tables do to the books. -/
theorem Inv.kernel_reached {pool' : FramePool}
    {manager' : MemoryManager} {heap' : HeapState} (hsystem : paging.system.Inv boot pool account)
    (hperm : (account ++ paging.kernel_tables.frames).Perm boot.unvisited)
    (hreached : KernelReached boot paging.kernel_root paging.manager
      (pool.free ++ paging.kernel_tables.frames) manager' pool')
    (hheap : ({ paging with manager := manager', heap := heap' } : Paging).HeapAt base)
    (hanchors : UserTables.Anchors base paging.kernel_tables
      (manager'.page_tables paging.kernel_root)) :
    ({ paging with manager := manager', heap := heap' } : Paging).Inv boot base := by
  have hothers : ∀ space ∈ paging.spaces, ∀ root, space.root = some root →
      manager'.page_tables root = paging.manager.page_tables root := fun space hspace root hroot =>
    hreached.others root (hinv.live_ne_kernel hnodup (mem_live_roots.mpr ⟨space, hspace, hroot⟩))
  have huse : (System.mk manager' paging.spaces).in_use = paging.system.in_use := by
    refine List.flatMap_congr fun space hspace => ?_
    cases hroot : space.root with
    | none => simp [AddressSpace.frames, hroot]
    | some root => rw [frames_eq hroot, frames_eq hroot]; exact congrArg _ (congrArg _ (hothers space hspace root hroot))
  have hvirtual : manager'.physical_to_virtual = paging.manager.physical_to_virtual := by
    funext frame
    rw [physical_to_virtual, physical_to_virtual, hreached.offset]
  refine ⟨⟨pool', pool'.free ++ paging.system.in_use, ⟨hreached.refines, ?_, ?_, ?_⟩, ?_⟩, hinv.reserved,
    hreached.settled, hheap, ?_⟩
  · intro space hspace root hroot
    show space.Mirrors (manager'.page_tables root)
    rw [hothers space hspace root hroot]
    exact hsystem.mirrors space hspace root hroot
  · intro space hspace root hroot
    show (manager'.physical_to_virtual root).isSome
    rw [hvirtual]
    exact hsystem.addressable space hspace root hroot
  · exact huse ▸ List.Perm.refl _
  · refine List.Perm.trans (List.perm_iff_count.mpr fun frame => ?_) hperm
    have hkernel := hreached.balance.count_eq frame
    have hspaces := hsystem.balance.count_eq frame
    simp only [Paging.kernel_tables, List.count_append] at hkernel hspaces ⊢
    omega
  · intro root hroot index hindex
    rw [kernel_entry_congr paging { paging with manager := manager', heap := heap' } rfl rfl
      (hinv.heap.top_table_eq hheap hinv.settled hreached.settled hanchors index)]
    exact hinv.copies root hroot index hindex

theorem Inv.grow (target_total_pages : Nat) :
    ∃ after, returned (heap.grow target_total_pages paging) = some after ∧ after.Inv boot base := by
  obtain ⟨pool, account, hsystem, hperm⟩ := hinv.books
  have hheap := hinv.heap
  obtain ⟨reached, hfits, hcovers, hexact⟩ := hheap.pages
  cases hpoisoned : paging.heap.poisoned with
  | true => exact ⟨paging, by simp [grow_apply, hpoisoned, returned], hinv⟩
  | false =>
    obtain rfl := hexact hpoisoned
    have hstart : KernelReached boot paging.kernel_root paging.manager
        (pool.free ++ paging.kernel_tables.frames) paging.manager pool :=
      ⟨hsystem.refines, rfl, fun _ _ => rfl, hinv.settled, List.Perm.refl _⟩
    obtain ⟨outcome, manager', heap', pool', hgrow, hreached, hgrown, hanchors⟩ :=
      grow_spec target_total_pages hstart hpoisoned (by rw [hheap.start, Option.some_or]) hcovers
    have hheap' : ({ paging with manager := manager', heap := heap' } : Paging).HeapAt base ∧ outcome ≠ .panic := by
      cases hgrown with
      | committed pages hpos hfits' hcovers' =>
        refine ⟨⟨hheap.aligned, hheap.slot_lt, hheap.unused, ?_, Nat.add_pos_left hheap.mapped _,
          _, hfits', hcovers', fun _ => rfl⟩, (by rintro ⟨⟩)⟩
        simp only [hheap.start, Option.getD_some]
      | poisoned reached hfits' hcovers' =>
        exact ⟨⟨hheap.aligned, hheap.slot_lt, hheap.unused, hheap.start, hheap.mapped, reached, hfits', hcovers',
          (by rintro ⟨⟩)⟩, (by rintro ⟨⟩)⟩
      | refused error hcovers' =>
        exact ⟨⟨hheap.aligned, hheap.slot_lt, hheap.unused, hheap.start, hheap.mapped, _, hfits, hcovers',
          fun _ => rfl⟩, (by rintro ⟨⟩)⟩
    refine ⟨_, ?_, hinv.kernel_reached hnodup hsystem hperm hreached hheap'.1 (hanchors hheap.mapped)⟩
    rw [hgrow]
    cases outcome with
    | panic => exact absurd rfl hheap'.2
    | _ => rfl

theorem Inv.on_space {α : Type} {method : AddressSpace.SpaceM α} (hconfined : Confined method) (index : Nat) :
    ∃ after, ((paging.system.on_space index method).map fun system =>
      ({ paging with manager := system.manager, spaces := system.spaces } : Paging)) = some after ∧ after.Inv boot base := by
  obtain ⟨pool, account, hsystem, hperm⟩ := hinv.books
  have haccount := (List.nodup_append.mp (hperm.nodup_iff.mpr hnodup)).1
  obtain ⟨system, pool', hcall, hsystem', hdescends⟩ := hsystem.on_space hconfined haccount index
  refine ⟨_, congrArg (Option.map _) hcall, hinv.aside hsystem' hperm ?_ ?_⟩
  · exact hdescends.others _ fun space hspace hroot =>
      hinv.live_ne_kernel hnodup (mem_live_roots.mpr ⟨space, hspace, hroot⟩) rfl
  · intro root hroot
    obtain ⟨space, hspace, hfound⟩ := List.mem_filterMap.mp hroot
    exact hinv.copies root (mem_live_roots.mpr (hdescends.roots space hspace root hfound))

/-- A new space gets the kernel's entries of this moment. -/
theorem Inv.create_address_space :
    ∃ after, returned (Paging.create_address_space paging) = some after ∧ after.Inv boot base := by
  obtain ⟨pool, account, hsystem, hperm⟩ := hinv.books
  have haccount := (List.nodup_append.mp (hperm.nodup_iff.mpr hnodup)).1
  -- the manager reads the user slot of the kernel's root; nothing else depends on it
  let asked : MemoryManager :=
    { paging.manager with kernel_user_slot_unused := (paging.kernel_entry USER_PML4_INDEX).isNone }
  have hasked : (System.mk asked paging.spaces).Inv boot pool account :=
    { hsystem with }
  obtain ⟨error, manager', pool', hcall, hsystem', htables⟩ | ⟨root, manager', pool', hcall, hsystem', hothers⟩ :=
    hasked.create_address_space haccount
  · refine ⟨{ paging with manager := manager' }, ?_,
      hinv.aside hsystem' hperm (congrFun htables _) hinv.copies⟩
    simp only [Paging.create_address_space, bind_apply, modify_apply, on_manager, zoom]
    rw [show MemoryManager.create_address_space _ = _ from hcall]
    rfl
  · have hmem : root ∈ account := hsystem'.balance.subset <| List.mem_append_right _ <|
      List.mem_flatMap.mpr ⟨_, List.mem_append_right _ (List.mem_singleton.mpr rfl), root_mem_frames rfl _⟩
    have hne : paging.kernel_root ≠ root := fun hsame =>
      hinv.reserved (hsame ▸ hperm.subset (List.mem_append_left _ hmem))
    have hfresh : root ∉ paging.live_roots := fun hlive => by
      obtain ⟨space, hspace, hroot⟩ := mem_live_roots.mp hlive
      exact hsystem'.apart haccount rfl rfl space (by simpa using hspace) hroot
    let copied : TableMemory := Function.update paging.copies root fun index =>
      if index = USER_PML4_INDEX then none
      else (({ paging with manager := manager' } : Paging).kernel_entry index).map PageTableEntry.without_user
    have hcopied : ∀ other ∈ (paging.spaces ++ [AddressSpace.mk (some root) []]).filterMap AddressSpace.root, ∀ index,
        index ≠ USER_PML4_INDEX → copied other index = (paging.kernel_entry index).map PageTableEntry.without_user := by
      intro other hother index hindex
      rw [List.filterMap_append, List.mem_append] at hother
      obtain hother | hother := hother
      · have hold : other ≠ root := fun hsame => hfresh (hsame ▸ hother)
        rw [show copied other = paging.copies other from Function.update_of_ne hold _ _]
        exact hinv.copies other hother index hindex
      · obtain rfl : other = root := by simpa using hother
        rw [show copied other = _ from Function.update_self _ _ _]
        simp only [if_neg hindex]
        rw [kernel_entry_congr paging { paging with manager := manager' } rfl rfl
          (congrArg (table · ⟨3, index⟩) (hothers _ hne))]
    refine ⟨_, ?_, hinv.aside hsystem' hperm (hothers _ hne) hcopied⟩
    simp only [Paging.create_address_space, bind_apply, modify_apply, on_manager, zoom]
    rw [show MemoryManager.create_address_space _ = _ from hcall]
    rfl

end Steps

end Paging

section Runs

variable {paging : Paging} {boot : BootInfoFrameAllocator} {base : Nat}

theorem MemoryCall.perform_inv (call : MemoryCall) (hinv : paging.Inv boot base) (hnodup : boot.unvisited.Nodup) :
    ∃ after, call.perform paging = some after ∧ after.Inv boot base := by
  cases call with
  | grow target_total_pages => exact hinv.grow hnodup target_total_pages
  | space call =>
    cases call with
    | create_address_space => exact hinv.create_address_space hnodup
    | map_user_page space page access reserved =>
      exact hinv.on_space hnodup (confined_map_user_page page access reserved) space
    | unmap_user_page space page => exact hinv.on_space hnodup (confined_unmap_user_page page) space
    | destroy space active => exact hinv.on_space hnodup (confined_destroy active) space

theorem perform_memory_calls_inv (calls : List MemoryCall) (hinv : paging.Inv boot base)
    (hnodup : boot.unvisited.Nodup) :
    ∃ final, perform_memory_calls calls paging = some final ∧ final.Inv boot base := by
  induction calls generalizing paging with
  | nil => exact ⟨paging, rfl, hinv⟩
  | cons call rest ih =>
    obtain ⟨after, hcall, hafter⟩ := call.perform_inv hinv hnodup
    obtain ⟨final, hrest, hfinal⟩ := ih hafter
    exact ⟨final, by rw [perform_memory_calls, hcall, Option.bind_some, hrest], hfinal⟩

/-- The slot that the heap starts in: it is unused, and it is not the user's. -/
theorem first_unused_low_half_page_some {start : Nat} (hstart : paging.first_unused_low_half_page = some start) :
    ∃ base, start = base * PAGE_SIZE ∧ base % PML4_SLOT_PAGES = 0 ∧ p4_index base < USER_PML4_INDEX ∧
      paging.kernel_entry (p4_index base) = none := by
  obtain ⟨slot, hslot, rfl⟩ := Option.map_eq_some_iff.mp hstart
  have hunused := List.find?_some hslot
  obtain ⟨hrange, hne⟩ := List.mem_filter.mp (List.mem_of_find?_eq_some hslot)
  have hbound : slot < 256 := by
    obtain ⟨offset, hoffset, rfl⟩ := List.mem_range'.mp hrange
    omega
  have hindex : p4_index (slot * PML4_SLOT_PAGES) = slot := Nat.mul_div_cancel _ (by decide)
  refine ⟨slot * PML4_SLOT_PAGES, ?_, Nat.mul_mod_left _ _, ?_, ?_⟩
  · rw [Nat.mul_assoc]
    rfl
  · rw [hindex]
    have : slot ≠ 255 := bne_iff_ne.mp hne
    simp only [USER_PML4_INDEX]
    omega
  · rw [hindex]
    exact Option.isNone_iff_eq_none.mp hunused

/-- The invariant holds once the heap is initialised. -/
theorem initialize_heap_inv {ready : Paging} (hmapped : paging.manager.frame_allocator.Mapped)
    (hstacked : paging.manager.frame_allocator.Stacked) (hstack : paging.manager.frame_allocator.stack = [])
    (hreserved : paging.kernel_root ∉ paging.manager.frame_allocator.unvisited)
    (htables : paging.kernel_tables = .new) (hspaces : paging.spaces = [])
    (hheap : paging.heap = .new) (hready : initialize_heap paging = (.ok (), ready)) :
    ∃ base, ready.Inv paging.manager.frame_allocator base := by
  obtain ⟨grown, hgrow, rfl⟩ := initialize_heap_ok hready
  cases hfirst : paging.first_unused_low_half_page with
  | none => simp [grow_apply, Manager.extend_mapping, kernel_manager, hheap, HeapState.new, hfirst] at hgrow
  | some start =>
    obtain ⟨base, rfl, haligned, hslot, hunused⟩ := first_unused_low_half_page_some hfirst
    have hloader : paging.loader paging.kernel_root (p4_index base) = none := (Option.or_eq_none_iff.mp hunused).1
    have hnone : paging.kernel_tables.leaves = [] := by rw [htables]; rfl
    have hframes : paging.kernel_tables.frames = [] := by rw [htables]; rfl
    have hstart : KernelReached paging.manager.frame_allocator paging.kernel_root paging.manager
        paging.manager.frame_allocator.unvisited paging.manager
        ⟨paging.manager.frame_allocator.unvisited, [], Nat.zero_le _⟩ := by
      refine ⟨⟨.refl _, hmapped, hstacked, rfl, hstack.symm⟩, rfl, fun _ _ => rfl,
        show Settled paging.kernel_tables from htables ▸ settled_new, ?_⟩
      rw [hframes, List.append_nil]
      exact List.Perm.refl _
    have hcovers : Covers paging.kernel_tables base paging.heap.mapped_pages
        paging.heap.mapped_pages := by
      have hmapped_pages : paging.heap.mapped_pages = 0 := by rw [hheap]; rfl
      refine ⟨fun page hge hlt => ?_, ?_, ?_⟩
      · omega
      · simp [pages, hnone]
      · simp [hnone]
    obtain ⟨outcome, manager', heap', pool', hcall, hreached, hgrown, _⟩ := grow_spec HEAP_GROWTH_PAGES hstart
      (by rw [hheap]; rfl) (by rw [hheap, hfirst]; rfl) hcovers
    obtain ⟨rfl, rfl⟩ := Prod.mk.inj (hgrow.symm.trans hcall)
    generalize hresult : (Outcome.ok () : Outcome HeapError Unit) = result at hgrown
    cases hgrown with
    | poisoned | refused => cases hresult
    | committed pages hpos hfits hcovers' =>
      have hheap' : ({ paging with
          manager := manager'
          heap := { paging.heap with
            initialized := true
            start := some (paging.heap.start.getD ((base + paging.heap.mapped_pages) * PAGE_SIZE))
            mapped_pages := paging.heap.mapped_pages + pages } } : Paging).HeapAt base := by
        refine ⟨haligned, hslot, hloader, ?_, Nat.add_pos_right _ hpos, _, hfits, hcovers', fun _ => rfl⟩
        simp [hheap, HeapState.new]
      refine ⟨base, ⟨pool', pool'.free, ⟨hreached.refines, ?_, ?_, ?_⟩, hreached.balance⟩, hreserved, hreached.settled,
        hheap', ?_⟩
      · simp [Paging.system, hspaces]
      · simp [Paging.system, hspaces]
      · simp [Paging.system, System.in_use, hspaces]
      · simp [Paging.live_roots, hspaces]

end Runs

/-- The invariant holds from the first growth of the heap on. -/
theorem booted_inv {mapper : Mapper} {version descriptor_version : UInt32} {physical_memory_offset : UInt64}
    {active_root : PhysFrame} {bits : Option UInt8} {memory : Nat → UInt8} {boot_info : BootInfo}
    {boot_info_address : UInt64} {loader : TableMemory} {booted ready : Paging}
    (hcreate : create mapper version descriptor_version physical_memory_offset active_root bits memory boot_info
      boot_info_address loader = .ok booted) (hready : initialize_heap booted = (.ok (), ready)) :
    booted.manager.frame_allocator.Mapped ∧ ∃ base, ready.Inv booted.manager.frame_allocator base := by
  simp only [create, Outcome.bind_eq_ok_iff, Outcome.pure_eq_ok_iff, Outcome.refuse_eq_ok_iff] at hcreate
  obtain ⟨_, hversion, _, hroot, physical_limit, hlimit, _, _, _, _, _, _, frame_allocator, hnew, _, _, _, _, rfl⟩ :=
    hcreate
  obtain ⟨hmapped, hstacked, hstack, _⟩ :=
    BootInfoFrameAllocator.new_mapped (physical_address_limit_le hlimit) hnew
  obtain rfl : active_root = boot_info.page_table_root.toNat := by simpa using hroot
  exact ⟨hmapped, initialize_heap_inv hmapped hstacked hstack
    (BootInfoFrameAllocator.new_root_unowned hnew hmapped) rfl rfl rfl hready⟩

/-- Kernel mappings stay shared and closed to user code. Once the heap is initialised
on an accepted handoff, whatever growths of the heap and calls on address spaces
follow, no assertion fails, and every live space is isolated. -/
theorem kernel_mappings_stay_shared (mapper : Mapper) (version descriptor_version : UInt32)
    (physical_memory_offset : UInt64) (active_root : PhysFrame) (bits : Option UInt8) (memory : Nat → UInt8)
    (boot_info : BootInfo) (boot_info_address : UInt64) (loader : TableMemory) (booted ready : Paging)
    (calls : List MemoryCall)
    (hcreate : create mapper version descriptor_version physical_memory_offset active_root bits memory boot_info
      boot_info_address loader = .ok booted)
    (hready : initialize_heap booted = (.ok (), ready)) :
    ∃ final, perform_memory_calls calls ready = some final ∧ final.Isolated := by
  obtain ⟨hmapped, base, hinv⟩ := booted_inv hcreate hready
  have hnodup := BootInfoFrameAllocator.unvisited_nodup hmapped
  obtain ⟨final, hrun, hfinal⟩ := perform_memory_calls_inv calls hinv hnodup
  exact ⟨final, hrun, hfinal.isolated hnodup⟩

/-- The loader's tables for the sample map: the first gibibyte is mapped to itself. -/
def sample_loader : TableMemory := fun frame index =>
  let flags : PageTableFlags := { present := true, writable := true, user_accessible := true, no_execute := false }
  if frame = 0x102000 ∧ index = 0 then some ⟨0x104000, flags, false⟩
  else if frame = 0x104000 ∧ index = 0 then some ⟨0, flags, true⟩
  else none

def sample_booted : Paging where
  manager := sample_manager
  kernel_root := 0x102000
  loader := sample_loader
  copies := fun _ _ => none
  spaces := []
  heap := .new

theorem sample_create :
    create offset_page_table 2 1 0 0x102000 (some 32) sample_memory sample_boot_info 0x103000 sample_loader =
      .ok sample_booted := by
  simp only [create, Outcome.bind_eq_ok_iff, Outcome.pure_eq_ok_iff, Outcome.refuse_eq_ok_iff, Outcome.okOr_eq_ok_iff]
  refine ⟨(), by decide, (), by decide, 2 ^ 32, rfl, (), by decide, (), by decide, 0x102000, by decide, sample_allocator,
    sample_new, (), by decide, (), by decide +kernel, ?_⟩
  rfl

theorem sample_initialize : initialize_heap sample_booted = (.ok (), (initialize_heap sample_booted).2) :=
  run_of_outcome (by decide +kernel)

/-- Two spaces made after the first growth of the heap; then a user page is mapped in the second, the
heap grows, a growth fails, and the first space is destroyed. -/
theorem kernel_mappings_stay_shared_sample :
    ∃ ready, initialize_heap sample_booted = (.ok (), ready) ∧
      ∃ final, perform_memory_calls [.space .create_address_space, .space .create_address_space,
        .space (.map_user_page 1 (255 * 512 ^ 3) .ReadWrite true), .grow 300, .grow 1000000,
        .space (.destroy 0 0x102000)] ready = some final ∧
      final.Isolated := by
  exact ⟨_, sample_initialize, kernel_mappings_stay_shared offset_page_table 2 1 0 0x102000 (some 32) sample_memory
    sample_boot_info 0x103000 sample_loader sample_booted _ _ sample_create sample_initialize⟩

end leafos.memory
