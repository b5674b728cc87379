import LeafOS.Memory.Isolation

namespace leafos.memory

open Prog

/-- A property of what operations on page tables leave alone: where the direct map
starts, and whether the kernel has the user slot unused. -/
def MemoryManager.Fixed (P : Nat → Bool → Prop) (manager : MemoryManager) : Prop :=
  P manager.physical_memory_offset manager.kernel_user_slot_unused

namespace MemoryManager

variable {ε α : Type} {P : Nat → Bool → Prop} (root : PhysFrame) (page : Page) (kernel_root : PhysFrame)

/-- The allocator and the mapper work on other fields of the manager. -/
theorem with_allocator_fixed (method : Prog BootInfoFrameAllocator ε α) : Maintains (Fixed P) (with_allocator method) :=
  fun _ hfixed => hfixed

theorem with_mapper_fixed (method : Mapper → MapperM ε α) : Maintains (Fixed P) (with_mapper root method) :=
  fun _ hfixed => hfixed

theorem clean_up_fixed : Maintains (Fixed P) (clean_up root page : ManagerM ε Unit) := (with_mapper_fixed _ _).mapErr _

theorem create_address_space_fixed : Maintains (Fixed P) create_address_space := by
  unfold create_address_space
  refine Maintains.get.bind fun self => ?_
  split
  · exact .constant _
  · refine (with_allocator_fixed _).bind fun found => (Maintains.okOr _ _).bind fun root => ?_
    split
    · exact (with_allocator_fixed _).bind fun _ => .constant _
    · exact Maintains.bind (fun _ hfixed => hfixed) fun _ => .pure _

/-- Every way out, also those that give the frame back. -/
theorem map_user_page_fixed (access : UserPageAccess) : Maintains (Fixed P) (map_user_page root page access) := by
  unfold map_user_page
  refine Maintains.get.bind fun self => (with_allocator_fixed _).bind fun found =>
    (Maintains.okOr _ _).bind fun frame => ?_
  split
  · exact (with_allocator_fixed _).bind fun _ => .constant _
  split
  · exact (with_allocator_fixed _).bind fun _ => .constant _
  refine (Maintains.attempt (with_mapper_fixed _ _)).bind fun result => ?_
  cases result with
  | ok _ => exact .pure _
  | error error =>
    exact (clean_up_fixed _ _).bind fun _ => (with_allocator_fixed _).bind fun _ => .constant _

/-- The end of an unmapping: the leaf, its frame and the tables it leaves empty. -/
theorem release_fixed {error : UnmapError → UnmappingError} (frame : PhysFrame) :
    Maintains (Fixed P) (do
      let unmapped_frame ← mapErr error (with_mapper root (·.unmap page))
      assert (unmapped_frame = frame)
      with_allocator (BootInfoFrameAllocator.assert_reclaimed frame)
      clean_up root page) := by
  refine ((with_mapper_fixed _ _).mapErr _).bind fun unmapped => Maintains.bind ?_ fun _ =>
    (with_allocator_fixed _).bind fun _ => clean_up_fixed _ _
  unfold Prog.assert
  split <;> exact .constant _

theorem unmap_page_fixed : Maintains (Fixed P) (unmap_page root page) := by
  unfold unmap_page
  refine Maintains.get.bind fun self => ?_
  split
  · exact .constant _
  refine (Maintains.okOr _ _).bind fun _ => (Maintains.okOr _ _).bind fun ⟨frame, _⟩ => ?_
  dsimp only
  split
  · exact release_fixed root page frame
  all_goals exact .constant _

theorem map_to_fixed (page : Page) (frame : PhysFrame) (flags : PageTableFlags) :
    Maintains (Fixed P) (map_to kernel_root page frame flags) := by
  unfold map_to
  refine Maintains.get.bind fun self => ?_
  split
  · exact .constant _
  refine (Maintains.attempt (with_mapper_fixed _ _)).bind fun result => ?_
  cases result with
  | ok _ => exact .pure _
  | error error => exact (clean_up_fixed _ _).bind fun _ => .constant _

theorem allocate_and_map_fixed (page : Page) (flags : PageTableFlags) :
    Maintains (Fixed P) (allocate_and_map kernel_root page flags) := by
  unfold allocate_and_map
  refine (with_allocator_fixed _).bind fun found => (Maintains.okOr _ _).bind fun frame =>
    (Maintains.attempt (map_to_fixed _ _ _ _)).bind fun result => ?_
  cases result with
  | ok _ => exact .pure _
  | error error => exact (with_allocator_fixed _).bind fun _ => .constant _

theorem unmap_and_deallocate_fixed (page : Page) : Maintains (Fixed P) (unmap_and_deallocate kernel_root page) := by
  unfold unmap_and_deallocate
  refine Maintains.get.bind fun self => ?_
  split
  · exact .constant _
  refine (Maintains.okOr _ _).bind fun ⟨frame, _⟩ => ?_
  dsimp only
  split
  · exact release_fixed kernel_root page frame
  all_goals exact .constant _

end MemoryManager

open MemoryManager

variable {P : Nat → Bool → Prop}

section Spaces

variable {system after : System}

/-- A method of a space keeps what the manager's part keeps. -/
theorem AddressSpace.with_manager_fixed {ε α : Type} {method : ManagerM ε α} (hmethod : Maintains (Fixed P) method)
    (convert : ε → AddressSpaceError) :
    Maintains (fun state => Fixed P state.2) (AddressSpace.with_manager convert method) :=
  Maintains.mapErr (fun state hfixed => hmethod state.2 hfixed) convert

theorem AddressSpace.map_user_page_fixed (page : Page) (access : UserPageAccess) (reserved : Bool) :
    Maintains (fun state => Fixed P state.2) (AddressSpace.map_user_page page access reserved) := by
  unfold AddressSpace.map_user_page
  refine Maintains.get.bind fun state => (Maintains.okOr _ _).bind fun root => ?_
  split
  · exact .constant _
  split
  · exact .constant _
  split
  · exact .constant _
  exact (AddressSpace.with_manager_fixed (MemoryManager.map_user_page_fixed _ _ _) _).bind fun frame =>
    Maintains.bind (fun _ hfixed => hfixed) fun _ => .pure _

theorem AddressSpace.unmap_user_page_fixed (page : Page) :
    Maintains (fun state => Fixed P state.2) (AddressSpace.unmap_user_page page) := by
  unfold AddressSpace.unmap_user_page
  exact Maintains.get.bind fun state => (Maintains.okOr _ _).bind fun root => (Maintains.okOr _ _).bind fun index =>
    (AddressSpace.with_manager_fixed (unmap_page_fixed _ _) _).bind fun _ => fun _ hfixed => hfixed

theorem AddressSpace.unmap_all_fixed (root : PhysFrame) (pages : List (Page × UserPageAccess)) :
    Maintains (fun state => Fixed P state.2) (AddressSpace.unmap_all root pages) := by
  induction pages with
  | nil => exact .pure _
  | cons mapped rest ih =>
    exact (AddressSpace.with_manager_fixed (unmap_page_fixed _ _) _).bind fun _ =>
      Maintains.bind (fun _ hfixed => hfixed) fun _ => ih

/-- Taking down a space unmaps its pages first, then returns the frame of its root. -/
theorem AddressSpace.destroy_fixed (active : PhysFrame) :
    Maintains (fun state => Fixed P state.2) (AddressSpace.destroy active) := by
  unfold AddressSpace.destroy
  refine Maintains.get.bind fun state => (Maintains.okOr _ _).bind fun root => ?_
  split
  · exact .constant _
  exact (AddressSpace.unmap_all_fixed root _).bind fun _ =>
    (AddressSpace.with_manager_fixed (with_allocator_fixed _) _).bind fun _ => fun _ hfixed => hfixed

theorem System.on_space_fixed {α : Type} {method : AddressSpace.SpaceM α}
    (hmethod : Maintains (fun state => Fixed P state.2) method) (index : Nat) (hfixed : Fixed P system.manager)
    (hcall : system.on_space index method = some after) : Fixed P after.manager := by
  unfold System.on_space at hcall
  split at hcall
  · cases hcall
    exact hfixed
  · rename_i space _
    have hafter := hmethod (space, system.manager) hfixed
    generalize method (space, system.manager) = result at hcall hafter
    rcases result with ⟨_ | _ | _, final⟩ <;> cases hcall
    all_goals exact hafter

theorem Call.perform_fixed (call : Call) (hfixed : Fixed P system.manager)
    (hcall : call.perform system = some after) : Fixed P after.manager := by
  cases call with
  | create_address_space =>
    have hafter := create_address_space_fixed system.manager hfixed
    simp only [Call.perform] at hcall
    generalize MemoryManager.create_address_space system.manager = result at hcall hafter
    rcases result with ⟨_ | _ | _, final⟩ <;> cases hcall
    all_goals exact hafter
  | map_user_page space page access reserved =>
    exact System.on_space_fixed (AddressSpace.map_user_page_fixed page access reserved) space hfixed hcall
  | unmap_user_page space page =>
    exact System.on_space_fixed (AddressSpace.unmap_user_page_fixed page) space hfixed hcall
  | destroy space active => exact System.on_space_fixed (AddressSpace.destroy_fixed active) space hfixed hcall

end Spaces

section Heap

open heap

variable {paging after : Paging}

/-- The same of the manager that the kernel's own mappings go through. -/
abbrev Paging.Fixed (P : Nat → Bool → Prop) (paging : Paging) : Prop := MemoryManager.Fixed P paging.manager

/-- The loop of a growth, and the rollback that it ends in when a page cannot be mapped. -/
theorem map_growth_fixed (growth_start remaining mapped_pages : Nat) :
    Maintains (Paging.Fixed P) (kernel_manager.map_growth growth_start remaining mapped_pages) := by
  have hunmap : ∀ page, Maintains (Paging.Fixed P) (kernel_manager.unmap_and_deallocate page) := fun page paging hfixed =>
    unmap_and_deallocate_fixed paging.kernel_root page paging.manager hfixed
  have hroll : ∀ count, Maintains (Paging.Fixed P) (kernel_manager.roll_back growth_start count) := by
    intro count
    induction count with
    | zero => exact .pure _
    | succ count ih =>
      refine (Maintains.attempt (hunmap _)).bind fun result => ?_
      cases result with
      | ok _ => exact ih
      | error _ => exact ih.bind fun _ => .pure _
  induction remaining generalizing mapped_pages with
  | zero => exact .pure _
  | succ remaining ih =>
    have hmap : Maintains (Paging.Fixed P)
        (kernel_manager.allocate_and_map (growth_page growth_start mapped_pages)) := fun paging hfixed =>
      allocate_and_map_fixed paging.kernel_root _ _ paging.manager hfixed
    refine (Maintains.attempt hmap).bind fun result => ?_
    cases result with
    | ok _ => exact ih _
    | error _ =>
      refine (hroll _).bind fun failed => ?_
      cases failed <;> exact .constant _

theorem allocator_grow_fixed (methods : HeapMethods Unit) (target_total_pages : Nat) :
    Maintains (fun self : KernelAllocator Unit Paging => Fixed P self.manager.manager)
      (KernelAllocator.grow kernel_manager methods target_total_pages) := by
  have hextend : ∀ state, Maintains (Paging.Fixed P) (kernel_manager.extend_mapping state target_total_pages) := by
    intro state
    refine Maintains.get.bind fun self => (Maintains.okOr _ _).bind fun base =>
      (Maintains.okOr _ _).bind fun available_pages => ?_
    dsimp only
    split
    · exact .constant _
    refine (Maintains.okOr _ _).bind fun growth_start => (Maintains.okOr _ _).bind fun required_frames =>
      (Maintains.constant _).bind fun available_frames => ?_
    split
    · exact .constant _
    exact (map_growth_fixed _ _ _).bind fun _ => .pure _
  refine Maintains.get.bind fun self => ?_
  split
  · exact .constant _
  have hzoomed : Maintains (fun self : KernelAllocator Unit Paging => Fixed P self.manager.manager)
      (KernelAllocator.on_manager (kernel_manager.extend_mapping self.state target_total_pages)) :=
    fun allocator hfixed => hextend self.state allocator.manager hfixed
  refine (Maintains.attempt hzoomed).bind fun result => ?_
  split
  · exact fun _ hfixed => hfixed
  · exact Maintains.bind (fun _ hfixed => hfixed) fun _ => .constant _
  · exact .constant _

theorem grow_fixed (target_total_pages : Nat) :
    Maintains (Paging.Fixed P) (heap.grow target_total_pages) :=
  fun paging hfixed => allocator_grow_fixed _ target_total_pages ⟨(), paging.heap, paging⟩ hfixed

theorem initialize_heap_fixed : Maintains (Paging.Fixed P) initialize_heap := by
  intro paging hfixed
  suffices h : Maintains (fun self : KernelAllocator Unit Paging => Fixed P self.manager.manager)
      (KernelAllocator.initialize_heap kernel_manager _) from h ⟨(), paging.heap, paging⟩ hfixed
  refine Maintains.get.bind fun self => ?_
  split
  · exact .constant _
  split
  · exact .constant _
  exact (allocator_grow_fixed _ _).bind fun _ => fun _ hfixed => hfixed

/-- Here the kernel looks at the user slot again. -/
theorem Paging.create_address_space_fixed (hflag : ∀ offset unused other, P offset unused → P offset other) :
    Maintains (Paging.Fixed P) Paging.create_address_space := by
  unfold Paging.create_address_space
  refine Maintains.bind (fun _ hfixed => hflag _ _ _ hfixed) fun _ => Maintains.bind
    (fun paging hfixed => MemoryManager.create_address_space_fixed paging.manager hfixed) fun space => ?_
  split
  · exact Maintains.bind (fun _ hfixed => hfixed) fun _ => .pure _
  · exact Maintains.bind (fun _ hfixed => hfixed) fun _ => Maintains.bind (fun _ hfixed => hfixed) fun _ => .pure _

theorem returned_fixed {ε α : Type} {program : Prog Paging ε α}
    (hprogram : Maintains (Paging.Fixed P) program) (hfixed : Fixed P paging.manager)
    (hcall : returned (program paging) = some after) : Fixed P after.manager := by
  have hafter := hprogram paging hfixed
  generalize program paging = result at hcall hafter
  rcases result with ⟨_ | _ | _, final⟩ <;> cases hcall
  all_goals exact hafter

theorem MemoryCall.perform_fixed (hflag : ∀ offset unused other, P offset unused → P offset other) (call : MemoryCall)
    (hfixed : Fixed P paging.manager) (hcall : call.perform paging = some after) : Fixed P after.manager := by
  have hspace : ∀ call : Call, ((call.perform paging.system).map fun system : System =>
      ({ paging with manager := system.manager, spaces := system.spaces } : Paging)) = some after →
      Fixed P after.manager := by
    intro call hcall
    obtain ⟨system, hsystem, rfl⟩ := Option.map_eq_some_iff.mp hcall
    exact call.perform_fixed hfixed hsystem
  cases call with
  | grow target_total_pages => exact returned_fixed (grow_fixed target_total_pages) hfixed hcall
  | space call =>
    cases call with
    | create_address_space => exact returned_fixed (Paging.create_address_space_fixed hflag) hfixed hcall
    | map_user_page | unmap_user_page | destroy => exact hspace _ hcall

/-- Nothing moves the direct map. -/
theorem perform_memory_calls_offset (calls : List MemoryCall) {final : Paging}
    (hrun : perform_memory_calls calls paging = some final) :
    final.manager.physical_memory_offset = paging.manager.physical_memory_offset := by
  induction calls generalizing paging with
  | nil =>
    cases hrun
    rfl
  | cons call rest ih =>
    obtain ⟨after, hcall, hrest⟩ := Option.bind_eq_some_iff.mp hrun
    have hfixed : after.manager.Fixed fun offset _ => offset = paging.manager.physical_memory_offset :=
      call.perform_fixed (fun _ _ _ hsame => hsame) rfl hcall
    exact (ih hrest).trans hfixed

end Heap

end leafos.memory
