import LeafOS.Memory.Heap
import LeafOS.Memory.SpaceRuns
import LeafOS.Tasking.KernelSteps
import LeafOS.Tasking.PipeEnds
import LeafOS.Tasking.Remapping

namespace leafos.tasking.scheduler

open leafos.memory leafos.arch.user leafos.tasking.fd Prog

section Tables

variable {M : Type} {error : SchedulerError} {fd_mappings : List FdMapping} {fd_closes : List Nat}
  {kernel after : Kernel M}

/-- When the child's table fails, every pipe is as it was. -/
theorem child_table_err {parent : Option TaskId}
    (hchild : child_table parent fd_mappings fd_closes kernel = (.err error, after)) :
    after.objects.pipes = kernel.objects.pipes := by
  have hbalanced := fun pipe => rearrange_descriptors_balanced fd_mappings fd_closes _
    (inherited_table_balanced parent kernel pipe)
  simp only [child_table, bind_apply, get_apply] at hchild
  generalize rearrange_descriptors fd_mappings fd_closes (inherited_table parent kernel) = result at hbalanced hchild
  rcases result with ⟨_ | found | _, fds, objects⟩
  · cases (Prod.mk.inj hchild).1
  · obtain ⟨_, rfl⟩ := Prod.mk.inj hchild
    exact List.ext_getElem? fun pipe => (hbalanced pipe).drop_table
  · cases (Prod.mk.inj hchild).1

/-- A mapping has a target beyond the table, or a source that is empty when its turn comes: it is empty in the
inherited table, and no mapping before has filled it. -/
def BadMapping (fds : FdTable) (fd_mappings : List FdMapping) : Prop :=
  ∃ earlier mapping later, fd_mappings = earlier ++ mapping :: later ∧
    (MAX_FDS ≤ mapping.target ∨
      descriptor_at fds mapping.source = none ∧ mapping.source ∉ earlier.map FdMapping.target)

/-- The mappings or the closings name a descriptor that is not there. -/
def BadDescriptors (fds : FdTable) (fd_mappings : List FdMapping) (fd_closes : List Nat) : Prop :=
  BadMapping fds fd_mappings ∨ ∃ fd_number ∈ fd_closes, MAX_FDS ≤ fd_number

/-- When the first mapping can be made, the others find the table that it leaves. -/
theorem badMapping_cons {fds : FdTable} {mapping : FdMapping} {rest : List FdMapping} (hbound : mapping.target < MAX_FDS)
    (hsource : descriptor_at fds mapping.source ≠ none) (descriptor : FileDescriptor) :
    BadMapping fds (mapping :: rest) ↔
      BadMapping (Function.update fds ⟨mapping.target, hbound⟩ (some descriptor)) rest := by
  constructor
  · rintro ⟨earlier, other, later, hsplit, hbad⟩
    cases earlier with
    | nil =>
      obtain ⟨rfl, rfl⟩ := List.cons.inj hsplit
      obtain hbeyond | ⟨hnone, _⟩ := hbad
      · exact absurd hbound (Nat.not_lt.mpr hbeyond)
      · exact absurd hnone hsource
    | cons first earlier =>
      obtain ⟨rfl, rfl⟩ := List.cons.inj hsplit
      refine ⟨earlier, other, later, rfl, hbad.imp_right fun ⟨hnone, hnot⟩ => ?_⟩
      rw [List.map_cons, List.mem_cons, not_or] at hnot
      rw [descriptor_at_update, if_neg hnot.1]
      exact ⟨hnone, hnot.2⟩
  · rintro ⟨earlier, other, later, rfl, hbad⟩
    refine ⟨mapping :: earlier, other, later, rfl, hbad.imp_right fun ⟨hnone, hnot⟩ => ?_⟩
    rw [descriptor_at_update] at hnone
    rw [List.map_cons, List.mem_cons, not_or]
    by_cases hsame : other.source = mapping.target
    · rw [if_pos hsame] at hnone
      cases hnone
    · rw [if_neg hsame] at hnone
      exact ⟨hnone, hsame, hnot⟩

theorem map_descriptors_err_iff (fd_mappings : List FdMapping) (state : FdTable × Objects) :
    (map_descriptors fd_mappings state).1 = .err .InvalidFd ↔ BadMapping state.1 fd_mappings := by
  induction fd_mappings generalizing state with
  | nil =>
    refine ⟨nofun, ?_⟩
    rintro ⟨earlier, mapping, later, hsplit, _⟩
    simp at hsplit
  | cons mapping rest ih =>
    have hfirst : (MAX_FDS ≤ mapping.target ∨ descriptor_at state.1 mapping.source = none) →
        BadMapping state.1 (mapping :: rest) := fun hbad =>
      ⟨[], mapping, rest, rfl, hbad.imp_right fun hnone => ⟨hnone, List.not_mem_nil⟩⟩
    unfold map_descriptors
    split
    · rename_i bounds
      simp only [bind_apply, get_apply]
      have hat : descriptor_at state.1 mapping.source = state.1 ⟨mapping.source, bounds.1⟩ := descriptor_at_lt bounds.1
      cases hsource : state.1 ⟨mapping.source, bounds.1⟩ with
      | none => exact iff_of_true rfl (hfirst (.inr (hat.trans hsource)))
      | some descriptor =>
        have hthere : descriptor_at state.1 mapping.source ≠ none := by
          rw [hat, hsource]
          exact Option.some_ne_none _
        rw [badMapping_cons bounds.2 hthere descriptor]
        exact ih _
    · rename_i bounds
      refine iff_of_true rfl (hfirst ?_)
      by_cases htarget : mapping.target < MAX_FDS
      · exact .inr (dif_neg fun hsource => bounds ⟨hsource, htarget⟩)
      · exact .inl (Nat.not_lt.mp htarget)

theorem close_requested_err_iff (fd_closes : List Nat) (state : FdTable × Objects) :
    (close_requested fd_closes state).1 = .err .InvalidFd ↔ ∃ fd_number ∈ fd_closes, MAX_FDS ≤ fd_number := by
  induction fd_closes generalizing state with
  | nil => simp [close_requested]
  | cons fd_number rest ih =>
    rw [List.exists_mem_cons_iff]
    unfold close_requested
    split
    · rename_i hbound
      rw [or_iff_right (Nat.not_le.mpr hbound)]
      exact ih _
    · rename_i hbound
      exact iff_of_true rfl (.inl (Nat.not_lt.mp hbound))

/-- The child's table cannot be built if and only if a descriptor is bad. -/
theorem child_table_err_iff (parent : Option TaskId) (fd_mappings : List FdMapping) (fd_closes : List Nat)
    (kernel : Kernel M) :
    (∃ objects, child_table parent fd_mappings fd_closes kernel = (.err .InvalidFd, { kernel with objects })) ↔
      BadDescriptors (inherited_table parent kernel).1 fd_mappings fd_closes := by
  have herr : (rearrange_descriptors fd_mappings fd_closes (inherited_table parent kernel)).1 = .err .InvalidFd ↔
      BadDescriptors (inherited_table parent kernel).1 fd_mappings fd_closes := by
    rw [BadDescriptors, ← map_descriptors_err_iff]
    have hmap := map_descriptors_outcome fd_mappings (inherited_table parent kernel)
    simp only [rearrange_descriptors, bind_apply]
    generalize map_descriptors fd_mappings (inherited_table parent kernel) = result at hmap
    obtain ⟨outcome, middle⟩ := result
    obtain rfl | ⟨rfl, hbounds⟩ := hmap
    · exact iff_of_true rfl (.inl rfl)
    · have hsources := close_sources_outcome hbounds middle
      dsimp only
      generalize close_sources fd_mappings middle = result at hsources
      obtain ⟨outcome, last⟩ := result
      obtain rfl : outcome = .ok () := hsources
      rw [← close_requested_err_iff fd_closes last]
      exact (or_iff_right (by simp)).symm
  rw [← herr]
  simp only [child_table, bind_apply, get_apply]
  generalize rearrange_descriptors fd_mappings fd_closes (inherited_table parent kernel) = result
  rcases result with ⟨_ | error | _, fds, objects⟩
  · exact iff_of_false (by simp) (by simp)
  · constructor
    · rintro ⟨_, hcall⟩
      obtain rfl := Outcome.err.inj (Prod.mk.inj hcall).1
      rfl
    · intro herror
      obtain rfl := Outcome.err.inj herror
      exact ⟨drop_table fds objects, rfl⟩
  · exact iff_of_false (by simp) (by simp)

/-- The spawn of a program takes its address space over and then finds a bad descriptor: the context, the slot,
the number and the kernel stack of the task are there. -/
structure LosesSpace (space : AddressSpace) (entry stack argument_count argument_vector : Nat)
    (kernel_stack : KernelStack) (fd_mappings : List FdMapping) (fd_closes : List Nat)
    (kernel : Kernel M) : Prop where
  live : ∃ root, space.root = some root
  context : ∃ context, UserContext.for_address_space_with_arguments space entry stack argument_count argument_vector =
    .ok context
  idle : kernel.global_scheduler.keeps_idle_slot = false
  slot : ∃ slot, kernel.global_scheduler.tasks slot = none
  number : kernel.global_scheduler.next_id + 1 < 2 ^ 64
  kernel_stack : ∃ context stack_top, kernel_stack = .ok (context, stack_top)
  descriptors : BadDescriptors (inherited_table kernel.global_scheduler.current_task kernel).1 fd_mappings fd_closes

section Spawning

variable {destroy : Destroy M} {space : AddressSpace} {entry stack argument_count argument_vector : Nat}
  {kernel_stack : KernelStack}

variable (destroy) in
/-- A spawn that loses the address space has not touched the memory. -/
theorem LosesSpace.spawn
    (hloses : LosesSpace space entry stack argument_count argument_vector kernel_stack fd_mappings fd_closes kernel) :
    ∃ objects, spawn_user_with_arguments_and_fds destroy space entry stack argument_count argument_vector kernel_stack
      fd_mappings fd_closes kernel = (.err .InvalidFd, { kernel with objects }) := by
  obtain ⟨context, hcontext⟩ := hloses.context
  obtain ⟨cpu_context, stack_top, rfl⟩ := hloses.kernel_stack
  obtain ⟨objects, htable⟩ := (child_table_err_iff _ fd_mappings fd_closes kernel).mpr hloses.descriptors
  obtain ⟨hrefused, _⟩ | ⟨_, ⟨left, _, hcall⟩ | ⟨_, _, _, _, _, _, _, _, _, _, _, hbuilt, _⟩⟩ := create_user_task_cases
    kernel.global_scheduler.current_task (.ok (cpu_context, stack_top)) fd_mappings fd_closes (some space) kernel
  · exact absurd (Kernel.admits hloses.slot hloses.number cpu_context stack_top space) hrefused
  · exact ⟨left, by simp [spawn_user_with_arguments_and_fds, zoom, hcontext, attempt, hloses.idle, hcall,
      destroy_unspawned_address_space]⟩
  · cases htable.symm.trans hbuilt

/-- A spawn that fails leaves the scheduler and the pipes alone. It has destroyed the address space,
unless that failed, or it had taken the space over when it found a bad descriptor. -/
theorem spawn_user_err
    (hspawn : spawn_user_with_arguments_and_fds destroy space entry stack argument_count argument_vector kernel_stack
      fd_mappings fd_closes kernel = (.err error, after)) :
    after.global_scheduler = kernel.global_scheduler ∧ after.objects.pipes = kernel.objects.pipes ∧
      (error = .AddressSpaceCleanup ∨
        after.memory = kernel.memory ∧ (space.root = none ∨
          LosesSpace space entry stack argument_count argument_vector kernel_stack fd_mappings fd_closes kernel) ∨
        ∃ rest, destroy kernel.cpu.cr3 (space, kernel.memory) = (.ok (), (rest, after.memory))) := by
  obtain ⟨hidle, hcontext, outcome, last, hcreate, heq⟩ | ⟨_, heq, hcause⟩ := spawn_user_apply destroy space
    entry stack argument_count argument_vector kernel_stack fd_mappings fd_closes kernel
  · cases heq.symm.trans hspawn
    obtain ⟨_, _, hcall⟩ | ⟨hadmits, ⟨objects, htable, hcall⟩ | ⟨_, _, _, _, _, _, _, _, _, _, _, _, hcall⟩⟩ :=
      create_user_task_cases kernel.global_scheduler.current_task kernel_stack fd_mappings fd_closes (some space) kernel
    · cases hcreate.symm.trans hcall
    · cases hcreate.symm.trans hcall
      refine ⟨rfl, child_table_err htable, .inr (.inl ⟨rfl, ?_⟩)⟩
      obtain ⟨hslot, hnumber, hstack, _⟩ := hadmits
      obtain ⟨slot, hslot⟩ := Option.isSome_iff_exists.mp hslot
      obtain ⟨_, hnumber⟩ := Option.isSome_iff_exists.mp hnumber
      cases hroot : space.root with
      | none => exact .inl rfl
      | some root =>
        refine .inr ⟨⟨root, hroot⟩, hcontext, hidle, ⟨slot, Scheduler.position_isNone hslot⟩,
          (Option.ite_none_right_eq_some.mp hnumber).1, ?_,
          (child_table_err_iff _ fd_mappings fd_closes kernel).mp ⟨objects, htable⟩⟩
        cases kernel_stack with
        | error error => cases hstack
        | ok found => exact ⟨found.1, found.2, rfl⟩
    · cases hcreate.symm.trans hcall
  · rw [hspawn] at heq hcause
    obtain rfl : after = _ := heq
    refine ⟨rfl, rfl, (hcause error rfl).imp_right fun hok => .inr ?_⟩
    exact ⟨_, Prod.ext hok rfl⟩

end Spawning

end Tables

section Frames

variable {manager : MemoryManager} {space : AddressSpace} {rest : List AddressSpace} {boot : BootInfoFrameAllocator}
  {pool : FramePool} {account : List PhysFrame} (hinv : (System.mk manager (space :: rest)).Inv boot pool account)
include hinv

/-- A space without a root has nothing to give back. -/
theorem inv_of_no_root (hroot : space.root = none) :
    (System.mk manager rest).Inv boot pool account ∧ pool.free.Perm (pool.free ++ space.frames manager) := by
  have hframes : space.frames manager = [] := by simp [AddressSpace.frames, hroot]
  refine ⟨⟨hinv.refines, fun other hother => hinv.mirrors other (List.mem_cons_of_mem _ hother),
    fun other hother => hinv.addressable other (List.mem_cons_of_mem _ hother), ?_⟩, ?_⟩
  · have hbalance := hinv.balance
    rwa [System.in_use, List.flatMap_cons, hframes, List.nil_append] at hbalance
  · rw [hframes, List.append_nil]

/-- While the manager is as it was, the frames of a space are not free. -/
theorem not_returned {root : PhysFrame} (hroot : space.root = some root) {pool' : FramePool}
    (hafter : (System.mk manager rest).Inv boot pool' account) :
    ¬ pool'.free.Perm (pool.free ++ space.frames manager) := by
  intro hperm
  have hsame : pool'.free = pool.free :=
    hafter.refines.free_frames.symm.trans hinv.refines.free_frames
  have hlength := hperm.length_eq
  have hpositive := List.length_pos_of_mem (root_mem_frames hroot manager)
  rw [hsame, List.length_append] at hlength
  omega

end Frames

/-- A failed spawn leaves nothing behind, unless it finds a bad descriptor after it has taken the address space over: in
every other case, and in no such case, every frame of the address space is free again. The scheduler and the pipes are
as they were in any case. -/
theorem failed_spawn_leaves_nothing (space : AddressSpace) (entry stack argument_count argument_vector : Nat)
    (kernel_stack : KernelStack) (fd_mappings : List FdMapping) (fd_closes : List Nat)
    (kernel after : Kernel MemoryManager) (error : SchedulerError) (rest : List AddressSpace)
    (boot : BootInfoFrameAllocator) (pool : FramePool) (account : List PhysFrame)
    (hbooks : (System.mk kernel.memory (space :: rest)).Inv boot pool account) (hnodup : account.Nodup)
    (hspawn : spawn_user_with_arguments_and_fds AddressSpace.destroy space entry stack argument_count argument_vector
      kernel_stack fd_mappings fd_closes kernel = (.err error, after))
    (hdestroyed : error ≠ .AddressSpaceCleanup) :
    ((∃ pool', (System.mk after.memory rest).Inv boot pool' account ∧
        pool'.free.Perm (pool.free ++ space.frames kernel.memory)) ↔
      ¬ LosesSpace space entry stack argument_count argument_vector kernel_stack fd_mappings fd_closes kernel) ∧
    after.global_scheduler.tasks = kernel.global_scheduler.tasks ∧
    after.global_scheduler.next_id = kernel.global_scheduler.next_id ∧ after.objects.pipes = kernel.objects.pipes := by
  obtain ⟨hscheduler, hpipes, hcause⟩ := spawn_user_err hspawn
  refine ⟨⟨?_, fun hkeeps => ?_⟩, by rw [hscheduler], by rw [hscheduler], hpipes⟩
  · rintro ⟨pool', hafter, hperm⟩ hloses
    obtain ⟨objects, hcall⟩ := hloses.spawn AddressSpace.destroy
    obtain ⟨root, hroot⟩ := hloses.live
    cases hspawn.symm.trans hcall
    exact not_returned hbooks hroot hafter hperm
  · obtain hfailed | ⟨hmemory, hroot | hloses⟩ | ⟨left, hdestroy⟩ := hcause
    · exact absurd hfailed hdestroyed
    · rw [hmemory]
      exact ⟨pool, inv_of_no_root hbooks hroot⟩
    · exact absurd hloses hkeeps
    · exact hbooks.destroyed hnodup hdestroy

/-- A program of one page with a stack of one page over the sample map. -/
def sample_program : List Call :=
  [.create_address_space, .map_user_page 0 (255 * 512 ^ 3) .ReadExecute true,
    .map_user_page 0 (255 * 512 ^ 3 + 1) .ReadWrite true]

def sample_unlaunched : System := ⟨sample_manager, []⟩

/-- A kernel without tasks that is about to spawn it. -/
def sample_spawner (memory : MemoryManager) : Kernel MemoryManager where
  global_scheduler := .new
  objects := ⟨[], [], [], .empty⟩
  memory := memory
  cpu := ⟨0x102000, 0, 0⟩
  kernel_root := 0x102000

/-- Spawn the program of a system, at an entry. -/
def spawn_sample_program (system : System) (entry : Nat) (fd_closes : List Nat) :
    Option (Outcome SchedulerError TaskId × Kernel MemoryManager) :=
  system.spaces.head?.map fun space => spawn_user_with_arguments_and_fds AddressSpace.destroy space entry
    ((255 * 512 ^ 3 + 2) * PAGE_SIZE - 16) 0 0 (.ok (.empty, 0)) [] fd_closes (sample_spawner system.manager)

/-- How many frames are free. -/
def sample_free_frames (memory : MemoryManager) : Outcome Empty Nat := memory.frame_allocator.available_frame_count

/-- A spawn fails since the entry is not in the program. -/
theorem failed_spawn_leaves_nothing_entry :
    ∃ system space after, leafos.memory.perform_all sample_program sample_unlaunched = some system ∧
      system.spaces = [space] ∧ spawn_sample_program system 0 [] = some (.err (.InvalidUserContext .InvalidEntry), after) ∧
      ∃ pool, (System.mk after.memory []).Inv sample_allocator pool sample_allocator.unvisited := by
  have hrun : ((leafos.memory.perform_all sample_program sample_unlaunched).map fun system =>
      (system.spaces.length, (spawn_sample_program system 0 []).map Prod.fst)) =
      some (1, some (.err (.InvalidUserContext .InvalidEntry))) := by decide +kernel
  obtain ⟨system, hsystem, hstate⟩ := Option.map_eq_some_iff.mp hrun
  obtain ⟨hlength, houtcome⟩ := Prod.mk.inj hstate
  obtain ⟨space, hspaces⟩ := List.length_eq_one_iff.mp hlength
  obtain ⟨⟨outcome, after⟩, hspawn, rfl⟩ := Option.map_eq_some_iff.mp houtcome
  have hlimit : physical_address_limit (some 32) = .ok (2 ^ 32) := rfl
  obtain ⟨hnodup, hstart⟩ := System.booted offset_page_table 0 true (fun _ => .new) hlimit sample_new
  obtain ⟨final, pool, hfinal, hinv⟩ := leafos.memory.perform_all_inv sample_program hstart hnodup
  obtain rfl := Option.mem_unique hsystem hfinal
  refine ⟨system, space, after, hsystem, hspaces, hspawn, ?_⟩
  rw [spawn_sample_program, hspaces] at hspawn
  have hbooks : (System.mk (sample_spawner system.manager).memory (space :: [])).Inv sample_allocator pool
      sample_allocator.unvisited := by
    rw [← hspaces]
    exact hinv
  have hkept := (failed_spawn_leaves_nothing space _ _ _ _ _ _ _ (sample_spawner system.manager) after _ [] _ pool _
    hbooks hnodup (Option.some.inj hspawn) nofun).1
  obtain ⟨pool', hafter, _⟩ := hkept.mpr fun hloses => by
    -- The entry is not in the program, so that the spawn does not take the space over.
    obtain ⟨context, hcontext⟩ := hloses.context
    cases hcontext
  exact ⟨pool', hafter⟩

/-- A spawn fails since it is to close a descriptor that does not exist. The six frames of the program
stay taken, and nothing refers to them any more. -/
theorem bad_descriptor_leaks_program :
    sample_free_frames sample_unlaunched.manager = .ok 512 ∧
      ((leafos.memory.perform_all sample_program sample_unlaunched).map fun system =>
        (sample_free_frames system.manager, (spawn_sample_program system (255 * 512 ^ 3 * PAGE_SIZE) [16]).map fun result =>
          (result.1, sample_free_frames result.2.memory))) =
        some (.ok 506, some (.err .InvalidFd, .ok 506)) := by
  refine ⟨?_, ?_⟩
  · decide +kernel
  · decide +kernel

end leafos.tasking.scheduler
