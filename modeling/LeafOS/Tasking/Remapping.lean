import LeafOS.Tasking.KernelSteps
import Mathlib.Data.List.Pairwise

namespace leafos.tasking.scheduler

open leafos.memory leafos.tasking.fd Prog

variable {fd_closes : List Nat}

/-- Mappings that do not get in each other's way: no two have one target, and none takes what
another one has put there. -/
structure Apart (fd_mappings : List FdMapping) : Prop where
  bounds : ∀ mapping ∈ fd_mappings, mapping.source < MAX_FDS ∧ mapping.target < MAX_FDS
  targets : fd_mappings.Pairwise fun mapping other => mapping.target ≠ other.target
  sources : fd_mappings.Pairwise fun mapping other => mapping.source ≠ other.target ∧ other.source ≠ mapping.target

/-- The table that a child is meant to get from its parent's. -/
structure Remapped (fd_mappings : List FdMapping) (fd_closes : List Nat) (before after : FdTable) : Prop where
  targets : ∀ mapping ∈ fd_mappings, descriptor_at after mapping.target = descriptor_at before mapping.source
  sources : ∀ mapping ∈ fd_mappings, mapping.source ≠ mapping.target → descriptor_at after mapping.source = none
  closed : ∀ fd_number ∈ fd_closes, descriptor_at after fd_number = none
  others : ∀ fd_number, (∀ mapping ∈ fd_mappings, mapping.target ≠ fd_number ∧
    (mapping.source ≠ mapping.target → mapping.source ≠ fd_number)) → fd_number ∉ fd_closes →
    descriptor_at after fd_number = descriptor_at before fd_number

section Loops

variable {fds : FdTable} {fd_mappings : List FdMapping} {fd_number : Nat} (numbers : List Nat)

theorem descriptor_at_lt (hbound : fd_number < MAX_FDS) :
    descriptor_at fds fd_number = fds ⟨fd_number, hbound⟩ := dif_pos hbound

theorem descriptor_at_update (fds : FdTable) (index : Fin MAX_FDS) (slot : Option FileDescriptor) (fd_number : Nat) :
    descriptor_at (Function.update fds index slot) fd_number =
      if fd_number = index.val then slot else descriptor_at fds fd_number := by
  by_cases hbound : fd_number < MAX_FDS
  · rw [descriptor_at_lt hbound, descriptor_at_lt hbound, Function.update_apply]
    simp only [Fin.ext_iff]
  · have hne : fd_number ≠ index.val := fun hsame => hbound (hsame ▸ index.isLt)
    rw [if_neg hne, descriptor_at, descriptor_at, dif_neg hbound, dif_neg hbound]

/-- The first loop puts every source at its target. -/
theorem map_descriptors_table (hapart : Apart fd_mappings)
    (hvalid : ∀ mapping ∈ fd_mappings, (descriptor_at fds mapping.source).isSome) (objects : Objects) :
    ∃ mapped after, map_descriptors fd_mappings (fds, objects) = (.ok (), (mapped, after)) ∧
      (∀ mapping ∈ fd_mappings, descriptor_at mapped mapping.target = descriptor_at fds mapping.source) ∧
      ∀ fd_number, (∀ mapping ∈ fd_mappings, mapping.target ≠ fd_number) →
        descriptor_at mapped fd_number = descriptor_at fds fd_number := by
  induction fd_mappings generalizing fds objects with
  | nil => exact ⟨fds, objects, rfl, nofun, fun _ _ => rfl⟩
  | cons mapping rest ih =>
    obtain ⟨hbounds, hbounds'⟩ := List.forall_mem_cons.mp hapart.bounds
    obtain ⟨htargets, htargets'⟩ := List.pairwise_cons.mp hapart.targets
    obtain ⟨hsources, hsources'⟩ := List.pairwise_cons.mp hapart.sources
    obtain ⟨hfirst, hvalid'⟩ := List.forall_mem_cons.mp hvalid
    obtain ⟨descriptor, hdescriptor⟩ := Option.isSome_iff_exists.mp hfirst
    have hsource : fds ⟨mapping.source, hbounds.1⟩ = some descriptor := by
      rw [← hdescriptor, descriptor_at_lt hbounds.1]
    have hupdated := descriptor_at_update fds ⟨mapping.target, hbounds.2⟩ (some descriptor)
    -- What the other mappings take is not what this one has put there.
    have hkept : ∀ other ∈ rest,
        descriptor_at (Function.update fds ⟨mapping.target, hbounds.2⟩ (some descriptor)) other.source =
          descriptor_at fds other.source := fun other hother => by
      rw [hupdated, if_neg (hsources other hother).2]
    obtain ⟨mapped, after, hloop, hrest, hothers⟩ := ih ⟨hbounds', htargets', hsources'⟩
      (fun other hother => by rw [hkept other hother]; exact hvalid' other hother)
      (close_slot (fds ⟨mapping.target, hbounds.2⟩) (descriptor.clone objects))
    refine ⟨mapped, after, ?_, List.forall_mem_cons.mpr ⟨?_, fun other hother => ?_⟩, fun fd_number hnot => ?_⟩
    · simp [map_descriptors, hbounds, hsource, hloop]
    · rw [hothers mapping.target fun other hother => (htargets other hother).symm, hupdated, if_pos rfl, hdescriptor]
    · rw [hrest other hother, hkept other hother]
    · obtain ⟨hne, hnot⟩ := List.forall_mem_cons.mp hnot
      rw [hothers fd_number hnot, hupdated, if_neg hne.symm]

/-- The table with the given slots empty. -/
def cleared (numbers : List Nat) (fds : FdTable) : FdTable := fun index => if index.val ∈ numbers then none else fds index

theorem cleared_update (fds : FdTable) (index : Fin MAX_FDS) :
    cleared numbers (Function.update fds index none) = cleared (index.val :: numbers) fds := by
  funext other
  simp only [cleared, Function.update_apply, List.mem_cons, Fin.ext_iff]
  by_cases hsame : other.val = index.val
  · simp only [hsame, if_true, true_or, ite_self]
  · simp only [hsame, if_false, false_or]

theorem descriptor_at_cleared (fds : FdTable) (fd_number : Nat) :
    descriptor_at (cleared numbers fds) fd_number = if fd_number ∈ numbers then none else descriptor_at fds fd_number := by
  by_cases hbound : fd_number < MAX_FDS
  · rw [descriptor_at_lt hbound, descriptor_at_lt hbound, cleared]
  · rw [descriptor_at, descriptor_at, dif_neg hbound, dif_neg hbound, ite_self]

/-- The sources of the descriptors that move. -/
def moved_sources (fd_mappings : List FdMapping) : List Nat :=
  (fd_mappings.filter fun mapping => mapping.source ≠ mapping.target).map FdMapping.source

/-- The second loop empties the sources. -/
theorem close_sources_table (hbounds : ∀ mapping ∈ fd_mappings, mapping.source < MAX_FDS) (fds : FdTable)
    (objects : Objects) :
    ∃ after, close_sources fd_mappings (fds, objects) = (.ok (), (cleared (moved_sources fd_mappings) fds, after)) := by
  induction fd_mappings generalizing fds objects with
  | nil => exact ⟨objects, rfl⟩
  | cons mapping rest ih =>
    obtain ⟨hbound, hrest⟩ := List.forall_mem_cons.mp hbounds
    by_cases hmoves : mapping.source ≠ mapping.target
    · obtain ⟨after, hloop⟩ := ih hrest (Function.update fds ⟨mapping.source, hbound⟩ none)
        (close_slot (fds ⟨mapping.source, hbound⟩) objects)
      refine ⟨after, ?_⟩
      rw [cleared_update] at hloop
      simp only [close_sources, if_pos hmoves, dif_pos hbound, moved_sources, List.filter_cons, decide_eq_true hmoves,
        if_true, List.map_cons]
      exact hloop
    · obtain ⟨after, hloop⟩ := ih hrest fds objects
      refine ⟨after, ?_⟩
      simp only [close_sources, if_neg hmoves, moved_sources, List.filter_cons, decide_eq_false hmoves]
      exact hloop

/-- The third loop empties the slots that it is given, unless one of them is out of range. -/
theorem close_requested_table (fd_closes : List Nat) (fds : FdTable) (objects : Objects) :
    (∃ after, close_requested fd_closes (fds, objects) = (.ok (), (cleared fd_closes fds, after))) ∨
      (∃ fd_number ∈ fd_closes, MAX_FDS ≤ fd_number) ∧
        ∃ after, close_requested fd_closes (fds, objects) = (.err .InvalidFd, after) := by
  induction fd_closes generalizing fds objects with
  | nil => exact .inl ⟨objects, rfl⟩
  | cons fd_number rest ih =>
    by_cases hbound : fd_number < MAX_FDS
    · have hstep : close_requested (fd_number :: rest) (fds, objects) = close_requested rest
          (Function.update fds ⟨fd_number, hbound⟩ none, close_slot (fds ⟨fd_number, hbound⟩) objects) := by
        rw [close_requested, dif_pos hbound]
        rfl
      rw [hstep]
      obtain ⟨after, hloop⟩ | ⟨⟨other, hother, hbeyond⟩, hfailed⟩ :=
        ih (Function.update fds ⟨fd_number, hbound⟩ none) (close_slot (fds ⟨fd_number, hbound⟩) objects)
      · rw [cleared_update] at hloop
        exact .inl ⟨after, hloop⟩
      · exact .inr ⟨⟨other, List.mem_cons_of_mem _ hother, hbeyond⟩, hfailed⟩
    · refine .inr ⟨⟨fd_number, List.mem_cons_self, Nat.not_lt.mp hbound⟩, (fds, objects), ?_⟩
      rw [close_requested, dif_neg hbound]
      rfl

theorem mem_moved_sources : fd_number ∈ moved_sources fd_mappings ↔
    ∃ mapping ∈ fd_mappings, mapping.source ≠ mapping.target ∧ mapping.source = fd_number := by
  simp only [moved_sources, List.mem_map, List.mem_filter, decide_eq_true_eq, and_assoc]

/-- A source that moves is not the target of any mapping. -/
theorem Apart.target_not_moved (hapart : Apart fd_mappings) {mapping : FdMapping} (hmapping : mapping ∈ fd_mappings) :
    mapping.target ∉ moved_sources fd_mappings := by
  intro hmem
  obtain ⟨other, hother, hmoves, hsame⟩ := mem_moved_sources.mp hmem
  have hsymmetric : Std.Symm fun mapping other : FdMapping =>
      mapping.source ≠ other.target ∧ other.source ≠ mapping.target := ⟨fun _ _ hpair => hpair.symm⟩
  have hne : other ≠ mapping := by
    rintro rfl
    exact hmoves hsame
  exact (hapart.sources.forall hother hmapping hne).1 hsame

/-- The three loops together. -/
theorem rearrange_descriptors_table (hapart : Apart fd_mappings)
    (hvalid : ∀ mapping ∈ fd_mappings, (descriptor_at fds mapping.source).isSome)
    (hcloses : ∀ fd_number ∈ fd_closes, ∀ mapping ∈ fd_mappings, mapping.target ≠ fd_number) (objects : Objects) :
    (∃ child after, rearrange_descriptors fd_mappings fd_closes (fds, objects) = (.ok (), (child, after)) ∧
        Remapped fd_mappings fd_closes fds child) ∨
      (∃ fd_number ∈ fd_closes, MAX_FDS ≤ fd_number) ∧
        ∃ after, rearrange_descriptors fd_mappings fd_closes (fds, objects) = (.err .InvalidFd, after) := by
  obtain ⟨mapped, between, hmap, htargets, hothers⟩ := map_descriptors_table hapart hvalid objects
  obtain ⟨between', hsources⟩ := close_sources_table (fun mapping hmapping => (hapart.bounds mapping hmapping).1) mapped
    between
  obtain ⟨after, hrequested⟩ | ⟨hbeyond, after, hrequested⟩ :=
    close_requested_table fd_closes (cleared (moved_sources fd_mappings) mapped) between'
  · refine .inl ⟨cleared fd_closes (cleared (moved_sources fd_mappings) mapped), after, ?_, ?_⟩
    · simp only [rearrange_descriptors, bind_apply, hmap, hsources, hrequested]
    · constructor
      · intro mapping hmapping
        rw [descriptor_at_cleared, if_neg fun hclosed => hcloses _ hclosed mapping hmapping rfl, descriptor_at_cleared,
          if_neg (hapart.target_not_moved hmapping), htargets mapping hmapping]
      · intro mapping hmapping hmoves
        rw [descriptor_at_cleared, descriptor_at_cleared, if_pos (mem_moved_sources.mpr ⟨mapping, hmapping, hmoves, rfl⟩),
          ite_self]
      · intro fd_number hclosed
        rw [descriptor_at_cleared, if_pos hclosed]
      · intro fd_number haside hopen
        have hstays : fd_number ∉ moved_sources fd_mappings := by
          intro hmem
          obtain ⟨mapping, hmapping, hmoves, hsame⟩ := mem_moved_sources.mp hmem
          exact (haside mapping hmapping).2 hmoves hsame
        rw [descriptor_at_cleared, if_neg hopen, descriptor_at_cleared, if_neg hstays,
          hothers fd_number fun mapping hmapping => (haside mapping hmapping).1]
  · refine .inr ⟨hbeyond, after, ?_⟩
    simp only [rearrange_descriptors, bind_apply, hmap, hsources, hrequested]

end Loops

theorem Scheduler.position_of_free {self : Scheduler} (hfree : ∃ slot, self.tasks slot = none) :
    ∃ slot, self.position Option.isNone = some slot := by
  obtain ⟨slot, hslot⟩ := hfree
  refine Option.isSome_iff_exists.mp (List.find?_isSome.mpr ⟨slot, List.mem_finRange slot, ?_⟩)
  rw [hslot]
  rfl

section Room

variable {M : Type} {kernel : Kernel M} (hfree : ∃ slot, kernel.global_scheduler.tasks slot = none)
  (hid : kernel.global_scheduler.next_id + 1 < 2 ^ 64) (context : CpuContext) (stack_top : Nat) (space : AddressSpace)
include hfree hid

theorem Kernel.admits : kernel.Admits (.ok (context, stack_top)) (some space) := by
  obtain ⟨slot, hslot⟩ := Scheduler.position_of_free hfree
  exact ⟨by rw [hslot]; rfl, by rw [checked_add_u64, if_pos hid]; rfl, rfl, rfl⟩

/-- With everything else at hand `create_user_task` succeeds when it can build the child's table. -/
theorem create_user_task_ok {parent : Option TaskId} {fd_mappings : List FdMapping} {after : Kernel M} {fds : FdTable}
    (htable : child_table parent fd_mappings fd_closes kernel = (.ok fds, after)) :
    ∃ final, create_user_task parent (.ok (context, stack_top)) fd_mappings fd_closes (some space, kernel) =
      (.ok kernel.global_scheduler.next_id, (none, final)) := by
  obtain ⟨hrefused, _⟩ | ⟨_, ⟨_, hfailed, _⟩ | ⟨_, _, _, _, _, _, _, _, _, _, _, _, hcall⟩⟩ :=
    create_user_task_cases parent (.ok (context, stack_top)) fd_mappings fd_closes (some space) kernel
  · exact absurd (Kernel.admits hfree hid context stack_top space) hrefused
  · cases htable.symm.trans hfailed
  · exact ⟨_, hcall⟩

end Room

/-- `create_user_task` gives the child the intended table, and leaves every other task alone, the
parent among them. With room for a task and with all numbers in range it succeeds. -/
theorem create_user_task_remaps {M : Type} (parent : Option TaskId) (stack : KernelStack)
    (fd_mappings : List FdMapping) (fd_closes : List Nat) (address_space : Option AddressSpace) (kernel : Kernel M)
    (hapart : Apart fd_mappings)
    (hvalid : ∀ mapping ∈ fd_mappings, (descriptor_at (inherited_table parent kernel).1 mapping.source).isSome)
    (hcloses : ∀ fd_number ∈ fd_closes, ∀ mapping ∈ fd_mappings, mapping.target ≠ fd_number) :
    (∀ id left after, create_user_task parent stack fd_mappings fd_closes (address_space, kernel) = (.ok id, (left, after)) →
      ∃ slot child, kernel.global_scheduler.tasks slot = none ∧ child.id = id ∧
        after.global_scheduler.tasks = Function.update kernel.global_scheduler.tasks slot (some child) ∧
        Remapped fd_mappings fd_closes (inherited_table parent kernel).1 child.fds) ∧
    ((∃ slot, kernel.global_scheduler.tasks slot = none) → kernel.global_scheduler.next_id + 1 < 2 ^ 64 →
      (∀ fd_number ∈ fd_closes, fd_number < MAX_FDS) → ∀ context stack_top space, ∃ after,
        create_user_task parent (.ok (context, stack_top)) fd_mappings fd_closes (some space, kernel) =
          (.ok kernel.global_scheduler.next_id, (none, after))) := by
  have htable := rearrange_descriptors_table hapart hvalid hcloses (inherited_table parent kernel).2
  constructor
  · intro id left after hcreate
    obtain ⟨_, _, hcall⟩ | ⟨_, ⟨_, _, hcall⟩ | ⟨slot, child, objects, _, _, _, hslot, hid, _, _, _, hchild, hcall⟩⟩ :=
      create_user_task_cases parent stack fd_mappings fd_closes address_space kernel
    · cases hcall.symm.trans hcreate
    · cases hcall.symm.trans hcreate
    · obtain ⟨hsame, hafter⟩ := Prod.mk.inj (hcall.symm.trans hcreate)
      obtain ⟨_, rfl⟩ := Prod.mk.inj hafter
      refine ⟨slot, child, Scheduler.position_isNone hslot, hid.trans (Outcome.ok.inj hsame), rfl, ?_⟩
      obtain ⟨fds, after, hrearranged, hremapped⟩ | ⟨_, after, hrearranged⟩ := htable
      · simp only [child_table, bind_apply, get_apply, hrearranged, set_apply, pure_apply] at hchild
        rw [← Outcome.ok.inj (Prod.mk.inj hchild).1]
        exact hremapped
      · simp only [child_table, bind_apply, get_apply, hrearranged, set_apply, throw_apply] at hchild
        cases (Prod.mk.inj hchild).1
  · intro hfree hid hbounds context stack_top space
    obtain ⟨fds, after, hrearranged, _⟩ | ⟨⟨fd_number, hclosed, hbeyond⟩, _⟩ := htable
    · have hchild : child_table parent fd_mappings fd_closes kernel = (.ok fds, { kernel with objects := after }) := by
        simp only [child_table, bind_apply, get_apply, hrearranged, set_apply, pure_apply]
      exact create_user_task_ok hfree hid context stack_top space hchild
    · exact absurd (hbounds fd_number hclosed) (Nat.not_lt.mpr hbeyond)

/-- A task that holds both ends of a pipe and a file beside its standard descriptors. -/
def sample_parent : Kernel Unit where
  global_scheduler := Scheduler.new.put 0 (some {
    id := 7, parent := none, state := .Running, exit_code := none, context := .empty, entry := none, user := none
    _stack := none, stack_top := none, wake_at := none, is_idle := false
    fds := fun index => if index.val = 3 then some (.PipeRead 0) else if index.val = 4 then some (.PipeWrite 0)
      else if index.val = 5 then some (.FileRead 0) else initial_table index })
  objects := (create_pipe ⟨[], [], [], ByteRing.empty⟩).2
  memory := ()
  cpu := ⟨0, 0, 0⟩
  kernel_root := 0

/-- The left side of a pipeline that reads from a file. -/
theorem create_user_task_remaps_pipeline : ∃ after,
    create_user_task (some 7) (.ok (.empty, 0)) [⟨5, STDIN⟩, ⟨4, STDOUT⟩] [3, 4, 5] (some ⟨some 0, []⟩, sample_parent) =
        (.ok 1, (none, after)) ∧
      ∃ slot child, after.global_scheduler.tasks = Function.update sample_parent.global_scheduler.tasks slot (some child) ∧
        descriptor_at child.fds STDIN = some (.FileRead 0) ∧ descriptor_at child.fds STDOUT = some (.PipeWrite 0) ∧
        ∀ fd_number ∈ [3, 4, 5], descriptor_at child.fds fd_number = none := by
  have hapart : Apart [⟨5, STDIN⟩, ⟨4, STDOUT⟩] := ⟨by decide, by decide, by decide⟩
  obtain ⟨hremaps, hsucceeds⟩ := create_user_task_remaps (some 7) (.ok (.empty, 0)) [⟨5, STDIN⟩, ⟨4, STDOUT⟩] [3, 4, 5]
    (some ⟨some 0, []⟩) sample_parent hapart (by decide) (by decide)
  obtain ⟨after, hcall⟩ := hsucceeds ⟨1, by decide⟩ (by decide) (by decide) .empty 0 ⟨some 0, []⟩
  obtain ⟨slot, child, _, _, htasks, hremapped⟩ := hremaps _ _ _ hcall
  refine ⟨after, hcall, slot, child, htasks, ?_, ?_, hremapped.closed⟩
  · exact hremapped.targets ⟨5, STDIN⟩ List.mem_cons_self
  · exact hremapped.targets ⟨4, STDOUT⟩ (List.mem_cons_of_mem _ List.mem_cons_self)

end leafos.tasking.scheduler
