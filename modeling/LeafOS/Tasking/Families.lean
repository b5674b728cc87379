import LeafOS.Tasking.KernelChanges

namespace leafos.tasking.scheduler

open leafos.memory leafos.tasking.fd Prog
open Scheduler (put_tasks)

variable {M : Type} {elder : TaskId}

/-- A change of the kernel after which every child of `elder` is one of the newborn or was there before,
in the same slot. -/
structure Kernel.Breeds (elder : TaskId) (born : List TaskId) (before after : Kernel M) : Prop where
  inv : ∀ past, before.global_scheduler.Inv past → after.global_scheduler.Inv past
  child : ∀ past, before.global_scheduler.Inv past → ∀ slot task, after.global_scheduler.tasks slot = some task →
    task.parent = some elder → task.id ∈ born ∨ ∃ earlier,
      before.global_scheduler.tasks slot = some earlier ∧ earlier.id = task.id ∧ earlier.parent = some elder

/-- No child of `elder` is born. -/
abbrev Kernel.Barren (elder : TaskId) : Kernel M → Kernel M → Prop := Kernel.Breeds elder []

section Rules

variable {before middle after kernel : Kernel M} {born more : List TaskId} {slot : Slot} {task : Task}

theorem Kernel.Barren.refl (kernel : Kernel M) : kernel.Barren elder kernel :=
  ⟨fun _ hinv => hinv, fun _ _ _ task htask hparent => .inr ⟨task, htask, rfl, hparent⟩⟩

theorem Kernel.Breeds.trans (hfirst : before.Breeds elder born middle) (hsecond : middle.Breeds elder more after) :
    before.Breeds elder (more ++ born) after := by
  refine ⟨fun past hinv => hsecond.inv past (hfirst.inv past hinv), fun past hinv slot task htask hparent => ?_⟩
  obtain hmem | ⟨between, hbetween, hid, hchild⟩ :=
    hsecond.child past (hfirst.inv past hinv) slot task htask hparent
  · exact .inl (List.mem_append_left _ hmem)
  · obtain hmem | ⟨earlier, hearlier, hsame, hfamily⟩ := hfirst.child past hinv slot between hbetween hchild
    · exact .inl (List.mem_append_right _ (hid ▸ hmem))
    · exact .inr ⟨earlier, hearlier, hsame.trans hid, hfamily⟩

theorem Kernel.Barren.trans (hfirst : before.Barren elder middle) (hsecond : middle.Barren elder after) :
    before.Barren elder after := Kernel.Breeds.trans hfirst hsecond

theorem Kernel.Breeds.next_id_le (hbreeds : before.Breeds elder born after) {past : Scheduler}
    (hinv : before.global_scheduler.Inv past) : before.global_scheduler.next_id ≤ after.global_scheduler.next_id :=
  (hbreeds.inv _ hinv.restart).next_id_le

theorem Kernel.Barren.elsewhere (kernel : Kernel M) (objects : Objects) (memory : M) (cpu : Cpu) :
    kernel.Barren elder { kernel with objects, memory, cpu } :=
  ⟨fun _ hinv => hinv, fun _ _ _ task htask hparent => .inr ⟨task, htask, rfl, hparent⟩⟩

theorem Kernel.Barren.put_table (kernel : Kernel M) (slot : Slot) (fds : FdTable) :
    kernel.Barren elder (put_table slot fds kernel : Outcome SchedulerError Unit × Kernel M).2 := by
  constructor
  · intro past hinv
    exact hinv.modify_task _ fun task htask => hinv.keeps htask
  · intro past _ other task htask hparent
    right
    simp only [scheduler.put_table, modify_apply, Scheduler.modify_task, put_tasks] at htask
    split at htask
    · rename_i hsame
      subst hsame
      obtain ⟨earlier, hearlier, rfl⟩ := Option.map_eq_some_iff.mp htask
      exact ⟨earlier, hearlier, rfl, hparent⟩
    · exact ⟨task, htask, rfl, hparent⟩

/-- A task that is put into a slot. -/
theorem Kernel.Breeds.insert {fresh : Task}
    (hinv : ∀ past, before.global_scheduler.Inv past → after.global_scheduler.Inv past)
    (htasks : ∀ other, after.global_scheduler.tasks other =
      if other = slot then some fresh else before.global_scheduler.tasks other)
    (hborn : fresh.parent = some elder → fresh.id ∈ born) : before.Breeds elder born after := by
  refine ⟨hinv, fun past _ other task htask hparent => ?_⟩
  rw [htasks] at htask
  split at htask
  · obtain rfl := Option.some.inj htask
    exact .inl (hborn hparent)
  · exact .inr ⟨task, htask, rfl, hparent⟩

end Rules

/-- An operation that gives `elder` no child. -/
theorem Operation.execute_barren (operation : Operation M) (hparent : operation.parent ≠ some elder)
    (kernel : Kernel M) : kernel.Barren elder (operation.execute kernel).2 := by
  refine ⟨fun past => operation.execute_inv, fun past hpast slot task htask hchild => ?_⟩
  have htable : ∀ {clock leaves}, Scheduler.Treats clock leaves kernel.global_scheduler
      (operation.execute kernel).2.global_scheduler → ∃ earlier, kernel.global_scheduler.tasks slot = some earlier ∧
        earlier.id = task.id ∧ earlier.parent = some elder := by
    intro clock leaves htreats
    obtain ⟨earlier, hearlier, hturns⟩ := htreats.stayed htask
    exact ⟨earlier, hearlier, hturns.same.id.symm, hturns.same.parent ▸ hchild⟩
  have heffect := operation.execute_effect hpast
  generalize (operation.execute kernel).2.global_scheduler = after at heffect htask htable
  cases heffect with
  | stays hmoves _ | switches hmoves _ _ => exact .inr (htable (hmoves.treats hpast))
  | tear user _ hdead hstate =>
    have htorn : Scheduler.Treats none (fun _ => False) kernel.global_scheduler _ :=
      .put hdead (.single (.tear _ user hstate))
    exact .inr (htable htorn)
  | insert _ _ _ hadopter _ _ _ _ =>
    rw [put_tasks] at htask
    split at htask
    · obtain rfl := Option.some.inj htask
      exact absurd (hadopter.symm.trans hchild) hparent
    · exact .inr ⟨task, htask, rfl, hchild⟩
  | install _ _ _ hnone _ _ _ =>
    rw [put_tasks] at htask
    split at htask
    · obtain rfl := Option.some.inj htask
      cases hnone.symm.trans hchild
    · exact .inr ⟨task, htask, rfl, hchild⟩
  | reap _ _ _ | retire _ _ _ _ _ =>
    rw [put_tasks] at htask
    split at htask
    · cases htask
    · exact .inr ⟨task, htask, rfl, hchild⟩

section Calls

variable {kernel : Kernel M} {after : Kernel M} {past : Scheduler} {id : TaskId} {slot : Slot} {task : Task}

theorem create_file_for_current_barren (create : Objects → Option (FileDescriptor × Objects)) (kernel : Kernel M) :
    kernel.Barren elder (create_file_for_current create kernel).2 := by
  simp only [create_file_for_current, bind_apply]
  obtain ⟨error, _, _, heq⟩ | ⟨current, task, _, _, _, heq⟩ := current_record_cases .UnknownTask kernel
  · simp only [heq]
    exact .refl kernel
  · simp only [heq]
    cases find_free_fd task.fds with
    | none => exact .refl kernel
    | some file_fd =>
      simp only [okOr_some, get_apply]
      cases create kernel.objects with
      | none => exact .refl kernel
      | some created =>
        obtain ⟨descriptor, objects⟩ := created
        have hcreated : kernel.Barren elder { kernel with objects } := .elsewhere kernel objects kernel.memory kernel.cpu
        simp only [okOr_some, set_apply]
        obtain ⟨error, _, _, heq⟩ | ⟨current, task, _, _, _, heq⟩ :=
          current_record_cases .UnknownTask { kernel with objects }
        · simp only [heq]
          exact hcreated
        · simp only [heq]
          split
          · exact hcreated.trans (.elsewhere _ _ kernel.memory kernel.cpu)
          · exact hcreated.trans (.put_table _ current _)

theorem Kernel.Tabled.barren {kernel : Kernel M} (htabled : kernel.Tabled after) : kernel.Barren elder after := by
  obtain ⟨objects, rfl | ⟨current, fds, _, rfl⟩⟩ := htabled
  · exact .elsewhere kernel objects kernel.memory kernel.cpu
  · exact (Kernel.Barren.elsewhere kernel objects kernel.memory kernel.cpu).trans (.put_table _ current fds)

theorem create_pipe_for_current_barren (kernel : Kernel M) :
    kernel.Barren elder (create_pipe_for_current kernel : Outcome SchedulerError (Nat × Nat) × Kernel M).2 :=
  (create_pipe_for_current_tabled kernel).barren

theorem close_current_fd_barren (fd_number : Nat) (kernel : Kernel M) :
    kernel.Barren elder (close_current_fd fd_number kernel : Outcome SchedulerError Unit × Kernel M).2 := by
  obtain ⟨_, heq⟩ | ⟨middle, htabled, heq⟩ := close_current_fd_tabled fd_number kernel
  · rw [heq]
    exact .refl kernel
  · rw [heq]
    exact htabled.barren.trans (Operation.execute_barren .wake_all_blocked (by rintro ⟨⟩) middle)

/-- A spawn gives the running task a child with a new id, or fails and adds no task. -/
theorem spawn_user_breeds (destroy : Destroy M) (space : AddressSpace)
    (entry stack argument_count argument_vector : Nat) (kernel_stack : KernelStack)
    (fd_mappings : List FdMapping) (fd_closes : List Nat) (kernel : Kernel M) :
    let result := spawn_user_with_arguments_and_fds destroy space entry stack argument_count argument_vector
      kernel_stack fd_mappings fd_closes kernel
    (∃ outcome after, result = (outcome, after) ∧ (∀ id, outcome ≠ .ok id) ∧ kernel.Barren elder after) ∨
    ∃ after, result = (.ok kernel.global_scheduler.next_id, after) ∧
      after.global_scheduler.next_id = kernel.global_scheduler.next_id + 1 ∧
      kernel.Breeds elder [kernel.global_scheduler.next_id] after := by
  obtain ⟨free, task, objects, hfree, hid, hstate, hflag, _, _, heq⟩ | ⟨objects, _, heq⟩ | ⟨hnever, heq, _⟩ :=
    spawn_user_cases destroy space entry stack argument_count argument_vector kernel_stack fd_mappings fd_closes kernel
  · refine .inr ⟨_, heq, rfl, .insert (fun past hinv => ?_) (fun other => put_tasks _ free other _) fun _ => ?_⟩
    · exact hinv.insert hfree hid hstate hflag
    · rw [hid]
      exact List.mem_singleton_self _
  · exact .inl ⟨_, _, heq, nofun, .elsewhere kernel objects kernel.memory kernel.cpu⟩
  · refine .inl ⟨_, _, Prod.mk.eta.symm, hnever, ?_⟩
    rw [heq]
    exact .elsewhere kernel kernel.objects _ kernel.cpu

/-- A task that has been reaped is not in the table. -/
theorem reap_terminated_removes (hinv : kernel.global_scheduler.Inv past) {destroy : Destroy M}
    (hreaped : reap_terminated destroy id kernel = (.ok (), after))
    (htask : after.global_scheduler.tasks slot = some task) : task.id ≠ id := by
  obtain ⟨error, heq⟩ | ⟨index, dead, hindex, hdead, hstate, ⟨memory, heq⟩ | ⟨outcome, _, _, _, hfails, heq⟩⟩ :=
    reap_terminated_effect destroy id kernel
  · rw [heq] at hreaped
    cases hreaped
  · rw [heq] at hreaped
    cases hreaped
    simp only [Kernel.reaped, put_tasks] at htask
    split at htask
    · cases htask
    · rename_i hother
      rintro rfl
      exact hother (Option.mem_unique (hinv.position_of htask) hindex)
  · rw [heq] at hreaped
    exact absurd (congrArg Prod.fst hreaped) hfails

/-- An id under which no task is found is nobody's. -/
theorem Scheduler.Inv.task_none {self : Scheduler} (hinv : self.Inv past) (hnone : self.task id = none)
    (htask : self.tasks slot = some task) : task.id ≠ id := by
  rintro rfl
  rw [Scheduler.task, hinv.position_of htask] at hnone
  exact absurd (htask.symm.trans hnone) nofun

end Calls

end leafos.tasking.scheduler
