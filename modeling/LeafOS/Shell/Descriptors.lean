import LeafOS.Shell
import LeafOS.Tasking.LostWakeUps
import LeafOS.Tasking.PipeCounts

namespace leafos.shell

open leafos.memory leafos.user_program leafos.tasking.fd leafos.tasking.scheduler Prog

variable {M : Type} {report : Report} {command : ShellM M Report} {before : Shell M}

section Tables

variable {fds table : FdTable} {borrowed : List Nat} {index : Fin MAX_FDS} {fd : Nat}

/-- The free slots of a table. -/
def free_fds (fds : FdTable) : List (Fin MAX_FDS) := (List.finRange MAX_FDS).filter fun index => (fds index).isNone

theorem mem_free_fds : index ∈ free_fds fds ↔ fds index = none := by
  simp [free_fds]

theorem nodup_free_fds (fds : FdTable) : (free_fds fds).Nodup := (List.nodup_finRange MAX_FDS).filter _

theorem find_free_fd_isSome : (find_free_fd fds).isSome ↔ 0 < (free_fds fds).length := by
  rw [find_free_fd, ← List.head?_filter, List.isSome_head?, List.length_pos_iff]
  rfl

theorem find_free_fd_pair_isSome : (find_free_fd_pair fds).isSome ↔ 1 < (free_fds fds).length := by
  rw [find_free_fd_pair, free_fds]
  split
  · next heq => simp [heq]
  · next hshort =>
    generalize (List.finRange MAX_FDS).filter _ = free at hshort
    rcases free with _ | ⟨_, _ | ⟨_, _⟩⟩
    · simp
    · simp
    · exact absurd rfl (hshort _ _ _)

/-- A table is `fds` with the borrowed descriptors besides, whose slots are free in `fds`. -/
structure Borrows (fds : FdTable) (borrowed : List Nat) (table : FdTable) : Prop where
  slots : ∀ index : Fin MAX_FDS, if index.val ∈ borrowed then fds index = none ∧ table index ≠ none
    else table index = fds index
  bound : ∀ fd ∈ borrowed, fd < MAX_FDS
  nodup : borrowed.Nodup

theorem descriptor_at_index (fds : FdTable) (index : Fin MAX_FDS) : descriptor_at fds index.val = fds index := by
  rw [descriptor_at, dif_pos index.isLt]

section Borrowed

variable (hborrows : Borrows fds borrowed table)
include hborrows

theorem Borrows.nothing_iff : table = fds ↔ borrowed = [] := by
  constructor
  · rintro rfl
    refine List.eq_nil_iff_forall_not_mem.mpr fun fd hfd => ?_
    have hslot := hborrows.slots ⟨fd, hborrows.bound fd hfd⟩
    rw [if_pos hfd] at hslot
    exact hslot.2 hslot.1
  · rintro rfl
    funext index
    simpa using hborrows.slots index

/-- A slot that is free in the table is free in the table it started from, and not borrowed. -/
theorem Borrows.free (hfree : table index = none) : fds index = none ∧ index.val ∉ borrowed := by
  have hslot := hborrows.slots index
  split at hslot
  · exact absurd hfree hslot.2
  · next hother => exact ⟨hslot ▸ hfree, hother⟩

theorem Borrows.fill (hfree : table index = none) (descriptor : FileDescriptor) :
    Borrows fds (index.val :: borrowed) (Function.update table index (some descriptor)) := by
  obtain ⟨hempty, hnew⟩ := hborrows.free hfree
  refine ⟨fun other => ?_, List.forall_mem_cons.mpr ⟨index.isLt, hborrows.bound⟩,
    List.nodup_cons.mpr ⟨hnew, hborrows.nodup⟩⟩
  by_cases hother : other = index
  · subst hother
    simp [hempty]
  · have hslot := hborrows.slots other
    simpa [Function.update_of_ne hother, List.mem_cons, Fin.val_inj, hother] using hslot

/-- Each borrowed descriptor takes one of the free slots. -/
theorem Borrows.free_fds_length : (free_fds table).length + borrowed.length = (free_fds fds).length := by
  have hnodup : ((free_fds table).map Fin.val ++ borrowed).Nodup := by
    refine List.nodup_append.mpr ⟨(nodup_free_fds table).map Fin.val_injective, hborrows.nodup, ?_⟩
    rintro _ hfd _ hborrowed rfl
    obtain ⟨index, hindex, rfl⟩ := List.mem_map.mp hfd
    exact (hborrows.free (mem_free_fds.mp hindex)).2 hborrowed
  have hperm : ((free_fds table).map Fin.val ++ borrowed).Perm ((free_fds fds).map Fin.val) := by
    refine (List.perm_ext_iff_of_nodup hnodup ((nodup_free_fds fds).map Fin.val_injective)).mpr fun fd => ?_
    simp only [List.mem_append, List.mem_map, mem_free_fds]
    constructor
    · rintro (⟨index, hindex, rfl⟩ | hfd)
      · exact ⟨index, (hborrows.free hindex).1, rfl⟩
      · have hslot := hborrows.slots ⟨fd, hborrows.bound fd hfd⟩
        rw [if_pos hfd] at hslot
        exact ⟨_, hslot.1, rfl⟩
    · rintro ⟨index, hindex, rfl⟩
      have hslot := hborrows.slots index
      split at hslot
      · exact .inr ‹_›
      · exact .inl ⟨index, hslot.trans hindex, rfl⟩
  simpa using hperm.length_eq

/-- A table in which a slot that was free is free again. -/
theorem Borrows.give_back {after : FdTable} (hfree : descriptor_at fds fd = none) (hgone : descriptor_at after fd = none)
    (hother : ∀ index, index.val ≠ fd → after index = table index) : Borrows fds (borrowed.filter (· ≠ fd)) after := by
  refine ⟨fun index => ?_, fun fd hfd => hborrows.bound fd (List.mem_filter.mp hfd).1, hborrows.nodup.filter _⟩
  by_cases hindex : index.val = fd
  · simp only [List.mem_filter, hindex, ne_eq, not_true_eq_false, decide_false, Bool.false_eq_true, and_false, if_false]
    rw [← descriptor_at_index after, ← descriptor_at_index fds, hindex, hgone, hfree]
  · simpa [List.mem_filter, hindex, hother index hindex] using hborrows.slots index

end Borrowed

end Tables

section Calls

variable {slot : Slot} {id : TaskId} {fds : FdTable} {borrowed : List Nat} {kernel : Kernel M}

/-- The task in the slot is running, and its descriptor table is `fds` but for what is borrowed. -/
structure Lends (slot : Slot) (id : TaskId) (fds : FdTable) (borrowed : List Nat) (kernel : Kernel M) : Prop where
  current : kernel.global_scheduler.current = some slot
  holder : ∃ task, kernel.global_scheduler.tasks slot = some task ∧ task.id = id ∧ Borrows fds borrowed task.fds

section Lent

variable (hlends : Lends slot id fds borrowed kernel)
include hlends

theorem Lends.current_record (missing : SchedulerError) :
    ∃ task, current_record missing kernel = (.ok (slot, task), kernel) ∧
      kernel.global_scheduler.tasks slot = some task ∧ task.id = id ∧ Borrows fds borrowed task.fds := by
  obtain ⟨task, htask, hid, hborrows⟩ := hlends.holder
  refine ⟨task, ?_, htask, hid, hborrows⟩
  simp only [tasking.scheduler.current_record, bind_apply, get_apply, hlends.current, okOr_some, htask, pure_apply]

theorem Lends.elsewhere (objects : Objects) (memory : M) (cpu : Cpu) :
    Lends slot id fds borrowed { kernel with objects, memory, cpu } := ⟨hlends.current, hlends.holder⟩

theorem Lends.put_table {table : FdTable} {remaining : List Nat} (hborrows : Borrows fds remaining table) :
    Lends slot id fds remaining (put_table slot table kernel).2 := by
  obtain ⟨task, htask, hid, _⟩ := hlends.holder
  refine ⟨hlends.current, { task with fds := table }, ?_, hid, hborrows⟩
  simp only [tasking.scheduler.put_table, modify_apply, Scheduler.modify_task, Scheduler.put_tasks, if_true, htask,
    Option.map_some]

theorem Lends.wake_all_blocked : Lends slot id fds borrowed (locked Scheduler.wake_all_blocked kernel).2 := by
  obtain ⟨task, htask, hid, hborrows⟩ := hlends.holder
  refine ⟨hlends.current, ?_⟩
  have hmoved : kernel.global_scheduler.Rescheduled false (Scheduler.wake_all_blocked kernel.global_scheduler).2 :=
    (Scheduler.wake_all_blocked_moves _).rescheduled nofun
  obtain ⟨later, hlater, hsame⟩ := Scheduler.rel_some_left (htask ▸ hmoved.tasks slot)
  exact ⟨later, hlater, hsame.id.trans hid, hsame.fds ▸ hborrows⟩

/-- Closing a descriptor that was not there before gives it back, whatever the call returns. -/
theorem close_current_fd_lends {fd : Nat} (hfree : descriptor_at fds fd = none) :
    Lends slot id fds (borrowed.filter (· ≠ fd)) (close_current_fd fd kernel).2 := by
  obtain ⟨task, hrecord, htask, hid, hborrows⟩ := hlends.current_record .InvalidFd
  simp only [close_current_fd, bind_apply, hrecord]
  cases hdescriptor : descriptor_at task.fds fd with
  | none => exact ⟨hlends.current, task, htask, hid, hborrows.give_back hfree hdescriptor fun _ _ => rfl⟩
  | some descriptor =>
    have hclosed : descriptor_at (with_descriptor task.fds fd none) fd = none := by
      simp [descriptor_at, with_descriptor]
    have hgiven := hborrows.give_back hfree hclosed fun index hother => if_neg hother
    exact ((hlends.put_table hgiven).elsewhere _ _ _).wake_all_blocked

/-- A spawned task gets a slot of its own. -/
theorem spawn_user_lends (destroy : Destroy M) (space : AddressSpace) (entry stack argument_count argument_vector : Nat)
    (kernel_stack : KernelStack) (fd_mappings : List FdMapping) (fd_closes : List Nat) :
    Lends slot id fds borrowed (spawn_user_with_arguments_and_fds destroy space entry stack argument_count
      argument_vector kernel_stack fd_mappings fd_closes kernel).2 := by
  obtain ⟨free, child, objects, hfree, -, -, -, -, -, heq⟩ | ⟨objects, -, heq⟩ | ⟨-, heq, -⟩ := spawn_user_cases destroy
    space entry stack argument_count argument_vector kernel_stack fd_mappings fd_closes kernel
  · obtain ⟨task, htask, hholds⟩ := hlends.holder
    have hne : slot ≠ free := by
      rintro rfl
      rw [htask] at hfree
      cases hfree
    rw [heq]
    refine ⟨hlends.current, task, ?_, hholds⟩
    rw [Scheduler.put_tasks, if_neg hne]
    exact htask
  all_goals
    rw [heq]
    exact hlends.elsewhere _ _ _

end Lent

/-- A file that opens takes a free descriptor if there is one; or nothing changes. -/
abbrev Opens (slot : Slot) (id : TaskId) (fds : FdTable) (borrowed : List Nat) (opens : Bool) (create : KernelM M Nat) :
    Prop :=
  Ensures (Lends slot id fds borrowed) create
    (fun fd kernel => ((descriptor_at fds fd = none ∧ fd ∉ borrowed) ∧ opens = true ∧
        borrowed.length < (free_fds fds).length) ∧ Lends slot id fds (fd :: borrowed) kernel)
    fun _ kernel => ¬ (opens = true ∧ borrowed.length < (free_fds fds).length) ∧ Lends slot id fds borrowed kernel

theorem create_file_for_current_lends {create : Objects → Option (FileDescriptor × Objects)} {opens : Bool}
    (hcreate : ∀ objects, (create objects).isSome = opens) :
    Opens slot id fds borrowed opens (create_file_for_current create : KernelM M Nat) := by
  constructor
  intro kernel hlends
  obtain ⟨task, hrecord, htask, -, hborrows⟩ := hlends.current_record .UnknownTask
  have hcount := hborrows.free_fds_length
  have hfound := @find_free_fd_isSome task.fds
  simp only [create_file_for_current, bind_apply, hrecord]
  cases hfree : find_free_fd task.fds with
  | none =>
    rw [hfree, Option.isSome_none] at hfound
    exact ⟨fun hopens => Bool.false_ne_true (hfound.mpr (by omega)), hlends⟩
  | some file_fd =>
    have hempty : task.fds file_fd = none := by
      have hnone := List.find?_some hfree
      exact Option.isNone_iff_eq_none.mp hnone
    have hroom := hfound.mp (by rw [hfree, Option.isSome_some])
    have hopens := hcreate kernel.objects
    simp only [okOr_some, get_apply]
    cases hcreated : create kernel.objects with
    | none =>
      rw [hcreated, Option.isSome_none] at hopens
      exact ⟨fun h => Bool.false_ne_true (hopens.trans h.1), hlends⟩
    | some created =>
      obtain ⟨descriptor, objects⟩ := created
      have hlater := hlends.elsewhere objects kernel.memory kernel.cpu
      obtain ⟨found, hagain, hfound, -, -⟩ := hlater.current_record .UnknownTask
      obtain rfl := Option.mem_unique htask hfound
      simp only [okOr_some, set_apply, hagain, hempty, Option.isSome_none, Bool.false_eq_true, if_false, bind_apply]
      obtain ⟨hbefore, hnew⟩ := hborrows.free hempty
      refine ⟨⟨⟨?_, hnew⟩, ?_, by omega⟩, hlater.put_table (hborrows.fill hempty descriptor)⟩
      · rw [descriptor_at_index, hbefore]
      · rw [← hopens, hcreated, Option.isSome_some]

/-- A new pipe takes two free descriptors if there are two, or nothing changes. -/
theorem create_pipe_for_current_lends :
    Ensures (Lends slot id fds borrowed) (create_pipe_for_current : KernelM M (Nat × Nat))
      (fun ends kernel => (descriptor_at fds ends.1 = none ∧ descriptor_at fds ends.2 = none) ∧
        Lends slot id fds (ends.2 :: ends.1 :: borrowed) kernel)
      fun _ kernel => ¬ borrowed.length + 1 < (free_fds fds).length ∧ Lends slot id fds borrowed kernel := by
  constructor
  intro kernel hlends
  have hlater := hlends.elsewhere (create_pipe kernel.objects).2 kernel.memory kernel.cpu
  obtain ⟨task, hrecord, -, -, hborrows⟩ := hlater.current_record .UnknownTask
  have hcount := hborrows.free_fds_length
  have hfound := @find_free_fd_pair_isSome task.fds
  simp only [create_pipe_for_current, bind_apply, get_apply, set_apply, attempt, hrecord]
  cases hfree : find_free_fd_pair task.fds with
  | none =>
    rw [hfree, Option.isSome_none] at hfound
    exact ⟨fun hroom => Bool.false_ne_true (hfound.mpr (by omega)), hlater.elsewhere _ _ _⟩
  | some pair =>
    obtain ⟨read_fd, write_fd⟩ := pair
    obtain ⟨hread, hwrite, hne⟩ := find_free_fd_pair_some hfree
    have hfilled := hborrows.fill hread (create_pipe kernel.objects).1.1
    have hstill : Function.update task.fds read_fd (some (create_pipe kernel.objects).1.1) write_fd = none := by
      rw [Function.update_of_ne hne.symm, hwrite]
    refine ⟨⟨?_, ?_⟩, hlater.put_table (hfilled.fill hstill _)⟩
    · rw [descriptor_at_index, (hborrows.free hread).1]
    · rw [descriptor_at_index, (hborrows.free hwrite).1]

end Calls

section Commands

variable {slot : Slot} {id : TaskId} {fds : FdTable} {borrowed : List Nat} {F : Report → Shell M → Prop}
  (closes : List Nat) (start : Start M) (outside : Outside M)

theorem call_ensures {α : Type} {P : Kernel M → Prop} {Q : α → Kernel M → Prop} {E : SchedulerError → Kernel M → Prop}
    {method : KernelM M α} (hmethod : Ensures P method Q E) :
    Ensures (fun shell => P shell.kernel) (call method)
      (fun result shell => match result with
        | .ok value => Q value shell.kernel
        | .error error => E error shell.kernel) F := by
  constructor
  intro shell hshell
  have hafter := hmethod.ends shell.kernel hshell
  simp only [call, zoom, attempt]
  generalize method shell.kernel = result at hafter ⊢
  rcases result with ⟨value | error | _, after⟩ <;> exact hafter

/-- A call whose result does not matter. -/
theorem call_keeps {α : Type} {P Q : Shell M → Prop} {method : KernelM M α}
    (hmethod : ∀ shell, P shell → Q { shell with kernel := (method shell.kernel).2 }) :
    Ensures P (call method) (fun _ => Q) F := by
  constructor
  intro shell hshell
  have hafter := hmethod shell hshell
  simp only [call, zoom, attempt]
  generalize method shell.kernel = result at hafter
  rcases result with ⟨_ | _ | _, after⟩
  · exact hafter
  · exact hafter
  · trivial

section Starting

variable {P : Shell M → Prop} {Q : TaskId → Shell M → Prop} {fd_mappings : List FdMapping} {fd_closes : List Nat}
  (hmemory : ∀ shell memory, P shell → P { shell with kernel := { shell.kernel with memory } })
  (hspawn : ∀ image : LoadedProgram, Ensures P (call (spawn_user_with_arguments_and_fds start.destroy image.address_space
      image.entry image.stack image.argument_count image.argument_vector start.kernel_stack fd_mappings fd_closes))
    (fun spawned => match spawned with
      | .ok task => Q task
      | .error _ => P) F) (use_ext2 : Bool)
include hmemory hspawn

/-- Starting a program changes the memory and spawns a task. -/
theorem start_program_ensures (program : Invocation) :
    Ensures P (start_program start use_ext2 program fd_mappings fd_closes)
      (fun launched => match launched with
        | .ok task => Q task
        | .error _ => P) F := by
  refine .bind (Q := fun _ => P) ⟨fun shell hshell => ?_⟩ fun loaded => ?_
  · simp only [zoom, attempt]
    rcases start.load use_ext2 program.path program.arguments shell.kernel.memory with ⟨_ | _ | _, memory⟩
    · exact hmemory shell memory hshell
    · exact hmemory shell memory hshell
    · trivial
  · cases loaded with
    | error error => exact Ends.pure.pre fun _ hshell => hshell
    | ok image => exact .bind (hspawn image) fun spawned => by cases spawned <;> exact Ends.pure.pre fun _ hshell => hshell

theorem start_side_ensures (current_dir command : List UInt8) :
    Ensures P (start_side start current_dir command use_ext2 fd_mappings fd_closes)
      (fun started => match started with
        | some app => Q app.task
        | none => P) F := by
  unfold start_side
  cases parse_invocation current_dir command with
  | error error => exact Ends.pure.pre fun _ hshell => hshell
  | ok program =>
    refine .bind (start_program_ensures start hmemory hspawn use_ext2 program) fun launched => ?_
    cases launched <;> exact Ends.pure.pre fun _ hshell => hshell

end Starting

/-- What `Lends` says of the kernel under a shell. -/
abbrev Owes (slot : Slot) (id : TaskId) (fds : FdTable) (borrowed : List Nat) (shell : Shell M) : Prop :=
  Lends slot id fds borrowed shell.kernel

/-- A redirection has taken a descriptor that was free, if its file opens and there was one. -/
abbrev Redirected (slot : Slot) (id : TaskId) (fds : FdTable) (borrowed : List Nat) (opens : Bool) (opened : Option Nat)
    (shell : Shell M) : Prop :=
  ((∀ fd ∈ opened.toList, descriptor_at fds fd = none ∧ fd ∉ borrowed) ∧
    (opened.isSome ↔ opens = true ∧ borrowed.length < (free_fds fds).length)) ∧
  Owes slot id fds (opened.toList ++ borrowed) shell

theorem open_redirection_owes {current_dir : List UInt8} {create : List UInt8 → KernelM M Nat} (opens : List UInt8 → Bool)
    (hcreate : ∀ path, Opens slot id fds borrowed (opens path) (create path)) (path : Option (List UInt8)) :
    Ensures (Owes slot id fds borrowed) (open_redirection current_dir create path)
      (Redirected slot id fds borrowed ((path.bind (resolve_text current_dir)).any opens)) F := by
  unfold open_redirection
  cases path.bind (resolve_text current_dir) with
  | none => exact Ends.pure.pre fun shell howes => ⟨⟨nofun, by simp⟩, howes⟩
  | some path =>
    refine .bind (call_ensures (hcreate path)) fun result => ?_
    cases result with
    | ok fd =>
      refine Ends.pure.pre fun shell howes => ⟨⟨fun other hother => ?_, iff_of_true rfl howes.1.2⟩, howes.2⟩
      exact List.mem_singleton.mp hother ▸ howes.1.1
    | error error => exact Ends.pure.pre fun shell howes => ⟨⟨nofun, iff_of_false nofun howes.1⟩, howes.2⟩

/-- The file of an input redirection can be read. -/
def Outside.opens_input (outside : Outside M) (current_dir : List UInt8) (input_path : Option (List UInt8)) : Bool :=
  (input_path.bind (resolve_text current_dir)).any fun path => (outside.read_file path).isSome

/-- The file of an output redirection can be made. -/
def Outside.opens_output (outside : Outside M) (current_dir : List UInt8) (output_path : Option (List UInt8)) : Bool :=
  (output_path.bind (resolve_text current_dir)).any fun path =>
    !(path.isEmpty || 255 < path.length || !outside.write_file path)

theorem open_input_owes (current_dir : List UInt8) (input_path : Option (List UInt8)) :
    Ensures (Owes slot id fds borrowed) (open_input outside current_dir input_path)
      (Redirected slot id fds borrowed (outside.opens_input current_dir input_path)) F :=
  open_redirection_owes (fun path => (outside.read_file path).isSome)
    (fun _ => create_file_for_current_lends fun _ => Option.isSome_map) input_path

theorem open_output_owes (current_dir : List UInt8) (output_path : Option (List UInt8)) :
    Ensures (Owes slot id fds borrowed) (open_output outside current_dir output_path)
      (Redirected slot id fds borrowed (outside.opens_output current_dir output_path)) F := by
  refine open_redirection_owes (fun path => !(path.isEmpty || 255 < path.length || !outside.write_file path))
    (fun path => create_file_for_current_lends fun objects => ?_) output_path
  rw [create_file_write]
  split
  · next hrefused => rw [hrefused]; rfl
  · next htaken => rw [Bool.eq_false_iff.mpr htaken]; rfl

/-- Closing some of the borrowed descriptors. -/
theorem close_fds_owes (hfree : ∀ fd ∈ closes, descriptor_at fds fd = none) :
    Ensures (Owes slot id fds borrowed) (close_fds closes)
      (fun _ => Owes slot id fds (borrowed.filter (· ∉ closes))) F := by
  induction closes generalizing borrowed with
  | nil =>
    refine Ends.pure.pre fun shell howes => ?_
    rwa [List.filter_eq_self.mpr fun fd _ => decide_eq_true List.not_mem_nil]
  | cons fd rest ih =>
    obtain ⟨hfd, hrest⟩ := List.forall_mem_cons.mp hfree
    refine .bind (call_keeps (Q := Owes slot id fds _) fun _ howes => close_current_fd_lends howes hfd) fun _ => ?_
    have hpass : borrowed.filter (· ∉ fd :: rest) = (borrowed.filter (· ≠ fd)).filter (· ∉ rest) := by
      rw [List.filter_filter]
      refine List.filter_congr fun other _ => ?_
      simp [Bool.and_comm]
    rw [hpass]
    exact ih hrest

theorem give_up_if_owes (condition : Bool) (closes : List Nat) (report : Report)
    (hfree : ∀ fd ∈ closes, descriptor_at fds fd = none) :
    Ensures (Owes slot id fds borrowed) (give_up_if condition closes report : ShellM M Unit)
      (fun _ shell => condition = false ∧ Owes slot id fds borrowed shell)
      fun _ shell => condition = true ∧ Owes slot id fds (borrowed.filter (· ∉ closes)) shell := by
  unfold give_up_if
  cases condition with
  | false => exact Ends.pure.pre fun _ howes => ⟨rfl, howes⟩
  | true =>
    refine .bind (close_fds_owes closes hfree) fun _ => ?_
    exact Ends.throw.pre fun shell howes => ⟨rfl, howes⟩

theorem spawn_owes (image : LoadedProgram) (fd_mappings : List FdMapping) (fd_closes : List Nat) :
    Ensures (Owes slot id fds borrowed) (call (spawn_user_with_arguments_and_fds start.destroy image.address_space
        image.entry image.stack image.argument_count image.argument_vector start.kernel_stack fd_mappings fd_closes))
      (fun spawned => match spawned with
        | .ok _ => Owes slot id fds borrowed
        | .error _ => Owes slot id fds borrowed) F :=
  (call_keeps fun _ howes => spawn_user_lends howes ..).post fun spawned _ howes => by cases spawned <;> exact howes

theorem start_program_owes (use_ext2 : Bool) (program : Invocation) (fd_mappings : List FdMapping)
    (fd_closes : List Nat) :
    Ensures (Owes slot id fds borrowed) (start_program start use_ext2 program fd_mappings fd_closes)
      (fun _ => Owes slot id fds borrowed) F :=
  (start_program_ensures start (fun _ _ howes => howes.elsewhere _ _ _) (fun image => spawn_owes start image _ _) use_ext2
    program).post fun launched _ howes => by cases launched <;> exact howes

theorem start_side_owes (current_dir command : List UInt8) (use_ext2 : Bool)
    (fd_mappings : List FdMapping) (fd_closes : List Nat) :
    Ensures (Owes slot id fds borrowed) (start_side start current_dir command use_ext2 fd_mappings fd_closes)
      (fun _ => Owes slot id fds borrowed) F :=
  (start_side_ensures start (fun _ _ howes => howes.elsewhere _ _ _) (fun image => spawn_owes start image _ _) use_ext2
    current_dir command).post fun started _ howes => by cases started <;> exact howes

theorem record_owes (index : Fin MAX_TASKS) (app : RunningApp) :
    Ensures (Owes slot id fds borrowed) (record index app) (fun _ => Owes slot id fds borrowed) F :=
  Ends.modify.pre fun _ howes => howes

/-- Once all that was borrowed is closed, the table is the one before. -/
theorem close_fds_settles (hfree : ∀ fd ∈ closes, descriptor_at fds fd = none) (hall : borrowed ⊆ closes) :
    Ensures (Owes slot id fds borrowed) (close_fds closes) (fun _ => Owes slot id fds []) F := by
  have hsettled : borrowed.filter (· ∉ closes) = [] :=
    List.filter_eq_nil_iff.mpr fun fd hfd => by simpa using hall hfd
  rw [← hsettled]
  exact close_fds_owes closes hfree

theorem give_up_if_settles {condition : Bool}
    (hfree : ∀ fd ∈ closes, descriptor_at fds fd = none) (hall : condition = true → borrowed ⊆ closes) :
    Ensures (Owes slot id fds borrowed) (give_up_if condition closes report : ShellM M Unit)
      (fun _ => Owes slot id fds borrowed) fun _ => Owes slot id fds [] := by
  refine (give_up_if_owes condition closes report hfree).mono (fun _ h => h) (fun _ _ h => h.2) ?_
  rintro _ shell ⟨hcondition, howes⟩
  rwa [List.filter_eq_nil_iff.mpr fun fd hfd => by simpa using hall hcondition hfd] at howes

theorem launch_app_owes (command_arguments current_dir : List UInt8) (use_ext2 : Bool) :
    Ensures (Owes slot id fds []) (launch_app outside command_arguments current_dir use_ext2)
      (fun _ => Owes slot id fds []) fun _ => Owes slot id fds [] := by
  refine .bind .get fun shell => ?_
  refine .bind (Ends.okOr fun _ howes _ => howes.2) fun index => ?_
  refine .bind ((give_up_if_settles [] nofun fun _ => List.Subset.refl _).pre fun _ howes => howes.2.2) fun _ => ?_
  cases parse_invocation current_dir (split_redirections command_arguments).command with
  | error error => exact Ends.throw.pre fun _ howes => howes
  | ok program =>
    refine .bind (open_input_owes _ _ _) fun input_fd => ?_
    refine .assuming fun ⟨hinput, _⟩ => ?_
    refine .bind (give_up_if_settles [] nofun fun hmissing => ?_) fun _ => ?_
    · simp_all
    refine .bind (open_output_owes _ _ _) fun output_fd => ?_
    refine .assuming fun ⟨houtput, _⟩ => ?_
    have hinput_free := fun fd hfd => (hinput fd hfd).1
    refine .bind (give_up_if_settles _ hinput_free fun hmissing => ?_) fun _ => ?_
    · simp_all
    refine .bind (start_program_owes _ _ _ _ _) fun launched => ?_
    have houtput_free := fun fd hfd => (houtput fd hfd).1
    refine .bind (close_fds_settles _ (List.forall_mem_append.mpr ⟨hinput_free, houtput_free⟩) ?_) fun _ => ?_
    · simp
    cases launched with
    | error error => exact .skip
    | ok task => exact .bind (record_owes index _) fun _ => .skip

/-- The one way out of `launch_pipeline` that leaves a descriptor behind, read off the line, the disk
and the state before the call. The pipeline is started as far as its redirections; of the descriptors that are
free, two go to the pipe and one to the input file, which opens; and the output file does not. -/
structure LeavesInput (line current_dir : List UInt8) (parsed : Sides) (running_apps : RunningApps)
    (fds : FdTable) : Prop where
  separated : line.contains PIPE_OPERATOR = true
  usage : (parsed.left.output_path.isSome || parsed.right.input_path.isSome ||
    !parsed.left.valid || !parsed.right.valid) = false
  sides : (parsed.left.command.isEmpty || parsed.right.command.isEmpty) = false
  slots : ∃ first_slot, running_apps.free_slot 0 = some first_slot ∧ running_apps.free_slot (first_slot.val + 1) ≠ none
  input : outside.opens_input current_dir parsed.left.input_path = true
  output : parsed.right.output_path.isSome = true
  room : 3 ≤ (free_fds fds).length
  refused : ¬ (outside.opens_output current_dir parsed.right.output_path = true ∧ 4 ≤ (free_fds fds).length)

/-- How a command leaves the table: as it was, or with one descriptor more if it leaks. -/
def Leaves (leaks : Prop) (slot : Slot) (id : TaskId) (fds : FdTable) (shell : Shell M) : Prop :=
  (¬ leaks ∧ Owes slot id fds [] shell) ∨ (leaks ∧ ∃ fd, Owes slot id fds [fd] shell)

/-- A check that ends the command before anything is borrowed. -/
theorem give_up_if_leaves {P : Shell M → Prop} {leaks : Prop} {condition : Bool}
    (howes : ∀ shell, P shell → Owes slot id fds [] shell) (hleaks : leaks → condition = false) :
    Ensures P (give_up_if condition [] report) (fun _ shell => condition = false ∧ P shell)
      fun _ => Leaves leaks slot id fds := by
  cases condition with
  | false => exact Ends.pure.pre fun _ hshell => ⟨rfl, hshell⟩
  | true =>
    refine .bind (Ends.pure.pre fun _ hshell => hshell) fun _ => Ends.throw.pre fun shell (hshell : P shell) => ?_
    exact .inl ⟨fun h => Bool.false_ne_true (hleaks h).symm, howes shell hshell⟩

theorem Pipeline.subset_fds (self : Pipeline) :
    self.output_fd.toList ++ (self.input_fd.toList ++ [self.write_fd, self.read_fd]) ⊆ self.fds := by
  intro fd hfd
  simp only [Pipeline.fds, List.mem_append, List.mem_cons] at hfd ⊢
  tauto

section Pipelines

variable {before : Shell M} (howes : Owes slot id fds [] before) (line current_dir : List UInt8)
  (current_dir_is_ext2 : Bool)
include howes

theorem open_pipeline_leaves :
    let leaks := LeavesInput outside line current_dir (split_pipeline line current_dir_is_ext2) before.running_apps fds
    Ensures (· = before) (open_pipeline outside line current_dir current_dir_is_ext2)
      (fun pipeline shell => (¬ leaks ∧ ∀ fd ∈ pipeline.fds, descriptor_at fds fd = none) ∧
        ∃ borrowed ⊆ pipeline.fds, Owes slot id fds borrowed shell) fun _ => Leaves leaks slot id fds := by
  intro leaks
  have hbefore : ∀ shell, shell = before → Owes slot id fds [] shell := fun _ h => h ▸ howes
  refine .bind (give_up_if_leaves hbefore fun h => by rw [h.separated]; rfl) fun _ => .assuming fun hseparated => ?_
  refine .bind (give_up_if_leaves hbefore fun h => h.usage) fun _ => .assuming fun husage => ?_
  refine .bind (give_up_if_leaves hbefore fun h => h.sides) fun _ => .assuming fun hsides => ?_
  apply Ends.get_bind
  rintro start rfl
  refine .bind (Ends.okOr fun shell hshell hnone => .inl ⟨fun h => ?_, hbefore shell hshell⟩) fun first_slot =>
    .assuming fun hfirst => ?_
  · obtain ⟨_, hslot, _⟩ := h.slots
    rw [hnone] at hslot
    cases hslot
  refine .bind (Ends.okOr fun shell hshell hnone => .inl ⟨fun h => ?_, hbefore shell hshell⟩) fun second_slot =>
    .assuming fun hsecond => ?_
  · obtain ⟨_, hslot, hnext⟩ := h.slots
    obtain rfl := Option.mem_unique hfirst hslot
    exact hnext hnone
  refine .bind ((call_ensures create_pipe_for_current_lends).pre hbefore) fun ends => ?_
  rcases ends with error | ⟨read_fd, write_fd⟩
  · refine Ends.throw.pre fun _ hshell => .inl ⟨fun h => hshell.1 ?_, hshell.2⟩
    exact Nat.lt_of_lt_of_le (by decide) h.room
  refine .assuming fun ⟨hread, hwrite⟩ => ?_
  have hends : ∀ fd ∈ [read_fd, write_fd], descriptor_at fds fd = none :=
    List.forall_mem_cons.mpr ⟨hread, List.forall_mem_cons.mpr ⟨hwrite, nofun⟩⟩
  refine .bind (open_input_owes _ _ _) fun input_fd => .assuming fun ⟨hinput, hopened⟩ => ?_
  refine .bind ((give_up_if_owes _ [read_fd, write_fd] _ hends).mono (fun _ h => h) (fun _ _ h => h) ?_) fun _ =>
    .assuming fun hfound => ?_
  · rintro _ shell ⟨hmissing, hshell⟩
    obtain rfl : input_fd = none := by simp_all
    exact .inl ⟨fun h => Bool.false_ne_true (hopened.mpr ⟨h.input, h.room⟩), by simpa using hshell⟩
  refine .bind (open_output_owes _ _ _) fun output_fd => .assuming fun ⟨houtput, hmade⟩ => ?_
  refine .bind ((give_up_if_owes _ [read_fd, write_fd] _ hends).mono (fun _ h => h) (fun _ _ h => h) ?_) fun _ =>
    .assuming fun hdone => ?_
  · rintro _ shell ⟨hmissing, hshell⟩
    obtain rfl : output_fd = none := by simp_all
    cases input_fd with
    | none => exact .inl ⟨fun h => Bool.false_ne_true (hopened.mpr ⟨h.input, h.room⟩), by simpa using hshell⟩
    | some input_fd =>
      -- Both ends of the pipe are closed, and the input file is not.
      obtain ⟨hopens, hroom⟩ := hopened.mp rfl
      have hnew := (hinput input_fd List.mem_cons_self).2
      simp only [List.mem_cons, List.not_mem_nil, or_false, not_or] at hnew
      refine .inr ⟨⟨by simpa using hseparated, husage, hsides, ⟨first_slot, hfirst, by simp [hsecond]⟩, hopens, ?_, hroom,
        fun hmakes => Bool.false_ne_true (hmade.mpr hmakes)⟩, input_fd, by simpa [hnew] using hshell⟩
      simpa using hmissing
  have hnone : ¬ leaks := by
    intro h
    have hin := hopened.mpr ⟨h.input, h.room⟩
    have hout : output_fd.isSome = true := by
      rw [h.output, Bool.true_and, Option.isNone_eq_false_iff] at hdone
      exact hdone
    obtain ⟨input_fd, rfl⟩ := Option.isSome_iff_exists.mp hin
    exact h.refused (hmade.mp hout)
  refine Ends.pure.pre fun _ hshell => ⟨⟨hnone, ?_⟩, _, Pipeline.subset_fds _, hshell⟩
  refine List.forall_mem_append.mpr ⟨List.forall_mem_append.mpr ⟨hends, ?_⟩, ?_⟩
  · exact fun fd hfd => (houtput fd hfd).1
  · exact fun fd hfd => (hinput fd hfd).1

theorem launch_pipeline_leaves :
    let leaks := LeavesInput outside line current_dir (split_pipeline line current_dir_is_ext2) before.running_apps fds
    Ensures (· = before) (launch_pipeline outside line current_dir current_dir_is_ext2)
      (fun _ => Leaves leaks slot id fds) fun _ => Leaves leaks slot id fds := by
  intro leaks
  refine .bind (open_pipeline_leaves outside howes line current_dir current_dir_is_ext2) fun pipeline => ?_
  refine .assuming fun ⟨hnone, hfree⟩ => .at_state fun shell ⟨borrowed, hborrowed, hshell⟩ => ?_
  refine .bind (Q := fun _ => Owes slot id fds borrowed) ?_ fun ⟨first, second⟩ => ?_
  · refine .bind ((start_side_owes _ _ _ _ _ _).pre fun _ h => h ▸ hshell) fun first => ?_
    exact .bind (start_side_owes _ _ _ _ _ _) fun second => .skip
  refine .bind (close_fds_settles pipeline.fds hfree hborrowed) fun _ => ?_
  cases first with
  | none => exact Ends.pure.pre fun _ hshell => .inl ⟨hnone, hshell⟩
  | some first =>
    cases second with
    | none => exact Ends.pure.pre fun _ hshell => .inl ⟨hnone, hshell⟩
    | some second =>
      refine .bind (record_owes pipeline.first_slot first) fun _ => ?_
      exact .bind (record_owes pipeline.second_slot second) fun _ => Ends.pure.pre fun _ hshell => .inl ⟨hnone, hshell⟩

end Pipelines

end Commands

/-- A command returns, at its end or in the middle, with the given last line. -/
def Returns (command : ShellM M Report) (before : Shell M) (report : Report) (after : Shell M) : Prop :=
  command before = (.ok report, after) ∨ command before = (.err report, after)

theorem Returns.of_ok (hreport : (command before).1 = .ok report) : Returns command before report (command before).2 :=
  .inl (Prod.ext hreport rfl)

theorem Returns.of_err
    (hreport : (command before).1 = .err report) : Returns command before report (command before).2 :=
  .inr (Prod.ext hreport rfl)

/-- The task in a slot still has its descriptor table. -/
def Shell.KeepsTable (before after : Shell M) (slot : Slot) : Prop :=
  ∀ task, before.kernel.global_scheduler.tasks slot = some task →
    ∃ task', after.kernel.global_scheduler.tasks slot = some task' ∧ task'.id = task.id ∧ task'.fds = task.fds

theorem Lends.keeps_iff {after : Shell M} {slot : Slot} {task : tasking.scheduler.Task} {borrowed : List Nat}
    (hlends : Owes slot task.id task.fds borrowed after)
    (htask : before.kernel.global_scheduler.tasks slot = some task) : before.KeepsTable after slot ↔ borrowed = [] := by
  obtain ⟨task', htask', hid, hborrows⟩ := hlends.holder
  rw [← hborrows.nothing_iff]
  constructor
  · intro hkeeps
    obtain ⟨found, hfound, _, hfds⟩ := hkeeps task htask
    rwa [Option.mem_unique htask' hfound]
  · intro hsame found hfound
    obtain rfl := Option.mem_unique htask hfound
    exact ⟨task', htask', hid, hsame⟩

/-- The shell task has its own descriptor table back after every application that is launched, and after
every pipeline but those that open their input file and then cannot open their output file. -/
theorem shell_descriptors_balanced (outside : Outside M) (before after : Shell M) (slot : Slot)
    (task : tasking.scheduler.Task) (report : Report)
    (hcurrent : before.kernel.global_scheduler.current = some slot)
    (htask : before.kernel.global_scheduler.tasks slot = some task) :
    (∀ command_arguments current_dir use_ext2,
      Returns (launch_app outside command_arguments current_dir use_ext2) before report after →
        before.KeepsTable after slot) ∧
    ∀ line current_dir current_dir_is_ext2,
      Returns (launch_pipeline outside line current_dir current_dir_is_ext2) before report after →
        (before.KeepsTable after slot ↔
          ¬ LeavesInput outside line current_dir (split_pipeline line current_dir_is_ext2) before.running_apps task.fds) := by
  have howes : Owes slot task.id task.fds [] before :=
    ⟨hcurrent, task, htask, rfl, fun _ => by simp, nofun, List.nodup_nil⟩
  constructor
  · intro command_arguments current_dir use_ext2 hreturns
    have happ := @launch_app_owes _ slot task.id task.fds outside command_arguments current_dir use_ext2
    have hafter := hreturns.elim (happ.ok howes) (happ.err howes)
    exact (hafter.keeps_iff htask).mpr rfl
  · intro line current_dir current_dir_is_ext2 hreturns
    have hpipeline := launch_pipeline_leaves outside howes line current_dir current_dir_is_ext2
    have hleaves := hreturns.elim (hpipeline.ok rfl) (hpipeline.err rfl)
    obtain ⟨hnone, hafter⟩ | ⟨hleaks, fd, hafter⟩ := hleaves
    · exact iff_of_true ((hafter.keeps_iff htask).mpr rfl) hnone
    · exact iff_of_false (fun hkeeps => List.cons_ne_nil _ _ ((hafter.keeps_iff htask).mp hkeeps)) (not_not_intro hleaks)

/-- The shell has been started and has the processor. -/
def sample_shell : Shell Unit where
  kernel := interleave [.spawn 1 (.ok (.empty, 0)), .run_tasks 0 (.ok (.empty, 0))] sample_kernel
  running_apps := fun _ => none

/-- A program that loads and can be spawned. -/
def sample_start : Start Unit where
  load := fun _ _ _ => return {
    address_space :=
      ⟨some 1, [(USER_SPACE_START / PAGE_SIZE, .ReadExecute), (USER_SPACE_START / PAGE_SIZE + 1, .ReadWrite)]⟩
    entry := USER_SPACE_START
    stack := USER_SPACE_START + 2 * PAGE_SIZE - 16
    argument_count := 0
    argument_vector := 0
    data_start := none }
  kernel_stack := .ok (.empty, 0)
  destroy := fun _ => pure ()

/-- The disk has every input file, and takes output files as told. -/
def sample_outside (written : Bool) : Outside Unit where
  read_file := fun _ => some []
  write_file := fun _ => written
  left := sample_start
  right := sample_start

/-- The line `a<i|b>o`. -/
def sample_line : List UInt8 := [97, 60, 105, 124, 98, 62, 111]

/-- Both sides are started, and the shell's table is the one before. -/
theorem shell_descriptors_balanced_sample : ∃ after,
    Returns (launch_pipeline (sample_outside true) sample_line [] false) sample_shell (.pipeline_started 3 4) after ∧
      sample_shell.KeepsTable after 0 := by
  have hreport : (launch_pipeline (sample_outside true) sample_line [] false sample_shell).1 =
      .ok (.pipeline_started 3 4) := by decide +kernel
  obtain ⟨after, hreturns⟩ : ∃ after, Returns (launch_pipeline (sample_outside true) sample_line [] false) sample_shell
      (.pipeline_started 3 4) after := ⟨_, .of_ok hreport⟩
  have hcurrent : sample_shell.kernel.global_scheduler.current = some 0 := by decide +kernel
  have hfree : (sample_shell.kernel.global_scheduler.tasks 0).map (fun task => (free_fds task.fds).length) = some 13 := by
    decide +kernel
  obtain ⟨task, htask, hroom⟩ := Option.map_eq_some_iff.mp hfree
  obtain ⟨-, hpipeline⟩ :=
    shell_descriptors_balanced (sample_outside true) sample_shell after 0 task (.pipeline_started 3 4) hcurrent htask
  refine ⟨after, hreturns, (hpipeline sample_line [] false hreturns).mpr fun h => h.refused ⟨by decide +kernel, ?_⟩⟩
  rw [hroom]
  decide

/-- The output file cannot be opened, and descriptor 5 stays open on the input file. -/
theorem pipeline_leaks_input : ∃ after,
    Returns (launch_pipeline (sample_outside false) sample_line [] false) sample_shell .output_not_opened after ∧
      (sample_shell.kernel.global_scheduler.tasks 0).map (fun task => descriptor_at task.fds 5) = some none ∧
      (after.kernel.global_scheduler.tasks 0).map (fun task => descriptor_at task.fds 5) =
        some (some (.FileRead 0)) := by
  have hreport : (launch_pipeline (sample_outside false) sample_line [] false sample_shell).1 =
      .err .output_not_opened := by decide +kernel
  exact ⟨_, .of_err hreport, by decide +kernel, by decide +kernel⟩

end leafos.shell
