import LeafOS.Shell.Descriptors
import LeafOS.Tasking.Families

namespace leafos.shell

open leafos.memory leafos.user_program leafos.tasking.fd leafos.tasking.scheduler Prog

variable {M : Type}

section Invariant

variable {shell_id : TaskId} {pending : List TaskId} {shell : Shell M} {kernel : Kernel M} {index : Fin MAX_TASKS}
  {app : RunningApp}

/-- Every child of the shell task is recorded, apart from those that were just started. Ids are not reused, so
that one id is never in two records. -/
structure Tracks (shell_id : TaskId) (pending : List TaskId) (shell : Shell M) : Prop where
  inv : shell.kernel.global_scheduler.Inv shell.kernel.global_scheduler
  child : ∀ slot task, shell.kernel.global_scheduler.tasks slot = some task → task.parent = some shell_id →
    task.id ∈ pending ∨ ∃ index app, shell.running_apps index = some app ∧ app.task = task.id
  recorded : ∀ index app, shell.running_apps index = some app →
    app.task < shell.kernel.global_scheduler.next_id ∧ app.task ∉ pending
  waiting : ∀ id ∈ pending, id < shell.kernel.global_scheduler.next_id
  nodup : pending.Nodup
  distinct : ∀ index other app sibling, shell.running_apps index = some app → shell.running_apps other = some sibling →
    app.task = sibling.task → index = other

variable (htracks : Tracks shell_id pending shell)
include htracks

/-- New children wait for their record. -/
theorem Tracks.breeds {born : List TaskId} (hbreeds : shell.kernel.Breeds shell_id born kernel)
    (hnew : ∀ id ∈ born, shell.kernel.global_scheduler.next_id ≤ id ∧ id < kernel.global_scheduler.next_id)
    (hnodup : born.Nodup) : Tracks shell_id (born ++ pending) { shell with kernel } := by
  have hle := hbreeds.next_id_le htracks.inv
  refine ⟨(hbreeds.inv _ htracks.inv).restart, ?_, ?_, ?_, ?_, htracks.distinct⟩
  · intro slot task htask hparent
    obtain hborn | ⟨earlier, hearlier, hid, hchild⟩ := hbreeds.child _ htracks.inv slot task htask hparent
    · exact .inl (List.mem_append_left _ hborn)
    · rw [← hid]
      exact (htracks.child slot earlier hearlier hchild).imp_left (List.mem_append_right _)
  · intro index app happ
    obtain ⟨hlt, hnot⟩ := htracks.recorded index app happ
    refine ⟨Nat.lt_of_lt_of_le hlt hle, fun hmem => ?_⟩
    obtain hborn | hpending := List.mem_append.mp hmem
    · exact absurd (hnew _ hborn).1 (Nat.not_le.mpr hlt)
    · exact hnot hpending
  · intro id hmem
    obtain hborn | hpending := List.mem_append.mp hmem
    · exact (hnew id hborn).2
    · exact Nat.lt_of_lt_of_le (htracks.waiting id hpending) hle
  · refine List.nodup_append'.mpr ⟨hnodup, htracks.nodup, fun id hborn hpending => ?_⟩
    exact absurd (hnew id hborn).1 (Nat.not_le.mpr (htracks.waiting id hpending))

theorem Tracks.barren (hbarren : shell.kernel.Barren shell_id kernel) : Tracks shell_id pending { shell with kernel } :=
  htracks.breeds hbarren nofun .nil

/-- A child that is waiting gets its record. -/
theorem Tracks.record (hfree : shell.running_apps index = none) (hmem : app.task ∈ pending) :
    Tracks shell_id (pending.erase app.task)
      { shell with running_apps := Function.update shell.running_apps index (some app) } := by
  have hother : ∀ other found, Function.update shell.running_apps index (some app) other = some found →
      (other = index ∧ found = app) ∨ (other ≠ index ∧ shell.running_apps other = some found) := by
    intro other found hfound
    by_cases hsame : other = index
    · subst hsame
      rw [Function.update_self] at hfound
      exact .inl ⟨rfl, (Option.some.inj hfound).symm⟩
    · rw [Function.update_of_ne hsame] at hfound
      exact .inr ⟨hsame, hfound⟩
  refine ⟨htracks.inv, ?_, ?_, fun id hid => htracks.waiting id (List.mem_of_mem_erase hid), htracks.nodup.erase _, ?_⟩
  · intro slot task htask hparent
    by_cases hself : task.id = app.task
    · exact .inr ⟨index, app, Function.update_self .., hself.symm⟩
    obtain hpending | ⟨other, found, hfound, hid⟩ := htracks.child slot task htask hparent
    · exact .inl ((List.mem_erase_of_ne hself).mpr hpending)
    · have hne : other ≠ index := by
        rintro rfl
        rw [hfree] at hfound
        cases hfound
      exact .inr ⟨other, found, (Function.update_of_ne hne _ _).trans hfound, hid⟩
  · intro other found hfound
    obtain ⟨-, rfl⟩ | ⟨-, hfound⟩ := hother other found hfound
    · exact ⟨htracks.waiting _ hmem, htracks.nodup.not_mem_erase⟩
    · exact ⟨(htracks.recorded other found hfound).1, fun hid =>
        (htracks.recorded other found hfound).2 (List.mem_of_mem_erase hid)⟩
  · intro one two first second hfirst hsecond hsame
    obtain ⟨hone, hnew⟩ | ⟨-, hold⟩ := hother one first hfirst <;>
      obtain ⟨htwo, hnew'⟩ | ⟨-, hold'⟩ := hother two second hsecond
    · exact hone.trans htwo.symm
    · exact absurd (hsame ▸ hnew ▸ hmem) (htracks.recorded two second hold').2
    · exact absurd (hsame ▸ hnew' ▸ hmem) (htracks.recorded one first hold).2
    · exact htracks.distinct one two first second hold hold' hsame

/-- A record can go once its task is not in the table. -/
theorem Tracks.forget (happ : shell.running_apps index = some app)
    (hgone : ∀ slot task, shell.kernel.global_scheduler.tasks slot = some task → task.id ≠ app.task) :
    Tracks shell_id pending { shell with running_apps := Function.update shell.running_apps index none } := by
  have hother : ∀ other found, Function.update shell.running_apps index none other = some found →
      shell.running_apps other = some found := by
    intro other found hfound
    by_cases hsame : other = index
    · subst hsame
      rw [Function.update_self] at hfound
      cases hfound
    · rwa [Function.update_of_ne hsame] at hfound
  refine ⟨htracks.inv, ?_, fun other found hfound => htracks.recorded other found (hother other found hfound),
    htracks.waiting, htracks.nodup, fun one two first second hfirst hsecond =>
      htracks.distinct one two first second (hother one first hfirst) (hother two second hsecond)⟩
  intro slot task htask hparent
  refine (htracks.child slot task htask hparent).imp_right ?_
  rintro ⟨other, found, hfound, hid⟩
  have hne : other ≠ index := by
    rintro rfl
    obtain rfl := Option.mem_unique happ hfound
    exact hgone slot task htask hid.symm
  exact ⟨other, found, (Function.update_of_ne hne _ _).trans hfound, hid⟩

end Invariant

section Commands

variable {shell_id : TaskId} {apps : RunningApps} {pending : List TaskId} {F E : Report → Shell M → Prop}
  (destroy : Destroy M) (indices : List (Fin MAX_TASKS)) (start : Start M) (outside : Outside M) (id : TaskId)
  {α : Type} {program : ShellM M α}

/-- The records are `apps`, and nothing but what waits is missing from them. -/
def Books (shell_id : TaskId) (apps : RunningApps) (pending : List TaskId) (shell : Shell M) : Prop :=
  shell.running_apps = apps ∧ Tracks shell_id pending shell

/-- The records of the state that has been read. -/
theorem open_books {Q : α → Shell M → Prop}
    {shell : Shell M} (hprogram : Ensures (Books shell_id shell.running_apps pending) program Q E) :
    Ensures (fun state => shell = state ∧ Tracks shell_id pending state) program Q E :=
  hprogram.pre fun _ ⟨hstate, htracks⟩ => ⟨congrArg Shell.running_apps hstate.symm, htracks⟩

theorem tracks_of_books
    (hprogram : ∀ apps, Ensures (Books shell_id apps pending) program (fun _ => Books shell_id apps pending) E) :
    Ensures (Tracks shell_id pending) program (fun _ => Tracks shell_id pending) E :=
  ⟨fun shell htracks =>
    ((hprogram shell.running_apps).post fun _ _ hbooks => hbooks.2).ends shell ⟨rfl, htracks⟩⟩

theorem call_books {method : KernelM M α} (hmethod : ∀ kernel : Kernel M, kernel.Barren shell_id (method kernel).2) :
    Ensures (Books shell_id apps pending) (call method) (fun _ => Books shell_id apps pending) F :=
  call_keeps fun shell ⟨happs, htracks⟩ => ⟨happs, htracks.barren (hmethod shell.kernel)⟩

theorem open_redirection_books {create : List UInt8 → KernelM M Nat}
    (hcreate : ∀ path (kernel : Kernel M), kernel.Barren shell_id (create path kernel).2) (current_dir : List UInt8)
    (path : Option (List UInt8)) :
    Ensures (Books shell_id apps pending) (open_redirection current_dir create path)
      (fun _ => Books shell_id apps pending) F := by
  unfold open_redirection
  cases path.bind (resolve_text current_dir) with
  | none => exact .skip
  | some path => exact .bind (call_books (hcreate path)) fun _ => .skip

theorem close_fds_books (closes : List Nat) :
    Ensures (Books shell_id apps pending) (close_fds closes) (fun _ => Books shell_id apps pending) F := by
  induction closes with
  | nil => exact .skip
  | cons fd rest ih => exact .bind (call_books fun kernel => close_current_fd_barren fd kernel) fun _ => ih

theorem give_up_if_books (condition : Bool) (closes : List Nat) (report : Report) :
    Ensures (Books shell_id apps pending) (give_up_if condition closes report : ShellM M Unit)
      (fun _ => Books shell_id apps pending) fun _ => Tracks shell_id pending := by
  unfold give_up_if
  cases condition with
  | false => exact .skip
  | true => exact .bind (close_fds_books closes) fun _ => Ends.throw.pre fun _ hbooks => hbooks.2

theorem Books.memory (shell : Shell M) (memory : M) (hbooks : Books shell_id apps pending shell) :
    Books shell_id apps pending { shell with kernel := { shell.kernel with memory } } :=
  ⟨hbooks.1, hbooks.2.barren (.elsewhere shell.kernel shell.kernel.objects memory shell.kernel.cpu)⟩

theorem spawn_books (image : LoadedProgram) (fd_mappings : List FdMapping) (fd_closes : List Nat) :
    Ensures (Books shell_id apps pending) (call (spawn_user_with_arguments_and_fds start.destroy image.address_space
        image.entry image.stack image.argument_count image.argument_vector start.kernel_stack fd_mappings fd_closes))
      (fun spawned => match spawned with
        | .ok task => Books shell_id apps (task :: pending)
        | .error _ => Books shell_id apps pending) F := by
  constructor
  rintro shell ⟨happs, htracks⟩
  simp only [call, zoom, attempt]
  obtain ⟨outcome, after, heq, hnever, hbarren⟩ | ⟨after, heq, hnext, hbreeds⟩ :=
    spawn_user_breeds start.destroy image.address_space image.entry image.stack image.argument_count
      image.argument_vector start.kernel_stack fd_mappings fd_closes shell.kernel
  · rw [heq]
    cases outcome with
    | ok id => exact absurd rfl (hnever id)
    | err error => exact ⟨happs, htracks.barren hbarren⟩
    | panic => trivial
  · rw [heq]
    refine ⟨happs, htracks.breeds hbreeds (fun id hid => ?_) (List.nodup_singleton _)⟩
    obtain rfl := List.mem_singleton.mp hid
    exact ⟨le_rfl, hnext ▸ Nat.lt_succ_self _⟩

theorem record_books (index : Fin MAX_TASKS) (app : RunningApp) (hfree : apps index = none)
    (hmem : app.task ∈ pending) :
    Ensures (Books shell_id apps pending) (record index app)
      (fun _ => Books shell_id (Function.update apps index (some app)) (pending.erase app.task)) F := by
  constructor
  rintro shell ⟨rfl, htracks⟩
  exact ⟨rfl, htracks.record hfree hmem⟩

theorem RunningApps.free_slot_some {start : Nat} {index : Fin MAX_TASKS} (hfound : apps.free_slot start = some index) :
    start ≤ index.val ∧ apps index = none := by
  rw [RunningApps.free_slot] at hfound
  have htest := List.find?_some hfound
  simp only [Bool.and_eq_true, decide_eq_true_eq, Option.isNone_iff_eq_none] at htest
  exact htest

theorem launch_app_tracks (command_arguments current_dir : List UInt8) (use_ext2 : Bool) :
    Ensures (Tracks shell_id []) (launch_app outside command_arguments current_dir use_ext2)
      (fun _ => Tracks shell_id []) fun _ => Tracks shell_id [] := by
  refine .bind .get fun shell => ?_
  refine .bind (Ends.okOr fun _ htracks _ => htracks.2) fun index => ?_
  refine .assuming fun hfound => open_books ?_
  obtain ⟨-, hfree⟩ := RunningApps.free_slot_some hfound
  refine .bind (give_up_if_books _ _ _) fun _ => ?_
  cases parse_invocation current_dir (split_redirections command_arguments).command with
  | error error => exact Ends.throw.pre fun _ hbooks => hbooks.2
  | ok program =>
    refine .bind (open_redirection_books (fun _ => create_file_for_current_barren _) _ _) fun input_fd => ?_
    refine .bind (give_up_if_books _ _ _) fun _ => ?_
    refine .bind (open_redirection_books (fun _ => create_file_for_current_barren _) _ _) fun output_fd => ?_
    refine .bind (give_up_if_books _ _ _) fun _ => ?_
    refine .bind (start_program_ensures _ Books.memory (fun _ => spawn_books ..) _ _) fun launched => ?_
    cases launched with
    | error error => exact .bind (close_fds_books _) fun _ => Ends.pure.pre fun _ hbooks => hbooks.2
    | ok task =>
      refine .bind (close_fds_books _) fun _ => ?_
      refine .bind (record_books index { task, path := program.path } hfree List.mem_cons_self) fun _ => ?_
      refine Ends.pure.pre fun _ hbooks => ?_
      simpa using hbooks.2

section Pipelines

variable (line current_dir : List UInt8) (current_dir_is_ext2 : Bool)

theorem open_pipeline_tracks :
    Ensures (Tracks shell_id []) (open_pipeline outside line current_dir current_dir_is_ext2)
      (fun pipeline shell => (shell.running_apps pipeline.first_slot = none ∧
          shell.running_apps pipeline.second_slot = none ∧ pipeline.second_slot ≠ pipeline.first_slot) ∧
        Tracks shell_id [] shell) fun _ => Tracks shell_id [] := by
  refine .bind (tracks_of_books fun _ => give_up_if_books _ _ _) fun _ => ?_
  generalize split_pipeline line current_dir_is_ext2 = sides
  refine .bind (tracks_of_books fun _ => give_up_if_books _ _ _) fun _ => ?_
  refine .bind (tracks_of_books fun _ => give_up_if_books _ _ _) fun _ => ?_
  refine .bind .get fun shell => ?_
  refine .bind (Ends.okOr fun _ htracks _ => htracks.2) fun first_slot => .assuming fun hfirst => ?_
  refine .bind (Ends.okOr fun _ htracks _ => htracks.2) fun second_slot => .assuming fun hsecond => open_books ?_
  obtain ⟨-, hfirst⟩ := RunningApps.free_slot_some hfirst
  obtain ⟨hlater, hsecond⟩ := RunningApps.free_slot_some hsecond
  have hne : second_slot ≠ first_slot := by
    rintro rfl
    omega
  refine .bind (call_books create_pipe_for_current_barren) fun ends => ?_
  rcases ends with error | ⟨read_fd, write_fd⟩
  · exact Ends.throw.pre fun _ hbooks => hbooks.2
  refine .bind (open_redirection_books (fun _ => create_file_for_current_barren _) _ _) fun input_fd => ?_
  refine .bind (give_up_if_books _ _ _) fun _ => ?_
  refine .bind (open_redirection_books (fun _ => create_file_for_current_barren _) _ _) fun output_fd => ?_
  refine .bind (give_up_if_books _ _ _) fun _ => Ends.pure.pre fun state ⟨happs, htracks⟩ => ?_
  exact ⟨⟨happs ▸ hfirst, happs ▸ hsecond, hne⟩, htracks⟩

/-- The sides that start wait for their records. -/
theorem Pipeline.start_books (pipeline : Pipeline) :
    Ensures (Books shell_id apps []) (pipeline.start outside current_dir)
      (fun started => Books shell_id apps ((started.2.toList ++ started.1.toList).map RunningApp.task)) F := by
  refine .bind (start_side_ensures _ Books.memory (fun _ => spawn_books ..) _ _ _) fun first => ?_
  cases first with
  | none | some first =>
    refine .bind (start_side_ensures _ Books.memory (fun _ => spawn_books ..) _ _ _) fun second => ?_
    cases second <;> exact Ends.pure.pre fun _ hbooks => hbooks

/-- Which sides of a pipeline start. -/
def sides_started : ShellM M (Bool × Bool) := do
  let pipeline ← open_pipeline outside line current_dir current_dir_is_ext2
  let (first, second) ← pipeline.start outside current_dir
  return (first.isSome, second.isSome)

/-- A pipeline of which only one side starts leaves that side without a record. -/
theorem launch_pipeline_tracks {shell : Shell M} (htracks : Tracks shell_id [] shell) (hsides : ∀ left right,
      (sides_started outside line current_dir current_dir_is_ext2 shell).1 = .ok (left, right) → left = right) :
    Ensures (· = shell) (launch_pipeline outside line current_dir current_dir_is_ext2) (fun _ => Tracks shell_id [])
      fun _ => Tracks shell_id [] := by
  refine .bind ((open_pipeline_tracks outside line current_dir current_dir_is_ext2).pre fun _ h => h ▸ htracks).traced
    fun pipeline => .at_state fun middle ⟨hopen, ⟨hfirst, hsecond, hne⟩, hmiddle⟩ => ?_
  refine .bind ((Pipeline.start_books outside current_dir pipeline).pre fun _ h => ⟨congrArg _ h, h ▸ hmiddle⟩).traced
    fun ⟨first, second⟩ => .at_state fun state ⟨hstart, hbooks⟩ => ?_
  have hboth : first.isSome = second.isSome := hsides _ _ (by simp [sides_started, hopen, hstart])
  cases first with
  | none =>
    cases second with
    | none => exact .bind ((close_fds_books _).pre fun _ h => h ▸ hbooks) fun _ => Ends.pure.pre fun _ hbooks => hbooks.2
    | some second => cases hboth
  | some first =>
    cases second with
    | none => cases hboth
    | some second =>
      have hwaiting : Books shell_id middle.running_apps [second.task, first.task] state := hbooks
      have herase : [second.task, first.task].erase first.task = [second.task] := by
        have hother : second.task ≠ first.task := by simpa using hwaiting.2.nodup
        simp [hother]
      refine .bind ((close_fds_books _).pre fun _ h => h ▸ hwaiting) fun _ => ?_
      refine .bind (record_books _ first hfirst (List.mem_cons_of_mem _ List.mem_cons_self)) fun _ => ?_
      rw [herase]
      refine .bind (record_books _ second ?_ List.mem_cons_self) fun _ => Ends.pure.pre fun _ hbooks => ?_
      · rw [Function.update_of_ne hne, hsecond]
      · simpa using hbooks.2

end Pipelines

/-- A terminated application that can be released is not in the table any more. -/
theorem report_finished_app_books {app : RunningApp} {shell : Shell M} (hbooks : Books shell_id apps pending shell)
    (hreap : (reap_terminated destroy app.task shell.kernel).1 = .ok ()) :
    Ensures (· = shell) (report_finished_app destroy app)
      (fun _ after => Books shell_id apps pending after ∧
        ∀ slot task, after.kernel.global_scheduler.tasks slot = some task → task.id ≠ app.task) F := by
  have hcode : (task_exit_code app.task shell.kernel).2 = shell.kernel := by
    simp only [task_exit_code, bind_apply, get_apply]
    cases shell.kernel.global_scheduler.task app.task <;> rfl
  have hbarren : shell.kernel.Barren shell_id (reap_terminated destroy app.task shell.kernel).2 :=
    Operation.execute_barren (.reap_terminated destroy app.task) nofun shell.kernel
  have hreaped := run_of_outcome hreap
  refine .bind ((Ends.expect fun _ _ _ => trivial).post fun _ _ h => h.2) fun _ => ?_
  refine .bind (call_keeps (Q := (· = shell)) fun _ h => by rw [h, hcode]) fun status => ?_
  refine .bind (Q := fun result after => result = .ok () ∧ after =
    { shell with kernel := (reap_terminated destroy app.task shell.kernel).2 }) ?_ fun result => ?_
  · constructor
    rintro _ rfl
    simp only [call, zoom, attempt]
    rw [hreaped]
    exact ⟨rfl, rfl⟩
  · refine .assuming ?_
    rintro rfl
    refine Ends.pure.pre fun _ hafter => ?_
    subst hafter
    exact ⟨⟨hbooks.1, hbooks.2.barren hbarren⟩, fun slot task => reap_terminated_removes hbooks.2.inv hreaped⟩

/-- The application in a slot, if it has terminated, can be released. -/
def Reaps (destroy : Destroy M) (shell : Shell M) (slot : Fin MAX_TASKS) : Prop :=
  ∀ app task, shell.running_apps slot = some app → shell.kernel.global_scheduler.task app.task = some task →
    task.state = .Terminated → (reap_terminated destroy app.task shell.kernel).1 = .ok ()

/-- No reap fails in a pass over the slots. -/
def ReapsAll (destroy : Destroy M) : List (Fin MAX_TASKS) → Shell M → Prop
  | [], _ => True
  | slot :: rest, shell => Reaps destroy shell slot ∧ ReapsAll destroy rest (report_slot destroy slot shell).2

section Reporting

variable {destroy indices} {shell : Shell M} (htracks : Tracks shell_id [] shell)
include htracks

theorem report_slot_tracks {index : Fin MAX_TASKS} (hreaps : Reaps destroy shell index) :
    Ensures (· = shell) (report_slot destroy index) (fun _ => Tracks shell_id []) F := by
  apply Ends.get_bind
  rintro shell rfl
  cases happ : shell.running_apps index with
  | none => exact Ends.pure.pre fun _ h => h ▸ htracks
  | some app =>
    have hforget : ∀ after : Shell M, Books shell_id shell.running_apps [] after ∧
        (∀ slot task, after.kernel.global_scheduler.tasks slot = some task → task.id ≠ app.task) →
        Tracks shell_id [] { after with running_apps := Function.update after.running_apps index none } :=
      fun after ⟨⟨happs, hafter⟩, hgone⟩ => hafter.forget (happs ▸ happ) hgone
    refine .bind (Q := fun result after => result = (shell.kernel.global_scheduler.task app.task).elim
      (.error .UnknownTask) (fun task => .ok task.state) ∧ after = shell) ?_ fun result => .assuming ?_
    · constructor
      rintro shell rfl
      simp only [call, zoom, attempt, task_state, bind_apply, get_apply]
      cases shell.kernel.global_scheduler.task app.task <;> exact ⟨rfl, rfl⟩
    rintro rfl
    cases hfound : shell.kernel.global_scheduler.task app.task with
    | none =>
      refine .bind (Ends.modify.pre fun after h => ?_) fun _ => .skip
      exact hforget after ⟨⟨congrArg _ h, h ▸ htracks⟩, h ▸ fun slot task => htracks.inv.task_none hfound⟩
    | some task =>
      rw [Option.elim_some]
      cases hstate : task.state
      case Terminated =>
        refine .bind (report_finished_app_books destroy ⟨rfl, htracks⟩ (hreaps app task happ hfound hstate)) fun _ => ?_
        exact .bind (Ends.modify.pre hforget) fun _ => .skip
      all_goals exact Ends.pure.pre fun _ h => h ▸ htracks

theorem report_slots_tracks (hreaps : ReapsAll destroy indices shell) :
    Ensures (· = shell) (report_slots destroy indices) (fun _ => Tracks shell_id []) F := by
  induction indices generalizing shell with
  | nil => exact Ends.pure.pre fun _ h => h ▸ htracks
  | cons index rest ih =>
    obtain ⟨hfirst, hrest⟩ := hreaps
    refine .bind (report_slot_tracks htracks hfirst).traced fun notices => .at_state fun after ⟨hslot, hafter⟩ => ?_
    rw [hslot] at hrest
    exact .bind (ih hafter hrest) fun _ => .skip

end Reporting

theorem terminate_task_barren (exit_code : UInt64) (kernel : Kernel M) :
    kernel.Barren shell_id (locked (Scheduler.terminate_task id exit_code) kernel).2 :=
  Operation.execute_barren (.terminate_task id exit_code) nofun kernel

theorem interrupt_slots_tracks :
    Ensures (Tracks shell_id []) (interrupt_slots indices : ShellM M Bool) (fun _ => Tracks shell_id []) F := by
  induction indices with
  | nil => exact .skip
  | cons index rest ih =>
    refine .bind .get fun shell => ?_
    cases shell.running_apps index with
    | none => exact ih.pre fun _ htracks => htracks.2
    | some app =>
      refine .bind ((tracks_of_books fun _ => call_books (terminate_task_barren app.task 130)).pre
        fun _ htracks => htracks.2) fun terminated => ?_
      exact .bind ih fun _ => .skip

end Commands

/-- What can happen between two moments at which the shell waits for a key: a command of the shell, Ctrl+C,
a pass of `report_finished_apps`, or an operation on the task table by anybody else. -/
inductive Step (M : Type) where
  /-- `run` and `diskrun`. -/
  | launch (outside : Outside M) (command_arguments current_dir : List UInt8) (use_ext2 : Bool)
  | pipeline (outside : Outside M) (line current_dir : List UInt8) (current_dir_is_ext2 : Bool)
  | kill (task_id : TaskId)
  | interrupt
  | report (destroy : Destroy M)
  | elsewhere (operation : Operation M)

/-- Run a function of the shell to its end, if it does not panic. -/
def finish {α : Type} (program : ShellM M α) (shell : Shell M) : Option (Shell M) :=
  match program shell with
  | (.ok _, after) => some after
  | (.err _, after) => some after
  | (.panic, _) => none

def Step.take (step : Step M) : Shell M → Option (Shell M) :=
  match step with
  | .launch outside command_arguments current_dir use_ext2 =>
    finish (launch_app outside command_arguments current_dir use_ext2)
  | .pipeline outside line current_dir current_dir_is_ext2 =>
    finish (launch_pipeline outside line current_dir current_dir_is_ext2)
  | .kill task_id => finish (shell.kill task_id)
  | .interrupt => finish interrupt_running_apps
  | .report destroy => finish (report_finished_apps destroy)
  | .elsewhere operation => finish (call operation.execute)

/-- Take steps in order. There is no result if one of them panics. -/
def take_steps : List (Step M) → Shell M → Option (Shell M)
  | [], shell => some shell
  | step :: rest, shell => do
    let after ← step.take shell
    take_steps rest after

/-- A pipeline starts both sides or none, and every terminated application can be released. -/
def Step.Clean (step : Step M) (shell : Shell M) : Prop :=
  match step with
  | .pipeline outside line current_dir current_dir_is_ext2 => ∀ left right,
    (sides_started outside line current_dir current_dir_is_ext2 shell).1 = .ok (left, right) → left = right
  | .report destroy => ReapsAll destroy (List.finRange MAX_TASKS) shell
  | _ => True

/-- Each step is clean in the state that it is taken in. -/
def CleanSteps : List (Step M) → Shell M → Prop
  | [], _ => True
  | step :: rest, shell => step.Clean shell ∧ ∀ after, step.take shell = some after → CleanSteps rest after

/-- Only the commands of the shell make children of the shell task. -/
def Step.Fitting (shell_id : TaskId) : Step M → Prop
  | .elsewhere operation => operation.parent ≠ some shell_id
  | _ => True

/-- Every child of the shell task is in exactly one record. -/
def Shell.Tracked (shell_id : TaskId) (shell : Shell M) : Prop :=
  ∀ slot task, shell.kernel.global_scheduler.tasks slot = some task → task.parent = some shell_id →
    ∃! index, ∃ app, shell.running_apps index = some app ∧ app.task = task.id

section Runs

variable {shell_id : TaskId} {shell after : Shell M}

theorem finish_ensures {α : Type} {program : ShellM M α} {P Q : Shell M → Prop}
    (hprogram : Ensures P program (fun _ => Q) fun _ => Q) (hshell : P shell)
    (hfinish : finish program shell = some after) : Q after := by
  have hafter := hprogram.ends shell hshell
  unfold finish at hfinish
  generalize program shell = result at hafter hfinish
  rcases result with ⟨_ | _ | _, state⟩ <;> cases hfinish
  all_goals exact hafter

theorem Step.take_tracks (step : Step M) (hfitting : step.Fitting shell_id) (htracks : Tracks shell_id [] shell)
    (htake : step.take shell = some after) (hclean : step.Clean shell) : Tracks shell_id [] after := by
  cases step with
  | launch outside command_arguments current_dir use_ext2 =>
    exact finish_ensures (launch_app_tracks outside command_arguments current_dir use_ext2) htracks htake
  | pipeline outside line current_dir current_dir_is_ext2 =>
    exact finish_ensures (launch_pipeline_tracks outside line current_dir current_dir_is_ext2 htracks hclean) rfl htake
  | kill task_id =>
    exact finish_ensures (tracks_of_books fun _ => call_books (terminate_task_barren task_id 143)) htracks htake
  | interrupt => exact finish_ensures (interrupt_slots_tracks _) htracks htake
  | report destroy => exact finish_ensures (report_slots_tracks htracks hclean) rfl htake
  | elsewhere operation =>
    exact finish_ensures (tracks_of_books fun _ => call_books (operation.execute_barren hfitting)) htracks htake

theorem take_steps_tracks (steps : List (Step M)) (hfitting : ∀ step ∈ steps, step.Fitting shell_id)
    (htracks : Tracks shell_id [] shell) (hrun : take_steps steps shell = some after)
    (hclean : CleanSteps steps shell) : Tracks shell_id [] after := by
  induction steps generalizing shell with
  | nil =>
    cases hrun
    exact htracks
  | cons step rest ih =>
    obtain ⟨hstep, hrest⟩ := List.forall_mem_cons.mp hfitting
    obtain ⟨middle, htake, hrun⟩ := Option.bind_eq_some_iff.mp hrun
    exact ih hrest (step.take_tracks hstep htracks htake hclean.1) hrun (hclean.2 middle htake)

theorem Tracks.tracked (htracks : Tracks shell_id [] shell) : shell.Tracked shell_id := by
  intro slot task htask hparent
  obtain hpending | ⟨index, app, happ, hid⟩ := htracks.child slot task htask hparent
  · cases hpending
  · refine ⟨index, ⟨app, happ, hid⟩, ?_⟩
    rintro other ⟨sibling, hsibling, hsame⟩
    exact htracks.distinct other index sibling app hsibling happ (hsame.trans hid.symm)

end Runs

/-- The shell as `run` starts it, in the task that was spawned for it at boot. -/
def Shell.starting (kernel : Kernel M) : Shell M := ⟨kernel, fun _ => none⟩

/-- From the start of the shell on, after any steps in which every pipeline started both sides or none and
every terminated application could be released, each child of the shell is in exactly one record. -/
theorem shell_tracks_applications (objects : Objects) (memory : M) (cpu : Cpu) (kernel_root : PhysFrame)
    (entry : KernelTaskEntry) (stack : KernelStack) (shell_id : TaskId) (kernel : Kernel M)
    (hspawn : spawn entry stack (.fresh objects memory cpu kernel_root) = (.ok shell_id, kernel))
    (steps : List (Step M)) (hfitting : ∀ step ∈ steps, step.Fitting shell_id) (shell : Shell M)
    (hrun : take_steps steps (.starting kernel) = some shell) (hclean : CleanSteps steps (.starting kernel)) :
    shell.Tracked shell_id := by
  have hfresh : Tracks shell_id [] (.starting (.fresh objects memory cpu kernel_root)) :=
    { inv := Scheduler.inv_new
      child := fun _ _ htask => nomatch htask
      recorded := fun _ _ happ => nomatch happ
      waiting := fun _ hid => nomatch hid
      nodup := .nil
      distinct := fun _ _ _ _ happ => nomatch happ }
  have hbarren : (Kernel.fresh objects memory cpu kernel_root).Barren shell_id kernel := by
    have hcreated : (Kernel.fresh objects memory cpu kernel_root).Barren shell_id _ :=
      Operation.execute_barren (.create_kernel_task entry none stack) nofun (.fresh objects memory cpu kernel_root)
    have hroom : (Kernel.fresh objects memory cpu kernel_root).global_scheduler.keeps_idle_slot = false := by
      change Scheduler.new.keeps_idle_slot = false
      decide
    simp only [spawn, bind_apply, get_apply, hroom, Bool.false_eq_true, if_false] at hspawn
    simp only [Operation.execute, discard_snd] at hcreated
    have hafter : (locked (Scheduler.create_kernel_task entry none stack) : KernelM M TaskId)
        (.fresh objects memory cpu kernel_root) = (.ok shell_id, kernel) := hspawn
    rwa [hafter] at hcreated
  exact (take_steps_tracks steps hfitting (hfresh.barren hbarren) hrun hclean).tracked

/-- The kernel once the shell task has been spawned. -/
def shell_spawned : Kernel Unit := (spawn 1 (.ok (.empty, 0)) sample_kernel).2

/-- The shell gets the processor and starts a pipeline. -/
def pipeline_steps (outside : Outside Unit) : List (Step Unit) :=
  [.elsewhere (.install_idle 0 (.ok (.empty, 0))), .elsewhere .start, .pipeline outside sample_line [] false]

theorem pipeline_steps_fitting (outside : Outside Unit) : ∀ step ∈ pipeline_steps outside, step.Fitting 1 := by
  intro step hstep
  simp only [pipeline_steps, List.mem_cons, List.not_mem_nil, or_false] at hstep
  obtain rfl | rfl | rfl := hstep
  · exact nofun
  · exact nofun
  · trivial

/-- Both sides of the pipeline get a record. -/
theorem shell_tracks_applications_sample : ∃ shell,
    take_steps (pipeline_steps (sample_outside true)) (.starting shell_spawned) = some shell ∧
      (shell.kernel.global_scheduler.tasks 2).bind Task.parent = some 1 ∧ shell.Tracked 1 := by
  have hsteps : (take_steps (pipeline_steps (sample_outside true)) (.starting shell_spawned)).map (fun shell =>
      (shell.kernel.global_scheduler.tasks 2).bind Task.parent) = some (some 1) := by decide +kernel
  obtain ⟨shell, hrun, hparent⟩ := Option.map_eq_some_iff.mp hsteps
  have hspawned : (spawn 1 (.ok (.empty, 0)) sample_kernel).1 = .ok 1 := by decide +kernel
  have hspawn : spawn 1 (.ok (.empty, 0)) sample_kernel = (.ok 1, shell_spawned) := by
    rw [← hspawned, shell_spawned]
  have hsides : (take_steps ((pipeline_steps (sample_outside true)).take 2) (.starting shell_spawned)).map (fun shell =>
      (sides_started (sample_outside true) sample_line [] false shell).1) = some (.ok (true, true)) := by decide +kernel
  have hclean : CleanSteps (pipeline_steps (sample_outside true)) (.starting shell_spawned) := by
    refine ⟨trivial, fun first hfirst => ⟨trivial, fun second hsecond => ⟨?_, fun _ _ => trivial⟩⟩⟩
    intro left right hstarted
    have htwo : take_steps ((pipeline_steps (sample_outside true)).take 2) (.starting shell_spawned) = some second := by
      simp [pipeline_steps, take_steps, hfirst, hsecond]
    rw [htwo, Option.map_some, hstarted] at hsides
    cases hsides
    rfl
  exact ⟨shell, hrun, hparent, shell_tracks_applications ⟨[], [], [], .empty⟩ () ⟨0, 0, 0⟩ 0 1
    (.ok (.empty, 0)) 1 shell_spawned hspawn _ (pipeline_steps_fitting _) shell hrun hclean⟩

/-- The right side cannot be loaded. -/
def one_sided : Outside Unit :=
  { sample_outside true with right := { sample_start with load := fun _ _ _ => throw .FileNotFound } }

/-- The left side of a pipeline whose right side could not be started is in no record. -/
theorem pipeline_loses_left_side : ∃ shell,
    take_steps (pipeline_steps one_sided) (.starting shell_spawned) = some shell ∧
      (∀ step ∈ pipeline_steps one_sided, step.Fitting 1) ∧ ¬ shell.Tracked 1 := by
  have hsteps : (take_steps (pipeline_steps one_sided) (.starting shell_spawned)).map (fun shell =>
      ((shell.kernel.global_scheduler.tasks 2).bind Task.parent,
        (List.finRange MAX_TASKS).all fun index => (shell.running_apps index).isNone)) =
      some (some 1, true) := by decide +kernel
  obtain ⟨shell, hrun, hresult⟩ := Option.map_eq_some_iff.mp hsteps
  obtain ⟨hchild, hempty⟩ := Prod.mk.inj hresult
  refine ⟨shell, hrun, pipeline_steps_fitting one_sided, fun htracked => ?_⟩
  obtain ⟨task, htask, hparent⟩ := Option.bind_eq_some_iff.mp hchild
  obtain ⟨index, ⟨app, happ, -⟩, -⟩ := htracked 2 task htask hparent
  have hnone := List.all_eq_true.mp hempty index (List.mem_finRange index)
  rw [happ] at hnone
  cases hnone

end leafos.shell
