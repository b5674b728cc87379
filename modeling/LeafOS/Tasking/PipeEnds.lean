import LeafOS.Support.Assoc
import LeafOS.Tasking.Kernel

namespace leafos.tasking.fd

open Prog

variable (self : Pipe)

/-- The number of slots of a table that hold a descriptor. -/
def ends (table : FdTable) (descriptor : FileDescriptor) : Nat :=
  (List.finRange MAX_FDS).countP fun index => decide (table index = some descriptor)

/-- The pipe with more ends. -/
def Pipe.gain (self : Pipe) (readers writers : Nat) : Pipe :=
  { self with readers := self.readers + readers, writers := self.writers + writers }

/-- The pipe with fewer ends; the counts saturate at zero. -/
def Pipe.lose (self : Pipe) (readers writers : Nat) : Pipe :=
  { self with readers := self.readers - readers, writers := self.writers - writers }

@[simp] theorem Pipe.gain_zero : self.gain 0 0 = self := rfl

@[simp] theorem Pipe.lose_zero : self.lose 0 0 = self := rfl

theorem Pipe.gain_gain (readers writers more_readers more_writers : Nat) :
    (self.gain readers writers).gain more_readers more_writers =
      self.gain (readers + more_readers) (writers + more_writers) := by
  simp [gain, Nat.add_assoc]

theorem Pipe.lose_lose (readers writers more_readers more_writers : Nat) :
    (self.lose readers writers).lose more_readers more_writers =
      self.lose (readers + more_readers) (writers + more_writers) := by
  simp [lose, Nat.sub_sub]

/-- Ends that were gained can be lost again. -/
theorem Pipe.gain_lose {readers writers fewer_readers fewer_writers : Nat}
    (hreaders : fewer_readers ≤ readers) (hwriters : fewer_writers ≤ writers) :
    (self.gain readers writers).lose fewer_readers fewer_writers =
      self.gain (readers - fewer_readers) (writers - fewer_writers) := by
  simp only [gain, lose, Pipe.mk.injEq, true_and]
  exact ⟨Nat.add_sub_assoc hreaders _, Nat.add_sub_assoc hwriters _⟩

/-- One if a slot holds the descriptor, else zero. -/
def tally (slot : Option FileDescriptor) (descriptor : FileDescriptor) : Nat :=
  if slot = some descriptor then 1 else 0

section Counts

variable (objects : Objects) (pipe : Nat)

theorem getElem?_modifyPipe (changed : Nat) (update : Pipe → Pipe) :
    (objects.modifyPipe changed update).pipes[pipe]? =
      if changed = pipe then objects.pipes[pipe]?.map update else objects.pipes[pipe]? := by
  simp only [Objects.modifyPipe, List.getElem?_modify]
  split <;> cases objects.pipes[pipe]? <;> rfl

/-- A change of one pipe, as one that has no effect on the others. -/
theorem modifyPipe_pipes {changed : Nat} {update effect : Pipe → Pipe} (hsame : changed = pipe → update = effect)
    (hother : changed ≠ pipe → effect = id) :
    (objects.modifyPipe changed update).pipes[pipe]? = objects.pipes[pipe]?.map effect := by
  rw [getElem?_modifyPipe]
  split
  · rw [hsame ‹_›]
  · rw [hother ‹_›, Option.map_id, id]

theorem clone_pipes (descriptor : FileDescriptor) :
    (descriptor.clone objects).pipes[pipe]? = objects.pipes[pipe]?.map fun state =>
      state.gain (tally (some descriptor) (.PipeRead pipe)) (tally (some descriptor) (.PipeWrite pipe)) := by
  cases descriptor with
  | PipeRead changed | PipeWrite changed =>
    refine modifyPipe_pipes _ _ (fun hsame => ?_) fun hother => ?_
    · simp only [hsame, if_true, tally, Option.some.injEq, reduceCtorEq, if_false]
      rfl
    · simp [hother, tally, funext_iff]
  | _ => simp [FileDescriptor.clone, tally]

theorem close_slot_pipes (slot : Option FileDescriptor) :
    (close_slot slot objects).pipes[pipe]? = objects.pipes[pipe]?.map fun state =>
      state.lose (tally slot (.PipeRead pipe)) (tally slot (.PipeWrite pipe)) := by
  cases slot with
  | none => simp [close_slot, tally]
  | some descriptor =>
    simp only [close_slot, close]
    cases descriptor with
    | PipeRead changed | PipeWrite changed =>
      refine modifyPipe_pipes _ _ (fun hsame => ?_) fun hother => ?_
      · simp only [hsame, if_true, tally, Option.some.injEq, reduceCtorEq, if_false]
        rfl
      · simp [hother, tally, funext_iff]
    | _ => simp [FileDescriptor.drop, tally]

end Counts

/-- A change of one slot moves the number of ends by what leaves and what enters. -/
theorem ends_update (table : FdTable) (index : Fin MAX_FDS) (slot : Option FileDescriptor)
    (descriptor : FileDescriptor) :
    ends (Function.update table index slot) descriptor + tally (table index) descriptor =
      ends table descriptor + tally slot descriptor := by
  have hcount := List.countP_update (List.nodup_finRange MAX_FDS) (List.mem_finRange index) table slot
    fun held => decide (held = some descriptor)
  have htally : ∀ held, (decide (held = some descriptor)).toNat = tally held descriptor := by
    intro held
    unfold tally
    split <;> simp_all
  simp only [htally] at hcount
  exact hcount

theorem tally_le_ends (table : FdTable) (index : Fin MAX_FDS) (descriptor : FileDescriptor) :
    tally (table index) descriptor ≤ ends table descriptor := by
  have hcount := ends_update table index none descriptor
  simp only [tally, reduceCtorEq, if_false] at hcount ⊢
  omega

section Tables

variable (table : FdTable) (objects : Objects) (pipe : Nat)

/-- The number of given slots that hold a descriptor. -/
theorem countP_cons_tally (index : Fin MAX_FDS) (rest : List (Fin MAX_FDS)) (descriptor : FileDescriptor) :
    ((index :: rest).countP fun index => decide (table index = some descriptor)) =
      tally (table index) descriptor + rest.countP fun index => decide (table index = some descriptor) := by
  rw [List.countP_cons, Nat.add_comm]
  simp [tally]

theorem clone_table_pipes :
    (clone_table table objects).pipes[pipe]? = objects.pipes[pipe]?.map fun state =>
      state.gain (ends table (.PipeRead pipe)) (ends table (.PipeWrite pipe)) := by
  unfold clone_table ends
  generalize List.finRange MAX_FDS = indices
  induction indices generalizing objects with
  | nil => simp
  | cons index rest ih =>
    rw [List.foldl_cons, ih, countP_cons_tally, countP_cons_tally]
    cases htable : table index with
    | none => simp [tally]
    | some descriptor =>
      rw [clone_pipes, Option.map_map]
      congr 1
      funext state
      exact state.gain_gain _ _ _ _

theorem drop_table_pipes :
    (drop_table table objects).pipes[pipe]? = objects.pipes[pipe]?.map fun state =>
      state.lose (ends table (.PipeRead pipe)) (ends table (.PipeWrite pipe)) := by
  unfold drop_table ends
  generalize List.finRange MAX_FDS = indices
  induction indices generalizing objects with
  | nil => simp
  | cons index rest ih =>
    rw [List.foldl_cons, ih, countP_cons_tally, countP_cons_tally, close_slot_pipes, Option.map_map]
    congr 1
    funext state
    exact state.lose_lose _ _ _ _

end Tables

/-- A read from the pipe could neither deliver a byte nor report the end of the data. -/
def Objects.HoldsReaders (objects : Objects) (pipe : Nat) : Prop :=
  ∃ state, objects.pipes[pipe]? = some state ∧ state.length = 0 ∧ state.writers ≠ 0

/-- A write to the pipe could neither store a byte nor report that nobody reads. -/
def Objects.HoldsWriters (objects : Objects) (pipe : Nat) : Prop :=
  ∃ state, objects.pipes[pipe]? = some state ∧ state.length = PIPE_CAPACITY ∧ state.readers ≠ 0

section Held

variable {objects after : Objects} {pipe readers writers : Nat}

theorem Objects.HoldsReaders.gain (hholds : objects.HoldsReaders pipe)
    (hpipe : after.pipes[pipe]? = objects.pipes[pipe]?.map fun content => content.gain readers writers) :
    after.HoldsReaders pipe := by
  obtain ⟨state, hstate, hempty, hwriters⟩ := hholds
  refine ⟨state.gain readers writers, by rw [hpipe, hstate, Option.map_some], hempty, ?_⟩
  exact Nat.ne_of_gt (Nat.add_pos_left (Nat.pos_of_ne_zero hwriters) _)

theorem Objects.HoldsWriters.gain (hholds : objects.HoldsWriters pipe)
    (hpipe : after.pipes[pipe]? = objects.pipes[pipe]?.map fun content => content.gain readers writers) :
    after.HoldsWriters pipe := by
  obtain ⟨state, hstate, hfull, hreaders⟩ := hholds
  refine ⟨state.gain readers writers, by rw [hpipe, hstate, Option.map_some], hfull, ?_⟩
  exact Nat.ne_of_gt (Nat.add_pos_left (Nat.pos_of_ne_zero hreaders) _)

end Held

end leafos.tasking.fd

namespace leafos.tasking.scheduler

open leafos.tasking.fd Prog

variable {M : Type} (parent : Option TaskId)

/-- Every end in a private table is counted on top of the ends of `base`. -/
def Balanced (base : Objects) (pipe : Nat) (state : FdTable × Objects) : Prop :=
  state.2.pipes[pipe]? = base.pipes[pipe]?.map fun content =>
    content.gain (ends state.1 (.PipeRead pipe)) (ends state.1 (.PipeWrite pipe))

section Balance

variable {base objects : Objects} {pipe : Nat} {fds : FdTable} (fd_mappings : List FdMapping) (fd_closes : List Nat)

/-- Replacing a slot by a clone and closing what it held. -/
theorem Balanced.replace (hbalanced : Balanced base pipe (fds, objects)) (target : Fin MAX_FDS)
    (descriptor : FileDescriptor) :
    Balanced base pipe
      (Function.update fds target (some descriptor), close_slot (fds target) (descriptor.clone objects)) := by
  unfold Balanced at hbalanced ⊢
  rw [close_slot_pipes, clone_pipes, hbalanced, Option.map_map, Option.map_map]
  congr 1
  funext content
  have hread := tally_le_ends fds target (.PipeRead pipe)
  have hwrite := tally_le_ends fds target (.PipeWrite pipe)
  have hreaders := ends_update fds target (some descriptor) (.PipeRead pipe)
  have hwriters := ends_update fds target (some descriptor) (.PipeWrite pipe)
  simp only [Function.comp]
  rw [Pipe.gain_gain, Pipe.gain_lose _ (by omega) (by omega)]
  congr 1 <;> omega

theorem Balanced.take_and_close (hbalanced : Balanced base pipe (fds, objects)) (index : Fin MAX_FDS) :
    Balanced base pipe (Function.update fds index none, close_slot (fds index) objects) := by
  unfold Balanced at hbalanced ⊢
  rw [close_slot_pipes, hbalanced, Option.map_map]
  congr 1
  funext content
  have hread := tally_le_ends fds index (.PipeRead pipe)
  have hwrite := tally_le_ends fds index (.PipeWrite pipe)
  have hreaders := ends_update fds index none (.PipeRead pipe)
  have hwriters := ends_update fds index none (.PipeWrite pipe)
  simp only [tally, reduceCtorEq, if_false] at hread hwrite hreaders hwriters ⊢
  simp only [Function.comp]
  rw [Pipe.gain_lose _ (by omega) (by omega)]
  congr 1 <;> omega

theorem map_descriptors_balanced : Maintains (Balanced base pipe) (map_descriptors fd_mappings) := by
  induction fd_mappings with
  | nil => exact .pure ()
  | cons mapping rest ih =>
    rintro ⟨fds, objects⟩ hbalanced
    unfold map_descriptors
    split
    · rename_i bounds
      simp only [bind_apply, get_apply]
      cases fds ⟨mapping.source, bounds.1⟩ with
      | none => exact hbalanced
      | some descriptor => exact ih _ (hbalanced.replace ⟨mapping.target, bounds.2⟩ descriptor)
    · exact hbalanced

theorem take_and_close_balanced (index : Fin MAX_FDS) : Maintains (Balanced base pipe) (take_and_close index) :=
  fun _ hbalanced => hbalanced.take_and_close index

theorem close_sources_balanced : Maintains (Balanced base pipe) (close_sources fd_mappings) := by
  induction fd_mappings with
  | nil => exact .pure ()
  | cons mapping rest ih =>
    rw [close_sources]
    split
    · split
      · exact .bind (take_and_close_balanced _) fun _ => ih
      · exact .bind (.constant _) fun _ => ih
    · exact ih

theorem close_requested_balanced : Maintains (Balanced base pipe) (close_requested fd_closes) := by
  induction fd_closes with
  | nil => exact .pure ()
  | cons fd_number rest ih =>
    unfold close_requested
    split
    · exact .bind (take_and_close_balanced _) fun _ => ih
    · exact .constant _

theorem rearrange_descriptors_balanced : Maintains (Balanced base pipe) (rearrange_descriptors fd_mappings fd_closes) :=
  .bind (map_descriptors_balanced fd_mappings) fun _ =>
    .bind (close_sources_balanced fd_mappings) fun _ => close_requested_balanced fd_closes

/-- Dropping the private table gives back every end it held. -/
theorem Balanced.drop_table (hbalanced : Balanced base pipe (fds, objects)) :
    (drop_table fds objects).pipes[pipe]? = base.pipes[pipe]? := by
  unfold Balanced at hbalanced
  rw [drop_table_pipes, hbalanced, Option.map_map]
  cases base.pipes[pipe]? with
  | none => rfl
  | some content => simp [Pipe.gain_lose]

end Balance

theorem ends_initial_table (pipe : Nat) :
    ends initial_table (.PipeRead pipe) = 0 ∧ ends initial_table (.PipeWrite pipe) = 0 := by
  have hslots : ∀ index, initial_table index ≠ some (.PipeRead pipe) ∧
      initial_table index ≠ some (.PipeWrite pipe) := by
    intro index
    unfold initial_table
    split <;> [simp; split <;> [simp; split <;> simp]]
  exact ⟨List.countP_eq_zero.mpr fun index _ => by simp [(hslots index).1],
    List.countP_eq_zero.mpr fun index _ => by simp [(hslots index).2]⟩

theorem inherited_table_balanced (kernel : Kernel M) (pipe : Nat) :
    Balanced kernel.objects pipe (inherited_table parent kernel) := by
  unfold inherited_table
  cases parent.bind kernel.global_scheduler.task with
  | some task => exact clone_table_pipes task.fds kernel.objects pipe
  | none => simp [Balanced, ends_initial_table]

/-- Building a child's table takes no end away from anybody else, also when it fails. -/
theorem child_table_pipes (fd_mappings : List FdMapping) (fd_closes : List Nat) (kernel : Kernel M) (pipe : Nat) :
    ∃ readers writers, (child_table parent fd_mappings fd_closes kernel).2.objects.pipes[pipe]? =
      kernel.objects.pipes[pipe]?.map fun content => content.gain readers writers := by
  have hunchanged : ∃ readers writers, kernel.objects.pipes[pipe]? =
      kernel.objects.pipes[pipe]?.map fun content => content.gain readers writers := ⟨0, 0, by simp⟩
  have hbalanced := rearrange_descriptors_balanced fd_mappings fd_closes _
    (inherited_table_balanced parent kernel pipe)
  simp only [child_table, bind_apply, get_apply]
  generalize rearrange_descriptors fd_mappings fd_closes (inherited_table parent kernel) = result at hbalanced ⊢
  rcases result with ⟨_ | error | _, fds, objects⟩
  · exact ⟨_, _, hbalanced⟩
  · obtain ⟨readers, writers, hsame⟩ := hunchanged
    exact ⟨readers, writers, hbalanced.drop_table.trans hsame⟩
  · exact hunchanged

end leafos.tasking.scheduler
