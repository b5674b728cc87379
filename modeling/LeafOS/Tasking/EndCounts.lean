import LeafOS.Tasking.PipeEnds

namespace leafos.tasking.fd

/-- The descriptors that pipes count. -/
def FileDescriptor.IsEnd (self : FileDescriptor) : Prop :=
  match self with
  | .PipeRead _ | .PipeWrite _ => True
  | _ => False

/-- What a pipe counts for one of its ends. -/
def Objects.count (objects : Objects) (descriptor : FileDescriptor) : Nat :=
  match descriptor with
  | .PipeRead pipe => (objects.pipes[pipe]?.map Pipe.readers).getD 0
  | .PipeWrite pipe => (objects.pipes[pipe]?.map Pipe.writers).getD 0
  | _ => 0

/-- The calls into this module that touch the shared objects. -/
inductive FdCall where
  | create_pipe
  | clone (descriptor : FileDescriptor)
  | drop (descriptor : FileDescriptor)
  | read (descriptor : FileDescriptor) (capacity : Nat)
  | write (descriptor : FileDescriptor) (input : List UInt8) (stored : Bool)

def FdCall.apply (call : FdCall) (objects : Objects) : Objects :=
  match call with
  | .create_pipe => (fd.create_pipe objects).2
  | .clone descriptor => descriptor.clone objects
  | .drop descriptor => descriptor.drop objects
  | .read descriptor capacity => (fd.read descriptor capacity objects).2
  | .write descriptor input stored => (fd.write descriptor input stored objects).2

/-- A drop of a pipe end finds it counted, so that the subtraction does not saturate. -/
def FdCall.Exact (call : FdCall) (objects : Objects) : Prop :=
  match call with
  | .drop descriptor => descriptor.IsEnd → 0 < objects.count descriptor
  | _ => True

/-- Make calls in order, each of them exact. -/
inductive Settles : List FdCall → Objects → Objects → Prop
  | nil (objects : Objects) : Settles [] objects objects
  | cons {call : FdCall} {rest : List FdCall} {objects after : Objects} (hexact : call.Exact objects)
      (hrest : Settles rest (call.apply objects) after) : Settles (call :: rest) objects after

/-- The pipes count what is held. -/
def Objects.Counts (objects : Objects) (held : FileDescriptor → Nat) : Prop :=
  ∀ descriptor, descriptor.IsEnd → objects.count descriptor = held descriptor

section Ledger

variable {objects middle after : Objects} {held : FileDescriptor → Nat} {pipe readers writers : Nat} {table : FdTable}
  (descriptor : FileDescriptor)

theorem Settles.append {first second : List FdCall} (hfirst : Settles first objects middle)
    (hsecond : Settles second middle after) : Settles (first ++ second) objects after := by
  induction hfirst with
  | nil _ => exact hsecond
  | cons hexact _ ih => exact .cons hexact (ih hsecond)

theorem count_gain (hpipe : after.pipes[pipe]? = objects.pipes[pipe]?.map fun state => state.gain readers writers)
    (hexists : objects.pipes[pipe]? = none → readers = 0 ∧ writers = 0) :
    after.count (.PipeRead pipe) = objects.count (.PipeRead pipe) + readers ∧
      after.count (.PipeWrite pipe) = objects.count (.PipeWrite pipe) + writers := by
  simp only [Objects.count, hpipe]
  cases hstate : objects.pipes[pipe]? with
  | none => simp [hexists hstate]
  | some state => exact ⟨rfl, rfl⟩

theorem count_lose (hpipe : after.pipes[pipe]? = objects.pipes[pipe]?.map fun state => state.lose readers writers) :
    after.count (.PipeRead pipe) = objects.count (.PipeRead pipe) - readers ∧
      after.count (.PipeWrite pipe) = objects.count (.PipeWrite pipe) - writers := by
  simp only [Objects.count, hpipe]
  cases objects.pipes[pipe]? with
  | none => simp
  | some state => exact ⟨rfl, rfl⟩

/-- A table or slot may be cloned while what it holds is held. -/
theorem Objects.Counts.gain (hcounts : objects.Counts held) {more : FileDescriptor → Nat}
    (hpipes : ∀ pipe : Nat, after.pipes[pipe]? = objects.pipes[pipe]?.map fun state =>
      state.gain (more (.PipeRead pipe)) (more (.PipeWrite pipe)))
    (hheld : ∀ descriptor, descriptor.IsEnd → 0 < more descriptor → 0 < held descriptor) :
    after.Counts fun descriptor => held descriptor + more descriptor := by
  -- an end that is held belongs to a pipe that exists
  have hexists : ∀ pipe : Nat, objects.pipes[pipe]? = none →
      more (.PipeRead pipe) = 0 ∧ more (.PipeWrite pipe) = 0 := by
    intro pipe hnone
    have hread := hcounts (.PipeRead pipe) trivial
    have hwrite := hcounts (.PipeWrite pipe) trivial
    simp only [Objects.count, hnone, Option.map_none, Option.getD_none] at hread hwrite
    refine ⟨Nat.eq_zero_of_not_pos fun hpos => ?_, Nat.eq_zero_of_not_pos fun hpos => ?_⟩
    · exact absurd (hheld (.PipeRead pipe) trivial hpos) (by omega)
    · exact absurd (hheld (.PipeWrite pipe) trivial hpos) (by omega)
  intro descriptor hend
  cases descriptor with
  | PipeRead pipe => rw [(count_gain (hpipes pipe) (hexists pipe)).1, hcounts _ hend]
  | PipeWrite pipe => rw [(count_gain (hpipes pipe) (hexists pipe)).2, hcounts _ hend]
  | _ => cases hend

theorem Objects.Counts.lose {less : FileDescriptor → Nat}
    (hcounts : objects.Counts fun descriptor => held descriptor + less descriptor)
    (hpipes : ∀ pipe : Nat, after.pipes[pipe]? = objects.pipes[pipe]?.map fun state =>
      state.lose (less (.PipeRead pipe)) (less (.PipeWrite pipe))) : after.Counts held := by
  intro descriptor hend
  have hcount := hcounts descriptor hend
  cases descriptor with
  | PipeRead pipe => rw [(count_lose (hpipes pipe)).1, hcount, Nat.add_sub_cancel]
  | PipeWrite pipe => rw [(count_lose (hpipes pipe)).2, hcount, Nat.add_sub_cancel]
  | _ => cases hend

/-- Moving bytes through a pipe moves no end. -/
theorem count_transfer (pipe : Nat) (ring : Pipe → ByteRing PIPE_CAPACITY) (descriptor : FileDescriptor) :
    (objects.modifyPipe pipe fun state => { state with toByteRing := ring state }).count descriptor =
      objects.count descriptor := by
  cases descriptor <;> simp only [Objects.count, getElem?_modifyPipe]
  all_goals
    split
    · rw [Option.map_map]
      rfl
    · rfl

theorem count_read (capacity : Nat) (objects : Objects) :
    (fd.read descriptor capacity objects).2.count = objects.count := by
  funext other
  cases descriptor with
  | Stdin =>
    simp only [fd.read]
    split <;> cases other <;> rfl
  | PipeRead pipe =>
    simp only [fd.read]
    cases objects.pipes[pipe]? with
    | none => rfl
    | some state =>
      dsimp only
      split
      · rfl
      · exact count_transfer pipe _ other
  | FileRead file =>
    simp only [fd.read]
    cases objects.file_reads[file]? with
    | none => rfl
    | some state => cases other <;> rfl
  | Console => rfl
  | PipeWrite pipe => rfl
  | FileWrite file => rfl

theorem count_write (input : List UInt8) (stored : Bool) (objects : Objects) :
    (fd.write descriptor input stored objects).2.count = objects.count := by
  funext other
  cases descriptor with
  | PipeWrite pipe =>
    simp only [fd.write]
    cases objects.pipes[pipe]? with
    | none => rfl
    | some state =>
      dsimp only
      split
      · rfl
      · split <;> exact count_transfer pipe _ other
  | FileWrite file =>
    simp only [fd.write]
    split <;> cases other <;> rfl
  | Console => rfl
  | Stdin => rfl
  | PipeRead pipe => rfl
  | FileRead file => rfl

/-- The clone and drop calls for a slot, and for a table in the order of its slots. -/
def clones (slot : Option FileDescriptor) : List FdCall := (slot.map FdCall.clone).toList

def drops (slot : Option FileDescriptor) : List FdCall := (slot.map FdCall.drop).toList

def table_clones (table : FdTable) : List FdCall := (List.finRange MAX_FDS).flatMap fun index => clones (table index)

def table_drops (table : FdTable) : List FdCall := (List.finRange MAX_FDS).flatMap fun index => drops (table index)

theorem Settles.clone (objects : Objects) :
    Settles [.clone descriptor] objects (descriptor.clone objects) := .cons trivial (.nil _)

theorem Objects.Counts.clone (hcounts : objects.Counts held) {descriptor : FileDescriptor}
    (hheld : 0 < held descriptor) :
    (descriptor.clone objects).Counts fun other => held other + tally (some descriptor) other := by
  refine hcounts.gain (fun pipe => clone_pipes objects pipe descriptor) fun other _ hpos => ?_
  unfold tally at hpos
  split at hpos
  · rename_i hsame
    cases hsame
    exact hheld
  · cases hpos

theorem Objects.Counts.close_slot {slot : Option FileDescriptor}
    (hcounts : objects.Counts fun descriptor => held descriptor + tally slot descriptor) :
    Settles (drops slot) objects (fd.close_slot slot objects) ∧ (fd.close_slot slot objects).Counts held := by
  refine ⟨?_, hcounts.lose fun pipe => close_slot_pipes objects pipe slot⟩
  cases slot with
  | none => exact .nil _
  | some descriptor =>
    refine .cons (fun hend => ?_) (.nil _)
    rw [hcounts descriptor hend]
    simp [tally]

theorem Settles.table_clones (table : FdTable) (objects : Objects) :
    Settles (fd.table_clones table) objects (clone_table table objects) := by
  unfold fd.table_clones clone_table
  generalize List.finRange MAX_FDS = indices
  induction indices generalizing objects with
  | nil => exact .nil _
  | cons index rest ih =>
    rw [List.flatMap_cons, List.foldl_cons]
    cases table index with
    | none => exact ih objects
    | some descriptor => exact .append (.clone descriptor objects) (ih _)

theorem Objects.Counts.clone_table (hcounts : objects.Counts held)
    (hheld : ∀ descriptor, ends table descriptor ≤ held descriptor) :
    (fd.clone_table table objects).Counts fun descriptor => held descriptor + ends table descriptor :=
  hcounts.gain (fun pipe => clone_table_pipes table objects pipe)
    fun descriptor _ hpos => Nat.lt_of_lt_of_le hpos (hheld descriptor)

/-- Dropping a table drops only ends that are counted. -/
theorem Objects.Counts.drop_table (hcounts : objects.Counts fun descriptor => held descriptor + ends table descriptor) :
    Settles (table_drops table) objects (fd.drop_table table objects) ∧
      (fd.drop_table table objects).Counts held := by
  revert hcounts
  unfold table_drops fd.drop_table ends
  generalize List.finRange MAX_FDS = indices
  induction indices generalizing objects with
  | nil => exact fun hcounts => ⟨.nil _, hcounts⟩
  | cons index rest ih =>
    intro hcounts
    have hfirst : objects.Counts fun descriptor => (held descriptor +
        rest.countP fun index => decide (table index = some descriptor)) + tally (table index) descriptor := by
      intro descriptor hend
      refine (hcounts descriptor hend).trans ?_
      dsimp only
      rw [countP_cons_tally]
      omega
    obtain ⟨hsettles, hmiddle⟩ := hfirst.close_slot
    obtain ⟨hrest, hdone⟩ := ih hmiddle
    rw [List.flatMap_cons, List.foldl_cons]
    exact ⟨hsettles.append hrest, hdone⟩

/-- A fresh pipe counts its two ends, which nobody held before. -/
theorem Objects.Counts.create_pipe (hcounts : objects.Counts held) :
    (fd.create_pipe objects).2.Counts fun descriptor => (held descriptor +
      tally (some (.PipeWrite objects.pipes.length)) descriptor) +
      tally (some (.PipeRead objects.pipes.length)) descriptor := by
  have hpipes : ∀ pipe : Nat, (fd.create_pipe objects).2.pipes[pipe]? =
      if objects.pipes.length = pipe then some { Pipe.new with readers := 1 } else objects.pipes[pipe]? := by
    intro pipe
    simp only [fd.create_pipe, List.getElem?_append]
    split
    · rw [if_neg (by omega)]
    · split
      · subst_vars
        simp
      · rw [List.getElem?_eq_none (by simp; omega), List.getElem?_eq_none (by omega)]
  intro descriptor hend
  have hcount := hcounts descriptor hend
  cases descriptor with
  | PipeRead pipe | PipeWrite pipe =>
    simp only [Objects.count, hpipes, tally, reduceCtorEq, if_false, Option.some.injEq] at hcount ⊢
    by_cases hnew : objects.pipes.length = pipe
    · rw [List.getElem?_eq_none hnew.le] at hcount
      simp [hnew, ← hcount, Pipe.new]
    · simp [hnew, hcount]
  | _ => cases hend

end Ledger

end leafos.tasking.fd
