import LeafOS.Fs.Ext2.ReaderSafety

namespace leafos.fs.ext2

open leafos.drivers.ata Ext2Error

variable {access : Access} {volume after : Volume}

/-- How a disk answers when nothing goes wrong. -/
def answers (disk : ByteMap) : ∀ access, Accesses.Answer access
  | .read_sectors request => fun index => disk (request.lba * 512 + index)
  | .try_reserve => ()

/-- What a reader returns from a disk when nothing goes wrong. -/
def on_disk {α : Type} (disk : ByteMap) (reader : Reader α) : Checked α := reader.denote (answers disk)

section OnDisk

variable {α β : Type}

@[simp] theorem on_disk_pure (disk : ByteMap) (value : α) : on_disk disk (pure value) = .ok value := rfl

@[simp] theorem on_disk_lift (disk : ByteMap) (checked : Checked α) :
    on_disk disk (liftM checked : Reader α) = checked := rfl

@[simp] theorem on_disk_bind (disk : ByteMap) (reader : Reader α) (next : α → Reader β) :
    on_disk disk (reader >>= next) = on_disk disk reader >>= fun value => on_disk disk (next value) :=
  Inquiry.denote_bind reader next

@[simp] theorem read_sectors_on_disk (disk : ByteMap) (request : Request) :
    on_disk disk (read_sectors request) = .ok fun index => disk (request.lba * 512 + index) := rfl

@[simp] theorem try_reserve_on_disk (disk : ByteMap) : on_disk disk try_reserve = .ok () := rfl

end OnDisk

/-- What a part of the code that only reads leaves as it was. -/
structure Unwritten (before after : Volume) : Prop where
  bytes : after.drive.bytes = before.drive.bytes
  faults : after.drive.faults = before.drive.faults
  undo : after.undo = before.undo

theorem Unwritten.refl (volume : Volume) : Unwritten volume volume := ⟨rfl, rfl, rfl⟩

theorem Unwritten.trans {first second third : Volume} (hfirst : Unwritten first second)
    (hsecond : Unwritten second third) : Unwritten first third :=
  ⟨hsecond.bytes.trans hfirst.bytes, hsecond.faults.trans hfirst.faults, hsecond.undo.trans hfirst.undo⟩

theorem answer_read_sectors (request : Request) (volume : Volume) :
    ∃ after, Unwritten volume after ∧ answer (.read_sectors request) volume =
      (match validate_request request with
        | .error error => .err (.Disk error)
        | .ok _ => match volume.drive.faults.read volume.drive.operations with
          | some error => .err (.Disk error.1)
          | none => .ok (answers volume.drive.bytes (.read_sectors request)), after) := by
  simp only [answer, on_drive, Prog.mapErr, Prog.zoom, drivers.ata.read_sectors, submit, Prog.bind_apply, Prog.modify_apply]
  cases validate_request request with
  | error error =>
    refine ⟨_, ?_, rfl⟩
    exact ⟨rfl, rfl, rfl⟩
  | ok _ =>
    simp only [next_operation, Prog.pure_apply, Prog.get_apply]
    cases volume.drive.faults.read volume.drive.operations with
    | some error =>
      refine ⟨_, ?_, rfl⟩
      exact ⟨rfl, rfl, rfl⟩
    | none =>
      refine ⟨_, ?_, rfl⟩
      exact ⟨rfl, rfl, rfl⟩

theorem answer_try_reserve (volume : Volume) :
    ∃ after, Unwritten volume after ∧ answer .try_reserve volume =
      (if volume.drive.faults.reserve volume.drive.operations then .err .AllocationFailed else .ok (), after) := by
  simp only [answer, reserve, Prog.bind_apply, Prog.zoom, next_operation, Prog.get_apply]
  split
  all_goals
    refine ⟨_, ?_, rfl⟩
    exact ⟨rfl, rfl, rfl⟩

/-- Answering writes nothing, and an answer is what the disk holds. -/
theorem answer_ok {value : Accesses.Answer access} (hanswer : answer access volume = (.ok value, after)) :
    value = answers volume.drive.bytes access ∧ Unwritten volume after := by
  cases access with
  | read_sectors request =>
    obtain ⟨found, hfound, heq⟩ := answer_read_sectors request volume
    obtain ⟨houtcome, rfl⟩ := Prod.mk.inj (heq.symm.trans hanswer)
    refine ⟨?_, hfound⟩
    split at houtcome
    · cases houtcome
    · split at houtcome
      · cases houtcome
      · exact (Outcome.ok.inj houtcome).symm
  | try_reserve =>
    obtain ⟨found, hfound, heq⟩ := answer_try_reserve volume
    obtain ⟨-, rfl⟩ := Prod.mk.inj (heq.symm.trans hanswer)
    exact ⟨rfl, hfound⟩

theorem answer_faultless (hallowed : access.Allowed) (hfaults : volume.drive.faults = .none) :
    ∃ after, answer access volume = (.ok (answers volume.drive.bytes access), after) ∧ Unwritten volume after := by
  cases access with
  | read_sectors request =>
    obtain ⟨after, hafter, heq⟩ := answer_read_sectors request volume
    rw [show validate_request request = .ok () from hallowed, hfaults] at heq
    exact ⟨after, heq, hafter⟩
  | try_reserve =>
    obtain ⟨after, hafter, heq⟩ := answer_try_reserve volume
    rw [hfaults] at heq
    exact ⟨after, heq, hafter⟩

section Readers

variable {α : Type} {reader : Reader α}

/-- A reader that succeeds has returned what it returns when nothing goes wrong. -/
theorem read_ok {value : α} (hrun : reader.run answer volume = (.ok value, after)) :
    on_disk volume.drive.bytes reader = .ok value ∧ Unwritten volume after := by
  refine Inquiry.run_ok (I := Unwritten volume) (fun access state value after hstate hanswer => ?_) (.refl volume) hrun
  obtain ⟨hvalue, hafter⟩ := answer_ok hanswer
  rw [hstate.bytes] at hvalue
  exact ⟨hvalue, hstate.trans hafter⟩

/-- On a disk without faults a reader ends as it does when nothing goes wrong. -/
theorem read_faultless {Q : α → Prop} (hsafe : Reader.Safe Q reader) (hfaults : volume.drive.faults = .none) :
    (reader.run answer volume).1 = on_disk volume.drive.bytes reader := by
  have hhandler : ∀ access state, access.Allowed → Unwritten volume state →
      ∃ after, answer access state = (.ok (answers volume.drive.bytes access), after) ∧ Unwritten volume after := by
    intro access state hallowed hstate
    obtain ⟨after, hanswer, hafter⟩ := answer_faultless hallowed (hstate.faults.trans hfaults)
    rw [hstate.bytes] at hanswer
    exact ⟨after, hanswer, hstate.trans hafter⟩
  obtain ⟨after, hrun, -⟩ := Inquiry.run_eq_denote hhandler hsafe (.refl volume)
  exact congrArg Prod.fst hrun

end Readers

section Blocks

variable {metadata : Metadata} {disk : ByteMap}

/-- A block of a disk, as `read_block` leaves it in its buffer. -/
def disk_block (metadata : Metadata) (disk : ByteMap) (block : Nat) : Buffer :=
  { zeroed_block with
    bytes := ByteMap.below (fun index => disk (block * metadata.block_size + index)) metadata.block_size }

variable (hvalid : metadata.Valid)
include hvalid

theorem locate_block_eq {block buffer_len : Nat} (hbuffer : metadata.block_size ≤ buffer_len) :
    locate_block metadata block buffer_len =
      if block < metadata.blocks_count then
        .ok ⟨block * (metadata.block_size / 512), metadata.block_size / 512, metadata.block_size⟩
      else .err InvalidFilesystem := by
  have hsize := hvalid.block_size
  have hdisk := hvalid.disk_sectors
  unfold locate_block
  split_ifs with hblock
  · have hrefuse : (decide (metadata.blocks_count ≤ block) || decide (buffer_len < metadata.block_size)) = false := by
      simp only [Bool.or_eq_false_iff, decide_eq_false_iff_not]
      omega
    have hsectors : disk_block_size metadata.block_size = .ok (metadata.block_size / 512) := by
      unfold disk_block_size
      rw [if_pos (by omega)]
      rfl
    have hlba : checked_u32 (block * (metadata.block_size / 512)) = some (block * (metadata.block_size / 512)) := by
      have hle : block * (metadata.block_size / 512) ≤ metadata.blocks_count * (metadata.block_size / 512) :=
        Nat.mul_le_mul_right _ (by omega)
      unfold checked_u32
      rw [if_pos (by omega)]
    rw [hrefuse, hsectors]
    simp only [Outcome.refuse_false, Outcome.ok_bind, hlba, Outcome.okOr_some]
    rfl
  · have hrefuse : (decide (metadata.blocks_count ≤ block) || decide (buffer_len < metadata.block_size)) = true := by
      simp only [Bool.or_eq_true, decide_eq_true_eq]
      omega
    rw [hrefuse]
    rfl

theorem block_size_sectors (block : Nat) : block * (metadata.block_size / 512) * 512 = block * metadata.block_size := by
  rcases hvalid.block_size with hsize | hsize | hsize <;> rw [hsize] <;> omega

theorem read_block_on_disk (block : Nat) :
    on_disk disk (read_block metadata block) =
      if block < metadata.blocks_count then .ok (disk_block metadata disk block) else .err InvalidFilesystem := by
  have hsize : metadata.block_size ≤ zeroed_block.length := by
    have := hvalid.block_size
    show _ ≤ 4096
    omega
  simp only [read_block, on_disk_bind, on_disk_lift, locate_block_eq hvalid hsize]
  split_ifs with hblock
  · simp only [Outcome.ok_bind, unchecked, Outcome.unchecked, Outcome.guarded, if_pos hsize, read_sectors_on_disk,
      block_size_sectors hvalid block]
    rfl
  · rfl

end Blocks

end leafos.fs.ext2
