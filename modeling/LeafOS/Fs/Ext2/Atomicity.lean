import LeafOS.Fs.Ext2.Contents
import LeafOS.Support.Ensures

namespace leafos.fs.ext2

open leafos.drivers.ata Ext2Error
open Prog (Ensures Ends Maintains)
open Outcome (bind_eq_ok_iff okOr_eq_ok_iff guarded_eq_ok_iff pure_eq_ok_iff)

section Logs

variable (metadata : Metadata)

/-- The disk with a block replaced. -/
def put_block (block : Nat) (contents : Buffer) (disk : ByteMap) : ByteMap := fun address =>
  if address / metadata.block_size = block then contents.bytes (address % metadata.block_size) else disk address

/-- The disk with an undo log written back. -/
def undone : List (Nat × Buffer) → ByteMap → ByteMap
  | [], disk => disk
  | (block, contents) :: rest, disk => undone rest (put_block metadata block contents disk)

/-- In a transaction whose undo log leads back to the given disk. -/
def Logs (base : ByteMap) (log : List (Nat × Buffer)) (volume : Volume) : Prop :=
  volume.undo = some log ∧ undone metadata log volume.drive.bytes = base

def Logged (base : ByteMap) (volume : Volume) : Prop := ∃ log, Logs metadata base log volume

/-- Only the given blocks have changed. -/
def Spared (changed : Nat → Prop) (before after : ByteMap) : Prop :=
  ∀ address, ¬ changed (address / metadata.block_size) → after address = before address

end Logs

variable {α : Type} {metadata : Metadata} {base before after : ByteMap} {block : Nat} {log : List (Nat × Buffer)}

/-- Whatever the saved blocks hold, the undo log leads back. -/
theorem undone_congr (hspared : Spared metadata (· ∈ log.map Prod.fst) before after) :
    undone metadata log after = undone metadata log before := by
  induction log generalizing before after with
  | nil => exact funext fun address => hspared address List.not_mem_nil
  | cons entry rest ih =>
    refine ih fun address haddress => ?_
    unfold put_block
    split_ifs with hblock
    · rfl
    · exact hspared address (by simpa [hblock] using haddress)

section Readers

variable (reader : Reader α)

theorem reader_unwritten (volume : Volume) : Unwritten volume (reader.run answer volume).2 := by
  refine Inquiry.run_maintains (fun access state hstate => ?_) reader volume (.refl volume)
  cases access with
  | read_sectors request =>
    obtain ⟨after, hafter, heq⟩ := answer_read_sectors request state
    rw [heq]
    exact hstate.trans hafter
  | try_reserve =>
    obtain ⟨after, hafter, heq⟩ := answer_try_reserve state
    rw [heq]
    exact hstate.trans hafter

theorem Logs.lasts {volume later : Volume} (hlogs : Logs metadata base log volume) (hlater : Unwritten volume later) :
    Logs metadata base log later := by
  unfold Logs
  rwa [hlater.undo, hlater.bytes]

/-- A reader leaves the log as it was, and returns what the disk holds. -/
theorem reader_ends : Ends (Logs metadata base log) (liftM reader : Ext2M α)
    (fun value volume => on_disk volume.drive.bytes reader = .ok value ∧ Logs metadata base log volume)
    (fun _ => Logs metadata base log) (Logs metadata base log) := by
  show Ends _ (reader.run answer) _ _ _
  constructor
  intro volume hvolume
  have hkept := hvolume.lasts (reader_unwritten reader volume)
  generalize hrun : reader.run answer volume = result at hkept ⊢
  rcases result with ⟨value | error | _, after⟩
  · obtain ⟨hvalue, hunwritten⟩ := read_ok hrun
    exact ⟨by rwa [hunwritten.bytes], hkept⟩
  · exact hkept
  · exact hkept

theorem reader_logged : Maintains (Logged metadata base) (liftM reader : Ext2M α) :=
  fun volume ⟨log, hlogs⟩ => ⟨log, hlogs.lasts (reader_unwritten reader volume)⟩

end Readers

/-- A write is refused, or leaves something in its sectors: its input, when it succeeds. -/
theorem write_sectors_cases (lba count : Nat) (input : Buffer) (volume : Volume) :
    ∃ outcome after, on_drive (write_sectors lba count input) volume = (outcome, after) ∧ after.undo = volume.undo ∧
      (after.drive.bytes = volume.drive.bytes ∧ outcome ≠ .ok () ∨
        ∃ left, after.drive.bytes = (volume.drive.overwrite lba count left).bytes ∧
          (outcome = .ok () → left = input.bytes)) := by
  simp only [on_drive, Prog.mapErr, Prog.zoom, write_sectors, submit, Prog.bind_apply, Prog.modify_apply]
  cases validate_request _ with
  | error error => exact ⟨_, _, rfl, rfl, .inl ⟨rfl, by simp⟩⟩
  | ok _ =>
    simp only [next_operation, Prog.pure_apply, Prog.get_apply]
    cases volume.drive.faults.write volume.drive.operations with
    | some fault => exact ⟨_, _, rfl, rfl, .inr ⟨fault.2, rfl, by simp⟩⟩
    | none => exact ⟨_, _, rfl, rfl, .inr ⟨input.bytes, rfl, fun _ => rfl⟩⟩

section Writes

variable (hvalid : metadata.Valid) {E : Ext2Error → Volume → Prop}
include hvalid

theorem overwritten (block address : Nat) :
    block * (metadata.block_size / 512) * 512 ≤ address ∧
        address < (block * (metadata.block_size / 512) + metadata.block_size / 512) * 512 ↔
      address / metadata.block_size = block := by
  rcases hvalid.block_size with hsize | hsize | hsize <;> simp only [hsize, Nat.reduceDiv] <;> omega

/-- A write changes its own block only, and puts its contents there when it succeeds. -/
theorem write_block_spec (block : Nat) (contents : Buffer) (volume : Volume) :
    let result := write_block metadata block contents volume
    result.2.undo = volume.undo ∧ Spared metadata (· = block) volume.drive.bytes result.2.drive.bytes ∧
      (result.1 = .ok () → result.2.drive.bytes = put_block metadata block contents volume.drive.bytes) := by
  simp only [write_block, Prog.bind_apply, Prog.lift_apply]
  cases hlocate : locate_block metadata block contents.length with
  | err error | panic => exact ⟨rfl, fun _ _ => rfl, by simp⟩
  | ok request =>
    simp only [locate_block, bind_eq_ok_iff, disk_block_size, okOr_eq_ok_iff, checked_u32_eq_some,
      Option.ite_none_right_eq_some, Option.some.injEq, pure_eq_ok_iff] at hlocate
    obtain ⟨-, -, -, ⟨-, rfl⟩, -, ⟨-, rfl⟩, rfl⟩ := hlocate
    cases hslice : contents.slice 0 metadata.block_size with
    | err error | panic => exact ⟨rfl, fun _ _ => rfl, by simp⟩
    | ok input =>
      obtain ⟨-, rfl⟩ := guarded_eq_ok_iff.mp hslice
      dsimp only
      obtain ⟨outcome, after, heq, hundo, ⟨hbytes, hfailed⟩ | ⟨left, hbytes, hleft⟩⟩ := write_sectors_cases
        (block * (metadata.block_size / 512)) (metadata.block_size / 512) _ volume
      · rw [heq]
        exact ⟨hundo, fun address _ => congrFun hbytes address, fun hok => absurd hok hfailed⟩
      · have hspared : Spared metadata (· = block) volume.drive.bytes after.drive.bytes := fun address hother => by
          rw [hbytes]
          exact if_neg (mt (overwritten hvalid block address).mp hother)
        rw [heq]
        refine ⟨hundo, hspared, fun hok => funext fun address => ?_⟩
        unfold put_block
        split_ifs with hblock
        · rw [hbytes, hleft hok]
          refine (if_pos ((overwritten hvalid block address).mpr hblock)).trans ?_
          simp only [block_size_sectors hvalid, Nat.zero_add, ← hblock, Nat.mod_eq_sub_div_mul]
        · exact hspared address hblock

theorem put_block_read {disk : ByteMap} {contents : Buffer}
    (hread : on_disk disk (read_block metadata block) = .ok contents) : put_block metadata block contents disk = disk := by
  have hsize := hvalid.block_size
  rw [read_block_on_disk hvalid] at hread
  split_ifs at hread
  obtain rfl := Outcome.ok.inj hread
  funext address
  unfold put_block
  split_ifs with hblock
  · refine (if_pos (Nat.mod_lt _ (by omega))).trans ?_
    rw [← hblock, Nat.div_add_mod']
  · rfl

/-- The first write to a block in a transaction saves the block. -/
theorem save_original_ends (block : Nat) :
    Ends (Logs metadata base log) (BlockTransaction.save_original metadata block log)
    (fun _ volume => ∃ log, block ∈ log.map Prod.fst ∧ Logs metadata base log volume)
    (fun _ => Logs metadata base log) (Logs metadata base log) := by
  unfold BlockTransaction.save_original
  split_ifs with hsaved
  · exact Ends.pure.pre fun volume hvolume => ⟨log, by simpa using hsaved, hvolume⟩
  · refine Ends.bind (reader_ends try_reserve) fun _ => Ends.bind ((reader_ends _).pre fun _ h => h.2) fun original =>
      Ends.modify.pre ?_
    rintro volume ⟨hread, -, hbase⟩
    refine ⟨(block, original) :: log, List.mem_cons_self, rfl, ?_⟩
    rwa [undone, put_block_read hvalid hread]

/-- Every write within a transaction is logged. -/
theorem write_through_logged (block : Nat) (contents : Buffer) :
    Maintains (Logged metadata base) (write_through metadata block contents) := by
  rintro volume ⟨log, hlogs⟩
  simp only [write_through, Prog.bind_apply, Prog.get_apply, hlogs.1]
  have hsave := (save_original_ends hvalid block).ends volume hlogs
  generalize BlockTransaction.save_original metadata block log volume = result at hsave ⊢
  rcases result with ⟨_ | _ | _, middle⟩
  · obtain ⟨log, hsaved, hundo, hbase⟩ := hsave
    obtain ⟨hsame, hspared, -⟩ := write_block_spec hvalid block contents middle
    refine ⟨log, hsame.trans hundo, ?_⟩
    rw [undone_congr fun address haddress => hspared address ?_, hbase]
    rintro rfl
    exact haddress hsaved
  · exact ⟨log, hsave⟩
  · exact ⟨log, hsave⟩

theorem update_free_counters_logged (descriptor : Buffer) (blocks_delta inodes_delta : Int) :
    Maintains (Logged metadata base) (update_free_counters metadata descriptor blocks_delta inodes_delta) := by
  unfold update_free_counters
  split_ifs
  · exact .pure ()
  · exact .bind (.constant _) fun _ => (reader_logged _).bind fun _ => .bind (.constant _) fun _ =>
      .bind (.constant _) fun _ => (write_through_logged hvalid _ _).bind fun _ => write_through_logged hvalid _ _

theorem free_data_blocks_logged (blocks : List Nat) :
    Maintains (Logged metadata base) (free_data_blocks metadata blocks) := by
  unfold free_data_blocks
  split_ifs
  · exact .pure ()
  · exact (reader_logged _).bind fun _ => .bind (.constant _) fun _ => (write_through_logged hvalid _ _).bind fun _ =>
      .bind (.constant _) fun _ => update_free_counters_logged hvalid _ _ _

theorem commit_logged (plan : FilePlan) (inode : Inode) :
    Maintains (Logged metadata base) (commit metadata plan inode) := by
  unfold commit write_block_bitmap write_inode_bitmap write_inode_fields add_directory_entry
  refine .bind ?_ fun _ => .bind ?_ fun _ => (update_free_counters_logged hvalid _ _ _).bind fun _ =>
    ((reader_logged _).bind fun _ => write_through_logged hvalid _ _).bind fun _ => ?_
  · split_ifs
    · exact write_through_logged hvalid _ _
    · exact .pure ()
  · split_ifs
    · exact .bind (.constant _) fun _ => write_through_logged hvalid _ _
    · exact .pure ()
  · split_ifs
    · exact .bind (.constant _) fun _ => (reader_logged _).bind fun _ => (reader_logged _).bind fun _ =>
        write_through_logged hvalid _ _
    · exact .pure ()

/-- The writes of a rollback; when none has failed, they lead back. -/
theorem restore_ensures (log : List (Nat × Buffer)) (start : Volume) :
    Ensures (· = start) (BlockTransaction.restore metadata log)
      (fun failed volume => failed = false → volume.drive.bytes = undone metadata log start.drive.bytes) E := by
  induction log generalizing start with
  | nil =>
    constructor
    rintro _ rfl -
    rfl
  | cons entry rest ih =>
    constructor
    rintro volume rfl
    have hwrite := (write_block_spec hvalid entry.1 entry.2 volume).2.2
    simp only [BlockTransaction.restore, Prog.bind_apply, Prog.attempt]
    generalize write_block metadata entry.1 entry.2 volume = result at hwrite ⊢
    rcases result with ⟨_ | _ | _, middle⟩
    · refine (Ends.bind (ih middle) fun failed => ?_).ends middle rfl
      constructor
      intro after hafter hdone
      rw [undone, ← hwrite rfl]
      exact hafter (by simpa [Except.isOk, Except.toBool] using hdone)
    · refine (Ends.bind (ih middle) fun failed => ?_).ends middle rfl
      constructor
      intro after _ hdone
      simp [Except.isOk, Except.toBool] at hdone
    · trivial

theorem rollback_ensures (log : List (Nat × Buffer)) (start : Volume) :
    Ensures (· = start) (BlockTransaction.rollback metadata log)
      (fun _ volume => volume.drive.bytes = undone metadata log start.drive.bytes)
      (fun error _ => error = RecoveryFailed) := by
  refine (restore_ensures hvalid log start).bind fun failed => ?_
  cases failed with
  | true => exact Ends.throw.pre fun _ _ => rfl
  | false => exact Ends.pure.pre fun _ hafter => hafter rfl

omit hvalid in
/-- The undo log of a transaction leads back to where it began. -/
theorem in_transaction_ensures {program : Ext2M α} (hprogram : Maintains (Logged metadata base) program) :
    Ensures (fun volume => volume.drive.bytes = base) (in_transaction program)
      (fun result volume => undone metadata result.2 volume.drive.bytes = base) E := by
  constructor
  rintro volume rfl
  have hlogged := hprogram { volume with undo := some [] } ⟨[], rfl, rfl⟩
  simp only [in_transaction, Prog.bind_apply, Prog.modify_apply, Prog.attempt]
  generalize program { volume with undo := some [] } = result at hlogged ⊢
  obtain ⟨log, hundo, hbase⟩ := hlogged
  rcases result with ⟨value | error | _, after⟩ <;> dsimp only at hundo hbase
  · simpa [hundo] using hbase
  · simpa [hundo] using hbase
  · trivial

theorem abandon_ensures {cleanup_log : List (Nat × Buffer)} {committed : ByteMap} (error : Ext2Error)
    (hlog : undone metadata log committed = base) :
    Ensures (fun volume => undone metadata cleanup_log volume.drive.bytes = committed)
      (abandon metadata log cleanup_log error) (fun _ _ => True)
      (fun error volume => error = RecoveryFailed ∨ volume.drive.bytes = base) := by
  apply Ends.at_state
  rintro start rfl
  refine (rollback_ensures hvalid cleanup_log start).attempt.bind fun cleanup_rollback => ?_
  apply Ends.at_state
  intro middle hmiddle
  refine (rollback_ensures hvalid log middle).attempt.bind fun commit_rollback => ⟨fun after hafter => ?_⟩
  cases cleanup_rollback with
  | error _ => exact .inl rfl
  | ok _ =>
    cases commit_rollback with
    | error _ => exact .inl rfl
    | ok _ => exact .inr (by rw [hafter, hmiddle, hlog])

/-- A `write_file` that fails once its transactions have begun is undone. Whichever requests to the
drive fail, and whatever failed writes leave behind, an error other than `RecoveryFailed` means
that the disk is as it was before the first transaction. -/
theorem commit_is_atomic (plan : FilePlan) (inode : Inode) :
    Ensures (fun volume => volume.drive.bytes = base) (commit_and_cleanup metadata plan inode) (fun _ _ => True)
      (fun error volume => error = RecoveryFailed ∨ volume.drive.bytes = base) := by
  refine Ends.bind (in_transaction_ensures (commit_logged hvalid plan inode)) ?_
  rintro ⟨error | _, log⟩
  · apply Ends.at_state
    intro committed hcommitted
    refine Ends.bind ((rollback_ensures hvalid log committed).mono (fun _ h => h) (fun _ _ h => h) fun _ _ h => .inl h)
      fun _ => Ends.throw.pre fun after hafter => .inr (hafter.trans hcommitted)
  · constructor
    intro committed hcommitted
    refine (Ends.bind (in_transaction_ensures (free_data_blocks_logged hvalid plan.old_blocks)) ?_).ends committed rfl
    rintro ⟨error | _, cleanup_log⟩
    · exact abandon_ensures hvalid error hcommitted
    · exact Ends.pure.pre fun _ _ => trivial

end Writes

/-- A plan to replace a file. The block that it takes is not among the free ones that are counted. -/
def sample_plan : FilePlan where
  parent := ⟨2, sample_file, []⟩
  existing := some (3, sample_file)
  old_blocks := []
  tables := ⟨3, 4, zeroed_block, { zeroed_block with bytes := fun _ => 255 }, zeroed_block⟩
  allocated_inode := 3
  allocated_blocks := 1

/-- A drive on which the first write fails, and leaves other bytes in its block. -/
def sample_failing : Volume :=
  { sample_pointers with drive.faults.write := fun operation =>
      if operation = 2 then some (⟨.Timeout, by decide⟩, fun _ => 9) else none }

/-- The block bitmap cannot be written; the rollback puts it back. -/
theorem commit_is_atomic_sample :
    let result := commit_and_cleanup sample_metadata sample_plan sample_file sample_failing
    result.1 = .err (Disk .Timeout) ∧ result.2.drive.requests.length = 3 ∧
      result.2.drive.bytes = sample_pointers.drive.bytes := by
  intro result
  have hfails : result.1 = .err (Disk .Timeout) := rfl
  refine ⟨hfails, rfl, ?_⟩
  obtain hrecovery | hsame := Ends.err (commit_is_atomic sample_metadata_valid sample_plan sample_file) rfl
    (Prog.run_of_outcome hfails)
  · cases hrecovery
  · exact hsame

end leafos.fs.ext2
