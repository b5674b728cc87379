import LeafOS.Fs.Ext2.Disk

namespace leafos.fs.ext2

open Ext2Error
open Outcome (bind_eq_ok_iff)
open Outcome (refuse okOr Alike)

variable {block index : Nat} {cache : PointerCache}

section Meaning

variable (metadata : Metadata) (disk : ByteMap) (inode : Inode)

/-- A pointer of a pointer block. In a block that is absent, every pointer is. -/
def pointer (block index : Nat) : Nat :=
  if block = 0 then 0 else disk.word32 (block * metadata.block_size + index * 4)

/-- The block that holds a part of a file: the direct blocks come first, then what the
single-indirect block points to, then what the blocks under the double-indirect one point to.
An absent block has the number 0. -/
def data_block (logical_index : Nat) : Nat :=
  if hindex : logical_index < DIRECT_BLOCKS then
    inode.blocks ⟨logical_index, hindex⟩
  else
    let pointers_per_block := metadata.block_size / 4
    let indirect_index := logical_index - DIRECT_BLOCKS
    if indirect_index < pointers_per_block then
      pointer metadata disk inode.single_indirect indirect_index
    else
      let double_index := indirect_index - pointers_per_block
      pointer metadata disk (pointer metadata disk inode.double_indirect (double_index / pointers_per_block))
        (double_index % pointers_per_block)

/-- A byte of a block; an absent block reads as zeros. -/
def block_byte (block offset : Nat) : UInt8 :=
  if block = 0 then 0 else disk (block * metadata.block_size + offset)

/-- A byte of a file. -/
def file_byte (position : Nat) : UInt8 :=
  block_byte metadata disk (data_block metadata disk inode (position / metadata.block_size))
    (position % metadata.block_size)

end Meaning

section Uncached

variable (metadata : Metadata) (inode : Inode)

def uncached_pointer (block index : Nat) : Reader Nat :=
  if block = 0 then
    return 0
  else do
    let pointers ← read_block metadata block
    le32 pointers (index * 4)

def uncached_indirect_data_block (indirect_index : Nat) : Reader Nat :=
  let pointers_per_block := metadata.block_size / 4
  if indirect_index < pointers_per_block then
    uncached_pointer metadata inode.single_indirect indirect_index
  else do
    unchecked (pointers_per_block ≠ 0)
    let double_index := indirect_index - pointers_per_block
    refuse (pointers_per_block ≤ double_index / pointers_per_block) UnsupportedFeature
    let leaf ← uncached_pointer metadata inode.double_indirect (double_index / pointers_per_block)
    uncached_pointer metadata leaf (double_index % pointers_per_block)

/-- `inode_data_block` without caches: every pointer is read from the disk. -/
def uncached_data_block (logical_index : Nat) : Reader Nat :=
  if hindex : logical_index < DIRECT_BLOCKS then
    return inode.blocks ⟨logical_index, hindex⟩
  else do
    let block ← uncached_indirect_data_block metadata inode (logical_index - DIRECT_BLOCKS)
    refuse (out_of_range metadata block) InvalidFilesystem
    return block

def uncached_data_blocks : List Nat → Reader (List Nat)
  | [] => return []
  | logical_index :: rest => do
    let block ← uncached_data_block metadata inode logical_index
    let blocks ← uncached_data_blocks rest
    return block :: blocks

/-- Lookups one after another, each with the caches that the one before has left. -/
def data_blocks : List Nat → PointerCache → Reader (List Nat)
  | [], _ => return []
  | logical_index :: rest, cache => do
    let (block, cache) ← inode_data_block metadata inode logical_index cache
    let blocks ← data_blocks rest cache
    return block :: blocks

end Uncached

section Caches

variable {metadata : Metadata} {disk : ByteMap} {inode : Inode}

/-- A cache holds the blocks whose numbers it has. The number 0 stands for no block. -/
structure PointerCache.Holds (metadata : Metadata) (disk : ByteMap) (cache : PointerCache) : Prop where
  indirect : cache.cached_indirect_block ≠ 0 →
    on_disk disk (read_block metadata cache.cached_indirect_block) = .ok cache.indirect_data
  double_indirect : cache.cached_double_indirect_block ≠ 0 →
    on_disk disk (read_block metadata cache.cached_double_indirect_block) = .ok cache.double_indirect_data

theorem PointerCache.new_holds : PointerCache.new.Holds metadata disk :=
  ⟨fun hblock => absurd rfl hblock, fun hblock => absurd rfl hblock⟩

/-- A block that a cache holds is not read again. -/
theorem reread_alike {held : Buffer} {number : Nat} {store : Buffer → PointerCache} {R : PointerCache → Buffer → Prop}
    (hheld : number ≠ 0 → on_disk disk (read_block metadata number) = .ok held) (hblock : block ≠ 0)
    (hkeep : R cache held) (hstore : ∀ pointers, on_disk disk (read_block metadata block) = .ok pointers →
      R (store pointers) pointers) :
    Alike R (on_disk disk (if number ≠ block then do return store (← read_block metadata block) else return cache))
      (on_disk disk (read_block metadata block)) := by
  split_ifs with hcached
  · rw [on_disk_bind]
    cases hread : on_disk disk (read_block metadata block) with
    | ok pointers => exact .ok (hstore pointers hread)
    | err error => exact .err error
    | panic => exact .panic
  · obtain rfl := not_not.mp hcached
    rw [hheld hblock]
    exact .ok hkeep

variable (hvalid : metadata.Valid) (hcache : cache.Holds metadata disk)
include hcache

theorem load_indirect_alike (hblock : block ≠ 0) :
    Alike (fun loaded pointers => loaded.indirect_data = pointers ∧ loaded.Holds metadata disk)
      (on_disk disk (cache.load_indirect metadata block)) (on_disk disk (read_block metadata block)) :=
  reread_alike hcache.indirect hblock ⟨rfl, hcache⟩ fun _ hread => ⟨rfl, fun _ => hread, hcache.double_indirect⟩

theorem load_double_indirect_alike (hblock : block ≠ 0) :
    Alike (fun loaded pointers => loaded.double_indirect_data = pointers ∧ loaded.Holds metadata disk)
      (on_disk disk (cache.load_double_indirect metadata block)) (on_disk disk (read_block metadata block)) :=
  reread_alike hcache.double_indirect hblock ⟨rfl, hcache⟩ fun _ hread =>
    ⟨rfl, fun hindirect => absurd rfl hindirect, fun _ => hread⟩

/-- A lookup with caches ends as one without, and leaves caches that hold what the disk does. -/
abbrev LookedUp (metadata : Metadata) (disk : ByteMap) (cached : Reader (Nat × PointerCache)) (plain : Reader Nat) :
    Prop :=
  Alike (fun result block => result.1 = block ∧ result.2.Holds metadata disk) (on_disk disk cached) (on_disk disk plain)

theorem single_indirect_data_block_alike (indirect_index : Nat) :
    LookedUp metadata disk (single_indirect_data_block metadata inode indirect_index cache)
      (uncached_pointer metadata inode.single_indirect indirect_index) := by
  unfold single_indirect_data_block uncached_pointer
  split_ifs with habsent
  · exact .ok ⟨rfl, hcache⟩
  · simp only [LookedUp, on_disk_bind, on_disk_lift, on_disk_pure]
    refine (load_indirect_alike hcache habsent).bind ?_
    rintro loaded _ ⟨rfl, hloaded⟩
    exact .pair fun block => ⟨rfl, hloaded⟩

include hvalid

theorem leaf_data_block_alike (indirect_block inner_index : Nat) :
    LookedUp metadata disk (leaf_data_block metadata indirect_block inner_index cache)
      (uncached_pointer metadata indirect_block inner_index) := by
  unfold leaf_data_block uncached_pointer
  split_ifs with habsent
  · exact .ok ⟨rfl, hcache⟩
  · simp only [LookedUp, on_disk_bind, on_disk_lift, on_disk_pure]
    by_cases hpast : metadata.blocks_count ≤ indirect_block
    · -- `read_block` refuses the number for the same reason.
      rw [decide_eq_true hpast, read_block_on_disk hvalid, if_neg (by omega)]
      exact .err InvalidFilesystem
    · rw [decide_eq_false hpast, Outcome.refuse_false, Outcome.ok_bind]
      refine (load_indirect_alike hcache habsent).bind ?_
      rintro loaded _ ⟨rfl, hloaded⟩
      exact .pair fun block => ⟨rfl, hloaded⟩

theorem double_indirect_data_block_alike (inode : Inode) (outer_index inner_index : Nat) :
    LookedUp metadata disk (double_indirect_data_block metadata inode outer_index inner_index cache)
      (do
        refuse (metadata.block_size / 4 ≤ outer_index) UnsupportedFeature
        let leaf ← uncached_pointer metadata inode.double_indirect outer_index
        uncached_pointer metadata leaf inner_index) := by
  unfold double_indirect_data_block
  simp only [LookedUp, on_disk_bind, on_disk_lift]
  refine .bind_same fun _ _ => ?_
  by_cases habsent : inode.double_indirect = 0
  · rw [if_pos habsent, habsent]
    exact .ok ⟨rfl, hcache⟩
  · rw [if_neg habsent]
    nth_rewrite 1 [uncached_pointer]
    rw [if_neg habsent]
    simp only [on_disk_bind, on_disk_lift, Outcome.bind_assoc]
    refine (load_double_indirect_alike hcache habsent).bind ?_
    rintro loaded _ ⟨rfl, hloaded⟩
    exact .bind_same fun leaf _ => leaf_data_block_alike hvalid hloaded leaf inner_index

theorem indirect_data_block_alike (indirect_index : Nat) :
    LookedUp metadata disk (indirect_data_block metadata inode indirect_index cache)
      (uncached_indirect_data_block metadata inode indirect_index) := by
  simp only [indirect_data_block, uncached_indirect_data_block]
  split_ifs with hsingle
  · exact single_indirect_data_block_alike hcache indirect_index
  · simp only [LookedUp, on_disk_bind, on_disk_lift]
    refine .bind_same fun _ _ => ?_
    have hdouble := double_indirect_data_block_alike hvalid hcache inode
      ((indirect_index - metadata.block_size / 4) / (metadata.block_size / 4))
      ((indirect_index - metadata.block_size / 4) % (metadata.block_size / 4))
    simpa only [LookedUp, on_disk_bind, on_disk_lift] using hdouble

/-- Whatever the caches hold, a lookup finds what one without caches finds. -/
theorem inode_data_block_alike (inode : Inode) (logical_index : Nat) :
    LookedUp metadata disk (inode_data_block metadata inode logical_index cache)
      (uncached_data_block metadata inode logical_index) := by
  unfold inode_data_block uncached_data_block
  split_ifs with hdirect
  · exact .ok ⟨rfl, hcache⟩
  · simp only [LookedUp, on_disk_bind, on_disk_lift, on_disk_pure]
    refine (indirect_data_block_alike hvalid hcache _).bind ?_
    rintro ⟨block, loaded⟩ _ ⟨rfl, hloaded⟩
    exact .bind_same fun _ _ => .ok ⟨rfl, hloaded⟩

theorem data_blocks_eq (indices : List Nat) :
    on_disk disk (data_blocks metadata inode indices cache) =
      on_disk disk (uncached_data_blocks metadata inode indices) := by
  induction indices generalizing cache with
  | nil => rfl
  | cons logical_index rest ih =>
    simp only [data_blocks, uncached_data_blocks, on_disk_bind, on_disk_pure]
    refine Alike.eq ((inode_data_block_alike hvalid hcache inode logical_index).bind ?_)
    rintro ⟨block, loaded⟩ _ ⟨rfl, hloaded⟩
    rw [ih hloaded]
    exact .bind_same fun _ _ => .ok rfl

end Caches

section Safety

variable {metadata : Metadata} (hvalid : metadata.Valid)
include hvalid

theorem uncached_pointer_safe (block : Nat)
    (hindex : index < metadata.block_size / 4) : Reader.Safe (fun _ => True) (uncached_pointer metadata block index) := by
  have hsize := hvalid.block_size
  unfold uncached_pointer
  split
  · trivial
  · simp only [Reader.Safe, Inquiry.safe_bind, Inquiry.safe_lift, safe_le32]
    exact (read_block_safe hvalid block).mono fun pointers hpointers => ⟨by omega, trivial⟩

theorem uncached_data_block_safe (inode : Inode) (logical_index : Nat) :
    Reader.Safe (fun _ => True) (uncached_data_block metadata inode logical_index) := by
  have hpointers : 0 < metadata.block_size / 4 := by have := hvalid.block_size; omega
  unfold uncached_data_block uncached_indirect_data_block
  split
  · trivial
  · simp only [Reader.Safe, Inquiry.safe_bind, Inquiry.safe_lift, safe_refuse, Inquiry.safe_pure]
    split
    · exact (uncached_pointer_safe hvalid _ ‹_›).mono fun _ _ _ => trivial
    · simp only [Inquiry.safe_bind, Inquiry.safe_lift, safe_refuse, safe_unchecked, decide_eq_false_iff_not,
        Nat.not_le]
      refine ⟨by omega, fun houter => (uncached_pointer_safe hvalid _ houter).mono fun leaf _ => ?_⟩
      exact (uncached_pointer_safe hvalid leaf (Nat.mod_lt _ hpointers)).mono fun _ _ _ => trivial

theorem uncached_data_blocks_safe (inode : Inode) (indices : List Nat) :
    Reader.Safe (fun _ => True) (uncached_data_blocks metadata inode indices) := by
  induction indices with
  | nil => trivial
  | cons logical_index rest ih =>
    simp only [uncached_data_blocks, Reader.Safe, Inquiry.safe_bind]
    exact (uncached_data_block_safe hvalid inode logical_index).mono fun _ _ => ih.mono fun _ _ => trivial

theorem data_blocks_safe (inode : Inode) (indices : List Nat)
    (hcache : cache.Valid) : Reader.Safe (fun _ => True) (data_blocks metadata inode indices cache) := by
  induction indices generalizing cache with
  | nil => trivial
  | cons logical_index rest ih =>
    simp only [data_blocks, Reader.Safe, Inquiry.safe_bind]
    exact (inode_data_block_safe hvalid hcache inode logical_index).mono fun _ hresult =>
      (ih hresult).mono fun _ _ => trivial

end Safety

section Reading

variable {metadata : Metadata} {disk : ByteMap} {inode : Inode} {offset logical_index copied : Nat}

theorem disk_block_byte (hoffset : offset < metadata.block_size) :
    (disk_block metadata disk block).bytes offset = disk (block * metadata.block_size + offset) :=
  if_pos hoffset

theorem word32_disk_block (hoffset : offset + 4 ≤ metadata.block_size) :
    (disk_block metadata disk block).bytes.word32 offset = disk.word32 (block * metadata.block_size + offset) := by
  refine (ByteMap.word32_below hoffset).trans (ByteMap.word32_congr fun index _ => ?_)
  rw [Nat.add_assoc]

section Blocks

variable (hvalid : metadata.Valid)
include hvalid

theorem read_block_ok {buffer : Buffer}
    (hread : on_disk disk (read_block metadata block) = .ok buffer) :
    block < metadata.blocks_count ∧ buffer = disk_block metadata disk block := by
  rw [read_block_on_disk hvalid] at hread
  split_ifs at hread with hblock
  exact ⟨hblock, (Outcome.ok.inj hread).symm⟩

theorem uncached_pointer_ok {found : Nat} (hindex : index < metadata.block_size / 4)
    (hpointer : on_disk disk (uncached_pointer metadata block index) = .ok found) :
    found = pointer metadata disk block index := by
  unfold uncached_pointer at hpointer
  unfold pointer
  split_ifs at hpointer ⊢
  · exact (Outcome.ok.inj hpointer).symm
  · simp only [on_disk_bind, on_disk_lift, bind_eq_ok_iff, le32, Buffer.le32_eq_ok_iff] at hpointer
    obtain ⟨pointers, hread, -, rfl⟩ := hpointer
    obtain ⟨-, rfl⟩ := read_block_ok hvalid hread
    exact word32_disk_block (by omega)

/-- A lookup that succeeds has followed the pointers. -/
theorem uncached_data_block_ok (hlookup : on_disk disk (uncached_data_block metadata inode logical_index) = .ok block) :
    block = data_block metadata disk inode logical_index := by
  have hpointers : 0 < metadata.block_size / 4 := by have := hvalid.block_size; omega
  unfold uncached_data_block at hlookup
  unfold data_block
  split_ifs at hlookup ⊢ with hdirect
  · exact (Outcome.ok.inj hlookup).symm
  · simp only [on_disk_bind, on_disk_lift, on_disk_pure, bind_eq_ok_iff, Outcome.ok.injEq,
      uncached_indirect_data_block] at hlookup
    obtain ⟨_, hindirect, -, -, rfl⟩ := hlookup
    dsimp only
    split_ifs at hindirect ⊢ with hsingle
    · exact uncached_pointer_ok hvalid hsingle hindirect
    · simp only [on_disk_bind, on_disk_lift, bind_eq_ok_iff, Outcome.refuse_eq_ok_iff,
        decide_eq_false_iff_not, Nat.not_le] at hindirect
      obtain ⟨-, -, -, houter, leaf, hleaf, hinner⟩ := hindirect
      rw [← uncached_pointer_ok hvalid houter hleaf]
      exact uncached_pointer_ok hvalid (Nat.mod_lt _ hpointers) hinner

theorem inode_data_block_ok {loaded : PointerCache} (hcache : cache.Holds metadata disk)
    (hlookup : on_disk disk (inode_data_block metadata inode logical_index cache) = .ok (block, loaded)) :
    block = data_block metadata disk inode logical_index ∧ loaded.Holds metadata disk := by
  have halike := inode_data_block_alike hvalid hcache inode logical_index
  rw [LookedUp, hlookup] at halike
  obtain ⟨_, hplain, rfl, hloaded⟩ := halike.of_ok
  exact ⟨uncached_data_block_ok hvalid hplain, hloaded⟩

theorem read_part_ok {block_number block_offset amount : Nat} {source : List UInt8}
    (hinside : block_offset + amount ≤ metadata.block_size)
    (hread : on_disk disk (copy_blocks.read_part metadata block_number block_offset amount) = .ok source) :
    source.length = amount ∧
      ∀ index < amount, source.getD index 0 = block_byte metadata disk block_number (block_offset + index) := by
  unfold copy_blocks.read_part at hread
  unfold block_byte
  split_ifs at hread ⊢ with habsent
  · obtain rfl := Outcome.ok.inj hread
    refine ⟨List.length_replicate, fun index hindex => ?_⟩
    simp [hindex]
  · simp only [on_disk_bind, on_disk_lift, on_disk_pure, bind_eq_ok_iff, Buffer.slice_eq_ok_iff,
      Outcome.ok.injEq] at hread
    obtain ⟨block, hblock, _, ⟨-, rfl⟩, rfl⟩ := hread
    obtain ⟨-, rfl⟩ := read_block_ok hvalid hblock
    rw [Buffer.toList, ByteMap.string_length]
    refine ⟨Nat.add_sub_cancel_left block_offset amount, fun index hindex => ?_⟩
    rw [ByteMap.string_getD (by show index < block_offset + amount - block_offset; omega), Nat.zero_add]
    exact disk_block_byte (by omega)

end Blocks

theorem file_byte_add (hindex : copied % metadata.block_size + index < metadata.block_size) :
    file_byte metadata disk inode (copied + index) =
      block_byte metadata disk (data_block metadata disk inode (copied / metadata.block_size))
        (copied % metadata.block_size + index) := by
  have hsplit := Nat.div_add_mod copied metadata.block_size
  have hblock : (copied + index) / metadata.block_size = copied / metadata.block_size := by
    rw [← hsplit, Nat.add_assoc, Nat.mul_add_div (by omega), Nat.div_eq_of_lt hindex, Nat.add_zero, hsplit]
  have hoffset : (copied + index) % metadata.block_size = copied % metadata.block_size + index := by
    rw [Nat.add_mod, Nat.mod_eq_of_lt (by omega : index < metadata.block_size), Nat.mod_eq_of_lt hindex]
  rw [file_byte, hblock, hoffset]

/-- The turns of `read_inode_contents` extend the part of the output that is the file's. -/
theorem copy_blocks_ok (hvalid : metadata.Valid) {block_count copy_len fuel : Nat}
    {output contents : Buffer} (hcache : cache.Holds metadata disk)
    (hcopied : ∀ position < copied, output.bytes position = file_byte metadata disk inode position)
    (hcopy : on_disk disk (copy_blocks metadata inode block_count copy_len fuel copied cache output) = .ok contents) :
    contents.length = output.length ∧
      ∀ position < copy_len, contents.bytes position = file_byte metadata disk inode position := by
  have hsize : 0 < metadata.block_size := by have := hvalid.block_size; omega
  induction fuel generalizing copied cache output with
  | zero => cases hcopy
  | succ fuel ih =>
    unfold copy_blocks at hcopy
    split_ifs at hcopy with hleft
    · simp only [on_disk_bind, on_disk_lift, bind_eq_ok_iff, Buffer.copy_from_slice_eq_ok_iff] at hcopy
      obtain ⟨-, -, -, -, ⟨block_number, loaded⟩, hlookup, source, hpart, _, ⟨-, rfl⟩, hrest⟩ := hcopy
      obtain ⟨rfl, hloaded⟩ := inode_data_block_ok hvalid hcache hlookup
      generalize hamount : min (metadata.block_size - copied % metadata.block_size) (copy_len - copied) = amount
        at hpart hrest
      have hinside : copied % metadata.block_size + amount ≤ metadata.block_size := by
        have := Nat.mod_lt copied hsize
        omega
      obtain ⟨hlength, hsource⟩ := read_part_ok hvalid hinside hpart
      have hextended : ∀ position < copied + amount,
          output.bytes.patch copied source position = file_byte metadata disk inode position := by
        intro position hposition
        by_cases hbefore : position < copied
        · rw [ByteMap.patch_of_outside (.inl hbefore)]
          exact hcopied position hbefore
        · obtain ⟨index, rfl⟩ := Nat.exists_eq_add_of_le (Nat.not_lt.mp hbefore)
          rw [ByteMap.patch_inside (by omega), hsource index (by omega), file_byte_add (by omega)]
      have hdone := ih hloaded hextended hrest
      exact hdone
    · obtain rfl := Outcome.ok.inj hcopy
      exact ⟨rfl, fun position hposition => hcopied position (by omega)⟩

end Reading

/-- What `read_inode_contents` copies is the beginning of the file, as far as the output and
the file go. The caches make no difference: any lookups, in any order, find what they find without. -/
theorem read_inode_contents_reads_file {metadata : Metadata} (hvalid : metadata.Valid) {volume : Volume}
    (hfaults : volume.drive.faults = .none) (inode : Inode) :
    (∀ output contents copied size after,
      (read_inode_contents metadata inode output).run answer volume = (.ok (contents, copied, size), after) →
        copied = min output.length inode.size ∧ size = inode.size ∧ contents.length = output.length ∧
          ∀ position < copied,
            contents.bytes position = file_byte metadata volume.drive.bytes inode position) ∧
      ∀ indices, ((data_blocks metadata inode indices .new).run answer volume).1 =
        ((uncached_data_blocks metadata inode indices).run answer volume).1 := by
  constructor
  · intro output contents copied size after hrun
    obtain ⟨hread, -⟩ := read_ok hrun
    simp only [read_inode_contents, on_disk_bind, on_disk_lift, on_disk_pure, bind_eq_ok_iff,
      Outcome.ok.injEq, Prod.mk.injEq] at hread
    obtain ⟨block_count, -, _, hcopy, rfl, rfl, rfl⟩ := hread
    obtain ⟨hlength, hbytes⟩ := copy_blocks_ok hvalid PointerCache.new_holds (fun _ hnone => by omega) hcopy
    exact ⟨Nat.min_comm _ _, rfl, hlength, hbytes⟩
  · intro indices
    rw [read_faultless (data_blocks_safe hvalid inode indices PointerCache.new_valid) hfaults,
      read_faultless (uncached_data_blocks_safe hvalid inode indices) hfaults]
    exact data_blocks_eq hvalid PointerCache.new_holds indices

/-- Block 20 points to block 21, which has only bytes 7. Block 22 points to block 20. -/
def sample_pointers : Volume where
  drive :=
    { bytes := fun address =>
        if address = 20 * 1024 then 21
        else if address = 22 * 1024 then 20
        else if 21 * 1024 ≤ address ∧ address < 22 * 1024 then 7
        else 0
      faults := .none, operations := 0, requests := [] }
  undo := none

/-- Direct block pointers with only the first one used. -/
def first_block (block : Nat) : Fin DIRECT_BLOCKS → Nat := fun index => if index.val = 0 then block else 0

/-- A file with one direct block, whose two pointer blocks lead to it as well. -/
def sample_file : Inode :=
  { mode := 0x81a4, links := 1, size := 1000, allocated_blocks_512 := 6, blocks := first_block 21,
    single_indirect := 20, double_indirect := 22 }

theorem read_inode_contents_reads_sample :
    (∃ contents after,
      (read_inode_contents sample_metadata sample_file (.zeroed 5)).run answer sample_pointers =
        (.ok (contents, 5, 1000), after) ∧ ∀ position < 5, contents.bytes position = 7) ∧
      ((data_blocks sample_metadata sample_file [12, 268, 1, 12] .new).run answer sample_pointers).1 =
        .ok [21, 21, 0, 21] := by
  have hfaults : sample_pointers.drive.faults = .none := rfl
  obtain ⟨hread, hlookups⟩ := read_inode_contents_reads_file sample_metadata_valid hfaults sample_file
  constructor
  · refine ⟨_, _, rfl, ?_⟩
    obtain ⟨-, -, -, hbytes⟩ := hread (.zeroed 5) _ _ _ _ rfl
    intro position hposition
    rw [hbytes position hposition]
    revert position
    decide
  · rw [hlookups]
    rfl

end leafos.fs.ext2
