import LeafOS.Fs.Ext2.Validity

namespace leafos.fs.ext2

open leafos.drivers.ata Ext2Error
open Inquiry (safe_bind safe_lift safe_pure)

section Readers

variable {metadata : Metadata} {block raw : Buffer} {offset valid_bytes fuel inner_index : Nat} {cache : PointerCache}

theorem raw_size_safe (hraw : 128 ≤ raw.length) : (raw_size metadata raw).Safe fun _ => True := by
  simp only [raw_size, Outcome.safe_bind, safe_le16, safe_le32]
  refine ⟨by omega, by omega, ?_⟩
  split
  · exact Outcome.safe_bind.mpr (safe_le32.mpr ⟨by omega, trivial⟩)
  · trivial

/-- All fields that are read lie in the first 128 bytes. -/
theorem parse_inode_safe (hraw : 128 ≤ raw.length) : (parse_inode metadata raw).Safe fun _ => True := by
  simp only [parse_inode, raw_pointers, Outcome.safe_bind, safe_le16, safe_le32, safe_unchecked,
    safe_refuse, Outcome.safe_pure]
  have hoffset : INODE_BLOCK_POINTERS_OFFSET = 40 := rfl
  have hdirect : DIRECT_BLOCKS = 12 := rfl
  refine (raw_size_safe hraw).mono fun size _ => ⟨by omega, fun _ => ⟨by omega, fun _ => ⟨by omega, fun _ => ?_⟩⟩⟩
  exact ⟨by omega, by omega, by omega, trivial⟩

/-- The buffers of the cache are those that `zeroed_block` makes. -/
def PointerCache.Valid (cache : PointerCache) : Prop :=
  cache.indirect_data.length = 4096 ∧ cache.double_indirect_data.length = 4096

theorem PointerCache.new_valid : PointerCache.new.Valid := ⟨rfl, rfl⟩

theorem read_name_len_safe (hfits : offset + 8 ≤ block.length) :
    (read_name_len metadata block offset).Safe fun _ => True := by
  unfold read_name_len
  split
  · simp only [Outcome.safe_bind, Buffer.safe_get, Outcome.safe_pure]
    exact ⟨by omega, trivial⟩
  · exact safe_le16.mpr ⟨by omega, trivial⟩

/-- What the checks at the start of every loop establish. -/
structure Record.Fits (record : Record) (valid_bytes : Nat) : Prop where
  record_len : 8 ≤ record.record_len
  aligned : record.record_len % 4 = 0
  inside : record.offset + record.record_len ≤ valid_bytes
  name : 8 + record.name_len ≤ record.record_len

/-- A record that passes the checks fits, and it is the one at the offset. -/
theorem read_record_safe (hlength : valid_bytes ≤ block.length)
    (hoffset : offset + 8 ≤ valid_bytes) : (read_record metadata block valid_bytes offset).Safe fun record =>
      record.offset = offset ∧ record.Fits valid_bytes := by
  simp only [read_record, Outcome.safe_bind, safe_le16, safe_le32, safe_refuse, safe_unchecked,
    Bool.or_eq_false_iff, decide_eq_false_iff_not, bne_eq_false_iff_eq]
  refine ⟨by omega, by omega, ?_⟩
  rintro ⟨⟨hlen, haligned⟩, hinside⟩
  refine (read_name_len_safe (by omega)).mono fun name_len _ => ⟨by omega, fun hname => ⟨rfl, ?_⟩⟩
  have hname_le : 8 + name_len ≤ block.bytes.word16 (offset + 4) := by omega
  exact ⟨Nat.not_lt.mp hlen, haligned, Nat.not_lt.mp hinside, hname_le⟩

theorem record_name_safe {record : Record} (hlength : valid_bytes ≤ block.length)
    (hfits : record.Fits valid_bytes) : (record_name block record).Safe fun _ => True := by
  have hinside := hfits.inside
  have hname := hfits.name
  simp only [record_name, Outcome.safe_bind, Buffer.safe_slice, Outcome.safe_pure]
  exact ⟨by omega, trivial⟩

/-- What a loop's state or its result has to satisfy. -/
def Turn.Holds {σ ρ : Type} (I : σ → Prop) (Q : ρ → Prop) : Turn σ ρ → Prop
  | .finished result => Q result
  | .next state => I state

variable {σ ρ : Type} {body : Buffer → Record → σ → Reader (Turn σ ρ)} {I : σ → Prop} {Q : ρ → Prop}

/-- The turns of a loop body on records that lie in their block are safe, and keep `I`. -/
def SafeBody (body : Buffer → Record → σ → Reader (Turn σ ρ)) (I : σ → Prop) (Q : ρ → Prop) : Prop :=
  ∀ block record valid_bytes state, block.length = 4096 → valid_bytes ≤ 4096 → record.Fits valid_bytes → I state →
    Reader.Safe (Turn.Holds I Q) (body block record state)

theorem scan_safe (hbody : SafeBody body I Q) (hblock : block.length = 4096) (hbytes : valid_bytes ≤ 4096) {state : σ}
    (hoffset : offset ≤ valid_bytes) (hfuel : valid_bytes < offset + 8 * fuel) (hstate : I state) :
    Reader.Safe (Turn.Holds I Q) (scan metadata body block valid_bytes fuel offset state) := by
  -- Every turn moves on by at least 8 bytes, which is what the fuel pays for.
  induction fuel generalizing offset state with
  | zero => omega
  | succ fuel ih =>
    unfold scan
    split
    · rename_i hroom
      simp only [safe_bind, safe_lift]
      refine (read_record_safe (by omega) hroom).mono ?_
      rintro record ⟨hrecord, hfits⟩
      refine (hbody block record valid_bytes state hblock hbytes hfits hstate).mono fun turn hturn => ?_
      have hlen := hfits.record_len
      have hinside := hfits.inside
      cases turn with
      | finished result => exact hturn
      | next after => exact ih (by omega) (by omega) hturn
    · exact hstate

theorem match_child_safe (child : List UInt8) :
    SafeBody (match_child metadata child) (fun _ => True) (fun _ => True) := by
  intro block record valid_bytes state hblock hbytes hfits _
  simp only [match_child, safe_bind, safe_lift]
  refine (record_name_safe (by omega) hfits).mono fun name _ => ?_
  split
  · simp only [safe_bind, safe_lift, safe_refuse]
    intro _
    split <;> trivial
  · trivial

variable (hvalid : metadata.Valid)
include hvalid

/-- A block of the volume is a request that the driver accepts. -/
theorem locate_block_safe (block buffer_len : Nat) :
    (locate_block metadata block buffer_len).Safe fun request =>
      validate_request request = .ok () ∧ request.buffer_len = metadata.block_size ∧
        request.count = metadata.block_size / 512 ∧ request.lba = block * (metadata.block_size / 512) ∧
        block < metadata.blocks_count ∧ metadata.block_size ≤ buffer_len := by
  simp only [locate_block, Outcome.safe_bind, safe_refuse, Bool.or_eq_false_iff, decide_eq_false_iff_not]
  rintro ⟨hblock, hbuffer⟩
  refine safe_disk_block_size ?_
  simp only [safe_okOr, checked_u32_eq_some]
  rintro lba ⟨-, rfl⟩
  refine ⟨?_, rfl, rfl, rfl, by omega, by omega⟩
  have hsectors := hvalid.disk_sectors
  have hlast : block * (metadata.block_size / 512) + metadata.block_size / 512 ≤
      metadata.blocks_count * (metadata.block_size / 512) := by
    rw [← Nat.succ_mul]
    exact Nat.mul_le_mul_right _ (by omega)
  unfold validate_request MAX_LBA28
  rw [if_neg]
  rcases hvalid.block_size with hsize | hsize | hsize <;> rw [hsize] at hsectors hlast ⊢ <;> simp only [] <;> omega

theorem read_block_safe (block : Nat) :
    Reader.Safe (fun buffer => buffer.length = 4096) (read_block metadata block) := by
  have hsize : metadata.block_size ≤ 4096 := by have := hvalid.block_size; omega
  simp only [read_block, safe_bind, safe_lift]
  refine (locate_block_safe hvalid block _).mono ?_
  rintro request ⟨hrequest, hbuffer, -⟩
  exact safe_unchecked.mpr ⟨by rw [hbuffer]; exact hsize, hrequest, fun bytes => rfl⟩

/-- A group descriptor does not cross the end of its block. -/
theorem descriptor_place_safe (group : Nat) :
    (descriptor_place metadata group).Safe fun place => place.within_block + 32 ≤ 4096 := by
  simp only [descriptor_place, Outcome.safe_bind, safe_refuse, safe_okOr, checked_u32_eq_some,
    checked_usize_eq_some, safe_unchecked, Outcome.safe_pure]
  rintro - table - byte_offset ⟨-, rfl⟩
  refine ⟨by have := hvalid.block_size; omega, ?_⟩
  rintro - - - -
  rcases hvalid.block_size with hsize | hsize | hsize <;> rw [hsize] <;> omega

theorem read_group_descriptor_safe (group : Nat) :
    Reader.Safe (fun _ => True) (read_group_descriptor metadata group) := by
  simp only [read_group_descriptor, safe_bind, safe_lift]
  refine (descriptor_place_safe hvalid group).mono fun place hplace => ?_
  refine (read_block_safe hvalid _).mono fun output houtput => ?_
  simp only [safe_le32, safe_refuse, houtput, safe_pure]
  exact ⟨by omega, fun _ => trivial⟩

theorem check_inode_table_safe (inode_table : Nat) : (check_inode_table metadata inode_table).Safe fun _ => True := by
  have hsize := hvalid.block_size
  simp only [check_inode_table, Outcome.safe_bind, safe_refuse, safe_okOr, safe_unchecked]
  exact ⟨by omega, fun _ _ _ _ _ _ _ => trivial⟩

theorem inode_place_safe (inode_table local_index : Nat) :
    (inode_place metadata inode_table local_index).Safe fun place => place.within_block < metadata.block_size := by
  have hsize := hvalid.block_size
  simp only [inode_place, Outcome.safe_bind, safe_okOr, safe_unchecked, Outcome.safe_pure]
  exact fun _ _ => ⟨by omega, fun _ _ _ _ => Nat.mod_lt _ (by omega)⟩

theorem inode_slice_safe {block : Buffer} {within_block : Nat}
    (hblock : block.length = 4096) (hwithin : ¬ metadata.block_size < within_block + metadata.inode_size) :
    Checked.Safe (fun raw => raw.length = metadata.inode_size)
      (block.slice within_block (within_block + metadata.inode_size)) := by
  have hsize := hvalid.block_size
  exact Buffer.safe_slice.mpr ⟨by omega, by show _ - _ = _; omega⟩

/-- The slice that is parsed lies in the block that was read for it. -/
theorem read_inode_safe (inode_number : Nat) : Reader.Safe (fun _ => True) (read_inode metadata inode_number) := by
  have hsize := hvalid.block_size
  have hinode := hvalid.inode_size
  have hgroup := hvalid.inodes_per_group
  simp only [read_inode, safe_bind, safe_lift, safe_refuse, safe_unchecked,
    decide_eq_false_iff_not]
  refine fun _ => ⟨by omega, (read_group_descriptor_safe hvalid _).mono fun inode_table _ => ?_⟩
  refine (check_inode_table_safe hvalid _).mono fun _ _ => ?_
  refine (inode_place_safe hvalid _ _).mono fun place hplace => ?_
  refine (read_block_safe hvalid _).mono fun block hblock => ⟨by omega, fun hwithin => ?_⟩
  exact (inode_slice_safe hvalid hblock hwithin).mono fun raw hraw => parse_inode_safe (by omega)

section Cached

variable (hcache : cache.Valid)
include hcache

theorem load_indirect_safe (block : Nat) : Reader.Safe PointerCache.Valid (cache.load_indirect metadata block) := by
  unfold PointerCache.load_indirect
  split
  · exact safe_bind.mpr ((read_block_safe hvalid block).mono fun data hdata => ⟨hdata, hcache.2⟩)
  · exact hcache

theorem load_double_indirect_safe (block : Nat) :
    Reader.Safe PointerCache.Valid (cache.load_double_indirect metadata block) := by
  unfold PointerCache.load_double_indirect
  split
  · exact safe_bind.mpr ((read_block_safe hvalid block).mono fun data hdata => ⟨hcache.1, hdata⟩)
  · exact hcache

theorem single_indirect_data_block_safe (inode : Inode) {indirect_index : Nat}
    (hindex : indirect_index < metadata.block_size / 4) :
    Reader.Safe (fun result => result.2.Valid) (single_indirect_data_block metadata inode indirect_index cache) := by
  have hsize := hvalid.block_size
  unfold single_indirect_data_block
  split
  · exact hcache
  · simp only [safe_bind, safe_lift, safe_pure, safe_le32]
    refine (load_indirect_safe hvalid hcache _).mono fun loaded hloaded => ⟨?_, hloaded⟩
    rw [hloaded.1]
    omega

theorem leaf_data_block_safe (indirect_block : Nat) (hindex : inner_index < metadata.block_size / 4) :
    Reader.Safe (fun result => result.2.Valid) (leaf_data_block metadata indirect_block inner_index cache) := by
  have hsize := hvalid.block_size
  unfold leaf_data_block
  split
  · exact hcache
  · simp only [safe_bind, safe_lift, safe_pure, safe_le32, safe_refuse]
    refine fun _ => (load_indirect_safe hvalid hcache _).mono fun loaded hloaded => ⟨?_, hloaded⟩
    rw [hloaded.1]
    omega

theorem double_indirect_data_block_safe (inode : Inode) (outer_index : Nat)
    (hindex : inner_index < metadata.block_size / 4) : Reader.Safe (fun result => result.2.Valid)
      (double_indirect_data_block metadata inode outer_index inner_index cache) := by
  have hsize := hvalid.block_size
  simp only [double_indirect_data_block, safe_bind, safe_lift, safe_refuse,
    decide_eq_false_iff_not]
  intro houter
  split
  · exact hcache
  · simp only [safe_bind, safe_lift, safe_le32]
    refine (load_double_indirect_safe hvalid hcache _).mono fun loaded hloaded => ⟨?_, ?_⟩
    · rw [hloaded.2]
      omega
    · exact leaf_data_block_safe hvalid hloaded _ hindex

theorem indirect_data_block_safe (inode : Inode) (indirect_index : Nat) :
    Reader.Safe (fun result => result.2.Valid) (indirect_data_block metadata inode indirect_index cache) := by
  have hsize := hvalid.block_size
  simp only [indirect_data_block]
  split
  · exact single_indirect_data_block_safe hvalid hcache inode ‹_›
  · simp only [safe_bind, safe_lift, safe_unchecked]
    exact ⟨by omega, double_indirect_data_block_safe hvalid hcache inode _ (Nat.mod_lt _ (by omega))⟩

/-- Whatever the pointers on the disk say. -/
theorem inode_data_block_safe (inode : Inode) (logical_index : Nat) :
    Reader.Safe (fun result => result.2.Valid) (inode_data_block metadata inode logical_index cache) := by
  unfold inode_data_block
  split
  · exact hcache
  · simp only [safe_bind, safe_lift, safe_pure, safe_refuse]
    exact (indirect_data_block_safe hvalid hcache inode _).mono fun result hresult _ => hresult

end Cached

theorem inode_block_count_safe (inode : Inode) : (inode_block_count metadata inode).Safe fun _ => True := by
  have hsize := hvalid.block_size
  simp only [inode_block_count, Outcome.safe_bind, safe_refuse, safe_okOr, safe_unchecked,
    Outcome.safe_pure]
  exact fun _ _ => ⟨by omega, fun _ _ _ => trivial⟩

/-- A directory is walked block by block, with fuel for all records of a block. -/
theorem walk_safe (hbody : SafeBody body I Q) (directory : Inode) {count : Nat}
    {logical_index remaining : Nat} {state : σ} (hcache : cache.Valid) (hstate : I state) :
    Reader.Safe (Turn.Holds I Q) (walk metadata body directory count logical_index remaining cache state) := by
  have hsize := hvalid.block_size
  induction count generalizing logical_index remaining cache state with
  | zero => exact hstate
  | succ count ih =>
    simp only [walk, safe_bind, safe_lift, safe_refuse]
    refine (inode_data_block_safe hvalid hcache directory _).mono fun result hresult _ => ?_
    refine (read_block_safe hvalid _).mono fun block hblock => ?_
    have hfuel : min remaining metadata.block_size < 0 + 8 * BUFFER_SIZE := by
      show _ < 0 + 8 * 4096
      omega
    refine (scan_safe hbody hblock (by omega) (Nat.zero_le _) hfuel hstate).mono fun turn hturn => ?_
    cases turn with
    | finished result => exact hturn
    | next after => exact ih hresult hturn

theorem walk_directory_safe (hbody : SafeBody body I Q) (directory : Inode) {state : σ}
    (hstate : I state) : Reader.Safe (Turn.Holds I Q) (walk_directory metadata body directory state) := by
  simp only [walk_directory, safe_bind, safe_lift, safe_okOr]
  exact (inode_block_count_safe hvalid directory).mono fun _ _ _ _ =>
    walk_safe hvalid hbody directory PointerCache.new_valid hstate

theorem find_child_safe (directory : Inode) (child : List UInt8) :
    Reader.Safe (fun _ => True) (find_child metadata directory child) := by
  unfold find_child
  split
  · exact safe_bind.mpr
      ((walk_directory_safe hvalid (match_child_safe child) directory trivial).mono fun _ _ => trivial)
  · trivial

theorem walk_components_safe (parts : List (List UInt8)) (inode_number : Nat)
    (inode : Inode) : Reader.Safe (fun _ => True) (walk_components metadata parts inode_number inode) := by
  induction parts generalizing inode_number inode with
  | nil => trivial
  | cons component rest ih =>
    unfold walk_components
    split
    · exact ih inode_number inode
    · split
      · trivial
      · refine safe_bind.mpr ((find_child_safe hvalid inode component).mono fun child _ => ?_)
        cases child with
        | none => trivial
        | some child_number =>
          exact safe_bind.mpr ((read_inode_safe hvalid child_number).mono fun found _ => ih _ found)

theorem walk_path_safe (path : List UInt8) : Reader.Safe (fun _ => True) (walk_path metadata path) :=
  safe_bind.mpr ((read_inode_safe hvalid _).mono fun _ _ => walk_components_safe hvalid _ _ _)

theorem read_part_safe (block_number : Nat) {block_offset amount : Nat}
    (hinside : block_offset + amount ≤ metadata.block_size) :
    Reader.Safe (fun source => source.length = amount)
      (copy_blocks.read_part metadata block_number block_offset amount) := by
  have hsize := hvalid.block_size
  unfold copy_blocks.read_part
  split
  · exact List.length_replicate
  · simp only [safe_bind, safe_lift, safe_pure, Buffer.safe_slice]
    refine (read_block_safe hvalid block_number).mono fun block hblock => ⟨by omega, ?_⟩
    rw [Buffer.toList, ByteMap.string_length]
    exact Nat.add_sub_cancel_left block_offset amount

theorem copy_blocks_safe (inode : Inode) {block_count copy_len : Nat} {copied : Nat}
    {output : Buffer} (hcache : cache.Valid) (hroom : copy_len ≤ output.length)
    (hboundary : copied < copy_len → copied % metadata.block_size = 0)
    (hfuel : copied < copy_len → block_count < fuel + copied / metadata.block_size) (hpositive : 0 < fuel) :
    Reader.Safe (fun result => result.length = output.length)
      (copy_blocks metadata inode block_count copy_len fuel copied cache output) := by
  have hsize : 0 < metadata.block_size := by have := hvalid.block_size; omega
  -- Every turn but the last ends at a block boundary, so each one uses up one block.
  induction fuel generalizing copied cache output with
  | zero => omega
  | succ fuel ih =>
    unfold copy_blocks
    split
    · rename_i hleft
      simp only [safe_bind, safe_lift, safe_unchecked, safe_refuse,
        decide_eq_false_iff_not, Nat.not_le]
      refine ⟨by omega, fun hblocks => ?_⟩
      refine (inode_data_block_safe hvalid hcache inode _).mono fun result hresult => ?_
      have hstart := hboundary hleft
      have hturns := hfuel hleft
      have hamount : copied % metadata.block_size +
          min (metadata.block_size - copied % metadata.block_size) (copy_len - copied) ≤ metadata.block_size := by
        omega
      refine (read_part_safe hvalid result.1 hamount).mono fun source hsource => ?_
      rw [Buffer.safe_copy_from_slice, hsource]
      refine ⟨by omega, ?_⟩
      have hnext (hmore : copied + min (metadata.block_size - copied % metadata.block_size) (copy_len - copied) <
          copy_len) : copied + min (metadata.block_size - copied % metadata.block_size) (copy_len - copied) =
            copied + metadata.block_size := by
        omega
      have hroom' : copy_len ≤ ({ output with bytes := output.bytes.patch copied source } : Buffer).length := hroom
      refine ih hresult hroom' (fun hmore => ?_) (fun hmore => ?_) (by omega)
      · rw [hnext hmore, Nat.add_mod_right]
        exact hstart
      · rw [hnext hmore, Nat.add_div_right _ hsize]
        omega
    · exact rfl

theorem read_inode_contents_safe (inode : Inode) (output : Buffer) :
    Reader.Safe (fun result => result.1.length = output.length) (read_inode_contents metadata inode output) := by
  simp only [read_inode_contents, safe_bind, safe_lift, safe_pure]
  refine (inode_block_count_safe hvalid inode).mono fun block_count _ => ?_
  refine copy_blocks_safe hvalid inode PointerCache.new_valid (Nat.min_le_right _ _) (fun _ => Nat.zero_mod _)
    (fun _ => ?_) (Nat.succ_pos _)
  rw [Nat.zero_div]
  exact Nat.lt_succ_self _

theorem read_whole_safe (inode : Inode) (max_size : Nat) :
    Reader.Safe (fun _ => True) (read_whole metadata inode max_size) := by
  simp only [read_whole, safe_bind, safe_lift, safe_okOr, safe_refuse, try_reserve]
  exact fun size _ _ => ⟨trivial, fun _ => (read_inode_contents_safe hvalid inode _).mono fun _ _ => trivial⟩

end Readers

/-- What the outcome of the mount, if there was one, can be. -/
structure Mounted.Valid (ext2 : Mounted) : Prop where
  metadata : ∀ metadata, ext2 = some (.ok metadata) → metadata.Valid
  error : ∀ error, ext2 = some (.error error) → ¬ Refused error

section Mounted

variable {ext2 : Mounted}

/-- A failed mount is reported by the error it ended with. -/
theorem metadata_safe (hmounted : ext2.Valid) : (metadata ext2).Safe Metadata.Valid := by
  simp only [metadata, Outcome.safe_bind, safe_okOr]
  intro result hresult
  cases result with
  | error error => exact hmounted.error error hresult
  | ok mounted => exact hmounted.metadata mounted hresult

theorem lookup_safe (hmounted : ext2.Valid) (path : List UInt8) : Reader.Safe (fun _ => True) (lookup ext2 path) := by
  simp only [lookup, safe_bind, safe_lift]
  exact (metadata_safe hmounted).mono fun mounted hvalid => (walk_path_safe hvalid path).mono fun _ _ => trivial

theorem find_inode_number_safe {metadata : Metadata} (hvalid : metadata.Valid) (path : List UInt8) :
    Reader.Safe (fun _ => True) (find_inode_number metadata path) :=
  safe_bind.mpr ((walk_path_safe hvalid path).mono fun _ _ => trivial)

theorem resolve_parent_number_safe (hmounted : ext2.Valid) {metadata : Metadata} (hvalid : metadata.Valid)
    (path : List UInt8) : Reader.Safe (fun _ => True) (resolve_parent_number ext2 metadata path) := by
  unfold resolve_parent_number
  split
  · trivial
  · simp only [safe_bind, safe_lift, safe_okOr, safe_refuse]
    refine (lookup_safe hmounted path).mono fun _ _ _ _ _ => ?_
    exact (find_inode_number_safe hvalid path).mono fun _ _ _ _ => trivial

theorem resolve_parent_safe (hmounted : ext2.Valid) {metadata : Metadata} (hvalid : metadata.Valid)
    (path : List UInt8) : Reader.Safe (fun _ => True) (resolve_parent ext2 metadata path) := by
  simp only [resolve_parent, safe_bind, safe_lift, safe_refuse]
  refine fun _ _ => (resolve_parent_number_safe hmounted hvalid _).mono fun number _ => ?_
  exact (read_inode_safe hvalid number).mono fun _ _ _ => trivial

theorem visit_record_safe {metadata : Metadata} (hvalid : metadata.Valid) :
    SafeBody (visit_record metadata) (fun _ => True) (fun _ => True) := by
  intro block record valid_bytes visited hblock hbytes hfits _
  unfold visit_record
  split
  · simp only [safe_bind, safe_lift, safe_refuse]
    refine fun _ => (record_name_safe (by omega) hfits).mono fun name _ => ?_
    split
    · simp only [visit_child, safe_bind, safe_lift, safe_refuse]
      exact fun _ => (read_inode_safe hvalid _).mono fun _ _ _ => trivial
    · trivial
  · trivial

variable (hmounted : ext2.Valid)
include hmounted

theorem for_each_child_safe (directory : Inode) : Reader.Safe (fun _ => True) (for_each_child ext2 directory) := by
  simp only [for_each_child, safe_bind, safe_lift]
  refine (metadata_safe hmounted).mono fun mounted hvalid => ?_
  split
  · refine safe_bind.mpr
      ((walk_directory_safe hvalid (visit_record_safe hvalid) directory trivial).mono fun turn _ => ?_)
    cases turn with
    | finished never => exact never.elim
    | next visited => trivial
  · trivial

theorem for_each_entry_safe (path : List UInt8) : Reader.Safe (fun _ => True) (for_each_entry ext2 path) := by
  refine safe_bind.mpr ((lookup_safe hmounted path).mono fun found _ => ?_)
  cases found with
  | none => trivial
  | some directory =>
    dsimp only
    split
    · exact for_each_child_safe hmounted directory
    · trivial

theorem read_file_safe (path : List UInt8) (output : Buffer) :
    Reader.Safe (fun _ => True) (read_file ext2 path output) := by
  simp only [read_file, safe_bind, safe_lift]
  refine (metadata_safe hmounted).mono fun mounted hvalid => (lookup_safe hmounted path).mono fun found _ => ?_
  cases found with
  | none => trivial
  | some inode =>
    dsimp only
    split
    · exact safe_bind.mpr ((read_inode_contents_safe hvalid inode output).mono fun _ _ => trivial)
    · trivial

theorem read_file_vec_safe (path : List UInt8) (max_size : Nat) :
    Reader.Safe (fun _ => True) (read_file_vec ext2 path max_size) := by
  simp only [read_file_vec, safe_bind, safe_lift]
  refine (metadata_safe hmounted).mono fun mounted hvalid => (lookup_safe hmounted path).mono fun found _ => ?_
  cases found with
  | none => trivial
  | some inode =>
    dsimp only
    split
    · exact safe_bind.mpr ((read_whole_safe hvalid inode max_size).mono fun _ _ => trivial)
    · trivial

end Mounted

/-- Reading is safe on every disk. Whatever each sector read returns: `mount` accepts only metadata
that the rest relies on, and with it lookups, listings, reads of files and the search for a
parent never panic, end, and send only requests that the driver accepts. -/
theorem reading_is_safe (ext2 : Mounted) (path : List UInt8) (output : Buffer) (max_size : Nat) :
    Reader.Safe Metadata.Valid mount ∧ (ext2.Valid → Reader.Safe (fun _ => True) (lookup ext2 path) ∧
      Reader.Safe (fun _ => True) (for_each_entry ext2 path) ∧ Reader.Safe (fun _ => True) (read_file ext2 path output) ∧
      Reader.Safe (fun _ => True) (read_file_vec ext2 path max_size) ∧
      ∀ metadata : Metadata, metadata.Valid → Reader.Safe (fun _ => True) (resolve_parent ext2 metadata path)) :=
  ⟨mount_safe, fun hmounted => ⟨lookup_safe hmounted path, for_each_entry_safe hmounted path,
    read_file_safe hmounted path output, read_file_vec_safe hmounted path max_size,
    fun _ hvalid => resolve_parent_safe hmounted hvalid path⟩⟩

def sample_metadata : Metadata :=
  { block_size := 1024, blocks_count := 64, inodes_count := 16, first_data_block := 1, blocks_per_group := 8192,
    inodes_per_group := 16, inode_size := 128, group_count := 1, incompat_features := 2 }

theorem sample_metadata_valid : sample_metadata.Valid :=
  ⟨.inl rfl, by decide, by decide, by decide, by decide, by decide, by decide, by decide, by decide⟩

theorem reading_is_safe_sample :
    Reader.Safe (fun _ => True) (lookup (some (.ok sample_metadata)) [0x2f, 0x61]) ∧
      Reader.Safe (fun _ => True) (resolve_parent (some (.ok sample_metadata)) sample_metadata [0x2f, 0x61]) := by
  have hmounted : Mounted.Valid (some (.ok sample_metadata)) := by
    constructor
    · rintro _ ⟨⟩
      exact sample_metadata_valid
    · rintro _ ⟨⟩
  have hsafe := (reading_is_safe _ [0x2f, 0x61] { bytes := fun _ => 0, length := 8 } 8).2 hmounted
  exact ⟨hsafe.1, hsafe.2.2.2.2 _ sample_metadata_valid⟩

end leafos.fs.ext2
