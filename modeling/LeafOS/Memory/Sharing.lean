import LeafOS.Memory.HeapGrowth
import LeafOS.Memory.SpaceRuns
import LeafOS.Memory.Walks
import Mathlib.Data.List.Pairwise

namespace leafos.memory

open Prog MemoryManager heap

/-- A call that changes page tables: a growth of the kernel heap, or a call on an
address space. -/
inductive MemoryCall where
  | grow (target_total_pages : Nat)
  | space (call : Call)
deriving Repr, DecidableEq

def Paging.system (self : Paging) : System := ⟨self.manager, self.spaces⟩

/-- The state after a call, unless it panicked. -/
def returned {ε α : Type} : Outcome ε α × Paging → Option Paging
  | (.panic, _) => none
  | (.ok _, after) | (.err _, after) => some after

def MemoryCall.perform (call : MemoryCall) (paging : Paging) : Option Paging :=
  match call with
  | .grow target_total_pages => returned (heap.grow target_total_pages paging)
  | .space .create_address_space => returned (Paging.create_address_space paging)
  | .space call => (call.perform paging.system).map fun system =>
      { paging with manager := system.manager, spaces := system.spaces }

/-- Perform calls in order, whatever they return; no result if one panics. -/
def perform_memory_calls : List MemoryCall → Paging → Option Paging
  | [], paging => some paging
  | call :: rest, paging => (call.perform paging).bind (perform_memory_calls rest)

namespace Paging

/-- The heap lies from the page `base` on, which begins a slot of the lower half that
the loader left unused and that is not the user's. Unless the heap is poisoned
exactly the pages that it records are mapped. -/
structure HeapAt (paging : Paging) (base : Nat) : Prop where
  aligned : base % PML4_SLOT_PAGES = 0
  slot_lt : p4_index base < USER_PML4_INDEX
  unused : paging.loader paging.kernel_root (p4_index base) = none
  start : paging.heap.start = some (base * PAGE_SIZE)
  mapped : 0 < paging.heap.mapped_pages
  pages : ∃ reached ≤ PML4_SLOT_PAGES,
    Covers paging.kernel_tables base paging.heap.mapped_pages reached ∧
      (paging.heap.poisoned = false → reached = paging.heap.mapped_pages)

/-- What every call keeps: the frames under the kernel's root, the frames of live
spaces and the free ones are together those that were free at boot; and outside
the user slot a space's root holds the kernel's entries without their user bit. -/
structure Inv (paging : Paging) (boot : BootInfoFrameAllocator) (base : Nat) : Prop where
  books : ∃ pool account, paging.system.Inv boot pool account ∧
    (account ++ paging.kernel_tables.frames).Perm boot.unvisited
  reserved : paging.kernel_root ∉ boot.unvisited
  settled : Settled paging.kernel_tables
  heap : paging.HeapAt base
  copies : ∀ root ∈ paging.live_roots, ∀ index, index ≠ USER_PML4_INDEX →
    paging.copies root index = (paging.kernel_entry index).map PageTableEntry.without_user

section Slots

variable {paging : Paging} {base : Nat}

theorem p4_index_eq {page : Nat} (haligned : base % PML4_SLOT_PAGES = 0) (hge : base ≤ page)
    (hlt : page < base + PML4_SLOT_PAGES) : p4_index page = p4_index base := by
  have hslot : PML4_SLOT_PAGES = 512 ^ 3 := by decide
  rw [hslot] at haligned hlt
  simp only [p4_index]
  obtain ⟨slot, rfl⟩ := Nat.dvd_of_mod_eq_zero haligned
  rw [Nat.mul_div_cancel_left _ (by decide)]
  exact Nat.div_eq_of_lt_le (by rwa [Nat.mul_comm]) (by rw [Nat.add_mul, Nat.one_mul, Nat.mul_comm]; exact hlt)

variable (hheap : paging.HeapAt base)
include hheap

/-- Just below the kernel's root the kernel has one table, for the slot of the heap. -/
theorem HeapAt.table_eq_none (hsettled : Settled paging.kernel_tables) {index : Nat}
    (hne : index ≠ p4_index base) : paging.kernel_tables.table ⟨3, index⟩ = none := by
  refine UserTables.table_eq_none.mpr fun htable => ?_
  obtain ⟨leaf, hleaf, hsame⟩ := (hsettled.tight 3 (by decide) _).mp htable
  obtain ⟨reached, hfits, hcovers, _⟩ := hheap.pages
  obtain ⟨hge, hlt⟩ := hcovers.inside leaf.1 (List.mem_map.mpr ⟨leaf, hleaf, rfl⟩)
  have hslot := p4_index_eq hheap.aligned hge (Nat.lt_of_lt_of_le hlt (Nat.add_le_add_left hfits _))
  exact hne ((congrArg TableId.position hsame).symm.trans hslot)

theorem HeapAt.base_mem : base ∈ paging.kernel_tables.pages := by
  obtain ⟨_, _, hcovers, _⟩ := hheap.pages
  exact hcovers.committed base (Nat.le_refl _) (Nat.lt_add_of_pos_right hheap.mapped)

theorem HeapAt.table_mem (hsettled : Settled paging.kernel_tables) :
    ∃ frame, (table_of 3 base, frame) ∈ paging.kernel_tables.tables := by
  obtain ⟨leaf, hleaf, hpage⟩ := List.mem_map.mp hheap.base_mem
  exact (hsettled.tight 3 (by decide) _).mpr ⟨leaf, hleaf, by rw [hpage]; rfl⟩

end Slots

section Frames

variable {paging : Paging} {boot : BootInfoFrameAllocator} {base : Nat} {root frame : PhysFrame} {other : PhysFrame}

theorem mem_live_roots : root ∈ paging.live_roots ↔ ∃ space ∈ paging.spaces, space.root = some root :=
  List.mem_filterMap

/-- No frame has two uses, and none is used that was not free at boot. -/
theorem Inv.frames (hinv : paging.Inv boot base) (hnodup : boot.unvisited.Nodup) :
    (paging.system.in_use ++ paging.kernel_tables.frames).Nodup ∧
    ∀ frame ∈ paging.system.in_use ++ paging.kernel_tables.frames,
      frame ∈ boot.unvisited := by
  obtain ⟨pool, account, hsystem, hperm⟩ := hinv.books
  have hall := (hsystem.balance.append_right _).trans hperm
  rw [List.append_assoc] at hall
  exact ⟨(List.nodup_append.mp (hall.nodup_iff.mpr hnodup)).2.1,
    fun frame hframe => hall.subset (List.mem_append_right _ hframe)⟩

theorem frames_eq {space : AddressSpace} (hroot : space.root = some root) (manager : MemoryManager) :
    space.frames manager = root :: (manager.page_tables root).frames := by
  rw [AddressSpace.frames, hroot]

/-- A live root and the frames below it are in use. -/
theorem mem_in_use (hroot : root ∈ paging.live_roots)
    (hframe : frame ∈ root :: (paging.manager.page_tables root).frames) : frame ∈ paging.system.in_use := by
  obtain ⟨space, hspace, hfound⟩ := mem_live_roots.mp hroot
  exact List.mem_flatMap.mpr ⟨space, hspace, frames_eq hfound _ ▸ hframe⟩

variable (hinv : paging.Inv boot base)
include hinv

variable (hnodup : boot.unvisited.Nodup)
include hnodup

theorem Inv.live_ne_kernel (hroot : root ∈ paging.live_roots) : root ≠ paging.kernel_root := fun hsame =>
  hinv.reserved (hsame ▸ (hinv.frames hnodup).2 root (List.mem_append_left _ (mem_in_use hroot List.mem_cons_self)))

/-- A frame of a live space belongs to no other root. -/
theorem Inv.live_unique (hroot : root ∈ paging.live_roots) (hother : other ∈ paging.live_roots)
    (hframe : frame ∈ root :: (paging.manager.page_tables root).frames)
    (hframe' : frame ∈ other :: (paging.manager.page_tables other).frames) : root = other := by
  obtain ⟨space, hspace, hfound⟩ := mem_live_roots.mp hroot
  obtain ⟨sibling, hsibling, hfound'⟩ := mem_live_roots.mp hother
  have hin : frame ∈ space.frames paging.manager := frames_eq hfound _ ▸ hframe
  have hin' : frame ∈ sibling.frames paging.manager := frames_eq hfound' _ ▸ hframe'
  have hpairwise := (List.nodup_flatMap.mp (List.nodup_append.mp (hinv.frames hnodup).1).1).2
  have : Std.Symm (Function.onFun List.Disjoint fun space : AddressSpace => space.frames paging.system.manager) :=
    ⟨fun _ _ hdisjoint _ hhere hthere => hdisjoint hthere hhere⟩
  by_contra hne
  have hspaces : space ≠ sibling := fun hsame => hne (Option.mem_unique hfound (hsame ▸ hfound'))
  exact List.Pairwise.forall hpairwise hspace hsibling hspaces hin hin'

variable (hroot : root ∈ paging.kernel_root :: paging.live_roots)
include hroot

/-- A frame below a root is in use for that root alone, and it is no root. -/
theorem Inv.owner_unique (hother : other ∈ paging.kernel_root :: paging.live_roots)
    (hframe : frame ∈ (paging.manager.page_tables root).frames)
    (hframe' : frame ∈ (paging.manager.page_tables other).frames) : root = other := by
  have hdisjoint := List.disjoint_of_nodup_append (hinv.frames hnodup).1
  obtain rfl | hroot := List.mem_cons.mp hroot
  · obtain rfl | hother := List.mem_cons.mp hother
    · rfl
    · exact absurd hframe (hdisjoint (mem_in_use hother (List.mem_cons_of_mem _ hframe')))
  · obtain rfl | hother := List.mem_cons.mp hother
    · exact absurd hframe' (hdisjoint (mem_in_use hroot (List.mem_cons_of_mem _ hframe)))
    · exact hinv.live_unique hnodup hroot hother (List.mem_cons_of_mem _ hframe) (List.mem_cons_of_mem _ hframe')

theorem Inv.frames_nodup :
    (paging.manager.page_tables root).frames.Nodup ∧
      (root ∈ paging.live_roots → root ∉ (paging.manager.page_tables root).frames) := by
  have hboth := List.nodup_append.mp (hinv.frames hnodup).1
  have hlive : root ∈ paging.live_roots → (root :: (paging.manager.page_tables root).frames).Nodup := by
    intro hlive
    obtain ⟨space, hspace, hfound⟩ := mem_live_roots.mp hlive
    exact frames_eq hfound paging.manager ▸ (List.nodup_flatMap.mp hboth.1).1 space hspace
  obtain rfl | hroot := List.mem_cons.mp hroot
  · exact ⟨hboth.2.1, fun h => (List.nodup_cons.mp (hlive h)).1⟩
  · exact ⟨(List.nodup_cons.mp (hlive hroot)).2, fun h => (List.nodup_cons.mp (hlive h)).1⟩

theorem Inv.not_root (hframe : frame ∈ (paging.manager.page_tables root).frames) :
    frame ≠ paging.kernel_root ∧ frame ∉ paging.live_roots := by
  have hdisjoint := List.disjoint_of_nodup_append (hinv.frames hnodup).1
  have hknown := (hinv.frames hnodup).2 frame
  obtain rfl | hlive := List.mem_cons.mp hroot
  · refine ⟨fun hsame => hinv.reserved (hsame ▸ hknown (List.mem_append_right _ hframe)), fun hmem => ?_⟩
    exact hdisjoint (mem_in_use hmem List.mem_cons_self) hframe
  · have hmem := mem_in_use hlive (List.mem_cons_of_mem _ hframe)
    refine ⟨fun hsame => hinv.reserved (hsame ▸ hknown (List.mem_append_left _ hmem)), fun hmem => ?_⟩
    have hsame := hinv.live_unique hnodup hlive hmem (List.mem_cons_of_mem _ hframe) List.mem_cons_self
    exact (hinv.frames_nodup hnodup hroot).2 hlive (hsame ▸ hframe)

/-- A table's frame holds the rows of the table. -/
theorem Inv.contents_table {id : TableId} (htable : (id, frame) ∈ (paging.manager.page_tables root).tables)
    (index : Nat) : paging.contents frame index = paging.row root id index := by
  have hin : ∀ {root : PhysFrame} {id : TableId}, (id, frame) ∈ (paging.manager.page_tables root).tables →
      frame ∈ (paging.manager.page_tables root).frames := fun htable =>
    List.mem_append_left _ (List.mem_map.mpr ⟨_, htable, rfl⟩)
  obtain ⟨hkernel, hlive⟩ := hinv.not_root hnodup hroot (hin htable)
  have hmem : (frame, root, id) ∈ paging.table_frames :=
    List.mem_flatMap.mpr ⟨root, hroot, List.mem_map.mpr ⟨_, htable, rfl⟩⟩
  have hunique : ∀ found, (frame, found) ∈ paging.table_frames → found = (root, id) := by
    rintro ⟨other, found⟩ hfound
    obtain ⟨owner, howner, hmapped⟩ := List.mem_flatMap.mp hfound
    obtain ⟨entry, hentry, hsame⟩ := List.mem_map.mp hmapped
    obtain ⟨rfl, rfl, rfl⟩ : entry.2 = frame ∧ owner = other ∧ entry.1 = found := by simpa using hsame
    obtain rfl := hinv.owner_unique hnodup howner hroot (hin hentry) (hin htable)
    have hframes := (List.nodup_append.mp (hinv.frames_nodup hnodup hroot).1).1
    have hentries : entry = (id, entry.2) := List.inj_on_of_nodup_map hframes hentry htable rfl
    rw [hentries]
  rw [contents, if_neg hkernel, if_neg hlive, List.lookup_of_unique hmem hunique]

end Frames

end Paging

end leafos.memory
