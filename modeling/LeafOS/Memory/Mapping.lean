import LeafOS.Memory.Frames
import LeafOS.Memory.Tables

namespace leafos.memory

open Prog
open UserTables (add_leaf add_leaf_tight hasTable_add_table is_empty_one is_empty_succ leaf_eq_none
  table_eq_none table_eq_some)

/-- The pool that the frame allocator implements. -/
abbrev FramePool : Type := Pool PhysFrame RECLAIMED_FRAME_CAPACITY

namespace BootInfoFrameAllocator

variable {self boot : BootInfoFrameAllocator} {pool : FramePool}

theorem Refines.allocate (hrefines : self.Refines boot pool) (ε : Type) :
    (∃ frame rest after, pool.take = some (frame, rest) ∧
      (BootInfoFrameAllocator.allocate self : Outcome ε _ × _) = (.ok (some frame), after) ∧
      after.Refines boot rest) ∨
    (pool.take = none ∧ ∃ after,
      (BootInfoFrameAllocator.allocate self : Outcome ε _ × _) = (.ok none, after) ∧
      after.Refines boot pool) := by
  obtain ⟨frame, rest, after, htake, hallocate, hafter⟩ | ⟨htake, after, hallocate, hafter⟩ :=
    hrefines.allocate_frame
  · exact .inl ⟨frame, rest, after, htake, by simp [BootInfoFrameAllocator.allocate, hallocate], hafter⟩
  · exact .inr ⟨htake, after, by simp [BootInfoFrameAllocator.allocate, hallocate], hafter⟩

/-- With room on the stack the assertion holds. -/
theorem Refines.assert_reclaimed (hrefines : self.Refines boot pool) (ε : Type) (frame : PhysFrame)
    (hroom : pool.returned.length < RECLAIMED_FRAME_CAPACITY) :
    ∃ rest after, (BootInfoFrameAllocator.assert_reclaimed frame self : Outcome ε _ × _) =
      (.ok (), after) ∧ after.Refines boot rest ∧ rest.fresh = pool.fresh ∧
      rest.returned = frame :: pool.returned := by
  obtain ⟨rest, after, hput, hreclaim, hafter⟩ | ⟨hput, _⟩ := hrefines.reclaim_frame frame
  · obtain ⟨hfresh, hreturned⟩ := Pool.put_eq_some hput
    exact ⟨rest, after, by simp [BootInfoFrameAllocator.assert_reclaimed, hreclaim], hafter, hfresh,
      hreturned⟩
  · simp [Pool.put, hroom] at hput

end BootInfoFrameAllocator

/-- Nothing is free that was not, and nothing is lost: free frames and the frames
under the root are the same taken together. -/
def Conserves (pool : FramePool) (tables : UserTables) (pool' : FramePool) (tables' : UserTables) : Prop :=
  (pool'.free ++ tables'.frames).Perm (pool.free ++ tables.frames)

theorem Conserves.trans {first second third : FramePool} {tables tables' tables'' : UserTables}
    (hleft : Conserves first tables second tables') (hright : Conserves second tables' third tables'') :
    Conserves first tables third tables'' := List.Perm.trans hright hleft

/-- Two states of the tables that differ in the tables of one level at most. -/
structure AlikeBut (level : Nat) (tables tables' : UserTables) : Prop where
  leaves : tables'.leaves = tables.leaves
  others : ∀ id : TableId, id.level ≠ level → (tables'.HasTable id ↔ tables.HasTable id)

section Levels

variable {tables tables' : UserTables} {level other : Nat} {page : Page}

theorem AlikeBut.refl (level : Nat) (tables : UserTables) : AlikeBut level tables tables :=
  ⟨rfl, fun _ _ => Iff.rfl⟩

theorem AlikeBut.needs (halike : AlikeBut level tables tables') (id : TableId) :
    tables'.Needs id ↔ tables.Needs id := by
  rw [UserTables.Needs, UserTables.Needs, halike.leaves]

theorem AlikeBut.tight (halike : AlikeBut level tables tables') (hne : other ≠ level)
    (htight : tables.Tight other) : tables'.Tight other := by
  intro position
  rw [halike.others ⟨other, position⟩ hne, halike.needs]
  exact htight position

theorem AlikeBut.loose (halike : AlikeBut level tables tables') (hne : other ≠ level)
    (hloose : tables.Loose page other) : tables'.Loose page other := by
  intro position
  rw [halike.others ⟨other, position⟩ hne, halike.needs]
  exact hloose position

theorem alikeBut_add_table (level : Nat) (page : Page) (frame : PhysFrame) :
    AlikeBut level tables (tables.add_table (table_of level page) frame) := by
  refine ⟨rfl, fun other hne => ?_⟩
  rw [hasTable_add_table]
  exact or_iff_right (fun hsame => hne (hsame ▸ rfl))

theorem alikeBut_remove_table (level : Nat) (page : Page) :
    AlikeBut level tables (tables.remove_table (table_of level page)) := by
  refine ⟨rfl, fun other hne => ?_⟩
  rw [UserTables.hasTable_remove_table]
  exact and_iff_right (fun hsame => hne (hsame ▸ rfl))

end Levels

/-- The tables of a root between two operations. -/
structure Settled (tables : UserTables) : Prop where
  keyed : tables.Keyed
  tight : ∀ level ∈ [1, 2, 3], tables.Tight level

section Settled

variable {tables before after : UserTables} {page : Page} {frame : PhysFrame} {flags : PageTableFlags}

theorem settled_new : Settled .new :=
  ⟨⟨by simp [UserTables.new], List.nodup_nil, List.nodup_nil⟩, fun level _ position => by
    simp [UserTables.HasTable, UserTables.Needs, UserTables.new]⟩

/-- Without pages there are no tables. -/
theorem Settled.frames_eq_nil (hsettled : Settled tables) (hleaves : tables.leaves = []) : tables.frames = [] := by
  have htables : tables.tables = [] := by
    refine List.eq_nil_iff_forall_not_mem.mpr fun entry hentry => ?_
    have hneeds := (hsettled.tight _ (hsettled.keyed.levels entry hentry) entry.1.position).mp
      ⟨entry.2, hentry⟩
    obtain ⟨leaf, hleaf, _⟩ := hneeds
    simp [hleaves] at hleaf
  simp [UserTables.frames, htables, hleaves]

/-- Which tables there are, is settled by the pages. -/
theorem Settled.mem_tables (hsettled : Settled tables) {id : TableId} :
    id ∈ tables.tables.map Prod.fst ↔ id.level ∈ [1, 2, 3] ∧ tables.Needs id := by
  constructor
  · intro hid
    obtain ⟨entry, hentry, rfl⟩ := List.mem_map.mp hid
    have hlevel := hsettled.keyed.levels entry hentry
    exact ⟨hlevel, (hsettled.tight _ hlevel _).mp ⟨entry.2, hentry⟩⟩
  · rintro ⟨hlevel, hneeded⟩
    obtain ⟨frame, hframe⟩ := (hsettled.tight _ hlevel _).mpr hneeded
    exact List.mem_map.mpr ⟨_, hframe, rfl⟩

/-- One more page takes exactly the tables that were missing on its way. -/
theorem Settled.tables_length_eq (hbefore : Settled before) (hafter : Settled after)
    (hleaves : after.leaves = (page, frame, flags) :: before.leaves) :
    after.tables.length = before.tables.length + (before.missing page).length := by
  have hneeds : ∀ id, after.Needs id ↔ table_of id.level page = id ∨ before.Needs id := by
    intro id
    simp [UserTables.Needs, hleaves]
  have hperm : (after.tables.map Prod.fst).Perm (before.tables.map Prod.fst ++ before.missing page) := by
    refine (List.perm_ext_iff_of_nodup hafter.keyed.tables_nodup ?_).mpr fun id => ?_
    · refine List.nodup_append.mpr ⟨hbefore.keyed.tables_nodup, before.missing_nodup page, ?_⟩
      rintro id hid other hother rfl
      obtain ⟨entry, hentry, rfl⟩ := List.mem_map.mp hid
      exact (UserTables.mem_missing.mp hother).2 ⟨entry.2, hentry⟩
    · rw [List.mem_append, hafter.mem_tables, hbefore.mem_tables, UserTables.mem_missing, hneeds]
      constructor
      · rintro ⟨hlevel, hpath | hneeded⟩
        · by_cases hthere : before.HasTable id
          · exact .inl ⟨hlevel, (hbefore.tight _ hlevel _).mp hthere⟩
          · exact .inr ⟨⟨_, hlevel, hpath⟩, hthere⟩
        · exact .inl ⟨hlevel, hneeded⟩
      · rintro (⟨hlevel, hneeded⟩ | ⟨⟨level, hlevel, rfl⟩, _⟩)
        · exact ⟨hlevel, .inr hneeded⟩
        · exact ⟨hlevel, .inl rfl⟩
  simpa using hperm.length_eq

end Settled

section Laws

variable (map_to : Page → PhysFrame → PageTableFlags → MapperM MapToError Unit)
  (clean_up_addr_range : Page → MapperM Empty Unit)

/-- What `map_to` leaves behind for a page that is not mapped: on success the leaf
with its tables; on failure no leaf, perhaps superfluous tables on the page's path but
not all of them, and no free frame, since only exhaustion makes it fail. It takes no
table away. -/
def MapsAbsent : Prop :=
  ∀ ⦃tables : UserTables⦄ ⦃frame_allocator boot : BootInfoFrameAllocator⦄ ⦃pool : FramePool⦄ ⦃page : Page⦄,
    frame_allocator.Refines boot pool → Settled tables → page ∉ tables.leaves.map Prod.fst →
    ∀ frame flags, ∃ outcome tables' after pool', map_to page frame flags (tables, frame_allocator) =
        (outcome, (tables', after)) ∧ after.Refines boot pool' ∧ tables'.Keyed ∧ tables.tables ⊆ tables'.tables ∧
      ((outcome = .ok () ∧ tables'.leaves = (page, frame, flags) :: tables.leaves ∧
        (∀ level ∈ [1, 2, 3], tables'.Tight level) ∧
        (pool'.free ++ tables'.frames).Perm (frame :: (pool.free ++ tables.frames)) ∧ pool.Drawn pool') ∨
      (outcome = .err .FrameAllocationFailed ∧ tables'.leaves = tables.leaves ∧
        (∀ level ∈ [1, 2, 3], tables'.Loose page level) ∧
        (∃ level ∈ [1, 2, 3], ¬ tables'.HasTable (table_of level page)) ∧ pool'.free = [] ∧
        Conserves pool tables pool' tables'))

/-- Cleaning up a page's path frees exactly the tables that no page needs. -/
def CleansPath : Prop :=
  ∀ ⦃tables : UserTables⦄ ⦃frame_allocator boot : BootInfoFrameAllocator⦄ ⦃pool : FramePool⦄ ⦃page : Page⦄,
    frame_allocator.Refines boot pool → tables.Keyed → pool.returned.length + 3 ≤ RECLAIMED_FRAME_CAPACITY →
    (∀ level ∈ [1, 2, 3], tables.Loose page level) →
    ∃ tables' after pool', clean_up_addr_range page (tables, frame_allocator) = (.ok (), (tables', after)) ∧
      after.Refines boot pool' ∧ Conserves pool tables pool' tables' ∧ Settled tables' ∧
      tables'.tables ⊆ tables.tables ∧ tables'.leaves = tables.leaves ∧ pool'.fresh = pool.fresh ∧
      pool'.returned.length ≤ pool.returned.length + 3

end Laws

/-- The operations of the page-table crate that the kernel uses, and what it relies
on about them. -/
structure Mapper where
  map_to : Page → PhysFrame → PageTableFlags → MapperM MapToError Unit
  unmap : Page → MapperM UnmapError PhysFrame
  clean_up_addr_range : Page → MapperM Empty Unit
  maps_absent : MapsAbsent map_to
  refuses_present : ∀ {tables page}, Settled tables → page ∈ tables.leaves.map Prod.fst →
    ∀ frame flags frame_allocator, map_to page frame flags (tables, frame_allocator) =
      (.err .PageAlreadyMapped, (tables, frame_allocator))
  removes_leaf : ∀ {tables : UserTables} {page frame flags}, tables.leaf page = some (frame, flags) →
    ∀ frame_allocator, unmap page (tables, frame_allocator) = (.ok frame, (tables.remove_leaf page, frame_allocator))
  cleans_path : CleansPath clean_up_addr_range
  keeps_present : ∀ {tables page}, Settled tables → page ∈ tables.leaves.map Prod.fst →
    ∀ frame_allocator, clean_up_addr_range page (tables, frame_allocator) = (.ok (), (tables, frame_allocator))

namespace MapperM

open BootInfoFrameAllocator

variable {tables : UserTables} {frame_allocator boot : BootInfoFrameAllocator} {pool : FramePool} {page : Page}
  {level : Nat}

section Allocating

variable (hrefines : frame_allocator.Refines boot pool)
include hrefines

/-- One step of the walk: the table is there afterwards, or memory is exhausted
and nothing changed. -/
theorem create_next_table_spec (page : Page) (hkeyed : tables.Keyed) (hlevel : level ∈ [1, 2, 3])
    (htight : tables.Tight level) :
    (∃ tables' after pool', create_next_table (table_of level page) (tables, frame_allocator) =
        (.ok (), (tables', after)) ∧ after.Refines boot pool' ∧ Conserves pool tables pool' tables' ∧
        tables'.Keyed ∧ AlikeBut level tables tables' ∧ tables.tables ⊆ tables'.tables ∧
        tables'.Loose page level ∧ tables'.HasTable (table_of level page) ∧ pool.Drawn pool') ∨
      (pool.free = [] ∧ ¬ tables.HasTable (table_of level page) ∧
        ∃ after, create_next_table (table_of level page) (tables, frame_allocator) =
          (.err .FrameAllocationFailed, (tables, after)) ∧ after.Refines boot pool) := by
  cases hfound : tables.table (table_of level page) with
  | some frame =>
    refine .inl ⟨tables, frame_allocator, pool, ?_, hrefines, List.Perm.refl _, hkeyed, .refl level tables,
      List.Subset.refl _, htight.loose page, ⟨frame, (table_eq_some hkeyed).mp hfound⟩, .refl pool⟩
    simp [create_next_table, hfound]
  | none =>
    have habsent := table_eq_none.mp hfound
    obtain ⟨frame, rest, after, htake, hallocate, hafter⟩ | ⟨htake, after, hallocate, hafter⟩ :=
      hrefines.allocate MapToError
    · refine .inl ⟨tables.add_table (table_of level page) frame, after, rest, ?_, hafter, ?_,
        UserTables.add_table_keyed hkeyed hlevel habsent, alikeBut_add_table level page frame,
        List.subset_cons_self _ _, ?_, ?_, Pool.drawn_of_take htake⟩
      · simp [create_next_table, hfound, with_allocator, zoom, hallocate, change_tables]
      · rw [Conserves, Pool.take_free htake]
        exact List.perm_middle
      · intro position
        rw [hasTable_add_table]
        constructor
        · exact fun hneeds => .inr ((htight position).mpr hneeds)
        · rintro (hsame | htable)
          · exact .inr hsame.symm
          · exact .inl ((htight position).mp htable)
      · exact hasTable_add_table.mpr (.inl rfl)
    · refine .inr ⟨Pool.take_eq_none htake, habsent, after, ?_, hafter⟩
      simp [create_next_table, hfound, with_allocator, zoom, hallocate]

/-- Cleaning up one level makes it tight, provided that emptiness there means that
no page needs the table. -/
theorem clean_up_table_spec (page : Page) (hkeyed : tables.Keyed)
    (hroom : pool.returned.length < RECLAIMED_FRAME_CAPACITY)
    (hempty : ∀ position, tables.is_empty ⟨level, position⟩ = true ↔ ¬ tables.Needs ⟨level, position⟩)
    (hloose : tables.Loose page level) :
    ∃ tables' after pool', clean_up_table (table_of level page) (tables, frame_allocator) =
        (.ok (), (tables', after)) ∧ after.Refines boot pool' ∧
      Conserves pool tables pool' tables' ∧ tables'.Keyed ∧ AlikeBut level tables tables' ∧
      tables'.tables ⊆ tables.tables ∧ tables'.Tight level ∧ pool'.fresh = pool.fresh ∧
      pool'.returned.length ≤ pool.returned.length + 1 := by
  have hkept : ∀ {position}, (table_of level page = ⟨level, position⟩ →
      tables.HasTable ⟨level, position⟩ → tables.Needs ⟨level, position⟩) →
      (tables.HasTable ⟨level, position⟩ ↔ tables.Needs ⟨level, position⟩) := fun {position} hpath =>
    ⟨fun htable => ((hloose position).2 htable).elim id fun hsame => hpath hsame htable,
      (hloose position).1⟩
  cases hfound : tables.table (table_of level page) with
  | none =>
    refine ⟨tables, frame_allocator, pool, by simp [clean_up_table, hfound], hrefines,
      List.Perm.refl _, hkeyed, .refl level tables, List.Subset.refl _,
      fun position => hkept fun hsame htable => ?_, rfl, Nat.le_succ _⟩
    exact absurd (hsame ▸ htable) (table_eq_none.mp hfound)
  | some frame =>
    by_cases hunused : tables.is_empty (table_of level page) = true
    · have hneedless : ¬ tables.Needs (table_of level page) := (hempty _).mp hunused
      obtain ⟨rest, after, hreclaimed, hafter, hfresh, hreturned⟩ :=
        hrefines.assert_reclaimed Empty frame hroom
      refine ⟨tables.remove_table (table_of level page), after, rest, ?_, hafter, ?_,
        UserTables.remove_table_keyed hkeyed, alikeBut_remove_table level page, List.filter_subset_self _, ?_,
        hfresh, ?_⟩
      · simp [clean_up_table, hfound, hunused, change_tables, with_allocator, zoom, hreclaimed]
      · have hframes := UserTables.frames_remove_table hkeyed ((table_eq_some hkeyed).mp hfound)
        have hfree : rest.free = frame :: pool.free := by simp [Pool.free, hfresh, hreturned]
        rw [Conserves, hfree, List.cons_append]
        exact List.perm_middle.symm.trans (hframes.symm.append_left _)
      · intro position
        rw [UserTables.hasTable_remove_table, (alikeBut_remove_table level page).needs]
        constructor
        · rintro ⟨hne, htable⟩
          exact (hkept fun hsame _ => absurd hsame.symm hne).mp htable
        · intro hneeds
          exact ⟨fun hsame => hneedless (hsame ▸ hneeds), (hloose position).1 hneeds⟩
      · simp [hreturned]
    · refine ⟨tables, frame_allocator, pool, by simp [clean_up_table, hfound, hunused], hrefines,
        List.Perm.refl _, hkeyed, .refl level tables, List.Subset.refl _,
        fun position => hkept fun hsame _ => ?_, rfl, Nat.le_succ _⟩
      have hneeds := not_not.mp (mt (hempty _).mpr hunused)
      exact hsame ▸ hneeds

end Allocating

theorem map_to_spec : MapsAbsent map_to := by
  intro tables frame_allocator boot pool page hrefines ⟨hkeyed, htight⟩ habsent frame flags
  simp only [List.forall_mem_cons, List.not_mem_nil, false_implies, implies_true, and_true] at htight ⊢
  obtain ⟨htight1, htight2, htight3⟩ := htight
  simp only [map_to, bind_apply]
  obtain ⟨tables3, after3, pool3, hstep3, hrefines3, hconserves3, hkeyed3, halike3, hsubset3, hloose3, htable3,
      hdrawn3⟩ |
    ⟨hempty, hmissing, after, hfail, hafter⟩ := create_next_table_spec hrefines page hkeyed (by decide) htight3
  swap
  · rw [hfail]
    exact ⟨_, _, _, _, rfl, hafter, hkeyed, List.Subset.refl _, .inr ⟨rfl, rfl, ⟨htight1.loose page,
      htight2.loose page, htight3.loose page⟩, ⟨3, by decide, hmissing⟩, hempty, List.Perm.refl _⟩⟩
  rw [hstep3]
  replace htight1 := halike3.tight (by decide) htight1
  obtain ⟨tables2, after2, pool2, hstep2, hrefines2, hconserves2, hkeyed2, halike2, hsubset2, hloose2, htable2,
      hdrawn2⟩ |
    ⟨hempty, hmissing, after, hfail, hafter⟩ := create_next_table_spec hrefines3 page hkeyed3 (by decide)
      (halike3.tight (by decide) htight2)
  swap
  · simp only [hfail]
    exact ⟨_, _, _, _, rfl, hafter, hkeyed3, hsubset3, .inr ⟨rfl, halike3.leaves, ⟨htight1.loose page,
      (halike3.tight (by decide) htight2).loose page, hloose3⟩, ⟨2, by decide, hmissing⟩, hempty, hconserves3⟩⟩
  simp only [hstep2]
  replace hloose3 := halike2.loose (by decide) hloose3
  replace htable3 := (halike2.others (table_of 3 page) (by simp [table_of])).mpr htable3
  obtain ⟨tables1, after1, pool1, hstep1, hrefines1, hconserves1, hkeyed1, halike1, hsubset1, hloose1, htable1,
      hdrawn1⟩ |
    ⟨hempty, hmissing, after, hfail, hafter⟩ := create_next_table_spec hrefines2 page hkeyed2 (by decide)
      (halike2.tight (by decide) htight1)
  swap
  · simp only [hfail]
    exact ⟨_, _, _, _, rfl, hafter, hkeyed2, List.Subset.trans hsubset3 hsubset2, .inr ⟨rfl,
      halike2.leaves.trans halike3.leaves, ⟨(halike2.tight (by decide) htight1).loose page, hloose2, hloose3⟩, ⟨1, by decide, hmissing⟩, hempty,
      hconserves3.trans hconserves2⟩⟩
  replace hloose2 := halike1.loose (by decide) hloose2
  replace hloose3 := halike1.loose (by decide) hloose3
  replace htable2 := (halike1.others (table_of 2 page) (by simp [table_of])).mpr htable2
  replace htable3 := (halike1.others (table_of 3 page) (by simp [table_of])).mpr htable3
  have hleaves : tables1.leaves = tables.leaves :=
    (halike1.leaves.trans halike2.leaves).trans halike3.leaves
  have hfree : page ∉ tables1.leaves.map Prod.fst := hleaves ▸ habsent
  have hnone := leaf_eq_none.mpr hfree
  simp only [hstep1, get_apply, hnone, Option.isSome_none, Bool.false_eq_true, if_false, change_tables,
    modify_apply]
  refine ⟨_, _, _, _, rfl, hrefines1, UserTables.add_leaf_keyed hkeyed1 hfree,
    List.Subset.trans (List.Subset.trans hsubset3 hsubset2) hsubset1, .inl ⟨rfl, ?_, ?_, ?_,
    (hdrawn3.trans hdrawn2).trans hdrawn1⟩⟩
  · rw [add_leaf, hleaves]
  · exact ⟨add_leaf_tight hloose1 htable1, add_leaf_tight hloose2 htable2,
      add_leaf_tight hloose3 htable3⟩
  · refine (UserTables.frames_add_leaf.append_left _).trans (List.perm_middle.trans ?_)
    exact ((hconserves3.trans hconserves2).trans hconserves1).cons frame

theorem clean_up_addr_range_spec : CleansPath clean_up_addr_range := by
  intro tables frame_allocator boot pool page hrefines hkeyed hroom hloose
  simp only [List.forall_mem_cons, List.not_mem_nil, false_implies, implies_true, and_true] at hloose
  obtain ⟨hloose1, hloose2, hloose3⟩ := hloose
  obtain ⟨tables1, after1, pool1, hstep1, hrefines1, hconserves1, hkeyed1, halike1, hsubset1, htight1,
    hfresh1, hlength1⟩ :=
    clean_up_table_spec hrefines page hkeyed (by omega)
      (fun position => is_empty_one) hloose1
  obtain ⟨tables2, after2, pool2, hstep2, hrefines2, hconserves2, hkeyed2, halike2, hsubset2, htight2,
    hfresh2, hlength2⟩ :=
    clean_up_table_spec hrefines1 page hkeyed1 (by omega)
      (fun position => is_empty_succ (by decide) htight1)
      (halike1.loose (by decide) hloose2)
  obtain ⟨tables3, after3, pool3, hstep3, hrefines3, hconserves3, hkeyed3, halike3, hsubset3, htight3,
    hfresh3, hlength3⟩ :=
    clean_up_table_spec hrefines2 page hkeyed2 (by omega)
      (fun position => is_empty_succ (by decide) htight2)
      (halike2.loose (by decide) (halike1.loose (by decide) hloose3))
  refine ⟨tables3, after3, pool3, ?_, hrefines3, (hconserves1.trans hconserves2).trans hconserves3,
    ⟨hkeyed3, ?_⟩, List.Subset.trans hsubset3 (List.Subset.trans hsubset2 hsubset1),
    (halike3.leaves.trans halike2.leaves).trans halike1.leaves,
    (hfresh3.trans hfresh2).trans hfresh1, by omega⟩
  · simp only [clean_up_addr_range, bind_apply, hstep1, hstep2, hstep3]
  · simp only [List.forall_mem_cons, List.not_mem_nil, false_implies, implies_true, and_true]
    exact ⟨halike3.tight (by decide) (halike2.tight (by decide) htight1), halike3.tight (by decide) htight2, htight3⟩

section Present

variable (hsettled : Settled tables) (hpresent : page ∈ tables.leaves.map Prod.fst)
include hsettled hpresent

/-- The tables on the way to a mapped page are there and not empty. -/
theorem table_of_present (hlevel : level ∈ [1, 2, 3]) :
    ∃ frame, tables.table (table_of level page) = some frame ∧ tables.is_empty (table_of level page) = false := by
  obtain ⟨entry, hentry, rfl⟩ := List.mem_map.mp hpresent
  have hneeds : tables.Needs (table_of level entry.1) := ⟨entry, hentry, rfl⟩
  obtain ⟨frame, hframe⟩ := (hsettled.tight level hlevel _).mpr hneeds
  refine ⟨frame, (table_eq_some hsettled.keyed).mpr hframe, ?_⟩
  rw [Bool.eq_false_iff]
  intro hempty
  simp only [List.mem_cons, List.not_mem_nil, or_false] at hlevel
  obtain rfl | rfl | rfl := hlevel
  · exact is_empty_one.mp hempty hneeds
  · exact (is_empty_succ (by decide) (hsettled.tight 1 (by decide))).mp hempty hneeds
  · exact (is_empty_succ (by decide) (hsettled.tight 2 (by decide))).mp hempty hneeds

theorem map_to_present (frame : PhysFrame) (flags : PageTableFlags) (frame_allocator : BootInfoFrameAllocator) :
    map_to page frame flags (tables, frame_allocator) = (.err .PageAlreadyMapped, (tables, frame_allocator)) := by
  have hstep : ∀ level ∈ [1, 2, 3],
      create_next_table (table_of level page) (tables, frame_allocator) = (.ok (), (tables, frame_allocator)) := by
    intro level hlevel
    obtain ⟨found, hfound, _⟩ := table_of_present hsettled hpresent hlevel
    simp [create_next_table, hfound]
  have hleaf : (tables.leaf page).isSome := by
    rw [Option.isSome_iff_ne_none, ne_eq, leaf_eq_none, not_not]
    exact hpresent
  simp [map_to, hstep 1, hstep 2, hstep 3, hleaf]

theorem clean_up_addr_range_present (frame_allocator : BootInfoFrameAllocator) :
    clean_up_addr_range page (tables, frame_allocator) = (.ok (), (tables, frame_allocator)) := by
  have hstep : ∀ level ∈ [1, 2, 3],
      clean_up_table (table_of level page) (tables, frame_allocator) = (.ok (), (tables, frame_allocator)) := by
    intro level hlevel
    obtain ⟨found, hfound, hused⟩ := table_of_present hsettled hpresent hlevel
    simp [clean_up_table, hfound, hused]
  simp [clean_up_addr_range, hstep 1, hstep 2, hstep 3]

end Present

theorem unmap_present {frame : PhysFrame} {flags : PageTableFlags} (hleaf : tables.leaf page = some (frame, flags))
    (frame_allocator : BootInfoFrameAllocator) :
    unmap page (tables, frame_allocator) = (.ok frame, (tables.remove_leaf page, frame_allocator)) := by
  simp [unmap, hleaf, change_tables]

end MapperM

/-- The crate's walk through tables of four levels. -/
def offset_page_table : Mapper where
  map_to := MapperM.map_to
  unmap := MapperM.unmap
  clean_up_addr_range := MapperM.clean_up_addr_range
  maps_absent := MapperM.map_to_spec
  refuses_present := MapperM.map_to_present
  removes_leaf := MapperM.unmap_present
  cleans_path := MapperM.clean_up_addr_range_spec
  keeps_present := MapperM.clean_up_addr_range_present

end leafos.memory
