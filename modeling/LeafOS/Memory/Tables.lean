import LeafOS.Memory.PageTables
import LeafOS.Support.Assoc

namespace leafos.memory.UserTables

variable {self : UserTables} {level : Nat} {id : TableId} {page : Page} {position : Nat}

def HasTable (self : UserTables) (id : TableId) : Prop := ∃ frame, (id, frame) ∈ self.tables

/-- Some mapped page is reached through the table. -/
def Needs (self : UserTables) (id : TableId) : Prop :=
  ∃ entry ∈ self.leaves, table_of id.level entry.1 = id

/-- The tables on the way to a page that are not there. -/
def missing (self : UserTables) (page : Page) : List TableId :=
  ([1, 2, 3].map fun level => table_of level page).filter fun id => (self.table id).isNone

/-- No table and no page has two entries, and there are three levels. -/
structure Keyed (tables : UserTables) : Prop where
  levels : ∀ entry ∈ tables.tables, entry.1.level ∈ [1, 2, 3]
  tables_nodup : (tables.tables.map Prod.fst).Nodup
  leaves_nodup : (tables.leaves.map Prod.fst).Nodup

/-- The tables of one level are exactly those that mapped pages need. -/
def Tight (self : UserTables) (level : Nat) : Prop :=
  ∀ position, self.HasTable ⟨level, position⟩ ↔ self.Needs ⟨level, position⟩

/-- The same, except that the table on the path of one page may be there without
need. -/
def Loose (self : UserTables) (page : Page) (level : Nat) : Prop :=
  ∀ position, (self.Needs ⟨level, position⟩ → self.HasTable ⟨level, position⟩) ∧
    (self.HasTable ⟨level, position⟩ →
      self.Needs ⟨level, position⟩ ∨ table_of level page = ⟨level, position⟩)

theorem Tight.loose (htight : self.Tight level) (page : Page) : self.Loose page level :=
  fun position => ⟨(htight position).mpr, fun htable => .inl ((htight position).mp htable)⟩

theorem table_eq_some (hkeyed : self.Keyed) {frame : PhysFrame} :
    self.table id = some frame ↔ (id, frame) ∈ self.tables :=
  List.lookup_eq_some_iff_mem hkeyed.tables_nodup

theorem table_eq_none : self.table id = none ↔ ¬ self.HasTable id := by
  simp only [table, List.lookup_eq_none_iff, HasTable, bne_iff_ne, not_exists]
  constructor
  · exact fun h frame hmem => h (id, frame) hmem rfl
  · rintro h ⟨other, frame⟩ hmem rfl
    exact h frame hmem

theorem mem_missing :
    id ∈ self.missing page ↔ (∃ level ∈ [1, 2, 3], table_of level page = id) ∧ ¬ self.HasTable id := by
  rw [missing, List.mem_filter, List.mem_map, Option.isNone_iff_eq_none, table_eq_none]

theorem missing_nodup (page : Page) : (self.missing page).Nodup := by
  apply List.Nodup.filter
  simp [table_of]

theorem leaf_eq_some (hkeyed : self.Keyed) {entry : PhysFrame × PageTableFlags} :
    self.leaf page = some entry ↔ (page, entry) ∈ self.leaves :=
  List.lookup_eq_some_iff_mem hkeyed.leaves_nodup

theorem leaf_eq_none : self.leaf page = none ↔ page ∉ self.leaves.map Prod.fst := by
  simp only [leaf, List.lookup_eq_none_iff, bne_iff_ne, List.mem_map, not_exists, not_and]
  exact ⟨fun h entry hmem hsame => h entry hmem hsame.symm, fun h entry hmem hsame => h entry hmem hsame.symm⟩

/-- Just above the leaves a table is empty when no page needs it. -/
theorem is_empty_one : self.is_empty ⟨1, position⟩ = true ↔ ¬ self.Needs ⟨1, position⟩ := by
  simp [is_empty, Needs, table_of]

/-- Higher up it is so once the level below is tight. -/
theorem is_empty_succ (hlevel : level ≠ 0) (hbelow : self.Tight level) :
    self.is_empty ⟨level + 1, position⟩ = true ↔ ¬ self.Needs ⟨level + 1, position⟩ := by
  have hone : level + 1 ≠ 1 := by omega
  have hneeds : self.Needs ⟨level + 1, position⟩ ↔
      ∃ below, self.HasTable ⟨level, below⟩ ∧ below / 512 = position := by
    constructor
    · rintro ⟨entry, hentry, htable⟩
      simp only [table_of, TableId.mk.injEq, true_and, Nat.pow_succ, ← Nat.div_div_eq_div_mul] at htable
      exact ⟨entry.1 / 512 ^ level, (hbelow _).mpr ⟨entry, hentry, rfl⟩, htable⟩
    · rintro ⟨below, htable, rfl⟩
      obtain ⟨entry, hentry, hsame⟩ := (hbelow below).mp htable
      simp only [table_of, TableId.mk.injEq, true_and] at hsame
      exact ⟨entry, hentry, by rw [table_of, Nat.pow_succ, ← Nat.div_div_eq_div_mul, hsame]⟩
  rw [hneeds]
  simp only [is_empty, if_neg hone, List.all_eq_true, Bool.not_eq_true', Bool.and_eq_false_iff,
    beq_eq_false_iff_ne, HasTable]
  constructor
  · rintro h ⟨below, ⟨frame, hmem⟩, hposition⟩
    obtain hne | hne := h _ hmem
    · exact hne rfl
    · exact hne hposition
  · rintro h ⟨⟨other, below⟩, frame⟩ hmem
    by_contra hboth
    simp only [not_or, not_not] at hboth
    obtain ⟨hsame, hposition⟩ := hboth
    obtain rfl := Nat.succ.inj hsame
    exact h ⟨below, ⟨frame, hmem⟩, hposition⟩

section Changes

variable {frame : PhysFrame} {flags : PageTableFlags} {other : TableId}

theorem hasTable_add_table : (self.add_table id frame).HasTable other ↔ other = id ∨ self.HasTable other := by
  simp only [HasTable, add_table, List.mem_cons, Prod.mk.injEq]
  constructor
  · rintro ⟨found, ⟨hsame, _⟩ | hmem⟩
    · exact .inl hsame
    · exact .inr ⟨found, hmem⟩
  · rintro (hsame | ⟨found, hmem⟩)
    · exact ⟨frame, .inl ⟨hsame, rfl⟩⟩
    · exact ⟨found, .inr hmem⟩

theorem hasTable_remove_table : (self.remove_table id).HasTable other ↔ other ≠ id ∧ self.HasTable other := by
  simp [HasTable, remove_table, and_comm]

theorem frames_add_leaf : (self.add_leaf page frame flags).frames.Perm (frame :: self.frames) :=
  List.perm_middle

/-- With its tables in place, a new leaf makes its levels tight. -/
theorem add_leaf_tight (hloose : self.Loose page level)
    (htable : self.HasTable (table_of level page)) : (self.add_leaf page frame flags).Tight level := by
  intro position
  have hneeds : (self.add_leaf page frame flags).Needs ⟨level, position⟩ ↔
      table_of level page = ⟨level, position⟩ ∨ self.Needs ⟨level, position⟩ := by
    simp [Needs, add_leaf]
  rw [hneeds]
  constructor
  · intro h
    exact ((hloose position).2 h).symm
  · rintro (hsame | hneeds)
    · exact hsame ▸ htable
    · exact (hloose position).1 hneeds

/-- Removing a leaf leaves the tables on its path without certain need. -/
theorem remove_leaf_loose (htight : self.Tight level) : (self.remove_leaf page).Loose page level := by
  intro position
  constructor
  · rintro ⟨entry, hentry, hsame⟩
    exact (htight position).mpr ⟨entry, (List.mem_filter.mp hentry).1, hsame⟩
  · intro htable
    obtain ⟨entry, hentry, hsame⟩ := (htight position).mp htable
    by_cases hpage : entry.1 = page
    · exact .inr (hpage ▸ hsame)
    · exact .inl ⟨entry, List.mem_filter.mpr ⟨hentry, by simpa using hpage⟩, hsame⟩

variable (hkeyed : self.Keyed)
include hkeyed

theorem add_table_keyed (hlevel : id.level ∈ [1, 2, 3]) (habsent : ¬ self.HasTable id) :
    (self.add_table id frame).Keyed := by
  refine ⟨List.forall_mem_cons.mpr ⟨hlevel, hkeyed.levels⟩, ?_, hkeyed.leaves_nodup⟩
  refine List.nodup_cons.mpr ⟨fun hmem => ?_, hkeyed.tables_nodup⟩
  obtain ⟨entry, hentry, rfl⟩ := List.mem_map.mp hmem
  exact habsent ⟨entry.2, hentry⟩

theorem remove_table_keyed : (self.remove_table id).Keyed :=
  ⟨fun entry hentry => hkeyed.levels entry (List.mem_filter.mp hentry).1,
    hkeyed.tables_nodup.sublist (List.filter_sublist.map _), hkeyed.leaves_nodup⟩

theorem frames_remove_table (htable : (id, frame) ∈ self.tables) :
    self.frames.Perm (frame :: (self.remove_table id).frames) :=
  ((List.perm_cons_filter_key hkeyed.tables_nodup htable).map Prod.snd).append_right _

theorem add_leaf_keyed (habsent : page ∉ self.leaves.map Prod.fst) : (self.add_leaf page frame flags).Keyed :=
  ⟨hkeyed.levels, hkeyed.tables_nodup, List.nodup_cons.mpr ⟨habsent, hkeyed.leaves_nodup⟩⟩

theorem remove_leaf_keyed : (self.remove_leaf page).Keyed :=
  ⟨hkeyed.levels, hkeyed.tables_nodup, hkeyed.leaves_nodup.sublist (List.filter_sublist.map _)⟩

theorem frames_remove_leaf (hleaf : (page, frame, flags) ∈ self.leaves) :
    self.frames.Perm (frame :: (self.remove_leaf page).frames) := by
  have hleaves := (List.perm_cons_filter_key hkeyed.leaves_nodup hleaf).map fun entry => entry.2.1
  exact (hleaves.append_left _).trans List.perm_middle

end Changes

end leafos.memory.UserTables
