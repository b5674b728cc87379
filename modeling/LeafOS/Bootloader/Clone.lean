import LeafOS.Bootloader.Walks

namespace leafos.bootloader

open Prog (Delivers Ends)

variable {entry source destination page : UInt64} {level : Nat} {before : Loader} (loader : Loader)
  {taken rest : List UInt64} {child : UInt64} {after : Loader}

section Relation

variable (original : TableMemory) (root kernel_root : UInt64)

/-- What the loop leaves in the place of an entry: a link to the root becomes one to the new
root whatever else it is, a child becomes a copy of it in one of the new pages, and the rest
stays. -/
def ClonedEntry (Child : UInt64 → UInt64 → Prop) (pages : List UInt64) (level : Nat) (entry cloned : UInt64) : Prop :=
  if has entry PAGE_TABLE_ENTRY_PRESENT = true ∧ level ≠ 1 ∧ entry &&& PAGE_TABLE_ADDRESS_MASK = root then
    cloned = relink entry kernel_root
  else
    match child_table level entry with
    | some child => ∃ page ∈ pages, cloned = relink entry page ∧ Child child page
    | none => cloned = entry

/-- The table at `destination` copies the one at `source`, with its children in `pages`. -/
def Clones (memory : TableMemory) (pages : List UInt64) : Nat → UInt64 → UInt64 → Prop
  | 0, _, _ => True
  | level + 1, source, destination => ∀ index < PAGE_TABLE_ENTRY_COUNT,
      ClonedEntry root kernel_root (Clones memory pages level) pages (level + 1) (original source index)
        (memory destination index)

/-- The pages that the copy of a table takes beside the one it is written to. -/
def pages_needed : Nat → UInt64 → Nat
  | 0, _ => 0
  | level + 1, source => ((List.range PAGE_TABLE_ENTRY_COUNT).map fun index =>
      match child_table (level + 1) (original source index) with
      | some child => if child = root then 0 else 1 + pages_needed level child
      | none => 0).sum

/-- The pages that one entry of a table takes. -/
def entry_cost (level : Nat) (entry : UInt64) : Nat :=
  match child_table (level + 1) entry with
  | some child => if child = root then 0 else 1 + pages_needed original root level child
  | none => 0

end Relation

variable {original : TableMemory} {root kernel_root : UInt64}

theorem pages_needed_succ (original : TableMemory) (root : UInt64) (level : Nat) (source : UInt64) :
    pages_needed original root (level + 1) source =
      ((List.range PAGE_TABLE_ENTRY_COUNT).map fun index => entry_cost original root level (original source index)).sum :=
  rfl

section Frames

variable {pages more : List UInt64}

theorem ClonedEntry.mono {Child Other : UInt64 → UInt64 → Prop} {cloned : UInt64}
    (hcloned : ClonedEntry root kernel_root Child pages level entry cloned)
    (hpages : ∀ page ∈ pages, page ∈ more) (hchild : ∀ child, ∀ page ∈ pages, Child child page → Other child page) :
    ClonedEntry root kernel_root Other more level entry cloned := by
  unfold ClonedEntry at hcloned ⊢
  split
  · rwa [if_pos ‹_›] at hcloned
  · rw [if_neg ‹_›] at hcloned
    cases hentry : child_table level entry with
    | none => simpa only [hentry] using hcloned
    | some child =>
      simp only [hentry] at hcloned ⊢
      obtain ⟨page, hpage, hlink, hcopy⟩ := hcloned
      exact ⟨page, hpages page hpage, hlink, hchild child page hpage hcopy⟩

/-- A copy stays one while its own pages are left alone. -/
theorem Clones.frame {memory after : TableMemory}
    (hclones : Clones original root kernel_root memory pages level source destination)
    (hdestination : after destination = memory destination) (hsame : ∀ page ∈ pages, after page = memory page)
    (hpages : ∀ page ∈ pages, page ∈ more) : Clones original root kernel_root after more level source destination := by
  induction level generalizing source destination with
  | zero => trivial
  | succ level ih =>
    intro index hindex
    rw [hdestination]
    apply (hclones index hindex).mono hpages
    intro child page hpage hchild
    exact ih hchild (hsame page hpage)

end Frames

/-- The leaf of the copy. The address of a huge page is replaced when it is that of the root. -/
def Leaf.cloned (root kernel_root : UInt64) (leaf : Leaf) : Leaf :=
  if leaf.level ≠ 1 ∧ leaf.entry &&& PAGE_TABLE_ADDRESS_MASK = root then
    { leaf with entry := relink leaf.entry kernel_root }
  else
    leaf

theorem Leaf.cloned_through (entry page : UInt64) (leaf : Leaf) :
    (leaf.through entry).cloned root kernel_root = (leaf.cloned root kernel_root).through (relink entry page) := by
  unfold Leaf.cloned Leaf.through
  split <;> simp only [relink_writable, relink_no_execute]

theorem child_table_relink (hchild : child_table level entry = some child)
    (hpage : page &&& PAGE_TABLE_ADDRESS_MASK = page) : child_table level (relink entry page) = some page := by
  rw [child_table_eq_some_iff] at hchild ⊢
  simpa only [relink_present, relink_huge, relink_address, hpage, and_true, and_assoc] using
    ⟨hchild.1, hchild.2.1, hchild.2.2.1⟩

theorem leaf_of_relink (hlevel : level ≠ 1) (haddress : entry &&& PAGE_TABLE_ADDRESS_MASK = root) :
    leaf_of level (relink entry kernel_root) = (leaf_of level entry).map (Leaf.cloned root kernel_root) := by
  unfold leaf_of
  rw [relink_present]
  split
  · simp only [relink_writable, relink_no_execute, Option.map_some, Leaf.cloned, hlevel, haddress, ne_eq,
      not_false_eq_true, and_self, if_true]
  · rfl

theorem leaf_of_cloned
    (hkept : ¬ (has entry PAGE_TABLE_ENTRY_PRESENT = true ∧ level ≠ 1 ∧ entry &&& PAGE_TABLE_ADDRESS_MASK = root)) :
    leaf_of level entry = (leaf_of level entry).map (Leaf.cloned root kernel_root) := by
  unfold leaf_of
  split
  · next hpresent =>
    rw [Bool.and_eq_true] at hpresent
    rw [Option.map_some, Leaf.cloned, if_neg fun h => hkept ⟨hpresent.1, h⟩]
  · rfl

/-- What the copy of a table translates, read off the original: every walk that does not come
back to the root ends in the same leaf but for its address if that is the root's, and stays in
the new pages. -/
theorem Clones.find_leaf {memory : TableMemory} {pages : List UInt64} {address : UInt64}
    (hclones : Clones original root kernel_root memory pages level source destination)
    (haligned : ∀ page ∈ pages, page &&& PAGE_TABLE_ADDRESS_MASK = page)
    (havoids : root ∉ entered original level source address) :
    find_leaf memory level destination address =
        (find_leaf original level source address).map (Leaf.cloned root kernel_root) ∧
      ∀ table ∈ entered memory level destination address, table ∈ pages := by
  induction level generalizing source destination with
  | zero => exact ⟨rfl, fun _ h => absurd h List.not_mem_nil⟩
  | succ level ih =>
    have hentry := hclones (table_index (level + 1) address) (table_index_lt _ _)
    unfold ClonedEntry at hentry
    split at hentry
    · next hroot =>
      -- A link to the root that the walk does not follow is a huge page.
      have hnone : child_table (level + 1) (original source (table_index (level + 1) address)) = none := by
        cases hchild : child_table (level + 1) (original source (table_index (level + 1) address)) with
        | none => rfl
        | some child =>
          rw [entered_child hchild, List.mem_cons, not_or] at havoids
          exact absurd (hroot.2.2.symm.trans (child_table_eq_some_iff.mp hchild).2.2.2) havoids.1
      have hcloned : child_table (level + 1) (memory destination (table_index (level + 1) address)) = none := by
        simp only [child_table, hentry, relink_present, relink_huge] at hnone ⊢
        split at hnone
        · exact absurd hnone (by simp)
        · rw [if_neg ‹_›]
      rw [find_leaf_end hnone, find_leaf_end hcloned, entered_end hcloned, hentry]
      exact ⟨leaf_of_relink hroot.2.1 hroot.2.2, fun _ h => absurd h List.not_mem_nil⟩
    · next hkept =>
      cases hchild : child_table (level + 1) (original source (table_index (level + 1) address)) with
      | none =>
        simp only [hchild] at hentry
        have hcloned := hentry.symm ▸ hchild
        rw [find_leaf_end hchild, find_leaf_end hcloned, entered_end hcloned, hentry]
        exact ⟨leaf_of_cloned hkept, fun _ h => absurd h List.not_mem_nil⟩
      | some child =>
        simp only [hchild] at hentry
        obtain ⟨page, hpage, hlink, hcopy⟩ := hentry
        rw [entered_child hchild, List.mem_cons, not_or] at havoids
        obtain ⟨hleaf, htables⟩ := ih hcopy havoids.2
        have hcloned : child_table (level + 1) (memory destination (table_index (level + 1) address)) = some page := by
          rw [hlink]
          exact child_table_relink hchild (haligned page hpage)
        rw [find_leaf_child hchild, find_leaf_child hcloned, entered_child hcloned, hleaf, hlink]
        refine ⟨?_, List.forall_mem_cons.mpr ⟨hpage, htables⟩⟩
        simp only [Option.map_map]
        congr 1
        funext leaf
        exact (Leaf.cloned_through _ page leaf).symm

/-- An entry that is not in use is not in use in the copy. -/
theorem Clones.absent {memory : TableMemory} {pages : List UInt64} {index : Nat}
    (hclones : Clones original root kernel_root memory pages (level + 1) source destination)
    (hindex : index < PAGE_TABLE_ENTRY_COUNT) (habsent : has (original source index) PAGE_TABLE_ENTRY_PRESENT = false) :
    has (memory destination index) PAGE_TABLE_ENTRY_PRESENT = false := by
  have hentry := hclones index hindex
  rw [ClonedEntry, if_neg (by simp [habsent]), child_table_of_absent habsent] at hentry
  rw [hentry, habsent]

/-- The tables under the new root are those of the copy. No table of it is used at a higher level than the
one it copies, so a walk ends before it follows an entry that was not copied. -/
theorem Clones.reachable {memory : TableMemory} {pages : List UInt64} {table : UInt64}
    (hclones : Clones original root kernel_root memory pages 4 root kernel_root)
    (haligned : ∀ page ∈ kernel_root :: pages, page &&& PAGE_TABLE_ADDRESS_MASK = page)
    (htable : Reachable memory kernel_root level table) :
    table ∈ kernel_root :: pages ∧ ∃ height source, level ≤ height ∧ height ≤ 4 ∧
      Clones original root kernel_root memory pages height source table := by
  induction htable with
  | root => exact ⟨List.mem_cons_self, 4, root, Nat.le_refl _, Nat.le_refl _, hclones⟩
  | @child level table child index _ hindex hchild ih =>
    obtain ⟨_, height, source, hlevel, hheight, hcopy⟩ := ih
    obtain ⟨height, rfl⟩ : ∃ below, height = below + 1 := ⟨height - 1, by omega⟩
    obtain ⟨hpresent, hne, hhuge, rfl⟩ := child_table_eq_some_iff.mp hchild
    have hentry := hcopy index hindex
    unfold ClonedEntry at hentry
    split at hentry
    · rw [hentry, relink_address, haligned _ List.mem_cons_self]
      exact ⟨List.mem_cons_self, 4, root, by omega, Nat.le_refl _, hclones⟩
    · split at hentry
      · obtain ⟨page, hpage, hlink, hbelow⟩ := hentry
        rw [hlink, relink_address, haligned page (List.mem_cons_of_mem _ hpage)]
        exact ⟨List.mem_cons_of_mem _ hpage, height, _, by omega, by omega, hbelow⟩
      · next hnone =>
        rw [hentry] at hpresent hhuge
        rw [child_table_eq_some_iff.mpr ⟨hpresent, by omega, hhuge, rfl⟩] at hnone
        cases hnone

/-- What copying does to the loader's state: it takes pages from the front of the allocator's and
writes to them and to the destination only. -/
structure Takes (before after : Loader) (destination : UInt64) (taken : List UInt64) : Prop where
  pages : before.pages = taken ++ after.pages
  memory : ∀ table, table ≠ destination → table ∉ taken → after.memory table = before.memory table
  globals : after = { before with memory := after.memory, pages := after.pages }

/-- The loader before a table is copied to `destination`: the firmware's tables are as they were,
and neither the destination nor a page still to come is among them. -/
structure Ready (original : TableMemory) (root kernel_root destination : UInt64) (loader : Loader) : Prop where
  root_eq : loader.original_page_table_root = root
  kernel_root_eq : loader.kernel_page_table_root = kernel_root
  source : ∀ level table, Reachable original root level table → loader.memory table = original table
  free : FreePages original root (destination :: loader.pages)

theorem FreePages.sublist {pages fewer : List UInt64} (hfree : FreePages original root pages)
    (hfewer : fewer.Sublist pages) : FreePages original root fewer where
  nodup := hfree.nodup.sublist hfewer
  aligned page hpage := hfree.aligned page (hfewer.subset hpage)
  unused level table htable hpage := hfree.unused level table htable (hfewer.subset hpage)

theorem Takes.ready
    (htakes : Takes before after destination taken) (hready : Ready original root kernel_root destination before) :
    Ready original root kernel_root destination after where
  root_eq := by rw [htakes.globals]; exact hready.root_eq
  kernel_root_eq := by rw [htakes.globals]; exact hready.kernel_root_eq
  source level table htable := by
    have hunused := hready.free.unused level table htable
    rw [htakes.pages, List.mem_cons, List.mem_append, not_or, not_or] at hunused
    rw [htakes.memory table hunused.1 hunused.2.1]
    exact hready.source level table htable
  free := by
    apply hready.free.sublist
    rw [htakes.pages]
    exact (List.sublist_append_right taken after.pages).cons_cons destination

/-- The page the allocator gives next is ready to be a destination itself. -/
theorem Ready.next {loader : Loader}
    (hready : Ready original root kernel_root destination loader) (hpages : loader.pages = page :: rest) :
    Ready original root kernel_root page { loader with pages := rest } where
  root_eq := hready.root_eq
  kernel_root_eq := hready.kernel_root_eq
  source := hready.source
  free := by
    apply hready.free.sublist
    rw [hpages]
    exact List.sublist_cons_self destination (page :: rest)

theorem Takes.refl (destination : UInt64) : Takes loader loader destination [] where
  pages := rfl
  memory _ _ _ := rfl
  globals := rfl

theorem Takes.write
    (htakes : Takes before after destination taken) (index : Nat) (entry : UInt64) :
    Takes before (after.wrote destination index entry) destination taken where
  pages := htakes.pages
  memory table htable htaken := by
    rw [Loader.wrote_memory, TableMemory.write_table _ _ _ _ htable]
    exact htakes.memory table htable htaken
  globals := by rw [Loader.wrote, htakes.globals]

section Runs

variable (original root kernel_root) (before : Loader) (level : Nat) (source destination : UInt64)

/-- The table has been copied, in the pages it needs. -/
def Copied (after : Loader) : Prop :=
  ∃ taken, Takes before after destination taken ∧
    Clones original root kernel_root after.memory taken level source destination ∧
    taken.length = pages_needed original root level source

/-- The entries listed in `done` have been copied. -/
def CopiedEntries (done : List Nat) (after : Loader) : Prop :=
  ∃ taken, Takes before after destination taken ∧
    (∀ index ∈ done, ClonedEntry root kernel_root (Clones original root kernel_root after.memory taken level) taken
      (level + 1) (original source index) (after.memory destination index)) ∧
    taken.length = (done.map fun index => entry_cost original root level (original source index)).sum

end Runs

section Entry

variable {done : List Nat} {index : Nat}
  (hdone : CopiedEntries original root kernel_root before level source destination done after)
include hdone

/-- An entry that needs no page. -/
theorem CopiedEntries.keep (hindex : index ∉ done) {cloned : UInt64}
    (hcost : entry_cost original root level (original source index) = 0)
    (hcloned : ∀ Child pages, ClonedEntry root kernel_root Child pages (level + 1) (original source index) cloned)
    (hdestination : destination ∉ before.pages) :
    CopiedEntries original root kernel_root before level source destination (done ++ [index])
      (after.wrote destination index cloned) := by
  obtain ⟨taken, htakes, hentries, hlength⟩ := hdone
  have hnew : destination ∉ taken := fun h => hdestination (htakes.pages ▸ List.mem_append_left _ h)
  refine ⟨taken, htakes.write index cloned, ?_, ?_⟩
  · intro other hother
    rcases List.mem_append.mp hother with hother | hother
    · have hne : other ≠ index := fun h => hindex (h ▸ hother)
      rw [Loader.wrote_memory, TableMemory.write_index _ _ _ _ hne]
      apply (hentries other hother).mono fun _ h => h
      intro child page hpage hchild
      have hne : ∀ found ∈ taken, found ≠ destination := fun found hfound h => hnew (h ▸ hfound)
      apply hchild.frame _ _ fun _ h => h
      · exact TableMemory.write_table _ _ _ _ (hne page hpage)
      · exact fun found hfound => TableMemory.write_table _ _ _ _ (hne found hfound)
    · rw [List.mem_singleton.mp hother, Loader.wrote_memory, TableMemory.write_same]
      exact hcloned _ _
  · rw [List.map_append, List.sum_append, hlength, List.map_singleton, List.sum_singleton, hcost, Nat.add_zero]

/-- An entry whose child has been copied to `page`. -/
theorem CopiedEntries.link (hindex : index ∉ done) (hready : Ready original root kernel_root destination before)
    {copied : Loader} (hchild : child_table (level + 1) (original source index) = some child) (hroot : child ≠ root)
    (hpages : after.pages = page :: rest)
    (hcopied : Copied original root kernel_root { after.wrote destination index entry with pages := rest } level child page
      copied) :
    CopiedEntries original root kernel_root before level source destination (done ++ [index])
      (copied.wrote destination index (relink (original source index) page)) := by
  obtain ⟨taken, htakes, hentries, hlength⟩ := hdone
  obtain ⟨below, hbelow, hclones, hneeded⟩ := hcopied
  have hall : before.pages = taken ++ page :: (below ++ copied.pages) := by
    rw [htakes.pages, hpages]
    exact congrArg _ (congrArg _ hbelow.pages)
  have hnodup := hready.free.nodup
  rw [hall, List.nodup_cons, List.nodup_append, List.mem_append, List.mem_cons, List.mem_append] at hnodup
  obtain ⟨hnew, _, _, hapart⟩ := hnodup
  simp only [not_or] at hnew
  have hmemory : ∀ table, table ≠ destination → table ∉ page :: below → copied.memory table = after.memory table := by
    intro table htable hother
    rw [List.mem_cons, not_or] at hother
    rw [hbelow.memory table hother.1 hother.2]
    exact TableMemory.write_table _ _ _ _ htable
  refine ⟨taken ++ page :: below, ⟨?_, ?_, ?_⟩, ?_, ?_⟩
  · rw [hall, List.append_assoc, List.cons_append]
    rfl
  · intro table htable hother
    rw [List.mem_append, not_or] at hother
    rw [Loader.wrote_memory, TableMemory.write_table _ _ _ _ htable, hmemory table htable hother.2]
    exact htakes.memory table htable hother.1
  · rw [Loader.wrote, hbelow.globals, Loader.wrote, htakes.globals]
  · intro other hother
    rcases List.mem_append.mp hother with hother | hother
    · have hne : other ≠ index := fun h => hindex (h ▸ hother)
      have hsame : ∀ found ∈ taken,
          (copied.wrote destination index (relink (original source index) page)).memory found = after.memory found := by
        intro found hfound
        have hdestination : found ≠ destination := fun h => hnew.1 (h ▸ hfound)
        rw [Loader.wrote_memory, TableMemory.write_table _ _ _ _ hdestination]
        apply hmemory found hdestination
        intro hbelow
        exact hapart found hfound found (List.mem_cons.mpr ((List.mem_cons.mp hbelow).imp id
          (List.mem_append_left _))) rfl
      have hentry : (copied.wrote destination index (relink (original source index) page)).memory destination other =
          after.memory destination other := by
        rw [Loader.wrote_memory, TableMemory.write_index _ _ _ _ hne, hbelow.memory destination hnew.2.1 hnew.2.2.1]
        exact TableMemory.write_index _ _ _ _ hne _
      rw [hentry]
      apply (hentries other hother).mono fun _ h => List.mem_append_left _ h
      intro child page hpage hchild
      exact hchild.frame (hsame page hpage) hsame fun _ h => List.mem_append_left _ h
    · rw [List.mem_singleton.mp hother, Loader.wrote_memory, TableMemory.write_same, ClonedEntry, if_neg, hchild]
      · refine ⟨page, List.mem_append_right _ List.mem_cons_self, rfl, ?_⟩
        apply hclones.frame _ _ fun _ h => List.mem_append_right _ (List.mem_cons_of_mem _ h)
        · exact TableMemory.write_table _ _ _ _ (Ne.symm hnew.2.1)
        · exact fun found hfound => TableMemory.write_table _ _ _ _ fun h => hnew.2.2.1 (h ▸ hfound)
      · rintro ⟨_, _, haddress⟩
        exact hroot ((child_table_eq_some_iff.mp hchild).2.2.2.symm.trans haddress)
  · rw [List.map_append, List.sum_append, List.map_singleton, List.sum_singleton, ← hlength, entry_cost, hchild,
      List.length_append, List.length_cons, hneeded]
    simp only [hroot, if_false]
    omega

end Entry

theorem wrote_wrote (table : UInt64) (index : Nat) (entry later : UInt64) :
    (loader.wrote table index entry).wrote table index later = loader.wrote table index later := by
  simp only [Loader.wrote, TableMemory.write, Function.update_self, Function.update_idem]

/-- One turn of the loop copies one entry, when `clone_child` copies the tables one level down. -/
theorem clone_entry_delivers {clone_child : UInt64 → UInt64 → LoaderM Unit}
    {done : List Nat} {index needed : Nat}
    (hchild : ∀ child page loader, Reachable original root level child → Ready original root kernel_root page loader →
      Delivers (· = loader) (clone_child child page) (fun _ => Copied original root kernel_root loader level child page)
        (OutOfPages loader (pages_needed original root level child)))
    (hready : Ready original root kernel_root destination before) (hsource : Reachable original root (level + 1) source)
    (hbound : index < PAGE_TABLE_ENTRY_COUNT) (hindex : index ∉ done)
    (hneeded : ((done ++ [index]).map fun index => entry_cost original root level (original source index)).sum ≤ needed) :
    Delivers (CopiedEntries original root kernel_root before level source destination done)
      (clone_entry clone_child source destination (level + 1) index)
      (fun _ => CopiedEntries original root kernel_root before level source destination (done ++ [index]))
      (OutOfPages before needed) := by
  apply Ends.get_bind
  intro loader hdone
  obtain ⟨taken, htakes, hentries, hlength⟩ := id hdone
  have hloader := htakes.ready hready
  have hdestination : destination ∉ before.pages := (List.nodup_cons.mp hready.free.nodup).1
  have hentry : loader.memory source index = original source index := congrFun (hloader.source _ _ hsource) index
  dsimp only
  rw [hentry, hloader.root_eq, hloader.kernel_root_eq]
  apply Ends.bind write_entry_delivers
  intro _
  split
  · next hkept =>
    have hnot : ¬ (has (original source index) PAGE_TABLE_ENTRY_PRESENT = true ∧ level + 1 ≠ 1) := by
      rintro ⟨hpresent, hlevel⟩
      simp [hpresent] at hkept
      exact hlevel (by rw [hkept])
    have hnone : child_table (level + 1) (original source index) = none := by
      rw [Option.eq_none_iff_forall_ne_some]
      intro child hsome
      obtain ⟨hpresent, hlevel, _⟩ := child_table_eq_some_iff.mp hsome
      exact hnot ⟨hpresent, hlevel⟩
    apply Ends.pure.pre
    rintro _ rfl
    apply hdone.keep hindex _ _ hdestination
    · rw [entry_cost, hnone]
    · intro Child pages
      rw [ClonedEntry, if_neg fun h => hnot ⟨h.1, h.2.1⟩, hnone]
  · next hfollowed =>
    simp only [Bool.or_eq_true, Bool.not_eq_true', beq_iff_eq, not_or, Bool.not_eq_false] at hfollowed
    split
    · next hroot =>
      apply write_entry_delivers.post
      rintro _ _ rfl
      rw [wrote_wrote]
      apply hdone.keep hindex _ _ hdestination
      · rw [entry_cost]
        split
        · next child hsome => rw [if_pos ((child_table_eq_some_iff.mp hsome).2.2.2.symm.trans hroot)]
        · rfl
      · intro Child pages
        rw [ClonedEntry, if_pos ⟨hfollowed.1, hfollowed.2, hroot⟩]
    · next hroot =>
      split
      · next hhuge =>
        apply Ends.pure.pre
        rintro _ rfl
        apply hdone.keep hindex _ _ hdestination
        · rw [entry_cost, child_table_of_huge hhuge]
        · intro Child pages
          rw [ClonedEntry, if_neg fun h => hroot h.2.2, child_table_of_huge hhuge]
      · next hhuge =>
        have hsome : child_table (level + 1) (original source index) =
            some (original source index &&& PAGE_TABLE_ADDRESS_MASK) :=
          child_table_eq_some_iff.mpr ⟨hfollowed.1, hfollowed.2, Bool.eq_false_iff.mpr hhuge, rfl⟩
        have hcost : entry_cost original root level (original source index) =
            1 + pages_needed original root level (original source index &&& PAGE_TABLE_ADDRESS_MASK) := by
          simp only [entry_cost, hsome, hroot, if_false]
        rw [List.map_append, List.sum_append, List.map_singleton, List.sum_singleton, hcost, ← hlength] at hneeded
        have hcount := congrArg List.length htakes.pages
        rw [List.length_append] at hcount
        apply Ends.bind (allocate_pages_delivers.mono (fun _ h => h) (fun _ _ h => h) _)
        · intro page
          apply Ends.at_state
          rintro allocated ⟨hpages, hallocated⟩
          have hwrote := (Takes.refl loader destination).write index (original source index)
          have hnext := (hwrote.ready hloader).next hpages
          rw [← hallocated] at hnext
          apply Ends.bind ((hchild _ page _ (hsource.child hbound hsome) hnext).mono (fun _ h => h) (fun _ _ h => h) _)
          · intro _
            apply Ends.at_state
            intro copied hcopied
            apply write_entry_delivers.post
            rintro _ _ rfl
            rw [hallocated] at hcopied
            exact hdone.link hindex hready hsome hroot hpages hcopied
          · rintro error _ ⟨herror, hnone, hshort⟩
            have hrest := congrArg List.length hpages
            rw [List.length_cons] at hrest
            exact ⟨herror, hnone, by change loader.pages.length = _ at hrest; omega⟩
        · rintro error _ ⟨herror, hnone, hpages⟩
          change loader.pages = [] at hpages
          rw [hpages, List.length_nil] at hcount
          exact ⟨herror, hnone, by omega⟩

/-- `ClonePageTableLevel` copies the table and everything below it, or runs out of pages when
there are fewer than it needs. -/
theorem clone_page_table_level_delivers {loader : Loader}
    (hsource : Reachable original root level source) (hready : Ready original root kernel_root destination loader) :
    Delivers (· = loader) (clone_page_table_level source destination level)
      (fun _ => Copied original root kernel_root loader level source destination)
      (OutOfPages loader (pages_needed original root level source)) := by
  induction level generalizing source destination loader with
  | zero =>
    apply Ends.pure.pre
    rintro _ rfl
    exact ⟨[], Takes.refl _ destination, trivial, rfl⟩
  | succ level ih =>
    obtain ⟨indices, hindices⟩ : ∃ indices, indices = List.range PAGE_TABLE_ENTRY_COUNT := ⟨_, rfl⟩
    have hneeded := pages_needed_succ original root level source
    have hmem : ∀ index, index ∈ indices ↔ index < PAGE_TABLE_ENTRY_COUNT := by
      simp only [hindices, List.mem_range, implies_true]
    have hnodup : indices.Nodup := by
      rw [hindices]
      exact List.nodup_range
    rw [clone_page_table_level, ← hindices]
    rw [← hindices] at hneeded
    refine ((Ends.forEach (CopiedEntries original root kernel_root loader level source destination) ?_).pre ?_).post ?_
    · intro done index rest hitems
      rw [hitems] at hnodup hneeded
      apply clone_entry_delivers (fun _ _ _ hchild hpage => ih hchild hpage) hready hsource
      · exact (hmem index).mp (by simp [hitems])
      · exact fun hdone => (List.nodup_append.mp hnodup).2.2 index hdone index List.mem_cons_self rfl
      · simp only [hneeded, List.map_append, List.map_cons, List.map_nil, List.sum_append, List.sum_cons, List.sum_nil]
        omega
    · rintro _ rfl
      exact ⟨[], Takes.refl _ destination, fun _ h => absurd h List.not_mem_nil, rfl⟩
    · rintro _ after ⟨taken, htakes, hentries, hlength⟩
      exact ⟨taken, htakes, fun index hindex => hentries index ((hmem index).mpr hindex), hlength.trans hneeded.symm⟩

/-- An address translates alike through a leaf and its copy, unless the copy has another entry. -/
theorem Leaf.cloned_translation_iff {leaf : Leaf} {address : UInt64}
    (haligned : kernel_root &&& PAGE_TABLE_ADDRESS_MASK = kernel_root) (hne : kernel_root ≠ root) :
    (leaf.cloned root kernel_root).translation address = leaf.translation address ↔
      (leaf.level ≠ 1 → leaf.entry &&& PAGE_TABLE_ADDRESS_MASK ≠ root) := by
  constructor
  · intro hsame hlevel hroot
    rw [Leaf.cloned, if_pos ⟨hlevel, hroot⟩] at hsame
    obtain ⟨hphysical, hflags, _⟩ := Translation.mk.inj hsame
    have hframe : relink leaf.entry kernel_root &&& frame_mask leaf.level = leaf.entry &&& frame_mask leaf.level :=
      UInt64.toNat_inj.mp (Nat.add_right_cancel hphysical)
    have hentry := UInt64.eq_of_and hframe hflags
    rw [← hentry, relink_address, haligned] at hroot
    exact hne hroot
  · intro hleaf
    rw [Leaf.cloned, if_neg fun h => hleaf h.1 h.2]

/-- The pages that are left when the root has been copied are free under the new root too. -/
theorem Takes.free_pages (htakes : Takes before after kernel_root taken)
    (hclones : Clones original root kernel_root after.memory taken 4 root kernel_root)
    (hfree : FreePages original root (kernel_root :: before.pages)) :
    FreePages original root (kernel_root :: taken) ∧ FreePages after.memory kernel_root after.pages := by
  rw [htakes.pages, ← List.cons_append] at hfree
  have hcopy := hfree.sublist (List.sublist_append_left _ _)
  obtain ⟨_, hnodup, hapart⟩ := List.nodup_append.mp hfree.nodup
  refine ⟨hcopy, hnodup, fun page hpage => hfree.aligned page (List.mem_append_right _ hpage), ?_⟩
  intro level table htable hpage
  exact hapart table (hclones.reachable hcopy.aligned htable).1 table hpage rfl

/-- Which addresses translate through the copy as they did, and the tables their walks enter. -/
theorem FreePages.translate_iff {memory : TableMemory} {pages : List UInt64} {address : UInt64}
    (hfree : FreePages original root (kernel_root :: pages))
    (hclones : Clones original root kernel_root memory pages 4 root kernel_root)
    (havoids : root ∉ entered original 4 root address) :
    (translate memory kernel_root address = translate original root address ↔
      ∀ leaf, find_leaf original 4 root address = some leaf → leaf.level ≠ 1 →
        leaf.entry &&& PAGE_TABLE_ADDRESS_MASK ≠ root) ∧
    ∀ table ∈ entered memory 4 kernel_root address, table ∈ pages := by
  obtain ⟨haligned, hpages⟩ := List.forall_mem_cons.mp hfree.aligned
  obtain ⟨hsame, htables⟩ := hclones.find_leaf hpages havoids
  have hroots : kernel_root ≠ root := fun h => hfree.unused 4 _ .root (h ▸ List.mem_cons_self)
  refine ⟨?_, htables⟩
  unfold translate
  rw [hsame, Option.map_map]
  cases hfound : find_leaf original 4 root address with
  | none => simp
  | some leaf =>
    simp only [Option.map_some, Option.some.injEq, Function.comp_apply, forall_eq',
      Leaf.cloned_translation_iff haligned hroots]

/-- With pages enough the copy is made. -/
theorem Ready.copied {loader : Loader} (hready : Ready original root kernel_root destination loader)
    (hsource : Reachable original root level source)
    (hpages : pages_needed original root level source ≤ loader.pages.length) :
    ∃ after, clone_page_table_level source destination level loader = (.ok (), after) ∧
      Copied original root kernel_root loader level source destination after := by
  rcases (clone_page_table_level_delivers hsource hready).run rfl with ⟨_, after, hrun, hcopied⟩ | ⟨_, _, _, _, _, hshort⟩
  · exact ⟨after, hrun, hcopied⟩
  · omega

/-- The whole of `ClonePageTableLevel(root, kernel_root, 4)` when there are pages enough. -/
theorem clone_root
    (hfree : FreePages loader.memory loader.original_page_table_root (loader.kernel_page_table_root :: loader.pages))
    (hpages : pages_needed loader.memory loader.original_page_table_root 4 loader.original_page_table_root ≤
      loader.pages.length) :
    ∃ after, clone_page_table_level loader.original_page_table_root loader.kernel_page_table_root 4 loader =
        (.ok (), after) ∧
      Copied loader.memory loader.original_page_table_root loader.kernel_page_table_root loader 4
        loader.original_page_table_root loader.kernel_page_table_root after :=
  Ready.copied ⟨rfl, rfl, fun _ _ _ => rfl, hfree⟩ .root hpages

/-- The copy of the firmware's tables translates as they do. Of the addresses whose walk does not
come back to the root, exactly those translate to the same address with the same flags through the
new root that no huge page at the root's own address maps; and the walk of each through the new
root stays in pages the allocator has just given out. -/
theorem clone_preserves_translation (loader : Loader)
    (hfree : FreePages loader.memory loader.original_page_table_root (loader.kernel_page_table_root :: loader.pages))
    (hpages : pages_needed loader.memory loader.original_page_table_root 4 loader.original_page_table_root ≤
      loader.pages.length) :
    ∃ after taken, clone_page_table_level loader.original_page_table_root loader.kernel_page_table_root 4 loader =
        (.ok (), after) ∧ loader.pages = taken ++ after.pages ∧
      ∀ address,
        loader.original_page_table_root ∉ entered loader.memory 4 loader.original_page_table_root address →
        (translate after.memory loader.kernel_page_table_root address =
            translate loader.memory loader.original_page_table_root address ↔
          ∀ leaf, find_leaf loader.memory 4 loader.original_page_table_root address = some leaf → leaf.level ≠ 1 →
            leaf.entry &&& PAGE_TABLE_ADDRESS_MASK ≠ loader.original_page_table_root) ∧
        ∀ table ∈ loader.kernel_page_table_root :: entered after.memory 4 loader.kernel_page_table_root address,
          table ∈ loader.kernel_page_table_root :: taken ∧
            ∀ level, ¬ Reachable loader.memory loader.original_page_table_root level table := by
  obtain ⟨after, hrun, taken, htakes, hclones, _⟩ := clone_root loader hfree hpages
  refine ⟨after, taken, hrun, htakes.pages, ?_⟩
  intro address havoids
  obtain ⟨hcopy, _⟩ := htakes.free_pages hclones hfree
  obtain ⟨hsame, htables⟩ := hcopy.translate_iff hclones havoids
  refine ⟨hsame, fun table htable => ?_⟩
  have hmem : table ∈ loader.kernel_page_table_root :: taken := by
    rcases List.mem_cons.mp htable with rfl | htable
    · exact List.mem_cons_self
    · exact List.mem_cons_of_mem _ (htables table htable)
  exact ⟨hmem, fun level hreachable => hcopy.unused level table hreachable hmem⟩

/-- Tables as firmware sets them up, with the first gigabyte mapped onto itself by 2 MiB pages.
The tables lie in that gigabyte themselves. -/
def identity_tables : TableMemory := fun table index =>
  if table = 0x800000 then if index = 0 then 0x801003 else 0
  else if table = 0x801000 then if index = 0 then 0x802003 else 0
  else if table = 0x802000 then UInt64.ofNat index * 0x200000 + 0x83
  else 0

/-- The loader when it is about to copy `identity_tables`. -/
def identity_loader : Loader where
  memory := identity_tables
  pages := [0xA01000, 0xA02000]
  original_page_table_root := 0x800000
  kernel_page_table_root := 0xA00000
  physical_memory_offset := 0
  physical_memory_pml4_index := 0

/-- The links of `identity_tables`. -/
theorem identity_children : ∀ index < PAGE_TABLE_ENTRY_COUNT,
    child_table 4 (identity_tables 0x800000 index) = (if index = 0 then some 0x801000 else none) ∧
      child_table 3 (identity_tables 0x801000 index) = (if index = 0 then some 0x802000 else none) ∧
      child_table 2 (identity_tables 0x802000 index) = none := by
  decide +kernel

theorem reachable_identity {table : UInt64} (htable : Reachable identity_tables 0x800000 level table) :
    level = 4 ∧ table = 0x800000 ∨ level = 3 ∧ table = 0x801000 ∨ level = 2 ∧ table = 0x802000 := by
  induction htable with
  | root => exact .inl ⟨rfl, rfl⟩
  | child htable hindex hchild ih =>
    obtain ⟨hfour, hthree, htwo⟩ := identity_children _ hindex
    rcases ih with ⟨hlevel, rfl⟩ | ⟨hlevel, rfl⟩ | ⟨hlevel, rfl⟩ <;> rw [hlevel] at hchild
    · rw [hfour, Option.ite_none_right_eq_some, Option.some.injEq] at hchild
      exact .inr (.inl ⟨by omega, hchild.2.symm⟩)
    · rw [hthree, Option.ite_none_right_eq_some, Option.some.injEq] at hchild
      exact .inr (.inr ⟨by omega, hchild.2.symm⟩)
    · rw [htwo] at hchild
      exact nomatch hchild

theorem identity_free : FreePages identity_tables 0x800000 [0xA00000, 0xA01000, 0xA02000] where
  nodup := by decide
  aligned := by
    simp only [List.forall_mem_cons]
    exact ⟨rfl, rfl, rfl, nofun⟩
  unused level table htable := by
    rcases reachable_identity htable with ⟨_, rfl⟩ | ⟨_, rfl⟩ | ⟨_, rfl⟩ <;> decide

theorem identity_needs : pages_needed identity_tables 0x800000 4 0x800000 = 2 := by
  decide +kernel

/-- The page at 2 MiB is mapped onto itself through the copy as well. -/
theorem clone_preserves_identity :
    ∃ after, clone_page_table_level 0x800000 0xA00000 4 identity_loader = (.ok (), after) ∧
      translate after.memory 0xA00000 0x200010 = some ⟨0x200010, 0x83, true, false⟩ := by
  obtain ⟨after, _, hrun, _, htranslate⟩ := clone_preserves_translation identity_loader identity_free
    (Nat.le_of_eq identity_needs)
  refine ⟨after, hrun, ?_⟩
  have hfound : find_leaf identity_tables 4 0x800000 0x200010 = some ⟨2, 0x200083, true, false⟩ := by decide +kernel
  have hsame := (htranslate 0x200010 (by decide +kernel)).1.mpr (by
    intro leaf hleaf _
    rw [show find_leaf identity_loader.memory 4 identity_loader.original_page_table_root 0x200010 = _ from hfound,
      Option.some.injEq] at hleaf
    rw [← hleaf]
    decide)
  exact hsame.trans (by decide +kernel)

/-- The loader asks whether an entry has the root's address before it asks whether the entry is a
huge page. The page at 8 MiB, which holds the tables, was mapped onto itself; its copy is moved
to the new root. -/
theorem clone_moves_page_of_root :
    FreePages identity_loader.memory identity_loader.original_page_table_root
        (identity_loader.kernel_page_table_root :: identity_loader.pages) ∧
      pages_needed identity_loader.memory identity_loader.original_page_table_root 4
        identity_loader.original_page_table_root ≤ identity_loader.pages.length ∧
      identity_loader.original_page_table_root ∉
        entered identity_loader.memory 4 identity_loader.original_page_table_root 0x800000 ∧
      translate identity_loader.memory identity_loader.original_page_table_root 0x800000 =
        some ⟨0x800000, 0x83, true, false⟩ ∧
      ∃ after, clone_page_table_level identity_loader.original_page_table_root identity_loader.kernel_page_table_root 4
          identity_loader = (.ok (), after) ∧
        translate after.memory identity_loader.kernel_page_table_root 0x800000 =
          some ⟨0xA00000, 0x83, true, false⟩ := by
  have hpages : pages_needed identity_tables 0x800000 4 0x800000 ≤ 2 := Nat.le_of_eq identity_needs
  have havoids : (0x800000 : UInt64) ∉ entered identity_tables 4 0x800000 0x800000 := by decide +kernel
  obtain ⟨after, hrun, taken, htakes, hclones, _⟩ := clone_root identity_loader identity_free hpages
  refine ⟨identity_free, hpages, havoids, by decide +kernel, after, hrun, ?_⟩
  have haligned : ∀ page ∈ taken, page &&& PAGE_TABLE_ADDRESS_MASK = page := by
    intro page hpage
    have hmem : page ∈ identity_loader.pages := htakes.pages ▸ List.mem_append_left after.pages hpage
    exact identity_free.aligned page (List.mem_cons_of_mem _ hmem)
  unfold translate
  rw [(hclones.find_leaf haligned havoids).1]
  decide +kernel

end leafos.bootloader
