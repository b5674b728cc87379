import LeafOS.Memory.Construction
import LeafOS.Memory.KernelAllocator
import LeafOS.Support.Ensures
import Mathlib.Order.Interval.Set.Basic

namespace leafos.memory.heap

open Prog

theorem growth_page_eq (start count : Nat) : growth_page (start * PAGE_SIZE) count = start + count := by
  rw [growth_page, ← Nat.add_mul, Nat.mul_div_cancel _ (by decide)]

section Checks

variable {heap_start mapped_pages : Nat}

theorem available_pages_in_slot_some {available_pages : Nat}
    (havailable : available_pages_in_slot heap_start mapped_pages = some available_pages) :
    mapped_pages + available_pages = PML4_SLOT_PAGES := by
  simp only [available_pages_in_slot, Option.bind_eq_bind, Option.bind_eq_some_iff, checked_sub,
    Option.ite_none_right_eq_some, Option.some.injEq] at havailable
  obtain ⟨_, _, hle, rfl⟩ := havailable
  exact Nat.add_sub_of_le hle

theorem checked_growth_start_some {additional_pages growth_start : Nat}
    (hstart : checked_growth_start heap_start mapped_pages additional_pages = some growth_start) :
    growth_start = heap_start + mapped_pages * PAGE_SIZE := by
  simp only [checked_growth_start, Option.bind_eq_bind, Option.ite_none_left_eq_some, Option.bind_eq_some_iff,
    Option.filter_eq_some_iff, checked_add_eq_some, checked_mul_eq_some] at hstart
  obtain ⟨_, _, _, _, _, _, _, _, _, _, _, _, _, _, offset, ⟨_, rfl⟩, ⟨_, rfl⟩, _⟩ := hstart
  rfl

end Checks

/-- What the kernel allocator relies on, over whatever memory manager it is given, and whenever
frames run out or a mapping fails: a call that succeeds changes one page, a call that fails changes
none, and the slot that is offered holds no page. -/
structure Manager.Lawful {M : Type} (manager : Manager M) (valid : M → Prop) (pages : M → Set Nat) : Prop where
  maps : ∀ page before, Delivers (fun self => valid self ∧ pages self = before) (manager.allocate_and_map page)
    (fun _ self => valid self ∧ pages self = insert page before) (fun _ self => valid self ∧ pages self = before)
  unmaps : ∀ page before, Delivers (fun self => valid self ∧ pages self = before) (manager.unmap_and_deallocate page)
    (fun _ self => valid self ∧ pages self = before \ {page}) (fun _ self => valid self ∧ pages self = before)
  unused : ∀ self start, valid self → manager.first_unused_low_half_page self = some start →
    ∃ slot, 1 ≤ slot ∧ slot ≤ 254 ∧ start = slot * PML4_SLOT_SIZE ∧ ∀ page ∈ pages self, p4_index page ≠ slot
  counts : ∀ self, valid self → ∃ count, manager.available_frame_count self = .ok count

/-- The same for the pages of a range, which is all that the loops of `grow` call it for. -/
structure PageCalls.LawfulOn {M : Type} (calls : PageCalls M) (range : Set Nat) (valid : M → Prop) (pages : M → Set Nat) :
    Prop where
  maps : ∀ page ∈ range, ∀ before, Delivers (fun self => valid self ∧ pages self = before) (calls.allocate_and_map page)
    (fun _ self => valid self ∧ pages self = insert page before) (fun _ self => valid self ∧ pages self = before)
  unmaps : ∀ page ∈ range, ∀ before, Delivers (fun self => valid self ∧ pages self = before)
    (calls.unmap_and_deallocate page) (fun _ self => valid self ∧ pages self = before \ {page})
    (fun _ self => valid self ∧ pages self = before)

section Loops

variable {M : Type} {calls : PageCalls M} {manager : Manager M} {range : Set Nat} {valid : M → Prop}
  {pages : M → Set Nat} {start : Nat} {before : Set Nat}

theorem Manager.Lawful.on (hlawful : manager.Lawful valid pages) (range : Set Nat) :
    manager.LawfulOn range valid pages :=
  ⟨fun page _ => hlawful.maps page, fun page _ => hlawful.unmaps page⟩

/-- Whatever the rollback does, it comes back. -/
theorem PageCalls.roll_back_returns
    (hunmaps : ∀ page, Delivers valid (calls.unmap_and_deallocate page) (fun _ => valid) (fun _ => valid))
    (growth_start count : Nat) :
    Delivers valid (calls.roll_back growth_start count) (fun _ => valid) (fun _ _ => False) := by
  induction count with
  | zero => exact .skip
  | succ count ih =>
    apply (hunmaps _).attempt.bind
    intro result
    cases result with
    | ok _ => exact ih
    | error _ => exact ih.bind fun _ => .skip

/-- A rollback only takes off pages that it is for, and without a failure it takes off all of them. -/
theorem PageCalls.LawfulOn.roll_back_spec {count : Nat} (hlawful : calls.LawfulOn range valid pages)
    (hrange : Set.Ico start (start + count) ⊆ range)
    (hapart : ∀ page ∈ before, ¬ (start ≤ page ∧ page < start + count)) :
    Delivers (fun self => valid self ∧ pages self = before ∪ Set.Ico start (start + count))
      (calls.roll_back (start * PAGE_SIZE) count)
      (fun failed self => valid self ∧ before ⊆ pages self ∧ pages self ⊆ before ∪ Set.Ico start (start + count) ∧
        (failed = false → pages self = before)) (fun _ _ => False) := by
  induction count generalizing before with
  | zero =>
    refine Ends.pure.pre fun self hself => ?_
    rw [hself.2, Nat.add_zero, Set.Ico_self, Set.union_empty]
    exact ⟨hself.1, subset_rfl, subset_rfl, fun _ => rfl⟩
  | succ count ih =>
    have hless : Set.Ico start (start + count) ⊆ Set.Ico start (start + (count + 1)) :=
      Set.Ico_subset_Ico_right (by omega)
    have hlast : start + count ∈ Set.Ico start (start + (count + 1)) := ⟨by omega, by omega⟩
    rw [roll_back, growth_page_eq]
    apply (hlawful.unmaps _ (hrange hlast) _).attempt.bind
    intro result
    cases result with
    | ok _ =>
      have hrest := ih (hless.trans hrange) fun page hpage hinside => hapart page hpage ⟨hinside.1, by omega⟩
      refine hrest.mono (fun self hself => ⟨hself.1, ?_⟩) (fun failed self hself => ?_) fun _ _ hnever => hnever
      · rw [hself.2]
        ext page
        have hpage := hapart page
        simp only [Set.mem_sdiff, Set.mem_union, Set.mem_Ico, Set.mem_singleton_iff]
        grind
      · exact ⟨hself.1, hself.2.1, hself.2.2.1.trans (Set.union_subset_union_right _ hless), hself.2.2.2⟩
    | error _ =>
      -- The page stays, and the rollback goes on below it.
      have hstays : ∀ page ∈ insert (start + count) before, ¬ (start ≤ page ∧ page < start + count) := by
        rintro page (rfl | hpage) hinside
        · omega
        · exact hapart page hpage ⟨hinside.1, by omega⟩
      have hrest := (ih (hless.trans hrange) hstays).pre (R := fun self =>
          valid self ∧ pages self = before ∪ Set.Ico start (start + (count + 1))) fun self hself => by
        refine ⟨hself.1, hself.2.trans ?_⟩
        ext page
        simp only [Set.mem_union, Set.mem_insert_iff, Set.mem_Ico]
        grind
      refine hrest.bind fun _ => Ends.pure.pre fun self hself => ?_
      refine ⟨hself.1, (Set.subset_insert _ _).trans hself.2.1, hself.2.2.1.trans ?_, nofun⟩
      exact Set.union_subset (Set.insert_subset (.inr hlast) Set.subset_union_left)
        (hless.trans Set.subset_union_right)

/-- Whether a growth that failed was rolled back is told by its error. -/
def PageCalls.Reports (calls : PageCalls M) (error : HeapError) (self : M) : Prop :=
  match error with
  | .RollbackFailed => ∃ growth_start count failed, calls.roll_back growth_start count failed = (.ok true, self)
  | .Mapping _ => ∃ growth_start count failed, calls.roll_back growth_start count failed = (.ok false, self)
  | _ => True

/-- The loop of `grow` maps the next pages, or none, or its rollback fails and leaves some of them. -/
theorem PageCalls.LawfulOn.map_growth_spec (hlawful : calls.LawfulOn range valid pages) (remaining mapped : Nat)
    (hrange : Set.Ico start (start + (mapped + remaining)) ⊆ range)
    (hapart : ∀ page ∈ before, ¬ (start ≤ page ∧ page < start + (mapped + remaining))) :
    Delivers (fun self => valid self ∧ pages self = before ∪ Set.Ico start (start + mapped))
      (calls.map_growth (start * PAGE_SIZE) remaining mapped)
      (fun _ self => valid self ∧ pages self = before ∪ Set.Ico start (start + (mapped + remaining)))
      (fun error self => valid self ∧ calls.Reports error self ∧ before ⊆ pages self ∧
        pages self ⊆ before ∪ Set.Ico start (start + (mapped + remaining)) ∧
        (error ≠ .RollbackFailed → pages self = before)) := by
  induction remaining generalizing mapped with
  | zero => exact .skip
  | succ remaining ih =>
    rw [map_growth, growth_page_eq]
    apply (hlawful.maps _ (hrange ⟨by omega, by omega⟩) _).attempt.bind
    intro result
    cases result with
    | ok _ =>
      have hsum : mapped + 1 + remaining = mapped + (remaining + 1) := by omega
      refine (hsum ▸ ih (mapped + 1) (hsum ▸ hrange) (hsum ▸ hapart)).pre fun self hself => ⟨hself.1, ?_⟩
      rw [hself.2]
      ext page
      simp only [Set.mem_insert_iff, Set.mem_union, Set.mem_Ico]
      grind
    | error error =>
      apply Ends.at_state
      intro stuck hstuck
      have hless : Set.Ico start (start + mapped) ⊆ Set.Ico start (start + (mapped + (remaining + 1))) :=
        Set.Ico_subset_Ico_right (by omega)
      have hbelow : ∀ page ∈ before, ¬ (start ≤ page ∧ page < start + mapped) := fun page hpage hinside =>
        hapart page hpage ⟨hinside.1, by omega⟩
      have hroll := (hlawful.roll_back_spec (hless.trans hrange) hbelow).pre (R := (· = stuck)) (by
        rintro _ rfl
        exact hstuck)
      apply (hroll.traced.mono (fun _ hself => hself) (fun _ _ hself => hself) fun _ _ hnever => hnever.elim).bind
      intro failed
      have hinside := Set.union_subset_union_right before hless
      cases failed with
      | true =>
        exact Ends.throw.pre fun self hself => ⟨hself.2.1, ⟨_, _, stuck, hself.1⟩, hself.2.2.1,
          hself.2.2.2.1.trans hinside, fun hother => absurd rfl hother⟩
      | false =>
        exact Ends.throw.pre fun self hself => ⟨hself.2.1, ⟨_, _, stuck, hself.1⟩, hself.2.2.1,
          hself.2.2.2.1.trans hinside, fun _ => hself.2.2.2.2 rfl⟩

end Loops

/-- The closure of `grow` refuses without a change, or goes on to map pages behind the heap. -/
theorem Manager.extend_mapping_cases {M : Type} (manager : Manager M) (state : HeapState) (target_total_pages : Nat)
    {self : M} {frames : Nat} (hframes : manager.available_frame_count self = .ok frames) :
    (∃ error, (error = .NoVirtualRange ∨ error = .InsufficientPhysicalMemory) ∧
      manager.extend_mapping state target_total_pages self = (.err error, self)) ∨
    ∃ base count, state.start.or (manager.first_unused_low_half_page self) = some base ∧ 0 < count ∧
      state.mapped_pages + count ≤ PML4_SLOT_PAGES ∧
      manager.extend_mapping state target_total_pages self =
        (do manager.map_growth (base + state.mapped_pages * PAGE_SIZE) count 0
            return (base + state.mapped_pages * PAGE_SIZE, count) : Prog M HeapError (Nat × Nat)) self := by
  cases hbase : state.start.or (manager.first_unused_low_half_page self) with
  | none => exact .inl ⟨_, .inl rfl, by simp [extend_mapping, hbase]⟩
  | some base =>
    cases havailable : available_pages_in_slot base state.mapped_pages with
    | none => exact .inl ⟨_, .inl rfl, by simp [extend_mapping, hbase, havailable]⟩
    | some available_pages =>
      generalize hcount : growth_chunk_pages target_total_pages state.mapped_pages available_pages = count
      by_cases hzero : count = 0
      · exact .inl ⟨_, .inl rfl, by simp [extend_mapping, hbase, havailable, hcount, hzero]⟩
      cases hstart : checked_growth_start base state.mapped_pages count with
      | none => exact .inl ⟨_, .inl rfl, by simp [extend_mapping, hbase, havailable, hcount, hzero, hstart]⟩
      | some growth_start =>
        cases hrequired : required_frames_for_growth state.mapped_pages count with
        | none => exact .inl ⟨_, .inr rfl, by simp [extend_mapping, hbase, havailable, hcount, hzero, hstart, hrequired]⟩
        | some required_frames =>
          by_cases hshort : frames < required_frames
          · exact .inl ⟨_, .inr rfl, by
              simp [extend_mapping, hbase, havailable, hcount, hzero, hstart, hrequired, hframes, hshort]⟩
          have hfits : state.mapped_pages + count ≤ PML4_SLOT_PAGES := by
            rw [← available_pages_in_slot_some havailable, ← hcount]
            exact Nat.add_le_add_left (Nat.min_le_right _ _) _
          rw [checked_growth_start_some hstart] at hstart
          refine .inr ⟨base, count, rfl, Nat.pos_of_ne_zero hzero, hfits, ?_⟩
          simp only [extend_mapping, hbase, havailable, hcount, hzero, hstart, hrequired, hframes, hshort, bind_apply,
            get_apply, okOr_some, lift_apply, if_false]

/-- The heap lies in one slot of the lower half that is neither the first nor the user's. Unless it
is poisoned, exactly the pages that it records are mapped there. -/
structure Extent (state : HeapState) (mapped : Set Nat) : Prop where
  bound : state.mapped_pages ≤ PML4_SLOT_PAGES
  fresh : state.start = none → state.mapped_pages = 0
  slot : ∀ start, state.start = some start → ∃ slot, 1 ≤ slot ∧ slot ≤ 254 ∧ start = slot * PML4_SLOT_SIZE ∧
    (state.poisoned = false → ∀ page : Nat, p4_index page = slot →
      (page ∈ mapped ↔ start ≤ page * PAGE_SIZE ∧ page * PAGE_SIZE < start + state.mapped_pages * PAGE_SIZE))

/-- What a growth of `count` pages from `growth_start` on means: it maps exactly the pages directly
behind the heap. -/
structure Grows (state : HeapState) (before : Set Nat) (growth_start count : Nat) (after : Set Nat) : Prop where
  positive : 0 < count
  bound : state.mapped_pages + count ≤ PML4_SLOT_PAGES
  aligned : growth_start % PAGE_SIZE = 0
  behind : ∀ start, state.start = some start → growth_start = start + state.mapped_pages * PAGE_SIZE
  first : state.start = none → ∃ slot, 1 ≤ slot ∧ slot ≤ 254 ∧ growth_start = slot * PML4_SLOT_SIZE ∧
    ∀ page ∈ before, p4_index page ≠ slot
  pages : after = before ∪ Set.Ico (growth_start / PAGE_SIZE) (growth_start / PAGE_SIZE + count)

section Growth

variable {M : Type} {manager : Manager M} {valid : M → Prop} {pages : M → Set Nat} {before : Set Nat}
  {state : HeapState}

theorem p4_index_of_slot {slot page : Nat} (hge : slot * PML4_SLOT_PAGES ≤ page)
    (hlt : page < slot * PML4_SLOT_PAGES + PML4_SLOT_PAGES) : p4_index page = slot := by
  have hsize : PML4_SLOT_PAGES = 134217728 := by decide
  rw [hsize] at hge hlt
  rw [p4_index]
  omega

/-- The slot that a growth goes to, and what is mapped there. -/
theorem Extent.base (hextent : Extent state before) (hlawful : manager.Lawful valid pages) {self : M}
    (hvalid : valid self) (hpages : pages self = before) (hfine : state.poisoned = false) {base : Nat}
    (hbase : state.start.or (manager.first_unused_low_half_page self) = some base) :
    ∃ slot, 1 ≤ slot ∧ slot ≤ 254 ∧ base = slot * PML4_SLOT_SIZE ∧
      (state.start = none → ∀ page ∈ before, p4_index page ≠ slot) ∧
      ∀ page ∈ before, p4_index page = slot → page * PAGE_SIZE < base + state.mapped_pages * PAGE_SIZE := by
  cases hstart : state.start with
  | none =>
    rw [hstart, Option.none_or] at hbase
    obtain ⟨slot, hlow, hhigh, rfl, hunused⟩ := hlawful.unused self base hvalid hbase
    rw [hpages] at hunused
    exact ⟨slot, hlow, hhigh, rfl, fun _ => hunused, fun page hpage hslot => absurd hslot (hunused page hpage)⟩
  | some start =>
    rw [hstart, Option.some_or] at hbase
    obtain rfl := Option.some.inj hbase
    obtain ⟨slot, hlow, hhigh, rfl, hexact⟩ := hextent.slot start hstart
    exact ⟨slot, hlow, hhigh, rfl, nofun, fun page hpage hslot => ((hexact hfine page hslot).mp hpage).2⟩

/-- The closure of `grow` maps the next pages, or none, or its rollback fails. -/
theorem Manager.Lawful.extend_mapping_spec (hlawful : manager.Lawful valid pages) (hextent : Extent state before)
    (hfine : state.poisoned = false) (target_total_pages : Nat) :
    Delivers (fun self => valid self ∧ pages self = before) (manager.extend_mapping state target_total_pages)
      (fun growth self => valid self ∧ Grows state before growth.1 growth.2 (pages self))
      (fun error self => valid self ∧ manager.Reports error self ∧ (error ≠ .RollbackFailed → pages self = before)) := by
  constructor
  rintro self ⟨hvalid, hpages⟩
  obtain ⟨frames, hframes⟩ := hlawful.counts self hvalid
  obtain ⟨error, herror, hcall⟩ | ⟨base, count, hbase, hpositive, hfits, hcall⟩ :=
    manager.extend_mapping_cases state target_total_pages hframes
  · rw [hcall]
    obtain rfl | rfl := herror
    all_goals exact ⟨hvalid, trivial, fun _ => hpages⟩
  obtain ⟨slot, hlow, hhigh, rfl, hunused, hbelow⟩ := hextent.base hlawful hvalid hpages hfine hbase
  have hsize : PML4_SLOT_SIZE = PML4_SLOT_PAGES * PAGE_SIZE := by decide
  have hgrowth : slot * PML4_SLOT_SIZE + state.mapped_pages * PAGE_SIZE =
      (slot * PML4_SLOT_PAGES + state.mapped_pages) * PAGE_SIZE := by
    rw [hsize, Nat.add_mul, Nat.mul_assoc]
  have hapart : ∀ page ∈ before, ¬ (slot * PML4_SLOT_PAGES + state.mapped_pages ≤ page ∧
      page < slot * PML4_SLOT_PAGES + state.mapped_pages + (0 + count)) := by
    rintro page hmem ⟨hge, hlt⟩
    have hindex : p4_index page = slot := p4_index_of_slot (by omega) (by omega)
    have hsmall := hbelow page hmem hindex
    rw [hgrowth] at hsmall
    exact absurd (Nat.lt_of_mul_lt_mul_right hsmall) (Nat.not_lt.mpr hge)
  have hloop := (hlawful.on Set.univ).map_growth_spec count 0 (Set.subset_univ _) hapart
  rw [← hgrowth] at hloop
  rw [hcall]
  refine (hloop.mono (fun _ hstart => hstart) (fun _ _ hafter => hafter) fun _ _ hafter =>
    ⟨hafter.1, hafter.2.1, hafter.2.2.2.2⟩).bind (fun _ => Ends.pure.pre fun after hafter => ?_) |>.ends self
    ⟨hvalid, by rw [hpages, Nat.add_zero, Set.Ico_self, Set.union_empty]⟩
  refine ⟨hafter.1, hpositive, hfits, by rw [hgrowth, Nat.mul_mod_left], fun start hsome => ?_, fun hnone => ?_, ?_⟩
  · rw [hsome, Option.some_or] at hbase
    rw [Option.some.inj hbase]
  · refine ⟨slot, hlow, hhigh, ?_, hunused hnone⟩
    rw [hextent.fresh hnone, Nat.zero_mul, Nat.add_zero]
  · rw [hgrowth, Nat.mul_div_cancel _ (by decide), hafter.2, Nat.zero_add]

end Growth

/-- The heap after a growth. -/
theorem Grows.extent {state : HeapState} {before after : Set Nat} {growth_start count : Nat}
    (hgrows : Grows state before growth_start count after) (hextent : Extent state before)
    (hfine : state.poisoned = false) :
    Extent { state with
      start := some (state.start.getD growth_start)
      mapped_pages := state.mapped_pages + count } after := by
  have hsize : PML4_SLOT_SIZE = PML4_SLOT_PAGES * PAGE_SIZE := by decide
  have hfits := hgrows.bound
  have hpositive : 0 < PAGE_SIZE := by decide
  refine ⟨hfits, nofun, fun start hstart => ?_⟩
  -- In either case the growth follows the pages that were mapped in the slot.
  have hplace : ∃ slot, 1 ≤ slot ∧ slot ≤ 254 ∧ start = slot * PML4_SLOT_SIZE ∧
      growth_start = (slot * PML4_SLOT_PAGES + state.mapped_pages) * PAGE_SIZE ∧
      ∀ page : Nat, p4_index page = slot →
        (page ∈ before ↔ start ≤ page * PAGE_SIZE ∧ page * PAGE_SIZE < start + state.mapped_pages * PAGE_SIZE) := by
    cases hbefore : state.start with
    | none =>
      obtain ⟨slot, hlow, hhigh, hgrowth, hunused⟩ := hgrows.first hbefore
      obtain rfl : growth_start = start := by simpa [hbefore] using hstart
      rw [hextent.fresh hbefore]
      refine ⟨slot, hlow, hhigh, hgrowth, by rw [hgrowth, hsize, Nat.add_zero, Nat.mul_assoc], fun page hslot => ?_⟩
      exact ⟨fun hpage => absurd hslot (hunused page hpage), fun hrange => by omega⟩
    | some found =>
      obtain rfl : found = start := by simpa [hbefore] using hstart
      obtain ⟨slot, hlow, hhigh, rfl, hexact⟩ := hextent.slot found hbefore
      refine ⟨slot, hlow, hhigh, rfl, ?_, hexact hfine⟩
      rw [hgrows.behind _ hbefore, hsize, Nat.add_mul, Nat.mul_assoc]
  obtain ⟨slot, hlow, hhigh, rfl, hgrowth, hexact⟩ := hplace
  refine ⟨slot, hlow, hhigh, rfl, fun _ page hslot => ?_⟩
  have hpage : growth_start / PAGE_SIZE = slot * PML4_SLOT_PAGES + state.mapped_pages := by
    rw [hgrowth, Nat.mul_div_cancel _ hpositive]
  have hmul : ∀ {left right : Nat}, left * PAGE_SIZE < right * PAGE_SIZE ↔ left < right := fun {_ _} =>
    Nat.mul_lt_mul_right hpositive
  have hmul_le : ∀ {left right : Nat}, left * PAGE_SIZE ≤ right * PAGE_SIZE ↔ left ≤ right := fun {_ _} =>
    Nat.mul_le_mul_right_iff hpositive
  show page ∈ after ↔ slot * PML4_SLOT_SIZE ≤ page * PAGE_SIZE ∧
    page * PAGE_SIZE < slot * PML4_SLOT_SIZE + (state.mapped_pages + count) * PAGE_SIZE
  rw [hgrows.pages, Set.mem_union, hexact page hslot, Set.mem_Ico, hpage, hsize, ← Nat.mul_assoc, ← Nat.add_mul,
    ← Nat.add_mul, hmul, hmul, hmul_le]
  omega

namespace KernelAllocator

section Machine

variable {H M : Type} {manager : Manager M} {methods : HeapMethods H} {valid : M → Prop} {pages : M → Set Nat}
  {self after : KernelAllocator H M}

/-- What holds between the calls of the kernel allocator. -/
structure Sound (valid : M → Prop) (pages : M → Set Nat) (allocator : KernelAllocator H M) : Prop where
  valid : valid allocator.manager
  extent : Extent allocator.state (pages allocator.manager)

/-- A growth first maps the pages, and then commits them. -/
def Commits (methods : HeapMethods H) (valid : M → Prop) (pages : M → Set Nat) (self after : KernelAllocator H M) : Prop :=
  ∃ growth_start count mapped, valid mapped ∧
    Grows self.state (pages self.manager) growth_start count (pages mapped) ∧
    after = commit methods growth_start count { self with manager := mapped }

/-- A growth that fails changes nothing but the memory manager, and poisons the heap if it could
not be rolled back. -/
def Refuses (manager : Manager M) (valid : M → Prop) (pages : M → Set Nat) (self : KernelAllocator H M) (error : HeapError)
    (after : KernelAllocator H M) : Prop :=
  ∃ kept, valid kept ∧ manager.Reports error kept ∧ (error ≠ .RollbackFailed → pages kept = pages self.manager) ∧
    after = { self with manager := kept, state.poisoned := decide (error = .RollbackFailed) }

theorem grow_poisoned (hpoisoned : self.state.poisoned = true) (target_total_pages : Nat) :
    grow manager methods target_total_pages self = (.err .RollbackFailed, self) := by
  simp [grow, hpoisoned]

theorem alloc_poisoned (hpoisoned : self.state.poisoned = true) (layout : Layout) :
    alloc manager methods layout self = (.ok none, self) := by
  simp [alloc, hpoisoned]

theorem Commits.sound (hcommits : self.Commits methods valid pages after)
    (hsound : self.Sound valid pages) (hfine : self.state.poisoned = false) : after.Sound valid pages := by
  obtain ⟨growth_start, count, mapped, hvalid, hgrows, rfl⟩ := hcommits
  exact ⟨hvalid, hgrows.extent hsound.extent hfine⟩

theorem Commits.strict (hcommits : self.Commits methods valid pages after) :
    self.state.mapped_pages < after.state.mapped_pages := by
  obtain ⟨growth_start, count, mapped, _, hgrows, rfl⟩ := hcommits
  exact Nat.lt_add_of_pos_right hgrows.positive

theorem Refuses.sound {error : HeapError} (hrefuses : self.Refuses manager valid pages error after)
    (hsound : self.Sound valid pages) (hfine : self.state.poisoned = false) : after.Sound valid pages := by
  obtain ⟨kept, hvalid, _, hpages, rfl⟩ := hrefuses
  refine ⟨hvalid, hsound.extent.bound, hsound.extent.fresh, fun start hstart => ?_⟩
  obtain ⟨slot, hlow, hhigh, rfl, hexact⟩ := hsound.extent.slot start hstart
  refine ⟨slot, hlow, hhigh, rfl, fun hkept page hslot => ?_⟩
  rw [hpages (of_decide_eq_false hkept)]
  exact hexact hfine page hslot

/-- So many more pages would not fit into the slot. -/
def Roomy (valid : M → Prop) (pages : M → Set Nat) (turns : Nat) (self : KernelAllocator H M) : Prop :=
  Sound valid pages self ∧ PML4_SLOT_PAGES < self.state.mapped_pages + turns

section Requests

variable (methods)

theorem allocate_first_fit_spec (layout : Layout) (turns : Nat) :
    Delivers (Roomy valid pages turns) (allocate_first_fit methods layout) (fun _ => Roomy valid pages turns)
      (fun _ _ => False) := by
  constructor
  rintro self ⟨hsound, hturns⟩
  exact ⟨⟨hsound.valid, hsound.extent⟩, hturns⟩

variable (hlawful : manager.Lawful valid pages)
include hlawful

theorem grow_spec (hsound : self.Sound valid pages)
    (hfine : self.state.poisoned = false) (target_total_pages : Nat) :
    Delivers (· = self) (grow manager methods target_total_pages) (fun _ after => self.Commits methods valid pages after)
      (fun error after => self.Refuses manager valid pages error after) := by
  apply Ends.get_bind
  intro state hstate
  obtain rfl : self = state := hstate.symm
  rw [if_neg (by rw [hfine]; exact Bool.false_ne_true)]
  have hextend := ((hlawful.extend_mapping_spec hsound.extent hfine target_total_pages).pre (R := (· = self.manager)) (by
    rintro _ rfl
    exact ⟨hsound.valid, rfl⟩))
  have hzoomed : Delivers (· = self) (on_manager (manager.extend_mapping self.state target_total_pages))
      (fun growth after => ∃ part, after = { self with manager := part } ∧ valid part ∧
        Grows self.state (pages self.manager) growth.1 growth.2 (pages part))
      (fun error after => ∃ part, after = { self with manager := part } ∧ valid part ∧ manager.Reports error part ∧
        (error ≠ .RollbackFailed → pages part = pages self.manager)) := hextend.zoom
  apply hzoomed.attempt.bind
  intro result
  cases result with
  | ok growth =>
    refine Ends.modify.pre fun after hafter => ?_
    obtain ⟨mapped, rfl, hvalid, hgrows⟩ := hafter
    exact ⟨growth.1, growth.2, mapped, hvalid, hgrows, rfl⟩
  | error error =>
    by_cases hfailed : error = .RollbackFailed
    · subst hfailed
      refine Ends.bind (Ends.modify.pre ?_) fun _ => Ends.throw.pre fun _ hafter => hafter
      rintro _ ⟨kept, rfl, hvalid, hreports, hpages⟩
      exact ⟨kept, hvalid, hreports, hpages, rfl⟩
    · cases error with
      | RollbackFailed => exact absurd rfl hfailed
      | _ =>
        refine Ends.throw.pre ?_
        rintro _ ⟨kept, rfl, hvalid, hreports, hpages⟩
        exact ⟨kept, hvalid, hreports, hpages, by rw [decide_eq_false hfailed, ← hfine]⟩

/-- Any growth leaves the allocator sound, and one that succeeds with more pages. -/
theorem grow_sound (target_total_pages least : Nat) :
    Delivers (fun self => Sound valid pages self ∧ least ≤ self.state.mapped_pages)
      (grow manager methods target_total_pages) (fun _ self => Sound valid pages self ∧ least < self.state.mapped_pages)
      (fun _ => Sound valid pages) := by
  apply Ends.at_state
  rintro self ⟨hsound, hleast⟩
  cases hpoisoned : self.state.poisoned with
  | true =>
    constructor
    rintro _ rfl
    rw [grow_poisoned hpoisoned]
    exact hsound
  | false =>
    refine (grow_spec methods hlawful hsound hpoisoned target_total_pages).mono (fun _ hself => hself) ?_ ?_
    · exact fun _ _ hcommits => ⟨hcommits.sound hsound hpoisoned, Nat.lt_of_le_of_lt hleast hcommits.strict⟩
    · exact fun _ _ hrefuses => hrefuses.sound hsound hpoisoned

theorem initialize_heap_sound : Delivers (Sound valid pages) (initialize_heap manager methods) (fun _ => Sound valid pages)
      (fun _ => Sound valid pages) := by
  apply Ends.get_bind
  intro self hsound
  have hkept : ∀ state, state = self → Sound valid pages state := by
    rintro _ rfl
    exact hsound
  split
  · exact Ends.throw.pre hkept
  split
  · exact Ends.throw.pre hkept
  apply ((grow_sound methods hlawful HEAP_GROWTH_PAGES 0).pre fun _ hstate => ⟨hkept _ hstate, Nat.zero_le _⟩).bind
  intro _
  exact Ends.modify.pre fun after ⟨hafter, _⟩ => ⟨hafter.valid, { hafter.extent with }⟩

/-- The loop of `alloc` ends: every growth adds a page, and the slot has room for so many. -/
theorem retry_returns (layout : Layout)
    (target_total_pages : Nat) (target_requires_growth : Bool) (turns : Nat) :
    Delivers (Roomy valid pages turns)
      (retry manager methods layout target_total_pages target_requires_growth turns) (fun _ => Sound valid pages)
      (fun _ _ => False) := by
  induction turns with
  | zero =>
    constructor
    rintro self ⟨hsound, hturns⟩
    exact absurd hturns (Nat.not_lt.mpr hsound.extent.bound)
  | succ turns ih =>
    have hgrow : Delivers (Roomy valid pages (turns + 1))
        (grow manager methods target_total_pages) (fun _ => Roomy valid pages turns) (fun _ => Sound valid pages) := by
      refine (grow_sound methods hlawful target_total_pages (PML4_SLOT_PAGES - turns)).mono ?_ ?_ fun _ _ hafter => hafter
      · exact fun _ ⟨hsound, hturns⟩ => ⟨hsound, by omega⟩
      · exact fun _ _ hafter => ⟨hafter.1, by omega⟩
    apply hgrow.attempt.bind
    intro result
    cases result with
    | error _ => exact .skip
    | ok _ =>
      apply (allocate_first_fit_spec methods layout turns).bind
      intro allocation
      cases allocation with
      | some _ => exact Ends.pure.pre fun _ hafter => hafter.1
      | none =>
        apply Ends.get_bind
        intro self hself
        have hkept : ∀ state, state = self →
            Sound valid pages state ∧ PML4_SLOT_PAGES < state.state.mapped_pages + turns := by
          rintro _ rfl
          exact hself
        split
        · exact Ends.pure.pre fun after hafter => (hkept after hafter).1
        · exact ih.pre hkept

theorem alloc_returns (layout : Layout) :
    Delivers (Sound valid pages) (alloc manager methods layout) (fun _ => Sound valid pages) (fun _ _ => False) := by
  apply Ends.get_bind
  intro self hsound
  have hkept : ∀ state, state = self → Sound valid pages state := by
    rintro _ rfl
    exact hsound
  split
  · exact Ends.pure.pre hkept
  have hroomy : ∀ state, state = self → Roomy valid pages (PML4_SLOT_PAGES + 1) state := by
    rintro _ rfl
    exact ⟨hsound, by omega⟩
  apply ((allocate_first_fit_spec methods layout _).pre hroomy).bind
  intro allocation
  cases allocation with
  | some _ => exact Ends.pure.pre fun _ hafter => hafter.1
  | none =>
    dsimp only
    have hloop := fun target_total_pages target_requires_growth =>
      retry_returns methods hlawful layout target_total_pages target_requires_growth (PML4_SLOT_PAGES + 1)
    obtain ⟨frames, hframes⟩ := hlawful.counts self.manager hsound.valid
    split
    · exact Ends.pure.pre fun _ hafter => hafter.1
    split
    · exact Ends.pure.pre fun _ hafter => hafter.1
    split
    · exact hloop _ _
    split
    · exact Ends.pure.pre fun _ hafter => hafter.1
    rw [hframes]
    dsimp only
    split
    · exact Ends.pure.pre fun _ hafter => hafter.1
    · exact hloop _ _

end Requests

variable (manager methods valid pages) in
/-- Requests to the kernel allocator from its creation on. In between, the rest of the kernel frees
memory and uses the memory manager, but it does not map or unmap pages in the heap's slot. -/
inductive Reached : KernelAllocator H M → Prop
  | start (free_list : H) (memory : M) (hvalid : valid memory) : Reached ⟨free_list, .new, memory⟩
  | initialized {self after : KernelAllocator H M} {outcome : Outcome HeapError Unit}
      (hreached : Reached self) (hcall : initialize_heap manager methods self = (outcome, after)) : Reached after
  | requested {self after : KernelAllocator H M} {outcome : Outcome Empty (Option Nat)} (layout : Layout)
      (hreached : Reached self) (hcall : alloc manager methods layout self = (outcome, after)) : Reached after
  | elsewhere {self : KernelAllocator H M} (hreached : Reached self) (free_list : H) (memory : M)
      (hvalid : valid memory) (haside : ∀ start, self.state.start = some start → ∀ page : Nat,
        p4_index page * PML4_SLOT_SIZE = start → (page ∈ pages memory ↔ page ∈ pages self.manager)) :
      Reached { self with free_list, manager := memory }

theorem Reached.sound (hreached : Reached manager methods valid pages self) (hlawful : manager.Lawful valid pages) :
    self.Sound valid pages := by
  induction hreached with
  | start free_list memory hvalid => exact ⟨hvalid, Nat.zero_le _, fun _ => rfl, nofun⟩
  | initialized _ hcall ih =>
    have hends := (initialize_heap_sound methods hlawful).run ih
    obtain ⟨_, _, hrun, hsound⟩ | ⟨_, _, hrun, hsound⟩ := hends
    all_goals
      obtain ⟨_, rfl⟩ := Prod.mk.inj (hrun.symm.trans hcall)
      exact hsound
  | requested layout _ hcall ih =>
    obtain ⟨_, _, hrun, hsound⟩ | ⟨_, _, _, hnever⟩ := (alloc_returns methods hlawful layout).run ih
    · obtain ⟨_, rfl⟩ := Prod.mk.inj (hrun.symm.trans hcall)
      exact hsound
    · exact hnever.elim
  | elsewhere _ free_list memory hvalid haside ih =>
    refine ⟨hvalid, ih.extent.bound, ih.extent.fresh, fun start hstart => ?_⟩
    obtain ⟨slot, hlow, hhigh, rfl, hexact⟩ := ih.extent.slot start hstart
    refine ⟨slot, hlow, hhigh, rfl, fun hfine page hslot => ?_⟩
    rw [haside _ hstart page (by rw [hslot])]
    exact hexact hfine page hslot

end Machine

end KernelAllocator

end leafos.memory.heap
