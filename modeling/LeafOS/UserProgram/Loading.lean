import LeafOS.Memory.Destroy
import LeafOS.Memory.System
import LeafOS.UserProgram

namespace leafos.memory.AddressSpace

open Prog MemoryManager

/-- The loop of `destroy` keeps the root and lists no new page. -/
theorem unmap_all_keeps (root : PhysFrame) (pages : List (Page × UserPageAccess)) (space : AddressSpace)
    (manager : MemoryManager) :
    let after := (unmap_all root pages (space, manager)).2.1
    after.root = space.root ∧ after.user_pages <+: space.user_pages := by
  induction pages generalizing space manager with
  | nil => exact ⟨rfl, List.prefix_rfl⟩
  | cons mapped rest ih =>
    simp only [unmap_all, bind_apply, with_manager_apply]
    rcases MemoryManager.unmap_page root mapped.1 manager with ⟨_ | error | _, after⟩
    · obtain ⟨hroot, hlisted⟩ := ih { space with user_pages := space.user_pages.dropLast } after
      exact ⟨hroot, hlisted.trans (List.dropLast_prefix _)⟩
    · exact ⟨rfl, List.prefix_rfl⟩
    · exact ⟨rfl, List.prefix_rfl⟩

/-- `destroy` lists no new page, and keeps the root unless it succeeds. -/
theorem destroy_keeps (active : PhysFrame) (space : AddressSpace) (manager : MemoryManager) :
    let result := destroy active (space, manager)
    (result.1 ≠ .ok () → result.2.1.root = space.root) ∧ result.2.1.user_pages <+: space.user_pages := by
  simp only [destroy, bind_apply, get_apply]
  cases hroot : space.root with
  | none => exact ⟨fun _ => hroot, List.prefix_rfl⟩
  | some root =>
    simp only [okOr_some]
    split
    · exact ⟨fun _ => hroot, List.prefix_rfl⟩
    · have hkeeps := unmap_all_keeps root space.user_pages.reverse space manager
      rw [hroot] at hkeeps
      simp only [bind_apply]
      generalize unmap_all root space.user_pages.reverse (space, manager) = result at hkeeps
      rcases result with ⟨_ | error | _, space', manager'⟩
      · simp only [with_manager_apply]
        rcases MemoryManager.deallocate_frame root manager' with ⟨_ | error | _, after⟩
        · exact ⟨fun hne => absurd rfl hne, hkeeps.2⟩
        all_goals exact ⟨fun _ => hkeeps.1, hkeeps.2⟩
      all_goals exact ⟨fun _ => hkeeps.1, hkeeps.2⟩

end leafos.memory.AddressSpace

namespace leafos.user_program

open leafos.memory AddressSpace Prog

/-- The 2 MiB region of the user slot that holds a loaded program. -/
def PROGRAM_BLOCK : Nat := USER_SPACE_START / PAGE_SIZE / 512

section Filling

variable {boot : BootInfoFrameAllocator} {root : PhysFrame} {origin manager : MemoryManager} {account : List PhysFrame}
  {space : AddressSpace} {pool : FramePool} {code data : List UInt8}
  {bss_len entry_offset code_page_count data_page_count data_start : Nat}

/-- What the loader knows of the space that it fills. -/
structure Filling (boot : BootInfoFrameAllocator) (root : PhysFrame) (origin : MemoryManager)
    (account : List PhysFrame) (space : AddressSpace) (manager : MemoryManager) : Prop where
  reached : ∃ pool, Reached boot root origin account space manager pool
  root_eq : space.root = some root
  compact : Compact PROGRAM_BLOCK space.pages

theorem map_pages_filling (hfilling : Filling boot root origin account space manager) (start : Nat)
    (access : UserPageAccess) (reserved : Nat → Bool) (indices : List Nat)
    (hblock : ∀ index ∈ indices, (start + index * PAGE_SIZE) / PAGE_SIZE / 512 = PROGRAM_BLOCK) :
    let after := (map_pages start access reserved indices (space, manager)).2
    Filling boot root origin account after.1 after.2 := by
  induction indices generalizing space manager with
  | nil => exact hfilling
  | cons index rest ih =>
    obtain ⟨pool, hreached⟩ := hfilling.reached
    obtain ⟨outcome, space', manager', pool', hcall, hpanic, hreached', hfailed, hmapped⟩ :=
      map_user_page_reached hreached access (reserved index)
    simp only [map_pages, bind_apply]
    rw [hcall]
    cases outcome with
    | panic => exact absurd rfl hpanic
    | err error =>
      obtain rfl := hfailed error rfl
      exact ⟨⟨pool', hreached'⟩, hfilling.root_eq, hfilling.compact⟩
    | ok frame =>
      obtain ⟨rfl, _⟩ := hmapped frame rfl
      have hcompact : Compact PROGRAM_BLOCK (AddressSpace.pages { space with
          user_pages := space.user_pages ++ [((start + index * PAGE_SIZE) / PAGE_SIZE, access)] }) := by
        simp only [Compact, AddressSpace.pages, List.map_append, List.forall_mem_append]
        exact ⟨hfilling.compact, by simpa using hblock index List.mem_cons_self⟩
      have hrest := ih ⟨⟨pool', hreached'⟩, hfilling.root_eq, hcompact⟩
        fun index hindex => hblock index (List.mem_cons_of_mem _ hindex)
      simp only
      generalize map_pages start access reserved rest _ = result at hrest
      rcases result with ⟨_ | _ | _, after⟩ <;> exact hrest

/-- What `load_segments` has checked of the segments: the entry is in the code, the
pages cover code, data and bss, and they end below the guard page of the stack. -/
structure Accepted (code data : List UInt8) (bss_len entry_offset code_page_count data_page_count data_start : Nat) :
    Prop where
  entry_lt : entry_offset < code.length
  code_pages : code_page_count = (code.length + PAGE_SIZE - 1) / PAGE_SIZE
  data_pages : data_page_count = (data.length + bss_len + PAGE_SIZE - 1) / PAGE_SIZE
  start_eq : data_start = RAW_PROGRAM_BASE + code_page_count * PAGE_SIZE
  end_le : data_start + data_page_count * PAGE_SIZE ≤ USER_STACK_TOP - USER_STACK_SIZE - PAGE_SIZE

theorem segment_layout_ok
    (hlayout : segment_layout code data bss_len entry_offset = .ok (code_page_count, data_page_count, data_start)) :
    Accepted code data bss_len entry_offset code_page_count data_page_count data_start := by
  unfold segment_layout at hlayout
  split at hlayout
  · cases hlayout
  obtain ⟨data_memory_len, hlength, hlayout⟩ := Outcome.bind_eq_ok_iff.mp hlayout
  obtain ⟨memory_size, _, hlayout⟩ := Outcome.bind_eq_ok_iff.mp hlayout
  split at hlayout
  · cases hlayout
  split at hlayout
  · cases hlayout
  rename_i hentry
  obtain ⟨code_mapped_size, hcode, hlayout⟩ := Outcome.bind_eq_ok_iff.mp hlayout
  obtain ⟨start, hstart, hlayout⟩ := Outcome.bind_eq_ok_iff.mp hlayout
  obtain ⟨data_mapped_size, hdata, hlayout⟩ := Outcome.bind_eq_ok_iff.mp hlayout
  obtain ⟨data_end, hend, hlayout⟩ := Outcome.bind_eq_ok_iff.mp hlayout
  split at hlayout
  · cases hlayout
  rename_i hbound
  cases hlayout
  obtain ⟨_, rfl⟩ := checked_add_eq_some.mp (Outcome.okOr_eq_ok_iff.mp hlength)
  obtain ⟨_, rfl⟩ := checked_mul_eq_some.mp (Outcome.okOr_eq_ok_iff.mp hcode)
  obtain ⟨_, rfl⟩ := checked_add_eq_some.mp (Outcome.okOr_eq_ok_iff.mp hstart)
  obtain ⟨_, rfl⟩ := checked_mul_eq_some.mp (Outcome.okOr_eq_ok_iff.mp hdata)
  obtain ⟨_, rfl⟩ := checked_add_eq_some.mp (Outcome.okOr_eq_ok_iff.mp hend)
  exact ⟨Nat.lt_of_not_le hentry, rfl, rfl, rfl, Nat.le_of_not_lt hbound⟩

theorem fill_address_space_filling (argument_data : List UInt8) (argument_vector : Nat) (reserved : Nat → Bool)
    (hlayout : segment_layout code data bss_len entry_offset = .ok (code_page_count, data_page_count, data_start)) :
    Maintains (fun state => Filling boot root origin account state.1 state.2)
      (fill_address_space code data argument_data code_page_count data_page_count data_start
        (USER_STACK_TOP - USER_STACK_SIZE) argument_vector reserved) := by
  obtain ⟨_, _, _, hstart, hend⟩ := segment_layout_ok hlayout
  have hpage : PAGE_SIZE = 4096 := rfl
  have hblock : PROGRAM_BLOCK = 66846720 := rfl
  have hbase : RAW_PROGRAM_BASE = (66846720 * 512 + 1) * 4096 := rfl
  have hstack : USER_STACK_TOP - USER_STACK_SIZE = (66846720 * 512 + 508) * 4096 := rfl
  have hcount : USER_STACK_SIZE / PAGE_SIZE = 4 := rfl
  rw [hpage] at hstart hend
  have hpages : ∀ (start count : Nat) (access : UserPageAccess) (reserved : Nat → Bool),
      (∀ index ∈ List.range count, (start + index * PAGE_SIZE) / PAGE_SIZE / 512 = PROGRAM_BLOCK) →
      Maintains (fun state : AddressSpace × MemoryManager => Filling boot root origin account state.1 state.2)
        (mapErr ProgramError.AddressSpace (map_pages start access reserved (List.range count))) :=
    fun start count access reserved hblock => Maintains.mapErr
      (fun state hstate => map_pages_filling hstate start access reserved (List.range count) hblock) _
  unfold fill_address_space
  refine Maintains.get.bind fun _ => (hpages _ _ _ _ ?_).bind fun code_pages =>
    (hpages _ _ _ _ ?_).bind fun data_pages => (hpages _ _ _ _ ?_).bind fun stack_pages => ?_
  · intro index hindex
    rw [List.mem_range] at hindex
    rw [hpage]
    omega
  · intro index hindex
    rw [List.mem_range] at hindex
    rw [hpage]
    omega
  · intro index hindex
    rw [List.mem_range, hcount] at hindex
    rw [hpage]
    omega
  · exact (Maintains.constant _).bind fun _ => (Maintains.constant _).bind fun _ =>
      (Maintains.constant _).bind fun _ => .pure _

end Filling

section Loading

variable {boot : BootInfoFrameAllocator} {account : List PhysFrame} {spaces : List AddressSpace}
  {manager : MemoryManager} {pool : FramePool}

/-- The books after a load that returned a space, or none: a returned space is live and
compact, and a load that fails may leave something that nobody can destroy any
more. -/
def Books (boot : BootInfoFrameAllocator) (account : List PhysFrame) (spaces : List AddressSpace)
    (loaded : Option AddressSpace) (manager : MemoryManager) : Prop :=
  (∃ pool leaked, (System.mk manager (spaces ++ loaded.toList ++ leaked)).Inv boot pool account) ∧
    ∀ space ∈ loaded, space.root.isSome ∧ Compact PROGRAM_BLOCK space.pages

theorem Books.unchanged (hinv : (System.mk manager spaces).Inv boot pool account) :
    Books boot account spaces none manager :=
  ⟨⟨pool, [], by simpa using hinv⟩, by simp⟩

theorem fill_or_destroy_books {α : Type} {fill : Prog (AddressSpace × MemoryManager) ProgramError α} {root : PhysFrame}
    (hinv : (System.mk manager (spaces ++ [⟨some root, []⟩])).Inv boot pool account) (hnodup : account.Nodup)
    (hfill : ∀ origin account, Maintains (fun state => Filling boot root origin account state.1 state.2) fill)
    (active : PhysFrame) :
    let result := fill_or_destroy active fill ⟨some root, []⟩ manager
    Books boot account spaces (match result.1 with | .ok space => some space | _ => none) result.2 := by
  have hmem : (⟨some root, []⟩ : AddressSpace) ∈ spaces ++ [⟨some root, []⟩] := by simp
  have hstart := hinv.start hmem rfl
  have hfilled := hfill manager _ (⟨some root, []⟩, manager) ⟨⟨pool, hstart⟩, rfl, by simp [Compact, pages]⟩
  unfold fill_or_destroy
  generalize fill (⟨some root, []⟩, manager) = result at hfilled
  obtain ⟨outcome, space, manager'⟩ := result
  obtain ⟨pool', hreached⟩ := hfilled.reached
  have hbooks := hinv.reached hnodup rfl rfl hreached
  cases outcome with
  | ok _ =>
    refine ⟨⟨pool', [], by simpa using hbooks⟩, fun found hfound => ?_⟩
    obtain rfl := Option.some.inj hfound
    exact ⟨Option.isSome_iff_exists.mpr ⟨root, hfilled.root_eq⟩, hfilled.compact⟩
  | panic => exact ⟨⟨pool', [space], by simpa using hbooks⟩, by simp⟩
  | err error =>
    obtain ⟨outcome, space'', manager'', pool'', hcall, _, hdestroyed⟩ := destroy_reached hreached active
    have hbooks := hinv.reached hnodup rfl rfl hdestroyed
    dsimp only
    rw [hcall]
    cases outcome <;> exact ⟨⟨pool'', [space''], by simpa using hbooks⟩, by simp⟩

/-- A load keeps the books of the system, whatever it returns. -/
theorem load_segments_books (hinv : (System.mk manager spaces).Inv boot pool account)
    (hnodup : account.Nodup) (active : PhysFrame) (code data : List UInt8) (bss_len entry_offset : Nat)
    (path : List UInt8) (arguments : List (List UInt8)) (reservations : Reservations) :
    let result := load_segments active code data bss_len entry_offset path arguments reservations manager
    Books boot account spaces
      (match result.1 with | .ok program => some program.address_space | _ => none) result.2 := by
  simp only [load_segments, bind_apply, lift_outcome]
  cases hlayout : segment_layout code data bss_len entry_offset with
  | err error | panic => exact .unchanged hinv
  | ok layout =>
    obtain ⟨code_page_count, data_page_count, data_start⟩ := layout
    cases build_argument_vector path arguments reservations.argument_block with
    | err error | panic => exact .unchanged hinv
    | ok block =>
      cases reservations.page_lists with
      | false => exact .unchanged hinv
      | true =>
        simp only [Bool.not_true, Bool.false_eq_true, if_false, bind_apply, mapErr]
        obtain ⟨error, manager', pool', hcall, hafter, _⟩ | ⟨root, manager', pool', hcall, hafter, _⟩ :=
          hinv.create_address_space hnodup
        · simp only at hcall
          rw [hcall]
          exact .unchanged hafter
        · simp only at hcall
          rw [hcall]
          have hbooks := fill_or_destroy_books hafter hnodup (fun _ _ => fill_address_space_filling block.1
            (USER_STACK_TOP - USER_STACK_ARGUMENT_RESERVE - block.1.length) reservations.user_pages hlayout)
            active
          dsimp only at hbooks ⊢
          generalize fill_or_destroy active _ _ manager' = result at hbooks
          rcases result with ⟨_ | _ | _, final⟩ <;> exact hbooks

end Loading

end leafos.user_program
