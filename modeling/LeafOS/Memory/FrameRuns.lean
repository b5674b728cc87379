import LeafOS.Memory.Frames

namespace leafos.memory

open Outcome

variable {frame : PhysFrame}

/-- A call to the frame allocator. -/
inductive Request where
  | allocate_frame
  | deallocate_frame (frame : PhysFrame)
  | deallocate_table_frame (frame : PhysFrame)
  | reclaim_frame (frame : PhysFrame)
deriving Repr, DecidableEq

/-- The allocator together with what its callers have seen of it. -/
structure Session where
  allocator : BootInfoFrameAllocator
  events : List (Pool.Event PhysFrame)

/-- Why a session ends: a caller returns a frame it does not hold, or the kernel
panics. -/
inductive Stop where
  | contract
  | panic
deriving Repr, DecidableEq

def Session.begin (allocator : BootInfoFrameAllocator) : Session := ⟨allocator, []⟩

def Session.record (self : Session) (allocator : BootInfoFrameAllocator)
    (event : Pool.Event PhysFrame) : Except Stop Session :=
  .ok ⟨allocator, self.events ++ [event]⟩

/-- A caller may return only what it holds. -/
def Session.returning (self : Session) (frame : PhysFrame) (call : Except Stop Session) :
    Except Stop Session :=
  if frame ∈ Pool.held self.events then call else .error .contract

def Request.serve (request : Request) (session : Session) : Except Stop Session :=
  match request with
  | .allocate_frame =>
    match BootInfoFrameAllocator.allocate_frame session.allocator with
    | (.ok (some frame), after) => session.record after (.handed frame)
    | (.ok none, after) => session.record after .exhausted
    | (.err _, _) | (.panic, _) => .error .panic
  | .deallocate_frame frame => session.returning frame <|
    match BootInfoFrameAllocator.deallocate_frame frame session.allocator with
    | (.ok _, after) => session.record after (.returned frame)
    | (.err _, after) => session.record after (.refused frame)
    | (.panic, _) => .error .panic
  | .deallocate_table_frame frame => session.returning frame <|
    match BootInfoFrameAllocator.deallocate_table_frame frame session.allocator with
    | (.ok _, after) => session.record after (.returned frame)
    | (.err _, _) | (.panic, _) => .error .panic
  | .reclaim_frame frame => session.returning frame <|
    match session.allocator.reclaim_frame frame with
    | (true, after) => session.record after (.returned frame)
    | (false, after) => session.record after (.refused frame)

/-- Serve requests in order. -/
def serve_all : List Request → Session → Except Stop Session
  | [], session => .ok session
  | request :: rest, session =>
    match request.serve session with
    | .ok next => serve_all rest next
    | .error stop => .error stop

section Runs

variable {boot : BootInfoFrameAllocator} {start pool : Pool PhysFrame RECLAIMED_FRAME_CAPACITY}
  {session next : Session}

/-- The session is a history of the pool that its allocator implements. -/
structure Session.Tracks (session : Session) (boot : BootInfoFrameAllocator)
    (start pool : Pool PhysFrame RECLAIMED_FRAME_CAPACITY) : Prop where
  trace : Pool.Trace start session.events pool
  refines : session.allocator.Refines boot pool

theorem Session.returning_ok {call : Except Stop Session} (hserve : session.returning frame call = .ok next) :
    frame ∈ Pool.held session.events ∧ call = .ok next := by
  unfold Session.returning at hserve
  split at hserve
  · rename_i hheld
    exact ⟨hheld, hserve⟩
  · cases hserve

variable (htracks : session.Tracks boot start pool)
include htracks

/-- A frame handed back and accepted is on the pool's stack. -/
theorem Session.Tracks.reclaimed (hheld : frame ∈ Pool.held session.events) :
    (∃ after rest, session.allocator.reclaim_frame frame = (true, after) ∧
      (Session.mk after (session.events ++ [.returned frame])).Tracks boot start rest) ∨
    session.allocator.reclaim_frame frame = (false, session.allocator) := by
  obtain ⟨rest, after, hput, hreclaim, hrefines⟩ | ⟨_, hreclaim⟩ :=
    htracks.refines.reclaim_frame frame
  · exact .inl ⟨after, rest, hreclaim, .snoc htracks.trace (.returned hheld hput), hrefines⟩
  · exact .inr hreclaim

theorem Session.Tracks.refused (frame : PhysFrame) :
    (Session.mk session.allocator (session.events ++ [.refused frame])).Tracks boot start pool :=
  ⟨.snoc htracks.trace .refused, htracks.refines⟩

/-- Every served request is a step of the pool. -/
theorem Request.serve_tracks (request : Request) (hserve : request.serve session = .ok next) :
    ∃ rest, next.Tracks boot start rest := by
  cases request with
  | allocate_frame =>
    obtain ⟨frame, rest, after, htake, hallocate, hrefines⟩ | ⟨htake, after, hallocate, hrefines⟩ :=
      htracks.refines.allocate_frame
    · simp only [serve, hallocate, Session.record, Except.ok.injEq] at hserve
      subst next
      exact ⟨rest, .snoc htracks.trace (.handed htake), hrefines⟩
    · simp only [serve, hallocate, Session.record, Except.ok.injEq] at hserve
      subst next
      exact ⟨pool, .snoc htracks.trace (.exhausted htake), hrefines⟩
  | deallocate_frame frame =>
    obtain ⟨hheld, hcall⟩ := Session.returning_ok hserve
    obtain ⟨found, hfound⟩ :=
      BootInfoFrameAllocator.is_allocatable_frame_ok htracks.refines.mapped.in_range frame
    cases found with
    | false =>
      simp only [BootInfoFrameAllocator.deallocate_frame, hfound, Session.record,
        Except.ok.injEq] at hcall
      exact ⟨pool, hcall ▸ htracks.refused frame⟩
    | true =>
      obtain ⟨after, rest, hreclaim, hafter⟩ | hreclaim := htracks.reclaimed hheld
      · simp only [BootInfoFrameAllocator.deallocate_frame, hfound, hreclaim, Session.record,
          Except.ok.injEq] at hcall
        exact ⟨rest, hcall ▸ hafter⟩
      · simp only [BootInfoFrameAllocator.deallocate_frame, hfound, hreclaim, Session.record,
          Except.ok.injEq] at hcall
        exact ⟨pool, hcall ▸ htracks.refused frame⟩
  | deallocate_table_frame frame =>
    obtain ⟨hheld, hcall⟩ := Session.returning_ok hserve
    obtain ⟨after, rest, hreclaim, hafter⟩ | hreclaim := htracks.reclaimed hheld
    · simp only [BootInfoFrameAllocator.deallocate_table_frame, hreclaim, Session.record,
        Except.ok.injEq] at hcall
      exact ⟨rest, hcall ▸ hafter⟩
    · simp [BootInfoFrameAllocator.deallocate_table_frame, hreclaim] at hcall
  | reclaim_frame frame =>
    obtain ⟨hheld, hcall⟩ := Session.returning_ok hserve
    obtain ⟨after, rest, hreclaim, hafter⟩ | hreclaim := htracks.reclaimed hheld
    · simp only [hreclaim, Session.record, Except.ok.injEq] at hcall
      exact ⟨rest, hcall ▸ hafter⟩
    · simp only [hreclaim, Session.record, Except.ok.injEq] at hcall
      exact ⟨pool, hcall ▸ htracks.refused frame⟩

theorem serve_all_tracks (requests : List Request)
    (hserve : serve_all requests session = .ok next) : ∃ rest, next.Tracks boot start rest := by
  induction requests generalizing session pool with
  | nil =>
    obtain rfl := Except.ok.inj hserve
    exact ⟨pool, htracks⟩
  | cons request requests ih =>
    simp only [serve_all] at hserve
    cases hrequest : request.serve session with
    | error stop => simp [hrequest] at hserve
    | ok middle =>
      simp only [hrequest] at hserve
      obtain ⟨rest, hmiddle⟩ := request.serve_tracks htracks hrequest
      exact ih hmiddle hserve

/-- From any point of a run, `allocate_frame` answers and `deallocate_frame` on a
held frame returns. -/
theorem Session.Tracks.responsive :
    (∃ next, Request.allocate_frame.serve session = .ok next) ∧
      ∀ frame ∈ Pool.held session.events, ∃ next,
        (Request.deallocate_frame frame).serve session = .ok next := by
  constructor
  · obtain ⟨frame, rest, after, _, hallocate, _⟩ | ⟨_, after, hallocate, _⟩ :=
      htracks.refines.allocate_frame
    all_goals exact ⟨_, by simp only [Request.serve, hallocate]; rfl⟩
  · intro frame hheld
    obtain ⟨found, hfound⟩ :=
      BootInfoFrameAllocator.is_allocatable_frame_ok htracks.refines.mapped.in_range frame
    simp only [Request.serve, Session.returning, if_pos hheld, BootInfoFrameAllocator.deallocate_frame,
      hfound]
    cases found with
    | false => exact ⟨_, rfl⟩
    | true =>
      obtain ⟨after, _, hreclaim, _⟩ | hreclaim := htracks.reclaimed hheld
      all_goals exact ⟨_, by simp only [hreclaim]; rfl⟩

end Runs

/-- A whole frame of conventional memory, below the limit and apart from every
reserved range. -/
structure BootInfoFrameAllocator.Usable (allocator : BootInfoFrameAllocator) (frame : PhysFrame) :
    Prop where
  aligned : frame % PAGE_SIZE = 0
  conventional : ∃ index < allocator.descriptor_count, ∃ descriptor,
    read_descriptor allocator.memory_map allocator.descriptor_size index = some descriptor ∧
      descriptor.memory_type = EFI_CONVENTIONAL_MEMORY ∧ descriptor.physical_start ≤ frame ∧
      frame + PAGE_SIZE ≤ descriptor.physical_start + descriptor.number_of_pages * PAGE_SIZE
  below : frame + PAGE_SIZE ≤ allocator.physical_limit
  unreserved : ∀ range ∈ allocator.reserved_ranges, frame + PAGE_SIZE ≤ range.start ∨ range.stop ≤ frame

/-- A page-aligned range that does not hold an aligned address does not meet its
page. -/
theorem PhysicalRange.apart {range : PhysicalRange} {frame : Nat} (haligned : frame % PAGE_SIZE = 0)
    (hrange : range.start % PAGE_SIZE = 0 ∧ range.stop % PAGE_SIZE = 0)
    (houtside : range.contains frame = false) : frame + PAGE_SIZE ≤ range.start ∨ range.stop ≤ frame := by
  simp only [PhysicalRange.contains, Bool.and_eq_false_iff, decide_eq_false_iff_not, PAGE_SIZE] at *
  omega

theorem BootInfoFrameAllocator.usable_of_mem {allocator : BootInfoFrameAllocator} (hmapped : allocator.Mapped)
    (hmem : frame ∈ allocator.unvisited) : allocator.Usable frame := by
  obtain ⟨index, first_page, hindex, hframe⟩ := mem_unvisited hmem
  obtain ⟨descriptor, page, hread, htype, hpage, rfl, husable⟩ := mem_frames_from hframe
  obtain ⟨_, hbelow, haligned⟩ := cursor_address hmapped hindex hread hpage
  simp only [usable, Bool.and_eq_true, decide_eq_true_eq, Bool.not_eq_true', List.any_eq_false,
    Bool.not_eq_true] at husable
  refine ⟨haligned, ⟨index, hindex, descriptor, hread, htype, Nat.le_add_right _ _, ?_⟩, hbelow,
    fun range hrange => PhysicalRange.apart haligned (hmapped.reserved_aligned range hrange)
      (husable.2 range hrange)⟩
  have hinside : (page + 1) * PAGE_SIZE ≤ descriptor.number_of_pages * PAGE_SIZE :=
    Nat.mul_le_mul_right _ hpage
  rw [Nat.succ_mul] at hinside
  rw [Nat.add_assoc]
  exact Nat.add_le_add_left hinside _

/-- The loader's root table is not among the frames of the allocator. -/
theorem BootInfoFrameAllocator.new_root_unowned {memory : Nat → UInt8} {boot_info : BootInfo}
    {boot_info_address : UInt64} {physical_limit : Nat} {allocator : BootInfoFrameAllocator}
    (hnew : BootInfoFrameAllocator.new memory boot_info boot_info_address physical_limit = .ok allocator)
    (hmapped : allocator.Mapped) : boot_info.page_table_root.toNat ∉ allocator.unvisited := by
  intro hmem
  obtain ⟨range, hrange, hstart, hstop⟩ := new_root_reserved hnew
  obtain hbefore | hafter := (usable_of_mem hmapped hmem).unreserved range hrange
  · exact Nat.not_le_of_lt (Nat.lt_of_le_of_lt hstart (Nat.lt_add_of_pos_right (by decide))) hbefore
  · exact Nat.not_le_of_lt hstop hafter

/-- Frames are never shared. In every run over an accepted handoff whose callers
return only frames they hold, a frame that is handed out is a usable one that
nobody holds, a returned frame is handed out again before the allocator answers
`None`, and the allocator keeps answering. -/
theorem frames_never_shared (bits : Option UInt8) (memory : Nat → UInt8) (boot_info : BootInfo)
    (boot_info_address : UInt64) (physical_limit : Nat) (allocator : BootInfoFrameAllocator)
    (requests : List Request) (session : Session)
    (hlimit : physical_address_limit bits = .ok physical_limit)
    (hnew : BootInfoFrameAllocator.new memory boot_info boot_info_address physical_limit = .ok allocator)
    (hserve : serve_all requests (Session.begin allocator) = .ok session) :
    (∀ frame before rest, session.events = before ++ .handed frame :: rest →
      allocator.Usable frame ∧ frame ∉ Pool.held before) ∧
    (∀ frame before between rest,
      session.events = before ++ .returned frame :: (between ++ .exhausted :: rest) →
        .handed frame ∈ between) ∧
    (∃ next, Request.allocate_frame.serve session = .ok next) ∧
    (∀ frame ∈ Pool.held session.events, ∃ next,
      (Request.deallocate_frame frame).serve session = .ok next) := by
  obtain ⟨hmapped, hstacked, hstack, _⟩ :=
    BootInfoFrameAllocator.new_mapped (physical_address_limit_le hlimit) hnew
  have hbegin : (Session.begin allocator).Tracks allocator ⟨allocator.unvisited, [], Nat.zero_le _⟩
      ⟨allocator.unvisited, [], Nat.zero_le _⟩ :=
    ⟨.start, .refl allocator, hmapped, hstacked, rfl, hstack.symm⟩
  obtain ⟨pool, htracks⟩ := serve_all_tracks hbegin requests hserve
  refine ⟨?_, ?_, htracks.responsive⟩
  · intro frame before rest hsplit
    obtain ⟨hmem, hfree⟩ := htracks.trace.handed_not_held
      (BootInfoFrameAllocator.unvisited_nodup hmapped) hsplit
    exact ⟨BootInfoFrameAllocator.usable_of_mem hmapped hmem, hfree⟩
  · intro frame before between rest hsplit
    exact htracks.trace.handed_before_exhausted hsplit

/-- A map with one conventional region of 512 pages at 2 MiB. -/
def sample_map : List UInt8 :=
  [7, 0, 0, 0, 0, 0, 0, 0, 0, 0, 32, 0, 0, 0, 0, 0, 0, 0, 0, 0, 0, 0, 0, 0,
    0, 2, 0, 0, 0, 0, 0, 0, 0, 0, 0, 0, 0, 0, 0, 0]

def sample_memory (address : Nat) : UInt8 := sample_map.getD (address - 0x100000) 0

def sample_boot_info : BootInfo where
  system_table := 0x101000
  memory_map := 0x100000
  memory_map_size := 40
  descriptor_size := 40
  kernel_base := 0x110000
  kernel_reserved_size := 0x8000
  page_table_root := 0x102000
  framebuffer_base := 0x80000000
  framebuffer_size := 0x300000

def sample_allocator : BootInfoFrameAllocator where
  memory_map := sample_map
  descriptor_size := 40
  descriptor_count := 1
  descriptor_index := 0
  page_index := 0
  physical_limit := 2 ^ 32
  reserved_ranges := [⟨0x110000, 0x118000⟩, ⟨0x103000, 0x104000⟩, ⟨0x100000, 0x101000⟩,
    ⟨0x102000, 0x103000⟩, ⟨0x101000, 0x102000⟩, ⟨0x80000000, 0x80300000⟩]
  reclaimed_frames := fun _ => none
  reclaimed_count := 0

theorem sample_new : BootInfoFrameAllocator.new sample_memory sample_boot_info 0x103000 (2 ^ 32) =
    .ok sample_allocator := by
  have hmap : (List.range (40 : UInt64).toNat).map (fun offset =>
      sample_memory ((0x100000 : UInt64).toNat + offset)) = sample_map := by decide +kernel
  have hvalid : validate_memory_map sample_map (40 : UInt64).toNat (2 ^ 32) = .ok 1 := by decide +kernel
  have hreserved : reserved_ranges sample_boot_info 0x103000 (2 ^ 32) =
      .ok sample_allocator.reserved_ranges := by decide +kernel
  rw [BootInfoFrameAllocator.new]
  simp only [sample_boot_info, hmap, hvalid] at hreserved ⊢
  rw [hreserved]
  rfl

/-- A frame is handed out, returned, and handed out again. -/
theorem sample_session : ∃ session, session.events = [.handed 0x200000, .returned 0x200000, .handed 0x200000] ∧
    serve_all [.allocate_frame, .deallocate_frame 0x200000, .allocate_frame]
      (Session.begin sample_allocator) = .ok session := by
  have hevents : ((serve_all [.allocate_frame, .deallocate_frame 0x200000, .allocate_frame]
      (Session.begin sample_allocator)).toOption.map Session.events) =
        some [.handed 0x200000, .returned 0x200000, .handed 0x200000] := by decide +kernel
  cases hserve : serve_all [.allocate_frame, .deallocate_frame 0x200000, .allocate_frame]
      (Session.begin sample_allocator) with
  | error stop => simp [hserve, Except.toOption] at hevents
  | ok session => exact ⟨session, by simpa [hserve, Except.toOption] using hevents, rfl⟩

theorem frames_never_shared_sample :
    ∃ session, serve_all [.allocate_frame, .deallocate_frame 0x200000, .allocate_frame]
        (Session.begin sample_allocator) = .ok session ∧
      ∃ frame before rest, session.events = before ++ .handed frame :: rest ∧
        sample_allocator.Usable frame ∧ frame ∉ Pool.held before := by
  obtain ⟨session, hevents, hserve⟩ := sample_session
  have hshared := frames_never_shared (some 32) sample_memory sample_boot_info 0x103000 (2 ^ 32)
    sample_allocator _ session rfl sample_new hserve
  refine ⟨session, hserve, 0x200000, [.handed 0x200000, .returned 0x200000], [], hevents, ?_⟩
  exact hshared.1 0x200000 [.handed 0x200000, .returned 0x200000] [] hevents

end leafos.memory
