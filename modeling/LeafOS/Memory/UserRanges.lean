import LeafOS.Arch.User
import LeafOS.Memory.SpaceRuns

namespace leafos.memory

open leafos.arch.user (user_page_access)
open Outcome (bind_eq_ok_iff err_bind okOr_some ok_bind refuse_false safe_bind safe_refuse)
open Outcome (refuse okOr)

inductive UserMemoryError where
  | InvalidAddress
  | Unmapped
  | NotWritable
  | InactiveAddressSpace
deriving Repr, DecidableEq

namespace AddressSpace

/-- The page loop of `validate_user_range`. The first argument bounds its turns:
running out of them is a panic here, as is `VirtAddr::new` on an address that is
not canonical. -/
def check_user_pages (self : AddressSpace) (stop : Nat) (writable : Bool) : Nat → Nat → Outcome UserMemoryError Unit
  | 0, _ => .panic
  | turns + 1, page_address => do
    if page_address < stop then
      Outcome.unchecked (canonical page_address)
      let access ← okOr (user_page_access self (page_address / PAGE_SIZE)) .Unmapped
      refuse (writable && access != .ReadWrite) .NotWritable
      let next ← okOr (checked_add page_address PAGE_SIZE) .InvalidAddress
      check_user_pages self stop writable turns next
    else
      return ()

/-- `active` is the root in `cr3`. -/
def validate_user_range (self : AddressSpace) (active : PhysFrame) (address length : UInt64) (writable : Bool) :
    Outcome UserMemoryError Unit := do
  if length = 0 then
    return ()
  else
    refuse (!canonical address.toNat) .InvalidAddress
    let start := address.toNat
    let stop ← okOr (checked_add start length.toNat) .InvalidAddress
    refuse (start < USER_SPACE_START || USER_SPACE_END < stop || stop ≤ start) .InvalidAddress
    let page_address := start / PAGE_SIZE * PAGE_SIZE
    check_user_pages self stop writable ((stop - page_address) / PAGE_SIZE + 2) page_address
    refuse (self.root != some active) .InactiveAddressSpace

/-- A page of the space that may be used as requested. -/
def Grants (self : AddressSpace) (writable : Bool) (page : Page) : Prop :=
  ∃ access, user_page_access self page = some access ∧ (writable = true → access = .ReadWrite)

section Range

variable {self : AddressSpace} {writable : Bool} {stop : Nat}

theorem canonical_of_user {address : Nat} (haddress : address < USER_SPACE_END) : canonical address = true := by
  have hend : USER_SPACE_END = 2 ^ 47 := by decide
  rw [canonical, Bool.or_eq_true, decide_eq_true_eq]
  exact .inl (hend ▸ haddress)

/-- A page below the end of user space is followed by one whose address does not
overflow. -/
theorem next_page {first : Nat} (hpage : first * PAGE_SIZE < USER_SPACE_END) :
    checked_add (first * PAGE_SIZE) PAGE_SIZE = some ((first + 1) * PAGE_SIZE) := by
  have hend : USER_SPACE_END = 2 ^ 47 := by decide
  have hsize : PAGE_SIZE = 4096 := rfl
  rw [checked_add_eq_some, Nat.succ_mul]
  exact ⟨by omega, rfl⟩

/-- On a range of user space the loop ends, and meets neither an overflow nor an
address that is not canonical. -/
theorem check_user_pages_safe (hstop : stop ≤ USER_SPACE_END) (turns first : Nat)
    (hturns : stop ≤ (first + turns) * PAGE_SIZE) :
    (check_user_pages self stop writable (turns + 1) (first * PAGE_SIZE)).Safe (· = .InvalidAddress) fun _ => True := by
  induction turns generalizing first with
  | zero =>
    rw [Nat.add_zero] at hturns
    rw [check_user_pages, if_neg (Nat.not_lt.mpr hturns)]
    trivial
  | succ turns ih =>
    rw [check_user_pages]
    by_cases hpage : first * PAGE_SIZE < stop
    · have huser := Nat.lt_of_lt_of_le hpage hstop
      rw [if_pos hpage, safe_bind, Outcome.safe_unchecked]
      refine ⟨canonical_of_user huser, ?_⟩
      rw [safe_bind, Outcome.safe_okOr (by simp)]
      intro access _
      rw [safe_bind, safe_refuse (by simp)]
      intro _
      rw [next_page huser]
      exact ih (first + 1) (by rwa [Nat.add_assoc, Nat.add_comm 1])
    · rw [if_neg hpage]
      trivial

/-- The loop accepts exactly when every page of the range grants the access. -/
theorem check_user_pages_eq_ok_iff (hstop : stop ≤ USER_SPACE_END) (turns first : Nat)
    (hturns : stop ≤ (first + turns) * PAGE_SIZE) :
    check_user_pages self stop writable (turns + 1) (first * PAGE_SIZE) = .ok () ↔
      ∀ page, first ≤ page → page * PAGE_SIZE < stop → self.Grants writable page := by
  induction turns generalizing first with
  | zero =>
    rw [Nat.add_zero] at hturns
    rw [check_user_pages, if_neg (Nat.not_lt.mpr hturns)]
    refine iff_of_true rfl fun page hfirst hpage => absurd hpage (Nat.not_lt.mpr ?_)
    exact Nat.le_trans hturns (Nat.mul_le_mul_right _ hfirst)
  | succ turns ih =>
    rw [check_user_pages]
    by_cases hpage : first * PAGE_SIZE < stop
    · have huser := Nat.lt_of_lt_of_le hpage hstop
      have hrest := ih (first + 1) (by rwa [Nat.add_assoc, Nat.add_comm 1])
      have hdiv : first * PAGE_SIZE / PAGE_SIZE = first := Nat.mul_div_cancel _ (by decide)
      simp only [if_pos hpage, bind_eq_ok_iff, Outcome.unchecked_eq_ok_iff, Outcome.okOr_eq_ok_iff,
        Outcome.refuse_eq_ok_iff, next_page huser, canonical_of_user huser, hdiv, true_and, exists_const,
        Option.some.injEq, exists_eq_left', hrest]
      constructor
      · rintro ⟨access, haccess, hmode, hlater⟩ page hfirst hbelow
        obtain rfl | hlt := Nat.eq_or_lt_of_le hfirst
        · exact ⟨access, haccess, by simpa using hmode⟩
        · exact hlater page hlt hbelow
      · intro hall
        obtain ⟨access, haccess, hmode⟩ := hall first (Nat.le_refl _) hpage
        exact ⟨access, haccess, by simpa using hmode, fun page hlt => hall page (Nat.le_of_lt hlt)⟩
    · rw [if_neg hpage]
      refine iff_of_true rfl fun page hfirst hbelow => absurd hbelow ?_
      exact fun hbelow => hpage (Nat.lt_of_le_of_lt (Nat.mul_le_mul_right _ hfirst) hbelow)

/-- The bytes of the range lie in user space, and its end does not overflow. -/
def InUserSpace (address length : UInt64) : Prop :=
  address.toNat + length.toNat < 2 ^ 64 ∧ USER_SPACE_START ≤ address.toNat ∧
    address.toNat + length.toNat ≤ USER_SPACE_END

variable {active : PhysFrame} {address length : UInt64}

theorem toNat_pos (hlength : length ≠ 0) : 0 < length.toNat := by
  refine Nat.pos_of_ne_zero fun hzero => hlength ?_
  exact UInt64.toNat_inj.mp hzero

/-- Outside user space the range is refused before any page is looked at. -/
theorem validate_user_range_outside (hlength : length ≠ 0) (houtside : ¬ InUserSpace address length) :
    validate_user_range self active address length writable = .err .InvalidAddress := by
  rw [validate_user_range, if_neg hlength]
  cases hcanonical : canonical address.toNat with
  | false => rfl
  | true =>
    cases hsum : checked_add address.toNat length.toNat with
    | none => simp only [hsum, Bool.not_true, refuse_false, ok_bind, Outcome.okOr_none, err_bind]
    | some stop =>
      obtain ⟨hbound, rfl⟩ := checked_add_eq_some.mp hsum
      have hrefused : (decide (address.toNat < USER_SPACE_START) || decide (USER_SPACE_END < address.toNat + length.toNat) ||
          decide (address.toNat + length.toNat ≤ address.toNat)) = true := by
        rw [Bool.or_eq_true, Bool.or_eq_true, decide_eq_true_eq, decide_eq_true_eq]
        by_contra hin
        rw [not_or, not_or] at hin
        exact houtside ⟨hbound, Nat.not_lt.mp hin.1.1, Nat.not_lt.mp hin.1.2⟩
      simp only [hsum, hrefused, Bool.not_true, refuse_false, ok_bind, okOr_some,
        Outcome.refuse_true, err_bind]

/-- In user space the pages are checked, and last that the space is the active one. -/
theorem validate_user_range_inside (hlength : length ≠ 0) (hinside : InUserSpace address length) :
    validate_user_range self active address length writable =
      (do
        check_user_pages self (address.toNat + length.toNat) writable
          ((address.toNat + length.toNat - address.toNat / PAGE_SIZE * PAGE_SIZE) / PAGE_SIZE + 2)
          (address.toNat / PAGE_SIZE * PAGE_SIZE)
        refuse (self.root != some active) .InactiveAddressSpace) := by
  obtain ⟨hbound, hlow, hhigh⟩ := hinside
  have hpositive := toNat_pos hlength
  have hcanonical := canonical_of_user (Nat.lt_of_lt_of_le (Nat.lt_add_of_pos_right hpositive) hhigh)
  have hsum : checked_add address.toNat length.toNat = some (address.toNat + length.toNat) :=
    checked_add_eq_some.mpr ⟨hbound, rfl⟩
  have hkept : (decide (address.toNat < USER_SPACE_START) || decide (USER_SPACE_END < address.toNat + length.toNat) ||
      decide (address.toNat + length.toNat ≤ address.toNat)) = false := by
    simp only [Bool.or_eq_false_iff, decide_eq_false_iff_not]
    omega
  rw [validate_user_range, if_neg hlength]
  simp only [hcanonical, hsum, hkept, Bool.not_true, refuse_false, ok_bind, okOr_some]

/-- The turns granted to the loop reach past the last byte. -/
theorem enough_turns (start stop : Nat) :
    stop ≤ (start / PAGE_SIZE + ((stop - start / PAGE_SIZE * PAGE_SIZE) / PAGE_SIZE + 1)) * PAGE_SIZE := by
  have hsize : PAGE_SIZE = 4096 := rfl
  rw [hsize]
  omega

/-- The pages from the one of `start` to the last one that begins before `stop` are
the pages of the bytes between. -/
theorem pages_of_range {start stop : Nat} (hpositive : start < stop) (P : Nat → Prop) :
    (∀ page, start / PAGE_SIZE ≤ page → page * PAGE_SIZE < stop → P page) ↔
      ∀ byte, start ≤ byte → byte < stop → P (byte / PAGE_SIZE) := by
  constructor
  · intro hpages byte hstart hstop
    refine hpages _ (Nat.div_le_div_right hstart) ?_
    exact Nat.lt_of_le_of_lt (Nat.div_mul_le_self byte PAGE_SIZE) hstop
  · intro hbytes page hfirst hstop
    -- the first byte of the page that is in the range
    have hpage : max start (page * PAGE_SIZE) / PAGE_SIZE = page := by
      have hsize : PAGE_SIZE = 4096 := rfl
      rw [hsize] at hfirst ⊢
      omega
    rw [← hpage]
    exact hbytes _ (Nat.le_max_left _ _) (Nat.max_lt.mpr ⟨hpositive, hstop⟩)

theorem validate_user_range_eq_ok_iff (hactive : self.root = some active) (hlength : length ≠ 0) :
    validate_user_range self active address length writable = .ok () ↔
      InUserSpace address length ∧ ∀ byte, address.toNat ≤ byte → byte < address.toNat + length.toNat →
        self.Grants writable (byte / PAGE_SIZE) := by
  by_cases hinside : InUserSpace address length
  · rw [validate_user_range_inside hlength hinside, hactive, bind_eq_ok_iff, and_iff_right hinside]
    have hrange : address.toNat < address.toNat + length.toNat := Nat.lt_add_of_pos_right (toNat_pos hlength)
    rw [← pages_of_range hrange (self.Grants writable),
      ← check_user_pages_eq_ok_iff hinside.2.2 _ _ (enough_turns address.toNat _)]
    simp only [bne_self_eq_false, refuse_false, and_true]
    exact ⟨fun ⟨(), hchecked⟩ => hchecked, fun hchecked => ⟨(), hchecked⟩⟩
  · rw [validate_user_range_outside hlength hinside]
    exact iff_of_false (by simp) fun haccepted => hinside haccepted.1

theorem validate_user_range_safe (hlength : length ≠ 0) (hinside : InUserSpace address length) :
    (validate_user_range self active address length writable).Safe (· = .InvalidAddress) fun _ => True := by
  rw [validate_user_range_inside hlength hinside, safe_bind]
  refine (check_user_pages_safe hinside.2.2 _ _ (enough_turns address.toNat _)).mono fun _ _ => ?_
  rw [safe_refuse (by simp)]
  exact fun _ => trivial

/-- With one record for each page, the access the lookup finds is the one recorded. -/
theorem user_page_access_eq_some_iff (hnodup : (self.user_pages.map Prod.fst).Nodup) {page : Page}
    {access : UserPageAccess} : user_page_access self page = some access ↔ (page, access) ∈ self.user_pages := by
  rw [user_page_access, Option.map_eq_some_iff]
  constructor
  · rintro ⟨record, hfound, rfl⟩
    have hpage : record.1 = page := by simpa using List.find?_some hfound
    rw [← hpage]
    exact List.mem_of_find?_eq_some hfound
  · intro hmem
    have hany : (self.user_pages.find? fun mapped => mapped.1 == page).isSome :=
      List.find?_isSome.mpr ⟨_, hmem, beq_self_eq_true page⟩
    obtain ⟨record, hfound⟩ := Option.isSome_iff_exists.mp hany
    have hpage : record.1 = page := by simpa using List.find?_some hfound
    have hrecord := List.inj_on_of_nodup_map hnodup (List.mem_of_find?_eq_some hfound) hmem hpage
    exact ⟨record, hfound, by rw [hrecord]⟩

end Range

end AddressSpace

/-- Validation of user ranges. For an address space of any run of the memory manager
that is the active one, a range of at least one byte is accepted exactly when its end
does not overflow, it lies in user space and each of its bytes is on a page the space
has mapped, read-write where the range is to be written. It is refused as an invalid
address exactly when it overflows or leaves user space, so the page loop itself never
overflows, and no address that is not canonical is made. -/
theorem user_range_valid_iff_mapped (bits : Option UInt8) (memory : Nat → UInt8) (boot_info : BootInfo)
    (boot_info_address : UInt64) (physical_limit : Nat) (frame_allocator : BootInfoFrameAllocator)
    (mapper : Mapper) (physical_memory_offset : Nat) (kernel_user_slot_unused : Bool)
    (page_tables : PhysFrame → UserTables) (calls : List Call) (final : System) (space : AddressSpace)
    (active : PhysFrame) (address length : UInt64) (writable : Bool)
    (hlimit : physical_address_limit bits = .ok physical_limit)
    (hnew : BootInfoFrameAllocator.new memory boot_info boot_info_address physical_limit = .ok frame_allocator)
    (hrun : perform_all calls ⟨⟨mapper, frame_allocator, physical_memory_offset, kernel_user_slot_unused,
      page_tables⟩, []⟩ = some final)
    (hspace : space ∈ final.spaces) (hactive : space.root = some active) (hlength : 0 < length) :
    (space.validate_user_range active address length writable = .ok () ↔
      address.toNat + length.toNat < 2 ^ 64 ∧ USER_SPACE_START ≤ address.toNat ∧
        address.toNat + length.toNat ≤ USER_SPACE_END ∧
        ∀ byte, address.toNat ≤ byte → byte < address.toNat + length.toNat →
          ∃ access, (byte / PAGE_SIZE, access) ∈ space.user_pages ∧ (writable = true → access = .ReadWrite)) ∧
    (space.validate_user_range active address length writable = .err .InvalidAddress ↔
      ¬ (address.toNat + length.toNat < 2 ^ 64 ∧ USER_SPACE_START ≤ address.toNat ∧
        address.toNat + length.toNat ≤ USER_SPACE_END)) ∧
    space.validate_user_range active address length writable ≠ .panic := by
  have hlength : length ≠ 0 := fun hzero => absurd (hzero ▸ hlength) (by decide)
  obtain ⟨hboot, hstart⟩ := System.booted mapper physical_memory_offset kernel_user_slot_unused page_tables hlimit hnew
  obtain ⟨reached, pool, hreached, hinv⟩ := perform_all_inv calls hstart hboot
  obtain rfl : final = reached := Option.mem_unique hrun hreached
  have hnodup := ((hinv.mirrors space hspace active hactive).exact).pages_nodup
  refine ⟨?_, ?_⟩
  · rw [AddressSpace.validate_user_range_eq_ok_iff hactive hlength]
    simp only [AddressSpace.InUserSpace, AddressSpace.Grants, AddressSpace.user_page_access_eq_some_iff hnodup, and_assoc]
  · by_cases hinside : AddressSpace.InUserSpace address length
    · have hsafe : (space.validate_user_range active address length writable).Safe (· = .InvalidAddress) fun _ => True :=
        AddressSpace.validate_user_range_safe hlength hinside
      exact ⟨iff_of_false (hsafe.ne_err rfl) (not_not.mpr hinside), hsafe.ne_panic⟩
    · rw [AddressSpace.validate_user_range_outside hlength hinside]
      exact ⟨iff_of_true rfl hinside, by simp⟩

/-- A space with one read-write page: the last 96 bytes of the page may be written,
at an address that ends where the page does. -/
theorem user_range_valid_iff_mapped_sample :
    ∃ final, perform_all [.create_address_space, .map_user_page 0 (255 * 512 ^ 3) .ReadWrite true]
        ⟨sample_manager, []⟩ = some final ∧
      (⟨some 0x200000, [(255 * 512 ^ 3, .ReadWrite)]⟩ : AddressSpace) ∈ final.spaces ∧
      AddressSpace.validate_user_range ⟨some 0x200000, [(255 * 512 ^ 3, .ReadWrite)]⟩ 0x200000 0x7f8000000fa0 96 true =
        .ok () := by
  have hspaces : (perform_all [.create_address_space, .map_user_page 0 (255 * 512 ^ 3) .ReadWrite true]
      ⟨sample_manager, []⟩).map System.spaces =
        some [⟨some 0x200000, [(255 * 512 ^ 3, .ReadWrite)]⟩] := by decide +kernel
  obtain ⟨final, hrun, hfinal⟩ := Option.map_eq_some_iff.mp hspaces
  have hspace : (⟨some 0x200000, [(255 * 512 ^ 3, .ReadWrite)]⟩ : AddressSpace) ∈ final.spaces :=
    hfinal ▸ List.mem_singleton_self _
  refine ⟨final, hrun, hspace, ?_⟩
  refine (user_range_valid_iff_mapped (some 32) sample_memory sample_boot_info 0x103000 (2 ^ 32) sample_allocator
    offset_page_table 0 true (fun _ => .new) _ final _ 0x200000 0x7f8000000fa0 96 true rfl sample_new hrun hspace rfl
    (by decide)).1.mpr ⟨by decide, by decide, by decide, fun byte hlow hhigh => ⟨.ReadWrite, ?_, fun _ => rfl⟩⟩
  have haddress : (0x7f8000000fa0 : UInt64).toNat = 0x7f8000000fa0 := by decide
  have hlength : (96 : UInt64).toNat = 96 := by decide
  have hpage : byte / PAGE_SIZE = 255 * 512 ^ 3 := by
    rw [show PAGE_SIZE = 4096 from rfl]
    omega
  rw [hpage]
  exact List.mem_singleton_self _

end leafos.memory
