import LeafOS.Memory.Types

namespace leafos.arch.user

open leafos.memory

inductive UserContextError where
  | InvalidEntry
  | InvalidStack
  | EntryNotExecutable
  | StackNotWritable
deriving Repr, DecidableEq

structure UserContext where
  entry : Nat
  stack : Nat
  argument_count : Nat
  argument_vector : Nat
deriving Repr, DecidableEq

/-- `AddressSpace::contains_user_address`. -/
def contains_user_address (address : Nat) : Bool :=
  USER_SPACE_START ≤ address && address < USER_SPACE_END

/-- `AddressSpace::user_page_access`: the first record of the page. -/
def user_page_access (space : AddressSpace) (page : Page) : Option UserPageAccess :=
  (space.user_pages.find? fun mapped => mapped.1 == page).map Prod.snd

namespace UserContext

def with_arguments (entry stack argument_count argument_vector : Nat) :
    Except UserContextError UserContext :=
  if !contains_user_address entry then
    .error .InvalidEntry
  else if !contains_user_address stack || stack % 16 != 0 then
    .error .InvalidStack
  else if argument_count != 0 && !contains_user_address argument_vector then
    .error .InvalidStack
  else
    .ok { entry, stack, argument_count, argument_vector }

def for_address_space_with_arguments (address_space : AddressSpace)
    (entry stack argument_count argument_vector : Nat) : Except UserContextError UserContext := do
  let context ← with_arguments entry stack argument_count argument_vector
  let entry_page := entry / PAGE_SIZE
  let stack_page := (stack - 1) / PAGE_SIZE
  let argument_page := argument_vector / PAGE_SIZE
  if user_page_access address_space entry_page ≠ some .ReadExecute then
    .error .EntryNotExecutable
  else if user_page_access address_space stack_page ≠ some .ReadWrite then
    .error .StackNotWritable
  else if argument_count ≠ 0 ∧ user_page_access address_space argument_page ≠ some .ReadWrite then
    .error .StackNotWritable
  else
    .ok context

end UserContext

end leafos.arch.user
