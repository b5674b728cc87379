import Mathlib.Algebra.GroupWithZero.Nat
import Mathlib.Data.List.Nodup
import Mathlib.Data.List.Perm.Basic

/-- A pool of resources: unused ones, in the order in which they will be handed
out, and a bounded stack of ones that came back. -/
structure Pool (F : Type) (capacity : Nat) where
  fresh : List F
  returned : List F
  bound : returned.length ≤ capacity

namespace Pool

variable {F : Type} {capacity : Nat} {pool after : Pool F capacity} {resource : F}

/-- Everything the pool could still hand out. -/
def free (pool : Pool F capacity) : List F := pool.returned ++ pool.fresh

theorem free_length (pool : Pool F capacity) : pool.free.length = pool.returned.length + pool.fresh.length :=
  List.length_append

/-- The last returned resource, or else the next unused one. -/
def take (pool : Pool F capacity) : Option (F × Pool F capacity) :=
  match hreturned : pool.returned with
  | resource :: rest =>
    some (resource, ⟨pool.fresh, rest, by have := pool.bound; rw [hreturned] at this; exact Nat.le_of_succ_le this⟩)
  | [] =>
    match pool.fresh with
    | resource :: rest => some (resource, ⟨rest, [], Nat.zero_le _⟩)
    | [] => none

/-- Push a resource back, if there is room. -/
def put (pool : Pool F capacity) (resource : F) : Option (Pool F capacity) :=
  if hroom : pool.returned.length < capacity then
    some ⟨pool.fresh, resource :: pool.returned, hroom⟩
  else
    none

/-- What a pool becomes by handing out only: the returned resources go before the unused ones. -/
structure Drawn (pool after : Pool F capacity) : Prop where
  left : after.free <:+ pool.free
  returned : after.returned.length = pool.returned.length - (pool.free.length - after.free.length)

section Take

variable (htake : pool.take = some (resource, after))
include htake

theorem take_cases : (pool.returned = resource :: after.returned ∧ pool.fresh = after.fresh) ∨
      (pool.returned = [] ∧ after.returned = [] ∧ pool.fresh = resource :: after.fresh) := by
  unfold take at htake
  split at htake
  · rename_i first rest hreturned
    obtain ⟨rfl, rfl⟩ := Prod.mk.inj (Option.some.inj htake)
    exact .inl ⟨hreturned, rfl⟩
  · rename_i hreturned
    cases hfresh : pool.fresh with
    | nil => simp [hfresh] at htake
    | cons first rest =>
      simp only [hfresh, Option.some.injEq, Prod.mk.injEq] at htake
      obtain ⟨rfl, rfl⟩ := htake
      exact .inr ⟨hreturned, rfl, rfl⟩

theorem take_free : pool.free = resource :: after.free := by
  obtain ⟨hreturned, hfresh⟩ | ⟨hreturned, hempty, hfresh⟩ := take_cases htake
  · simp [free, hreturned, hfresh]
  · simp [free, hreturned, hempty, hfresh]

/-- What was just taken fits back. -/
theorem take_room (hcapacity : 0 < capacity) : after.returned.length < capacity := by
  obtain ⟨hreturned, _⟩ | ⟨_, hempty, _⟩ := take_cases htake
  · have hbound := pool.bound
    rw [hreturned] at hbound
    exact hbound
  · simpa [hempty] using hcapacity

theorem drawn_of_take : Drawn pool after := by
  have hfree := take_free htake
  refine ⟨hfree ▸ List.suffix_cons resource _, ?_⟩
  rw [hfree, List.length_cons, Nat.add_sub_cancel_left]
  obtain ⟨hreturned, _⟩ | ⟨hempty, hafter, _⟩ := take_cases htake
  · rw [hreturned, List.length_cons, Nat.add_sub_cancel]
  · rw [hempty, hafter, List.length_nil]

end Take

/-- The pool answers nothing only when nothing is left. -/
theorem take_eq_none (htake : pool.take = none) : pool.free = [] := by
  unfold take at htake
  split at htake
  · cases htake
  · rename_i hreturned
    cases hfresh : pool.fresh with
    | nil => simp [free, hreturned, hfresh]
    | cons first rest => simp [hfresh] at htake

theorem Drawn.refl (pool : Pool F capacity) : Drawn pool pool :=
  ⟨List.suffix_refl _, by rw [Nat.sub_self, Nat.sub_zero]⟩

theorem Drawn.trans {final : Pool F capacity} (hfirst : Drawn pool after) (hsecond : Drawn after final) :
    Drawn pool final := by
  refine ⟨hsecond.left.trans hfirst.left, ?_⟩
  have hbefore := hfirst.left.length_le
  have hafter := hsecond.left.length_le
  rw [hsecond.returned, hfirst.returned]
  omega

theorem put_eq_some (hput : pool.put resource = some after) :
    after.fresh = pool.fresh ∧ after.returned = resource :: pool.returned := by
  unfold put at hput
  split at hput
  · obtain rfl := Option.some.inj hput
    exact ⟨rfl, rfl⟩
  · cases hput

theorem put_isSome : (pool.put resource).isSome ↔ pool.returned.length < capacity := by
  unfold put
  split <;> simp [*]

/-- What the users of a pool see. -/
inductive Event (F : Type) where
  | handed (resource : F)
  | exhausted
  | returned (resource : F)
  | refused (resource : F)
deriving Repr, DecidableEq

section History

variable [DecidableEq F] {before rest : List (Event F)}

/-- The resources in the users' hands after a history. -/
def held (events : List (Event F)) : List F :=
  events.foldl (fun held event =>
    match event with
    | .handed resource => resource :: held
    | .returned resource => held.erase resource
    | .exhausted | .refused _ => held) []

theorem held_handed (events : List (Event F)) (resource : F) :
    held (events ++ [.handed resource]) = resource :: held events := by
  simp [held]

theorem held_returned (events : List (Event F)) (resource : F) :
    held (events ++ [.returned resource]) = (held events).erase resource := by
  simp [held]

/-- One exchange with users who hold `inHand`; they return only what they hold. -/
inductive Step (inHand : List F) : Pool F capacity → Event F → Pool F capacity → Prop where
  | handed {pool after : Pool F capacity} {resource : F} (htake : pool.take = some (resource, after)) :
      Step inHand pool (.handed resource) after
  | exhausted {pool : Pool F capacity} (htake : pool.take = none) : Step inHand pool .exhausted pool
  | returned {pool after : Pool F capacity} {resource : F} (hheld : resource ∈ inHand)
      (hput : pool.put resource = some after) : Step inHand pool (.returned resource) after
  | refused {pool : Pool F capacity} {resource : F} :
      Step inHand pool (.refused resource) pool

/-- The histories of a pool. -/
inductive Trace (start : Pool F capacity) : List (Event F) → Pool F capacity → Prop where
  | start : Trace start [] start
  | snoc {events : List (Event F)} {pool after : Pool F capacity} {event : Event F}
      (htrace : Trace start events pool) (hstep : Step (held events) pool event after) :
      Trace start (events ++ [event]) after

variable {start : Pool F capacity} {events : List (Event F)} (htrace : Trace start events pool)
include htrace

/-- Nothing is created or lost: what is held and what is free make up what was
free at the start. -/
theorem Trace.conserves : (held events ++ pool.free).Perm start.free := by
  induction htrace with
  | start => simp [held]
  | @snoc events pool after event htrace hstep ih =>
    cases hstep with
    | handed htake =>
      rw [held_handed, List.cons_append]
      rw [take_free htake] at ih
      exact List.perm_middle.symm.trans ih
    | exhausted htake => simpa [held] using ih
    | @returned _ resource hheld hput =>
      obtain ⟨hfresh, hreturned⟩ := put_eq_some hput
      have hfree : after.free = resource :: pool.free := by simp [free, hfresh, hreturned]
      rw [held_returned, hfree]
      refine List.Perm.trans ?_ ih
      exact List.perm_middle.trans ((List.perm_cons_erase hheld).symm.append_right pool.free)
    | refused => simpa [held] using ih

/-- Each event of a history is a step from the history before it. -/
theorem Trace.step_at {event : Event F} (hsplit : events = before ++ event :: rest) :
    ∃ middle after, Trace start before middle ∧ Step (held before) middle event after := by
  induction htrace generalizing rest with
  | start => simp at hsplit
  | snoc htrace hstep ih =>
    obtain rfl | ⟨rest, last, rfl⟩ := List.eq_nil_or_concat rest
    · obtain ⟨rfl, hevent⟩ := List.append_inj' hsplit rfl
      obtain rfl := List.singleton_inj.mp hevent
      exact ⟨_, _, htrace, hstep⟩
    · rw [List.concat_eq_append, ← List.cons_append, ← List.append_assoc] at hsplit
      exact ih (List.append_inj' hsplit rfl).1

/-- What is handed out was free at the start and is in nobody's hands. -/
theorem Trace.handed_not_held (hnodup : start.free.Nodup) (hsplit : events = before ++ .handed resource :: rest) :
    resource ∈ start.free ∧ resource ∉ held before := by
  obtain ⟨middle, after, hbefore, hstep⟩ := htrace.step_at hsplit
  cases hstep with
  | handed htake =>
    have hperm := hbefore.conserves
    rw [take_free htake] at hperm
    refine ⟨hperm.subset (by simp), fun hheld => ?_⟩
    have hdisjoint := (List.nodup_append.mp (hperm.nodup_iff.mpr hnodup)).2.2
    exact hdisjoint resource hheld resource List.mem_cons_self rfl

/-- A returned resource that has not been handed out since is on the stack. -/
theorem Trace.returned_mem (hsplit : events = before ++ .returned resource :: rest) (hsince : .handed resource ∉ rest) :
    resource ∈ pool.returned := by
  induction htrace generalizing rest with
  | start => simp at hsplit
  | @snoc events pool after event htrace hstep ih =>
    obtain rfl | ⟨rest, last, rfl⟩ := List.eq_nil_or_concat rest
    · obtain ⟨rfl, hevent⟩ := List.append_inj' hsplit rfl
      obtain rfl := List.singleton_inj.mp hevent
      cases hstep with
      | returned hheld hput => simp [(put_eq_some hput).2]
    · rw [List.concat_eq_append, ← List.cons_append, ← List.append_assoc] at hsplit
      obtain ⟨hevents, hlast⟩ := List.append_inj' hsplit rfl
      obtain rfl := List.singleton_inj.mp hlast
      rw [List.concat_eq_append, List.mem_append, List.mem_singleton, not_or] at hsince
      have hmem := ih hevents hsince.1
      cases hstep with
      | handed htake =>
        obtain ⟨hreturned, _⟩ | ⟨hempty, _⟩ := take_cases htake
        · rw [hreturned] at hmem
          obtain rfl | hmem := List.mem_cons.mp hmem
          · exact absurd rfl hsince.2
          · exact hmem
        · simp [hempty] at hmem
      | exhausted htake => exact hmem
      | returned hheld hput =>
        rw [(put_eq_some hput).2]
        exact List.mem_cons_of_mem _ hmem
      | refused => exact hmem

/-- A returned resource is handed out again before the pool first runs dry. -/
theorem Trace.handed_before_exhausted {between : List (Event F)}
    (hsplit : events = before ++ .returned resource :: (between ++ .exhausted :: rest)) :
    .handed resource ∈ between := by
  by_contra hsince
  have hcut : events = (before ++ .returned resource :: between) ++ .exhausted :: rest := by
    rw [hsplit, List.append_assoc, List.cons_append]
  obtain ⟨middle, after, hmiddle, hstep⟩ := htrace.step_at hcut
  have hmem := hmiddle.returned_mem rfl hsince
  cases hstep with
  | exhausted htake =>
    have hfree := take_eq_none htake
    simp only [free, List.append_eq_nil_iff] at hfree
    simp [hfree.1] at hmem

end History

end Pool
