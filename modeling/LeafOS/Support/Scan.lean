import LeafOS.Support.Prog
import Mathlib.Data.List.Basic

/-- How one turn of a loop ends: with the `return` of the function, or ready for the next. -/
inductive Turn (σ ρ : Type) where
  | finished (result : ρ)
  | next (state : σ)
deriving DecidableEq

def Turn.found? {σ ρ : Type} : Turn σ ρ → Option ρ
  | .finished result => some result
  | .next _ => none

/-! Loops over records that lie one after the other. -/

namespace Scan

variable {ε τ σ ρ : Type}

section Loops

variable (read : Nat → Outcome ε (Option τ)) (after : τ → Nat)

/-- `while let Some(record) = read(offset)? { body; offset = after(record) }`. A loop that is
not left early ends with the offset where no record was. -/
def run (body : Nat → τ → σ → Outcome ε (Turn σ ρ)) : (turns offset : Nat) → σ → Outcome ε (Turn (Nat × σ) ρ)
  | 0, _, _ => .panic
  | turns + 1, offset, state => do
    match ← read offset with
    | none => return .next (offset, state)
    | some record =>
      match ← body offset record state with
      | .finished result => return .finished result
      | .next state => run body turns (after record) state

/-- A loop that only looks for a record, and returns what it made of the first that passes. -/
def find (test : τ → Option ρ) (turns offset : Nat) : Outcome ε (Option ρ) := do
  let turn ← run read after
    (fun _ record (_ : Unit) => return match test record with
      | some result => .finished result
      | none => .next ()) turns offset ()
  return turn.found?

/-- The records before `stop`, each of which must be there: `while offset < stop`. -/
def before (missing : ε) (stop offset : Nat) : Outcome ε (Option τ) :=
  if offset < stop then do
    let record ← Outcome.okOr (← read offset) missing
    return some record
  else
    return none

/-- The records read one after the other from an offset on, each with its offset, and the
offset after the last. -/
inductive Chain : Nat → List (Nat × τ) → Nat → Prop
  | nil (offset : Nat) : Chain offset [] offset
  | cons {offset stop : Nat} {record : τ} {records : List (Nat × τ)} (hread : read offset = .ok (some record))
    (hrest : Chain (after record) records stop) : Chain offset ((offset, record) :: records) stop

/-- The loop over the records already read. -/
def along (body : Nat → τ → σ → Outcome ε (Turn σ ρ)) (stop : Nat) :
    List (Nat × τ) → σ → Outcome ε (Turn (Nat × σ) ρ)
  | [], state => .ok (.next (stop, state))
  | (offset, record) :: rest, state => do
    match ← body offset record state with
    | .finished result => return .finished result
    | .next state => along body stop rest state

end Loops

section Chains

variable {read : Nat → Outcome ε (Option τ)} {after : τ → Nat} {start offset stop : Nat} {record : τ}
  {records : List (Nat × τ)}

theorem Chain.snoc (hchain : Chain read after start records offset) (hread : read offset = .ok (some record)) :
    Chain read after start (records ++ [(offset, record)]) (after record) := by
  induction hchain with
  | nil offset => exact .cons hread (.nil _)
  | cons hfirst hrest ih => exact .cons hfirst (ih hread)

theorem Chain.read_of_mem (hchain : Chain read after start records stop) (hmem : (offset, record) ∈ records) :
    read offset = .ok (some record) := by
  induction hchain with
  | nil => exact absurd hmem List.not_mem_nil
  | cons hread hrest ih =>
    obtain hsame | hmem := List.mem_cons.mp hmem
    · obtain ⟨rfl, rfl⟩ := Prod.mk.inj hsame
      exact hread
    · exact ih hmem

/-- The part of a chain before one of its records. -/
theorem Chain.split {done rest : List (Nat × τ)}
    (hchain : Chain read after start (done ++ (offset, record) :: rest) stop) :
    Chain read after start done offset ∧ read offset = .ok (some record) := by
  induction done generalizing start with
  | nil =>
    cases hchain with
    | cons hread _ => exact ⟨.nil _, hread⟩
  | cons first done ih =>
    cases hchain with
    | cons hread hrest =>
      obtain ⟨hdone, hlast⟩ := ih hrest
      exact ⟨.cons hread hdone, hlast⟩

/-- What is read from one offset depends on the offset alone: of two chains, one goes on
where the other stops. -/
theorem Chain.unique {other : List (Nat × τ)} (hchain : Chain read after start records stop)
    (hother : Chain read after start other offset) (hend : read stop = .ok none) :
    ∃ rest, records = other ++ rest ∧ Chain read after offset rest stop := by
  induction hother generalizing records with
  | nil => exact ⟨records, rfl, hchain⟩
  | cons hread hrest ih =>
    cases hchain with
    | nil => rw [hread] at hend; cases hend
    | cons hread' hrest' =>
      rw [hread, Outcome.ok.injEq, Option.some.injEq] at hread'
      subst hread'
      obtain ⟨rest, rfl, htail⟩ := ih hrest'
      exact ⟨rest, rfl, htail⟩

section Ascending

variable (hascending : ∀ offset record, read offset = .ok (some record) → offset < after record)
include hascending

theorem Chain.length_le (hchain : Chain read after start records stop) : start + records.length ≤ stop := by
  induction hchain with
  | nil => simp
  | cons hread _ ih =>
    have hstep := hascending _ _ hread
    rw [List.length_cons]
    omega

/-- The records of a chain are also those before its end. -/
theorem Chain.before (hchain : Chain read after start records stop) (missing : ε) :
    Chain (Scan.before read missing stop) after start records stop := by
  induction hchain with
  | nil => exact .nil _
  | cons hread hrest ih =>
    refine .cons ?_ ih
    have hstep := hascending _ _ hread
    have hlater := hrest.length_le hascending
    rw [Scan.before, if_pos (by omega), hread]
    rfl

end Ascending

theorem before_self (read : Nat → Outcome ε (Option τ)) (missing : ε) (stop : Nat) :
    before read missing stop stop = .ok none := by
  rw [before, if_neg (Nat.lt_irrefl stop)]
  rfl

end Chains

section Runs

variable {read : Nat → Outcome ε (Option τ)} {after : τ → Nat} {body : Nat → τ → σ → Outcome ε (Turn σ ρ)}
  {start offset stop turns : Nat} {records done : List (Nat × τ)} {state final : σ} {test : τ → Option ρ}
  {I : List (Nat × τ) → σ → Prop}

/-- A loop over records that are all there is the loop over their list. -/
theorem run_eq_along (hchain : Chain read after offset records stop) (hend : read stop = .ok none)
    (hturns : records.length < turns) : run read after body turns offset state = along body stop records state := by
  induction hchain generalizing turns state with
  | nil offset =>
    obtain ⟨turns, rfl⟩ := Nat.exists_eq_add_one_of_ne_zero (Nat.ne_of_gt hturns)
    rw [run, hend]
    rfl
  | @cons offset stop record records hread hrest ih =>
    obtain ⟨turns, rfl⟩ := Nat.exists_eq_add_one_of_ne_zero (Nat.ne_of_gt (Nat.zero_lt_of_lt hturns))
    rw [run, hread, along, Outcome.ok_bind]
    dsimp only
    cases body offset record state with
    | ok turn =>
      cases turn with
      | finished result => rfl
      | next state => exact ih hend (Nat.lt_of_succ_lt_succ hturns)
    | err error => rfl
    | panic => rfl

theorem find_eq_findSome? (hchain : Chain read after offset records stop)
    (hend : read stop = .ok none) (hturns : records.length < turns) :
    find read after test turns offset = .ok (records.findSome? fun record => test record.2) := by
  rw [find, run_eq_along hchain hend hturns]
  clear hchain hturns
  induction records with
  | nil => rfl
  | cons first rest ih =>
    rw [along, List.findSome?_cons]
    cases test first.2 with
    | some result => rfl
    | none => exact ih

/-- Invariants of a loop that runs to its end: `I` speaks of the records met so far. -/
theorem run_next (hstep : ∀ done offset record state state', Chain read after start done offset →
      read offset = .ok (some record) → I done state → body offset record state = .ok (.next state') →
      I (done ++ [(offset, record)]) state') (hchain : Chain read after start done offset) (hstate : I done state)
    (hrun : run read after body turns offset state = .ok (.next (stop, final))) :
    ∃ records, Chain read after start records stop ∧ read stop = .ok none ∧ I records final := by
  induction turns generalizing done offset state with
  | zero => cases hrun
  | succ turns ih =>
    rw [run, Outcome.bind_eq_ok_iff] at hrun
    obtain ⟨found, hread, hrun⟩ := hrun
    cases found with
    | none =>
      cases hrun
      exact ⟨done, hchain, hread, hstate⟩
    | some record =>
      obtain ⟨turn, hbody, hrun⟩ := Outcome.bind_eq_ok_iff.mp hrun
      cases turn with
      | finished result => cases hrun
      | next state' =>
        exact ih (hchain.snoc hread) (hstep done offset record state state' hchain hread hstate hbody) hrun

/-- A loop whose every turn goes on, over the list of its records. -/
theorem along_next (stop : Nat)
    (hstep : ∀ done offset record rest state, records = done ++ (offset, record) :: rest → I done state →
      ∃ state', body offset record state = .ok (.next state') ∧ I (done ++ [(offset, record)]) state')
    (hstate : I [] state) : ∃ final, along body stop records state = .ok (.next (stop, final)) ∧ I records final := by
  suffices hrest : ∀ rest done state, records = done ++ rest → I done state →
      ∃ final, along body stop rest state = .ok (.next (stop, final)) ∧ I records final from
    hrest records [] state rfl hstate
  intro rest
  induction rest with
  | nil =>
    intro done state hsplit hdone
    rw [List.append_nil] at hsplit
    exact ⟨state, rfl, hsplit ▸ hdone⟩
  | cons first rest ih =>
    intro done state hsplit hdone
    obtain ⟨state', hbody, hnext⟩ := hstep done first.1 first.2 rest state hsplit hdone
    obtain ⟨final, hover, hfinal⟩ := ih (done ++ [first]) state' (by rw [hsplit]; simp) hnext
    refine ⟨final, ?_, hfinal⟩
    rw [along, hbody]
    exact hover

section Ending

variable {limit : Nat} (hread : ∀ offset, read offset ≠ .panic)
  (hbounds : ∀ offset record, read offset = .ok (some record) → offset < after record ∧ after record ≤ limit)
include hread hbounds

/-- A loop over records that end before a bound ends itself. -/
theorem run_ne_panic (hbody : ∀ offset record state, read offset = .ok (some record) → body offset record state ≠ .panic)
    (hturns : limit < offset + turns) (hpositive : 0 < turns) : run read after body turns offset state ≠ .panic := by
  induction turns generalizing offset state with
  | zero => exact absurd hpositive (Nat.lt_irrefl 0)
  | succ turns ih =>
    rw [run]
    refine Outcome.bind_ne_panic (hread offset) fun found hfound => ?_
    cases found with
    | none => exact nofun
    | some record =>
      obtain ⟨hafter, hlimit⟩ := hbounds offset record hfound
      refine Outcome.bind_ne_panic (hbody offset record state hfound) fun turn _ => ?_
      cases turn with
      | finished result => exact nofun
      | next state' => exact ih (by omega) (by omega)

theorem find_ne_panic (hturns : limit < offset + turns) (hpositive : 0 < turns) :
    find read after test turns offset ≠ .panic := by
  refine Outcome.bind_ne_panic (run_ne_panic hread hbounds ?_ hturns hpositive) fun turn _ => nofun
  exact fun _ _ _ _ => nofun

end Ending

theorem before_ne_panic (hread : ∀ offset, read offset ≠ .panic) (missing : ε) (stop offset : Nat) :
    before read missing stop offset ≠ .panic := by
  rw [before]
  split_ifs
  · exact Outcome.bind_ne_panic (hread offset) fun found _ =>
      Outcome.bind_ne_panic (Outcome.okOr_ne_panic found missing) fun _ _ => nofun
  · exact nofun

theorem before_eq_ok_some {missing : ε} {record : τ} (hbefore : before read missing stop offset = .ok (some record)) :
    read offset = .ok (some record) := by
  rw [before] at hbefore
  split_ifs at hbefore
  · simp only [Outcome.bind_eq_ok_iff, Outcome.okOr_eq_ok_iff, Outcome.pure_eq_ok_iff, Option.some.injEq] at hbefore
    obtain ⟨_, hread, _, rfl, rfl⟩ := hbefore
    exact hread
  · cases hbefore

end Runs

end Scan
