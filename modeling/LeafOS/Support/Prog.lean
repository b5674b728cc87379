import Mathlib.Algebra.GroupWithZero.Nat
import Mathlib.Logic.Basic
import Mathlib.Logic.Relation

/-- How a Rust call ends: with a value, with an error the caller sees, or with
a panic that nobody catches. -/
inductive Outcome (ε α : Type) where
  | ok (value : α)
  | err (error : ε)
  | panic
deriving Repr, DecidableEq

namespace Outcome

variable {ε α β : Type} {outcome : Outcome ε α} {next : α → Outcome ε β} {error : ε} {value : Option α}
  {condition : Bool} {result : Unit} {body : α → Outcome ε Unit} {items : List α}

protected def bind (outcome : Outcome ε α) (next : α → Outcome ε β) : Outcome ε β :=
  match outcome with
  | .ok value => next value
  | .err error => .err error
  | .panic => .panic

/-- A Rust function without a state of its own. -/
instance : Monad (Outcome ε) where
  pure := .ok
  bind := Outcome.bind

/-- `Option::ok_or(error)?`. -/
def okOr (value : Option α) (error : ε) : Outcome ε α :=
  match value with
  | some value => .ok value
  | none => .err error

/-- `Option::expect`, and the operators that panic on overflow. -/
def expect (value : Option α) : Outcome ε α :=
  match value with
  | some value => .ok value
  | none => .panic

/-- `if condition { return Err(error) }`. -/
def refuse (condition : Bool) (error : ε) : Outcome ε Unit :=
  if condition then .err error else .ok ()

/-- A value that is there only under a condition, such as an index in bounds. -/
def guarded (condition : Prop) [Decidable condition] (value : α) : Outcome ε α :=
  if condition then .ok value else .panic

/-- Arithmetic that panics when it leaves the range of its type. -/
def unchecked (condition : Prop) [Decidable condition] : Outcome ε Unit := guarded condition ()

/-- `for item in items { body }`. -/
def forEach (items : List α) (body : α → Outcome ε Unit) : Outcome ε Unit :=
  match items with
  | [] => .ok ()
  | item :: rest => do
    body item
    forEach rest body

@[simp] theorem ok_bind {value : α} : (Outcome.ok value >>= next) = next value := rfl

@[simp] theorem err_bind : (Outcome.err error >>= next) = .err error := rfl

@[simp] theorem okOr_some {value : α} : okOr (some value) error = .ok value := rfl

@[simp] theorem okOr_none : okOr (none : Option α) error = .err error := rfl

@[simp] theorem refuse_true : refuse true error = .err error := rfl

@[simp] theorem refuse_false : refuse false error = .ok () := rfl

theorem bind_assoc {γ : Type} {last : β → Outcome ε γ} :
    (outcome >>= next >>= last) = outcome >>= fun value => next value >>= last := by
  cases outcome <;> rfl

theorem bind_eq_ok_iff {result : β} :
    (outcome >>= next) = .ok result ↔ ∃ value, outcome = .ok value ∧ next value = .ok result := by
  cases outcome <;> simp [bind, Outcome.bind]

theorem pure_eq_ok_iff {value result : α} : (pure value : Outcome ε α) = .ok result ↔ value = result := by
  simp [pure]

theorem okOr_eq_ok_iff {result : α} : okOr value error = .ok result ↔ value = some result := by
  cases value <;> simp [okOr]

theorem expect_eq_ok_iff {result : α} : (expect value : Outcome ε α) = .ok result ↔ value = some result := by
  cases value <;> simp [expect]

theorem refuse_eq_ok_iff : refuse condition error = .ok result ↔ condition = false := by
  cases condition <;> simp [refuse]

theorem guarded_eq_ok_iff {condition : Prop} [Decidable condition] {value result : α} :
    (guarded condition value : Outcome ε α) = .ok result ↔ condition ∧ value = result := by
  unfold guarded
  by_cases hcondition : condition <;> simp [hcondition]

theorem unchecked_eq_ok_iff {condition : Prop} [Decidable condition] :
    (unchecked condition : Outcome ε Unit) = .ok result ↔ condition := by
  simp [unchecked, guarded_eq_ok_iff]

theorem forEach_eq_ok_iff : forEach items body = .ok result ↔ ∀ item ∈ items, body item = .ok () := by
  induction items with
  | nil => simp [forEach]
  | cons item rest ih =>
    simp only [forEach, bind_eq_ok_iff, ih, List.forall_mem_cons]
    exact ⟨fun ⟨(), hfirst, hrest⟩ => ⟨hfirst, hrest⟩, fun ⟨hfirst, hrest⟩ => ⟨(), hfirst, hrest⟩⟩

theorem bind_ne_panic (hfirst : outcome ≠ .panic)
    (hnext : ∀ value, outcome = .ok value → next value ≠ .panic) : (outcome >>= next) ≠ .panic := by
  cases outcome with
  | ok value => exact hnext value rfl
  | err error => exact nofun
  | panic => exact absurd rfl hfirst

theorem forEach_ne_panic (hbody : ∀ item ∈ items, body item ≠ .panic) : forEach items body ≠ .panic := by
  induction items with
  | nil => exact nofun
  | cons item rest ih =>
    obtain ⟨hfirst, hrest⟩ := List.forall_mem_cons.mp hbody
    exact bind_ne_panic hfirst fun _ _ => ih hrest

theorem okOr_ne_panic (value : Option α) (error : ε) : okOr value error ≠ .panic := by
  cases value <;> exact nofun

theorem refuse_ne_panic (condition : Bool) (error : ε) : refuse condition error ≠ .panic := by
  cases condition <;> exact nofun

theorem okOr_bind_ne_panic (hnext : ∀ result, next result ≠ .panic) : (okOr value error >>= next) ≠ .panic :=
  bind_ne_panic (okOr_ne_panic value error) fun result _ => hnext result

theorem refuse_bind_ne_panic {next : Unit → Outcome ε β} (hnext : next () ≠ .panic) :
    (refuse condition error >>= next) ≠ .panic :=
  bind_ne_panic (refuse_ne_panic condition error) fun _ _ => hnext

/-- No panic, no error of the given kind, and a value only with the given property. -/
def Safe (Bad : ε → Prop) (Q : α → Prop) : Outcome ε α → Prop
  | .ok value => Q value
  | .err error => ¬ Bad error
  | .panic => False

section Safe

variable {Bad : ε → Prop} {Q : α → Prop}

theorem Safe.mono {R : α → Prop} (hsafe : outcome.Safe Bad Q)
    (hweaker : ∀ value, Q value → R value) : outcome.Safe Bad R := by
  cases outcome with
  | ok value => exact hweaker value hsafe
  | err error | panic => exact hsafe

theorem Safe.ne_panic (hsafe : outcome.Safe Bad Q) : outcome ≠ .panic := by
  rintro rfl
  exact hsafe

theorem Safe.ne_err (hsafe : outcome.Safe Bad Q) (hbad : Bad error) : outcome ≠ .err error := by
  rintro rfl
  exact hsafe hbad

@[simp] theorem safe_bind {R : β → Prop} :
    (outcome >>= next).Safe Bad R ↔ outcome.Safe Bad fun value => (next value).Safe Bad R := by
  cases outcome <;> rfl

@[simp] theorem safe_pure {value : α} : (pure value : Outcome ε α).Safe Bad Q ↔ Q value := Iff.rfl

theorem safe_okOr (herror : ¬ Bad error) :
    (okOr value error).Safe Bad Q ↔ ∀ result, value = some result → Q result := by
  cases value <;> simp [okOr, Safe, herror]

theorem safe_refuse {Q : Unit → Prop} (herror : ¬ Bad error) :
    (refuse condition error).Safe Bad Q ↔ (condition = false → Q ()) := by
  cases condition <;> simp [refuse, Safe, herror]

@[simp] theorem safe_guarded {condition : Prop} [Decidable condition] {value : α} :
    (guarded condition value : Outcome ε α).Safe Bad Q ↔ condition ∧ Q value := by
  unfold guarded
  by_cases hcondition : condition <;> simp [hcondition, Safe]

@[simp] theorem safe_unchecked {condition : Prop} [Decidable condition] {Q : Unit → Prop} :
    (unchecked condition : Outcome ε Unit).Safe Bad Q ↔ condition ∧ Q () :=
  safe_guarded

end Safe

/-- Two calls that end alike: with related values, or in the same failure. -/
inductive Alike (R : α → β → Prop) : Outcome ε α → Outcome ε β → Prop
  | ok {value : α} {other : β} (hvalues : R value other) : Alike R (.ok value) (.ok other)
  | err (error : ε) : Alike R (.err error) (.err error)
  | panic : Alike R .panic .panic

section Alike

variable {α' β' : Type} {R : α → β → Prop} {S : α' → β' → Prop} {other : Outcome ε β} {first : α → Outcome ε α'}

theorem Alike.bind {second : β → Outcome ε β'}
    (halike : Alike R outcome other) (hnext : ∀ value value', R value value' → Alike S (first value) (second value')) :
    Alike S (outcome >>= first) (other >>= second) := by
  cases halike with
  | ok hvalues => exact hnext _ _ hvalues
  | err error => exact .err error
  | panic => exact .panic

/-- Two calls that begin with the same one. -/
theorem Alike.bind_same {second : α → Outcome ε β'}
    (hnext : ∀ value, outcome = .ok value → Alike S (first value) (second value)) :
    Alike S (outcome >>= first) (outcome >>= second) := by
  cases outcome with
  | ok value => exact hnext value rfl
  | err error => exact .err error
  | panic => exact .panic

/-- A call, and the same call whose value is wrapped. -/
theorem Alike.pair {wrap : α → α'} {S : α' → α → Prop} (hwrap : ∀ value, S (wrap value) value) :
    Alike S (outcome >>= fun value => .ok (wrap value)) outcome := by
  cases outcome with
  | ok value => exact .ok (hwrap value)
  | err error => exact .err error
  | panic => exact .panic

theorem Alike.of_ok {value : α} (halike : Alike R (.ok value) other) :
    ∃ value', other = .ok value' ∧ R value value' := by
  cases halike with
  | ok hvalues => exact ⟨_, rfl, hvalues⟩

theorem Alike.eq {other : Outcome ε α} (halike : Alike Eq outcome other) : outcome = other := by
  cases halike with
  | ok hvalues => rw [hvalues]
  | err error => rfl
  | panic => rfl

end Alike

end Outcome

/-- A Rust function over a mutable state. The state of an erroneous run is kept:
`?` returns early, it does not undo what was already done. -/
def Prog (σ ε α : Type) : Type := σ → Outcome ε α × σ

namespace Prog

variable {σ τ ε δ α β : Type} {program : Prog σ ε α} {next : α → Prog σ ε β} {state after : σ} {outcome : Outcome ε α}
  {error : ε} {other : α → Prog σ ε β} {convert : ε → δ}

protected def pure (value : α) : Prog σ ε α := fun state => (.ok value, state)

protected def bind (program : Prog σ ε α) (next : α → Prog σ ε β) : Prog σ ε β := fun state =>
  match program state with
  | (.ok value, after) => next value after
  | (.err error, after) => (.err error, after)
  | (.panic, after) => (.panic, after)

instance : Monad (Prog σ ε) where
  pure := Prog.pure
  bind := Prog.bind

/-- A computation that does not look at the state. -/
instance : MonadLift (Outcome ε) (Prog σ ε) where
  monadLift outcome := fun state => (outcome, state)

/-- `return Err(error)`. -/
def throw (error : ε) : Prog σ ε α := fun state => (.err error, state)

/-- A failed assertion, `expect`, out-of-bounds index or overflowing operator. -/
def panic : Prog σ ε α := fun state => (.panic, state)

def get : Prog σ ε σ := fun state => (.ok state, state)

def set (state : σ) : Prog σ ε Unit := fun _ => (.ok (), state)

def modify (update : σ → σ) : Prog σ ε Unit := fun state => (.ok (), update state)

/-- `Option::ok_or(error)?`. -/
def okOr (value : Option α) (error : ε) : Prog σ ε α :=
  match value with
  | some value => Prog.pure value
  | none => throw error

/-- `Option::expect`. -/
def expect (value : Option α) : Prog σ ε α :=
  match value with
  | some value => Prog.pure value
  | none => panic

/-- `assert!`. -/
def assert (condition : Bool) : Prog σ ε Unit :=
  if condition then Prog.pure () else panic

/-- The `Result` itself, for a caller that inspects it instead of using `?`. -/
def attempt (program : Prog σ ε α) : Prog σ δ (Except ε α) := fun state =>
  match program state with
  | (.ok value, after) => (.ok (.ok value), after)
  | (.err error, after) => (.ok (.error error), after)
  | (.panic, after) => (.panic, after)

/-- `map_err`. -/
def mapErr (convert : ε → δ) (program : Prog σ ε α) : Prog σ δ α := fun state =>
  match program state with
  | (.ok value, after) => (.ok value, after)
  | (.err error, after) => (.err (convert error), after)
  | (.panic, after) => (.panic, after)

/-- Run a program on one component of a larger state. -/
def zoom (view : τ → σ) (put : σ → τ → τ) (program : Prog σ ε α) : Prog τ ε α := fun state =>
  match program (view state) with
  | (outcome, after) => (outcome, put after state)

@[simp] theorem pure_apply (value : α) : (pure value : Prog σ ε α) state = (.ok value, state) := rfl

@[simp] theorem bind_apply :
    (program >>= next) state =
      match program state with
      | (.ok value, after) => next value after
      | (.err error, after) => (.err error, after)
      | (.panic, after) => (.panic, after) := rfl

@[simp] theorem lift_apply : (liftM outcome : Prog σ ε α) state = (outcome, state) := rfl

@[simp] theorem throw_apply : (throw error : Prog σ ε α) state = (.err error, state) := rfl

@[simp] theorem panic_apply : (panic : Prog σ ε α) state = (.panic, state) := rfl

@[simp] theorem get_apply : (get : Prog σ ε σ) state = (.ok state, state) := rfl

@[simp] theorem set_apply : (set after : Prog σ ε Unit) state = (.ok (), after) := rfl

@[simp] theorem modify_apply (update : σ → σ) :
    (modify update : Prog σ ε Unit) state = (.ok (), update state) := rfl

@[simp] theorem okOr_some (value : α) : okOr (some value) error state = (.ok value, state) := rfl

@[simp] theorem okOr_none : (okOr none error : Prog σ ε α) state = (.err error, state) := rfl

@[simp] theorem expect_some (value : α) :
    (expect (some value) : Prog σ ε α) state = (.ok value, state) := rfl

@[simp] theorem expect_none : (expect none : Prog σ ε α) state = (.panic, state) := rfl

@[simp] theorem assert_true : (assert true : Prog σ ε Unit) state = (.ok (), state) := rfl

/-- A run whose outcome has been computed. -/
theorem run_of_outcome (houtcome : (program state).1 = outcome) : program state = (outcome, (program state).2) := by
  rw [← houtcome]

/-- A sequence succeeds when both parts do. -/
theorem bind_eq_ok_iff {result : β} :
    (program >>= next) state = (.ok result, after) ↔
      ∃ value between, program state = (.ok value, between) ∧ next value between = (.ok result, after) := by
  rw [bind_apply]
  rcases program state with ⟨value | error | _, between⟩
  · constructor
    · exact fun hnext => ⟨value, between, rfl, hnext⟩
    · rintro ⟨_, _, hsame, hnext⟩
      cases hsame
      exact hnext
  · exact ⟨nofun, nofun⟩
  · exact ⟨nofun, nofun⟩

theorem mapErr_eq_ok_iff {result : α} :
    mapErr convert program state = (.ok result, after) ↔ program state = (.ok result, after) := by
  unfold mapErr
  rcases program state with ⟨value | error | _, between⟩
  · constructor <;> (intro hsame; cases hsame; rfl)
  · exact ⟨nofun, nofun⟩
  · exact ⟨nofun, nofun⟩

theorem discard_snd (program : Prog σ ε α) (state : σ) :
    ((discard program : Prog σ ε Unit) state).2 = (program state).2 := by
  simp only [discard, Functor.mapConst, Function.comp, Prog.bind]
  split <;> simp_all [Prog.pure]

theorem discard_ok {value : α} (hrun : program state = (.ok value, after)) :
    (discard program : Prog σ ε Unit) state = (.ok (), after) := by
  simp only [discard, Functor.mapConst, Function.comp, Prog.bind, hrun]
  rfl

theorem discard_err (hrun : program state = (.err error, after)) :
    (discard program : Prog σ ε Unit) state = (.err error, after) := by
  simp only [discard, Functor.mapConst, Function.comp, Prog.bind, hrun]

/-- A sequence fails in a given way only if one of its parts does. -/
theorem bind_ne_err (hprogram : (program state).1 ≠ .err error)
    (hnext : ∀ value after, program state = (.ok value, after) → (next value after).1 ≠ .err error) :
    ((program >>= next) state).1 ≠ .err error := by
  rw [bind_apply]
  generalize program state = result at hprogram hnext
  rcases result with ⟨value | found | _, after⟩
  · exact hnext value after rfl
  · exact fun hsame => hprogram (congrArg Outcome.err (Outcome.err.inj hsame))
  · nofun

theorem okOr_ne_err (value : Option α) {other : ε} (hother : other ≠ error) :
    ((okOr value other : Prog σ ε α) state).1 ≠ .err error := by
  cases value with
  | none => exact fun hsame => hother (Outcome.err.inj hsame)
  | some value => nofun

theorem expect_ne_err (value : Option α) : ((expect value : Prog σ ε α) state).1 ≠ .err error := by
  cases value <;> nofun

theorem mapErr_ne_err (program : Prog σ ε α) {error : δ} (hconvert : ∀ found, convert found ≠ error) :
    (mapErr convert program state).1 ≠ .err error := by
  unfold mapErr
  rcases program state with ⟨_ | found | _, after⟩
  · nofun
  · exact fun hsame => hconvert found (Outcome.err.inj hsame)
  · nofun

/-- The program keeps a property of the state, whatever it returns. -/
def Maintains (P : σ → Prop) (program : Prog σ ε α) : Prop := ∀ state, P state → P (program state).2

namespace Maintains

variable {P : σ → Prop}

theorem pure (value : α) : Maintains P (Pure.pure value : Prog σ ε α) := fun _ h => h

theorem get : Maintains P (Prog.get : Prog σ ε σ) := fun _ h => h

theorem constant (outcome : Outcome ε α) : Maintains P (fun state => (outcome, state)) := fun _ h => h

theorem okOr (value : Option α) (error : ε) : Maintains P (Prog.okOr value error : Prog σ ε α) := by
  cases value <;> exact .constant _

variable (hprogram : Maintains P program)
include hprogram

theorem bind (hnext : ∀ value, Maintains P (next value)) : Maintains P (program >>= next) := by
  intro state hstate
  have hafter := hprogram state hstate
  rw [bind_apply]
  generalize program state = result at hafter
  rcases result with ⟨value | error | _, after⟩
  · exact hnext value after hafter
  · exact hafter
  · exact hafter

theorem mapErr (convert : ε → δ) : Maintains P (Prog.mapErr convert program) := by
  intro state hstate
  have hafter := hprogram state hstate
  unfold Prog.mapErr
  generalize program state = result at hafter
  rcases result with ⟨value | error | _, after⟩ <;> exact hafter

theorem attempt : Maintains P (Prog.attempt program : Prog σ δ (Except ε α)) := by
  intro state hstate
  have hafter := hprogram state hstate
  unfold Prog.attempt
  generalize program state = result at hafter
  rcases result with ⟨value | error | _, after⟩ <;> exact hafter

theorem discard : Maintains P (Functor.discard program : Prog σ ε Unit) := by
  intro state hstate
  rw [discard_snd]
  exact hprogram state hstate

end Maintains

/-- The program changes the state by steps of a relation only, whatever it returns. -/
def Within (R : σ → σ → Prop) (program : Prog σ ε α) : Prop :=
  ∀ state, Relation.ReflTransGen R state (program state).2

namespace Within

variable {R : σ → σ → Prop}

theorem pure (value : α) : Within R (Pure.pure value : Prog σ ε α) := fun _ => .refl

theorem get : Within R (Prog.get : Prog σ ε σ) := fun _ => .refl

theorem constant (outcome : Outcome ε α) : Within R (fun state => (outcome, state)) := fun _ => .refl

/-- Sequencing from a given state. -/
theorem bind_at (hprogram : Relation.ReflTransGen R state (program state).2)
    (hnext : ∀ value after, program state = (.ok value, after) → Relation.ReflTransGen R after (next value after).2) :
    Relation.ReflTransGen R state ((program >>= next) state).2 := by
  rw [bind_apply]
  generalize program state = result at hprogram hnext
  rcases result with ⟨value | error | _, after⟩
  · exact hprogram.trans (hnext value after rfl)
  · exact hprogram
  · exact hprogram

theorem bind (hprogram : Within R program) (hnext : ∀ value, Within R (next value)) : Within R (program >>= next) :=
  fun state => bind_at (hprogram state) fun value after _ => hnext value after

theorem attempt (hprogram : Within R program) : Within R (Prog.attempt program : Prog σ δ (Except ε α)) := by
  intro state
  have hafter := hprogram state
  unfold Prog.attempt
  generalize program state = result at hafter
  rcases result with ⟨value | error | _, after⟩ <;> exact hafter

theorem discard (hprogram : Within R program) : Within R (Functor.discard program : Prog σ ε Unit) := by
  intro state
  rw [discard_snd]
  exact hprogram state

end Within

end Prog
