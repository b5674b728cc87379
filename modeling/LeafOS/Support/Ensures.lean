import LeafOS.Support.Prog

namespace Prog

variable {σ τ ε δ α β : Type}

/-- `for item in items { body }`, where the body may return early with an error. -/
def forEach (items : List α) (body : α → Prog σ ε Unit) : Prog σ ε Unit :=
  match items with
  | [] => pure ()
  | item :: rest => do
    body item
    forEach rest body

/-- How a program ends that starts in a state with the property `P`: with a value as `Q`
says, with an error as `E` says, or in a panic as `B` says. -/
structure Ends (P : σ → Prop) (program : Prog σ ε α) (Q : α → σ → Prop) (E : ε → σ → Prop) (B : σ → Prop) : Prop where
  ends : ∀ state, P state →
    match program state with
    | (.ok value, after) => Q value after
    | (.err error, after) => E error after
    | (.panic, after) => B after

/-- Partial correctness. From a state with the property `P`, a program that does not panic
ends with a value as `Q` says, or with an error as `E` says. -/
abbrev Ensures (P : σ → Prop) (program : Prog σ ε α) (Q : α → σ → Prop) (E : ε → σ → Prop) : Prop :=
  Ends P program Q E fun _ => True

/-- Total correctness: the program does not panic either. -/
abbrev Delivers (P : σ → Prop) (program : Prog σ ε α) (Q : α → σ → Prop) (E : ε → σ → Prop) : Prop :=
  Ends P program Q E fun _ => False

namespace Ends

variable {P R B : σ → Prop} {Q : α → σ → Prop} {E : ε → σ → Prop} {program : Prog σ ε α} {state after : σ} {value : α}
  {error : ε} {S : σ → Prop}

/-- A program that does not panic ends in one of two ways. -/
theorem run (hends : Delivers P program Q E) (hstate : P state) :
    (∃ value after, program state = (.ok value, after) ∧ Q value after) ∨
      ∃ error after, program state = (.err error, after) ∧ E error after := by
  have hafter := hends.ends state hstate
  generalize program state = result at hafter ⊢
  rcases result with ⟨value | error | _, after⟩
  · exact .inl ⟨value, after, rfl, hafter⟩
  · exact .inr ⟨error, after, rfl, hafter⟩
  · exact hafter.elim

section Runs

variable (hends : Ends P program Q E B)
include hends

theorem ok (hstate : P state) (hrun : program state = (.ok value, after)) : Q value after := by
  have hafter := hends.ends state hstate
  rwa [hrun] at hafter

theorem err (hstate : P state) (hrun : program state = (.err error, after)) : E error after := by
  have hafter := hends.ends state hstate
  rwa [hrun] at hafter

theorem mono {S : α → σ → Prop} {F : ε → σ → Prop} (hpre : ∀ state, R state → P state)
    (hpost : ∀ value state, Q value state → S value state)
    (herror : ∀ error state, E error state → F error state) : Ends R program S F B := by
  constructor
  intro state hstate
  have hafter := hends.ends state (hpre state hstate)
  generalize program state = result at hafter ⊢
  rcases result with ⟨value | error | _, after⟩
  · exact hpost value after hafter
  · exact herror error after hafter
  · exact hafter

theorem pre (hpre : ∀ state, R state → P state) : Ends R program Q E B :=
  hends.mono hpre (fun _ _ h => h) fun _ _ h => h

theorem post {S : α → σ → Prop} (hpost : ∀ value state, Q value state → S value state) :
    Ends P program S E B :=
  hends.mono (fun _ h => h) hpost fun _ _ h => h

theorem attempt {F : δ → σ → Prop} :
    Ends P (Prog.attempt program : Prog σ δ (Except ε α))
      (fun result state => match result with
        | .ok value => Q value state
        | .error error => E error state) F B := by
  constructor
  intro state hstate
  have hafter := hends.ends state hstate
  unfold Prog.attempt
  generalize program state = result at hafter ⊢
  rcases result with ⟨value | error | _, after⟩ <;> exact hafter

end Runs

/-- Where it does not matter how the program ends. -/
theorem of_snd (hprogram : ∀ state, P state → S (program state).2) : Ends P program (fun _ => S) (fun _ => S) S := by
  constructor
  intro state hstate
  have hafter := hprogram state hstate
  generalize program state = result at hafter ⊢
  rcases result with ⟨_ | _ | _, after⟩ <;> exact hafter

theorem snd (hends : Ends P program (fun _ => S) (fun _ => S) S) (hstate : P state) : S (program state).2 := by
  have hafter := hends.ends state hstate
  generalize program state = result at hafter ⊢
  rcases result with ⟨_ | _ | _, after⟩ <;> exact hafter

/-- A fact that does not depend on the state can be assumed. -/
theorem assuming {fact : Prop} (hends : fact → Ends P program Q E B) :
    Ends (fun state => fact ∧ P state) program Q E B :=
  ⟨fun state hstate => (hends hstate.1).ends state hstate.2⟩

/-- To verify a program at every state is to verify it at each. -/
theorem at_state (hends : ∀ state, P state → Ends (· = state) program Q E B) : Ends P program Q E B :=
  ⟨fun state hstate => (hends state hstate).ends state rfl⟩

/-- The end is the one that the program reaches from there. -/
theorem traced (hends : Ends (· = state) program Q E B) :
    Ends (· = state) program (fun value after => program state = (.ok value, after) ∧ Q value after) E B := by
  constructor
  rintro _ rfl
  have hafter := hends.ends _ rfl
  generalize program _ = result at hafter ⊢
  rcases result with ⟨value | error | _, after⟩
  · exact ⟨rfl, hafter⟩
  · exact hafter
  · exact hafter

theorem pure : Ends (Q value) (Pure.pure value : Prog σ ε α) Q E B := ⟨fun _ hstate => hstate⟩

theorem skip : Ends P (Pure.pure value : Prog σ ε α) (fun _ => P) E B := ⟨fun _ hstate => hstate⟩

theorem throw : Ends (E error) (Prog.throw error : Prog σ ε α) Q E B := ⟨fun _ hstate => hstate⟩

theorem get : Ends P (Prog.get : Prog σ ε σ) (fun value state => value = state ∧ P state) E B :=
  ⟨fun _ hstate => ⟨rfl, hstate⟩⟩

theorem modify {update : σ → σ} {Q : σ → Prop} :
    Ends (fun state => Q (update state)) (Prog.modify update : Prog σ ε Unit) (fun _ => Q) E B :=
  ⟨fun _ hstate => hstate⟩

theorem okOr {value : Option α} (hnone : ∀ state, P state → value = none → E error state) :
    Ends P (Prog.okOr value error) (fun found state => value = some found ∧ P state) E B := by
  constructor
  intro state hstate
  cases value with
  | none => exact hnone state hstate rfl
  | some found => exact ⟨rfl, hstate⟩

theorem expect {value : Option α} (hnone : ∀ state, P state → value = none → B state) :
    Ends P (Prog.expect value : Prog σ ε α) (fun found state => value = some found ∧ P state) E B := by
  constructor
  intro state hstate
  cases value with
  | none => exact hnone state hstate rfl
  | some found => exact ⟨rfl, hstate⟩

theorem bind {next : α → Prog σ ε β} {S : β → σ → Prop} (hprogram : Ends P program Q E B)
    (hnext : ∀ value, Ends (Q value) (next value) S E B) : Ends P (program >>= next) S E B := by
  constructor
  intro state hstate
  have hafter := hprogram.ends state hstate
  rw [bind_apply]
  generalize program state = result at hafter ⊢
  rcases result with ⟨value | error | _, after⟩
  · exact (hnext value).ends after hafter
  · exact hafter
  · exact hafter

/-- A program on one component of a larger state, all of which is otherwise as it was. -/
theorem zoom {view : τ → σ} {put : σ → τ → τ} {whole : τ} (hends : Delivers (· = view whole) program Q E) :
    Delivers (· = whole) (Prog.zoom view put program) (fun value state => ∃ part, state = put part whole ∧ Q value part)
      (fun error state => ∃ part, state = put part whole ∧ E error part) := by
  constructor
  rintro state rfl
  have hafter := hends.ends _ rfl
  rw [Prog.zoom]
  generalize program (view state) = result at hafter ⊢
  rcases result with ⟨value | error | _, after⟩
  · exact ⟨after, rfl, hafter⟩
  · exact ⟨after, rfl, hafter⟩
  · exact hafter

/-- A program that first reads the state is verified with that state in hand. -/
theorem get_bind {next : σ → Prog σ ε β} {S : β → σ → Prop}
    (hnext : ∀ state, P state → Ends (· = state) (next state) S E B) : Ends P (Prog.get >>= next) S E B :=
  ⟨fun state hstate => (hnext state hstate).ends state rfl⟩

/-- The rule for loops: `I done` holds when the items of `done` have been dealt with. -/
theorem forEach {items : List α} {body : α → Prog σ ε Unit} (I : List α → σ → Prop)
    (hstep : ∀ done item rest, items = done ++ item :: rest →
      Ends (I done) (body item) (fun _ => I (done ++ [item])) E B) :
    Ends (I []) (Prog.forEach items body) (fun _ => I items) E B := by
  suffices h : ∀ done rest, items = done ++ rest →
      Ends (I done) (Prog.forEach rest body) (fun _ => I items) E B from h [] items rfl
  intro done rest
  induction rest generalizing done with
  | nil =>
    intro hitems
    rw [List.append_nil] at hitems
    subst hitems
    exact pure.pre fun _ hdone => hdone
  | cons item rest ih =>
    intro hitems
    apply bind (hstep done item rest hitems)
    intro _
    apply ih (done ++ [item])
    rw [hitems, List.append_assoc, List.singleton_append]

end Ends

/-- A program that only takes steps of a relation, since being reached by them is kept. -/
theorem Within.of_ends {R : σ → σ → Prop} {program : Prog σ ε α}
    (hends : ∀ start, Ends (Relation.ReflTransGen R start) program (fun _ => Relation.ReflTransGen R start)
      (fun _ => Relation.ReflTransGen R start) (Relation.ReflTransGen R start)) : Within R program :=
  fun state => (hends state).snd .refl

end Prog
