import LeafOS.Support.Prog

/-- The questions a program can put to its surroundings, and the answers each one can get. -/
structure Interface where
  Question : Type
  Answer : Question → Type

/-- A program that can only ask questions. What an answer is depends on the surroundings,
and a question that they refuse ends the program. -/
inductive Inquiry (E : Interface) (ε α : Type) where
  | done (outcome : Outcome ε α)
  | ask (question : E.Question) (next : E.Answer question → Inquiry E ε α)

namespace Inquiry

variable {E : Interface} {σ ε α β : Type} {value : α}

protected def bind (inquiry : Inquiry E ε α) (next : α → Inquiry E ε β) : Inquiry E ε β :=
  match inquiry with
  | .done (.ok value) => next value
  | .done (.err error) => .done (.err error)
  | .done .panic => .done .panic
  | .ask question rest => .ask question fun answer => (rest answer).bind next

instance : Monad (Inquiry E ε) where
  pure value := .done (.ok value)
  bind := Inquiry.bind

/-- A computation that asks nothing. -/
instance : MonadLift (Outcome ε) (Inquiry E ε) where
  monadLift := .done

/-- One question, and its answer. -/
def question (question : E.Question) : Inquiry E ε (E.Answer question) := .ask question pure

/-- The inquiry over a state, given how each question is dealt with there. -/
def run (handler : ∀ question, Prog σ ε (E.Answer question)) : Inquiry E ε α → Prog σ ε α
  | .done outcome => fun state => (outcome, state)
  | .ask question next => handler question >>= fun answer => (next answer).run handler

/-- The outcome when every question gets a fixed answer. -/
def denote (answers : ∀ question, E.Answer question) : Inquiry E ε α → Outcome ε α
  | .done outcome => outcome
  | .ask question next => (next (answers question)).denote answers

/-- Whatever is answered, only the given questions are asked, and the outcome is safe. -/
def Safe (Asks : E.Question → Prop) (Bad : ε → Prop) (Q : α → Prop) : Inquiry E ε α → Prop
  | .done outcome => outcome.Safe Bad Q
  | .ask question next => Asks question ∧ ∀ answer, (next answer).Safe Asks Bad Q

section Denote

variable {answers : ∀ question, E.Answer question}

@[simp] theorem denote_pure (value : α) : (pure value : Inquiry E ε α).denote answers = .ok value := rfl

@[simp] theorem denote_lift (outcome : Outcome ε α) :
    (liftM outcome : Inquiry E ε α).denote answers = outcome := rfl

@[simp] theorem denote_question (asked : E.Question) :
    (question asked : Inquiry E ε _).denote answers = .ok (answers asked) := rfl

@[simp] theorem denote_bind (inquiry : Inquiry E ε α) (next : α → Inquiry E ε β) :
    (inquiry >>= next).denote answers = inquiry.denote answers >>= fun value => (next value).denote answers := by
  induction inquiry with
  | done outcome => cases outcome <;> rfl
  | ask asked rest ih => exact ih (answers asked)

end Denote

section Safe

variable {Asks : E.Question → Prop} {Bad : ε → Prop} {Q : α → Prop}

theorem Safe.mono {inquiry : Inquiry E ε α} {R : α → Prop} (hsafe : inquiry.Safe Asks Bad Q)
    (hweaker : ∀ value, Q value → R value) : inquiry.Safe Asks Bad R := by
  induction inquiry with
  | done outcome => exact Outcome.Safe.mono hsafe hweaker
  | ask asked rest ih => exact ⟨hsafe.1, fun answer => ih answer (hsafe.2 answer)⟩

@[simp] theorem safe_bind {inquiry : Inquiry E ε α} {next : α → Inquiry E ε β} {R : β → Prop} :
    (inquiry >>= next).Safe Asks Bad R ↔ inquiry.Safe Asks Bad fun value => (next value).Safe Asks Bad R := by
  induction inquiry with
  | done outcome => cases outcome <;> exact Iff.rfl
  | ask asked rest ih => exact and_congr_right fun _ => forall_congr' ih

@[simp] theorem safe_pure : (pure value : Inquiry E ε α).Safe Asks Bad Q ↔ Q value := Iff.rfl

@[simp] theorem safe_lift {outcome : Outcome ε α} :
    (liftM outcome : Inquiry E ε α).Safe Asks Bad Q ↔ outcome.Safe Bad Q := Iff.rfl

@[simp] theorem safe_question {asked : E.Question} {Q : E.Answer asked → Prop} :
    (question asked : Inquiry E ε _).Safe Asks Bad Q ↔ Asks asked ∧ ∀ answer, Q answer := Iff.rfl

end Safe

section Run

variable {handler : ∀ question, Prog σ ε (E.Answer question)} {I : σ → Prop} {state : σ}

theorem run_maintains {I : σ → Prop} (hhandler : ∀ question, Prog.Maintains I (handler question))
    (inquiry : Inquiry E ε α) : Prog.Maintains I (inquiry.run handler) := by
  induction inquiry with
  | done outcome => exact .constant outcome
  | ask asked rest ih => exact (hhandler asked).bind ih

/-- A run over states in which every answer that is given is the fixed one yields the fixed
outcome, and ends in such a state. -/
theorem run_ok {answers : ∀ question, E.Answer question}
    (hhandler : ∀ question state answer after, I state → handler question state = (.ok answer, after) →
      answer = answers question ∧ I after) {inquiry : Inquiry E ε α} {after : σ} (hstate : I state)
    (hrun : inquiry.run handler state = (.ok value, after)) : inquiry.denote answers = .ok value ∧ I after := by
  induction inquiry generalizing state with
  | done outcome =>
    obtain ⟨rfl, rfl⟩ := Prod.mk.inj hrun
    exact ⟨rfl, hstate⟩
  | ask asked rest ih =>
    simp only [run, Prog.bind_apply] at hrun
    generalize hasked : handler asked state = result at hrun
    rcases result with ⟨answer | error | _, middle⟩
    · obtain ⟨rfl, hmiddle⟩ := hhandler asked state answer middle hstate hasked
      exact ih _ hmiddle hrun
    · cases hrun
    · cases hrun

/-- When every question that an inquiry can ask is answered, the run has the fixed outcome. -/
theorem run_eq_denote {Asks : E.Question → Prop} {Bad : ε → Prop} {Q : α → Prop}
    {answers : ∀ question, E.Answer question} (hhandler : ∀ question state, Asks question → I state →
      ∃ after, handler question state = (.ok (answers question), after) ∧ I after) {inquiry : Inquiry E ε α}
    (hsafe : inquiry.Safe Asks Bad Q) (hstate : I state) :
    ∃ after, inquiry.run handler state = (inquiry.denote answers, after) ∧ I after := by
  induction inquiry generalizing state with
  | done outcome => exact ⟨state, rfl, hstate⟩
  | ask asked rest ih =>
    obtain ⟨middle, hasked, hmiddle⟩ := hhandler asked state hsafe.1 hstate
    obtain ⟨after, hrest, hafter⟩ := ih (answers asked) (hsafe.2 _) hmiddle
    refine ⟨after, ?_, hafter⟩
    simp only [run, Prog.bind_apply, hasked]
    exact hrest

end Run

end Inquiry
