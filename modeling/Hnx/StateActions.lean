import Mathlib.Tactic.Common

/-!
# Actions on a state

An action keeps a preorder of states if the state after it is always related to the one before;
one that may not return has an outcome if its fuel suffices.
-/

namespace HnxKernel

section

variable {State Value Result : Type} {relation : State → State → Prop}

def Keeps (relation : State → State → Prop) (action : StateM State Value) : Prop :=
  ∀ st, relation st (action st).2

namespace Keeps

variable [IsPreorder State relation]

lemma pure (val : Value) : Keeps relation (Pure.pure val : StateM State Value) :=
  fun st => refl_of relation st

lemma get : Keeps relation (MonadState.get : StateM State State) := fun st => refl_of relation st

lemma bind {fst : StateM State Value} {next : Value → StateM State Result}
    (keepsFirst : Keeps relation fst) (keepsNext : ∀ val, Keeps relation (next val)) :
    Keeps relation (fst >>= next) :=
  fun st => trans_of relation (keepsFirst st) (keepsNext _ _)

omit [IsPreorder State relation] in
lemma ite {condition : Prop} [Decidable condition] {yes no : StateM State Value}
    (keepsYes : Keeps relation yes) (keepsNo : Keeps relation no) :
    Keeps relation (if condition then yes else no) := by
  split
  · exact keepsYes
  · exact keepsNo

end Keeps

end

variable {State Value Result : Type}

/-- From every state with the precondition, the outcomes of an action have the
postcondition. -/
def Ensures (pre : State → Prop) (action : StateT State Option Value)
    (post : Value → State → Prop) : Prop :=
  ∀ st, pre st → ∀ outcome, action st = some outcome → post outcome.1 outcome.2

namespace PartialAction

variable (st : State)

@[simp] lemma bind_apply (fst : StateT State Option Value)
    (next : Value → StateT State Option Result) :
    (fst >>= next) st = (fst st).bind fun out => next out.1 out.2 :=
  rfl

@[simp] lemma pure_apply (val : Value) :
    (pure val : StateT State Option Value) st = some (val, st) :=
  rfl

@[simp] lemma get_apply : (get : StateT State Option State) st = some (st, st) := rfl

@[simp] lemma set_apply (next : State) :
    (set next : StateT State Option PUnit) st = some (⟨⟩, next) :=
  rfl

@[simp] lemma modify_apply (g : State → State) :
    (modify g : StateT State Option PUnit) st = some (⟨⟩, g st) :=
  rfl

end PartialAction

namespace Ensures

variable {pre : State → Prop} {post : Value → State → Prop}
  {action yes no : StateT State Option Value} {result : Result → State → Prop}

lemma pure {val : Value} (holds : ∀ st, pre st → post val st) :
    Ensures pre (Pure.pure val) post := by
  rintro st before _ ⟨⟩
  exact holds st before

variable {g : State → State} {next : State → StateT State Option Value}

lemma modify_bind {st : State}
    {next : PUnit → StateT State Option Value} (rest : Ensures (· = g st) (next ⟨⟩) post) :
    Ensures (· = st) (modify g >>= next) post := by
  rintro _ rfl
  exact rest _ rfl

lemma get_bind (rest : ∀ st, pre st → Ensures (· = st) (next st) post) :
    Ensures pre (get >>= next) post :=
  fun st before => rest st before st rfl

lemma modify {post : PUnit → State → Prop} (holds : ∀ st, pre st → post ⟨⟩ (g st)) :
    Ensures pre (modify g) post := by
  rintro st before _ ⟨⟩
  exact holds st before

lemma bind {next : Value → StateT State Option Result} (fst : Ensures pre action post)
    (rest : ∀ val, Ensures (post val) (next val) result) : Ensures pre (action >>= next)
      result := by
  intro st before out ret
  obtain ⟨mid, reach, ret⟩ := Option.bind_eq_some_iff.mp ret
  exact rest _ _ (fst st before mid reach) out ret

lemma bind_get (rest : ∀ st, Ensures pre (next st) post) : Ensures pre (get >>= next) post :=
  fun st before => rest st st before

lemma ite {condition : Prop} [Decidable condition] (ifTrue : condition → Ensures pre yes post)
    (ifFalse : ¬condition → Ensures pre no post) :
    Ensures pre (if condition then yes else no) post := by
  split
  · exact ifTrue ‹_›
  · exact ifFalse ‹_›

lemma of_imp {stronger : State → Prop} (ensured : Ensures pre action post)
    (imp : ∀ st, stronger st → pre st) : Ensures stronger action post :=
  fun st before => ensured st (imp st before)

lemma of_and {fact : Prop} (ensured : fact → Ensures pre action post) :
    Ensures (fun st => pre st ∧ fact) action post :=
  fun st before => ensured before.2 st before.1

end Ensures

end HnxKernel
