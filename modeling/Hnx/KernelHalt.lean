/-!
# Calls that do not return

A kernel call that does not return is an error of the state monad, so its state stays visible.
-/

namespace HnxKernel

inductive Halt
  | panic (message : String)
  | panicHex (message : String) (value : Nat)
  | divideError
  | hang
deriving DecidableEq, Repr

abbrev Outcome (State Value : Type) := EStateM.Result Halt State Value

section Steps

variable {State Value Result : Type} {c : EStateM Halt State Value}
  {r : Value → EStateM Halt State Result} {st next : State} {val : Value}

theorem bind_of_ok (ret : c st = .ok val next) : (c >>= r) st = r val next := by
  change EStateM.bind c r st = _
  rw [EStateM.bind, ret]

theorem bind_of_error {halt : Halt} (halted : c st = .error halt next) :
    (c >>= r) st = .error halt next := by
  change EStateM.bind c r st = _
  rw [EStateM.bind, halted]

theorem ok_of_bind {res : Result} (ret : (c >>= r) st = .ok res next) :
    ∃ val mid, c st = .ok val mid ∧ r val mid = .ok res next := by
  cases fst : c st with
  | ok val mid =>
    rw [bind_of_ok fst] at ret
    exact ⟨val, mid, rfl, ret⟩
  | error =>
    rw [bind_of_error fst] at ret
    cases ret

theorem get_bind (r : State → EStateM Halt State Result) (st : State) : (get >>= r) st = r st st :=
  rfl

theorem modify_bind (update : State → State) (r : Unit → EStateM Halt State Result)
    (st : State) : (modify update >>= r) st = r () (update st) :=
  rfl

end Steps

namespace Outcome

variable {State Item : Type}

def forEach (body : Item → EStateM Halt State Unit) : List Item → EStateM Halt State Unit
  | [] => return ()
  | item :: items => do
    body item
    forEach body items

variable {body : Item → EStateM Halt State Unit} {st : State}

theorem forEach_cons_of_ok {item : Item} {items : List Item} {next : State}
    (ret : body item st = .ok () next) :
    forEach body (item :: items) st = forEach body items next := by
  rw [forEach]
  exact bind_of_ok ret

theorem forEach_map {Source : Type} (rename : Source → Item) (items : List Source) :
    forEach body (items.map rename) = forEach (fun item => body (rename item)) items := by
  induction items with
  | nil => rfl
  | cons _ _ ih => rw [List.map_cons, forEach, forEach, ih]

def returnsWith {Value : Type} (outcome : Outcome State Value) (check : Value → State → Bool) :
    Bool :=
  match outcome with
  | .ok val next => check val next
  | .error _ _ => false

theorem exists_of_returnsWith {Value : Type} {out : Outcome State Value}
    {check : Value → State → Bool} (passed : returnsWith out check = true) :
    ∃ val next, out = .ok val next ∧ check val next = true := by
  cases out with
  | ok val next => exact ⟨val, next, rfl, passed⟩
  | error => simp [returnsWith] at passed

end Outcome

end HnxKernel
