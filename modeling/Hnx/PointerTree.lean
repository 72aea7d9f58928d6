import Mathlib.Data.List.Infix

/-!
# Trees of pointers

A path of indices leads from a root to a node, and the store is a tree on a set of paths when no
two of them lead to the same node.
-/

namespace HnxKernel

namespace PointerTree

variable {Node Index : Type} {c o : Node → Index → Option Node} {r : Node}

def descend (child : Node → Index → Option Node) (root : Node) (path : List Index) : Option Node :=
  path.foldlM child root

@[simp]
lemma descend_nil : descend c r [] = some r := rfl

variable {i : Index} {path : List Index}

lemma descend_cons : descend c r (i :: path) = (c r i).bind fun node => descend c node path :=
  rfl

lemma descend_append {pre after : List Index} :
    descend c r (pre ++ after) = (descend c r pre).bind fun node => descend c node after := by
  simp [descend, List.foldlM_append]

lemma descend_concat :
    descend c r (path ++ [i]) = (descend c r path).bind fun node => c node i := by
  rw [descend_append]
  congr 1
  ext node
  simp [descend]

lemma descend_congr (agree : ∀ pre i n, pre ++ [i] <+: path →
      descend c r pre = some n → o n i = c n i) :
    descend o r path = descend c r path := by
  induction path generalizing r with
  | nil => rfl
  | cons first _ ih =>
    have edge1 : o r first = c r first := agree [] first r (by simp) rfl
    rw [descend_cons, descend_cons, edge1]
    cases next : c r first with
    | none => rfl
    | some =>
      apply ih
      intro pre i inner isPrefix reach
      refine agree (first :: pre) i inner ?_ ?_
      · simpa using isPrefix
      rw [descend_cons, next]
      exact reach

def IsTree (child : Node → Index → Option Node) (root : Node) (paths : List Index → Prop) : Prop :=
  ∀ fst snd node, paths fst → paths snd → descend child root fst = some node →
    descend child root snd = some node → fst = snd

variable {paths : List Index → Prop} {spot : List Index} {s : Index} {parent : Node}

lemma IsTree.descend_of_avoids (t : IsTree c r paths) (spotPath : paths spot)
    (reach : descend c r spot = some parent)
    (eq : ∀ path n i, paths path → descend c r path = some n → (n, i) ≠ (parent, s) → o n i = c n i)
    (mem : ∀ pre i, pre ++ [i] <+: path → paths pre) (avoids : ¬ spot ++ [s] <+: path) :
    descend o r path = descend c r path := by
  apply descend_congr
  intro pre i n isPrefix atPre
  have beforePath := mem pre i isPrefix
  apply eq pre n i beforePath atPre
  intro equal
  obtain ⟨nodeEq, indexEq⟩ := Prod.mk.inj equal
  subst nodeEq
  subst indexEq
  have pathEq := t pre spot n beforePath spotPath atPre reach
  subst pathEq
  exact avoids isPrefix

end PointerTree

end HnxKernel
