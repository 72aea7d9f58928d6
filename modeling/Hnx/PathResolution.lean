import Hnx.HnxfsFormat

/-!
# Path resolution as normalisation

The reference splits a path at its slashes and reduces the parts on a stack.
-/

namespace HnxKernel

open List

abbrev dot : FileName := [46]

abbrev dotDot : FileName := [46, 46]

/-- The component on top of the stack first. Every round but the last consumes a character. -/
def pushComponents : Nat → List FileName → FileName → Option (List FileName)
  | 0, stack, _ => some stack
  | fuel + 1, stack, work =>
    let rest := work.dropWhile (· = slash)
    let comp := rest.takeWhile (· ≠ slash)
    let next := rest.drop comp.length
    if comp = [] then
      some stack
    else if comp = dot then
      pushComponents fuel stack next
    else if comp = dotDot then
      pushComponents fuel stack.tail next
    else if 32 ≤ stack.length then
      none
    else
      pushComponents fuel (comp :: stack) next

def rebuildPath (outSize : Nat) : FileName → List FileName → Option FileName
  | out, [] => some out
  | out, comp :: rest =>
    if outSize ≤ out.length + 1 + comp.length then
      none
    else
      rebuildPath outSize (out ++ slash :: comp) rest

def pathBase (cwd : FileName) : FileName :=
  if cwd = [] then [slash] else cwd

def workingCopy (cwd path : FileName) : FileName :=
  if path.head? = some slash then path else pathBase cwd ++ slash :: path

def pathResolve (cwd path : FileName) (outSize : Nat) : Except Int FileName :=
  if outSize < 2 then
    .error (-sysEinval)
  else if path.head? ≠ some slash ∧ 510 ≤ (pathBase cwd).length then
    .error (-sysEnametoolong)
  else if 512 ≤ (workingCopy cwd path).length then
    .error (-sysEnametoolong)
  else
    match pushComponents (workingCopy cwd path).length [] (workingCopy cwd path) with
    | none => .error (-sysEnametoolong)
    | some [] => .ok [slash]
    | some stack =>
      match rebuildPath outSize [] stack.reverse with
      | none => .error (-sysEnametoolong)
      | some out => .ok out

/-- What follows the last slash. -/
def pathBasename (path : FileName) : FileName := (path.reverse.takeWhile (· ≠ slash)).reverse

/-- The path is given in reverse, and its first character is kept. -/
def dropSlashes : FileName → FileName
  | char :: next :: rest =>
    if char = slash then dropSlashes (next :: rest) else char :: next :: rest
  | short => short

def pathParent (abspath : FileName) (outSize : Nat) : Except Int FileName :=
  if abspath = [] ∨ outSize < 2 then
    .error (-sysEinval)
  else
    let kept := (dropSlashes (abspath.reverse.dropWhile (· ≠ slash))).reverse
    let parent := if kept = [] then abspath.take 1 else kept
    if outSize ≤ parent.length then
      .error (-sysEnametoolong)
    else
      .ok parent

structure Component (comp : FileName) : Prop where
  nonempty : comp ≠ []
  nonzero : (0 : UInt8) ∉ comp
  noSlash : slash ∉ comp
  notDots : ¬ comp.Dots

instance (comp : FileName) : Decidable (Component comp) :=
  decidable_of_iff (comp ≠ [] ∧ (0 : UInt8) ∉ comp ∧ slash ∉ comp ∧ ¬ comp.Dots)
    ⟨fun ⟨nonempty, nonzero, noSlash, notDots⟩ => ⟨nonempty, nonzero, noSlash, notDots⟩,
      fun part => ⟨part.nonempty, part.nonzero, part.noSlash, part.notDots⟩⟩

def joinPath (comps : List FileName) : FileName := comps.flatMap fun comp => slash :: comp

lemma pushComponents_component {fuel : Nat} {stack out : List FileName} {work : FileName}
    (parts : ∀ comp ∈ stack, Component comp) (ne0 : (0 : UInt8) ∉ work)
    (run : pushComponents fuel stack work = some out) : ∀ comp ∈ out, Component comp := by
  induction fuel generalizing stack work with
  | zero =>
    simp only [pushComponents, Option.some.injEq] at run
    rw [← run]
    exact parts
  | succ _ ih =>
    unfold pushComponents at run
    dsimp only at run
    set rest := work.dropWhile (· = slash) with restDef
    set comp := rest.takeWhile (· ≠ slash) with compDef
    have restNe0 : (0 : UInt8) ∉ rest := fun mem => ne0 ((dropWhile_suffix _).subset mem)
    have nextNe0 : (0 : UInt8) ∉ rest.drop comp.length := fun mem => restNe0 (mem_of_mem_drop mem)
    split at run
    · cases run
      exact parts
    rename_i nonempty
    split at run
    · exact ih parts nextNe0 run
    rename_i notDot
    split at run
    · exact ih (fun comp mem => parts comp (mem_of_mem_tail mem)) nextNe0 run
    rename_i notDotDot
    split at run
    · cases run
    refine ih ?_ nextNe0 run
    intro other mem
    rcases mem_cons.mp mem with rfl | old
    · refine ⟨nonempty, ?_, ?_, ?_⟩
      · exact fun zero => restNe0 ((List.takeWhile_prefix _).subset zero)
      · intro isSlash
        have kept := all_eq_true.mp all_takeWhile slash isSlash
        exact of_decide_eq_true kept rfl
      rintro (isDot | isDotDot)
      · exact notDot isDot
      · exact notDotDot isDotDot
    · exact parts other old

lemma workingCopy_nonzero {cwd path : FileName} (cwdNe0 : (0 : UInt8) ∉ cwd)
    (ne0 : (0 : UInt8) ∉ path) : (0 : UInt8) ∉ workingCopy cwd path := by
  have baseNonzero : (0 : UInt8) ∉ pathBase cwd := by
    unfold pathBase
    split
    · decide
    · exact cwdNe0
  unfold workingCopy
  split
  · exact ne0
  · simpa using ⟨baseNonzero, by decide, ne0⟩

def reducePart (stack : List FileName) (part : FileName) : List FileName :=
  if part = [] ∨ part = dot then stack
  else if part = dotDot then stack.tail
  else part :: stack

def reducePath (stack : List FileName) (path : FileName) : List FileName :=
  (path.splitOn slash).foldl reducePart stack

def absolutePath (comps : List FileName) : FileName :=
  if comps = [] then [slash] else joinPath comps

def normalise (path : FileName) : FileName := absolutePath (reducePath [] path).reverse

def requestedPath (cwd path : FileName) : FileName :=
  if path.head? = some slash then path else cwd ++ slash :: path

variable {stack out comps : List FileName} {path work r comp cwd : FileName}
  {k outSize : Nat}

lemma reducePath_append (stack : List FileName) (path r : FileName) :
    reducePath stack (path ++ slash :: r) = reducePath (reducePath stack path) r := by
  have split : (path ++ slash :: r).splitOn slash = path.splitOn slash ++ r.splitOn slash :=
    splitOnP_append_cons path r (beq_self_eq_true slash)
  rw [reducePath, split, foldl_append]
  rfl

lemma reducePath_of_noSlash (noSlash : slash ∉ comp) :
    reducePath stack comp = reducePart stack comp := by
  rw [reducePath, splitOn_eq_singleton noSlash, foldl_cons, foldl_nil]

@[simp]
lemma reducePart_nil : reducePart stack [] = stack := by rw [reducePart, if_pos (.inl rfl)]

@[simp]
lemma reducePath_nil : reducePath stack [] = stack := by
  rw [reducePath_of_noSlash (not_mem_nil), reducePart_nil]

@[simp]
lemma reducePath_slash : reducePath stack (slash :: path) = reducePath stack path := by
  have split := reducePath_append stack [] path
  rwa [nil_append, reducePath_nil] at split

lemma reducePath_dropWhile :
    reducePath stack (path.dropWhile (· = slash)) = reducePath stack path := by
  induction path with
  | nil => rfl
  | cons char _ ih =>
    by_cases isSlash : char = slash
    · rw [dropWhile_cons_of_pos (by simpa using isSlash), ih, isSlash, reducePath_slash]
    · rw [dropWhile_cons_of_neg (by simpa using isSlash)]

lemma reducePath_part (noSlash : slash ∉ comp) (ends : r = [] ∨ r.head? = some slash) :
    reducePath stack (comp ++ r) = reducePath (reducePart stack comp) r := by
  cases r with
  | nil => rw [append_nil, reducePath_of_noSlash noSlash, reducePath_nil]
  | cons char =>
    obtain rfl : char = slash := by simpa using ends
    rw [reducePath_append, reducePath_of_noSlash noSlash, reducePath_slash]

lemma joinPath_cons : joinPath (comp :: comps) = slash :: (comp ++ joinPath comps) := by
  rw [joinPath, flatMap_cons, cons_append]
  rfl

lemma joinPath_ends (comps : List FileName) :
    joinPath comps = [] ∨ (joinPath comps).head? = some slash := by
  cases comps with
  | nil => exact .inl rfl
  | cons => exact .inr (by rw [joinPath_cons, List.head?_cons])

lemma Component.reducePart (part : Component comp) :
    HnxKernel.reducePart stack comp = comp :: stack := by
  have notDots := part.notDots
  rw [FileName.Dots, not_or] at notDots
  rw [HnxKernel.reducePart, if_neg (by simp [part.nonempty, notDots.1]), if_neg notDots.2]

lemma reducePath_joinPath (parts : ∀ comp ∈ comps, Component comp) :
    reducePath stack (joinPath comps) = comps.reverse ++ stack := by
  induction comps generalizing stack with
  | nil => exact reducePath_nil
  | cons comp comps ih =>
    have part := parts comp mem_cons_self
    rw [joinPath_cons, reducePath_slash, reducePath_part part.noSlash (joinPath_ends comps),
      part.reducePart,
      ih fun o mem => parts o (mem_cons_of_mem _ mem),
      reverse_cons, append_assoc, singleton_append]

lemma reducePath_absolutePath (parts : ∀ comp ∈ comps, Component comp) :
    reducePath [] (absolutePath comps) = comps.reverse := by
  rw [absolutePath]
  split
  case isTrue none => rw [none, reducePath_slash, reducePath_nil, reverse_nil]
  case isFalse => rw [reducePath_joinPath parts, append_nil]

/-- A path that does not begin with a slash: its first part and what follows. -/
structure FirstPart (path comp next : FileName) : Prop where
  eq : path = comp ++ next
  noSlash : slash ∉ comp
  ends : next = [] ∨ next.head? = some slash

lemma firstPart_takeWhile (path : FileName) : FirstPart path (path.takeWhile (· ≠ slash))
    (path.drop (path.takeWhile (· ≠ slash)).length) := by
  have whole : path.takeWhile (· ≠ slash) ++ path.dropWhile (· ≠ slash) = path :=
    takeWhile_append_dropWhile
  have drop : path.drop (path.takeWhile (· ≠ slash)).length = path.dropWhile (· ≠ slash) := by
    nth_rewrite 2 [← whole]
    rw [drop_left]
  rw [drop]
  constructor
  case eq => exact whole.symm
  case noSlash =>
    intro mem
    have kept := all_eq_true.mp all_takeWhile slash mem
    exact of_decide_eq_true kept rfl
  case ends =>
    have head := List.head?_dropWhile_not (fun char => decide (char ≠ slash)) path
    cases post : path.dropWhile (· ≠ slash) with
    | nil => exact .inl rfl
    | cons =>
      rw [post] at head
      exact .inr (by simpa using head)

lemma eq_nil_of_takeWhile {path : FileName}
    (none : (path.dropWhile (· = slash)).takeWhile (· ≠ slash) = []) :
    path.dropWhile (· = slash) = [] := by
  have head := List.head?_dropWhile_not (fun char => decide (char = slash)) path
  cases r : path.dropWhile (· = slash) with
  | nil => rfl
  | cons char =>
    rw [r] at head none
    have notSlash : char ≠ slash := by simpa using head
    rw [takeWhile_cons_of_pos (by simpa using notSlash)] at none
    cases none

lemma pushComponents_eq (enough : work.length ≤ k) (room : stack.length ≤ 32)
    (run : pushComponents k stack work = some out) :
    out = reducePath stack work ∧ out.length ≤ 32 := by
  induction k generalizing stack work with
  | zero =>
    obtain rfl : work = [] := length_eq_zero_iff.mp (Nat.le_zero.mp enough)
    obtain rfl : stack = out := by simpa [pushComponents] using run
    exact ⟨reducePath_nil.symm, room⟩
  | succ k ih =>
    rw [← reducePath_dropWhile]
    unfold pushComponents at run
    dsimp only at run
    have none := @eq_nil_of_takeWhile work
    have restLe : (work.dropWhile (· = slash)).length ≤ work.length :=
      (dropWhile_suffix _).length_le
    have fst := firstPart_takeWhile (work.dropWhile (· = slash))
    set r := work.dropWhile (· = slash)
    set comp := r.takeWhile (· ≠ slash)
    set next := r.drop comp.length with nextDef
    rw [fst.eq, reducePath_part fst.noSlash fst.ends]
    split at run
    case isTrue empty =>
      obtain rfl : stack = out := by simpa using run
      have done : next = [] := by rw [nextDef, none empty, drop_nil]
      rw [empty, done, reducePart_nil, reducePath_nil]
      exact ⟨rfl, room⟩
    case isFalse some =>
      have compPos : 0 < comp.length := length_pos_iff.mpr some
      have shorter : next.length ≤ k := by
        rw [nextDef, length_drop]
        omega
      split at run
      case isTrue isDot =>
        rw [reducePart, if_pos (.inr isDot)]
        exact ih shorter room run
      case isFalse notDot =>
        rw [reducePart, if_neg (by simp [some, notDot])]
        split at run
        case isTrue isDotDot =>
          rw [if_pos isDotDot]
          exact ih shorter (by rw [length_tail]; omega) run
        case isFalse notDotDot =>
          rw [if_neg notDotDot]
          split at run
          · cases run
          · exact ih shorter (by rw [length_cons]; omega) run

lemma takeWhile_part (noSlash : slash ∉ comp) (ends : r = [] ∨ r.head? = some slash) :
    (comp ++ r).takeWhile (· ≠ slash) = comp := by
  have all : ∀ char ∈ comp, decide (char ≠ slash) = true := by
    intro char mem
    rw [decide_eq_true_eq]
    rintro rfl
    exact noSlash mem
  rw [takeWhile_append_of_pos all]
  cases r with
  | nil => rw [takeWhile_nil, append_nil]
  | cons char =>
    obtain rfl : char = slash := by simpa using ends
    simp

lemma dropWhile_part (part : Component comp) : (comp ++ r).dropWhile (· = slash) = comp ++ r := by
  obtain ⟨char, comp, rfl⟩ := exists_cons_of_ne_nil part.nonempty
  have notSlash : char ≠ slash := fun same => part.noSlash (same ▸ mem_cons_self)
  rw [cons_append, dropWhile_cons_of_neg (by simpa using notSlash)]

lemma pushComponents_joinPath (parts : ∀ comp ∈ comps, Component comp)
    (room : stack.length + comps.length ≤ 32) (enough : (joinPath comps).length ≤ k) :
    pushComponents k stack (joinPath comps) = some (comps.reverse ++ stack) := by
  induction comps generalizing stack k with
  | nil =>
    cases k with
    | zero => rfl
    | succ => rfl
  | cons comp comps ih =>
    have part := parts comp mem_cons_self
    have notDots := part.notDots
    rw [FileName.Dots, not_or] at notDots
    rw [joinPath_cons, length_cons, length_append] at enough
    rw [length_cons] at room
    cases k with
    | zero => omega
    | succ =>
      have skipped : (joinPath (comp :: comps)).dropWhile (· = slash) = comp ++ joinPath comps := by
        rw [joinPath_cons, dropWhile_cons_of_pos (by simp), dropWhile_part part]
      have taken := takeWhile_part part.noSlash (joinPath_ends comps)
      have others := fun o mem => parts o (mem_cons_of_mem comp mem)
      rw [pushComponents]
      simp only [skipped, taken, drop_left, if_neg part.nonempty, if_neg notDots.1,
        if_neg notDots.2, if_neg (show ¬ 32 ≤ stack.length by omega)]
      rw [ih others (by rw [length_cons]; omega) (by omega), reverse_cons,
        append_assoc, singleton_append]

lemma rebuildPath_iff {written res : FileName} (nonempty : comps ≠ []) :
    rebuildPath outSize written comps = some res ↔
      res = written ++ joinPath comps ∧ res.length < outSize := by
  induction comps generalizing written with
  | nil => exact absurd rfl nonempty
  | cons comp comps ih =>
    have joined : written ++ joinPath (comp :: comps) =
      written ++ slash :: comp ++ joinPath comps := by
      rw [joinPath_cons, append_assoc, cons_append]
    have lengths : (written ++ slash :: comp ++ joinPath comps).length =
      written.length + 1 + comp.length + (joinPath comps).length := by
      simp only [length_append, length_cons]
      omega
    rw [rebuildPath, joined]
    split
    case isTrue full =>
      simp only [reduceCtorEq, false_iff, not_and]
      rintro rfl
      omega
    case isFalse fits =>
      cases comps with
      | nil =>
        rw [rebuildPath, Option.some.injEq, joinPath, flatMap_nil, append_nil]
        constructor
        · rintro rfl
          refine ⟨rfl, ?_⟩
          simp only [length_append, length_cons]
          omega
        rintro ⟨rfl, -⟩
        rfl
      | cons o comps => exact ih (cons_ne_nil o comps)

variable {res : FileName}

lemma pathResolve_ok_iff : pathResolve cwd path outSize = .ok res ↔
    2 ≤ outSize ∧ (path.head? = some slash ∨ (pathBase cwd).length < 510) ∧
      (workingCopy cwd path).length < 512 ∧
      ∃ stack, pushComponents (workingCopy cwd path).length [] (workingCopy cwd path) =
        some stack ∧ res = absolutePath stack.reverse ∧ res.length < outSize := by
  rw [pathResolve]
  split_ifs with small longBase longWork
  · simp only [false_iff]
    omega
  · simp only [false_iff]
    rintro ⟨-, fits, -⟩
    rcases fits with absolute | short
    · exact longBase.1 absolute
    · omega
  · simp only [false_iff]
    omega
  have base : path.head? = some slash ∨ (pathBase cwd).length < 510 := by
    by_contra long
    rw [not_or, not_lt] at long
    exact longBase long
  rw [not_le] at longWork
  cases pushed : pushComponents (workingCopy cwd path).length [] (workingCopy cwd path) with
  | none => simp
  | some stack =>
    cases stack with
    | nil =>
      simp only [Except.ok.injEq, Option.some.injEq, exists_eq_left', absolutePath,
        reverse_nil, if_true]
      constructor
      · rintro rfl
        exact ⟨by omega, base, longWork, rfl, not_lt.mp small⟩
      rintro ⟨-, -, -, rfl, -⟩
      rfl
    | cons top below =>
      have nonempty : (top :: below).reverse ≠ [] := by simp
      have rebuilt := @rebuildPath_iff (top :: below).reverse outSize [] res nonempty
      simp only [Option.some.injEq, exists_eq_left', absolutePath, if_neg nonempty]
      rw [nil_append] at rebuilt
      rw [← rebuilt]
      cases rebuildPath outSize [] (top :: below).reverse with
      | none => simp
      | some =>
        simp only [Except.ok.injEq, Option.some.injEq]
        constructor
        · exact fun same => ⟨by omega, base, longWork, same⟩
        · exact fun facts => facts.2.2.2

lemma reducePath_workingCopy :
    reducePath [] (workingCopy cwd path) = reducePath [] (requestedPath cwd path) := by
  rw [workingCopy, requestedPath]
  split
  · rfl
  rw [pathBase]
  split
  case isTrue none => simp [none]
  case isFalse => rfl

lemma resolved_eq (resolved : pathResolve cwd path outSize = .ok res) :
    res = normalise (requestedPath cwd path) ∧
      (reducePath [] (requestedPath cwd path)).length ≤ 32 := by
  obtain ⟨-, -, -, stack, pushed, same, -⟩ := pathResolve_ok_iff.mp resolved
  obtain ⟨stackEq, few⟩ := pushComponents_eq le_rfl (by simp) pushed
  rw [reducePath_workingCopy] at stackEq
  rw [stackEq] at same few
  exact ⟨same, few⟩

section
variable (cwdNe0 : (0 : UInt8) ∉ cwd) (ne0 : (0 : UInt8) ∉ path)
  (resolved : pathResolve cwd path outSize = .ok res)
include cwdNe0 ne0 resolved

lemma resolved_components :
    ∀ comp ∈ (reducePath [] (requestedPath cwd path)).reverse, Component comp := by
  obtain ⟨-, -, -, stack, pushed, -, -⟩ := pathResolve_ok_iff.mp resolved
  have parts := pushComponents_component (by simp) (workingCopy_nonzero cwdNe0 ne0) pushed
  rw [← reducePath_workingCopy, ← (pushComponents_eq le_rfl (by simp) pushed).1]
  intro comp mem
  exact parts comp (mem_reverse.mp mem)

lemma reducePath_resolved : reducePath [] res = reducePath [] (requestedPath cwd path) := by
  rw [(resolved_eq resolved).1, normalise,
    reducePath_absolutePath (resolved_components cwdNe0 ne0 resolved), reverse_reverse]

end

lemma pathResolve_absolutePath {sz : Nat} (parts : ∀ comp ∈ comps, Component comp)
    (few : comps.length ≤ 32) (fits : (absolutePath comps).length < sz) (large : 2 ≤ sz) :
    pathResolve cwd (absolutePath comps) sz = .ok (absolutePath comps) ↔
      (absolutePath comps).length < 512 := by
  have absolute : (absolutePath comps).head? = some slash := by
    rw [absolutePath]
    split
    · rfl
    · exact (joinPath_ends comps).resolve_left (by cases comps <;> simp_all [joinPath])
  have work : workingCopy cwd (absolutePath comps) = absolutePath comps := if_pos absolute
  rw [pathResolve_ok_iff, work]
  constructor
  · exact fun facts => facts.2.2.1
  intro short
  refine ⟨large, .inl absolute, short, comps.reverse, ?_, by rw [reverse_reverse], fits⟩
  rw [absolutePath]
  split
  case isTrue none => rw [none]; rfl
  case isFalse => rw [pushComponents_joinPath parts (by simpa using few) le_rfl, append_nil]

/-- The result equals the reference and, if it fits the working copy, resolves to itself. -/
theorem pathResolve_normalises {res : FileName} (cwdNe0 : (0 : UInt8) ∉ cwd)
    (nonzero : (0 : UInt8) ∉ path) (resolved : pathResolve cwd path outSize = .ok res) :
    (∃ comps, (∀ comp ∈ comps, Component comp) ∧ res = absolutePath comps) ∧
      res = normalise (requestedPath cwd path) ∧
      (∀ o, pathResolve o res outSize = .ok res ↔ res.length < 512) ∧
      ∀ r sz whole last joined, path ≠ [] → r.head? ≠ some slash → pathResolve res r sz = .ok last →
        pathResolve cwd (path ++ slash :: r) whole = .ok joined → last = joined := by
  obtain ⟨same, few⟩ := resolved_eq resolved
  have components := resolved_components cwdNe0 nonzero resolved
  have fits := pathResolve_ok_iff.mp resolved
  refine ⟨⟨_, components, same⟩, same, ?_, ?_⟩
  · intro o
    obtain ⟨large, -, -, -, -, -, short⟩ := fits
    rw [same, normalise] at short ⊢
    exact pathResolve_absolutePath components (by rwa [length_reverse]) short large
  intro r sz whole last joined nonempty relative snd direct
  have joinedPath : requestedPath cwd (path ++ slash :: r) =
    requestedPath cwd path ++ slash :: r := by
    have head : (path ++ slash :: r).head? = path.head? := by
      obtain ⟨char, tail, rfl⟩ := exists_cons_of_ne_nil nonempty
      rfl
    rw [requestedPath, requestedPath, head]
    split
    · rfl
    · rw [append_assoc, cons_append]
  rw [(resolved_eq snd).1, (resolved_eq direct).1, normalise, normalise, joinedPath,
    requestedPath, if_neg relative, reducePath_append, reducePath_append,
    reducePath_resolved cwdNe0 nonzero resolved]

theorem pathResolve_normalises_relative : (∃ comps, (∀ comp ∈ comps, Component comp) ∧
    ([47, 97, 47, 99] : FileName) = absolutePath comps) ∧
    [47, 97, 47, 99] = normalise (requestedPath [47, 97] [46, 47, 98, 47, 46, 46, 47, 99]) ∧
    (∀ o, pathResolve o [47, 97, 47, 99] 256 = .ok [47, 97, 47, 99] ↔
      ([47, 97, 47, 99] : FileName).length < 512) ∧
    ∀ r sz whole last joined, ([46, 47, 98, 47, 46, 46, 47, 99] : FileName) ≠ [] →
      r.head? ≠ some slash → pathResolve [47, 97, 47, 99] r sz = .ok last →
      pathResolve [47, 97] ([46, 47, 98, 47, 46, 46, 47, 99] ++ slash :: r) whole = .ok joined →
      last = joined :=
  pathResolve_normalises (by decide) (by decide) (by decide +kernel)

/-- A path of 512 characters is returned, which is refused when it is resolved again. -/
theorem pathResolve_refuses_own_result : pathResolve (List.replicate 509 97) [98] 513 =
      .ok (slash :: List.replicate 509 97 ++ [slash, 98]) ∧
    pathResolve (List.replicate 509 97) (slash :: List.replicate 509 97 ++ [slash, 98]) 513 =
      .error (-sysEnametoolong) := by
  decide +kernel

end HnxKernel
