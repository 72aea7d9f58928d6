import Hnx.PathResolution

/-!
# The VFS switch

`find_mount` compares the mount points with a path byte by byte. 256 is `VFS_PATH_MAX`.
-/

namespace HnxKernel

open List

def mountMatches (abspath point : FileName) : Bool :=
  point = [slash] || (abspath.take point.length = point &&
      (abspath.drop point.length).head?.all (· = slash))

structure Mount (Fs : Type) where
  path : FileName
  fs : Fs

variable {Fs : Type} {comps point : List FileName} {comp other r next : FileName}

/-- `vfs_mount` on the used slots, which are the first ones, as none is ever freed. -/
def vfsMount (tbl : List (Mount Fs)) (path : FileName) (fs : Fs) : Int × List (Mount Fs) :=
  if path.head? ≠ some slash then
    (-sysEinval, tbl)
  else if tbl.length < 8 then
    (0, tbl ++ [⟨path.take 255, fs⟩])
  else
    (-sysEnomem, tbl)

/-- The loop of `find_mount`; the length of the best mount is zero without one. -/
def findBest (abspath : FileName) (tbl : List (Mount Fs)) : Option (Mount Fs) :=
  tbl.foldl (fun best m =>
    if mountMatches abspath m.path ∧ (best.elim 0 fun m => m.path.length) ≤ m.path.length then
      some m
    else best) none

/-- `vfs_resolve` up to the lookup that it returns the result of. -/
def lookupCall (tbl : List (Mount Fs)) (abspath : FileName) : Option (Fs × FileName) :=
  (findBest abspath tbl).map fun m => (m.fs, (abspath.drop m.path.length).dropWhile (· = slash))

lemma part_inj (noSlash : slash ∉ comp) (ends : r = [] ∨ r.head? = some slash)
    (otherSlash : slash ∉ other) (otherEnds : next = [] ∨ next.head? = some slash)
    (same : comp ++ r = other ++ next) : comp = other ∧ r = next := by
  have compEq : comp = other := by
    rw [← takeWhile_part noSlash ends, same, takeWhile_part otherSlash otherEnds]
  exact ⟨compEq, append_cancel_left (compEq ▸ same)⟩

lemma joinPath_append_iff (parts : ∀ comp ∈ comps, Component comp)
    (pointParts : ∀ comp ∈ point, Component comp) :
    (∃ r, (r = [] ∨ r.head? = some slash) ∧ joinPath comps = joinPath point ++ r) ↔
      point <+: comps := by
  constructor
  · rintro ⟨r, ends, same⟩
    induction point generalizing comps with
    | nil => exact nil_prefix
    | cons fst point ih =>
      rw [joinPath_cons, cons_append, append_assoc] at same
      cases comps with
      | nil => cases same
      | cons comp comps =>
        rw [joinPath_cons, cons.injEq] at same
        have restEnds : joinPath point ++ r = [] ∨ (joinPath point ++ r).head? = some slash := by
          cases point with
          | nil => exact ends
          | cons => exact .inr rfl
        obtain ⟨rfl, tails⟩ := part_inj (parts comp mem_cons_self).noSlash (joinPath_ends comps)
          (pointParts fst mem_cons_self).noSlash restEnds same.2
        exact prefix_cons_inj comp |>.mpr
          (ih (fun c mem => parts c (mem_cons_of_mem _ mem))
            (fun c mem => pointParts c (mem_cons_of_mem _ mem)) tails)
  rintro ⟨suffix, rfl⟩
  exact ⟨joinPath suffix, joinPath_ends suffix, flatMap_append ..⟩

lemma boundary_iff {path start : FileName} :
    (path.take start.length = start ∧ (path.drop start.length).head?.all (· = slash) = true) ↔
      ∃ r, (r = [] ∨ r.head? = some slash) ∧ path = start ++ r := by
  constructor
  · rintro ⟨taken, ends⟩
    refine ⟨path.drop start.length, ?_, ?_⟩
    · cases drop : path.drop start.length with
      | nil => exact .inl rfl
      | cons => exact .inr (by simpa [drop] using ends)
    have whole := take_append_drop start.length path
    rw [taken] at whole
    exact whole.symm
  rintro ⟨r, ends, rfl⟩
  rw [take_left, drop_left]
  rcases ends with rfl | ends
  · exact ⟨rfl, rfl⟩
  · exact ⟨rfl, by simp [ends]⟩

lemma mountMatches_iff (parts : ∀ comp ∈ comps, Component comp)
    (pointParts : ∀ comp ∈ point, Component comp) :
    mountMatches (absolutePath comps) (absolutePath point) = true ↔ point <+: comps := by
  rw [mountMatches, Bool.or_eq_true, Bool.and_eq_true, decide_eq_true_eq, decide_eq_true_eq,
    boundary_iff]
  cases point with
  | nil => exact iff_of_true (.inl rfl) nil_prefix
  | cons fst point =>
    have nonempty := (pointParts fst mem_cons_self).nonempty
    have notRoot : absolutePath (fst :: point) ≠ [slash] := by
      simp [absolutePath, joinPath_cons, nonempty]
    rw [or_iff_right notRoot]
    cases comps with
    | nil => simp [absolutePath, joinPath_cons, nonempty]
    | cons => exact joinPath_append_iff parts pointParts

lemma absolutePath_append_cons (point suffix : List FileName) (comp : FileName) :
    absolutePath (point ++ comp :: suffix) = joinPath point ++ joinPath (comp :: suffix) := by
  rw [absolutePath, if_neg (by simp)]
  exact flatMap_append ..

lemma absolutePath_length_lt {long : List FileName} (parts : ∀ comp ∈ long, Component comp)
    (start : point <+: long) (shorter : point.length < long.length) :
    (absolutePath point).length < (absolutePath long).length := by
  obtain ⟨suffix, rfl⟩ := start
  cases suffix with
  | nil => simp at shorter
  | cons comp =>
    have nonempty := length_pos_iff.mpr (parts comp (by simp)).nonempty
    have pointLe : (absolutePath point).length ≤ (joinPath point).length + 1 := by
      rw [absolutePath]
      split
      · exact Nat.le_add_left 1 _
      · exact Nat.le_succ _
    rw [absolutePath_append_cons, length_append, joinPath_cons, length_cons, length_append]
    omega

lemma absolutePath_length_le_iff {long : List FileName} (parts : ∀ comp ∈ comps, Component comp)
    (start : point <+: comps) (longStart : long <+: comps) :
    (absolutePath point).length ≤ (absolutePath long).length ↔ point.length ≤ long.length := by
  have longer : ∀ {p q : List FileName}, p <+: comps → q <+: comps → p.length < q.length →
    (absolutePath p).length < (absolutePath q).length := fun pStart qStart lt =>
    absolutePath_length_lt (fun comp mem => parts comp (qStart.subset mem))
      (prefix_of_prefix_length_le pStart qStart lt.le) lt
  constructor
  · intro le
    by_contra lt
    exact absurd (longer longStart start (by omega)) (by omega)
  intro le
  rcases le.lt_or_eq with lt | same
  · exact (longer start longStart lt).le
  · rw [(prefix_of_prefix_length_le start longStart le).eq_of_length same]

lemma intercalate_slash (comp : FileName) (comps : List FileName) :
    [slash].intercalate (comp :: comps) = comp ++ joinPath comps := by
  induction comps generalizing comp with
  | nil => simp [joinPath]
  | cons _ _ ih => rw [intercalate_cons_cons, ih, joinPath_cons]; simp

lemma rest_of_start (parts : ∀ comp ∈ comps, Component comp) (start : point <+: comps) :
    ((absolutePath comps).drop (absolutePath point).length).dropWhile (· = slash) =
      [slash].intercalate (comps.drop point.length) := by
  obtain ⟨suffix, rfl⟩ := start
  rw [drop_left]
  cases suffix with
  | nil => simp
  | cons comp =>
    have part := parts comp (by simp)
    rw [absolutePath_append_cons, intercalate_slash, ← dropWhile_part part]
    cases point with
    | nil => rfl
    | cons =>
      rw [absolutePath, if_neg (by simp), drop_left, joinPath_cons, dropWhile_cons_of_pos (by simp)]

lemma findBest_spec (abspath : FileName) (tbl : List (Mount Fs)) : match findBest abspath tbl with
  | none => ∀ m ∈ tbl, ¬ mountMatches abspath m.path = true
  | some m => ∃ pre post, tbl = pre ++ m :: post ∧ mountMatches abspath m.path = true ∧
      (∀ o ∈ pre, mountMatches abspath o.path = true → o.path.length ≤ m.path.length) ∧
      ∀ o ∈ post, mountMatches abspath o.path = true → o.path.length < m.path.length := by
  induction tbl using reverseRecOn with
  | nil => simp [findBest]
  | append_singleton tbl m ih =>
    rw [findBest, foldl_append, foldl_cons, foldl_nil, ← findBest]
    split_ifs with better
    · refine ⟨tbl, [], rfl, better.1, ?_, by simp⟩
      intro o mem isMatch
      revert ih better
      cases findBest abspath tbl with
      | none => exact fun none _ => absurd isMatch (none o mem)
      | some =>
        rintro ⟨pre, post, rfl, -, preLe, postLt⟩ ⟨-, le⟩
        rcases mem_append.mp mem with mem | mem
        · exact (preLe o mem isMatch).trans le
        rcases mem_cons.mp mem with rfl | mem
        · exact le
        · exact (postLt o mem isMatch).le.trans le
    revert ih better
    cases findBest abspath tbl with
    | none =>
      intro none worse o mem isMatch
      rcases mem_append.mp mem with mem | mem
      · exact none o mem isMatch
      rw [mem_singleton.mp mem] at isMatch
      exact worse ⟨isMatch, Nat.zero_le _⟩
    | some =>
      rintro ⟨pre, post, rfl, isMatch, preLe, postLt⟩ worse
      refine ⟨pre, post ++ [m], by simp, isMatch, preLe, ?_⟩
      intro o mem oMatch
      rcases mem_append.mp mem with mem | mem
      · exact postLt o mem oMatch
      rw [mem_singleton.mp mem] at oMatch ⊢
      exact not_le.mp fun le => worse ⟨oMatch, le⟩

def mountAll (points : List (List FileName × Fs)) : List (Mount Fs) :=
  points.foldl (fun tbl p => (vfsMount tbl (absolutePath p.1) p.2).2) []

lemma mountAll_eq {points : List (List FileName × Fs)}
    (short : ∀ p ∈ points, (absolutePath p.1).length < 256) :
    mountAll points = (points.take 8).map fun p => ⟨absolutePath p.1, p.2⟩ := by
  induction points using reverseRecOn with
  | nil => rfl
  | append_singleton points p ih =>
    have old := ih fun p mem => short p (by simp [mem])
    have whole : (absolutePath p.1).take 255 = absolutePath p.1 :=
      take_of_length_le (Nat.le_of_lt_succ (short p (by simp)))
    have absolute : (absolutePath p.1).head? = some slash := by
      cases p.1 with
      | nil => rfl
      | cons => rfl
    rw [mountAll, foldl_append, foldl_cons, foldl_nil, ← mountAll, old, vfsMount,
      if_neg (not_not.mpr absolute), length_map, length_take, whole]
    split
    · rw [take_of_length_le (by omega : points.length ≤ 8),
        take_of_length_le (by rw [length_append, length_singleton]; omega), map_append]
      rfl
    · rw [take_append_of_le_length (by omega)]

/-- At the longest mount point over a path, the last one among equals. -/
def CallsLongest (points : List (List FileName × Fs)) (comps : List FileName) :
    Option (Fs × FileName) → Prop
  | none => ∀ p ∈ points, ¬ p.1 <+: comps
  | some call => ∃ pre p post, points = pre ++ p :: post ∧ p.1 <+: comps ∧
      call = (p.2, [slash].intercalate (comps.drop p.1.length)) ∧
      (∀ o ∈ pre, o.1 <+: comps → o.1.length ≤ p.1.length) ∧
      ∀ o ∈ post, o.1 <+: comps → o.1.length < p.1.length

theorem lookupCall_longest {points : List (List FileName × Fs)}
    (normal : ∀ p ∈ points, ∀ comp ∈ p.1, Component comp)
    (short : ∀ p ∈ points, (absolutePath p.1).length < 256)
    (parts : ∀ comp ∈ comps, Component comp) : CallsLongest (points.take 8) comps
      (lookupCall (mountAll points) (absolutePath comps)) := by
  have spec := findBest_spec (absolutePath comps) (mountAll points)
  have matches_iff : ∀ p ∈ points.take 8,
    mountMatches (absolutePath comps) (absolutePath p.1) = true ↔ p.1 <+: comps :=
    fun p mem => mountMatches_iff parts (normal p (mem_of_mem_take mem))
  rw [mountAll_eq short] at spec ⊢
  unfold lookupCall
  revert spec
  cases findBest (absolutePath comps) _ with
  | none =>
    intro none p mem start
    exact none _ (mem_map_of_mem mem) ((matches_iff p mem).mpr start)
  | some =>
    rintro ⟨_, _, tableEq, isMatch, preLe, postLt⟩
    obtain ⟨pre, _, pointsEq, rfl, restEq⟩ := map_eq_append_iff.mp tableEq
    obtain ⟨p, post, rfl, rfl, rfl⟩ := map_eq_cons_iff.mp restEq
    rw [pointsEq] at matches_iff
    have start := (matches_iff p (by simp)).mp isMatch
    refine ⟨pre, p, post, pointsEq, start, congrArg _ (rest_of_start parts start), ?_, ?_⟩
    · intro o mem oStart
      rw [← absolutePath_length_le_iff parts oStart start]
      exact preLe _ (mem_map_of_mem mem) ((matches_iff o (by simp [mem])).mpr oStart)
    intro o mem oStart
    rw [← not_le, ← absolutePath_length_le_iff parts start oStart, not_le]
    exact postLt _ (mem_map_of_mem mem) ((matches_iff o (by simp [mem])).mpr oStart)

/-- `/`, `/a` and `/a/b`, and the path `/a/bc/d`. -/
theorem lookupCall_longest_nested :
    CallsLongest (take 8 [([], 0), ([[97]], 1), ([[97], [98]], 2)]) [[97], [98, 99], [100]]
      (lookupCall (mountAll [([], 0), ([[97]], 1), ([[97], [98]], 2)])
        (absolutePath [[97], [98, 99], [100]])) ∧
    lookupCall (mountAll [([], 0), ([[97]], 1), ([[97], [98]], 2)])
      (absolutePath [[97], [98, 99], [100]]) = some (1, [98, 99, 47, 100]) :=
  ⟨lookupCall_longest (by decide) (by decide) (by decide), by decide⟩

/-- Every mount is one of HNXFS; `cwd` gives the directory of a process. -/
structure Vfs where
  hnxfs : Hnxfs
  mounts : List (Mount Unit)
  cwd : Nat → FileName

def Vfs.onHnxfs {Value : Type} (vfs : Vfs) (action : HnxfsM Value) : Value × Vfs :=
  ((action vfs.hnxfs).1, { vfs with hnxfs := (action vfs.hnxfs).2 })

def vfsResolve (abspath : FileName) (vfs : Vfs) : Option Nat × Vfs :=
  match lookupCall vfs.mounts abspath with
  | none => (none, vfs)
  | some (_, rel) => vfs.onHnxfs (hnxfsLookup rel)

/-- 127 characters fit in `VFS_NAME_MAX` bytes. -/
def checkParent (base : FileName) : Option Nat × Vfs → Except Int (Nat × FileName) × Vfs
  | (none, vfs) => (.error (-sysEnoent), vfs)
  | (some slot, vfs) =>
    if (vfs.hnxfs.vnodes slot).type ≠ .dir then (.error (-sysEnotdir), vfs)
    else (.ok (slot, base.take 127), vfs)

def resolveParent (pid : Nat) (path : FileName) (vfs : Vfs) : Except Int (Nat × FileName) × Vfs :=
  match pathResolve (vfs.cwd pid) path 256 with
  | .error code => (.error code, vfs)
  | .ok abspath =>
    match pathParent abspath 256 with
    | .error _ => (.error (-sysEinval), vfs)
    | .ok parent =>
      if pathBasename abspath = [] then (.error (-sysEinval), vfs)
      else checkParent (pathBasename abspath) (vfsResolve parent vfs)

lemma reverse_absolutePath (comps : List FileName) (last : FileName) :
    (absolutePath (comps ++ [last])).reverse = last.reverse ++ slash ::
      (joinPath comps).reverse := by
  simp [absolutePath, joinPath]

lemma Component.all_reverse (part : Component comp) : ∀ char ∈ comp.reverse,
    decide (char ≠ slash) = true := by
  intro char mem
  exact decide_eq_true fun isSlash => part.noSlash (isSlash ▸ mem_reverse.mp mem)

lemma pathBasename_concat (part : Component comp) :
    pathBasename (absolutePath (comps ++ [comp])) = comp := by
  rw [pathBasename, reverse_absolutePath, takeWhile_append_of_pos part.all_reverse]
  simp

lemma dropSlashes_absolutePath (parts : ∀ comp ∈ comps, Component comp) :
    dropSlashes (slash :: (joinPath comps).reverse) = (absolutePath comps).reverse := by
  cases comps using reverseRecOn with
  | nil => rfl
  | append_singleton comps last =>
    have part := parts last (by simp)
    have joined : joinPath (comps ++ [last]) = absolutePath (comps ++ [last]) := by
      simp [absolutePath]
    obtain ⟨char, rest, eq⟩ := exists_cons_of_ne_nil (reverse_ne_nil_iff.mpr part.nonempty)
    have ne := of_decide_eq_true (part.all_reverse char (by simp [eq]))
    rw [joined, reverse_absolutePath, eq, cons_append, dropSlashes, if_pos rfl]
    cases rest <;> exact if_neg ne

lemma pathParent_concat {last : FileName} (parts : ∀ comp ∈ comps ++ [last], Component comp)
    (short : (absolutePath (comps ++ [last])).length < 256) :
    pathParent (absolutePath (comps ++ [last])) 256 = .ok (absolutePath comps) := by
  have nonempty : absolutePath comps ≠ [] := by
    cases comps <;> simp [absolutePath, joinPath]
  have shorter : (absolutePath comps).length ≤ (absolutePath (comps ++ [last])).length := by
    simp only [absolutePath, joinPath]
    split <;> simp
    omega
  rw [pathParent, reverse_absolutePath,
    dropWhile_append_of_pos (parts last (by simp)).all_reverse, dropWhile_cons_of_neg (by simp),
    dropSlashes_absolutePath fun comp mem => parts comp (by simp [mem]), reverse_reverse,
    if_neg (by simp [absolutePath, joinPath])]
  dsimp only
  rw [if_neg nonempty, if_neg (by omega)]

/-- A call that changes a name acts on the last component, in the directory of the others. -/
theorem resolveParent_splits {vfs : Vfs} {pid : Nat} {abspath : FileName}
    (cwdNe0 : (0 : UInt8) ∉ vfs.cwd pid) (ne0 : (0 : UInt8) ∉ path)
    (resolved : pathResolve (vfs.cwd pid) path 256 = .ok abspath) :
    ∃ comps, (∀ comp ∈ comps, Component comp) ∧ abspath = absolutePath comps ∧
      resolveParent pid path vfs = comps.getLast?.elim (.error (-sysEinval), vfs) fun last =>
        checkParent last (vfsResolve (absolutePath comps.dropLast) vfs) := by
  have parts := resolved_components cwdNe0 ne0 resolved
  have same := (resolved_eq resolved).1
  obtain ⟨-, -, -, -, -, -, short⟩ := pathResolve_ok_iff.mp resolved
  rw [normalise] at same
  refine ⟨_, parts, same, ?_⟩
  simp only [resolveParent, resolved]
  rw [same] at short ⊢
  generalize (reducePath [] (requestedPath (vfs.cwd pid) path)).reverse = comps at parts short ⊢
  cases comps using reverseRecOn with
  | nil => rfl
  | append_singleton comps last =>
    have part := parts last (by simp)
    rw [pathParent_concat parts short, pathBasename_concat part]
    simp [part.nonempty]

def bareVfs : Vfs :=
  ⟨⟨⟨0, 0, 0, 0, 0, 0, 0⟩, fun _ => zeroBlock, [], fun _ => ⟨.file, 0, 0⟩, fun _ => 0, 0⟩, [],
    fun _ => [47, 97]⟩

theorem resolveParent_splits_relative : ∃ comps, (∀ comp ∈ comps, Component comp) ∧
    [47, 97, 47, 98] = absolutePath comps ∧
    resolveParent 0 [98] bareVfs = comps.getLast?.elim (.error (-sysEinval), bareVfs) fun last =>
      checkParent last (vfsResolve (absolutePath comps.dropLast) bareVfs) :=
  resolveParent_splits (by decide) (by decide) (by decide)

end HnxKernel
