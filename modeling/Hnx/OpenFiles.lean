import Hnx.SyscallErrors
import Mathlib.Tactic

/-!
# Open files and their reference counts

Between two calls the count of a file is the number of entries that point to it.
-/

namespace HnxKernel

section

open Function

structure OpenFiles where
  tables : Finset Nat
  entries : Nat × Fin 32 → Option Nat
  /-- How many files have been allocated so far. -/
  files : Nat
  refcount : Nat → Int
  flags : Nat → Int
  kfrees : Nat → Nat

namespace OpenFiles

def init (tables : Finset Nat) : OpenFiles where
  tables := tables
  entries := fun _ => none
  files := 0
  refcount := fun _ => 0
  flags := fun _ => 0
  kfrees := fun _ => 0

def fileAlloc (sys : OpenFiles) (flags : Int) : OpenFiles :=
  { sys with
    files := sys.files + 1
    refcount := update sys.refcount sys.files 1
    flags := update sys.flags sys.files flags }

def fileRef (sys : OpenFiles) (file : Nat) : OpenFiles :=
  { sys with refcount := update sys.refcount file (sys.refcount file + 1) }

def fileUnref (sys : OpenFiles) (file : Nat) : OpenFiles :=
  { sys with
    refcount := update sys.refcount file (sys.refcount file - 1)
    kfrees :=
      if sys.refcount file - 1 ≤ 0 then
        update sys.kfrees file (sys.kfrees file + 1)
      else sys.kfrees }

def setEntry (sys : OpenFiles) (slot : Nat × Fin 32) (entry : Option Nat) : OpenFiles :=
  { sys with entries := update sys.entries slot entry }

def descriptor (fd : Int) : Option (Fin 32) :=
  if bounds : 0 ≤ fd ∧ fd < 32 then some ⟨fd.toNat, by omega⟩ else none

def fdTableCreate (sys : OpenFiles) (tbl : Nat) : OpenFiles :=
  { sys with
    tables := insert tbl sys.tables
    entries := fun s => if s.1 = tbl then none else sys.entries s }

def dropEntry (sys : OpenFiles) (slot : Nat × Fin 32) : OpenFiles :=
  match sys.entries slot with
  | some file => (sys.fileUnref file).setEntry slot none
  | none => sys

def fdTableDestroy (sys : OpenFiles) (tbl : Nat) : OpenFiles :=
  let dropped := (List.finRange 32).foldl (fun cur fd => cur.dropEntry (tbl, fd)) sys
  { dropped with tables := dropped.tables.erase tbl }

def freeDescriptor (sys : OpenFiles) (tbl : Nat) : Option (Fin 32) :=
  (List.finRange 32).find? fun fd => (sys.entries (tbl, fd)).isNone

def fdAlloc (sys : OpenFiles) (tbl file : Nat) : Int × OpenFiles :=
  match sys.freeDescriptor tbl with
  | some fd => (fd, sys.setEntry (tbl, fd) (some file))
  | none => (-sysEmfile, sys)

def fdInstallAt (sys : OpenFiles) (tbl : Nat) (fd : Int) (file : Nat) : Int × OpenFiles :=
  match descriptor fd with
  | none => (-sysEbadf, sys)
  | some s =>
    match sys.entries (tbl, s) with
    | some occupant => (fd, (sys.fileUnref occupant).setEntry (tbl, s) (some file))
    | none => (fd, sys.setEntry (tbl, s) (some file))

def fdClose (sys : OpenFiles) (tbl : Nat) (fd : Int) : Int × OpenFiles :=
  match descriptor fd with
  | none => (-sysEbadf, sys)
  | some s =>
    match sys.entries (tbl, s) with
    | none => (-sysEbadf, sys)
    | some file => (0, (sys.fileUnref file).setEntry (tbl, s) none)

def fdGet (sys : OpenFiles) (tbl : Nat) (fd : Int) : Option Nat :=
  (descriptor fd).bind fun s => sys.entries (tbl, s)

def dupFile (sys : OpenFiles) (tbl file : Nat) : Int × OpenFiles :=
  let (fd, allocated) := (sys.fileRef file).fdAlloc tbl file
  if fd < 0 then (-sysEmfile, allocated.fileUnref file) else (fd, allocated)

def sysDup (sys : OpenFiles) (tbl : Nat) (fd : Int) : Int × OpenFiles :=
  match sys.fdGet tbl fd with
  | none => (-sysEbadf, sys)
  | some file => sys.dupFile tbl file

def sysDup2 (sys : OpenFiles) (tbl : Nat) (oldfd newfd : Int) : Int × OpenFiles :=
  match sys.fdGet tbl oldfd with
  | none => (-sysEbadf, sys)
  | some file =>
    if oldfd = newfd then (newfd, sys)
    else if newfd < 0 ∨ 32 ≤ newfd then (-sysEbadf, sys)
    else (newfd, ((sys.fileRef file).fdInstallAt tbl newfd file).2)

inductive FcntlCommand where
  | dupfd
  | getfd
  | setfd
  | getfl
  | setfl (flags : Int)
  | unknown
  deriving DecidableEq, Repr

def sysFcntl (sys : OpenFiles) (tbl : Nat) (fd : Int) (command : FcntlCommand) :
    Int × OpenFiles :=
  match sys.fdGet tbl fd with
  | none => (-sysEbadf, sys)
  | some file =>
    match command with
    | .dupfd => sys.dupFile tbl file
    | .getfd => (0, sys)
    | .setfd => (0, sys)
    | .getfl => (sys.flags file, sys)
    | .setfl flags => (0, { sys with flags := update sys.flags file flags })
    | .unknown => (-sysEinval, sys)

/-- `refused` is the error before `file_alloc`, if any. -/
def vfsOpen (sys : OpenFiles) (tbl : Nat) (flags : Int) (refused : Option Int)
    (ram : Bool) : Int × OpenFiles :=
  match refused with
  | some error => (error, sys)
  | none =>
    if ram then
      let (fd, installed) := (sys.fileAlloc flags).fdAlloc tbl sys.files
      if fd < 0 then (fd, installed.fileUnref sys.files) else (fd, installed)
    else (-sysEnomem, sys)

/-- `O_RDWR` is 2. -/
def wireStdio (sys : OpenFiles) (tbl : Nat) (console ram : Bool) : OpenFiles :=
  if console && ram then
    let file := sys.files
    let fst := ((sys.fileAlloc 2).fdInstallAt tbl 0 file).2
    let snd := ((fst.fileRef file).fdInstallAt tbl 1 file).2
    ((snd.fileRef file).fdInstallAt tbl 2 file).2
  else sys

inductive Call where
  | create (table : Nat)
  | destroy (table : Nat)
  | vfsOpen (table : Nat) (flags : Int) (refused : Option Int) (ram : Bool)
  | close (table : Nat) (fd : Int)
  | dup (table : Nat) (fd : Int)
  | dup2 (table : Nat) (oldfd newfd : Int)
  | fcntl (table : Nat) (fd : Int) (command : FcntlCommand)
  | wireStdio (table : Nat) (console ram : Bool)
  deriving DecidableEq, Repr

def call (sys : OpenFiles) : Call → OpenFiles
  | .create tbl => sys.fdTableCreate tbl
  | .destroy tbl => sys.fdTableDestroy tbl
  | .vfsOpen tbl flags refused ram => (sys.vfsOpen tbl flags refused ram).2
  | .close tbl fd => (sys.fdClose tbl fd).2
  | .dup tbl fd => (sys.sysDup tbl fd).2
  | .dup2 tbl oldfd newfd => (sys.sysDup2 tbl oldfd newfd).2
  | .fcntl tbl fd command => (sys.sysFcntl tbl fd command).2
  | .wireStdio tbl console ram => sys.wireStdio tbl console ram

/-- A table is created once, and `wire_stdio` runs on an empty one. -/
def Allowed (sys : OpenFiles) : Call → Prop
  | .create tbl => tbl ∉ sys.tables
  | .wireStdio tbl _ _ => tbl ∈ sys.tables ∧ ∀ fd, sys.entries (tbl, fd) = none
  | .destroy tbl | .vfsOpen tbl _ _ _ | .close tbl _ | .dup tbl _ | .dup2 tbl _ _
  | .fcntl tbl _ _ => tbl ∈ sys.tables

instance (sys : OpenFiles) : (action : Call) → Decidable (sys.Allowed action)
  | .create tbl => inferInstanceAs (Decidable (tbl ∉ sys.tables))
  | .wireStdio tbl _ _ => inferInstanceAs
      (Decidable (tbl ∈ sys.tables ∧ ∀ fd, sys.entries (tbl, fd) = none))
  | .destroy tbl | .vfsOpen tbl _ _ _ | .close tbl _ | .dup tbl _ | .dup2 tbl _ _
  | .fcntl tbl _ _ => inferInstanceAs (Decidable (tbl ∈ sys.tables))

def run : OpenFiles → List Call → Option OpenFiles
  | sys, [] => some sys
  | sys, action :: rest =>
    if sys.Allowed action then (sys.call action).run rest else none

def slots (sys : OpenFiles) : Finset (Nat × Fin 32) := sys.tables ×ˢ Finset.univ

def references (sys : OpenFiles) (file : Nat) : Nat :=
  ∑ s ∈ sys.slots, if sys.entries s = some file then 1 else 0

variable {sys : OpenFiles} {s : Nat × Fin 32} {file : Nat}

lemma mem_slots : s ∈ sys.slots ↔ s.1 ∈ sys.tables := by simp [slots]

lemma references_setEntry (sys : OpenFiles)
    (member : s.1 ∈ sys.tables) (entry : Option Nat) (file : Nat) :
    (sys.setEntry s entry).references file + (if sys.entries s = some file then 1 else 0) =
      sys.references file + if entry = some file then 1 else 0 := by
  have inside : s ∈ sys.slots := mem_slots.mpr member
  have slotsEq : (sys.setEntry s entry).slots = sys.slots := rfl
  have others : ∑ each ∈ sys.slots.erase s,
    (if (sys.setEntry s entry).entries each = some file then 1 else 0) =
      ∑ each ∈ sys.slots.erase s, if sys.entries each = some file then 1 else 0 := by
    apply Finset.sum_congr rfl
    intro each mem
    simp only [setEntry, update_of_ne (Finset.ne_of_mem_erase mem)]
  have written : (sys.setEntry s entry).entries s = entry := by simp only [setEntry, update_self]
  unfold references
  rw [slotsEq, ← Finset.add_sum_erase _ _ inside, ← Finset.add_sum_erase _ _ inside, others,
    written]
  omega

lemma references_pos (s : Nat × Fin 32) (mem : s.1 ∈ sys.tables)
    (points : sys.entries s = some file) : 0 < sys.references file := by
  have least := Finset.single_le_sum
    (f := fun each => if sys.entries each = some file then 1 else 0)
    (fun _ _ => Nat.zero_le _) (mem_slots.mpr mem)
  simp only [points, if_true] at least
  exact least

lemma references_congr {pre post : OpenFiles}
    (same : ∀ s : Nat × Fin 32, s.1 ∈ post.tables ∧ post.entries s = some file ↔
      s.1 ∈ pre.tables ∧ pre.entries s = some file) :
    post.references file = pre.references file := by
  unfold references
  rw [← Finset.card_filter, ← Finset.card_filter]
  congr 1
  ext s
  simp only [Finset.mem_filter, mem_slots, same]

end OpenFiles

end

open Function OpenFiles

namespace OpenFiles

/-- Every file has as many references as entries, and is freed with the last of them. -/
structure Counted (sys : OpenFiles) : Prop where
  counted : ∀ f < sys.files, sys.kfrees f = 0 →
    sys.refcount f = sys.references f ∧ 0 < sys.references f
  once : ∀ f, sys.kfrees f ≤ 1
  gone : ∀ f, sys.kfrees f ≠ 0 → sys.references f = 0
  allocated : ∀ f, sys.files ≤ f → sys.references f = 0 ∧ sys.kfrees f = 0

/-- References and entries change together, and a file is freed with its last entry. -/
structure Moves (before post : OpenFiles) : Prop where
  files : post.files = before.files
  kfrees : ∀ f, post.kfrees f = before.kfrees f +
    if 0 < before.references f ∧ post.references f = 0 then 1 else 0
  balanced : ∀ f, post.refcount f - post.references f = before.refcount f - before.references f
  lost : ∀ f, before.references f = 0 → post.references f = 0

variable {sys pre mid post : OpenFiles}

lemma Moves.trans (fst : Moves pre mid) (snd : Moves mid post) : Moves pre post where
  files := snd.files.trans fst.files
  kfrees := by
    intro f
    have lostFirst := fst.lost f
    have lostSecond := snd.lost f
    rw [snd.kfrees, fst.kfrees]
    split_ifs <;> omega
  balanced := fun f => (snd.balanced f).trans (fst.balanced f)
  lost := fun f zero => snd.lost f (fst.lost f zero)

lemma Moves.of_eq (files : post.files = pre.files) (kfrees : post.kfrees = pre.kfrees)
    (refcount : post.refcount = pre.refcount)
    (references : ∀ f, post.references f = pre.references f) : Moves pre post where
  files := files
  kfrees := by
    intro f
    rw [kfrees, references, if_neg (by omega), Nat.add_zero]
  balanced := fun f => by rw [refcount, references]
  lost := fun f zero => by rw [references, zero]

lemma Moves.refl (sys : OpenFiles) : Moves sys sys := Moves.of_eq rfl rfl rfl fun _ => rfl

lemma Counted.moves (counted : Counted pre) (moves : Moves pre post) : Counted post where
  counted := by
    intro f hb notFreed
    rw [moves.files] at hb
    have freed := moves.kfrees f
    have balanced := moves.balanced f
    obtain ⟨refsEq, pos⟩ := counted.counted f hb (by omega)
    split_ifs at freed <;> omega
  once := by
    intro f
    have once := counted.once f
    have gone := counted.gone f
    rw [moves.kfrees]
    split_ifs <;> omega
  gone := by
    intro f freed
    have gone := counted.gone f
    have lost := moves.lost f
    rw [moves.kfrees] at freed
    split_ifs at freed with last
    · exact last.2
    · exact lost (gone (by omega))
  allocated := by
    intro f beyond
    rw [moves.files] at beyond
    obtain ⟨zero, notFreed⟩ := counted.allocated f beyond
    refine ⟨moves.lost f zero, ?_⟩
    rw [moves.kfrees, notFreed, if_neg (by omega)]

variable {f tbl : Nat} {fd : Int} {action : Call}

lemma Counted.refcount_of_entry (counted : Counted sys) (pos : 0 < sys.references f) :
    sys.refcount f = sys.references f := by
  have hb : f < sys.files := by
    by_contra beyond
    have zero := (counted.allocated f (by omega)).1
    omega
  have notFreed : sys.kfrees f = 0 := by
    by_contra hf
    have zero := counted.gone f hf
    omega
  exact (counted.counted f hb notFreed).1

lemma kfrees_fileUnref (f o : Nat) : (sys.fileUnref f).kfrees o =
    sys.kfrees o + if o = f ∧ sys.refcount f - 1 ≤ 0 then 1 else 0 := by
  unfold fileUnref
  by_cases last : sys.refcount f - 1 ≤ 0 <;> by_cases eq : o = f <;>
    simp [last, eq]

lemma refcount_fileUnref (f o : Nat) : (sys.fileUnref f).refcount o =
    sys.refcount o - if o = f then 1 else 0 := by
  by_cases eq : o = f <;> simp [fileUnref, eq]

lemma refcount_fileRef (f o : Nat) : (sys.fileRef f).refcount o =
    sys.refcount o + if o = f then 1 else 0 := by
  by_cases eq : o = f <;> simp [fileRef, eq]

lemma Counted.moves_dropEntry (counted : Counted sys) (s : Nat × Fin 32)
    (mem : s.1 ∈ sys.tables) : Moves sys (sys.dropEntry s) := by
  cases points : sys.entries s with
  | none =>
    simp only [dropEntry, points]
    exact .refl sys
  | some f =>
    simp only [dropEntry, points]
    have pos := references_pos s mem points
    have exactly := counted.refcount_of_entry pos
    have changed (other : Nat) : ((sys.fileUnref f).setEntry s none).references other +
      (if other = f then 1 else 0) = sys.references other := by
      have written := references_setEntry (sys.fileUnref f) mem none other
      simpa [fileUnref, points, eq_comm, references, slots] using written
    refine ⟨rfl, ?_, ?_, ?_⟩
    · intro other
      have now := changed other
      change (sys.fileUnref f).kfrees other = _
      rw [kfrees_fileUnref]
      by_cases eq : other = f
      · subst eq
        simp only [if_true, true_and] at now ⊢
        split_ifs <;> omega
      simp only [eq, if_false, false_and] at now ⊢
      split_ifs <;> omega
    · intro other
      have now := changed other
      change (sys.fileUnref f).refcount other - _ = _
      rw [refcount_fileUnref]
      split_ifs at now ⊢ <;> omega
    intro other zero
    have now := changed other
    omega

lemma references_share (s : Nat × Fin 32) (f : Nat) (mem : s.1 ∈ sys.tables)
    (he : sys.entries s = none) (o : Nat) : ((sys.fileRef f).setEntry s (some f)).references o =
      sys.references o + if o = f then 1 else 0 := by
  have written := references_setEntry (sys.fileRef f) mem (some f) o
  simpa [fileRef, he, eq_comm, references, slots] using written

lemma moves_share (s : Nat × Fin 32) (mem : s.1 ∈ sys.tables)
    (he : sys.entries s = none) (pos : 0 < sys.references f) :
    Moves sys ((sys.fileRef f).setEntry s (some f)) := by
  have changed := references_share s f mem he
  refine ⟨rfl, ?_, ?_, ?_⟩
  · intro o
    rw [changed, if_neg (by omega)]
    rfl
  · intro o
    change (sys.fileRef f).refcount o - _ = _
    rw [refcount_fileRef, changed]
    split_ifs <;> omega
  intro o zero
  rw [changed, zero, if_neg]
  intro eq
  subst eq
  omega

lemma Counted.moves_unshare (counted : Counted sys) (pos : 0 < sys.references f) :
    Moves sys ((sys.fileRef f).fileUnref f) := by
  have exactly := counted.refcount_of_entry pos
  refine .of_eq rfl ?_ ?_ ?_
  · funext o
    rw [kfrees_fileUnref, refcount_fileRef, if_pos rfl, if_neg (by omega)]
    rfl
  · funext o
    rw [refcount_fileUnref, refcount_fileRef]
    omega
  · exact fun _ => rfl

lemma Counted.moves_replace (counted : Counted sys) (s : Nat × Fin 32)
    {occupant : Nat} (mem : s.1 ∈ sys.tables)
    (points : sys.entries s = some occupant) (pos : 0 < sys.references f) :
    Moves sys (((sys.fileRef f).fileUnref occupant).setEntry s (some f)) := by
  have exactly := counted.refcount_of_entry (references_pos s mem points)
  have held := references_pos s mem points
  have changed (o : Nat) :
    (((sys.fileRef f).fileUnref occupant).setEntry s (some f)).references o +
      (if o = occupant then 1 else 0) =
    sys.references o + if o = f then 1 else 0 := by
    have written := references_setEntry
      ((sys.fileRef f).fileUnref occupant) mem (some f) o
    simpa [fileRef, fileUnref, points, eq_comm, references, slots] using written
  refine ⟨rfl, ?_, ?_, ?_⟩
  · intro o
    have now := changed o
    change ((sys.fileRef f).fileUnref occupant).kfrees o = _
    rw [kfrees_fileUnref, refcount_fileRef]
    congr 1
    by_cases isOccupant : o = occupant
    · subst isOccupant
      simp only [if_true, true_and] at now ⊢
      split_ifs at now ⊢ <;> omega
    simp only [isOccupant, if_false, false_and] at now ⊢
    split_ifs at now ⊢ <;> omega
  · intro o
    have now := changed o
    change ((sys.fileRef f).fileUnref occupant).refcount o - _ = _
    rw [refcount_fileUnref, refcount_fileRef]
    split_ifs at now ⊢ <;> omega
  intro o zero
  have now := changed o
  by_cases eq : o = f
  · subst eq
    omega
  simp only [eq, if_false] at now
  omega

lemma moves_fdTableCreate (ha : tbl ∉ sys.tables) : Moves sys (sys.fdTableCreate tbl) := by
  refine .of_eq rfl rfl rfl ?_
  intro f
  apply references_congr
  rintro ⟨owner, fd⟩
  by_cases eq : owner = tbl
  · simp [fdTableCreate, eq, ha]
  · simp [fdTableCreate, eq]

structure Dropped (before post : OpenFiles) (table : Nat) (fds : List (Fin 32)) : Prop where
  moves : Moves before post
  tables : post.tables = before.tables
  empty : ∀ fd ∈ fds, post.entries (table, fd) = none
  kept : ∀ slot, before.entries slot = none → post.entries slot = none

lemma entries_dropEntry (sys : OpenFiles) (slot : Nat × Fin 32) :
    (sys.dropEntry slot).entries = update sys.entries slot none := by
  cases points : sys.entries slot with
  | none =>
    rw [← points, update_eq_self]
    simp [dropEntry, points]
  | some =>
    rw [dropEntry, points]
    rfl

lemma tables_dropEntry (s : Nat × Fin 32) : (sys.dropEntry s).tables = sys.tables := by
  unfold dropEntry
  split <;> rfl

lemma Counted.dropped_foldl (fds : List (Fin 32)) :
    ∀ sys : OpenFiles, Counted sys → tbl ∈ sys.tables →
      Dropped sys (fds.foldl (fun cur fd => cur.dropEntry (tbl, fd)) sys)
        tbl fds := by
  induction fds with
  | nil =>
    intro sys counted mem
    exact ⟨Moves.refl sys, rfl, fun fd ha => absurd ha (by simp), fun _ eq => eq⟩
  | cons fd _ ih =>
    intro sys counted mem
    have fst := counted.moves_dropEntry (tbl, fd) mem
    have cleared := entries_dropEntry sys (tbl, fd)
    have later := ih (sys.dropEntry (tbl, fd)) (counted.moves fst)
      (by rwa [tables_dropEntry])
    refine ⟨fst.trans later.moves, later.tables.trans (tables_dropEntry _), ?_, ?_⟩
    · intro o hi
      rcases List.mem_cons.mp hi with eq | hi
      · apply later.kept
        rw [cleared, eq, update_self]
      · exact later.empty o hi
    intro s he
    apply later.kept
    rw [cleared, update_apply, he, ite_self]

lemma Counted.moves_fdTableDestroy (counted : Counted sys)
    (mem : tbl ∈ sys.tables) : Moves sys (sys.fdTableDestroy tbl) := by
  have dropped := Counted.dropped_foldl (List.finRange 32) sys counted mem
  refine dropped.moves.trans (Moves.of_eq rfl rfl rfl ?_)
  intro f
  apply references_congr
  rintro ⟨owner, fd⟩
  by_cases eq : owner = tbl
  · subst eq
    simp [fdTableDestroy, dropped.empty fd (List.mem_finRange fd)]
  · simp [fdTableDestroy, eq]

lemma references_pos_of_fdGet (mem : tbl ∈ sys.tables)
    (hf : sys.fdGet tbl fd = some f) : 0 < sys.references f := by
  obtain ⟨s, -, points⟩ := Option.bind_eq_some_iff.mp hf
  exact references_pos (tbl, s) mem points

lemma entries_freeDescriptor (sys : OpenFiles) {fd : Fin 32}
    (hf : sys.freeDescriptor tbl = some fd) : sys.entries (tbl, fd) = none := by
  have free := List.find?_some hf
  exact Option.isNone_iff_eq_none.mp free

section
variable (counted : Counted sys)
include counted

lemma Counted.moves_fdClose (fd : Int)
    (mem : tbl ∈ sys.tables) : Moves sys (sys.fdClose tbl fd).2 := by
  unfold fdClose
  cases descriptor fd with
  | none => exact .refl sys
  | some s =>
    have dropped := counted.moves_dropEntry (tbl, s) mem
    cases points : sys.entries (tbl, s) with
    | none =>
      simp only [points]
      exact .refl sys
    | some =>
      simp only [dropEntry, points] at dropped ⊢
      exact dropped

lemma Counted.moves_dupFile (mem : tbl ∈ sys.tables) (pos : 0 < sys.references f) :
    Moves sys (sys.dupFile tbl f).2 := by
  unfold dupFile fdAlloc
  cases hf : (sys.fileRef f).freeDescriptor tbl with
  | none => exact counted.moves_unshare pos
  | some fd =>
    have notNegative : ¬ ((fd : Nat) : Int) < 0 := by omega
    simp only [notNegative, if_false]
    exact moves_share (tbl, fd) mem (entries_freeDescriptor (sys.fileRef f) hf) pos

lemma Counted.moves_sysDup (fd : Int)
    (mem : tbl ∈ sys.tables) : Moves sys (sys.sysDup tbl fd).2 := by
  unfold sysDup
  cases hf : sys.fdGet tbl fd with
  | none => exact .refl sys
  | some => exact counted.moves_dupFile mem (references_pos_of_fdGet mem hf)

lemma Counted.moves_sysFcntl (fd : Int) (command : FcntlCommand) (mem : tbl ∈ sys.tables) :
    Moves sys (sys.sysFcntl tbl fd command).2 := by
  unfold sysFcntl
  cases hf : sys.fdGet tbl fd with
  | none => exact .refl sys
  | some =>
    cases command with
    | dupfd => exact counted.moves_dupFile mem (references_pos_of_fdGet mem hf)
    | setfl => exact .of_eq rfl rfl rfl fun _ => rfl
    | getfd | setfd | getfl | unknown => exact .refl sys

lemma Counted.moves_sysDup2 (oldfd newfd : Int)
    (mem : tbl ∈ sys.tables) : Moves sys (sys.sysDup2 tbl oldfd newfd).2 := by
  unfold sysDup2
  cases hf : sys.fdGet tbl oldfd with
  | none => exact .refl sys
  | some =>
    have pos := references_pos_of_fdGet mem hf
    split_ifs
    · exact .refl sys
    · exact .refl sys
    unfold fdInstallAt
    cases within : descriptor newfd with
    | none =>
      rw [descriptor, dif_pos (by omega)] at within
      exact absurd within (by simp)
    | some s =>
      cases points : sys.entries (tbl, s) with
      | none =>
        simp only [fileRef, points]
        exact moves_share (tbl, s) mem points pos
      | some =>
        simp only [fileRef, points]
        exact counted.moves_replace (tbl, s) mem points pos

end

lemma references_install (s : Nat × Fin 32) (fl : Int) (mem : s.1 ∈ sys.tables)
    (he : sys.entries s = none) (o : Nat) :
    ((sys.fileAlloc fl).setEntry s (some sys.files)).references o =
      sys.references o + if o = sys.files then 1 else 0 := by
  have written := references_setEntry (sys.fileAlloc fl) mem (some sys.files) o
  simpa [fileAlloc, he, eq_comm, references, slots] using written

lemma Counted.install (counted : Counted sys) (s : Nat × Fin 32) (fl : Int)
    (mem : s.1 ∈ sys.tables) (he : sys.entries s = none) :
      Counted ((sys.fileAlloc fl).setEntry s (some sys.files)) where
  counted := by
    intro f hb notFreed
    change f < sys.files + 1 at hb
    rw [references_install s fl mem he]
    change update sys.refcount sys.files 1 f = _ ∧ _
    by_cases new : f = sys.files
    · have none := (counted.allocated f (by omega)).1
      subst new
      simp [none]
    simp only [update_of_ne new, new, if_false, Nat.add_zero]
    exact counted.counted f (by omega) notFreed
  once := counted.once
  gone := by
    intro f hf
    rw [references_install s fl mem he, counted.gone f hf, if_neg]
    intro new
    exact hf (counted.allocated f (by omega)).2
  allocated := by
    intro f beyond
    change sys.files + 1 ≤ f at beyond
    have pre := counted.allocated f (by omega)
    rw [references_install s fl mem he, if_neg (by omega)]
    exact pre

lemma Counted.discard (counted : Counted sys) (fl : Int) :
    Counted ((sys.fileAlloc fl).fileUnref sys.files) ∧
      ∀ f, ((sys.fileAlloc fl).fileUnref sys.files).kfrees f =
        sys.kfrees f + if f = sys.files then 1 else 0 := by
  have hf (f : Nat) : ((sys.fileAlloc fl).fileUnref sys.files).kfrees f =
    sys.kfrees f + if f = sys.files then 1 else 0 := by
    rw [kfrees_fileUnref]
    simp [fileAlloc]
  have new := counted.allocated sys.files (Nat.le_refl _)
  refine ⟨⟨?_, ?_, ?_, ?_⟩, hf⟩
  · intro f hb notFreed
    change f < sys.files + 1 at hb
    rw [hf] at notFreed
    split_ifs at notFreed with eq
    have refsEq : ((sys.fileAlloc fl).fileUnref sys.files).refcount f = sys.refcount f := by
      rw [refcount_fileUnref, if_neg eq]
      simp [fileAlloc, eq]
    rw [refsEq]
    exact counted.counted f (by omega) notFreed
  · intro f
    have once := counted.once f
    rw [hf]
    split_ifs with eq
    · subst eq
      omega
    · exact once
  · intro f isFreed
    rw [hf] at isFreed
    split_ifs at isFreed with eq
    · subst eq
      exact new.1
    · exact counted.gone f isFreed
  intro f beyond
  change sys.files + 1 ≤ f at beyond
  rw [hf, if_neg (by omega)]
  exact counted.allocated f (by omega)

lemma vfsOpen_cases (sys : OpenFiles) (tbl : Nat) (fl : Int) (no : Option Int) (ram : Bool) :
    (sys.vfsOpen tbl fl no ram).2 = sys ∨ (sys.vfsOpen tbl fl no ram).2 =
        (sys.fileAlloc fl).fileUnref sys.files ∨
      ∃ fd, sys.entries (tbl, fd) = none ∧ (sys.vfsOpen tbl fl no ram).2 =
          (sys.fileAlloc fl).setEntry (tbl, fd) (some sys.files) := by
  unfold vfsOpen fdAlloc
  cases no with
  | some => exact .inl rfl
  | none =>
    cases ram with
    | false => exact .inl rfl
    | true =>
      cases hf : (sys.fileAlloc fl).freeDescriptor tbl with
      | none => exact .inr (.inl rfl)
      | some fd =>
        have notNegative : ¬ ((fd : Nat) : Int) < 0 := by omega
        simp only [if_true, notNegative, if_false]
        exact .inr (.inr ⟨fd, entries_freeDescriptor (sys.fileAlloc fl) hf, rfl⟩)

lemma fdInstallAt_empty (s : Fin 32)
    (within : descriptor fd = some s) (he : sys.entries (tbl, s) = none) :
    (sys.fdInstallAt tbl fd f).2 = sys.setEntry (tbl, s) (some f) := by
  simp [fdInstallAt, within, he]

lemma wireStdio_eq (he : ∀ fd, sys.entries (tbl, fd) = none) :
    sys.wireStdio tbl true true = (((((sys.fileAlloc 2).setEntry (tbl, 0) (some sys.files)).fileRef
        sys.files).setEntry (tbl, 1) (some sys.files)).fileRef
          sys.files).setEntry (tbl, 2) (some sys.files) := by
  have fst : ((sys.fileAlloc 2).fdInstallAt tbl 0 sys.files).2 =
    (sys.fileAlloc 2).setEntry (tbl, 0) (some sys.files) :=
    fdInstallAt_empty 0 (by rfl) (he 0)
  have snd : ((((sys.fileAlloc 2).setEntry (tbl, 0) (some sys.files)).fileRef
    sys.files).fdInstallAt tbl 1 sys.files).2 = _ :=
    fdInstallAt_empty 1 (by rfl) (by simp [setEntry, fileRef, fileAlloc, he])
  have third : (((((sys.fileAlloc 2).setEntry (tbl, 0) (some sys.files)).fileRef
    sys.files).setEntry (tbl, 1) (some sys.files)).fileRef
      sys.files |>.fdInstallAt tbl 2 sys.files).2 = _ :=
    fdInstallAt_empty 2 (by rfl) (by simp [setEntry, fileRef, fileAlloc, he])
  simp [wireStdio, fst, snd, third]

lemma Counted.wireStdio (counted : Counted sys)
    (mem : tbl ∈ sys.tables) (he : ∀ fd, sys.entries (tbl, fd) = none) :
    Counted (sys.wireStdio tbl true true) ∧ (sys.wireStdio tbl true true).kfrees = sys.kfrees ∧
        ∀ f, (sys.wireStdio tbl true true).references f =
          sys.references f + if f = sys.files then 3 else 0 := by
  rw [wireStdio_eq he]
  have one := references_install (tbl, 0) 2 mem (he 0)
  have counted := counted.install (tbl, 0) 2 mem (he 0)
  generalize installed :
    (sys.fileAlloc 2).setEntry (tbl, 0) (some sys.files) = fst at one counted ⊢
  have memberFirst : tbl ∈ fst.tables := by rw [← installed]; exact mem
  have emptyFirst (fd : Fin 32) (o : fd ≠ 0) : fst.entries (tbl, fd) = none := by
    rw [← installed]
    simp [setEntry, fileAlloc, o, he]
  have kfreesFirst : fst.kfrees = sys.kfrees := by rw [← installed]; rfl
  have pos : 0 < fst.references sys.files := by rw [one, if_pos rfl]; omega
  have two := references_share (tbl, 1) sys.files memberFirst (emptyFirst 1 (by decide))
  have counted := counted.moves (moves_share (tbl, 1) memberFirst (emptyFirst 1 (by decide)) pos)
  generalize hs :
    (fst.fileRef sys.files).setEntry (tbl, 1) (some sys.files) = snd
    at two counted ⊢
  have memberSecond : tbl ∈ snd.tables := by rw [← hs]; exact memberFirst
  have emptySecond : snd.entries (tbl, 2) = none := by
    rw [← hs]
    simpa [setEntry, fileRef] using emptyFirst 2 (by decide)
  have kfreesSecond : snd.kfrees = sys.kfrees := by rw [← hs]; exact kfreesFirst
  have positiveSecond : 0 < snd.references sys.files := by rw [two, if_pos rfl]; omega
  refine ⟨counted.moves (moves_share (tbl, 2) memberSecond emptySecond
    positiveSecond), kfreesSecond, ?_⟩
  intro f
  rw [references_share (tbl, 2) sys.files memberSecond emptySecond, two, one]
  split_ifs <;> omega

def Call.opens : Call → Bool
  | .vfsOpen _ _ _ _ => true
  | _ => false

/-- When it clears the last entry, or is the failing `vfs_open` that allocated the file. -/
def FreesLast (pre : OpenFiles) (action : Call) : Prop :=
  ∀ f, (pre.call action).kfrees f = pre.kfrees f +
    if (0 < pre.references f ∧ (pre.call action).references f = 0) ∨
        (action.opens ∧ pre.files ≤ f ∧ f < (pre.call action).files ∧
          (pre.call action).references f = 0)
    then 1 else 0

lemma FreesLast.of_moves (moves : Moves pre (pre.call action)) : FreesLast pre action := by
  intro f
  have files := moves.files
  rw [moves.kfrees]
  congr 1
  by_cases last : 0 < pre.references f ∧ (pre.call action).references f = 0
  · rw [if_pos last, if_pos (.inl last)]
  rw [if_neg last, if_neg]
  rintro (now | ⟨-, beyond, hb, -⟩)
  · exact last now
  · omega

lemma Counted.vfsOpen (counted : Counted sys) {fl : Int}
    {no : Option Int} {ram : Bool} (mem : tbl ∈ sys.tables) :
    Counted (sys.call (.vfsOpen tbl fl no ram)) ∧ FreesLast sys (.vfsOpen tbl fl no ram) := by
  rcases vfsOpen_cases sys tbl fl no ram with
    unchanged | full | ⟨fd, he, installed⟩
  · have moves : Moves sys (sys.call (.vfsOpen tbl fl no ram)) := by
      rw [call, unchanged]
      exact .refl sys
    exact ⟨counted.moves moves, FreesLast.of_moves moves⟩
  · have discarded := counted.discard fl
    have new := counted.allocated sys.files (Nat.le_refl _)
    have eq (f : Nat) :
      ((sys.fileAlloc fl).fileUnref sys.files).references f = sys.references f := rfl
    have files : ((sys.fileAlloc fl).fileUnref sys.files).files = sys.files + 1 := rfl
    refine ⟨by rw [call, full]; exact discarded.1, ?_⟩
    intro f
    rw [call, full, discarded.2, eq, files]
    by_cases isNew : f = sys.files
    · subst isNew
      rw [if_pos rfl, if_pos (.inr ⟨rfl, Nat.le_refl _, by omega, new.1⟩)]
    rw [if_neg isNew, if_neg]
    rintro (now | ⟨-, beyond, hb, -⟩) <;> omega
  have references := references_install (tbl, fd) fl mem he
  refine ⟨by rw [call, installed]; exact counted.install (tbl, fd) fl mem he, ?_⟩
  intro f
  have files : ((sys.fileAlloc fl).setEntry (tbl, fd) (some sys.files)).files = sys.files + 1 := rfl
  rw [call, installed, references, files, if_neg]
  · rfl
  rintro (now | ⟨-, beyond, hb, none⟩)
  · omega
  rw [if_pos (by omega)] at none
  omega

lemma Counted.call (counted : Counted sys) (ha : sys.Allowed action) :
    Counted (sys.call action) ∧ FreesLast sys action := by
  have keeps (moves : Moves sys (sys.call action)) :
    Counted (sys.call action) ∧ FreesLast sys action :=
    ⟨counted.moves moves, FreesLast.of_moves moves⟩
  cases action with
  | create => exact keeps (moves_fdTableCreate ha)
  | destroy => exact keeps (counted.moves_fdTableDestroy ha)
  | vfsOpen => exact counted.vfsOpen ha
  | close _ fd => exact keeps (counted.moves_fdClose fd ha)
  | dup _ fd => exact keeps (counted.moves_sysDup fd ha)
  | dup2 _ oldfd newfd => exact keeps (counted.moves_sysDup2 oldfd newfd ha)
  | fcntl _ fd command => exact keeps (counted.moves_sysFcntl fd command ha)
  | wireStdio _ console ram =>
    obtain ⟨mem, he⟩ := ha
    cases console with
    | false => exact keeps (Moves.refl sys)
    | true =>
      cases ram with
      | false => exact keeps (Moves.refl sys)
      | true =>
        obtain ⟨post, kfrees, references⟩ := counted.wireStdio mem he
        refine ⟨post, ?_⟩
        intro f
        rw [call, kfrees, references, if_neg]
        · rfl
        rintro (now | ⟨isOpen, -⟩)
        · omega
        · exact absurd isOpen Bool.false_ne_true

lemma Counted.init (tbls : Finset Nat) : Counted (init tbls) where
  counted := fun _ hb => absurd hb (Nat.not_lt_zero _)
  once := fun _ => Nat.zero_le 1
  gone := fun _ hf => absurd rfl hf
  allocated := fun _ _ => ⟨Finset.sum_eq_zero fun _ _ => rfl, rfl⟩

lemma Counted.run (counted : Counted sys) {cs : List Call}
    (ran : sys.run cs = some post) : Counted post := by
  induction cs generalizing sys with
  | nil =>
    cases ran
    exact counted
  | cons _ _ ih =>
    rw [run] at ran
    split_ifs at ran with ha
    exact ih (counted.call ha).1 ran

def Live (sys : OpenFiles) (file : Nat) : Prop := file < sys.files ∧ sys.kfrees file = 0

/-- Counts are numbers of entries, and files are freed once, with the last of them. -/
theorem open_file_counts_of_run (tbls : Finset Nat) (cs : List Call)
    (sys : OpenFiles) (ran : (init tbls).run cs = some sys) :
    (∀ f, sys.Live f → sys.refcount f = sys.references f) ∧ (∀ s : Nat × Fin 32, s.1 ∈ sys.tables →
        ∀ f, sys.entries s = some f → sys.Live f) ∧
      (∀ f < sys.files, 0 < sys.references f ∧ sys.kfrees f = 0 ∨
        sys.references f = 0 ∧ sys.kfrees f = 1) ∧
      ∀ action, sys.Allowed action → FreesLast sys action := by
  have counted := (Counted.init tbls).run ran
  refine ⟨fun f live => (counted.counted f live.1 live.2).1, ?_, ?_,
    fun action ha => (counted.call ha).2⟩
  · intro s member f points
    have positive := references_pos s member points
    constructor
    · by_contra beyond
      have zero := (counted.allocated f (by omega)).1
      omega
    by_contra hf
    have zero := counted.gone f hf
    omega
  intro f hb
  by_cases notFreed : sys.kfrees f = 0
  · exact .inl ⟨(counted.counted f hb notFreed).2, notFreed⟩
  have once := counted.once f
  exact .inr ⟨counted.gone f notFreed, by omega⟩

def stdioThenDup2 : List Call :=
  [.wireStdio 0 true true, .vfsOpen 0 0 none true, .dup2 0 3 1, .dup 0 0, .close 0 3, .destroy 0]

theorem stdioThenDup2_counts :
    ∃ sys, (init {0}).run stdioThenDup2 = some sys ∧ sys.kfrees 0 = 1 ∧
      ∀ f, sys.Live f → sys.refcount f = sys.references f := by
  have ran : (((init {0}).run stdioThenDup2).map
    fun sys => decide (sys.kfrees 0 = 1)) = some true := by
    decide +kernel
  obtain ⟨sys, ranEq, hf⟩ := Option.map_eq_some_iff.mp ran
  exact ⟨sys, ranEq, of_decide_eq_true hf, (open_file_counts_of_run _ _ sys ranEq).1⟩

end OpenFiles

end HnxKernel
