import Hnx.ByteMemory

/-!
# The buffers of the shell

A command without a slash is put between `/bin/` and `.hxe` by `strcat`, whatever its length.
-/

namespace HnxKernel

open List

abbrev Text := List Char

def isSpace (c : Char) : Bool := c = ' ' || c = '\t' || c = '\r'

/-- `n` more arguments are taken. -/
def parseArgs : Nat → Text → List Text
  | 0, _ => []
  | n + 1, p =>
    match p.dropWhile isSpace with
    | [] => []
    | '"' :: p => p.takeWhile (· ≠ '"') :: parseArgs n (p.dropWhile (· ≠ '"')).tail
    | p => p.takeWhile (!isSpace ·) :: parseArgs n (p.dropWhile (!isSpace ·)).tail

/-- The entries of `argv` that are written; `none` is the null pointer. -/
def parseLine (line : Text) (max : Nat) : List (Option Text) :=
  (parseArgs (max - 1) line).map some ++ [none]

/-- A value has at most `SHELL_VAR_VALUE - 1` characters. -/
structure ShellVars where
  get : Text → Option Text
  short : ∀ name value, get name = some value → value.length < 96

def expand (vars : ShellVars) : Text → Text
  | '$' :: name => (vars.get name).getD ('$' :: name)
  | arg => arg

/-- The string at `dst` and the offsets that are written. -/
def strcat (dst src : Text) : Text × List Nat := (dst ++ src, range' dst.length (src.length + 1))

def binPath (cmd : Text) : List Nat :=
  let (path, first) := strcat [] "/bin/".toList
  let (path, second) := strcat path cmd
  0 :: first ++ second ++ (strcat path ".hxe".toList).2

/-- The offsets of `out` that are written. -/
def resolvePath (cmd : Text) (size : Nat) : List Nat :=
  if '/' ∈ cmd then range (min cmd.length (size - 1) + 1) else binPath cmd

/-- `strncpy` fills the buffer up to the terminator. -/
def whichPath (cmd : Text) (max : Nat) : List Nat :=
  if '/' ∈ cmd then range (max - 1) ++ [max - 1] else binPath cmd

/-- The path buffers that a line writes to: their sizes, and the offsets. -/
def builtinTry (cmd : Text) (args : List Text) : Option (List (Nat × List Nat)) :=
  if cmd = "which".toList then
    some (args.head?.toList.map fun arg => (128, whichPath arg 128))
  else if cmd = "selftest".toList then
    some [(128, whichPath "echo".toList 128), (128, whichPath "definitely_not_a_cmd".toList 128)]
  else if cmd ∈ ["exit", "cd", "pwd", "set", "unset", "export", "history", "help"].map String.toList
    then some []
  else none

def runLine (vars : ShellVars) (line : Text) : List (Nat × List Nat) :=
  match (parseArgs 15 line).map (expand vars) with
  | [] => []
  | cmd :: args => (builtinTry cmd args).getD [(256, resolvePath cmd 256)]

/-- A path buffer of the size holds the path of a command. -/
def RoomFor (size : Nat) (cmd : Text) : Prop := '/' ∈ cmd ∨ cmd.length + 10 ≤ size

/-- The argument of `which`, or a command that is no builtin, fits its buffer. -/
def LineFits (vars : ShellVars) (line : Text) : Prop :=
  match (parseArgs 15 line).map (expand vars) with
  | [] => True
  | cmd :: args =>
    if cmd = "which".toList then ∀ arg ∈ args.head?, RoomFor 128 arg
    else (builtinTry cmd args).isSome ∨ RoomFor 256 cmd

instance (size : Nat) (cmd : Text) : Decidable (RoomFor size cmd) :=
  inferInstanceAs (Decidable (_ ∨ _))

lemma length_parseArgs (n : Nat) (p : Text) : (parseArgs n p).length ≤ n := by
  induction n generalizing p with
  | zero => simp [parseArgs]
  | succ n ih =>
    rw [parseArgs]
    split
    · simp
    · exact Nat.succ_le_succ (ih _)
    · exact Nat.succ_le_succ (ih _)

lemma binPath_inside_iff {size : Nat} {cmd : Text} :
    (∀ i ∈ binPath cmd, i < size) ↔ cmd.length + 10 ≤ size := by
  simp only [binPath, strcat, mem_cons, mem_append, mem_range'_1]
  constructor
  · intro inside
    have last := inside (cmd.length + 9) (by simp)
    omega
  · intro room i mem
    simp at mem
    omega

lemma resolvePath_inside_iff {cmd : Text} :
    (∀ i ∈ resolvePath cmd 256, i < 256) ↔ RoomFor 256 cmd := by
  rw [resolvePath, RoomFor]
  split_ifs with slash
  · simp only [slash, true_or, iff_true, mem_range]
    omega
  · simp only [slash, false_or, binPath_inside_iff]

lemma whichPath_inside_iff {cmd : Text} :
    (∀ i ∈ whichPath cmd 128, i < 128) ↔ RoomFor 128 cmd := by
  rw [whichPath, RoomFor]
  split_ifs with slash
  · simp only [slash, true_or, iff_true, mem_append, mem_range, mem_singleton]
    omega
  · simp only [slash, false_or, binPath_inside_iff]

/-- At most 16 entries of `argv`, the last one null; and the path buffers suffice exactly if the
names fit. -/
theorem runLine_inside_iff (vars : ShellVars) (line : Text) :
    (parseLine line 16).length ≤ 16 ∧
    (parseLine line 16)[(parseArgs 15 line).length]? = some none ∧
    ((∀ buffer ∈ runLine vars line, ∀ i ∈ buffer.2, i < buffer.1) ↔ LineFits vars line) := by
  refine ⟨?_, by simp [parseLine], ?_⟩
  · rw [parseLine, length_append, length_map]
    exact Nat.succ_le_succ (length_parseArgs 15 line)
  rw [runLine, LineFits]
  split
  · simp
  · rw [builtinTry]
    split_ifs with which selftest builtin
    · simp [whichPath_inside_iff]
    · simp [whichPath_inside_iff]
      decide
    · simp
    · simp [resolvePath_inside_iff]

/-- The name of a command that is found nowhere. -/
theorem runLine_overflows : (replicate 247 'a').length ≤ 255 ∧ ¬ ∀ buffer ∈
    runLine ⟨fun _ => none, by simp⟩ (replicate 247 'a'), ∀ i ∈ buffer.2, i < buffer.1 := by
  decide +kernel

end HnxKernel
