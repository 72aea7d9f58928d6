import Hnx.UserRanges

/-!
# The strings of a process

`sys_spawn` frees the path only when it fails, and `process_env_set` appends.
-/

namespace HnxKernel

open List

section

/-- `faults` says which calls of `kmalloc` fail. -/
structure Strings where
  allocated : Nat
  freed : List Nat
  faults : List Bool

def Strings.kfree (st : Strings) (str : Nat) : Strings := { st with freed := st.freed ++ [str] }

section

variable (ram : ByteMemory) (pml4 : Nat)

def stringLength (usrc : Nat) : Nat → Nat → Option Nat
  | 0, _ => none
  | left + 1, len =>
    if userRangeIsValid ram pml4 (u64 (usrc + len)) 1 false then
      (pagingTranslate ram pml4 (u64 (usrc + len))).bind fun phys =>
        if ram phys = 0 then some (len + 1) else stringLength usrc left (len + 1)
    else
      none

def userCopyStringFromUser (usrc maxlen : Nat) (st : Strings) : Option Nat × Strings :=
  match stringLength ram pml4 usrc maxlen 0 with
  | none => (none, st)
  | some len =>
    if st.faults.headD false then
      (none, { st with faults := st.faults.tail })
    else
      -- a buffer that cannot be filled is dropped
      ((userCopyFromSpace ram pml4 usrc len).map fun _ => st.allocated,
        { st with allocated := st.allocated + 1, faults := st.faults.tail })

def copyArguments (uargv : Nat) : Nat → List Nat → Strings → Option (List Nat) × Strings
  | 0, argv, st => (some argv, st)
  | left + 1, argv, st =>
    match userCopyFromUser ram pml4 (u64 (uargv + argv.length * 8)) 8 with
    | none => (none, st)
    | some buf =>
      if buf.readLE 0 8 = 0 then
        (some argv, st)
      else
        match userCopyStringFromUser ram pml4 (buf.readLE 0 8) 256 st with
        | (none, post) => (none, post)
        | (some str, post) => copyArguments uargv left (argv ++ [str]) post

def spawnArguments (uargv : Nat) (st : Strings) : Option (List Nat) × Strings :=
  if uargv = 0 then (some [], st) else copyArguments ram pml4 uargv 32 [] st

/-- `pid` is what `process_spawn_argv` returns. -/
def sysSpawn (upath uargv : Nat) (pid : Int) (st : Strings) : Int × Strings :=
  match userCopyStringFromUser ram pml4 upath 256 st with
  | (none, st) => (-sysEfault, st)
  | (some path, st) =>
    match spawnArguments ram pml4 uargv st with
    | (none, st) => (-sysEfault, st.kfree path)
    | (some copied, st) =>
      let argv := if copied = [] then [path] else copied
      (pid, ((argv.filter fun str => str ≠ path).foldl Strings.kfree st).kfree path)

end

def Strings.AllFreed (st : Strings) : Prop := st.freed.Perm (range st.allocated)

variable {ram : ByteMemory} {pml4 usrc uargv maxlen left : Nat} {st : Strings} {argv : List Nat}

/-- The word `k` of the vector; `none` if it cannot be read. -/
def argument (ram : ByteMemory) (pml4 uargv k : Nat) : Option Nat :=
  (userCopyFromUser ram pml4 (u64 (uargv + k * 8)) 8).map fun buf => buf.readLE 0 8

section

variable (ram : ByteMemory) (pml4 : Nat) (faults : List Bool)

/-- The string ends in time, and the call `i` of `kmalloc` has a buffer for it. -/
def Buffered (usrc i : Nat) : Prop :=
  (stringLength ram pml4 usrc 256 0).isSome ∧ faults.getD i false = false

/-- Its bytes can be copied as well. -/
def Copied (usrc i : Nat) : Prop :=
  Buffered ram pml4 faults usrc i ∧
    ∀ len ∈ stringLength ram pml4 usrc 256 0, (userCopyFromSpace ram pml4 usrc len).isSome

/-- From the word `k` on, at most `left` strings are copied up to the end of the vector. -/
def ArgumentsCopied (uargv : Nat) : Nat → Nat → Prop
  | 0, _ => True
  | left + 1, k => ∃ ptr, argument ram pml4 uargv k = some ptr ∧
      (ptr ≠ 0 → Copied ram pml4 faults ptr (k + 1) ∧ ArgumentsCopied uargv left (k + 1))

/-- All the arguments are copied, or the first fails before there is a buffer for it. -/
def ArgumentsTidy (uargv : Nat) : Prop :=
  ArgumentsCopied ram pml4 faults uargv 32 0 ∨
    ∀ ptr ∈ argument ram pml4 uargv 0, ptr ≠ 0 ∧ ¬ Buffered ram pml4 faults ptr 1

end

variable {faults : List Bool} {i : Nat}

lemma userCopyStringFromUser_spec (left : st.faults = faults.drop i) : ∃ res post,
    userCopyStringFromUser ram pml4 usrc 256 st = (res, post) ∧ post.freed = st.freed ∧
      (res.isSome ↔ Copied ram pml4 faults usrc i) ∧
      (post.allocated = st.allocated ∧ ¬ Buffered ram pml4 faults usrc i ∨
        post.allocated = st.allocated + 1 ∧ Buffered ram pml4 faults usrc i) ∧
      ∀ str ∈ res, str = st.allocated ∧ post.allocated = st.allocated + 1 ∧
        post.faults = faults.drop (i + 1) := by
  have fault : st.faults.headD false = faults.getD i false := by
    rw [left, headD_eq_head?_getD, head?_drop, getD_eq_getElem?_getD]
  rw [userCopyStringFromUser, fault]
  simp only [Copied, Buffered]
  cases stringLength ram pml4 usrc 256 0 with
  | none => exact ⟨_, _, rfl, rfl, by simp, .inl ⟨rfl, by simp⟩, by simp⟩
  | some len =>
    cases faults.getD i false with
    | true => exact ⟨_, _, rfl, rfl, by simp, .inl ⟨rfl, by simp⟩, by simp⟩
    | false =>
      refine ⟨_, _, rfl, rfl, by simp, .inr ⟨rfl, by simp⟩, fun str mem => ?_⟩
      obtain ⟨_, -, rfl⟩ := Option.map_eq_some_iff.mp mem
      exact ⟨rfl, rfl, by rw [left, tail_drop]⟩

lemma copyArguments_spec (count : st.allocated = argv.length + 1)
    (ha : argv = range' 1 argv.length) (later : st.faults = faults.drop (argv.length + 1)) :
    ∃ res post, copyArguments ram pml4 uargv left argv st = (res, post) ∧
      post.freed = st.freed ∧ st.allocated ≤ post.allocated ∧
      (∀ copied ∈ res, post.allocated = copied.length + 1 ∧ copied = range' 1 copied.length) ∧
      (res.isSome ↔ ArgumentsCopied ram pml4 faults uargv left argv.length) := by
  induction left generalizing argv st with
  | zero =>
    exact ⟨_, _, rfl, rfl, le_rfl, fun _ mem => Option.some.inj mem ▸ ⟨count, ha⟩,
      iff_of_true rfl trivial⟩
  | succ left ih =>
    rw [copyArguments, ArgumentsCopied, argument]
    cases word : userCopyFromUser ram pml4 (u64 (uargv + argv.length * 8)) 8 with
    | none => exact ⟨_, _, rfl, rfl, le_rfl, by simp, by simp⟩
    | some buf =>
      simp only [Option.map_some, Option.some_inj, exists_eq_left']
      split_ifs with zero
      · exact ⟨_, _, rfl, rfl, le_rfl, fun _ mem => Option.some.inj mem ▸ ⟨count, ha⟩,
          iff_of_true rfl fun nonzero => absurd zero nonzero⟩
      obtain ⟨res, post, run, freed, isCopied, allocated, taken⟩ :=
        @userCopyStringFromUser_spec ram pml4 (buf.readLE 0 8) st faults _ later
      rw [run, ← isCopied, forall_prop_of_true zero]
      cases res with
      | none => exact ⟨_, _, rfl, freed, by omega, by simp, by simp⟩
      | some str =>
        obtain ⟨rfl, one, next⟩ := taken str rfl
        have length : (argv ++ [st.allocated]).length = argv.length + 1 := by simp
        obtain ⟨res, last, run, freed', le, strings, isAll⟩ := @ih post (argv ++ [st.allocated])
          (by rw [length, one, count]) (by rw [length, range'_1_concat, ← ha, count, Nat.add_comm])
          (by rw [length, next])
        rw [length] at isAll
        exact ⟨res, last, run, freed'.trans freed, by omega, strings, by simpa using isAll⟩

/-- If the vector cannot be copied, only the path is allocated exactly if the first argument
fails before there is a buffer for it. -/
lemma copyArguments_none (one : st.allocated = 1) (later : st.faults = faults.drop 1)
    (fails : (copyArguments ram pml4 uargv (left + 1) [] st).1 = none) :
    (copyArguments ram pml4 uargv (left + 1) [] st).2.allocated = 1 ↔
      ∀ ptr ∈ argument ram pml4 uargv 0, ptr ≠ 0 ∧ ¬ Buffered ram pml4 faults ptr 1 := by
  rw [copyArguments, length_nil] at fails ⊢
  rw [argument]
  cases word : userCopyFromUser ram pml4 (u64 (uargv + 0 * 8)) 8 with
  | none => exact iff_of_true one (by simp)
  | some buf =>
    simp only [word] at fails ⊢
    split_ifs at fails ⊢ with zero
    simp only [Option.map_some, Option.mem_some_iff, forall_eq']
    obtain ⟨res, post, run, -, isCopied, allocated, taken⟩ :=
      @userCopyStringFromUser_spec ram pml4 (buf.readLE 0 8) st faults 1 later
    simp only [run] at fails ⊢
    cases res with
    | none =>
      dsimp only
      rcases allocated with ⟨none, unbuffered⟩ | ⟨one', buffered⟩
      · exact iff_of_true (none.trans one) ⟨zero, unbuffered⟩
      · exact iff_of_false (by omega) (fun tidy => tidy.2 buffered)
    | some str =>
      obtain ⟨rfl, two, next⟩ := taken str rfl
      obtain ⟨res, last, run, -, le, -⟩ := @copyArguments_spec ram pml4 uargv left post
        [st.allocated] faults (by rw [two, one]; rfl) (by rw [one]; rfl) next
      dsimp only
      rw [nil_append, run]
      exact iff_of_false (by dsimp only; omega) (fun tidy => tidy.2 (isCopied.mp rfl).1)

lemma foldl_kfree (strs : List Nat) :
    strs.foldl Strings.kfree st = { st with freed := st.freed ++ strs } := by
  induction strs generalizing st with
  | nil => simp
  | cons _ _ ih => simp [ih, Strings.kfree]

/-- All strings are freed exactly if no buffer is lost for the path and all the arguments are
copied, or the first fails before there is a buffer for it. -/
theorem sysSpawn_allFreed_iff (upath : Nat) (pid : Int) (faults : List Bool) :
    (sysSpawn ram pml4 upath uargv pid ⟨0, [], faults⟩).2.AllFreed ↔
      ¬ Buffered ram pml4 faults upath 0 ∨ Copied ram pml4 faults upath 0 ∧
        (uargv = 0 ∨ ArgumentsTidy ram pml4 faults uargv) := by
  obtain ⟨res, post, run, freed, isCopied, allocated, taken⟩ :=
    @userCopyStringFromUser_spec ram pml4 upath ⟨0, [], faults⟩ faults 0 rfl
  rw [sysSpawn, run]
  cases res with
  | none =>
    have notCopied : ¬ Copied ram pml4 faults upath 0 := fun copied => by
      simpa using isCopied.mpr copied
    simp only [Strings.AllFreed, freed, notCopied, false_and, or_false]
    rcases allocated with ⟨none, unbuffered⟩ | ⟨one, buffered⟩
    · exact iff_of_true (by rw [none]; exact .nil) unbuffered
    · exact iff_of_false (fun perm => by simpa [one] using perm.length_eq) (not_not.mpr buffered)
  | some path =>
    obtain ⟨rfl, one, later⟩ := taken path rfl
    have copied := isCopied.mp rfl
    rw [or_iff_right (not_not.mpr copied.1), and_iff_right copied]
    have cases : ∃ res last, spawnArguments ram pml4 uargv post = (res, last) ∧
        last.freed = post.freed ∧
        (∀ copied ∈ res, last.allocated = copied.length + 1 ∧ copied = range' 1 copied.length) ∧
        (res.isSome ∨ last.allocated = 1 ↔
          uargv = 0 ∨ ArgumentsTidy ram pml4 faults uargv) := by
      rw [spawnArguments]
      split_ifs with none
      · exact ⟨_, _, rfl, rfl, by simp [one], iff_of_true (.inl rfl) (.inl none)⟩
      obtain ⟨res, last, run, freed, -, strings, isAll⟩ :=
        @copyArguments_spec ram pml4 uargv 32 post [] faults one rfl later
      refine ⟨res, last, run, freed, strings, ?_⟩
      rw [or_iff_right none, ArgumentsTidy, isAll]
      cases res with
      | none =>
        refine or_congr Iff.rfl ?_
        have fails := @copyArguments_none ram pml4 uargv 31 post faults one later (by rw [run])
        rwa [run] at fails
      | some => exact iff_of_true (.inl (isAll.mp rfl)) (.inl (isAll.mp rfl))
    obtain ⟨res, last, args, freed', strings, isTidy⟩ := cases
    rw [← isTidy]
    simp only [args]
    rw [freed] at freed'
    cases res with
    | none =>
      simp only [Strings.AllFreed, Strings.kfree, freed']
      constructor
      · exact fun perm => .inr (by simpa using perm.length_eq.symm)
      rintro (copied | single)
      · cases copied
      · simp [single]
    | some copied =>
      obtain ⟨count, hr⟩ := strings copied rfl
      have kept : ((if copied = [] then [0] else copied).filter fun str => str ≠ 0) = copied := by
        split_ifs with none
        · simp [none]
        rw [hr]
        simp only [filter_eq_self, mem_range'_1, decide_eq_true_eq]
        omega
      refine iff_of_true ?_ (.inl rfl)
      simp only [kept, foldl_kfree, Strings.AllFreed, Strings.kfree, freed', count]
      rw [range_eq_range', range'_succ, ← hr]
      exact perm_append_singleton 0 copied

/-- A page at `USER_IMAGE_BASE`: a string, and a vector that goes on behind the page. -/
def spawningPage : ByteMemory := fun addr =>
  if addr ∈ [0x1000, 0x2000, 0x3010, 0x4000] then 7
  else if addr ∈ [0x1001, 0x2001, 0x3011, 0x4001] then UInt8.ofNat (addr / 256 + 16)
  else if addr = 0x5010 then 97
  else if addr ∈ [0x5ff0, 0x5ff9] then 16
  else if addr ∈ [0x5ff2, 0x5ffa] then 0x40
  else 0

theorem not_allFreed_spawningPage :
    ¬ (sysSpawn spawningPage 0x1000 0x400010 0x400ff0 1 ⟨0, [], []⟩).2.AllFreed := by
  have lost : (sysSpawn spawningPage 0x1000 0x400010 0x400ff0 1 ⟨0, [], []⟩).2.freed.length ≠
      (sysSpawn spawningPage 0x1000 0x400010 0x400ff0 1 ⟨0, [], []⟩).2.allocated := by
    decide +kernel
  exact fun hf => lost (by simpa using hf.length_eq)

end

def sysErange : Int := 34

abbrev Plain (key : List UInt8) : Prop := ∀ c ∈ key, c ≠ 0 ∧ c ≠ 61

/-- A string `key=value`, without its terminator. -/
structure Binding where
  key : List UInt8
  value : List UInt8
  plain : Plain key
  ends : 0 ∉ value

variable {key : List UInt8} {sets bound : List Binding} {b : Binding}

def Binding.text (b : Binding) : List UInt8 := b.key ++ 61 :: b.value

/-- The block is `environ` up to `environ_len`; `kv` is followed by its terminator. -/
def processEnvSet (env kv : List UInt8) : Int × List UInt8 :=
  let len := u32 (u32 kv.length + 1)
  if 512 < u32 (env.length + len) then
    (-sysEnomem, env)
  else
    (0, env ++ (kv ++ [0]).take len)

def envSearch (key : List UInt8) : Nat → List UInt8 → Option (List UInt8)
  | 0, _ => none
  | turns + 1, rest =>
    let entry := rest.takeWhile (· ≠ 0)
    if rest = [] then
      none
    else if key.length < entry.length ∧ entry[key.length]? = some 61 ∧
        entry.take key.length = key then
      some (entry.drop (key.length + 1))
    else
      envSearch key turns (rest.drop (entry.length + 1))

/-- A turn of the loop passes a terminator, so the length of the block bounds their number. -/
def processEnvGet (env key : List UInt8) (max : Int) : Int × Option (List UInt8) :=
  match envSearch key env.length env with
  | none => (-sysEnoent, none)
  | some val =>
    if max < val.length + 1 then (-sysErange, none) else (val.length, some (val ++ [0]))

def setAll (sets : List Binding) : List UInt8 × List Binding :=
  sets.foldl (fun st b => ((processEnvSet st.1 b.text).2,
    if (processEnvSet st.1 b.text).1 = 0 then st.2 ++ [b] else st.2)) ([], [])

def values (bound : List Binding) (key : List UInt8) : List (List UInt8) :=
  (bound.filter fun b => b.key = key).map Binding.value

def EnvironmentIsMap (sets : List Binding) (key : List UInt8) : Prop :=
  match (values (setAll sets).2 key).getLast? with
  | none => ∀ max, processEnvGet (setAll sets).1 key max = (-sysEnoent, none)
  | some val => ∀ max : Int, val.length < max →
    processEnvGet (setAll sets).1 key max = ((val.length : Int), some (val ++ [0]))

def block (bound : List Binding) : List UInt8 := bound.flatMap fun b => b.text ++ [0]

lemma processEnvSet_text {env : List UInt8} (hf : env.length ≤ 512)
    (hs : b.text.length + 513 < 2 ^ 32) : processEnvSet env b.text =
      if 512 < env.length + (b.text.length + 1) then (-sysEnomem, env)
      else (0, env ++ (b.text ++ [0])) := by
  have len : u32 (u32 b.text.length + 1) = (b.text ++ [0]).length := by
    rw [u32_of_lt (show b.text.length < _ by omega), u32_of_lt (by omega), length_append,
      length_singleton]
  rw [processEnvSet, len, take_length, length_append, length_singleton, u32_of_lt (by omega)]

lemma setAll_block (hs : ∀ b ∈ sets, b.text.length + 513 < 2 ^ 32) :
    (setAll sets).1 = block (setAll sets).2 ∧ (setAll sets).1.length ≤ 512 := by
  induction sets using reverseRecOn with
  | nil => exact ⟨rfl, Nat.zero_le _⟩
  | append_singleton sets b ih =>
    obtain ⟨hb, hf⟩ := ih fun b mem => hs b (mem_append_left _ mem)
    rw [setAll, foldl_append, ← setAll, foldl_cons, foldl_nil]
    rw [processEnvSet_text hf (hs b (by simp))]
    by_cases full : 512 < (setAll sets).1.length + (b.text.length + 1)
    · rw [if_pos full]
      exact ⟨hb, hf⟩
    rw [if_neg full, if_pos rfl]
    refine ⟨?_, ?_⟩
    · simp [hb, block]
    simp only [length_append, length_singleton]
    omega

lemma Binding.text_ends : 0 ∉ b.text := by
  have inKey : 0 ∉ b.key := fun mem => (b.plain 0 mem).1 rfl
  simp [text, b.ends, inKey]

/-- The comparison of the loop, on keys that are prefixes of each other as well. -/
lemma Binding.text_matches (plain : Plain key) :
    (key.length < b.text.length ∧ b.text[key.length]? = some 61 ∧ b.text.take key.length = key) ↔
      b.key = key := by
  constructor
  · rintro ⟨lt, sep, same⟩
    have hle : ¬ key.length < b.key.length := fun hlt => by
      rw [text, getElem?_append_left hlt] at sep
      exact (b.plain 61 (mem_of_getElem? sep)).2 rfl
    have hge : ¬ b.key.length < key.length := fun longer => by
      have sep : key[b.key.length]? = some 61 := by
        rw [← same, getElem?_take_of_lt longer, text, getElem?_append_right le_rfl]
        simp
      exact (plain 61 (mem_of_getElem? sep)).2 rfl
    have hl : key.length = b.key.length := by omega
    rw [← same, hl, text, take_left]
  rintro rfl
  simp [text]

lemma envSearch_block (plain : Plain key) {turns : Nat} (hlt : (block bound).length ≤ turns) :
    envSearch key turns (block bound) = (values bound key).head? := by
  induction bound generalizing turns with
  | nil => cases turns <;> simp [envSearch, block, values]
  | cons b bound ih =>
    have he : block (b :: bound) = b.text ++ 0 :: block bound := by simp [block]
    have ht : (b.text ++ 0 :: block bound).takeWhile (· ≠ 0) = b.text := by
      rw [takeWhile_append_of_pos fun c mem =>
        decide_eq_true (ne_of_mem_of_not_mem mem Binding.text_ends)]
      simp
    rw [he, length_append, length_cons] at hlt
    obtain ⟨turns, rfl⟩ : ∃ n, turns = n + 1 := ⟨turns - 1, by omega⟩
    rw [he, envSearch, ht, if_neg (by simp), values, filter_cons]
    simp only [Binding.text_matches plain, decide_eq_true_eq]
    split_ifs with isKey
    · simp [Binding.text, ← isKey]
    rw [← values, ← ih (show (block bound).length ≤ turns by omega)]
    simp

theorem environmentIsMap_iff (hs : ∀ b ∈ sets, b.text.length + 513 < 2 ^ 32)
    (plain : Plain key) : EnvironmentIsMap sets key ↔
      (values (setAll sets).2 key).head? = (values (setAll sets).2 key).getLast? := by
  have found : envSearch key (setAll sets).1.length (setAll sets).1 =
      (values (setAll sets).2 key).head? := by
    rw [(setAll_block hs).1]
    exact envSearch_block plain le_rfl
  unfold EnvironmentIsMap processEnvGet
  rw [found]
  cases values (setAll sets).2 key with
  | nil => simp
  | cons fst rest =>
    rw [head?_cons, getLast?_eq_some_getLast (cons_ne_nil fst rest)]
    generalize (fst :: rest).getLast _ = last
    constructor
    · intro isMap
      have got := isMap (fst.length + last.length + 1) (by omega)
      dsimp only at got
      rw [if_neg (by omega)] at got
      simpa using congrArg Prod.snd got
    intro same max hlt
    cases same
    exact if_neg (by omega)

lemma plain_letter : Plain [65] := by simp [Plain]

def firstA : Binding := ⟨[65], [49], plain_letter, by simp⟩

def secondA : Binding := ⟨[65], [50], plain_letter, by simp⟩

def onlyB : Binding := ⟨[66], [51, 51], by simp [Plain], by simp⟩

theorem environmentIsMap_firstA : EnvironmentIsMap [firstA, onlyB, firstA] [65] :=
  (environmentIsMap_iff (by decide) plain_letter).mpr rfl

theorem not_environmentIsMap_secondA : ¬ EnvironmentIsMap [firstA, secondA] [65] := by
  intro isMap
  have got : processEnvGet (setAll [firstA, secondA]).1 [65] 256 = (1, some [50, 0]) :=
    isMap 256 (by decide)
  exact absurd got (by decide)

end HnxKernel
