import Hnx.HnxfsContents
import Hnx.UserRanges

/-!
# Reading and writing files from a program

A write checks each piece of 256 bytes in its turn, a read checks after the file was read.
-/

namespace HnxKernel

def vnodeRead (slot : Nat) (buf : ByteMemory) (size off : Nat) :
    HnxfsM (Int × ByteMemory) := do
  if ((← get).vnodes slot).type = .dir then
    return (-sysEisdir, buf)
  else
    vRead slot buf size off

def vnodeWrite (slot : Nat) (buf : ByteMemory) (size off : Nat) : HnxfsM Int := do
  if ((← get).vnodes slot).type = .dir then
    return -sysEisdir
  else
    vWrite slot buf size off

/-- The returned number, with the buffer after a read, and the state of the file system. -/
structure VnodeOps (State : Type) where
  read : ByteMemory → Nat → Nat → State → (Int × ByteMemory) × State
  write : ByteMemory → Nat → Nat → State → Int × State

structure FileIo (State : Type) where
  machine : Machine
  fs : State
  offset : Nat

variable {State : Type}

def advanced (off : Nat) (n : Int) : Nat :=
  if 0 < n then off + n.toNat else off

namespace VnodeOps

variable (ops : VnodeOps State)

def vfsRead (buffer : ByteMemory) (size : Nat) :
    EStateM Halt (FileIo State) (Int × ByteMemory) := do
  let io ← get
  let answer := ops.read buffer size io.offset io.fs
  set { io with fs := answer.2, offset := advanced io.offset answer.1.1 }
  return answer.1

def vfsWrite (buffer : ByteMemory) (size : Nat) : EStateM Halt (FileIo State) Int := do
  let io ← get
  let answer := ops.write buffer size io.offset io.fs
  set { io with fs := answer.2, offset := advanced io.offset answer.1 }
  return answer.1

/-- The loop of `sys_write`; a round that does not end it moves at least one byte. -/
def writeChunks (pml4 ubuf len : Nat) : Nat → Nat → EStateM Halt (FileIo State) Int
  | 0, _ => throw .hang
  | fuel + 1, done =>
    if done < len then do
      let io ← get
      let n := min (len - done) 256
      match userCopyFromUser io.machine.memory pml4 (u64 (ubuf + done)) n with
      | none => return -sysEfault
      | some chunk =>
        let w ← ops.vfsWrite chunk n
        if w < 0 then
          return if 0 < done then int64 done else w
        else if w.toNat < n then
          return int64 (done + w.toNat)
        else
          writeChunks pml4 ubuf len fuel (u64 (done + w.toNat))
    else
      return int64 done

def sysWrite (pml4 ubuf len : Nat) : EStateM Halt (FileIo State) Int :=
  if len = 0 then
    return 0
  else
    ops.writeChunks pml4 ubuf len (len + 1) 0

/-- `user_copy_to_user` while a file is open. -/
def copyToUser (pml4 udst : Nat) (source : ByteMemory) (n : Nat) :
    EStateM Halt (FileIo State) Int :=
  fun io =>
    match userCopyToUser pml4 udst source n io.machine with
    | .ok code mach => .ok code { io with machine := mach }
    | .error halt mach => .error halt { io with machine := mach }

def sysRead (pml4 ubuf len : Nat) : EStateM Halt (FileIo State) Int :=
  if len = 0 then
    return 0
  else do
    let (r, chunk) ← ops.vfsRead (fun _ => 0) (min len 256)
    if r ≤ 0 then
      return r
    else if (← copyToUser pml4 ubuf chunk r.toNat) < 0 then
      return -sysEfault
    else
      return r

end VnodeOps

structure HonestRead (Valid : State → Prop) (contents : State → ByteMemory) (size : State → Nat)
    (fs : State) (count offset : Nat) (answer : (Int × ByteMemory) × State) : Prop where
  valid : Valid answer.2
  contents_eq : contents answer.2 = contents fs
  size_eq : size answer.2 = size fs
  le : answer.1.1 ≤ count
  bytes : ∀ index < answer.1.1.toNat, answer.1.2 index = contents fs (offset + index)

structure HonestWrite (Valid : State → Prop) (contents : State → ByteMemory) (size : State → Nat)
    (fs : State) (buffer : ByteMemory) (count offset : Nat) (answer : Int × State) : Prop where
  valid : Valid answer.2
  contents_eq : contents answer.2 = (contents fs).blit offset answer.1.toNat buffer
  size_eq : answer.1 < 0 → size answer.2 = size fs
  le : answer.1 ≤ count
  offset_lt : 0 < answer.1 → offset + answer.1.toNat < 2 ^ 63

structure RegularFile (State : Type) extends VnodeOps State where
  Valid : State → Prop
  contents : State → ByteMemory
  size : State → Nat
  honestRead : ∀ {fs} buffer count offset, Valid fs → offset < 2 ^ 63 →
    HonestRead Valid contents size fs count offset (read buffer count offset fs)
  honestWrite : ∀ {fs} buffer count offset, Valid fs → offset < 2 ^ 63 →
    HonestWrite Valid contents size fs buffer count offset (write buffer count offset fs)

structure Unchanged (file : RegularFile State) (io post : FileIo State) : Prop where
  contents_eq : file.contents post.fs = file.contents io.fs
  size_eq : file.size post.fs = file.size io.fs
  offset_eq : post.offset = io.offset

structure MovedToFile (file : RegularFile State) (root ubuf count : Nat) (io post : FileIo State) :
    Prop where
  accessible : UserAccessible io.machine.memory root ubuf count false
  contents_eq : file.contents post.fs =
    (file.contents io.fs).blit io.offset count (userBytes io.machine.memory root ubuf)
  offset_eq : post.offset = io.offset + count

structure MovedToUser (file : RegularFile State) (root ubuf count : Nat) (io post : FileIo State) :
    Prop where
  written : UserWritten root ubuf count (fun index => file.contents io.fs (io.offset + index))
    io.machine post.machine
  contents_eq : file.contents post.fs = file.contents io.fs
  size_eq : file.size post.fs = file.size io.fs
  offset_eq : post.offset = io.offset + count

def WriteReported (file : RegularFile State) (root ubuf len : Nat) (io : FileIo State) : Prop :=
  ∃ r post, file.sysWrite (root * pageSize) ubuf len io = .ok r post ∧
    post.machine = io.machine ∧ r ≤ len ∧
    (0 ≤ r → MovedToFile file root ubuf r.toNat io post) ∧ (r < 0 → Unchanged file io post)

def ReadReported (file : RegularFile State) (root ubuf len : Nat) (io : FileIo State) : Prop :=
  ∃ r post, file.sysRead (root * pageSize) ubuf len io = .ok r post ∧ r ≤ len ∧
    (0 ≤ r → MovedToUser file root ubuf r.toNat io post) ∧
    (r < 0 → Unchanged file io post ∧ post.machine = io.machine)

def takesPieces (ops : VnodeOps State) (memory : ByteMemory) (root ubuf off : Nat) (fs : State) :
    Nat → Option State
  | 0 => some fs
  | count + 1 =>
    (takesPieces ops memory root ubuf off fs count).bind fun fs =>
      let answer := ops.write (copiedBytes memory root (ubuf + 256 * count) 256) 256
        (off + 256 * count) fs
      if answer.1 = 256 then some answer.2 else none

def PiecesReadable (file : RegularFile State) (root ubuf len : Nat) (io : FileIo State) : Prop :=
  ∀ count, 0 < count → 256 * count < len →
    UserAccessible io.machine.memory root ubuf (256 * count) false →
    (takesPieces file.toVnodeOps io.machine.memory root ubuf io.offset io.fs count).isSome →
      UserAccessible io.machine.memory root (ubuf + 256 * count) (min (len - 256 * count) 256) false

def AnswerWritable (file : RegularFile State) (root ubuf len : Nat) (io : FileIo State) : Prop :=
  UserAccessible io.machine.memory root ubuf
    (file.read (fun _ => 0) (min len 256) io.offset io.fs).1.1.toNat true

lemma advanced_eq (off : Nat) (n : Int) : advanced off n = off + n.toNat := by
  rw [advanced]
  split_ifs
  · rfl
  · omega

lemma VnodeOps.vfsWrite_bind (ops : VnodeOps State) {Value : Type} (buf : ByteMemory)
    (sz : Nat) (r : Int → EStateM Halt (FileIo State) Value) (io : FileIo State) :
    (ops.vfsWrite buf sz >>= r) io = r (ops.write buf sz io.offset io.fs).1
        { io with
          fs := (ops.write buf sz io.offset io.fs).2
          offset := advanced io.offset (ops.write buf sz io.offset io.fs).1 } :=
  rfl

section Transfers

variable {file : RegularFile State} {root ubuf len count fuel : Nat} {io cur post : FileIo State}

lemma MovedToFile.int64_eq (moved : MovedToFile file root ubuf count io post) :
    int64 count = count := by
  have := moved.accessible.size_le
  simp only [userTop] at this
  exact Hnxfs.int64_of_lt (by omega)

lemma MovedToFile.unchanged (moved : MovedToFile file root ubuf 0 io post)
    (sizeEq : file.size post.fs = file.size io.fs) : Unchanged file io post where
  contents_eq := by rw [moved.contents_eq, ByteMemory.blit_zero]
  size_eq := sizeEq
  offset_eq := moved.offset_eq

/-- After `count` whole pieces have been taken from the buffer. -/
structure Reached (file : RegularFile State) (root ubuf count : Nat) (io cur : FileIo State) :
    Prop where
  machine_eq : cur.machine = io.machine
  takes : takesPieces file.toVnodeOps io.machine.memory root ubuf io.offset io.fs count =
    some cur.fs
  valid : file.Valid cur.fs
  moved : MovedToFile file root ubuf (256 * count) io cur
  offset_lt : cur.offset < 2 ^ 63

lemma Reached.start (valid : file.Valid io.fs) (offLt : io.offset < 2 ^ 63) :
    Reached file root ubuf 0 io io where
  machine_eq := rfl
  takes := rfl
  valid := valid
  moved := ⟨.inl rfl, (ByteMemory.blit_zero _ _ _).symm, rfl⟩
  offset_lt := offLt

def wrotePiece (file : RegularFile State) (root ubuf n : Nat) (cur : FileIo State) :
    Int × FileIo State :=
  let answer := file.write (copiedBytes cur.machine.memory root ubuf n) n cur.offset cur.fs
  (answer.1, { cur with fs := answer.2, offset := advanced cur.offset answer.1 })

lemma writeChunks_round (sp : UserSpace root cur.machine) (ubufLt : ubuf < 2 ^ 64)
    (accessible : UserAccessible cur.machine.memory root ubuf count false) (more : count < len) :
    (¬ UserAccessible cur.machine.memory root (ubuf + count) (min (len - count) 256) false ∧
        file.writeChunks (root * pageSize) ubuf len (fuel + 1) count cur = .ok (-sysEfault) cur) ∨
      (UserAccessible cur.machine.memory root (ubuf + count) (min (len - count) 256) false ∧
        file.writeChunks (root * pageSize) ubuf len (fuel + 1) count cur =
          let answer := wrotePiece file root (ubuf + count) (min (len - count) 256) cur
          if answer.1 < 0 then
            .ok (if 0 < count then int64 count else answer.1) answer.2
          else if answer.1.toNat < min (len - count) 256 then
            .ok (int64 (count + answer.1.toNat)) answer.2
          else
            file.writeChunks (root * pageSize) ubuf len fuel (u64 (count + answer.1.toNat))
              answer.2) := by
  rw [VnodeOps.writeChunks, if_pos more, get_bind]
  have placeEq := accessible.u64_eq ubufLt
  have placeLt : ubuf + count < 2 ^ 64 := by
    rw [← placeEq]
    exact Nat.mod_lt _ (by decide)
  rw [placeEq]
  rcases @UserSpace.userCopyFromUser_cases root (ubuf + count) (min (len - count) 256) cur.machine
      sp placeLt (by omega) with ⟨readable, copied⟩ | ⟨noRead, hf⟩
  · rw [copied]
    refine .inr ⟨readable, ?_⟩
    dsimp only
    rw [VnodeOps.vfsWrite_bind, wrotePiece]
    generalize file.write (copiedBytes cur.machine.memory root (ubuf + count)
      (min (len - count) 256)) (min (len - count) 256) cur.offset cur.fs = answer
    split_ifs <;> rfl
  rw [hf]
  exact .inl ⟨noRead, rfl⟩

lemma MovedToFile.wrotePiece {n : Nat} (moved : MovedToFile file root ubuf count io cur)
    (machineEq : cur.machine = io.machine) (hv : file.Valid cur.fs)
    (offLt : cur.offset < 2 ^ 63)
    (readable : UserAccessible cur.machine.memory root (ubuf + count) n false) :
    MovedToFile file root ubuf
      (count + (HnxKernel.wrotePiece file root (ubuf + count) n cur).1.toNat) io
      (HnxKernel.wrotePiece file root (ubuf + count) n cur).2 := by
  have honest := file.honestWrite (copiedBytes cur.machine.memory root (ubuf + count) n) n
    cur.offset hv offLt
  rw [HnxKernel.wrotePiece]
  generalize file.write (copiedBytes cur.machine.memory root (ubuf + count) n) n cur.offset
    cur.fs = ans at honest
  have answerLe := honest.le
  refine ⟨moved.accessible.append ?_, ?_, ?_⟩
  · rw [← machineEq]
    exact readable.take (by omega)
  · rw [honest.contents_eq, moved.contents_eq, moved.offset_eq]
    apply ByteMemory.blit_append
    intro i hlt
    rw [copiedBytes, if_pos (by omega), machineEq, userBytes, userBytes, Nat.add_assoc]
  dsimp only
  rw [advanced_eq, moved.offset_eq, Nat.add_assoc]

lemma Reached.next (hr : Reached file root ubuf count io cur)
    (readable : UserAccessible cur.machine.memory root (ubuf + 256 * count) 256 false)
    (whole : (wrotePiece file root (ubuf + 256 * count) 256 cur).1 = 256) :
    Reached file root ubuf (count + 1) io
      (wrotePiece file root (ubuf + 256 * count) 256 cur).2 := by
  have honest := file.honestWrite (copiedBytes cur.machine.memory root (ubuf + 256 * count) 256) 256
    cur.offset hr.valid hr.offset_lt
  have moved := hr.moved.wrotePiece hr.machine_eq hr.valid hr.offset_lt readable
  rw [whole] at moved
  refine ⟨hr.machine_eq, ?_, honest.valid, moved, ?_⟩
  · rw [takesPieces, hr.takes, Option.bind_some, ← hr.machine_eq, ← hr.moved.offset_eq]
    exact if_pos whole
  have := honest.offset_lt
  rw [wrotePiece] at whole ⊢
  dsimp only at whole ⊢
  rw [advanced_eq]
  omega

structure Ended (file : RegularFile State) (root ubuf len : Nat) (io : FileIo State) (r : Int)
    (post : FileIo State) : Prop where
  machine_eq : post.machine = io.machine
  le : r ≤ len
  moved : 0 ≤ r → MovedToFile file root ubuf r.toNat io post
  unchanged : r < 0 → Unchanged file io post

lemma MovedToFile.ended (moved : MovedToFile file root ubuf count io post)
    (machineEq : post.machine = io.machine) (le : count ≤ len) :
    Ended file root ubuf len io (int64 count) post := by
  rw [moved.int64_eq]
  exact ⟨machineEq, by omega, fun _ => moved, fun neg => absurd neg (by omega)⟩

lemma Reached.ends (hr : Reached file root ubuf count io cur)
    (sp : UserSpace root io.machine) (ubufLt : ubuf < 2 ^ 64) (lenLt : len < 2 ^ 64)
    (countLe : 256 * count ≤ len) (le : len - 256 * count < fuel) :
    ∃ r post, file.writeChunks (root * pageSize) ubuf len fuel (256 * count) cur = .ok r post ∧
      (Ended file root ubuf len io r post ∨ ∃ pieces, r = -sysEfault ∧ 256 * pieces < len ∧
          Reached file root ubuf pieces io post ∧
          ¬ UserAccessible io.machine.memory root (ubuf + 256 * pieces)
            (min (len - 256 * pieces) 256) false) := by
  induction fuel generalizing count cur with
  | zero => omega
  | succ fuel ih =>
    by_cases more : 256 * count < len
    swap
    · rw [VnodeOps.writeChunks, if_neg more]
      exact ⟨_, _, rfl, .inl (hr.moved.ended hr.machine_eq countLe)⟩
    have accessible := hr.moved.accessible
    rw [← hr.machine_eq] at accessible sp
    rcases writeChunks_round sp ubufLt accessible more with ⟨noRead, run⟩ | ⟨readable, run⟩
    · rw [hr.machine_eq] at noRead
      exact ⟨_, _, run, .inr ⟨count, rfl, more, hr, noRead⟩⟩
    have moved := hr.moved.wrotePiece hr.machine_eq hr.valid hr.offset_lt readable
    have honest := file.honestWrite
      (copiedBytes cur.machine.memory root (ubuf + 256 * count) (min (len - 256 * count) 256))
      (min (len - 256 * count) 256) cur.offset hr.valid hr.offset_lt
    rw [run]
    dsimp only
    generalize nEq : min (len - 256 * count) 256 = n at *
    have answerLe : (wrotePiece file root (ubuf + 256 * count) n cur).1 ≤ n := honest.le
    have machineEq : (wrotePiece file root (ubuf + 256 * count) n cur).2.machine = io.machine :=
      hr.machine_eq
    split_ifs with hf hl hs
    · rw [Int.toNat_of_nonpos (by omega), Nat.add_zero] at moved
      exact ⟨_, _, rfl, .inl (moved.ended machineEq countLe)⟩
    · obtain rfl : count = 0 := by omega
      rw [Int.toNat_of_nonpos (by omega)] at moved
      have takes : some io.fs = some cur.fs := hr.takes
      have sizeEq : file.size (wrotePiece file root (ubuf + 256 * 0) n cur).2.fs =
        file.size io.fs := by
        rw [Option.some.inj takes]
        exact honest.size_eq hf
      exact ⟨_, _, rfl, .inl ⟨machineEq, by omega, fun pos => by omega,
        fun _ => moved.unchanged sizeEq⟩⟩
    · exact ⟨_, _, rfl, .inl (moved.ended machineEq (by omega))⟩
    have whole : (wrotePiece file root (ubuf + 256 * count) n cur).1 = n := by omega
    rw [whole, Int.toNat_natCast] at moved ⊢
    rw [u64_of_lt (by omega)]
    by_cases last : n = 256
    · subst last
      rw [← Nat.mul_succ]
      exact ih (hr.next readable whole) (by omega) (by omega)
    obtain ⟨rest, rfl⟩ := Nat.exists_eq_succ_of_ne_zero (show fuel ≠ 0 by omega)
    rw [VnodeOps.writeChunks, if_neg (by omega)]
    exact ⟨_, _, rfl, .inl (moved.ended machineEq (by omega))⟩

section
variable (sp : UserSpace root io.machine) (ubufLt : ubuf < 2 ^ 64) (lenLt : len < 2 ^ 64)
  (hv : file.Valid io.fs) (offLt : io.offset < 2 ^ 63)
include sp ubufLt lenLt hv offLt

lemma exists_reached (countLe : 256 * count ≤ len)
    (accessible : UserAccessible io.machine.memory root ubuf (256 * count) false)
    (takes : (takesPieces file.toVnodeOps io.machine.memory root ubuf io.offset io.fs
      count).isSome) :
    ∃ cur, Reached file root ubuf count io cur ∧ ∀ fuel,
      file.writeChunks (root * pageSize) ubuf len (fuel + count) 0 io =
        file.writeChunks (root * pageSize) ubuf len fuel (256 * count) cur := by
  induction count with
  | zero => exact ⟨io, .start hv offLt, fun _ => rfl⟩
  | succ count ih =>
    obtain ⟨fs, ht⟩ := Option.isSome_iff_exists.mp takes
    rw [takesPieces, Option.bind_eq_some_iff] at ht
    obtain ⟨pre, takenPre, answered⟩ := ht
    rw [Option.ite_none_right_eq_some] at answered
    obtain ⟨cur, hr, runs⟩ := ih (by omega) (accessible.take (by omega))
      (Option.isSome_of_mem takenPre)
    have fsEq : pre = cur.fs := Option.some.inj (takenPre.symm.trans hr.takes)
    rw [fsEq, ← hr.moved.offset_eq, ← hr.machine_eq] at answered
    have whole : (wrotePiece file root (ubuf + 256 * count) 256 cur).1 = 256 := answered.1
    rw [Nat.mul_succ] at accessible
    have readable := accessible.drop
    rw [← hr.machine_eq] at readable
    refine ⟨_, hr.next readable whole, fun fuel => ?_⟩
    have nEq : min (len - 256 * count) 256 = 256 := by omega
    have run := @writeChunks_round State file root ubuf len (256 * count) fuel cur
      (hr.machine_eq ▸ sp) ubufLt
      (hr.machine_eq ▸ hr.moved.accessible) (by omega)
    rw [nEq] at run
    obtain ⟨-, run⟩ := run.resolve_left fun noRead => noRead.1 readable
    rw [Nat.add_comm count 1, ← Nat.add_assoc, runs, run]
    dsimp only
    rw [whole, if_neg (by decide), if_neg (by decide)]
    have doneEq : u64 (256 * count + (256 : Int).toNat) = 256 * (1 + count) := by
      rw [Nat.add_comm 1 count, Nat.mul_succ]
      exact u64_of_lt (by omega)
    rw [doneEq]

lemma writeReported_iff :
    WriteReported file root ubuf len io ↔ PiecesReadable file root ubuf len io := by
  have start := @Reached.start State file root ubuf io hv offLt
  by_cases he : len = 0
  · subst he
    refine ⟨fun _ count _ more => by omega, fun _ => ⟨0, io, rfl, rfl, le_rfl, ?_, ?_⟩⟩
    · exact fun _ => start.moved
    · exact fun neg => absurd neg (by decide)
  constructor
  · rintro ⟨r, post, run, -, -, -, unchanged⟩ count positive more accessible takes
    by_contra noRead
    obtain ⟨cur, hr, runs⟩ := exists_reached sp ubufLt lenLt hv offLt (by omega)
      accessible takes
    have fuelEq : len + 1 = len - count + 1 + count := by omega
    rw [VnodeOps.sysWrite, if_neg he, fuelEq, runs] at run
    have faulted := @writeChunks_round State file root ubuf len (256 * count) (len - count) cur
      (hr.machine_eq ▸ sp) ubufLt (hr.machine_eq ▸ accessible) more
    rw [hr.machine_eq] at faulted
    obtain ⟨-, faulted⟩ := faulted.resolve_right fun readable => noRead readable.1
    obtain ⟨rfl, rfl⟩ := EStateM.Result.ok.inj (faulted.symm.trans run)
    have sameOffset := (unchanged (by decide)).offset_eq
    have movedOffset := hr.moved.offset_eq
    omega
  intro readable
  obtain ⟨r, post, run, ended⟩ := start.ends sp ubufLt lenLt (Nat.zero_le len)
    (show len - 256 * 0 < len + 1 by omega)
  refine ⟨r, post, ?_, ?_⟩
  · rw [VnodeOps.sysWrite, if_neg he]
    exact run
  rcases ended with ended | ⟨pieces, rfl, more, hr, noRead⟩
  · exact ⟨ended.machine_eq, ended.le, ended.moved, ended.unchanged⟩
  rcases Nat.eq_zero_or_pos pieces with rfl | positive
  · have takes : some io.fs = some post.fs := hr.takes
    have sizeEq : file.size post.fs = file.size io.fs := by rw [Option.some.inj takes]
    exact ⟨hr.machine_eq, by simp [sysEfault], fun neg => absurd neg (by decide),
      fun _ => hr.moved.unchanged sizeEq⟩
  exact absurd (readable pieces positive more hr.moved.accessible
    (Option.isSome_of_mem hr.takes)) noRead

end

lemma VnodeOps.vfsRead_bind (ops : VnodeOps State) {Value : Type} (buf : ByteMemory) (sz : Nat)
    (r : Int × ByteMemory → EStateM Halt (FileIo State) Value) (io : FileIo State) :
    (ops.vfsRead buf sz >>= r) io = r (ops.read buf sz io.offset io.fs).1
        { io with
          fs := (ops.read buf sz io.offset io.fs).2
          offset := advanced io.offset (ops.read buf sz io.offset io.fs).1.1 } :=
  rfl

lemma VnodeOps.copyToUser_of_ok {pml4 n : Nat} {source : ByteMemory} {code : Int}
    {m : Machine} (run : userCopyToUser pml4 ubuf source n io.machine = .ok code m) :
    VnodeOps.copyToUser pml4 ubuf source n io = .ok code { io with machine := m } := by
  rw [VnodeOps.copyToUser, run]

lemma UserWritten.congr {va sz : Nat} {source o : Nat → UInt8} {pre post : Machine}
    (hw : UserWritten root va sz source pre post)
    (eq : ∀ i < sz, source i = o i) : UserWritten root va sz o pre post where
  __ := hw
  inside := by
    intro i hlt
    rw [← eq i hlt]
    exact hw.inside i hlt

lemma readReported_iff (sp : UserSpace root io.machine) (ubufLt : ubuf < 2 ^ 64)
    (hv : file.Valid io.fs) (offLt : io.offset < 2 ^ 63) :
    ReadReported file root ubuf len io ↔ AnswerWritable file root ubuf len io := by
  have honest := file.honestRead (fun _ => 0) (min len 256) io.offset hv offLt
  rw [AnswerWritable, ReadReported, VnodeOps.sysRead]
  by_cases he : len = 0
  · subst he
    have answerLe := honest.le
    rw [Int.toNat_of_nonpos (by omega)]
    refine ⟨fun _ => .inl rfl, fun _ => ⟨0, io, rfl, le_rfl, ?_, ?_⟩⟩
    · exact fun _ => ⟨.refl _, rfl, rfl, rfl⟩
    · exact fun neg => absurd neg (by decide)
  rw [if_neg he, VnodeOps.vfsRead_bind]
  generalize file.read (fun _ => 0) (min len 256) io.offset io.fs = ans at honest
  obtain ⟨⟨r, chunk⟩, fs⟩ := ans
  have answerLe : r ≤ (min len 256 : Nat) := honest.le
  have contentsEq : file.contents fs = file.contents io.fs := honest.contents_eq
  have sizeEq : file.size fs = file.size io.fs := honest.size_eq
  dsimp only
  by_cases nothing : r ≤ 0
  · rw [if_pos nothing, Int.toNat_of_nonpos nothing]
    have offsetEq : advanced io.offset r = io.offset := if_neg (by omega)
    refine ⟨fun _ => .inl rfl, fun _ => ⟨r, _, rfl, by omega, ?_, ?_⟩⟩
    · intro nonneg
      rw [Int.toNat_of_nonpos nothing]
      exact ⟨.refl _, contentsEq, sizeEq, offsetEq⟩
    · exact fun _ => ⟨⟨contentsEq, sizeEq, offsetEq⟩, rfl⟩
  rw [if_neg nothing]
  have offsetEq := advanced_eq io.offset r
  rcases sp.userCopyToUser_cases ubufLt (show r.toNat < 2 ^ 64 by omega) chunk with
    ⟨writable, m, run, hw⟩ | ⟨unwritable, run⟩
  · refine ⟨fun _ => writable, fun _ => ⟨r, ⟨m, fs, advanced io.offset r⟩, ?_, by omega, ?_,
      fun neg => by omega⟩⟩
    · have copied : VnodeOps.copyToUser (root * pageSize) ubuf chunk r.toNat
        ⟨io.machine, fs, advanced io.offset r⟩ = .ok 0 ⟨m, fs, advanced io.offset r⟩ :=
        VnodeOps.copyToUser_of_ok run
      rw [bind_of_ok copied, if_neg (by decide)]
      rfl
    intro _
    exact ⟨hw.congr honest.bytes, contentsEq, sizeEq, offsetEq⟩
  refine ⟨?_, fun writable => absurd writable unwritable⟩
  rintro ⟨code, post, ret, -, -, eq⟩
  have hf : VnodeOps.copyToUser (root * pageSize) ubuf chunk r.toNat
    ⟨io.machine, fs, advanced io.offset r⟩ =
      .ok (-sysEfault) ⟨io.machine, fs, advanced io.offset r⟩ :=
    VnodeOps.copyToUser_of_ok run
  rw [bind_of_ok hf, if_pos (by decide)] at ret
  cases ret
  have sameOffset := (eq (by decide)).1.offset_eq
  dsimp only at sameOffset
  omega

end Transfers

namespace Hnxfs

open HnxfsM

/-- The vnode in a slot belongs to a directory, or to a file of a size that an offset
can have. -/
structure OpenVnode (slot : Nat) (fs : Hnxfs) : Prop where
  sound : fs.Sound
  file : (fs.vnodes slot).type ≠ .dir → fs.IsFile (fs.vnodes slot).priv ∧
    (fs.image.inode (fs.vnodes slot).priv).size < 2 ^ 63

variable {s : Nat} {fs : Hnxfs}

def slotContents (slot : Nat) (fs : Hnxfs) : ByteMemory := fs.image.contents (fs.vnodes slot).priv

def slotSize (slot : Nat) (fs : Hnxfs) : Nat := (fs.image.inode (fs.vnodes slot).priv).size

lemma vnodeRead_of_file (notDir : (fs.vnodes s).type ≠ .dir) (buf : ByteMemory)
    (count off : Nat) : vnodeRead s buf count off fs = vRead s buf count off fs := by
  show (if (fs.vnodes s).type = .dir then _ else _ : HnxfsM _) fs = _
  rw [if_neg notDir]

lemma vnodeWrite_of_file (notDir : (fs.vnodes s).type ≠ .dir) (buf : ByteMemory)
    (count off : Nat) : vnodeWrite s buf count off fs = vWrite s buf count off fs := by
  show (if (fs.vnodes s).type = .dir then _ else _ : HnxfsM _) fs = _
  rw [if_neg notDir]

lemma OpenVnode.honestRead (opened : OpenVnode s fs) (buf : ByteMemory) (count off : Nat) :
    HonestRead (OpenVnode s) (slotContents s) (slotSize s) fs count off
      (vnodeRead s buf count off fs) := by
  by_cases isDir : (fs.vnodes s).type = .dir
  · have run : vnodeRead s buf count off fs = ((-sysEisdir, buf), fs) := by
      simp [vnodeRead, bind_apply, get_apply, isDir, pure_apply]
    rw [run]
    refine ⟨opened, rfl, rfl, ?_, fun i hlt => absurd hlt (by simp [sysEisdir])⟩
    simp only [sysEisdir]
    omega
  obtain ⟨isFile, sizeLt⟩ := opened.file isDir
  obtain ⟨res, run, resEq⟩ := fileRead_spec opened.sound.wellFormed opened.sound.steady isFile.1
  rw [int64_of_lt (by omega)] at run
  have runVnode : vnodeRead s buf count off fs =
    ((((min count ((fs.image.inode (fs.vnodes s).priv).size - off) : Nat) : Int), res), fs) := by
    rw [vnodeRead_of_file isDir]
    exact run
  rw [runVnode]
  refine ⟨opened, rfl, rfl, by dsimp only; omega, ?_⟩
  intro i hlt
  dsimp only at hlt ⊢
  rw [Int.toNat_natCast] at hlt
  rw [resEq, if_pos hlt, slotContents]

lemma OpenVnode.honestWrite (opened : OpenVnode s fs) (buffer : ByteMemory)
    (count off : Nat) (offLt : off < 2 ^ 63) :
    HonestWrite (OpenVnode s) (slotContents s) (slotSize s) fs buffer count off
      (vnodeWrite s buffer count off fs) := by
  by_cases isDir : (fs.vnodes s).type = .dir
  · have run : vnodeWrite s buffer count off fs = (-sysEisdir, fs) := by
      simp [vnodeWrite, bind_apply, get_apply, isDir, pure_apply]
    rw [run]
    refine ⟨opened, (ByteMemory.blit_zero _ _ _).symm, fun _ => rfl, ?_, ?_⟩
    · simp only [sysEisdir]
      omega
    · exact fun positive => absurd positive (by simp [sysEisdir])
  obtain ⟨isFile, sizeLt⟩ := opened.file isDir
  obtain ⟨total, mid, run, frame, written, sizeEq, totalLe, below, -⟩ :=
    @fileWrite_spec fs (fs.vnodes s).priv off count buffer opened.sound.wellFormed
      opened.sound.steady isFile.1 isFile.notDir (by omega)
  have soundMiddle := opened.sound.of_sameFrame frame written.kept.wellFormed
  have isFileMiddle : mid.IsFile (fs.vnodes s).priv :=
    ⟨written.kept.inUse_iff.mpr isFile.1, written.kept.type.trans isFile.2⟩
  have inode := readInode_eq soundMiddle.steady (ne_zero_of_inUse isFileMiddle.1)
    (lt_of_inUse isFileMiddle.1)
  -- the refreshed vnode keeps its type and its inode
  obtain ⟨vnode, runVnode, privEq⟩ : ∃ vnode : Vnode,
      vnodeWrite s buffer count off fs = ((total : Int), mid.setVnode s vnode) ∧
      vnode.priv = (fs.vnodes s).priv := by
    refine ⟨{ mid.vnodes s with
      size := (mid.image.inode (fs.vnodes s).priv).size }, ?_, ?_⟩
    · rw [vnodeWrite_of_file isDir]
      simp only [vWrite, bind_apply, get_apply, run, inode, modify_apply, pure_apply]
    · exact congrArg (fun vnodes => (vnodes s).priv) frame.vnodes
  have volume : mid.SameVolume (mid.setVnode s vnode) := ⟨rfl, rfl, rfl⟩
  have slotEq : (mid.setVnode s vnode).vnodes s = vnode := Function.update_self ..
  have contentsEq : slotContents s (mid.setVnode s vnode) =
    (slotContents s fs).blit off total buffer := by
    rw [slotContents, volume.image, slotEq, privEq]
    funext pos
    exact written.contents pos
  rw [runVnode]
  refine ⟨⟨soundMiddle.of_sameVolume volume, fun _ => ?_⟩, contentsEq, ?_, ?_, ?_⟩
  · rw [slotEq, privEq, IsFile, volume.image, sizeEq]
    exact ⟨isFileMiddle, by omega⟩
  · exact fun neg => absurd neg (by simp)
  · exact Int.ofNat_le.mpr totalLe
  dsimp only
  omega

end Hnxfs

def hnxfsFile (slot : Nat) : RegularFile Hnxfs where
  read := vnodeRead slot
  write := vnodeWrite slot
  Valid := Hnxfs.OpenVnode slot
  contents := Hnxfs.slotContents slot
  size := Hnxfs.slotSize slot
  honestRead := fun buffer count off opened _ => opened.honestRead buffer count off
  honestWrite := fun buffer count off opened offsetLt =>
    opened.honestWrite buffer count off offsetLt

/-- `struct ramfs_node`, as far as its file is concerned. -/
structure RamfsNode where
  data : ByteMemory
  size : Nat

def ramfsRead (buf : ByteMemory) (size off : Nat) (node : RamfsNode) :
    (Int × ByteMemory) × RamfsNode :=
  if off ≥ node.size then
    ((0, buf), node)
  else
    let cnt := min size (node.size - off)
    ((int64 cnt, buf.blit 0 cnt fun idx => node.data (off + idx)), node)

/-- The tree is read-only. -/
def ramfsWrite (_buf : ByteMemory) (_size _offset : Nat) (node : RamfsNode) : Int × RamfsNode :=
  (-sysEperm, node)

lemma ramfs_honestRead {n : RamfsNode} (small : n.size < 2 ^ 63) (buf : ByteMemory)
    (count off : Nat) :
    HonestRead (fun n : RamfsNode => n.size < 2 ^ 63) RamfsNode.data RamfsNode.size n count
      off (ramfsRead buf count off n) := by
  rw [ramfsRead]
  split_ifs with beyond
  · exact ⟨small, rfl, rfl, by simp, fun i hlt => absurd hlt (by simp)⟩
  dsimp only
  rw [Hnxfs.int64_of_lt (by omega)]
  refine ⟨small, rfl, rfl, by dsimp only; omega, ?_⟩
  intro i hlt
  dsimp only at hlt ⊢
  rw [ByteMemory.blit, if_pos (by omega), Nat.sub_zero]

lemma ramfs_honestWrite {n : RamfsNode} (small : n.size < 2 ^ 63) (buf : ByteMemory)
    (count off : Nat) :
    HonestWrite (fun n : RamfsNode => n.size < 2 ^ 63) RamfsNode.data RamfsNode.size n
      buf count off (ramfsWrite buf count off n) := by
  rw [ramfsWrite]
  refine ⟨small, (ByteMemory.blit_zero _ _ _).symm, fun _ => rfl, ?_, ?_⟩
  · simp only [sysEperm]
    omega
  · exact fun pos => absurd pos (by simp [sysEperm])

def ramfsFile : RegularFile RamfsNode where
  read := ramfsRead
  write := ramfsWrite
  Valid := fun node => node.size < 2 ^ 63
  contents := RamfsNode.data
  size := RamfsNode.size
  honestRead := fun buffer count off small _ => ramfs_honestRead small buffer count off
  honestWrite := fun buffer count off small _ => ramfs_honestWrite small buffer count off

def openVolume : Hnxfs := (vCreate 1 [97] .file true Hnxfs.freshVolume).2

lemma openVolume_valid : (hnxfsFile 0).Valid openVolume := by
  refine ⟨?_, fun _ => ⟨⟨⟨by decide +kernel, by decide +kernel⟩, by decide +kernel⟩,
    by decide +kernel⟩⟩
  exact Hnxfs.Sound.create ⟨Hnxfs.freshVolume_wellFormed, Hnxfs.freshVolume_steady⟩
    ⟨le_rfl, by decide +kernel⟩ (by decide) (by decide) _ _

def writtenVolume : Hnxfs := ((hnxfsFile 0).write (fun _ => 7) 300 0 openVolume).2

lemma writtenVolume_valid : (hnxfsFile 0).Valid writtenVolume :=
  ((hnxfsFile 0).honestWrite _ _ _ openVolume_valid (by decide)).valid

/-- Calls report what they did, exactly if the program may use every piece that the kernel
comes to. -/
theorem transfers_reported_iff (file : RegularFile State) {root ubuf len : Nat} {io : FileIo State}
    (sp : UserSpace root io.machine) (hv : file.Valid io.fs) (offLt : io.offset < 2 ^ 63)
    (ubufLt : ubuf < 2 ^ 64) (lenLt : len < 2 ^ 64) :
    (WriteReported file root ubuf len io ↔ PiecesReadable file root ubuf len io) ∧
      (ReadReported file root ubuf len io ↔ AnswerWritable file root ubuf len io) :=
  ⟨writeReported_iff sp ubufLt lenLt hv offLt, readReported_iff sp ubufLt hv offLt⟩

theorem transfers_reported_iff_page : (hnxfsFile 0).size writtenVolume = 300 ∧
    ∃ m, OnePage m ∧ (WriteReported (hnxfsFile 0) 260 (userImageBase + 0xE00) 300
      ⟨m, writtenVolume, 20⟩ ↔ PiecesReadable (hnxfsFile 0) 260 (userImageBase + 0xE00) 300
        ⟨m, writtenVolume, 20⟩) ∧
      (ReadReported (hnxfsFile 0) 260 (userImageBase + 0xE00) 300 ⟨m, writtenVolume, 20⟩ ↔
        AnswerWritable (hnxfsFile 0) 260 (userImageBase + 0xE00) 300 ⟨m, writtenVolume, 20⟩) := by
  obtain ⟨m, onePage, -⟩ := @exists_onePage (fun _ => true) (by decide +kernel)
  exact ⟨by decide +kernel, m, onePage, transfers_reported_iff (hnxfsFile 0) onePage.userSpace
    writtenVolume_valid (by simp) (by decide) (by decide)⟩

/-- The write fails with 256 bytes in the file, the read with the byte consumed. -/
theorem failed_transfers_move_bytes :
    ∃ m, OnePage m ∧ (∃ post, (hnxfsFile 0).sysWrite (260 * pageSize) (userImageBase + 0xF00) 300
          ⟨m, openVolume, 0⟩ = .ok (-sysEfault) post ∧
        post.offset = 256 ∧ (hnxfsFile 0).size openVolume = 0 ∧
        (hnxfsFile 0).size post.fs = 256) ∧
      ¬ WriteReported (hnxfsFile 0) 260 (userImageBase + 0xF00) 300 ⟨m, openVolume, 0⟩ ∧
      (∃ post, ramfsFile.sysRead (260 * pageSize) (userImageBase + 0x1000) 1
          ⟨m, ⟨fun _ => 7, 1⟩, 0⟩ = .ok (-sysEfault) post ∧ post.offset = 1) ∧
      ¬ ReadReported ramfsFile 260 (userImageBase + 0x1000) 1 ⟨m, ⟨fun _ => 7, 1⟩, 0⟩ := by
  obtain ⟨m, onePage, checked⟩ := @exists_onePage (fun m =>
    Outcome.returnsWith ((hnxfsFile 0).sysWrite (260 * pageSize) (userImageBase + 0xF00) 300
        ⟨m, openVolume, 0⟩) (fun code post => decide (code = -sysEfault) &&
          decide (post.offset = 256 ∧ (hnxfsFile 0).size post.fs = 256)) &&
      Outcome.returnsWith (ramfsFile.sysRead (260 * pageSize) (userImageBase + 0x1000) 1
        ⟨m, ⟨fun _ => 7, 1⟩, 0⟩) fun code post => decide (code = -sysEfault) &&
          decide (post.offset = 1)) (by decide +kernel)
  rw [Bool.and_eq_true] at checked
  obtain ⟨wrote, read⟩ := checked
  obtain ⟨code, hw, writeEq, facts⟩ := Outcome.exists_of_returnsWith wrote
  rw [Bool.and_eq_true, decide_eq_true_eq, decide_eq_true_eq] at facts
  obtain ⟨rfl, writeOff, sizeEq⟩ := facts
  obtain ⟨code, readState, readEq, facts⟩ := Outcome.exists_of_returnsWith read
  rw [Bool.and_eq_true, decide_eq_true_eq, decide_eq_true_eq] at facts
  obtain ⟨rfl, readOff⟩ := facts
  have sizeBefore : (hnxfsFile 0).size openVolume = 0 := by decide +kernel
  refine ⟨m, onePage, ⟨hw, writeEq, writeOff, sizeBefore, sizeEq⟩, ?_,
    ⟨readState, readEq, readOff⟩, ?_⟩
  · rintro ⟨r, post, run, -, -, -, unchanged⟩
    obtain ⟨rfl, rfl⟩ := EStateM.Result.ok.inj (writeEq.symm.trans run)
    have sameOffset := (unchanged (by decide)).offset_eq
    exact absurd (writeOff.symm.trans sameOffset) (by simp)
  rintro ⟨r, post, run, -, -, unchanged⟩
  obtain ⟨rfl, rfl⟩ := EStateM.Result.ok.inj (readEq.symm.trans run)
  have sameOffset := (unchanged (by decide)).1.offset_eq
  exact absurd (readOff.symm.trans sameOffset) (by simp)

end HnxKernel
