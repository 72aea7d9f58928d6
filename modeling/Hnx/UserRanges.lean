import Hnx.UserCopies

/-!
# Checked copies between the kernel and a program

A copy moves all bytes of a valid range and nothing otherwise.
-/

namespace HnxKernel

open Option Bool Nat

def leafAllows (leaf : Nat) (requireWrite : Bool) : Bool :=
  flagSet leaf pagePresent && flagSet leaf pageUser && (!requireWrite || flagSet leaf pageWritable)

def validPages (ram : ByteMemory) (pml4 stop : Nat) (requireWrite : Bool) : Nat → Nat → Bool
  | 0, _ => true
  | fuel + 1, page =>
    if page < stop then
      leafAllows (walkLeaf ram pml4 page).1 requireWrite &&
        validPages ram pml4 stop requireWrite fuel (u64 (page + pageSize))
    else
      true

/-- A page of the range has at least one byte of it. -/
def userRangeIsValid (ram : ByteMemory) (pml4 addr size : Nat) (requireWrite : Bool) : Bool :=
  if size = 0 then
    true
  else
    let stop := u64 (addr + size)
    if stop ≤ addr ∨ stop > userTop then
      false
    else
      validPages ram pml4 stop requireWrite (size + 1) (addr / pageSize * pageSize)

def copyOut (ram : ByteMemory) (pml4 size : Nat) :
    Nat → Nat → Nat → ByteMemory → Option ByteMemory
  | 0, _, _, _ => none
  | fuel + 1, cur, copied, buffer =>
    if copied = size then
      some buffer
    else
      match pagingTranslate ram pml4 cur with
      | none => none
      | some phys =>
        let length := min (pageSize - cur % pageSize) (size - copied)
        copyOut ram pml4 size fuel (u64 (cur + length)) (copied + length)
          (buffer.blit copied length fun idx => ram (phys + idx))

def userCopyFromSpace (ram : ByteMemory) (pml4 userSrc size : Nat) : Option ByteMemory :=
  copyOut ram pml4 size (size + 1) userSrc 0 fun _ => 0

def userCopyFromUser (ram : ByteMemory) (pml4 usrc n : Nat) : Option ByteMemory :=
  if n = 0 then
    some fun _ => 0
  else if userRangeIsValid ram pml4 usrc n false then
    userCopyFromSpace ram pml4 usrc n
  else
    none

def userCopyToUser (pml4 udst : Nat) (source : Nat → UInt8) (n : Nat) :
    EStateM Halt Machine Int := do
  if n = 0 then
    return 0
  else
    let m ← get
    if userRangeIsValid m.memory pml4 udst n true then
      if (← userCopyToSpace pml4 udst source n) = 0 then
        return 0
      else
        return -sysEfault
    else
      return -sysEfault

variable {r va size : Nat} {ram : ByteMemory} {m : Machine} {source : Nat → UInt8}

lemma leaf_of_directory {dir : Nat} (hr : tableAt ram r (largePath (largeOf va)) = some dir) :
    (largeLeaf ram r (largeOf va)).getD ((pageLeaf ram r (pageOf va)).getD 0) =
      let pde := entryAt ram (dir * pageSize) (idxPd va)
      if !flagSet pde pagePresent then
        0
      else if flagSet pde pageHuge then
        pde
      else
        let pte := entryAt ram (frameNumber pde * pageSize) (idxPt va)
        if !flagSet pte pagePresent then
          0
        else
          pte := by
  rw [largeLeaf, if_pos (largeOf_lt va), pageLeaf, if_pos (pageOf_lt va), tableAt_pagePath, hr,
    bind_some, bind_some, ofNat_largeOf, ofNat_pageOf, tableChild]
  dsimp only
  generalize entryAt ram (dir * pageSize) (idxPd va) = pde
  cases pres : flagSet pde pagePresent with
  | false => simp
  | true =>
    cases huge : flagSet pde pageHuge with
    | true => simp
    | false =>
      simp only [Bool.and_false, Bool.not_true, Bool.not_false, Bool.and_self, if_true,
        Bool.false_eq_true, if_false, Option.bind_some, Option.getD_none]
      generalize entryAt ram (frameNumber pde * pageSize) (idxPt va) = pte
      cases flagSet pte pagePresent <;> simp

lemma PageTree.walkLeaf_eq (t : PageTree ram r) (va : Nat) : (walkLeaf ram (r * pageSize) va).1 =
    (largeLeaf ram r (largeOf va)).getD ((pageLeaf ram r (pageOf va)).getD 0) := by
  rw [walkLeaf]
  cases t.descent va with
  | noPml4 ha unreached =>
    obtain ⟨hnl, noPage⟩ := leaves_of_no_directory unreached
    rw [if_pos (by simpa using ha), hnl, noPage]
    rfl
  | noPdpt _ pres pdptEq ha unreached =>
    obtain ⟨hnl, noPage⟩ := leaves_of_no_directory unreached
    rw [if_neg (by simpa using pres), and_pageAddrMask, pdptEq, if_pos (by simpa using ha),
      hnl, noPage]
    rfl
  | directory _ _ pres pdptEq pdptPresent small dirEq hr =>
    rw [if_neg (by simpa using pres), and_pageAddrMask, pdptEq,
      if_neg (by simpa using pdptPresent), if_neg (by simpa using small), and_pageAddrMask,
      dirEq, leaf_of_directory hr]
    simp only [and_pageAddrMask]
    split_ifs <;> rfl

/-- A user may read the byte at `va`, or write it. -/
def UserAllowed (ram : ByteMemory) (root : Nat) (requireWrite : Bool) (va : Nat) : Prop :=
  ∃ writable, userWritable ram root va = some writable ∧ (requireWrite = true → writable = true)

/-- Below the end of user addresses, with all bytes usable. -/
def UserAccessible (ram : ByteMemory) (root va size : Nat) (requireWrite : Bool) : Prop :=
  size = 0 ∨ va + size ≤ userTop ∧
    ∀ addr, va ≤ addr → addr < va + size → UserAllowed ram root requireWrite addr

variable {requireWrite : Bool}

lemma UserAccessible.mapped (accessible : UserAccessible ram r va size requireWrite) :
    UserMapped ram r va size := by
  intro a ha hc
  rcases accessible with he | ⟨-, allowed⟩
  · omega
  obtain ⟨writable, leaf, -⟩ := allowed a ha hc
  rw [← isSome_map (f := fun e => flagSet e pageWritable)]
  exact isSome_of_mem leaf

lemma present_of_pageLeaf {p e : Nat} (leaf : pageLeaf ram r p = some e) :
    flagSet e pagePresent = true := by
  rw [pageLeaf, ite_none_right_eq_some, bind_eq_some_iff] at leaf
  obtain ⟨-, tbl, -, hf⟩ := leaf
  rw [ite_none_right_eq_some] at hf
  obtain ⟨pres, eq⟩ := hf
  exact Option.some.inj eq ▸ pres

lemma UserAccessible.append {more : Nat} (first : UserAccessible ram r va size requireWrite)
    (snd : UserAccessible ram r (va + size) more requireWrite) :
    UserAccessible ram r va (size + more) requireWrite := by
  rcases snd with rfl | ⟨hb, behind⟩
  · exact first
  refine .inr ⟨by omega, fun a ha mem => ?_⟩
  by_cases hl : va + size ≤ a
  · exact behind a hl (by omega)
  rcases first with rfl | ⟨-, pre⟩
  · omega
  · exact pre a ha (by omega)

lemma UserAccessible.take {cnt : Nat}
    (accessible : UserAccessible ram r va size requireWrite) (le : cnt ≤ size) :
    UserAccessible ram r va cnt requireWrite := by
  rcases accessible with rfl | ⟨hb, bs⟩
  · exact .inl (le_zero.mp le)
  · exact .inr ⟨by omega, fun a ha mem => bs a ha (by omega)⟩

lemma UserAccessible.drop {more : Nat}
    (accessible : UserAccessible ram r va (size + more) requireWrite) :
    UserAccessible ram r (va + size) more requireWrite := by
  rcases accessible with he | ⟨hb, bs⟩
  · exact .inl (by omega)
  · exact .inr ⟨by omega, fun a ha mem => bs a (by omega) (by omega)⟩

lemma UserAccessible.u64_eq (accessible : UserAccessible ram r va size requireWrite)
    (vaLt : va < 2 ^ 64) : u64 (va + size) = va + size := by
  rcases accessible with rfl | ⟨hb, -⟩
  · exact u64_of_lt vaLt
  simp only [userTop] at hb
  exact u64_of_lt (by omega)

lemma UserAccessible.size_le (accessible : UserAccessible ram r va size requireWrite) :
    size ≤ userTop := by
  rcases accessible with rfl | ⟨hb, -⟩ <;> omega

lemma UserSpace.leafAllows_iff (sp : UserSpace r m) (vaLt : va < 2 ^ 48) :
    leafAllows (walkLeaf m.memory (r * pageSize) va).1 requireWrite = true ↔
      UserAllowed m.memory r requireWrite va := by
  have pageEq := pageOf_of_lt vaLt
  rw [sp.ok.tree.walkLeaf_eq, UserAllowed, userWritable, pageEq]
  cases leaf : pageLeaf m.memory r (va / pageSize) with
  | some =>
    have hnl : largeLeaf m.memory r (largeOf va) = none := by
      rw [← pageOf_div, pageEq]
      exact sp.ok.tree.noLarge_of_page leaf
    rw [hnl, getD_none, getD_some, leafAllows, present_of_pageLeaf leaf, sp.user _ _ leaf]
    cases requireWrite <;> simp
  | none =>
    rw [getD_none]
    cases isLarge : largeLeaf m.memory r (largeOf va) with
    | none => simp [leafAllows, flagSet, pagePresent]
    | some =>
      have supervisor := sp.supervisor _ _ isLarge
      simp [leafAllows, supervisor]

lemma userAllowed_page : UserAllowed ram r requireWrite (va / pageSize * pageSize) ↔
    UserAllowed ram r requireWrite va := by
  rw [UserAllowed, userWritable, Nat.mul_div_cancel _ (by decide), UserAllowed, userWritable]

lemma UserSpace.validPages_iff (sp : UserSpace r m) {k fst stop : Nat}
    (hb : stop ≤ userTop) (enough : stop ≤ (fst + k) * pageSize) :
    validPages m.memory (r * pageSize) stop requireWrite k (fst * pageSize) = true ↔
      ∀ p, fst ≤ p → p * pageSize < stop → UserAllowed m.memory r requireWrite (p * pageSize) := by
  induction k generalizing fst with
  | zero =>
    rw [add_zero] at enough
    refine ⟨fun _ p ha mem => ?_, fun _ => rfl⟩
    have := mul_le_mul_right pageSize ha
    omega
  | succ k ih =>
    rw [validPages]
    by_cases more : fst * pageSize < stop
    · have firstLt : fst * pageSize < 2 ^ 48 := by
        simp only [userTop] at hb
        omega
      have pageSizeEq : pageSize = 4096 := rfl
      have nextEq : u64 (fst * pageSize + pageSize) = (fst + 1) * pageSize := by
        rw [u64_of_lt (by omega), add_mul, one_mul]
      rw [if_pos more, and_eq_true, sp.leafAllows_iff firstLt, nextEq,
        ih (by rw [add_assoc, add_comm 1 k]; exact enough)]
      constructor
      · rintro ⟨here, rest⟩ p ha mem
        rcases eq_or_lt_of_le ha with eq | hl
        · exact eq ▸ here
        · exact rest p hl mem
      intro all
      exact ⟨all fst le_rfl more, fun p ha => all p (by omega)⟩
    rw [if_neg more]
    refine ⟨fun _ p ha mem => ?_, fun _ => rfl⟩
    have := mul_le_mul_right pageSize ha
    omega

lemma UserSpace.userRangeIsValid_iff (sp : UserSpace r m) (vaLt : va < 2 ^ 64)
    (sizeLt : size < 2 ^ 64) : userRangeIsValid m.memory (r * pageSize)
      va size requireWrite = true ↔
      UserAccessible m.memory r va size requireWrite := by
  rw [userRangeIsValid, UserAccessible]
  by_cases he : size = 0
  · simp [he]
  rw [if_neg he, or_iff_right he]
  by_cases hb : va + size ≤ userTop
  swap
  · have out : u64 (va + size) ≤ va ∨ u64 (va + size) > userTop := by
      simp only [u64, userTop] at hb ⊢
      omega
    rw [if_pos out]
    exact ⟨fun absurdity => absurd absurdity (by decide), fun mem => absurd mem.1 hb⟩
  have stopEq : u64 (va + size) = va + size := by
    apply u64_of_lt
    simp only [userTop] at hb
    omega
  have enough : va + size ≤ (va / pageSize + (size + 1)) * pageSize := by
    simp only [pageSize]
    omega
  rw [stopEq, if_neg (by omega), sp.validPages_iff hb enough, and_iff_right hb]
  constructor
  · intro ps a ha mem
    rw [← userAllowed_page]
    exact ps _ (Nat.div_le_div_right ha) (Nat.lt_of_le_of_lt (Nat.div_mul_le_self _ _) mem)
  intro bs p ha mem
  -- the first page of the range may start before it
  by_cases fst : p * pageSize < va
  · have eq : p = va / pageSize := by
      simp only [pageSize] at ha fst ⊢
      omega
    rw [eq, userAllowed_page]
    exact bs va le_rfl (by omega)
  · exact bs _ (Nat.le_of_not_lt fst) mem

def userBytes (ram : ByteMemory) (root va : Nat) : Nat → UInt8 :=
  fun idx => (userByte ram root (va + idx)).getD 0

def copiedBytes (ram : ByteMemory) (root va cnt : Nat) : ByteMemory :=
  fun idx => if idx < cnt then userBytes ram root va idx else 0

lemma copiedBytes_zero : copiedBytes ram r va 0 = fun _ => 0 := by
  funext i
  rw [copiedBytes, if_neg (not_lt_zero i)]

lemma copyOut_spec {k copied : Nat} (sp : UserSpace r m)
    (hb : va + size ≤ 2 ^ 47) (copiedLe : copied ≤ size) (enough : size - copied < k)
    (hm : UserMapped m.memory r va size) : copyOut m.memory (r * pageSize) size k (va + copied)
      copied
        (copiedBytes m.memory r va copied) =
      some (copiedBytes m.memory r va size) := by
  induction k generalizing copied with
  | zero => omega
  | succ k ih =>
    rw [copyOut]
    by_cases done : copied = size
    · subst done
      exact if_pos rfl
    obtain ⟨e, leaf⟩ := isSome_iff_exists.mp (hm (va + copied) (by omega) (by omega))
    rw [if_neg done, sp.translate_page (by omega) leaf]
    dsimp only
    have offsetLt : (va + copied) % pageSize < pageSize := mod_lt _ (by decide)
    generalize lengthEq : min (pageSize - (va + copied) % pageSize) (size - copied) = len
    have nextEq : u64 (va + copied + len) = va + (copied + len) := by
      rw [u64_of_lt (by omega), add_assoc]
    have pieceEq : (copiedBytes m.memory r va copied).blit copied len
      (fun i => m.memory
        (frameNumber e * pageSize + (va + copied) % pageSize + i)) =
      copiedBytes m.memory r va (copied + len) := by
      funext i
      rw [ByteMemory.blit, copiedBytes, copiedBytes]
      split_ifs with piece mem mem mem
      any_goals first | rfl | omega
      have samePage : (va + i) / pageSize = (va + copied) / pageSize := by
        simp only [pageSize] at lengthEq ⊢
        omega
      have offsetEq : (va + i) % pageSize = (va + copied) % pageSize + (i - copied) := by
        simp only [pageSize] at lengthEq ⊢
        omega
      rw [userBytes, userByte, samePage, leaf, map_some, getD_some, offsetEq, add_assoc]
    rw [nextEq, pieceEq]
    exact ih (by omega) (by omega)

/-- All bytes of a range the program may read, and none of every other. -/
lemma UserSpace.userCopyFromUser_cases (sp : UserSpace r m) (vaLt : va < 2 ^ 64)
    (sizeLt : size < 2 ^ 64) :
    (UserAccessible m.memory r va size false ∧ userCopyFromUser m.memory (r * pageSize) va size =
          some (copiedBytes m.memory r va size)) ∨
      (¬ UserAccessible m.memory r va size false ∧
        userCopyFromUser m.memory (r * pageSize) va size = none) := by
  rw [userCopyFromUser]
  by_cases he : size = 0
  · subst he
    rw [if_pos rfl, copiedBytes_zero]
    exact .inl ⟨.inl rfl, rfl⟩
  rw [if_neg he]
  by_cases accessible : UserAccessible m.memory r va size false
  swap
  · refine .inr ⟨accessible, if_neg ?_⟩
    rwa [sp.userRangeIsValid_iff vaLt sizeLt]
  rw [if_pos ((sp.userRangeIsValid_iff vaLt sizeLt).mpr accessible), userCopyFromSpace,
    ← copiedBytes_zero]
  obtain ⟨hb, -⟩ := accessible.resolve_left he
  exact .inl ⟨accessible, copyOut_spec sp hb (zero_le size) (by omega) accessible.mapped⟩

/-- All bytes to a range the program may write, and none to every other. -/
lemma UserSpace.userCopyToUser_cases (sp : UserSpace r m) (vaLt : va < 2 ^ 64)
    (sizeLt : size < 2 ^ 64) (source : Nat → UInt8) : (UserAccessible m.memory r va size true ∧
        ∃ post, userCopyToUser (r * pageSize) va source size m = .ok 0 post ∧
          UserWritten r va size source m post) ∨
      (¬ UserAccessible m.memory r va size true ∧
        userCopyToUser (r * pageSize) va source size m = .ok (-sysEfault) m) := by
  rw [userCopyToUser]
  by_cases he : size = 0
  · subst he
    exact .inl ⟨.inl rfl, m, rfl, .refl m⟩
  rw [if_neg he, get_bind]
  by_cases accessible : UserAccessible m.memory r va size true
  swap
  · refine .inr ⟨accessible, ?_⟩
    rw [if_neg (by rwa [sp.userRangeIsValid_iff vaLt sizeLt])]
    rfl
  rw [if_pos ((sp.userRangeIsValid_iff vaLt sizeLt).mpr accessible)]
  refine .inl ⟨accessible, ?_⟩
  obtain ⟨hb, -⟩ := accessible.resolve_left he
  have mapped := accessible.mapped
  obtain ⟨post, run, hw⟩ := userCopyToSpace_mapped sp hb mapped
  refine ⟨post, ?_, hw⟩
  rw [bind_of_ok run]
  rfl

/-- A program with the page at `USER_IMAGE_BASE`. -/
def OnePage (mach : Machine) : Prop :=
  ∃ made, plainSpace = .ok (some (260 * pageSize)) made ∧
    userMapRange (260 * pageSize) userImageBase 0x1000 pageWritable made = .ok 0 mach

lemma OnePage.userSpace {mach : Machine} (onePage : OnePage mach) : UserSpace 260 mach := by
  obtain ⟨made, createdEq, mappedEq⟩ := onePage
  have built : BuiltSpace 260 mach := .mapped (.created (by decide) createdEq) mappedEq
  exact built.userSpace

lemma exists_onePage {check : Machine → Bool}
    (evaluated : Outcome.returnsWith plainSpace (fun pml4 made =>
      decide (pml4 = some (260 * pageSize)) && Outcome.returnsWith
        (userMapRange (260 * pageSize) userImageBase 0x1000 pageWritable made)
        fun code m => decide (code = 0) && check m) = true) :
    ∃ m, OnePage m ∧ check m = true := by
  obtain ⟨pml4, made, createdEq, r⟩ := Outcome.exists_of_returnsWith evaluated
  rw [Bool.and_eq_true, decide_eq_true_eq] at r
  obtain ⟨rfl, hm⟩ := r
  obtain ⟨code, m, mappedEq, checked⟩ := Outcome.exists_of_returnsWith hm
  rw [Bool.and_eq_true, decide_eq_true_eq] at checked
  obtain ⟨rfl, checked⟩ := checked
  exact ⟨m, ⟨made, createdEq, mappedEq⟩, checked⟩

/-- A copy to the program is read back by a copy from it; a refused one changes nothing. -/
theorem userCopy_roundTrip {root va n : Nat} {m : Machine} (sp : UserSpace root m)
    (vaLt : va < 2 ^ 64) (sizeLt : n < 2 ^ 64) (source : Nat → UInt8) :
    ∃ code post, userCopyToUser (root * pageSize) va source n m = .ok code post ∧
      (code ≠ 0 → post = m) ∧
      (code = 0 → userCopyFromUser post.memory (root * pageSize) va n =
          some (fun i => if i < n then source i else 0) ∧
        ∀ a, a < va ∨ va + n ≤ a → userByte post.memory root a = userByte m.memory root a) := by
  rcases sp.userCopyToUser_cases vaLt sizeLt source with ⟨accessible, post, run, hw⟩ | ⟨-, run⟩
  swap
  · exact ⟨_, m, run, fun _ => rfl, fun ok => absurd ok (by decide)⟩
  have readable : UserAccessible post.memory root va n false := by
    refine accessible.imp_right fun allowed => ⟨allowed.1, fun a ha hlt => ?_⟩
    obtain ⟨writable, eq, -⟩ := allowed.2 a ha hlt
    exact ⟨writable, (hw.userWritable a).trans eq, by simp⟩
  refine ⟨0, post, run, absurd rfl, fun _ => ⟨?_, hw.outside⟩⟩
  rcases (hw.userSpace sp).userCopyFromUser_cases vaLt sizeLt with ⟨-, copied⟩ | ⟨refused, -⟩
  swap
  · exact absurd readable refused
  rw [copied]
  congr 1
  funext i
  rw [copiedBytes]
  split_ifs with hlt
  · rw [userBytes, hw.inside i hlt]
    rfl
  · rfl

theorem userCopy_roundTrip_page : ∃ m, OnePage m ∧ ∃ post,
    userCopyToUser (260 * pageSize) userImageBase (fun _ => 7) 3 m = .ok 0 post ∧
      userCopyFromUser post.memory (260 * pageSize) userImageBase 3 =
        some fun i => if i < 3 then 7 else 0 := by
  obtain ⟨m, onePage, checked⟩ := @exists_onePage (fun m => Outcome.returnsWith
    (userCopyToUser (260 * pageSize) userImageBase (fun _ => 7) 3 m)
      fun code _ => decide (code = 0)) (by decide +kernel)
  obtain ⟨_, _, returned, zero⟩ := Outcome.exists_of_returnsWith checked
  obtain ⟨code, post, run, -, back⟩ :=
    @userCopy_roundTrip 260 userImageBase 3 m onePage.userSpace (by decide) (by decide) fun _ => 7
  obtain ⟨rfl, rfl⟩ := EStateM.Result.ok.inj (run.symm.trans returned)
  obtain rfl := of_decide_eq_true zero
  exact ⟨m, onePage, post, run, (back rfl).1⟩

end HnxKernel
