import Hnx.UserCopies

/-!
# Loading and destroying an address space

`user_address_space_destroy` gives back one frame for every path of the tree.
-/

namespace HnxKernel

section

open List HxeSegment

variable {r spare : Nat} {image : ByteMemory} {seg : HxeSegment}
  {segments : List HxeSegment} {m pre mid post : Machine}

namespace HxeSegment

def Covers (seg : HxeSegment) (addr : Nat) : Prop := seg.firstByte ≤ addr ∧ addr < seg.lastByte

def pageCount (seg : HxeSegment) : Nat := (seg.lastByte - seg.firstByte) / pageSize

def contents (seg : HxeSegment) (image : ByteMemory) (addr : Nat) : UInt8 :=
  if seg.virtualAddress ≤ addr ∧ addr < seg.virtualAddress + seg.fileSize then
    image (seg.fileOffset + (addr - seg.virtualAddress))
  else
    0

structure Loadable (segment : HxeSegment) : Prop where
  below : segment.virtualAddress + segment.memorySize ≤ userTop
  holds : segment.fileSize ≤ segment.memorySize
  notEmpty : segment.firstByte < segment.lastByte

section
variable (loadable : seg.Loadable)
include loadable

lemma Loadable.firstByte_eq : seg.firstByte = seg.virtualAddress / pageSize * pageSize := by
  have below := loadable.below
  simp only [userTop] at below
  exact pageAlignDown_eq (by omega)

lemma Loadable.lastByte_eq :
    seg.lastByte = (seg.virtualAddress + seg.memorySize + 4095) / pageSize * pageSize := by
  have below := loadable.below
  simp only [userTop] at below
  rw [lastByte, limit, u64_of_lt (by omega)]
  exact pageAlignUp_eq (by omega)

lemma Loadable.userRange : UserRange seg.firstByte (sub64 seg.lastByte seg.firstByte)
    (seg.virtualAddress / pageSize) seg.pageCount := by
  have below := loadable.below
  have notEmpty := loadable.notEmpty
  rw [pageCount]
  rw [loadable.firstByte_eq, loadable.lastByte_eq] at notEmpty ⊢
  have lastLe : (seg.virtualAddress + seg.memorySize + 4095) / pageSize ≤ 2 ^ 35 := by
    simp only [userTop, pageSize] at below ⊢
    omega
  revert notEmpty lastLe
  generalize seg.virtualAddress / pageSize = first
  generalize (seg.virtualAddress + seg.memorySize + 4095) / pageSize = last
  intro notEmpty lastLe
  have sorted : first < last := Nat.lt_of_mul_lt_mul_right notEmpty
  have lastLt : last * pageSize < 2 ^ 48 := by
    simp only [pageSize]
    omega
  have countEq : (last * pageSize - first * pageSize) / pageSize = last - first := by
    rw [← Nat.sub_mul]
    exact Nat.mul_div_cancel _ (by decide)
  have spanEq : pageAlignUp (sub64 (last * pageSize) (first * pageSize)) =
    last * pageSize - first * pageSize := by
    rw [sub64_of_le notEmpty.le (by omega), pageAlignUp_eq (by omega)]
    simp only [pageSize]
    omega
  rw [countEq]
  refine ⟨rfl, ?_, Nat.sub_pos_of_lt sorted, by omega⟩
  rw [spanEq, Nat.add_sub_cancel' notEmpty.le, Nat.add_sub_cancel' sorted.le, u64_of_lt (by omega)]

lemma Loadable.covers_iff (address : Nat) : seg.virtualAddress / pageSize ≤ address / pageSize ∧
    address / pageSize < seg.virtualAddress / pageSize + seg.pageCount ↔ seg.Covers address := by
  rw [Covers, pageCount, loadable.firstByte_eq, loadable.lastByte_eq]
  simp only [pageSize]
  omega

lemma Loadable.covers {address : Nat} (above : seg.virtualAddress ≤ address)
    (mem : address < seg.virtualAddress + seg.memorySize) : seg.Covers address := by
  rw [Covers, loadable.firstByte_eq, loadable.lastByte_eq]
  simp only [pageSize]
  omega

end

end HxeSegment

structure SegmentsLoaded (root : Nat) (image : ByteMemory) (segments : List HxeSegment)
    (before post : Machine) : Prop where
  space : UserSpace root post
  tidy : Tidy post.memory root
  largeLeaf_eq : largeLeaf post.memory root = largeLeaf before.memory root
  bytes : ∀ segment ∈ segments, ∀ address, segment.Covers address →
    userByte post.memory root address = some (segment.contents image address)
  writable : ∀ segment ∈ segments, ∀ address, segment.Covers address →
    userWritable post.memory root address = some (flagSet segment.flags hxeSegWrite)
  bytesOutside : ∀ address, (∀ segment ∈ segments, ¬ segment.Covers address) →
    userByte post.memory root address = userByte before.memory root address
  writableOutside : ∀ address, (∀ segment ∈ segments, ¬ segment.Covers address) →
    userWritable post.memory root address = userWritable before.memory root address

def SegmentsApart (seg other : HxeSegment) : Prop := ∀ addr, seg.Covers addr → ¬ other.Covers addr

lemma SegmentsLoaded.cons (fst : SegmentsLoaded r image [seg] pre mid)
    (rest : SegmentsLoaded r image segments mid post)
    (apart : ∀ o ∈ segments, SegmentsApart seg o) :
      SegmentsLoaded r image (seg :: segments) pre post where
  __ := rest
  largeLeaf_eq := rest.largeLeaf_eq.trans fst.largeLeaf_eq
  bytes := by
    intro loaded mem a covers
    rcases mem_cons.mp mem with rfl | later
    · rw [rest.bytesOutside a fun o hl => apart o hl a covers]
      exact fst.bytes loaded (by simp) a covers
    · exact rest.bytes loaded later a covers
  writable := by
    intro loaded mem a covers
    rcases mem_cons.mp mem with rfl | later
    · rw [rest.writableOutside a fun o hl => apart o hl a covers]
      exact fst.writable loaded (by simp) a covers
    · exact rest.writable loaded later a covers
  bytesOutside := by
    intro a out
    rw [rest.bytesOutside a fun o hl => out o (by simp [hl])]
    exact fst.bytesOutside a (by simpa using out seg (by simp))
  writableOutside := by
    intro a out
    rw [rest.writableOutside a fun o hl => out o (by simp [hl])]
    exact fst.writableOutside a (by simpa using out seg (by simp))

lemma pageFlags_writable (seg : HxeSegment) :
    flagSet seg.pageFlags pageWritable = flagSet seg.flags hxeSegWrite := by
  rw [pageFlags]
  split
  case isTrue writable =>
    rw [writable]
    decide
  case isFalse readOnly =>
    rw [Bool.eq_false_iff.mpr readOnly]
    decide

def NoLargeIn (memory : ByteMemory) (root : Nat) (seg : HxeSegment) : Prop :=
  ∀ page, seg.virtualAddress / pageSize ≤ page →
    page < seg.virtualAddress / pageSize + seg.pageCount → largeLeaf memory root (page / 512) = none

lemma HxeSegment.Loadable.map (loadable : seg.Loadable) (sp : UserSpace r m)
    (tidy : Tidy m.memory r) (noLarge : NoLargeIn m.memory r seg)
    (supply : Supply m.pool (spare + 4 * seg.pageCount)) :
    ∃ mapped, userMapRange (r * pageSize) seg.firstByte
        (sub64 seg.lastByte seg.firstByte) seg.pageFlags m = .ok 0 mapped ∧
      Supply mapped.pool spare ∧
      SegmentsLoaded r (fun _ => 0) [seg] m mapped := by
  obtain ⟨mapped, run, range, mappedTidy, left⟩ :=
    userMapRange_supplied sp.ok tidy loadable.userRange noLarge supply
  refine ⟨mapped, run, left, sp.mapRange range, mappedTidy, range.largeLeaf_eq, ?_, ?_, ?_, ?_⟩
  · intro loaded mem a covers
    obtain rfl := mem_singleton.mp mem
    rw [range.userByte sp, if_pos ((loadable.covers_iff a).mpr covers),
      contents, ite_self]
  · intro loaded mem a covers
    obtain rfl := mem_singleton.mp mem
    rw [range.userWritable, if_pos ((loadable.covers_iff a).mpr covers), pageFlags_writable]
  · intro a out
    have apart := out seg (by simp)
    rw [range.userByte sp, if_neg fun hi => apart ((loadable.covers_iff a).mp hi)]
  intro a out
  have apart := out seg (by simp)
  rw [range.userWritable, if_neg fun hi => apart ((loadable.covers_iff a).mp hi)]

lemma HxeSegment.Loadable.copy (loadable : seg.Loadable)
    (hm : SegmentsLoaded r (fun _ => 0) [seg] pre mid) :
    ∃ post, userCopyToSpace (r * pageSize) seg.virtualAddress
        (fun i => image (seg.fileOffset + i)) seg.fileSize mid = .ok 0 post ∧
      post.pool = mid.pool ∧ SegmentsLoaded r image [seg] pre post := by
  have below := loadable.below
  have holds := loadable.holds
  have ps : UserMapped mid.memory r seg.virtualAddress seg.fileSize := by
    intro address above hi
    rw [← isSome_userByte, hm.bytes seg (by simp) address
      (loadable.covers above (by omega))]
    rfl
  obtain ⟨post, run, hw⟩ := @userCopyToSpace_mapped r seg.virtualAddress
    seg.fileSize (fun i => image (seg.fileOffset + i)) mid hm.space
    (by simp only [userTop] at below; omega) ps
  refine ⟨post, run, hw.pool, hw.userSpace hm.space, hm.tidy.agrees hw.agrees,
    hw.largeLeaf_eq.trans hm.largeLeaf_eq, ?_, ?_, ?_, ?_⟩
  · intro loaded mem address covers
    obtain rfl := mem_singleton.mp mem
    rw [contents]
    split
    case isTrue hi =>
      obtain ⟨i, rfl⟩ := Nat.exists_eq_add_of_le hi.1
      rw [hw.inside i (by omega), Nat.add_sub_cancel_left]
    case isFalse outside =>
      rw [hw.outside address (by omega), hm.bytes loaded mem address covers,
        contents, if_neg outside]
  · intro loaded mem address covers
    rw [hw.userWritable]
    exact hm.writable loaded mem address covers
  · intro address outside
    have notInside : address < seg.virtualAddress ∨
      seg.virtualAddress + seg.fileSize ≤ address := by
      by_contra hi
      exact outside seg (by simp) (loadable.covers (by omega) (by omega))
    rw [hw.outside address notInside]
    exact hm.bytesOutside address outside
  intro address outside
  rw [hw.userWritable]
  exact hm.writableOutside address outside

lemma loadSegments_cons (loadable : seg.Loadable) (sp : UserSpace r m)
    (tidy : Tidy m.memory r) (noLarge : NoLargeIn m.memory r seg)
    (supply : Supply m.pool (spare + 4 * seg.pageCount)) (segments : List HxeSegment) :
    ∃ post, loadSegments (r * pageSize) image (seg :: segments) m =
        loadSegments (r * pageSize) image segments post ∧
      Supply post.pool spare ∧ SegmentsLoaded r image [seg] m post := by
  obtain ⟨hm, mapping, left, zeroed⟩ := loadable.map sp tidy noLarge supply
  rw [loadSegments, bind_of_ok mapping, if_neg (by simp)]
  by_cases empty : seg.fileSize = 0
  · rw [if_neg (by simpa using empty)]
    refine ⟨hm, rfl, left, zeroed.space, zeroed.tidy, zeroed.largeLeaf_eq, ?_, zeroed.writable,
      zeroed.bytesOutside, zeroed.writableOutside⟩
    intro loaded mem a covers
    rw [zeroed.bytes loaded mem a covers]
    obtain rfl := mem_singleton.mp mem
    rw [contents, contents, if_neg (by omega), if_neg (by omega)]
  obtain ⟨post, copying, poolEq, loaded⟩ := loadable.copy zeroed
  rw [if_pos empty, bind_of_ok copying, if_neg (by simp)]
  exact ⟨post, rfl, poolEq ▸ left, loaded⟩

lemma loadSegments_supplied (loadable : ∀ seg ∈ segments, seg.Loadable)
    (apart : segments.Pairwise SegmentsApart) (sp : UserSpace r m)
    (tidy : Tidy m.memory r) (noLarge : ∀ seg ∈ segments, NoLargeIn m.memory r seg)
    (supply : Supply m.pool (spare + 4 * (segments.map pageCount).sum)) :
    ∃ post, loadSegments (r * pageSize) image segments m = .ok 0 post ∧
      Supply post.pool spare ∧ SegmentsLoaded r image segments m post := by
  induction segments generalizing m with
  | nil => refine ⟨m, rfl, supply, sp, tidy, rfl, ?_, ?_, ?_, ?_⟩ <;> simp
  | cons seg segments ih =>
    rw [map_cons, sum_cons] at supply
    obtain ⟨apartHere, apartLater⟩ := pairwise_cons.mp apart
    obtain ⟨mid, stepEq, left, fst⟩ := @loadSegments_cons r
      (spare + 4 * (segments.map pageCount).sum) image seg m
      (loadable seg (by simp)) sp tidy (noLarge seg (by simp))
      (supply.mono (by omega)) segments
    obtain ⟨post, run, afterLeft, rest⟩ := ih
      (fun o mem => loadable o (by simp [mem])) apartLater fst.space fst.tidy
      (by
        intro o mem p above hi
        rw [fst.largeLeaf_eq]
        exact noLarge o (by simp [mem]) p above hi) left
    exact ⟨post, stepEq.trans run, afterLeft, fst.cons rest apartHere⟩

end

open PointerTree List Option FramePool

def FreesFrames (call : EStateM Halt Machine Unit) (ram : ByteMemory) (frames : List Nat) :
    Prop :=
  ∀ pool, call ⟨ram, pool⟩ = onPool ram (pool.freeFrames frames)

section Calls

variable {call : EStateM Halt Machine Unit} {ram : ByteMemory} {frames more : List Nat}

lemma FreesFrames.nothing : FreesFrames (return ()) ram [] := fun _ => rfl

lemma FreesFrames.freePage (f : Nat) : FreesFrames (HnxKernel.freePage (f * pageSize)) ram [f] := by
  intro pool
  rw [freePage_eq_onPool, freeFrames]
  cases pool.freePage (f * pageSize) with
  | ok => rfl
  | error => rfl

lemma FreesFrames.bind {r : Unit → EStateM Halt Machine Unit}
    (fst : FreesFrames call ram frames) (snd : FreesFrames (r ()) ram more) :
    FreesFrames (call >>= r) ram (frames ++ more) := by
  intro pool
  have called := fst pool
  rw [freeFrames_append]
  cases freed : pool.freeFrames frames with
  | ok _ next =>
    rw [freed] at called
    rw [bind_of_ok called]
    exact snd next
  | error =>
    rw [freed] at called
    rw [bind_of_error called]
    rfl

lemma FreesFrames.reads {r : Machine → EStateM Halt Machine Unit}
    (frees : ∀ pool, FreesFrames (r ⟨ram, pool⟩) ram frames) : FreesFrames (get >>= r) ram frames :=
  fun pool => frees pool pool

lemma FreesFrames.forEach {Item : Type} {body : Item → EStateM Halt Machine Unit}
    {given : Item → List Nat} {items : List Item}
    (each : ∀ item, FreesFrames (body item) ram (given item)) :
    FreesFrames (Outcome.forEach body items) ram (items.flatMap given) := by
  induction items with
  | nil => exact FreesFrames.nothing
  | cons item _ ih =>
    rw [flatMap_cons]
    exact (each item).bind ih

end Calls

def userFrame (ram : ByteMemory) (tbl : Nat) (idx : Fin 512) : Option Nat :=
  let entry := entryAt ram (tbl * pageSize) idx
  if flagSet entry pagePresent && flagSet entry pageUser then some (frameNumber entry) else none

def ownedFrame (ram : ByteMemory) : Nat → Nat → List (Fin 512) → Option Nat
  | _, tbl, [] => some tbl
  | 0, tbl, [idx] => userFrame ram tbl idx
  | 0, _, _ :: _ :: _ => none
  | lvl + 1, tbl, idx :: path =>
    (tableChild ram tbl idx).bind fun child => ownedFrame ram lvl child path

def treePaths : Nat → List (List (Fin 512))
  | 0 => ((List.finRange 512).map fun idx => [idx]) ++ [[]]
  | lvl + 1 => ((List.finRange 512).flatMap fun idx => (treePaths lvl).map (idx :: ·)) ++ [[]]

def tableFrames (ram : ByteMemory) (lvl tbl : Nat) : List Nat :=
  (treePaths lvl).filterMap (ownedFrame ram lvl tbl)

lemma mem_treePaths (lvl : Nat) (path : List (Fin 512)) :
    path ∈ treePaths lvl ↔ path.length ≤ lvl + 1 := by
  induction lvl generalizing path with
  | zero =>
    cases path with
    | nil => simp [treePaths]
    | cons i r =>
      cases r with
      | nil => simp [treePaths]
      | cons => simp [treePaths]
  | succ _ ih =>
    cases path with
    | nil => simp [treePaths]
    | cons => simp [treePaths, ih]

lemma treePaths_nodup (lvl : Nat) : (treePaths lvl).Nodup := by
  induction lvl with
  | zero =>
    refine List.Nodup.append ?_ (nodup_singleton _) (by simp)
    exact (nodup_finRange 512).map fun fst snd eq => by simpa using eq
  | succ _ ih =>
    refine List.Nodup.append ?_ (nodup_singleton _) (by simp)
    rw [nodup_flatMap]
    refine ⟨fun i _ => ih.map fun fst snd eq => by simpa using eq, ?_⟩
    refine (nodup_finRange 512).imp fun {fst snd} ne => ?_
    rw [Function.onFun, disjoint_left]
    intro path inFirst inSecond
    obtain ⟨rest1, _, rfl⟩ := mem_map.mp inFirst
    obtain ⟨rest2, _, eq⟩ := mem_map.mp inSecond
    exact ne (List.cons.inj eq).1.symm

section Frames

variable {ram : ByteMemory} {root tbl f : Nat}

variable {lvl : Nat} {path : List (Fin 512)} {skipHuge : Bool}

lemma ownedFrame_of_short (short : path.length ≤ lvl) :
    ownedFrame ram lvl tbl path = tableAt ram tbl path := by
  induction lvl generalizing tbl path with
  | zero =>
    rw [eq_nil_of_length_eq_zero (Nat.le_zero.mp short)]
    rfl
  | succ _ ih =>
    cases path with
    | nil => rfl
    | cons =>
      rw [ownedFrame, tableAt, descend_cons]
      congr 1
      ext1 c
      exact ih (Nat.le_of_succ_le_succ short)

lemma length_le_of_ownedFrame
    (given : ownedFrame ram lvl tbl path = some f) : path.length ≤ lvl + 1 := by
  induction lvl generalizing tbl path with
  | zero =>
    match path with
    | [] => simp
    | [i] => simp
    | _ :: _ :: _ => simp [ownedFrame] at given
  | succ _ ih =>
    cases path with
    | nil => simp
    | cons =>
      rw [ownedFrame, bind_eq_some_iff] at given
      obtain ⟨c, _, below⟩ := given
      have := ih below
      rw [length_cons]
      omega

lemma ownedFrame_of_whole (whole : path.length = lvl) (slot : Fin 512) :
    ownedFrame ram lvl tbl (path ++ [slot]) =
      (tableAt ram tbl path).bind fun lowest => userFrame ram lowest slot := by
  induction lvl generalizing tbl path with
  | zero =>
    rw [eq_nil_of_length_eq_zero whole]
    rfl
  | succ _ ih =>
    cases path with
    | nil => simp at whole
    | cons =>
      rw [cons_append, ownedFrame, tableAt, descend_cons, bind_assoc]
      congr 1
      ext1 c
      exact ih (Nat.succ.inj whole)

lemma tableFrames_succ (ram : ByteMemory) (lvl tbl : Nat) :
    tableFrames ram (lvl + 1) tbl = ((List.finRange 512).flatMap fun i =>
        ((tableChild ram tbl i).map (tableFrames ram lvl)).getD []) ++ [tbl] := by
  rw [tableFrames, treePaths, filterMap_append, filterMap_flatMap]
  refine congrArg (· ++ [tbl]) (flatMap_congr ?_)
  intro i _
  rw [filterMap_map]
  cases c : tableChild ram tbl i with
  | none =>
    refine filterMap_eq_nil_iff.mpr fun path _ => ?_
    simp [ownedFrame, c]
  | some =>
    apply filterMap_congr
    intro path _
    simp [ownedFrame, c]

lemma tableFrames_zero (ram : ByteMemory) (tbl : Nat) :
    tableFrames ram 0 tbl = ((List.finRange 512).flatMap fun i => (userFrame ram tbl i).toList) ++
        [tbl] := by
  rw [tableFrames, treePaths, filterMap_append, filterMap_map, filterMap_eq_flatMap_toList]
  refine congrArg (· ++ [tbl]) (flatMap_congr ?_)
  intro i _
  rfl

def FreesBelow (free : Nat → EStateM Halt Machine Unit) (ram : ByteMemory) (lvl tbl : Nat) : Prop :=
  ∃ frames, FreesFrames (free (tbl * pageSize)) ram frames ∧
    frames ++ [tbl] = tableFrames ram lvl tbl

lemma freeUserFrames_frees (ram : ByteMemory) (tbl : Nat) :
    FreesBelow freeUserFrames ram 0 tbl := by
  refine ⟨_, ?_, (tableFrames_zero ram tbl).symm⟩
  refine FreesFrames.forEach fun i => FreesFrames.reads fun pool => ?_
  rw [userFrame]
  dsimp only
  split
  · rw [and_pageAddrMask]
    exact FreesFrames.freePage _
  · exact FreesFrames.nothing

lemma tableChild_eq_ite {i : Fin 512}
    (skips : flagSet (entryAt ram (tbl * pageSize) i) pagePresent = true →
      flagSet (entryAt ram (tbl * pageSize) i) pageHuge = true → skipHuge = true) :
    tableChild ram tbl i =
      if !flagSet (entryAt ram (tbl * pageSize) i) pagePresent ||
        (skipHuge && flagSet (entryAt ram (tbl * pageSize) i) pageHuge) then none
      else some (frameNumber (entryAt ram (tbl * pageSize) i)) := by
  rw [tableChild]
  revert skips
  cases flagSet (entryAt ram (tbl * pageSize) i) pagePresent <;>
    cases flagSet (entryAt ram (tbl * pageSize) i) pageHuge <;>
    cases skipHuge <;> simp

lemma freeTables_frees {freeBelow : Nat → EStateM Halt Machine Unit}
    (below : ∀ c, FreesBelow freeBelow ram lvl c) (skips : ∀ i : Fin 512,
      flagSet (entryAt ram (tbl * pageSize) i) pagePresent = true →
      flagSet (entryAt ram (tbl * pageSize) i) pageHuge = true → skipHuge = true) :
    FreesBelow (freeTables skipHuge freeBelow) ram (lvl + 1) tbl := by
  refine ⟨_, ?_, (tableFrames_succ ram lvl tbl).symm⟩
  refine FreesFrames.forEach fun i => FreesFrames.reads fun pool => ?_
  dsimp only
  rw [tableChild_eq_ite (skips i)]
  split
  · exact FreesFrames.nothing
  obtain ⟨frames, frees, framesEq⟩ := below (frameNumber (entryAt ram (tbl * pageSize) i))
  rw [and_pageAddrMask, map_some, getD_some, ← framesEq]
  refine frees.bind (FreesFrames.reads fun _ => ?_)
  rw [and_pageAddrMask]
  exact FreesFrames.freePage _

lemma userAddressSpaceDestroy_frees (t : PageTree ram root) (nonNull : root ≠ 0) :
    FreesFrames (userAddressSpaceDestroy (root * pageSize)) ram (tableFrames ram 3 root) := by
  have notZero : root * pageSize ≠ 0 := by
    simp only [pageSize]
    omega
  have lowest (child : Nat) : FreesBelow (freeTables true freeUserFrames) ram 1 child :=
    freeTables_frees (freeUserFrames_frees ram) fun _ _ _ => rfl
  have mid (child : Nat) :
    FreesBelow (freeTables true (freeTables true freeUserFrames)) ram 2 child :=
    freeTables_frees lowest fun _ _ _ => rfl
  obtain ⟨frames, frees, framesEq⟩ :
      FreesBelow (freeTables false (freeTables true (freeTables true freeUserFrames))) ram 3
        root := by
    apply freeTables_frees mid
    intro i pres huge
    rw [t.upper [] root i (by simp) rfl pres] at huge
    simp at huge
  rw [userAddressSpaceDestroy, if_neg notZero, ← framesEq]
  exact frees.bind (FreesFrames.freePage root)

lemma exists_page_of_path (path : List (Fin 512)) (whole : path.length = 3) (slot : Fin 512) :
    ∃ p < 2 ^ 36, pagePath p = path ∧ Fin.ofNat 512 p = slot := by
  match path, whole with
  | [fst, snd, third], _ =>
    have firstLt := fst.isLt
    have secondLt := snd.isLt
    have thirdLt := third.isLt
    have slotLt := slot.isLt
    refine ⟨((fst.val * 512 + snd.val) * 512 + third.val) * 512 + slot.val, by omega, ?_, ?_⟩
    · simp only [pagePath, largePath, cons_append, nil_append, List.cons.injEq,
        Fin.ext_iff, Fin.val_ofNat, and_true]
      omega
    simp only [Fin.ext_iff, Fin.val_ofNat]
    omega

lemma ownedFrame_page {p : Nat} (pageLt : p < 2 ^ 36) :
    ownedFrame ram 3 root (pagePath p ++ [Fin.ofNat 512 p]) =
      ((pageLeaf ram root p).filter fun e => flagSet e pageUser).map frameNumber := by
  rw [ownedFrame_of_whole (pagePath_length p), pageLeaf, if_pos pageLt]
  cases tableAt ram root (pagePath p) with
  | none => rfl
  | some lowest =>
    simp only [bind_some, userFrame]
    cases flagSet (entryAt ram (lowest * pageSize) (Fin.ofNat 512 p)) pagePresent with
    | false => rfl
    | true =>
      simp only [Bool.true_and, if_true, filter_some]
      split <;> rfl

lemma ownedFrame_cases (given : ownedFrame ram 3 root path = some f) :
    (path.length ≤ 3 ∧ tableAt ram root path = some f) ∨
      ∃ p e, path = pagePath p ++ [Fin.ofNat 512 p] ∧
        pageLeaf ram root p = some e ∧ flagSet e pageUser = true ∧
        frameNumber e = f := by
  have inside := length_le_of_ownedFrame given
  rcases Nat.lt_or_ge path.length 4 with short | long
  · left
    rw [ownedFrame_of_short (Nat.le_of_lt_succ short)] at given
    exact ⟨Nat.le_of_lt_succ short, given⟩
  right
  have whole : path.dropLast.length = 3 := by
    rw [length_dropLast]
    omega
  have split : path = path.dropLast ++ [path.getLast (by rintro rfl; simp at long)] :=
    (dropLast_append_getLast _).symm
  obtain ⟨p, pageLt, pathEq, slotEq⟩ := exists_page_of_path path.dropLast whole
    (path.getLast (by rintro rfl; simp at long))
  have pathIs : path = pagePath p ++ [Fin.ofNat 512 p] := by
    rw [pathEq, slotEq]
    exact split
  rw [pathIs, ownedFrame_page pageLt, map_eq_some_iff] at given
  obtain ⟨e, leaf, frameEq⟩ := given
  rw [filter_eq_some_iff] at leaf
  exact ⟨p, e, pathIs, leaf.1, leaf.2, frameEq⟩

lemma mem_tableFrames (ram : ByteMemory) (root f : Nat) :
    f ∈ tableFrames ram 3 root ↔ IsTable ram root f ∨
        ∃ p e, pageLeaf ram root p = some e ∧ flagSet e pageUser = true ∧ frameNumber e = f := by
  rw [tableFrames, mem_filterMap]
  constructor
  · rintro ⟨path, _, given⟩
    rcases ownedFrame_cases given with ⟨short, reach⟩ | ⟨p, e, _, leaf, user, eq⟩
    · exact .inl ⟨path, short, reach⟩
    · exact .inr ⟨p, e, leaf, user, eq⟩
  rintro (⟨path, short, reach⟩ | ⟨p, e, leaf, user, rfl⟩)
  · refine ⟨path, (mem_treePaths 3 path).mpr (by omega), ?_⟩
    rw [ownedFrame_of_short short, reach]
  have pageLt : p < 2 ^ 36 := by
    by_contra large
    rw [pageLeaf, if_neg large] at leaf
    simp at leaf
  refine ⟨pagePath p ++ [Fin.ofNat 512 p], (mem_treePaths 3 _).mpr (by simp [pagePath_length]), ?_⟩
  rw [ownedFrame_page pageLt, leaf]
  simp [Option.filter, user]

end Frames

section Space

variable {root : Nat} {m : Machine}

section
variable (sp : UserSpace root m)
include sp

lemma UserSpace.path_eq_of_ownedFrame {fst second : List (Fin 512)} {f : Nat}
    (firstGiven : ownedFrame m.memory 3 root fst = some f)
    (secondGiven : ownedFrame m.memory 3 root second = some f) : fst = second := by
  rcases ownedFrame_cases firstGiven with
    ⟨short1, table1⟩ | ⟨firstPage, ent1, rfl, leaf1, _, frame1⟩ <;>
  rcases ownedFrame_cases secondGiven with
    ⟨sndShort, table2⟩ | ⟨page2, ent2, rfl, leaf2, _, secondFrame⟩
  · exact sp.ok.tree.distinct fst second f short1 sndShort table1 table2
  · rw [← secondFrame] at table1
    exact absurd ⟨fst, short1, table1⟩ (sp.notTable _ _ leaf2)
  · rw [← frame1] at table2
    exact absurd ⟨second, sndShort, table2⟩ (sp.notTable _ _ leaf1)
  · rw [sp.distinct _ _ _ _ leaf1 leaf2 (frame1.trans secondFrame.symm)]

lemma UserSpace.tableFrames_nodup : (tableFrames m.memory 3 root).Nodup := by
  refine List.Nodup.filterMap ?_ (treePaths_nodup 3)
  intro fst snd f firstGiven secondGiven
  exact sp.path_eq_of_ownedFrame firstGiven secondGiven

lemma UserSpace.mem_tableFrames (f : Nat) :
    f ∈ tableFrames m.memory 3 root ↔ IsTable m.memory root f ∨
        ∃ p e, pageLeaf m.memory root p = some e ∧ frameNumber e = f := by
  rw [HnxKernel.mem_tableFrames]
  refine or_congr_right ?_
  constructor
  · rintro ⟨p, e, leaf, _, eq⟩
    exact ⟨p, e, leaf, eq⟩
  rintro ⟨p, e, leaf, eq⟩
  exact ⟨p, e, leaf, sp.user p e leaf, eq⟩

lemma UserSpace.root_ne_zero : root ≠ 0 := by
  have managed := (sp.ok.owned root ⟨[], by simp, rfl⟩).1.1
  have : 0 < firstPage := by decide
  omega

/-- Every table and the frame of every page is given back once. -/
lemma UserSpace.destroy : userAddressSpaceDestroy (root * pageSize) m = .ok () ⟨m.memory,
      release (tableFrames m.memory 3 root) m.pool⟩ := by
  have freed : m.pool.freeFrames (tableFrames m.memory 3 root) =
    .ok () (release (tableFrames m.memory 3 root) m.pool) := by
    apply freeFrames_of_owned sp.tableFrames_nodup
    intro f mem
    rcases (sp.mem_tableFrames f).mp mem with isTable | ⟨p, e, leaf, rfl⟩
    · exact sp.ok.owned f isTable
    · exact sp.owned p e leaf
  have called := userAddressSpaceDestroy_frees sp.ok.tree sp.root_ne_zero m.pool
  rw [freed] at called
  exact called

end

end Space

end HnxKernel
