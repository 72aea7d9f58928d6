import Hnx.PagecacheLinks

/-!
# The page cache is a flat store

The cached pages and the store together hold an array of bytes.
-/

namespace HnxKernel

namespace Pagecache

open Relation List

variable {pc post : Pagecache} {pg pgno : Nat}

def KeptAt (pc : Pagecache) (pg places : Nat) : Prop :=
  ∃ pre rest, pc.lru = pre ++ pg :: rest ∧ pre.length ≤ places

variable {places k i readahead : Nat}

lemma KeptAt.listed (kept : pc.KeptAt pg places) : pg ∈ pc.lru := by
  obtain ⟨pre, r, lru, -⟩ := kept
  rw [lru]
  exact mem_append_right pre mem_cons_self

lemma allocAndFill_keptAt (filled : (pc.allocAndFill pgno).1 = some pg) :
    (pc.allocAndFill pgno).2.KeptAt pg 0 := by
  obtain ⟨lru, -, -⟩ := allocAndFill_some filled
  exact ⟨[], _, lru, le_rfl⟩

lemma KeptAt.linkNew (kept : pc.KeptAt pg places) : (pc.linkNew pgno).2.KeptAt pg (places + 1) := by
  obtain ⟨pre, r, lru, few⟩ := kept
  rw [Pagecache.linkNew, fill_eq]
  split
  · refine ⟨pc.next :: pre, r, ?_, Nat.succ_le_succ few⟩
    rw [lru, cons_append]
  · exact ⟨pre, r, lru, few.trans (Nat.le_succ places)⟩

namespace Linked

variable (linked : pc.Linked)
include linked

lemma keptAt_makeRoom {places : Nat} (kept : pc.KeptAt pg places)
    (close : places + 1 < pc.capacity) : (makeRoom pc.lru.length pc).KeptAt pg places := by
  rw [linked.makeRoom_eq]
  split
  case isFalse => exact kept
  case isTrue full =>
    obtain ⟨before, r, lru, few⟩ := kept
    have nodup := linked.indexes.distinct
    have others : r ≠ [] := by
      rintro rfl
      rw [lru, length_append, length_singleton] at full
      omega
    have last : pc.lru.getLast? = some (r.getLast others) := by
      rw [lru, List.getLast?_append_of_ne_nil _ (cons_ne_nil pg r),
        List.getLast?_cons_of_ne_nil others, List.getLast?_eq_getLast_of_ne_nil others]
    rw [lru, nodup_append, nodup_cons] at nodup
    have lastMem := getLast_mem others
    have notPre : r.getLast others ∉ before := fun mem =>
      nodup.2.2 _ mem _ (mem_cons_of_mem pg lastMem) rfl
    have notPage : pg ≠ r.getLast others := fun same => nodup.2.1.1 (same ▸ lastMem)
    refine ⟨before, r.erase (r.getLast others), ?_, few⟩
    rw [evictLru, last]
    dsimp only
    rw [countDown, dropPage_eq]
    rw [lru, erase_append_right _ notPre, erase_cons_tail (by simpa using notPage)]

lemma keptAt_allocAndFill {places : Nat} (kept : pc.KeptAt pg places)
    (close : places + 1 < pc.capacity) : (pc.allocAndFill pgno).2.KeptAt pg (places + 1) := by
  have roomy := linked.keptAt_makeRoom kept close
  have weaken : ∀ {o : Pagecache}, o.KeptAt pg places → o.KeptAt pg (places + 1) := by
    rintro o ⟨pre, r, lru, few⟩
    exact ⟨pre, r, lru, few.trans (Nat.le_succ places)⟩
  rw [allocAndFill]
  dsimp only
  split
  · split
    · exact KeptAt.linkNew roomy
    · exact weaken roomy
  · exact weaken roomy

lemma keptAt_readAheadLoop {k i : Nat} (few : pc.readahead < pc.capacity)
    (kept : pc.KeptAt pg (i - 1)) (iPos : 1 ≤ i)
    (ended : readAheadLoop pgno k i pc = .ok post) : pg ∈ post.lru := by
  induction k generalizing pc i with
  | zero => cases ended
  | succ k ih =>
    rw [readAheadLoop] at ended
    split at ended
    case isTrue more =>
      have capLt := linked.capacity_lt
      have round : ReflTransGen Quiet pc (pc.readAhead (u64 (pgno + i))) := linked.quiets_readAhead
      have setup := sameSetup_of_quiets round
      have next : u32 (i + 1) = i + 1 := u32_of_lt (by omega)
      rw [next] at ended
      refine ih (linked.quiets round) (by rw [setup.readahead, setup.capacity]; exact few)
        ?_ (by omega) ended
      have place : i + 1 - 1 = i - 1 + 1 := by omega
      rw [place, readAhead]
      split
      · exact linked.keptAt_allocAndFill kept (by omega)
      obtain ⟨pre, r, lru, few⟩ := kept
      exact ⟨pre, r, lru, few.trans (Nat.le_succ _)⟩
    case isFalse =>
      cases ended
      exact kept.listed

lemma listed_of_get (few : pc.readahead < pc.capacity)
    (ret : pc.get pgno = .ok (some pg, post)) : pg ∈ post.lru := by
  rcases get_cases ret with ⟨o, hf, same, rfl⟩ | ⟨ha, filled, ended⟩
  · obtain rfl := Option.some.inj same
    exact mem_cons_self
  have quiets := linked.quiets_allocAndFill ha
  have setup := sameSetup_of_quiets quiets
  exact (linked.quiets quiets).keptAt_readAheadLoop
    (by rw [setup.readahead, setup.capacity]; exact few) (allocAndFill_keptAt filled) le_rfl ended

end Linked

lemma readAheadLoop_hangs (linked : pc.Linked) (all : pc.readahead = 2 ^ 32 - 1)
    (iLt : i < 2 ^ 32) : readAheadLoop pgno k i pc = .error .hangs := by
  induction k generalizing pc i with
  | zero => rfl
  | succ k ih =>
    have round : ReflTransGen Quiet pc (pc.readAhead (u64 (pgno + i))) := linked.quiets_readAhead
    rw [readAheadLoop, if_pos (by omega)]
    exact ih (linked.quiets round) ((sameSetup_of_quiets round).readahead.trans all)
      (Nat.mod_lt _ (by decide))

lemma readAheadLoop_ends (linked : pc.Linked) (less : pc.readahead < 2 ^ 32 - 1)
    (iLe : i ≤ pc.readahead + 1) (enough : pc.readahead + 2 ≤ i + k) :
    ∃ post, readAheadLoop pgno k i pc = .ok post := by
  induction k generalizing pc i with
  | zero => omega
  | succ k ih =>
    rw [readAheadLoop]
    split
    case isTrue more =>
      have round : ReflTransGen Quiet pc (pc.readAhead (u64 (pgno + i))) := linked.quiets_readAhead
      have setup := sameSetup_of_quiets round
      have next : u32 (i + 1) = i + 1 := u32_of_lt (by omega)
      rw [next]
      apply ih (linked.quiets round)
      · rw [setup.readahead]
        exact less
      · rw [setup.readahead]
        omega
      rw [setup.readahead]
      omega
    case isFalse => exact ⟨pc, rfl⟩

/-- Readahead does not evict the page that was asked for. -/
def Settled (pc : Pagecache) : Prop := pc.readahead < pc.capacity ∨ pc.readahead = 2 ^ 32 - 1

lemma SameSetup.settled (setup : pc.SameSetup post) (hs : pc.Settled) : post.Settled := by
  rw [Settled, setup.readahead, setup.capacity]
  exact hs

namespace Linked

variable (linked : pc.Linked)
include linked

lemma resident_of_get (hs : pc.Settled) (ret : pc.get pgno = .ok (some pg, post)) :
    pg ∈ post.lru ∧ post.pages.lookup pgno = some pg ∧ post.allocated pg = true := by
  have mem : pg ∈ post.lru := by
    rcases hs with few | all
    · exact linked.listed_of_get few ret
    rcases get_cases ret with ⟨o, hf, same, rfl⟩ | ⟨ha, -, ended⟩
    · obtain rfl := Option.some.inj same
      exact mem_cons_self
    have quiets := linked.quiets_allocAndFill ha
    rw [readAheadLoop_hangs (linked.quiets quiets)
      ((sameSetup_of_quiets quiets).readahead.trans all) (by decide)] at ended
    cases ended
  have linkedAfter := linked.quiets (linked.quiets_get ret)
  exact ⟨mem, linked.lookup_of_get ret mem, (linkedAfter.allocated pg).mpr mem⟩

lemma readLoop_not_freed (hs : pc.Settled) {k off len : Nat} {out : List UInt8} :
    readLoop k pc off len out ≠ .error .freed := by
  induction k generalizing pc off len out with
  | zero => simp [readLoop]
  | succ k ih =>
    rw [readLoop]
    split
    case isTrue =>
      cases got : pc.get (off / 4096) with
      | error =>
        rw [get_error got]
        simp
      | ok pair =>
        obtain ⟨p, next⟩ := pair
        cases p with
        | none => simp
        | some =>
          have quiets := linked.quiets_get got
          dsimp only
          rw [if_pos (linked.resident_of_get hs got).2.2]
          exact ih (linked.quiets quiets) ((sameSetup_of_quiets quiets).settled hs)
    case isFalse => simp

lemma writeLoop_not_freed (hs : pc.Settled) {k off copied : Nat}
    {input : List UInt8} : writeLoop k pc off input copied ≠ .error .freed := by
  induction k generalizing pc off input copied with
  | zero => simp [writeLoop]
  | succ k ih =>
    rw [writeLoop]
    split
    case isTrue =>
      cases got : pc.get (off / 4096) with
      | error =>
        rw [get_error got]
        simp
      | ok pair =>
        obtain ⟨p, next⟩ := pair
        cases p with
        | none => simp
        | some =>
          have quiets := linked.quiets_get got
          obtain ⟨mem, -, pres⟩ := linked.resident_of_get hs got
          dsimp only
          rw [if_pos pres]
          have steps := fun data => (steps_of_quiets quiets).tail (Step.change data mem)
          exact ih (linked.steps (steps _)) ((sameSetup_of_steps (steps _)).settled hs)
    case isFalse => simp

end Linked

structure Filling (pc : Pagecache) (cnt : Nat) : Prop where
  linked : pc.Linked
  lru : pc.lru = (List.range cnt).reverse
  next : pc.next = cnt
  numbers : ∀ pg < cnt, (pc.page pg).pgno = pg
  faults : pc.allocFaults = []

namespace Filling

variable {cnt : Nat} (fill : pc.Filling cnt)
include fill

lemma length_eq : pc.lru.length = cnt := by rw [fill.lru, length_reverse, length_range]

lemma absent : pc.pages.lookup cnt = none := by
  cases hf : pc.pages.lookup cnt with
  | none => rfl
  | some pg =>
    obtain ⟨mem, numbered⟩ := (fill.linked.indexes.found cnt pg).mp hf
    rw [fill.lru, mem_reverse, mem_range] at mem
    rw [fill.numbers pg mem] at numbered
    omega

lemma allocAndFill (room : cnt < pc.capacity) :
    (pc.allocAndFill cnt).1 = some cnt ∧ (pc.allocAndFill cnt).2.Filling (cnt + 1) := by
  have capLt := fill.linked.capacity_lt
  have lengthEq := fill.length_eq
  have small : cnt ≤ radixMaxKey := by
    rw [radixMaxKey]
    omega
  have quiets := fill.linked.quiets_allocAndFill fill.absent
  have linkedAfter := fill.linked.quiets quiets
  have faultsAfter := faults_nil_of_quiets quiets fill.faults
  have noEviction : makeRoom pc.lru.length pc = pc := by
    rw [fill.linked.makeRoom_eq, if_neg (by omega)]
  rw [fill.linked.allocAndFill_of_nil fill.faults, noEviction] at linkedAfter faultsAfter ⊢
  have filled := linkNew_of_nil fill.faults small
  obtain ⟨-, lru, p, next⟩ := linkNew_some filled
  rw [fill.next] at filled lru p next
  refine ⟨filled, linkedAfter, ?_, next, ?_, faultsAfter⟩
  · rw [lru, fill.lru, range_succ, reverse_append, reverse_singleton, singleton_append]
  intro pg older
  rcases Nat.lt_succ_iff_lt_or_eq.mp older with old | rfl
  · have same := page_eq_of_quiets
      (ReflTransGen.single (Quiet.link fill.absent (lengthEq ▸ room))) (fill.next ▸ old)
    rw [same.1, fill.numbers pg old]
  · rw [p]

lemma first_gone (full : cnt = pc.capacity) : 0 ∉ (pc.allocAndFill cnt).2.lru := by
  have capPos := fill.linked.capacity_pos
  have lengthEq := fill.length_eq
  have older : 0 < (makeRoom pc.lru.length pc).next :=
    (page_eq_of_quiets fill.linked.quiets_makeRoom (fill.next ▸ full ▸ capPos)).2
  refine gone_of_quiets (fill.linked.quiets_roomMade fill.absent) older ?_
  have last : pc.lru.getLast? = some 0 := by
    rw [fill.lru, List.getLast?_reverse, List.head?_range, if_neg (by omega)]
  rw [fill.linked.makeRoom_eq, if_pos (lengthEq.trans full), evictLru, last]
  dsimp only
  rw [countDown, dropPage_eq]
  exact fun mem => (fill.linked.indexes.distinct.mem_erase_iff.mp mem).1 rfl

lemma first_gone_of_readAheadLoop {k : Nat} (many : pc.capacity ≤ pc.readahead)
    (fits : cnt ≤ pc.capacity) (ended : readAheadLoop 0 k cnt pc = .ok post) : 0 ∉ post.lru := by
  induction k generalizing pc cnt with
  | zero => cases ended
  | succ k ih =>
    have capLt := fill.linked.capacity_lt
    have capPos := fill.linked.capacity_pos
    have quiets := fill.linked.quiets_allocAndFill fill.absent
    have setup := sameSetup_of_quiets quiets
    have n : u64 (0 + cnt) = cnt := by rw [Nat.zero_add, u64_of_lt (by omega)]
    rw [readAheadLoop, if_pos (by omega), n, readAhead, fill.absent, if_pos (by rfl)] at ended
    rcases fits.lt_or_eq with room | full
    · rw [u32_of_lt (by omega)] at ended
      refine ih (fill.allocAndFill room).2 ?_ ?_ ended
      · rw [setup.capacity, setup.readahead]
        exact many
      rw [setup.capacity]
      exact room
    refine gone_of_quiets ((fill.linked.quiets quiets).quiets_readAheadLoop ended) ?_
      (fill.first_gone full)
    exact (page_eq_of_quiets quiets (fill.next ▸ full ▸ capPos)).2

end Filling

lemma get_init_gone {capacity : Nat} (capPos : 1 ≤ capacity)
    (capLt : capacity < 2 ^ 32) (many : capacity ≤ readahead) (less : readahead < 2 ^ 32 - 1)
    (backing : BackingStore) (hasRead hasWrite : Bool) :
    ∃ post, (init backing hasRead hasWrite capacity readahead []).get 0 = .ok (some 0, post) ∧
      0 ∉ post.lru := by
  have fill : (init backing hasRead hasWrite capacity readahead []).Filling 0 :=
    ⟨Linked.init capLt, rfl, rfl, fun pg older => absurd older (Nat.not_lt_zero pg), rfl⟩
  have sameCapacity : (init backing hasRead hasWrite capacity readahead []).capacity = capacity :=
    if_pos (by omega)
  obtain ⟨ret, fst⟩ := fill.allocAndFill (by omega)
  have setup := sameSetup_of_quiets (fill.linked.quiets_allocAndFill fill.absent)
  have readaheadEq := setup.readahead
  have capacityEq := setup.capacity
  rw [sameCapacity] at capacityEq
  change _ = readahead at readaheadEq
  have ends : ∃ post, readAheadLoop 0 (2 ^ 32) 1
    ((init backing hasRead hasWrite capacity readahead []).allocAndFill 0).2 = .ok post :=
    readAheadLoop_ends fst.linked (by omega) (by omega) (by omega)
  obtain ⟨post, ended⟩ := ends
  refine ⟨post, ?_, fst.first_gone_of_readAheadLoop (by omega) (by omega) ended⟩
  rw [get, fill.absent]
  dsimp only
  rw [ended, ret]

lemma read_init_freed {cap len : Nat} (capPos : 1 ≤ cap)
    (capLt : cap < 2 ^ 32) (many : cap ≤ readahead) (less : readahead < 2 ^ 32 - 1)
    (backing : BackingStore) (hasRead hasWrite : Bool) (lenPos : 0 < len) :
    (init backing hasRead hasWrite cap readahead []).read 0 len = .error .freed := by
  obtain ⟨post, ret, gone⟩ := get_init_gone capPos capLt many less backing hasRead hasWrite
  have linked : (init backing hasRead hasWrite cap readahead []).Linked := Linked.init capLt
  have linkedAfter := linked.quiets (linked.quiets_get ret)
  obtain ⟨k, rfl⟩ := Nat.exists_eq_succ_of_ne_zero lenPos.ne'
  rw [read, readLoop, if_pos lenPos]
  rw [Nat.zero_div, ret]
  exact if_neg fun pres => gone ((linkedAfter.allocated 0).mp pres)

/-- Pages that are returned are resident, exactly if fewer pages are read ahead than the cache holds
or the read-ahead does not end. -/
theorem get_resident_iff (cap readahead : Nat) (capacityPos : 1 ≤ cap)
    (capacityLt : cap < 2 ^ 32) (raLt : readahead < 2 ^ 32) :
    (∀ pc, Reachable cap readahead [] pc → (∀ pgno pg post, pc.get pgno = .ok (some pg, post) →
        pg ∈ post.lru ∧ post.pages.lookup pgno = some pg ∧ post.allocated pg = true) ∧
      (∀ off len, pc.read off len ≠ .error .freed) ∧
      (∀ off input, pc.write off input ≠ .error .freed)) ↔
    readahead < cap ∨ readahead = 2 ^ 32 - 1 := by
  constructor
  · intro resident
    by_contra bad
    have many : cap ≤ readahead := by omega
    exact (resident _ (Reachable.init (BackingStore.zeros []) true true)).2.1 0 1
      (read_init_freed capacityPos capacityLt many (by omega) _ true true Nat.one_pos)
  intro hs pc hr
  obtain ⟨linked, sameCapacity, sameRa⟩ := hr.linked capacityPos capacityLt
  have settledCache : pc.Settled := by
    rw [Settled, sameCapacity, sameRa]
    exact hs
  exact ⟨fun pgno pg post returned => linked.resident_of_get settledCache returned,
    fun off len => linked.readLoop_not_freed settledCache,
    fun off input => linked.writeLoop_not_freed settledCache⟩

theorem get_resident_iff_ahead :
    2 < 3 ∧ ∀ pc, Reachable 3 2 [] pc → (∀ pgno pg post, pc.get pgno = .ok (some pg, post) →
        pg ∈ post.lru ∧ post.pages.lookup pgno = some pg ∧ post.allocated pg = true) ∧
      (∀ off len, pc.read off len ≠ .error .freed) ∧
      (∀ off input, pc.write off input ≠ .error .freed) :=
  ⟨by decide, (get_resident_iff 3 2 (by decide) (by decide) (by decide)).mpr (.inl (by decide))⟩

/-- The page is freed before its bytes are copied. -/
theorem read_touches_freed_page :
    (init (BackingStore.zeros []) true true 1 1 []).read 0 1 = .error .freed :=
  read_init_freed (by decide) (by decide) le_rfl (by decide) _ true true (by decide)

end Pagecache

open Function List ByteMemory CacheView ByteMemory Pagecache

def flatArray (pages : Nat → DiskBlock) : ByteMemory :=
  fun addr => pages (addr / 4096) (addr % 4096)

variable {off chunk : Nat} {ram : ByteMemory}

lemma flatArray_update {ps : Nat → DiskBlock} {source : Nat → UInt8}
    (mem : off % 4096 + chunk ≤ 4096) : flatArray (update ps (off / 4096)
      (blit (ps (off / 4096)) (off % 4096) chunk source)) =
      (flatArray ps).blit off chunk source := by
  funext a
  rw [flatArray]
  by_cases eq : a / 4096 = off / 4096
  · rw [eq, update_self]
    by_cases hc : off ≤ a ∧ a < off + chunk
    · have hp : a % 4096 = off % 4096 + (a - off) := by omega
      have whole : a = off + (a - off) := by omega
      rw [hp, blit_inside (by omega), whole, blit_inside (by omega), ← whole]
    · rw [blit_outside (by omega), blit_outside (by omega), flatArray, eq]
  · rw [update_of_ne eq, blit_outside (by omega), flatArray]

lemma blit_drop {input : List UInt8} (chunkLe : chunk ≤ input.length) :
    (ram.blit off chunk (ofBytes input)).blit (off + chunk)
        (input.drop chunk).length (ofBytes (input.drop chunk)) =
      ram.blit off input.length (ofBytes input) := by
  have lengthEq : input.length = chunk + (input.drop chunk).length := by
    rw [length_drop]
    omega
  rw [lengthEq]
  apply blit_append
  intro i _
  simp [ofBytes]

def ByteMemory.bytes (ram : ByteMemory) (off len : Nat) : List UInt8 :=
  (List.range len).map fun idx => ram (off + idx)

lemma ByteMemory.bytes_add {fst second : Nat} :
    ram.bytes off (fst + second) = ram.bytes off fst ++ ram.bytes (off + fst) second := by
  simp only [bytes, range_add, map_append, map_map]
  congr 1
  apply map_congr_left
  intro i _
  rw [comp_apply, Nat.add_assoc]

namespace Pagecache

open Relation

variable {pc post : Pagecache} {pg pgno : Nat} {latest : Nat → DiskBlock}

/-- The cache and its store hold the latest pages, and nothing fails. -/
structure Refines (pc : Pagecache) (latest : Nat → DiskBlock) : Prop where
  linked : pc.Linked
  coherent : Coherent pc.lru pc.blocks pc.backing.contents latest
  hasRead : pc.hasRead = true
  hasWrite : pc.hasWrite = true
  readFaults : pc.backing.readFaults = []
  writeFaults : pc.backing.writeFaults = []
  allocFaults : pc.allocFaults = []
  few : pc.readahead < pc.capacity

lemma dropPage_resident {cnt : Nat} :
    dropPage { pc with resident := cnt } pg = { pc.dropPage pg with resident := cnt } := by
  rw [dropPage, dropPage, freePage, freePage]
  split
  · rfl
  · rfl

lemma foldl_dropPage_resident {mem : List Nat} {cnt : Nat} :
    mem.foldl dropPage { pc with resident := cnt } =
      { mem.foldl dropPage pc with resident := cnt } := by
  induction mem generalizing pc with
  | nil => rfl
  | cons _ _ ih => rw [foldl_cons, foldl_cons, dropPage_resident, ih]

lemma allocFaults_syncPage : (pc.syncPage pg).allocFaults = pc.allocFaults := by
  rw [syncPage]
  split
  · rfl
  · rfl

namespace Refines

variable (hr : pc.Refines latest)
include hr

lemma fill_eq : pc.fill pgno = (pc.backing.contents pgno, pc) := by
  rw [fill, if_pos hr.hasRead, BackingStore.read_of_nil hr.readFaults]
  rfl

lemma coherent_quiet (quiet : Quiet pc post) :
    Coherent post.lru post.blocks post.backing.contents latest ∧
      post.backing.readFaults = [] ∧ post.backing.writeFaults = [] := by
  have coherent := hr.coherent
  have linked := hr.linked
  cases quiet with
  | touch mem =>
    have perm := perm_cons_erase mem
    exact ⟨coherent.of_mem_iff fun o => perm.symm.mem_iff, hr.readFaults, hr.writeFaults⟩
  | @drop pg mem =>
    have backing : (pc.dropPage pg).backing = _ :=
      (congrArg store (view_dropPage hr.hasWrite)).trans
        (store_flush hr.writeFaults)
    have dropped := coherent.remove linked.indexes mem
    rw [countDown]
    rw [backing, dropPage_eq]
    exact ⟨dropped, hr.readFaults, hr.writeFaults⟩
  | allocate => exact ⟨coherent, hr.readFaults, hr.writeFaults⟩
  | @link pgno ha =>
    have fresh := linked.fresh
    have kept : Coherent pc.lru
      (update pc.blocks pc.next ⟨pgno, pc.backing.contents pgno, false⟩)
      pc.backing.contents latest :=
      coherent.congr fun pg mem => update_of_ne (ne_of_mem_of_not_mem mem fresh) ..
    rw [linkNew, hr.fill_eq]
    split
    · refine ⟨?_, hr.readFaults, hr.writeFaults⟩
      rw [blocks_of_update rfl]
      apply kept.add
      · intro o mem
        rw [update_of_ne (ne_of_mem_of_not_mem mem fresh), update_self]
        intro numbered
        have found := linked.indexes.lookup_key mem
        rw [show (pc.page o).pgno = pgno from numbered, ha] at found
        cases found
      · rw [update_self]
    refine ⟨?_, hr.readFaults, hr.writeFaults⟩
    rw [blocks_of_update rfl]
    exact kept

lemma quiet (quiet : Quiet pc post) : post.Refines latest := by
  obtain ⟨coherent, readFaults, writeFaults⟩ := hr.coherent_quiet quiet
  have setup := quiet.sameSetup
  exact
    { linked := hr.linked.quiet quiet
      coherent
      hasRead := setup.hasRead.trans hr.hasRead
      hasWrite := setup.hasWrite.trans hr.hasWrite
      readFaults
      writeFaults
      allocFaults := quiet.faults_nil hr.allocFaults
      few := by
        rw [setup.readahead, setup.capacity]
        exact hr.few }

lemma quiets (steps : ReflTransGen Quiet pc post) : post.Refines latest := by
  induction steps with
  | refl => exact hr
  | tail _ step ih => exact ih.quiet step

lemma get (keyLe : pgno ≤ radixMaxKey) :
    ∃ pg post, pc.get pgno = .ok (some pg, post) ∧ post.Refines latest ∧ pg ∈ post.lru ∧
      (post.page pg).pgno = pgno ∧ post.allocated pg = true := by
  have linked := hr.linked
  have hf : ∃ pg post, pc.get pgno = .ok (some pg, post) := by
    rw [Pagecache.get]
    cases lookup : pc.pages.lookup pgno with
    | some pg => exact ⟨pg, _, rfl⟩
    | none =>
      have quiets := linked.quiets_allocAndFill lookup
      have setup := sameSetup_of_quiets quiets
      have few := hr.few
      have capLt := linked.capacity_lt
      have readaheadEq := setup.readahead
      have ends : ∃ post, readAheadLoop pgno (2 ^ 32) 1 (pc.allocAndFill pgno).2 = .ok post :=
        readAheadLoop_ends (linked.quiets quiets) (by omega) (by omega) (by omega)
      obtain ⟨post, ended⟩ := ends
      have filled : (pc.allocAndFill pgno).1 = some (makeRoom pc.lru.length pc).next := by
        rw [linked.allocAndFill_of_nil hr.allocFaults]
        exact linkNew_of_nil (faults_nil_of_quiets linked.quiets_makeRoom hr.allocFaults) keyLe
      dsimp only
      rw [ended, filled]
      exact ⟨_, post, rfl⟩
  obtain ⟨pg, post, ret⟩ := hf
  obtain ⟨mem, -, pres⟩ := linked.resident_of_get (.inl hr.few) ret
  exact ⟨pg, post, ret, hr.quiets (linked.quiets_get ret), mem, linked.pgno_of_get ret, pres⟩

omit hr in
lemma chunkLength_le {off len : Nat} :
    chunkLength off len ≤ len ∧ off % 4096 + chunkLength off len ≤ 4096 ∧
      (0 < len → 0 < chunkLength off len) := by
  rw [chunkLength]
  split <;> omega

lemma readLoop {fuel off len : Nat} {out : List UInt8} (enough : len ≤ fuel)
    (bounded : off + len ≤ 2 ^ 48) : ∃ post, readLoop fuel pc off len out =
        .ok (0, out ++ (flatArray latest).bytes off len, post) ∧ post.Refines latest := by
  induction fuel generalizing pc off len out with
  | zero =>
    obtain rfl : len = 0 := by omega
    exact ⟨pc, by simp [Pagecache.readLoop, bytes], hr⟩
  | succ fuel ih =>
    rw [Pagecache.readLoop]
    by_cases more : 0 < len
    · obtain ⟨chunkLe, chunkInside, chunkPos⟩ := @chunkLength_le off len
      have chunkPos := chunkPos more
      have keyLe : off / 4096 ≤ radixMaxKey := by
        rw [radixMaxKey]
        omega
      obtain ⟨pg, next, ret, refinesNext, mem, numbered, pres⟩ := hr.get keyLe
      have data : (next.page pg).data = latest (off / 4096) := by
        rw [← numbered]
        exact refinesNext.coherent.cached pg mem
      have copied : chunkOf (next.page pg).data (off % 4096) (chunkLength off len) =
        (flatArray latest).bytes off (chunkLength off len) := by
        apply map_congr_left
        intro index hlt
        rw [mem_range] at hlt
        have p : (off + index) / 4096 = off / 4096 := by omega
        have hp : (off + index) % 4096 = off % 4096 + index := by omega
        rw [data, flatArray, p, hp]
      have nextOff : u64 (off + chunkLength off len) = off + chunkLength off len :=
        u64_of_lt (by omega)
      rw [if_pos more]
      rw [ret]
      dsimp only
      rw [if_pos pres, nextOff, copied]
      have r : len - chunkLength off len ≤ fuel := by omega
      have bs : (flatArray latest).bytes off len =
        (flatArray latest).bytes off (chunkLength off len) ++
          (flatArray latest).bytes (off + chunkLength off len) (len - chunkLength off len) := by
        rw [← bytes_add, Nat.add_sub_cancel' chunkLe]
      rw [bs, ← append_assoc]
      exact ih refinesNext r (by omega)
    obtain rfl : len = 0 := by omega
    exact ⟨pc, by simp [bytes], hr⟩

lemma of_sameLinks (eq : pc.SameLinks post) {ps : Nat → DiskBlock}
    (coherent : Coherent post.lru post.blocks post.backing.contents ps)
    (readFaults : post.backing.readFaults = []) (writeFaults : post.backing.writeFaults = [])
    (allocFaults : post.allocFaults = []) : post.Refines ps where
  linked := hr.linked.of_sameLinks eq
  coherent := coherent
  hasRead := eq.hasRead.trans hr.hasRead
  hasWrite := eq.hasWrite.trans hr.hasWrite
  readFaults := readFaults
  writeFaults := writeFaults
  allocFaults := allocFaults
  few := by
    rw [eq.readahead, eq.capacity]
    exact hr.few

lemma change (mem : pg ∈ pc.lru) (data : DiskBlock) :
    ((pc.changeData pg data).setDirty pg).Refines (update latest (pc.page pg).pgno data) := by
  refine hr.of_sameLinks (sameLinks_changeData.trans sameLinks_setDirty) ?_
    hr.readFaults hr.writeFaults hr.allocFaults
  rw [blocks_change]
  exact hr.coherent.change hr.linked.indexes mem data

lemma writeLoop {fuel off copied : Nat} {input : List UInt8}
    (enough : input.length ≤ fuel) (bounded : off + input.length ≤ 2 ^ 48) :
    ∃ post ps, writeLoop fuel pc off input copied = .ok (0, copied + input.length, post) ∧
      post.Refines ps ∧
      flatArray ps = (flatArray latest).blit off input.length (ofBytes input) := by
  induction fuel generalizing pc latest off copied input with
  | zero =>
    obtain rfl : input = [] := length_eq_zero_iff.mp (by omega)
    refine ⟨pc, latest, rfl, hr, ?_⟩
    funext a
    exact (blit_outside (by rw [length_nil]; omega)).symm
  | succ fuel ih =>
    rw [writeLoop]
    by_cases more : 0 < input.length
    · obtain ⟨chunkLe, chunkInside, chunkPos⟩ := @chunkLength_le off input.length
      have chunkPos := chunkPos more
      have keyLe : off / 4096 ≤ radixMaxKey := by
        rw [radixMaxKey]
        omega
      obtain ⟨pg, next, ret, refinesNext, mem, numbered, pres⟩ := hr.get keyLe
      have nextOff : u64 (off + chunkLength off input.length) =
        off + chunkLength off input.length := u64_of_lt (by omega)
      have data : (next.page pg).data = latest (off / 4096) := by
        rw [← numbered]
        exact refinesNext.coherent.cached pg mem
      rw [if_pos more]
      rw [ret]
      dsimp only
      rw [if_pos pres, nextOff, data]
      have changed := refinesNext.change mem (blit (latest (off / 4096))
        (off % 4096) (chunkLength off input.length) (ofBytes input))
      rw [numbered] at changed
      have r : (input.drop (chunkLength off input.length)).length ≤ fuel := by
        rw [length_drop]
        omega
      have restBounded : off + chunkLength off input.length +
        (input.drop (chunkLength off input.length)).length ≤ 2 ^ 48 := by
        rw [length_drop]
        omega
      obtain ⟨post, ps, hw, refinesAfter, array⟩ := ih changed r restBounded
      refine ⟨post, ps, ?_, refinesAfter, ?_⟩
      · rw [hw, length_drop, Nat.add_assoc, Nat.add_sub_cancel' chunkLe]
      · rw [array, flatArray_update chunkInside, blit_drop chunkLe]
    obtain rfl : input = [] := length_eq_zero_iff.mp (by omega)
    refine ⟨pc, latest, rfl, hr, ?_⟩
    funext a
    exact (blit_outside (by rw [length_nil]; omega)).symm

lemma read {off len : Nat} (bounded : off + len ≤ 2 ^ 48) :
    ∃ post, pc.read off len = .ok (0, (flatArray latest).bytes off len, post) ∧
      post.Refines latest :=
  hr.readLoop le_rfl bounded

lemma write {off : Nat} {input : List UInt8} (bounded : off + input.length ≤ 2 ^ 48) :
    ∃ post ps, pc.write off input = .ok (0, input.length, post) ∧ post.Refines ps ∧
      flatArray ps = (flatArray latest).blit off input.length (ofBytes input) := by
  have written := @writeLoop pc latest hr input.length off 0 input le_rfl bounded
  rwa [Nat.zero_add] at written

lemma syncPage (mem : pg ∈ pc.lru) : (pc.syncPage pg).Refines latest := by
  have flushed := hr.coherent.flush hr.linked.indexes mem
  have view := @view_syncPage pc pg hr.hasWrite
  have bs : (pc.syncPage pg).blocks = _ :=
    (congrArg block view).trans block_flush
  have backing : (pc.syncPage pg).backing = _ :=
    (congrArg store view).trans (store_flush hr.writeFaults)
  have faults : (pc.syncPage pg).allocFaults = _ := allocFaults_syncPage
  refine hr.of_sameLinks sameLinks_syncPage ?_ ?_ ?_ (faults.trans hr.allocFaults)
  · rw [bs, sameLinks_syncPage.lru, backing]
    exact flushed
  · rw [backing]
    exact hr.readFaults
  rw [backing]
  exact hr.writeFaults

lemma sync : pc.sync.2.Refines latest ∧ ∀ pg ∈ pc.sync.2.lru,
    (pc.sync.2.page pg).dirty = false := by
  have ps : ∀ (hl : List Nat) {pc : Pagecache}, pc.Refines latest → (∀ pg ∈ hl, pg ∈ pc.lru) →
    (hl.foldl Pagecache.syncPage pc).Refines latest ∧
      (hl.foldl Pagecache.syncPage pc).lru = pc.lru ∧
      ∀ pg, pg ∈ hl ∨ (pc.page pg).dirty = false →
        ((hl.foldl Pagecache.syncPage pc).page pg).dirty = false := by
    intro hl
    induction hl with
    | nil =>
      intro pc hr _
      refine ⟨hr, rfl, fun pg clean => clean.resolve_left not_mem_nil⟩
    | cons fst hl ih =>
      intro pc hr hi
      have lru : (pc.syncPage fst).lru = pc.lru := sameLinks_syncPage.lru
      have bs : (pc.syncPage fst).blocks = _ :=
        (congrArg block (view_syncPage hr.hasWrite)).trans block_flush
      obtain ⟨refinesAfter, sameList, clean⟩ := ih
        (hr.syncPage (hi fst mem_cons_self))
        (fun pg mem => lru ▸ hi pg (mem_cons_of_mem fst mem))
      refine ⟨refinesAfter, sameList.trans lru, fun pg hc => clean pg ?_⟩
      change pg ∈ hl ∨ ((pc.syncPage fst).blocks pg).dirty = false
      by_cases eq : pg = fst
      · right
        rw [bs, eq, update_self]
      rw [bs, update_of_ne eq]
      rcases hc with mem | isClean
      · exact .inl ((mem_cons.mp mem).resolve_left eq)
      · exact .inr isClean
  obtain ⟨refinesAfter, sameList, clean⟩ := ps pc.lru hr fun _ mem => mem
  refine ⟨refinesAfter, fun pg hl => clean pg (.inl ?_)⟩
  rw [← sameList]
  exact hl

lemma evict : (pc.evict pgno).Refines latest := by
  rw [Pagecache.evict]
  cases hf : pc.pages.lookup pgno with
  | none => exact hr
  | some pg => exact hr.quiet (Quiet.drop ((hr.linked.indexes.found pgno pg).mp hf).1)

lemma destroy : pc.destroy.backing.contents = latest ∧ pc.destroy.lru = [] := by
  have drop : ∀ (listed : List Nat) {pc : Pagecache}, pc.Refines latest → pc.lru = listed →
    (listed.foldl dropPage pc).backing.contents = latest ∧ (listed.foldl dropPage pc).lru = [] := by
    intro listed
    induction listed with
    | nil =>
      intro pc hr lru
      refine ⟨funext fun n => hr.coherent.absent n fun pg listed => ?_, lru⟩
      rw [lru] at listed
      cases listed
    | cons fst listed ih =>
      intro pc hr lru
      have mem : fst ∈ pc.lru := lru ▸ mem_cons_self
      have left : (pc.dropPage fst).countDown.lru = listed := by
        rw [countDown, dropPage_eq]
        rw [lru, erase_cons_head]
      have done := ih (hr.quiet (Quiet.drop mem)) left
      rwa [countDown, foldl_dropPage_resident] at done
  exact drop pc.lru hr rfl

end Refines

inductive Call where
  | read (offset len : Nat)
  | write (offset : Nat) (input : List UInt8)
  | sync
  | evict (pgno : Nat)

inductive Answer where
  | bytes (result : Int) (out : List UInt8)
  | copied (result : Int) (count : Nat)
  | written (count : Nat)
  | done

def Call.InRange : Call → Prop
  | .read off len => off + len ≤ 2 ^ 48
  | .write off input => off + input.length ≤ 2 ^ 48
  | .sync => True
  | .evict _ => True

def Call.run (pc : Pagecache) : Call → Except CacheStop (Answer × Pagecache)
  | .read off len => (pc.read off len).map fun res => (.bytes res.1 res.2.1, res.2.2)
  | .write off input => (pc.write off input).map fun res => (.copied res.1 res.2.1, res.2.2)
  | .sync => .ok (.written pc.sync.1, pc.sync.2)
  | .evict pgno => .ok (.done, pc.evict pgno)

def runCalls (pc : Pagecache) : List Call → Except CacheStop (List Answer × Pagecache)
  | [] => .ok ([], pc)
  | call :: calls =>
    match call.run pc with
    | .error stop => .error stop
    | .ok (answer, pc) => (runCalls pc calls).map fun res => (answer :: res.1, res.2)

def Call.apply (array : ByteMemory) : Call → ByteMemory
  | .write off input => array.blit off input.length (ofBytes input)
  | .read _ _ => array
  | .sync => array
  | .evict _ => array

def Call.Returns (array : ByteMemory) : Call → Answer → Prop
  | .read off len, answer => answer = .bytes 0 (array.bytes off len)
  | .write _ input, answer => answer = .copied 0 input.length
  | .sync, answer => ∃ cnt, answer = .written cnt
  | .evict _, answer => answer = .done

inductive FlatRun : ByteMemory → List Call → List Answer → ByteMemory → Prop
  | nil (array : ByteMemory) : FlatRun array [] [] array
  | cons {array final : ByteMemory} {call : Call} {calls : List Call} {answer : Answer}
      {answers : List Answer} (returns : call.Returns array answer)
      (rest : FlatRun (call.apply array) calls answers final) :
      FlatRun array (call :: calls) (answer :: answers) final

lemma Refines.run (hr : pc.Refines latest) {c : Call} (inRange : c.InRange) :
    ∃ ans post ps, c.run pc = .ok (ans, post) ∧ post.Refines ps ∧
      pc.SameSetup post ∧ c.Returns (flatArray latest) ans ∧
      flatArray ps = c.apply (flatArray latest) := by
  have linked := hr.linked
  cases c with
  | read =>
    obtain ⟨post, ret, refinesAfter⟩ := hr.read inRange
    have setup := sameSetup_of_quiets (linked.quiets_readLoop ret)
    refine ⟨_, post, latest, ?_, refinesAfter, setup, rfl, rfl⟩
    rw [Call.run, ret]
    rfl
  | write =>
    obtain ⟨post, ps, ret, refinesAfter, array⟩ := hr.write inRange
    have setup := sameSetup_of_steps (linked.steps_writeLoop ret)
    refine ⟨_, post, ps, ?_, refinesAfter, setup, rfl, array⟩
    rw [Call.run, ret]
    rfl
  | sync =>
    have setup := sameSetup_of_steps (@Linked.steps_sync pc)
    exact ⟨_, _, latest, rfl, hr.sync.1, setup, ⟨_, rfl⟩, rfl⟩
  | evict pgno =>
    have setup := sameSetup_of_steps (@Linked.steps_evict pc pgno linked)
    exact ⟨_, _, latest, rfl, hr.evict, setup, rfl, rfl⟩

lemma Refines.runCalls (hr : pc.Refines latest) {cs : List Call} (inRange : ∀ c ∈ cs, c.InRange) :
    ∃ answers post ps, runCalls pc cs = .ok (answers, post) ∧ post.Refines ps ∧
      pc.SameSetup post ∧ FlatRun (flatArray latest) cs answers (flatArray ps) := by
  induction cs generalizing pc latest with
  | nil => exact ⟨[], pc, latest, rfl, hr, SameSetup.refl pc, FlatRun.nil _⟩
  | cons c _ ih =>
    obtain ⟨ans, next, ps, ret, refinesNext, setup, returns, array⟩ :=
      hr.run (inRange c mem_cons_self)
    obtain ⟨answers, post, final, r, refinesAfter, setupRest, flat⟩ := ih refinesNext
      fun o mem => inRange o (mem_cons_of_mem c mem)
    refine ⟨ans :: answers, post, final, ?_, refinesAfter, setup.trans setupRest,
      FlatRun.cons returns ?_⟩
    · rw [runCalls, ret]
      dsimp only
      rw [r]
      rfl
    rw [← array]
    exact flat

lemma Refines.init {backing : BackingStore} {cap readahead : Nat} (capPos : 1 ≤ cap)
    (capLt : cap < 2 ^ 32) (few : readahead < cap) (readFaults : backing.readFaults = [])
    (writeFaults : backing.writeFaults = []) :
      (init backing true true cap readahead []).Refines backing.contents where
  linked := Linked.init capLt
  coherent := Coherent.init _ _
  hasRead := rfl
  hasWrite := rfl
  readFaults := readFaults
  writeFaults := writeFaults
  allocFaults := rfl
  few := few.trans_eq (if_pos (by omega)).symm

/-- A page cache refines a flat array of bytes, in every run that starts with a new cache. -/
theorem pagecache_refines_flatArray (backing : BackingStore) (capacity readahead : Nat)
    (cs : List Call) (capacityPos : 1 ≤ capacity) (capacityLt : capacity < 2 ^ 32)
    (few : readahead < capacity) (readFaults : backing.readFaults = [])
    (writeFaults : backing.writeFaults = []) (inRange : ∀ c ∈ cs, c.InRange) :
    ∃ answers pc array, runCalls (Pagecache.init backing true true capacity readahead []) cs =
        .ok (answers, pc) ∧
      FlatRun (flatArray backing.contents) cs answers array ∧
      (∀ pg ∈ pc.sync.2.lru,
        (pc.sync.2.page pg).data = pc.sync.2.backing.contents (pc.sync.2.page pg).pgno) ∧
      flatArray pc.destroy.backing.contents = array ∧
      (pc.resident = pc.lru.length ∧ pc.pages.count = pc.lru.length ∧ pc.lru.length ≤ capacity) ∧
      (pc.destroy.resident = pc.destroy.lru.length ∧
        pc.destroy.pages.count = pc.destroy.lru.length) := by
  have start := Refines.init capacityPos capacityLt few readFaults writeFaults
  obtain ⟨answers, pc, ps, returned, hr, setup, flat⟩ := start.runCalls inRange
  obtain ⟨synced, clean⟩ := hr.sync
  obtain ⟨stored, emptied⟩ := hr.destroy
  have sameCapacity : pc.capacity = capacity := setup.capacity.trans (if_pos (by omega))
  refine ⟨answers, pc, flatArray ps, returned, flat, ?_, congrArg flatArray stored, ?_, ?_⟩
  · intro pg hl
    have cached := synced.coherent.cached pg hl
    have same := synced.coherent.clean pg hl (clean pg hl)
    exact cached.trans same.symm
  · exact ⟨hr.linked.resident_eq, hr.linked.indexes.count, sameCapacity ▸ hr.linked.bounded⟩
  rw [emptied]
  exact ⟨rfl, rfl⟩

theorem pagecache_refines_flatArray_border :
    ∃ answers pc array, runCalls (Pagecache.init (BackingStore.zeros []) true true 1 0 [])
          [.write 4095 [1, 2], .sync, .read 4095 2, .evict 1] = .ok (answers, pc) ∧
      FlatRun (flatArray fun _ => zeroBlock)
        [.write 4095 [1, 2], .sync, .read 4095 2, .evict 1] answers array ∧
      flatArray pc.destroy.backing.contents = array := by
  obtain ⟨answers, pc, array, returned, flat, -, stored, -⟩ :=
    pagecache_refines_flatArray (BackingStore.zeros []) 1 0
      [.write 4095 [1, 2], .sync, .read 4095 2, .evict 1] (by decide) (by decide) (by decide) rfl
      rfl (by simp [Call.InRange])
  exact ⟨answers, pc, array, returned, flat, stored⟩

end Pagecache

end HnxKernel
