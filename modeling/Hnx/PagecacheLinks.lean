import Hnx.Pagecache

/-!
# The list and the tree of the page cache

Everything that a call does is a sequence of small steps, and the list, the tree and the count
stay together in every step.
-/

namespace HnxKernel

open Function List

def CachedPage.block (page : CachedPage) : CachedBlock := ⟨page.pgno, page.data, page.dirty⟩

namespace Pagecache

open Relation

variable {pc post : Pagecache} {pg pgno n : Nat} {data : DiskBlock}

structure Linked (pc : Pagecache) : Prop extends
    Nodes pc.pages pc.lru pc.allocated pc.next fun pg => (pc.page pg).pgno where
  resident_eq : pc.resident = pc.lru.length
  bounded : pc.lru.length ≤ pc.capacity
  capacity_pos : 1 ≤ pc.capacity
  capacity_lt : pc.capacity < 2 ^ 32

structure SameSetup (pc post : Pagecache) : Prop where
  capacity : post.capacity = pc.capacity
  readahead : post.readahead = pc.readahead
  hasRead : post.hasRead = pc.hasRead
  hasWrite : post.hasWrite = pc.hasWrite

lemma SameSetup.refl (pc : Pagecache) : pc.SameSetup pc := ⟨rfl, rfl, rfl, rfl⟩

variable {third : Pagecache} {k off readahead : Nat} {res : Int} {allocFaults : List Bool}

lemma SameSetup.trans (fst : pc.SameSetup post) (snd : post.SameSetup third) : pc.SameSetup third :=
  ⟨snd.capacity.trans fst.capacity, snd.readahead.trans fst.readahead,
    snd.hasRead.trans fst.hasRead, snd.hasWrite.trans fst.hasWrite⟩

inductive Quiet (pc : Pagecache) : Pagecache → Prop
  | touch {pg : Nat} (listed : pg ∈ pc.lru) : Quiet pc (pc.touch pg)
  | drop {pg : Nat} (listed : pg ∈ pc.lru) : Quiet pc (pc.dropPage pg).countDown
  | allocate : Quiet pc pc.allocate.2
  | link {pgno : Nat} (absent : pc.pages.lookup pgno = none)
      (room : pc.lru.length < pc.capacity) : Quiet pc (pc.linkNew pgno).2

lemma freePage_eq (pc : Pagecache) (pg : Nat) : pc.freePage pg = { pc with
      allocated := update pc.allocated pg false
      backing := (pc.freePage pg).backing
      unsaved := (pc.freePage pg).unsaved } := by
  rw [freePage]
  split
  · rfl
  · rfl

lemma dropPage_eq (pc : Pagecache) (pg : Nat) : pc.dropPage pg = { pc with
      lru := pc.lru.erase pg
      pages := pc.pages.remove (pc.page pg).pgno
      allocated := update pc.allocated pg false
      backing := (pc.dropPage pg).backing
      unsaved := (pc.dropPage pg).unsaved } := by
  rw [dropPage, freePage_eq]

lemma fill_eq (pc : Pagecache) (pgno : Nat) :
    (pc.fill pgno).2 = { pc with backing := (pc.fill pgno).2.backing } := by
  rw [fill]
  split
  · rfl
  · rfl

lemma Quiet.sameSetup (quiet : Quiet pc post) : pc.SameSetup post := by
  cases quiet with
  | touch => exact ⟨rfl, rfl, rfl, rfl⟩
  | drop =>
    rw [countDown, dropPage_eq]
    exact ⟨rfl, rfl, rfl, rfl⟩
  | allocate => exact ⟨rfl, rfl, rfl, rfl⟩
  | link =>
    rw [linkNew, fill_eq]
    split
    · exact ⟨rfl, rfl, rfl, rfl⟩
    · exact ⟨rfl, rfl, rfl, rfl⟩

namespace Linked

variable (h : pc.Linked)
include h

lemma touch (mem : pg ∈ pc.lru) : (pc.touch pg).Linked := by
  have len : (pc.touch pg).lru.length = pc.lru.length := (perm_cons_erase mem).symm.length_eq
  exact
    { toNodes := h.toNodes.touch mem
      resident_eq := h.resident_eq.trans len.symm
      bounded := len.trans_le h.bounded
      capacity_pos := h.capacity_pos
      capacity_lt := h.capacity_lt }

lemma drop (mem : pg ∈ pc.lru) : (pc.dropPage pg).countDown.Linked := by
  have shorter : (pc.lru.erase pg).length + 1 = pc.lru.length := length_erase_add_one mem
  have residentEq := h.resident_eq
  have bounded := h.bounded
  have capLt := h.capacity_lt
  rw [countDown, dropPage_eq]
  constructor
  case toNodes => exact h.toNodes.remove mem
  case resident_eq =>
    simp only [u32]
    omega
  case bounded =>
    dsimp only
    omega
  case capacity_pos => exact h.capacity_pos
  case capacity_lt => exact h.capacity_lt

lemma allocate : pc.allocate.2.Linked :=
  { h with }

lemma link (ha : pc.pages.lookup pgno = none) (room : pc.lru.length < pc.capacity) :
    (pc.linkNew pgno).2.Linked := by
  have fresh := h.fresh
  have residentEq := h.resident_eq
  have capLt := h.capacity_lt
  have relabelled := h.toNodes.congr fun pg mem => show
      (update pc.page pc.next ⟨pgno, (pc.fill pgno).1, false⟩ pg).pgno = _ by
    rw [update_of_ne (ne_of_mem_of_not_mem mem fresh)]
  rw [linkNew, fill_eq]
  split
  case isTrue ok =>
    have newKey : (update pc.page pc.next ⟨pgno, (pc.fill pgno).1, false⟩ pc.next).pgno = pgno := by
      rw [update_self]
    constructor
    case toNodes =>
      have added := relabelled.add pc.allocFaults (by rw [newKey]; exact ha)
        (by rw [newKey]; exact ok)
      rwa [newKey] at added
    case resident_eq =>
      dsimp only
      rw [u32_of_lt (by omega), residentEq, length_cons]
    case bounded => exact room
    case capacity_pos => exact h.capacity_pos
    case capacity_lt => exact h.capacity_lt
  case isFalse failed =>
    constructor
    case toNodes => exact relabelled.insert_failed (by simpa using failed)
    case resident_eq => exact h.resident_eq
    case bounded => exact h.bounded
    case capacity_pos => exact h.capacity_pos
    case capacity_lt => exact h.capacity_lt

omit h in
lemma init {backing : BackingStore} {hasRead hasWrite : Bool} {cap readahead : Nat}
    {allocFaults : List Bool} (capLt : cap < 2 ^ 32) :
    (init backing hasRead hasWrite cap readahead allocFaults).Linked := by
  have eq : (Pagecache.init backing hasRead hasWrite cap readahead allocFaults).capacity =
    if cap ≠ 0 then cap else 16 := rfl
  constructor
  case toNodes => exact Nodes.init _ _
  case resident_eq => rfl
  case bounded => exact Nat.zero_le _
  case capacity_pos =>
    rw [eq]
    split <;> omega
  case capacity_lt =>
    rw [eq]
    split <;> omega

lemma quiet (step : Quiet pc post) : post.Linked := by
  cases step with
  | touch mem => exact h.touch mem
  | drop mem => exact h.drop mem
  | allocate => exact h.allocate
  | link ha room => exact h.link ha room

lemma quiets (steps : ReflTransGen Quiet pc post) : post.Linked := by
  induction steps with
  | refl => exact h
  | tail _ step ih => exact ih.quiet step

end Linked

lemma get_cases {res : Option Nat} (ret : pc.get pgno = .ok (res, post)) :
    (∃ pg, pc.pages.lookup pgno = some pg ∧ res = some pg ∧ post = pc.touch pg) ∨
      (pc.pages.lookup pgno = none ∧ (pc.allocAndFill pgno).1 = res ∧
        readAheadLoop pgno (2 ^ 32) 1 (pc.allocAndFill pgno).2 = .ok post) := by
  rw [get] at ret
  cases hf : pc.pages.lookup pgno with
  | some pg =>
    rw [hf] at ret
    cases ret
    exact .inl ⟨pg, rfl, rfl, rfl⟩
  | none =>
    rw [hf] at ret
    dsimp only at ret
    split at ret
    · cases ret
    case h_2 ended =>
      cases ret
      exact .inr ⟨rfl, rfl, ended⟩

lemma lookup_dropPage (ha : pc.pages.lookup n = none) :
    (pc.dropPage pg).countDown.pages.lookup n = none := by
  rw [countDown, dropPage_eq]
  rw [RadixTree.lookup_remove.1]
  by_cases eq : n = (pc.page pg).pgno
  · rw [eq, update_self]
  · rw [update_of_ne eq, ha]

namespace Linked

variable (h : pc.Linked)
include h

lemma makeRoom_eq :
    makeRoom pc.lru.length pc = if pc.lru.length = pc.capacity then pc.evictLru else pc := by
  have residentEq := h.resident_eq
  have bounded := h.bounded
  have capPos := h.capacity_pos
  cases len : pc.lru.length with
  | zero => rw [makeRoom, if_neg (by omega)]
  | succ cnt =>
    rw [makeRoom]
    by_cases full : cnt + 1 = pc.capacity
    · rw [if_pos full, if_pos (by omega)]
      have some : pc.lru ≠ [] := by
        intro none
        rw [none] at len
        cases len
      have evicted : pc.evictLru = (pc.dropPage (pc.lru.getLast some)).countDown := by
        rw [evictLru, List.getLast?_eq_getLast_of_ne_nil some]
      have post := h.drop (getLast_mem some)
      have shorter : (pc.lru.erase (pc.lru.getLast some)).length + 1 = pc.lru.length :=
        length_erase_add_one (getLast_mem some)
      have fewer := post.resident_eq
      rw [evicted]
      cases cnt with
      | zero => rfl
      | succ =>
        rw [makeRoom, if_neg]
        rw [fewer, countDown, dropPage_eq]
        dsimp only
        omega
    · rw [if_neg full, if_neg (by omega)]

lemma quiets_makeRoom : ReflTransGen Quiet pc (makeRoom pc.lru.length pc) := by
  rw [h.makeRoom_eq]
  split
  · rw [evictLru]
    cases last : pc.lru.getLast? with
    | none => exact .refl
    | some => exact .single (Quiet.drop (mem_of_getLast? last))
  · exact .refl

lemma length_makeRoom :
    (makeRoom pc.lru.length pc).lru.length < (makeRoom pc.lru.length pc).capacity := by
  have bounded := h.bounded
  have capPos := h.capacity_pos
  rw [h.makeRoom_eq]
  split
  case isTrue full =>
    have some : pc.lru ≠ [] := by
      intro none
      rw [none, length_nil] at full
      omega
    have shorter : (pc.lru.erase (pc.lru.getLast some)).length + 1 = pc.lru.length :=
      length_erase_add_one (getLast_mem some)
    rw [evictLru, List.getLast?_eq_getLast_of_ne_nil some]
    dsimp only
    rw [countDown, dropPage_eq]
    dsimp only
    omega
  case isFalse => omega

lemma lookup_makeRoom (ha : pc.pages.lookup n = none) :
    (makeRoom pc.lru.length pc).pages.lookup n = none := by
  rw [h.makeRoom_eq]
  split
  · rw [evictLru]
    cases pc.lru.getLast? with
    | none => exact ha
    | some => exact lookup_dropPage ha
  · exact ha

lemma quiets_roomMade (ha : pc.pages.lookup pgno = none) :
    ReflTransGen Quiet (makeRoom pc.lru.length pc) (pc.allocAndFill pgno).2 := by
  have some := h.length_makeRoom
  have missing := h.lookup_makeRoom ha
  have header : ReflTransGen Quiet _ (makeRoom pc.lru.length pc).allocate.2 :=
    ReflTransGen.single Quiet.allocate
  rw [allocAndFill]
  dsimp only
  split
  · have buf := header.tail Quiet.allocate
    split
    · exact buf.tail (Quiet.link missing some)
    · exact buf
  · exact header

lemma quiets_allocAndFill (ha : pc.pages.lookup pgno = none) :
    ReflTransGen Quiet pc (pc.allocAndFill pgno).2 :=
  h.quiets_makeRoom.trans (h.quiets_roomMade ha)

lemma quiets_readAhead : ReflTransGen Quiet pc (pc.readAhead n) := by
  rw [readAhead]
  split
  case isTrue ha => exact h.quiets_allocAndFill (Option.isNone_iff_eq_none.mp ha)
  case isFalse => exact .refl

lemma quiets_readAheadLoop {k i : Nat}
    (ended : readAheadLoop pgno k i pc = .ok post) : ReflTransGen Quiet pc post := by
  induction k generalizing pc i with
  | zero => cases ended
  | succ k ih =>
    rw [readAheadLoop] at ended
    split at ended
    · have round : ReflTransGen Quiet pc (pc.readAhead (u64 (pgno + i))) := h.quiets_readAhead
      exact round.trans (ih (h.quiets round) ended)
    obtain rfl := Except.ok.inj ended
    exact .refl

lemma quiets_get {res : Option Nat} (ret : pc.get pgno = .ok (res, post)) :
    ReflTransGen Quiet pc post := by
  rcases get_cases ret with ⟨pg, hf, -, rfl⟩ | ⟨ha, -, ended⟩
  · exact .single (Quiet.touch ((h.indexes.found pgno pg).mp hf).1)
  have filled := h.quiets_allocAndFill ha
  exact filled.trans ((h.quiets filled).quiets_readAheadLoop ended)

end Linked

lemma get_error {stop : CacheStop} (stopped : pc.get pgno = .error stop) : stop = .hangs := by
  have loop : ∀ {k i : Nat} {pc : Pagecache},
    readAheadLoop pgno k i pc = .error stop → stop = .hangs := by
    intro k
    induction k with
    | zero => exact fun stopped => (Except.error.inj stopped).symm
    | succ k ih =>
      intro i pc stopped
      rw [readAheadLoop] at stopped
      split at stopped
      · exact ih stopped
      · cases stopped
  rw [get] at stopped
  split at stopped
  · cases stopped
  dsimp only at stopped
  split at stopped
  case h_1 ended =>
    cases stopped
    exact loop ended
  case h_2 => cases stopped

lemma Quiet.page_eq (quiet : Quiet pc post) (older : pg < pc.next) :
    post.page pg = pc.page pg ∧ pg < post.next := by
  cases quiet with
  | touch => exact ⟨rfl, older⟩
  | drop =>
    rw [countDown, dropPage_eq]
    exact ⟨rfl, older⟩
  | allocate => exact ⟨rfl, older⟩
  | link =>
    rw [linkNew, fill_eq]
    split
    · exact ⟨update_of_ne older.ne .., Nat.lt_succ_of_lt older⟩
    · exact ⟨update_of_ne older.ne .., Nat.lt_succ_of_lt older⟩

lemma page_eq_of_quiets (steps : ReflTransGen Quiet pc post) (older : pg < pc.next) :
    post.page pg = pc.page pg ∧ pg < post.next := by
  induction steps with
  | refl => exact ⟨rfl, older⟩
  | tail _ step ih =>
    obtain ⟨eq, stillOlder⟩ := ih
    obtain ⟨next, last⟩ := step.page_eq stillOlder
    exact ⟨next.trans eq, last⟩

lemma sameSetup_of_quiets (steps : ReflTransGen Quiet pc post) : pc.SameSetup post := by
  induction steps with
  | refl => exact SameSetup.refl pc
  | tail _ step ih => exact ih.trans step.sameSetup

lemma Quiet.gone (quiet : Quiet pc post) (older : pg < pc.next) (gone : pg ∉ pc.lru) :
    pg ∉ post.lru := by
  cases quiet with
  | touch hl =>
    intro mem
    rcases mem_cons.mp mem with rfl | old
    · exact gone hl
    · exact gone (mem_of_mem_erase old)
  | drop =>
    rw [countDown, dropPage_eq]
    exact fun mem => gone (mem_of_mem_erase mem)
  | allocate => exact gone
  | link =>
    rw [linkNew, fill_eq]
    split
    · intro mem
      rcases mem_cons.mp mem with rfl | old
      · exact lt_irrefl _ older
      · exact gone old
    · exact gone

lemma gone_of_quiets (steps : ReflTransGen Quiet pc post) (older : pg < pc.next)
    (gone : pg ∉ pc.lru) : pg ∉ post.lru := by
  induction steps with
  | refl => exact gone
  | tail pre step ih => exact step.gone (page_eq_of_quiets pre older).2 ih
lemma allocate_of_nil (faults : pc.allocFaults = []) : pc.allocate = (true, pc) := by
  cases pc
  obtain rfl := faults
  rfl

lemma linkNew_of_nil (faults : pc.allocFaults = []) (keyLe : pgno ≤ radixMaxKey) :
    (pc.linkNew pgno).1 = some pc.next := by
  have ok : (pc.pages.insert pgno pc.next pc.allocFaults).ok = true := by
    rw [faults]
    exact (RadixTree.insert_of_nil keyLe).1
  rw [linkNew, fill_eq]
  rw [if_pos ok]

lemma Quiet.faults_nil (quiet : Quiet pc post) (faults : pc.allocFaults = []) :
    post.allocFaults = [] := by
  cases quiet with
  | touch => exact faults
  | drop =>
    rw [countDown, dropPage_eq]
    exact faults
  | allocate => rw [allocate_of_nil faults, faults]
  | @link pgno =>
    have left : (pc.pages.insert pgno pc.next pc.allocFaults).faults = [] := by
      rw [faults]
      rcases le_or_gt pgno radixMaxKey with keyLe | large
      · exact (RadixTree.insert_of_nil keyLe).2
      · rw [RadixTree.insert_of_gt large]
    rw [linkNew, fill_eq]
    split
    · exact left
    · exact left

lemma faults_nil_of_quiets (steps : ReflTransGen Quiet pc post) (faults : pc.allocFaults = []) :
    post.allocFaults = [] := by
  induction steps with
  | refl => exact faults
  | tail _ step ih => exact step.faults_nil ih

lemma Linked.allocAndFill_of_nil (h : pc.Linked) (faults : pc.allocFaults = []) :
    pc.allocAndFill pgno = (makeRoom pc.lru.length pc).linkNew pgno := by
  have left := faults_nil_of_quiets h.quiets_makeRoom faults
  rw [allocAndFill, allocate_of_nil left]
  rw [if_pos rfl, allocate_of_nil left]
  exact if_pos rfl

lemma linkNew_some (h : (pc.linkNew pgno).1 = some pg) :
    pg = pc.next ∧ (pc.linkNew pgno).2.lru = pg :: pc.lru ∧
      (pc.linkNew pgno).2.page pg = ⟨pgno, (pc.fill pgno).1, false⟩ ∧
      (pc.linkNew pgno).2.next = pg + 1 := by
  rw [linkNew, fill_eq] at h ⊢
  split at h
  case isTrue ok =>
    cases h
    rw [if_pos ok]
    exact ⟨rfl, rfl, update_self .., rfl⟩
  case isFalse => cases h

lemma allocAndFill_some (filled : (pc.allocAndFill pgno).1 = some pg) :
    (pc.allocAndFill pgno).2.lru = pg :: (makeRoom pc.lru.length pc).lru ∧
      ((pc.allocAndFill pgno).2.page pg).pgno = pgno ∧ pg < (pc.allocAndFill pgno).2.next := by
  rw [allocAndFill] at filled ⊢
  dsimp only at filled ⊢
  split at filled
  case isTrue header =>
    rw [if_pos header]
    split at filled
    case isTrue buf =>
      rw [if_pos buf]
      obtain ⟨rfl, lru, p, next⟩ := linkNew_some filled
      exact ⟨lru, by rw [p], next ▸ Nat.lt_succ_self _⟩
    case isFalse => cases filled
  case isFalse => cases filled

lemma Linked.pgno_of_get (h : pc.Linked)
    (ret : pc.get pgno = .ok (some pg, post)) : (post.page pg).pgno = pgno := by
  rcases get_cases ret with ⟨o, hf, eq, rfl⟩ | ⟨ha, filled, ended⟩
  · obtain rfl := Option.some.inj eq
    exact ((h.indexes.found pgno pg).mp hf).2
  obtain ⟨-, numbered, older⟩ := allocAndFill_some filled
  have linkedMiss := h.quiets (h.quiets_allocAndFill ha)
  rw [(page_eq_of_quiets (linkedMiss.quiets_readAheadLoop ended) older).1, numbered]

lemma Linked.lookup_of_get (h : pc.Linked) (ret : pc.get pgno = .ok (some pg, post))
    (mem : pg ∈ post.lru) : post.pages.lookup pgno = some pg :=
  ((h.quiets (h.quiets_get ret)).indexes.found pgno pg).mpr ⟨mem, h.pgno_of_get ret⟩

inductive Step (pc : Pagecache) : Pagecache → Prop
  | quiet {post : Pagecache} (quiet : Quiet pc post) : Step pc post
  | change {pg : Nat} (data : DiskBlock) (listed : pg ∈ pc.lru) :
      Step pc ((pc.changeData pg data).setDirty pg)
  | setDirty {pg : Nat} (listed : pg ∈ pc.lru) : Step pc (pc.setDirty pg)
  | syncPage {pg : Nat} (listed : pg ∈ pc.lru) : Step pc (pc.syncPage pg)

/-- The list, the tree and the count do not depend on the contents of the pages. -/
structure SameLinks (pc post : Pagecache) : Prop extends SameSetup pc post where
  pages : post.pages = pc.pages
  lru : post.lru = pc.lru
  numbers : ∀ pg, (post.page pg).pgno = (pc.page pg).pgno
  allocated : post.allocated = pc.allocated
  next : post.next = pc.next
  resident : post.resident = pc.resident

lemma Linked.of_sameLinks (h : pc.Linked) (eq : pc.SameLinks post) : post.Linked where
  toNodes := by
    rw [eq.pages, eq.lru, eq.allocated, eq.next]
    exact h.toNodes.congr fun pg _ => eq.numbers pg
  resident_eq := by rw [eq.resident, eq.lru, h.resident_eq]
  bounded := by rw [eq.lru, eq.capacity]; exact h.bounded
  capacity_pos := by rw [eq.capacity]; exact h.capacity_pos
  capacity_lt := by rw [eq.capacity]; exact h.capacity_lt

lemma sameLinks_changeData : pc.SameLinks (pc.changeData pg data) where
  toSameSetup := ⟨rfl, rfl, rfl, rfl⟩
  pages := rfl
  lru := rfl
  numbers other := by
    rw [changeData]
    by_cases eq : other = pg
    · simp [eq]
    · simp [eq]
  allocated := rfl
  next := rfl
  resident := rfl

lemma sameLinks_setDirty : pc.SameLinks (pc.setDirty pg) where
  toSameSetup := ⟨rfl, rfl, rfl, rfl⟩
  pages := rfl
  lru := rfl
  numbers other := by
    rw [setDirty]
    by_cases eq : other = pg
    · simp [eq]
    · simp [eq]
  allocated := rfl
  next := rfl
  resident := rfl

lemma sameLinks_syncPage : pc.SameLinks (pc.syncPage pg) := by
  rw [syncPage]
  split
  · constructor
    case toSameSetup => exact ⟨rfl, rfl, rfl, rfl⟩
    case numbers =>
      intro o
      dsimp only
      by_cases eq : o = pg
      · rw [eq, update_self]
        rfl
      rw [update_of_ne eq]
      rfl
    all_goals rfl
  · exact ⟨SameSetup.refl pc, rfl, rfl, fun _ => rfl, rfl, rfl, rfl⟩

lemma SameLinks.trans (fst : pc.SameLinks post)
    (snd : post.SameLinks third) : pc.SameLinks third where
  toSameSetup := fst.toSameSetup.trans snd.toSameSetup
  pages := snd.pages.trans fst.pages
  lru := snd.lru.trans fst.lru
  numbers pg := (snd.numbers pg).trans (fst.numbers pg)
  allocated := snd.allocated.trans fst.allocated
  next := snd.next.trans fst.next
  resident := snd.resident.trans fst.resident

lemma Step.sameSetup (step : Step pc post) : pc.SameSetup post := by
  cases step with
  | quiet quiet => exact quiet.sameSetup
  | change => exact (sameLinks_changeData.trans sameLinks_setDirty).toSameSetup
  | setDirty => exact sameLinks_setDirty.toSameSetup
  | syncPage => exact sameLinks_syncPage.toSameSetup

lemma sameSetup_of_steps (steps : ReflTransGen Step pc post) : pc.SameSetup post := by
  induction steps with
  | refl => exact SameSetup.refl pc
  | tail _ step ih => exact ih.trans step.sameSetup

lemma Linked.step (h : pc.Linked) (step : Step pc post) : post.Linked := by
  cases step with
  | quiet quiet => exact h.quiet quiet
  | change => exact h.of_sameLinks (sameLinks_changeData.trans sameLinks_setDirty)
  | setDirty => exact h.of_sameLinks sameLinks_setDirty
  | syncPage => exact h.of_sameLinks sameLinks_syncPage

lemma Linked.steps (h : pc.Linked) (steps : ReflTransGen Step pc post) : post.Linked := by
  induction steps with
  | refl => exact h
  | tail _ step ih => exact ih.step step

lemma steps_of_quiets (quiets : ReflTransGen Quiet pc post) : ReflTransGen Step pc post := by
  induction quiets with
  | refl => exact .refl
  | tail _ quiet ih => exact ih.tail (Step.quiet quiet)

def blocks (pc : Pagecache) : Nat → CachedBlock := fun pg => (pc.page pg).block

def view (pc : Pagecache) : CacheView := ⟨pc.blocks, pc.backing, pc.unsaved⟩

lemma blocks_of_update {p : CachedPage} (changed : post.page = update pc.page pg p) :
    post.blocks = update pc.blocks pg p.block := by
  have updated := Function.comp_update CachedPage.block pc.page pg p
  rwa [← changed] at updated

lemma blocks_change : ((pc.changeData pg data).setDirty pg).blocks =
    update pc.blocks pg ⟨(pc.page pg).pgno, data, true⟩ := by
  have p : ((pc.changeData pg data).setDirty pg).page =
    update pc.page pg ⟨(pc.page pg).pgno, data, true⟩ := by
    rw [setDirty, changeData]
    simp
  exact blocks_of_update p

lemma view_syncPage (writes : pc.hasWrite = true) : (pc.syncPage pg).view = pc.view.flush pg := by
  rw [syncPage, CacheView.flush, writes, Bool.and_true]
  by_cases dirty : (pc.page pg).dirty = true
  · rw [if_pos dirty, if_pos (show (pc.view.block pg).dirty = true from dirty), view,
      blocks_of_update rfl]
    rfl
  · rw [if_neg dirty, if_neg (show ¬(pc.view.block pg).dirty = true from dirty)]

lemma view_dropPage (writes : pc.hasWrite = true) :
    (pc.dropPage pg).view = { pc.view.flush pg with block := pc.blocks } := by
  rw [dropPage, freePage, CacheView.flush]
  rw [writes, Bool.and_true]
  by_cases dirty : (pc.page pg).dirty = true
  · rw [if_pos dirty, if_pos (show (pc.view.block pg).dirty = true from dirty)]
    rfl
  rw [if_neg dirty, if_neg (show ¬(pc.view.block pg).dirty = true from dirty)]
  rfl

lemma readLoop_cases {len : Nat} {out bs : List UInt8}
    (ret : readLoop (k + 1) pc off len out = .ok (res, bs, post)) :
    (len = 0 ∧ res = 0 ∧ bs = out ∧ post = pc) ∨
      (pc.get (off / 4096) = .ok (none, post) ∧ res = -1 ∧ bs = out) ∨
      ∃ pg next, 0 < len ∧ pc.get (off / 4096) = .ok (some pg, next) ∧
        next.allocated pg = true ∧
        readLoop k next (u64 (off + chunkLength off len)) (len - chunkLength off len)
          (out ++ chunkOf (next.page pg).data (off % 4096) (chunkLength off len)) =
          .ok (res, bs, post) := by
  rw [readLoop] at ret
  split at ret
  case isTrue more =>
    cases got : pc.get (off / 4096) with
    | error =>
      rw [got] at ret
      cases ret
    | ok pair =>
      obtain ⟨p, next⟩ := pair
      rw [got] at ret
      cases p with
      | none =>
        obtain ⟨rfl, rfl, rfl⟩ := by simpa using ret
        exact .inr (.inl ⟨rfl, rfl, rfl⟩)
      | some pg =>
        dsimp only at ret
        split at ret
        case isTrue pres => exact .inr (.inr ⟨pg, next, more, rfl, pres, ret⟩)
        case isFalse => cases ret
  case isFalse done =>
    obtain ⟨rfl, rfl, rfl⟩ := by simpa using ret
    exact .inl ⟨by omega, rfl, rfl, rfl⟩

lemma writeLoop_cases {copied total : Nat} {input : List UInt8}
    (ret : writeLoop (k + 1) pc off input copied = .ok (res, total, post)) :
    (input = [] ∧ res = 0 ∧ total = copied ∧ post = pc) ∨
      (pc.get (off / 4096) = .ok (none, post) ∧ res = -1 ∧ total = copied) ∨
      ∃ pg next, 0 < input.length ∧ pc.get (off / 4096) = .ok (some pg, next) ∧
        next.allocated pg = true ∧
        writeLoop k
          ((next.changeData pg
            (ByteMemory.blit (next.page pg).data (off % 4096) (chunkLength off input.length)
              (ByteMemory.ofBytes input))).setDirty pg)
          (u64 (off + chunkLength off input.length))
          (input.drop (chunkLength off input.length))
          (copied + chunkLength off input.length) = .ok (res, total, post) := by
  rw [writeLoop] at ret
  split at ret
  case isTrue more =>
    cases got : pc.get (off / 4096) with
    | error =>
      rw [got] at ret
      cases ret
    | ok pair =>
      obtain ⟨p, next⟩ := pair
      rw [got] at ret
      cases p with
      | none =>
        obtain ⟨rfl, rfl, rfl⟩ := by simpa using ret
        exact .inr (.inl ⟨rfl, rfl, rfl⟩)
      | some pg =>
        dsimp only at ret
        split at ret
        case isTrue pres => exact .inr (.inr ⟨pg, next, more, rfl, pres, ret⟩)
        case isFalse => cases ret
  case isFalse done =>
    obtain ⟨rfl, rfl, rfl⟩ := by simpa using ret
    exact .inl ⟨length_eq_zero_iff.mp (by omega), rfl, rfl, rfl⟩

namespace Linked

variable (h : pc.Linked)
include h

lemma quiets_readLoop {k off len : Nat} {out bs : List UInt8} {res : Int}
    (ret : readLoop k pc off len out = .ok (res, bs, post)) : ReflTransGen Quiet pc post := by
  induction k generalizing pc off len out with
  | zero =>
    obtain ⟨-, -, rfl⟩ := by simpa [readLoop] using ret
    exact .refl
  | succ k ih =>
    rcases readLoop_cases ret with ⟨-, -, -, rfl⟩ | ⟨got, -, -⟩ | ⟨pg, next, -, got, -, r⟩
    · exact .refl
    · exact h.quiets_get got
    have quiets := h.quiets_get got
    exact quiets.trans (ih (h.quiets quiets) r)

lemma steps_writeLoop {k off copied total : Nat} {input : List UInt8} {res : Int}
    (ret : writeLoop k pc off input copied = .ok (res, total, post)) :
      ReflTransGen Step pc post := by
  induction k generalizing pc off input copied with
  | zero =>
    obtain ⟨-, -, rfl⟩ := by simpa [writeLoop] using ret
    exact .refl
  | succ k ih =>
    rcases writeLoop_cases ret with
      ⟨-, -, -, rfl⟩ | ⟨got, -, -⟩ | ⟨pg, next, -, got, pres, r⟩
    · exact .refl
    · exact steps_of_quiets (h.quiets_get got)
    have quiets := h.quiets_get got
    have linkedNext := h.quiets quiets
    have change := Step.change
      (ByteMemory.blit (next.page pg).data (off % 4096) (chunkLength off input.length)
        (ByteMemory.ofBytes input)) ((linkedNext.allocated pg).mp pres)
    exact ((steps_of_quiets quiets).tail change).trans (ih (linkedNext.step change) r)

lemma steps_modify (ret : pc.modify pgno data = .ok post) : ReflTransGen Step pc post := by
  rw [modify] at ret
  cases got : pc.get pgno with
  | error =>
    rw [got] at ret
    cases ret
  | ok pair =>
    obtain ⟨p, next⟩ := pair
    rw [got] at ret
    have quiets := h.quiets_get got
    cases p with
    | none =>
      cases ret
      exact steps_of_quiets quiets
    | some pg =>
      dsimp only at ret
      split at ret
      case isTrue pres =>
        cases ret
        have mem := ((h.quiets quiets).allocated pg).mp pres
        have found := h.lookup_of_get got mem
        rw [markDirty, sameLinks_changeData.pages, found]
        exact (steps_of_quiets quiets).tail (Step.change data mem)
      case isFalse => cases ret

omit h in
lemma steps_sync : ReflTransGen Step pc pc.sync.2 := by
  have ps : ∀ (hl : List Nat) {pc : Pagecache}, (∀ pg ∈ hl, pg ∈ pc.lru) →
    ReflTransGen Step pc (hl.foldl syncPage pc) := by
    intro hl
    induction hl with
    | nil => exact fun _ => ReflTransGen.refl
    | cons pg _ ih =>
      intro pc hi
      have step : Step pc (pc.syncPage pg) := Step.syncPage (hi pg mem_cons_self)
      refine .head step (ih ?_)
      intro o mem
      rw [sameLinks_syncPage.lru]
      exact hi o (mem_cons_of_mem pg mem)
  exact ps pc.lru fun _ mem => mem

lemma steps_markDirty : ReflTransGen Step pc (pc.markDirty pgno) := by
  rw [markDirty]
  cases hf : pc.pages.lookup pgno with
  | none => exact .refl
  | some pg => exact .single (Step.setDirty ((h.indexes.found pgno pg).mp hf).1)

lemma steps_evict : ReflTransGen Step pc (pc.evict pgno) := by
  rw [evict]
  cases hf : pc.pages.lookup pgno with
  | none => exact .refl
  | some pg => exact .single (Step.quiet (Quiet.drop ((h.indexes.found pgno pg).mp hf).1))

end Linked

inductive Reachable (capacity readahead : Nat) (allocFaults : List Bool) : Pagecache → Prop
  | init (backing : BackingStore) (hasRead hasWrite : Bool) :
      Reachable capacity readahead allocFaults
        (init backing hasRead hasWrite capacity readahead allocFaults)
  | get {pc post : Pagecache} {pgno : Nat} {result : Option Nat}
      (reached : Reachable capacity readahead allocFaults pc)
      (returned : pc.get pgno = .ok (result, post)) :
      Reachable capacity readahead allocFaults post
  | read {pc post : Pagecache} {offset len : Nat} {result : Int} {out : List UInt8}
      (reached : Reachable capacity readahead allocFaults pc)
      (returned : pc.read offset len = .ok (result, out, post)) :
      Reachable capacity readahead allocFaults post
  | write {pc post : Pagecache} {offset : Nat} {input : List UInt8} {result : Int} {copied : Nat}
      (reached : Reachable capacity readahead allocFaults pc)
      (returned : pc.write offset input = .ok (result, copied, post)) :
      Reachable capacity readahead allocFaults post
  | modify {pc post : Pagecache} {pgno : Nat} {data : DiskBlock}
      (reached : Reachable capacity readahead allocFaults pc)
      (returned : pc.modify pgno data = .ok post) : Reachable capacity readahead allocFaults post
  | markDirty {pc : Pagecache} (pgno : Nat)
      (reached : Reachable capacity readahead allocFaults pc) :
      Reachable capacity readahead allocFaults (pc.markDirty pgno)
  | sync {pc : Pagecache} (reached : Reachable capacity readahead allocFaults pc) :
      Reachable capacity readahead allocFaults pc.sync.2
  | evict {pc : Pagecache} (pgno : Nat) (reached : Reachable capacity readahead allocFaults pc) :
      Reachable capacity readahead allocFaults (pc.evict pgno)

lemma Reachable.induct {cap : Nat} {motive : Pagecache → Prop}
    (capLt : cap < 2 ^ 32) (start : ∀ backing hasRead hasWrite,
      motive (Pagecache.init backing hasRead hasWrite cap readahead allocFaults))
    (steps : ∀ {pc post : Pagecache}, pc.Linked → ReflTransGen Step pc post → motive pc →
      motive post) (hr : Reachable cap readahead allocFaults pc) : pc.Linked ∧ motive pc := by
  have keep : ∀ {pc post : Pagecache}, ReflTransGen Step pc post → pc.Linked ∧ motive pc →
    post.Linked ∧ motive post :=
    fun ht held => ⟨held.1.steps ht, steps held.1 ht held.2⟩
  induction hr with
  | init backing hasRead hasWrite => exact ⟨Linked.init capLt, start backing hasRead hasWrite⟩
  | get _ ret ih => exact keep (steps_of_quiets (ih.1.quiets_get ret)) ih
  | read _ ret ih => exact keep (steps_of_quiets (ih.1.quiets_readLoop ret)) ih
  | write _ ret ih => exact keep (ih.1.steps_writeLoop ret) ih
  | modify _ ret ih => exact keep (ih.1.steps_modify ret) ih
  | markDirty _ _ ih => exact keep ih.1.steps_markDirty ih
  | sync _ ih => exact keep Linked.steps_sync ih
  | evict _ _ ih => exact keep ih.1.steps_evict ih

lemma Reachable.linked {cap : Nat} (capPos : 1 ≤ cap) (capLt : cap < 2 ^ 32)
    (hr : Reachable cap readahead allocFaults pc) :
    pc.Linked ∧ pc.capacity = cap ∧ pc.readahead = readahead := by
  refine hr.induct (motive := fun pc => pc.capacity = cap ∧ pc.readahead = readahead)
    capLt (fun _ _ _ => ⟨if_pos (by omega), rfl⟩) ?_
  rintro pc post - steps ⟨sameCapacity, sameRa⟩
  have setup := sameSetup_of_steps steps
  exact ⟨setup.capacity.trans sameCapacity, setup.readahead.trans sameRa⟩

end Pagecache

end HnxKernel
