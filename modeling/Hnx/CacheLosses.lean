import Hnx.Bcache
import Hnx.PagecacheLinks

/-!
# Changes that are not written back

Neither cache looks at the result of a write-back.
-/

namespace HnxKernel

open Function List CacheView BackingStore CachedBlock Bcache

lemma Kept.drop {lru : List Nat} {view changed : CacheView} {n num : Nat}
    (kept : Kept lru view num) (nodup : lru.Nodup)
    (ok : (view.flush n).store.refused num = false)
    (same : ∀ o ∈ lru.erase n, changed.block o = view.block o)
    (unsaved : changed.unsaved = (view.flush n).unsaved) : Kept (lru.erase n) changed num := by
  have clean : ((view.flush n).block n).dirty = false := by rw [block_flush, update_self]
  refine ((kept.flush ok).erase clean).mono (fun _ left => left) ?_ unsaved
  intro o left
  have ne := (nodup.mem_erase_iff.mp left).1
  rw [block_flush, update_of_ne ne, same o left]

namespace Pagecache

open Relation

variable {pc post : Pagecache} {pg num : Nat}

lemma view_resident {cnt : Nat} : view { pc with resident := cnt } = pc.view := rfl

lemma view_countDown : pc.countDown.view = pc.view := by rw [countDown, view_resident]

lemma lru_countDown : pc.countDown.lru = pc.lru := by rw [countDown]

lemma backing_countDown : pc.countDown.backing = pc.backing := by rw [countDown]

lemma Step.kept (step : Step pc post) (h : pc.Linked) (writes : pc.hasWrite = true)
    (ok : post.backing.refused num = false) (kept : Kept pc.lru pc.view num) :
    Kept post.lru post.view num := by
  cases step with
  | quiet quiet =>
    cases quiet with
    | touch mem =>
      have perm := perm_cons_erase mem
      exact kept.mono (fun o => perm.mem_iff.mp) (fun _ _ => rfl) rfl
    | @drop pg =>
      have view : (pc.dropPage pg).view = _ := view_dropPage writes
      have store : (pc.dropPage pg).backing = _ := congrArg store view
      have unsaved : (pc.dropPage pg).unsaved = _ := congrArg CacheView.unsaved view
      have blocks : (pc.dropPage pg).blocks = _ := congrArg block view
      have lru : (pc.dropPage pg).lru = pc.lru.erase pg := by rw [dropPage_eq]
      rw [backing_countDown, store] at ok
      rw [lru_countDown, view_countDown, lru]
      exact kept.drop h.indexes.distinct ok (fun o _ => congrFun blocks o) unsaved
    | allocate => exact kept
    | link =>
      have fresh := h.fresh
      rw [linkNew, fill_eq]
      split
      · refine kept.mono (fun o => mem_cons_of_mem _) (fun o mem => ?_) rfl
        exact congrArg CachedPage.block (update_of_ne (ne_of_mem_of_not_mem mem fresh) ..)
      refine kept.mono (fun _ mem => mem) (fun o mem => ?_) rfl
      exact congrArg CachedPage.block (update_of_ne (ne_of_mem_of_not_mem mem fresh) ..)
  | @change _ _ mem => exact kept.change mem blocks_change rfl
  | @setDirty pg =>
    have blocks := @blocks_of_update pc (pc.setDirty pg) pg { pc.page pg with dirty := true } rfl
    exact kept.setDirty blocks rfl
  | @syncPage pg =>
    have view : (pc.syncPage pg).view = _ := view_syncPage writes
    have store : (pc.syncPage pg).backing = _ := congrArg store view
    rw [sameLinks_syncPage.lru, view]
    rw [store] at ok
    exact kept.flush ok

lemma Step.accepted (step : Step pc post) (writes : pc.hasWrite = true)
    (acc : post.backing.refused num = false) : pc.backing.refused num = false := by
  cases step with
  | quiet quiet =>
    cases quiet with
    | touch => exact acc
    | @drop pg =>
      have store : (pc.dropPage pg).backing = _ := congrArg store (view_dropPage writes)
      rw [backing_countDown, store] at acc
      exact accepted_of_flush acc
    | allocate => exact acc
    | @link pgno =>
      have read : (pc.fill pgno).2.backing.refused = pc.backing.refused := by
        rw [fill]
        split
        · rfl
        · rfl
      rw [linkNew] at acc
      split at acc
      · rwa [← read]
      · rwa [← read]
  | change => exact acc
  | setDirty => exact acc
  | @syncPage pg =>
    have store : (pc.syncPage pg).backing = _ := congrArg store (view_syncPage writes)
    rw [store] at acc
    exact accepted_of_flush acc

lemma kept_of_steps (steps : ReflTransGen Step pc post) (h : pc.Linked)
    (writes : pc.hasWrite = true)
    (kept : pc.backing.refused num = false → Kept pc.lru pc.view num)
    (acc : post.backing.refused num = false) : Kept post.lru post.view num := by
  induction steps with
  | refl => exact kept acc
  | @tail _ _ ht step ih =>
    have writesBefore := (sameSetup_of_steps ht).hasWrite.trans writes
    exact step.kept (h.steps ht) writesBefore acc
      (ih (step.accepted writesBefore acc))

lemma view_foldl_syncPage {mem : List Nat} (writes : pc.hasWrite = true) :
    (mem.foldl syncPage pc).view = mem.foldl flush pc.view := by
  induction mem generalizing pc with
  | nil => rfl
  | cons pg _ ih =>
    have setup : pc.SameLinks (pc.syncPage pg) := sameLinks_syncPage
    rw [foldl_cons, foldl_cons, ih (setup.hasWrite.trans writes), view_syncPage writes]

lemma Linked.stored_sync (h : pc.Linked) (writes : pc.hasWrite = true)
    (kept : Kept pc.lru pc.view num) {data : DiskBlock} (latest : pc.unsaved num = some data)
    (ok : pc.sync.2.backing.refused num = false) : pc.sync.2.backing.contents num = data := by
  obtain ⟨pg, mem, cached⟩ := kept data latest
  have view : pc.sync.2.view = _ := view_foldl_syncPage writes
  have store : pc.sync.2.backing = _ := congrArg store view
  rw [store] at ok ⊢
  refine contents_foldl_flush h.indexes.distinct mem cached ?_ ok
  intro o oMem numbered
  have same : (pc.page pg).pgno = num := congrArg number cached
  exact h.indexes.eq_of_key oMem mem (numbered.trans same.symm)

end Pagecache

namespace Bcache

open Relation

variable {bc post : Bcache} {b num : Nat}

lemma Step.kept (step : Step bc post) (h : bc.Linked) (hasIo : bc.hasIo = true)
    (ok : post.backing.refused num = false) (kept : Kept bc.lru bc.view num) :
    Kept post.lru post.view num := by
  cases step with
  | @pin b mem =>
    have perm := perm_cons_erase mem
    have blocks : (bc.pin b).blocks = bc.blocks := by
      rw [blocks_of_update rfl]
      exact update_eq_self b bc.blocks
    exact kept.mono (fun other => perm.mem_iff.mp) (fun other _ => congrFun blocks other) rfl
  | @drop b =>
    have view : (bc.dropBuf b).view = _ := view_dropBuf hasIo
    have store : (bc.dropBuf b).backing = _ := congrArg store view
    have unsaved : (bc.dropBuf b).unsaved = _ := congrArg CacheView.unsaved view
    have blocks : (bc.dropBuf b).blocks = _ :=
      (congrArg block view).trans block_flush
    have lru : (bc.dropBuf b).lru = bc.lru.erase b := by rw [dropBuf_eq]
    rw [store] at ok
    rw [lru]
    refine kept.drop h.indexes.distinct ok (fun other left => ?_) unsaved
    have ne := (h.indexes.distinct.mem_erase_iff.mp left).1
    exact (congrFun blocks other).trans (update_of_ne ne ..)
  | allocate => exact kept
  | link =>
    have fresh := h.fresh
    have blocks : ∀ buf : Bbuf, ∀ other ∈ bc.lru,
      blocks { bc with buf := update bc.buf bc.next buf } other = bc.blocks other := by
      intro buf other mem
      rw [blocks_of_update rfl]
      exact update_of_ne (ne_of_mem_of_not_mem mem fresh) ..
    rw [linkNew, fill_eq]
    split
    · exact kept.mono (fun other => mem_cons_of_mem _) (blocks _) rfl
    · exact kept.mono (fun _ mem => mem) (blocks _) rfl
  | @change _ _ mem => exact kept.change mem (blocks_of_update buf_change) rfl
  | @markDirty b =>
    have blocks := @blocks_of_update bc (bc.markDirty b) b { bc.buf b with dirty := true } rfl
    exact kept.setDirty blocks rfl
  | @unpin b mem =>
    rw [Bcache.unpin]
    split
    · refine kept.mono (fun _ mem => mem) (fun other _ => congrFun ?_ other) rfl
      change blocks _ = bc.blocks
      rw [blocks_of_update rfl]
      exact update_eq_self b bc.blocks
    · exact kept
  | @flush b =>
    have view : (bc.flushBuf b).view = _ := view_flushBuf hasIo
    have store : (bc.flushBuf b).backing = _ := congrArg store view
    have lru : (bc.flushBuf b).lru = bc.lru := by rw [flushBuf_eq]
    rw [lru, view]
    rw [store] at ok
    exact kept.flush ok

lemma Step.accepted (step : Step bc post) (hasIo : bc.hasIo = true)
    (acc : post.backing.refused num = false) : bc.backing.refused num = false := by
  cases step with
  | pin => exact acc
  | @drop b =>
    have store : (bc.dropBuf b).backing = _ := congrArg store (view_dropBuf hasIo)
    rw [store] at acc
    exact accepted_of_flush acc
  | allocate => exact acc
  | @link blkno =>
    have read : (bc.fill blkno).2.backing.refused = bc.backing.refused := by
      rw [fill]
      split
      · rfl
      · rfl
    rw [linkNew] at acc
    split at acc
    · rwa [← read]
    · rwa [← read]
  | change => exact acc
  | markDirty => exact acc
  | unpin =>
    rw [Bcache.unpin] at acc
    split at acc
    · exact acc
    · exact acc
  | @flush b =>
    have store : (bc.flushBuf b).backing = _ := congrArg store (view_flushBuf hasIo)
    rw [store] at acc
    exact accepted_of_flush acc

lemma kept_of_steps (steps : ReflTransGen Step bc post) (h : bc.Linked)
    (hasIo : bc.hasIo = true) (kept : bc.backing.refused num = false → Kept bc.lru bc.view num)
    (acc : post.backing.refused num = false) : Kept post.lru post.view num := by
  induction steps with
  | refl => exact kept acc
  | @tail _ _ ht step ih =>
    have hasIoBefore := (setup_of_steps ht).2.trans hasIo
    exact step.kept (h.steps ht) hasIoBefore acc
      (ih (step.accepted hasIoBefore acc))

lemma view_foldl_flushBuf {mem : List Nat} (hasIo : bc.hasIo = true) :
    (mem.foldl flushBuf bc).view = mem.foldl flush bc.view := by
  induction mem generalizing bc with
  | nil => rfl
  | cons b _ ih =>
    have setup : (bc.flushBuf b).hasIo = bc.hasIo := by rw [flushBuf_eq]
    rw [foldl_cons, foldl_cons, ih (setup.trans hasIo), view_flushBuf hasIo]

lemma Linked.stored_sync (h : bc.Linked) (hasIo : bc.hasIo = true)
    (kept : Kept bc.lru bc.view num) {data : DiskBlock} (latest : bc.unsaved num = some data)
    (ok : bc.sync.2.backing.refused num = false) : bc.sync.2.backing.contents num = data := by
  obtain ⟨b, mem, cached⟩ := kept data latest
  have view : bc.sync.2.view = _ := view_foldl_flushBuf hasIo
  have store : bc.sync.2.backing = _ := congrArg store view
  rw [store] at ok ⊢
  refine contents_foldl_flush h.indexes.distinct mem cached ?_ ok
  intro o oMem numbered
  have same : (bc.buf b).blkno = num := congrArg number cached
  exact h.indexes.eq_of_key oMem mem (numbered.trans same.symm)

inductive Reachable (capacity : Nat) (allocFaults : List Bool) : Bcache → Prop
  | init (backing : BackingStore) (hasIo : Bool) :
      Reachable capacity allocFaults (init backing hasIo capacity allocFaults)
  | bread {bc : Bcache} (blkno : Nat) (reached : Reachable capacity allocFaults bc) :
      Reachable capacity allocFaults (bc.bread blkno).2
  | modify {bc post : Bcache} {b : Nat} {data : DiskBlock}
      (reached : Reachable capacity allocFaults bc) (returned : bc.modify b data = .ok post) :
      Reachable capacity allocFaults post
  | markDirty {bc : Bcache} {b : Nat} (reached : Reachable capacity allocFaults bc)
      (present : bc.allocated b = true) : Reachable capacity allocFaults (bc.markDirty b)
  | brelse {bc post : Bcache} {b : Nat} (reached : Reachable capacity allocFaults bc)
      (returned : bc.brelse b = .ok post) : Reachable capacity allocFaults post
  | sync {bc : Bcache} (reached : Reachable capacity allocFaults bc) :
      Reachable capacity allocFaults bc.sync.2

lemma Reachable.induct {cap : Nat} {allocFaults : List Bool} {motive : Bcache → Prop}
    (start : ∀ backing hasIo, motive (Bcache.init backing hasIo cap allocFaults))
    (steps : ∀ {bc post : Bcache}, bc.Linked → ReflTransGen Step bc post → motive bc → motive post)
    (hr : Reachable cap allocFaults bc) : bc.Linked ∧ motive bc := by
  have keep : ∀ {bc post : Bcache}, ReflTransGen Step bc post → bc.Linked ∧ motive bc →
    post.Linked ∧ motive post :=
    fun ht held => ⟨held.1.steps ht, steps held.1 ht held.2⟩
  induction hr with
  | init backing hasIo => exact ⟨Nodes.init _ _, start backing hasIo⟩
  | bread _ _ ih => exact keep ih.1.steps_bread ih
  | modify _ ret ih => exact keep (ih.1.steps_modify ret) ih
  | markDirty _ pres ih =>
    exact keep (ReflTransGen.single (Step.markDirty ((ih.1.allocated _).mp pres))) ih
  | brelse _ ret ih => exact keep (ih.1.steps_brelse ret) ih
  | sync _ ih => exact keep Linked.steps_sync ih

end Bcache

/-- Contents none of whose write-backs was refused are kept until an accepted `sync` stores them. -/
theorem caches_keep_unsaved (cap readahead : Nat) (allocFaults : List Bool) (num : Nat)
    (data : DiskBlock) : (∀ pc, cap < 2 ^ 32 → Pagecache.Reachable cap readahead allocFaults pc →
      pc.hasWrite = true → pc.backing.refused num = false →
      pc.unsaved num = some data →
        (∃ pg ∈ pc.lru, (pc.page pg).pgno = num ∧ (pc.page pg).data = data ∧
          (pc.page pg).dirty = true) ∧
        (pc.sync.2.backing.refused num = false → pc.sync.2.backing.contents num = data)) ∧
    (∀ bc, Bcache.Reachable cap allocFaults bc → bc.hasIo = true → bc.backing.refused num = false →
      bc.unsaved num = some data → (∃ b ∈ bc.lru, (bc.buf b).blkno = num ∧ (bc.buf b).data = data ∧
          (bc.buf b).dirty = true) ∧
        (bc.sync.2.backing.refused num = false → bc.sync.2.backing.contents num = data)) := by
  constructor
  · intro pc capacityLt hr writes acc latest
    obtain ⟨h, keptAll⟩ := hr.induct
      (motive := fun pc => pc.hasWrite = true → pc.backing.refused num = false →
        Kept pc.lru pc.view num) capacityLt
      (fun _ _ _ _ _ _ unsaved => by cases unsaved)
      (fun h steps kept writes acc =>
        have writesBefore := (Pagecache.sameSetup_of_steps steps).hasWrite.symm.trans writes
        Pagecache.kept_of_steps steps h writesBefore (kept writesBefore) acc)
    have kept := keptAll writes acc
    obtain ⟨pg, hl, cached⟩ := kept data latest
    exact ⟨⟨pg, hl, congrArg number cached, congrArg CachedBlock.data cached,
      congrArg dirty cached⟩, h.stored_sync writes kept latest⟩
  intro bc hr hasIo acc latest
  obtain ⟨h, keptAll⟩ := hr.induct
    (motive := fun bc => bc.hasIo = true → bc.backing.refused num = false → Kept bc.lru bc.view num)
    (fun _ _ _ _ _ unsaved => by cases unsaved)
    (fun h steps kept hasIo acc =>
      have hasIoBefore := (setup_of_steps steps).2.symm.trans hasIo
      kept_of_steps steps h hasIoBefore (kept hasIoBefore) acc)
  have kept := keptAll hasIo acc
  obtain ⟨b, hl, cached⟩ := kept data latest
  exact ⟨⟨b, hl, congrArg number cached, congrArg CachedBlock.data cached,
    congrArg dirty cached⟩, h.stored_sync hasIo kept latest⟩

lemma exists_ok_of_map {Stop Value Fact : Type} {res : Except Stop Value}
    {facts : Value → Fact} {fact : Fact} (known : res.toOption.map facts = some fact) :
    ∃ val, res = .ok val ∧ facts val = fact := by
  cases res with
  | error => cases known
  | ok val => exact ⟨val, rfl, Option.some.inj known⟩

theorem caches_keep_unsaved_change :
    (∃ pc, Pagecache.Reachable 1 0 [] pc ∧ ∃ data, pc.unsaved 0 = some data ∧
      ∃ pg ∈ pc.lru, (pc.page pg).pgno = 0 ∧ (pc.page pg).data = data ∧ (pc.page pg).dirty = true) ∧
    (∃ bc, Bcache.Reachable 1 [] bc ∧ ∃ data, bc.unsaved 0 = some data ∧
      ∃ b ∈ bc.lru, (bc.buf b).blkno = 0 ∧ (bc.buf b).data = data ∧ (bc.buf b).dirty = true) := by
  constructor
  · have known :
      ((Pagecache.init (zeros []) true true 1 0 []).write 0 [7]).toOption.map
        (fun res => (res.2.2.hasWrite, res.2.2.backing.refused 0,
          (res.2.2.unsaved 0).isSome)) = some (true, false, true) := by
      decide +kernel
    obtain ⟨res, hw, facts⟩ := exists_ok_of_map known
    obtain ⟨writes, acc, changed⟩ := by simpa using facts
    obtain ⟨data, latest⟩ := Option.isSome_iff_exists.mp changed
    have reach := Pagecache.Reachable.write
      (Pagecache.Reachable.init (zeros []) true true) hw
    exact ⟨_, reach, data, latest,
      ((caches_keep_unsaved 1 0 [] 0 data).1 _ (by decide) reach writes acc latest).1⟩
  have known :
    (((Bcache.init (zeros []) true 1 []).bread 0).2.modify 0
      (fun _ => 7)).toOption.map
      (fun bc => (bc.hasIo, bc.backing.refused 0, (bc.unsaved 0).isSome)) =
        some (true, false, true) := by
    decide +kernel
  obtain ⟨bc, modified, facts⟩ := exists_ok_of_map known
  obtain ⟨hasIo, acc, changed⟩ := by simpa using facts
  obtain ⟨data, latest⟩ := Option.isSome_iff_exists.mp changed
  have reach := Bcache.Reachable.modify
    (Bcache.Reachable.bread 0 (Bcache.Reachable.init (zeros []) true)) modified
  exact ⟨_, reach, data, latest, ((caches_keep_unsaved 1 0 [] 0 data).2 _ reach hasIo acc latest).1⟩

/-- A refused write-back loses the page, and leaves the buffer marked clean. -/
theorem caches_lose_refused : (∃ pc, Pagecache.Reachable 1 0 [] pc ∧ pc.hasWrite = true ∧
      (pc.unsaved 0).isSome = true ∧ pc.lru = []) ∧
    (∃ bc, Bcache.Reachable 1 [] bc ∧ bc.hasIo = true ∧
      (bc.unsaved 0).isSome = true ∧ bc.lru = [0] ∧ (bc.buf 0).dirty = false) := by
  constructor
  · have known :
      ((Pagecache.init (zeros [true]) true true 1 0 []).write 0 [7]).toOption.map
        (fun res => ((res.2.2.evict 0).hasWrite, ((res.2.2.evict 0).unsaved 0).isSome,
          (res.2.2.evict 0).lru)) = some (true, true, []) := by
      decide +kernel
    obtain ⟨res, hw, facts⟩ := exists_ok_of_map known
    obtain ⟨writes, changed, gone⟩ := by simpa using facts
    exact ⟨_, (Pagecache.Reachable.write
      (Pagecache.Reachable.init (zeros [true]) true true) hw).evict 0, writes,
      changed, gone⟩
  have known :
    (((Bcache.init (zeros [true]) true 1 []).bread 0).2.modify 0
      (fun _ => 7)).toOption.map
      (fun bc => (bc.sync.2.hasIo, (bc.sync.2.unsaved 0).isSome, bc.sync.2.lru,
        (bc.sync.2.buf 0).dirty)) = some (true, true, [0], false) := by
    decide +kernel
  obtain ⟨bc, modified, facts⟩ := exists_ok_of_map known
  obtain ⟨hasIo, changed, hl, clean⟩ := by simpa using facts
  exact ⟨_, (Bcache.Reachable.modify
    (Bcache.Reachable.bread 0 (Bcache.Reachable.init (zeros [true]) true))
    modified).sync, hasIo, changed, hl, clean⟩

end HnxKernel
