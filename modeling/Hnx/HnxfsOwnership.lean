import Hnx.HnxfsPrimitives

/-!
# Ownership of inodes and blocks

A data block is referenced from one place, and an inode is named by one entry.
-/

namespace HnxKernel

open Function

namespace Image

def InUse (g : Image) (num : Nat) : Prop := 1 ≤ num ∧ g.inodeUsed num = true

def IsDir (g : Image) (num : Nat) : Prop := (g.inode num).type = hnxfsTypeDir

instance (g : Image) (num : Nat) : Decidable (g.IsDir num) := inferInstanceAs (Decidable (_ = _))

structure Refers (g : Image) (num b blk : Nat) : Prop where
  inUse : g.InUse num
  b_lt : b < 12
  direct : (g.inode num).direct b = blk
  ne_zero : blk ≠ 0

structure Entry (g : Image) (dir b slot child : Nat) : Prop where
  inUse : g.InUse dir
  isDir : g.IsDir dir
  b_lt : b < (g.inode dir).blocks
  slot_lt : slot < 32
  entry : isEntry (g.data ((g.inode dir).direct b)) slot = true
  child : direntInode (g.data ((g.inode dir).direct b)) slot = child

structure WellFormed (sb : Superblock) (g : Image) : Prop where
  layout : sb.Layout
  zero_used : g.inodeUsed 0 = true
  root_used : g.inodeUsed 1 = true
  root_dir : g.IsDir 1
  blocks_le : ∀ n, g.InUse n → (g.inode n).blocks ≤ 12
  direct_inData : ∀ n b blk, g.Refers n b blk → sb.InData blk
  direct_lt : ∀ n b blk, g.Refers n b blk → b < (g.inode n).blocks
  dir_full : ∀ n b, g.InUse n → g.IsDir n → b < (g.inode n).blocks → (g.inode n).direct b ≠ 0
  used_iff : ∀ i < sb.dataBlockCount, g.blockUsed i = true ↔
    ∃! place : Nat × Nat, g.Refers place.1 place.2 (sb.dataBlockStart + i)
  clear : ∀ i < sb.dataBlockCount, g.blockUsed i = false →
    ∀ n b, ¬ g.Refers n b (sb.dataBlockStart + i)
  entry_used : ∀ dir b s child, g.Entry dir b s child → 2 ≤ child ∧ g.InUse child
  named : ∀ n, 2 ≤ n → g.InUse n → ∃! place : Nat × Nat × Nat, g.Entry place.1 place.2.1 place.2.2 n

variable {sb : Superblock} {g h : Image} {n o b c blk dir s child : Nat}

lemma Entry.refers (wf : WellFormed sb g) (e : g.Entry dir b s child) :
    g.Refers dir b ((g.inode dir).direct b) where
  inUse := e.inUse
  b_lt := lt_of_lt_of_le e.b_lt (wf.blocks_le dir e.inUse)
  direct := rfl
  ne_zero := wf.dir_full dir b e.inUse e.isDir e.b_lt

lemma Entry.child_ne_zero (e : g.Entry dir b s child) : child ≠ 0 := by
  have live := e.entry
  rw [isEntry, e.child] at live
  simp only [ne_eq, Bool.and_eq_true, decide_eq_true_eq] at live
  exact live.1

section
variable (wf : WellFormed sb g)
include wf

lemma WellFormed.owner_unique (fst : g.Refers n b blk)
    (second : g.Refers o c blk) : n = o ∧ b = c := by
  obtain ⟨startLe, blkLt⟩ := wf.direct_inData n b blk fst
  have blkEq : blk = sb.dataBlockStart + (blk - sb.dataBlockStart) := by omega
  have indexLt : blk - sb.dataBlockStart < sb.dataBlockCount := by omega
  rw [blkEq] at fst second
  cases used : g.blockUsed (blk - sb.dataBlockStart) with
  | false => exact absurd fst (wf.clear _ indexLt used n b)
  | true =>
    have placesEq : (n, b) = (o, c) := ((wf.used_iff _ indexLt).mp used).unique fst second
    exact ⟨congrArg Prod.fst placesEq, congrArg Prod.snd placesEq⟩

lemma WellFormed.used_of_refers {i : Nat}
    (hr : g.Refers n b (sb.dataBlockStart + i)) : g.blockUsed i = true := by
  obtain ⟨-, blkLt⟩ := wf.direct_inData n b _ hr
  cases used : g.blockUsed i with
  | true => rfl
  | false => exact absurd hr (wf.clear i (by omega) used n b)

lemma WellFormed.entry_unique {dir' b' slot' : Nat} (fst : g.Entry dir b s child)
    (snd : g.Entry dir' b' slot' child) : dir = dir' ∧ b = b' ∧ s = slot' := by
  obtain ⟨twoLe, hu⟩ := wf.entry_used dir b s child fst
  have placesEq : (dir, b, s) = (dir', b', slot') := (wf.named child twoLe hu).unique fst snd
  simpa using placesEq

lemma WellFormed.root_inUse : g.InUse 1 := ⟨le_rfl, wf.root_used⟩

lemma WellFormed.place_unique (entryDir : g.InUse dir) (bLt : b < (g.inode dir).blocks)
    (hr : g.Refers n c blk) (eq : (g.inode dir).direct b = blk) : n = dir ∧ c = b :=
  wf.owner_unique hr
    ⟨entryDir, lt_of_lt_of_le bLt (wf.blocks_le dir entryDir), eq, hr.ne_zero⟩

lemma WellFormed.data_fresh {i : Nat} (indexLt : i < sb.dataBlockCount)
    (clear : g.blockUsed i = false) (entryDir : g.InUse dir) (hd : g.IsDir dir)
    (bLt : b < (g.inode dir).blocks) : (g.inode dir).direct b ≠ sb.dataBlockStart + i := by
  intro eq
  apply wf.clear i indexLt clear dir b
  exact ⟨entryDir, lt_of_lt_of_le bLt (wf.blocks_le dir entryDir), eq,
    eq ▸ wf.dir_full dir b entryDir hd bLt⟩

end

/-- The same inodes with the same blocks, and the same live entries. -/
structure Similar (g h : Image) : Prop where
  inodeUsed : h.inodeUsed = g.inodeUsed
  blockUsed : h.blockUsed = g.blockUsed
  type : ∀ n, g.InUse n → (h.inode n).type = (g.inode n).type
  blocks : ∀ n, g.InUse n → (h.inode n).blocks = (g.inode n).blocks
  direct : ∀ n, g.InUse n → (h.inode n).direct = (g.inode n).direct
  data : ∀ n b, g.InUse n → g.IsDir n → b < (g.inode n).blocks →
    h.data ((g.inode n).direct b) = g.data ((g.inode n).direct b)

namespace Similar

variable (sim : Similar g h)
include sim

lemma inUse_iff : h.InUse n ↔ g.InUse n := by rw [InUse, InUse, sim.inodeUsed]

lemma isDir_iff (hu : g.InUse n) : h.IsDir n ↔ g.IsDir n := by rw [IsDir, IsDir, sim.type n hu]

lemma refers_iff : h.Refers n b blk ↔ g.Refers n b blk := by
  constructor
  · intro hr
    have inUse := sim.inUse_iff.mp hr.inUse
    exact ⟨inUse, hr.b_lt, sim.direct n inUse ▸ hr.direct, hr.ne_zero⟩
  intro hr
  exact ⟨sim.inUse_iff.mpr hr.inUse, hr.b_lt, (sim.direct n hr.inUse).symm ▸ hr.direct, hr.ne_zero⟩

lemma entry_iff : h.Entry dir b s child ↔ g.Entry dir b s child := by
  constructor
  · intro e
    have inUse := sim.inUse_iff.mp e.inUse
    have isDir := (sim.isDir_iff inUse).mp e.isDir
    have bLt : b < (g.inode dir).blocks := sim.blocks dir inUse ▸ e.b_lt
    have dataEq : h.data ((h.inode dir).direct b) = g.data ((g.inode dir).direct b) := by
      rw [sim.direct dir inUse, sim.data dir b inUse isDir bLt]
    exact ⟨inUse, isDir, bLt, e.slot_lt, dataEq ▸ e.entry, dataEq ▸ e.child⟩
  intro e
  have inUse := e.inUse
  have dataEq : h.data ((h.inode dir).direct b) = g.data ((g.inode dir).direct b) := by
    rw [sim.direct dir inUse, sim.data dir b inUse e.isDir e.b_lt]
  exact ⟨sim.inUse_iff.mpr inUse, (sim.isDir_iff inUse).mpr e.isDir,
    (sim.blocks dir inUse).symm ▸ e.b_lt, e.slot_lt, dataEq.symm ▸ e.entry,
    dataEq.symm ▸ e.child⟩

lemma wellFormed (wf : WellFormed sb g) : WellFormed sb h where
  layout := wf.layout
  zero_used := sim.inodeUsed ▸ wf.zero_used
  root_used := sim.inodeUsed ▸ wf.root_used
  root_dir := (sim.isDir_iff wf.root_inUse).mpr wf.root_dir
  blocks_le n inUse := by
    rw [sim.inUse_iff] at inUse
    rw [sim.blocks n inUse]
    exact wf.blocks_le n inUse
  direct_inData n b blk refers := wf.direct_inData n b blk (sim.refers_iff.mp refers)
  direct_lt n b blk refers := by
    rw [sim.refers_iff] at refers
    rw [sim.blocks n refers.inUse]
    exact wf.direct_lt n b blk refers
  dir_full n b inUse isDir bLt := by
    rw [sim.inUse_iff] at inUse
    rw [sim.isDir_iff inUse] at isDir
    rw [sim.blocks n inUse] at bLt
    rw [sim.direct n inUse]
    exact wf.dir_full n b inUse isDir bLt
  used_iff i indexLt := by
    simp only [sim.blockUsed, sim.refers_iff]
    exact wf.used_iff i indexLt
  clear i indexLt clear n b := by
    rw [sim.blockUsed] at clear
    rw [sim.refers_iff]
    exact wf.clear i indexLt clear n b
  entry_used dir b s child entry := by
    rw [sim.entry_iff] at entry
    rw [sim.inUse_iff]
    exact wf.entry_used dir b s child entry
  named n twoLe inUse := by
    simp only [sim.entry_iff]
    exact wf.named n twoLe (sim.inUse_iff.mp inUse)

end Similar

lemma WellFormed.of_parts (layout : sb.Layout) (zero : g.inodeUsed 0 = true)
    (r : g.inodeUsed 1 = true) (rootDir : g.IsDir 1)
    (blocksLe : ∀ n, g.InUse n → (g.inode n).blocks ≤ 12)
    (refersLt : ∀ n b blk, g.Refers n b blk → sb.InData blk ∧ b < (g.inode n).blocks)
    (full : ∀ n b, g.InUse n → g.IsDir n → b < (g.inode n).blocks →
        (g.inode n).direct b ≠ 0) (used : ∀ i < sb.dataBlockCount, g.blockUsed i = true ↔
        ∃ n b, g.Refers n b (sb.dataBlockStart + i))
    (owner : ∀ n b o c blk, g.Refers n b blk → g.Refers o c blk → n = o ∧ b = c)
    (entryUsed : ∀ dir b s child, g.Entry dir b s child → 2 ≤ child ∧ g.InUse child)
    (entryUnique : ∀ dir b s dir' b' slot' child, g.Entry dir b s child →
        g.Entry dir' b' slot' child → dir = dir' ∧ b = b' ∧ s = slot')
    (entryExists : ∀ n, 2 ≤ n → g.InUse n → ∃ dir b s, g.Entry dir b s n) : WellFormed sb g where
  layout := layout
  zero_used := zero
  root_used := r
  root_dir := rootDir
  blocks_le := blocksLe
  direct_inData n b blk refers := (refersLt n b blk refers).1
  direct_lt n b blk refers := (refersLt n b blk refers).2
  dir_full := full
  used_iff i indexLt := by
    constructor
    · intro isUsed
      obtain ⟨n, b, refers⟩ := (used i indexLt).mp isUsed
      refine ⟨(n, b), refers, ?_⟩
      intro place placeRefers
      obtain ⟨numEq, bEq⟩ := owner _ _ _ _ _ placeRefers refers
      exact Prod.ext numEq bEq
    rintro ⟨place, refers, -⟩
    exact (used i indexLt).mpr ⟨place.1, place.2, refers⟩
  clear i indexLt isClear n b refers := by
    have isUsed := (used i indexLt).mpr ⟨n, b, refers⟩
    rw [isClear] at isUsed
    exact Bool.false_ne_true isUsed
  entry_used := entryUsed
  named n twoLe inUse := by
    obtain ⟨dir, b, s, e⟩ := entryExists n twoLe inUse
    refine ⟨(dir, b, s), e, ?_⟩
    intro place placeEnt
    obtain ⟨dirEq, bEq, slotEq⟩ := entryUnique _ _ _ _ _ _ _ placeEnt e
    exact Prod.ext dirEq (Prod.ext bEq slotEq)

lemma WellFormed.exists_refers (wf : WellFormed sb g) {i : Nat}
    (indexLt : i < sb.dataBlockCount) (used : g.blockUsed i = true) :
    ∃ n b, g.Refers n b (sb.dataBlockStart + i) := by
  obtain ⟨place, hr, -⟩ := (wf.used_iff i indexLt).mp used
  exact ⟨place.1, place.2, hr⟩

lemma WellFormed.exists_entry (wf : WellFormed sb g) (twoLe : 2 ≤ n)
    (hu : g.InUse n) : ∃ dir b s, g.Entry dir b s n := by
  obtain ⟨place, e, -⟩ := wf.named n twoLe hu
  exact ⟨place.1, place.2.1, place.2.2, e⟩

section Attach

variable {i : Nat} {inode : Inode}

def attach (g : Image) (sb : Superblock) (num idx : Nat) (inode : Inode) : Image where
  inodeUsed := g.inodeUsed
  blockUsed := update g.blockUsed idx true
  inode := update g.inode num inode
  data := update g.data (sb.dataBlockStart + idx) zeroBlock

structure Attaches (g : Image) (blk num b : Nat) (inode : Inode) : Prop where
  inUse : g.InUse num
  b_lt : b < 12
  hole : (g.inode num).direct b = 0
  type : inode.type = (g.inode num).type
  direct : inode.direct = update (g.inode num).direct b blk
  blocks : inode.blocks = max (g.inode num).blocks (b + 1)
  dir_end : g.IsDir num → b = (g.inode num).blocks

variable (wf : WellFormed sb g) (indexLt : i < sb.dataBlockCount)
  (clear : g.blockUsed i = false)
  (att : g.Attaches (sb.dataBlockStart + i) n b inode)
include wf indexLt clear att

omit wf indexLt clear in
lemma attach_isDir : (g.attach sb n i inode).IsDir o ↔ g.IsDir o := by
  by_cases eq : o = n
  · subst eq
    simp [IsDir, attach, update_self, att.type]
  · simp [IsDir, attach, update_of_ne eq]

omit clear in
lemma attach_refers : (g.attach sb n i inode).Refers o c blk ↔
    g.Refers o c blk ∨ o = n ∧ c = b ∧ blk = sb.dataBlockStart + i := by
  have pos : sb.dataBlockStart + i ≠ 0 := wf.layout.data_ne_zero ⟨Nat.le_add_right _ _, by omega⟩
  constructor
  · rintro ⟨hu, cLt, direct, blkNe⟩
    by_cases eq : o = n
    · subst eq
      simp only [attach, update_self, att.direct] at direct
      by_cases sameB : c = b
      · subst sameB
        rw [update_self] at direct
        exact .inr ⟨rfl, rfl, direct.symm⟩
      rw [update_of_ne sameB] at direct
      exact .inl ⟨hu, cLt, direct, blkNe⟩
    simp only [attach, update_of_ne eq] at direct
    exact .inl ⟨hu, cLt, direct, blkNe⟩
  rintro (⟨hu, cLt, direct, blkNe⟩ | ⟨rfl, rfl, rfl⟩)
  · refine ⟨hu, cLt, ?_, blkNe⟩
    by_cases eq : o = n
    · subst eq
      have ne : c ≠ b := by
        rintro rfl
        exact blkNe (direct ▸ att.hole)
      simp [attach, update_self, att.direct, update_of_ne ne, direct]
    · simp [attach, update_of_ne eq, direct]
  refine ⟨att.inUse, att.b_lt, ?_, pos⟩
  simp [attach, att.direct]

lemma attach_entry : (g.attach sb n i inode).Entry dir c s child ↔ g.Entry dir c s child := by
  have old : ∀ {dir c}, g.InUse dir → g.IsDir dir → c < (g.inode dir).blocks →
    (g.attach sb n i inode).data (((g.attach sb n i inode).inode dir).direct c) =
      g.data ((g.inode dir).direct c) := by
    intro dir c hu hd cLt
    have directEq : ((g.attach sb n i inode).inode dir).direct c = (g.inode dir).direct c := by
      by_cases eq : dir = n
      · subst eq
        have ne : c ≠ b := by
          have := att.dir_end hd
          omega
        simp [attach, update_self, att.direct, update_of_ne ne]
      · simp [attach, update_of_ne eq]
    rw [directEq, attach]
    exact update_of_ne (wf.data_fresh indexLt clear hu hd cLt) _ _
  have blocksLe : (g.inode dir).blocks ≤ ((g.attach sb n i inode).inode dir).blocks := by
    by_cases eq : dir = n
    · subst eq
      simp only [attach, update_self, att.blocks]
      exact le_max_left _ _
    · simp only [attach, update_of_ne eq, le_refl]
  constructor
  · rintro ⟨hu, hd, cLt, slotLt, e, childEq⟩
    rw [attach_isDir att] at hd
    by_cases within : c < (g.inode dir).blocks
    · rw [old hu hd within] at e childEq
      exact ⟨hu, hd, within, slotLt, e, childEq⟩
    -- the only block beyond the old ones is the new one, which is zero
    exfalso
    by_cases eq : dir = n
    · subst eq
      have atEnd := att.dir_end hd
      have cEq : c = b := by
        simp only [attach, update_self, att.blocks] at cLt
        omega
      subst cEq
      have blockEq : (g.attach sb dir i inode).data
        (((g.attach sb dir i inode).inode dir).direct c) = zeroBlock := by
        simp [attach, att.direct]
      rw [blockEq, isEntry] at e
      have zero : direntInode zeroBlock s = 0 := ByteMemory.readLE_eq_zero fun _ _ => rfl
      simp [zero] at e
    simp only [attach, update_of_ne eq] at cLt
    exact within cLt
  rintro ⟨hu, hd, cLt, slotLt, e, childEq⟩
  have dataEq := old hu hd cLt
  exact ⟨hu, (attach_isDir att).mpr hd, lt_of_lt_of_le cLt blocksLe, slotLt,
    dataEq.symm ▸ e, dataEq.symm ▸ childEq⟩

lemma WellFormed.attach : WellFormed sb (g.attach sb n i inode) := by
  have zero : (g.attach sb n i inode).inodeUsed 0 = true := wf.zero_used
  have r : (g.attach sb n i inode).inodeUsed 1 = true := wf.root_used
  apply WellFormed.of_parts wf.layout zero r
  · exact (attach_isDir att).mpr wf.root_dir
  · intro o hu
    have oldLe := wf.blocks_le o hu
    by_cases eq : o = n
    · subst eq
      simp only [Image.attach, update_self, att.blocks]
      have := att.b_lt
      omega
    · simp [Image.attach, update_of_ne eq, oldLe]
  · intro o c blk hr
    rcases (attach_refers wf indexLt att).mp hr with old | ⟨rfl, rfl, rfl⟩
    · refine ⟨wf.direct_inData o c blk old, ?_⟩
      have cLt := wf.direct_lt o c blk old
      by_cases eq : o = n
      · subst eq
        simp only [Image.attach, update_self, att.blocks]
        omega
      · simp [Image.attach, update_of_ne eq, cLt]
    refine ⟨⟨Nat.le_add_right _ _, by omega⟩, ?_⟩
    simp only [Image.attach, update_self, att.blocks]
    omega
  · intro o c hu hd cLt
    rw [attach_isDir att] at hd
    have positive : sb.dataBlockStart + i ≠ 0 :=
      wf.layout.data_ne_zero ⟨Nat.le_add_right _ _, by omega⟩
    by_cases eq : o = n
    · subst eq
      simp only [Image.attach, update_self, att.blocks] at cLt
      simp only [Image.attach, update_self, att.direct]
      by_cases sameB : c = b
      · rw [sameB, update_self]
        exact positive
      rw [update_of_ne sameB]
      have := att.dir_end hd
      exact wf.dir_full o c hu hd (by omega)
    simp only [Image.attach, update_of_ne eq] at cLt ⊢
    exact wf.dir_full o c hu hd cLt
  · intro pos posLt
    simp only [attach_refers wf indexLt att]
    by_cases eq : pos = i
    · subst eq
      simp only [Image.attach, update_self, true_iff]
      exact ⟨n, b, .inr ⟨rfl, rfl, trivial⟩⟩
    simp only [Image.attach, update_of_ne eq]
    constructor
    · intro used
      obtain ⟨o, c, hr⟩ := wf.exists_refers posLt used
      exact ⟨o, c, .inl hr⟩
    rintro ⟨o, c, hr | ⟨-, -, sameBlock⟩⟩
    · exact wf.used_of_refers hr
    · omega
  · intro fst c snd d blk refers1 refers2
    rw [attach_refers wf indexLt att] at refers1 refers2
    have fresh := wf.clear i indexLt clear
    rcases refers1 with old | ⟨rfl, rfl, rfl⟩
    · rcases refers2 with old' | ⟨rfl, rfl, rfl⟩
      · exact wf.owner_unique old old'
      · exact absurd old (fresh _ _)
    rcases refers2 with old' | ⟨rfl, rfl, -⟩
    · exact absurd old' (fresh _ _)
    · exact ⟨rfl, rfl⟩
  · intro dir c s child e
    rw [attach_entry wf indexLt clear att] at e
    exact wf.entry_used dir c s child e
  · intro dir c s dir' c' slot' child fst snd
    rw [attach_entry wf indexLt clear att] at fst snd
    exact wf.entry_unique fst snd
  intro o twoLe hu
  obtain ⟨dir, c, s, e⟩ := wf.exists_entry twoLe hu
  exact ⟨dir, c, s, (attach_entry wf indexLt clear att).mpr e⟩

end Attach

end Image

namespace Image

variable {sb : Superblock} {g : Image} {n o b c blk dir slot child i : Nat}
  {inode : Inode} {name : FileName}

def freed (sb : Superblock) (bits : Nat → Bool) (direct : Nat → Nat) (positions : List Nat)
    (idx : Nat) : Bool :=
  bits idx && decide (∀ b ∈ positions, direct b = 0 ∨ direct b ≠ sb.dataBlockStart + idx)

def empty (g : Image) (sb : Superblock) (num : Nat) (inode : Inode) : Image :=
  { g with
    blockUsed := freed sb g.blockUsed (g.inode num).direct (g.inode num).dirBlocks
    inode := update g.inode num inode }

structure Empties (g : Image) (num : Nat) (inode : Inode) : Prop where
  inUse : g.InUse num
  type : inode.type = (g.inode num).type
  direct : ∀ b < 12, inode.direct b = 0
  blocks : inode.blocks = 0
  noEntry : ∀ b slot child, ¬ g.Entry num b slot child

section Empty

variable (wf : WellFormed sb g) (empties : g.Empties n inode)
include wf empties

omit wf in
lemma empty_isDir : (g.empty sb n inode).IsDir o ↔ g.IsDir o := by
  by_cases eq : o = n
  · subst eq
    simp only [IsDir, empty, update_self, empties.type]
  · simp only [IsDir, empty, update_of_ne eq]

omit wf in
lemma empty_refers : (g.empty sb n inode).Refers o c blk ↔ g.Refers o c blk ∧ o ≠ n := by
  constructor
  · rintro ⟨hu, cLt, direct, blkNe⟩
    by_cases eq : o = n
    · subst eq
      simp only [empty, update_self, empties.direct c cLt] at direct
      exact absurd direct.symm blkNe
    simp only [empty, update_of_ne eq] at direct
    exact ⟨⟨hu, cLt, direct, blkNe⟩, eq⟩
  rintro ⟨⟨hu, cLt, direct, blkNe⟩, ne⟩
  refine ⟨hu, cLt, ?_, blkNe⟩
  simp only [empty, update_of_ne ne, direct]

omit wf in
lemma empty_entry : (g.empty sb n inode).Entry dir c slot child ↔ g.Entry dir c slot child := by
  constructor
  · rintro ⟨hu, hd, cLt, slotLt, e, cEq⟩
    rw [empty_isDir empties] at hd
    by_cases eq : dir = n
    · subst eq
      simp only [empty, update_self, empties.blocks] at cLt
      omega
    simp only [empty, update_of_ne eq] at cLt e cEq
    exact ⟨hu, hd, cLt, slotLt, e, cEq⟩
  intro old
  have ne : dir ≠ n := by
    rintro rfl
    exact empties.noEntry c slot child old
  obtain ⟨hu, hd, cLt, slotLt, e, cEq⟩ := old
  refine ⟨hu, (empty_isDir empties).mpr hd, ?_, slotLt, ?_, ?_⟩
  · simpa only [empty, update_of_ne ne] using cLt
  · simpa only [empty, update_of_ne ne] using e
  · simpa only [empty, update_of_ne ne] using cEq

lemma freed_eq_true (idxLt : i < sb.dataBlockCount) :
    freed sb g.blockUsed (g.inode n).direct (g.inode n).dirBlocks i = true ↔
      g.blockUsed i = true ∧ ∀ b, ¬ g.Refers n b (sb.dataBlockStart + i) := by
  have pos : sb.dataBlockStart + i ≠ 0 := wf.layout.data_ne_zero ⟨Nat.le_add_right _ _, by omega⟩
  rw [freed, Bool.and_eq_true, decide_eq_true_eq]
  apply and_congr_right
  intro used
  constructor
  · intro kept b hr
    have bLt := wf.direct_lt n b _ hr
    have := hr.b_lt
    rcases kept b (List.mem_range.mpr (by omega)) with zero | ne
    · exact hr.ne_zero (hr.direct ▸ zero)
    · exact ne hr.direct
  intro notOwned b mem
  right
  intro direct
  have bLt := List.mem_range.mp mem
  exact notOwned b ⟨empties.inUse, by omega, direct, pos⟩

lemma WellFormed.empty : WellFormed sb (g.empty sb n inode) := by
  have zero : (g.empty sb n inode).inodeUsed 0 = true := wf.zero_used
  have r : (g.empty sb n inode).inodeUsed 1 = true := wf.root_used
  apply WellFormed.of_parts wf.layout zero r
  · exact (empty_isDir empties).mpr wf.root_dir
  · intro o hu
    by_cases eq : o = n
    · subst eq
      simp only [Image.empty, update_self, empties.blocks]
      omega
    simp only [Image.empty, update_of_ne eq]
    exact wf.blocks_le o hu
  · intro o c blk hr
    obtain ⟨old, ne⟩ := (empty_refers empties).mp hr
    refine ⟨wf.direct_inData o c blk old, ?_⟩
    simp only [Image.empty, update_of_ne ne]
    exact wf.direct_lt o c blk old
  · intro o c hu hd cLt
    rw [empty_isDir empties] at hd
    by_cases eq : o = n
    · subst eq
      simp only [Image.empty, update_self, empties.blocks] at cLt
      omega
    simp only [Image.empty, update_of_ne eq] at cLt ⊢
    exact wf.dir_full o c hu hd cLt
  · intro pos posLt
    simp only [empty_refers empties]
    rw [Image.empty, freed_eq_true wf empties posLt]
    constructor
    · rintro ⟨used, notOwned⟩
      obtain ⟨o, c, hr⟩ := wf.exists_refers posLt used
      refine ⟨o, c, hr, ?_⟩
      rintro rfl
      exact notOwned c hr
    rintro ⟨o, c, hr, ne⟩
    refine ⟨wf.used_of_refers hr, ?_⟩
    intro b owned
    exact ne (wf.owner_unique hr owned).1
  · intro fst c snd d blk refers1 refers2
    rw [empty_refers empties] at refers1 refers2
    exact wf.owner_unique refers1.1 refers2.1
  · intro dir c slot child e
    rw [empty_entry empties] at e
    exact wf.entry_used dir c slot child e
  · intro dir c slot dir' c' slot' child fst snd
    rw [empty_entry empties] at fst snd
    exact wf.entry_unique fst snd
  intro o twoLe hu
  obtain ⟨dir, c, slot, e⟩ := wf.exists_entry twoLe hu
  exact ⟨dir, c, slot, (empty_entry empties).mpr e⟩

end Empty

def link (g : Image) (blk slot child : Nat) (name : FileName) (inode : Inode) : Image where
  inodeUsed := update g.inodeUsed child true
  blockUsed := g.blockUsed
  inode := update g.inode child inode
  data := update g.data blk (putDirent (g.data blk) slot child name)

/-- A free slot of a directory for an entry, and an unused inode for its child. -/
structure Links (g : Image) (sb : Superblock) (dir b slot child : Nat) (name : FileName)
    (inode : Inode) : Prop where
  inUse : g.InUse dir
  isDir : g.IsDir dir
  b_lt : b < (g.inode dir).blocks
  slot_lt : slot < 32
  free : direntInode (g.data ((g.inode dir).direct b)) slot = 0
  unused : g.inodeUsed child = false
  two_le : 2 ≤ child
  child_lt : child < sb.inodeCount
  nonzero : (0 : UInt8) ∉ name
  notDots : ¬ name.Dots
  direct : ∀ b < 12, inode.direct b = 0
  blocks : inode.blocks = 0

lemma isEntry_iff {block : DiskBlock} :
    isEntry block slot = true ↔ direntInode block slot ≠ 0 ∧ ¬ (storedName block slot).Dots := by
  rw [isEntry, Bool.and_eq_true, decide_eq_true_eq, Bool.not_eq_true', ← Bool.not_eq_true,
    isDot_iff]

lemma isEntry_congr {block o : DiskBlock}
    (agree : ∀ k < 128, block (slot * 128 + k) = o (slot * 128 + k)) :
    isEntry block slot = isEntry o slot := by
  rw [Bool.eq_iff_iff, isEntry_iff, isEntry_iff, direntInode_congr agree, storedName_congr agree]

lemma isEntry_putDirent {block : DiskBlock} (childNe : child ≠ 0) (childLt : child < 256 ^ 8)
    (ne0 : (0 : UInt8) ∉ name) (notDots : ¬ name.Dots) :
    isEntry (putDirent block slot child name) slot = true := by
  rw [isEntry_iff, direntInode_putDirent childLt, storedName_putDirent ne0,
    FileName.dots_take (by norm_num)]
  exact ⟨childNe, notDots⟩

section Link

variable (wf : WellFormed sb g) (links : g.Links sb dir b slot child name inode)
include wf links

omit wf in
lemma link_inUse {blk : Nat} :
    (g.link blk slot child name inode).InUse n ↔ g.InUse n ∨ n = child := by
  have := links.two_le
  by_cases eq : n = child
  · subst eq
    simp only [InUse, link, update_self, and_true, or_true, iff_true]
    omega
  · simp only [InUse, link, update_of_ne eq, eq, or_false]

omit wf in
lemma Links.ne_child (hu : g.InUse n) : n ≠ child := by
  rintro rfl
  have unused := links.unused
  rw [hu.2] at unused
  exact Bool.noConfusion unused

omit wf in
lemma link_refers {blk' : Nat} :
    (g.link blk' slot child name inode).Refers n c blk ↔ g.Refers n c blk := by
  constructor
  · rintro ⟨hu, cLt, direct, blkNe⟩
    rcases (link_inUse links).mp hu with old | rfl
    · simp only [link, update_of_ne (links.ne_child old)] at direct
      exact ⟨old, cLt, direct, blkNe⟩
    simp only [link, update_self, links.direct c cLt] at direct
    exact absurd direct.symm blkNe
  rintro ⟨hu, cLt, direct, blkNe⟩
  refine ⟨(link_inUse links).mpr (.inl hu), cLt, ?_, blkNe⟩
  simp only [link, update_of_ne (links.ne_child hu), direct]

lemma link_slot {dir' c slot' : Nat} (hu : g.InUse dir') (cLt : c < (g.inode dir').blocks)
    (ne : ¬ (dir' = dir ∧ c = b ∧ slot' = slot)) {k : Nat} (kLt : k < 128) :
    (g.link ((g.inode dir).direct b) slot child name inode).data ((g.inode dir').direct c)
        (slot' * 128 + k) = g.data ((g.inode dir').direct c) (slot' * 128 + k) := by
  by_cases sameBlock : (g.inode dir').direct c = (g.inode dir).direct b
  · have hr : g.Refers dir b ((g.inode dir).direct b) :=
      ⟨links.inUse, lt_of_lt_of_le links.b_lt (wf.blocks_le dir links.inUse), rfl,
        wf.dir_full dir b links.inUse links.isDir links.b_lt⟩
    have place := wf.place_unique hu cLt hr sameBlock
    have slotNe : slot' ≠ slot := fun eq => ne ⟨place.1.symm, place.2.symm, eq⟩
    simp only [link, sameBlock, update_self]
    exact putDirent_outside slotNe kLt
  · simp only [link, update_of_ne sameBlock]

lemma link_entry {dir' c slot' child' : Nat} :
    (g.link ((g.inode dir).direct b) slot child name inode).Entry dir' c slot' child' ↔
      g.Entry dir' c slot' child' ∨ dir' = dir ∧ c = b ∧ slot' = slot ∧ child' = child := by
  have childLt : child < 256 ^ 8 := by
    have := links.child_lt
    have := wf.layout.inodeCount_le
    omega
  have childNe : child ≠ 0 := by
    have := links.two_le
    omega
  have newData : (g.link ((g.inode dir).direct b) slot child name inode).data
    ((g.inode dir).direct b) = putDirent (g.data ((g.inode dir).direct b)) slot child name := by
    simp only [link, update_self]
  have dirNe := links.ne_child links.inUse
  constructor
  · rintro ⟨hu, hd, cLt, slotLt, e, cEq⟩
    rcases (link_inUse links).mp hu with old | rfl
    · have inoEq : (g.link ((g.inode dir).direct b) slot child name inode).inode dir' =
        g.inode dir' := by
        simp only [link, update_of_ne (links.ne_child old)]
      rw [inoEq] at cLt e cEq
      rw [IsDir, inoEq] at hd
      by_cases eq : dir' = dir ∧ c = b ∧ slot' = slot
      · obtain ⟨rfl, rfl, rfl⟩ := eq
        rw [newData, direntInode_putDirent childLt] at cEq
        exact .inr ⟨rfl, rfl, rfl, cEq.symm⟩
      have agree := fun k kLt => @link_slot _ _ _ _ _ _ _ _ wf links dir' c slot' old cLt
        eq k kLt
      rw [isEntry_congr agree] at e
      rw [direntInode_congr agree] at cEq
      exact .inl ⟨old, hd, cLt, slotLt, e, cEq⟩
    simp only [link, update_self, links.blocks] at cLt
    omega
  rintro (old | ⟨rfl, rfl, rfl, rfl⟩)
  · have inoEq : (g.link ((g.inode dir).direct b) slot child name inode).inode dir' =
      g.inode dir' := by
      simp only [link, update_of_ne (links.ne_child old.inUse)]
    have ne : ¬ (dir' = dir ∧ c = b ∧ slot' = slot) := by
      rintro ⟨rfl, rfl, rfl⟩
      exact old.child_ne_zero (old.child ▸ links.free)
    have agree := fun k kLt => @link_slot _ _ _ _ _ _ _ _ wf links dir' c slot'
      old.inUse old.b_lt ne k kLt
    refine ⟨(link_inUse links).mpr (.inl old.inUse), ?_, ?_, old.slot_lt, ?_, ?_⟩
    · rw [IsDir, inoEq]
      exact old.isDir
    · rw [inoEq]
      exact old.b_lt
    · rw [inoEq, isEntry_congr agree]
      exact old.entry
    rw [inoEq, direntInode_congr agree]
    exact old.child
  have inoEq : (g.link ((g.inode dir').direct c) slot' child' name inode).inode dir' =
    g.inode dir' := by
    simp only [link, update_of_ne dirNe]
  refine ⟨(link_inUse links).mpr (.inl links.inUse), ?_, ?_, links.slot_lt, ?_, ?_⟩
  · rw [IsDir, inoEq]
    exact links.isDir
  · rw [inoEq]
    exact links.b_lt
  · rw [inoEq, newData]
    exact isEntry_putDirent childNe childLt links.nonzero links.notDots
  · rw [inoEq, newData, direntInode_putDirent childLt]

lemma WellFormed.link : WellFormed sb (g.link ((g.inode dir).direct b) slot child name inode) := by
  have twoLe := links.two_le
  have oldInode : ∀ {n}, g.InUse n →
    (g.link ((g.inode dir).direct b) slot child name inode).inode n = g.inode n := by
    intro n hu
    simp only [Image.link, update_of_ne (links.ne_child hu)]
  apply WellFormed.of_parts wf.layout
  · simp only [Image.link]
    rw [update_of_ne (by omega)]
    exact wf.zero_used
  · simp only [Image.link]
    rw [update_of_ne (by omega)]
    exact wf.root_used
  · rw [IsDir, oldInode wf.root_inUse]
    exact wf.root_dir
  · intro n hu
    rcases (link_inUse links).mp hu with old | rfl
    · rw [oldInode old]
      exact wf.blocks_le n old
    simp only [Image.link, update_self, links.blocks]
    omega
  · intro n c blk hr
    rw [link_refers links] at hr
    rw [oldInode hr.inUse]
    exact ⟨wf.direct_inData n c blk hr, wf.direct_lt n c blk hr⟩
  · intro n c hu hd cLt
    rcases (link_inUse links).mp hu with old | rfl
    · rw [oldInode old] at cLt ⊢
      rw [IsDir, oldInode old] at hd
      exact wf.dir_full n c old hd cLt
    simp only [Image.link, update_self, links.blocks] at cLt
    omega
  · intro i idxLt
    simp only [link_refers links]
    constructor
    · exact wf.exists_refers idxLt
    rintro ⟨n, c, hr⟩
    exact wf.used_of_refers hr
  · intro fst c snd d blk refers1 refers2
    rw [link_refers links] at refers1 refers2
    exact wf.owner_unique refers1 refers2
  · intro dir' c slot' child' e
    rw [link_inUse links]
    rcases (link_entry wf links).mp e with old | ⟨-, -, -, rfl⟩
    · obtain ⟨childLe, hu⟩ := wf.entry_used _ _ _ _ old
      exact ⟨childLe, .inl hu⟩
    · exact ⟨twoLe, .inr rfl⟩
  · intro dir₁ c₁ slot₁ dir₂ c₂ slot₂ child' fst snd
    -- the new inode was not in use, so no old entry names it
    have notOld : ∀ {d c s}, ¬ g.Entry d c s child := by
      intro d c s old
      exact links.ne_child (wf.entry_used _ _ _ _ old).2 rfl
    rcases (link_entry wf links).mp fst with old | ⟨rfl, rfl, rfl, rfl⟩
    · rcases (link_entry wf links).mp snd with old' | ⟨rfl, rfl, rfl, rfl⟩
      · exact wf.entry_unique old old'
      · exact absurd old notOld
    rcases (link_entry wf links).mp snd with old' | ⟨rfl, rfl, rfl, -⟩
    · exact absurd old' notOld
    · exact ⟨rfl, rfl, rfl⟩
  intro n numLe hu
  rcases (link_inUse links).mp hu with old | rfl
  · obtain ⟨dir', c, slot', e⟩ := wf.exists_entry numLe old
    exact ⟨dir', c, slot', (link_entry wf links).mpr (.inl e)⟩
  · exact ⟨dir, b, slot, (link_entry wf links).mpr (.inr ⟨rfl, rfl, rfl, rfl⟩)⟩

end Link

def unlink (g : Image) (blk slot child : Nat) : Image :=
  { g with
    inodeUsed := update g.inodeUsed child false
    data := update g.data blk (clearDirent (g.data blk) slot) }

structure Unlinks (g : Image) (dir b slot child : Nat) : Prop where
  entry : g.Entry dir b slot child
  direct : ∀ b < 12, (g.inode child).direct b = 0
  blocks : (g.inode child).blocks = 0

section Unlink

variable (wf : WellFormed sb g) (unlinks : g.Unlinks dir b slot child)
include wf unlinks

omit wf unlinks in
lemma unlink_inUse {blk : Nat} : (g.unlink blk slot child).InUse n ↔ g.InUse n ∧ n ≠ child := by
  by_cases eq : n = child
  · subst eq
    simp [InUse, unlink]
  · simp [InUse, unlink, eq]

omit wf in
lemma unlink_refers {blk' : Nat} :
    (g.unlink blk' slot child).Refers n c blk ↔ g.Refers n c blk := by
  constructor
  · rintro ⟨hu, cLt, direct, blkNe⟩
    exact ⟨(unlink_inUse.mp hu).1, cLt, direct, blkNe⟩
  rintro ⟨hu, cLt, direct, blkNe⟩
  refine ⟨unlink_inUse.mpr ⟨hu, ?_⟩, cLt, direct, blkNe⟩
  rintro rfl
  exact blkNe (direct ▸ unlinks.direct c cLt)

lemma unlink_slot {dir' c slot' : Nat} (hu : g.InUse dir') (cLt : c < (g.inode dir').blocks)
    (ne : ¬ (dir' = dir ∧ c = b ∧ slot' = slot)) {k : Nat} (kLt : k < 128) :
    (g.unlink ((g.inode dir).direct b) slot child).data ((g.inode dir').direct c)
        (slot' * 128 + k) = g.data ((g.inode dir').direct c) (slot' * 128 + k) := by
  by_cases sameBlock : (g.inode dir').direct c = (g.inode dir).direct b
  · have place := wf.place_unique hu cLt (unlinks.entry.refers wf) sameBlock
    have slotNe : slot' ≠ slot := fun eq => ne ⟨place.1.symm, place.2.symm, eq⟩
    simp only [unlink, sameBlock, update_self]
    exact clearDirent_outside slotNe kLt
  · simp only [unlink, update_of_ne sameBlock]

lemma unlink_entry {dir' c slot' child' : Nat} :
    (g.unlink ((g.inode dir).direct b) slot child).Entry dir' c slot' child' ↔
      g.Entry dir' c slot' child' ∧ ¬ (dir' = dir ∧ c = b ∧ slot' = slot) := by
  constructor
  · rintro ⟨hu, hd, cLt, slotLt, e, cEq⟩
    have old := (unlink_inUse.mp hu).1
    have ne : ¬ (dir' = dir ∧ c = b ∧ slot' = slot) := by
      rintro ⟨rfl, rfl, rfl⟩
      have cleared : (g.unlink ((g.inode dir').direct c) slot' child).data
        ((g.inode dir').direct c) = clearDirent (g.data ((g.inode dir').direct c)) slot' := by
        simp only [unlink, update_self]
      rw [isEntry_iff] at e
      exact e.1 (cleared.symm ▸ direntInode_clearDirent)
    have agree := fun k kLt => @unlink_slot _ _ _ _ _ _ wf unlinks dir' c slot' old cLt
      ne k kLt
    have entryEq := isEntry_congr agree
    have inodeEq := direntInode_congr agree
    exact ⟨⟨old, hd, cLt, slotLt, entryEq ▸ e, inodeEq ▸ cEq⟩, ne⟩
  rintro ⟨old, ne⟩
  have agree := fun k kLt => @unlink_slot _ _ _ _ _ _ wf unlinks dir' c slot' old.inUse
    old.b_lt ne k kLt
  have entryEq := isEntry_congr agree
  have inodeEq := direntInode_congr agree
  have dirNe : dir' ≠ child := by
    rintro rfl
    have := old.b_lt
    rw [unlinks.blocks] at this
    omega
  exact ⟨unlink_inUse.mpr ⟨old.inUse, dirNe⟩, old.isDir, old.b_lt, old.slot_lt,
    entryEq.symm ▸ old.entry, inodeEq.symm ▸ old.child⟩

lemma WellFormed.unlink : WellFormed sb (g.unlink ((g.inode dir).direct b) slot child) := by
  obtain ⟨twoLe, childInUse⟩ := wf.entry_used _ _ _ _ unlinks.entry
  apply WellFormed.of_parts wf.layout
  · simp only [Image.unlink]
    rw [update_of_ne (by omega)]
    exact wf.zero_used
  · simp only [Image.unlink]
    rw [update_of_ne (by omega)]
    exact wf.root_used
  · exact wf.root_dir
  · intro n hu
    exact wf.blocks_le n (unlink_inUse.mp hu).1
  · intro n c blk hr
    rw [unlink_refers unlinks] at hr
    exact ⟨wf.direct_inData n c blk hr, wf.direct_lt n c blk hr⟩
  · intro n c hu hd cLt
    exact wf.dir_full n c (unlink_inUse.mp hu).1 hd cLt
  · intro i idxLt
    simp only [unlink_refers unlinks]
    constructor
    · exact wf.exists_refers idxLt
    rintro ⟨n, c, hr⟩
    exact wf.used_of_refers hr
  · intro fst c snd d blk refers1 refers2
    rw [unlink_refers unlinks] at refers1 refers2
    exact wf.owner_unique refers1 refers2
  · intro dir' c slot' child' e
    obtain ⟨old, ne⟩ := (unlink_entry wf unlinks).mp e
    obtain ⟨childLe, hu⟩ := wf.entry_used _ _ _ _ old
    refine ⟨childLe, unlink_inUse.mpr ⟨hu, ?_⟩⟩
    rintro rfl
    exact ne (wf.entry_unique old unlinks.entry)
  · intro dir₁ c₁ slot₁ dir₂ c₂ slot₂ child' fst snd
    rw [unlink_entry wf unlinks] at fst snd
    exact wf.entry_unique fst.1 snd.1
  intro n numLe hu
  obtain ⟨old, ne⟩ := unlink_inUse.mp hu
  obtain ⟨dir', c, slot', e⟩ := wf.exists_entry numLe old
  refine ⟨dir', c, slot', (unlink_entry wf unlinks).mpr ⟨e, ?_⟩⟩
  rintro ⟨rfl, rfl, rfl⟩
  exact ne (e.child.symm.trans unlinks.entry.child)

end Unlink

end Image

end HnxKernel
