import Hnx.HnxfsContents

/-!
# Directories as finite maps

Names pass through a bounded copy of 119 characters.
-/

namespace HnxKernel

open Function List Image
open HnxfsM

namespace Image

variable {sb : Superblock} {g h : Image} {dir o b slot child num i : Nat}
  {stored name : FileName} {n : Inode}

def Named (g : Image) (dir : Nat) (stored : FileName) (child : Nat) : Prop :=
  ∃ b slot, g.Entry dir b slot child ∧ storedName (g.data ((g.inode dir).direct b)) slot = stored

lemma named_congr (es : ∀ b slot child, h.Entry dir b slot child ↔ g.Entry dir b slot child)
    (names : ∀ b slot child, g.Entry dir b slot child →
      storedName (h.data ((h.inode dir).direct b)) slot =
        storedName (g.data ((g.inode dir).direct b)) slot) :
    h.Named dir stored child ↔ g.Named dir stored child := by
  constructor
  · rintro ⟨b, slot, e, nameEq⟩
    have old := (es b slot child).mp e
    exact ⟨b, slot, old, (names b slot child old).symm.trans nameEq⟩
  rintro ⟨b, slot, e, nameEq⟩
  exact ⟨b, slot, (es b slot child).mpr e, (names b slot child e).trans nameEq⟩

lemma Similar.named_iff (sim : Similar g h) :
    h.Named dir stored child ↔ g.Named dir stored child := by
  apply named_congr
  · intro b slot child
    exact sim.entry_iff
  intro b slot child e
  rw [sim.direct dir e.inUse, sim.data dir b e.inUse e.isDir e.b_lt]

lemma attach_named (wf : WellFormed sb g) (hlt : i < sb.dataBlockCount)
    (hc : g.blockUsed i = false) (att : g.Attaches (sb.dataBlockStart + i) num b n) :
    (g.attach sb num i n).Named dir stored child ↔ g.Named dir stored child := by
  apply named_congr
  · intro c slot child
    exact attach_entry wf hlt hc att
  intro c slot child e
  have cLe := wf.blocks_le dir e.inUse
  have cLt := e.b_lt
  have directEq : ((g.attach sb num i n).inode dir).direct c = (g.inode dir).direct c := by
    by_cases same : dir = num
    · subst same
      have ne : c ≠ b := by
        have := att.dir_end e.isDir
        omega
      simp only [attach, update_self, att.direct, update_of_ne ne]
    · simp only [attach, update_of_ne same]
  have fresh := wf.data_fresh hlt hc e.inUse e.isDir cLt
  rw [directEq]
  simp only [attach, update_of_ne fresh]

lemma empty_named (empties : g.Empties num n) :
    (g.empty sb num n).Named dir stored child ↔ g.Named dir stored child := by
  apply named_congr
  · intro c slot child
    exact empty_entry empties
  intro c slot child e
  have ne : dir ≠ num := by
    rintro rfl
    exact empties.noEntry c slot child e
  simp only [empty, update_of_ne ne]

lemma link_named {into : Nat} (wf : WellFormed sb g) (links : g.Links sb into b slot num name n) :
    (g.link ((g.inode into).direct b) slot num name n).Named dir stored child ↔
      g.Named dir stored child ∨ dir = into ∧ stored = name.take 119 ∧ child = num := by
  have oldName : ∀ {d c s k}, g.Entry d c s k →
    storedName ((g.link ((g.inode into).direct b) slot num name n).data
      (((g.link ((g.inode into).direct b) slot num name n).inode d).direct c)) s =
      storedName (g.data ((g.inode d).direct c)) s := by
    intro d c s k e
    have inoEq : (g.link ((g.inode into).direct b) slot num name n).inode d = g.inode d := by
      simp only [link, update_of_ne (links.ne_child e.inUse)]
    have ne : ¬ (d = into ∧ c = b ∧ s = slot) := by
      rintro ⟨rfl, rfl, rfl⟩
      exact e.child_ne_zero (e.child ▸ links.free)
    rw [inoEq]
    exact storedName_congr fun k kLt => link_slot wf links e.inUse e.b_lt ne kLt
  have newName : storedName ((g.link ((g.inode into).direct b) slot num name n).data
    (((g.link ((g.inode into).direct b) slot num name n).inode into).direct b)) slot =
      name.take 119 := by
    simp only [link, update_of_ne (links.ne_child links.inUse), update_self]
    exact storedName_putDirent links.nonzero
  constructor
  · rintro ⟨c, s, e, nameEq⟩
    rcases (link_entry wf links).mp e with old | ⟨rfl, rfl, rfl, rfl⟩
    · exact .inl ⟨c, s, old, (oldName old).symm.trans nameEq⟩
    · exact .inr ⟨rfl, nameEq.symm.trans newName, rfl⟩
  rintro (⟨c, s, e, nameEq⟩ | ⟨rfl, rfl, rfl⟩)
  · exact ⟨c, s, (link_entry wf links).mpr (.inl e), (oldName e).trans nameEq⟩
  · exact ⟨b, slot, (link_entry wf links).mpr (.inr ⟨rfl, rfl, rfl, rfl⟩), newName⟩

lemma unlink_named {into : Nat} (wf : WellFormed sb g) (unlinks : g.Unlinks into b slot num) :
    (g.unlink ((g.inode into).direct b) slot num).Named dir stored child ↔
      g.Named dir stored child ∧ child ≠ num := by
  have oldName : ∀ {d c s k}, g.Entry d c s k → ¬ (d = into ∧ c = b ∧ s = slot) →
    storedName ((g.unlink ((g.inode into).direct b) slot num).data ((g.inode d).direct c)) s =
      storedName (g.data ((g.inode d).direct c)) s := by
    intro d c s k e ne
    exact storedName_congr fun k kLt => unlink_slot wf unlinks e.inUse e.b_lt ne kLt
  constructor
  · rintro ⟨c, s, e, nameEq⟩
    obtain ⟨old, ne⟩ := (unlink_entry wf unlinks).mp e
    refine ⟨⟨c, s, old, (oldName old ne).symm.trans nameEq⟩, ?_⟩
    rintro rfl
    exact ne (wf.entry_unique old unlinks.entry)
  rintro ⟨⟨c, s, e, nameEq⟩, childNe⟩
  have ne : ¬ (dir = into ∧ c = b ∧ s = slot) := by
    rintro ⟨rfl, rfl, rfl⟩
    exact childNe (e.child.symm.trans unlinks.entry.child)
  exact ⟨c, s, (unlink_entry wf unlinks).mpr ⟨e, ne⟩, (oldName e ne).trans nameEq⟩

lemma named_of_lookup (hu : g.InUse dir) (ne0 : (0 : UInt8) ∉ name) (notDots : ¬ name.Dots)
    (pres : g.lookup dir name ≠ 0) : g.Named dir (name.take 120) (g.lookup dir name) := by
  obtain ⟨b, slot, -, -, e, stored⟩ := lookup_ne_zero hu ne0 notDots pres
  exact ⟨b, slot, e, stored⟩

lemma not_named_of_lookup (wf : WellFormed sb g) (hu : g.InUse dir)
    (ne0 : (0 : UInt8) ∉ name) (notDots : ¬ name.Dots) (ha : g.lookup dir name = 0) :
    ¬ g.Named dir (name.take 120) child := by
  rintro ⟨b, slot, e, stored⟩
  exact lookup_eq_zero wf hu ne0 notDots ha e stored

end Image

namespace Hnxfs

variable {fs : Hnxfs} {dir child num : Nat} {name stored : FileName} {type : VnodeType}

lemma Created.named_iff {into : Nat} {post : Image}
    (made : fs.Created into num name type post) (wf : fs.WellFormed) : post.Named dir stored child ↔
      fs.image.Named dir stored child ∨ dir = into ∧ stored = name.take 119 ∧ child = num := by
  obtain ⟨g, b, slot, hg, links, rfl⟩ := made.exists_link
  rw [link_named (hg.wellFormed wf) links]
  cases hg with
  | same => rfl
  | attached hlt hc att => rw [attach_named wf hlt hc att]

lemma Unlinked.named_iff {into : Nat} {post : Image}
    (unlinked : fs.Unlinked into num name post) (wf : fs.WellFormed) :
    post.Named dir stored child ↔ fs.image.Named dir stored child ∧ child ≠ num := by
  obtain ⟨b, slot, -, e, dirNe, empties, rfl⟩ := unlinked.exists_unlink
  have unlinks : (fs.image.empty fs.sb num (emptied (fs.image.inode num))).Unlinks into b slot
    num := by
    refine ⟨(empty_entry empties).mpr e, ?_, ?_⟩
    · intro c cLt
      simp [empty, emptied]
    · simp [empty, emptied]
  have res := @Image.unlink_named fs.sb _ dir b slot child num stored into
    (wf.empty empties) unlinks
  rw [empty_inode_of_ne dirNe, empty_named empties] at res
  exact res

inductive DirCall where
  | create (dir : Nat) (name : FileName) (type : VnodeType) (outp : Bool)
  | unlink (dir : Nat) (name : FileName)

structure VfsName (name : FileName) : Prop where
  length_pos : 1 ≤ name.length
  length_le : name.length ≤ 127
  noSlash : slash ∉ name
  nonzero : (0 : UInt8) ∉ name
  notDots : ¬ name.Dots

instance (name : FileName) : Decidable (VfsName name) :=
  decidable_of_iff
    (1 ≤ name.length ∧ name.length ≤ 127 ∧ slash ∉ name ∧ (0 : UInt8) ∉ name ∧ ¬ name.Dots)
    ⟨fun ⟨pos, le, noSlash, nonzero, notDots⟩ => ⟨pos, le, noSlash, nonzero, notDots⟩,
      fun ok => ⟨ok.length_pos, ok.length_le, ok.noSlash, ok.nonzero, ok.notDots⟩⟩

def DirCall.directory : DirCall → Nat
  | .create dir _ _ _ => dir
  | .unlink dir _ => dir

def DirCall.fileName : DirCall → FileName
  | .create _ name _ _ => name
  | .unlink _ name => name

def answerDir (fs : Hnxfs) : DirCall → Int × Hnxfs
  | .create dir name type outp =>
    ((vCreate dir name type outp fs).1.1, (vCreate dir name type outp fs).2)
  | .unlink dir name => vUnlink dir name fs

def ValidDirRun : Hnxfs → List DirCall → Prop
  | _, [] => True
  | fs, call :: rest =>
    (fs.image.InUse call.directory ∧ VfsName call.fileName) ∧ ValidDirRun (fs.answerDir call).2 rest

/-- A successful create enters the inode that `hnxfs_alloc_inode` hands out. -/
def updateMap (fs : Hnxfs) (dir : Nat) (map : FileName → Nat) (call : DirCall) (res : Int) :
    FileName → Nat :=
  match call with
  | .create into name _ _ =>
    if into = dir ∧ res = 0 then update map name (hnxfsAllocInode fs).1 else map
  | .unlink into name =>
    if into = dir ∧ res = 0 then update map name 0 else map

def MapAnswer (dir : Nat) (map : FileName → Nat) : DirCall → Int → Prop
  | .create into name _ _, res => into = dir → (res = -sysEexist ↔ map name ≠ 0)
  | .unlink into name, res => into = dir → (res = -sysEnoent ↔ map name = 0)

def IsMap (fs : Hnxfs) (dir : Nat) (map : FileName → Nat) : Prop :=
  fs.image.InUse dir → (∀ name, VfsName name → (hnxfsDirLookup dir name fs).1 = map name) ∧
    ∀ b slot child b' slot' child', fs.image.Entry dir b slot child →
      fs.image.Entry dir b' slot' child' →
      storedName (fs.image.data ((fs.image.inode dir).direct b)) slot =
        storedName (fs.image.data ((fs.image.inode dir).direct b')) slot' →
      b = b' ∧ slot = slot'

def MapRun (dir : Nat) : Hnxfs → (FileName → Nat) → List DirCall → Prop
  | fs, map, [] => fs.IsMap dir map
  | fs, map, call :: rest =>
    fs.IsMap dir map ∧ MapAnswer dir map call (fs.answerDir call).1 ∧
      MapRun dir (fs.answerDir call).2 (fs.updateMap dir map call (fs.answerDir call).1) rest

/-- The entries of a directory are those of a map of short names. -/
structure HoldsMap (fs : Hnxfs) (dir : Nat) (map : FileName → Nat) : Prop where
  sound : fs.Sound
  named_iff : ∀ stored child, fs.image.Named dir stored child ↔ child ≠ 0 ∧ map stored = child
  short : ∀ name, map name ≠ 0 → name.length ≤ 119

variable {map : FileName → Nat}

lemma HoldsMap.lookup (hh : fs.HoldsMap dir map) (hu : fs.image.InUse dir)
    (ok : VfsName name) : fs.image.lookup dir name = map name := by
  have cut : map (name.take 120) = map name := by
    by_cases long : name.length ≤ 120
    · rw [take_of_length_le long]
    have longZero : map name = 0 := by
      by_contra pres
      have := hh.short name pres
      omega
    have cutZero : map (name.take 120) = 0 := by
      by_contra pres
      have := hh.short _ pres
      simp only [length_take] at this
      omega
    rw [longZero, cutZero]
  by_cases ha : fs.image.lookup dir name = 0
  · rw [ha, ← cut]
    by_contra pres
    exact not_named_of_lookup hh.sound.wellFormed hu ok.nonzero ok.notDots ha
      ((hh.named_iff _ (map (name.take 120))).mpr ⟨Ne.symm pres, rfl⟩)
  have named := named_of_lookup hu ok.nonzero ok.notDots ha
  rw [← ((hh.named_iff _ _).mp named).2, cut]

lemma HoldsMap.isMap (hh : fs.HoldsMap dir map) : fs.IsMap dir map := by
  intro hu
  constructor
  · intro name ok
    rw [hh.sound.wellFormed.dirLookup_eq hh.sound.steady hu]
    exact hh.lookup hu ok
  intro b slot child b' slot' child' fst snd sameName
  -- one name has one child, and one child has one entry
  have firstEq := ((hh.named_iff _ _).mp ⟨b, slot, fst, rfl⟩).2
  have secondEq := ((hh.named_iff _ _).mp ⟨b', slot', snd, rfl⟩).2
  have cEq : child = child' := by rw [← firstEq, ← secondEq, sameName]
  subst cEq
  exact (hh.sound.wellFormed.entry_unique fst snd).2

lemma HoldsMap.of_image {post : Hnxfs} (hh : fs.HoldsMap dir map) (sound : post.Sound)
    (named : ∀ stored child, post.image.Named dir stored child ↔
        fs.image.Named dir stored child) : post.HoldsMap dir map where
  sound := sound
  named_iff stored child := by
    rw [named]
    exact hh.named_iff stored child
  short := hh.short

lemma HoldsMap.create {into : Nat} {outp : Bool} (hh : fs.HoldsMap dir map)
    (hu : fs.image.InUse into) (ok : VfsName name) (hs : into = dir → name.length ≤ 119) :
    MapAnswer dir map (.create into name type outp) (fs.answerDir (.create into name type outp)).1 ∧
      (fs.answerDir (.create into name type outp)).2.HoldsMap dir
        (fs.updateMap dir map (.create into name type outp)
          (fs.answerDir (.create into name type outp)).1) := by
  have sound := hh.sound
  have nextSound := sound.create hu ok.nonzero ok.notDots type outp
  have mapEq : into = dir → fs.image.lookup into name = map name := by
    rintro rfl
    exact hh.lookup hu ok
  rcases @vCreate_cases fs into name type sound.wellFormed sound.steady hu ok.nonzero
      ok.notDots outp with ⟨run, pres⟩ | ⟨ha, run, -⟩ |
      ⟨ha, child, post, avail, run, f, imageEq, -⟩ |
      ⟨ha, child, post, avail, f, made, run⟩
  · simp only [answerDir, run, MapAnswer, updateMap]
    refine ⟨fun same => ?_, ?_⟩
    · rw [← mapEq same]
      simp [pres]
    rw [if_neg (fun both => absurd both.2 (by decide))]
    exact hh
  · simp only [answerDir, run, MapAnswer, updateMap]
    refine ⟨fun same => ?_, ?_⟩
    · rw [← mapEq same, ha]
      decide
    rw [if_neg (fun both => absurd both.2 (by decide))]
    exact hh
  · rw [run] at nextSound
    simp only [answerDir, run, MapAnswer, updateMap]
    refine ⟨fun same => ?_, ?_⟩
    · rw [← mapEq same, ha]
      simp only [ne_eq, not_true_eq_false, iff_false]
      decide
    rw [if_neg (fun both => absurd both.2 (by decide))]
    apply hh.of_image nextSound
    intro stored child'
    rw [imageEq]
    exact (similar_withUnused avail.unused).named_iff
  have resEq : (vCreate into name type outp fs).1.1 = 0 ∧
    (vCreate into name type outp fs).2.image = post.image := by
    rw [run]
    cases outp with
    | false => exact ⟨rfl, rfl⟩
    | true => exact ⟨rfl, (sameVolume_getVnode (sound.steady.of_sameFrame f)).image⟩
  simp only [answerDir, MapAnswer, updateMap, resEq.1, and_true]
  refine ⟨fun same => ?_, ?_⟩
  · rw [← mapEq same, ha]
    decide
  have named : ∀ stored child', (vCreate into name type outp fs).2.image.Named dir stored
    child' ↔ fs.image.Named dir stored child' ∨
      dir = into ∧ stored = name.take 119 ∧ child' = child := by
    intro stored child'
    rw [resEq.2]
    exact made.named_iff sound.wellFormed
  by_cases same : into = dir
  · have shortName := hs same
    have cut : name.take 119 = name := take_of_length_le shortName
    have absentMap : map name = 0 := by rw [← mapEq same, ha]
    have childNe : child ≠ 0 := by
      have := avail.two_le
      omega
    rw [if_pos same, avail.alloc]
    refine ⟨nextSound, ?_, ?_⟩
    · intro stored child'
      rw [named, hh.named_iff, cut]
      by_cases sameName : stored = name
      · subst sameName
        rw [update_self, absentMap]
        constructor
        · rintro (⟨childNe', zero⟩ | ⟨-, -, rfl⟩)
          · exact absurd zero.symm childNe'
          · exact ⟨childNe, rfl⟩
        rintro ⟨-, rfl⟩
        exact .inr ⟨same.symm, rfl, rfl⟩
      rw [update_of_ne sameName]
      simp [sameName]
    intro o pres
    by_cases sameName : o = name
    · rw [sameName]
      exact shortName
    rw [update_of_ne sameName] at pres
    exact hh.short o pres
  rw [if_neg same]
  apply hh.of_image nextSound
  intro stored child'
  rw [named]
  simp [Ne.symm same]

lemma HoldsMap.unlink {into : Nat} (hh : fs.HoldsMap dir map)
    (hu : fs.image.InUse into) (ok : VfsName name) :
    MapAnswer dir map (.unlink into name) (fs.answerDir (.unlink into name)).1 ∧
      (fs.answerDir (.unlink into name)).2.HoldsMap dir
        (fs.updateMap dir map (.unlink into name) (fs.answerDir (.unlink into name)).1) := by
  have sound := hh.sound
  have nextSound := sound.unlink hu ok.nonzero ok.notDots
  have mapEq : into = dir → fs.image.lookup into name = map name := by
    rintro rfl
    exact hh.lookup hu ok
  rcases vUnlink_cases sound.wellFormed sound.steady hu ok.nonzero ok.notDots with
    ⟨run, ha⟩ | ⟨run, pres, -⟩ | ⟨pres, post, run, f, unlinked⟩
  · simp only [answerDir, run, MapAnswer, updateMap]
    refine ⟨fun same => ?_, ?_⟩
    · rw [← mapEq same]
      simp [ha]
    rw [if_neg (fun both => absurd both.2 (by decide))]
    exact hh
  · simp only [answerDir, run, MapAnswer, updateMap]
    refine ⟨fun same => ?_, ?_⟩
    · rw [← mapEq same]
      simp only [pres, iff_false]
      decide
    rw [if_neg (fun both => absurd both.2 (by decide))]
    exact hh
  rw [run] at nextSound
  simp only [answerDir, run, MapAnswer, updateMap, and_true]
  refine ⟨fun same => ?_, ?_⟩
  · rw [← mapEq same]
    simp only [pres, iff_false]
    decide
  have named := fun stored child => @Unlinked.named_iff fs dir child _ name stored into
    post.image unlinked sound.wellFormed
  -- the entry that goes is the one of this name, in this directory only
  have gone := named_of_lookup hu ok.nonzero ok.notDots pres
  by_cases same : into = dir
  · subst same
    have lookupEq := mapEq rfl
    have shortName : name.length ≤ 119 := hh.short name (lookupEq ▸ pres)
    have cut : name.take 120 = name := take_of_length_le (by omega)
    rw [if_pos rfl]
    refine ⟨nextSound, ?_, ?_⟩
    · intro stored child
      rw [named, hh.named_iff, lookupEq]
      by_cases sameName : stored = name
      · subst sameName
        rw [update_self]
        constructor
        · rintro ⟨⟨-, rfl⟩, ne⟩
          exact absurd rfl ne
        rintro ⟨childNe, zero⟩
        exact absurd zero.symm childNe
      rw [update_of_ne sameName]
      constructor
      · exact fun both => both.1
      rintro ⟨childNe, cEq⟩
      refine ⟨⟨childNe, cEq⟩, ?_⟩
      rintro rfl
      -- one inode has one entry, so it has one name
      have first := (hh.named_iff stored _).mpr ⟨childNe, cEq⟩
      rw [lookupEq, cut] at gone
      obtain ⟨b, slot, e, nameEq⟩ := first
      obtain ⟨b', slot', entry', nameEq'⟩ := gone
      obtain ⟨-, rfl, rfl⟩ := sound.wellFormed.entry_unique e entry'
      exact sameName (nameEq.symm.trans nameEq')
    intro o otherPresent
    by_cases sameName : o = name
    · rw [sameName, update_self] at otherPresent
      exact absurd rfl otherPresent
    rw [update_of_ne sameName] at otherPresent
    exact hh.short o otherPresent
  rw [if_neg same]
  apply hh.of_image nextSound
  intro stored child
  rw [named]
  constructor
  · exact fun both => both.1
  intro old
  refine ⟨old, ?_⟩
  rintro rfl
  obtain ⟨b, slot, e, -⟩ := old
  obtain ⟨b', slot', entry', -⟩ := gone
  exact same (sound.wellFormed.entry_unique entry' e).1

lemma HoldsMap.run {calls : List DirCall} (hh : fs.HoldsMap dir map) (hv : ValidDirRun fs calls)
    (hs : ∀ name type outp, .create dir name type outp ∈ calls → name.length ≤ 119) :
    MapRun dir fs map calls := by
  induction calls generalizing fs map with
  | nil => exact hh.isMap
  | cons c r ih =>
    obtain ⟨⟨hu, ok⟩, restValid⟩ := hv
    have restShort : ∀ name type outp, .create dir name type outp ∈ r → name.length ≤ 119 :=
      fun name type outp mem => hs name type outp (by simp [mem])
    cases c with
    | create into name type outp =>
      have callShort : into = dir → name.length ≤ 119 := by
        rintro rfl
        exact hs name type outp (by simp)
      obtain ⟨ans, next⟩ := HoldsMap.create hh hu ok callShort
      exact ⟨hh.isMap, ans, ih next restValid restShort⟩
    | unlink =>
      obtain ⟨ans, next⟩ := hh.unlink hu ok
      exact ⟨hh.isMap, ans, ih next restValid restShort⟩

/-- A directory is a finite map as long as no name of more than 119 characters is created in it. -/
theorem directory_isMap_of_run (wf : fs.WellFormed) (hs : fs.Steady)
    (empty : ∀ b slot child, ¬ fs.image.Entry dir b slot child) {calls : List DirCall}
    (hv : ValidDirRun fs calls)
    (short : ∀ name type outp, .create dir name type outp ∈ calls → name.length ≤ 119) :
    MapRun dir fs (fun _ => 0) calls := by
  have hh : fs.HoldsMap dir fun _ => 0 := by
    refine ⟨⟨wf, hs⟩, ?_, fun _ hp => absurd rfl hp⟩
    intro stored child
    constructor
    · rintro ⟨b, slot, e, -⟩
      exact absurd e (empty b slot child)
    rintro ⟨childNe, zero⟩
    exact absurd zero.symm childNe
  exact hh.run hv short

def shortCalls : List DirCall :=
  [.create 1 [97] .file false, .create 1 [98] .dir true, .unlink 1 [97]]

lemma freshVolume_noEntry (b slot child : Nat) : ¬ freshVolume.image.Entry 1 b slot child := by
  intro e
  have bLt := e.b_lt
  rw [freshVolume_root] at bLt
  exact absurd bLt (Nat.not_lt_zero b)

theorem shortCalls_isMap :
    ValidDirRun freshVolume shortCalls ∧ MapRun 1 freshVolume (fun _ => 0) shortCalls := by
  have hv : ValidDirRun freshVolume shortCalls := by
    refine ⟨⟨⟨le_rfl, ?_⟩, by decide⟩, ⟨⟨le_rfl, ?_⟩, by decide⟩, ⟨⟨le_rfl, ?_⟩, by decide⟩,
      trivial⟩
    all_goals decide +kernel
  have hs : ∀ name type outp, .create 1 name type outp ∈ shortCalls → name.length ≤ 119 := by
    intro name type outp member
    simp only [shortCalls, mem_cons, DirCall.create.injEq, true_and, not_mem_nil,
      reduceCtorEq, or_false] at member
    rcases member with ⟨rfl, -⟩ | ⟨rfl, -⟩
    · decide
    · decide
  exact ⟨hv, directory_isMap_of_run freshVolume_wellFormed freshVolume_steady
    freshVolume_noEntry hv hs⟩

def longName : FileName := List.replicate 120 97

/-- A long name is created, is not found, and is created once more. -/
theorem longName_not_isMap :
    VfsName longName ∧ (vCreate 1 longName .file false freshVolume).1.1 = 0 ∧
      (hnxfsDirLookup 1 longName (vCreate 1 longName .file false freshVolume).2).1 = 0 ∧
      (vCreate 1 longName .file false (vCreate 1 longName .file false freshVolume).2).1.1 = 0 ∧
      ¬ MapRun 1 freshVolume (fun _ => 0) [.create 1 longName .file false] := by
  have made : (vCreate 1 longName .file false freshVolume).1.1 = 0 := by decide +kernel
  have lost : (hnxfsDirLookup 1 longName (vCreate 1 longName .file false freshVolume).2).1 = 0 := by
    decide +kernel
  have ok : VfsName longName := by decide +kernel
  refine ⟨ok, made, lost, by decide +kernel, ?_⟩
  rintro ⟨-, -, isMap⟩
  have hu : (vCreate 1 longName .file false freshVolume).2.image.InUse 1 :=
    ⟨le_rfl, by decide +kernel⟩
  have found := (isMap hu).1 longName ok
  simp only [answerDir, updateMap, made, and_self, if_true, update_self] at found
  rw [lost] at found
  exact absurd found (by decide +kernel)

end Hnxfs

end HnxKernel
