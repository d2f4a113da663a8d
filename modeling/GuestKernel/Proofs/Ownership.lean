/-
# Every block has one holder

In every reachable kernel the allocated blocks of each partition are the blocks that objects hold in it, one for one
(`Owned`). Since the blocks of a partition do not overlap, nothing that one object holds overlaps what another holds.

Calls that create or delete a holder either fail, and then nothing but the journal differs, or leave the kernel owned
(`Conserves`). Creating a thread takes two blocks; if the second is refused, the first goes back and the partition is the
one it was. Deleting takes blocks back that the partition is known to own, so it never finds a foreign block.

Source: specification, 3.
-/

import GuestKernel.Proofs.Holdings
import GuestKernel.Proofs.PartitionBlocks

namespace GuestKernel
namespace Kernel

variable {k k' k₁ k₂ k₃ : Kernel} {t : Thread} {n : PartitionId} {p p' : Partition} {b : Block}
  {books : PartitionId → List Block} {books' : PartitionId → List Block} {name : String} {placement : Placement}
  {alignment size : UInt32} {o : Object} {α : Type} {e : KernelError} {config : KernelConfig} {partition : PartitionId}
  {attributes entry priority wantedStack : UInt32} {id : ObjectId} {exitCode : Int32}

theorem Noted.sameTenure (h : Noted k k') : SameTenure k k' :=
  .of_objects (by rw [h]) (by rw [h]) h.partitions

/-! ### Taking a block and giving it back -/

/-- An allocation gets a block, or is refused without a change. -/
theorem allocateBlock_cases (k : Kernel) (n : PartitionId) (name : String) (placement : Placement)
    (alignment size : UInt32) :
    (∃ e k', Noted k k' ∧ (∀ a, e ≠ .illegalMemoryBlock a) ∧
      k.allocateBlock n name placement alignment size = k'.refuse e) ∨
    ∃ p b p' k', k.partitions[n]? = some p ∧ p.allocate name placement alignment size = .ok (b, p') ∧ Noted k k' ∧
      k.allocateBlock n name placement alignment size =
        ({ k' with partitions := k.partitions.insert n p' }).done b := by
  unfold allocateBlock
  cases hp : k.partitions[n]? with
  | none => exact Or.inl ⟨.illegalPartition n, k, .refl k, nofun, rfl⟩
  | some p =>
    dsimp only
    cases ha : p.allocate name placement alignment size with
    | error e =>
      refine Or.inl ⟨e, _, .noteAll k _, fun a he => ?_, rfl⟩
      subst he
      unfold Partition.allocate at ha
      split at ha
      · cases ha
      · split at ha <;> cases ha
    | ok r =>
      obtain ⟨b, p'⟩ := r
      exact Or.inr ⟨p, b, p', _, rfl, ha, .noteAll k _, rfl⟩

/-- Freeing a block that can be freed succeeds. -/
theorem freeBlock_eq_done (hp : k.partitions[n]? = some p) (hfree : p.free b = .ok p') :
    ∃ k', Noted k k' ∧ k.freeBlock n b = ({ k' with partitions := k.partitions.insert n p' }).done () := by
  unfold freeBlock
  rw [hp]
  dsimp only
  rw [hfree]
  exact ⟨_, .noteAll k _, rfl⟩

/-- The partitions are sound, and the blocks allocated in each are the listed ones. -/
structure Allotted (k : Kernel) (books : PartitionId → List Block) : Prop where
  sound : ∀ (n : PartitionId) (p : Partition), k.partitions[n]? = some p → p.Sound
  blocks : ∀ (n : PartitionId) (p : Partition), k.partitions[n]? = some p → p.blocks.Perm (books n)
  absent : ∀ n : PartitionId, k.partitions[n]? = none → books n = []

theorem Allotted.congr (h : k.Allotted books)
    (hp : k'.partitions = k.partitions) (hbooks : ∀ n, (books' n).Perm (books n)) : k'.Allotted books' where
  sound n p hget := h.sound n p (hp ▸ hget)
  blocks n p hget := (h.blocks n p (hp ▸ hget)).trans (hbooks n).symm
  absent n hnone := by
    have hnil := hbooks n
    rw [h.absent n (hp ▸ hnone)] at hnil
    exact hnil.eq_nil

/-- The blocks of one partition change. -/
theorem Allotted.insert (h : k.Allotted books)
    (hp : k'.partitions = k.partitions.insert n p') (hsound : p'.Sound) (hblocks : p'.blocks.Perm (books' n))
    (hbooks : ∀ m, n ≠ m → books' m = books m) : k'.Allotted books' := by
  have hget : ∀ m, k'.partitions[m]? = if n = m then some p' else k.partitions[m]? := by
    intro m
    rw [hp, Std.ExtTreeMap.getElem?_insert]
    simp only [Std.LawfulEqCmp.compare_eq_iff_eq]
  refine ⟨fun m q hq => ?_, fun m q hq => ?_, fun m hm => ?_⟩
  · rw [hget] at hq
    split at hq
    · cases hq
      exact hsound
    · exact h.sound m q hq
  · rw [hget] at hq
    split at hq
    · next hm =>
      cases hq
      exact hm ▸ hblocks
    · next hm => exact hbooks m hm ▸ h.blocks m q hq
  · rw [hget] at hm
    split at hm
    · cases hm
    · next hne => exact (hbooks m hne).trans (h.absent m hm)

/-- The blocks `bs` of partition `n`, and those of the books. -/
def withBlocks (n : PartitionId) (bs : List Block) (books : PartitionId → List Block) (m : PartitionId) : List Block :=
  (if n = m then bs else []) ++ books m

theorem withBlocks_self (bs : List Block) : withBlocks n bs books n = bs ++ books n := by
  rw [withBlocks, if_pos rfl]

theorem withBlocks_of_ne {m : PartitionId} (bs : List Block) (h : n ≠ m) : withBlocks n bs books m = books m := by
  rw [withBlocks, if_neg h, List.nil_append]

theorem withBlocks_append (bs cs : List Block) :
    withBlocks n (bs ++ cs) books = withBlocks n bs (withBlocks n cs books) := by
  funext m
  unfold withBlocks
  split
  · exact List.append_assoc ..
  · rfl

/-- An allocation puts its block into the books. -/
theorem Allotted.allocate (h : k.Allotted books) (hp : k.partitions[n]? = some p)
    (ha : p.allocate name placement alignment size = .ok (b, p'))
    (hk' : k'.partitions = k.partitions.insert n p') : k'.Allotted (withBlocks n [b] books) := by
  obtain ⟨hsound, hperm, -⟩ := (h.sound n p hp).allocate ha
  refine h.insert hk' hsound ?_ fun m hm => withBlocks_of_ne [b] hm
  rw [withBlocks_self]
  exact hperm.trans ((h.blocks n p hp).cons b)

/-- **A block in the books can be given back**, and is then off the books. -/
theorem Allotted.free (h : k.Allotted (withBlocks n [b] books)) :
    ∃ k' : Kernel, k.freeBlock n b = k'.done () ∧ k'.Allotted books := by
  cases hp : k.partitions[n]? with
  | none =>
    have hnil := h.absent n hp
    rw [withBlocks_self] at hnil
    cases hnil
  | some p =>
    have hblocks := h.blocks n p hp
    rw [withBlocks_self] at hblocks
    have hmem : b ∈ p.blocks := hblocks.mem_iff.mpr (List.mem_cons_self ..)
    obtain ⟨p', hfree, hsound, hperm⟩ := (h.sound n p hp).free hmem
    obtain ⟨k₁, -, heq⟩ := freeBlock_eq_done hp hfree
    refine ⟨_, heq, h.insert rfl hsound ?_ fun m hm => (withBlocks_of_ne [b] hm).symm⟩
    exact (List.perm_cons b).mp (hperm.symm.trans hblocks)

/-- Listed blocks can all be freed. -/
theorem Allotted.freeAll {bs : List Block} (h : k.Allotted (withBlocks n bs books)) :
    ∃ k' : Kernel, k.freeBlocks n bs = k'.done () ∧ k'.Allotted books := by
  induction bs generalizing k with
  | nil =>
    refine ⟨k, rfl, h.congr rfl fun m => ?_⟩
    unfold withBlocks
    split <;> exact .refl _
  | cons b rest ih =>
    rw [show b :: rest = [b] ++ rest from rfl, withBlocks_append] at h
    obtain ⟨k₁, hfree, h₁⟩ := h.free
    obtain ⟨k₂, hrest, h₂⟩ := ih h₁
    refine ⟨k₂, ?_, h₂⟩
    unfold freeBlocks
    rw [hfree]
    exact hrest

/-- Storing a partition anew that was there before gives the same partitions back. -/
theorem insert_insert_self {partitions : Std.ExtTreeMap PartitionId Partition compare}
    (h : partitions[n]? = some p) : (partitions.insert n p').insert n p = partitions := by
  refine Std.ExtTreeMap.ext_getElem? fun {m} => ?_
  rw [Std.ExtTreeMap.getElem?_insert, Std.ExtTreeMap.getElem?_insert]
  simp only [Std.LawfulEqCmp.compare_eq_iff_eq]
  split
  · next hm => rw [← hm, h]
  · rfl

/-- **A new thread gets its stack and its thread-local block, or nothing is taken.** -/
theorem allocateStack_cases (h : ∀ (n : PartitionId) (p : Partition), k.partitions[n]? = some p → p.Sound)
    (name : String) (size : UInt32) :
    (∃ e k', Noted k k' ∧ (∀ a, e ≠ .illegalMemoryBlock a) ∧ k.allocateStack name size = k'.refuse e) ∨
    ∃ (stack : Block) (tls : Option Block) (k' : Kernel), k.allocateStack name size = k'.done (stack, tls) ∧
      ∀ books, k.Allotted books →
        k'.Allotted (withBlocks k.config.threadPartition (stack :: tls.toList) books) := by
  generalize hr : k.allocateStack name size = r
  unfold allocateStack at hr
  dsimp only at hr
  obtain ⟨e, k₁, hk₁, he, hstack⟩ | ⟨p, stack, p', k₁, hp, ha, hk₁, hstack⟩ := allocateBlock_cases k
    k.config.threadPartition ("stack:" ++ name) .high stackAlignment size <;> rw [hstack] at hr
  · exact Or.inl ⟨e, k₁, hk₁, he, hr.symm⟩
  · rw [done_andThen] at hr
    have hall : ∀ books, k.Allotted books → Allotted
        { k₁ with partitions := k.partitions.insert k.config.threadPartition p' }
        (withBlocks k.config.threadPartition [stack] books) := fun books hbooks => hbooks.allocate hp ha rfl
    split at hr
    · exact Or.inr ⟨stack, none, _, hr.symm, hall⟩
    · obtain ⟨e, k₂, hk₂, he, htls⟩ | ⟨q, tls, q', k₂, hq, ha', hk₂, htls⟩ := allocateBlock_cases
        { k₁ with partitions := k.partitions.insert k.config.threadPartition p' }
        k.config.threadPartition ("tls:" ++ name) .high stackAlignment k₁.config.tlsSize <;> rw [htls] at hr
      · -- The thread-local block is refused, and the partition that gets the stack back is the one it was.
        have hget : k₂.partitions[k.config.threadPartition]? = some p' := by
          rw [hk₂.partitions]
          exact Std.ExtTreeMap.getElem?_insert_self
        have hback : p'.free stack = .ok p := ((h _ p hp).allocate ha).2.2
        obtain ⟨k₃, hk₃, hfree⟩ := freeBlock_eq_done hget hback
        have hparts : k₂.partitions.insert k.config.threadPartition p = k.partitions := by
          rw [hk₂.partitions]
          exact insert_insert_self hp
        rw [hparts] at hfree
        have hr' : r = ({ k₃ with partitions := k.partitions } : Kernel).refuse e := by
          rw [← hr]
          show (k₂.freeBlock k.config.threadPartition stack).andThen (fun _ k => k.refuse e) = _
          rw [hfree]
          rfl
        refine Or.inl ⟨e, _, ?_, he, hr'⟩
        unfold Noted at hk₁ hk₂ hk₃ ⊢
        rw [hk₃, hk₂, hk₁]
      · refine Or.inr ⟨stack, some tls, _, hr.symm, fun books hbooks => ?_⟩
        refine Allotted.congr (hbooks.allocate hp ha rfl |>.allocate hq ha' rfl) rfl fun m => ?_
        rw [← withBlocks_append]
        unfold withBlocks
        split
        · exact (List.Perm.swap tls stack []).append_right _
        · exact .refl _

/-! ### Who holds what -/

/-- **Every block has one holder**: the partitions are sound and the blocks allocated in them are those that objects
hold, and each thread holds its stack. -/
structure Owned (k : Kernel) : Prop where
  allotted : k.Allotted k.heldIn
  threads : ∀ id t, k.thread? id = some t → t.blocks ≠ []

theorem Owned.sameTenure (h : k.Owned) (hs : SameTenure k k') : k'.Owned where
  allotted := h.allotted.congr hs.partitions hs.heldIn_perm
  threads id t' ht' := by
    obtain ⟨t, ht, hb⟩ := hs.threads id t' ht'
    rw [hb]
    exact h.threads id t ht

/-- A new holder comes with its blocks. -/
theorem Owned.registerNew (h : k.Owned) (bs : List Block) (hfresh : k.objects.get? o.id = none)
    (hs : SameObjects k k₁) (hall : k₁.Allotted (withBlocks n bs k.heldIn))
    (hblocks : ∀ m, o.blocksIn k.config.threadPartition m = if n = m then bs else [])
    (ho : ∀ t, o = .thread t → t.blocks ≠ []) : (k₁.registerNew o).Owned where
  allotted := by
    refine hall.congr rfl fun m => ?_
    have hperm := ObjectTable.toList_put_perm (t := k.objects.skipId) (o := o) hfresh
    have hflat := hperm.flatMap_right (Object.blocksIn k.config.threadPartition m)
    rw [List.flatMap_cons, hblocks] at hflat
    unfold heldIn
    rw [show (k₁.registerNew o).objects = k₁.objects.skipId.put o from rfl,
      show (k₁.registerNew o).config = k₁.config from rfl, hs.config, hs.objects]
    exact hflat
  threads id t ht := by
    have hget : (k₁.objects.skipId.put o).get? id = some (.thread t) := ObjectTable.thread?_eq_some.mp ht
    rw [ObjectTable.get?_put] at hget
    split at hget
    · cases hget
      exact ho t rfl
    · refine h.threads id t (ObjectTable.thread?_eq_some.mpr ?_)
      rw [← hs.objects]
      exact hget

/-- What an object holds, and what the others hold. -/
theorem heldIn_perm_erase (ho : k.objects.get? o.id = some o) (m : PartitionId) :
    (k.heldIn m).Perm (o.blocksIn k.config.threadPartition m ++
      ({ k with objects := k.objects.erase o.id } : Kernel).heldIn m) :=
  (ObjectTable.toList_erase_perm ho).flatMap_right (Object.blocksIn k.config.threadPartition m)

/-- A call that fails has changed nothing but the journal, and did not meet a foreign block; one that succeeds leaves the
kernel owned. -/
def Conserves {α : Type} (k : Kernel) (r : Reply α) : Prop :=
  (∃ e k', Noted k k' ∧ (∀ a, e ≠ .illegalMemoryBlock a) ∧ r = k'.refuse e) ∨ ∃ a k', Owned k' ∧ r = k'.done a

theorem Conserves.map {α β : Type} {r : Reply α} (h : k.Conserves r) (f : α → β) : k.Conserves (r.map f) := by
  obtain ⟨e, k', hk', he, rfl⟩ | ⟨a, k', hk', rfl⟩ := h
  · exact Or.inl ⟨e, k', hk', he, rfl⟩
  · exact Or.inr ⟨f a, k', hk', rfl⟩

theorem conserves_refuse (k : Kernel) (he : ∀ a, e ≠ .illegalMemoryBlock a) : k.Conserves (k.refuse e : Reply α) :=
  Or.inl ⟨e, k, .refl k, he, rfl⟩

/-! ### Calls that create a holder -/

/-- A block is allocated, and an object that holds it registered. -/
theorem conserves_allocate (h : k.Owned) (hfresh : k.objects.get? k.nextId = none) {kind : ObjectKind}
    (note : Kernel → Block → Event)
    (hold : Kernel → Block → Object) (answer : Kernel → α) (hid : ∀ k b, (hold k b).id = k.nextId)
    (hblocks : ∀ home k b m, (hold k b).blocksIn home m = if n = m then [b] else [])
    (hkind : ∀ k b, (hold k b).kind = kind) (hne : kind ≠ .thread) (hcalm : ∀ k b, (note k b).isQuiet = true) :
    k.Conserves ((k.allocateBlock n name placement alignment size).andThen fun b k =>
      ((k.note (note k b)).registerNew (hold k b)).done (answer k)) := by
  have hs := sameObjects_allocateBlock k n name placement alignment size
  obtain ⟨e, k₁, hk₁, he, heq⟩ | ⟨p, b, p', k₁, hp, ha, hk₁, heq⟩ := allocateBlock_cases k n name placement
    alignment size <;> rw [heq] at hs ⊢
  · exact Or.inl ⟨e, k₁, hk₁, he, rfl⟩
  · rw [kernel_done] at hs
    have hall : Allotted { k₁ with partitions := k.partitions.insert n p' } (withBlocks n [b] k.heldIn) :=
      h.allotted.allocate hp ha rfl
    rw [done_andThen]
    generalize ({ k₁ with partitions := k.partitions.insert n p' } : Kernel) = k₂ at hs hall ⊢
    refine Or.inr ⟨_, _, ?_, rfl⟩
    refine h.registerNew (n := n) [b] ?_ (hs.trans (Quiet.note k₂ (hcalm k₂ b)).toSameObjects)
      (hall.congr rfl fun m => .refl _) (fun m => hblocks _ k₂ b m) fun t ht =>
        absurd ((hkind k₂ b).symm.trans (congrArg Object.kind ht)) hne
    rw [hid, hs.nextId]
    exact hfresh

theorem conserves_createPipe (h : k.Owned) (hfresh : k.objects.get? k.nextId = none) :
    k.Conserves (k.createPipe name partition attributes size) := by
  unfold createPipe
  split
  · exact conserves_refuse k nofun
  · exact conserves_allocate h hfresh (fun k b => .pipeCreated name k.nextId partition b)
      (fun k b => .messagePipe { id := k.nextId, name, attributes, partition, block := b }) nextId (fun _ _ => rfl)
      (fun _ _ _ _ => rfl) (fun _ _ => rfl) (by decide) fun _ _ => rfl

theorem conserves_allocateMemory (h : k.Owned) (hfresh : k.objects.get? k.nextId = none) (partition : PartitionId)
    (name : String) (kind size address : UInt32) :
    k.Conserves (k.allocateMemory partition name kind size address) := by
  unfold allocateMemory
  cases hp : placementOf kind address with
  | error e =>
    refine conserves_refuse k fun a he => ?_
    subst he
    unfold placementOf at hp
    split_ifs at hp
    cases hp
  | ok placement =>
    dsimp only
    split
    · exact conserves_refuse k nofun
    · exact conserves_allocate h hfresh (fun k b => .guestBlockAllocated partition k.nextId b)
        (fun k b => .partitionMemory { id := k.nextId, partition, block := b }) nextId (fun _ _ => rfl)
        (fun _ _ _ _ => rfl) (fun _ _ => rfl) (by decide) fun _ _ => rfl

/-- A new thread holds its stack, and the block for thread-local data if it has one. -/
theorem conserves_createThread (h : k.Owned) (hfresh : k.objects.get? k.nextId = none) :
    k.Conserves (k.createThread name entry priority wantedStack attributes) := by
  unfold createThread
  cases hp : checkPriority priority with
  | error e =>
    refine conserves_refuse k fun a he => ?_
    subst he
    unfold checkPriority at hp
    split at hp <;> cases hp
  | ok _ =>
    dsimp only
    cases hsize : k.stackSize wantedStack with
    | error e =>
      refine conserves_refuse k fun a he => ?_
      subst he
      unfold stackSize at hsize
      split_ifs at hsize <;> cases hsize
    | ok size =>
      dsimp only
      have hs := sameObjects_allocateStack k name size
      obtain ⟨e, k₁, hk₁, he, heq⟩ | ⟨stack, tls, k₁, heq, hall⟩ := allocateStack_cases h.allotted.sound name size <;>
        rw [heq] at hs ⊢
      · exact Or.inl ⟨e, k₁, hk₁, he, rfl⟩
      · rw [kernel_done] at hs
        have hall₁ := hall _ h.allotted
        rw [done_andThen]
        dsimp only
        have hfill : k₁.Quiet (if Thread.keepsStack attributes then k₁ else k₁.fillStack name stack) := by
          split
          · exact .refl k₁
          · exact .fillStack k₁ name stack
        generalize (if Thread.keepsStack attributes then k₁ else k₁.fillStack name stack) = k₂ at hfill ⊢
        refine Or.inr ⟨_, _, ?_, rfl⟩
        refine h.registerNew (n := k.config.threadPartition) (stack :: tls.toList) ?_
          (hs.trans (hfill.toSameObjects.trans (Quiet.note k₂ rfl).toSameObjects))
          (hall₁.congr hfill.partitions fun m => .refl _) (fun m => rfl) ?_
        · show k.objects.get? k₂.nextId = none
          rw [hfill.nextId, hs.nextId]
          exact hfresh
        · rintro t ⟨⟩
          exact List.cons_ne_nil _ _

/-! ### Calls that delete a holder -/

/-- An object that holds nothing is unregistered. -/
theorem Allotted.erase (h : k.Allotted k.heldIn) (ho : k.objects.get? o.id = some o)
    (hnil : ∀ m, o.blocksIn k.config.threadPartition m = []) :
    ({ k with objects := k.objects.erase o.id } : Kernel).Allotted
      ({ k with objects := k.objects.erase o.id } : Kernel).heldIn := by
  refine h.congr rfl fun m => ?_
  have hperm := heldIn_perm_erase ho m
  rw [hnil, List.nil_append] at hperm
  exact hperm.symm

/-- A block goes back to its partition, and its holder is unregistered. -/
theorem conserves_release (h : k.Owned) (ho : k.objects.get? o.id = some o)
    (hblocks : ∀ home m, o.blocksIn home m = if n = m then [b] else []) :
    k.Conserves ((k.freeBlock n b).andThen fun _ k => k.unregister o.kind o.id) := by
  have hall : k.Allotted (withBlocks n [b] ({ k with objects := k.objects.erase o.id } : Kernel).heldIn) := by
    refine h.allotted.congr rfl fun m => ?_
    have hperm := heldIn_perm_erase ho m
    rw [hblocks] at hperm
    exact hperm.symm
  have hs := sameObjects_freeBlock k n b
  obtain ⟨k₁, hfree, hall₁⟩ := hall.free
  rw [hfree] at hs ⊢
  rw [kernel_done] at hs
  rw [done_andThen]
  have hfind : k₁.objects.find? o.kind o.id = some o := by
    rw [hs.objects]
    exact ObjectTable.find?_eq_some.mpr ⟨ho, rfl⟩
  unfold unregister
  rw [hfind]
  refine Or.inr ⟨(), _, ⟨?_, fun id t ht => ?_⟩, rfl⟩
  · refine hall₁.congr rfl fun m => ?_
    unfold heldIn
    rw [← hs.objects, ← hs.config]
    exact .refl _
  · have hget : (k₁.objects.erase o.id).get? id = some (.thread t) := ObjectTable.thread?_eq_some.mp ht
    rw [ObjectTable.get?_erase, hs.objects] at hget
    split at hget
    · cases hget
    · exact h.threads id t (ObjectTable.thread?_eq_some.mpr hget)

/-- A deleted pipe frees its buffer. -/
theorem conserves_deletePipe (h : k.Owned) : k.Conserves (k.deletePipe id) := by
  unfold deletePipe
  split
  · exact conserves_refuse k nofun
  · next p hp =>
    obtain ⟨rfl, hget⟩ := ObjectTable.keyed_messagePipe? hp
    split
    · exact conserves_refuse k nofun
    · exact conserves_release h (o := .messagePipe p) hget fun _ _ => rfl

/-- Freed memory is that of the block under the id. -/
theorem conserves_freeMemory (h : k.Owned) : k.Conserves (k.freeMemory id) := by
  unfold freeMemory
  split
  · exact conserves_refuse k nofun
  · next b hb =>
    have hget := ObjectTable.partitionMemory?_eq_some.mp hb
    have hid : b.id = id := ObjectTable.id_of_get? hget
    subst hid
    exact conserves_release h (o := .partitionMemory b) hget fun _ _ => rfl

/-- The blocks of a thread, and what is held once it holds nothing. -/
theorem heldIn_perm_strip (ht : k.thread? t.id = some t) (m : PartitionId) :
    (k.heldIn m).Perm (withBlocks k.config.threadPartition t.blocks (k.putThread t.strip).heldIn m) := by
  have hold := heldIn_perm_erase (o := .thread t) (ObjectTable.thread?_eq_some.mp ht) m
  have hput : (k.putThread t.strip).objects.get? t.id = some (.thread t.strip) :=
    (ObjectTable.get?_put ..).trans (if_pos rfl)
  have hnew := heldIn_perm_erase (k := k.putThread t.strip) (o := .thread t.strip) hput m
  have hnil : (Object.thread t.strip).blocksIn (k.putThread t.strip).config.threadPartition m = [] := by
    simp only [Object.blocksIn]
    split <;> rfl
  have herase : (k.putThread t.strip).objects.erase t.id = k.objects.erase t.id := by
    refine ObjectTable.ext_get? (fun id => ?_) rfl
    rw [ObjectTable.get?_erase, ObjectTable.get?_erase]
    split
    · rfl
    · next hne => exact (ObjectTable.get?_put ..).trans (if_neg hne)
  have hlast : ({ k.putThread t.strip with objects := (k.putThread t.strip).objects.erase t.id } : Kernel).heldIn m =
      ({ k with objects := k.objects.erase t.id } : Kernel).heldIn m := by
    unfold heldIn
    rw [herase]
    rfl
  rw [hnil, List.nil_append] at hnew
  exact hold.trans ((hlast ▸ hnew).symm.append_left _)

/-- **A registered thread can be deleted**, and takes its blocks with it. -/
theorem reclaim_eq_done (h : k.Owned) (ht : k.thread? t.id = some t) :
    ∃ k' : Kernel, k'.Owned ∧ k.reclaim t = k'.done () := by
  have hclear := Quiet.clearStack (k.putThread t.strip) t
  unfold reclaim
  generalize (k.putThread t.strip).clearStack t = k₁ at hclear ⊢
  have hall : k₁.Allotted (withBlocks k₁.config.threadPartition t.blocks (k.putThread t.strip).heldIn) := by
    rw [hclear.config]
    exact h.allotted.congr hclear.partitions fun m => (heldIn_perm_strip ht m).symm
  have hsome : ¬ (k₁.partitions[k₁.config.threadPartition]?).isNone = true := by
    intro hnone
    have hnil := hall.absent _ (Option.isNone_iff_eq_none.mp hnone)
    rw [withBlocks_self] at hnil
    exact h.threads t.id t ht (List.append_eq_nil_iff.mp hnil).1
  dsimp only
  rw [if_neg hsome]
  have hs := sameObjects_freeBlocks k₁ k₁.config.threadPartition t.blocks
  obtain ⟨k₂, hfree, hall₂⟩ := hall.freeAll
  rw [hfree, kernel_done] at hs
  rw [show t.stack.toList ++ t.localStorage.toList = t.blocks from rfl, hfree, done_andThen]
  -- From here on nobody's blocks change: the context is given back, and the callbacks are unregistered.
  generalize hk₃ : t.callbacks.foldl removeCallback _ = k₃
  have hrest : SameTenure k₂ k₃ := by
    rw [← hk₃]
    refine SameTenure.trans ?_ (Moves.removeCallbacks (A := Label.IsRoutine) (fun _ hl => hl.isRoutine)
      (fun _ hl => hl.revises.isRoutine) t.callbacks).sameTenure
    split <;> exact .of_objects rfl rfl rfl
  have hthread : ∀ x, k₃.thread? x = (k.putThread t.strip).thread? x := by
    intro x
    rw [← hk₃, thread?_removeCallbacks]
    refine Eq.trans ?_ ((hs.thread? x).trans (hclear.thread? x))
    split <;> rfl
  have hget : k₃.thread? t.id = some t.strip := (hthread t.id).trans (thread?_putThread_self t.strip)
  have hun : k₃.unregister .thread t.id = _ := unregister_thread (t := t.strip) hget
  rw [hun, done_andThen]
  refine ⟨_, ⟨?_, fun id t' ht' => ?_⟩, rfl⟩
  · have hheld : k₂.heldIn = (k.putThread t.strip).heldIn := by
      unfold heldIn
      rw [hs.objects, hs.config, hclear.objects, hclear.config]
    have hall₃ : k₃.Allotted k₃.heldIn := (hheld ▸ hall₂).congr hrest.partitions hrest.heldIn_perm
    refine (hall₃.erase (o := .thread t.strip) (ObjectTable.thread?_eq_some.mp hget) fun m => ?_).congr rfl
      fun _ => .refl _
    simp only [Object.blocksIn]
    split <;> rfl
  · have hget' : (k₃.objects.erase t.id).thread? id = some t' := ht'
    rw [ObjectTable.thread?_erase] at hget'
    split at hget'
    · cases hget'
    · next hne =>
      refine h.threads id t' ?_
      rw [← thread?_putThread_of_ne t.strip (Ne.symm hne), ← hthread]
      exact hget'

/-- Deleting a thread that is registered succeeds, and frees its stack. -/
theorem deleteThread_eq_done (h : k.Owned) (ht : k.thread? t.id = some t) :
    ∃ k' : Kernel, k'.Owned ∧ k.deleteThread t.id = k'.done () := by
  have hexit : SameTenure k (k.exit t 0) :=
    (Moves.exit (A := Label.IsRoutine) (fun _ hl => hl.isRoutine) (fun _ => trivial) ht 0).sameTenure
  obtain ⟨t', ht', -⟩ := thread?_exit ht 0
  unfold deleteThread
  rw [ht]
  dsimp only
  rw [ht']
  exact reclaim_eq_done (h.sameTenure hexit) (thread?_id ht')

/-- A deleted thread frees its stack. -/
theorem conserves_deleteThread (h : k.Owned) : k.Conserves (k.deleteThread id) := by
  cases ht : k.thread? id with
  | none =>
    unfold deleteThread
    rw [ht]
    exact conserves_refuse k nofun
  | some t =>
    have hid := id_of_thread? ht
    subst hid
    obtain ⟨k', hk', heq⟩ := deleteThread_eq_done h ht
    exact Or.inr ⟨(), k', hk', heq⟩

theorem conserves_deleteDormant (h : k.Owned) : k.Conserves (k.deleteDormant id) := by
  unfold deleteDormant
  split
  · exact conserves_refuse k nofun
  · split
    · exact conserves_refuse k nofun
    · split
      · exact conserves_deleteThread h
      · exact conserves_refuse k nofun

/-- A thread is ended, which cannot fail, and deleted, which then cannot fail either. -/
theorem conserves_exitThenDelete (h : k.Owned) (ht : k.thread? t.id = some t) :
    k.Conserves ((k.exit t exitCode).deleteThread t.id) := by
  have hexit : SameTenure k (k.exit t exitCode) :=
    (Moves.exit (A := Label.IsRoutine) (fun _ hl => hl.isRoutine) (fun _ => trivial) ht exitCode).sameTenure
  obtain ⟨t', ht', -⟩ := thread?_exit ht exitCode
  have hid := id_of_thread? ht'
  obtain ⟨k', hk', heq⟩ := deleteThread_eq_done (h.sameTenure hexit) (thread?_id ht')
  exact Or.inr ⟨(), k', hk', hid ▸ heq⟩

/-- A thread that deletes itself ends first, and cannot fail then. -/
theorem conserves_exitDelete (h : k.Owned) :
    k.Conserves ((k.exitCurrent exitCode).andThen fun id k => k.deleteThread id) := by
  unfold exitCurrent
  split
  · exact conserves_refuse k nofun
  · next id _ =>
    unfold exitThread
    split
    · exact conserves_refuse k nofun
    · next t ht =>
      have hid := id_of_thread? ht
      subst hid
      exact conserves_exitThenDelete h ht

/-- A thread is terminated first, and deleting it cannot fail then. -/
theorem conserves_terminateDelete (h : k.Owned) :
    k.Conserves ((k.onOther id terminateThread).andThen fun _ k => k.deleteThread id) := by
  unfold onOther
  split
  · exact conserves_refuse k nofun
  · unfold terminateThread
    split
    · exact conserves_refuse k nofun
    · split
      · exact conserves_refuse k nofun
      · next t ht =>
        have hid := id_of_thread? ht
        subst hid
        split
        · exact conserves_refuse k nofun
        · exact conserves_exitThenDelete h ht

/-! ### Operations and runs -/

/-- A call that allocates or frees does so for an object. -/
theorem conserves_perform {call : Syscall} (h : k.Owned) (hfresh : k.objects.get? k.nextId = none)
    (hcall : call.reserves = true) : k.Conserves (k.perform call) := by
  cases call with
  | createThread name entry priority stackSize attributes =>
    exact (conserves_createThread h hfresh).map _
  | deleteThread id => exact (conserves_deleteDormant h).map _
  | exitDeleteThread exitCode => exact (conserves_exitDelete h).map _
  | terminateDeleteThread id => exact (conserves_terminateDelete h).map _
  | createPipe name partition attributes size =>
    exact (conserves_createPipe h hfresh).map _
  | deletePipe id => exact (conserves_deletePipe h).map _
  | allocateMemory partition name kind size address =>
    exact (conserves_allocateMemory h hfresh partition name kind size address).map _
  | freeMemory id => exact (conserves_freeMemory h).map _
  | _ => cases hcall

theorem Conserves.owned {r : Reply α} (hr : k.Conserves r) (h : k.Owned) : r.kernel.Owned := by
  obtain ⟨e, k', hk', -, rfl⟩ | ⟨a, k', hk', rfl⟩ := hr
  · exact h.sameTenure hk'.sameTenure
  · exact hk'

/-- **What every operation preserves: each block has one holder.** -/
theorem Owned.after {o : Operation} (h : k.Owned) (hc : k.Coherent ∧ k.IdsBelow) (hn : k.started.Nodup)
    (hbound : k.SparesLastId o) : (k.after o).Owned := by
  cases ho : o.reserves with
  | false => exact h.sameTenure (sameTenure_after hc hn hbound ho)
  | true =>
    cases o with
    | syscall call => exact (conserves_perform h hc.2.fresh ho).owned h
    | deleteThread id => exact (conserves_deleteThread h).owned h
    | _ => cases ho

/-- Configured partitions have no blocks, and lie below `2 ^ 32` if the configuration says so. -/
theorem partitions_new (hconfig : ∀ c ∈ config.partitions, c.base.toNat + c.size.toNat < 2 ^ 32)
    (memory : Memory) (n : PartitionId) (p : Partition) (hp : (Kernel.new config memory).partitions[n]? = some p) :
    p.Sound ∧ p.blocks = [] := by
  have hfold : ∀ (cs : List PartitionConfig) (k : Kernel), (∀ c ∈ cs, c.base.toNat + c.size.toNat < 2 ^ 32) →
      (∀ (n : PartitionId) (p : Partition), k.partitions[n]? = some p → p.Sound ∧ p.blocks = []) →
      ∀ (n : PartitionId) (p : Partition), (cs.foldl addPartition k).partitions[n]? = some p →
        p.Sound ∧ p.blocks = [] := by
    intro cs
    induction cs with
    | nil => exact fun k _ hk => hk
    | cons c rest ih =>
      intro k hcs hk
      refine ih (k.addPartition c) (fun c' hc' => hcs c' (List.mem_cons_of_mem c hc')) fun n p hp => ?_
      have hget : (k.partitions.insert c.id { id := c.id, name := c.name, base := c.base, size := c.size })[n]? =
          some p := hp
      rw [Std.ExtTreeMap.getElem?_insert] at hget
      split at hget
      · cases hget
        exact ⟨⟨hcs c (List.mem_cons_self ..), nofun, .nil⟩, rfl⟩
      · exact hk n p hget
  refine hfold config.partitions { config, memory } hconfig (fun n p hp => ?_) n p hp
  simp at hp

/-- In a new kernel nothing is allocated. -/
theorem owned_new (hconfig : ∀ c ∈ config.partitions, c.base.toNat + c.size.toNat < 2 ^ 32)
    (memory : Memory) : (Kernel.new config memory).Owned := by
  have hnil : (Kernel.new config memory).objects.toList = [] := by
    refine List.eq_nil_iff_forall_not_mem.mpr fun o ho => ?_
    have hget := ObjectTable.mem_toList.mp ho
    rw [get?_new] at hget
    cases hget
  have hheld : ∀ n, (Kernel.new config memory).heldIn n = [] := by
    intro n
    unfold heldIn
    rw [hnil]
    rfl
  refine ⟨⟨fun n p hp => (partitions_new hconfig memory n p hp).1, fun n p hp => ?_, fun n _ => hheld n⟩,
    fun id t ht => ?_⟩
  · rw [(partitions_new hconfig memory n p hp).2, hheld]
  · rw [thread?_new] at ht
    cases ht

/-- What holds along every run of a kernel with sound partitions. -/
theorem reachable_owned {memory : Memory} {operations : List Operation}
    (hconfig : ∀ c ∈ config.partitions, c.base.toNat + c.size.toNat < 2 ^ 32)
    (hids : (Kernel.new config memory).handedOut operations < 2 ^ 32 - 1) :
    (((Kernel.new config memory).run operations).Coherent ∧ ((Kernel.new config memory).run operations).IdsBelow) ∧
      ((Kernel.new config memory).run operations).Owned :=
  reachable_keeps hids (owned_new hconfig memory) fun _ _ hc hn hbound ho => ho.after hc hn hbound

theorem Allotted.apart (h : k.Allotted books) (hp : k.partitions[n]? = some p) : (books n).Pairwise Block.Apart := by
  refine ((h.blocks n p hp).pairwise_iff fun hbc => Std.Symm.symm _ _ hbc).mp ?_
  exact (h.sound n p hp).ascending.imp Or.inl

theorem Conserves.error {r : Reply α} (h : k.Conserves r) (he : r.result = .error e) :
    Noted k r.kernel ∧ ∀ a, e ≠ .illegalMemoryBlock a := by
  obtain ⟨e', k', hk', hne, rfl⟩ | ⟨a, k', hk', rfl⟩ := h
  · cases he
    exact ⟨hk', hne⟩
  · cases he

/-- **Partition memory is owned exactly once.** In every kernel that operations lead to, the blocks allocated in a
partition are those that objects hold in it, one for one, and no two of them overlap; nobody holds a block of a partition
that there is not. A call that creates or deletes a holder and fails has changed nothing but the journal, so that no
block is lost, and a deletion never meets a block that its partition does not own. -/
theorem owned_run (config : KernelConfig) (memory : Memory) (operations : List Operation)
    (hconfig : ∀ c ∈ config.partitions, c.base.toNat + c.size.toNat < 2 ^ 32)
    (hids : (Kernel.new config memory).handedOut operations < 2 ^ 32 - 1) :
    let k := (Kernel.new config memory).run operations
    (∀ (n : PartitionId) (p : Partition), k.partitions[n]? = some p →
      p.blocks.Perm (k.heldIn n) ∧ (k.heldIn n).Pairwise Block.Apart ∧
        ∀ b ∈ k.heldIn n, p.base.toNat ≤ b.address.toNat ∧ 0 < b.size.toNat ∧ b.stop ≤ p.stop) ∧
    (∀ n : PartitionId, k.partitions[n]? = none → k.heldIn n = []) ∧
    (∀ call e, call.reserves = true → (k.perform call).result = .error e →
      Noted k (k.perform call).kernel ∧ ∀ a, e ≠ .illegalMemoryBlock a) ∧
    ∀ id e, (k.deleteThread id).result = .error e →
      Noted k (k.deleteThread id).kernel ∧ ∀ a, e ≠ .illegalMemoryBlock a := by
  obtain ⟨⟨-, hbelow⟩, howned⟩ := reachable_owned hconfig hids
  intro k
  refine ⟨fun n p hp => ⟨?_, ?_, fun b hb => ?_⟩, howned.allotted.absent, fun call e hcall he => ?_, fun id e he => ?_⟩
  · exact howned.allotted.blocks n p hp
  · exact howned.allotted.apart hp
  · exact (howned.allotted.sound n p hp).inside b ((howned.allotted.blocks n p hp).mem_iff.mpr hb)
  · exact (conserves_perform howned hbelow.fresh hcall).error he
  · exact (conserves_deleteThread howned).error he

/-- Two threads, a pipe and a block of the guest in one partition, and the first thread goes. -/
def sharedPartition : List Operation :=
  [.syscall (.createThread "main" 0x08900000 32 0x1000 0), .syscall (.createThread "aide" 0x08900000 32 0x800 0),
    .syscall (.createPipe "feed" 2 0 0x180), .syscall (.allocateMemory 2 "heap" 1 0x300 0), .syscall (.deleteThread 1)]

/-- The partition holds what is left, block by block, and a request for more than there is takes nothing. -/
theorem owned_run_sharedPartition :
    (∀ c ∈ ({} : KernelConfig).partitions, c.base.toNat + c.size.toNat < 2 ^ 32) ∧
      (Kernel.new {} {}).handedOut sharedPartition < 2 ^ 32 - 1 ∧
      (((Kernel.new {} {}).run sharedPartition).heldIn 2).map (·.name) =
        ["stack:aide", "tls:aide", "pipe:feed", "heap"] ∧
      (∃ p, ((Kernel.new {} {}).run sharedPartition).partitions[(2 : PartitionId)]? = some p ∧
        p.blocks.Perm (((Kernel.new {} {}).run sharedPartition).heldIn 2)) ∧
      (((Kernel.new {} {}).run sharedPartition).heldIn 2).Pairwise Block.Apart ∧
      (((Kernel.new {} {}).run sharedPartition).perform (.allocateMemory 2 "more" 0 0x2000000 0)).result =
        .error .outOfMemory ∧
      Noted ((Kernel.new {} {}).run sharedPartition)
        (((Kernel.new {} {}).run sharedPartition).perform (.allocateMemory 2 "more" 0 0x2000000 0)).kernel := by
  have hconfig : ∀ c ∈ ({} : KernelConfig).partitions, c.base.toNat + c.size.toNat < 2 ^ 32 := by decide
  have hids : (Kernel.new {} {}).handedOut sharedPartition < 2 ^ 32 - 1 := handedOut_lt (by decide)
  have hsome : (((Kernel.new {} {}).run sharedPartition).partitions[(2 : PartitionId)]?).isSome = true := by
    decide +kernel
  have hfull : (((Kernel.new {} {}).run sharedPartition).perform (.allocateMemory 2 "more" 0 0x2000000 0)).result =
      .error .outOfMemory := by
    decide +kernel
  obtain ⟨p, hp⟩ := Option.isSome_iff_exists.mp hsome
  obtain ⟨hblocks, -, hfails, -⟩ := owned_run {} {} sharedPartition hconfig hids
  obtain ⟨hperm, hapart, -⟩ := hblocks 2 p hp
  exact ⟨hconfig, hids, by decide +kernel, ⟨p, hp, hperm⟩, hapart, hfull, (hfails _ _ rfl hfull).1⟩

end Kernel
end GuestKernel
