/-
# What objects hold of a partition

Threads hold their stacks and thread-local blocks, which lie in one configured partition; a pipe holds its buffer and a
guest block itself, each in a partition of its own. `heldIn` lists the blocks of a partition that objects hold, one entry
per holding, so that a block held twice stands in it twice.

Operations that neither create nor delete a holder leave everything where it is: the same objects hold the same blocks,
and the partitions are the same (`Moves.sameTenure`, `sameTenure_after`).

Source: specification, 3.
-/

import GuestKernel.Proofs.Coherence

namespace GuestKernel

/-! ### The objects of a table as a list -/

namespace ObjectTable

variable {t t' : ObjectTable} {o : Object}

/-- The listed objects are those that are found. -/
theorem mem_toList : o ∈ t.toList ↔ t.get? o.id = some o := by
  simp only [toList, List.mem_map, Prod.exists, exists_eq_right]
  constructor
  · rintro ⟨id, h⟩
    have hget := Std.ExtTreeMap.mem_toList_iff_getElem?_eq_some.mp h
    have hid : o.id = id := t.keyed id o hget
    exact hid ▸ hget
  · intro h
    exact ⟨o.id, Std.ExtTreeMap.mem_toList_iff_getElem?_eq_some.mpr h⟩

/-- No two objects of a table have the same id. -/
theorem pairwise_toList : t.toList.Pairwise fun o o' => o.id ≠ o'.id := by
  unfold toList
  rw [List.pairwise_map]
  refine t.entries.distinct_keys_toList.imp_of_mem fun {a b} ha hb hne => ?_
  have hid : ∀ x ∈ t.entries.toList, x.2.id = x.1 := fun x hx =>
    t.keyed x.1 x.2 (Std.ExtTreeMap.mem_toList_iff_getElem?_eq_some.mp hx)
  rw [hid a ha, hid b hb]
  exact fun heq => hne (by rw [heq]; exact Std.ReflCmp.compare_self)

theorem nodup_toList : t.toList.Nodup :=
  pairwise_toList.imp fun hne heq => hne (congrArg Object.id heq)

/-- A new object joins those there are. -/
theorem toList_put_perm (h : t.get? o.id = none) : (t.put o).toList.Perm (o :: t.toList) := by
  have hnot : o ∉ t.toList := fun hmem => by rw [mem_toList.mp hmem] at h; cases h
  refine (List.perm_ext_iff_of_nodup nodup_toList (List.nodup_cons.mpr ⟨hnot, nodup_toList⟩)).mpr fun o' => ?_
  rw [mem_toList, get?_put, List.mem_cons, mem_toList]
  by_cases hid : o.id = o'.id
  · rw [if_pos hid, Option.some.injEq]
    constructor
    · intro heq
      exact Or.inl heq.symm
    · rintro (rfl | hget)
      · rfl
      · rw [← hid, h] at hget
        cases hget
  · rw [if_neg hid]
    constructor
    · exact Or.inr
    · rintro (rfl | hget)
      · exact absurd rfl hid
      · exact hget

/-- An object leaves, and the rest stays. -/
theorem toList_erase_perm (h : t.get? o.id = some o) : t.toList.Perm (o :: (t.erase o.id).toList) := by
  have hput : (t.erase o.id).put o = t := by
    refine ext_get? (fun id => ?_) rfl
    rw [get?_put, get?_erase]
    split
    · next hid => rw [← hid, h]
    · rfl
  have hperm := toList_put_perm (t := t.erase o.id) (o := o) (by simp)
  rwa [hput] at hperm

variable {β : Type} {f : Object → List β}

/-- What the object under an id contributes to a list. -/
def share (t : ObjectTable) (f : Object → List β) (id : ObjectId) : List β :=
  match t.get? id with
  | some o => f o
  | none => []

/-- The ids that contribute something, and what. -/
def contributions (t : ObjectTable) (f : Object → List β) : List (ObjectId × List β) :=
  (t.toList.filter fun o => !(f o).isEmpty).map fun o => (o.id, f o)

theorem flatMap_contributions : (t.contributions f).flatMap Prod.snd = t.toList.flatMap f := by
  unfold contributions
  induction t.toList with
  | nil => rfl
  | cons o rest ih => by_cases ho : f o = [] <;> simp [ho, ih]

theorem nodup_contributions : (t.contributions f).Nodup := by
  refine List.pairwise_map.mpr ((pairwise_toList.filter _).imp fun hne heq => hne ?_)
  exact congrArg Prod.fst heq

/-- Whoever contributes anything is listed with its share. -/
theorem mem_contributions {id : ObjectId} {l : List β} :
    (id, l) ∈ t.contributions f ↔ l ≠ [] ∧ t.share f id = l := by
  have hin : (id, l) ∈ t.contributions f ↔ ∃ o, (o ∈ t.toList ∧ f o ≠ []) ∧ o.id = id ∧ f o = l := by
    simp [contributions]
  rw [hin]
  unfold share
  constructor
  · rintro ⟨o, ⟨ho, hf⟩, rfl, rfl⟩
    rw [mem_toList.mp ho]
    exact ⟨hf, rfl⟩
  · rintro ⟨hl, hshare⟩
    split at hshare
    · next o ho =>
      have hid := id_of_get? ho
      subst hid
      exact ⟨o, ⟨mem_toList.mpr ho, hshare ▸ hl⟩, rfl, hshare⟩
    · exact absurd hshare.symm hl

/-- A list that is collected from objects depends on what each id contributes and on nothing else. -/
theorem flatMap_toList_perm (h : ∀ id, t'.share f id = t.share f id) :
    (t'.toList.flatMap f).Perm (t.toList.flatMap f) := by
  rw [← flatMap_contributions, ← flatMap_contributions]
  refine List.Perm.flatMap_right _
    ((List.perm_ext_iff_of_nodup nodup_contributions nodup_contributions).mpr fun ⟨id, l⟩ => ?_)
  rw [mem_contributions, mem_contributions, h]

theorem share_put (id : ObjectId) : (t.put o).share f id = if o.id = id then f o else t.share f id := by
  unfold share
  rw [get?_put]
  by_cases hid : o.id = id
  · rw [if_pos hid, if_pos hid]
  · rw [if_neg hid, if_neg hid]

theorem share_erase (id id' : ObjectId) : (t.erase id).share f id' = if id = id' then [] else t.share f id' := by
  unfold share
  rw [get?_erase]
  by_cases hid : id = id'
  · rw [if_pos hid, if_pos hid]
  · rw [if_neg hid, if_neg hid]

theorem share_of_get? (h : t.get? o.id = some o) : t.share f o.id = f o := by
  unfold share
  rw [h]

end ObjectTable

/-! ### Holdings -/

/-- Whether objects of the kind hold blocks of partitions. -/
def ObjectKind.holdsBlocks : ObjectKind → Bool
  | thread | messagePipe | partitionMemory => true
  | _ => false

namespace Object

variable {o o' : Object} {home n : PartitionId}

/-- The blocks of partition `n` that an object holds; stacks lie in partition `home`. -/
def blocksIn (home n : PartitionId) : Object → List Block
  | thread t => if home = n then t.blocks else []
  | messagePipe p => if p.partition = n then [p.block] else []
  | partitionMemory b => if b.partition = n then [b.block] else []
  | _ => []

theorem blocksIn_eq_nil (h : o.kind.holdsBlocks = false) : o.blocksIn home n = [] := by
  cases o <;> first | rfl | cases h

theorem Change.blocksIn_eq {off : List ThreadId} (h : o.Change o' off) : o'.blocksIn home n = o.blocksIn home n := by
  cases h with
  | settle h =>
    rw [h.frame]
    rfl
  | _ => rfl

theorem Enqueues.blocksIn_eq {id : ThreadId} {priority : UInt32} {w : Wait} (h : o.Enqueues id priority w o') :
    o'.blocksIn home n = o.blocksIn home n := by
  cases h <;> rfl

theorem blocksIn_removeWaiter (o : Object) (id : ThreadId) :
    (o.removeWaiter id).blocksIn home n = o.blocksIn home n := by
  cases o with
  | messagePipe p =>
    simp only [removeWaiter]
    split <;> rfl
  | _ => rfl

end Object

namespace Kernel

variable {k k' : Kernel} {t : Thread} {k₁ k₂ k₃ : Kernel} {o : Object}

/-- The blocks of a partition that objects hold, by ascending id of the holder. -/
def heldIn (k : Kernel) (n : PartitionId) : List Block :=
  k.objects.toList.flatMap (·.blocksIn k.config.threadPartition n)

/-- The same objects hold the same blocks. -/
structure SameHolders (k k' : Kernel) : Prop where
  config : k'.config = k.config
  held : ∀ home n id, k'.objects.share (·.blocksIn home n) id = k.objects.share (·.blocksIn home n) id
  threads : ∀ id t', k'.thread? id = some t' → ∃ t, k.thread? id = some t ∧ t'.blocks = t.blocks

/-- The same objects hold the same blocks, and the partitions are the same. -/
structure SameTenure (k k' : Kernel) : Prop extends SameHolders k k' where
  partitions : k'.partitions = k.partitions

theorem SameHolders.heldIn_perm (h : SameHolders k k') (n : PartitionId) : (k'.heldIn n).Perm (k.heldIn n) := by
  unfold heldIn
  rw [h.config]
  exact ObjectTable.flatMap_toList_perm fun id => h.held _ n id

theorem SameHolders.of_objects (h : k'.objects = k.objects) (hc : k'.config = k.config) : SameHolders k k' where
  config := hc
  held home n id := by rw [h]
  threads id t' ht' := ⟨t', by rwa [thread?, ← h], rfl⟩

theorem SameHolders.trans (h : SameHolders k₁ k₂) (h' : SameHolders k₂ k₃) : SameHolders k₁ k₃ where
  config := h'.config.trans h.config
  held home n id := (h'.held home n id).trans (h.held home n id)
  threads id t₃ ht₃ := by
    obtain ⟨t₂, ht₂, hb₂⟩ := h'.threads id t₃ ht₃
    obtain ⟨t₁, ht₁, hb₁⟩ := h.threads id t₂ ht₂
    exact ⟨t₁, ht₁, hb₂.trans hb₁⟩

theorem SameTenure.of_objects (h : k'.objects = k.objects) (hc : k'.config = k.config)
    (hp : k'.partitions = k.partitions) : SameTenure k k' where
  toSameHolders := .of_objects h hc
  partitions := hp

theorem SameTenure.trans (h : SameTenure k₁ k₂) (h' : SameTenure k₂ k₃) : SameTenure k₁ k₃ where
  toSameHolders := h.toSameHolders.trans h'.toSameHolders
  partitions := h'.partitions.trans h.partitions

theorem OnlyThreads.sameTenure (h : OnlyThreads k k') : SameTenure k k' where
  config := h.config
  partitions := h.partitions
  held home n id := by
    unfold ObjectTable.share
    obtain heq | ⟨t, t', ht, ht', hb⟩ := h.objects id
    · rw [heq]
    · rw [ht, ht']
      simp only [Object.blocksIn, hb]
  threads id t' ht' := by
    have hget := ObjectTable.thread?_eq_some.mp ht'
    obtain heq | ⟨t, u, ht, hu, hb⟩ := h.objects id
    · exact ⟨t', ObjectTable.thread?_eq_some.mpr (heq ▸ hget), rfl⟩
    · rw [hget, Option.some.injEq, Object.thread.injEq] at hu
      exact ⟨t, ObjectTable.thread?_eq_some.mpr ht, hu ▸ hb⟩

/-- An object is stored that holds what it held. -/
theorem sameTenure_put {o o' : Object} (ho : k.objects.get? o.id = some o) (hid : o'.id = o.id)
    (hkind : o'.kind = o.kind) (hblocks : ∀ home n, o'.blocksIn home n = o.blocksIn home n) :
    SameTenure k (k.put o') where
  config := rfl
  partitions := rfl
  held home n id := by
    refine (ObjectTable.share_put id).trans ?_
    split
    · next hx => rw [hblocks, ← hx, hid, ObjectTable.share_of_get? ho]
    · rfl
  threads id t' ht' := by
    have hget : (k.objects.put o').get? id = some (.thread t') := ObjectTable.thread?_eq_some.mp ht'
    rw [ObjectTable.get?_put] at hget
    split at hget
    · next hx =>
      cases hget
      obtain ⟨t, rfl⟩ : ∃ t, o = .thread t := by
        cases o <;> first | exact ⟨_, rfl⟩ | cases hkind
      have hb := hblocks 0 0
      simp only [Object.blocksIn, if_true] at hb
      exact ⟨t, ObjectTable.thread?_eq_some.mpr (hx ▸ hid ▸ ho), hb⟩
    · exact ⟨t', ObjectTable.thread?_eq_some.mpr hget, rfl⟩

/-- An object without blocks is registered under an id that was not taken. -/
theorem sameTenure_create (ho : k.objects.get? o.id = none) (hkind : o.kind.holdsBlocks = false) :
    SameTenure k { k with objects := k.objects.skipId.put o } where
  config := rfl
  partitions := rfl
  held home n id := by
    refine (ObjectTable.share_put id).trans ?_
    split
    · next hx =>
      rw [Object.blocksIn_eq_nil hkind, ← hx]
      unfold ObjectTable.share
      rw [ho]
    · rfl
  threads id t' ht' := by
    have hget : (k.objects.skipId.put o).get? id = some (.thread t') := ObjectTable.thread?_eq_some.mp ht'
    rw [ObjectTable.get?_put] at hget
    split at hget
    · cases hget
      cases hkind
    · exact ⟨t', ObjectTable.thread?_eq_some.mpr hget, rfl⟩

/-- An object without blocks is unregistered. -/
theorem sameTenure_erase (ho : k.objects.get? o.id = some o) (hkind : o.kind.holdsBlocks = false) :
    SameTenure k { k with objects := k.objects.erase o.id } where
  config := rfl
  partitions := rfl
  held home n id := by
    refine (ObjectTable.share_erase o.id id).trans ?_
    split
    · next hx => rw [← hx, ObjectTable.share_of_get? ho, Object.blocksIn_eq_nil hkind]
    · rfl
  threads id t' ht' := by
    have hget : (k.objects.erase o.id).get? id = some (.thread t') := ObjectTable.thread?_eq_some.mp ht'
    rw [ObjectTable.get?_erase] at hget
    split at hget
    · cases hget
    · exact ⟨t', ObjectTable.thread?_eq_some.mpr hget, rfl⟩

theorem sameTenure_detach (k : Kernel) (id : ThreadId) (w : Wait) : SameTenure k (k.detach id w) := by
  obtain h | ⟨e, -, h⟩ | ⟨o, ho, -, -, -, h⟩ := detach_cases k id w <;> rw [h]
  · exact .of_objects rfl rfl rfl
  · exact .of_objects rfl rfl rfl
  · have hid := ObjectTable.id_of_get? ho
    exact sameTenure_put (hid.symm ▸ ho) (Object.id_removeWaiter o id) (Object.kind_removeWaiter o id)
      fun _ _ => Object.blocksIn_removeWaiter o id

theorem sameTenure_launch (ht : k.thread? t.id = some t) (context : ContextId) :
    SameTenure k (k.launch t context) := by
  have hput := onlyThreads_putThread { t with context := some context, status := .onlyReady } ht rfl rfl
  obtain ⟨started, heq⟩ := launch_eq k t context
  rw [heq]
  refine hput.sameTenure.trans (.of_objects ?_ ?_ ?_)
  · exact objects_schedule ..
  · exact config_schedule ..
  · exact partitions_schedule ..

end Kernel

/-! ### Moves -/

/-- **A move that is not about blocks leaves them where they are**: what it makes or ends holds none. -/
theorem Move.sameTenure {l : Label} {s s' : Stage} (hm : Move l s s') (hl : ¬ l.Reserves)
    (hcreate : ∀ o, l = .create o → s.kernel.objects.get? o.id = none ∧ o.kind.holdsBlocks = false)
    (herase : ∀ o, l = .erase o → o.kind ≠ .thread → o.kind.holdsBlocks = false) :
    s.kernel.SameTenure s'.kernel := by
  have honly := hm.onlyThreads
  cases hm with
  | reserve | strip | bury => exact absurd trivial hl
  | create => exact Kernel.sameTenure_create (hcreate _ rfl).1 (hcreate _ rfl).2
  | erase ho hkind => exact Kernel.sameTenure_erase ho (herase _ rfl hkind)
  | change ho hc => exact Kernel.sameTenure_put ho hc.id_eq hc.kind_eq fun _ _ => hc.blocksIn_eq
  | enqueue ho ht hw hq => exact Kernel.sameTenure_put ho hq.id_eq hq.kind_eq fun _ _ => hq.blocksIn_eq
  | @launch k L t registers ht =>
    have hc := Kernel.sameObjects_allocateContext k t.entry registers
    exact (hc.onlyThreads rfl).sameTenure.trans (Kernel.sameTenure_launch ((hc.thread? _).trans ht) _)
  | detach => exact Kernel.sameTenure_detach _ _ _
  | @retire k t exitCode ht =>
    have hfell := (Kernel.onlyThreads_fell ht exitCode).sameTenure
    show k.SameTenure (k.retire t exitCode)
    obtain ⟨-, heq⟩ | ⟨w, -, heq⟩ := Kernel.retire_eq k t exitCode <;> rw [heq]
    · exact hfell
    · exact hfell.trans (Kernel.sameTenure_detach _ _ _)
  | _ => exact (honly trivial).sameTenure

theorem Label.IsRoutine.not_reserves {l : Label} (h : l.IsRoutine) : ¬ l.Reserves := by
  cases l <;> first | exact id | exact absurd h id

/-- Routine moves are not about blocks. -/
theorem Moves.sameTenure {s s' : Stage} (h : Moves Label.IsRoutine s s') : s.kernel.SameTenure s'.kernel := by
  refine h.preserves (P := fun s' => s.kernel.SameTenure s'.kernel) ?_ (.of_objects rfl rfl rfl)
  intro l s₁ s₂ hl hm hs
  refine hs.trans (hm.sameTenure hl.not_reserves ?_ ?_)
  · rintro o rfl
    exact absurd hl id
  · rintro o rfl hkind
    have hcallback : o.kind = .callback := hl.resolve_left hkind
    rw [hcallback]
    rfl

namespace Operation

variable {o : Operation} {kind : ObjectKind}

/-- A call that reserves no memory makes no holder of it. -/
theorem holdsBlocks_of_creates? (ho : o.reserves = false) (h : o.creates? = some kind) : kind.holdsBlocks = false := by
  cases o with
  | syscall call =>
    cases call with
    | createThread | createPipe | allocateMemory => cases ho
    | createCallback | createSemaphore | createEventFlag | createMutex =>
      cases h
      rfl
    | _ => cases h
  | _ => cases h

/-- A call that reserves no memory deletes no holder of it. -/
theorem holdsBlocks_of_deletes? {id : ObjectId} (ho : o.reserves = false)
    (h : o.deletes? = some (kind, id)) : kind.holdsBlocks = false := by
  cases o with
  | syscall call =>
    cases call with
    | deletePipe | freeMemory => cases ho
    | deleteSemaphore | deleteEventFlag | deleteMutex =>
      cases h
      rfl
    | _ => cases h
  | _ => cases h

end Operation

namespace Kernel

/-- **An operation that is not about blocks leaves them where they are.** -/
theorem sameTenure_after {k : Kernel} {o : Operation} (h : k.Coherent ∧ k.IdsBelow) (hn : k.started.Nodup)
    (hbound : k.SparesLastId o) (ho : o.reserves = false) :
    SameTenure k (k.after o) := by
  have hafter := permitted_after (P := fun s => SameTenure k s.kernel) h hn hbound ?_ (.of_objects rfl rfl rfl)
  · obtain ⟨-, L, hafter, -⟩ := hafter
    exact hafter
  intro l s s' hl _ hfresh hm hs
  refine hs.trans (hm.sameTenure ?_ ?_ ?_)
  · intro hreserves
    cases hl with
    | touch ht =>
      rcases ht with hroutine | ⟨kind, id, -, hc⟩ | ⟨kind, id, -, hc⟩ | ⟨hyes, -⟩ | ⟨-, hc⟩ | ⟨-, hc⟩
      · exact hroutine.not_reserves hreserves
      · cases l <;> first | exact hc | exact hreserves
      · cases l <;> first | exact hc | exact hreserves
      · rw [ho] at hyes
        cases hyes
      all_goals cases l <;> first | exact hc | exact hreserves
    | create => exact hreserves
  · rintro x rfl
    exact ⟨hfresh x rfl, Operation.holdsBlocks_of_creates? ho hl.created.2.2⟩
  · rintro x rfl hkind
    cases hl with
    | touch ht =>
      rcases ht with hroutine | ⟨kind, id, -, hc⟩ | ⟨kind, id, hdel, hc⟩ | ⟨hyes, -⟩ | ⟨-, hc⟩ | ⟨-, hc⟩
      · have hcallback : x.kind = .callback := hroutine.resolve_left hkind
        rw [hcallback]
        rfl
      · exact hc.elim
      · rw [hc.1]
        exact Operation.holdsBlocks_of_deletes? ho hdel
      · rw [ho] at hyes
        cases hyes
      all_goals exact hc.elim

end Kernel
end GuestKernel
