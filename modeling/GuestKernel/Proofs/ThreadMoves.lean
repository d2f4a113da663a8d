/-
# Thread calls as moves

The life of a thread in terms of moves: what creating, starting, ending, deleting, holding and resuming a thread do to
the kernel, one sequence of moves per call. A thread that has been ended is dead and waits for nothing
(`thread?_retire`), which is what deleting it relies on.

Source: specification, 4.2.
-/

import GuestKernel.Proofs.WaitMoves

namespace GuestKernel
namespace Kernel

variable {k : Kernel} {t : Thread} {c : Callback}

/-! ### Resources -/

theorem isQuiet_allocateEvents (p : Partition) (name : String) (placement : Placement)
    (alignment size : UInt32) : ∀ e ∈ p.allocateEvents name placement alignment size, e.isQuiet = true := by
  intro e he
  unfold Partition.allocateEvents at he
  split at he
  · rw [List.mem_singleton.mp he]; rfl
  · rw [List.mem_singleton.mp he]; rfl
  · simp at he

theorem isQuiet_freeEvents (p : Partition) (block : Block) : ∀ e ∈ p.freeEvents block, e.isQuiet = true := by
  intro e he
  unfold Partition.freeEvents at he
  split at he <;> rw [List.mem_singleton.mp he] <;> rfl

theorem sameObjects_allocateBlock (k : Kernel) (partition : PartitionId) (name : String)
    (placement : Placement) (alignment size : UInt32) :
    SameObjects k (k.allocateBlock partition name placement alignment size).kernel := by
  unfold allocateBlock
  split
  · exact (Quiet.refl k).toSameObjects
  · next p _ =>
    have h := Quiet.noteAll k (isQuiet_allocateEvents p name placement alignment size)
    dsimp only
    split
    · exact h.toSameObjects
    · exact { h.toSameObjects with }

theorem contexts_allocateBlock (k : Kernel) (partition : PartitionId) (name : String) (placement : Placement)
    (alignment size : UInt32) :
    (k.allocateBlock partition name placement alignment size).kernel.contexts = k.contexts := by
  unfold allocateBlock
  split
  · rfl
  · dsimp only
    split <;> rfl

theorem sameObjects_freeBlock (k : Kernel) (partition : PartitionId) (block : Block) :
    SameObjects k (k.freeBlock partition block).kernel := by
  unfold freeBlock
  split
  · exact (Quiet.refl k).toSameObjects
  · next p _ =>
    have h := Quiet.noteAll k (isQuiet_freeEvents p block)
    dsimp only
    split
    · exact h.toSameObjects
    · exact { h.toSameObjects with }

/-- Returning a block has nothing to do with contexts. -/
theorem freeBlock_withContexts (k : Kernel) (contexts : Contexts) (partition : PartitionId) (block : Block) :
    ({ k with contexts } : Kernel).freeBlock partition block =
      ⟨(k.freeBlock partition block).result, { (k.freeBlock partition block).kernel with contexts }⟩ := by
  unfold freeBlock
  cases k.partitions[partition]? with
  | none => rfl
  | some p =>
    dsimp only
    cases p.free block <;> rfl

/-- A second call after a success. -/
theorem SameObjects.andThen {α β : Type} {r : Reply α} {next : α → Kernel → Reply β}
    (h : SameObjects k r.kernel) (hnext : ∀ a k', SameObjects k' (next a k').kernel) :
    SameObjects k (r.andThen next).kernel := by
  obtain ⟨e, -, hr, -⟩ | ⟨a, -, hr⟩ := r.kernel_andThen next <;> rw [hr]
  · exact h
  · exact h.trans (hnext a r.kernel)

theorem sameObjects_freeBlocks (k : Kernel) (partition : PartitionId) (blocks : List Block) :
    SameObjects k (k.freeBlocks partition blocks).kernel := by
  induction blocks generalizing k with
  | nil => exact (Quiet.refl k).toSameObjects
  | cons b rest ih => exact (sameObjects_freeBlock k partition b).andThen fun _ => ih

theorem contexts_freeBlock (k : Kernel) (partition : PartitionId) (block : Block) :
    (k.freeBlock partition block).kernel.contexts = k.contexts :=
  congrArg (fun r => r.kernel.contexts) (freeBlock_withContexts k k.contexts partition block)

theorem freeBlocks_withContexts (k : Kernel) (contexts : Contexts) (partition : PartitionId) (blocks : List Block) :
    ({ k with contexts } : Kernel).freeBlocks partition blocks =
      ⟨(k.freeBlocks partition blocks).result, { (k.freeBlocks partition blocks).kernel with contexts }⟩ := by
  induction blocks generalizing k with
  | nil => rfl
  | cons b rest ih =>
    unfold freeBlocks
    rw [freeBlock_withContexts]
    obtain ⟨r, k'⟩ := k.freeBlock partition b
    cases r with
    | error e => rfl
    | ok u => exact ih k'

theorem sameObjects_allocateStack (k : Kernel) (name : String) (size : UInt32) :
    SameObjects k (k.allocateStack name size).kernel := by
  unfold allocateStack
  refine (sameObjects_allocateBlock k _ _ _ _ size).andThen fun stack k' => ?_
  split
  · exact (Quiet.refl k').toSameObjects
  · have ht := sameObjects_allocateBlock k' k.config.threadPartition ("tls:" ++ name) .high stackAlignment
      k'.config.tlsSize
    split
    · next tls k₂ hr =>
      rw [hr] at ht
      exact ht
    · next e k₂ hr =>
      rw [hr] at ht
      exact ht.trans ((sameObjects_freeBlock k₂ _ stack).andThen fun _ k₃ => (Quiet.refl k₃).toSameObjects)

theorem contexts_allocateStack (k : Kernel) (name : String) (size : UInt32) :
    (k.allocateStack name size).kernel.contexts = k.contexts := by
  unfold allocateStack
  have hstack := contexts_allocateBlock k k.config.threadPartition ("stack:" ++ name) .high stackAlignment size
  obtain ⟨e, -, h, -⟩ | ⟨stack, -, h⟩ := Reply.kernel_andThen
    (k.allocateBlock k.config.threadPartition ("stack:" ++ name) .high stackAlignment size) _ <;> rw [h]
  · exact hstack
  · generalize (k.allocateBlock k.config.threadPartition ("stack:" ++ name) .high stackAlignment size).kernel = k₁
      at hstack ⊢
    split
    · exact hstack
    · have htls := contexts_allocateBlock k₁ k.config.threadPartition ("tls:" ++ name) .high stackAlignment
        k₁.config.tlsSize
      split
      · next hr =>
        rw [hr] at htls
        exact htls.trans hstack
      · next k₂ hr =>
        rw [hr] at htls
        obtain ⟨e, -, h, -⟩ | ⟨u, -, h⟩ := Reply.kernel_andThen (k₂.freeBlock k.config.threadPartition stack) _ <;>
          rw [h] <;> exact (contexts_freeBlock k₂ _ stack).trans (htls.trans hstack)

theorem Quiet.fillStack (k : Kernel) (name : String) (stack : Block) : Quiet k (k.fillStack name stack) := by
  unfold Kernel.fillStack
  split
  · exact Quiet.memory k _
  · exact (Quiet.note k rfl).trans (Quiet.note _ rfl)

theorem Quiet.clearStack (k : Kernel) (t : Thread) : Quiet k (k.clearStack t) := by
  unfold Kernel.clearStack
  split
  · exact Quiet.refl k
  · split
    · split
      · exact Quiet.memory k _
      · exact (Quiet.note k rfl).trans (Quiet.note _ rfl)
    · exact Quiet.refl k

theorem clearStack_withContexts (k : Kernel) (contexts : Contexts) (t : Thread) :
    ({ k with contexts } : Kernel).clearStack t = { k.clearStack t with contexts } := by
  unfold clearStack
  cases t.stack with
  | none => rfl
  | some stack =>
    dsimp only
    split
    · cases k.memory.fill stack.address 0 stack.size.toNat <;> rfl
    · rfl

theorem contexts_clearStack (k : Kernel) (t : Thread) : (k.clearStack t).contexts = k.contexts := by
  have h : k.clearStack t = { k.clearStack t with contexts := k.contexts } := clearStack_withContexts k k.contexts t
  rw [h]

theorem sameObjects_allocateContext (k : Kernel) (entry : UInt32) (registers : Registers) :
    SameObjects k (k.allocateContext entry registers) := by
  have h : Quiet k (k.noteAll (k.contexts.allocateEvents entry)) :=
    Quiet.noteAll k (fun e he => List.mem_singleton.mp he ▸ rfl)
  exact { h.toSameObjects with }

theorem isQuiet_releaseEvents (c : Contexts) (context : ContextId) :
    ∀ e ∈ c.releaseEvents context, e.isQuiet = true := by
  intro e he
  unfold Contexts.releaseEvents at he
  split at he
  · simp at he
  · rw [List.mem_singleton.mp he]; rfl

/-! ### Ending a thread -/

/-- **A thread that has been ended** is dead, and nothing about it is left to other threads. -/
theorem thread?_retire (k : Kernel) (t : Thread) (exitCode : Int32) :
    (k.retire t exitCode).thread? t.id = some (t.die exitCode) := by
  have hcurrent : ∀ k' : Kernel, k'.thread? t.id = some (t.die exitCode) →
      (if k'.current = some t.id then { k' with current := none } else k').thread? t.id =
        some (t.die exitCode) := by
    intro k' h
    split <;> exact h
  have hput : ({ k.putThread (t.die exitCode) with ready := k.ready.remove t.id } : Kernel).thread? t.id =
      some (t.die exitCode) := (thread?_putThread (t.die exitCode) t.id).trans (if_pos rfl)
  unfold retire
  apply hcurrent
  split
  · next w _ =>
    obtain h | ⟨t', ht', -, h⟩ := thread?_detach
      { k.putThread (t.die exitCode) with ready := k.ready.remove t.id } t.id w t.id
    · exact h.trans hput
    · -- The dead thread has no joined threads, so taking one out of them changes nothing.
      rw [hput, Option.some.injEq] at ht'
      subst ht'
      exact h
  · exact hput

theorem thread?_exit (h : k.thread? t.id = some t) (exitCode : Int32) :
    ∃ t', (k.exit t exitCode).thread? t.id = some t' ∧ t'.status.dead = true := by
  unfold exit
  split
  · next hd => exact ⟨t, h, hd⟩
  · refine ⟨t.die exitCode, ?_, rfl⟩
    exact thread?_wakeAll_of_idle (k := (k.retire t exitCode).note _) (thread?_retire k t exitCode) rfl _ _

/-- A dead thread that gives up its blocks stays registered, and the contexts stay. -/
theorem thread?_stripped (k : Kernel) (t : Thread) (partition : PartitionId) (blocks : List Block) :
    (((k.putThread t.strip).clearStack t).freeBlocks partition blocks).kernel.thread? t.id = some t.strip := by
  have hput : (k.putThread t.strip).thread? t.id = some t.strip :=
    (thread?_putThread t.strip t.id).trans (if_pos rfl)
  have hclear := (Quiet.clearStack (k.putThread t.strip) t).thread? t.id
  exact ((sameObjects_freeBlocks _ partition blocks).thread? t.id).trans (hclear.trans hput)

theorem contexts_stripped (k : Kernel) (t : Thread) (partition : PartitionId) (blocks : List Block) :
    (((k.putThread t.strip).clearStack t).freeBlocks partition blocks).kernel.contexts = k.contexts := by
  have hclear := contexts_clearStack (k.putThread t.strip) t
  generalize (k.putThread t.strip).clearStack t = k₁ at hclear ⊢
  have hfree := congrArg (fun r => r.kernel.contexts) (freeBlocks_withContexts k₁ k₁.contexts partition blocks)
  exact hfree.trans hclear

/-- A callback and a thread do not share an id. -/
theorem ne_of_callback {x : ThreadId} {id : ObjectId} (ht : k.thread? x = some t)
    (hc : k.objects.get? id = some (.callback c)) : x ≠ id := by
  rintro rfl
  rw [ObjectTable.thread?_eq_some.mp ht] at hc
  cases hc

theorem unregister_cases (k : Kernel) (kind : ObjectKind) (id : ObjectId) :
    k.unregister kind id = k.refuse (.unknown kind id) ∨
      ∃ o, k.objects.get? o.id = some o ∧ o.id = id ∧ o.kind = kind ∧ k.unregister kind id =
        ({ k.note (.unregistered kind id) with objects := k.objects.erase id }).done () := by
  unfold unregister
  split
  · next o ho =>
    obtain ⟨hget, hk⟩ := ObjectTable.find?_eq_some.mp ho
    have hid := ObjectTable.id_of_get? hget
    exact Or.inr ⟨o, hid ▸ hget, hid, hk, rfl⟩
  · exact Or.inl rfl

/-- The thread of an id is found by its kind. -/
theorem unregister_thread (h : k.thread? t.id = some t) : k.unregister .thread t.id =
    ({ k.note (.unregistered .thread t.id) with objects := k.objects.erase t.id }).done () := by
  have hf : k.objects.find? .thread t.id = some (.thread t) :=
    ObjectTable.find?_eq_some.mpr ⟨ObjectTable.thread?_eq_some.mp h, rfl⟩
  unfold unregister
  rw [hf]

/-- Unregistering a callback hides no thread. -/
theorem thread?_removeCallback (k : Kernel) (id : ObjectId) (x : ThreadId) :
    (k.removeCallback id).thread? x = k.thread? x := by
  unfold removeCallback
  obtain h | ⟨o, ho, hid, hk, h⟩ := unregister_cases k .callback id <;> rw [h]
  · rfl
  · show (k.objects.erase id).thread? x = k.objects.thread? x
    rw [ObjectTable.thread?_erase]
    split
    · next hx =>
      rw [← hx, ← hid, ObjectTable.thread?_eq_bind, ho, Option.bind_some,
        Object.thread?_eq_none.mpr (by rw [hk]; decide)]
    · rfl

theorem thread?_removeCallbacks (k : Kernel) (ids : List ObjectId) (x : ThreadId) :
    (ids.foldl removeCallback k).thread? x = k.thread? x := by
  induction ids generalizing k with
  | nil => rfl
  | cons id rest ih => rw [List.foldl_cons, ih, thread?_removeCallback]

/-- Deleting a callback leaves the running thread and the delivery alone. -/
theorem frame_retireCallback (k : Kernel) (id : ObjectId) (value : Int32) :
    (k.retireCallback id value).delivering = k.delivering ∧
      (k.retireCallback id value).current = k.current := by
  have hforget : ∀ (k : Kernel) (c : Callback), (k.forgetCallback c).delivering = k.delivering ∧
      (k.forgetCallback c).current = k.current := by
    intro k c
    unfold forgetCallback
    split <;> exact ⟨rfl, rfl⟩
  have hdelete : ∀ k : Kernel, (k.deleteCallback id).kernel.delivering = k.delivering ∧
      (k.deleteCallback id).kernel.current = k.current := by
    intro k
    unfold deleteCallback
    split
    · exact ⟨rfl, rfl⟩
    · next c _ =>
      obtain h | ⟨-, -, -, -, h⟩ := unregister_cases (k.forgetCallback c) .callback id <;> rw [h] <;>
        exact hforget k c
  unfold retireCallback
  split
  · exact ⟨rfl, rfl⟩
  · have h := hdelete (k.note (.callbackRetired id value))
    split
    · next hr => rw [hr] at h; exact h
    · next hr => rw [hr] at h; exact h

theorem Reloads.restoreContext (k : Kernel) (d : Delivery) (t : Thread) : Reloads k (k.restoreContext d t) := by
  unfold Kernel.restoreContext
  split
  · exact (Quiet.refl k).toReloads
  · dsimp only
    split
    · exact (Reloads.setRegisters k _ _).trans (Reloads.setRegister _ _ _ _)
    · exact Reloads.setRegisters k _ _

/-! ### Dispatch -/

theorem mem_of_bestOf {candidates : List (Thread × Callback)} {x : Thread × Callback}
    (h : bestOf candidates = some x) : x ∈ candidates := by
  induction candidates with
  | nil => cases h
  | cons y rest ih =>
    unfold bestOf at h
    split at h
    · cases h
      exact List.mem_cons_self ..
    · next other ho =>
      split at h
      · cases h
        exact List.mem_cons_of_mem _ (ih ho)
      · cases h
        exact List.mem_cons_self ..

theorem callback_of_pendingCallback? (h : k.pendingCallback? t = some c) :
    k.objects.get? c.id = some (.callback c) := by
  obtain ⟨id, -, hc⟩ := List.exists_of_findSome?_eq_some h
  have hget := ObjectTable.callback?_eq_some.mp (Option.filter_eq_some_iff.mp hc).1
  have hid : c.id = id := ObjectTable.id_of_get? hget
  rw [hid]
  exact hget

/-- What dispatch may interrupt: a registered thread that lets callbacks run, with a registered callback. -/
theorem of_mem_deliverable (h : (t, c) ∈ k.deliverable) :
    k.thread? t.id = some t ∧ t.admitsCallbacks = true ∧ k.objects.get? c.id = some (.callback c) := by
  obtain ⟨id, -, hid⟩ := List.mem_filterMap.mp h
  split at hid
  · cases hid
  · next t' ht' =>
    split at hid
    · next ha =>
      obtain ⟨c', hc', heq⟩ := Option.map_eq_some_iff.mp hid
      cases heq
      exact ⟨(id_of_thread? ht') ▸ ht', ha, callback_of_pendingCallback? hc'⟩
    · cases hid

theorem current_preempt (k : Kernel) : k.preempt.current = none := by
  unfold preempt
  split
  · next h => exact h
  · dsimp only
    split
    · rfl
    · split
      · exact current_schedule ..
      · rfl

theorem delivering_preempt (k : Kernel) : k.preempt.delivering = k.delivering := by
  unfold preempt
  split
  · rfl
  · dsimp only
    split
    · rfl
    · split
      · exact delivering_schedule ..
      · rfl

end Kernel

namespace Moves

variable {A : Label → Prop} {k : Kernel} {L : List ThreadId} {t : Thread} {id : ThreadId}

/-- The number of saved wakeups changes. -/
theorem count (hcount : ∀ l, l.Counts t.id → A l) (ht : k.thread? t.id = some t) (wakeups : UInt32) :
    Moves A ⟨k, L⟩ ⟨k.putThread { t with wakeups }, L⟩ :=
  single (hcount (.edit t { t with wakeups }) ⟨rfl, rfl, rfl⟩) (.edit ht rfl)

/-- The callbacks of a thread change, or its request to run them does. -/
theorem attach (hT : ∀ l, l.Attaches → A l) (ht : k.thread? t.id = some t) (callbacks : List ObjectId)
    (checksCallbacks : Bool) : Moves A ⟨k, L⟩ ⟨k.putThread { t with callbacks, checksCallbacks }, L⟩ :=
  single (hT (.edit t { t with callbacks, checksCallbacks }) rfl) (.edit ht rfl)

variable (hA : ∀ l, l.IsPlain → A l)

include hA

/-- A new object takes the next id. -/
theorem registerNew {o : Object} (hcreate : A (.create o))
    (hid : o.id = k.nextId) (hnew : o.IsNew) : Moves A ⟨k, L⟩ ⟨k.registerNew o, L⟩ := by
  have hcalm : ∀ e ∈ o.registerEvents, e.isQuiet = true := by
    intro e he
    rw [List.mem_singleton.mp he]
    rfl
  exact (quiet hA (Kernel.Quiet.noteAll k hcalm)).snoc hcreate (.create hid hnew)

/-- The stack is allocated first, then the thread is registered. -/
theorem createThread (hR : A .reserve)
    (hcreate : ∀ o, o.id = k.nextId → o.kind = .thread → A (.create o)) (name : String)
    (entry priority wantedStack attributes : UInt32) :
    Moves A ⟨k, L⟩ ⟨(k.createThread name entry priority wantedStack attributes).kernel, L⟩ := by
  unfold Kernel.createThread
  split
  · exact .refl _
  · next hp =>
    split
    · exact .refl _
    · next size _ =>
      have hs := Kernel.sameObjects_allocateStack k name size
      have hx := Kernel.contexts_allocateStack k name size
      obtain ⟨e, -, h, -⟩ | ⟨⟨stack, localStorage⟩, -, h⟩ := Reply.kernel_andThen (k.allocateStack name size) _
      · rw [h]
        exact reserve hR hs hx
      · rw [h]
        generalize (k.allocateStack name size).kernel = k₁ at hs hx ⊢
        refine (reserve hR hs hx).trans ?_
        have hfill : k₁.Quiet (if Thread.keepsStack attributes then k₁ else k₁.fillStack name stack) := by
          split
          · exact Kernel.Quiet.refl k₁
          · exact Kernel.Quiet.fillStack k₁ name stack
        dsimp only
        generalize (if Thread.keepsStack attributes then k₁ else k₁.fillStack name stack) = k₂ at hfill ⊢
        have hnext : k₂.nextId = k.nextId := hfill.nextId.trans hs.nextId
        refine (quiet hA hfill).trans ((note hA rfl).trans (registerNew hA (hcreate _ hnext rfl) rfl ?_))
        unfold Kernel.checkPriority at hp
        split at hp
        · next hpr => exact ⟨rfl, rfl, rfl, rfl, rfl, rfl, rfl, hpr⟩
        · cases hp

theorem startThread (hlaunch : A (.launch id)) (argumentLength argumentAddress : UInt32) :
    Moves A ⟨k, L⟩ ⟨(k.startThread id argumentLength argumentAddress).kernel, L⟩ := by
  unfold Kernel.startThread
  split
  · exact .refl _
  · next t ht =>
    have hid := Kernel.id_of_thread? ht
    subst hid
    split
    · exact .refl _
    · next hs =>
      exact (single hlaunch (.launch ht (not_not.mp hs))).trans (note hA rfl)

/-- A thread that ends is retired, and those that joined it are woken. -/
theorem exit (hretire : ∀ exitCode, A (.retire t.id exitCode))
    (ht : k.thread? t.id = some t) (exitCode : Int32) : Moves A ⟨k, []⟩ ⟨k.exit t exitCode, []⟩ := by
  unfold Kernel.exit
  split
  · exact .refl _
  · next hd =>
    have hdie : Move (.retire t.id exitCode) ⟨k, []⟩ ⟨k.retire t exitCode, t.exitWaiters⟩ :=
      .retire ht (by simpa using hd)
    refine (single (hretire exitCode) hdie).trans ((note hA (e := .threadExited t.name t.id exitCode) rfl).trans ?_)
    have hwake := wakeAll (k := (k.retire t exitCode).note (.threadExited t.name t.id exitCode)) (L := [])
      hA t.exitWaiters 0
    rwa [List.append_nil] at hwake

theorem exitThread (hretire : ∀ exitCode, A (.retire id exitCode))
    (exitCode : Int32) : Moves A ⟨k, []⟩ ⟨(k.exitThread id exitCode).kernel, []⟩ := by
  unfold Kernel.exitThread
  split
  · exact .refl _
  · next t ht =>
    have hid := Kernel.id_of_thread? ht
    subst hid
    exact exit hA hretire ht exitCode

/-- A callback is unregistered, or it was gone. -/
theorem unregisterCallback (hT : ∀ l, l.Attaches → A l) (id : ObjectId) :
    Moves A ⟨k, []⟩ ⟨(k.unregister .callback id).kernel, []⟩ := by
  obtain h | ⟨o, ho, hid, hk, h⟩ := Kernel.unregister_cases k .callback id <;> rw [h]
  · exact .refl _
  · subst hid
    have hw : o.waiting = [] := by
      cases o <;> first | rfl | cases hk
    have herase := Move.erase (k := k.note (.unregistered .callback o.id)) ho (by rw [hk]; decide)
    rw [hw] at herase
    exact (note hA rfl).trans (single (hT (.erase o) hk) herase)

theorem removeCallback (hT : ∀ l, l.Attaches → A l) (id : ObjectId) : Moves A ⟨k, []⟩ ⟨k.removeCallback id, []⟩ := by
  have h := unregisterCallback (k := k) hA hT id
  unfold Kernel.removeCallback
  split
  · next hr =>
    rw [hr] at h
    exact h
  · next hr =>
    rw [hr] at h
    exact h.trans (note hA rfl)

theorem removeCallbacks (hT : ∀ l, l.Attaches → A l) (ids : List ObjectId) :
    Moves A ⟨k, []⟩ ⟨ids.foldl Kernel.removeCallback k, []⟩ := by
  induction ids generalizing k with
  | nil => exact .refl _
  | cons id rest ih => exact (removeCallback hA hT id).trans ih

/-- A dead thread loses its blocks and its context. -/
theorem strip (hR : ∀ l, l.Reserves → A l) (ht : k.thread? t.id = some t)
    (hs : t.status.dead = true) {contexts : Contexts}
    (hx : contexts = k.contexts ∨ ∃ c, t.context = some c ∧ contexts = k.contexts.release c)
    (partition : PartitionId) (blocks : List Block) :
    Moves A ⟨k, []⟩ ⟨{ (((k.putThread t.strip).clearStack t).freeBlocks partition blocks).kernel with contexts }, []⟩ := by
  have hstrip : Move (.strip t.id) ⟨k, []⟩ ⟨{ k.putThread t.strip with contexts }, []⟩ := .strip ht hs hx
  have hclear := Kernel.Quiet.clearStack { k.putThread t.strip with contexts } t
  rw [Kernel.clearStack_withContexts] at hclear
  refine (single (hR (.strip t.id) trivial) hstrip).trans ((quiet hA hclear).trans ?_)
  generalize (k.putThread t.strip).clearStack t = k₁
  have hfree := Kernel.sameObjects_freeBlocks { k₁ with contexts } partition blocks
  rw [Kernel.freeBlocks_withContexts] at hfree
  exact reserve (hR .reserve trivial) hfree rfl

/-- A dead thread loses its blocks and keeps its context. -/
theorem stripBlocks (hR : ∀ l, l.Reserves → A l) (ht : k.thread? t.id = some t)
    (hs : t.status.dead = true) (partition : PartitionId) (blocks : List Block) :
    Moves A ⟨k, []⟩ ⟨(((k.putThread t.strip).clearStack t).freeBlocks partition blocks).kernel, []⟩ := by
  have h := strip hA hR ht hs (Or.inl rfl) partition blocks
  rwa [← Kernel.contexts_stripped k t partition blocks] at h

/-- A dead thread loses its blocks and its context, if it ever had one. -/
theorem stripAll (hR : ∀ l, l.Reserves → A l) (ht : k.thread? t.id = some t)
    (hs : t.status.dead = true) (partition : PartitionId) (blocks : List Block) : Moves A ⟨k, []⟩ ⟨match t.context with
      | some context => (((k.putThread t.strip).clearStack t).freeBlocks partition blocks).kernel.releaseContext context
      | none => (((k.putThread t.strip).clearStack t).freeBlocks partition blocks).kernel, []⟩ := by
  have hcontexts := Kernel.contexts_stripped k t partition blocks
  cases hc : t.context with
  | none => exact stripBlocks hA hR ht hs partition blocks
  | some context =>
    -- The call releases the context last, but nothing in between looks at the contexts.
    refine (strip hA hR ht hs (Or.inr ⟨context, hc, rfl⟩) partition blocks).trans ?_
    dsimp only
    unfold Kernel.releaseContext
    rw [hcontexts]
    exact quiet hA (Kernel.Quiet.noteAll _ (Kernel.isQuiet_releaseEvents _ context))

/-- A dead thread gives back what it holds, and then its id. -/
theorem reclaim (hR : ∀ l, l.Reserves → A l) (hT : ∀ l, l.Attaches → A l)
    (ht : k.thread? t.id = some t) (hs : t.status.dead = true) : Moves A ⟨k, []⟩ ⟨(k.reclaim t).kernel, []⟩ := by
  unfold Kernel.reclaim
  dsimp only
  split
  · exact stripBlocks hA hR ht hs 0 []
  · have hblocks := stripBlocks hA hR ht hs ((k.putThread t.strip).clearStack t).config.threadPartition
      (t.stack.toList ++ t.localStorage.toList)
    have hall := stripAll hA hR ht hs ((k.putThread t.strip).clearStack t).config.threadPartition
      (t.stack.toList ++ t.localStorage.toList)
    have ht₂ := Kernel.thread?_stripped k t ((k.putThread t.strip).clearStack t).config.threadPartition
      (t.stack.toList ++ t.localStorage.toList)
    obtain ⟨e, -, h, -⟩ | ⟨u, -, h⟩ := Reply.kernel_andThen (((k.putThread t.strip).clearStack t).freeBlocks
      ((k.putThread t.strip).clearStack t).config.threadPartition (t.stack.toList ++ t.localStorage.toList)) _
    · rw [h]
      exact hblocks
    · rw [h]
      generalize (((k.putThread t.strip).clearStack t).freeBlocks
        ((k.putThread t.strip).clearStack t).config.threadPartition
        (t.stack.toList ++ t.localStorage.toList)).kernel = k₂ at ht₂ hall ⊢
      refine hall.trans ((removeCallbacks hA hT t.callbacks).trans ?_)
      have ht₃ : (t.callbacks.foldl Kernel.removeCallback (match t.context with
          | some context => k₂.releaseContext context
          | none => k₂)).thread? t.id = some t.strip := by
        rw [Kernel.thread?_removeCallbacks]
        split <;> exact ht₂
      generalize t.callbacks.foldl Kernel.removeCallback (match t.context with
          | some context => k₂.releaseContext context
          | none => k₂) = k₃ at ht₃ ⊢
      have hun : k₃.unregister .thread t.id = _ := Kernel.unregister_thread (t := t.strip) ht₃
      rw [hun]
      have hbury : Move (.bury t.id) ⟨k₃.note (.unregistered .thread t.id), []⟩ _ :=
        .bury (t := t.strip) ht₃ hs
      exact (note hA rfl).trans ((single (hR (.bury t.id) trivial) hbury).trans (note hA rfl))

theorem deleteThread (hR : ∀ l, l.Reserves → A l) (hT : ∀ l, l.Attaches → A l)
    (hretire : ∀ exitCode, A (.retire id exitCode)) : Moves A ⟨k, []⟩ ⟨(k.deleteThread id).kernel, []⟩ := by
  unfold Kernel.deleteThread
  split
  · exact .refl _
  · next t ht =>
    have hid := Kernel.id_of_thread? ht
    subst hid
    refine (exit hA hretire ht 0).trans ?_
    obtain ⟨t', ht', hd⟩ := Kernel.thread?_exit ht 0
    dsimp only
    rw [ht']
    exact reclaim hA hR hT ((Kernel.id_of_thread? ht') ▸ ht') hd

omit hA in
theorem changePriority (hrank : ∀ l, l.Ranks id → A l) (priority : UInt32) :
    Moves A ⟨k, L⟩ ⟨(k.changePriority id priority).kernel, L⟩ := by
  unfold Kernel.changePriority Kernel.checkPriority
  by_cases hp : minPriority ≤ priority ∧ priority ≤ maxPriority
  · rw [if_pos hp]
    dsimp only
    split
    · exact .refl _
    · next t ht =>
      split
      · exact .refl _
      · next hd =>
        have hid := Kernel.id_of_thread? ht
        subst hid
        exact single (hrank (.reprioritise t.id priority) rfl) (.reprioritise ht (by simpa using hd) hp)
  · rw [if_neg hp]
    exact .refl _

theorem suspendThread (hhold : A (.hold id)) : Moves A ⟨k, L⟩ ⟨(k.suspendThread id).kernel, L⟩ := by
  unfold Kernel.suspendThread
  split
  · exact .refl _
  · next hc =>
    split
    · exact .refl _
    · next t ht =>
      have hid := Kernel.id_of_thread? ht
      subst hid
      split
      · exact .refl _
      · next hd =>
        split
        · exact .refl _
        · next hs =>
          exact (single hhold (.hold ht hc (by simpa using hd) (by simpa using hs))).trans (note hA rfl)

theorem resumeThread (hunhold : A (.unhold id)) : Moves A ⟨k, L⟩ ⟨(k.resumeThread id).kernel, L⟩ := by
  unfold Kernel.resumeThread
  split
  · exact .refl _
  · next t ht =>
    have hid := Kernel.id_of_thread? ht
    subst hid
    split
    · exact .refl _
    · next hs => exact (single hunhold (.unhold ht (not_not.mp hs))).trans (note hA rfl)

omit hA in
/-- Parking the running thread for a sleep or a delay, which no queue knows of. -/
theorem doze {w : Wait} (hdoze : ∀ id w', k.current = some id → w'.kind = w.kind → A (.doze id w'))
    (hkind : w.kind = .sleep ∨ w.kind = .delay) (hrest : w.kind = .sleep → w.timeout = 0) :
    Blocks A k (k.beginWait w).kernel := by
  obtain ⟨e, h⟩ | ⟨t, hd, hc, ht, h⟩ := Kernel.beginWait_cases k w <;> rw [h]
  · exact .refl A k
  · let w' : Wait := { w with since := k.now }
    exact .parks (w := w') (e := .waitBegun t.id w.kind w.handle) hd hc ht rfl (hdoze t.id w' hc rfl)
      (.doze (t := t.park w') (w := w') ((Kernel.thread?_park t w' t.id).trans (if_pos rfl)) rfl hkind hd hrest)
      trivial

omit hA in
theorem sleepThread (hcount : ∀ id, k.current = some id → ∀ l, l.Counts id → A l) (callbacks : Bool) :
    Blocks A k (k.sleepThread callbacks).kernel := by
  unfold Kernel.sleepThread
  split
  · exact .refl A k
  · next id hc =>
    split
    · exact .refl A k
    · next t ht =>
      have hid := Kernel.id_of_thread? ht
      subst hid
      split
      · exact .through (count (hcount t.id hc) ht _)
      · exact doze (fun id w' hid hw' => hcount id hid (.doze id w') ⟨rfl, hw'⟩) (Or.inl rfl) fun _ => rfl

theorem delayThread (ticks : UInt64) (callbacks : Bool) : Blocks A k (k.delayThread ticks callbacks).kernel :=
  doze (fun id w' _ hw' => hA (.doze id w') hw') (Or.inr rfl) nofun

/-- A wakeup ends a sleep, or is saved. -/
theorem wakeupThread (hcount : ∀ l, l.Counts id → A l)
    (hrouse : ∀ w : Wait, w.kind = .sleep → A (.detach id w)) : Moves A ⟨k, []⟩ ⟨(k.wakeupThread id).kernel, []⟩ := by
  unfold Kernel.wakeupThread
  split
  · exact .refl _
  · next t ht =>
    have hid := Kernel.id_of_thread? ht
    subst hid
    split
    · exact .refl _
    · split
      · next hk =>
        obtain ⟨w, hw, hsleep⟩ := Option.map_eq_some_iff.mp hk
        have hdetach := Move.detach ht hw
        have hself : k.detach t.id w = k := if_pos (Or.inl hsleep)
        rw [hself] at hdetach
        exact (single (hrouse w hsleep) hdetach).trans (routine hA .wake trivial)
      · exact count hcount ht _

omit hA in
theorem cancelWakeup (hcount : ∀ l, l.Counts id → A l) : Moves A ⟨k, L⟩ ⟨(k.cancelWakeup id).kernel, L⟩ := by
  unfold Kernel.cancelWakeup
  split
  · exact .refl _
  · next t ht =>
    have hid := Kernel.id_of_thread? ht
    subst hid
    exact count hcount ht _

/-- The caller waits for the end of a thread, unless it has ended. -/
theorem joinThread (id : ThreadId) (timeout : UInt64) (timeoutAddress : UInt32) (callbacks : Bool) :
    Blocks A k (k.joinThread id timeout timeoutAddress callbacks).kernel := by
  unfold Kernel.joinThread
  split
  · exact .refl A k
  · next hc =>
    split
    · exact .refl A k
    · next target htarget =>
      have hid := Kernel.id_of_thread? htarget
      subst hid
      split
      · exact .refl A k
      · next hdormant =>
        obtain ⟨e, h⟩ | ⟨t, hd, hc', ht, h⟩ := Kernel.beginWait_cases k
          { kind := .join, handle := target.id, timeout, timeoutAddress, callbacks } <;> rw [h]
        · exact .refl A k
        · let w : Wait :=
            { kind := .join, handle := target.id, timeout, since := k.now, timeoutAddress, callbacks }
          have hne : t.id ≠ target.id := fun hx => hc (hx ▸ hc')
          refine .parks (w := w) (e := .waitBegun t.id .join target.id) hd hc' ht rfl
            (hA (.enqueue (.thread target) _) rfl)
            (.enqueue (o := .thread target) (t := t.park w) ?_ ?_ rfl ?_ hd) trivial
          · exact ObjectTable.thread?_eq_some.mp
              ((Kernel.thread?_park t w target.id).trans ((if_neg hne).trans htarget))
          · exact (Kernel.thread?_park t w t.id).trans (if_pos rfl)
          · exact .join rfl rfl (by simpa using hdormant) hne

theorem terminateThread (hretire : ∀ exitCode, A (.retire id exitCode)) :
    Moves A ⟨k, []⟩ ⟨(k.terminateThread id).kernel, []⟩ := by
  unfold Kernel.terminateThread
  split
  · exact .refl _
  · split
    · exact .refl _
    · next t ht =>
      have hid := Kernel.id_of_thread? ht
      subst hid
      split
      · exact .refl _
      · exact exit hA hretire ht _

/-! ### Callbacks -/

theorem createCallback (hT : ∀ l, l.Attaches → A l)
    (hcreate : ∀ o, o.id = k.nextId → o.kind = .callback → A (.create o))
    (name : String) (entry commonArgument : UInt32) :
    Moves A ⟨k, L⟩ ⟨(k.createCallback name entry commonArgument).kernel, L⟩ := by
  unfold Kernel.createCallback
  split
  · exact .refl _
  · split
    · exact .refl _
    · next t ht =>
      have hadd := attach (L := L) hT ((Kernel.id_of_thread? ht) ▸ ht) (t.callbacks ++ [k.nextId]) t.checksCallbacks
      exact hadd.trans (registerNew hA (hcreate _ rfl rfl) rfl rfl)

theorem deleteCallback (hT : ∀ l, l.Attaches → A l) (id : ObjectId) :
    Moves A ⟨k, []⟩ ⟨(k.deleteCallback id).kernel, []⟩ := by
  unfold Kernel.deleteCallback
  split
  · exact .refl _
  · refine Moves.trans ?_ (unregisterCallback hA hT id)
    unfold Kernel.forgetCallback
    split
    · next t ht => exact attach hT ((Kernel.id_of_thread? ht) ▸ ht) _ t.checksCallbacks
    · exact .refl _

theorem retireCallback (hT : ∀ l, l.Attaches → A l) (id : ObjectId) (value : Int32) :
    Moves A ⟨k, []⟩ ⟨k.retireCallback id value, []⟩ := by
  unfold Kernel.retireCallback
  split
  · exact .refl _
  · have h := deleteCallback (k := k.note (.callbackRetired id value)) hA hT id
    refine (note hA (e := .callbackRetired id value) rfl).trans ?_
    split
    · next hr =>
      rw [hr] at h
      exact h
    · next hr =>
      rw [hr] at h
      exact h.trans (note hA rfl)

theorem notifyCallback {id : ObjectId} {argument : UInt32} (hN : ∀ l, l.Notifies id argument → A l) :
    Moves A ⟨k, []⟩ ⟨(k.notifyCallback id argument).kernel, []⟩ := by
  unfold Kernel.notifyCallback
  split
  · exact .refl _
  · next c hc =>
    have hget := ObjectTable.callback?_eq_some.mp hc
    have hid : c.id = id := ObjectTable.id_of_get? hget
    subst hid
    exact (single (hN (.change (.callback c) (.callback (c.notify argument))) ⟨rfl, rfl⟩)
      (.change (o := .callback c) hget (.notify c argument))).trans (note hA rfl)

omit hA in
theorem checkCallbacks (hT : ∀ l, l.Attaches → A l) : Moves A ⟨k, L⟩ ⟨k.checkCallbacks.kernel, L⟩ := by
  unfold Kernel.checkCallbacks
  split
  · exact .refl _
  · split
    · exact .refl _
    · next t ht =>
      split
      · exact attach hT ((Kernel.id_of_thread? ht) ▸ ht) t.callbacks true
      · exact .refl _

/-- The callback returns, and may be deleted for what it returns. -/
theorem finishCallback (hE : ∀ l, l.EndsDelivery → A l) (hL : ∀ l, l.Loads → A l)
    (hT : ∀ l, l.Attaches → A l) (value : Int32) : Moves A ⟨k, []⟩ ⟨(k.finishCallback value).kernel, []⟩ := by
  unfold Kernel.finishCallback
  split
  · exact .refl _
  · next d hd =>
    refine (retireCallback hA hT d.callback value).trans ?_
    have hd₁ := (Kernel.frame_retireCallback k d.callback value).1.trans hd
    generalize k.retireCallback d.callback value = k₁ at hd₁ ⊢
    dsimp only
    split
    · next hnone => exact single (hE (.endDelivery d) trivial) (.dropDelivery hd₁ hnone)
    · next t ht =>
      have hq := Kernel.Reloads.restoreContext k₁ d t
      have hload : Moves A ⟨k₁, []⟩ ⟨k₁.restoreContext d t, []⟩ := single (hL .load trivial) (.load hq)
      have ht₁ := (hq.thread? d.thread).trans ht
      have hend := single (hE (.endDelivery d) trivial) (Move.endDelivery (L := []) (hq.delivering.trans hd₁) ht₁)
      split
      · exact hload.trans hend
      · refine (hload.trans hend).trans (attach hT ?_ t.callbacks false)
        exact (Kernel.id_of_thread? ht) ▸ ht₁

/-! ### Dispatch -/

omit hA in
/-- Dispatch puts the running thread back, and then a callback or the first ready thread runs. -/
theorem dispatch (hquiet : A .quiet) (htake : ∀ l, l.Takes → A l)
    (hdispatch : ∀ l, l.Dispatches → A l) : Moves A ⟨k, []⟩ ⟨k.dispatch.2, []⟩ := by
  have hnote : ∀ (k : Kernel) {e : Event}, e.isQuiet = true → Moves A ⟨k, []⟩ ⟨k.note e, []⟩ :=
    fun k _ he => single hquiet (.quiet (Kernel.Quiet.note k he))
  unfold Kernel.dispatch
  split
  · exact hnote k rfl
  · next hd =>
    refine (single (hdispatch .preempt trivial) (.preempt hd)).trans ?_
    have hd₁ := (Kernel.delivering_preempt k).trans hd
    have hc₁ := Kernel.current_preempt k
    generalize k.preempt = k₁ at hd₁ hc₁ ⊢
    dsimp only
    split
    · next t c hbest =>
      obtain ⟨ht, ha, hc⟩ := Kernel.of_mem_deliverable (Kernel.mem_of_bestOf hbest)
      have htaken : Moves A ⟨k₁, []⟩ ⟨k₁.put (.callback c.taken), []⟩ :=
        single (htake (.change (.callback c) (.callback c.taken)) rfl) (.change (o := .callback c) hc (.take c))
      have ht₁ : (k₁.put (.callback c.taken)).thread? t.id = some t :=
        (Kernel.thread?_put_of_kind_ne (o := .callback c) (.callback c.taken) hc nofun rfl rfl t.id).trans ht
      unfold Kernel.deliver
      dsimp only
      cases hx : t.context with
      | none => exact htaken.trans (single (hdispatch .run trivial) (.run hd₁ hc₁))
      | some context =>
        refine htaken.trans ((hnote _ rfl).trans
          (single (hdispatch (.interrupt _) trivial) (.interrupt ?_ ?_ ht₁ ha ?_ rfl rfl)))
        · exact hd₁
        · exact hc₁
        · rw [hx]; rfl
    · exact single (hdispatch .run trivial) (.run hd₁ hc₁)

end Moves
end GuestKernel
