/-
# Waits and queues agree

That a thread waits on an object is on record twice: in the thread, which knows the object and what it asked for, and in
the object, which has the thread in a queue. The two records are made and undone at different moments, and by seven
different routes. Between the moments the thread is in transit.

| moment | thread's record | object's entry |
| --- | --- | --- |
| `begin`: the thread is parked | made | |
| `enter`: it is queued | | made |
| `rest`: it sleeps or delays, and needs no queue | | |
| `release`: it is served, cancelled, timed out, or the object is gone | | undone |
| `finish`: it is woken, or dead | undone | |

`Books` says that the records agree up to the threads in transit, for any two functions that stand for the records. Each
move of the kernel is one of the five moments or none (`Booked.step`). No thread is in transit between operations, unless
a call failed that cancels the waits on an object, so the records agree after every run without such a call
(`waitsAgree_run`).

Source: specification, 4.4.
-/

import GuestKernel.Proofs.QueuePlaces

namespace GuestKernel

/-- The queues of the objects and the waits of the threads agree, but for the threads `L` in transit. -/
structure Books (queues : ObjectId → List (ThreadId × Demand)) (waits : ThreadId → Option Wait)
    (L : List ThreadId) : Prop where
  nodup : L.Nodup
  /-- A thread in transit waits and stands in no queue. -/
  transit : ∀ id ∈ L, (waits id).isSome = true ∧ ∀ x, id ∉ (queues x).map (·.1)
  once : ∀ x, ((queues x).map (·.1)).Nodup
  /-- A queued thread waits on that object, for what it is queued with. -/
  entry : ∀ x, ∀ e ∈ queues x, ∃ w, waits e.1 = some w ∧ w.handle = x ∧ w.Asks e.2
  /-- Nobody waits on itself. -/
  apart : ∀ x, x ∉ (queues x).map (·.1)
  queued : ∀ id w, waits id = some w → id ∉ L → w.kind ≠ .sleep → w.kind ≠ .delay →
    id ∈ (queues w.handle).map (·.1)

namespace Books

variable {queues queues' : ObjectId → List (ThreadId × Demand)} {waits waits' : ThreadId → Option Wait}
  {L L' : List ThreadId} {id : ThreadId} {w : Wait} {d : Demand}

theorem perm (h : Books queues waits L) (hL : L.Perm L') : Books queues waits L' where
  nodup := hL.nodup h.nodup
  transit id hid := h.transit id (hL.mem_iff.mpr hid)
  once := h.once
  entry := h.entry
  apart := h.apart
  queued id w hw hid := h.queued id w hw fun hmem => hid (hL.mem_iff.mp hmem)

theorem places (h : Books queues waits L) : Places queues waits L :=
  ⟨fun id hid => (h.transit id hid).2, h.once, h.entry⟩

/-- Entries leave the queues of an object. -/
theorem release (h : Books queues waits []) (x : ObjectId) {gone : List (ThreadId × Demand)}
    (hx : (queues x).Perm (gone ++ queues' x)) (hframe : ∀ y, y ≠ x → queues' y = queues y) :
    Books queues' waits (gone.map (·.1)) := by
  have hmap : ((queues x).map (·.1)).Perm (gone.map (·.1) ++ (queues' x).map (·.1)) := by
    rw [← List.map_append]
    exact hx.map _
  have hplaces := h.places.release x gone hx hframe
  have hsub := Places.subset_of_release hx hframe
  refine ⟨(List.nodup_append.mp (hmap.nodup (h.once x))).1, fun id hid => ⟨?_, ?_⟩, hplaces.once, hplaces.entry,
    fun y hy => h.apart y (List.map_subset _ (hsub y) hy), fun id w hw hid hsleep hdelay => ?_⟩
  · obtain ⟨e, he, rfl⟩ := List.mem_map.mp hid
    obtain ⟨w, hw, -⟩ := h.entry x e (hx.mem_iff.mpr (List.mem_append_left _ he))
    rw [hw]
    rfl
  · exact hplaces.transit id (List.mem_append_left _ hid)
  · have hmem := h.queued id w hw List.not_mem_nil hsleep hdelay
    by_cases hhandle : w.handle = x
    · rw [hhandle] at hmem ⊢
      exact (List.mem_append.mp (hmap.mem_iff.mp hmem)).resolve_left hid
    · rw [hframe _ hhandle]
      exact hmem

/-- A parked thread enters the queue of the object that it waits on. -/
theorem enter (h : Books queues waits [id]) (hw : waits id = some w) (hasks : w.Asks d) (hne : id ≠ w.handle)
    (hx : (queues' w.handle).Perm ((id, d) :: queues w.handle)) (hframe : ∀ y, y ≠ w.handle → queues' y = queues y) :
    Books queues' waits [] := by
  have hmap : ((queues' w.handle).map (·.1)).Perm (id :: (queues w.handle).map (·.1)) := hx.map (·.1)
  have hplaces := h.places.enter hw hasks hx hframe
  refine ⟨List.nodup_nil, nofun, hplaces.once, hplaces.entry, fun y hy => ?_, fun id' w' hw' _ hsleep hdelay => ?_⟩
  · by_cases hyw : y = w.handle
    · subst hyw
      rcases List.mem_cons.mp (hmap.mem_iff.mp hy) with heq | hy
      · exact hne heq.symm
      · exact h.apart _ hy
    · exact h.apart y (hframe y hyw ▸ hy)
  · by_cases hid : id' = id
    · subst hid
      rw [hw, Option.some.injEq] at hw'
      rw [← hw']
      exact hmap.mem_iff.mpr (List.mem_cons_self ..)
    · have hmem := h.queued id' w' hw' (fun hc => hid (List.mem_singleton.mp hc)) hsleep hdelay
      by_cases hhandle : w'.handle = w.handle
      · rw [hhandle] at hmem ⊢
        exact hmap.mem_iff.mpr (List.mem_cons_of_mem _ hmem)
      · rw [hframe _ hhandle]
        exact hmem

/-- A thread begins to wait. -/
theorem begin (h : Books queues waits []) (hnone : waits id = none) (hsome : (waits' id).isSome = true)
    (hframe : ∀ y, y ≠ id → waits' y = waits y) : Books queues waits' [id] := by
  have hplaces := h.places.begin hnone hframe
  refine ⟨List.pairwise_singleton _ id, fun y hy => ⟨?_, hplaces.transit y hy⟩, hplaces.once, hplaces.entry, h.apart,
    fun y w hw hy => ?_⟩
  · rw [List.mem_singleton.mp hy]
    exact hsome
  · rw [hframe y fun hc => hy (hc ▸ List.mem_singleton_self id)] at hw
    exact h.queued y w hw List.not_mem_nil

/-- A parked thread sleeps or delays. -/
theorem rest (h : Books queues waits [id]) (hw : waits id = some w) (hkind : w.kind = .sleep ∨ w.kind = .delay) :
    Books queues waits [] := by
  refine ⟨List.nodup_nil, nofun, h.once, h.entry, h.apart, fun y w' hw' _ hsleep hdelay => ?_⟩
  refine h.queued y w' hw' (fun hy => ?_) hsleep hdelay
  rw [List.mem_singleton.mp hy, hw, Option.some.injEq] at hw'
  rw [← hw'] at hsleep hdelay
  exact hkind.elim hsleep hdelay

/-- The wait of a thread in transit is over. -/
theorem finish (h : Books queues waits (id :: L)) (hnone : waits' id = none)
    (hframe : ∀ y, y ≠ id → waits' y = waits y) : Books queues waits' L := by
  have hnodup := List.nodup_cons.mp h.nodup
  have hplaces := h.places.quit (h.transit id (List.mem_cons_self ..)).2 hframe
  refine ⟨hnodup.2, fun y hy => ?_, hplaces.once, hplaces.entry, h.apart, fun y w hw hy => ?_⟩
  · rw [hframe y fun hc => hnodup.1 (hc ▸ hy)]
    exact h.transit y (List.mem_cons_of_mem _ hy)
  · have hne : y ≠ id := by
      rintro rfl
      rw [hnone] at hw
      cases hw
    rw [hframe y hne] at hw
    refine h.queued y w hw fun hmem => ?_
    rcases List.mem_cons.mp hmem with hc | hc
    · exact hne hc
    · exact hy hc

end Books

namespace Kernel

variable {k k' : Kernel} {L L' : List ThreadId} {id : ThreadId} {t : Thread} {w : Wait} {o o' : Object}

/-- Waits and queues agree up to the threads in transit, and nobody waits for a thread that has stopped. -/
structure Booked (k : Kernel) (L : List ThreadId) : Prop where
  books : Books k.queues k.waitOf? L
  dormant : ∀ id t, k.thread? id = some t → t.isDormant = true → t.exitWaiters = []
  /-- No thread was woken that did not exist or did not wait. -/
  calm : ∀ e ∈ k.journal, e.miswoken = false

namespace Booked

/-! ### Changes that are none of the five moments -/

/-- The same records; only threads' other fields, the scheduler and the journal change. -/
theorem congr (h : k.Booked L) (hs : SameRecords k k')
    (hdormant : ∀ id t, k'.thread? id = some t → t.isDormant = true → t.exitWaiters = [])
    (hcalm : ∀ e ∈ k'.journal, e ∈ k.journal ∨ e.miswoken = false) : k'.Booked L where
  books := by
    rw [funext hs.queues, funext hs.waits]
    exact h.books
  dormant := hdormant
  calm e he := (hcalm e he).elim (h.calm e) fun hno => hno

theorem of_objects (h : k.Booked L) (hobjects : k'.objects = k.objects)
    (hcalm : ∀ e ∈ k'.journal, e ∈ k.journal ∨ e.miswoken = false) : k'.Booked L := by
  refine h.congr (.of_objects hobjects) (fun id t ht => ?_) hcalm
  rw [thread?, hobjects] at ht
  exact h.dormant id t ht

theorem sameObjects (h : k.Booked L) (hs : SameObjects k k') : k'.Booked L :=
  h.of_objects hs.objects fun e he => (hs.calm e he).imp_right fun hno => (Bool.or_eq_false_iff.mp hno).2

/-- The scheduler is at work. -/
theorem rearranges (h : k.Booked L) (hr : Rearranges k k') : k'.Booked L := by
  refine h.congr hr.sameRecords (fun id t' ht' hd => ?_) hr.calm
  have hget := ObjectTable.thread?_eq_some.mp ht'
  obtain heq | ⟨t, u, ht, hu, hties⟩ := hr.objects id
  · exact h.dormant id t' (ObjectTable.thread?_eq_some.mpr (heq ▸ hget)) hd
  · rw [hget, Option.some.injEq, Object.thread.injEq] at hu
    subst hu
    rw [hties.exitWaiters]
    exact h.dormant id t (ObjectTable.thread?_eq_some.mpr ht) (hties.dormant hd)

/-- A thread changes in something else than its wait and those that joined it. -/
theorem putThread (h : k.Booked L) (t' : Thread) (ht : k.thread? t'.id = some t) (hwait : t'.wait = t.wait)
    (hexit : t'.exitWaiters = t.exitWaiters) (hdormant : t'.isDormant = true → t.isDormant = true) :
    (k.putThread t').Booked L := by
  refine h.congr (sameRecords_putThread t' ht hwait hexit) (fun x t₁ hx hd => ?_) fun e he => Or.inl he
  rw [thread?_putThread] at hx
  split at hx
  · cases hx
    rw [hexit]
    exact h.dormant _ t ht (hdormant hd)
  · exact h.dormant x t₁ hx hd

/-! ### The five moments -/

theorem launch (h : k.Booked L) (ht : k.thread? t.id = some t) (context : ContextId) :
    (k.launch t context).Booked L := by
  obtain ⟨started, heq⟩ := launch_eq k t context
  have hput : (k.putThread { t with context := some context, status := .onlyReady }).Booked L :=
    h.putThread _ ht rfl rfl nofun
  have hstarted : ({ k.putThread { t with context := some context, status := .onlyReady } with started } :
      Kernel).Booked L := hput.of_objects rfl fun e he => Or.inl he
  rw [heq]
  exact hstarted.rearranges (rearranges_schedule ..)

/-- Threads that are taken off an object are in transit until they are woken. -/
theorem release {x : ObjectId} {gone : List (ThreadId × Demand)} (h : k.Booked []) (hr : Releases k k' x gone)
    (hL : L.Perm (gone.map (·.1)))
    (hdormant : ∀ id t, k'.thread? id = some t → t.isDormant = true → t.exitWaiters = [])
    (hcalm : ∀ e ∈ k'.journal, e ∈ k.journal ∨ e.miswoken = false) : k'.Booked L where
  books := by
    rw [funext hr.waits]
    exact (h.books.release x hr.entries hr.frame).perm hL.symm
  dormant := hdormant
  calm e he := (hcalm e he).elim (h.calm e) fun hno => hno

/-- A call on an object that is no thread lets go waiters. -/
theorem change (h : k.Booked []) (ho : k.objects.get? o.id = some o) (hc : o.Change o' L) : (k.put o').Booked L := by
  obtain ⟨gone, hr, hoff⟩ := releases_change ho hc
  refine h.release hr hoff (fun id t ht => h.dormant id t ?_) fun e he => Or.inl he
  rwa [thread?_put_of_kind_ne o' ho hc.kind_ne_thread hc.id_eq hc.kind_eq] at ht

/-- An object that is no thread is unregistered, and all its waiters are let go. -/
theorem erase (h : k.Booked []) (ho : k.objects.get? o.id = some o) (hkind : o.kind ≠ .thread) :
    ({ k with objects := k.objects.erase o.id } : Kernel).Booked o.waiting := by
  rw [← Object.map_entries]
  refine h.release (releases_erase ho (waitOf?_of_kind_ne ho hkind) rfl) (.refl _) (fun id t ht => ?_)
    fun e he => Or.inl he
  have hview : ({ k with objects := k.objects.erase o.id } : Kernel).thread? id =
      if o.id = id then none else k.thread? id := ObjectTable.thread?_erase id
  rw [hview] at ht
  split at ht
  · cases ht
  · exact h.dormant id t ht

/-- A parked thread is queued. -/
theorem enqueue (h : k.Booked [t.id]) (ho : k.objects.get? o.id = some o) (ht : k.thread? t.id = some t)
    (hw : t.wait = some w) (hq : o.Enqueues t.id t.priority w o') : (k.put o').Booked [] := by
  obtain ⟨d, hasks, he⟩ := enters_enqueue ho hq
  have hne := ne_of_enqueues ho ht hq
  refine ⟨?_, fun x t' ht' hd => ?_, h.calm⟩
  · rw [funext he.waits]
    exact h.books.enter (waitOf?_eq_some.mpr ⟨t, ht, hw⟩) hasks hne he.entries he.frame
  · -- A thread that is joined does not become dormant by it.
    by_cases hkind : o.kind = .thread
    · cases hq with
      | @join target _ _ _ _ _ hactive =>
        replace ht' := (thread?_putThread { target with exitWaiters := target.exitWaiters ++ [t.id] } x).symm.trans ht'
        split at ht'
        · cases ht'
          exact absurd (hactive.symm.trans hd) (by decide)
        · exact h.dormant x t' ht' hd
      | _ => cases hkind
    · rw [thread?_put_of_kind_ne o' ho hkind hq.id_eq hq.kind_eq] at ht'
      exact h.dormant x t' ht' hd

/-- A thread that is parked is in transit until it is queued. -/
theorem park (h : k.Booked []) (ht : k.thread? t.id = some t) (hnone : t.wait = none) (hd : t.isDormant = false)
    (w : Wait) : (k.park t w).Booked [t.id] := by
  have hr := rewaits_park ht w
  refine ⟨?_, fun x t' hx hdormant => ?_, h.calm⟩
  · rw [funext hr.queues]
    refine h.books.begin ?_ ?_ hr.frame
    · rw [waitOf?, ht, Option.bind_some, hnone]
    · rw [hr.wait_eq]
      rfl
  · rw [thread?_park] at hx
    split at hx
    · cases hx
      have hsame : (t.park w).isDormant = t.isDormant := rfl
      rw [hsame, hd] at hdormant
      cases hdormant
    · exact h.dormant x t' hx hdormant

/-- A waiting thread leaves its queue, if it has one. -/
theorem detach (h : k.Booked []) (hw : k.waitOf? id = some w) : (k.detach id w).Booked [id] := by
  have hdormant : ∀ x t, (k.detach id w).thread? x = some t → t.isDormant = true → t.exitWaiters = [] := by
    intro x t ht hd
    obtain heq | ⟨t₁, ht₁, -, heq⟩ := thread?_detach k id w x <;> rw [heq] at ht
    · exact h.dormant x t ht hd
    · cases ht
      show t₁.exitWaiters.filter _ = []
      rw [h.dormant x t₁ ht₁ hd]
      rfl
  have hcalm : ∀ e ∈ (k.detach id w).journal, e ∈ k.journal ∨ e.miswoken = false := by
    intro e he
    obtain heq | ⟨e₁, he₁, heq⟩ | ⟨o, -, -, -, -, heq⟩ := detach_cases k id w <;> rw [heq] at he
    · exact Or.inl he
    · exact ((Quiet.note k he₁).calm e he).imp_right fun hno => (Bool.or_eq_false_iff.mp hno).2
    · exact Or.inl he
  obtain ⟨hwhy, hs⟩ | ⟨gone, hr, hoff⟩ := detach_records (h.books.once w.handle) id
  · -- A thread that sleeps or delays stands in no queue, so it can be in transit as it is.
    have hkind : w.kind = .sleep ∨ w.kind = .delay := by
      by_contra hno
      rw [not_or] at hno
      rcases hwhy with hsleep | hdelay | hout
      · exact hno.1 hsleep
      · exact hno.2 hdelay
      · exact hout (h.books.queued id w hw List.not_mem_nil hno.1 hno.2)
    refine ⟨?_, hdormant, fun e he => (hcalm e he).elim (h.calm e) fun hno => hno⟩
    rw [funext hs.queues, funext hs.waits]
    refine ⟨List.pairwise_singleton _ id, fun y hy => ?_, h.books.once, h.books.entry, h.books.apart,
      fun y w' hw' _ => h.books.queued y w' hw' List.not_mem_nil⟩
    rw [List.mem_singleton.mp hy]
    refine ⟨by rw [hw]; rfl, fun x hx => ?_⟩
    obtain ⟨-, hsleep, hdelay⟩ := h.books.places.handle_eq hw hx
    exact hkind.elim hsleep hdelay
  · exact h.release hr hoff hdormant hcalm

/-- A thread in transit is woken: it exists and waits. -/
theorem wake (h : k.Booked (id :: L)) (hlive : ∀ t, k.thread? id = some t → t.wait.isSome = true → t.isDormant = false)
    (result : Int32) : (k.wake id result).Booked L := by
  obtain ⟨w, hw⟩ := Option.isSome_iff_exists.mp (h.books.transit id (List.mem_cons_self ..)).1
  obtain ⟨t, ht, hwait⟩ := waitOf?_eq_some.mp hw
  have hid := id_of_thread? ht
  subst hid
  refine sameObjects ?_ (wake_of_waiting ht hwait result).toSameObjects
  suffices hput : (k.putThread (t.unpark result)).Booked L by
    unfold awaken
    split
    · exact hput
    · exact hput.rearranges (rearranges_schedule ..)
  have hr : Rewaits k (k.putThread (t.unpark result)) t.id none := rewaits_putThread (t.unpark result) ht rfl
  refine ⟨?_, fun x t' hx hd => ?_, h.calm⟩
  · rw [funext hr.queues]
    exact h.books.finish hr.wait_eq hr.frame
  · rw [thread?_putThread] at hx
    split at hx
    · cases hx
      have hsame : (t.unpark result).isDormant = t.isDormant := rfl
      rw [hsame, hlive t ht (by rw [hwait]; rfl)] at hd
      cases hd
    · exact h.dormant x t' hx hd

/-- A thread that does not wait, or is in transit, dies; those that joined it are let go. -/
theorem fell (h : k.Booked L) (ht : k.thread? t.id = some t) (hL : (t.wait = none ∧ L = []) ∨ L = [t.id])
    (exitCode : Int32) : (k.fell t exitCode).Booked t.exitWaiters := by
  -- First its own wait ends, then those of the threads that joined it.
  have hover : Books k.queues (k.fell t exitCode).waitOf? [] := by
    rcases hL with ⟨hnone, rfl⟩ | rfl
    · have hsame : (k.fell t exitCode).waitOf? = k.waitOf? := by
        funext x
        rw [waitOf?_fell]
        split
        · next hx => rw [← hx, waitOf?, ht, Option.bind_some, hnone]
        · rfl
      rw [hsame]
      exact h.books
    · refine h.books.finish ?_ fun y hy => ?_
      · rw [waitOf?_fell, if_pos rfl]
      · rw [waitOf?_fell, if_neg fun heq => hy heq.symm]
  refine ⟨?_, fun x t' hx hd => ?_, h.calm⟩
  · rw [← queues_of_thread? ht]
    refine hover.release t.id ?_ fun y hy => ?_
    · rw [queues_fell, if_pos rfl, List.append_nil]
    · rw [queues_fell, if_neg fun heq => hy heq.symm]
  · replace hx : (if t.id = x then some (t.die exitCode) else k.thread? x) = some t' :=
      (thread?_putThread (t.die exitCode) x).symm.trans hx
    split at hx
    · cases hx
      rfl
    · exact h.dormant x t' hx hd

/-- Whoever waited for the end of a thread is in transit when it ends. -/
theorem retire (h : k.Booked []) (ht : k.thread? t.id = some t) (exitCode : Int32) :
    (k.retire t exitCode).Booked t.exitWaiters := by
  obtain ⟨hnone, heq⟩ | ⟨w, hw, heq⟩ := retire_eq k t exitCode <;> rw [heq]
  · exact h.fell ht (Or.inl ⟨hnone, rfl⟩) exitCode
  · have hwait : k.waitOf? t.id = some w := waitOf?_eq_some.mpr ⟨t, ht, hw⟩
    have hne : w.kind ≠ .sleep → w.kind ≠ .delay → t.id ≠ w.handle := by
      intro hsleep hdelay hid
      have hmem := h.books.queued t.id w hwait List.not_mem_nil hsleep hdelay
      rw [hid] at hmem
      exact h.books.apart w.handle hmem
    rw [detach_fell hne]
    exact (h.detach hwait).fell (thread?_detach_self hne ht) (Or.inr rfl) exitCode

/-- A thread that is dead is waited for by nobody, so it can go. -/
theorem bury (h : k.Booked L) (ht : k.thread? t.id = some t) (hd : t.isDormant = true) (hnone : t.wait = none)
    (started : List ThreadId) : ({ k with objects := k.objects.erase t.id, started } : Kernel).Booked L := by
  have hidle : k.waitOf? t.id = none := by rw [waitOf?, ht, Option.bind_some, hnone]
  have hr : Releases k { k with objects := k.objects.erase t.id, started } t.id (Object.thread t).entries :=
    releases_erase (o := .thread t) (ObjectTable.thread?_eq_some.mp ht) hidle rfl
  have hempty : k.queues t.id = [] := by
    rw [← List.map_eq_nil_iff, queues_of_thread? ht]
    exact h.dormant t.id t ht hd
  refine h.congr ⟨fun x => ?_, hr.waits⟩ (fun x t' hx => ?_) fun e he => Or.inl he
  · by_cases hx : x = t.id
    · have hperm := hr.entries
      rw [hempty, List.nil_perm, List.append_eq_nil_iff] at hperm
      rw [hx, hempty]
      exact hperm.2
    · exact hr.frame x hx
  · have hview : ({ k with objects := k.objects.erase t.id, started } : Kernel).thread? x =
        if t.id = x then none else k.thread? x := ObjectTable.thread?_erase x
    rw [hview] at hx
    split at hx
    · cases hx
    · exact h.dormant x t' hx

/-- Nobody is queued on a new object, and a new thread does not wait. -/
theorem create (h : k.Booked L) (hnew : o.IsNew) (hfresh : k.objects.get? o.id = none) :
    ({ k with objects := k.objects.skipId.put o } : Kernel).Booked L := by
  refine h.congr (sameRecords_create hnew hfresh) (fun x t hx => ?_) fun e he => Or.inl he
  have hview : ({ k with objects := k.objects.skipId.put o } : Kernel).thread? x =
      if o.id = x then o.thread? else k.thread? x := ObjectTable.thread?_put o x
  rw [hview] at hx
  split at hx
  · rw [Object.thread?_eq_some.mp hx] at hnew
    exact fun _ => hnew.2.2.1
  · exact h.dormant x t hx

/-! ### Runs -/

/-- **Each move keeps the records of the waits in agreement.** -/
theorem step {l : Label} {s s' : Stage} (h : s.kernel.Booked s.transit) (hc : s.kernel.Coherent)
    (hfresh : l.Fresh s.kernel) (hm : Move l s s') : s'.kernel.Booked s'.transit := by
  have hrearranges := hm.rearranges
  cases hm with
  | quiet hq | load hq => exact h.sameObjects hq.toSameObjects
  | resource hq | reserve hq => exact h.sameObjects hq
  | create hid hnew => exact h.create hnew (hfresh _ rfl)
  | erase ho hkind => exact h.erase ho hkind
  | change ho hchange => exact h.change ho hchange
  | enqueue ho ht hw hq => exact h.enqueue ho ht hw hq
  | @edit k L t t' ht hlife =>
    rw [hlife]
    exact h.putThread _ ht rfl rfl id
  | @launch k L t registers ht hs =>
    have hc := sameObjects_allocateContext k t.entry registers
    exact (h.sameObjects hc).launch ((hc.thread? _).trans ht) _
  | @park k t w hd hcur ht =>
    have hs := hc.runs hd hcur ht
    refine h.park ht ((hc.threads t.id t ht).wait_eq_none (by rw [hs]; rfl)) ?_ w
    unfold Thread.isDormant
    rw [hs]
    rfl
  | doze ht hw hkind => exact ⟨h.books.rest (waitOf?_eq_some.mpr ⟨_, ht, hw⟩) hkind, h.dormant, h.calm⟩
  | detach ht hw => exact h.detach (waitOf?_eq_some.mpr ⟨_, ht, hw⟩)
  | wake =>
    refine h.wake (fun t ht hw => ?_) _
    have hsound := hc.threads _ t ht
    unfold Thread.isDormant
    rcases hsound.of_waiting (hsound.wait.mp hw) with hs | hs <;> rw [hs] <;> rfl
  | retire ht => exact h.retire ht _
  | @strip k L t contexts ht hd => exact (h.putThread t.strip ht rfl rfl id).sameObjects (.contexts _ contexts)
  | @bury k L t ht hd =>
    have hsound := hc.threads t.id t ht
    have hs := hsound.of_dead hd
    refine h.bury ht ?_ (hsound.wait_eq_none (by rw [hs]; rfl)) _
    unfold Thread.isDormant
    rw [hs]
    rfl
  | _ => exact h.rearranges (hrearranges trivial)

end Booked

/-- In a new kernel nobody waits. -/
theorem booked_new (config : KernelConfig) (memory : Memory) : (Kernel.new config memory).Booked [] := by
  obtain ⟨partitions, journal, heq, hcalm⟩ := new_cases config memory
  have hqueues := queues_new config memory
  have hthread := thread?_new config memory
  rw [heq] at hqueues hthread ⊢
  refine ⟨⟨List.nodup_nil, fun y hy => absurd hy List.not_mem_nil, fun x => ?_, fun x e he => ?_, fun x hx => ?_,
    fun id w hw => ?_⟩, fun id t ht => ?_, fun e he => (Bool.or_eq_false_iff.mp (hcalm e he)).2⟩
  · rw [hqueues]
    exact List.nodup_nil
  · rw [hqueues] at he
    cases he
  · rw [hqueues] at hx
    cases hx
  · rw [waitOf?, hthread] at hw
    cases hw
  · rw [hthread] at ht
    cases ht

/-- What the threads have on record about their waits is what the objects' queues hold. -/
structure WaitsAgree (k : Kernel) : Prop where
  /-- A thread that neither sleeps nor delays but waits stands once in the queue of an object of the kind it waits on,
  with what it waits for; a thread that is waited for is alive. -/
  waiting : ∀ id t w, k.thread? id = some t → t.wait = some w → w.kind ≠ .sleep → w.kind ≠ .delay →
    ∃ o d, k.objects.get? w.handle = some o ∧ o.waitKind? = some w.kind ∧ o.waiting.count id = 1 ∧
      (id, d) ∈ o.entries ∧ w.Asks d ∧ ∀ target, o = .thread target → target.isDormant = false
  /-- Whoever stands in a queue waits on that object, for what it is queued with. -/
  queued : ∀ x o, k.objects.get? x = some o → ∀ e ∈ o.entries, ∃ t w, k.thread? e.1 = some t ∧ t.wait = some w ∧
    w.handle = x ∧ w.Asks e.2
  /-- A thread that sleeps, delays or does not wait stands in no queue. -/
  free : ∀ id t, k.thread? id = some t → (∀ w, t.wait = some w → w.kind = .sleep ∨ w.kind = .delay) →
    ∀ x o, k.objects.get? x = some o → id ∉ o.waiting
  /-- No thread was woken that did not exist or did not wait. -/
  calm : ∀ e ∈ k.journal, e.miswoken = false

/-- Without threads in transit the records agree. -/
theorem Booked.waitsAgree (h : k.Booked []) : k.WaitsAgree where
  waiting id t w ht hw hsleep hdelay := by
    have hwait : k.waitOf? id = some w := waitOf?_eq_some.mpr ⟨t, ht, hw⟩
    have hmem := h.books.queued id w hwait List.not_mem_nil hsleep hdelay
    cases ho : k.objects.get? w.handle with
    | none =>
      rw [queues, ho] at hmem
      cases hmem
    | some o =>
      obtain ⟨e, he, rfl⟩ := List.mem_map.mp hmem
      obtain ⟨w', hw', -, hasks⟩ := h.books.entry w.handle e he
      rw [hwait, Option.some.injEq] at hw'
      subst hw'
      have honce := h.books.once w.handle
      rw [queues_of_get? ho] at he hmem honce
      rw [Object.map_entries] at hmem honce
      refine ⟨o, e.2, rfl, Object.waitKind?_eq he hasks, List.count_eq_one_of_mem honce hmem, he, hasks, ?_⟩
      rintro target rfl
      by_contra hd
      rw [Bool.not_eq_false] at hd
      have hnobody := h.dormant w.handle target (ObjectTable.thread?_eq_some.mpr ho) hd
      have hjoined : e.1 ∈ target.exitWaiters := hmem
      rw [hnobody] at hjoined
      cases hjoined
  queued x o ho e he := by
    obtain ⟨w, hw, hhandle, hasks⟩ := h.books.entry x e (queues_of_get? ho ▸ he)
    obtain ⟨t, ht, hwait⟩ := waitOf?_eq_some.mp hw
    exact ⟨t, w, ht, hwait, hhandle, hasks⟩
  free id t ht hno x o ho hmem := by
    rw [← Object.map_entries] at hmem
    obtain ⟨e, he, rfl⟩ := List.mem_map.mp hmem
    obtain ⟨w, hw, -, hasks⟩ := h.books.entry x e (queues_of_get? ho ▸ he)
    rw [waitOf?, ht, Option.bind_some] at hw
    exact (hno w hw).elim hasks.kind_ne.1 hasks.kind_ne.2
  calm := h.calm

/-- **Waits and queues agree in every reachable state**, as long as ids have not run out and no cancelling call has
failed. -/
theorem waitsAgree_run (config : KernelConfig) (memory : Memory) (operations : List Operation)
    (hids : (Kernel.new config memory).handedOut operations < 2 ^ 32 - 1)
    (hcancel : (Kernel.new config memory).Along (fun k o => k.failsCancel o = false) operations) :
    ((Kernel.new config memory).run operations).WaitsAgree := by
  have hn := nodup_started_new config memory
  have hnext := nextId_new config memory
  refine (run_preserves (P := fun k => (k.Coherent ∧ k.IdsBelow) ∧ k.Booked []) ?_ operations hn ?_ hcancel
    ⟨coherent_new config memory, booked_new config memory⟩).2.waitsAgree
  · rintro k o hn hbound hcancel ⟨hcoherent, hbooked⟩
    obtain ⟨hafter, L, hL, hempty⟩ := preserved_after (P := fun s => s.kernel.Booked s.transit) hcoherent hn hbound
      (fun l s s' hc hfresh hm h => h.step hc hfresh hm) hbooked
    exact ⟨hafter, hempty hcancel ▸ hL⟩
  · omega

/-- A thread waits for units and is let go by a cancel, another joins it, it waits for bytes, and a third waits for
units. -/
def crossedWaits : List Operation :=
  [.syscall (.createThread "reader" 0x08900000 32 0x1000 0), .syscall (.createThread "joiner" 0x08900000 32 0x1000 0),
    .syscall (.createThread "taker" 0x08900000 33 0x1000 0), .syscall (.startThread 1 0 0), .syscall (.startThread 2 0 0),
    .syscall (.startThread 3 0 0), .syscall (.createSemaphore "units" 0 0 2), .syscall (.createPipe "bytes" 2 0 0x100),
    .dispatch, .syscall (.waitSemaphore 4 1 0 false), .syscall (.cancelSemaphore 4 (-1) 0), .dispatch,
    .syscall (.waitThreadEnd 1 0 false), .dispatch, .syscall (.receivePipe 5 ⟨0x08800000, 16, 0, 0⟩ 0 false), .dispatch,
    .syscall (.waitSemaphore 4 2 0 false)]

/-- Each of the three stands in the one queue that its wait names. -/
theorem waitsAgree_run_crossedWaits :
    (Kernel.new {} {}).handedOut crossedWaits < 2 ^ 32 - 1 ∧
      (Kernel.new {} {}).Along (fun k o => k.failsCancel o = false) crossedWaits ∧
      (((Kernel.new {} {}).run crossedWaits).queues 1).map (·.1) = [2] ∧
      (((Kernel.new {} {}).run crossedWaits).queues 4).map (·.1) = [3] ∧
      (((Kernel.new {} {}).run crossedWaits).queues 5).map (·.1) = [1] ∧
      ((Kernel.new {} {}).run crossedWaits).WaitsAgree := by
  have hids : (Kernel.new {} {}).handedOut crossedWaits < 2 ^ 32 - 1 := handedOut_lt (by decide)
  have hcancel : (Kernel.new {} {}).Along (fun k o => k.failsCancel o = false) crossedWaits := by decide +kernel
  exact ⟨hids, hcancel, by decide +kernel, by decide +kernel, by decide +kernel,
    waitsAgree_run {} {} crossedWaits hids hcancel⟩

end Kernel
end GuestKernel
