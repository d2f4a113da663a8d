/-
# Threads and their contexts

A thread gets a context when it is started and has it until it is deleted. No two threads share one, and a thread has no
context that the processor does not know. The number of a new context is always new: numbers are handed out in order, one
per thread that was started, and threads are fewer than the ids that objects have got.

`Leased` says so of a kernel, together with what the argument needs along the way: which threads have been started, and
how many numbers have been handed out.

Source: specification, 4.2 and 6.
-/

import GuestKernel.Proofs.ThreadSteps
import Mathlib.Data.List.Nodup
import Mathlib.Data.List.Perm.Subperm

namespace GuestKernel

namespace Contexts

variable {c c' : Contexts} {id x : ContextId} {index : Nat}

/-- The same contexts are live, and the next one gets the same number. -/
structure SameIds (c c' : Contexts) : Prop where
  nextId : c'.nextId = c.nextId
  live : ∀ id, (c'.get? id).isSome = (c.get? id).isSome

theorem SameIds.of_eq (h : c' = c) : SameIds c c' := ⟨by rw [h], fun _ => by rw [h]⟩

/-- A new context has a number of its own. -/
theorem get?_allocate (c : Contexts) (entry : UInt32) (registers : Registers) (x : ContextId) :
    (c.allocate entry registers).get? x = if c.freshId = x then some ⟨entry, registers⟩ else c.get? x := by
  unfold get? allocate
  rw [Std.ExtTreeMap.getElem?_insert]
  simp only [Std.LawfulEqCmp.compare_eq_iff_eq]

theorem get?_release (c : Contexts) (id x : ContextId) :
    (c.release id).get? x = if id = x then none else c.get? x := by
  unfold get? release
  rw [Std.ExtTreeMap.getElem?_erase]
  simp only [Std.LawfulEqCmp.compare_eq_iff_eq]

/-- Writing a register of a live context. -/
theorem get?_setRegister {context : Context} (hc : c.get? id = some context) (hi : index < 32)
    (value : UInt32) (x : ContextId) : (c.setRegister id index value).get? x =
      if id = x then some { context with registers := context.registers.set index value } else c.get? x := by
  unfold setRegister
  rw [hc]
  dsimp only
  rw [dif_pos hi]
  unfold get?
  rw [Std.ExtTreeMap.getElem?_insert]
  simp only [Std.LawfulEqCmp.compare_eq_iff_eq]

theorem setRegister_of_dead (hc : c.get? id = none) (value : UInt32) : c.setRegister id index value = c := by
  unfold setRegister
  rw [hc]

/-- Contexts do not share registers. -/
theorem register_setRegister_of_ne (hx : x ≠ id) (index : Nat) (value : UInt32) (i : Nat) :
    (c.setRegister id index value).register x i = c.register x i := by
  have hget : (c.setRegister id index value).get? x = c.get? x := by
    cases hc : c.get? id with
    | none => rw [setRegister_of_dead hc]
    | some context =>
      by_cases hi : index < 32
      · rw [get?_setRegister hc hi, if_neg hx.symm]
      · unfold setRegister
        rw [hc]
        dsimp only
        rw [dif_neg hi]
  unfold register
  rw [hget]

/-- A register that is set has the value, and others are as before. -/
theorem register_setRegister_self (hlive : (c.get? id).isSome = true) (hi : index < 32) (value : UInt32) (i : Nat) :
    (c.setRegister id index value).register id i = if index = i then value else c.register id i := by
  obtain ⟨context, hc⟩ := Option.isSome_iff_exists.mp hlive
  unfold register
  rw [get?_setRegister hc hi, if_pos rfl, hc]
  dsimp only
  rw [Vector.getElem?_set]
  split <;> rfl

/-- A live context has the registers that are written to it. -/
theorem register_setRegisters (hlive : (c.get? id).isSome = true) (values : Registers) (r : Fin 32) :
    (c.setRegisters id values).register id r = values.get r := by
  have hfold : ∀ (indices : List (Fin 32)) (c : Contexts), (c.get? id).isSome = true →
      (indices.foldl (fun c (i : Fin 32) => c.setRegister id i (values.get i)) c).register id r =
        if r ∈ indices then values.get r else c.register id r := by
    intro indices
    induction indices with
    | nil => exact fun c _ => rfl
    | cons i rest ih =>
      intro c hlive
      have hlive' : ((c.setRegister id i (values.get i)).get? id).isSome = true :=
        (Kernel.isSome_get?_setRegister _ _ _ _ id).trans hlive
      rw [List.foldl_cons, ih _ hlive', register_setRegister_self hlive i.isLt]
      by_cases hr : r ∈ rest
      · rw [if_pos hr, if_pos (List.mem_cons_of_mem _ hr)]
      · by_cases hi : i = r
        · rw [if_neg hr, hi, if_pos rfl, if_pos (List.mem_cons_self ..)]
        · have hout : r ∉ i :: rest := fun hmem => (List.mem_cons.mp hmem).elim (fun h => hi h.symm) hr
          rw [if_neg hr, if_neg fun h => hi (Fin.ext h), if_neg hout]
  refine (hfold (List.finRange 32) c hlive).trans (if_pos (List.mem_finRange r))

/-- Numbers that are handed out start with 1. -/
theorem freshId_eq (h : 0 < c.nextId.toNat) : c.freshId = c.nextId := by
  unfold freshId
  show (if c.nextId ≤ 1 then 1 else c.nextId) = c.nextId
  split
  · next hle =>
    have hone : c.nextId.toNat ≤ 1 := UInt32.le_iff_toNat_le.mp hle
    refine UInt32.toNat_inj.mp ?_
    show 1 = c.nextId.toNat
    omega
  · rfl

end Contexts

namespace Kernel

variable {k k' : Kernel} {t : Thread}

theorem contexts_setRegister (k : Kernel) (context : ContextId) (index : Nat) (value : UInt32) :
    (k.setRegister context index value).contexts = k.contexts.setRegister context index value := rfl

theorem contexts_setRegisters (k : Kernel) (context : ContextId) (values : Registers) :
    (k.setRegisters context values).contexts = k.contexts.setRegisters context values := by
  unfold setRegisters Contexts.setRegisters
  generalize List.finRange 32 = indices
  induction indices generalizing k with
  | nil => rfl
  | cons i rest ih => exact ih _

theorem contexts_detach (k : Kernel) (id : ThreadId) (w : Wait) : (k.detach id w).contexts = k.contexts := by
  obtain h | ⟨e, -, h⟩ | ⟨o, -, -, -, -, h⟩ := detach_cases k id w <;> rw [h] <;> rfl

theorem started_detach (k : Kernel) (id : ThreadId) (w : Wait) : (k.detach id w).started = k.started := by
  obtain h | ⟨e, -, h⟩ | ⟨o, -, -, -, -, h⟩ := detach_cases k id w <;> rw [h] <;> rfl

theorem contexts_retire (k : Kernel) (t : Thread) (exitCode : Int32) :
    (k.retire t exitCode).contexts = k.contexts := by
  obtain ⟨-, h⟩ | ⟨w, -, h⟩ := retire_eq k t exitCode <;> rw [h]
  · rfl
  · exact contexts_detach (k.fell t exitCode) t.id w

theorem started_retire (k : Kernel) (t : Thread) (exitCode : Int32) :
    (k.retire t exitCode).started = k.started := by
  obtain ⟨-, h⟩ | ⟨w, -, h⟩ := retire_eq k t exitCode <;> rw [h]
  · rfl
  · exact started_detach (k.fell t exitCode) t.id w

/-- The result of a wait goes into a register, so no context comes or goes. -/
theorem sameIds_wake (k : Kernel) (id : ThreadId) (result : Int32) :
    k.contexts.SameIds (k.wake id result).contexts := by
  obtain ⟨e, heq, -⟩ | ⟨t, w, rfl, ht, hw⟩ := wake_cases k id result
  · rw [heq]
    exact .of_eq rfl
  · rw [contexts_wake ht hw]
    cases t.context with
    | none => exact .of_eq rfl
    | some c => exact ⟨nextId_setRegister .., isSome_get?_setRegister _ _ _ _⟩

end Kernel

/-- Most moves leave the live contexts and the started threads alone; the others start a thread or end one. -/
theorem Move.keeps {l : Label} {s s' : Stage} (hm : Move l s s') :
    (s.kernel.contexts.SameIds s'.kernel.contexts ∧ s'.kernel.started = s.kernel.started) ∨
      ∃ id, l = .launch id ∨ l = .strip id ∨ l = .bury id := by
  have hrearranges := hm.rearranges
  cases hm with
  | quiet hq | load hq => exact Or.inl ⟨⟨hq.contextIds, hq.contexts⟩, hq.started⟩
  | resource hq _ hx => exact Or.inl ⟨.of_eq hx, hq.started⟩
  | reserve hq hx => exact Or.inl ⟨.of_eq hx, hq.started⟩
  | create | erase | change | enqueue | edit | park | doze => exact Or.inl ⟨.of_eq rfl, rfl⟩
  | detach => exact Or.inl ⟨.of_eq (Kernel.contexts_detach ..), Kernel.started_detach ..⟩
  | wake => exact Or.inl ⟨Kernel.sameIds_wake .., (Kernel.onlyThreads_wake ..).started⟩
  | retire => exact Or.inl ⟨.of_eq (Kernel.contexts_retire ..), Kernel.started_retire ..⟩
  | launch => exact Or.inr ⟨_, Or.inl rfl⟩
  | strip => exact Or.inr ⟨_, Or.inr (Or.inl rfl)⟩
  | bury => exact Or.inr ⟨_, Or.inr (Or.inr rfl)⟩
  | _ => exact Or.inl ⟨.of_eq (hrearranges trivial).contexts, (hrearranges trivial).started⟩

namespace Thread.Step

variable {l : Label} {t t' : Thread}

/-- A thread gets a context when it starts and loses it when it is deleted. -/
theorem context_eq (h : t.Step l t') : t'.context = t.context ∨ l = .launch t.id ∨ l = .strip t.id := by
  cases h with
  | same | joined | arrange | park | wake | die => exact Or.inl rfl
  | edit hlife => exact Or.inl (by rw [hlife])
  | launch hl => exact Or.inr (Or.inl hl)
  | strip hl => exact Or.inr (Or.inr hl)

/-- A thread that runs or waits keeps its context. -/
theorem context_of_active (h : t.Step l t') (hd : t.isDormant = false) : t'.context = t.context := by
  obtain ⟨hstopped, hdead⟩ := Bool.or_eq_false_iff.mp hd
  cases h with
  | same | joined | arrange | park | wake | die => rfl
  | edit hlife => rw [hlife]
  | launch _ hs =>
    rw [hs] at hstopped
    cases hstopped
  | strip _ hs =>
    rw [hdead] at hs
    cases hs

/-- No thread is stopped that was not. -/
theorem stopped_of_stopped (h : t.Step l t') (hs : t'.status.stopped = true) : t.status.stopped = true := by
  cases h with
  | same | joined | park | wake | strip => exact hs
  | arrange _ hstopped => exact hstopped.symm.trans hs
  | edit hlife =>
    rw [hlife] at hs
    exact hs
  | launch | die => cases hs

/-- A thread that runs or waits has done so before, or has just started. -/
theorem active_of_active (h : t.Step l t') (hd : t'.isDormant = false) :
    t.isDormant = false ∨ l = .launch t.id := by
  cases h with
  | same | joined | park | wake | strip => exact Or.inl hd
  | @arrange status priority _ hstopped hdead =>
    refine Or.inl ?_
    have heq : ({ t with status, priority } : Thread).isDormant = t.isDormant := by
      show (status.stopped || status.dead) = (t.status.stopped || t.status.dead)
      rw [hstopped, hdead]
    rw [← heq, hd]
  | edit hlife =>
    rw [hlife] at hd
    exact Or.inl hd
  | launch hl => exact Or.inr hl
  | die => cases hd

end Thread.Step

namespace Kernel

variable {k : Kernel} {l : Label} {s s' : Stage} {t : Thread} {registers : Registers} {id x : ThreadId} {c : ContextId}
  {t' : Thread}

/-! ### Numbers of contexts -/

/-- The numbers of live contexts have been handed out, and no more have been than threads were started, each of which
has an id of its own. -/
structure Numbered (k : Kernel) : Prop where
  ids : 0 < k.nextId.toNat ∧ ∀ x t, k.thread? x = some t → 0 < x.toNat ∧ x.toNat < k.nextId.toNat
  numbers : 0 < k.contexts.nextId.toNat ∧
    ∀ c, (k.contexts.get? c).isSome = true → c.toNat < k.contexts.nextId.toNat
  launched : ∃ ids : List ThreadId, ids.Nodup ∧ k.contexts.nextId.toNat ≤ ids.length + 1 ∧ ∀ id ∈ ids,
    0 < id.toNat ∧ id.toNat < k.nextId.toNat ∧ ∀ t, k.thread? id = some t → t.status.stopped = false

/-- Only the creation of an object hands out an id. -/
theorem nextId_le_step (hm : Move l s s') (hbound : ∀ o, l = .create o → s.kernel.nextId.toNat + 1 < 2 ^ 32) :
    s.kernel.nextId.toNat ≤ s'.kernel.nextId.toNat ∧
      ∀ o, l = .create o → s'.kernel.nextId.toNat = s.kernel.nextId.toNat + 1 := by
  have hcreate : ∀ o, l = .create o → s'.kernel.nextId.toNat = s.kernel.nextId.toNat + 1 := by
    rintro o rfl
    have hone := hbound o rfl
    cases hm with
    | create => exact (UInt32.toNat_add ..).trans (Nat.mod_eq_of_lt hone)
  refine ⟨?_, hcreate⟩
  obtain heq | ⟨o, ho, -⟩ := hm.nextId
  · rw [heq]
  · rw [hcreate o ho]
    omega

/-- Threads have positive ids that have been handed out. -/
theorem Numbered.ids_step (h : s.kernel.Numbered) (hc : s.kernel.Coherent) (hm : Move l s s')
    (hbound : ∀ o, l = .create o → s.kernel.nextId.toNat + 1 < 2 ^ 32) : 0 < s'.kernel.nextId.toNat ∧
      ∀ x t, s'.kernel.thread? x = some t → 0 < x.toNat ∧ x.toNat < s'.kernel.nextId.toNat := by
  obtain ⟨hle, hcreate⟩ := nextId_le_step hm hbound
  have hpos := h.ids.1
  refine ⟨by omega, fun x t' ht' => ?_⟩
  obtain ⟨t, ht, -⟩ | ⟨hl, -, hid⟩ := hm.thread hc ht'
  · have hx := h.ids.2 x t ht
    omega
  · have hnext := hcreate _ hl
    rw [← id_of_thread? ht', hid]
    omega

/-- Whoever was started is not stopped again. -/
theorem stopped_step (hc : s.kernel.Coherent) (hm : Move l s s')
    (hlt : id.toNat < s.kernel.nextId.toNat) (h : ∀ t, s.kernel.thread? id = some t → t.status.stopped = false) :
    ∀ t, s'.kernel.thread? id = some t → t.status.stopped = false := by
  intro t' ht'
  obtain ⟨t, ht, hstep⟩ | ⟨-, -, hid⟩ := hm.thread hc ht'
  · by_contra hstopped
    have hs := hstep.stopped_of_stopped (by simpa using hstopped)
    rw [h t ht] at hs
    cases hs
  · rw [← id_of_thread? ht', hid] at hlt
    omega

/-- There are no more different ids in a range than numbers. -/
theorem length_le_of_nodup {ids : List ThreadId} {low high : Nat} (hn : ids.Nodup)
    (h : ∀ id ∈ ids, low ≤ id.toNat ∧ id.toNat < high) : ids.length ≤ high - low := by
  have hnodup : (ids.map UInt32.toNat).Nodup := List.Nodup.map (fun _ _ => UInt32.toNat_inj.mp) hn
  have hsub : ids.map UInt32.toNat ⊆ List.range' low (high - low) := by
    intro m hm
    obtain ⟨id, hid, rfl⟩ := List.mem_map.mp hm
    have hid := h id hid
    rw [List.mem_range'_1]
    omega
  have hle := (List.subperm_of_subset hnodup hsub).length_le
  rwa [List.length_map, List.length_range'] at hle

theorem contexts_launch (k : Kernel) (t : Thread) (context : ContextId) :
    (k.launch t context).contexts = k.contexts := by
  unfold launch
  rw [contexts_schedule]
  split <;> rfl

theorem thread?_launch (k : Kernel) (t : Thread) (context : ContextId) (x : ThreadId) : (k.launch t context).thread? x =
    if t.id = x then some { t with context := some context, status := .onlyReady } else k.thread? x := by
  rw [thread?, objects_launch]
  exact thread?_putThread _ x

/-- Only the start of a thread makes a context. -/
theorem numbers_step (hm : Move l s s') (hl : ∀ id, l ≠ .launch id) :
    s'.kernel.contexts.nextId = s.kernel.contexts.nextId ∧
      ∀ c, (s'.kernel.contexts.get? c).isSome = true → (s.kernel.contexts.get? c).isSome = true := by
  obtain ⟨hids, -⟩ | ⟨id, rfl | rfl | rfl⟩ := hm.keeps
  · exact ⟨hids.nextId, fun c hlive => hids.live c ▸ hlive⟩
  · exact absurd rfl (hl id)
  · cases hm with
    | strip ht hs hx =>
      obtain rfl | ⟨c₀, -, rfl⟩ := hx
      · exact ⟨rfl, fun c hlive => hlive⟩
      · refine ⟨rfl, fun c hlive => ?_⟩
        dsimp only at hlive
        rw [Contexts.get?_release] at hlive
        split at hlive
        · cases hlive
        · exact hlive
  · cases hm with
    | bury => exact ⟨rfl, fun c hlive => hlive⟩

/-- A stopped thread that is started gets a new number. -/
theorem Numbered.launch (h : k.Numbered) (ht : k.thread? t.id = some t) (hs : t.status = .onlyStopped)
    (registers : Registers) : ((k.allocateContext t.entry registers).launch t k.contexts.freshId).Numbered := by
  have hthread := thread?_launch (k.allocateContext t.entry registers) t k.contexts.freshId
  have hcontexts := contexts_launch (k.allocateContext t.entry registers) t k.contexts.freshId
  have hids : ((k.allocateContext t.entry registers).launch t k.contexts.freshId).nextId = k.nextId := by
    rw [nextId, objects_launch]
    rfl
  generalize (k.allocateContext t.entry registers).launch t k.contexts.freshId = k' at hthread hcontexts hids ⊢
  obtain ⟨launched, hn, hlen, hall⟩ := h.launched
  have htid := h.ids.2 t.id t ht
  have hmem : t.id ∉ launched := by
    intro hmem
    have hstopped := (hall t.id hmem).2.2 t ht
    rw [hs] at hstopped
    cases hstopped
  -- The threads that were started, this one included, are fewer than the ids.
  have hcount := length_le_of_nodup (List.nodup_cons.mpr ⟨hmem, hn⟩)
    (List.forall_mem_cons.mpr ⟨htid, fun id hid => ⟨(hall id hid).1, (hall id hid).2.1⟩⟩)
  rw [List.length_cons] at hcount
  have hpos := h.ids.1
  have hroom := UInt32.toNat_lt k.nextId
  have hfresh : k.contexts.freshId = k.contexts.nextId := Contexts.freshId_eq h.numbers.1
  have hnext : k'.contexts.nextId.toNat = k.contexts.nextId.toNat + 1 := by
    rw [hcontexts]
    show (k.contexts.freshId + 1).toNat = _
    rw [hfresh, UInt32.toNat_add, show (1 : UInt32).toNat = 1 from rfl, Nat.mod_eq_of_lt (by omega)]
  refine ⟨⟨by rw [hids]; exact h.ids.1, fun x t' ht' => ?_⟩, ⟨by omega, fun c hlive => ?_⟩, t.id :: launched,
    List.nodup_cons.mpr ⟨hmem, hn⟩, by rw [List.length_cons]; omega, fun id hid => ?_⟩
  · rw [hthread] at ht'
    rw [hids]
    split at ht'
    · next hx => exact hx ▸ htid
    · exact h.ids.2 x t' ht'
  · have hget : k'.contexts.get? c = if k.contexts.freshId = c then some ⟨t.entry, registers⟩ else k.contexts.get? c := by
      rw [hcontexts]
      exact Contexts.get?_allocate ..
    rw [hget, hfresh] at hlive
    split at hlive
    · next hc =>
      rw [← hc]
      omega
    · have hlt := h.numbers.2 c hlive
      omega
  · rw [hids]
    by_cases hx : t.id = id
    · subst hx
      refine ⟨htid.1, htid.2, fun t' ht' => ?_⟩
      rw [hthread, if_pos rfl, Option.some.injEq] at ht'
      rw [← ht']
      rfl
    · have hid' := hall id ((List.mem_cons.mp hid).resolve_left fun heq => hx heq.symm)
      refine ⟨hid'.1, hid'.2.1, fun t' ht' => hid'.2.2 t' ?_⟩
      rw [hthread, if_neg hx] at ht'
      exact ht'

/-- **Numbers of contexts do not run out** before ids of objects do. -/
theorem Numbered.step (h : s.kernel.Numbered) (hc : s.kernel.Coherent) (hm : Move l s s')
    (hbound : ∀ o, l = .create o → s.kernel.nextId.toNat + 1 < 2 ^ 32) : s'.kernel.Numbered := by
  by_cases hlaunch : ∃ id, l = .launch id
  · obtain ⟨id, rfl⟩ := hlaunch
    cases hm with
    | launch ht hs => exact h.launch ht hs _
  · obtain ⟨hle, -⟩ := nextId_le_step hm hbound
    obtain ⟨hnext, hlive⟩ := numbers_step hm fun id hid => hlaunch ⟨id, hid⟩
    obtain ⟨launched, hn, hlen, hall⟩ := h.launched
    rw [← hnext] at hlen
    refine ⟨h.ids_step hc hm hbound, ?_, launched, hn, hlen, fun id hid => ?_⟩
    · rw [hnext]
      exact ⟨h.numbers.1, fun c hc' => h.numbers.2 c (hlive c hc')⟩
    · obtain ⟨hpos, hlt, hstopped⟩ := hall id hid
      exact ⟨hpos, by omega, stopped_step hc hm hlt hstopped⟩

/-! ### Threads and contexts -/

/-- The context of a thread, if it has one. -/
def contextOf? (k : Kernel) (id : ThreadId) : Option ContextId := (k.thread? id).bind (·.context)

theorem contextOf?_eq_some : k.contextOf? id = some c ↔ ∃ t, k.thread? id = some t ∧ t.context = some c :=
  Option.bind_eq_some_iff

/-- Threads with contexts have live ones, each its own, and a thread that runs or waits has been started. -/
structure Leased (k : Kernel) : Prop where
  live : ∀ x c, k.contextOf? x = some c → (k.contexts.get? c).isSome = true
  apart : ∀ x y c, k.contextOf? x = some c → k.contextOf? y = some c → x = y
  listed : ∀ x t, k.thread? x = some t → t.isDormant = false → x ∈ k.started

/-- Whoever has a context had it before the move, or got it by its start. -/
theorem held_step (hc : s.kernel.Coherent) (hm : Move l s s') (hheld : s'.kernel.contextOf? x = some c) :
    s.kernel.contextOf? x = some c ∨ (l = .launch x ∧ c = s.kernel.contexts.freshId) := by
  obtain ⟨t', ht', hx⟩ := contextOf?_eq_some.mp hheld
  obtain ⟨t, ht, hstep⟩ | ⟨-, hnew, -⟩ := hm.thread hc ht'
  · have hid := id_of_thread? ht
    obtain heq | hl | hl := hstep.context_eq
    · exact Or.inl (contextOf?_eq_some.mpr ⟨t, ht, heq.symm.trans hx⟩)
    · rw [hid] at hl
      subst hl
      cases hm with
      | launch hu =>
        rw [thread?_launch, if_pos rfl, Option.some.injEq] at ht'
        rw [← ht', Option.some.injEq] at hx
        exact Or.inr ⟨rfl, hx.symm⟩
    · rw [hid] at hl
      subst hl
      cases hm with
      | @strip k L u contexts hu =>
        have hput : some u.strip = some t' := (thread?_putThread_self u.strip).symm.trans ht'
        cases hput
        cases hx
  · have hnone : t'.context = none := hnew.2.2.2.1
    rw [hnone] at hx
    cases hx

/-- A live context stays, unless its thread is deleted. -/
theorem live_step (hm : Move l s s') (hlive : (s.kernel.contexts.get? c).isSome = true) :
    (s'.kernel.contexts.get? c).isSome = true ∨ ∃ id, s.kernel.contextOf? id = some c ∧
      s'.kernel.contextOf? id = none := by
  obtain ⟨hids, -⟩ | ⟨id, rfl | rfl | rfl⟩ := hm.keeps
  · exact Or.inl ((hids.live c).trans hlive)
  · cases hm with
    | @launch k L t registers =>
      refine Or.inl ?_
      rw [contexts_launch]
      show ((k.contexts.allocate t.entry registers).get? c).isSome = true
      rw [Contexts.get?_allocate]
      split
      · rfl
      · exact hlive
  · cases hm with
    | @strip k L t contexts ht hs hx =>
      obtain rfl | ⟨c', hc', rfl⟩ := hx
      · exact Or.inl hlive
      · by_cases heq : c' = c
        · subst heq
          have hgone : ({ k.putThread t.strip with contexts := k.contexts.release c' } : Kernel).thread? t.id =
              some t.strip := thread?_putThread_self t.strip
          refine Or.inr ⟨t.id, contextOf?_eq_some.mpr ⟨t, ht, hc'⟩, ?_⟩
          rw [contextOf?, hgone]
          rfl
        · refine Or.inl ?_
          show ((k.contexts.release c').get? c).isSome = true
          rw [Contexts.get?_release, if_neg heq]
          exact hlive
  · cases hm with
    | bury => exact Or.inl hlive

/-- A started thread stays among the started ones as long as it is registered, and a thread that starts joins them. -/
theorem mem_started_step (hm : Move l s s') (ht' : s'.kernel.thread? x = some t')
    (h : x ∈ s.kernel.started ∨ l = .launch x) : x ∈ s'.kernel.started := by
  have hlaunch : ∀ (k : Kernel) (t : Thread) (c : ContextId), x = t.id ∨ x ∈ k.started → x ∈ (k.launch t c).started := by
    intro k t c hx
    rw [started_launch]
    split
    · next hmem => exact hx.elim (fun heq => heq ▸ hmem) id
    · rcases hx with rfl | hx
      · exact List.mem_append_right _ (List.mem_singleton_self _)
      · exact List.mem_append_left _ hx
  obtain hmem | rfl := h
  · obtain ⟨-, heq⟩ | ⟨id, rfl | rfl | rfl⟩ := hm.keeps
    · rwa [heq]
    · cases hm with
      | launch => exact hlaunch _ _ _ (Or.inr hmem)
    · cases hm with
      | strip => exact hmem
    · cases hm with
      | @bury k L u hu =>
        have hne : x ≠ u.id := by
          rintro rfl
          have hgone : (k.objects.erase u.id).thread? u.id = none := by
            rw [ObjectTable.thread?_erase, if_pos rfl]
          cases hgone.symm.trans ht'
        exact List.mem_filter.mpr ⟨hmem, by simpa using hne⟩
  · cases hm with
    | launch => exact hlaunch _ _ _ (Or.inl rfl)

/-- A thread that runs or waits is among the started ones. -/
theorem listed_step (h : s.kernel.Leased) (hc : s.kernel.Coherent) (hm : Move l s s')
    (ht' : s'.kernel.thread? x = some t') (hd : t'.isDormant = false) : x ∈ s'.kernel.started := by
  refine mem_started_step hm ht' ?_
  obtain ⟨t, ht, hstep⟩ | ⟨-, hnew, -⟩ := hm.thread hc ht'
  · rw [← id_of_thread? ht]
    exact (hstep.active_of_active hd).imp_left fun hd' => h.listed t.id t (thread?_id ht) hd'
  · unfold Thread.isDormant at hd
    rw [hnew.1] at hd
    cases hd

/-- **Each move keeps threads and contexts apart.** -/
theorem Leased.step (h : s.kernel.Leased) (hn : s.kernel.Numbered) (hc : s.kernel.Coherent) (hm : Move l s s') :
    s'.kernel.Leased := by
  have hfresh : ∀ x c, s.kernel.contextOf? x = some c → c ≠ s.kernel.contexts.freshId := by
    intro x c hx heq
    have hlt := hn.numbers.2 c (h.live x c hx)
    rw [heq, Contexts.freshId_eq hn.numbers.1] at hlt
    exact Nat.lt_irrefl _ hlt
  refine ⟨fun x c hx => ?_, fun x y c hx hy => ?_, fun x t' ht' hd => listed_step h hc hm ht' hd⟩
  · obtain hx' | ⟨rfl, rfl⟩ := held_step hc hm hx
    · obtain hlive | ⟨y, hy, hgone⟩ := live_step hm (h.live x c hx')
      · exact hlive
      · -- The context goes with its thread, and the thread is this one.
        rw [h.apart x y c hx' hy, hgone] at hx
        cases hx
    · cases hm with
      | @launch k L t registers =>
        rw [contexts_launch]
        show ((k.contexts.allocate t.entry registers).get? k.contexts.freshId).isSome = true
        rw [Contexts.get?_allocate, if_pos rfl]
        rfl
  · obtain hx' | ⟨hlx, hcx⟩ := held_step hc hm hx <;> obtain hy' | ⟨hly, hcy⟩ := held_step hc hm hy
    · exact h.apart x y c hx' hy'
    · exact absurd hcy (hfresh x c hx')
    · exact absurd hcx (hfresh y c hy')
    · rw [hlx] at hly
      cases hly
      rfl

/-! ### Runs -/

/-- A new kernel has no contexts. -/
theorem leased_new (config : KernelConfig) (memory : Memory) :
    (Kernel.new config memory).Leased ∧ (Kernel.new config memory).Numbered := by
  have hno : ∀ x t, (Kernel.new config memory).thread? x ≠ some t := by
    intro x t ht
    rw [thread?_new] at ht
    cases ht
  have hcontexts : (Kernel.new config memory).contexts = {} := by
    obtain ⟨partitions, journal, heq, -⟩ := new_cases config memory
    rw [heq]
  have hnext := nextId_new config memory
  have hnone : ∀ x c, (Kernel.new config memory).contextOf? x ≠ some c := by
    intro x c hx
    obtain ⟨t, ht, -⟩ := contextOf?_eq_some.mp hx
    exact hno x t ht
  refine ⟨⟨fun x c hx => absurd hx (hnone x c), fun x y c hx => absurd hx (hnone x c), fun x t ht => absurd ht (hno x t)⟩,
    ⟨by omega, fun x t ht => absurd ht (hno x t)⟩, ?_, [], List.nodup_nil, ?_, nofun⟩
  · rw [hcontexts]
    refine ⟨by decide, fun c hlive => ?_⟩
    have hnone : ({} : Contexts).get? c = none := Std.ExtTreeMap.getElem?_empty
    rw [hnone] at hlive
    cases hlive
  · rw [hcontexts]
    decide

/-- An operation gives out at most one context, which is new. -/
theorem leased_after {o : Operation} (hc : k.Coherent ∧ k.IdsBelow) (hn : k.started.Nodup) (hbound : k.SparesLastId o)
    (h : k.Leased ∧ k.Numbered) : (k.after o).Leased ∧ (k.after o).Numbered := by
  have hafter := permitted_after (P := fun s => s.kernel.Leased ∧ s.kernel.Numbered) hc hn hbound ?_ h
  · obtain ⟨-, L, hleased, -⟩ := hafter
    exact hleased
  rintro l s s' hl hc - hm ⟨hleased, hnumbered⟩
  refine ⟨hleased.step hnumbered hc hm, hnumbered.step hc hm ?_⟩
  rintro x rfl
  cases hm with
  | create hid => exact hl.room hid hbound

/-- **In every reachable state the threads have contexts of their own**, as long as ids have not run out. -/
theorem leased_run (config : KernelConfig) (memory : Memory) (operations : List Operation)
    (h : (Kernel.new config memory).handedOut operations < 2 ^ 32 - 1) :
    (((Kernel.new config memory).run operations).Coherent ∧ ((Kernel.new config memory).run operations).IdsBelow) ∧
      ((Kernel.new config memory).run operations).Leased ∧ ((Kernel.new config memory).run operations).Numbered :=
  reachable_keeps (P := fun k => k.Leased ∧ k.Numbered) h (leased_new config memory) fun _ _ => leased_after

end Kernel

end GuestKernel
