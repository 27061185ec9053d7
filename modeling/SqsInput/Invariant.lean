import SqsInput.Reader
import Mathlib.Data.List.Nodup

/-!
# Well-formed reader states

What one step of each goroutine can do is said once, by an inversion lemma per event
(`step_receive`, `step_ack`, ...). Every invariant below is then a case analysis over these.

`Wf` collects the facts that every reachable state satisfies and that the later modules
share:

* the fetch loop's buffer is what it received and has not dispatched, and `AddNew` is offered
  that buffer;
* every handle received is a distinct cell of the heap;
* the tracker stores each handle under its own id, only handles that `AddNew` inserted, and
  none that the ack loop has marked;
* every marked handle was dispatched and keeps the `DELETED` sentinel;
* `refreshLock` is held by exactly the one refresh goroutine past its `TryLock`, if any.
-/

namespace SqsInput

open SqsInFlightTracker

/-! ## What a step can do -/

section Inversion

variable {cfg : SqsiConfig} {s s' : Reader}

theorem step_receive {res : Option (List (Message × Nat))}
    (h : step cfg s (.receive res) = some s') :
    s.fetch = .running ∧ s.pendingMsgs = [] ∧ s' = s.getMsgs cfg res := by
  simp only [step, Option.ite_none_right_eq_some, Option.some.injEq] at h
  exact ⟨h.1.1, h.1.2, h.2.symm⟩

theorem step_addBatch (h : step cfg s .addBatch = some s') :
    ∃ b, s.fetch = .adding b ∧ hasRoom cfg.maxOutstanding s.tracker = true ∧
      s' = { s with
        tracker := addNew s.heap b s.tracker
        fetch := .running
        inserted := s.inserted ++ handlesOf b } := by
  simp only [step] at h
  split at h
  · simp only [Option.ite_none_right_eq_some, Option.some.injEq] at h
    exact ⟨_, ‹_›, h.1, h.2.symm⟩
  · cases h

theorem step_abandonAdd (h : step cfg s .abandonAdd = some s') :
    (∃ b, s.fetch = .adding b) ∧ s.softStopped = true ∧ s' = { s with fetch := .running } := by
  simp only [step] at h
  split at h
  · simp only [Option.ite_none_right_eq_some, Option.some.injEq] at h
    exact ⟨⟨_, ‹_›⟩, h.1.2, h.2.symm⟩
  · cases h

theorem step_wake (h : step cfg s .wake = some s') :
    s.fetch = .sleeping ∧ s' = { s with fetch := .running } := by
  simp only [step, Option.ite_none_right_eq_some, Option.some.injEq] at h
  exact ⟨h.1, h.2.symm⟩

theorem step_dispatch (h : step cfg s .dispatch = some s') :
    ∃ m rest, s.fetch = .running ∧ s.pendingMsgs = m :: rest ∧
      s' = { s with pendingMsgs := rest, dispatched := s.dispatched ++ [m] } := by
  simp only [step] at h
  split at h
  · rename_i m rest hf hp
    cases h
    exact ⟨m, rest, hf, hp, rfl⟩
  · cases h

theorem step_fetchExit {o : Outcome} (h : step cfg s (.fetchExit o) = some s') :
    s.softStopped = true ∧ (s.fetch = .sleeping ∨ s.fetch = .running ∧ s.pendingMsgs ≠ []) ∧
      s' = { s with
        fetch := .stopped
        log := s.log ++ readLoopFinaliser cfg s.heap s.pendingMsgs o } := by
  simp only [step, Option.ite_none_right_eq_some, Option.some.injEq] at h
  exact ⟨h.1.1, h.1.2, h.2.symm⟩

theorem step_ack {r : Nat} {o : Outcome} (h : step cfg s (.ack r o) = some s') :
    s.ackRunning = true ∧ s.ackable r ∧ s' = s.handleAck cfg r true o := by
  simp only [step, Option.ite_none_right_eq_some, Option.some.injEq] at h
  exact ⟨h.1.1, h.1.2, h.2.symm⟩

theorem step_nack {r : Nat} {o : Outcome} (h : step cfg s (.nack r o) = some s') :
    s.ackRunning = true ∧ s.ackable r ∧ s' = s.handleAck cfg r false o := by
  simp only [step, Option.ite_none_right_eq_some, Option.some.injEq] at h
  exact ⟨h.1.1, h.1.2, h.2.symm⟩

theorem step_tick {oAcks oNacks : Outcome} (h : step cfg s (.tick oAcks oNacks) = some s') :
    s.ackRunning = true ∧ s' = { s with
      refreshes := s.refreshes ++ [.spawned]
      log := s.log ++ flushAll cfg s oAcks oNacks } := by
  simp only [step, Option.ite_none_right_eq_some, Option.some.injEq] at h
  exact ⟨h.1, h.2.symm⟩

theorem step_ackExit {oAcks oNacks : Outcome} (h : step cfg s (.ackExit oAcks oNacks) = some s') :
    s.ackRunning = true ∧ s.softStopped = true ∧ s' = { s with
      ackRunning := false
      tracker := ∅
      log := s.log ++ flushAll cfg s oAcks oNacks } := by
  simp only [step, Option.ite_none_right_eq_some, Option.some.injEq] at h
  exact ⟨h.1.1, h.1.2, h.2.symm⟩

theorem step_refreshStart {i : Nat} (h : step cfg s (.refreshStart i) = some s') :
    s.refreshes[i]? = some .spawned ∧
      (s.refreshLocked = true ∧ s' = s.setRefresh i .finished ∨
        s.refreshLocked = false ∧ s' = { s.setRefresh i .locked with refreshLocked := true }) := by
  simp only [step, Option.ite_none_right_eq_some] at h
  refine ⟨h.1, ?_⟩
  cases hl : s.refreshLocked
  · simp only [hl, Bool.false_eq_true, if_false, Option.some.injEq] at h
    exact .inr ⟨rfl, h.2.symm⟩
  · simp only [hl, if_true, Option.some.injEq] at h
    exact .inl ⟨rfl, h.2.symm⟩

theorem step_refreshPull {i now : Nat} {order : List Nat}
    (h : step cfg s (.refreshPull i now order) = some s') :
    s.refreshes[i]? = some .locked ∧
      order.Perm (pullToRefresh cfg.messageTimeout now s.tracker s.heap).1 ∧
      s' = { s with heap := (pullToRefresh cfg.messageTimeout now s.tracker s.heap).2 }.afterPull
        i order := by
  simp only [step, Option.ite_none_right_eq_some, Option.some.injEq] at h
  exact ⟨h.1.1, h.1.2, h.2.symm⟩

theorem step_refreshScan {i : Nat} (h : step cfg s (.refreshScan i) = some s') :
    ∃ msgs entries, s.refreshes[i]? = some (.scanning msgs entries) ∧
      s' = s.setRefresh i (scanNext s.heap msgs entries) := by
  simp only [step] at h
  split at h
  · cases h; exact ⟨_, _, ‹_›, rfl⟩
  · cases h

theorem step_refreshSend {i : Nat} {ok : Bool} (h : step cfg s (.refreshSend i ok) = some s') :
    ∃ entries msgs, s.refreshes[i]? = some (.sending entries msgs) ∧
      s' = { s with
        log := s.log ++ [Rpc.changeMessageVisibilityBatch .refresh entries
          (toInt32 cfg.timeoutSeconds)] }.afterSend i (ok && s.ackRunning) msgs := by
  simp only [step] at h
  split at h
  · cases h; exact ⟨_, _, ‹_›, rfl⟩
  · cases h

theorem step_ackAfterStop {r : Nat} {o : Outcome} (h : step cfg s (.ackAfterStop r o) = some s') :
    s.softStopped = true ∧ s.ackable r ∧ s' = { s with
      acks := s.acks ++ [r]
      log := s.log ++ o.issued (deleteMessages cfg .ackFn [r]) } := by
  simp only [step, Option.ite_none_right_eq_some, Option.some.injEq] at h
  exact ⟨h.1.1, h.1.2, h.2.symm⟩

theorem step_nackAfterStop {r : Nat} {o : Outcome}
    (h : step cfg s (.nackAfterStop r o) = some s') :
    s.softStopped = true ∧ s.ackable r ∧ s' = { s with
      nacks := s.nacks ++ [r]
      log := s.log ++ o.issued (resetMessages cfg s.heap .ackFn [r]) } := by
  simp only [step, Option.ite_none_right_eq_some, Option.some.injEq] at h
  exact ⟨h.1.1, h.1.2, h.2.symm⟩

theorem step_softStop (h : step cfg s .softStop = some s') :
    s' = { s with softStopped := true } := by
  simp only [step, Option.some.injEq] at h
  exact h.symm

theorem step_closeReturn (h : step cfg s .closeReturn = some s') :
    s.softStopped = true ∧ s.fetch = .stopped ∧ s.ackRunning = false ∧
      s' = { s with closed := true } := by
  simp only [step, Option.ite_none_right_eq_some, Option.some.injEq] at h
  exact ⟨h.1.1, h.1.2.1, h.1.2.2, h.2.symm⟩

end Inversion

/-! ## Handles of messages -/

@[simp] theorem handlesOf_nil : handlesOf [] = [] := rfl

@[simp] theorem handlesOf_append (ms ms' : List SqsMessage) :
    handlesOf (ms ++ ms') = handlesOf ms ++ handlesOf ms' := List.filterMap_append _ _ _

theorem mem_handlesOf {ms : List SqsMessage} {r : Nat} :
    r ∈ handlesOf ms ↔ ∃ m ∈ ms, m.handle = some r := List.mem_filterMap

theorem Reader.ackable.mem_dispatched {s : Reader} {r : Nat} (h : s.ackable r) :
    r ∈ handlesOf s.dispatched :=
  let ⟨m, hm, _, hr⟩ := h
  mem_handlesOf.mpr ⟨m, hm, hr⟩

/-! ## The invariant -/

/-- The facts every reachable state satisfies. -/
structure Wf (s : Reader) : Prop where
  /-- The fetch loop's buffer is what it received and has not dispatched. -/
  received_eq : s.received = s.dispatched ++ s.pendingMsgs
  /-- `AddNew` is offered the buffer. -/
  adding_eq : ∀ {b}, s.fetch = .adding b → b = s.pendingMsgs
  /-- Every handle received is an allocated cell, -/
  handles_lt : ∀ r ∈ handlesOf s.received, r < s.heap.next
  /-- and no two received messages share one. -/
  handles_nodup : (handlesOf s.received).Nodup
  inserted_received : ∀ r ∈ s.inserted, r ∈ handlesOf s.received
  /-- The tracker stores a handle under its own id, -/
  tracked_id : ∀ {id r}, s.tracker.lookup id = some r → (s.heap.cell r).id = id
  /-- only a handle `AddNew` inserted, -/
  tracked_inserted : ∀ {id r}, s.tracker.lookup id = some r → r ∈ s.inserted
  /-- and never one the ack loop has marked. -/
  tracked_not_marked : ∀ {id r}, s.tracker.lookup id = some r → r ∉ s.marked
  marked_dispatched : ∀ r ∈ s.marked, r ∈ handlesOf s.dispatched
  /-- A marked handle keeps its `DELETED` sentinel. -/
  marked_deleted : ∀ r ∈ s.marked, s.heap.isDeleted r = true
  /-- `refreshLock` is held by exactly the refresh goroutine past its `TryLock`, if any. -/
  lock_count : s.refreshes.countP RefreshPc.holdsLock = if s.refreshLocked then 1 else 0

namespace Wf

variable {s : Reader} (hw : Wf s)
include hw

theorem received_of_dispatched {r : Nat} (hr : r ∈ handlesOf s.dispatched) :
    r ∈ handlesOf s.received := by
  rw [hw.received_eq, handlesOf_append]
  exact List.mem_append_left _ hr

theorem received_of_pending {r : Nat} (hr : r ∈ handlesOf s.pendingMsgs) :
    r ∈ handlesOf s.received := by
  rw [hw.received_eq, handlesOf_append]
  exact List.mem_append_right _ hr

theorem dispatched_not_pending {r : Nat} (hr : r ∈ handlesOf s.dispatched) :
    r ∉ handlesOf s.pendingMsgs := by
  have h := hw.handles_nodup
  rw [hw.received_eq, handlesOf_append] at h
  exact List.disjoint_of_nodup_append h hr

/-- The buffered messages carry distinct handles. -/
theorem pending_nodup : (handlesOf s.pendingMsgs).Nodup := by
  have h := hw.handles_nodup
  rw [hw.received_eq, handlesOf_append] at h
  exact h.of_append_right

theorem tracked_lt {id : String} {r : Nat} (h : s.tracker.lookup id = some r) :
    r < s.heap.next :=
  hw.handles_lt r (hw.inserted_received r (hw.tracked_inserted h))

theorem marked_lt {r : Nat} (h : r ∈ s.marked) : r < s.heap.next :=
  hw.handles_lt r (hw.received_of_dispatched (hw.marked_dispatched r h))

theorem not_mem_refs_of_marked {r : Nat} (h : r ∈ s.marked) : r ∉ refs s.tracker := fun hr =>
  let ⟨_, hl⟩ := mem_refs.mp hr
  hw.tracked_not_marked hl h

/-- Since a handle is stored under its own id, no handle is stored twice. -/
theorem refs_nodup : (refs s.tracker).Nodup := by
  refine List.Nodup.map_on ?_ s.tracker.nodupKeys.nodup
  rintro ⟨a, r⟩ ha ⟨b, r'⟩ hb (rfl : r = r')
  have hia := hw.tracked_id (Option.mem_def.mp (AList.mem_lookup_iff.mpr ha))
  have hib := hw.tracked_id (Option.mem_def.mp (AList.mem_lookup_iff.mpr hb))
  rw [← hia, ← hib]

end Wf

theorem Wf.connect : Wf connect where
  received_eq := rfl
  adding_eq := by simp [SqsInput.connect]
  handles_lt := by simp [SqsInput.connect]
  handles_nodup := List.nodup_nil
  inserted_received := by simp [SqsInput.connect]
  tracked_id := by simp [SqsInput.connect, AList.lookup_empty]
  tracked_inserted := by simp [SqsInput.connect, AList.lookup_empty]
  tracked_not_marked := by simp [SqsInput.connect, AList.lookup_empty]
  marked_dispatched := by simp [SqsInput.connect]
  marked_deleted := by simp [SqsInput.connect]
  lock_count := rfl

/-! ## The fetch loop keeps it -/

section Fetch

variable {cfg : SqsiConfig} {s s' : Reader} (hw : Wf s)
include hw

theorem Wf.receive {res : Option (List (Message × Nat))}
    (h : step cfg s (.receive res) = some s') : Wf s' := by
  obtain ⟨-, hp, rfl⟩ := step_receive h
  have hH := handlesOf_wrapMessages cfg.messageTimeout s.heap (res.getD [])
  have hle := next_le_wrapMessages cfg.messageTimeout s.heap (res.getD [])
  have hcell : ∀ r < s.heap.next,
      (wrapMessages cfg.messageTimeout s.heap (res.getD [])).2.cell r = s.heap.cell r :=
    fun r hr => wrapMessages_cell_of_lt cfg.messageTimeout hr _
  have hold : ∀ r ∈ handlesOf s.received, r < s.heap.next := hw.handles_lt
  refine ⟨?_, ?_, ?_, ?_, ?_, ?_, hw.tracked_inserted, hw.tracked_not_marked, hw.marked_dispatched,
    ?_, hw.lock_count⟩
  · simp only [Reader.getMsgs, hw.received_eq, List.append_assoc]
  · intro b hb
    simp only [Reader.getMsgs] at hb ⊢
    split at hb
    · cases hb
    · cases hb; rw [hp, List.nil_append]
  · simp only [Reader.getMsgs, handlesOf_append, List.mem_append]
    rw [hH]
    rintro r (hr | hr)
    · exact lt_of_lt_of_le (hold r hr) hle
    · rw [List.mem_range'_1] at hr; omega
  · simp only [Reader.getMsgs, handlesOf_append]
    rw [hH]
    refine List.nodup_append.mpr ⟨hw.handles_nodup, List.nodup_range' _ _, ?_⟩
    intro r hr hr'
    rw [List.mem_range'_1] at hr'
    exact absurd (hold r hr) (by omega)
  · intro r hr
    simp only [Reader.getMsgs, handlesOf_append]
    exact List.mem_append_left _ (hw.inserted_received r hr)
  · intro id r hl
    simp only [Reader.getMsgs] at hl ⊢
    rw [hcell r (hw.tracked_lt hl)]
    exact hw.tracked_id hl
  · intro r hr
    simp only [Reader.getMsgs, Heap.isDeleted] at hr ⊢
    rw [hcell r (hw.marked_lt hr)]
    exact hw.marked_deleted r hr

theorem Wf.addBatch (h : step cfg s .addBatch = some s') : Wf s' := by
  obtain ⟨b, hb, -, rfl⟩ := step_addBatch h
  have hbp := hw.adding_eq hb
  subst hbp
  refine { hw with
    adding_eq := by simp
    inserted_received := ?_
    tracked_id := ?_
    tracked_inserted := ?_
    tracked_not_marked := ?_ }
  · simp only [List.mem_append]
    rintro r (hr | hr)
    · exact hw.inserted_received r hr
    · exact hw.received_of_pending hr
  all_goals
    intro id r hl
    rcases lookup_addNew hl with hl | ⟨⟨m, hm, hr⟩, hid⟩
  · exact hw.tracked_id hl
  · exact hid
  · exact List.mem_append_left _ (hw.tracked_inserted hl)
  · exact List.mem_append_right _ (mem_handlesOf.mpr ⟨m, hm, hr⟩)
  · exact hw.tracked_not_marked hl
  · exact fun hmk => hw.dispatched_not_pending (hw.marked_dispatched r hmk)
      (mem_handlesOf.mpr ⟨m, hm, hr⟩)

theorem Wf.abandonAdd (h : step cfg s .abandonAdd = some s') : Wf s' := by
  obtain ⟨-, -, rfl⟩ := step_abandonAdd h
  exact { hw with adding_eq := by simp }

theorem Wf.wake (h : step cfg s .wake = some s') : Wf s' := by
  obtain ⟨-, rfl⟩ := step_wake h
  exact { hw with adding_eq := by simp }

theorem Wf.dispatch (h : step cfg s .dispatch = some s') : Wf s' := by
  obtain ⟨m, rest, hf, hp, rfl⟩ := step_dispatch h
  refine { hw with
    received_eq := by simp [hw.received_eq, hp]
    adding_eq := by simp [hf]
    marked_dispatched := fun r hr => ?_ }
  simp only [handlesOf_append]
  exact List.mem_append_left _ (hw.marked_dispatched r hr)

theorem Wf.fetchExit {o : Outcome} (h : step cfg s (.fetchExit o) = some s') : Wf s' := by
  obtain ⟨-, -, rfl⟩ := step_fetchExit h
  exact { hw with adding_eq := by simp }

end Fetch

/-! ## The ack loop keeps it -/

section AckLoop

variable {cfg : SqsiConfig} {s s' : Reader} (hw : Wf s)
include hw

/-- The ack and nack cases: the handle leaves the tracker as it is marked. -/
theorem Wf.handleAck {r : Nat} {erase : Bool} {o : Outcome} (hr : s.ackable r) :
    Wf (s.handleAck cfg r erase o) := by
  have hlook : ∀ {id r'}, (s.handleAck cfg r erase o).tracker.lookup id = some r' →
      id ≠ (s.heap.cell r).id ∧ s.tracker.lookup id = some r' := by
    intro id r' h
    simp only [Reader.handleAck, lookup_remove] at h
    split at h
    · cases h
    · exact ⟨‹_›, h⟩
  refine { hw with
    tracked_id := fun h => ?_
    tracked_inserted := fun h => hw.tracked_inserted (hlook h).2
    tracked_not_marked := fun h => ?_
    marked_dispatched := ?_
    marked_deleted := ?_ }
  · obtain ⟨-, hl⟩ := hlook h
    simpa only [Reader.handleAck, Heap.setDeadline_id] using hw.tracked_id hl
  · obtain ⟨hne, hl⟩ := hlook h
    simp only [Reader.handleAck, List.mem_append, List.mem_singleton, not_or]
    refine ⟨hw.tracked_not_marked hl, ?_⟩
    rintro rfl
    exact hne (hw.tracked_id hl).symm
  · simp only [Reader.handleAck, List.mem_append, List.mem_singleton]
    rintro r' (hr' | rfl)
    · exact hw.marked_dispatched r' hr'
    · exact hr.mem_dispatched
  · simp only [Reader.handleAck, List.mem_append, List.mem_singleton, Heap.isDeleted_setDeadline]
    rintro r' (hr' | rfl)
    · split
      · rfl
      · exact hw.marked_deleted r' hr'
    · simp [SqsMessageDeadline.isDeleted]

theorem Wf.ack {r : Nat} {o : Outcome} (h : step cfg s (.ack r o) = some s') : Wf s' := by
  obtain ⟨-, hr, rfl⟩ := step_ack h
  exact hw.handleAck hr

theorem Wf.nack {r : Nat} {o : Outcome} (h : step cfg s (.nack r o) = some s') : Wf s' := by
  obtain ⟨-, hr, rfl⟩ := step_nack h
  exact hw.handleAck hr

theorem Wf.tick {oAcks oNacks : Outcome} (h : step cfg s (.tick oAcks oNacks) = some s') :
    Wf s' := by
  obtain ⟨-, rfl⟩ := step_tick h
  exact { hw with lock_count := by simp [hw.lock_count, RefreshPc.holdsLock] }

theorem Wf.ackExit {oAcks oNacks : Outcome} (h : step cfg s (.ackExit oAcks oNacks) = some s') :
    Wf s' := by
  obtain ⟨-, -, rfl⟩ := step_ackExit h
  exact { hw with
    tracked_id := by simp [AList.lookup_empty]
    tracked_inserted := by simp [AList.lookup_empty]
    tracked_not_marked := by simp [AList.lookup_empty] }

end AckLoop

/-! ## Refresh goroutines keep it -/

/-- Moving goroutine `i` from `pc` to `pc'` changes how many goroutines satisfy `p` by the
difference. -/
theorem countP_set_add {l : List RefreshPc} {p : RefreshPc → Bool} {i : Nat} {pc : RefreshPc}
    (h : l[i]? = some pc) (pc' : RefreshPc) :
    (l.set i pc').countP p + (if p pc then 1 else 0) = l.countP p + (if p pc' then 1 else 0) := by
  obtain ⟨hi, rfl⟩ := List.getElem?_eq_some_iff.mp h
  rw [List.countP_set _ _ _ _ hi]
  have := List.boole_getElem_le_countP p l i hi
  omega

theorem scanNext_holdsLock (heap : Heap) (msgs entries : List Nat) :
    (scanNext heap msgs entries).holdsLock = true := by
  cases msgs with
  | nil => rfl
  | cons m ms =>
    simp only [scanNext]
    split
    · rfl
    · split <;> rfl

section Refresh

variable {cfg : SqsiConfig} {s s' : Reader} (hw : Wf s)
include hw

/-- A goroutine that holds `refreshLock` means the lock is taken, by it alone. -/
theorem Wf.locked_of_holds {i : Nat} {pc : RefreshPc} (h : s.refreshes[i]? = some pc)
    (hpc : pc.holdsLock = true) :
    s.refreshLocked = true ∧ s.refreshes.countP RefreshPc.holdsLock = 1 := by
  obtain ⟨hi, rfl⟩ := List.getElem?_eq_some_iff.mp h
  have hle := List.boole_getElem_le_countP RefreshPc.holdsLock s.refreshes i hi
  rw [hpc, if_pos rfl] at hle
  have hc := hw.lock_count
  cases hl : s.refreshLocked
  · simp only [hl, Bool.false_eq_true, if_false] at hc; omega
  · simp only [hl, if_true] at hc; exact ⟨rfl, hc⟩

/-- A goroutine holding the lock moves to another state that holds it. -/
theorem Wf.setRefresh_holding {i : Nat} {pc pc' : RefreshPc} (h : s.refreshes[i]? = some pc)
    (hpc : pc.holdsLock = true) (hpc' : pc'.holdsLock = true) : Wf (s.setRefresh i pc') := by
  refine { hw with lock_count := ?_ }
  have := countP_set_add (p := RefreshPc.holdsLock) h pc'
  rw [hpc, hpc'] at this
  simp only [Reader.setRefresh]
  rw [← hw.lock_count]
  simpa using this

/-- A goroutine holding the lock returns and releases it. -/
theorem Wf.finishRefresh {i : Nat} {pc : RefreshPc} (h : s.refreshes[i]? = some pc)
    (hpc : pc.holdsLock = true) : Wf (s.finishRefresh i) := by
  refine { hw with lock_count := ?_ }
  have := countP_set_add (p := RefreshPc.holdsLock) h .finished
  have hl := (hw.locked_of_holds h hpc).2
  rw [hpc] at this
  simp [RefreshPc.holdsLock] at this
  simp only [Reader.finishRefresh, Reader.setRefresh, Bool.false_eq_true, if_false]
  omega

theorem Wf.refreshStart {i : Nat} (h : step cfg s (.refreshStart i) = some s') : Wf s' := by
  obtain ⟨hi, ⟨hl, rfl⟩ | ⟨hl, rfl⟩⟩ := step_refreshStart h
  all_goals
    refine { hw with lock_count := ?_ }
    have hc := hw.lock_count
    simp only [hl, Bool.false_eq_true, if_false, if_true] at hc
  · have := countP_set_add (p := RefreshPc.holdsLock) hi .finished
    simp [RefreshPc.holdsLock] at this
    simp [Reader.setRefresh, hl]
    omega
  · have := countP_set_add (p := RefreshPc.holdsLock) hi .locked
    simp [RefreshPc.holdsLock] at this
    simp [Reader.setRefresh]
    omega

theorem Wf.refreshPull {i now : Nat} {order : List Nat}
    (h : step cfg s (.refreshPull i now order) = some s') : Wf s' := by
  obtain ⟨hi, -, rfl⟩ := step_refreshPull h
  have hw' : Wf { s with heap := (pullToRefresh cfg.messageTimeout now s.tracker s.heap).2 } :=
    { hw with
      handles_lt := by simpa using hw.handles_lt
      tracked_id := fun hl => by simpa using hw.tracked_id hl
      marked_deleted := fun r hr => by
        simpa only [Heap.isDeleted, pullToRefresh_deadline_of_not_mem
          (hw.not_mem_refs_of_marked hr)] using hw.marked_deleted r hr }
  rw [Reader.afterPull_eq]
  split
  · exact hw'.finishRefresh hi rfl
  · exact hw'.setRefresh_holding hi rfl rfl

theorem Wf.refreshScan {i : Nat} (h : step cfg s (.refreshScan i) = some s') : Wf s' := by
  obtain ⟨msgs, entries, hi, rfl⟩ := step_refreshScan h
  exact hw.setRefresh_holding hi rfl (scanNext_holdsLock _ _ _)

theorem Wf.refreshSend {i : Nat} {ok : Bool} (h : step cfg s (.refreshSend i ok) = some s') :
    Wf s' := by
  obtain ⟨entries, msgs, hi, rfl⟩ := step_refreshSend h
  have hw' : Wf { s with log := s.log ++ [Rpc.changeMessageVisibilityBatch .refresh entries
      (toInt32 cfg.timeoutSeconds)] } := { hw with }
  rw [Reader.afterSend_eq]
  split
  · exact hw'.setRefresh_holding hi rfl rfl
  · exact hw'.finishRefresh hi rfl

end Refresh

/-! ## Every step keeps it -/

section Step

variable {cfg : SqsiConfig} {s s' : Reader}

theorem Wf.step {e : Event} (hw : Wf s) (h : step cfg s e = some s') : Wf s' := by
  cases e with
  | receive res => exact hw.receive h
  | addBatch => exact hw.addBatch h
  | abandonAdd => exact hw.abandonAdd h
  | wake => exact hw.wake h
  | dispatch => exact hw.dispatch h
  | fetchExit o => exact hw.fetchExit h
  | ack r o => exact hw.ack h
  | nack r o => exact hw.nack h
  | tick oAcks oNacks => exact hw.tick h
  | ackExit oAcks oNacks => exact hw.ackExit h
  | refreshStart i => exact hw.refreshStart h
  | refreshPull i now order => exact hw.refreshPull h
  | refreshScan i => exact hw.refreshScan h
  | refreshSend i ok => exact hw.refreshSend h
  | ackAfterStop r o => obtain ⟨-, -, rfl⟩ := step_ackAfterStop h; exact { hw with }
  | nackAfterStop r o => obtain ⟨-, -, rfl⟩ := step_nackAfterStop h; exact { hw with }
  | softStop => rw [step_softStop h]; exact { hw with }
  | closeReturn => obtain ⟨-, -, -, rfl⟩ := step_closeReturn h; exact { hw with }

theorem Reachable.wf (hs : Reachable cfg s) : Wf s :=
  hs.induction Wf.connect fun hw h => hw.step h

/-- Induction over reachable states, with `Wf` of the state before each step at hand. -/
theorem Reachable.induction_wf {P : Reader → Prop} (h0 : P connect)
    (hstep : ∀ {s e s'}, Wf s → P s → SqsInput.step cfg s e = some s' → P s')
    (hs : Reachable cfg s) :
    P s :=
  (hs.induction (P := fun s => Wf s ∧ P s) ⟨Wf.connect, h0⟩
    fun hp h => ⟨hp.1.step h, hstep hp.1 hp.2 h⟩).2

end Step

end SqsInput
