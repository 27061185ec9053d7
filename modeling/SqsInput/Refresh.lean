import SqsInput.Acks

/-!
# Refresh passes and marked handles

A refresh pass takes its handles from `PullToRefresh` under the tracker's lock, and then, holding
only `refreshLock`, builds its requests one handle at a time, skipping each handle whose deadline
is already `DELETED`. The ack loop marks a handle `DELETED` as it takes it over, and takes it out
of the tracker at the same time, so a later `PullToRefresh` never returns it, and a pass that
reaches it afterwards skips it.

What the check cannot see is a handle that the pass has already put into the request it is
building: the ack loop may mark it between that check and the request, which then extends the
lease of a message already deleted or reset (`refresh_extends_acked`). That is the only way:
once a handle is marked, the requests issued afterwards extend it at most once, and only if the
one pass that holds `refreshLock` already carries it (`marked_extended_at_most_once`).

The argument counts the requests that extend a marked handle `r` and the goroutines that carry
`r`: no step increases their sum (`Wf.extensions_step`).
-/

namespace SqsInput

open SqsInFlightTracker

/-! ## Goroutines that carry a handle -/

/-- Refresh goroutine `pc` has put `r` into the request it is building or about to issue. -/
def RefreshPc.carries (r : Nat) : RefreshPc → Bool
  | .scanning _ entries | .sending entries _ => decide (r ∈ entries)
  | _ => false

/-- How many requests of `l` extend the lease of `r`. -/
def extensionsOf (r : Nat) (l : List Rpc) : Nat := l.countP fun rpc => decide (r ∈ rpc.extensions)

theorem RefreshPc.holdsLock_of_carries {r : Nat} {pc : RefreshPc} (h : pc.carries r = true) :
    pc.holdsLock = true := by
  cases pc <;> simp_all [carries, holdsLock]

/-- At most one goroutine carries a handle: only the one holding `refreshLock` can. -/
theorem Wf.countP_carries_le_one {s : Reader} (hw : Wf s) (r : Nat) :
    s.refreshes.countP (RefreshPc.carries r) ≤ 1 :=
  calc s.refreshes.countP (RefreshPc.carries r)
      ≤ s.refreshes.countP RefreshPc.holdsLock :=
        List.countP_mono_left fun _ _ h => RefreshPc.holdsLock_of_carries h
    _ = if s.refreshLocked then 1 else 0 := hw.lock_count
    _ ≤ 1 := by split <;> omega

/-- The inner loop skips a `DELETED` handle, so it never puts one into a request. -/
theorem carries_scanNext {heap : Heap} {r : Nat} (hd : heap.isDeleted r = true)
    (msgs entries : List Nat) :
    (scanNext heap msgs entries).carries r = (RefreshPc.scanning msgs entries).carries r := by
  cases msgs with
  | nil => rfl
  | cons m ms =>
    simp only [scanNext]
    split
    · rfl
    split <;>
    · simp only [RefreshPc.carries, List.mem_append, List.mem_singleton, decide_eq_decide]
      exact or_iff_left fun h => by simp_all

theorem extensionsOf_append (r : Nat) (l l' : List Rpc) :
    extensionsOf r (l ++ l') = extensionsOf r l + extensionsOf r l' :=
  List.countP_append _ _ _

theorem extensionsOf_eq_zero {r : Nat} {l : List Rpc} (h : ∀ rpc ∈ l, rpc.extensions = []) :
    extensionsOf r l = 0 :=
  List.countP_eq_zero.mpr fun rpc hr => by simp [h rpc hr]

/-! ## One step -/

section Step

variable {cfg : SqsiConfig} {s s' : Reader} {r : Nat}

/-- Moving goroutine `i` between two states that do not carry `r`. -/
theorem countP_carries_set {i : Nat} {pc pc' : RefreshPc} (h : s.refreshes[i]? = some pc)
    (hpc : pc.carries r = false) (hpc' : pc'.carries r = false) :
    (s.refreshes.set i pc').countP (RefreshPc.carries r) = s.refreshes.countP (RefreshPc.carries r) := by
  have := countP_set_add (p := RefreshPc.carries r) h pc'
  simpa [hpc, hpc'] using this

/-- A step that issues no extension and leaves the refresh goroutines alone. -/
theorem extensions_frame (hr : r ∈ s'.marked) (hrefresh : s'.refreshes = s.refreshes)
    (new : List Rpc) (hlog : s'.log = s.log ++ new) (hnew : ∀ rpc ∈ new, rpc.extensions = []) :
    r ∈ s'.marked ∧ ∃ new, s'.log = s.log ++ new ∧
      extensionsOf r new + s'.refreshes.countP (RefreshPc.carries r) ≤
        s.refreshes.countP (RefreshPc.carries r) :=
  ⟨hr, new, hlog, by rw [extensionsOf_eq_zero hnew, hrefresh, Nat.zero_add]⟩

theorem extensions_of_mem_flushAll {oAcks oNacks : Outcome} {rpc : Rpc}
    (h : rpc ∈ flushAll cfg s oAcks oNacks) : rpc.extensions = [] :=
  (mem_flushAll h).elim extensions_of_mem_deleteMessages extensions_of_mem_resetMessages

/-- **No step increases the extensions of a marked handle plus the goroutines carrying it.** -/
theorem Wf.extensions_step (hw : Wf s) (hr : r ∈ s.marked) {e : Event}
    (h : SqsInput.step cfg s e = some s') :
    r ∈ s'.marked ∧ ∃ new, s'.log = s.log ++ new ∧
      extensionsOf r new + s'.refreshes.countP (RefreshPc.carries r) ≤
        s.refreshes.countP (RefreshPc.carries r) := by
  have none : ∀ rpc ∈ ([] : List Rpc), rpc.extensions = [] := by simp
  cases e with
  | receive res =>
    obtain ⟨-, -, rfl⟩ := step_receive h
    exact extensions_frame hr rfl _ rfl fun rpc h => by
      simp only [List.mem_singleton] at h
      simp [h, Rpc.extensions]
  | addBatch =>
    obtain ⟨b, -, -, rfl⟩ := step_addBatch h
    exact extensions_frame hr rfl [] (List.append_nil _).symm none
  | abandonAdd =>
    obtain ⟨-, -, rfl⟩ := step_abandonAdd h
    exact extensions_frame hr rfl [] (List.append_nil _).symm none
  | wake =>
    obtain ⟨-, rfl⟩ := step_wake h
    exact extensions_frame hr rfl [] (List.append_nil _).symm none
  | dispatch =>
    obtain ⟨m, rest, -, -, rfl⟩ := step_dispatch h
    exact extensions_frame hr rfl [] (List.append_nil _).symm none
  | fetchExit o =>
    obtain ⟨-, -, rfl⟩ := step_fetchExit h
    exact extensions_frame hr rfl _ rfl fun rpc h =>
      extensions_of_mem_resetMessages (mem_readLoopFinaliser h)
  | ack r' o | nack r' o =>
    first
    | obtain ⟨-, -, rfl⟩ := step_ack h
    | obtain ⟨-, -, rfl⟩ := step_nack h
    obtain ⟨new, hlog, hnew⟩ := handleAck_log cfg s r' _ o
    refine extensions_frame (List.mem_append_left _ hr) rfl new hlog fun rpc h => ?_
    rcases hnew rpc h with ⟨-, h⟩ | ⟨-, h⟩
    · exact extensions_of_mem_deleteMessages h
    · exact extensions_of_mem_resetMessages h
  | tick oAcks oNacks =>
    obtain ⟨-, rfl⟩ := step_tick h
    refine ⟨hr, _, rfl, ?_⟩
    rw [extensionsOf_eq_zero fun rpc h => extensions_of_mem_flushAll h]
    simp [RefreshPc.carries]
  | ackExit oAcks oNacks =>
    obtain ⟨-, -, rfl⟩ := step_ackExit h
    exact extensions_frame hr rfl _ rfl fun rpc h => extensions_of_mem_flushAll h
  | refreshStart i =>
    obtain ⟨hi, ⟨-, rfl⟩ | ⟨-, rfl⟩⟩ := step_refreshStart h <;>
    exact ⟨hr, [], (List.append_nil _).symm, by
      rw [extensionsOf_eq_zero none, Nat.zero_add]
      exact le_of_eq (countP_carries_set hi rfl rfl)⟩
  | refreshPull i now order =>
    obtain ⟨hi, -, rfl⟩ := step_refreshPull h
    refine ⟨hr, [], (List.append_nil _).symm, ?_⟩
    rw [extensionsOf_eq_zero none, Nat.zero_add]
    simp only [Reader.afterPull]
    split <;> exact le_of_eq (countP_carries_set hi rfl (by simp [RefreshPc.carries]))
  | refreshScan i =>
    obtain ⟨msgs, entries, hi, rfl⟩ := step_refreshScan h
    refine ⟨hr, [], (List.append_nil _).symm, ?_⟩
    have := countP_set_add (p := RefreshPc.carries r) hi (scanNext s.heap msgs entries)
    rw [carries_scanNext (hw.marked_deleted r hr)] at this
    simp only [extensionsOf_eq_zero none, Reader.setRefresh]
    omega
  | refreshSend i ok =>
    obtain ⟨entries, msgs, hi, rfl⟩ := step_refreshSend h
    refine ⟨hr, _, rfl, ?_⟩
    have hnext : (if (ok && s.ackRunning) = true ∧ msgs ≠ [] then RefreshPc.scanning msgs []
        else .finished).carries r = false := by
      split <;> rfl
    have := countP_set_add (p := RefreshPc.carries r) hi
      (if (ok && s.ackRunning) = true ∧ msgs ≠ [] then RefreshPc.scanning msgs [] else .finished)
    simp only [hnext, Bool.false_eq_true, if_false, Nat.add_zero] at this
    have hext : extensionsOf r [Rpc.changeMessageVisibilityBatch .refresh entries
        (toInt32 cfg.timeoutSeconds)] ≤ if (RefreshPc.sending entries msgs).carries r then 1 else 0 := by
      simp only [extensionsOf, RefreshPc.carries, List.countP_singleton, Rpc.extensions]
      split <;> split <;> simp_all
    simp only [Reader.afterSend]
    omega
  | ackAfterStop r' o =>
    obtain ⟨-, -, rfl⟩ := step_ackAfterStop h
    exact extensions_frame hr rfl _ rfl fun rpc h =>
      extensions_of_mem_deleteMessages (Outcome.mem_of_mem_issued h)
  | nackAfterStop r' o =>
    obtain ⟨-, -, rfl⟩ := step_nackAfterStop h
    exact extensions_frame hr rfl _ rfl fun rpc h =>
      extensions_of_mem_resetMessages (Outcome.mem_of_mem_issued h)
  | softStop =>
    rw [step_softStop h]
    exact extensions_frame hr rfl [] (List.append_nil _).symm none
  | closeReturn =>
    obtain ⟨-, -, -, rfl⟩ := step_closeReturn h
    exact extensions_frame hr rfl [] (List.append_nil _).symm none

end Step

/-- Along any run from a reachable state in which `r` is marked. -/
theorem Reachable.extensions_run {cfg : SqsiConfig} {r : Nat} {evs : List Event} {s s' : Reader}
    (hs : Reachable cfg s) (hr : r ∈ s.marked) (h : SqsInput.run cfg s evs = some s') :
    ∃ new, s'.log = s.log ++ new ∧
      extensionsOf r new + s'.refreshes.countP (RefreshPc.carries r) ≤
        s.refreshes.countP (RefreshPc.carries r) :=
  run_relates (P := fun s => Reachable cfg s ∧ r ∈ s.marked)
    (fun s => ⟨[], (List.append_nil _).symm, by simp [extensionsOf]⟩)
    (fun ⟨new₁, hlog₁, hle₁⟩ ⟨new₂, hlog₂, hle₂⟩ => ⟨new₁ ++ new₂,
      by rw [hlog₂, hlog₁, List.append_assoc], by rw [extensionsOf_append]; omega⟩)
    (fun ⟨hs, hr⟩ he => ⟨⟨hs.step he, (hs.wf.extensions_step hr he).1⟩,
      (hs.wf.extensions_step hr he).2⟩)
    ⟨hs, hr⟩ h

/-! ## Marked handles -/

theorem refresh_extends_acked :
    ∃ s s', Reachable SqsiConfig.default s ∧ 0 ∈ s.marked ∧
      step SqsiConfig.default s (.refreshSend 0 true) = some s' ∧
      s'.log = s.log ++ [.changeMessageVisibilityBatch .refresh [0] 30] := by
  obtain ⟨s, hs, h⟩ := @Reachable.of_run SqsiConfig.default
    [.receive (some [(⟨some "m1", some "r1", some "b"⟩, 0)]), .addBatch, .dispatch,
      .tick none none, .refreshStart 0, .refreshPull 0 1000000000 [0], .refreshScan 0,
      .refreshScan 0, .ack 0 none]
    (fun s => decide (0 ∈ s.marked ∧ (step SqsiConfig.default s (.refreshSend 0 true)).map
      Reader.log = some (s.log ++ [.changeMessageVisibilityBatch .refresh [0] 30]))) (by decide)
  obtain ⟨hm, hstep⟩ := of_decide_eq_true h
  obtain ⟨s', hs', hlog⟩ := Option.map_eq_some'.mp hstep
  exact ⟨s, s', hs, hm, hs', hlog⟩

/-- **Once the ack loop has marked a handle, the requests issued afterwards extend it at most
once**, and only when a refresh goroutine had already put it into the request it was building. -/
theorem marked_extended_at_most_once {cfg : SqsiConfig} {s s' : Reader} {evs : List Event}
    {r : Nat} (hs : Reachable cfg s) (hr : r ∈ s.marked) (h : run cfg s evs = some s') :
    ∃ new, s'.log = s.log ++ new ∧
      new.countP (fun rpc => decide (r ∈ rpc.extensions)) ≤
        s.refreshes.countP (RefreshPc.carries r) ∧
      s.refreshes.countP (RefreshPc.carries r) ≤ 1 := by
  obtain ⟨new, hlog, hle⟩ := hs.extensions_run hr h
  exact ⟨new, hlog, le_trans (Nat.le_add_right _ _) hle, hs.wf.countP_carries_le_one r⟩

theorem marked_extended_at_most_once_racing :
    ∃ s s', Reachable SqsiConfig.default s ∧ 0 ∈ s.marked ∧
      run SqsiConfig.default s [.refreshSend 0 true] = some s' ∧
      s'.log = s.log ++ [.changeMessageVisibilityBatch .refresh [0] 30] ∧
      ∃ new, s'.log = s.log ++ new ∧
        new.countP (fun rpc => decide (0 ∈ rpc.extensions)) ≤
          s.refreshes.countP (RefreshPc.carries 0) ∧
        s.refreshes.countP (RefreshPc.carries 0) ≤ 1 := by
  obtain ⟨s, hs, h⟩ := @Reachable.of_run SqsiConfig.default
    [.receive (some [(⟨some "m1", some "r1", some "b"⟩, 0)]), .addBatch, .dispatch,
      .tick none none, .refreshStart 0, .refreshPull 0 1000000000 [0], .refreshScan 0,
      .refreshScan 0, .ack 0 none]
    (fun s => decide (0 ∈ s.marked ∧ (run SqsiConfig.default s [.refreshSend 0 true]).map
      Reader.log = some (s.log ++ [.changeMessageVisibilityBatch .refresh [0] 30]))) (by decide)
  obtain ⟨hm, hrun⟩ := of_decide_eq_true h
  obtain ⟨s', hs', hlog⟩ := Option.map_eq_some'.mp hrun
  exact ⟨s, s', hs, hm, hs', hlog, marked_extended_at_most_once hs hm hs'⟩

end SqsInput
