import SqsInput.Safety
import Mathlib.Data.List.Chain

/-!
# Visibility leases

SQS hides a received message until its visibility lease ends: the queue's visibility timeout
after the receive, or the timeout a `ChangeMessageVisibilityBatch` sent, from the moment the
request takes effect. The reader keeps a message hidden while a consumer works on it only
through refresh passes, and it never asks SQS when a lease ends: `PullToRefresh` decides from the
handle's deadline alone which handles a pass extends.

## A handle that falls due is not refreshed again

`PullToRefresh` skips a handle whose deadline lies less than half the timeout ahead, the opposite
of what its comment and the documentation of `message_timeout` say. A skipped handle keeps its
deadline, and a later clock reading only brings that deadline nearer, so once a pass finds a
handle due, every pass that reads the clock later finds it due too. From then on no
`PullToRefresh` returns the handle, its deadline stays as it was until the ack loop marks it, and
the refresh requests carry it at most once more, from the one pass that already held it
(`Reachable.due_never_refreshed`). SQS then makes the message visible when its lease runs out,
while the tracker still holds the handle and a consumer may still be working on it.

The argument counts the refresh goroutines that hold the handle, in the request they are
building or among the handles they have still to look at: a pass handed the handle would add
one, and no other step adds one, while each request that carries the handle takes one away.

## With a timeout of two seconds

A deadline is stored in whole seconds, rounded down, so a handle received half a second into a
second falls due half a second before `MessageTimeout` has passed. With a timeout of two seconds
the first pass after such a receipt, less than a second later, already finds the handle due, and
its lease lapses although every pass comes less than half the timeout after the one before
(`lease_lapses_between_passes`). Under the documented rule the handle would be refreshed once its
deadline is less than half the timeout ahead, and that first pass would have extended it.
-/

namespace SqsInput

open SqsInFlightTracker

open scoped List

/-! ## `PullToRefresh`'s test and the clock -/

/-- A handle skipped at one clock reading is skipped at every later one, with the same
deadline. -/
theorem skipsRefresh_of_le {timeout : Int} {now now' : Nat} {d : Int}
    (h : skipsRefresh timeout now d = true) (hle : now ≤ now') : skipsRefresh timeout now' d = true := by
  simp only [skipsRefresh, decide_eq_true_eq] at h ⊢
  omega

section Steps

variable {cfg : SqsiConfig} {s s' : Reader} {e : Event} {r : Nat}

/-- A pass is handed the tracked handles that its test does not skip. -/
theorem mem_order_of_step_refreshPull (hw : Wf s) {i now : Nat} {order : List Nat}
    (h : step cfg s (.refreshPull i now order) = some s') :
    r ∈ order ↔ r ∈ refs s.tracker ∧
      skipsRefresh cfg.messageTimeout now (s.heap.cell r).deadline = false := by
  obtain ⟨-, hperm, -⟩ := step_refreshPull h
  rw [hperm.mem_iff, pullToRefresh_fst hw.refs_nodup, List.mem_filter]
  simp

/-- Only the ack loop's mark and a pass handed the handle change a received handle's
deadline. -/
theorem step_deadline (hw : Wf s) (hr : r < s.heap.next) (h : step cfg s e = some s') :
    (s'.heap.cell r).deadline = (s.heap.cell r).deadline ∨ r ∈ s'.marked ∨
      ∃ i now order, e = .refreshPull i now order ∧ r ∈ order := by
  cases e with
  | receive res =>
    obtain ⟨-, -, rfl⟩ := step_receive h
    exact .inl (congrArg SqsMessageHandle.deadline (wrapMessages_cell_of_lt _ hr _))
  | addBatch => obtain ⟨b, -, -, rfl⟩ := step_addBatch h; exact .inl rfl
  | abandonAdd => obtain ⟨-, -, rfl⟩ := step_abandonAdd h; exact .inl rfl
  | wake => obtain ⟨-, rfl⟩ := step_wake h; exact .inl rfl
  | dispatch => obtain ⟨m, rest, -, -, rfl⟩ := step_dispatch h; exact .inl rfl
  | fetchExit o => obtain ⟨-, -, rfl⟩ := step_fetchExit h; exact .inl rfl
  | ack r' o | nack r' o =>
    first
    | obtain ⟨-, -, rfl⟩ := step_ack h
    | obtain ⟨-, -, rfl⟩ := step_nack h
    simp only [Reader.handleAck, Heap.setDeadline_deadline, List.mem_append, List.mem_singleton]
    by_cases hr' : r = r'
    · exact .inr (.inl (.inr hr'))
    · exact .inl (if_neg hr')
  | tick oAcks oNacks => obtain ⟨-, rfl⟩ := step_tick h; exact .inl rfl
  | ackExit oAcks oNacks => obtain ⟨-, -, rfl⟩ := step_ackExit h; exact .inl rfl
  | refreshStart i =>
    obtain ⟨-, ⟨-, rfl⟩ | ⟨-, rfl⟩⟩ := step_refreshStart h <;> exact .inl rfl
  | refreshPull i now order =>
    obtain ⟨-, hperm, rfl⟩ := step_refreshPull h
    simp only [Reader.afterPull, pullToRefresh_deadline hw.refs_nodup, ← hperm.mem_iff]
    by_cases ho : r ∈ order
    · exact .inr (.inr ⟨i, now, order, rfl, ho⟩)
    · exact .inl (if_neg ho)
  | refreshScan i => obtain ⟨_, _, -, rfl⟩ := step_refreshScan h; exact .inl rfl
  | refreshSend i ok => obtain ⟨_, _, -, rfl⟩ := step_refreshSend h; exact .inl rfl
  | ackAfterStop r' o => obtain ⟨-, -, rfl⟩ := step_ackAfterStop h; exact .inl rfl
  | nackAfterStop r' o => obtain ⟨-, -, rfl⟩ := step_nackAfterStop h; exact .inl rfl
  | softStop => rw [step_softStop h]; exact .inl rfl
  | closeReturn => obtain ⟨-, -, -, rfl⟩ := step_closeReturn h; exact .inl rfl

theorem received_step (hr : r ∈ handlesOf s.received) (h : step cfg s e = some s') :
    r ∈ handlesOf s'.received := by
  rcases step_cells h with ⟨res, rfl⟩ | ⟨hrec, -⟩
  · simp only [Reader.getMsgs, handlesOf, List.filterMap_append, List.mem_append] at hr ⊢
    exact .inl hr
  · exact hrec ▸ hr

end Steps

/-! ## Due handles -/

section Due

variable {cfg : SqsiConfig} {s s' : Reader} {e : Event} {r now : Nat} {d : Int}

/-- A received handle whose deadline is still `d`, unless the ack loop has marked it. -/
def Reader.KeepsDeadline (r : Nat) (d : Int) (s : Reader) : Prop :=
  r ∈ handlesOf s.received ∧ ((s.heap.cell r).deadline = d ∨ r ∈ s.marked)

/-- A pass that reads the clock at or after `now` is not handed a handle due at `now`. -/
theorem not_mem_order_of_due (hw : Wf s) (hdue : skipsRefresh cfg.messageTimeout now d = true)
    (hk : s.KeepsDeadline r d) {i now' : Nat} {order : List Nat} (hle : now ≤ now')
    (h : step cfg s (.refreshPull i now' order) = some s') : r ∉ order := by
  rw [mem_order_of_step_refreshPull hw h]
  rintro ⟨hr, hskip⟩
  rcases hk.2 with hd | hm
  · rw [hd, skipsRefresh_of_le hdue hle] at hskip
    cases hskip
  · exact hw.not_mem_refs_of_marked hm hr

/-- A step whose pass, if any, reads the clock at or after `now` keeps a due handle's
deadline. -/
theorem Reader.KeepsDeadline.step (hw : Wf s) (hdue : skipsRefresh cfg.messageTimeout now d = true)
    (hk : s.KeepsDeadline r d) (he : ∀ i now' order, e = .refreshPull i now' order → now ≤ now')
    (h : SqsInput.step cfg s e = some s') : s'.KeepsDeadline r d := by
  refine ⟨received_step hk.1 h, ?_⟩
  rcases step_deadline hw (hw.handles_lt r hk.1) h with hkeep | hm | ⟨i, now', order, rfl, ho⟩
  · rw [hkeep]
    exact hk.2.imp_right fun hm => (step_histories h).2.1.subset hm
  · exact .inr hm
  · exact absurd ho (not_mem_order_of_due hw hdue hk (he i now' order rfl) h)

/-! ## Goroutines that hold a handle -/

/-- Refresh goroutine `pc` holds `r`: in the request it is building, or among the handles it has
still to look at. -/
def RefreshPc.holds (r : Nat) (pc : RefreshPc) : Bool := decide (r ∈ pc.queued)

theorem RefreshPc.holdsLock_of_holds {pc : RefreshPc} (h : pc.holds r = true) :
    pc.holdsLock = true := by
  cases pc <;> simp_all [holds, queued, holdsLock]

/-- At most one goroutine holds a handle: only the one holding `refreshLock` can. -/
theorem Wf.countP_holds_le_one (hw : Wf s) (r : Nat) : s.refreshes.countP (RefreshPc.holds r) ≤ 1 :=
  calc s.refreshes.countP (RefreshPc.holds r)
      ≤ s.refreshes.countP RefreshPc.holdsLock :=
        List.countP_mono_left fun _ _ h => RefreshPc.holdsLock_of_holds h
    _ = if s.refreshLocked then 1 else 0 := hw.lock_count
    _ ≤ 1 := by split <;> omega

/-- Since `s`, the refresh requests have carried `r` at most as often as the goroutines holding
it have stopped holding it. -/
def Reader.HoldsFrom (r : Nat) (s s' : Reader) : Prop :=
  ∃ new, s'.log = s.log ++ new ∧
    (refreshEntries new).count r + s'.refreshes.countP (RefreshPc.holds r) ≤
      s.refreshes.countP (RefreshPc.holds r)

theorem Reader.HoldsFrom.refl (r : Nat) (s : Reader) : s.HoldsFrom r s :=
  ⟨[], (List.append_nil _).symm, by simp [refreshEntries]⟩

theorem Reader.HoldsFrom.trans {s₁ s₂ s₃ : Reader} (h₁ : s₁.HoldsFrom r s₂)
    (h₂ : s₂.HoldsFrom r s₃) : s₁.HoldsFrom r s₃ :=
  let ⟨new₁, hlog₁, hle₁⟩ := h₁
  let ⟨new₂, hlog₂, hle₂⟩ := h₂
  ⟨new₁ ++ new₂, by rw [hlog₂, hlog₁, List.append_assoc], by
    rw [refreshEntries_append, List.count_append]
    omega⟩

/-- A step that leaves the refresh goroutines alone and issues no refresh request. -/
theorem holdsFrom_frame (hr : s'.refreshes = s.refreshes) (new : List Rpc)
    (hlog : s'.log = s.log ++ new) (hnew : ∀ rpc ∈ new, rpc.origin ≠ some .refresh) :
    s.HoldsFrom r s' :=
  ⟨new, hlog, by rw [refreshEntries_eq_nil hnew, hr, List.count_nil, Nat.zero_add]⟩

/-- Goroutine `i` moves from `pc` to `pc'`, which holds `r` only if `pc` did. -/
theorem holdsFrom_set {i : Nat} {pc pc' : RefreshPc} (hi : s.refreshes[i]? = some pc)
    (hpc : pc'.holds r = true → pc.holds r = true) : s.HoldsFrom r (s.setRefresh i pc') := by
  refine ⟨[], (List.append_nil _).symm, ?_⟩
  have := countP_set_add (p := RefreshPc.holds r) hi pc'
  simp only [refreshEntries, List.filter_nil, List.flatMap_nil, List.count_nil, Nat.zero_add,
    Reader.setRefresh]
  split at this <;> split at this <;> first | omega | simp_all

/-- What a request takes out of a goroutine's handles it no longer holds. -/
theorem count_add_holds_le {entries msgs : List Nat} (hnd : (entries ++ msgs).Nodup) (r : Nat)
    (pc : RefreshPc) (hpc : pc.holds r = true → r ∈ msgs) :
    entries.count r + (if pc.holds r then 1 else 0) ≤
      if (RefreshPc.sending entries msgs).holds r then 1 else 0 := by
  have hdis := List.disjoint_of_nodup_append hnd
  have hsend : (RefreshPc.sending entries msgs).holds r = decide (r ∈ entries ∨ r ∈ msgs) := by
    simp [RefreshPc.holds, RefreshPc.queued]
  rw [List.count_eq_of_nodup (List.nodup_append.mp hnd).1, hsend]
  by_cases he : r ∈ entries
  · have : pc.holds r = false := Bool.eq_false_iff.mpr fun h => hdis he (hpc h)
    simp [he, this]
  · cases h : pc.holds r
    · simp [he]
    · simp [he, hpc h]

/-- **No step other than a pass handed `r` adds a goroutine holding `r`, and each refresh request
carrying `r` takes one away.** -/
theorem holdsFrom_step (hids : IdsInv s) (hpull : ∀ i now order, e = .refreshPull i now order → r ∉ order)
    (h : step cfg s e = some s') : s.HoldsFrom r s' := by
  have keep : ∀ {t : Reader}, t.refreshes = s.refreshes → t.log = s.log → s.HoldsFrom r t :=
    fun hr hl => holdsFrom_frame hr [] (hl.trans (List.append_nil _).symm) nofun
  cases e with
  | receive res =>
    obtain ⟨-, -, rfl⟩ := step_receive h
    exact holdsFrom_frame rfl _ rfl fun rpc h => by rw [List.mem_singleton.mp h]; decide
  | addBatch => obtain ⟨b, -, -, rfl⟩ := step_addBatch h; exact keep rfl rfl
  | abandonAdd => obtain ⟨-, -, rfl⟩ := step_abandonAdd h; exact keep rfl rfl
  | wake => obtain ⟨-, rfl⟩ := step_wake h; exact keep rfl rfl
  | dispatch => obtain ⟨m, rest, -, -, rfl⟩ := step_dispatch h; exact keep rfl rfl
  | fetchExit o =>
    obtain ⟨-, -, rfl⟩ := step_fetchExit h
    exact holdsFrom_frame rfl _ rfl fun rpc h => by
      rw [origin_of_mem_resetMessages (mem_readLoopFinaliser h)]; decide
  | ack r' o | nack r' o =>
    first
    | obtain ⟨-, -, rfl⟩ := step_ack h
    | obtain ⟨-, -, rfl⟩ := step_nack h
    obtain ⟨new, hlog, hnew⟩ := handleAck_log cfg s r' _ o
    exact holdsFrom_frame rfl new hlog fun rpc h => (hnew rpc h).elim
      (fun h => by rw [origin_of_mem_deleteMessages h.2]; decide)
      (fun h => by rw [origin_of_mem_resetMessages h.2]; decide)
  | tick oAcks oNacks =>
    obtain ⟨-, rfl⟩ := step_tick h
    refine ⟨_, rfl, ?_⟩
    rw [refreshEntries_eq_nil refresh_origins, List.countP_append]
    simp [RefreshPc.holds, RefreshPc.queued]
  | ackExit oAcks oNacks =>
    obtain ⟨-, -, rfl⟩ := step_ackExit h
    exact holdsFrom_frame rfl _ rfl refresh_origins
  | refreshStart i =>
    obtain ⟨hi, ⟨-, rfl⟩ | ⟨-, rfl⟩⟩ := step_refreshStart h <;> exact holdsFrom_set hi nofun
  | refreshPull i now order =>
    obtain ⟨hi, -, rfl⟩ := step_refreshPull h
    rw [Reader.afterPull_eq]
    split
    · exact holdsFrom_set hi nofun
    · exact holdsFrom_set hi fun h' => absurd (of_decide_eq_true h') (by
        simpa [RefreshPc.queued] using hpull i now order rfl)
  | refreshScan i =>
    obtain ⟨msgs, entries, hi, rfl⟩ := step_refreshScan h
    exact holdsFrom_set hi fun h' => decide_eq_true
      ((queued_scanNext_sublist s.heap msgs entries).subset (of_decide_eq_true h'))
  | refreshSend i ok =>
    obtain ⟨entries, msgs, hi, rfl⟩ := step_refreshSend h
    have hnd : (entries ++ msgs).Nodup := by
      have := (hids.queued _ (List.mem_iff_getElem?.mpr ⟨i, hi⟩)).1
      simpa [RefreshPc.queued] using this.of_map _
    have hsend : refreshEntries [Rpc.changeMessageVisibilityBatch .refresh entries
        (toInt32 cfg.timeoutSeconds)] = entries := by simp [refreshEntries, Rpc.origin, Rpc.entries]
    have hnext : ∀ pc', (pc'.holds r = true → r ∈ msgs) →
        entries.count r + (s.refreshes.set i pc').countP (RefreshPc.holds r) ≤
          s.refreshes.countP (RefreshPc.holds r) := fun pc' hpc' => by
      have := countP_set_add (p := RefreshPc.holds r) hi pc'
      have := count_add_holds_le hnd r pc' hpc'
      omega
    refine ⟨_, rfl, ?_⟩
    rw [hsend, Reader.afterSend_eq]
    split
    · exact hnext _ fun h' => by simpa [RefreshPc.holds, RefreshPc.queued] using h'
    · exact hnext _ nofun
  | ackAfterStop r' o =>
    obtain ⟨-, -, rfl⟩ := step_ackAfterStop h
    exact holdsFrom_frame rfl _ rfl fun rpc h => by
      rw [origin_of_mem_deleteMessages (Outcome.mem_of_mem_issued h)]; decide
  | nackAfterStop r' o =>
    obtain ⟨-, -, rfl⟩ := step_nackAfterStop h
    exact holdsFrom_frame rfl _ rfl fun rpc h => by
      rw [origin_of_mem_resetMessages (Outcome.mem_of_mem_issued h)]; decide
  | softStop => rw [step_softStop h]; exact keep rfl rfl
  | closeReturn => obtain ⟨-, -, -, rfl⟩ := step_closeReturn h; exact keep rfl rfl

/-- **A handle that a pass finds due is not refreshed again.** After a pass at clock reading
`now` finds a received handle's deadline less than half the timeout ahead, along every run whose
passes read the clock at `now` or later: the handle's deadline stays as it was unless the ack loop
marks it, and the refresh requests carry the handle at most as many times as goroutines held it
at the start, which is at most once. -/
theorem Reachable.due_never_refreshed {evs : List Event} (hs : Reachable cfg s)
    (hr : r ∈ handlesOf s.received)
    (hdue : skipsRefresh cfg.messageTimeout now (s.heap.cell r).deadline = true)
    (hclock : ∀ e ∈ evs, ∀ i now' order, e = .refreshPull i now' order → now ≤ now')
    (h : SqsInput.run cfg s evs = some s') :
    ((s'.heap.cell r).deadline = (s.heap.cell r).deadline ∨ r ∈ s'.marked) ∧
      ∃ new, s'.log = s.log ++ new ∧
        (refreshEntries new).count r ≤ s.refreshes.countP (RefreshPc.holds r) ∧
        s.refreshes.countP (RefreshPc.holds r) ≤ 1 := by
  have hstep : ∀ {t e t'}, (Reachable cfg t ∧ t.KeepsDeadline r (s.heap.cell r).deadline) →
      (∀ i now' order, e = .refreshPull i now' order → now ≤ now') → SqsInput.step cfg t e = some t' →
      (Reachable cfg t' ∧ t'.KeepsDeadline r (s.heap.cell r).deadline) ∧ t.HoldsFrom r t' :=
    fun ⟨ht, hk⟩ he h =>
      ⟨⟨ht.step h, hk.step ht.wf hdue he h⟩, holdsFrom_step ht.idsInv (fun i now' order he' =>
        not_mem_order_of_due ht.wf hdue hk (he i now' order he') (he' ▸ h)) h⟩
  have hk : s.KeepsDeadline r (s.heap.cell r).deadline := ⟨hr, .inl rfl⟩
  have hP := run_preserves (fun hP he h => (hstep hP he h).1) ⟨hs, hk⟩ hclock h
  obtain ⟨new, hlog, hle⟩ := run_relates_of (Reader.HoldsFrom.refl r) (fun h₁ h₂ => h₁.trans h₂)
    (fun hP he h => hstep hP he h) ⟨hs, hk⟩ hclock h
  exact ⟨hP.2.2, new, hlog, by omega, hs.wf.countP_holds_le_one r⟩

/-- A pass at 1 s hands a fresh handle to goroutine 0 and stores 31 s as its deadline, due at
17 s with the default timeout: goroutine 0 still extends it once, and the pass at 20 s skips it. -/
theorem due_never_refreshed_held :
    ∃ s s', Reachable SqsiConfig.default s ∧ 0 ∈ handlesOf s.received ∧
      skipsRefresh SqsiConfig.default.messageTimeout 17000000000 (s.heap.cell 0).deadline = true ∧
      (∀ e ∈ [Event.refreshScan 0, .refreshScan 0, .refreshSend 0 true, .tick none none,
        .refreshStart 1, .refreshPull 1 20000000000 []],
        ∀ i now' order, e = .refreshPull i now' order → 17000000000 ≤ now') ∧
      SqsInput.run SqsiConfig.default s [.refreshScan 0, .refreshScan 0, .refreshSend 0 true,
        .tick none none, .refreshStart 1, .refreshPull 1 20000000000 []] = some s' ∧
      s'.log = s.log ++ [.changeMessageVisibilityBatch .refresh [0] 30] ∧
      (((s'.heap.cell 0).deadline = (s.heap.cell 0).deadline ∨ 0 ∈ s'.marked) ∧
        ∃ new, s'.log = s.log ++ new ∧
          (refreshEntries new).count 0 ≤ s.refreshes.countP (RefreshPc.holds 0) ∧
          s.refreshes.countP (RefreshPc.holds 0) ≤ 1) := by
  obtain ⟨s, hs, h⟩ := @Reachable.of_run SqsiConfig.default
    [.receive (some [(⟨some "m1", some "r1", some "b"⟩, 0)]), .addBatch, .dispatch,
      .tick none none, .refreshStart 0, .refreshPull 0 1000000000 [0]]
    (fun s => decide (0 ∈ handlesOf s.received ∧
      skipsRefresh SqsiConfig.default.messageTimeout 17000000000 (s.heap.cell 0).deadline = true ∧
      (SqsInput.run SqsiConfig.default s [.refreshScan 0, .refreshScan 0, .refreshSend 0 true,
        .tick none none, .refreshStart 1, .refreshPull 1 20000000000 []]).map Reader.log =
        some (s.log ++ [.changeMessageVisibilityBatch .refresh [0] 30]))) (by decide)
  obtain ⟨hr, hdue, hrun⟩ := of_decide_eq_true h
  obtain ⟨s', hs', hlog⟩ := Option.map_eq_some'.mp hrun
  have hclock : ∀ e ∈ [Event.refreshScan 0, .refreshScan 0, .refreshSend 0 true, .tick none none,
      .refreshStart 1, .refreshPull 1 20000000000 []],
      ∀ i now' order, e = .refreshPull i now' order → 17000000000 ≤ now' := by
    rintro e he i now' order rfl
    simp only [List.mem_cons, reduceCtorEq, Event.refreshPull.injEq, List.not_mem_nil,
      false_or, or_false] at he
    obtain ⟨-, rfl, -⟩ := he
    decide
  exact ⟨s, s', hs, hr, hdue, hclock, hs', hlog, hs.due_never_refreshed hr hdue hclock hs'⟩

end Due

/-! ## A lease that lapses -/

/-- With a timeout of two seconds, a message received half a second into a second, dispatched and
never acknowledged, and passes at 1.4 s, 2.3 s and 3.2 s, each less than half the timeout after
the one before and the first less than half the timeout after the receipt: every pass finds the
handle due and skips it, so no request ever extends its lease, which ends at 2.5 s, before the
pass at 3.2 s, while the tracker still holds the handle. -/
theorem lease_lapses_between_passes :
    ∃ s, run { SqsiConfig.default with messageTimeout := 2 * second } connect
        [.receive (some [(⟨some "m1", some "r1", some "b"⟩, 500000000)]), .addBatch, .dispatch,
          .tick none none, .refreshStart 0, .refreshPull 0 1400000000 [],
          .tick none none, .refreshStart 1, .refreshPull 1 2300000000 [],
          .tick none none, .refreshStart 2, .refreshPull 2 3200000000 []] = some s ∧
      toInt32 ({ SqsiConfig.default with messageTimeout := 2 * second } : SqsiConfig).timeoutSeconds *
        second = 2 * second ∧
      [500000000, 1400000000, 2300000000, 3200000000].Chain'
        (fun a b : Int => a < b ∧ b - a < 2 * second / 2) ∧
      0 ∈ refs s.tracker ∧ s.acks = [] ∧ s.nacks = [] ∧ (∀ rpc ∈ s.log, 0 ∉ rpc.entries) ∧
      500000000 + 2 * second < 3200000000 := by
  obtain ⟨s, hs, h⟩ := Option.map_eq_some'.mp (show (run
    { SqsiConfig.default with messageTimeout := 2 * second } connect
    [.receive (some [(⟨some "m1", some "r1", some "b"⟩, 500000000)]), .addBatch, .dispatch,
      .tick none none, .refreshStart 0, .refreshPull 0 1400000000 [],
      .tick none none, .refreshStart 1, .refreshPull 1 2300000000 [],
      .tick none none, .refreshStart 2, .refreshPull 2 3200000000 []]).map
    (fun s => decide (0 ∈ refs s.tracker ∧ s.acks = [] ∧ s.nacks = [] ∧
      ∀ rpc ∈ s.log, 0 ∉ rpc.entries)) = some true by decide)
  obtain ⟨ht, ha, hn, hl⟩ := of_decide_eq_true h
  refine ⟨s, hs, by decide, ?_, ht, ha, hn, hl, by decide⟩
  simp only [List.chain'_cons, List.chain'_singleton, and_true]
  decide

end SqsInput
