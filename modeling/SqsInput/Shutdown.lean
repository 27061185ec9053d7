import SqsInput.Invariant

/-!
# Shutdown

`Close` fires the soft stop and returns `nil` once both loops have returned: the fetch loop after
its deferred reset, the ack loop after its final drain and the tracker's `Clear`. The refresh
goroutines the ack loop started are not in the `WaitGroup`, so `Close` does not wait for them. A
refresh pass that holds handles when the loops stop goes on, and issues a visibility change
after `Close` has returned (`refresh_after_close`). The request carries the ack loop's
`closeNowCtx`, which the loop cancelled on returning, so it fails and the goroutine returns.

Once both loops have returned, no loop moves again and no refresh goroutine is started. Every
request from then on is that of an `AckFunc` that found the soft stop fired, or a visibility
change of a refresh goroutine that had not returned, at most one for each such goroutine
(`requests_after_close`).
-/

namespace SqsInput

/-! ## After both loops have returned -/

/-- Both loops have returned. -/
def Reader.loopsStopped (s : Reader) : Prop := s.fetch = .stopped ∧ s.ackRunning = false

/-- A request of a refresh goroutine, or of an `AckFunc`. -/
def Rpc.afterLoops (rpc : Rpc) : Prop :=
  rpc.origin = some .ackFn ∨ ∃ entries v, rpc = .changeMessageVisibilityBatch .refresh entries v

/-- The requests of refresh goroutines among `l`. -/
def refreshRequests (l : List Rpc) : Nat := l.countP fun rpc => decide (rpc.origin = some .refresh)

/-- The refresh goroutines that have not returned. -/
def Reader.liveRefreshes (s : Reader) : Nat := s.refreshes.countP fun pc => decide (pc ≠ .finished)

/-- From `s` to `s'` no refresh goroutine was started, and the requests issued were those of
`AckFunc`s and at most one for each refresh goroutine that returned meanwhile. -/
def Reader.drainsTo (s s' : Reader) : Prop :=
  s'.refreshes.length = s.refreshes.length ∧ ∃ new, s'.log = s.log ++ new ∧
    (∀ rpc ∈ new, rpc.afterLoops) ∧ refreshRequests new + s'.liveRefreshes ≤ s.liveRefreshes

theorem refreshRequests_append (l l' : List Rpc) :
    refreshRequests (l ++ l') = refreshRequests l + refreshRequests l' :=
  List.countP_append _ _ _

theorem refreshRequests_eq_zero {l : List Rpc} (h : ∀ rpc ∈ l, rpc.origin = some .ackFn) :
    refreshRequests l = 0 :=
  List.countP_eq_zero.mpr fun rpc hr => by simp [h rpc hr]

/-- Moving a refresh goroutine that has not returned: one fewer if it returns. -/
theorem liveRefreshes_setRefresh {s : Reader} {i : Nat} {pc : RefreshPc}
    (h : s.refreshes[i]? = some pc) (hpc : pc ≠ .finished) (pc' : RefreshPc) :
    (s.setRefresh i pc').liveRefreshes + (if pc' = .finished then 1 else 0) = s.liveRefreshes := by
  have := countP_set_add (p := fun pc => decide (pc ≠ .finished)) h pc'
  by_cases h' : pc' = .finished <;> simp_all [Reader.liveRefreshes, Reader.setRefresh]

theorem Reader.drainsTo.refl (s : Reader) : s.drainsTo s :=
  ⟨rfl, [], (List.append_nil _).symm, (fun _ h => nomatch h), le_of_eq (Nat.zero_add _)⟩

theorem Reader.drainsTo.trans {s₁ s₂ s₃ : Reader} (h₁ : s₁.drainsTo s₂) (h₂ : s₂.drainsTo s₃) :
    s₁.drainsTo s₃ := by
  obtain ⟨hlen₁, new₁, hlog₁, hnew₁, hc₁⟩ := h₁
  obtain ⟨hlen₂, new₂, hlog₂, hnew₂, hc₂⟩ := h₂
  refine ⟨hlen₂.trans hlen₁, new₁ ++ new₂, by rw [hlog₂, hlog₁, List.append_assoc],
    fun rpc h => (List.mem_append.mp h).elim (hnew₁ rpc) (hnew₂ rpc), ?_⟩
  rw [refreshRequests_append]
  omega

section Step

variable {cfg : SqsiConfig} {s s' : Reader} {e : Event}

/-- The state after a step that moves no loop, starts no goroutine and issues `new`. -/
theorem loopsStopped_frame (hst : s.loopsStopped) (hf : s'.fetch = s.fetch)
    (ha : s'.ackRunning = s.ackRunning) (hr : s'.refreshes.length = s.refreshes.length)
    (new : List Rpc) (hlog : s'.log = s.log ++ new) (hnew : ∀ rpc ∈ new, rpc.afterLoops)
    (hlive : refreshRequests new + s'.liveRefreshes ≤ s.liveRefreshes) :
    s'.loopsStopped ∧ s.drainsTo s' :=
  ⟨⟨hf.trans hst.1, ha.trans hst.2⟩, hr, new, hlog, hnew, hlive⟩

/-- A refresh goroutine moving on without a request. -/
theorem loopsStopped_setRefresh (hst : s.loopsStopped) {i : Nat} {pc : RefreshPc}
    (h : s.refreshes[i]? = some pc) (hpc : pc ≠ .finished) (pc' : RefreshPc)
    (hs' : s'.refreshes = (s.setRefresh i pc').refreshes) (hf : s'.fetch = s.fetch)
    (ha : s'.ackRunning = s.ackRunning) (hlog : s'.log = s.log) :
    s'.loopsStopped ∧ s.drainsTo s' := by
  have hlive := liveRefreshes_setRefresh h hpc pc'
  refine loopsStopped_frame hst hf ha (by rw [hs']; exact List.length_set _ _ _) []
    (by rw [hlog, List.append_nil]) (fun _ h => nomatch h) ?_
  simp only [Reader.liveRefreshes, hs'] at hlive ⊢
  simp only [refreshRequests, List.countP_nil, Nat.zero_add]
  omega

/-- **Once both loops have returned, a step moves no loop, starts no refresh goroutine, and
issues only requests of `AckFunc`s, and of refresh goroutines, each of which then returns.** -/
theorem step_loopsStopped (hst : s.loopsStopped) (h : step cfg s e = some s') :
    s'.loopsStopped ∧ s.drainsTo s' := by
  obtain ⟨hfs, has⟩ := hst
  cases e with
  | receive res => obtain ⟨hf, -⟩ := step_receive h; simp [hfs] at hf
  | addBatch => obtain ⟨b, hf, -⟩ := step_addBatch h; simp [hfs] at hf
  | abandonAdd => obtain ⟨⟨b, hf⟩, -⟩ := step_abandonAdd h; simp [hfs] at hf
  | wake => obtain ⟨hf, -⟩ := step_wake h; simp [hfs] at hf
  | dispatch => obtain ⟨m, rest, hf, -⟩ := step_dispatch h; simp [hfs] at hf
  | fetchExit o => obtain ⟨-, hf, -⟩ := step_fetchExit h; simp [hfs] at hf
  | ack r o => obtain ⟨ha, -⟩ := step_ack h; simp [has] at ha
  | nack r o => obtain ⟨ha, -⟩ := step_nack h; simp [has] at ha
  | tick oAcks oNacks => obtain ⟨ha, -⟩ := step_tick h; simp [has] at ha
  | ackExit oAcks oNacks => obtain ⟨ha, -⟩ := step_ackExit h; simp [has] at ha
  | refreshStart i =>
    obtain ⟨hi, ⟨-, rfl⟩ | ⟨-, rfl⟩⟩ := step_refreshStart h <;>
    exact loopsStopped_setRefresh ⟨hfs, has⟩ hi (by decide) _ rfl rfl rfl rfl
  | refreshPull i now order =>
    obtain ⟨hi, -, rfl⟩ := step_refreshPull h
    exact loopsStopped_setRefresh ⟨hfs, has⟩ hi (by decide) _ rfl rfl rfl rfl
  | refreshScan i =>
    obtain ⟨_, _, hi, rfl⟩ := step_refreshScan h
    exact loopsStopped_setRefresh ⟨hfs, has⟩ hi nofun _ rfl rfl rfl rfl
  | refreshSend i ok =>
    obtain ⟨entries, msgs, hi, rfl⟩ := step_refreshSend h
    have hlive := liveRefreshes_setRefresh hi nofun .finished
    refine loopsStopped_frame ⟨hfs, has⟩ rfl rfl (List.length_set _ _ _) _ rfl
      (fun rpc h => .inr ⟨entries, _, List.mem_singleton.mp h⟩) ?_
    simp only [Reader.liveRefreshes, Reader.setRefresh, if_true] at hlive
    simp only [Reader.afterSend, has, Bool.and_false, Bool.false_eq_true, false_and, if_false,
      Reader.liveRefreshes]
    exact le_of_eq ((Nat.add_comm _ _).trans hlive)
  | ackAfterStop r o =>
    obtain ⟨-, -, rfl⟩ := step_ackAfterStop h
    exact loopsStopped_frame ⟨hfs, has⟩ rfl rfl rfl _ rfl
      (fun rpc h => .inl (origin_of_mem_deleteMessages (Outcome.mem_of_mem_issued h)))
      (by rw [refreshRequests_eq_zero fun rpc h =>
        origin_of_mem_deleteMessages (Outcome.mem_of_mem_issued h), Nat.zero_add]; rfl)
  | nackAfterStop r o =>
    obtain ⟨-, -, rfl⟩ := step_nackAfterStop h
    exact loopsStopped_frame ⟨hfs, has⟩ rfl rfl rfl _ rfl
      (fun rpc h => .inl (origin_of_mem_resetMessages (Outcome.mem_of_mem_issued h)))
      (by rw [refreshRequests_eq_zero fun rpc h =>
        origin_of_mem_resetMessages (Outcome.mem_of_mem_issued h), Nat.zero_add]; rfl)
  | softStop =>
    rw [step_softStop h]
    exact loopsStopped_frame ⟨hfs, has⟩ rfl rfl rfl [] (List.append_nil _).symm
      (fun _ h => nomatch h) (le_of_eq (Nat.zero_add _))
  | closeReturn =>
    obtain ⟨-, -, -, rfl⟩ := step_closeReturn h
    exact loopsStopped_frame ⟨hfs, has⟩ rfl rfl rfl [] (List.append_nil _).symm
      (fun _ h => nomatch h) (le_of_eq (Nat.zero_add _))

/-- `Close` returns only once both loops have, and only `closeReturn` sets `closed`. -/
theorem closed_step (h : step cfg s e = some s') (hc : s'.closed = true) :
    s.closed = true ∨ s.loopsStopped := by
  cases e with
  | receive res => obtain ⟨-, -, rfl⟩ := step_receive h; exact .inl hc
  | addBatch => obtain ⟨b, -, -, rfl⟩ := step_addBatch h; exact .inl hc
  | abandonAdd => obtain ⟨-, -, rfl⟩ := step_abandonAdd h; exact .inl hc
  | wake => obtain ⟨-, rfl⟩ := step_wake h; exact .inl hc
  | dispatch => obtain ⟨m, rest, -, -, rfl⟩ := step_dispatch h; exact .inl hc
  | fetchExit o => obtain ⟨-, -, rfl⟩ := step_fetchExit h; exact .inl hc
  | ack r o => obtain ⟨-, -, rfl⟩ := step_ack h; exact .inl hc
  | nack r o => obtain ⟨-, -, rfl⟩ := step_nack h; exact .inl hc
  | tick oAcks oNacks => obtain ⟨-, rfl⟩ := step_tick h; exact .inl hc
  | ackExit oAcks oNacks => obtain ⟨-, -, rfl⟩ := step_ackExit h; exact .inl hc
  | refreshStart i =>
    obtain ⟨-, ⟨-, rfl⟩ | ⟨-, rfl⟩⟩ := step_refreshStart h <;> exact .inl hc
  | refreshPull i now order => obtain ⟨-, -, rfl⟩ := step_refreshPull h; exact .inl hc
  | refreshScan i => obtain ⟨_, _, -, rfl⟩ := step_refreshScan h; exact .inl hc
  | refreshSend i ok => obtain ⟨_, _, -, rfl⟩ := step_refreshSend h; exact .inl hc
  | ackAfterStop r o => obtain ⟨-, -, rfl⟩ := step_ackAfterStop h; exact .inl hc
  | nackAfterStop r o => obtain ⟨-, -, rfl⟩ := step_nackAfterStop h; exact .inl hc
  | softStop => rw [step_softStop h] at hc; exact .inl hc
  | closeReturn => obtain ⟨-, hf, ha, -⟩ := step_closeReturn h; exact .inr ⟨hf, ha⟩

end Step

theorem Reachable.loopsStopped {cfg : SqsiConfig} {s : Reader} (hs : Reachable cfg s)
    (hc : s.closed = true) : s.loopsStopped :=
  hs.induction (P := fun s => s.closed = true → s.loopsStopped) (fun h => nomatch h)
    (fun hi h hc => (closed_step h hc).elim (fun hc => (step_loopsStopped (hi hc) h).1)
      fun hst => (step_loopsStopped hst h).1) hc

/-- Along any run from a state in which both loops have returned. -/
theorem run_loopsStopped {cfg : SqsiConfig} {evs : List Event} {s s' : Reader}
    (hst : s.loopsStopped) (h : run cfg s evs = some s') : s.drainsTo s' :=
  run_relates Reader.drainsTo.refl (fun h₁ h₂ => h₁.trans h₂) step_loopsStopped hst h

/-! ## After `Close` has returned -/

theorem refresh_after_close :
    ∃ s s', Reachable SqsiConfig.default s ∧ s.closed = true ∧
      step SqsiConfig.default s (.refreshSend 0 true) = some s' ∧
      s'.log = s.log ++ [.changeMessageVisibilityBatch .refresh [0] 30] := by
  obtain ⟨s, hs, h⟩ := @Reachable.of_run SqsiConfig.default
    [.receive (some [(⟨some "m1", some "r1", some "b"⟩, 0)]), .addBatch, .tick none none,
      .refreshStart 0, .refreshPull 0 1000000000 [0], .refreshScan 0, .refreshScan 0, .softStop,
      .fetchExit none, .ackExit none none, .closeReturn]
    (fun s => decide (s.closed = true ∧ (step SqsiConfig.default s (.refreshSend 0 true)).map
      Reader.log = some (s.log ++ [.changeMessageVisibilityBatch .refresh [0] 30]))) (by decide)
  obtain ⟨hc, hstep⟩ := of_decide_eq_true h
  obtain ⟨s', hs', hlog⟩ := Option.map_eq_some'.mp hstep
  exact ⟨s, s', hs, hc, hs', hlog⟩

/-- **After `Close` has returned `nil`**, no refresh goroutine is started, and every request is
that of an `AckFunc`, or a visibility change of a refresh goroutine that had not returned, at most
one for each: no `ReceiveMessage`, and nothing from either loop. -/
theorem requests_after_close {cfg : SqsiConfig} {s s' : Reader} {evs : List Event}
    (hs : Reachable cfg s) (hc : s.closed = true) (h : run cfg s evs = some s') :
    s'.refreshes.length = s.refreshes.length ∧ ∃ new, s'.log = s.log ++ new ∧
      (∀ rpc ∈ new, rpc.origin = some .ackFn ∨
        ∃ entries v, rpc = .changeMessageVisibilityBatch .refresh entries v) ∧
      new.countP (fun rpc => rpc.origin = some .refresh) ≤
        s.refreshes.countP (fun pc => pc ≠ .finished) := by
  obtain ⟨hlen, new, hlog, hnew, hcount⟩ := run_loopsStopped (hs.loopsStopped hc) h
  exact ⟨hlen, new, hlog, hnew, le_trans (Nat.le_add_right _ _) hcount⟩

theorem requests_after_close_sending :
    ∃ s s', Reachable SqsiConfig.default s ∧ s.closed = true ∧
      run SqsiConfig.default s [.refreshSend 0 true] = some s' ∧
      s'.log = s.log ++ [.changeMessageVisibilityBatch .refresh [0] 30] ∧
      (s'.refreshes.length = s.refreshes.length ∧ ∃ new, s'.log = s.log ++ new ∧
        (∀ rpc ∈ new, rpc.origin = some .ackFn ∨
          ∃ entries v, rpc = .changeMessageVisibilityBatch .refresh entries v) ∧
        new.countP (fun rpc => rpc.origin = some .refresh) ≤
          s.refreshes.countP (fun pc => pc ≠ .finished)) := by
  obtain ⟨s, hs, h⟩ := @Reachable.of_run SqsiConfig.default
    [.receive (some [(⟨some "m1", some "r1", some "b"⟩, 0)]), .addBatch, .tick none none,
      .refreshStart 0, .refreshPull 0 1000000000 [0], .refreshScan 0, .refreshScan 0, .softStop,
      .fetchExit none, .ackExit none none, .closeReturn]
    (fun s => decide (s.closed = true ∧ (run SqsiConfig.default s [.refreshSend 0 true]).map
      Reader.log = some (s.log ++ [.changeMessageVisibilityBatch .refresh [0] 30]))) (by decide)
  obtain ⟨hc, hrun⟩ := of_decide_eq_true h
  obtain ⟨s', hs', hlog⟩ := Option.map_eq_some'.mp hrun
  exact ⟨s, s', hs, hc, hs', hlog, requests_after_close hs hc hs'⟩

end SqsInput
