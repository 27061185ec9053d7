import SqsInput.Batch
import SqsInput.Tracker

/-!
# The reader as a transition system

`Connect` starts two goroutines, the fetch loop `readLoop` and the ack loop `ackLoop`, and every
tick of the ack loop starts a refresh goroutine running `refreshCurrentHandles`. Consumers call
`Read`, and call the `AckFunc` it returns. `Close` fires the soft stop and returns once both
loops have stopped. One `Reader` holds the state of all of them, and one `Event` is one atomic
step of one of them: a section under the tracker's mutex, a rendezvous on an unbuffered
channel, or a run of the code between two such points. Each event carries the choices the
environment makes there: which goroutine moves, what SQS answers, what the clock reads, which
call of a batch fails.

A select case of the ack loop is one step, its requests included. Nothing else touches the
buffers it fills, and the handles it marks are out of the tracker, so no other goroutine can
tell the difference. A refresh goroutine is the exception: it reads each handle's
`DELETED` mark apart from the request that carries the handle, and the ack loop can run in
between. So a refresh pass moves through `RefreshPc` one handle at a time, and issues each
request in a step of its own.

The ghost fields record what the claims are about: the messages received and dispatched, in
order; the handles `AddNew` inserted; the handles that `AckFunc` calls were made for, with and
without an error; the handles the ack loop marked `DELETED`; and every request, in the order it
was issued.
-/

namespace SqsInput

open SqsInFlightTracker

/-- Where the fetch loop is: at the top of its loop or its dispatch `select` (`running`), inside
`AddNew` with a batch, in its back-off `select`, or returned with its deferred reset done. -/
inductive FetchPc
  | running
  | adding (batch : List SqsMessage)
  | sleeping
  | stopped
  deriving DecidableEq, Repr

/-- Where a refresh goroutine is: started, holding `refreshLock` before `PullToRefresh`, in the
inner loop of `updateVisibilityMessages` with the handles `msgs` left and the current request's
`entries`, about to issue a request, or returned. -/
inductive RefreshPc
  | spawned
  | locked
  | scanning (msgs entries : List Nat)
  | sending (entries msgs : List Nat)
  | finished
  deriving DecidableEq, Repr

/-- The goroutines that hold `refreshLock`. -/
def RefreshPc.holdsLock : RefreshPc → Bool
  | .locked | .scanning _ _ | .sending _ _ => true
  | _ => false

/-- The state of a connected reader and its goroutines. -/
structure Reader where
  heap : Heap
  tracker : Handles
  pendingMsgs : List SqsMessage
  fetch : FetchPc
  pendingAcks : List Nat
  pendingNacks : List Nat
  ackRunning : Bool
  refreshes : List RefreshPc
  refreshLocked : Bool
  softStopped : Bool
  closed : Bool
  received : List SqsMessage
  dispatched : List SqsMessage
  inserted : List Nat
  acks : List Nat
  nacks : List Nat
  marked : List Nat
  log : List Rpc

/-- The reader just after `Connect`. -/
def connect : Reader where
  heap := Heap.empty
  tracker := ∅
  pendingMsgs := []
  fetch := .running
  pendingAcks := []
  pendingNacks := []
  ackRunning := true
  refreshes := []
  refreshLocked := false
  softStopped := false
  closed := false
  received := []
  dispatched := []
  inserted := []
  acks := []
  nacks := []
  marked := []
  log := []

/-- The handles that messages carry. -/
def handlesOf (ms : List SqsMessage) : List Nat := ms.filterMap SqsMessage.handle

/-- `Read` returned an `AckFunc` for handle `r`: a message carrying `r` and a body was
dispatched. -/
def Reader.ackable (s : Reader) (r : Nat) : Prop :=
  ∃ m ∈ s.dispatched, m.message.body.isSome ∧ m.handle = some r

instance (s : Reader) (r : Nat) : Decidable (s.ackable r) :=
  inferInstanceAs (Decidable (∃ m ∈ s.dispatched, _))

/-! ## The fetch loop's pieces -/

/-- One iteration of `getMsgs`' loop over `res.Messages`: a message with both an id and a receipt
handle gets a fresh handle whose deadline is the clock reading `now` plus `MessageTimeout`. -/
def wrapMessage (timeout : Int) (heap : Heap) (msg : Message) (now : Nat) : SqsMessage × Heap :=
  match msg.messageId, msg.receiptHandle with
  | some id, some rh =>
    (⟨msg, some heap.next⟩, heap.alloc ⟨id, rh, SqsMessageDeadline.store (now + timeout)⟩)
  | _, _ => (⟨msg, none⟩, heap)

/-- `getMsgs`' loop over `res.Messages`, each message with the clock reading at its turn. -/
def wrapMessages (timeout : Int) : Heap → List (Message × Nat) → List SqsMessage × Heap
  | heap, [] => ([], heap)
  | heap, (msg, now) :: rest =>
    let w := wrapMessage timeout heap msg now
    let ws := wrapMessages timeout w.2 rest
    (w.1 :: ws.1, ws.2)

theorem wrapMessage_next (timeout : Int) (heap : Heap) (msg : Message) (now : Nat) :
    (wrapMessage timeout heap msg now).2.next =
      if (wrapMessage timeout heap msg now).1.handle.isSome then heap.next + 1 else heap.next := by
  unfold wrapMessage
  split <;> simp

theorem wrapMessage_handle (timeout : Int) (heap : Heap) (msg : Message) (now : Nat) :
    (wrapMessage timeout heap msg now).1.handle = none ∨
      (wrapMessage timeout heap msg now).1.handle = some heap.next := by
  unfold wrapMessage
  split <;> simp

@[simp] theorem wrapMessage_message (timeout : Int) (heap : Heap) (msg : Message) (now : Nat) :
    (wrapMessage timeout heap msg now).1.message = msg := by
  unfold wrapMessage
  split <;> rfl

theorem wrapMessage_cell_of_lt {timeout : Int} {heap : Heap} {msg : Message} {now : Nat} {r : Nat}
    (hr : r < heap.next) : (wrapMessage timeout heap msg now).2.cell r = heap.cell r := by
  unfold wrapMessage
  split
  · simp [Heap.alloc_cell, Nat.ne_of_lt hr]
  · rfl

/-- The handle `getMsgs` creates for a message is the next cell, and carries the clock reading
plus `MessageTimeout`. -/
theorem wrapMessage_deadline {timeout : Int} {heap : Heap} {msg : Message} {now r : Nat}
    (h : (wrapMessage timeout heap msg now).1.handle = some r) :
    r = heap.next ∧ ((wrapMessage timeout heap msg now).2.cell r).deadline =
      SqsMessageDeadline.store (now + timeout) := by
  unfold wrapMessage at h ⊢
  split at h
  · cases h
    simp [Heap.alloc_cell]
  · cases h

section Wrap

variable (timeout : Int)

theorem next_le_wrapMessages (heap : Heap) (msgs : List (Message × Nat)) :
    heap.next ≤ (wrapMessages timeout heap msgs).2.next := by
  induction msgs generalizing heap with
  | nil => exact le_rfl
  | cons p msgs ih =>
    refine le_trans ?_ (ih _)
    rw [wrapMessage_next]
    split <;> omega

/-- The handles `getMsgs` creates are the next cells of the heap, in order. -/
theorem handlesOf_wrapMessages (heap : Heap) (msgs : List (Message × Nat)) :
    handlesOf (wrapMessages timeout heap msgs).1 =
      List.range' heap.next ((wrapMessages timeout heap msgs).2.next - heap.next) := by
  induction msgs generalizing heap with
  | nil => simp [wrapMessages, handlesOf]
  | cons p msgs ih =>
    obtain ⟨msg, now⟩ := p
    have hle := next_le_wrapMessages timeout (wrapMessage timeout heap msg now).2 msgs
    have hih := ih (wrapMessage timeout heap msg now).2
    simp only [handlesOf] at hih ⊢
    simp only [wrapMessages, List.filterMap_cons]
    rw [hih]
    rcases wrapMessage_handle timeout heap msg now with h | h
    · rw [h]
      rw [wrapMessage_next, h] at hle ⊢
      rfl
    · rw [h]
      rw [wrapMessage_next, h] at hle ⊢
      simp only [Option.isSome_some, if_true] at hle ⊢
      rw [show (wrapMessages timeout (wrapMessage timeout heap msg now).2 msgs).2.next - heap.next =
        ((wrapMessages timeout (wrapMessage timeout heap msg now).2 msgs).2.next - (heap.next + 1)) + 1
        by omega, List.range'_succ]

/-- `getMsgs` leaves the cells it does not allocate alone. -/
theorem wrapMessages_cell_of_lt {heap : Heap} {r : Nat} (hr : r < heap.next)
    (msgs : List (Message × Nat)) : (wrapMessages timeout heap msgs).2.cell r = heap.cell r := by
  induction msgs generalizing heap with
  | nil => rfl
  | cons p msgs ih =>
    simp only [wrapMessages]
    rw [ih (lt_of_lt_of_le hr (by rw [wrapMessage_next]; split <;> omega)),
      wrapMessage_cell_of_lt hr]

@[simp] theorem wrapMessages_message (heap : Heap) (msgs : List (Message × Nat)) :
    (wrapMessages timeout heap msgs).1.map SqsMessage.message = msgs.map Prod.fst := by
  induction msgs generalizing heap with
  | nil => rfl
  | cons p msgs ih => simp [wrapMessages, ih]

/-- Every handle `getMsgs` creates carries the deadline it stored: some clock reading plus
`MessageTimeout`. -/
theorem wrapMessages_deadline {heap : Heap} {msgs : List (Message × Nat)} {r : Nat}
    (hr : r ∈ handlesOf (wrapMessages timeout heap msgs).1) :
    ∃ now : Nat, ((wrapMessages timeout heap msgs).2.cell r).deadline =
      SqsMessageDeadline.store (now + timeout) := by
  induction msgs generalizing heap with
  | nil => simp [wrapMessages, handlesOf] at hr
  | cons p msgs ih =>
    obtain ⟨msg, now⟩ := p
    simp only [wrapMessages, handlesOf, List.filterMap_cons] at hr ⊢
    split at hr
    · exact ih hr
    · rcases List.mem_cons.mp hr with rfl | hr
      · rename_i hh
        obtain ⟨rfl, hd⟩ := wrapMessage_deadline hh
        refine ⟨now, ?_⟩
        rw [wrapMessages_cell_of_lt timeout (by rw [wrapMessage_next, hh]; simp), hd]
      · exact ih hr

end Wrap

/-- `readLoop`'s deferred function: a reset of the handles of the undispatched messages. -/
def readLoopFinaliser (cfg : SqsiConfig) (heap : Heap) (pendingMsgs : List SqsMessage)
    (o : Outcome) : List Rpc :=
  if pendingMsgs = [] then [] else o.issued (resetMessages cfg heap .finaliser (handlesOf pendingMsgs))

/-! ## The ack loop's pieces -/

/-- `flushFinishedHandles(handles, erase)`: the requests it issues. -/
def flushFinishedHandles (cfg : SqsiConfig) (heap : Heap) (handles : List Nat) (erase : Bool)
    (o : Outcome) : List Rpc :=
  if handles = [] then []
  else o.issued (if erase then deleteMessages cfg .ackLoop handles
    else resetMessages cfg heap .ackLoop handles)

/-- The requests of the `<-flushTimer.C` case and of the final drain: both buffers flushed. -/
def flushAll (cfg : SqsiConfig) (s : Reader) (oAcks oNacks : Outcome) : List Rpc :=
  flushFinishedHandles cfg s.heap s.pendingAcks true oAcks ++
    flushFinishedHandles cfg s.heap s.pendingNacks false oNacks

/-- The `h := <-a.ackMessagesChan` case (`erase`) and the `h := <-a.nackMessagesChan` case:
append `r` to its buffer, remove its id from the tracker, mark it `DELETED`, and flush the
buffer once it holds `MaxNumberOfMessages` handles. -/
def Reader.handleAck (cfg : SqsiConfig) (s : Reader) (r : Nat) (erase : Bool) (o : Outcome) :
    Reader :=
  let pending := (if erase then s.pendingAcks else s.pendingNacks) ++ [r]
  let heap := s.heap.setDeadline r SqsMessageDeadline.deleted
  let flush := if cfg.maxNumberOfMessages ≤ pending.length then
    flushFinishedHandles cfg heap pending erase o else []
  { s with
    pendingAcks := if erase then pending else s.pendingAcks
    pendingNacks := if erase then s.pendingNacks else pending
    tracker := remove (s.heap.cell r).id s.tracker
    heap := heap
    acks := if erase then s.acks ++ [r] else s.acks
    nacks := if erase then s.nacks else s.nacks ++ [r]
    marked := s.marked ++ [r]
    log := s.log ++ flush }

/-! ## A refresh goroutine's pieces -/

/-- Move refresh goroutine `i` to `pc`. -/
def Reader.setRefresh (s : Reader) (i : Nat) (pc : RefreshPc) : Reader :=
  { s with refreshes := s.refreshes.set i pc }

/-- Refresh goroutine `i` returns, releasing `refreshLock`. -/
def Reader.finishRefresh (s : Reader) (i : Nat) : Reader :=
  { s.setRefresh i .finished with refreshLocked := false }

/-- One iteration of `updateVisibilityMessages`' inner loop, or its end. -/
def scanNext (heap : Heap) : List Nat → List Nat → RefreshPc
  | [], entries => .sending entries []
  | m :: ms, entries =>
    if heap.isDeleted m then .scanning ms entries
    else if entries.length + 1 = maxBatchSize then .sending (entries ++ [m]) ms
    else .scanning ms (entries ++ [m])

/-! ## Steps -/

/-- The atomic steps of the reader's goroutines.

* The fetch loop: `receive` calls `ReceiveMessage`, whose answer is a list of messages, each
  with the clock reading at its turn, or an error (`none`); `addBatch` is `AddNew` finding room
  and inserting its batch; `abandonAdd` is `AddNew` finding the tracker full with its
  context cancelled; `wake` is the back-off timer; `dispatch` hands the first buffered message
  to a `Read`; `fetchExit` is the loop taking the soft-stop case, then its deferred reset.
* The ack loop: `ack` and `nack` receive a handle from an `AckFunc` on their channel; `tick`
  is the flush timer; `ackExit` takes the soft-stop case, drains both buffers and clears the
  tracker.
* A refresh goroutine `i`: `refreshStart` tries `refreshLock`; `refreshPull` calls
  `PullToRefresh` at clock reading `now`, whose map iteration returns the handles in the
  order `order`; `refreshScan` runs one iteration of the inner loop of
  `updateVisibilityMessages`; `refreshSend` issues its request, which succeeds when `ok` and
  the ack loop is still running: the request carries the ack loop's `closeNowCtx`, which the
  loop's deferred `done()` cancels when it returns.
* `ackAfterStop` and `nackAfterStop` are an `AckFunc` that found the soft stop fired and made
  its own request; `softStop` is `Close` firing the soft stop; `closeReturn` is `Close`
  returning `nil` once both loops have stopped. -/
inductive Event
  | receive (result : Option (List (Message × Nat)))
  | addBatch
  | abandonAdd
  | wake
  | dispatch
  | fetchExit (o : Outcome)
  | ack (r : Nat) (o : Outcome)
  | nack (r : Nat) (o : Outcome)
  | tick (oAcks oNacks : Outcome)
  | ackExit (oAcks oNacks : Outcome)
  | refreshStart (i : Nat)
  | refreshPull (i : Nat) (now : Nat) (order : List Nat)
  | refreshScan (i : Nat)
  | refreshSend (i : Nat) (ok : Bool)
  | ackAfterStop (r : Nat) (o : Outcome)
  | nackAfterStop (r : Nat) (o : Outcome)
  | softStop
  | closeReturn
  deriving DecidableEq, Repr

/-- `getMsgs` with `ReceiveMessage` answering `result`: the request is logged and the messages
are wrapped and buffered; a nonempty batch is offered to `AddNew`, and otherwise the buffer is
still empty and the loop backs off. -/
def Reader.getMsgs (cfg : SqsiConfig) (s : Reader) (result : Option (List (Message × Nat))) :
    Reader :=
  let w := wrapMessages cfg.messageTimeout s.heap (result.getD [])
  { s with
    log := s.log ++ [Rpc.receiveMessage]
    heap := w.2
    pendingMsgs := s.pendingMsgs ++ w.1
    fetch := if w.1 = [] then .sleeping else .adding w.1
    received := s.received ++ w.1 }

/-- Refresh goroutine `i` after `PullToRefresh` returned its handles in iteration order `order`:
it returns at once, releasing `refreshLock`, when there are none. -/
def Reader.afterPull (s : Reader) (i : Nat) (order : List Nat) : Reader :=
  { s with
    refreshes := s.refreshes.set i (if order = [] then .finished else .scanning order [])
    refreshLocked := if order = [] then false else s.refreshLocked }

/-- Refresh goroutine `i` after issuing a request: the outer loop goes on while handles are
left and the call succeeded, and otherwise the goroutine returns. -/
def Reader.afterSend (s : Reader) (i : Nat) (ok : Bool) (msgs : List Nat) : Reader :=
  { s with
    refreshes := s.refreshes.set i (if ok ∧ msgs ≠ [] then .scanning msgs [] else .finished)
    refreshLocked := if ok ∧ msgs ≠ [] then s.refreshLocked else false }

theorem Reader.afterPull_eq (s : Reader) (i : Nat) (order : List Nat) :
    s.afterPull i order =
      if order = [] then s.finishRefresh i else s.setRefresh i (.scanning order []) := by
  unfold afterPull finishRefresh setRefresh
  split <;> rfl

theorem Reader.afterSend_eq (s : Reader) (i : Nat) (ok : Bool) (msgs : List Nat) :
    s.afterSend i ok msgs =
      if ok ∧ msgs ≠ [] then s.setRefresh i (.scanning msgs []) else s.finishRefresh i := by
  unfold afterSend finishRefresh setRefresh
  split <;> rfl

/-- One atomic step of the reader, or `none` when the event cannot happen in `s`. -/
def step (cfg : SqsiConfig) (s : Reader) : Event → Option Reader
  | .receive result =>
    if s.fetch = .running ∧ s.pendingMsgs = [] then some (s.getMsgs cfg result) else none
  | .addBatch =>
    match s.fetch with
    | .adding batch =>
      if hasRoom cfg.maxOutstanding s.tracker then
        some { s with
          tracker := addNew s.heap batch s.tracker
          fetch := .running
          inserted := s.inserted ++ handlesOf batch }
      else none
    | _ => none
  | .abandonAdd =>
    match s.fetch with
    | .adding _ =>
      if !hasRoom cfg.maxOutstanding s.tracker ∧ s.softStopped then some { s with fetch := .running }
      else none
    | _ => none
  | .wake => if s.fetch = .sleeping then some { s with fetch := .running } else none
  | .dispatch =>
    match s.fetch, s.pendingMsgs with
    | .running, m :: rest =>
      some { s with
        pendingMsgs := rest
        dispatched := s.dispatched ++ [m] }
    | _, _ => none
  | .fetchExit o =>
    if s.softStopped ∧ (s.fetch = .sleeping ∨ s.fetch = .running ∧ s.pendingMsgs ≠ []) then
      some { s with
        fetch := .stopped
        log := s.log ++ readLoopFinaliser cfg s.heap s.pendingMsgs o }
    else none
  | .ack r o => if s.ackRunning ∧ s.ackable r then some (s.handleAck cfg r true o) else none
  | .nack r o => if s.ackRunning ∧ s.ackable r then some (s.handleAck cfg r false o) else none
  | .tick oAcks oNacks =>
    if s.ackRunning then
      some { s with
        refreshes := s.refreshes ++ [.spawned]
        log := s.log ++ flushAll cfg s oAcks oNacks }
    else none
  | .ackExit oAcks oNacks =>
    if s.ackRunning ∧ s.softStopped then
      some { s with
        ackRunning := false
        tracker := ∅
        log := s.log ++ flushAll cfg s oAcks oNacks }
    else none
  | .refreshStart i =>
    if s.refreshes[i]? = some .spawned then
      if s.refreshLocked then some (s.setRefresh i .finished)
      else some { s.setRefresh i .locked with refreshLocked := true }
    else none
  | .refreshPull i now order =>
    let pulled := pullToRefresh cfg.messageTimeout now s.tracker s.heap
    if s.refreshes[i]? = some .locked ∧ order.Perm pulled.1 then
      some ({ s with heap := pulled.2 }.afterPull i order)
    else none
  | .refreshScan i =>
    match s.refreshes[i]? with
    | some (.scanning msgs entries) => some (s.setRefresh i (scanNext s.heap msgs entries))
    | _ => none
  | .refreshSend i ok =>
    match s.refreshes[i]? with
    | some (.sending entries msgs) =>
      some ({ s with
        log := s.log ++ [Rpc.changeMessageVisibilityBatch .refresh entries
          (toInt32 cfg.timeoutSeconds)] }.afterSend i (ok && s.ackRunning) msgs)
    | _ => none
  | .ackAfterStop r o =>
    if s.softStopped ∧ s.ackable r then
      some { s with
        acks := s.acks ++ [r]
        log := s.log ++ o.issued (deleteMessages cfg .ackFn [r]) }
    else none
  | .nackAfterStop r o =>
    if s.softStopped ∧ s.ackable r then
      some { s with
        nacks := s.nacks ++ [r]
        log := s.log ++ o.issued (resetMessages cfg s.heap .ackFn [r]) }
    else none
  | .softStop => some { s with softStopped := true }
  | .closeReturn =>
    if s.softStopped ∧ s.fetch = .stopped ∧ s.ackRunning = false then some { s with closed := true }
    else none

/-- The state after a sequence of events, if each can happen in turn. -/
def run (cfg : SqsiConfig) : Reader → List Event → Option Reader
  | s, [] => some s
  | s, e :: es => (step cfg s e).bind (run cfg · es)

/-- The states a connected reader can reach. -/
def Reachable (cfg : SqsiConfig) (s : Reader) : Prop := ∃ evs, run cfg connect evs = some s

@[simp] theorem run_nil (cfg : SqsiConfig) (s : Reader) : run cfg s [] = some s := rfl

theorem run_cons (cfg : SqsiConfig) (s : Reader) (e : Event) (es : List Event) :
    run cfg s (e :: es) = (step cfg s e).bind (run cfg · es) := rfl

theorem run_append (cfg : SqsiConfig) (s : Reader) (es es' : List Event) :
    run cfg s (es ++ es') = (run cfg s es).bind (run cfg · es') := by
  induction es generalizing s with
  | nil => rfl
  | cons e es ih =>
    simp only [List.cons_append, run_cons, ih]
    cases step cfg s e <;> rfl

/-- A relation that every step of an `ok` event from a state satisfying `P` makes, keeping `P`,
holds along every run of `ok` events from such a state, when it is reflexive and composes. -/
theorem run_relates_of {cfg : SqsiConfig} {P : Reader → Prop} {R : Reader → Reader → Prop}
    {ok : Event → Prop} (hrefl : ∀ s, R s s)
    (htrans : ∀ {s₁ s₂ s₃}, R s₁ s₂ → R s₂ s₃ → R s₁ s₃)
    (hstep : ∀ {s e s'}, P s → ok e → step cfg s e = some s' → P s' ∧ R s s') :
    ∀ {evs s s'}, P s → (∀ e ∈ evs, ok e) → run cfg s evs = some s' → R s s'
  | [], s, s', _, _, h => by cases h; exact hrefl s
  | e :: es, s, s', hs, hok, h => by
    rw [run_cons] at h
    cases he : step cfg s e with
    | none => simp [he] at h
    | some s₁ =>
      rw [he, Option.some_bind] at h
      have h₁ := hstep hs (hok e (List.mem_cons_self _ _)) he
      exact htrans h₁.2 (run_relates_of hrefl htrans hstep h₁.1
        (fun e' he' => hok e' (List.mem_cons_of_mem _ he')) h)

/-- A relation that every step from a state satisfying `P` makes, keeping `P`, holds along every
run from such a state, when it is reflexive and composes. -/
theorem run_relates {cfg : SqsiConfig} {P : Reader → Prop} {R : Reader → Reader → Prop}
    (hrefl : ∀ s, R s s) (htrans : ∀ {s₁ s₂ s₃}, R s₁ s₂ → R s₂ s₃ → R s₁ s₃)
    (hstep : ∀ {s e s'}, P s → step cfg s e = some s' → P s' ∧ R s s')
    {evs : List Event} {s s' : Reader} (hs : P s) (h : run cfg s evs = some s') : R s s' :=
  @run_relates_of cfg P R (fun _ => True) hrefl htrans (fun hs _ he => hstep hs he) _ _ _ hs
    (fun _ _ => trivial) h

/-- A property that every step of `ok` events keeps holds along every run of them. -/
theorem run_preserves {cfg : SqsiConfig} {P : Reader → Prop} {ok : Event → Prop}
    (hstep : ∀ {s e s'}, P s → ok e → step cfg s e = some s' → P s') :
    ∀ {evs s s'}, P s → (∀ e ∈ evs, ok e) → run cfg s evs = some s' → P s'
  | [], s, s', hs, _, h => by cases h; exact hs
  | e :: es, s, s', hs, hok, h => by
    rw [run_cons] at h
    cases he : step cfg s e with
    | none => simp [he] at h
    | some s₁ =>
      rw [he, Option.some_bind] at h
      exact run_preserves hstep (hstep hs (hok e (List.mem_cons_self _ _)) he)
        (fun e' he' => hok e' (List.mem_cons_of_mem _ he')) h

/-- An invariant of every step holds in every reachable state. -/
theorem Reachable.induction {cfg : SqsiConfig} {P : Reader → Prop} (h0 : P connect)
    (hstep : ∀ {s e s'}, P s → step cfg s e = some s' → P s') {s : Reader}
    (hs : Reachable cfg s) : P s := by
  obtain ⟨evs, h⟩ := hs
  exact run_preserves (P := P) (fun hs (_ : True) he => hstep hs he) h0 (fun _ _ => trivial) h

theorem Reachable.step {cfg : SqsiConfig} {s s' : Reader} {e : Event} (hs : Reachable cfg s)
    (h : step cfg s e = some s') : Reachable cfg s' := by
  obtain ⟨evs, hr⟩ := hs
  exact ⟨evs ++ [e], by rw [run_append, hr]; simpa [run_cons] using h⟩

/-- A run that can be evaluated, and whose last state passes a test, exhibits a reachable state
passing it. -/
theorem Reachable.of_run {cfg : SqsiConfig} {evs : List Event} {p : Reader → Bool}
    (h : (run cfg connect evs).map p = some true) : ∃ s, Reachable cfg s ∧ p s = true := by
  cases hr : run cfg connect evs with
  | none => rw [hr] at h; cases h
  | some s =>
    rw [hr, Option.map_some'] at h
    exact ⟨s, ⟨evs, hr⟩, Option.some.inj h⟩

theorem Reachable.run {cfg : SqsiConfig} {s s' : Reader} {evs : List Event} (hs : Reachable cfg s)
    (h : run cfg s evs = some s') : Reachable cfg s' := by
  obtain ⟨evs₀, hr⟩ := hs
  exact ⟨evs₀ ++ evs, by rw [run_append, hr]; exact h⟩

end SqsInput
