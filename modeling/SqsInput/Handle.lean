import Mathlib.Logic.Function.Basic

/-!
# Handles, deadlines and requests of the SQS input

The data model of `internal/impl/aws/input_sqs.go`. A received SQS message is wrapped in an
`sqsMessage`, which carries a handle when the message came with both an id and a receipt
handle. A handle holds the message id, the receipt handle, and a deadline that several
goroutines share: an atomic `int64` of Unix seconds, in which `-1` is the sentinel written by
`SetDeleted` once the ack loop has taken the handle over.

Go's handles are pointers, shared by the fetch loop's buffer, the in-flight tracker, the ack
loop's buffers and the refresh goroutines. Here a handle is named by the number of its cell in a
`Heap`, and only the deadline of a cell ever changes. A request to SQS records the cells of the
handles whose id and receipt handle it carries, as the Go entries hold `&msg.id` and
`&msg.receiptHandle`.

Durations and instants are nanoseconds, as `time.Duration` and `time.Time` count them. Clock
readings are instants after the Unix epoch, so they are natural numbers.
-/

namespace SqsInput

/-- Nanoseconds in a second (`time.Second`). -/
def second : Int := 1000000000

/-! ## Configuration -/

/-- The fields of `sqsiConfig` that the reader's core reads. `MessageTimeout` is a
`time.Duration` in nanoseconds; the integers are Go `int`s, and nothing bounds them. -/
structure SqsiConfig where
  deleteMessage : Bool
  resetVisibility : Bool
  maxNumberOfMessages : Int
  maxOutstanding : Int
  messageTimeout : Int
  deriving DecidableEq, Repr

/-- The defaults of `sqsInputSpec`. -/
def SqsiConfig.default : SqsiConfig where
  deleteMessage := true
  resetVisibility := true
  maxNumberOfMessages := 10
  maxOutstanding := 1000
  messageTimeout := 30 * second

/-- `int(a.conf.MessageTimeout.Seconds())`: the timeout in whole seconds, truncated towards
zero. Go computes `Seconds()` in `float64`, as `float64(sec) + float64(nsec)/1e9`, which agrees
with this exact truncation for every timeout shorter than 2²³ seconds; beyond that the sum can
round up to the next whole second (4294967295.999999999 s gives 4294967296 in Go). -/
def SqsiConfig.timeoutSeconds (cfg : SqsiConfig) : Int := cfg.messageTimeout.tdiv second

/-! ## Deadlines -/

/-- `sqsMessageDeadline.Store`: the Unix seconds of an instant, rounded down as `Time.Unix`
rounds. -/
def SqsMessageDeadline.store (v : Int) : Int := v / second

/-- `sqsMessageDeadline.Load`: the instant at which a stored whole second begins. -/
def SqsMessageDeadline.load (d : Int) : Int := d * second

/-- The value `SetDeleted` stores. -/
def SqsMessageDeadline.deleted : Int := -1

/-- `sqsMessageDeadline.IsDeleted`. -/
def SqsMessageDeadline.isDeleted (d : Int) : Bool := d == SqsMessageDeadline.deleted

/-- `sqsMessageHandle`. -/
structure SqsMessageHandle where
  id : String
  receiptHandle : String
  deadline : Int
  deriving DecidableEq, Repr

/-! ## The heap of handles -/

/-- The handles allocated so far: the cells below `next`. -/
structure Heap where
  next : Nat
  cell : Nat → SqsMessageHandle

/-- The heap before any message is received. -/
def Heap.empty : Heap := ⟨0, fun _ => ⟨"", "", 0⟩⟩

/-- A fresh handle, as the `&sqsMessageHandle{...}` literal of `getMsgs` allocates it. -/
def Heap.alloc (h : Heap) (x : SqsMessageHandle) : Heap :=
  ⟨h.next + 1, Function.update h.cell h.next x⟩

/-- An atomic store to the deadline of `r`. -/
def Heap.setDeadline (h : Heap) (r : Nat) (d : Int) : Heap :=
  ⟨h.next, Function.update h.cell r { h.cell r with deadline := d }⟩

/-- `r.deadline.IsDeleted()`. -/
def Heap.isDeleted (h : Heap) (r : Nat) : Bool := SqsMessageDeadline.isDeleted (h.cell r).deadline

@[simp] theorem Heap.alloc_next (h : Heap) (x : SqsMessageHandle) : (h.alloc x).next = h.next + 1 :=
  rfl

theorem Heap.alloc_cell (h : Heap) (x : SqsMessageHandle) (r : Nat) :
    (h.alloc x).cell r = if r = h.next then x else h.cell r := by
  simp only [alloc, Function.update_apply]

@[simp] theorem Heap.setDeadline_next (h : Heap) (r : Nat) (d : Int) :
    (h.setDeadline r d).next = h.next := rfl

@[simp] theorem Heap.setDeadline_deadline (h : Heap) (r r' : Nat) (d : Int) :
    ((h.setDeadline r d).cell r').deadline = if r' = r then d else (h.cell r').deadline := by
  simp only [setDeadline, Function.update_apply]
  split <;> simp_all

/-- Only deadlines change: the id and receipt handle of every cell stay as allocated. -/
@[simp] theorem Heap.setDeadline_id (h : Heap) (r r' : Nat) (d : Int) :
    ((h.setDeadline r d).cell r').id = (h.cell r').id := by
  simp only [setDeadline, Function.update_apply]
  split <;> simp_all

@[simp] theorem Heap.setDeadline_receiptHandle (h : Heap) (r r' : Nat) (d : Int) :
    ((h.setDeadline r d).cell r').receiptHandle = (h.cell r').receiptHandle := by
  simp only [setDeadline, Function.update_apply]
  split <;> simp_all

theorem Heap.isDeleted_setDeadline (h : Heap) (r r' : Nat) (d : Int) :
    (h.setDeadline r d).isDeleted r' =
      if r' = r then SqsMessageDeadline.isDeleted d else h.isDeleted r' := by
  simp only [isDeleted, setDeadline_deadline]
  split <;> rfl

/-! ## Messages and requests -/

/-- The fields of an SQS `types.Message` that the reader's core reads. -/
structure Message where
  messageId : Option String
  receiptHandle : Option String
  body : Option String
  deriving DecidableEq, Repr

/-- `sqsMessage`: a received message and, when it came with both an id and a receipt handle,
its handle. -/
structure SqsMessage where
  message : Message
  handle : Option Nat
  deriving DecidableEq, Repr

/-- The code that issues a request: the ack loop's `flushFinishedHandles`, a refresh pass
(`refreshCurrentHandles`), the fetch loop's deferred reset of undispatched messages, or an
`AckFunc` that found the soft stop already fired. -/
inductive Origin
  | ackLoop
  | refresh
  | finaliser
  | ackFn
  deriving DecidableEq, Repr

/-- A call to the `sqsAPI`, with the handles whose entries it carries. `SendMessageBatch` is
never called by the reader. -/
inductive Rpc
  | receiveMessage
  | deleteMessageBatch (origin : Origin) (entries : List Nat)
  | changeMessageVisibilityBatch (origin : Origin) (entries : List Nat) (visibilityTimeout : Int)
  deriving DecidableEq, Repr

/-- The code that issued a request, for the batch requests. -/
def Rpc.origin : Rpc → Option Origin
  | .receiveMessage => none
  | .deleteMessageBatch origin _ => some origin
  | .changeMessageVisibilityBatch origin _ _ => some origin

/-- The handles a request carries, whatever it does with them. -/
def Rpc.entries : Rpc → List Nat
  | .receiveMessage => []
  | .deleteMessageBatch _ entries => entries
  | .changeMessageVisibilityBatch _ entries _ => entries

/-- The handles a request deletes. -/
def Rpc.deletes : Rpc → List Nat
  | .deleteMessageBatch _ entries => entries
  | _ => []

/-- The handles a request makes visible at once: the entries of a visibility change to `0`. -/
def Rpc.resets : Rpc → List Nat
  | .changeMessageVisibilityBatch _ entries v => if v = 0 then entries else []
  | _ => []

/-- The handles a request extends: the entries of a visibility change to a positive timeout. -/
def Rpc.extensions : Rpc → List Nat
  | .changeMessageVisibilityBatch _ entries v => if 0 < v then entries else []
  | _ => []

end SqsInput
