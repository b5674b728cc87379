import LeafOS.Support.Ring

/-!
The queue of keys between the interrupt handler and the shell. `enqueue_key` runs to
completion in the handler; `dequeue_key` can be interrupted between any two of its
accesses to the shared variables.
-/

namespace leafos.shell

def QUEUE_CAPACITY : Nat := 256

instance : NeZero QUEUE_CAPACITY := ⟨by decide⟩

variable (slot : Fin QUEUE_CAPACITY)

/-- The queue through which the keyboard feeds the shell. Indices wrap around, as the code
masks them. -/
structure KeyQueue where
  INPUT_QUEUE : Fin QUEUE_CAPACITY → UInt8
  QUEUE_HEAD : Fin QUEUE_CAPACITY
  QUEUE_TAIL : Fin QUEUE_CAPACITY

/-- A full queue drops the key. -/
def enqueue_key (self : KeyQueue) (byte : UInt8) : KeyQueue :=
  let next := self.QUEUE_HEAD + 1
  if next = self.QUEUE_TAIL then
    self
  else
    { self with
      INPUT_QUEUE := Function.update self.INPUT_QUEUE self.QUEUE_HEAD byte
      QUEUE_HEAD := next }

/-- `enqueue_key` stores the byte: it moves the head. -/
def KeyQueue.accepts (queue : KeyQueue) : Bool := queue.QUEUE_HEAD + 1 ≠ queue.QUEUE_TAIL

/-- How far a call of `dequeue_key` has got. -/
inductive Consumer where
  | idle
  | tail_loaded (tail : Fin QUEUE_CAPACITY)
  | not_empty (tail : Fin QUEUE_CAPACITY)
  | byte_loaded (tail : Fin QUEUE_CAPACITY) (byte : UInt8)

/-- The next access of `dequeue_key`, with what the call returns if it is the last one. -/
def Consumer.access (queue : KeyQueue) : Consumer → Consumer × KeyQueue × Option (Option UInt8)
  | .idle => (.tail_loaded queue.QUEUE_TAIL, queue, none)
  | .tail_loaded tail =>
    if tail = queue.QUEUE_HEAD then (.idle, queue, some none) else (.not_empty tail, queue, none)
  | .not_empty tail => (.byte_loaded tail (queue.INPUT_QUEUE tail), queue, none)
  | .byte_loaded tail byte =>
    (.idle, { queue with QUEUE_TAIL := tail + 1 }, some (some byte))

/-- The queue, the consumer, and what has happened so far: the bytes that `enqueue_key` has
accepted and the bytes that `dequeue_key` has returned. -/
structure KeySystem where
  queue : KeyQueue
  consumer : Consumer
  accepted : List UInt8
  returned : List UInt8

/-- A key interrupt, or an access of the shell. -/
inductive QueueEvent where
  | interrupt (byte : UInt8)
  | access

def KeySystem.step (system : KeySystem) : QueueEvent → KeySystem
  | .interrupt byte =>
    { system with
      queue := enqueue_key system.queue byte
      accepted := if system.queue.accepts then system.accepted ++ [byte] else system.accepted }
  | .access =>
    let (consumer, queue, result) := system.consumer.access system.queue
    { system with queue, consumer, returned := system.returned ++ result.join.toList }

def KeySystem.run (system : KeySystem) (events : List QueueEvent) : KeySystem := events.foldl step system

/-- Nothing has been enqueued yet. -/
def KeySystem.initial : KeySystem := ⟨⟨fun _ => 0, 0, 0⟩, .idle, [], []⟩

/-- The queue as a ring: the bytes from the tail up to the head. -/
def KeyQueue.ring (queue : KeyQueue) : ByteRing QUEUE_CAPACITY where
  bytes := Vector.ofFn queue.INPUT_QUEUE
  head := queue.QUEUE_TAIL
  length := (queue.QUEUE_HEAD - queue.QUEUE_TAIL).val
  length_le := (queue.QUEUE_HEAD - queue.QUEUE_TAIL).isLt.le

/-- The bytes in the queue, the oldest first. -/
def KeyQueue.contents (queue : KeyQueue) : List UInt8 := queue.ring.contents

theorem slot_lt : slot.val < 256 := slot.isLt

theorem slot_succ : (slot + 1).val = (slot.val + 1) % 256 := Fin.val_add slot 1

theorem slot_sub (slot origin : Fin QUEUE_CAPACITY) :
    (slot - origin).val = (256 - origin.val + slot.val) % 256 := Fin.val_sub slot origin

section Queue

variable (queue : KeyQueue) (byte : UInt8)

theorem KeyQueue.contents_length : queue.contents.length = (queue.QUEUE_HEAD - queue.QUEUE_TAIL).val :=
  ByteRing.contents_length _

/-- One slot stays free, to tell a full queue from an empty one. -/
theorem KeyQueue.accepts_iff : queue.accepts = true ↔ queue.contents.length ≠ 255 := by
  have hhead := slot_lt queue.QUEUE_HEAD
  have htail := slot_lt queue.QUEUE_TAIL
  rw [contents_length, accepts, decide_eq_true_iff, Ne, Fin.ext_iff, slot_succ, slot_sub]
  omega

theorem enqueue_key_refused (hfull : queue.accepts = false) : enqueue_key queue byte = queue :=
  if_pos (not_not.mp (decide_eq_false_iff_not.mp hfull))

/-- An accepted byte is pushed onto the ring. -/
theorem enqueue_key_ring (haccepts : queue.accepts = true) : (enqueue_key queue byte).ring = queue.ring.push byte := by
  have hhead := slot_lt queue.QUEUE_HEAD
  have htail := slot_lt queue.QUEUE_TAIL
  have hroom := queue.accepts_iff.mp haccepts
  rw [KeyQueue.contents_length, slot_sub] at hroom
  have hshort : queue.ring.length < QUEUE_CAPACITY := (queue.QUEUE_HEAD - queue.QUEUE_TAIL).isLt
  have hplace : (queue.QUEUE_TAIL.val + (queue.QUEUE_HEAD - queue.QUEUE_TAIL).val) % QUEUE_CAPACITY =
      queue.QUEUE_HEAD.val := by
    change _ % 256 = _
    rw [slot_sub]
    omega
  rw [enqueue_key, if_neg (decide_eq_true_iff.mp haccepts), ByteRing.push, dif_pos hshort]
  simp only [KeyQueue.ring, ByteRing.mk.injEq, true_and]
  refine ⟨?_, ?_⟩
  · apply Vector.ext
    intro index hindex
    rw [Vector.getElem_ofFn, Vector.getElem_set, Function.update_apply, Vector.getElem_ofFn]
    simp only [hplace, Fin.ext_iff, eq_comm]
  · rw [slot_sub, slot_sub, slot_succ]
    omega

theorem enqueue_key_contents (haccepts : queue.accepts = true) :
    (enqueue_key queue byte).contents = queue.contents ++ [byte] := by
  rw [KeyQueue.contents, enqueue_key_ring queue byte haccepts, ByteRing.contents_push,
    if_pos (c := queue.ring.length < _) (queue.QUEUE_HEAD - queue.QUEUE_TAIL).isLt]
  rfl

theorem enqueue_key_tail : (enqueue_key queue byte).QUEUE_TAIL = queue.QUEUE_TAIL := by
  unfold enqueue_key
  dsimp only
  split <;> rfl

/-- The queue is empty when the two positions agree. -/
theorem KeyQueue.contents_eq_nil_iff : queue.contents = [] ↔ queue.QUEUE_TAIL = queue.QUEUE_HEAD := by
  have hhead := slot_lt queue.QUEUE_HEAD
  have htail := slot_lt queue.QUEUE_TAIL
  rw [← List.length_eq_zero_iff, queue.contents_length, Fin.ext_iff, slot_sub]
  omega

/-- Moving the tail takes the oldest byte away. -/
theorem KeyQueue.contents_eq_cons (hstored : queue.contents ≠ []) :
    queue.contents = queue.INPUT_QUEUE queue.QUEUE_TAIL ::
      KeyQueue.contents { queue with QUEUE_TAIL := queue.QUEUE_TAIL + 1 } := by
  have hhead := slot_lt queue.QUEUE_HEAD
  have htail := slot_lt queue.QUEUE_TAIL
  have hne : queue.QUEUE_TAIL.val ≠ queue.QUEUE_HEAD.val :=
    fun heq => hstored (queue.contents_eq_nil_iff.mpr (Fin.ext heq))
  have hbehind : KeyQueue.ring { queue with QUEUE_TAIL := queue.QUEUE_TAIL + 1 } = queue.ring.behind := by
    simp only [ring, ByteRing.behind, ByteRing.mk.injEq, true_and]
    rw [slot_sub, slot_sub, slot_succ]
    omega
  have hbyte : queue.ring.bytes.get queue.ring.head = queue.INPUT_QUEUE queue.QUEUE_TAIL :=
    Vector.getElem_ofFn queue.QUEUE_TAIL.isLt
  have hpositive : 0 < queue.ring.length := by
    rw [← ByteRing.contents_length]
    exact List.length_pos_iff.mpr hstored
  rw [contents, ByteRing.contents_behind _ hpositive, contents, hbehind, hbyte]

end Queue

/-- What the consumer knows in each phase: the tail is its own, and the byte it has loaded is
the oldest one. -/
def Consumer.Knows (queue : KeyQueue) : Consumer → Prop
  | .idle => True
  | .tail_loaded tail => tail = queue.QUEUE_TAIL
  | .not_empty tail => tail = queue.QUEUE_TAIL ∧ queue.contents ≠ []
  | .byte_loaded tail byte => tail = queue.QUEUE_TAIL ∧ queue.contents.head? = some byte

/-- A call ends with the oldest byte, or in an empty queue. -/
theorem Consumer.Knows.result {queue : KeyQueue} {consumer : Consumer} {result : Option UInt8}
    (hknows : consumer.Knows queue) (hresult : (consumer.access queue).2.2 = some result) :
    result = queue.contents.head? := by
  cases consumer with
  | idle | not_empty tail => cases hresult
  | byte_loaded tail byte =>
    cases hresult
    exact hknows.2.symm
  | tail_loaded tail =>
    obtain rfl : tail = queue.QUEUE_TAIL := hknows
    by_cases hempty : queue.QUEUE_TAIL = queue.QUEUE_HEAD
    · rw [Consumer.access, if_pos hempty] at hresult
      cases hresult
      rw [queue.contents_eq_nil_iff.mpr hempty, List.head?_nil]
    · rw [Consumer.access, if_neg hempty] at hresult
      cases hresult

/-- Every accepted byte has been returned or is in the queue, in order. -/
structure KeySystem.Lossless (system : KeySystem) : Prop where
  conserved : system.returned ++ system.queue.contents = system.accepted
  consumer : system.consumer.Knows system.queue

namespace KeySystem.Lossless

variable {system : KeySystem}

theorem initial : KeySystem.initial.Lossless := ⟨rfl, trivial⟩

variable (hsystem : system.Lossless)
include hsystem

/-- An interrupt leaves the tail and the oldest bytes alone. -/
theorem interrupt (byte : UInt8) : (system.step (.interrupt byte)).Lossless := by
  have hknows := hsystem.consumer
  cases haccepts : system.queue.accepts with
  | false =>
    have hsame : system.step (.interrupt byte) = system := by
      simp only [step, enqueue_key_refused _ byte haccepts, haccepts, Bool.false_eq_true, if_false]
    rwa [hsame]
  | true =>
    have htail := enqueue_key_tail system.queue byte
    have hcontents := enqueue_key_contents system.queue byte haccepts
    refine ⟨?_, ?_⟩
    · simp only [step, haccepts, hcontents, if_true, ← hsystem.conserved, List.append_assoc]
    · change system.consumer.Knows (enqueue_key system.queue byte)
      cases hconsumer : system.consumer with
      | idle => trivial
      | tail_loaded tail =>
        rw [hconsumer] at hknows
        exact hknows.trans htail.symm
      | not_empty tail =>
        rw [hconsumer] at hknows
        exact ⟨hknows.1.trans htail.symm, by rw [hcontents]; simp⟩
      | byte_loaded tail loaded =>
        rw [hconsumer] at hknows
        refine ⟨hknows.1.trans htail.symm, ?_⟩
        rw [hcontents, List.head?_append, hknows.2]
        rfl

theorem access : (system.step .access).Lossless := by
  obtain ⟨queue, consumer, accepted, returned⟩ := system
  obtain ⟨hconserved, hknows⟩ := hsystem
  dsimp only at hconserved hknows
  have hsilent : returned ++ (none : Option (Option UInt8)).join.toList ++ queue.contents = accepted := by
    rw [Option.join_none, Option.toList_none, List.append_nil]
    exact hconserved
  cases consumer with
  | idle => exact ⟨hsilent, rfl⟩
  | tail_loaded tail =>
    obtain rfl : tail = queue.QUEUE_TAIL := hknows
    simp only [step, Consumer.access]
    by_cases hempty : queue.QUEUE_TAIL = queue.QUEUE_HEAD
    · rw [if_pos hempty]
      exact ⟨hsilent, trivial⟩
    · rw [if_neg hempty]
      exact ⟨hsilent, rfl, fun hnil => hempty (queue.contents_eq_nil_iff.mp hnil)⟩
  | not_empty tail =>
    obtain ⟨rfl, hstored⟩ := hknows
    refine ⟨hsilent, rfl, ?_⟩
    change queue.contents.head? = _
    rw [queue.contents_eq_cons hstored]
    rfl
  | byte_loaded tail byte =>
    obtain ⟨rfl, hbyte⟩ := hknows
    have hstored : queue.contents ≠ [] := by
      intro hnil
      rw [hnil] at hbyte
      cases hbyte
    have hcontents := queue.contents_eq_cons hstored
    rw [hcontents, List.head?_cons, Option.some.injEq] at hbyte
    subst hbyte
    refine ⟨?_, trivial⟩
    change returned ++ [_] ++ _ = accepted
    rw [List.append_assoc, List.singleton_append]
    exact hcontents ▸ hconserved

theorem run (events : List QueueEvent) : (system.run events).Lossless := by
  induction events generalizing system with
  | nil => exact hsystem
  | cons event rest ih =>
    apply ih
    cases event with
    | interrupt byte => exact hsystem.interrupt byte
    | access => exact hsystem.access

end KeySystem.Lossless

/-- Whatever the interleaving, the bytes returned so far followed by the bytes in the queue are the bytes accepted
so far; a call of `dequeue_key` that ends returns the oldest byte, so that it finds nothing only in an empty queue;
and a byte is dropped only when 255 bytes are waiting. -/
theorem key_queue_lossless (events : List QueueEvent) :
    let system := KeySystem.initial.run events
    system.returned <+: system.accepted ∧
    system.returned ++ system.queue.contents = system.accepted ∧
    (∀ result, (system.consumer.access system.queue).2.2 = some result → result = system.queue.contents.head?) ∧
    ∀ byte, if system.accepted.length = system.returned.length + 255 then enqueue_key system.queue byte = system.queue
      else (enqueue_key system.queue byte).contents = system.queue.contents ++ [byte] := by
  intro system
  have hsystem : system.Lossless := KeySystem.Lossless.initial.run events
  refine ⟨⟨_, hsystem.conserved⟩, hsystem.conserved, fun result hresult => hsystem.consumer.result hresult, ?_⟩
  intro byte
  have hwaiting : system.accepted.length = system.returned.length + 255 ↔ system.queue.contents.length = 255 := by
    rw [← hsystem.conserved, List.length_append]
    omega
  have haccepts := system.queue.accepts_iff
  split
  · rename_i hfull
    apply enqueue_key_refused
    rw [← Bool.not_eq_true, haccepts, not_not]
    exact hwaiting.mp hfull
  · rename_i hroom
    apply enqueue_key_contents
    rw [haccepts]
    exact fun hfull => hroom (hwaiting.mpr hfull)

end leafos.shell
