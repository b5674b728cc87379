import LeafOS.Tasking.PipeEnds

namespace leafos.tasking.fd

variable {objects : Objects} {pipe : Nat}

/-- What is done to the shared objects from outside: calls on a descriptor, new
pipes, and bytes arriving from the keyboard. -/
inductive Call where
  | read (descriptor : FileDescriptor) (capacity : Nat)
  | write (descriptor : FileDescriptor) (input : List UInt8) (stored : Bool)
  | clone (descriptor : FileDescriptor)
  | close (descriptor : FileDescriptor)
  | create_pipe
  | enqueue (byte : UInt8)

variable (call : Call) (calls : List Call)

inductive StreamReply where
  | read (result : Except ReadError (List UInt8))
  | write (result : Except WriteError Nat)
  | done

def Call.perform (call : Call) (objects : Objects) : StreamReply × Objects :=
  match call with
  | .read descriptor capacity =>
    let (result, after) := fd.read descriptor capacity objects
    (.read result, after)
  | .write descriptor input stored =>
    let (result, after) := fd.write descriptor input stored objects
    (.write result, after)
  | .clone descriptor => (.done, descriptor.clone objects)
  | .close descriptor => (.done, fd.close descriptor objects)
  | .create_pipe => (.done, (fd.create_pipe objects).2)
  | .enqueue byte => (.done, { objects with input := drivers.input.enqueue objects.input byte })

/-- A call with the objects it found and the reply it gave. -/
structure Exchange where
  before : Objects
  call : Call
  reply : StreamReply

def perform_all (calls : List Call) (objects : Objects) : Objects :=
  calls.foldl (fun objects call => (call.perform objects).2) objects

/-- The exchanges of a sequence of calls, in call order. -/
def exchanges : List Call → Objects → List Exchange
  | [], _ => []
  | call :: rest, objects =>
    ⟨objects, call, (call.perform objects).1⟩ :: exchanges rest (call.perform objects).2

/-- The bytes a write put into the pipe: the first `count` of its input when it
returned `Ok(count)`. -/
def Exchange.sent (pipe : Nat) (exchange : Exchange) : List UInt8 :=
  match exchange.call, exchange.reply with
  | .write (.PipeWrite target) input _, .write (.ok count) => if target = pipe then input.take count else []
  | _, _ => []

/-- The bytes a read returned from the pipe. -/
def Exchange.received (pipe : Nat) (exchange : Exchange) : List UInt8 :=
  match exchange.call, exchange.reply with
  | .read (.PipeRead source) _, .read (.ok bytes) => if source = pipe then bytes else []
  | _, _ => []

/-- The byte pushed by the keyboard, unless 256 bytes were unread. -/
def Exchange.typed (exchange : Exchange) : List UInt8 :=
  match exchange.call with
  | .enqueue byte => if exchange.before.input.contents.length = drivers.input.INPUT_CAPACITY then [] else [byte]
  | _ => []

/-- The bytes a read returned from the console. -/
def Exchange.delivered (exchange : Exchange) : List UInt8 :=
  match exchange.call, exchange.reply with
  | .read .Stdin _, .read (.ok bytes) => bytes
  | _, _ => []

section Pipe

variable {state : Pipe} (descriptor : FileDescriptor) (hstate : objects.pipes[pipe]? = some state)
include hstate

/-- Changes of the endpoint counts leave the stored bytes alone. -/
theorem contents_of_counts {after : Objects} {readers writers : Pipe → Nat}
    (hafter : after.pipes[pipe]? = objects.pipes[pipe]?.map fun content =>
      { content with readers := readers content, writers := writers content }) :
    ∃ content, after.pipes[pipe]? = some content ∧ content.contents = state.contents := by
  rw [hstate, Option.map_some] at hafter
  exact ⟨_, hafter, rfl⟩

/-- A read hands out the front of what its own pipe stores. -/
theorem read_stream (capacity : Nat) :
    ∃ after, (read descriptor capacity objects).2.pipes[pipe]? = some after ∧
      state.contents = Exchange.received pipe
        ⟨objects, .read descriptor capacity, .read (read descriptor capacity objects).1⟩ ++ after.contents := by
  have hsame : ∃ after, objects.pipes[pipe]? = some after ∧ state.contents = [] ++ after.contents :=
    ⟨state, hstate, rfl⟩
  cases descriptor with
  | Stdin =>
    unfold read
    dsimp only
    split <;> exact hsame
  | PipeRead source =>
    unfold read
    dsimp only
    cases hsource : objects.pipes[source]? with
    | none => exact hsame
    | some content =>
      dsimp only
      split
      · exact hsame
      · by_cases htarget : source = pipe
        · subst htarget
          obtain rfl := Option.mem_unique hsource hstate
          obtain ⟨htaken, hleft⟩ := content.toByteRing.read_contents capacity
          refine ⟨{ content with toByteRing := (content.toByteRing.read capacity).2 }, ?_, ?_⟩
          · rw [getElem?_modifyPipe, if_pos rfl, hsource, Option.map_some]
          · simp only [Exchange.received, if_true, htaken, hleft, List.take_append_drop]
        · refine ⟨state, ?_, ?_⟩
          · rw [getElem?_modifyPipe, if_neg htarget, hstate]
          · simp only [Exchange.received, if_neg htarget, List.nil_append]
  | FileRead file =>
    unfold read
    dsimp only
    cases objects.file_reads[file]? <;> exact hsame
  | _ => exact hsame

/-- A write stores the bytes it reports behind what its own pipe stores. -/
theorem write_stream (input : List UInt8) (stored : Bool) :
    ∃ after, (write descriptor input stored objects).2.pipes[pipe]? = some after ∧
      state.contents ++ Exchange.sent pipe
        ⟨objects, .write descriptor input stored, .write (write descriptor input stored objects).1⟩ =
          after.contents := by
  have hsame : ∃ after, objects.pipes[pipe]? = some after ∧ state.contents ++ [] = after.contents :=
    ⟨state, hstate, List.append_nil _⟩
  cases descriptor with
  | PipeWrite target =>
    unfold write
    dsimp only
    cases htarget : objects.pipes[target]? with
    | none => exact hsame
    | some content =>
      dsimp only
      by_cases hreaders : content.readers = 0
      · rw [if_pos hreaders]
        exact hsame
      rw [if_neg hreaders]
      by_cases hpipe : target = pipe
      · subst hpipe
        obtain rfl := Option.mem_unique htarget hstate
        have hwritten := content.toByteRing.write_contents input
        split
        · -- nothing fitted, so the ring is written back as it was
          rename_i hnothing
          rw [hnothing.1, List.take_zero] at hwritten
          refine ⟨{ content with toByteRing := (content.toByteRing.write input).2 }, ?_, hwritten.symm⟩
          rw [getElem?_modifyPipe, if_pos rfl, htarget, Option.map_some]
        · refine ⟨{ content with toByteRing := (content.toByteRing.write input).2 }, ?_, ?_⟩
          · rw [getElem?_modifyPipe, if_pos rfl, htarget, Option.map_some]
          · simp only [Exchange.sent, if_true, hwritten]
      · refine ⟨state, ?_, ?_⟩
        · split <;> rw [getElem?_modifyPipe, if_neg hpipe, hstate]
        · split <;> simp only [Exchange.sent, if_neg hpipe, List.append_nil]
  | FileWrite file =>
    unfold write
    dsimp only
    split <;> exact hsame
  | _ => exact hsame

/-- One call moves the bytes of a pipe only as its exchange says. -/
theorem perform_stream :
    ∃ after, (call.perform objects).2.pipes[pipe]? = some after ∧
      state.contents ++ Exchange.sent pipe ⟨objects, call, (call.perform objects).1⟩ =
        Exchange.received pipe ⟨objects, call, (call.perform objects).1⟩ ++ after.contents := by
  cases call with
  | read descriptor capacity =>
    obtain ⟨after, hafter, hbytes⟩ := read_stream descriptor hstate capacity
    exact ⟨after, hafter, (List.append_nil _).trans hbytes⟩
  | write descriptor input stored => exact write_stream descriptor hstate input stored
  | clone descriptor =>
    obtain ⟨after, hafter, hbytes⟩ := contents_of_counts hstate (clone_pipes objects pipe descriptor)
    exact ⟨after, hafter, (List.append_nil _).trans hbytes.symm⟩
  | close descriptor =>
    obtain ⟨after, hafter, hbytes⟩ := contents_of_counts hstate (close_slot_pipes objects pipe (some descriptor))
    exact ⟨after, hafter, (List.append_nil _).trans hbytes.symm⟩
  | create_pipe =>
    have hfound : pipe < objects.pipes.length := (List.getElem?_eq_some_iff.mp hstate).1
    refine ⟨state, ?_, List.append_nil _⟩
    simp only [Call.perform, fd.create_pipe, List.getElem?_append_left hfound, hstate]
  | enqueue byte => exact ⟨state, hstate, List.append_nil _⟩

/-- Over a whole sequence of calls, a pipe's old contents and what was sent are
what was received and what is still stored, in this order. -/
theorem perform_all_stream :
    ∃ after, (perform_all calls objects).pipes[pipe]? = some after ∧
      state.contents ++ (exchanges calls objects).flatMap (Exchange.sent pipe) =
        (exchanges calls objects).flatMap (Exchange.received pipe) ++ after.contents := by
  induction calls generalizing objects state with
  | nil => exact ⟨state, hstate, List.append_nil _⟩
  | cons call rest ih =>
    obtain ⟨middle, hmiddle, hfirst⟩ := perform_stream call hstate
    obtain ⟨after, hafter, hrest⟩ := ih hmiddle
    refine ⟨after, hafter, ?_⟩
    rw [exchanges, List.flatMap_cons, List.flatMap_cons, ← List.append_assoc, hfirst, List.append_assoc, hrest,
      List.append_assoc]

end Pipe

/-- A refused read found its source empty. -/
theorem read_refused {capacity : Nat} (hrefused : (read (.PipeRead pipe) capacity objects).1 = .error .WouldBlock) :
    ∃ state, objects.pipes[pipe]? = some state ∧ state.contents = [] := by
  unfold read at hrefused
  dsimp only at hrefused
  cases hstate : objects.pipes[pipe]? with
  | none => simp [hstate] at hrefused
  | some state =>
    simp only [hstate] at hrefused
    by_cases hempty : state.length = 0 ∧ state.writers ≠ 0
    · refine ⟨state, rfl, List.length_eq_zero_iff.mp ?_⟩
      rw [state.contents_length, hempty.1]
    · simp [hempty] at hrefused

/-- A refused write found its pipe full. -/
theorem write_refused (input : List UInt8) (stored : Bool)
    (hrefused : (write (.PipeWrite pipe) input stored objects).1 = .error .WouldBlock) :
    ∃ state, objects.pipes[pipe]? = some state ∧ state.contents.length = PIPE_CAPACITY := by
  unfold write at hrefused
  dsimp only at hrefused
  cases hstate : objects.pipes[pipe]? with
  | none => simp [hstate] at hrefused
  | some state =>
    simp only [hstate] at hrefused
    by_cases hreaders : state.readers = 0
    · simp [hreaders] at hrefused
    rw [if_neg hreaders] at hrefused
    by_cases hnothing : (state.toByteRing.write input).1 = 0 ∧ input ≠ []
    · have hcount : min input.length (PIPE_CAPACITY - state.length) = 0 := hnothing.1
      have hinput := List.length_pos_iff.mpr hnothing.2
      have hbound := state.length_le
      exact ⟨state, rfl, by rw [state.contents_length]; omega⟩
    · simp [hnothing] at hrefused

/-- A read of a pipe that stores something gets it, up to the capacity. -/
theorem read_delivers {state : Pipe} (hstate : objects.pipes[pipe]? = some state) (hstored : state.contents ≠ [])
    (capacity : Nat) : (read (.PipeRead pipe) capacity objects).1 = .ok (state.contents.take capacity) := by
  have hblocks : ¬ (state.length = 0 ∧ state.writers ≠ 0) := fun hempty =>
    hstored (List.length_eq_zero_iff.mp (state.contents_length.trans hempty.1))
  simp only [read, hstate, if_neg hblocks]
  exact congrArg Except.ok (state.toByteRing.read_contents capacity).1

/-- So does a read of the console, unless it asks for nothing. -/
theorem read_input_delivers {capacity : Nat} (hcapacity : 0 < capacity) (hstored : objects.input.contents ≠ []) :
    (read .Stdin capacity objects).1 = .ok (objects.input.contents.take capacity) := by
  have htaken := (objects.input.read_contents capacity).1
  have hsome : (objects.input.read capacity).1.length ≠ 0 := by
    have hlength := List.length_pos_iff.mpr hstored
    rw [htaken, List.length_take]
    omega
  unfold read
  dsimp only [drivers.input.read_available]
  rw [if_neg hsome]
  exact congrArg Except.ok htaken

/-- A read of the console hands out the front of the input. -/
theorem read_input (descriptor : FileDescriptor) (capacity : Nat) (objects : Objects) :
    objects.input.contents =
      Exchange.delivered ⟨objects, .read descriptor capacity, .read (read descriptor capacity objects).1⟩ ++
        (read descriptor capacity objects).2.input.contents := by
  cases descriptor with
  | Stdin =>
    obtain ⟨htaken, hleft⟩ := objects.input.read_contents capacity
    have hsplit := List.take_append_drop capacity objects.input.contents
    rw [← htaken, ← hleft] at hsplit
    unfold read
    dsimp only [drivers.input.read_available]
    by_cases hnone : (objects.input.read capacity).1.length = 0
    · rw [List.length_eq_zero_iff.mp hnone] at hsplit
      rw [if_pos hnone]
      exact hsplit.symm
    · rw [if_neg hnone]
      exact hsplit.symm
  | PipeRead source =>
    unfold read
    dsimp only
    cases objects.pipes[source]? with
    | none => rfl
    | some content => dsimp only; split <;> rfl
  | FileRead file =>
    unfold read
    dsimp only
    cases objects.file_reads[file]? <;> rfl
  | _ => rfl

theorem write_input (descriptor : FileDescriptor) (input : List UInt8) (stored : Bool) (objects : Objects) :
    (write descriptor input stored objects).2.input = objects.input := by
  cases descriptor with
  | PipeWrite target =>
    unfold write
    dsimp only
    cases objects.pipes[target]? with
    | none => rfl
    | some content => dsimp only; split <;> [rfl; (split <;> rfl)]
  | FileWrite file =>
    unfold write
    dsimp only
    split <;> rfl
  | _ => rfl

/-- The console input moves only as the exchange of a call says. -/
theorem perform_input (objects : Objects) :
    objects.input.contents ++ Exchange.typed ⟨objects, call, (call.perform objects).1⟩ =
      Exchange.delivered ⟨objects, call, (call.perform objects).1⟩ ++ (call.perform objects).2.input.contents := by
  cases call with
  | read descriptor capacity => exact (List.append_nil _).trans (read_input descriptor capacity objects)
  | write descriptor input stored =>
    simp only [Call.perform, write_input, Exchange.typed, Exchange.delivered, List.append_nil, List.nil_append]
  | clone descriptor | close descriptor => cases descriptor <;> exact List.append_nil _
  | create_pipe => exact List.append_nil _
  | enqueue byte =>
    have hbound := objects.input.length_le
    simp only [Exchange.typed, Exchange.delivered, Call.perform, drivers.input.enqueue,
      drivers.input.InputBuffer.push, ByteRing.contents_push, ByteRing.contents_length, List.nil_append]
    by_cases hfull : objects.input.length = drivers.input.INPUT_CAPACITY
    · rw [if_pos hfull, if_neg (by omega)]
    · rw [if_neg hfull, if_pos (by omega)]

theorem perform_all_input (objects : Objects) :
    objects.input.contents ++ (exchanges calls objects).flatMap Exchange.typed =
      (exchanges calls objects).flatMap Exchange.delivered ++ (perform_all calls objects).input.contents := by
  induction calls generalizing objects with
  | nil => exact List.append_nil _
  | cons call rest ih =>
    rw [exchanges, List.flatMap_cons, List.flatMap_cons, ← List.append_assoc, perform_input, List.append_assoc, ih,
      List.append_assoc]
    rfl

/-- Every exchange of a sequence is that of one of its calls. -/
theorem mem_exchanges {calls : List Call} {exchange : Exchange} (hexchange : exchange ∈ exchanges calls objects) :
    exchange.reply = (exchange.call.perform exchange.before).1 := by
  induction calls generalizing objects with
  | nil => cases hexchange
  | cons call rest ih =>
    rcases List.mem_cons.mp hexchange with rfl | hrest
    · rfl
    · exact ih hrest

/-- Pipes and the console are first-in first-out streams without loss or
duplication. What was sent through a pipe since its creation is what was received
from it followed by what it stores; a call is told to block only by a full or an
empty ring; a read gets what is stored, up to its capacity; and the console input,
whatever it held at first, hands out exactly the bytes it accepted, in order. -/
theorem streams_are_fifo (objects : Objects) (calls : List Call) :
    let pipe := objects.pipes.length
    let start := (create_pipe objects).2
    (∃ state, (perform_all calls start).pipes[pipe]? = some state ∧
      (exchanges calls start).flatMap (Exchange.sent pipe) =
        (exchanges calls start).flatMap (Exchange.received pipe) ++ state.contents ∧
      state.contents.length ≤ PIPE_CAPACITY) ∧
    (∀ exchange ∈ exchanges calls start, ∀ input stored,
      exchange.call = .write (.PipeWrite pipe) input stored → exchange.reply = .write (.error .WouldBlock) →
      ∃ state, exchange.before.pipes[pipe]? = some state ∧ state.contents.length = PIPE_CAPACITY) ∧
    (∀ exchange ∈ exchanges calls start, ∀ capacity,
      exchange.call = .read (.PipeRead pipe) capacity → exchange.reply = .read (.error .WouldBlock) →
      ∃ state, exchange.before.pipes[pipe]? = some state ∧ state.contents = []) ∧
    (∀ exchange ∈ exchanges calls start, ∀ capacity, 0 < capacity →
      (exchange.call = .read (.PipeRead pipe) capacity → ∀ state, exchange.before.pipes[pipe]? = some state →
        state.contents ≠ [] → exchange.reply = .read (.ok (state.contents.take capacity))) ∧
      (exchange.call = .read .Stdin capacity → exchange.before.input.contents ≠ [] →
        exchange.reply = .read (.ok (exchange.before.input.contents.take capacity)))) ∧
    objects.input.contents ++ (exchanges calls start).flatMap Exchange.typed =
      (exchanges calls start).flatMap Exchange.delivered ++ (perform_all calls start).input.contents := by
  intro pipe start
  refine ⟨?_, ?_, ?_, ?_, perform_all_input calls start⟩
  · have hnew : start.pipes[pipe]? = some { Pipe.new with readers := 1 } := List.getElem?_concat_length
    obtain ⟨state, hstate, hstream⟩ := perform_all_stream calls hnew
    refine ⟨state, hstate, hstream, ?_⟩
    rw [state.contents_length]
    exact state.length_le
  · intro exchange hexchange input stored hcall hreply
    have hperformed := mem_exchanges hexchange
    rw [hcall, hreply] at hperformed
    exact write_refused input stored (StreamReply.write.inj hperformed).symm
  · intro exchange hexchange capacity hcall hreply
    have hperformed := mem_exchanges hexchange
    rw [hcall, hreply] at hperformed
    exact read_refused (StreamReply.read.inj hperformed).symm
  · intro exchange hexchange capacity hcapacity
    have hperformed := mem_exchanges hexchange
    constructor
    · intro hcall state hstate hstored
      rw [hperformed, hcall]
      exact congrArg StreamReply.read (read_delivers hstate hstored capacity)
    · intro hcall hstored
      rw [hperformed, hcall]
      exact congrArg StreamReply.read (read_input_delivers hcapacity hstored)

end leafos.tasking.fd
