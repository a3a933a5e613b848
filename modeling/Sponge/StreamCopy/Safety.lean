import Sponge.StreamCopy.Model

/-!
# What is copied

Each lane is a queue: what was written at the far end is the beginning of what was read at the near
end, whatever the system calls return and whatever `poll` reports.

Main results:

- Theorems {lit}`Lane.fill_cases` and {lit}`Lane.drain_cases`: what the rules do to a lane.
- Theorem {lit}`StreamCopy.copy_in_order`: what was written is the beginning of what was read, and
  exceptions come from the kernel.
-/

namespace Sponge

open Library

/-! ## Lanes -/

namespace Lane

variable {lane : Lane} {fd : FileDescriptor}

/-- Bytes have gone from the stream to the far end. -/
def pop (lane : Lane) (n : Nat) : Lane :=
  { lane with
    stream := lane.stream.popOutput n
    given := lane.given ++ lane.stream.peekOutput n }

/-- Bytes have come from the near end into the stream. -/
def push (lane : Lane) (data : List Byte) (eof : Bool) : Lane :=
  let stream := (lane.stream.write data).1
  { lane with
    stream := if eof then stream.endInput else stream
    taken := lane.taken ++ data }

/-- Reading throws and changes nothing, or the bytes are pushed. -/
theorem fill_cases (lane : Lane) (fd : FileDescriptor) (a : CopyAnswers) :
    (∃ e, FileDescriptor.ReadFault lane.stream.remainingCapacity a.read e ∧
        lane.fill fd a = (.error e, fd, lane)) ∨
      ∃ data eof, data.length ≤ lane.stream.remainingCapacity ∧ (fd.eof = true → eof = true) ∧
        lane.fill fd a = (.ok (), { fd.registerRead with eof := eof }, lane.push data eof) := by
  rcases fd.read_cases lane.stream.remainingCapacity a.read with
    ⟨e, hfault, he⟩ | ⟨data, hle, hread⟩
  · exact Or.inl ⟨e, hfault, by simp only [fill, he]⟩
  · refine Or.inr ⟨data, _, hle, fun heof => ?_, by simp only [fill, hread]; rfl⟩
    rw [heof, Bool.true_or]

/-- Writing throws, or the bytes are popped; at the end of the stream the far end is shut down. -/
theorem drain_cases (lane : Lane) (finished : FileDescriptor → FileDescriptor)
    (fd : FileDescriptor) (a : CopyAnswers) :
    (∃ e taken, FileDescriptor.WriteFault (min maxCopyLength lane.stream.bufferSize) a.write e ∧
        taken <+: lane.stream.contents ∧
        lane.drain finished fd a = (.error e, fd, { lane with given := lane.given ++ taken })) ∨
      ∃ n, ((lane.pop n).stream.eof = true ∧
          ((∃ e, a.finish = .error e ∧
              lane.drain finished fd a = (.error e, fd.registerWrite, lane.pop n)) ∨
            lane.drain finished fd a =
              (.ok (), finished fd.registerWrite, { lane.pop n with shutdown := true }))) ∨
        ((lane.pop n).stream.eof = false ∧
          lane.drain finished fd a = (.ok (), fd.registerWrite, lane.pop n)) := by
  rcases fd.write_peekOutput lane.stream maxCopyLength a.write with
    ⟨e, taken, hfault, hpart, hwrite⟩ | ⟨n, hwrite⟩
  · refine Or.inl ⟨e, taken, hfault, hpart, ?_⟩
    simp only [drain]
    rw [hwrite]
  · refine Or.inr ⟨n, ?_⟩
    simp only [drain]
    rw [hwrite]
    simp only
    split
    · rename_i heof
      refine Or.inl ⟨heof, ?_⟩
      cases hfinish : a.finish with
      | error e => exact Or.inl ⟨e, rfl, rfl⟩
      | ok _ => exact Or.inr rfl
    · rename_i heof
      exact Or.inr ⟨Bool.eq_false_iff.mpr heof, rfl⟩

/-- What was written and what is in the stream is the beginning of what was read, and all of it
until the stream is ended. -/
structure Safe (lane : Lane) : Prop where
  part : lane.given ++ lane.stream.contents <+: lane.taken
  exact_eq : lane.stream.inputEnded = false → lane.given ++ lane.stream.contents = lane.taken

/-- What was written is the beginning of what was read. -/
theorem Safe.given_part (h : lane.Safe) : lane.given <+: lane.taken :=
  (List.prefix_append _ _).trans h.part

/-- Cancelling a rule loses nothing that was promised. -/
theorem Safe.cancel (h : lane.Safe) : lane.cancel.Safe :=
  ⟨h.part, fun hended => by cases hended⟩

/-- Bytes that leave the stream are written. -/
theorem given_append_contents_pop (lane : Lane) (n : Nat) :
    (lane.pop n).given ++ (lane.pop n).stream.contents = lane.given ++ lane.stream.contents := by
  change lane.given ++ lane.stream.peekOutput n ++ (lane.stream.popOutput n).contents = _
  rw [ByteStream.peekOutput_eq, ByteStream.contents_popOutput, List.append_assoc,
    List.take_append_drop]

/-- Writing keeps a lane safe. -/
theorem Safe.pop (h : lane.Safe) (n : Nat) : (lane.pop n).Safe := by
  refine ⟨?_, fun hended => ?_⟩
  · rw [given_append_contents_pop]
    exact h.part
  · rw [given_append_contents_pop]
    exact h.exact_eq hended

/-- A stream that has not ended takes all that there is room for; one that has ended takes
nothing. -/
theorem contents_push (lane : Lane) {data : List Byte}
    (hle : data.length ≤ lane.stream.remainingCapacity) (eof : Bool) :
    (lane.push data eof).stream.contents =
      lane.stream.contents ++ if lane.stream.inputEnded then [] else data := by
  have hend : (lane.push data eof).stream.contents = (lane.stream.write data).1.contents := by
    cases eof <;> rfl
  rw [hend, ByteStream.contents_write, ByteStream.writeLength]
  cases lane.stream.inputEnded with
  | true => rfl
  | false => simp [Nat.min_eq_right hle]

/-- The stream ends with the file. -/
theorem inputEnded_push (lane : Lane) (data : List Byte) (eof : Bool) :
    (lane.push data eof).stream.inputEnded = (eof || lane.stream.inputEnded) := by
  cases eof <;> rfl

/-- Reading what fits keeps a lane safe. -/
theorem Safe.push (h : lane.Safe) {data : List Byte}
    (hle : data.length ≤ lane.stream.remainingCapacity) (eof : Bool) :
    (lane.push data eof).Safe := by
  have hcontents := lane.contents_push hle eof
  have hgrown : lane.taken <+: (lane.push data eof).taken := List.prefix_append _ _
  cases hended : lane.stream.inputEnded with
  | true =>
      rw [hended, if_pos rfl, List.append_nil] at hcontents
      refine ⟨?_, fun hfalse => ?_⟩
      · rw [hcontents]
        exact h.part.trans hgrown
      · rw [inputEnded_push, hended, Bool.or_true] at hfalse
        cases hfalse
  | false =>
      rw [hended, if_neg (by decide)] at hcontents
      have hexact : (lane.push data eof).given ++ (lane.push data eof).stream.contents =
          (lane.push data eof).taken := by
        rw [hcontents, ← List.append_assoc]
        exact congrArg (· ++ data) (h.exact_eq hended)
      exact ⟨by rw [hexact], fun _ => hexact⟩

/-- Rules 1 and 3. -/
theorem Safe.fill (h : lane.Safe) (fd : FileDescriptor) (a : CopyAnswers) :
    (lane.fill fd a).2.2.Safe := by
  rcases lane.fill_cases fd a with ⟨e, -, he⟩ | ⟨data, eof, hle, -, hfill⟩
  · rw [he]
    exact h
  · rw [hfill]
    exact h.push hle eof

/-- Rules 2 and 4. -/
theorem Safe.drain (h : lane.Safe) (finished : FileDescriptor → FileDescriptor)
    (fd : FileDescriptor) (a : CopyAnswers) :
    (lane.drain finished fd a).2.2.given <+: (lane.drain finished fd a).2.2.taken ∧
      ((lane.drain finished fd a).1 = .ok () → (lane.drain finished fd a).2.2.Safe) := by
  rcases lane.drain_cases finished fd a with
    ⟨e, taken, -, hpart, he⟩ | ⟨n, ⟨-, ⟨e, -, he⟩ | hok⟩ | ⟨-, hok⟩⟩
  · rw [he]
    refine ⟨?_, fun hok => by cases hok⟩
    exact ((List.prefix_append_right_inj _).mpr hpart).trans h.part
  · rw [he]
    exact ⟨(h.pop n).given_part, fun hok => by cases hok⟩
  · rw [hok]
    exact ⟨(h.pop n).given_part, fun _ => ⟨(h.pop n).part, (h.pop n).exact_eq⟩⟩
  · rw [hok]
    exact ⟨(h.pop n).given_part, fun _ => h.pop n⟩

/-- The system call of a rule that reads. -/
def fillRequests (lane : Lane) (a : CopyAnswers) : List EventLoop.Request :=
  [.read lane.stream.remainingCapacity a.read]

/-- The system calls of a rule that writes. -/
def drainRequests (lane : Lane) (a : CopyAnswers) : List EventLoop.Request :=
  [.write (min maxCopyLength lane.stream.bufferSize) a.write, .perform a.finish]

/-- A rule that reads throws for a fault of `read`. -/
theorem fill_throws {a : CopyAnswers} {e : String} (he : (lane.fill fd a).1 = .error e) :
    ∃ request ∈ lane.fillRequests a, request.Fault e := by
  rcases lane.fill_cases fd a with ⟨e', hfault, heq⟩ | ⟨data, eof, -, -, heq⟩
  · rw [heq] at he
    cases he
    exact ⟨_, List.mem_cons_self, .read hfault⟩
  · rw [heq] at he
    cases he

/-- A rule that writes throws for a fault of `writev`, or when the far end cannot be shut down. -/
theorem drain_throws {finished : FileDescriptor → FileDescriptor} {a : CopyAnswers} {e : String}
    (he : (lane.drain finished fd a).1 = .error e) :
    ∃ request ∈ lane.drainRequests a, request.Fault e := by
  rcases lane.drain_cases finished fd a with
    ⟨e', taken, hfault, -, heq⟩ | ⟨n, ⟨-, ⟨e', hfinish, heq⟩ | heq⟩ | ⟨-, heq⟩⟩
  · rw [heq] at he
    cases he
    exact ⟨_, List.mem_cons_self, .write hfault⟩
  · rw [heq] at he
    cases he
    refine ⟨_, List.mem_cons_of_mem _ List.mem_cons_self, ?_⟩
    rw [hfinish]
    exact .perform
  · rw [heq] at he
    cases he
  · rw [heq] at he
    cases he

end Lane

namespace StreamCopy

/-! ## Turns -/

/-- Both lanes are safe. -/
def Safe (s : StreamCopy) : Prop :=
  s.outbound.Safe ∧ s.inbound.Safe

/-- What was written is the beginning of what was read, in both directions. -/
def InOrder (s : StreamCopy) : Prop :=
  s.outbound.given <+: s.outbound.taken ∧ s.inbound.given <+: s.inbound.taken

variable {s : StreamCopy}

/-- Safe lanes are in order. -/
theorem Safe.inOrder (h : s.Safe) : s.InOrder :=
  ⟨h.1.given_part, h.2.given_part⟩

/-- A cancellation keeps both lanes safe. -/
theorem Safe.cancel (h : s.Safe) (r : CopyRule) : (cancelled r s).Safe := by
  cases r with
  | readInput => exact ⟨h.1.cancel, h.2⟩
  | writeSocket => exact ⟨h.1.cancel, h.2⟩
  | readSocket => exact ⟨h.1, h.2.cancel⟩
  | writeOutput => exact ⟨h.1, h.2.cancel⟩

/-- A callback keeps the lanes in order, and safe when it returns. -/
theorem Safe.callback (h : s.Safe) (r : CopyRule) (a : CopyAnswers) :
    (rules.callback r a s).2.InOrder ∧
      ((rules.callback r a s).1 = .ok () → (rules.callback r a s).2.Safe) := by
  cases r with
  | readInput =>
      have hfill := h.1.fill s.input a
      exact ⟨⟨hfill.given_part, h.2.given_part⟩, fun _ => ⟨hfill, h.2⟩⟩
  | writeSocket =>
      obtain ⟨hpart, hok⟩ := h.1.drain FileDescriptor.registerWrite s.socket a
      exact ⟨⟨hpart, h.2.given_part⟩, fun hreturned => ⟨hok hreturned, h.2⟩⟩
  | readSocket =>
      have hfill := h.2.fill s.socket a
      exact ⟨⟨h.1.given_part, hfill.given_part⟩, fun _ => ⟨h.1, hfill⟩⟩
  | writeOutput =>
      obtain ⟨hpart, hok⟩ := h.2.drain FileDescriptor.close s.output a
      exact ⟨⟨h.1.given_part, hpart⟩, fun hreturned => ⟨h.1, hok hreturned⟩⟩

/-- The system calls of a rule, with the amounts that it asks for. -/
def requests : CopyRule → CopyAnswers → StreamCopy → List EventLoop.Request
  | .readInput, a, s => s.outbound.fillRequests a
  | .writeSocket, a, s => s.outbound.drainRequests a
  | .readSocket, a, s => s.inbound.fillRequests a
  | .writeOutput, a, s => s.inbound.drainRequests a

/-- What a rule throws comes from the kernel. -/
theorem callback_throws {r : CopyRule} {a : CopyAnswers} {e : String}
    (he : (rules.callback r a s).1 = .error e) : ∃ request ∈ requests r a s, request.Fault e := by
  cases r with
  | readInput => exact Lane.fill_throws he
  | writeSocket => exact Lane.drain_throws he
  | readSocket => exact Lane.fill_throws he
  | writeOutput => exact Lane.drain_throws he

/-- A rule that returns has read or written its descriptor. -/
theorem serviceCount_callback {rule : CopyRule} {a : CopyAnswers}
    (hok : (rules.callback rule a s).1 = .ok ()) :
    rules.serviceCount rule s ≠ rules.serviceCount rule (rules.callback rule a s).2 := by
  have hone (count : UInt32) : count ≠ count + 1 := by simp
  have htwo (count : UInt32) : count ≠ count + 1 + 1 := by simp [add_assoc]
  have hfill {lane : Lane} {fd : FileDescriptor} (hok : (lane.fill fd a).1 = .ok ()) :
      fd.readCount ≠ (lane.fill fd a).2.1.readCount := by
    rcases lane.fill_cases fd a with ⟨e, -, heq⟩ | ⟨data, eof, -, -, heq⟩
    · rw [heq] at hok
      cases hok
    · rw [heq]
      exact hone _
  have hdrain {lane : Lane} {finished : FileDescriptor → FileDescriptor} {fd : FileDescriptor}
      (hfinished : fd.writeCount ≠ (finished fd.registerWrite).writeCount)
      (hok : (lane.drain finished fd a).1 = .ok ()) :
      fd.writeCount ≠ (lane.drain finished fd a).2.1.writeCount := by
    rcases lane.drain_cases finished fd a with
      ⟨e, taken, -, -, heq⟩ | ⟨n, ⟨-, ⟨e, -, heq⟩ | heq⟩ | ⟨-, heq⟩⟩
    · rw [heq] at hok
      cases hok
    · rw [heq] at hok
      cases hok
    · rw [heq]
      exact hfinished
    · rw [heq]
      exact hone _
  cases rule with
  | readInput => exact hfill hok
  | writeSocket => exact hdrain (htwo _) hok
  | readSocket => exact hfill hok
  | writeOutput => exact hdrain (hone _) hok

/-- What a rule that throws leaves, and why. -/
structure Thrown (r : Round) (rule : CopyRule) (last : List (EventLoop.Call CopyRule)) (e : String)
    (s : StreamCopy) : Prop where
  inOrder : s.InOrder
  fault : EventLoop.RuleFault rules requests r.poll r.answers rule e last s

/-- The lanes are safe along both loops of `wait_next_event`. -/
theorem safe_contract (r : Round) :
    EventLoop.Contract rules r.poll r.answers (fun _ _ s => s.Safe) (fun _ _ s => s.Safe)
      (fun _ s => s.Safe) (Thrown r) where
  spent h _ hcancel := by
    cases hcancel
    exact h.cancel _
  spent_throws _ _ hcancel := by cases hcancel
  asked h _ _ := h
  asked_throws _ _ hinterest := by cases hinterest
  polled h := ⟨h, h⟩
  error h herror := ⟨h.inOrder, .poll _ herror rfl⟩
  passed h := h
  hungUp h _ hcancel := by
    cases hcancel
    exact h.cancel _
  hungUp_throws _ _ hcancel := by cases hcancel
  called {_ rule _ s s'} h hcallback := by
    have hcalled := (h.callback rule (r.answers rule)).2
    rw [hcallback] at hcalled
    exact hcalled rfl
  called_throws {_ rule _ s s' e} h hcallback := by
    have hcalled := (h.callback rule (r.answers rule)).1
    obtain ⟨request, hrequest, hfault⟩ := callback_throws (s := s) (by rw [hcallback])
    rw [hcallback] at hcalled
    exact ⟨hcalled, .request s s' hcallback request hrequest hfault⟩
  busy {_ rule _ s s'} _ hcallback hcount _ := by
    have hserved := serviceCount_callback (s := s) (by rw [hcallback])
    rw [hcallback] at hserved
    exact absurd hcount hserved
  busy_throws _ _ _ hinterest := by cases hinterest
  finished h := h

/-! ## Runs -/

/-- The lanes are safe while the loop runs, and in order also behind an exception. -/
structure Sound (x : Running) : Prop where
  inOrder : x.state.InOrder
  safe : x.phase ≠ .failed → x.state.Safe

/-- A turn of the loop. -/
theorem Sound.turn {x : Running} (h : Sound x) (r : Round) :
    Sound (turn x r).2 ∧ ∀ e, (StreamCopy.turn x r).1 = .error e →
      EventLoop.KernelFault rules requests r.poll r.answers x.eventloop x.state e := by
  by_cases hphase : x.phase = .running
  · have hsafe : x.state.Safe := h.safe (by rw [hphase]; decide)
    simp only [StreamCopy.turn, if_pos hphase]
    cases hwait : EventLoop.waitNextEvent rules r.poll r.answers x.eventloop x.state with
    | mk result rest =>
        cases result with
        | error e =>
            obtain ⟨rule, hrule, last, hlast, hthrown⟩ :=
              (safe_contract r).throws hsafe (congrArg Prod.fst hwait)
            have hinOrder := hthrown.inOrder
            rw [hwait] at hinOrder
            refine ⟨⟨hinOrder, fun hfailed => absurd rfl hfailed⟩, fun e' he => ?_⟩
            cases he
            exact ⟨rule, hrule, last, hlast, hthrown.fault⟩
        | ok result =>
            have hleft := (safe_contract r).returns hsafe (congrArg Prod.fst hwait)
            rw [hwait] at hleft
            exact ⟨⟨hleft.inOrder, fun _ => hleft⟩, fun e he => by cases he⟩
  · simp only [StreamCopy.turn, if_neg hphase]
    exact ⟨h, fun e he => by cases he⟩

end StreamCopy
end Sponge
