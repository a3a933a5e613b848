import Sponge.Socket.Invariant

/-!
# The four rules

Each rule that the loop calls keeps what the loop keeps, whatever the system calls and the adapter
return.  A rule that throws leaves the owner with bytes that the peer has sent, in order, and throws
what a call has thrown that it has made.

Main results:

- Theorem {lit}`readPipe_cases`: the connection accepts all that was read from the owner.
- Theorem {lit}`writePipe_cases`: what the owner is given is what leaves the inbound stream.
- Theorem {lit}`transmitAll_cases`: segments leave the queue when they are written.
- Theorem {lit}`Dispatching.callback`: what each rule keeps, and why it throws.
-/

namespace Sponge

open Library

namespace Sockets

variable {c : Channel} {start : Stack c} {w : Sockets c} {side : Side} {h h' : Host}
  {k k' : TCPSpongeSocket}

/-- What comes of the `write()` of the adapter with the number `i`, in rule 4. -/
def datagramWrite (a : Answers c) (i : Nat) : Except String Unit :=
  match a.datagramFault with
  | some (n, e) => if i = n then .error e else .ok ()
  | none => .ok ()

/-- The calls that a rule makes of the kernel and of its adapter, with the amounts that it asks
for.  The adapter writes each segment of the queue. -/
def requests (side : Side) : SocketRule → Answers c → Sockets c → List EventLoop.Request
  | .readDatagram, a, _ => [.perform a.datagram.outcome]
  | .readPipe, a, w => [.read (w.conn side).remainingOutboundCapacity a.pipeRead]
  | .writePipe, a, w => [.write (min 65536 (w.conn side).inboundStream.bufferSize) a.pipeWrite,
      .perform a.pipeShutdown]
  | .writeDatagram, a, w =>
      (List.range (w.conn side).segmentsOut.length).map fun i => .perform (datagramWrite a i)

/-- What a rule that was called in the state `w` and throws leaves as `w'`, and why. -/
structure Thrown (start : Stack c) (side : Side) (h : Host) (k : TCPSpongeSocket) (a : Answers c)
    (r : SocketRule) (e : String) (w w' : Sockets c) : Prop where
  focus : Focus start side h k w'
  basic : Basic (w'.stack.host side) (w'.socket side)
  fault : ∃ request ∈ requests side r a w, request.Fault e

/-- What is known when the callback of `r` has been called in the state `w`. -/
structure Called (start : Stack c) (side : Side) (h : Host) (k : TCPSpongeSocket) (a : Answers c)
    (r : SocketRule) (kept : List SocketRule) (todo : List (SocketRule × Bool)) (w : Sockets c)
    (result : Except String Unit × Sockets c) : Prop where
  returns : result.1 = .ok () → Dispatching start side h k (kept ++ [r]) todo result.2
  throws : ∀ e, result.1 = .error e → Thrown start side h k a r e w result.2

/-- A callback that returns. -/
theorem called_of_dispatching {a : Answers c} {r : SocketRule} {kept : List SocketRule}
    {todo : List (SocketRule × Bool)} {w' : Sockets c}
    (hd : Dispatching start side h k (kept ++ [r]) todo w') :
    Called start side h k a r kept todo w (.ok (), w') :=
  ⟨fun _ => hd, fun _ he => by cases he⟩

/-- A callback that throws. -/
theorem called_of_error {a : Answers c} {r : SocketRule} {kept : List SocketRule}
    {todo : List (SocketRule × Bool)} {e : String} {w' : Sockets c}
    (ht : Thrown start side h k a r e w w') :
    Called start side h k a r kept todo w (.error e, w') := by
  refine ⟨fun hok => (by cases hok), fun e' he => ?_⟩
  cases he
  exact ht

section Callbacks

variable {kept : List SocketRule} {todo : List (SocketRule × Bool)}

/-- What a segment leaves of the invariants. -/
theorem Regular.segmentReceived (hregular : Regular h k) (hactive : h.conn.active = true)
    (seg : TCPSegment) : Regular (h.enqueue (h.conn.segmentReceived seg)) k := by
  refine regular_of_eq (hregular.tame.segmentReceived hactive seg) hregular.taken_eq
    hregular.given_eq hregular.open_eq fun heof => ?_
  exact (TCPConnection.inputEnded_stream_segmentReceived _ seg).trans (hregular.eof_ended heof)

/-- Rule 1, when the adapter returns.  A connection whose outbound stream goes on is closed by a RST
only. -/
theorem Dispatching.arrive (hd : Dispatching start side h k kept ((.readDatagram, true) :: todo) w)
    (x : c.Input) (fd : FileDescriptor) :
    Dispatching start side h k (kept ++ [.readDatagram]) todo
      ((w.act (.arrive side x)).put side { w.socket side with datagramAdapter := fd }) := by
  have hactive := hd.datagram List.mem_cons_self
  have hok : Stack.Event.Disciplined w.stack (.arrive side x) := hactive
  have hfirst : .readPipe ∉ kept := fun hmem =>
    absurd (behind_of_order hd.order hmem) (by decide)
  have hagain : (.readDatagram, true) ∉ todo := fun hmem =>
    absurd (ahead_of_order hd.order (List.mem_map_of_mem hmem)) (by decide)
  refine hd.move (by decide) ((hd.focus.act rfl hok).put _) ?_ (by rw [socket_put]) ?_
    (fun hmem => absurd hmem hagain) ?_ (fun hmem => absurd hmem hfirst)
  · rw [stack_put, stack_act, socket_put]
    refine Regular.congr (k := w.socket side) ?_ rfl rfl rfl
    rcases w.stack.host_arrive side x with hsame | ⟨seg, hseg⟩
    · rw [hsame]
      exact hd.regular
    · rw [hseg]
      exact hd.regular.segmentReceived hactive seg
  · rw [conn, stack_put, stack_act]
    rcases w.stack.host_arrive side x with hsame | ⟨seg, hseg⟩
    · rw [hsame]
      rfl
    · rw [hseg]
      exact TCPConnection.inputEnded_stream_segmentReceived _ seg
  · intro hmem
    rw [stack_put, stack_act]
    rcases w.stack.host_arrive side x with hsame | ⟨seg, hseg⟩
    · rw [hsame]
      exact Or.inl hactive
    · rw [hseg]
      rcases TCPConnection.segmentReceived_active hactive seg with
        hactive' | ⟨hinactive, hqueue, herror⟩ | heof
      · exact Or.inl hactive'
      · exact Or.inr (Stack.refused_segmentReceived hd.regular.tame hactive hinactive hqueue herror)
      · have hended := (hd.waiting (List.mem_map_of_mem (List.mem_cons_of_mem _ hmem))).2
        rw [ByteStream.eof, hended] at heof
        cases heof

/-- Rule 1.  An adapter that throws leaves the connection alone. -/
theorem called_readDatagram
    (hd : Dispatching start side h k kept ((.readDatagram, true) :: todo) w) (a : Answers c) :
    Called start side h k a .readDatagram kept todo w (readDatagram side a w) := by
  have hfault {e : String} (he : a.datagram.outcome = .error e) :
      ∃ request ∈ requests side .readDatagram a w, request.Fault e := by
    refine ⟨_, List.mem_cons_self, ?_⟩
    rw [he]
    exact .perform
  simp only [readDatagram]
  cases hread : a.datagram with
  | returned x => exact called_of_dispatching (hd.arrive x _)
  | failed e =>
      exact called_of_error ⟨hd.focus, hd.regular.toBasic, hfault (by rw [hread]; rfl)⟩
  | lost e x =>
      have hok : Stack.Event.Disciplined w.stack (.drop side x) := trivial
      refine called_of_error ⟨(hd.focus.act rfl hok).put _, ?_, hfault (by rw [hread]; rfl)⟩
      rw [socket_put]
      exact hd.regular.toBasic.congr rfl rfl rfl

/-- The connection accepts what it has room for. -/
theorem length_write {c : TCPConnection} {data : List Byte}
    (hended : c.sender.stream.inputEnded = false)
    (hle : data.length ≤ c.remainingOutboundCapacity) : (c.write data).2 = data.length := by
  change c.sender.stream.writeLength data = data.length
  rw [ByteStream.writeLength, hended]
  exact Nat.min_eq_right hle

/-- Rule 2 throws what `read` threw, or all bytes that were read are written to the connection; at
the end of these bytes the stream is ended. -/
theorem readPipe_cases (hended : (w.conn side).sender.stream.inputEnded = false) (a : Answers c) :
    (∃ e, FileDescriptor.ReadFault (w.conn side).remainingOutboundCapacity a.pipeRead e ∧
        readPipe side a w = (.error e, w.put side (w.socket side))) ∨
      ∃ data fd, data.length ≤ (w.conn side).remainingOutboundCapacity ∧
        fd.closed = (w.socket side).threadData.closed ∧
        fd.readCount = (w.socket side).threadData.readCount + 1 ∧
        let w' := (w.act (.write side data)).put side
          { w.socket side with threadData := fd, taken := (w.socket side).taken ++ data }
        readPipe side a w = (.ok (), if fd.eof then cancelPipe side w' else w') := by
  rcases (w.socket side).threadData.read_cases (w.conn side).remainingOutboundCapacity
    a.pipeRead with ⟨e, hfault, he⟩ | ⟨data, hle, hread⟩
  · exact Or.inl ⟨e, hfault, by simp only [readPipe, he]⟩
  · obtain ⟨fd, hfd, hopen, hcount⟩ : ∃ fd, (w.socket side).threadData.read
        (w.conn side).remainingOutboundCapacity a.pipeRead = (.ok data, fd) ∧
          fd.closed = (w.socket side).threadData.closed ∧
          fd.readCount = (w.socket side).threadData.readCount + 1 := ⟨_, hread, rfl, rfl⟩
    refine Or.inr ⟨data, fd, hle, hopen, hcount, ?_⟩
    simp only [readPipe, hfd]
    rw [if_neg (fun hne => hne (length_write hended hle))]
    cases fd.eof with
    | true => simp [cancelPipe]
    | false => rfl

/-- What was read from the owner has been written to the connection. -/
theorem Dispatching.accepted
    (hd : Dispatching start side h k kept ((.readPipe, true) :: todo) w) {data : List Byte}
    (hle : data.length ≤ (w.conn side).remainingOutboundCapacity) {fd : FileDescriptor}
    (hopen : fd.closed = (w.socket side).threadData.closed) :
    let w' := (w.act (.write side data)).put side
      { w.socket side with threadData := fd, taken := (w.socket side).taken ++ data }
    Accepted start side h k w' ∧ (w'.conn side).sender.stream.inputEnded = false := by
  intro w'
  obtain ⟨-, hended⟩ := hd.waiting List.mem_cons_self
  have hhears := hd.pipe List.mem_cons_self
  have hok : Stack.Event.Disciplined w.stack (.write side data) := hhears
  have hhost : w'.stack.host side =
      { (w.stack.host side).enqueue ((w.conn side).write data).1 with
        wrote := (w.stack.host side).wrote ++ data.take ((w.conn side).write data).2 } :=
    Stack.host_become ..
  have hsocket : w'.socket side =
      { w.socket side with threadData := fd, taken := (w.socket side).taken ++ data } :=
    socket_put ..
  refine ⟨⟨(hd.focus.act rfl hok).put _, ?_, ?_, ?_, ?_, ?_⟩, ?_⟩
  · rw [hhost]
    exact (hd.regular.tame.feed _).1.congr rfl rfl rfl
  · rw [hsocket, hhost, length_write hended hle, List.take_length]
    exact congrArg (· ++ data) hd.regular.taken_eq
  · rw [hsocket, hhost]
    exact hd.regular.given_eq
  · rw [hsocket]
    exact hopen.trans hd.regular.open_eq
  · rw [hhost]
    exact (hhears.feed hd.regular.tame _).imp id fun hrefused =>
      ⟨hrefused.inactive, hrefused.error, hrefused.silent⟩
  · rw [conn, hhost]
    exact TCPSender.fillWindow_keeps
      (s := { (w.conn side).sender with stream := ((w.conn side).sender.stream.write data).1 })
      (P := fun stream => stream.inputEnded = false) (fun _ _ h => h) hended

/-- Rule 2.  The connection accepts all that was read, and the end of the stream is passed on. -/
theorem called_readPipe
    (hd : Dispatching start side h k kept ((.readPipe, true) :: todo) w) (a : Answers c) :
    Called start side h k a .readPipe kept todo w (readPipe side a w) := by
  obtain ⟨-, hended⟩ := hd.waiting List.mem_cons_self
  have hdatagram : (.readDatagram, true) ∉ todo := fun hmem =>
    absurd (ahead_of_order hd.order (List.mem_map_of_mem hmem)) (by decide)
  have hpipe : .readPipe ∉ todo.map Prod.fst := fun hmem =>
    absurd (ahead_of_order hd.order hmem) (by decide)
  have hdispatching {w' : Sockets c} (hfocus : Focus start side h k w')
      (hregular : Regular (w'.stack.host side) (w'.socket side))
      (hcalm : Calm (w'.stack.host side) (w'.socket side) (kept ++ [.readPipe])) :
      Dispatching start side h k (kept ++ [.readPipe]) todo w' :=
    ⟨hfocus, hregular, by rw [List.append_assoc]; exact hd.order,
      fun hmem => absurd hmem hdatagram, fun hmem => absurd hmem hpipe,
      fun hmem => absurd (List.mem_map_of_mem hmem) hpipe, fun _ => hcalm⟩
  rcases readPipe_cases hended a with ⟨e, hfault, he⟩ | ⟨data, fd, hle, hopen, -, hread⟩
  · rw [he]
    refine called_of_error ⟨hd.focus.put _, ?_, _, List.mem_cons_self, .read hfault⟩
    rw [socket_put]
    exact hd.regular.toBasic
  · obtain ⟨ha, hrunning⟩ := hd.accepted hle hopen
    rw [hread]
    cases hend : fd.eof with
    | true =>
        obtain ⟨hfocus, hregular⟩ := ha.cancelPipe
        refine called_of_dispatching (hdispatching hfocus hregular
          ⟨fun _ => Or.inr ?_, fun _ _ => ?_⟩)
        · rw [if_pos rfl, socket_cancelPipe, socket_put]
          exact hend
        · rw [if_pos rfl, host_cancelPipe]
          exact TCPConnection.idle_endInputStream _
    | false =>
        have hfalse : (((w.act (.write side data)).put side { w.socket side with
            threadData := fd, taken := (w.socket side).taken ++ data }).socket
              side).threadData.eof = false := by rw [socket_put]; exact hend
        refine called_of_dispatching (hdispatching ha.focus (regular_of_eq ha.tame ha.taken_eq
          ha.given_eq ha.open_eq fun htrue => ?_) (calm_of_running hfalse hrunning _))
        rw [if_neg (by decide), hfalse] at htrue
        cases htrue

/-- Rule 3 throws, and the owner may have been given bytes that stay in the inbound stream; or the
bytes that it was given are taken from there. -/
theorem writePipe_cases (side : Side) (a : Answers c) (w : Sockets c) :
    (∃ e taken, FileDescriptor.WriteFault (min 65536 (w.conn side).inboundStream.bufferSize)
        a.pipeWrite e ∧ taken <+: (w.conn side).inboundStream.contents ∧
      writePipe side a w = (.error e, w.put side
        { w.socket side with given := (w.socket side).given ++ taken })) ∨
      ∃ n result k', writePipe side a w = (result, (w.act (.read side n)).put side k') ∧
        k'.taken = (w.socket side).taken ∧
        k'.given = (w.socket side).given ++ (w.conn side).inboundStream.peekOutput n ∧
        k'.threadData.eof = (w.socket side).threadData.eof ∧
        k'.threadData.closed = (w.socket side).threadData.closed ∧
        k'.threadData.writeCount ≠ (w.socket side).threadData.writeCount ∧
        k'.phase = (w.socket side).phase ∧
        ∀ e, result = .error e → a.pipeShutdown = .error e := by
  rcases (w.socket side).threadData.write_peekOutput (w.conn side).inboundStream 65536 a.pipeWrite
    with ⟨e, taken, hfault, hpart, hwrite⟩ | ⟨n, hwrite⟩
  · refine Or.inl ⟨e, taken, hfault, hpart, ?_⟩
    simp only [writePipe]
    rw [hwrite]
  · have hone (count : UInt32) : count + 1 ≠ count := by simp
    have htwo (count : UInt32) : count + 1 + 1 ≠ count := by simp [add_assoc]
    refine Or.inr ⟨n, ?_⟩
    simp only [writePipe]
    rw [hwrite]
    simp only
    split
    · split
      · rename_i e hshutdown
        exact ⟨_, _, rfl, rfl, rfl, rfl, rfl, hone _, rfl, fun e' he => by
          cases he
          exact hshutdown⟩
      · rw [put_put]
        exact ⟨_, _, rfl, rfl, rfl, rfl, rfl, htwo _, rfl, fun e' he => by cases he⟩
    · exact ⟨_, _, rfl, rfl, rfl, rfl, rfl, hone _, rfl, fun e' he => by cases he⟩

/-- Rule 3.  What the owner is given is taken from the inbound stream, unless the call throws. -/
theorem called_writePipe
    (hd : Dispatching start side h k kept ((.writePipe, true) :: todo) w) (a : Answers c) :
    Called start side h k a .writePipe kept todo w (writePipe side a w) := by
  have hbasic := hd.regular.toBasic
  rcases writePipe_cases side a w with ⟨e, taken, hfault, hpart, he⟩ |
    ⟨n, result, k', hresult, htaken, hgiven, heof, hopen, -, -, hshutdown⟩
  · rw [he]
    refine called_of_error ⟨hd.focus.put _, ?_, _, List.mem_cons_self, .write hfault⟩
    rw [socket_put]
    refine ⟨hbasic.tame, hbasic.taken_eq, ?_, hbasic.open_eq, hbasic.eof_ended⟩
    rw [hd.regular.given_eq]
    exact (List.prefix_append_right_inj _).mpr hpart
  · have hok : Stack.Event.Disciplined w.stack (.read side n) := trivial
    have hhost : (w.stack.step (.read side n)).host side = { w.stack.host side with
        conn := { w.conn side with receiver := (w.conn side).receiver.popOutput n }
        popped := (w.stack.host side).popped ++ (w.conn side).inboundStream.peekOutput n } :=
      Stack.host_become ..
    have hdatagram : (.readDatagram, true) ∉ todo := fun hmem =>
      absurd (ahead_of_order hd.order (List.mem_map_of_mem hmem)) (by decide)
    have hpipe : (.readPipe, true) ∉ todo := fun hmem =>
      absurd (ahead_of_order hd.order (List.mem_map_of_mem hmem)) (by decide)
    have hdispatching : Dispatching start side h k (kept ++ [.writePipe]) todo
        ((w.act (.read side n)).put side k') := by
      refine hd.move (by decide) ((hd.focus.act rfl hok).put _) ?_ ?_ ?_
        (fun hmem => absurd hmem hdatagram) (fun hmem => absurd hmem hpipe) (fun _ hidle => ?_)
      · rw [stack_put, stack_act, socket_put, hhost]
        refine regular_of_eq (hbasic.tame.congr rfl rfl rfl) (htaken.trans hbasic.taken_eq) ?_
          (hopen.trans hbasic.open_eq) ?_
        · rw [hgiven, hd.regular.given_eq]
        · rw [heof]
          exact hbasic.eof_ended
      · rw [socket_put, heof]
      · rw [conn, stack_put, stack_act, hhost]
      · rw [conn, stack_put, stack_act, hhost]
        exact hidle
    rw [hresult]
    cases result with
    | ok _ => exact called_of_dispatching hdispatching
    | error e =>
        refine called_of_error ⟨hdispatching.focus, hdispatching.regular.toBasic, _,
          List.mem_cons_of_mem _ List.mem_cons_self, ?_⟩
        rw [hshutdown e rfl]
        exact .perform

/-- Segments leave the queue when they are written.  A `write()` that throws leaves its segment. -/
theorem transmitAll_cases (side : Side) (fault : Option (Nat × String)) {queue : List TCPSegment}
    (w : Sockets c) (hqueue : (w.conn side).segmentsOut = queue) :
    ∃ rest, (transmitAll side fault queue w).2.stack.host side = { w.stack.host side with
        conn := { w.conn side with segmentsOut := rest } } ∧
      ((transmitAll side fault queue w).1 = .ok () → rest = []) ∧
      ∀ e, (transmitAll side fault queue w).1 = .error e →
        ∃ n < queue.length, fault = some (n, e) := by
  have hact {w : Sockets c} {seg : TCPSegment} {rest : List TCPSegment}
      (hqueue : (w.conn side).segmentsOut = seg :: rest) :
      (w.act (.transmit side)).stack.host side = { w.stack.host side with
        conn := { w.conn side with segmentsOut := rest } } := by
    rw [stack_act, Stack.host_transmit]
    change { w.stack.host side with
      conn := { w.conn side with segmentsOut := (w.conn side).segmentsOut.tail } } = _
    rw [hqueue, List.tail_cons]
  fun_induction transmitAll side fault queue w with
  | case1 fault w =>
      refine ⟨[], ?_, fun _ => rfl, fun e he => by cases he⟩
      rw [← hqueue]
      rfl
  | case2 seg rest w ih =>
      obtain ⟨rest', hhost, hok, herror⟩ := ih (by rw [conn, hact hqueue])
      refine ⟨rest', hhost.trans ?_, hok, fun e he => ?_⟩
      · rw [conn, hact hqueue]
      · obtain ⟨n, -, hfault⟩ := herror e he
        cases hfault
  | case3 e seg rest w =>
      refine ⟨seg :: rest, ?_, fun hok => (by cases hok), fun e' he => ?_⟩
      · rw [← hqueue]
        rfl
      · cases he
        exact ⟨0, Nat.succ_pos _, rfl⟩
  | case4 n e seg rest w ih =>
      obtain ⟨rest', hhost, hok, herror⟩ := ih (by rw [conn, hact hqueue])
      refine ⟨rest', hhost.trans ?_, hok, fun e' he => ?_⟩
      · rw [conn, hact hqueue]
      · obtain ⟨n', hn, hfault⟩ := herror e' he
        cases hfault
        exact ⟨n + 1, Nat.succ_lt_succ hn, rfl⟩

theorem Focus.transmitAll (hfocus : Focus start side h k w) (fault : Option (Nat × String))
    (queue : List TCPSegment) : Focus start side h k (transmitAll side fault queue w).2 := by
  fun_induction Sockets.transmitAll side fault queue w with
  | case1 fault w => exact hfocus
  | case2 seg rest w ih => exact ih (hfocus.act rfl trivial)
  | case3 e seg rest w => exact hfocus
  | case4 n e seg rest w ih => exact ih (hfocus.act rfl trivial)

/-- Nothing is left in the queue, or the `write()` of one of its segments has thrown. -/
theorem writeDatagram_cases (side : Side) (a : Answers c) (w : Sockets c) :
    ∃ rest, (writeDatagram side a w).2.stack.host side = { w.stack.host side with
        conn := { w.conn side with segmentsOut := rest } } ∧
      ((writeDatagram side a w).1 = .ok () → rest = []) ∧
      ∀ e, (writeDatagram side a w).1 = .error e →
        ∃ n < (w.conn side).segmentsOut.length, a.datagramFault = some (n, e) :=
  transmitAll_cases side a.datagramFault w rfl

/-- Rule 4. -/
theorem called_writeDatagram
    (hd : Dispatching start side h k kept ((.writeDatagram, true) :: todo) w) (a : Answers c) :
    Called start side h k a .writeDatagram kept todo w (writeDatagram side a w) := by
  obtain ⟨rest, hstack, -, herror⟩ := writeDatagram_cases side a w
  have hfocus : Focus start side h k (writeDatagram side a w).2 :=
    (hd.focus.transmitAll a.datagramFault (w.conn side).segmentsOut).put _
  have hsocket : (writeDatagram side a w).2.socket side = { w.socket side with
      datagramAdapter := ((writeDatagram side a w).2.socket side).datagramAdapter } := by
    simp [writeDatagram]
  have hahead : ∀ r, r ∉ todo.map Prod.fst := fun r hmem =>
    absurd (ahead_of_order hd.order hmem) (by cases r <;> decide)
  have hconn : ((writeDatagram side a w).2.conn side).sender = (w.conn side).sender := by
    rw [conn, hstack]
  have hregular : Regular ((writeDatagram side a w).2.stack.host side)
      ((writeDatagram side a w).2.socket side) := by
    rw [hstack, hsocket]
    refine Regular.congr (k := w.socket side) ?_ rfl rfl rfl
    exact regular_of_eq (hd.regular.tame.congr rfl rfl rfl) hd.regular.taken_eq
      hd.regular.given_eq hd.regular.open_eq hd.regular.eof_ended
  refine ⟨fun _ => hd.move (by decide) hfocus hregular (by rw [hsocket]) (by rw [hconn])
    (fun hmem => absurd (List.mem_map_of_mem hmem) (hahead _))
    (fun hmem => absurd (List.mem_map_of_mem hmem) (hahead _)) (fun _ hidle => ?_), fun e he => ?_⟩
  · rw [hconn]
    exact hidle
  · obtain ⟨n, hn, hfault⟩ := herror e he
    have hwrite : datagramWrite a n = .error e := by simp [datagramWrite, hfault]
    refine ⟨hfocus, hregular.toBasic, .perform (.error e), ?_, .perform⟩
    rw [← hwrite]
    exact List.mem_map_of_mem (List.mem_range.mpr hn)

/-- A callback that the loop calls. -/
theorem Dispatching.callback {r : SocketRule}
    (hd : Dispatching start side h k kept ((r, true) :: todo) w) (a : Answers c) :
    Called start side h k a r kept todo w ((rules c side).callback r a w) := by
  cases r with
  | readDatagram => exact called_readDatagram hd a
  | readPipe => exact called_readPipe hd a
  | writePipe => exact called_writePipe hd a
  | writeDatagram => exact called_writeDatagram hd a

/-- A rule that returns has read or written its descriptor, or is no longer interested. -/
theorem Dispatching.serves {r : SocketRule}
    (hd : Dispatching start side h k kept ((r, true) :: todo) w) (a : Answers c)
    (hok : ((rules c side).callback r a w).1 = .ok ())
    (hcount : (rules c side).serviceCount r w =
      (rules c side).serviceCount r ((rules c side).callback r a w).2) :
    interested side r ((rules c side).callback r a w).2 = false := by
  have hone (count : UInt32) : count ≠ count + 1 := by simp
  cases r with
  | readDatagram =>
      change (readDatagram side a w).1 = .ok () at hok
      change (w.socket side).datagramAdapter.readCount =
        ((readDatagram side a w).2.socket side).datagramAdapter.readCount at hcount
      simp only [readDatagram] at hok hcount
      cases hread : a.datagram with
      | returned x =>
          rw [hread, socket_put] at hcount
          exact absurd hcount (hone _)
      | failed e =>
          rw [hread] at hok
          cases hok
      | lost e x =>
          rw [hread] at hok
          cases hok
  | readPipe =>
      change (w.socket side).threadData.readCount =
        ((readPipe side a w).2.socket side).threadData.readCount at hcount
      rcases readPipe_cases (hd.waiting List.mem_cons_self).2 a with
        ⟨e, -, heq⟩ | ⟨data, fd, -, -, hread, heq⟩
      · change (readPipe side a w).1 = .ok () at hok
        rw [heq] at hok
        cases hok
      · rw [heq] at hcount
        refine absurd (hcount.trans ?_) (hone _)
        rw [← hread]
        by_cases hend : fd.eof = true
        · rw [if_pos hend, socket_cancelPipe, socket_put]
        · rw [if_neg hend, socket_put]
  | writePipe =>
      change (w.socket side).threadData.writeCount =
        ((writePipe side a w).2.socket side).threadData.writeCount at hcount
      rcases writePipe_cases side a w with
        ⟨e, taken, -, -, heq⟩ | ⟨n, result, k', heq, -, -, -, -, hwrite, -⟩
      · change (writePipe side a w).1 = .ok () at hok
        rw [heq] at hok
        cases hok
      · rw [heq, socket_put] at hcount
        exact absurd hcount.symm hwrite
  | writeDatagram =>
      obtain ⟨rest, hstack, hempty, -⟩ := writeDatagram_cases side a w
      change (!((writeDatagram side a w).2.conn side).segmentsOut.isEmpty) = false
      rw [conn, hstack, hempty hok]
      rfl

end Callbacks

end Sockets
end Sponge
