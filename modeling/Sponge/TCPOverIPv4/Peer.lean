import Sponge.Library.Execution
import Sponge.TCPOverIPv4

/-!
# The peer of a listening adapter

`unwrap_tcp_in_ip` as a function of what a datagram carries.  A listening adapter takes the
first SYN to its port and is bound to the hosts and ports of that segment from then on; an
adapter that is bound never changes again.

`inet_ntoa` and `Address` convert an IPv4 address faithfully: an `Address` is the number and
the port.

Main results:

- Theorem {lit}`unwrapTcpInIp_some`: what becomes of a valid segment.
- Theorem {lit}`unwrapTcpInIp_bound`: an adapter that is bound stays as it is.
- Theorem {lit}`listening_locks`: what a listening adapter does with any sequence of datagrams.
-/

namespace Sponge
namespace TCPOverIPv4Adapter

open Library

/-- The valid TCP segment that a datagram carries. -/
def carried (ipDgram : IPv4Datagram) : Option TCPSegment :=
  if ipDgram.header.proto = IPv4Header.protoTCP then
    match ipDgram.payload.toBuffer with
    | .ok buffer =>
        let (result, seg) := ({} : TCPSegment).parse buffer ipDgram.header.pseudoCksum
        if result = .noError then some seg else none
    | .error _ => none
  else none

/-- The segment to `port` with SYN set and RST clear that a datagram carries. -/
def opening (port : UInt16) (ipDgram : IPv4Datagram) : Option TCPSegment :=
  (carried ipDgram).filter fun seg =>
    seg.header.dport == port && seg.header.syn && !seg.header.rst

/-- The adapter that a datagram with the segment `seg` binds to its sender. -/
def boundTo (a : TCPOverIPv4Adapter) (ipDgram : IPv4Datagram) (seg : TCPSegment) :
    TCPOverIPv4Adapter where
  cfg :=
    { source := ⟨ipDgram.header.dst, a.cfg.source.port⟩
      destination := ⟨ipDgram.header.src, seg.header.sport⟩ }
  listen := false

variable {a : TCPOverIPv4Adapter} {ipDgram : IPv4Datagram}

/-- A datagram that carries no valid segment is dropped. -/
theorem unwrapTcpInIp_none (hone : ipDgram.payload.buffers.length = 1)
    (hcarried : carried ipDgram = none) : a.unwrapTcpInIp ipDgram = (.ok none, a) := by
  obtain ⟨buffer, hbuffer⟩ := BufferList.exists_toBuffer hone
  simp only [carried, hbuffer] at hcarried
  simp only [unwrapTcpInIp, hbuffer]
  split_ifs at hcarried with hproto hresult
  · simp [hproto, hresult]
  · simp [hproto]

/-- What becomes of a valid segment. -/
theorem unwrapTcpInIp_some {seg : TCPSegment} (hcarried : carried ipDgram = some seg) :
    a.unwrapTcpInIp ipDgram =
      if a.listen then
        if seg.header.dport = a.cfg.source.port ∧ seg.header.syn = true ∧
            seg.header.rst = false then
          (.ok (some seg), a.boundTo ipDgram seg)
        else (.ok none, a)
      else if ipDgram.header.dst = a.cfg.source.ipv4Numeric ∧
          ipDgram.header.src = a.cfg.destination.ipv4Numeric ∧
          seg.header.dport = a.cfg.source.port ∧
          seg.header.sport = a.cfg.destination.port then (.ok (some seg), a)
      else (.ok none, a) := by
  unfold carried at hcarried
  split at hcarried
  · rename_i hproto
    split at hcarried
    · rename_i buffer hbuffer
      simp only at hcarried
      split_ifs at hcarried with hresult
      rw [Option.some.injEq] at hcarried
      simp only [unwrapTcpInIp, hproto, hbuffer, hresult, hcarried]
      -- the checks of the source are nested, those of the statement joined
      cases a.listen with
      | true => simp [boundTo, fromPeer, ite_and]
      | false =>
          simp [fromPeer, ite_and]
          split_ifs <;> rfl
    · cases hcarried
  · cases hcarried

/-- A listening adapter returns the segment that opens a connection, and is bound to it. -/
theorem unwrapTcpInIp_opening {seg : TCPSegment} (hlisten : a.listen = true)
    (hopening : opening a.cfg.source.port ipDgram = some seg) :
    a.unwrapTcpInIp ipDgram = (.ok (some seg), a.boundTo ipDgram seg) := by
  obtain ⟨hcarried, hopens⟩ := Option.filter_eq_some_iff.mp hopening
  simp only [Bool.and_eq_true, beq_iff_eq, Bool.not_eq_true'] at hopens
  rw [unwrapTcpInIp_some hcarried, if_pos hlisten, if_pos ⟨hopens.1.1, hopens.1.2, hopens.2⟩]

/-- A listening adapter drops everything else. -/
theorem unwrapTcpInIp_not_opening (hlisten : a.listen = true)
    (hone : ipDgram.payload.buffers.length = 1)
    (hopening : opening a.cfg.source.port ipDgram = none) :
    a.unwrapTcpInIp ipDgram = (.ok none, a) := by
  cases hcarried : carried ipDgram with
  | none => exact unwrapTcpInIp_none hone hcarried
  | some seg =>
      rw [unwrapTcpInIp_some hcarried, if_pos hlisten, if_neg]
      rintro ⟨hdport, hsyn, hrst⟩
      simp [opening, hcarried, hdport, hsyn, hrst] at hopening

/-- An adapter that is bound stays as it is, and returns only segments of its connection. -/
theorem unwrapTcpInIp_bound (hlisten : a.listen = false)
    (hone : ipDgram.payload.buffers.length = 1) :
    ∃ returned, a.unwrapTcpInIp ipDgram = (.ok returned, a) ∧
      ∀ seg, returned = some seg → carried ipDgram = some seg ∧
        ipDgram.header.dst = a.cfg.source.ipv4Numeric ∧
        ipDgram.header.src = a.cfg.destination.ipv4Numeric ∧
        seg.header.dport = a.cfg.source.port ∧ seg.header.sport = a.cfg.destination.port := by
  cases hcarried : carried ipDgram with
  | none => exact ⟨none, unwrapTcpInIp_none hone hcarried, fun seg h => nomatch h⟩
  | some seg =>
      rw [unwrapTcpInIp_some hcarried, if_neg (Bool.eq_false_iff.mp hlisten)]
      split
      · rename_i hmatches
        refine ⟨some seg, rfl, ?_⟩
        rintro seg' ⟨⟩
        exact ⟨rfl, hmatches⟩
      · exact ⟨none, rfl, fun seg h => nomatch h⟩

/-! ## Sequences of datagrams -/

/-- The adapter behind a datagram. -/
def step (a : TCPOverIPv4Adapter) (ipDgram : IPv4Datagram) : TCPOverIPv4Adapter :=
  (a.unwrapTcpInIp ipDgram).2

/-- A datagram for which nothing is returned leaves the adapter alone. -/
theorem step_eq_self (hone : ipDgram.payload.buffers.length = 1)
    (hreturned : (a.unwrapTcpInIp ipDgram).1 = .ok none) : a.step ipDgram = a := by
  rw [step]
  cases hlisten : a.listen with
  | true =>
      cases hopening : opening a.cfg.source.port ipDgram with
      | none => rw [unwrapTcpInIp_not_opening hlisten hone hopening]
      | some seg =>
          rw [unwrapTcpInIp_opening hlisten hopening] at hreturned
          cases hreturned
  | false =>
      obtain ⟨returned, hunwrap, -⟩ := unwrapTcpInIp_bound hlisten hone
      rw [hunwrap]

/-- Nothing happens before a connection is opened. -/
theorem run_not_opening {dgrams : List IPv4Datagram} (hlisten : a.listen = true)
    (hone : ∀ d ∈ dgrams, d.payload.buffers.length = 1)
    (hopening : ∀ d ∈ dgrams, opening a.cfg.source.port d = none) : run step a dgrams = a := by
  apply run_eq_self
  intro d hd
  rw [step, unwrapTcpInIp_not_opening hlisten (hone d hd) (hopening d hd)]

/-- Nothing happens to an adapter that is bound. -/
theorem run_bound {dgrams : List IPv4Datagram} (hlisten : a.listen = false)
    (hone : ∀ d ∈ dgrams, d.payload.buffers.length = 1) : run step a dgrams = a := by
  apply run_eq_self
  intro d hd
  obtain ⟨returned, hunwrap, -⟩ := unwrapTcpInIp_bound hlisten (hone d hd)
  rw [step, hunwrap]

/-- The datagrams that a listening adapter has seen, and the next one.

As long as none of them opened a connection, the adapter is as it was and returns the next
datagram's segment exactly if that opens one; it is then bound to the hosts and ports of that
datagram.  Once a datagram has opened a connection, the adapter is bound to it, and what it
returns comes from a datagram with the same addresses and ports.  A datagram for which nothing
is returned leaves the adapter alone. -/
theorem listening_locks (a : TCPOverIPv4Adapter) (hlisten : a.listen = true)
    (dgrams : List IPv4Datagram) (next : IPv4Datagram)
    (hone : ∀ d ∈ dgrams, d.payload.buffers.length = 1)
    (hnext : next.payload.buffers.length = 1) :
    let now := run step a dgrams
    let port := a.cfg.source.port
    ((∀ d ∈ dgrams, opening port d = none) →
      now = a ∧ (now.unwrapTcpInIp next).1 = .ok (opening port next) ∧
        ∀ seg, opening port next = some seg →
          now.step next = ⟨⟨⟨next.header.dst, port⟩, ⟨next.header.src, seg.header.sport⟩⟩,
            false⟩) ∧
    (∀ before first after seg, dgrams = before ++ first :: after →
      (∀ d ∈ before, opening port d = none) → opening port first = some seg →
      now = ⟨⟨⟨first.header.dst, port⟩, ⟨first.header.src, seg.header.sport⟩⟩, false⟩ ∧
        ∀ seg', (now.unwrapTcpInIp next).1 = .ok (some seg') →
          carried next = some seg' ∧ next.header.src = first.header.src ∧
            next.header.dst = first.header.dst ∧ seg'.header.sport = seg.header.sport ∧
            seg'.header.dport = seg.header.dport) ∧
    ((now.unwrapTcpInIp next).1 = .ok none → now.step next = now) := by
  intro now port
  refine ⟨fun hbefore => ?_, ?_, step_eq_self hnext⟩
  · have hnow : now = a := run_not_opening hlisten hone hbefore
    rw [hnow]
    cases hopening : opening port next with
    | none =>
        rw [unwrapTcpInIp_not_opening hlisten hnext hopening]
        exact ⟨rfl, rfl, fun seg h => nomatch h⟩
    | some seg =>
        refine ⟨rfl, by rw [unwrapTcpInIp_opening hlisten hopening], ?_⟩
        rintro seg' ⟨⟩
        rw [step, unwrapTcpInIp_opening hlisten hopening]
        rfl
  · rintro before first after seg hdgrams hbefore hopening
    have hnow : now = a.boundTo first seg := by
      have hwait : run step a before = a :=
        run_not_opening hlisten (fun d hd => hone d (by simp [hdgrams, hd])) hbefore
      change run step a dgrams = _
      rw [hdgrams, run_append, hwait, run, step, unwrapTcpInIp_opening hlisten hopening]
      exact run_bound rfl fun d hd => hone d (by simp [hdgrams, hd])
    refine ⟨hnow, fun seg' hreturned => ?_⟩
    obtain ⟨returned, hunwrap, hmatches⟩ :=
      unwrapTcpInIp_bound (a := a.boundTo first seg) rfl hnext
    rw [hnow, hunwrap, Except.ok.injEq] at hreturned
    obtain ⟨hcarried, hdst, hsrc, hdport, hsport⟩ := hmatches seg' hreturned
    have hport : seg.header.dport = port := by
      obtain ⟨-, hopens⟩ := Option.filter_eq_some_iff.mp hopening
      simp only [Bool.and_eq_true, beq_iff_eq] at hopens
      exact hopens.1.1
    exact ⟨hcarried, hsrc, hdst, hsport, hdport.trans hport.symm⟩

/-- A stray ACK, then the SYN of a client at port 1000 of host 7, then its ACK. -/
theorem listening_locks_client :
    let a : TCPOverIPv4Adapter := ⟨⟨⟨0, 80⟩, ⟨0, 0⟩⟩, true⟩
    let client : TCPOverIPv4Adapter := ⟨⟨⟨7, 1000⟩, ⟨5, 80⟩⟩, false⟩
    let sent : TCPSegment → IPv4Datagram := fun seg =>
      match (client.wrapTcpInIp seg).1 with
      | .ok dgram => { dgram with payload := .ofBuffer dgram.payload.concatenate }
      | .error _ => {}
    let ack := sent ⟨{ ack := true }, []⟩
    let now := run step a [ack, sent ⟨{ syn := true }, []⟩]
    now = ⟨⟨⟨5, 80⟩, ⟨7, 1000⟩⟩, false⟩ ∧ (now.unwrapTcpInIp ack).1.toOption.join.isSome = true ∧
      ∀ seg, (now.unwrapTcpInIp ack).1 = .ok (some seg) → seg.header.sport = 1000 := by
  intro a client sent ack now
  obtain ⟨-, hlocked, -⟩ := listening_locks a rfl [ack, sent ⟨{ syn := true }, []⟩] ack
    (by decide +kernel) (by decide +kernel)
  have hsome : (opening 80 (sent ⟨{ syn := true }, []⟩)).map (fun seg => seg.header.sport) =
      some 1000 := by decide +kernel
  obtain ⟨seg, hopening, hsport⟩ := Option.map_eq_some_iff.mp hsome
  obtain ⟨hnow, hreturns⟩ := hlocked [ack] _ [] seg rfl (by decide +kernel) hopening
  refine ⟨?_, by decide +kernel, fun seg' hreturned => ?_⟩
  · change now = _ at hnow
    rw [hnow, hsport]
    decide +kernel
  · obtain ⟨-, -, -, hport, -⟩ := hreturns seg' hreturned
    exact hport.trans hsport

end TCPOverIPv4Adapter
end Sponge
