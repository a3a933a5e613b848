import Sponge.Stack.Refinement

/-!
# Calls on connections that are closed

The owner of a connection may find out late that the connection is no longer active.  It may
write to a connection that the peer has just reset; the peer is closed then, so nobody listens to
what is sent.  And it may end a stream twice, which does nothing the second time.

With such calls, the two hosts leave the network of their connections, but only when both are
closed.  What was received stays a part of what was written.

Main results:

- Theorem {lit}`Stack.Good.step`: the hosts are those of a network, or both are closed.
- Theorem {lit}`Stack.received_isPrefix_of_disciplined`: what a host has received is the beginning
  of what its peer has written.
-/

namespace Sponge

open Library

namespace Stack

variable {c : Channel} {s : Stack c} {side : Side}

/-! ## Side conditions -/

/-- The bytes in flight stay bounded, and what arrives comes from the channel with seqnos that
are unambiguous. -/
def Event.Mild (s : Stack c) : Event c → Prop
  | .connect side => ((s.step (.connect side)).host side).Bounded
  | .write side data => ((s.step (.write side data)).host side).Bounded
  | .endInputStream side => ((s.step (.endInputStream side)).host side).Bounded
  | .read _ _ => True
  | .tick side ms => ((s.step (.tick side ms)).host side).Bounded
  | .arrive side x =>
      c.InputOk s.channel side x ∧ ∀ seg ∈ (c.read s.channel side x).1,
        ((s.step (.arrive side x)).host side).Bounded ∧
          Timely (s.host side) (s.host side.other) seg
  | .drop side x => c.InputOk s.channel side x
  | .transmit _ => True
  | .other e => c.EventOk s.channel e

instance [∀ s side x, Decidable (c.InputOk s side x)] [∀ s e, Decidable (c.EventOk s e)]
    (s : Stack c) : ∀ e, Decidable (Event.Mild s e)
  | .connect _ => inferInstanceAs (Decidable (Host.Bounded _))
  | .write _ _ => inferInstanceAs (Decidable (Host.Bounded _))
  | .endInputStream _ => inferInstanceAs (Decidable (Host.Bounded _))
  | .read _ _ => inferInstanceAs (Decidable True)
  | .tick _ _ => inferInstanceAs (Decidable (Host.Bounded _))
  | .arrive _ _ => inferInstanceAs (Decidable (_ ∧ ∀ _ ∈ _, _ ∧ _))
  | .drop _ _ => inferInstanceAs (Decidable (c.InputOk _ _ _))
  | .transmit _ => inferInstanceAs (Decidable True)
  | .other _ => inferInstanceAs (Decidable (c.EventOk _ _))

/-- A host that was reset and has not reset its peer. -/
structure Refused (h : Host) : Prop where
  inactive : h.conn.active = false
  error : h.conn.receiver.streamOut.error = true
  silent : ∀ p ∈ h.packets, p.seg.header.rst = false

/-- Which calls are made on a connection: it is opened, given segments and told the time while it is
active; its outbound stream is written to or ended also when the peer has reset it, and ended also
when that does nothing.  Nothing is asked of those who read its inbound stream or take segments from
its queue. -/
def Event.Disciplined (s : Stack c) : Event c → Prop
  | .connect side => (s.host side).conn.active = true
  | .write side _ => (s.host side).conn.active = true ∨ Refused (s.host side)
  | .endInputStream side => (s.host side).conn.active = true ∨ Refused (s.host side) ∨
      (s.host side).conn.endInputStream = (s.host side).conn
  | .tick side _ => (s.host side).conn.active = true
  | .arrive side _ => (s.host side).conn.active = true
  | .read _ _ => True
  | .drop _ _ => True
  | .transmit _ => True
  | .other _ => True

/-! ## Two closed connections -/

/-- Both connections are closed, and what was received is a part of what was written. -/
structure Frozen (s : Stack c) : Prop where
  inactive : ∀ side, (s.host side).conn.active = false
  safe : ∀ side, (s.host side).received <+: (s.host side.other).wrote

/-- A host goes on, with nothing received and more written. -/
theorem Frozen.become (hs : s.Frozen) {h' : Host} (hinactive : h'.conn.active = false)
    (hreceived : h'.received = (s.host side).received)
    (hwrote : (s.host side).wrote <+: h'.wrote) : (s.become side h').Frozen where
  inactive side' := by
    by_cases hside : side' = side
    · subst hside
      rw [host_become]
      exact hinactive
    · obtain rfl := Side.eq_other_of_ne hside
      rw [host_become_other]
      exact hs.inactive _
  safe side' := by
    by_cases hside : side' = side
    · subst hside
      rw [host_become, host_become_other, hreceived]
      exact hs.safe side'
    · obtain rfl := Side.eq_other_of_ne hside
      have hsafe := hs.safe side.other
      rw [Side.other_other] at hsafe ⊢
      rw [host_become, host_become_other]
      exact hsafe.trans hwrote

/-- Only the hosts matter. -/
theorem Frozen.withChannel (hs : s.Frozen) (channel : c.State) :
    Frozen { s with channel := channel } :=
  ⟨hs.inactive, hs.safe⟩

/-- Reading moves bytes that were received. -/
theorem received_read (h : Host) (len : Nat) :
    Host.received { h with
      conn := { h.conn with receiver := h.conn.receiver.popOutput len }
      popped := h.popped ++ h.conn.inboundStream.peekOutput len } = h.received := by
  change h.popped ++ h.conn.inboundStream.peekOutput len ++
    (h.conn.inboundStream.popOutput len).contents = h.popped ++ h.conn.inboundStream.contents
  rw [ByteStream.peekOutput_eq, ByteStream.contents_popOutput, List.append_assoc,
    List.take_append_drop]

/-- Nothing that a disciplined owner does reaches the inbound streams of two closed
connections. -/
theorem Frozen.step (hs : s.Frozen) {e : Event c} (hok : e.Disciplined s) : (s.step e).Frozen := by
  have hclosed : ∀ side, ¬ (s.host side).conn.active = true :=
    fun side => Bool.eq_false_iff.mp (hs.inactive side)
  cases e with
  | connect side => exact absurd hok (hclosed side)
  | write side data => exact hs.become (hs.inactive side) rfl (List.prefix_append _ _)
  | endInputStream side => exact hs.become (hs.inactive side) rfl List.prefix_rfl
  | read side len => exact hs.become (hs.inactive side) (received_read _ len) List.prefix_rfl
  | tick side ms => exact absurd hok (hclosed side)
  | arrive side x => exact absurd hok (hclosed side)
  | drop side x => exact hs.withChannel _
  | transmit side =>
      cases hqueue : (s.host side).conn.segmentsOut with
      | nil =>
          simp only [Stack.step, hqueue]
          exact hs
      | cons seg rest =>
          have hpopped : (s.become side { s.host side with
              conn := { (s.host side).conn with segmentsOut := rest } }).Frozen :=
            hs.become (hs.inactive side) rfl List.prefix_rfl
          simp only [Stack.step, hqueue]
          exact hpopped.withChannel _
  | other e => exact hs.withChannel _

/-! ## Runs -/

/-- The two hosts are those of a network, or both are closed. -/
def Good (s : Stack c) : Prop :=
  s.Sound ∧ Linked s.network.a s.network.b ∨ s.Frozen

/-- When the peer has reset a host, both are closed. -/
theorem Sound.frozen (hs : s.Sound) (hlinked : Linked s.network.a s.network.b)
    (hrefused : Refused (s.host side)) : s.Frozen where
  inactive side' := by
    by_cases hside : side' = side
    · rw [hside]
      exact hrefused.inactive
    · obtain rfl := Side.eq_other_of_ne hside
      rcases hs.reset side hrefused.error with ⟨p, hp, hrst⟩ | ⟨p, hp, hrst⟩
      · rw [hrefused.silent p hp] at hrst
        cases hrst
      · exact (hs.steady side.other).modest.resets p hp hrst
  safe := isPrefix_of_linked hlinked

/-- A call that does nothing. -/
theorem step_endInputStream_eq_self
    (h : (s.host side).conn.endInputStream = (s.host side).conn) :
    s.step (.endInputStream side) = s := by
  have hhost : (s.host side).enqueue (s.host side).conn = s.host side := by
    simp [Host.enqueue]
  change s.become side ((s.host side).enqueue (s.host side).conn.endInputStream) = s
  rw [h, hhost, Stack.become, Function.update_eq_self]

/-- A call on active connections. -/
theorem Good.ok (hs : s.Sound) (hlinked : Linked s.network.a s.network.b) {e : Event c}
    (hok : e.Ok s) : (s.step e).Good := by
  obtain ⟨hsound, trace, hadm, hend⟩ := hs.step hok
  refine Or.inl ⟨hsound, ?_⟩
  rw [← hend]
  exact Network.invariant (I := Linked) (fun _ _ h => h.symm) (fun _ _ _ h hok => h.step hok)
    hlinked hadm

/-- Disciplined owners keep the hosts in a network, until both are closed. -/
theorem Good.step (hgood : s.Good) {e : Event c} (hmild : e.Mild s) (hok : e.Disciplined s) :
    (s.step e).Good := by
  rcases hgood with ⟨hs, hlinked⟩ | hfrozen
  · cases e with
    | connect side => exact Good.ok hs hlinked ⟨hok, hmild⟩
    | write side data =>
        rcases hok with hactive | hrefused
        · exact Good.ok hs hlinked ⟨hactive, hmild⟩
        · exact Or.inr ((hs.frozen hlinked hrefused).step (Or.inr hrefused))
    | endInputStream side =>
        rcases hok with hactive | hrefused | hnothing
        · exact Good.ok hs hlinked ⟨hactive, hmild⟩
        · exact Or.inr ((hs.frozen hlinked hrefused).step (Or.inr (Or.inl hrefused)))
        · rw [step_endInputStream_eq_self hnothing]
          exact Or.inl ⟨hs, hlinked⟩
    | read side len => exact Good.ok hs hlinked trivial
    | tick side ms => exact Good.ok hs hlinked ⟨hok, hmild⟩
    | arrive side x =>
        exact Good.ok hs hlinked ⟨hmild.1, fun seg hseg => ⟨hok, hmild.2 seg hseg⟩⟩
    | drop side x => exact Good.ok hs hlinked hmild
    | transmit side => exact Good.ok hs hlinked trivial
    | other e => exact Good.ok hs hlinked hmild
  · exact Or.inr (hfrozen.step hok)

/-- What a host with a disciplined owner has received is the beginning of what its peer has
written. -/
theorem received_isPrefix_of_disciplined {channel : c.State} {cfg : Side → TCPConfig}
    {random : Side → UInt32} {events : List (Event c)} (hready : c.Ready channel)
    (hwritten : ∀ side, c.written channel side = [])
    (hcapacity : ∀ side, (cfg side).recvCapacity < 2 ^ 63)
    (hmild : Admissible step Event.Mild (new channel cfg random) events)
    (hok : Admissible step Event.Disciplined (new channel cfg random) events) (side : Side) :
    ((run step (new channel cfg random) events).host side).received <+:
      ((run step (new channel cfg random) events).host side.other).wrote := by
  have hnew : (new channel cfg random).Good :=
    Or.inl ⟨sound_new hready hwritten cfg random, [], [],
      link_new _ _ _ _ (hcapacity .a) (hcapacity .b)⟩
  have hgood := (hmild.and hok).invariant (fun _ _ h hcond => h.step hcond.1 hcond.2) hnew
  rcases hgood with ⟨-, hlinked⟩ | hfrozen
  · exact isPrefix_of_linked hlinked side
  · exact hfrozen.safe side

end Stack
end Sponge
