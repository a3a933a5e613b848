import Sponge.Library.Execution
import Sponge.TCPConnection.State

/-!
# Stray segments at a listening connection

A connection that has neither sent nor received anything is in LISTEN.  A segment without
SYN and RST changes nothing there but the window of the sender: `segment_received` hands an
acknowledgement to the sender before any SYN, and the ackno that equals the initial sequence
number is accepted.  The window matters later, for the first segment that is sent.

Main results:

- Theorem {lit}`segmentReceived_listening`: what a stray segment does.
- Theorem {lit}`endInputStream_listening`: the first segment shows the window.
- Theorem {lit}`strays_undisturbing_iff`: when a connection behaves as if the stray segments had
  not come.
-/

namespace Sponge

open Library

/-- Only the initial sequence number is unwrapped to 0. -/
theorem unwrap_eq_zero_iff (n isn : WrappingInt32) : unwrap n isn 0 = 0 ↔ n = isn := by
  constructor
  · intro h
    rw [← wrap_unwrap n isn (show (0 : Nat) < 2 ^ 64 by decide), h, wrap_zero]
  · rintro rfl
    have h := @unwrap_wrap 0 0 n (by decide) (by decide) (by decide)
      (by decide)
    rwa [wrap_zero] at h

/-- While nothing of the window is used, the latest ackno only sets its size. -/
theorem TCPSender.updateWindow_unused {s : TCPSender} (h : s.windowUsedSize = 0) (win : UInt16) :
    s.updateWindow s.latestAckno win =
      { s with windowSize := win.toNat, windowUsedSize := 0 } := by
  have hadd : s.latestAckno.add (UInt32.ofNat s.windowUsedSize) = s.latestAckno := by
    rw [h]
    simp [WrappingInt32.add]
  simp [TCPSender.updateWindow, hadd]

namespace TCPConnection

/-- A segment without SYN and RST. -/
def Stray (seg : TCPSegment) : Prop :=
  seg.header.syn = false ∧ seg.header.rst = false

instance (seg : TCPSegment) : Decidable (Stray seg) :=
  inferInstanceAs (Decidable (_ ∧ _))

/-- The segment acknowledges the initial sequence number. -/
def acksIsn (isn : WrappingInt32) (seg : TCPSegment) : Bool :=
  seg.header.ack && seg.header.ackno == isn

/-- The window that stray segments leave, if any: that of the last one that acknowledges the
initial sequence number. -/
def adopted (isn : WrappingInt32) (strays : List TCPSegment) : Option UInt16 :=
  (strays.filter (acksIsn isn)).getLast?.map fun seg => seg.header.win

/-- A fresh connection, but for the window of its sender. -/
def listening (cfg : TCPConfig) (random : UInt32) (windowSize : Nat) : TCPConnection :=
  { new cfg random with sender.windowSize := windowSize }

variable (cfg : TCPConfig) (random : UInt32)

/-! ## What a stray segment does -/

/-- Only an acknowledgement of the initial sequence number is accepted. -/
theorem accepts_listening (windowSize : Nat) (ackno : WrappingInt32) :
    (listening cfg random windowSize).sender.accepts ackno =
      (ackno == (new cfg random).sender.isn) := by
  let isn := (new cfg random).sender.isn
  have hisn : unwrap isn isn 0 = 0 := (unwrap_eq_zero_iff isn isn).mpr rfl
  change (!(decide (unwrap isn isn 0 > unwrap ackno isn 0) || decide (unwrap ackno isn 0 > 0))) =
    (ackno == isn)
  by_cases h : ackno = isn
  · simp [h, hisn]
  · have hpos : 0 < unwrap ackno isn 0 :=
      Nat.pos_of_ne_zero fun hzero => h ((unwrap_eq_zero_iff ackno isn).mp hzero)
    simp [h, hpos]

/-- The sender takes over the window of an acknowledgement of the initial sequence number, and
ignores every other one. -/
theorem ackReceived_listening (windowSize : Nat) (ackno : WrappingInt32) (win : UInt16) :
    (listening cfg random windowSize).sender.ackReceived ackno win =
      (listening cfg random (if ackno == (new cfg random).sender.isn then win.toNat
        else windowSize)).sender := by
  rw [TCPSender.ackReceived, accepts_listening]
  cases h : ackno == (new cfg random).sender.isn with
  | false => rfl
  | true =>
      obtain rfl := eq_of_beq h
      have hupdate : (listening cfg random windowSize).sender.updateWindow
          (new cfg random).sender.isn win = (listening cfg random win.toNat).sender :=
        TCPSender.updateWindow_unused rfl win
      simp only [if_true, hupdate]
      exact if_pos rfl

/-- A stray segment leaves a listening connection as it is, but for the window. -/
theorem segmentReceived_listening (windowSize : Nat) {seg : TCPSegment} (h : Stray seg) :
    (listening cfg random windowSize).segmentReceived seg =
      listening cfg random (if acksIsn (new cfg random).sender.isn seg then seg.header.win.toNat
        else windowSize) := by
  obtain ⟨hsyn, hrst⟩ := h
  have hreceiver : (listening cfg random windowSize).receiver.segmentReceived seg =
      (listening cfg random windowSize).receiver := if_pos ⟨rfl, hsyn⟩
  have hsender : acked (listening cfg random windowSize).sender seg =
      (listening cfg random (if acksIsn (new cfg random).sender.isn seg then
        seg.header.win.toNat else windowSize)).sender := by
    unfold acked acksIsn
    cases hack : seg.header.ack with
    | false => rfl
    | true =>
        rw [if_pos rfl, ackReceived_listening, Bool.true_and]
  have hpass : (listening cfg random windowSize).passOn seg =
      listening cfg random (if acksIsn (new cfg random).sender.isn seg then
        seg.header.win.toNat else windowSize) := by
    simp only [passOn, hreceiver, hsender]
    rfl
  have hself : { listening cfg random windowSize with
      segReceivedTimeMs := (listening cfg random windowSize).nowTimeMs } =
      listening cfg random windowSize := rfl
  have hfinished : ∀ w, finished (listening cfg random w).receiver
      (listening cfg random w).sender = false := by
    intro w
    have hsummary : (listening cfg random w).receiver.stateSummary = .listen := rfl
    simp [finished, hsummary]
  have hreply : ∀ w, reply (listening cfg random w).receiver (listening cfg random w).sender seg =
      (listening cfg random w).sender := fun _ => rfl
  simp only [segmentReceived, hrst, hself, hpass, hfinished, hreply, Bool.false_eq_true, if_false,
    Bool.false_and]
  rfl

/-- Stray segments leave the window of the last one that acknowledges the initial sequence
number. -/
theorem strays_listening (strays : List TCPSegment) (h : ∀ seg ∈ strays, Stray seg) :
    strays.foldl segmentReceived (new cfg random) = listening cfg random
      (((adopted (new cfg random).sender.isn strays).map UInt16.toNat).getD 1) := by
  induction strays using List.reverseRecOn with
  | nil => rfl
  | append_singleton strays seg ih =>
      have hstray := h seg (List.mem_append_right _ List.mem_cons_self)
      rw [List.foldl_append, ih fun s hs => h s (List.mem_append_left _ hs), List.foldl_cons,
        List.foldl_nil, segmentReceived_listening cfg random _ hstray]
      congr 1
      unfold adopted
      rw [List.filter_append]
      cases hacks : acksIsn (new cfg random).sender.isn seg with
      | true => simp [hacks]
      | false => simp [hacks]

/-! ## What shows the window -/

/-- Ending the stream of a listening connection sends a FIN alone on a closed window, a SYN on
a window of one, and both on a larger one. -/
theorem endInputStream_listening (windowSize : Nat) :
    (listening cfg random windowSize).endInputStream.segmentsOut.map
        (fun seg => (seg.header.syn, seg.header.fin)) =
      if windowSize = 0 then [(false, true)] else [(true, decide (1 < windowSize))] := by
  match windowSize with
  | 0 => rfl
  | 1 => rfl
  | n + 2 =>
      rw [if_neg (Nat.succ_ne_zero (n + 1))]
      rfl

/-- The first segment tells a window of one from every other. -/
theorem eq_one_of_endInputStream {windowSize : Nat}
    (h : (listening cfg random windowSize).endInputStream.segmentsOut =
      (new cfg random).endInputStream.segmentsOut) : windowSize = 1 := by
  have hfresh := endInputStream_listening cfg random 1
  have hother := endInputStream_listening cfg random windowSize
  change (new cfg random).endInputStream.segmentsOut.map _ = _ at hfresh
  rw [h, hfresh] at hother
  by_cases hzero : windowSize = 0
  · simp [hzero] at hother
  · simp [hzero] at hother
    omega

/-! ## The law -/

/-- Stray segments draw no segment and leave a fresh connection in LISTEN.  It behaves from
then on as if they had not come exactly when the last of them that acknowledges the initial
sequence number, if there is one, announces a window of one. -/
theorem strays_undisturbing_iff (cfg : TCPConfig) (random : UInt32) (strays : List TCPSegment)
    (hstrays : ∀ seg ∈ strays, Stray seg) :
    let c := new cfg random
    let disturbed := strays.foldl segmentReceived c
    disturbed.segmentsOut = [] ∧ disturbed.state = TCPState.ofState .listen ∧
    ((∀ ops, (run perform disturbed ops).segmentsOut = (run perform c ops).segmentsOut ∧
        (run perform disturbed ops).inboundStream.contents =
          (run perform c ops).inboundStream.contents) ↔
      ∀ win ∈ adopted c.sender.isn strays, win = 1) := by
  intro c disturbed
  have hdisturbed : disturbed = listening cfg random
      (((adopted c.sender.isn strays).map UInt16.toNat).getD 1) :=
    strays_listening cfg random strays hstrays
  clear_value disturbed
  subst hdisturbed
  refine ⟨rfl, rfl, ?_, ?_⟩
  · intro hlaw win hwin
    have hone := eq_one_of_endInputStream cfg random (hlaw [.endInputStream]).1
    rw [Option.mem_def.mp hwin] at hone
    exact UInt16.toNat_inj.mp hone
  · intro hwin ops
    have hsame : listening cfg random
        (((adopted c.sender.isn strays).map UInt16.toNat).getD 1) = c := by
      cases hadopted : adopted c.sender.isn strays with
      | none => rfl
      | some win =>
          rw [hwin win hadopted]
          rfl
    rw [hsame]
    exact ⟨rfl, rfl⟩

/-- A stray acknowledgement of another number, and one with a window of one. -/
theorem strays_undisturbing_iff_one :
    let cfg : TCPConfig := { recvCapacity := 4, sendCapacity := 4, fixedIsn := some ⟨7⟩ }
    let strays : List TCPSegment := [⟨{ ack := true, ackno := ⟨8⟩, win := 0 }, [1]⟩,
      ⟨{ ack := true, ackno := ⟨7⟩, win := 1 }, []⟩]
    ∀ ops, (run perform (strays.foldl segmentReceived (new cfg 0)) ops).segmentsOut =
      (run perform (new cfg 0) ops).segmentsOut := by
  intro cfg strays ops
  have hadopted : adopted (new cfg 0).sender.isn strays = some 1 := by decide +kernel
  have hwin : ∀ win ∈ adopted (new cfg 0).sender.isn strays, win = 1 := by
    intro win hwin
    rw [hadopted, Option.mem_some_iff] at hwin
    exact hwin.symm
  exact ((strays_undisturbing_iff cfg 0 strays (by decide)).2.2.mpr hwin ops).1

/-- After a stray acknowledgement with a closed window, `connect()` sends no SYN. -/
theorem stray_ack_silences_connect :
    ¬ ∀ (cfg : TCPConfig) (random : UInt32) (strays : List TCPSegment),
      (∀ seg ∈ strays, Stray seg) → ∀ ops,
      (run perform (strays.foldl segmentReceived (new cfg random)) ops).segmentsOut =
        (run perform (new cfg random) ops).segmentsOut := by
  intro h
  let cfg : TCPConfig := { recvCapacity := 4, sendCapacity := 4, fixedIsn := some ⟨7⟩ }
  let stray : TCPSegment := ⟨{ ack := true, ackno := ⟨7⟩, win := 0 }, []⟩
  exact absurd (h cfg 0 [stray] (by decide) [.connect]) (by decide +kernel)

end TCPConnection
end Sponge
