import Bulletin.Render

/-!
Sending text to a receiver of limited capacity. A receiver may take less than it
is offered, and may interrupt the sender once, who then tries again.
-/

namespace Bulletin

/-- What a receiver does with more bytes when it is full: it refuses them with a
reason, or it takes none of them without saying so. -/
inductive WhenFull where
  | refuse (reason : String)
  | ignore
  deriving DecidableEq, Repr

/-- A receiver: the bytes it took, how many more it takes, how often it will
interrupt the sender first, and what it does when full. -/
structure Receiver where
  received : List UInt8
  room : Nat
  interruptions : Nat
  whenFull : WhenFull
  deriving DecidableEq, Repr

namespace Receiver

/-- The answer to an offer of bytes. -/
inductive Answer where
  | took (count : Nat)
  | interrupted
  | refused (reason : String)
  deriving DecidableEq, Repr

/-- Offers bytes to the receiver. It takes as many as it has room for. -/
def offer (r : Receiver) (bytes : List UInt8) : Answer × Receiver :=
  if 0 < r.interruptions then
    (.interrupted, { r with interruptions := r.interruptions - 1 })
  else if r.room = 0 && !bytes.isEmpty then
    match r.whenFull with
    | .refuse reason => (.refused reason, r)
    | .ignore => (.took 0, r)
  else
    let taken := bytes.take r.room
    (.took taken.length,
      { r with received := r.received ++ taken, room := r.room - taken.length })

theorem offer_took_pos {r next : Receiver} {bytes : List UInt8} {count : Nat}
    (hOffer : r.offer bytes = (.took count, next)) (hCount : count ≠ 0) :
    next.room + count = r.room ∧ next.interruptions = r.interruptions ∧
      count ≤ bytes.length := by
  unfold offer at hOffer
  split at hOffer
  · simp at hOffer
  · split at hOffer
    · split at hOffer <;> simp_all
    · simp only [Prod.mk.injEq, Answer.took.injEq] at hOffer
      obtain ⟨rfl, rfl⟩ := hOffer
      refine ⟨?_, rfl, ?_⟩ <;> simp only [List.length_take] <;> omega

theorem offer_interrupted {r next : Receiver} {bytes : List UInt8}
    (hOffer : r.offer bytes = (.interrupted, next)) :
    next.interruptions < r.interruptions := by
  unfold offer at hOffer
  split at hOffer
  · simp only [Prod.mk.injEq, true_and] at hOffer
    subst hOffer
    simp only
    omega
  · split at hOffer
    · split at hOffer <;> simp at hOffer
    · simp at hOffer

/-- Sends all bytes, in as many offers as it takes. An offer of which nothing is
taken ends the sending. -/
def send (r : Receiver) (bytes : List UInt8) : Except WriteFailure Unit × Receiver :=
  if bytes.isEmpty then (.ok (), r)
  else
    match _hOffer : r.offer bytes with
    | (.interrupted, next) => next.send bytes
    | (.refused reason, next) => (.error (.refused reason), next)
    | (.took count, next) =>
      if _hCount : count = 0 then (.error .stalled, next)
      else next.send (bytes.drop count)
termination_by (bytes.length, r.interruptions)
decreasing_by
  · exact Prod.Lex.right _ (offer_interrupted _hOffer)
  · have := offer_took_pos _hOffer _hCount
    exact Prod.Lex.left _ _ (by simp only [List.length_drop]; omega)

/-- Sends texts one after the other, until one cannot be sent. -/
def sendAll (r : Receiver) : List String → Except WriteFailure Unit × Receiver
  | [] => (.ok (), r)
  | s :: rest =>
    match r.send s.toUTF8.toList with
    | (.ok (), next) => next.sendAll rest
    | failed => failed

end Receiver

/-- Sends what is written to a receiver. A failure to send comes before anything
that would have stopped the writing later. -/
def Writing.sendTo (w : Writing) (r : Receiver) : Except Error Unit × Receiver :=
  match r.sendAll w.chunks with
  | (.error cause, r) => (.error (.unwritten cause), r)
  | (.ok (), r) =>
    match w.stop? with
    | some e => (.error e, r)
    | none => (.ok (), r)

end Bulletin
