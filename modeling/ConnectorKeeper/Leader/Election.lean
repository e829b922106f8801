import ConnectorKeeper.Leader.Lease

/-!
# Leader election

A replica waits until it leads, then keeps its lease renewed.  It stops leading,
and with that ends, as soon as another replica holds the lease or three renewals
in a row have failed.  Where the interval between renewals is zero, the timer for
them cannot be made: nothing is renewed, and the replica goes on all the same.

Both loops go on for ever, so here they are given a number of rounds.
-/

namespace ConnectorKeeper

/-- How much a message of the log matters. -/
inductive LogLevel where
  /-- Of use to those who look closely. -/
  | trace
  /-- What happens in good order. -/
  | info
  /-- What may pass. -/
  | warn
  /-- What ends things. -/
  | error
deriving DecidableEq, Repr

/-- A message of the log, with named details. -/
structure LogEvent where
  /-- How much it matters. -/
  level : LogLevel
  /-- The message. -/
  message : String
  /-- The details. -/
  fields : List (String × String)
deriving DecidableEq, Repr

/-- What an election asks of its surroundings. -/
inductive Duty where
  /-- A question on the wire. -/
  | wire (question : Wire)
  /-- A message for the log. -/
  | log (event : LogEvent)
  /-- A wait. -/
  | wait (span : Duration)

/-- The answers to a duty. -/
def Duty.Reply : Duty → Type
  | .wire q => q.Reply
  | .log _ | .wait _ => Unit

/-- A computation of an election. -/
abbrev Vigil (α : Type) := Program Duty Duty.Reply α

namespace Leader

/-- A question on the wire within an election. -/
def askWire (q : Wire) : Vigil q.Reply := .ask (.wire q) .done

/-- A talk within an election. -/
def onWire {α : Type} (t : Talk α) : Vigil α := Program.run askWire t

/-- The name of a holder, where it may not be known. -/
def holderText (holder : Option String) : String := holder.getD "unknown"

/-! ## Acquiring -/

/-- What the log says about an attempt to become the leader. -/
def acquireEvent : Except LeaseError Attempt → LogEvent
  | .ok (.leading holder) => ⟨.info, "Leadership acquired", [("holder", holderText holder)]⟩
  | .ok .following =>
      ⟨.info, "Another pod is leader, waiting...", [("current_holder", holderText none)]⟩
  | .error e => ⟨.warn, "Failed to check leadership, retrying...", [("error", e.message)]⟩

/-- Whether an attempt made this replica the leader. -/
def isLeading : Except LeaseError Attempt → Bool
  | .ok (.leading _) => true
  | _ => false

/-- Attempts until this replica leads, so many at most.  Tells whether it leads. -/
def acquireRounds (s : LeaderSettings) : Nat → Vigil Bool
  | 0 => .done false
  | rounds + 1 =>
      Program.bind (onWire (Lease.attempt s)) fun result =>
        .ask (.log (acquireEvent result)) fun _ =>
          if isLeading result then .done true
          else .ask (.wait s.renewInterval) fun _ => acquireRounds s rounds

/-- Waits until this replica leads. -/
def acquire (s : LeaderSettings) (rounds : Nat) : Vigil Bool :=
  .ask (.log ⟨.info, "Attempting to acquire leadership...", []⟩) fun _ => acquireRounds s rounds

/-! ## Renewing -/

/-- Failures in a row that end a leader. -/
def maxFailures : Nat := 3

/-- The result of a renewal, as far as it matters to the leader. -/
inductive Renewal where
  /-- The lease is still ours. -/
  | renewed
  /-- The lease is another replica's. -/
  | heldByAnother
  /-- Nobody knows. -/
  | failed
deriving DecidableEq, Repr

/-- The renewal that an attempt at the lease is. -/
def Renewal.ofAttempt : Except LeaseError Attempt → Renewal
  | .ok (.leading _) => .renewed
  | .ok .following => .heldByAnother
  | .error _ => .failed

/-- A leader between renewals. -/
inductive Standing where
  /-- It leads, after so many failures in a row. -/
  | leading (failures : Nat)
  /-- It has ended. -/
  | ended
  /-- It goes on, and nobody renews its lease. -/
  | adrift
deriving DecidableEq, Repr

/-- A leader with so many failures in a row, after one more renewal. -/
def afterRenewal (failures : Nat) : Renewal → Standing
  | .renewed => .leading 0
  | .heldByAnother => .ended
  | .failed => if failures + 1 < maxFailures then .leading (failures + 1) else .ended

/-- What the log says about a renewal after so many failures in a row. -/
def renewalEvents (failures : Nat) : Except LeaseError Attempt → List LogEvent
  | .ok (.leading _) =>
      (if failures = 0 then []
        else [⟨.info, "Lease renewed after transient failures",
          [("previous_failures", toString failures)]⟩]) ++
      [⟨.trace, "Lease renewed", []⟩]
  | .ok .following =>
      [⟨.error, "Lost leadership to another pod, exiting", [("new_holder", holderText none)]⟩]
  | .error e =>
      if failures + 1 < maxFailures then
        [⟨.warn, "Transient lease renewal failure, will retry",
          [("error", e.message), ("attempt", toString (failures + 1)),
            ("max_attempts", toString maxFailures)]⟩]
      else
        [⟨.error, "Failed to renew lease, exiting",
          [("error", e.message), ("consecutive_failures", toString (failures + 1))]⟩]

/-- Messages for the log, in turn. -/
def logAll : List LogEvent → Vigil Unit
  | [] => .done ()
  | e :: rest => .ask (.log e) fun _ => logAll rest

/-- Renewals one interval apart, so many at most, after so many failures in a row. -/
def renewRounds (s : LeaderSettings) : Nat → Nat → Vigil Standing
  | 0, failures => .done (.leading failures)
  | rounds + 1, failures =>
      Program.bind (onWire (Lease.attempt s)) fun result =>
        Program.bind (logAll (renewalEvents failures result)) fun _ =>
          match afterRenewal failures (.ofAttempt result) with
          | .leading failures =>
              .ask (.wait s.renewInterval) fun _ => renewRounds s rounds failures
          | last => .done last

/-- Keeps the lease renewed.  There is no timer with an interval of zero: the task that
renews fails at once, and the leader, which does not watch it, goes on without. -/
def keep (s : LeaderSettings) (rounds : Nat) : Vigil Standing :=
  if s.renewInterval.nanos = 0 then .done .adrift
  else
    .ask (.log ⟨.info, "Starting lease renewal loop",
        [("interval_secs", toString s.renewInterval.seconds),
          ("max_failures", toString maxFailures)]⟩)
      fun _ => renewRounds s rounds 0

/-- A leader after a sequence of renewals. -/
def afterRenewals : Standing → List Renewal → Standing
  | standing, [] => standing
  | .leading failures, r :: rest => afterRenewals (afterRenewal failures r) rest
  | standing, _ :: _ => standing

end Leader

end ConnectorKeeper
