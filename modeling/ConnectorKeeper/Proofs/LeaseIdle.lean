import ConnectorKeeper.Leader.Election
import ConnectorKeeper.Proofs.Exchanges
import ConnectorKeeper.Proofs.Targets

/-!
# How long a leader goes without a renewal

A leader is safe while its lease lasts, and its lease lasts for `leaseDuration`
from the last change of it that the API server confirmed.  `Leader.idle` is the
time since then, as the exchanges of the leader show it: attempts take no time,
and the waits between them do.

Before each attempt `idle` is at most one interval for every failure in a row and
one more, and the third failure ends the leader.  So it is never more than three
intervals, and it gets there if the server confirms one renewal and no other.
`LeaderSettings` asks for less: it compares the lease with one interval.  It even takes
an interval of zero, with which a leader is never renewed and goes on for ever.
-/

namespace ConnectorKeeper

namespace Leader

open Program (Exchange Obeys obeys_bind_iff trace_bind_iff trace_ask_iff)

/-! ## Time since the last renewal -/

/-- An exchange in which the API server confirms a change of the lease. -/
def confirms : Exchange Duty.Reply → Bool
  | ⟨.wire (.api q), reply⟩ => q.method ≠ .get && (Api.judge Lease.decoder reply).toBool
  | _ => false

/-- The time since the last renewal after one more exchange, in nanoseconds. -/
def idleAfter (idle : Nat) : Exchange Duty.Reply → Nat
  | ⟨.wait span, _⟩ => idle + span.nanos
  | x => if confirms x then 0 else idle

/-- The time since the last renewal, or since the start where there was none. -/
def idle (w : List (Exchange Duty.Reply)) : Nat := w.foldl idleAfter 0

theorem idle_append (v w : List (Exchange Duty.Reply)) :
    idle (v ++ w) = w.foldl idleAfter (idle v) := List.foldl_append

@[simp] theorem idle_concat (v : List (Exchange Duty.Reply)) (x : Exchange Duty.Reply) :
    idle (v ++ [x]) = idleAfter (idle v) x := by rw [idle_append]; rfl

@[simp] theorem idleAfter_wait (n : Nat) (span : Duration) (u : Duty.Reply (.wait span)) :
    idleAfter n ⟨.wait span, u⟩ = n + span.nanos := rfl

@[simp] theorem idleAfter_log (n : Nat) (event : LogEvent) (u : Duty.Reply (.log event)) :
    idleAfter n ⟨.log event, u⟩ = n := rfl

@[simp] theorem idleAfter_clock (n : Nat) (now : Duty.Reply (.wire .clock)) :
    idleAfter n ⟨.wire .clock, now⟩ = n := rfl

theorem idleAfter_get {n : Nat} {q : Api.Request} (h : q.method = .get)
    (reply : Duty.Reply (.wire (.api q))) : idleAfter n ⟨.wire (.api q), reply⟩ = n := by
  simp [idleAfter, confirms, h]

theorem idleAfter_change {n : Nat} {q : Api.Request} (h : q.method ≠ .get)
    (reply : Duty.Reply (.wire (.api q))) :
    idleAfter n ⟨.wire (.api q), reply⟩ =
      if (Api.judge Lease.decoder (show Api.Reply from reply)).toBool then 0 else n := by
  simp [idleAfter, confirms, h]

/-! ## Attempts -/

/-- The time since the last renewal has not become longer than a bound. -/
def Within (bound : Nat) (past : List (Exchange Duty.Reply)) (_ : Duty) : Prop := idle past ≤ bound

/-- The time since the last renewal is as before, or starts again with the leader's term. -/
def Counted (n : Nat) (past : List (Exchange Duty.Reply)) (result : Except LeaseError Attempt) :
    Prop :=
  idle past = if isLeading result then 0 else n

section Attempts

variable {s : LeaderSettings} {bound n : Nat} {past : List (Exchange Duty.Reply)}

/-- A question that changes the lease, if it can be asked. -/
inductive Changes : Talk (Except Api.Error Lease) → Prop
  | unsent (e : Api.Error) : Changes (.done (.error e))
  | sent {q : Api.Request} (h : q.method ≠ .get) :
      Changes (.ask (.api q) fun reply => .done (Api.judge Lease.decoder reply))

theorem changes_change (s : LeaderSettings) (spec : List (String × Json)) :
    Changes (Lease.change s spec) := by
  unfold Lease.change
  split
  · exact .unsent _
  · cases hrequest : Api.objectRequest .patch (Lease.collection s.namespaceName) s.leaseName ""
      ("&fieldManager=" ++ Lease.parameterText s.holder) (some (Lease.body s.leaseName spec)) with
    | error e => exact .unsent e
    | ok q =>
      obtain ⟨-, target, -, rfl⟩ := Api.objectRequest_eq_ok_iff.1 hrequest
      exact .sent nofun

theorem changes_create (collection : String) (lease : Json) :
    Changes (Api.exchange Lease.decoder (Api.createRequest collection lease)) := by
  cases hrequest : Api.createRequest collection lease with
  | error e => exact .unsent e
  | ok q =>
    obtain ⟨target, -, rfl⟩ := Api.createRequest_eq_ok_iff.1 hrequest
    exact .sent nofun

theorem isLeading_taken (blame : Api.Error → LeaseError) (r : Except Api.Error Lease) :
    isLeading (Lease.taken blame r) = r.toBool := by
  cases r with
  | error e => rfl
  | ok lease => rfl

/-- A change of the lease makes this replica the leader if it is confirmed. -/
theorem Changes.obeys {p : Talk (Except Api.Error Lease)} (h : Changes p)
    (blame : Api.Error → LeaseError) (hpast : idle past = n) (hbound : n ≤ bound) :
    Obeys (Within bound) (Counted n) past
      (onWire (p >>= fun r => .done (Lease.taken blame r))) := by
  cases h with
  | unsent e => exact hpast
  | sent hmethod =>
    refine ⟨hpast.trans_le hbound, ?_⟩
    intro reply
    show idle _ = if isLeading (Lease.taken blame _) then 0 else n
    rw [idle_concat, idleAfter_change hmethod, hpast, isLeading_taken]

theorem obeys_clock {next : Timestamp → Talk (Except LeaseError Attempt)}
    (hpast : idle past = n) (hbound : n ≤ bound)
    (hnext : ∀ past' now, idle past' = n →
      Obeys (Within bound) (Counted n) past' (onWire (next now))) :
    Obeys (Within bound) (Counted n) past (onWire (.ask .clock next)) := by
  refine ⟨hpast.trans_le hbound, ?_⟩
  intro now
  exact hnext _ now (by rw [idle_concat, idleAfter_clock, hpast])

theorem obeys_contend (lease : Lease) (hpast : idle past = n) (hbound : n ≤ bound) :
    Obeys (Within bound) (Counted n) past (onWire (Lease.contend s lease)) := by
  refine obeys_clock hpast hbound ?_
  intro past' now hpast'
  split
  · exact hpast'
  · exact hpast'
  · split
    · split
      · exact hpast'
      · refine obeys_clock hpast' hbound ?_
        intro past'' now' hpast''
        exact (changes_change s _).obeys _ hpast'' hbound
    · exact hpast'

/-- What follows once the lease was read. -/
theorem obeys_afterGet (r : Except Api.Error Lease) (hpast : idle past = n) (hbound : n ≤ bound) :
    Obeys (Within bound) (Counted n) past (onWire (match r with
      | .ok lease =>
          match lease.holder with
          | none => .done (.error (.traverse "spec.holderIdentity"))
          | some holder => if holder = s.holder then Lease.renew s else Lease.contend s lease
      | .error (.api e) => if e.code = 404 then Lease.create s else .done (.error (.get e))
      | .error e => .done (.error (.api e)))) := by
  split
  · split
    · exact hpast
    · split
      · refine obeys_clock hpast hbound ?_
        intro past' now hpast'
        exact (changes_change s _).obeys _ hpast' hbound
      · exact obeys_contend _ hpast hbound
  · split
    · refine obeys_clock hpast hbound ?_
      intro past' now hpast'
      exact (changes_create _ _).obeys _ hpast' hbound
    · exact hpast
  · exact hpast

/-- An attempt takes no time, and starts the time again exactly if it makes this
replica the leader. -/
theorem obeys_attempt (hpast : idle past = n) (hbound : n ≤ bound) :
    Obeys (Within bound) (Counted n) past (onWire (Lease.attempt s)) := by
  unfold Lease.attempt
  cases hrequest : Api.objectRequest .get (Lease.collection s.namespaceName) s.leaseName "" ""
    none with
  | error e => exact obeys_afterGet (.error e) hpast hbound
  | ok q =>
    obtain ⟨-, target, -, rfl⟩ := Api.objectRequest_eq_ok_iff.1 hrequest
    refine ⟨hpast.trans_le hbound, ?_⟩
    intro reply
    refine obeys_afterGet (Api.judge Lease.decoder reply) ?_ hbound
    rw [idle_concat, idleAfter_get rfl, hpast]

end Attempts

/-! ## Rounds -/

section Rounds

variable {s : LeaderSettings} {bound n failures : Nat} {past : List (Exchange Duty.Reply)}

theorem obeys_logAll {α : Type} {ending : List (Exchange Duty.Reply) → α → Prop}
    {next : Vigil α} (events : List LogEvent) (hpast : idle past = n) (hbound : n ≤ bound)
    (hnext : ∀ past', idle past' = n → Obeys (Within bound) ending past' next) :
    Obeys (Within bound) ending past (logAll events >>= fun _ => next) := by
  induction events generalizing past with
  | nil => exact hnext past hpast
  | cons event events ih =>
    refine ⟨hpast.trans_le hbound, ?_⟩
    intro u
    exact ih (by rw [idle_concat, idleAfter_log, hpast])

/-- Before each round the time is at most one interval for each failure in a row, and
one more. -/
theorem obeys_renewRounds (rounds : Nat) (hfailures : failures < maxFailures)
    (hpast : idle past ≤ (failures + 1) * s.renewInterval.nanos) :
    Obeys (Within (maxFailures * s.renewInterval.nanos))
      (fun past _ => idle past ≤ maxFailures * s.renewInterval.nanos) past
      (renewRounds s rounds failures) := by
  have hmax : (failures + 1) * s.renewInterval.nanos ≤ maxFailures * s.renewInterval.nanos :=
    Nat.mul_le_mul_right _ hfailures
  induction rounds generalizing failures past with
  | zero => exact hpast.trans hmax
  | succ rounds ih =>
    have hbound := hpast.trans hmax
    rw [renewRounds]
    refine obeys_bind_iff.2 ?_
    refine (obeys_attempt rfl hbound).mono ?_
    intro past₁ result hcounted
    have hle : idle past₁ ≤ maxFailures * s.renewInterval.nanos := by
      rw [hcounted]
      split
      · exact Nat.zero_le _
      · exact hbound
    refine obeys_logAll _ rfl hle ?_
    intro past₂ hpast₂
    cases result with
    | ok attempt =>
      cases attempt with
      | leading holder =>
        have hzero : idle past₂ = 0 := hpast₂.trans hcounted
        refine ⟨hzero.trans_le (Nat.zero_le _), ?_⟩
        intro u
        refine ih (show 0 < maxFailures by decide) ?_ ?_
        · rw [idle_concat, idleAfter_wait, hzero]
          omega
        · exact Nat.mul_le_mul_right _ (by decide)
      | following => exact hpast₂.trans_le hle
    | error e =>
      have hsame : idle past₂ = idle past := hpast₂.trans hcounted
      simp only [Renewal.ofAttempt, afterRenewal]
      by_cases hmore : failures + 1 < maxFailures
      · rw [if_pos hmore]
        refine ⟨hpast₂.trans_le hle, ?_⟩
        intro u
        refine ih hmore ?_ (Nat.mul_le_mul_right _ hmore)
        rw [idle_concat, idleAfter_wait, hsame, Nat.succ_mul]
        omega
      · rw [if_neg hmore]
        exact hpast₂.trans_le hle

/-- Without an interval, nothing is renewed. -/
theorem keep_of_zero (h : s.renewInterval.nanos = 0) (rounds : Nat) :
    keep s rounds = .done .adrift := if_pos h

/-- While its lease is being renewed, a leader is never without a renewal for more than three
intervals. -/
theorem idle_le {rounds : Nat} {standing : Standing} {w before after : List (Exchange Duty.Reply)}
    (hw : (keep s rounds).Trace w standing) (hsplit : w = before ++ after) :
    idle before ≤ maxFailures * s.renewInterval.nanos := by
  have hobeys : Obeys (Within (maxFailures * s.renewInterval.nanos))
      (fun past _ => idle past ≤ maxFailures * s.renewInterval.nanos) [] (keep s rounds) := by
    unfold keep
    split
    · exact Nat.zero_le _
    · refine ⟨Nat.zero_le _, ?_⟩
      intro u
      exact obeys_renewRounds rounds (by decide) (Nat.zero_le _)
  cases after with
  | nil =>
    rw [List.append_nil] at hsplit
    subst hsplit
    exact hobeys.ending_of_trace hw
  | cons x after => exact hobeys.rule_of_trace hw hsplit

end Rounds

/-! ## A leader that stays -/

/-- The lease can be renewed: some answers make this replica the leader. -/
def CanRenew (s : LeaderSettings) : Prop :=
  ∃ w holder, (Lease.attempt s).Trace w (.ok (.leading holder))

section Stays

variable {s : LeaderSettings}

/-- An exchange on the wire, within an election. -/
def wired (x : Exchange Wire.Reply) : Exchange Duty.Reply := ⟨.wire x.1, x.2⟩

/-- A message that the log has taken. -/
def logged (event : LogEvent) : Exchange Duty.Reply := ⟨.log event, ()⟩

/-- A wait that is over. -/
def waited (span : Duration) : Exchange Duty.Reply := ⟨.wait span, ()⟩

theorem trace_onWire {α : Type} {t : Talk α} {w : List (Exchange Wire.Reply)} {a : α}
    (h : t.Trace w a) : (onWire t).Trace (w.map wired) a := by
  induction h with
  | done a => exact .done a
  | ask r _ ih => exact trace_ask_iff.2 ⟨r, _, rfl, ih⟩

theorem trace_logAll (events : List LogEvent) : (logAll events).Trace (events.map logged) () := by
  induction events with
  | nil => exact .done ()
  | cons event events ih => exact trace_ask_iff.2 ⟨(), _, rfl, ih⟩

theorem idle_append_logged (past : List (Exchange Duty.Reply)) (events : List LogEvent) :
    idle (past ++ events.map logged) = idle past := by
  induction events generalizing past with
  | nil => simp
  | cons event events ih =>
    have hone : idle (past ++ [logged event]) = idle past := idle_concat past (logged event)
    rw [List.map_cons, ← hone, ← ih (past ++ [logged event])]
    simp

theorem idle_append_waited (past : List (Exchange Duty.Reply)) (span : Duration) :
    idle (past ++ [waited span]) = idle past + span.nanos := idle_concat past (waited span)

/-- An attempt may fail. -/
theorem exists_attempt_error (s : LeaderSettings) :
    ∃ w e, (Lease.attempt s).Trace w (.error e) := by
  unfold Lease.attempt
  cases hrequest : Api.objectRequest .get (Lease.collection s.namespaceName) s.leaseName "" ""
    none with
  | error e =>
    obtain ⟨cause, rfl⟩ := Api.exists_cause_of_objectRequest hrequest
    exact ⟨[], .api (.buildRequest cause), .done _⟩
  | ok q => exact ⟨[⟨.api q, .dropped ""⟩], .api (.service ""), .ask _ (.done _)⟩

/-- A round that does not end the leader. -/
theorem exists_round {w : List (Exchange Wire.Reply)} {result : Except LeaseError Attempt}
    (hw : (Lease.attempt s).Trace w result) {failures failures' : Nat}
    (hafter : afterRenewal failures (.ofAttempt result) = .leading failures') :
    ∃ v, (∀ past, idle (past ++ v) =
        (if isLeading result then 0 else idle past) + s.renewInterval.nanos) ∧
      ∀ rounds w' standing, (renewRounds s rounds failures').Trace w' standing →
        (renewRounds s (rounds + 1) failures).Trace (v ++ w') standing := by
  refine ⟨w.map wired ++
    ((renewalEvents failures result).map logged ++ [waited s.renewInterval]), ?_, ?_⟩
  · intro past
    have hcounted := (obeys_attempt rfl (le_refl (idle past))).ending_of_trace (trace_onWire hw)
    rw [← List.append_assoc, ← List.append_assoc, idle_append_waited, idle_append_logged,
      hcounted]
  · intro rounds w' standing hrest
    rw [List.append_assoc, List.append_assoc]
    refine trace_bind_iff.2 ⟨result, _, _, trace_onWire hw, ?_, rfl⟩
    refine trace_bind_iff.2 ⟨(), _, _, trace_logAll _, ?_, rfl⟩
    rw [hafter]
    exact trace_ask_iff.2 ⟨(), w', rfl, hrest⟩

/-- Failures that do not end the leader. -/
theorem exists_failing (s : LeaderSettings) (k : Nat) {failures : Nat}
    (h : failures + k < maxFailures) :
    ∃ v, (∀ past, idle (past ++ v) = idle past + k * s.renewInterval.nanos) ∧
      (renewRounds s k failures).Trace v (.leading (failures + k)) := by
  induction k generalizing failures with
  | zero =>
    refine ⟨[], ?_, .done _⟩
    intro past
    simp
  | succ k ih =>
    obtain ⟨w, e, hw⟩ := exists_attempt_error s
    have hafter : afterRenewal failures (.ofAttempt (.error e)) = .leading (failures + 1) :=
      if_pos (by omega)
    obtain ⟨v, hv, hround⟩ := exists_round hw hafter
    obtain ⟨v', hv', hrest⟩ := ih (show failures + 1 + k < maxFailures by omega)
    refine ⟨v ++ v', ?_, ?_⟩
    · intro past
      rw [← List.append_assoc, hv', hv, Nat.succ_mul]
      simp only [isLeading, Bool.false_eq_true, if_false]
      omega
    · rw [show failures + (k + 1) = failures + 1 + k by omega]
      exact hround k v' _ hrest

/-- A leader stays after one renewal and fewer failures than end it. -/
theorem exists_idle (h : CanRenew s) (hinterval : 0 < s.renewInterval.nanos) {k : Nat}
    (hk : k < maxFailures) :
    ∃ w, (keep s (k + 1)).Trace w (.leading k) ∧ idle w = (k + 1) * s.renewInterval.nanos := by
  obtain ⟨w, holder, hw⟩ := h
  obtain ⟨v, hv, hround⟩ := exists_round hw (show afterRenewal 0 _ = .leading 0 from rfl)
  obtain ⟨v', hv', hrest⟩ := exists_failing s k (show 0 + k < maxFailures by omega)
  rw [Nat.zero_add] at hrest
  rw [keep, if_neg hinterval.ne']
  refine ⟨_, trace_ask_iff.2 ⟨(), v ++ v', rfl, hround k v' _ hrest⟩, ?_⟩
  rw [← List.singleton_append, ← List.append_assoc, hv', hv, Nat.succ_mul]
  simp only [isLeading, if_true]
  omega

end Stays

/-- A time that a running leader may have been without a renewal. -/
inductive IdleFor (s : LeaderSettings) : Nat → Prop
  /-- At some moment while its lease is being renewed. -/
  | renewing {rounds : Nat} {standing : Standing} {w before after : List (Exchange Duty.Reply)}
      (hw : (keep s rounds).Trace w standing) (hsplit : w = before ++ after) :
      IdleFor s (idle before)
  /-- At any later moment once nobody renews it. -/
  | adrift {rounds : Nat} {w : List (Exchange Duty.Reply)} (hw : (keep s rounds).Trace w .adrift)
      (nanos : Nat) : IdleFor s (idle w + nanos)

/-- The time since the last renewal never exceeds a bound, in no run of a leader. -/
def IdleAtMost (s : LeaderSettings) (bound : Nat) : Prop := ∀ n, IdleFor s n → n ≤ bound

section Bounds

variable {s : LeaderSettings}

theorem afterRenewal_ne_adrift (failures : Nat) (r : Renewal) :
    afterRenewal failures r ≠ .adrift := by
  unfold afterRenewal
  cases r with
  | renewed | heldByAnother => exact nofun
  | failed =>
    dsimp only
    split <;> exact nofun

/-- Who renews goes on renewing, or ends. -/
theorem renewRounds_ne_adrift {rounds failures : Nat} {w : List (Exchange Duty.Reply)} :
    ¬ (renewRounds s rounds failures).Trace w .adrift := by
  induction rounds generalizing failures w with
  | zero =>
    intro h
    cases (Program.trace_done_iff.1 h).2
  | succ rounds ih =>
    intro h
    obtain ⟨result, _, _, -, hlog, rfl⟩ := trace_bind_iff.1 h
    obtain ⟨_, _, _, -, hafter, rfl⟩ := trace_bind_iff.1 hlog
    cases hstanding : afterRenewal failures (.ofAttempt result) with
    | leading failures' =>
      rw [hstanding] at hafter
      obtain ⟨_, _, rfl, hrest⟩ := trace_ask_iff.1 hafter
      exact ih hrest
    | ended =>
      rw [hstanding] at hafter
      cases (Program.trace_done_iff.1 hafter).2
    | adrift => exact afterRenewal_ne_adrift _ _ hstanding

/-- With an interval, three of them bound the time. -/
theorem idleAtMost_of_pos (h : 0 < s.renewInterval.nanos) :
    IdleAtMost s (maxFailures * s.renewInterval.nanos) := by
  intro n hn
  cases hn with
  | renewing hw hsplit => exact idle_le hw hsplit
  | adrift hw nanos =>
    rw [keep, if_neg h.ne'] at hw
    obtain ⟨_, _, rfl, hrounds⟩ := trace_ask_iff.1 hw
    exact absurd hrounds renewRounds_ne_adrift

/-- Without one, nothing does. -/
theorem not_idleAtMost_of_zero (h : s.renewInterval.nanos = 0) (bound : Nat) :
    ¬ IdleAtMost s bound := by
  intro hbound
  have hw : (keep s 0).Trace [] .adrift := by
    rw [keep_of_zero h]
    exact .done _
  have hlong : 0 + (bound + 1) ≤ bound := hbound _ (.adrift hw (bound + 1))
  omega

end Bounds

/-- A leader goes for three intervals without a renewal, and no longer, but for ever if the
interval is zero.  It keeps within its lease exactly if there is an interval and the lease
lasts for three. -/
theorem idle_le_lease_iff (s : LeaderSettings) :
    (0 < s.renewInterval.nanos → IdleAtMost s (maxFailures * s.renewInterval.nanos)) ∧
      (s.renewInterval.nanos = 0 → ∀ bound, ¬ IdleAtMost s bound) ∧
      (CanRenew s → (IdleAtMost s s.leaseDuration.nanos ↔ 0 < s.renewInterval.nanos ∧
        maxFailures * s.renewInterval.nanos ≤ s.leaseDuration.nanos)) := by
  refine ⟨idleAtMost_of_pos, not_idleAtMost_of_zero, ?_⟩
  intro hcan
  constructor
  · intro hwithin
    have hinterval : 0 < s.renewInterval.nanos :=
      Nat.pos_of_ne_zero fun hzero => not_idleAtMost_of_zero hzero _ hwithin
    obtain ⟨w, hw, hidle⟩ := exists_idle hcan hinterval (show 2 < maxFailures by decide)
    refine ⟨hinterval, ?_⟩
    rw [show maxFailures = 2 + 1 from rfl, ← hidle]
    exact hwithin _ (.renewing hw (List.append_nil w).symm)
  · rintro ⟨hinterval, hlease⟩ n hn
    exact (idleAtMost_of_pos hinterval n hn).trans hlease

/-- A server that knows no lease, and confirms every change. -/
def confirmAll : (q : Wire) → q.Reply
  | .api q =>
      if q.method = .get then .answer 404 (.ofString "")
      else .answer 201 (.ofString "\x7b\x7d")
  | .cluster _ => none
  | .clock => ⟨0, 0⟩

theorem canRenew_of_confirmAll {s : LeaderSettings} (holder : Option String)
    (h : ((Lease.attempt s).transcript confirmAll).2 = .ok (.leading holder)) : CanRenew s :=
  ⟨_, holder, h ▸ Program.trace_transcript confirmAll (Lease.attempt s)⟩

/-- A lease of 15 s that is renewed every 5 s is just long enough, and no lease is that is
never renewed. -/
theorem idle_le_lease_of_defaults :
    let s : LeaderSettings := ⟨"7b7a467c.debezium", "operators", "debezium-operator-0",
      .ofSeconds 15, .ofSeconds 5, by decide, by decide, by decide, by decide⟩
    CanRenew s ∧ IdleAtMost s (3 * (Duration.ofSeconds 5).nanos) ∧
      IdleAtMost s s.leaseDuration.nanos ∧
      ∃ s', LeaderSettings.make "lease" "operators" "replica" (.ofSeconds 10) (.ofSeconds 0) =
        .ok s' ∧ ∀ bound, ¬ IdleAtMost s' bound := by
  intro s
  have hcan : CanRenew s := canRenew_of_confirmAll none (by cbv)
  obtain ⟨hpos, -, hiff⟩ := idle_le_lease_iff s
  let s' : LeaderSettings := ⟨"lease", "operators", "replica", .ofSeconds 10, .ofSeconds 0,
    by decide, by decide, by decide, by decide⟩
  exact ⟨hcan, hpos (by decide), (hiff hcan).2 (by decide), s', rfl,
    (idle_le_lease_iff s').2.1 (by decide)⟩

/-- With a lease of 10 s that is renewed every 9 s, one failure leaves a leader
without a renewal for 18 s. -/
theorem leader_outlives_lease :
    ∃ s, LeaderSettings.make "lease" "operators" "replica" (.ofSeconds 10) (.ofSeconds 9) = .ok s ∧
      ∃ w, (keep s 2).Trace w (.leading 1) ∧ s.leaseDuration.nanos < idle w := by
  let s : LeaderSettings := ⟨"lease", "operators", "replica", .ofSeconds 10, .ofSeconds 9,
    by decide, by decide, by decide, by decide⟩
  have hcan : CanRenew s := canRenew_of_confirmAll none (by cbv)
  obtain ⟨w, hw, hidle⟩ := exists_idle hcan (by decide) (k := 1) (by decide)
  refine ⟨s, rfl, w, hw, ?_⟩
  rw [hidle]
  decide

end Leader

end ConnectorKeeper
