import ConnectorKeeper.Proofs.LeaseIdle

/-!
# When a leader ends

A leader tries to renew its lease round by round, and what the attempts come to is a sequence of
renewals.  Its count of failures is the length of the run of failures at the end of that sequence
(`Leader.standing_of_forall_not`), so it ends at the first position where leadership is in doubt:
another replica holds the lease, or this is the third failure in a row (`Leader.DoubtAt`).

That is a statement about sequences.  It is one about leaders since a run of `Leader.keep` is made
of rounds (`Leader.trace_keep_iff`): each exchanges what an attempt at the lease exchanges, then
the messages for the log, and once a round has ended the leader nothing more is exchanged.  Where
the interval is zero there are no rounds and nothing ends the leader.
-/

namespace ConnectorKeeper

namespace Leader

open Program (Exchange trace_bind_iff trace_ask_iff trace_done_iff)

/-! ## Sequences of renewals -/

theorem afterRenewals_ended (results : List Renewal) : afterRenewals .ended results = .ended := by
  cases results <;> rfl

theorem afterRenewals_adrift (results : List Renewal) :
    afterRenewals .adrift results = .adrift := by
  cases results <;> rfl

theorem afterRenewals_append (st : Standing) (results more : List Renewal) :
    afterRenewals st (results ++ more) = afterRenewals (afterRenewals st results) more := by
  induction results generalizing st with
  | nil => rw [List.nil_append, afterRenewals]
  | cons r results ih =>
    cases st with
    | ended => rw [afterRenewals_ended, afterRenewals_ended, afterRenewals_ended]
    | adrift => rw [afterRenewals_adrift, afterRenewals_adrift, afterRenewals_adrift]
    | leading failures => exact ih _

section Sequence

variable (results : ℕ → Renewal)

/-- The first renewals of a sequence. -/
def firsts (n : ℕ) : List Renewal := (List.range n).map results

/-- A leader after the first renewals of a sequence. -/
def standing (n : ℕ) : Standing := afterRenewals (.leading 0) (firsts results n)

/-- The number of failures at the end of the first renewals. -/
def failing (n : ℕ) : ℕ := ((firsts results n).rtakeWhile (· = .failed)).length

/-- Leadership is in doubt: another replica holds the lease, or this is the third of three failures
in a row. -/
def DoubtAt (i : ℕ) : Prop :=
  results i = .heldByAnother ∨
    ∃ k, i = k + 2 ∧ results k = .failed ∧ results (k + 1) = .failed ∧ results (k + 2) = .failed

variable {results} {i n : ℕ}

theorem firsts_succ (results : ℕ → Renewal) (n : ℕ) :
    firsts results (n + 1) = firsts results n ++ [results n] := by
  rw [firsts, List.range_succ, List.map_append]
  rfl

theorem standing_succ (results : ℕ → Renewal) (n : ℕ) :
    standing results (n + 1) = afterRenewals (standing results n) [results n] := by
  rw [standing, firsts_succ, afterRenewals_append]
  rfl

theorem standing_succ_of_leading {failures : ℕ} (h : standing results n = .leading failures) :
    standing results (n + 1) = afterRenewal failures (results n) := by
  rw [standing_succ, h, afterRenewals, afterRenewals]

/-- A leader that has ended stays so. -/
theorem standing_of_le (h : standing results i = .ended) (hle : i ≤ n) :
    standing results n = .ended := by
  induction n, hle using Nat.le_induction with
  | base => exact h
  | succ n _ ih => rw [standing_succ, ih, afterRenewals_ended]

theorem failing_succ_of_eq (h : results n = .failed) :
    failing results (n + 1) = failing results n + 1 := by
  rw [failing, firsts_succ, List.rtakeWhile_concat_pos _ _ _ (by simpa using h),
    List.length_append]
  rfl

theorem failing_succ_of_ne (h : results n ≠ .failed) : failing results (n + 1) = 0 := by
  rw [failing, firsts_succ, List.rtakeWhile_concat_neg _ _ _ (by simpa using h)]
  rfl

theorem two_le_failing_iff :
    2 ≤ failing results n ↔
      ∃ k, n = k + 2 ∧ results k = .failed ∧ results (k + 1) = .failed := by
  cases n with
  | zero => simp [failing, firsts]
  | succ n =>
    by_cases hlast : results n = .failed
    · rw [failing_succ_of_eq hlast]
      cases n with
      | zero => simp [failing, firsts]
      | succ k =>
        by_cases hbefore : results k = .failed
        · rw [failing_succ_of_eq hbefore]
          simp [hlast, hbefore]
        · rw [failing_succ_of_ne hbefore]
          simp [hbefore]
    · rw [failing_succ_of_ne hlast]
      constructor
      · omega
      · rintro ⟨k, hk, -, h⟩
        obtain rfl : n = k + 1 := by omega
        exact absurd h hlast

/-- Whether a failure is the third in a row shows in the failures before it. -/
theorem doubtAt_iff : DoubtAt results n ↔
    results n = .heldByAnother ∨ results n = .failed ∧ 2 ≤ failing results n := by
  rw [two_le_failing_iff, DoubtAt]
  refine or_congr_right ⟨?_, ?_⟩
  · rintro ⟨k, rfl, hfirst, hsecond, hthird⟩
    exact ⟨hthird, k, rfl, hfirst, hsecond⟩
  · rintro ⟨hthird, k, rfl, hfirst, hsecond⟩
    exact ⟨k, rfl, hfirst, hsecond, hthird⟩

/-- One renewal of a leader whose count is right: it ends in doubt, or the count is right again. -/
theorem afterRenewal_failing (results : ℕ → Renewal) (n : ℕ) :
    (DoubtAt results n ∧ afterRenewal (failing results n) (results n) = .ended) ∨
      (¬ DoubtAt results n ∧ failing results (n + 1) < maxFailures ∧
        afterRenewal (failing results n) (results n) = .leading (failing results (n + 1))) := by
  rw [doubtAt_iff]
  cases hresult : results n with
  | renewed =>
    right
    rw [failing_succ_of_ne (by simp [hresult])]
    exact ⟨by simp, by decide, rfl⟩
  | heldByAnother => exact .inl ⟨.inl rfl, rfl⟩
  | failed =>
    rw [failing_succ_of_eq hresult]
    by_cases hmore : failing results n + 1 < maxFailures
    · right
      have hfew : ¬ 2 ≤ failing results n := by
        rw [maxFailures] at hmore
        omega
      exact ⟨by simp [hfew], hmore, if_pos hmore⟩
    · left
      have hmany : 2 ≤ failing results n := by
        rw [maxFailures] at hmore
        omega
      exact ⟨.inr ⟨rfl, hmany⟩, if_neg hmore⟩

/-- A leader that was never in doubt leads, and counts the failures at the end. -/
theorem standing_of_forall_not (h : ∀ i < n, ¬ DoubtAt results i) :
    standing results n = .leading (failing results n) ∧ failing results n < maxFailures := by
  induction n with
  | zero => exact ⟨rfl, Nat.zero_lt_succ _⟩
  | succ n ih =>
    have hleading := (ih fun i hi => h i (hi.trans (Nat.lt_succ_self n))).1
    obtain ⟨hdoubt, -⟩ | ⟨-, hfew, hafter⟩ := afterRenewal_failing results n
    · exact absurd hdoubt (h n (Nat.lt_succ_self n))
    · rw [standing_succ_of_leading hleading]
      exact ⟨hafter, hfew⟩

/-- A leader ends in doubt, if it has not ended before. -/
theorem standing_succ_of_doubtAt (h : DoubtAt results i) : standing results (i + 1) = .ended := by
  induction i using Nat.strong_induction_on with
  | _ i ih =>
    by_cases hbefore : ∃ j < i, DoubtAt results j
    · obtain ⟨j, hj, hdoubt⟩ := hbefore
      exact standing_of_le (ih j hj hdoubt) (by omega)
    · have hleading := (standing_of_forall_not fun j hj hdoubt => hbefore ⟨j, hj, hdoubt⟩).1
      obtain ⟨-, hafter⟩ | ⟨hnot, -⟩ := afterRenewal_failing results i
      · rw [standing_succ_of_leading hleading, hafter]
      · exact absurd h hnot

theorem standing_eq_ended_iff : standing results n = .ended ↔ ∃ i < n, DoubtAt results i := by
  constructor
  · intro hended
    by_contra hnone
    have hleading := (standing_of_forall_not fun i hi hdoubt => hnone ⟨i, hi, hdoubt⟩).1
    rw [hleading] at hended
    cases hended
  · rintro ⟨i, hi, hdoubt⟩
    exact standing_of_le (standing_succ_of_doubtAt hdoubt) hi

theorem standing_eq_leading_iff {failures : ℕ} : standing results n = .leading failures ↔
    (∀ i < n, ¬ DoubtAt results i) ∧ failures = failing results n := by
  constructor
  · intro hleading
    have hnone : ∀ i < n, ¬ DoubtAt results i := by
      intro i hi hdoubt
      rw [standing_eq_ended_iff.2 ⟨i, hi, hdoubt⟩] at hleading
      cases hleading
    rw [(standing_of_forall_not hnone).1, Standing.leading.injEq] at hleading
    exact ⟨hnone, hleading.symm⟩
  · rintro ⟨hnone, rfl⟩
    exact (standing_of_forall_not hnone).1

/-- Failures are survived if two in a row are always followed by a renewal. -/
theorem not_doubtAt (hours : ∀ i, results i ≠ .heldByAnother)
    (hpairs : ∀ i, results i = .failed → results (i + 1) = .failed →
      results (i + 2) = .renewed) (i : ℕ) : ¬ DoubtAt results i := by
  rintro (hother | ⟨k, -, hfirst, hsecond, hthird⟩)
  · exact hours i hother
  · rw [hpairs k hfirst hsecond] at hthird
    cases hthird

end Sequence

/-! ## Rounds -/

section Wire

variable {α : Type} {w : List (Exchange Duty.Reply)}

theorem trace_onWire_iff {t : Talk α} {a : α} :
    (onWire t).Trace w a ↔ ∃ v, t.Trace v a ∧ w = v.map wired := by
  constructor
  · intro h
    induction t generalizing w with
    | done b =>
      obtain ⟨rfl, rfl⟩ := trace_done_iff.1 h
      exact ⟨[], .done _, rfl⟩
    | ask q next ih =>
      obtain ⟨r, w, rfl, hrest⟩ := trace_ask_iff.1 h
      obtain ⟨v, hv, rfl⟩ := ih r hrest
      exact ⟨⟨q, r⟩ :: v, trace_ask_iff.2 ⟨r, v, rfl, hv⟩, rfl⟩
  · rintro ⟨v, hv, rfl⟩
    exact trace_onWire hv

theorem trace_logAll_iff {events : List LogEvent} {u : Unit} :
    (logAll events).Trace w u ↔ w = events.map logged := by
  constructor
  · intro h
    induction events generalizing w with
    | nil => exact (trace_done_iff.1 h).1
    | cons event events ih =>
      obtain ⟨_, w, rfl, hrest⟩ := trace_ask_iff.1 h
      rw [ih hrest]
      rfl
  · rintro rfl
    exact trace_logAll events

end Wire

/-- An attempt at the lease with what it exchanges. -/
structure Round (s : LeaderSettings) where
  /-- What it comes to. -/
  result : Except LeaseError Attempt
  /-- What it exchanges. -/
  talk : List (Exchange Wire.Reply)
  /-- This is what an attempt may exchange before it comes to that. -/
  attempted : (Lease.attempt s).Trace talk result

namespace Round

variable {s : LeaderSettings}

/-- The renewal that a round is. -/
def renewal (r : Round s) : Renewal := .ofAttempt r.result

/-- What is exchanged in a round after so many failures in a row: the attempt, then what the log
says of it. -/
def exchanges (r : Round s) (failures : Nat) : List (Exchange Duty.Reply) :=
  r.talk.map wired ++ (renewalEvents failures r.result).map logged

instance : Nonempty (Round s) := by
  obtain ⟨talk, e, h⟩ := exists_attempt_error s
  exact ⟨⟨.error e, talk, h⟩⟩

/-- The round of an attempt whose questions are always answered alike. -/
def ofAnswers (s : LeaderSettings) (answer : (q : Wire) → q.Reply) : Round s :=
  ⟨_, _, Program.trace_transcript answer (Lease.attempt s)⟩

end Round

/-- What a leader exchanges in its rounds.  It waits after each round that does not end it, and
after one that does it exchanges nothing. -/
def roundsExchanges {s : LeaderSettings} : Standing → List (Round s) → List (Exchange Duty.Reply)
  | .leading failures, r :: rest =>
      let after := afterRenewal failures r.renewal
      let pause := if after = .ended then [] else [waited s.renewInterval]
      r.exchanges failures ++ (pause ++ roundsExchanges after rest)
  | _, _ => []

/-- What follows a round. -/
def afterRound (s : LeaderSettings) (rounds : Nat) : Standing → Vigil Standing
  | .leading failures => .ask (.wait s.renewInterval) fun _ => renewRounds s rounds failures
  | last => .done last

section Rounds

variable {s : LeaderSettings} {rounds failures : Nat} {st : Standing}
  {w : List (Exchange Duty.Reply)}

@[simp] theorem roundsExchanges_ended (rs : List (Round s)) :
    roundsExchanges .ended rs = [] := by
  cases rs <;> rfl

@[simp] theorem roundsExchanges_adrift (rs : List (Round s)) :
    roundsExchanges .adrift rs = [] := by
  cases rs <;> rfl

@[simp] theorem afterRound_ended : afterRound s rounds .ended = .done .ended := rfl

theorem renewRounds_succ : renewRounds s (rounds + 1) failures =
    onWire (Lease.attempt s) >>= fun result => logAll (renewalEvents failures result) >>= fun _ =>
      afterRound s rounds (afterRenewal failures (.ofAttempt result)) := rfl

theorem trace_renewRounds_succ_iff :
    (renewRounds s (rounds + 1) failures).Trace w st ↔ ∃ (r : Round s) (w' : _),
      (afterRound s rounds (afterRenewal failures r.renewal)).Trace w' st ∧
        w = r.exchanges failures ++ w' := by
  rw [renewRounds_succ]
  constructor
  · intro h
    obtain ⟨result, _, w, hattempt, hrest, rfl⟩ := trace_bind_iff.1 h
    obtain ⟨talk, htalk, rfl⟩ := trace_onWire_iff.1 hattempt
    obtain ⟨_, _, w', hlog, hafter, rfl⟩ := trace_bind_iff.1 hrest
    obtain rfl := trace_logAll_iff.1 hlog
    exact ⟨⟨result, talk, htalk⟩, w', hafter, (List.append_assoc ..).symm⟩
  · rintro ⟨r, w', hafter, rfl⟩
    refine trace_bind_iff.2 ⟨r.result, _, _, trace_onWire r.attempted, ?_, List.append_assoc ..⟩
    exact trace_bind_iff.2 ⟨(), _, _, trace_logAll _, hafter, rfl⟩

/-- The rounds of a leader are attempts, and it stands as their results say. -/
theorem trace_renewRounds_iff :
    (renewRounds s rounds failures).Trace w st ↔ ∃ rs : List (Round s), rs.length = rounds ∧
      w = roundsExchanges (.leading failures) rs ∧
        st = afterRenewals (.leading failures) (rs.map Round.renewal) := by
  induction rounds generalizing failures w st with
  | zero =>
    rw [renewRounds, trace_done_iff]
    constructor
    · rintro ⟨rfl, rfl⟩
      exact ⟨[], rfl, rfl, rfl⟩
    · rintro ⟨rs, hrs, rfl, rfl⟩
      obtain rfl := List.length_eq_zero_iff.1 hrs
      exact ⟨rfl, rfl⟩
  | succ rounds ih =>
    rw [trace_renewRounds_succ_iff]
    constructor
    · rintro ⟨r, w', hafter, rfl⟩
      cases hst : afterRenewal failures r.renewal with
      | ended =>
        rw [hst, afterRound_ended, trace_done_iff] at hafter
        obtain ⟨rfl, rfl⟩ := hafter
        -- the rounds that it does not come to any more
        obtain ⟨other⟩ := (inferInstance : Nonempty (Round s))
        refine ⟨r :: List.replicate rounds other, by simp, ?_, ?_⟩
        · simp [roundsExchanges, hst]
        · simp [afterRenewals, hst, afterRenewals_ended]
      | adrift => exact absurd hst (afterRenewal_ne_adrift _ _)
      | leading failures' =>
        rw [hst, afterRound, trace_ask_iff] at hafter
        obtain ⟨_, w', rfl, hrest⟩ := hafter
        obtain ⟨rs, rfl, rfl, rfl⟩ := ih.1 hrest
        refine ⟨r :: rs, rfl, ?_, ?_⟩
        · simp only [roundsExchanges, hst, reduceCtorEq, if_false, List.singleton_append]
          rfl
        · simp [afterRenewals, hst]
    · rintro ⟨rs, hrs, rfl, rfl⟩
      obtain ⟨r, rs, rfl⟩ := List.exists_cons_of_length_eq_add_one hrs
      refine ⟨r, _, ?_, rfl⟩
      rw [List.map_cons, afterRenewals]
      cases hst : afterRenewal failures r.renewal with
      | ended => simp [afterRenewals_ended]
      | adrift => exact absurd hst (afterRenewal_ne_adrift _ _)
      | leading failures' =>
        have hrest : (renewRounds s rounds failures').Trace _ _ :=
          ih.2 ⟨rs, by simpa using hrs, rfl, rfl⟩
        exact trace_ask_iff.2 ⟨(), _, rfl, hrest⟩

/-- A leader that has ended exchanges nothing more. -/
theorem roundsExchanges_append (st : Standing) (rs more : List (Round s)) :
    roundsExchanges st (rs ++ more) =
      roundsExchanges st rs ++ roundsExchanges (afterRenewals st (rs.map Round.renewal)) more := by
  induction rs generalizing st with
  | nil => cases st <;> simp [afterRenewals, roundsExchanges]
  | cons r rs ih =>
    cases st with
    | ended => simp [afterRenewals_ended]
    | adrift => simp [afterRenewals_adrift]
    | leading failures => simp [roundsExchanges, ih, afterRenewals]

end Rounds

/-! ## Runs -/

/-- What the log says when a leader begins. -/
def startEvent (s : LeaderSettings) : LogEvent :=
  ⟨.info, "Starting lease renewal loop", [("interval_secs", toString s.renewInterval.seconds),
    ("max_failures", toString maxFailures)]⟩

section Runs

variable {s : LeaderSettings}

/-- The renewals that rounds are. -/
def renewals (rs : ℕ → Round s) (i : ℕ) : Renewal := (rs i).renewal

theorem map_renewal_range (rs : ℕ → Round s) (n : ℕ) :
    ((List.range n).map rs).map Round.renewal = firsts (renewals rs) n := List.map_map

/-- A list is the beginning of a sequence. -/
theorem exists_range_map_eq {α : Type} [Nonempty α] (l : List α) :
    ∃ f : ℕ → α, (List.range l.length).map f = l := by
  obtain ⟨other⟩ := ‹Nonempty α›
  refine ⟨fun i => l.getD i other, List.ext_getElem (by simp) ?_⟩
  intro i hi hi'
  simp [hi']

/-- Without an interval, a leader exchanges nothing and goes on. -/
theorem trace_keep_zero_iff (h : s.renewInterval.nanos = 0) {rounds : Nat}
    {w : List (Exchange Duty.Reply)} {st : Standing} :
    (keep s rounds).Trace w st ↔ w = [] ∧ st = .adrift := by
  rw [keep_of_zero h, trace_done_iff]

/-- The runs of a leader are those of sequences of rounds. -/
theorem trace_keep_iff (hinterval : 0 < s.renewInterval.nanos) {rounds : Nat}
    {w : List (Exchange Duty.Reply)} {st : Standing} :
    (keep s rounds).Trace w st ↔ ∃ rs : ℕ → Round s,
      w = logged (startEvent s) :: roundsExchanges (.leading 0) ((List.range rounds).map rs) ∧
        st = standing (renewals rs) rounds := by
  rw [keep, if_neg hinterval.ne']
  constructor
  · intro h
    obtain ⟨_, w, rfl, hrounds⟩ := trace_ask_iff.1 h
    obtain ⟨rs, rfl, rfl, rfl⟩ := trace_renewRounds_iff.1 hrounds
    obtain ⟨f, hf⟩ := exists_range_map_eq rs
    refine ⟨f, ?_, ?_⟩
    · rw [hf]
      rfl
    · rw [standing, ← map_renewal_range, hf]
  · rintro ⟨rs, rfl, rfl⟩
    refine trace_ask_iff.2 ⟨(), _, rfl, trace_renewRounds_iff.2 ⟨_, by simp, rfl, ?_⟩⟩
    rw [map_renewal_range, standing]

/-- The rounds after the one that ended a leader do not take place. -/
theorem roundsExchanges_of_doubtAt {rs : ℕ → Round s} {i n : ℕ} (h : DoubtAt (renewals rs) i)
    (hlt : i < n) : roundsExchanges (.leading 0) ((List.range n).map rs) =
      roundsExchanges (.leading 0) ((List.range (i + 1)).map rs) := by
  have hsplit : List.range n = List.range (i + 1) ++ (List.range n).drop (i + 1) := by
    rw [← List.take_append_drop (i + 1) (List.range n), List.take_range, Nat.min_eq_left hlt]
    simp
  have hended : afterRenewals (.leading 0) (firsts (renewals rs) (i + 1)) = .ended :=
    standing_succ_of_doubtAt h
  rw [hsplit, List.map_append, roundsExchanges_append, map_renewal_range, hended,
    roundsExchanges_ended, List.append_nil]

end Runs

/-- A leader over a sequence of renewals. -/
structure Watched (results : ℕ → Renewal) : Prop where
  /-- It ends with the first renewal that leaves leadership in doubt, and with no other. -/
  ends : ∀ i, (standing results i ≠ .ended ∧ standing results (i + 1) = .ended) ↔
    DoubtAt results i ∧ ∀ j < i, ¬ DoubtAt results j
  /-- As long as it leads, it counts the failures at the end. -/
  leads : ∀ n failures, standing results n = .leading failures ↔
    (∀ i < n, ¬ DoubtAt results i) ∧ failures = failing results n
  /-- It does not count as many as end it. -/
  count_lt : ∀ n failures, standing results n = .leading failures → failures < maxFailures
  /-- It counts anew after the lease was renewed. -/
  restarts : ∀ n, standing results n ≠ .ended → results n = .renewed →
    standing results (n + 1) = .leading 0
  /-- It never ends if the lease stays its own and two failures in a row are always followed by
  a renewal. -/
  survives : (∀ i, results i ≠ .heldByAnother) →
    (∀ i, results i = .failed → results (i + 1) = .failed → results (i + 2) = .renewed) →
    ∀ n, ∃ failures, standing results n = .leading failures

theorem exists_leading {results : ℕ → Renewal} {n : ℕ} (h : standing results n ≠ .ended) :
    ∃ failures, standing results n = .leading failures := by
  have hnone : ∀ i < n, ¬ DoubtAt results i :=
    fun i hi hdoubt => h (standing_eq_ended_iff.2 ⟨i, hi, hdoubt⟩)
  exact ⟨_, (standing_of_forall_not hnone).1⟩

theorem watched (results : ℕ → Renewal) : Watched results where
  ends i := by
    constructor
    · rintro ⟨hleads, hended⟩
      have hnone : ∀ j < i, ¬ DoubtAt results j :=
        fun j hj hdoubt => hleads (standing_eq_ended_iff.2 ⟨j, hj, hdoubt⟩)
      obtain ⟨j, hj, hdoubt⟩ := standing_eq_ended_iff.1 hended
      obtain hlt | rfl := Nat.lt_succ_iff_lt_or_eq.1 hj
      · exact absurd hdoubt (hnone j hlt)
      · exact ⟨hdoubt, hnone⟩
    · rintro ⟨hdoubt, hnone⟩
      refine ⟨fun hended => ?_, standing_succ_of_doubtAt hdoubt⟩
      obtain ⟨j, hj, hdoubt⟩ := standing_eq_ended_iff.1 hended
      exact hnone j hj hdoubt
  leads _ _ := standing_eq_leading_iff
  count_lt n failures h := by
    obtain ⟨hnone, rfl⟩ := standing_eq_leading_iff.1 h
    exact (standing_of_forall_not hnone).2
  restarts n h hrenewed := by
    obtain ⟨failures, hleading⟩ := exists_leading h
    rw [standing_succ_of_leading hleading, hrenewed, afterRenewal]
  survives hours hpairs n :=
    ⟨_, (standing_of_forall_not fun i _ => not_doubtAt hours hpairs i).1⟩

/-- The runs of a leader are made of rounds.  Whatever these come to, it ends with the first one
that leaves leadership in doubt and exchanges nothing after it, and until then it counts the
failures at the end.  With an interval of zero it has no rounds, and does not end. -/
theorem ends_at_first_doubt (s : LeaderSettings) :
    (0 < s.renewInterval.nanos → ∀ rounds w st, (keep s rounds).Trace w st ↔ ∃ rs : ℕ → Round s,
      w = logged (startEvent s) :: roundsExchanges (.leading 0) ((List.range rounds).map rs) ∧
        st = standing (renewals rs) rounds) ∧
    (s.renewInterval.nanos = 0 → ∀ rounds w st, (keep s rounds).Trace w st ↔
      w = [] ∧ st = .adrift) ∧
    (∀ (rs : ℕ → Round s) (i n : ℕ), DoubtAt (renewals rs) i → i < n →
      roundsExchanges (.leading 0) ((List.range n).map rs) =
        roundsExchanges (.leading 0) ((List.range (i + 1)).map rs)) ∧
    ∀ results : ℕ → Renewal, Watched results :=
  ⟨fun hinterval _ _ _ => trace_keep_iff hinterval, fun hzero _ _ _ => trace_keep_zero_iff hzero,
    fun _ _ _ => roundsExchanges_of_doubtAt, watched⟩

/-- Servers that do not answer. -/
def silence : (q : Wire) → q.Reply
  | .api _ => .dropped ""
  | .cluster _ => none
  | .clock => ⟨0, 0⟩

/-- A leader survives two failures after every renewal for ever.  With one renewal only, after two
failures, it counts anew and ends three rounds later, at the sixth of nine. -/
theorem ends_at_first_doubt_sixth :
    let s : LeaderSettings := ⟨"7b7a467c.debezium", "operators", "debezium-operator-0",
      .ofSeconds 15, .ofSeconds 5, by decide, by decide, by decide, by decide⟩
    let ours : Round s := .ofAnswers s confirmAll
    let lost : Round s := .ofAnswers s silence
    let often (i : ℕ) : Round s := if i % 3 = 2 then ours else lost
    let once (i : ℕ) : Round s := if i = 2 then ours else lost
    (∀ n, ∃ failures, standing (renewals often) n = .leading failures) ∧
      DoubtAt (renewals once) 5 ∧ standing (renewals once) 3 = .leading 0 ∧
      standing (renewals once) 5 = .leading 2 ∧
      (keep s 9).Trace
        (logged (startEvent s) :: roundsExchanges (.leading 0) ((List.range 6).map once))
        .ended := by
  intro s ours lost often once
  have hours : ours.renewal = .renewed := by decide +kernel
  have hlost : lost.renewal = .failed := by decide +kernel
  have honce : renewals once = fun i => if i = 2 then .renewed else .failed := by
    funext i
    simp only [renewals, once, apply_ite Round.renewal, hours, hlost]
  have hoften : renewals often = fun i => if i % 3 = 2 then .renewed else .failed := by
    funext i
    simp only [renewals, often, apply_ite Round.renewal, hours, hlost]
  obtain ⟨hruns, -, hover, hwatched⟩ := ends_at_first_doubt s
  have hdoubt : DoubtAt (renewals once) 5 := .inr ⟨3, rfl, by simp [honce]⟩
  have hbefore : ∀ j < 5, ¬ DoubtAt (renewals once) j := by
    rintro j hj (hother | ⟨k, rfl, hfirst, hsecond, hthird⟩)
    · simp only [honce] at hother
      split at hother <;> cases hother
    · simp only [honce, ite_eq_right_iff, reduceCtorEq, imp_false] at hfirst hsecond hthird
      omega
  refine ⟨?_, hdoubt, ?_, ?_, ?_⟩
  · refine (hwatched _).survives ?_ ?_
    · intro i hother
      simp only [hoften] at hother
      split at hother <;> cases hother
    · intro i hfirst hsecond
      simp only [hoften, ite_eq_right_iff, reduceCtorEq, imp_false] at hfirst hsecond ⊢
      exact if_pos (by omega)
  · refine (hwatched _).restarts 2 ?_ (by rw [honce]; rfl)
    rw [((hwatched _).leads 2 2).2 ⟨fun j hj => hbefore j (by omega), by rw [honce]; rfl⟩]
    exact nofun
  · exact ((hwatched _).leads 5 2).2 ⟨hbefore, by rw [honce]; rfl⟩
  · refine (hruns (by decide) 9 _ _).2 ⟨once, ?_, ?_⟩
    · rw [hover once 5 9 hdoubt (by decide)]
    · exact (standing_of_le ((hwatched _).ends 5 |>.2 ⟨hdoubt, hbefore⟩).2 (by decide)).symm

end Leader

end ConnectorKeeper
