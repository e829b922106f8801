import Mathlib
import ConnectorKeeper.Status

/-!
# Conditions over time

A report replaces the conditions of its type by one, which keeps the time since when its
`status` holds if the status held it already (`Status.next_eq`).  After any number of
reports on one type there is one condition of that type.  It says what the last report
said, and since when the reports have agreed with it (`Status.merged_history`).

Only the conditions before the first report may hold a type more than once.  So the
induction over the reports steps from a status that ends in the one condition of the
type (`Status.next_concat`).
-/

namespace ConnectorKeeper

/-! ## One report -/

/-- The last condition of a type with a `status`. -/
def Condition.lastOf (type status : String) (conditions : List Condition) : Option Condition :=
  (conditions.filter fun c => c.type = type && c.status = status).getLast?

namespace Condition

theorem keepTime_concat (c e : Condition) (earlier : List Condition) :
    c.keepTime (earlier ++ [e]) =
      let kept := c.keepTime earlier
      if e.type = kept.type && e.status = kept.status then
        { kept with lastTransitionTime := e.lastTransitionTime }
      else kept := by
  rw [keepTime, List.foldl_append]
  rfl

/-- A condition keeps the time of the last one of its type and `status`. -/
theorem keepTime_eq (c : Condition) (earlier : List Condition) :
    c.keepTime earlier = { c with
      lastTransitionTime := ((lastOf c.type c.status earlier).getD c).lastTransitionTime } := by
  induction earlier using List.reverseRecOn with
  | nil => rfl
  | append_singleton earlier e ih =>
    rw [keepTime_concat, ih]
    by_cases h : e.type = c.type ∧ e.status = c.status
    · simp [lastOf, h]
    · simp [lastOf, h]

end Condition

namespace Status

theorem next_eq (st : Status) (phase : Phase) (c : Condition) : st.next phase c =
    ⟨phase, st.conditions.filter (·.type ≠ c.type) ++ [{ c with lastTransitionTime :=
      ((Condition.lastOf c.type c.status st.conditions).getD c).lastTransitionTime }]⟩ := by
  rw [next, Condition.keepTime_eq]

/-- A report leaves the conditions of other types, in their order. -/
theorem foreign_next (st : Status) (phase : Phase) (c : Condition) :
    (st.next phase c).conditions.filter (·.type ≠ c.type) =
      st.conditions.filter (·.type ≠ c.type) := by
  simp [next_eq]

/-- A report to a status that ends in the one condition of the type. -/
theorem next_concat (conditions : List Condition) (c c' : Condition) (htype : c'.type = c.type)
    (phase phase' : Phase) :
    next ⟨phase, conditions.filter (·.type ≠ c.type) ++ [c]⟩ phase' c' =
      ⟨phase', conditions.filter (·.type ≠ c.type) ++ [{ c' with lastTransitionTime :=
        if c.status = c'.status then c.lastTransitionTime else c'.lastTransitionTime }]⟩ := by
  have hothers : ∀ e ∈ conditions.filter (·.type ≠ c.type), e.type ≠ c.type := by
    intro e he
    simpa using List.of_mem_filter he
  generalize conditions.filter (·.type ≠ c.type) = others at hothers
  have hkept : others.filter (·.type ≠ c.type) = others :=
    List.filter_eq_self.2 fun e he => decide_eq_true (hothers e he)
  have hnone : others.filter (fun e => e.type = c.type && e.status = c'.status) = [] := by
    rw [List.filter_eq_nil_iff]
    intro e he
    simp [hothers e he]
  rw [next_eq, htype, List.filter_append, hkept, Condition.lastOf, List.filter_append, hnone]
  by_cases hstatus : c.status = c'.status
  · simp [hstatus]
  · simp [hstatus]

/-- A report that is repeated at another time changes nothing. -/
theorem next_next (st : Status) (phase : Phase) (c : Condition) (now : String) :
    (st.next phase c).next phase { c with lastTransitionTime := now } = st.next phase c := by
  rw [next_eq st]
  generalize (Option.getD _ c).lastTransitionTime = time
  have hagain := next_concat st.conditions { c with lastTransitionTime := time }
    { c with lastTransitionTime := now } rfl phase phase
  rwa [if_pos rfl] at hagain

end Status

/-! ## Reports in a row -/

/-- What is reported in one go. -/
structure Report where
  /-- The phase. -/
  phase : Phase
  /-- The condition. -/
  condition : Condition

/-- The status after reports in a row. -/
def Status.merged (st : Status) (reports : List Report) : Status :=
  reports.foldl (fun st r => st.next r.phase r.condition) st

/-- The reports at the end that agree in a `status`. -/
def Report.run (status : String) (reports : List Report) : List Report :=
  reports.rtakeWhile (·.condition.status = status)

/-- The condition since which reports on a type agree in a `status`: the first of those at the end
that do.  If all do, it is the last one that the status before them held already, if it held one. -/
def Status.origin (st : Status) (reports : List Report) (type status : String) :
    Option Condition :=
  let held :=
    if reports.all (·.condition.status = status) then Condition.lastOf type status st.conditions
    else none
  held.or ((Report.run status reports).head?.map (·.condition))

section Run

variable {reports : List Report} {last : Report} {status : String}

theorem Report.run_concat_of_eq (h : last.condition.status = status) :
    run status (reports ++ [last]) = run status reports ++ [last] :=
  List.rtakeWhile_concat_pos _ _ _ (decide_eq_true h)

theorem Report.run_concat_of_ne (h : last.condition.status ≠ status) :
    run status (reports ++ [last]) = [] :=
  List.rtakeWhile_concat_neg _ _ _ (by simpa using h)

end Run

namespace Status

variable {st : Status} {reports : List Report} {last : Report} {type status : String}

theorem merged_concat (st : Status) (reports : List Report) (last : Report) :
    st.merged (reports ++ [last]) = (st.merged reports).next last.phase last.condition :=
  List.foldl_append

/-- One more report that agrees leaves the origin. -/
theorem origin_concat_of_eq {c : Condition} (h : st.origin reports type status = some c)
    (hstatus : last.condition.status = status) :
    st.origin (reports ++ [last]) type status = some c := by
  have hall : (reports ++ [last]).all (·.condition.status = status) =
      reports.all (·.condition.status = status) := by
    simp [hstatus]
  rw [origin, hall, Report.run_concat_of_eq hstatus, List.head?_append, Option.map_or,
    ← Option.or_assoc]
  rw [origin] at h
  rw [h, Option.some_or]

/-- After a report that does not agree, the next one begins anew. -/
theorem origin_concat_of_ne {before : Report} (hbefore : before.condition.status ≠ status)
    (hstatus : last.condition.status = status) :
    st.origin (reports ++ [before] ++ [last]) type status = some last.condition := by
  have hall : (reports ++ [before] ++ [last]).all (·.condition.status = status) = false := by
    simp [hbefore]
  rw [origin, hall, Report.run_concat_of_eq hstatus, Report.run_concat_of_ne hbefore]
  rfl

/-- After reports on one type there is one condition of it, with the time of the origin. -/
theorem merged_concat_eq (htype : ∀ r ∈ reports, r.condition.type = last.condition.type) :
    ∃ origin, st.origin (reports ++ [last]) last.condition.type last.condition.status =
        some origin ∧
      st.merged (reports ++ [last]) =
        ⟨last.phase, st.conditions.filter (·.type ≠ last.condition.type) ++
          [{ last.condition with lastTransitionTime := origin.lastTransitionTime }]⟩ := by
  induction reports using List.reverseRecOn generalizing last with
  | nil =>
    refine ⟨_, ?_, next_eq ..⟩
    have hrun : Report.run last.condition.status ([] ++ [last]) = [] ++ [last] :=
      Report.run_concat_of_eq rfl
    rw [List.nil_append] at hrun
    simp only [origin, List.nil_append, List.all_cons, List.all_nil, decide_true, Bool.and_true,
      if_true, hrun]
    exact Option.or_some ..
  | append_singleton reports before ih =>
    have hbefore : before.condition.type = last.condition.type := htype before (by simp)
    obtain ⟨origin, horigin, hmerged⟩ := @ih before fun r hr =>
      (htype r (List.mem_append_left _ hr)).trans hbefore.symm
    have hnext := next_concat st.conditions
      { before.condition with lastTransitionTime := origin.lastTransitionTime } last.condition
      hbefore.symm before.phase last.phase
    rw [merged_concat, hmerged, hnext, hbefore]
    by_cases hstatus : before.condition.status = last.condition.status
    · refine ⟨origin, ?_, ?_⟩
      · rw [hbefore, hstatus] at horigin
        exact origin_concat_of_eq horigin rfl
      · rw [if_pos hstatus]
    · refine ⟨last.condition, origin_concat_of_ne hstatus rfl, ?_⟩
      rw [if_neg hstatus]

/-- However many reports on one type there have been, the status has the phase of the last one and
the conditions of other types as they were, and one condition of the type.  That says what the last
report said, with the time since when the reports agree in its `status`.  Reporting the same again
changes nothing. -/
theorem merged_history (st : Status) (hne : reports ≠ [])
    (htype : ∀ r ∈ reports, r.condition.type = type) :
    ∃ last origin, reports.getLast? = some last ∧
      st.origin reports type last.condition.status = some origin ∧
      st.merged reports = ⟨last.phase, st.conditions.filter (·.type ≠ type) ++
        [{ last.condition with lastTransitionTime := origin.lastTransitionTime }]⟩ ∧
      ((st.merged reports).conditions.countP (·.type = type) = 1) ∧
      ∀ now, (st.merged reports).next last.phase
        { last.condition with lastTransitionTime := now } = st.merged reports := by
  obtain ⟨front, last, rfl⟩ := (List.eq_nil_or_concat' reports).resolve_left hne
  obtain rfl : last.condition.type = type := htype last (by simp)
  have hfront : ∀ r ∈ front, r.condition.type = last.condition.type :=
    fun r hr => htype r (List.mem_append_left _ hr)
  obtain ⟨origin, horigin, hmerged⟩ := @merged_concat_eq st front last hfront
  refine ⟨last, origin, by simp, horigin, hmerged, ?_, ?_⟩
  · rw [hmerged]
    simp [List.countP_append, List.countP_filter]
  · intro now
    rw [merged_concat]
    exact next_next ..

/-- A type that is held more than once at first.  Reports that all agree keep the time of the last
condition that says the same, and after one that does not the time is that of the next. -/
theorem merged_history_synced :
    let synced (status reason time : String) : Condition := ⟨"Synced", status, reason, "", time⟩
    let ready : Condition := ⟨"Ready", "True", "External", "", "t0"⟩
    let st : Status := ⟨.unknown,
      [synced "True" "A" "t1", synced "True" "B" "t2", ready, synced "False" "C" "t3"]⟩
    let agreeing : List Report :=
      [⟨.unknown, synced "True" "Created" "t4"⟩, ⟨.running, synced "True" "InSync" "t5"⟩]
    let turning : List Report :=
      [⟨.unknown, synced "True" "Created" "t4"⟩, ⟨.taskFailed, synced "False" "Failed" "t5"⟩,
        ⟨.running, synced "True" "InSync" "t6"⟩, ⟨.running, synced "True" "InSync" "t7"⟩]
    ((∀ r ∈ agreeing, r.condition.type = "Synced") ∧
      st.merged agreeing = ⟨.running, [ready, synced "True" "InSync" "t2"]⟩) ∧
    (∀ r ∈ turning, r.condition.type = "Synced") ∧
      st.merged turning = ⟨.running, [ready, synced "True" "InSync" "t6"]⟩ := by
  intro synced ready st agreeing turning
  have hagreeing : ∀ r ∈ agreeing, r.condition.type = "Synced" := by decide
  have hturning : ∀ r ∈ turning, r.condition.type = "Synced" := by decide
  have hagreeing_ne : agreeing ≠ [] := nofun
  have hturning_ne : turning ≠ [] := nofun
  refine ⟨⟨hagreeing, ?_⟩, hturning, ?_⟩
  · have horigin : st.origin agreeing "Synced" "True" = some (synced "True" "B" "t2") := by decide
    obtain ⟨last, origin, hlast, hfound, hmerged, -⟩ :=
      st.merged_history hagreeing_ne hagreeing
    obtain rfl := Option.some.inj hlast
    obtain rfl := Option.some.inj (horigin.symm.trans hfound)
    exact hmerged
  · have horigin : st.origin turning "Synced" "True" = some (synced "True" "InSync" "t6") := by
      decide
    obtain ⟨last, origin, hlast, hfound, hmerged, -⟩ :=
      st.merged_history hturning_ne hturning
    obtain rfl := Option.some.inj hlast
    obtain rfl := Option.some.inj (horigin.symm.trans hfound)
    exact hmerged

end Status

end ConnectorKeeper
